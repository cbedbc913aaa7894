import UrlRouting.Json.Reader
import UrlRouting.Json.Value

/-!
# JSON that is written is read back

A character that may not stand in a string is written as an escape that the
reader takes for the character, and every other one stands for itself. Line
breaks and the blanks behind them are passed over. So the text of a value is
read as the value, whatever texts there are in it.

Main statement: `documentOf?_pretty`.
-/

namespace UrlRouting.Json

mutual

/-- The document that a value stands for. -/
def Value.document : Value → Document
  | .null => .null
  | .text s => .text s
  | .object entries => .table (documentsOf entries)

/-- The entries of a table that the entries of an object stand for. -/
def documentsOf : List (String × Value) → List (Document × Document)
  | [] => []
  | (key, value) :: rest => (.text key, value.document) :: documentsOf rest

end

theorem documentsOf_eq_map (entries : List (String × Value)) :
    documentsOf entries = entries.map fun (key, value) => (.text key, value.document) := by
  induction entries with
  | nil => rfl
  | cons entry rest ih => rw [documentsOf, ih]; rfl

/-! ## Blanks -/

theorem skipBlanks_blank {c : Char} (hc : isBlank c = true) (cs : List Char) :
    skipBlanks (c :: cs) = skipBlanks cs :=
  List.dropWhile_cons_of_pos hc

theorem skipBlanks_not_blank {c : Char} (hc : isBlank c = false) (cs : List Char) :
    skipBlanks (c :: cs) = c :: cs :=
  List.dropWhile_cons_of_neg (by simp [hc])

theorem skipBlanks_skipBlanks (cs : List Char) :
    skipBlanks (skipBlanks cs) = skipBlanks cs := by
  induction cs with
  | nil => rfl
  | cons c rest ih =>
    cases hc : isBlank c with
    | true => rw [skipBlanks_blank hc, ih]
    | false => rw [skipBlanks_not_blank hc, skipBlanks_not_blank hc]

theorem skipBlanks_newline (depth : Nat) (cs : List Char) :
    skipBlanks (newline depth ++ cs) = skipBlanks cs := by
  refine List.dropWhile_append_of_pos fun c hc => ?_
  rcases List.mem_cons.mp hc with rfl | hc
  · rfl
  · rw [List.eq_of_mem_replicate hc]
    rfl

theorem readValue_blank {c : Char} (hc : isBlank c = true) (fuel : Nat) (cs : List Char) :
    readValue fuel (c :: cs) = readValue fuel cs := by
  cases fuel with
  | zero => rfl
  | succ fuel => rw [readValue, readValue, skipBlanks_blank hc]

theorem readEntries_skipBlanks (fuel : Nat) (held : List (Document × Document))
    (cs : List Char) :
    readEntries fuel held (skipBlanks cs) = readEntries fuel held cs := by
  cases fuel with
  | zero => rfl
  | succ fuel => rw [readEntries, readEntries, skipBlanks_skipBlanks]

/-! ## Strings -/

theorem unitOf?_control {n : Nat} (hn : n < 0x20) :
    unitOf? '0' '0' (hexDigit (n / 16)) (hexDigit (n % 16)) = some n := by
  have hall : ∀ n < 0x20, unitOf? '0' '0' (hexDigit (n / 16)) (hexDigit (n % 16)) = some n := by
    decide
  exact hall n hn

theorem readString_escape {e c : Char} (he : escapeOf? e = some c)
    (held rest : List Char) :
    readString held none true ('\\' :: e :: rest) = readString (c :: held) none true rest := by
  conv =>
    lhs
    unfold readString
  split
  case h_1 heq => cases heq
  case h_2 heq => simp at heq
  case h_3 heq =>
    -- no single letter is written for a code unit
    simp only [List.cons.injEq] at heq
    rw [heq.2.1] at he
    cases he
  case h_4 heq =>
    cases heq
    rw [he]
    rfl
  case h_5 hslash heq =>
    cases heq
    exact (hslash e rest rfl rfl).elim

theorem readString_plain {c : Char} (hquote : c ≠ '"') (hslash : c ≠ '\\') (hc : ¬c.toNat < 0x20)
    (held rest : List Char) :
    readString held none true (c :: rest) = readString (c :: held) none true rest := by
  conv =>
    lhs
    unfold readString
  split
  case h_1 heq => cases heq
  case h_2 heq => exact absurd (List.cons.inj heq).1 hquote
  case h_3 heq => exact absurd (List.cons.inj heq).1 hslash
  case h_4 heq => exact absurd (List.cons.inj heq).1 hslash
  case h_5 heq =>
    cases heq
    rw [if_neg hc]
    rfl

/-- A control character is read from the number of its code unit. -/
theorem readString_control {c : Char} (hc : c.toNat < 0x20) (held rest : List Char) :
    readString held none true ('\\' :: 'u' :: '0' :: '0' :: hexDigit (c.toNat / 16) ::
      hexDigit (c.toNat % 16) :: rest) = readString (c :: held) none true rest := by
  have hhigh : isHighSurrogate c.toNat = false := by
    simp only [isHighSurrogate, Bool.and_eq_false_iff, decide_eq_false_iff_not]
    omega
  have hlow : isLowSurrogate c.toNat = false := by
    simp only [isLowSurrogate, Bool.and_eq_false_iff, decide_eq_false_iff_not]
    omega
  rw [readString, unitOf?_control hc]
  simp [hhigh, hlow]

/-- A character is read as it was written. -/
theorem readString_escapeChar (c : Char) (held rest : List Char) :
    readString held none true (escapeChar c ++ rest) = readString (c :: held) none true rest := by
  unfold escapeChar
  split
  case h_8 hquote hslash _ _ _ _ _ =>
    by_cases hcontrol : c.toNat < 0x20
    · rw [if_pos hcontrol]
      exact readString_control hcontrol held rest
    · rw [if_neg hcontrol]
      exact readString_plain hquote hslash hcontrol held rest
  all_goals exact readString_escape rfl held rest

theorem readString_written (cs held rest : List Char) :
    readString held none true (cs.flatMap escapeChar ++ '"' :: rest) =
      some (some (String.ofList (held.reverse ++ cs)), rest) := by
  induction cs generalizing held with
  | nil => simp [readString]
  | cons c cs ih =>
    rw [List.flatMap_cons, List.append_assoc, readString_escapeChar, ih, List.reverse_cons,
      List.append_assoc]
    rfl

/-- A string in quotes is read up to its closing quote. -/
theorem readString_quote (s : String) (rest : List Char) :
    readString [] none true (s.toList.flatMap escapeChar ++ '"' :: rest) = some (some s, rest) := by
  rw [readString_written, List.reverse_nil, List.nil_append, String.ofList_toList]

theorem quote_append (s : String) (rest : List Char) :
    quote s ++ rest = '"' :: (s.toList.flatMap escapeChar ++ '"' :: rest) := by
  simp [quote]

/-! ## Values -/

theorem readValue_quote (fuel : Nat) (s : String) (rest : List Char) :
    readValue (fuel + 1) (quote s ++ rest) = some (.text s, rest) := by
  rw [quote_append]
  show (readString [] none true _).bind _ = _
  rw [readString_quote]
  rfl

/-- An object with entries is read from its first entry on. -/
theorem readValue_object (fuel : Nat) (cs : List Char)
    (h : (skipBlanks cs).head? ≠ some '\x7d') :
    readValue (fuel + 1) ('\x7b' :: cs) = readEntries fuel [] cs := by
  rw [readValue, skipBlanks_not_blank rfl, ← readEntries_skipBlanks]
  split
  case h_3 heq =>
    cases heq
    split
    · next hclose => exact absurd (by rw [hclose]; rfl) h
    · rfl
  case h_7 hopen _ _ _ => exact (hopen cs rfl).elim
  all_goals next heq => simp at heq

/-- An entry is a string, a colon and a value; behind a comma there is another entry. -/
theorem readEntries_entry {fuel : Nat} {value : Document} {cs behind : List Char}
    (key : String)
    (hvalue : readValue fuel cs = some (value, behind))
    (held : List (Document × Document)) (depth : Nat) :
    readEntries (fuel + 1) held (newline depth ++ (quote key ++ ':' :: cs)) =
      (match skipBlanks behind with
        | ',' :: rest => readEntries fuel ((.text key, value) :: held) rest
        | '\x7d' :: rest => some (.table ((.text key, value) :: held).reverse, rest)
        | _ => none) := by
  rw [← readEntries_skipBlanks, skipBlanks_newline, readEntries_skipBlanks, quote_append]
  show (readString [] none true _).bind _ = _
  rw [readString_quote]
  show (readValue fuel cs).bind _ = _
  rw [hvalue]
  rfl

/-- What is written behind the value of an entry. -/
def writeBehind (depth : Nat) (entries : List (String × Value)) : List Char :=
  (if entries = [] then [] else [',']) ++ writeEntries depth entries

theorem writeBehind_nil (depth : Nat) : writeBehind depth [] = [] :=
  rfl

theorem writeBehind_cons (depth : Nat) (entry : String × Value)
    (entries : List (String × Value)) :
    writeBehind depth (entry :: entries) = ',' :: writeEntries depth (entry :: entries) :=
  rfl

theorem writeEntries_cons (depth : Nat) (key : String) (value : Value)
    (entries : List (String × Value)) (rest : List Char) :
    writeEntries depth ((key, value) :: entries) ++ rest =
      newline (depth + 1) ++ (quote key ++ ':' :: (' ' :: (value.write (depth + 1) ++
        (writeBehind depth entries ++ rest)))) := by
  simp [writeEntries, writeBehind]

theorem length_writeEntries_cons (depth : Nat) (key : String) (value : Value)
    (entries : List (String × Value)) :
    (value.write (depth + 1)).length + (writeEntries depth entries).length <
      (writeEntries depth ((key, value) :: entries)).length := by
  simp [writeEntries, newline]
  omega

mutual

/-- The text of a value is read as the value. -/
theorem readValue_write (v : Value) (depth : Nat) {fuel : Nat}
    (hfuel : (v.write depth).length ≤ fuel) (rest : List Char) :
    readValue fuel (v.write depth ++ rest) = some (v.document, rest) := by
  match v, fuel with
  | .null, 0 => simp [Value.write] at hfuel
  | .null, fuel + 1 => rfl
  | .text s, 0 => simp [Value.write, quote] at hfuel
  | .text s, fuel + 1 => exact readValue_quote fuel s rest
  | .object [], 0 => simp [Value.write] at hfuel
  | .object [], fuel + 1 => rfl
  | .object (entry :: entries), 0 => simp [Value.write] at hfuel
  | .object ((key, value) :: entries), fuel + 1 =>
    have htext : Value.write depth (.object ((key, value) :: entries)) ++ rest =
        '\x7b' :: (writeEntries depth ((key, value) :: entries) ++
          (newline depth ++ '\x7d' :: rest)) := by
      simp [Value.write]
    have hlength : (writeEntries depth ((key, value) :: entries)).length ≤ fuel := by
      simp [Value.write] at hfuel
      omega
    rw [htext, readValue_object,
      readEntries_write key value entries depth hlength [] rest]
    · rfl
    · rw [writeEntries_cons, skipBlanks_newline, quote_append, skipBlanks_not_blank rfl]
      simp

/-- The texts of entries are read as the entries. -/
theorem readEntries_write (key : String) (value : Value) (entries : List (String × Value))
    (depth : Nat) {fuel : Nat}
    (hfuel : (writeEntries depth ((key, value) :: entries)).length ≤ fuel)
    (held : List (Document × Document)) (rest : List Char) :
    readEntries fuel held
        (writeEntries depth ((key, value) :: entries) ++ (newline depth ++ '\x7d' :: rest)) =
      some (.table (held.reverse ++ documentsOf ((key, value) :: entries)), rest) := by
  have hlength := length_writeEntries_cons depth key value entries
  match fuel with
  | 0 => omega
  | fuel + 1 =>
    have hvalue : readValue fuel (' ' :: (value.write (depth + 1) ++
        (writeBehind depth entries ++ (newline depth ++ '\x7d' :: rest)))) =
          some (value.document,
            writeBehind depth entries ++ (newline depth ++ '\x7d' :: rest)) := by
      rw [readValue_blank rfl]
      exact readValue_write value (depth + 1) (by omega) _
    rw [writeEntries_cons, readEntries_entry key hvalue]
    match entries with
    | [] =>
      rw [writeBehind_nil, List.nil_append, skipBlanks_newline, skipBlanks_not_blank rfl]
      simp [documentsOf]
    | (next, nextValue) :: entries =>
      have hrest : (writeEntries depth ((next, nextValue) :: entries)).length ≤ fuel := by omega
      rw [writeBehind_cons, List.cons_append, skipBlanks_not_blank rfl]
      show readEntries fuel _ _ = _
      rw [readEntries_write next nextValue entries depth hrest]
      simp [documentsOf]

end

/-- The text of a value, read as JSON, is the value. -/
theorem documentOf?_pretty (v : Value) :
    documentOf? v.pretty.toList = some ⟨v.document, []⟩ := by
  rw [Value.pretty, String.toList_ofList]
  have hread := readValue_write v 0 (Nat.le_succ _) []
  rw [List.append_nil] at hread
  rw [documentOf?, hread]
  rfl

end UrlRouting.Json
