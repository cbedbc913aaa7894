import UrlRouting.Regex.Bracket

/-!
# Tokens

The signs of which an expression is made: leaves, the bounds of groups, bars and
repetitions. What a sign means may hang on the flags in force where it stands.
-/

namespace UrlRouting.Regex

inductive Token where
  /-- A leaf, and how deeply it is nested in itself. -/
  | leaf (e : Pattern) (depth : Nat)
  /-- The start of a group that captures. -/
  | capture (name : Option String)
  /-- The start of a group under flags of its own. -/
  | plain (flags : Flags)
  /-- Flags for the rest of the group. -/
  | flags (flags : Flags)
  | close
  | bar
  | again (min : Nat) (max : Option Nat) (lazy : Bool)
deriving DecidableEq, Repr

/-- The leaf of a single character. -/
def literalLeaf (f : Flags) (c : Char) : Pattern :=
  .take (f.fold (.single c))

/-- The leaf of a dot. -/
def dotLeaf? (f : Flags) : Option Pattern :=
  if !f.unicode then none
  else if f.dotNewline then some (.take .any)
  else if f.crlf then some (.take (.complement (.ofChars ['\r', '\n'])))
  else some (.take (.complement (.single '\n')))

/-- What a caret tests. -/
def Flags.caret (f : Flags) : Look :=
  if !f.multiLine then .textStart else if f.crlf then .lineStartCrlf else .lineStart

/-- What a dollar sign tests. -/
def Flags.dollar (f : Flags) : Look :=
  if !f.multiLine then .textEnd else if f.crlf then .lineEndCrlf else .lineEnd

/-- The leaf of an escape. -/
def escapeLeaf? (f : Flags) : Escape → Option Pattern
  | .literal c => some (literalLeaf f c)
  | .look l => some (.test l)
  | e => (e.class? f).map .take

/-- Reads decimal digits, over what verbose mode skips between them. -/
def readDigits (f : Flags) (held : List Char) (cs : List Char) : List Char × List Char :=
  match h : f.skip cs with
  | [] => (held.reverse, [])
  | c :: rest =>
    have := Flags.length_lt_of_skip h
    if c.isDigit then readDigits f (c :: held) rest else (held.reverse, c :: rest)
termination_by cs.length

theorem readDigits_of_skip {f : Flags} {cs rest : List Char} {c : Char} (held : List Char)
    (h : f.skip cs = c :: rest) :
    readDigits f held cs =
      if c.isDigit then readDigits f (c :: held) rest else (held.reverse, c :: rest) := by
  rw [readDigits]
  split <;> simp_all

/-- Reads a decimal number below `2 ^ 32`, with blanks around it. -/
def readCount (f : Flags) (cs : List Char) : Option (Nat × List Char) := do
  let (digits, rest) := readDigits f [] (cs.dropWhile isBlank)
  if digits = [] then none
  else
    let n ← numberValue 10 digits
    if n < 1 <<< 32 then return (n, rest.dropWhile isBlank) else none

/-- The least and the greatest number of rounds that braces give. -/
def readBounds (f : Flags) (cs : List Char) : Option (Nat × Option Nat × List Char) := do
  let (min, rest) ← readCount f (f.skip cs)
  match rest with
  | ',' :: rest =>
    match f.skip rest with
    | '\x7d' :: rest => return (min, none, rest)
    | rest =>
      let (max, rest) ← readCount f rest
      match rest with
      | '\x7d' :: rest => if min ≤ max then return (min, some max, rest) else none
      | _ => none
  | '\x7d' :: rest => return (min, some min, rest)
  | _ => none

/-- Braces give one number, a least one, or a least one and a greatest one. -/
theorem readBounds_eq_some_iff {f : Flags} {cs rest : List Char} {min : Nat}
    {max : Option Nat} :
    readBounds f cs = some (min, max, rest) ↔
      ∃ after, readCount f (f.skip cs) = some (min, after) ∧
        ((after = '\x7d' :: rest ∧ max = some min) ∨
          ∃ behind, after = ',' :: behind ∧
            ((f.skip behind = '\x7d' :: rest ∧ max = none) ∨
              ∃ greatest, (∀ tail, f.skip behind ≠ '\x7d' :: tail) ∧
                readCount f (f.skip behind) = some (greatest, '\x7d' :: rest) ∧
                min ≤ greatest ∧ max = some greatest)) := by
  constructor
  · intro h
    unfold readBounds at h
    obtain ⟨⟨least, after⟩, hleast, h⟩ := Option.bind_eq_some_iff.mp h
    dsimp only at h
    split at h
    · next behind =>
      split at h
      · next tail hend =>
        cases h
        exact ⟨_, hleast, .inr ⟨behind, rfl, .inl ⟨hend, rfl⟩⟩⟩
      · next hopen =>
        obtain ⟨⟨greatest, tail⟩, hgreatest, h⟩ := Option.bind_eq_some_iff.mp h
        dsimp only at h
        split at h
        · next tail =>
          split at h
          · next hle =>
            cases h
            exact ⟨_, hleast, .inr ⟨behind, rfl, .inr ⟨greatest, hopen, hgreatest, hle, rfl⟩⟩⟩
          · cases h
        · cases h
    · cases h
      exact ⟨_, hleast, .inl ⟨rfl, rfl⟩⟩
    · cases h
  · rintro ⟨after, hleast, ⟨rfl, rfl⟩ | ⟨behind, rfl, ⟨hend, rfl⟩ |
      ⟨greatest, hopen, hgreatest, hle, rfl⟩⟩⟩
    · rw [readBounds, hleast]
      rfl
    · rw [readBounds, hleast]
      simp [hend]
    · rw [readBounds, hleast]
      simp only [Option.bind_eq_bind, Option.bind_some, hgreatest]
      exact if_pos hle

/-- A repetition, made lazy by a question mark that follows. -/
def withLaziness (min : Nat) (max : Option Nat) : List Char → Token × List Char
  | '?' :: rest => (.again min max true, rest)
  | rest => (.again min max false, rest)

/-- A character of a group name; a name starts with a letter or a low line. -/
def isNameChar (first : Bool) (c : Char) : Bool :=
  c = '_' ||
    if first then Unicode.isAlphabetic c
    else c = '.' || c = '[' || c = ']' || Unicode.isAlphanumeric c

/-- A name that a group may carry. -/
def isGroupName : List Char → Bool
  | [] => false
  | c :: rest => isNameChar true c && rest.all (isNameChar false)

/-- Reads a group name and the sign that closes it. -/
def readName (cs : List Char) : Option (String × List Char) := do
  let (name, rest) ← cutAt '>' cs
  if isGroupName name then return (String.ofList name, rest) else none

theorem isNameChar_of_readName {cs rest : List Char} {c : Char} {name : String}
    (h : readName (c :: cs) = some (name, rest)) : isNameChar true c = true := by
  obtain ⟨⟨text, after⟩, hcut, h⟩ := Option.bind_eq_some_iff.mp h
  dsimp only at h
  split at h
  · next hname =>
    rw [cutAt] at hcut
    split at hcut
    · cases hcut
      cases hname
    · obtain ⟨⟨first, last⟩, -, heq⟩ := Option.map_eq_some_iff.mp hcut
      cases heq
      exact (Bool.and_eq_true_iff.mp hname).1
  · cases h

/-- Reads flags up to a colon or a closing parenthesis. `seen` are the letters and
the sign read so far; `value` tells whether flags are being set or unset. -/
def readFlags (f : Flags) (seen : List Char) (value : Bool) :
    List Char → Option (Flags × List Char × Char × List Char)
  | [] => none
  | c :: rest =>
    if c = ':' || c = ')' then
      if seen.head? = some '-' then none else some (f, seen, c, rest)
    else if seen.contains c then none
    else if c = '-' then readFlags f (c :: seen) false rest
    else do
      let f ← f.assign? c value
      readFlags f (c :: seen) value rest

/-- Reads what follows an opening parenthesis. -/
def readOpen (f : Flags) (cs : List Char) : Option (Token × List Char) :=
  match f.skip cs with
  | '?' :: rest =>
    match rest with
    | 'P' :: '<' :: rest => (readName rest).map fun (name, rest) => (.capture name, rest)
    | '=' :: _ => none
    | '!' :: _ => none
    | '<' :: '=' :: _ => none
    | '<' :: '!' :: _ => none
    | '<' :: rest => (readName rest).map fun (name, rest) => (.capture name, rest)
    | rest => do
      let (flags, seen, ending, rest) ← readFlags f [] true rest
      if ending = ':' then return (.plain flags, rest)
      else if seen = [] then none
      else return (.flags flags, rest)
  | rest => some (.capture none, rest)

/-- The ways to go on behind an opening parenthesis. -/
theorem readOpen_eq_some_iff {f : Flags} {cs rest : List Char} {token : Token} :
    readOpen f cs = some (token, rest) ↔
      ((∀ tail, f.skip cs ≠ '?' :: tail) ∧ token = .capture none ∧ rest = f.skip cs) ∨
      (∃ tail name, (f.skip cs = '?' :: 'P' :: '<' :: tail ∨ f.skip cs = '?' :: '<' :: tail) ∧
        readName tail = some (name, rest) ∧ token = .capture name) ∨
      (∃ tail g letters ending, f.skip cs = '?' :: tail ∧
        readFlags f [] true tail = some (g, letters, ending, rest) ∧
        ((ending = ':' ∧ token = .plain g) ∨
          (ending ≠ ':' ∧ letters ≠ [] ∧ token = .flags g))) := by
  constructor
  · intro h
    unfold readOpen at h
    split at h
    · next after hskip =>
      right
      split at h
      case h_1 =>
        obtain ⟨⟨name, left⟩, hname, heq⟩ := Option.map_eq_some_iff.mp h
        cases heq
        exact .inl ⟨_, name, .inl hskip, hname, rfl⟩
      case h_6 =>
        obtain ⟨⟨name, left⟩, hname, heq⟩ := Option.map_eq_some_iff.mp h
        cases heq
        exact .inl ⟨_, name, .inr hskip, hname, rfl⟩
      case h_7 =>
        obtain ⟨⟨g, letters, ending, left⟩, hflags, h⟩ := Option.bind_eq_some_iff.mp h
        dsimp only at h
        split at h
        · next hend =>
          cases h
          exact .inr ⟨after, g, letters, ending, hskip, hflags, .inl ⟨hend, rfl⟩⟩
        · next hend =>
          split at h <;> cases h
          exact .inr ⟨after, g, letters, ending, hskip, hflags, .inr ⟨hend, ‹_›, rfl⟩⟩
      all_goals cases h
    · next hquestion =>
      cases h
      exact .inl ⟨hquestion, rfl, rfl⟩
  · rintro (⟨hquestion, rfl, rfl⟩ | ⟨tail, name, hskip, hname, rfl⟩ |
      ⟨tail, g, letters, ending, hskip, hflags, hends⟩)
    · unfold readOpen
      split
      · next heq => exact absurd heq (hquestion _)
      · rfl
    · rcases hskip with hskip | hskip
      · simp [readOpen, hskip, hname]
      · unfold readOpen
        rw [hskip]
        cases tail with
        | nil => cases hname
        | cons c tail =>
          have hc := isNameChar_of_readName hname
          have hequal : c ≠ '=' := by rintro rfl; revert hc; decide
          have hmark : c ≠ '!' := by rintro rfl; revert hc; decide
          simp [hequal, hmark, hname]
    · unfold readOpen
      split
      · next after heq =>
        obtain rfl : tail = after := (List.cons.inj (hskip.symm.trans heq)).2
        split
        case h_7 =>
          rw [hflags]
          rcases hends with ⟨rfl, rfl⟩ | ⟨hend, hletters, rfl⟩
          · rfl
          · simp [hend, hletters]
        all_goals cases hflags
      · next hquestion => exact absurd hskip (hquestion tail)

/-- Reads the token that a text begins with. -/
def readToken (f : Flags) : List Char → Option (Token × List Char)
  | [] => none
  | c :: rest =>
    match c with
    | '(' => readOpen f rest
    | ')' => some (.close, rest)
    | '|' => some (.bar, rest)
    | '[' => (readClass f rest).map fun (part, rest) => (.leaf (.take part.cls) part.depth, rest)
    | '?' => some (withLaziness 0 (some 1) rest)
    | '*' => some (withLaziness 0 none rest)
    | '+' => some (withLaziness 1 none rest)
    | '\x7b' => (readBounds f rest).map fun (min, max, rest) => withLaziness min max (f.skip rest)
    | '\\' => do
      let (e, rest) ← readEscape f rest
      return (.leaf (← escapeLeaf? f e) 0, rest)
    | '.' => (dotLeaf? f).map fun e => (.leaf e 0, rest)
    | '^' => some (.leaf (.test f.caret) 0, rest)
    | '$' => some (.leaf (.test f.dollar) 0, rest)
    | c => some (.leaf (literalLeaf f c) 0, rest)

/-! ## What is left to read -/

theorem length_readDigits_le (f : Flags) (held cs : List Char) :
    (readDigits f held cs).2.length ≤ cs.length := by
  fun_induction readDigits f held cs <;> grind [Flags.length_skip_le]

theorem length_le_of_readCount {f : Flags} {cs rest : List Char} {n : Nat}
    (h : readCount f cs = some (n, rest)) : rest.length ≤ cs.length := by
  unfold readCount at h
  dsimp only at h
  split at h
  · cases h
  · obtain ⟨value, -, h⟩ := Option.bind_eq_some_iff.mp h
    split at h
    · cases h
      calc _ ≤ (readDigits f [] (cs.dropWhile isBlank)).2.length :=
            (List.dropWhile_suffix isBlank).length_le
        _ ≤ (cs.dropWhile isBlank).length := length_readDigits_le ..
        _ ≤ cs.length := (List.dropWhile_suffix isBlank).length_le
    · cases h

theorem length_le_of_readBounds {f : Flags} {cs rest : List Char} {min : Nat}
    {max : Option Nat}
    (h : readBounds f cs = some (min, max, rest)) : rest.length ≤ cs.length := by
  obtain ⟨after, hleast, hends⟩ := readBounds_eq_some_iff.mp h
  have hle := Nat.le_trans (length_le_of_readCount hleast) (f.length_skip_le cs)
  rcases hends with ⟨rfl, -⟩ | ⟨behind, rfl, hbehind⟩
  · exact Nat.le_of_lt hle
  · have hskip := f.length_skip_le behind
    rcases hbehind with ⟨hend, -⟩ | ⟨greatest, -, hgreatest, -, -⟩
    · rw [hend] at hskip
      simp only [List.length_cons] at hle hskip
      omega
    · have htail := length_le_of_readCount hgreatest
      simp only [List.length_cons] at hle htail
      omega

theorem length_withLaziness_le (min : Nat) (max : Option Nat) (cs : List Char) :
    (withLaziness min max cs).2.length ≤ cs.length := by
  unfold withLaziness
  split
  · exact Nat.le_succ _
  · exact Nat.le_refl _

theorem length_lt_of_readName {cs rest : List Char} {name : String}
    (h : readName cs = some (name, rest)) : rest.length < cs.length := by
  obtain ⟨⟨text, after⟩, hcut, h⟩ := Option.bind_eq_some_iff.mp h
  dsimp only at h
  split at h <;> cases h
  exact length_lt_of_cutAt hcut

theorem length_lt_of_readFlags {f g : Flags} {seen letters : List Char} {value : Bool}
    {cs rest : List Char} {ending : Char}
    (h : readFlags f seen value cs = some (g, letters, ending, rest)) :
    rest.length < cs.length := by
  induction cs generalizing f seen value with
  | nil => cases h
  | cons c tail ih =>
    rw [readFlags] at h
    split at h
    · split at h <;> cases h
      exact Nat.lt_succ_self _
    · split at h
      · cases h
      · split at h
        · exact Nat.lt_succ_of_lt (ih h)
        · obtain ⟨g', -, h⟩ := Option.bind_eq_some_iff.mp h
          exact Nat.lt_succ_of_lt (ih h)

theorem length_le_of_readOpen {f : Flags} {cs rest : List Char} {token : Token}
    (h : readOpen f cs = some (token, rest)) : rest.length ≤ cs.length := by
  refine Nat.le_trans ?_ (f.length_skip_le cs)
  rcases readOpen_eq_some_iff.mp h with ⟨-, -, rfl⟩ | ⟨tail, name, hskip, hname, -⟩ |
    ⟨tail, g, letters, ending, hskip, hflags, -⟩
  · exact Nat.le_refl _
  · have hlt := length_lt_of_readName hname
    rcases hskip with hskip | hskip <;>
    · rw [hskip]
      simp only [List.length_cons]
      omega
  · rw [hskip]
    exact Nat.le_succ_of_le (Nat.le_of_lt (length_lt_of_readFlags hflags))

theorem length_lt_of_readToken {f : Flags} {cs rest : List Char} {token : Token}
    (h : readToken f cs = some (token, rest)) : rest.length < cs.length := by
  cases cs with
  | nil => cases h
  | cons c tail =>
    refine Nat.lt_succ_of_le ?_
    unfold readToken at h
    dsimp only at h
    split at h
    case h_1 => exact length_le_of_readOpen h
    case h_4 =>
      obtain ⟨⟨part, after⟩, hread, heq⟩ := Option.map_eq_some_iff.mp h
      cases heq
      exact Nat.le_of_lt (length_lt_of_readClass hread)
    case h_5 | h_6 | h_7 =>
      have hrest := congrArg (List.length ·.2) (Option.some.inj h)
      exact hrest ▸ length_withLaziness_le ..
    case h_8 =>
      obtain ⟨⟨min, max, after⟩, hread, heq⟩ := Option.map_eq_some_iff.mp h
      have hrest := congrArg (List.length ·.2) heq
      calc rest.length = (withLaziness min max (f.skip after)).2.length := hrest.symm
        _ ≤ (f.skip after).length := length_withLaziness_le ..
        _ ≤ after.length := f.length_skip_le after
        _ ≤ tail.length := length_le_of_readBounds hread
    case h_9 =>
      obtain ⟨⟨e, after⟩, hread, h⟩ := Option.bind_eq_some_iff.mp h
      obtain ⟨leaf, -, h⟩ := Option.bind_eq_some_iff.mp h
      cases h
      exact Nat.le_of_lt (length_lt_of_readEscape hread)
    case h_10 =>
      obtain ⟨e, -, heq⟩ := Option.map_eq_some_iff.mp h
      cases heq
      exact Nat.le_refl _
    all_goals
      cases h
      exact Nat.le_refl _

end UrlRouting.Regex
