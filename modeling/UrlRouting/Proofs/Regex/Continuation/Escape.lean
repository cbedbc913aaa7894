import UrlRouting.Regex.Escape

/-!
# Reading on behind an escape

What is read of a text is read again when a closing sign and anything behind it
are put behind the text, and they are then left behind what was left. There is
one exception: in verbose mode a comment at the end of the text takes the sign
with it, and then nothing but signs may follow. Here this is shown for what is
passed over and for escapes.

Main statement: `readEscape_append`.
-/

namespace UrlRouting.Regex

/-- A text that closes a group or tests for the end. Under flags that let
comments through it is made of such signs alone. -/
structure Closing (f : Flags) (more : List Char) : Prop where
  sign : ∃ c rest, more = c :: rest ∧ (c = ')' ∨ c = '$')
  signs : f.verbose = true → ∀ c ∈ more, c = ')' ∨ c = '$'

/-- What is left with a closing text behind a text, if `rest` is left without it. -/
def Behind (f : Flags) (more rest rest' : List Char) : Prop :=
  rest' = rest ++ more ∨ (rest = [] ∧ rest' = [] ∧ f.verbose = true)

theorem Behind.eq_append {f : Flags} {more rest rest' : List Char}
    (h : Behind f more rest rest') (hne : rest ≠ []) : rest' = rest ++ more :=
  h.resolve_right fun hswallowed => hne hswallowed.1

theorem closing_of_signs {more : List Char} (hne : more ≠ [])
    (hsigns : ∀ c ∈ more, c = ')' ∨ c = '$') (f : Flags) : Closing f more := by
  obtain ⟨c, rest, rfl⟩ := List.exists_cons_of_ne_nil hne
  exact ⟨⟨c, rest, rfl, hsigns c (List.mem_cons_self ..)⟩, fun _ => hsigns⟩

theorem Closing.ne_nil {f : Flags} {more : List Char} (h : Closing f more) :
    more ≠ [] := by
  obtain ⟨c, rest, rfl, -⟩ := h.sign
  exact List.cons_ne_nil c rest

/-- No other sign stands in front. -/
theorem Closing.ne_cons {f : Flags} {more : List Char} (h : Closing f more) {c : Char}
    (hc : c ≠ ')' ∧ c ≠ '$') (rest : List Char) : more ≠ c :: rest := by
  rintro rfl
  obtain ⟨d, tail, heq, hd⟩ := h.sign
  obtain ⟨rfl, -⟩ := List.cons.inj heq
  rcases hd with rfl | rfl
  · exact hc.1 rfl
  · exact hc.2 rfl

/-- A character that no closing text begins with was in front before. -/
theorem cons_of_append_eq_cons {cs more rest : List Char} {c : Char}
    (h : cs ++ more = c :: rest) (hc : ∀ rest, more ≠ c :: rest) :
    ∃ rest', cs = c :: rest' := by
  cases cs with
  | nil => exact absurd h (hc rest)
  | cons d tail => exact ⟨tail, by rw [(List.cons.inj h).1]⟩

theorem cons_cons_of_append_eq_cons {cs more rest : List Char} {c : Char}
    (h : cs ++ more = c :: c :: rest) (hc : ∀ rest, more ≠ c :: rest) :
    ∃ rest', cs = c :: c :: rest' := by
  obtain ⟨tail, rfl⟩ := cons_of_append_eq_cons h hc
  obtain ⟨rest', rfl⟩ := cons_of_append_eq_cons (List.cons.inj h).2 hc
  exact ⟨rest', rfl⟩

section

variable {f : Flags} {more : List Char}

/-! ## Passing over blanks and comments -/

theorem skipVerbose_append (hmore : Closing f more) (hverbose : f.verbose = true)
    (cs : List Char) :
    ∀ inComment, skipVerbose inComment (cs ++ more) = skipVerbose inComment cs ++ more ∨
      (skipVerbose inComment cs = [] ∧ skipVerbose inComment (cs ++ more) = []) := by
  have hcomment : ∀ more : List Char, '\n' ∉ more → skipVerbose true more = [] := by
    intro more
    induction more with
    | nil => exact fun _ => rfl
    | cons c rest ih =>
      intro hline
      rw [List.mem_cons, not_or] at hline
      simp only [skipVerbose, if_true, decide_eq_true (Ne.symm hline.1)]
      exact ih hline.2
  induction cs with
  | nil =>
    intro inComment
    cases inComment with
    | true =>
      refine .inr ⟨rfl, hcomment more fun hmem => ?_⟩
      rcases hmore.signs hverbose _ hmem with heq | heq <;> exact absurd heq (by decide)
    | false =>
      obtain ⟨c, rest, rfl, rfl | rfl⟩ := hmore.sign <;> exact .inl rfl
  | cons c rest ih =>
    intro inComment
    simp only [List.cons_append, skipVerbose]
    split
    · exact ih _
    split
    · exact ih _
    split
    · exact ih _
    · exact .inl rfl

theorem Flags.skip_append (hmore : Closing f more) (cs : List Char) :
    Behind f more (f.skip cs) (f.skip (cs ++ more)) := by
  unfold Flags.skip
  cases hverbose : f.verbose with
  | false => exact .inl rfl
  | true =>
    rcases skipVerbose_append hmore hverbose cs false with h | ⟨h, h'⟩
    · exact .inl h
    · exact .inr ⟨h, h', hverbose⟩

theorem Flags.skip_append_of_cons (hmore : Closing f more) {cs tail : List Char}
    {c : Char}
    (h : f.skip cs = c :: tail) : f.skip (cs ++ more) = c :: (tail ++ more) := by
  rw [(f.skip_append hmore cs).eq_append (by simp [h]), h, List.cons_append]

theorem dropWhile_append_of_cons {p : Char → Bool} {cs tail : List Char} {c : Char}
    (h : cs.dropWhile p = c :: tail) :
    (cs ++ more).dropWhile p = c :: (tail ++ more) := by
  rw [List.dropWhile_append, if_neg (by simp [h]), h, List.cons_append]

/-- Blanks alone are passed over. -/
theorem skipVerbose_of_blanks {cs : List Char} (h : cs.dropWhile isBlank = []) :
    ∀ inComment, skipVerbose inComment cs = [] := by
  induction cs with
  | nil => exact fun _ => rfl
  | cons c rest ih =>
    intro inComment
    rw [List.dropWhile_cons] at h
    split at h
    · next hc =>
      simp only [skipVerbose, if_pos hc]
      split
      · exact ih h _
      · exact ih h _
    · cases h

theorem skipVerbose_dropWhile (cs : List Char) :
    skipVerbose false (cs.dropWhile isBlank) = skipVerbose false cs := by
  induction cs with
  | nil => rfl
  | cons c rest ih =>
    rw [List.dropWhile_cons]
    split
    · next hc =>
      rw [ih]
      simp [skipVerbose, hc]
    · rfl

theorem Flags.peek_append {tail : List Char} {c : Char} (h : f.peek tail = some c) :
    f.peek (tail ++ more) = some c := by
  have hhead : ∀ {cs : List Char}, cs.head? = some c → (cs ++ more).head? = some c := by
    intro cs hcs
    rw [List.head?_append, hcs]
    rfl
  have hdrop : ∀ {cs : List Char}, (cs.dropWhile isBlank).head? = some c →
      ((cs ++ more).dropWhile isBlank).head? = some c := by
    intro cs hcs
    obtain ⟨rest, hrest⟩ := List.head?_eq_some_iff.mp hcs
    rw [dropWhile_append_of_cons hrest]
    rfl
  unfold Flags.peek at h ⊢
  split
  · rw [if_pos ‹_›] at h
    split at h
    · next rest hrest =>
      rw [dropWhile_append_of_cons hrest]
      exact hdrop h
    · next hne =>
      obtain ⟨rest, hrest⟩ := List.head?_eq_some_iff.mp h
      rw [dropWhile_append_of_cons hrest]
      split
      · next heq => exact absurd (by rw [hrest, (List.cons.inj heq).1]) (hne rest)
      · rfl
  · rw [if_neg ‹_›] at h
    exact hhead h

/-- Where anything but blanks and comments follows, some character is next. -/
theorem Flags.exists_peek {tail : List Char} (h : f.skip tail ≠ []) :
    ∃ c, f.peek tail = some c := by
  unfold Flags.skip at h
  unfold Flags.peek
  split
  · rw [if_pos ‹_›, ← skipVerbose_dropWhile] at h
    cases hdrop : tail.dropWhile isBlank with
    | nil => exact absurd (congrArg (skipVerbose false) hdrop) h
    | cons c rest =>
      rw [hdrop] at h
      split
      · next behind heq =>
        -- a comment follows, which does not go to the end of the text
        obtain ⟨rfl, rfl⟩ := List.cons.inj heq
        have hnumber : isBlank '#' = false := by decide
        cases hrest : rest.dropWhile isBlank with
        | nil =>
          exact absurd (skipVerbose_of_blanks hrest true) (by simpa [skipVerbose, hnumber] using h)
        | cons d behind => exact ⟨d, rfl⟩
      · exact ⟨c, rfl⟩
  · rw [if_neg ‹_›] at h
    obtain ⟨c, rest, rfl⟩ := List.exists_cons_of_ne_nil h
    exact ⟨c, rfl⟩

/-! ## Escapes -/

theorem readFixedHex_append (hmore : Closing f more) {count value : Nat}
    {cs rest : List Char}
    {c : Char} (h : readFixedHex f count value cs = some (c, rest)) :
    ∃ rest', readFixedHex f count value (cs ++ more) = some (c, rest') ∧
      Behind f more rest rest' := by
  induction count generalizing value cs with
  | zero =>
    obtain ⟨d, hd, heq⟩ := Option.map_eq_some_iff.mp h
    cases heq
    exact ⟨rest ++ more, by rw [readFixedHex, hd]; rfl, .inl rfl⟩
  | succ count ih =>
    cases cs with
    | nil => cases h
    | cons d tail =>
      obtain ⟨digit, hdigit, h⟩ := Option.bind_eq_some_iff.mp h
      obtain ⟨rest', hread, hrest⟩ := ih h
      rcases f.skip_append hmore tail with hskip | ⟨hnil, hnil', hverbose⟩
      · refine ⟨rest', ?_, hrest⟩
        rw [List.cons_append, readFixedHex, hdigit, hskip]
        exact hread
      · -- the digits end with the text
        refine ⟨rest, ?_, ?_⟩
        · rw [List.cons_append, readFixedHex, hdigit, hnil', ← hnil]
          exact h
        · rw [hnil] at h
          have hle := length_le_of_readFixedHex h
          exact .inr ⟨List.length_eq_zero_iff.mp (Nat.le_zero.mp hle),
            List.length_eq_zero_iff.mp (Nat.le_zero.mp hle), hverbose⟩

theorem readBraced_append (hmore : Closing f more) {cs held text rest : List Char}
    (h : readBraced f cs held = some (text, rest)) :
    readBraced f (cs ++ more) held = some (text, rest ++ more) := by
  induction cs, held using readBraced.induct f with
  | case1 cs held hnil =>
    rw [readBraced] at h
    split at h <;> simp_all
  | case2 cs held tail hskip _ =>
    rw [readBraced_of_skip held hskip, if_pos rfl] at h
    rw [readBraced_of_skip held (Flags.skip_append_of_cons hmore hskip), if_pos rfl]
    cases h
    rfl
  | case3 cs held c tail hskip _ hc ih =>
    rw [readBraced_of_skip held hskip, if_neg hc] at h
    rw [readBraced_of_skip held (Flags.skip_append_of_cons hmore hskip), if_neg hc]
    exact ih h

theorem readHex_append (hmore : Closing f more) {count : Nat} (hcount : 0 < count)
    {cs rest : List Char} {c : Char} (h : readHex f count cs = some (c, rest)) :
    ∃ rest', readHex f count (cs ++ more) = some (c, rest') ∧ Behind f more rest rest' := by
  unfold readHex at h
  split at h
  · next braced hskip =>
    obtain ⟨⟨digits, tail⟩, hbraced, h⟩ := Option.bind_eq_some_iff.mp h
    dsimp only at h
    split at h
    · cases h
    · next hdigits =>
      obtain ⟨value, hvalue, h⟩ := Option.bind_eq_some_iff.mp h
      obtain ⟨d, hd, h⟩ := Option.bind_eq_some_iff.mp h
      cases h
      refine ⟨f.skip (tail ++ more), ?_, f.skip_append hmore tail⟩
      rw [readHex, Flags.skip_append_of_cons hmore hskip]
      simp [readBraced_append hmore hbraced, hdigits, hvalue, hd]
  · next hbrace =>
    obtain ⟨hdigits, hgives⟩ := Option.filter_eq_some_iff.mp h
    have hne : f.skip cs ≠ [] := by
      intro hnil
      obtain ⟨n, rfl⟩ := Nat.exists_eq_succ_of_ne_zero (Nat.ne_of_gt hcount)
      rw [hnil] at hdigits
      cases hdigits
    obtain ⟨rest', hread, hrest⟩ := readFixedHex_append hmore hdigits
    refine ⟨rest', ?_, hrest⟩
    rw [readHex, (f.skip_append hmore cs).eq_append hne]
    split
    · next tail heq =>
      obtain ⟨d, behind, hskip⟩ := List.exists_cons_of_ne_nil hne
      rw [hskip, List.cons_append] at heq
      exact absurd (by rw [hskip, (List.cons.inj heq).1]) (hbrace behind)
    · exact Option.filter_eq_some_iff.mpr ⟨hread, hgives⟩

theorem readProperty_append (hmore : Closing f more) {negated : Bool}
    {cs rest : List Char} {e : Escape} (h : readProperty f negated cs = some (e, rest)) :
    readProperty f negated (cs ++ more) = some (e, rest ++ more) := by
  unfold readProperty at h
  split at h
  · cases h
  · next braced hskip =>
    obtain ⟨⟨text, tail⟩, hbraced, h⟩ := Option.bind_eq_some_iff.mp h
    obtain ⟨⟨p, absent⟩, hproperty, h⟩ := Option.bind_eq_some_iff.mp h
    cases h
    rw [readProperty, Flags.skip_append_of_cons hmore hskip]
    simp [readBraced_append hmore hbraced, hproperty]
  · next c tail hbrace hskip =>
    rw [readProperty, Flags.skip_append_of_cons hmore hskip]
    split at h
    · cases h
    · next hc =>
      obtain ⟨p, hp, heq⟩ := Option.map_eq_some_iff.mp h
      cases heq
      simp [hc, hp]

theorem readWordBound_append (hmore : Closing f more) {cs rest : List Char} {l : Look}
    (h : readWordBound f cs = some (l, rest)) :
    readWordBound f (cs ++ more) = some (l, rest ++ more) := by
  unfold readWordBound at h
  dsimp only at h
  split at h
  · next braced =>
    split at h
    · cases h
    · next c tail hskip =>
      rw [List.cons_append, readWordBound]
      simp only [Flags.skip_append_of_cons hmore hskip]
      split at h
      · next hc =>
        obtain ⟨⟨word, after⟩, hbraced, h⟩ := Option.bind_eq_some_iff.mp h
        have hread := readBraced_append hmore hbraced
        rw [List.cons_append] at hread
        rw [if_pos hc, hread]
        dsimp only at h
        simp only [Option.bind_eq_bind, Option.bind_some]
        split at h <;> cases h <;> rfl
      · next hc =>
        rw [if_neg hc]
        cases h
        rfl
  · next hbrace =>
    cases h
    cases cs with
    | nil =>
      rw [List.nil_append, readWordBound]
      exact fun tail => hmore.ne_cons (by decide) tail
    | cons c tail =>
      rw [List.cons_append, readWordBound]
      exact fun _ heq => hbrace tail (by rw [(List.cons.inj heq).1])

theorem readEscape_append (hmore : Closing f more) {cs rest : List Char} {e : Escape}
    (h : readEscape f cs = some (e, rest)) :
    ∃ rest', readEscape f (cs ++ more) = some (e, rest') ∧ Behind f more rest rest' := by
  cases cs with
  | nil => cases h
  | cons c tail =>
    unfold readEscape at h
    rw [List.cons_append]
    dsimp only at h
    split at h
    case h_1 | h_2 | h_3 =>
      obtain ⟨⟨d, after⟩, hread, heq⟩ := Option.map_eq_some_iff.mp h
      cases heq
      obtain ⟨rest', hread', hrest⟩ := readHex_append hmore (by decide) hread
      exact ⟨rest', by simp [readEscape, hread'], hrest⟩
    case h_4 | h_5 =>
      exact ⟨rest ++ more, by simp [readEscape, readProperty_append hmore h], .inl rfl⟩
    case h_14 =>
      obtain ⟨⟨l, after⟩, hread, heq⟩ := Option.map_eq_some_iff.mp h
      cases heq
      exact ⟨after ++ more, by simp [readEscape, readWordBound_append hmore hread], .inl rfl⟩
    case h_18 =>
      refine ⟨rest ++ more, ?_, .inl rfl⟩
      unfold readEscape
      dsimp only
      split
      case h_18 => split at h <;> simp_all
      all_goals simp_all
    all_goals
      cases h
      exact ⟨rest ++ more, rfl, .inl rfl⟩

end

end UrlRouting.Regex
