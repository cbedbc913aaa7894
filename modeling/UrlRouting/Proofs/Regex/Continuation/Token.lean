import UrlRouting.Proofs.Regex.Continuation.Bracket
import UrlRouting.Regex.Token

/-!
# Reading on behind a token

With a closing text behind a text, the first token of the text is the same. The closing
text is left behind the rest, unless a comment takes it.

Main statement: `readToken_append`.
-/

namespace UrlRouting.Regex

section

variable {f : Flags} {more : List Char}

theorem readDigits_append (hmore : Closing f more) {held cs : List Char}
    (h : (readDigits f held cs).2 ≠ []) :
    readDigits f held (cs ++ more) =
      ((readDigits f held cs).1, (readDigits f held cs).2 ++ more) := by
  induction held, cs using readDigits.induct f with
  | case1 held cs hskip =>
    refine absurd ?_ h
    rw [readDigits]
    split <;> simp_all
  | case2 held cs c tail hskip _ hc ih =>
    rw [readDigits_of_skip held hskip, if_pos hc] at h ⊢
    rw [readDigits_of_skip held (Flags.skip_append_of_cons hmore hskip), if_pos hc]
    exact ih h
  | case3 held cs c tail hskip _ hc =>
    rw [readDigits_of_skip held hskip, if_neg hc,
      readDigits_of_skip held (Flags.skip_append_of_cons hmore hskip), if_neg hc, List.cons_append]

theorem dropWhile_append_of_ne_nil {p : Char → Bool} {cs : List Char}
    (h : cs.dropWhile p ≠ []) :
    (cs ++ more).dropWhile p = cs.dropWhile p ++ more := by
  obtain ⟨c, rest, hcons⟩ := List.exists_cons_of_ne_nil h
  rw [dropWhile_append_of_cons hcons, hcons, List.cons_append]

theorem readCount_nil : readCount f [] = none := by
  have hdigits : (readDigits f [] []).1 = [] := by
    rw [readDigits]
    split
    · rfl
    · next hskip =>
      have hnil : f.skip [] = [] := by simp [Flags.skip, skipVerbose]
      rw [hnil] at hskip
      cases hskip
  simp [readCount, hdigits]

/-- A number behind which anything is left. -/
theorem readCount_append (hmore : Closing f more) {cs rest : List Char} {n : Nat}
    (h : readCount f cs = some (n, rest)) (hne : rest ≠ []) :
    readCount f (cs ++ more) = some (n, rest ++ more) := by
  unfold readCount at h
  dsimp only at h
  split at h
  · cases h
  · next hdigits =>
    obtain ⟨value, hvalue, h⟩ := Option.bind_eq_some_iff.mp h
    split at h
    · next hlt =>
      cases h
      have hleft : (readDigits f [] (cs.dropWhile isBlank)).2 ≠ [] := by
        intro hnil
        rw [hnil] at hne
        exact hne rfl
      have hblank : cs.dropWhile isBlank ≠ [] := by
        intro hnil
        have hle := length_readDigits_le f [] (cs.dropWhile isBlank)
        rw [hnil] at hle hleft
        exact hleft (List.length_eq_zero_iff.mp (Nat.le_zero.mp hle))
      rw [readCount, dropWhile_append_of_ne_nil hblank, readDigits_append hmore hleft]
      have hlt' : n < 4294967296 := hlt
      simp [hdigits, hvalue, hlt', dropWhile_append_of_ne_nil hne]
    · cases h

theorem readBounds_append (hmore : Closing f more) {cs rest : List Char} {min : Nat}
    {max : Option Nat} (h : readBounds f cs = some (min, max, rest)) :
    readBounds f (cs ++ more) = some (min, max, rest ++ more) := by
  obtain ⟨after, hleast, hends⟩ := readBounds_eq_some_iff.mp h
  have hafter : after ≠ [] := by
    rcases hends with ⟨rfl, -⟩ | ⟨behind, rfl, -⟩ <;> exact List.cons_ne_nil _ _
  have hleast' : readCount f (f.skip (cs ++ more)) = some (min, after ++ more) := by
    have hskip : f.skip cs ≠ [] := by
      intro hnil
      rw [hnil, readCount_nil] at hleast
      cases hleast
    rw [(f.skip_append hmore cs).eq_append hskip]
    exact readCount_append hmore hleast hafter
  refine readBounds_eq_some_iff.mpr ⟨_, hleast', ?_⟩
  rcases hends with ⟨rfl, rfl⟩ | ⟨behind, rfl, hbehind⟩
  · exact .inl ⟨rfl, rfl⟩
  · refine .inr ⟨behind ++ more, rfl, ?_⟩
    rcases hbehind with ⟨hend, rfl⟩ | ⟨greatest, hopen, hgreatest, hle, rfl⟩
    · exact .inl ⟨Flags.skip_append_of_cons hmore hend, rfl⟩
    · have hne : f.skip behind ≠ [] := by
        intro hnil
        rw [hnil, readCount_nil] at hgreatest
        cases hgreatest
      rw [(f.skip_append hmore behind).eq_append hne]
      refine .inr ⟨greatest, fun tail heq => ?_,
        readCount_append hmore hgreatest (List.cons_ne_nil _ _), hle, rfl⟩
      obtain ⟨tail', hcons⟩ := cons_of_append_eq_cons heq (hmore.ne_cons (by decide))
      exact hopen tail' hcons

theorem withLaziness_append (hmore : Closing f more) (min : Nat) (max : Option Nat)
    (cs : List Char) :
    withLaziness min max (cs ++ more) =
      ((withLaziness min max cs).1, (withLaziness min max cs).2 ++ more) := by
  cases cs with
  | nil =>
    rw [List.nil_append, withLaziness]
    · rfl
    · exact fun rest => hmore.ne_cons (by decide) rest
  | cons c rest =>
    by_cases hc : c = '?'
    · subst hc
      rfl
    · simp [withLaziness, hc]

theorem readName_append_of_some {cs rest : List Char} {name : String}
    (h : readName cs = some (name, rest)) :
    readName (cs ++ more) = some (name, rest ++ more) := by
  obtain ⟨⟨text, after⟩, hcut, h⟩ := Option.bind_eq_some_iff.mp h
  dsimp only at h
  split at h
  · next hname =>
    cases h
    rw [readName, cutAt_append_of_some hcut]
    simp [hname]
  · cases h

theorem readFlags_append {g : Flags} {seen letters : List Char} {value : Bool}
    {cs rest : List Char}
    {ending : Char} {f : Flags}
    (h : readFlags f seen value cs = some (g, letters, ending, rest)) :
    readFlags f seen value (cs ++ more) = some (g, letters, ending, rest ++ more) := by
  induction cs generalizing f seen value with
  | nil => cases h
  | cons c tail ih =>
    rw [readFlags] at h
    rw [List.cons_append, readFlags]
    split at h
    · next hend =>
      rw [if_pos hend]
      split at h
      · cases h
      · next hminus =>
        cases h
        rw [if_neg hminus]
    · next hend =>
      rw [if_neg hend]
      split at h
      · cases h
      · next hseen =>
        rw [if_neg hseen]
        split at h
        · next hminus =>
          rw [if_pos hminus]
          exact ih h
        · next hminus =>
          obtain ⟨g', hg, h⟩ := Option.bind_eq_some_iff.mp h
          rw [if_neg hminus, hg]
          exact ih h

/-- Whether a token leaves the flags as they are. -/
def Token.keepsFlags : Token → Bool
  | .plain _ => false
  | .flags _ => false
  | .close => false
  | _ => true

/-- What is left behind a token with a closing text behind the text: if a
comment takes it, the token is none that changes flags. -/
def BehindToken (f : Flags) (more rest rest' : List Char) (token : Token) : Prop :=
  rest' = rest ++ more ∨
    (rest = [] ∧ rest' = [] ∧ f.verbose = true ∧ token.keepsFlags = true)

theorem Behind.token {rest rest' : List Char} (h : Behind f more rest rest')
    {token : Token}
    (hkeeps : token.keepsFlags = true) : BehindToken f more rest rest' token :=
  h.imp_right fun ⟨hnil, hnil', hverbose⟩ => ⟨hnil, hnil', hverbose, hkeeps⟩

theorem readOpen_append (hmore : Closing f more) {cs rest : List Char} {token : Token}
    (h : readOpen f cs = some (token, rest)) :
    ∃ rest', readOpen f (cs ++ more) = some (token, rest') ∧
      BehindToken f more rest rest' token := by
  rcases readOpen_eq_some_iff.mp h with ⟨hquestion, rfl, rfl⟩ | ⟨tail, name, hskip, hname, rfl⟩ |
    ⟨tail, g, letters, ending, hskip, hflags, hends⟩
  · refine ⟨f.skip (cs ++ more), readOpen_eq_some_iff.mpr (.inl ⟨fun tail heq => ?_, rfl, rfl⟩),
      (f.skip_append hmore cs).token rfl⟩
    -- none of the closing signs is a question mark
    rcases f.skip_append hmore cs with happend | ⟨-, hnil, -⟩
    · rw [happend] at heq
      obtain ⟨tail', hcons⟩ := cons_of_append_eq_cons heq (hmore.ne_cons (by decide))
      exact hquestion tail' hcons
    · rw [hnil] at heq
      cases heq
  · refine ⟨rest ++ more, readOpen_eq_some_iff.mpr (.inr (.inl ⟨tail ++ more, name, ?_,
      readName_append_of_some hname, rfl⟩)), .inl rfl⟩
    exact hskip.imp (Flags.skip_append_of_cons hmore) (Flags.skip_append_of_cons hmore)
  · exact ⟨rest ++ more, readOpen_eq_some_iff.mpr (.inr (.inr ⟨tail ++ more, g, letters, ending,
      Flags.skip_append_of_cons hmore hskip, readFlags_append hflags, hends⟩)), .inl rfl⟩

/-- The token that a text begins with is read again with a closing text behind it. -/
theorem readToken_append (hmore : Closing f more) {cs rest : List Char} {token : Token}
    (h : readToken f cs = some (token, rest)) :
    ∃ rest', readToken f (cs ++ more) = some (token, rest') ∧
      BehindToken f more rest rest' token := by
  cases cs with
  | nil => cases h
  | cons c tail =>
    rw [List.cons_append]
    unfold readToken at h
    dsimp only at h
    split at h
    case h_1 => exact readOpen_append hmore h
    case h_4 =>
      obtain ⟨⟨part, after⟩, hread, heq⟩ := Option.map_eq_some_iff.mp h
      cases heq
      exact ⟨after ++ more, by simp [readToken, readClass_append hmore hread], .inl rfl⟩
    case h_5 | h_6 | h_7 =>
      refine ⟨rest ++ more, ?_, .inl rfl⟩
      simp only [readToken, withLaziness_append hmore, Option.some.inj h]
    case h_8 =>
      obtain ⟨⟨min, max, after⟩, hread, heq⟩ := Option.map_eq_some_iff.mp h
      dsimp only at heq
      -- behind the braces, what is passed over may be a comment to the end
      rcases f.skip_append hmore after with happend | ⟨hnil, hnil', hverbose⟩
      · refine ⟨rest ++ more, ?_, .inl rfl⟩
        simp only [readToken, readBounds_append hmore hread, Option.map_some, happend,
          withLaziness_append hmore, heq]
      · rw [hnil] at heq
        cases heq
        refine ⟨[], ?_, .inr ⟨rfl, rfl, hverbose, rfl⟩⟩
        simp only [readToken, readBounds_append hmore hread, Option.map_some, hnil']
        rfl
    case h_9 =>
      obtain ⟨⟨e, after⟩, hread, h⟩ := Option.bind_eq_some_iff.mp h
      obtain ⟨leaf, hleaf, h⟩ := Option.bind_eq_some_iff.mp h
      cases h
      obtain ⟨rest', hread', hbehind⟩ := readEscape_append hmore hread
      exact ⟨rest', by simp [readToken, hread', hleaf], hbehind.token rfl⟩
    case h_10 =>
      obtain ⟨e, he, heq⟩ := Option.map_eq_some_iff.mp h
      cases heq
      exact ⟨rest ++ more, by simp [readToken, he], .inl rfl⟩
    case h_13 =>
      cases h
      refine ⟨rest ++ more, ?_, .inl rfl⟩
      rw [readToken]
      all_goals assumption
    all_goals
      cases h
      exact ⟨rest ++ more, rfl, .inl rfl⟩

end

end UrlRouting.Regex
