import UrlRouting.Proofs.Regex.Continuation.Escape
import UrlRouting.Regex.Bracket

/-!
# Reading on behind a class

A class has an end of its own, so what stands behind it makes no difference, whatever it
is nested in.

Main statement: `readClass_append`.
-/

namespace UrlRouting.Regex

section

variable {f : Flags} {more : List Char}

/-! ## Cutting -/

theorem cutAt_append_of_some {sep : Char} {cs before after : List Char}
    (h : cutAt sep cs = some (before, after)) :
    cutAt sep (cs ++ more) = some (before, after ++ more) := by
  induction cs generalizing before with
  | nil => cases h
  | cons c rest ih =>
    rw [cutAt] at h
    rw [List.cons_append, cutAt]
    split at h
    · next hc =>
      cases h
      rw [if_pos hc]
    · next hc =>
      obtain ⟨⟨first, last⟩, hcut, heq⟩ := Option.map_eq_some_iff.mp h
      cases heq
      rw [if_neg hc, ih hcut]
      rfl

theorem cutAt_append_of_none {sep : Char} {cs : List Char} (h : cutAt sep cs = none) :
    cutAt sep (cs ++ more) =
      (cutAt sep more).map fun (before, after) => (cs ++ before, after) := by
  induction cs with
  | nil => simp
  | cons c rest ih =>
    rw [cutAt] at h
    split at h
    · cases h
    · next hc =>
      rw [List.cons_append, cutAt, if_neg hc, ih (Option.map_eq_none_iff.mp h), Option.map_map]
      rfl

/-! ## Opening -/

theorem readHyphens_append (hmore : Closing f more) {cs : List Char} {b : Bracket}
    (h : (readHyphens f cs b).2 ≠ []) :
    readHyphens f (cs ++ more) b = ((readHyphens f cs b).1, (readHyphens f cs b).2 ++ more) := by
  induction cs, b using readHyphens.induct f with
  | case1 cs b tail hskip _ ih =>
    rw [readHyphens_of_skip b hskip] at h ⊢
    rw [readHyphens_of_skip b (Flags.skip_append_of_cons hmore hskip)]
    exact ih h
  | case2 cs b hskip =>
    rw [readHyphens_of_skip_ne b hskip] at h ⊢
    have hne : f.skip cs ≠ [] := h
    have happend := (f.skip_append hmore cs).eq_append hne
    rw [readHyphens_of_skip_ne b, happend]
    intro tail heq
    obtain ⟨c, rest, hcons⟩ := List.exists_cons_of_ne_nil hne
    rw [happend, hcons, List.cons_append] at heq
    exact hskip rest (by rw [hcons, (List.cons.inj heq).1])

theorem readNegation_append (hmore : Closing f more) (cs : List Char) :
    readNegation (cs ++ more) = ((readNegation cs).1, (readNegation cs).2 ++ more) := by
  cases cs with
  | nil =>
    rw [List.nil_append, readNegation]
    · rfl
    · exact fun rest => hmore.ne_cons (by decide) rest
  | cons c rest =>
    by_cases hc : c = '^'
    · subst hc
      rfl
    · simp [readNegation, hc]

/-- If anything is left behind the start of a bracket, it is the same start with
a closing text behind it. -/
theorem readOpening_append (hmore : Closing f more) {cs : List Char}
    (h : (readOpening f cs).2 ≠ []) :
    readOpening f (cs ++ more) = ((readOpening f cs).1, (readOpening f cs).2 ++ more) := by
  have hhyphens : (readHyphens f (readNegation (f.skip cs)).2
      ⟨(readNegation (f.skip cs)).1, none, []⟩).2 ≠ [] := by
    intro hnil
    apply h
    unfold readOpening
    dsimp only
    rw [hnil]
    split
    · next heq => cases heq
    · rfl
  have hnegation : (readNegation (f.skip cs)).2 ≠ [] := by
    intro hnil
    apply hhyphens
    rw [hnil, readHyphens_of_skip_ne] <;> simp [Flags.skip, skipVerbose]
  have hskip : f.skip cs ≠ [] := by
    intro hnil
    rw [hnil] at hnegation
    exact hnegation rfl
  unfold readOpening
  dsimp only
  rw [(f.skip_append hmore cs).eq_append hskip, readNegation_append hmore,
    readHyphens_append hmore hhyphens]
  dsimp only
  generalize readHyphens f (readNegation (f.skip cs)).2
    ⟨(readNegation (f.skip cs)).1, none, []⟩ = read at hhyphens ⊢
  obtain ⟨b, left⟩ := read
  obtain ⟨c, rest, rfl⟩ := List.exists_cons_of_ne_nil (show left ≠ [] from hhyphens)
  cases hparts : b.parts with
  | cons part parts => rfl
  | nil =>
    by_cases hc : c = ']'
    · subst hc
      rfl
    · simp [hc]

/-! ## Named classes -/

theorem readNamedClass_append (hmore : Closing f more) {cs rest : List Char}
    {cls? : Option CharClass} (h : readNamedClass f cs = some (cls?, rest)) :
    readNamedClass f (cs ++ more) = some (cls?, rest ++ more) := by
  unfold readNamedClass at h
  split at h
  · next after =>
    dsimp only at h
    obtain ⟨⟨name, behind⟩, hcut, h⟩ := Option.bind_eq_some_iff.mp h
    dsimp only at h
    split at h
    · obtain ⟨cls, hcls, h⟩ := Option.bind_eq_some_iff.mp h
      cases h
      have hcut' : cutAt ':' ((readNegation after).2 ++ more) =
          some (name, ']' :: (rest ++ more)) := cutAt_append_of_some hcut
      simp [readNamedClass, readNegation_append hmore, hcut', hcls]
    · cases h
  · cases h

/-- The name of a class is made of letters. -/
theorem ofAsciiName?_eq_none {name : List Char} {c : Char} (hmem : c ∈ name)
    (hc : c = ')' ∨ c = '$') : CharClass.ofAsciiName? (String.ofList name) = none := by
  unfold CharClass.ofAsciiName?
  split
  case h_15 => rfl
  all_goals
    next heq =>
      have hname := congrArg String.toList heq
      rw [String.toList_ofList] at hname
      rw [hname] at hmem
      rcases hc with rfl | rfl <;> exact absurd hmem (by decide)

/-- A closing text behind it does not make a named class of what is none: if it
holds the colon that ends the name, the name holds the closing sign. -/
theorem readNamedClass_append_none (hmore : Closing f more) {cs : List Char}
    (h : readNamedClass f cs = none) : readNamedClass f (cs ++ more) = none := by
  obtain ⟨sign, tail, htail, hsign⟩ := hmore.sign
  cases cs with
  | nil =>
    rw [htail]
    rcases hsign with rfl | rfl <;> rfl
  | cons c after =>
    by_cases hc : c = ':'
    · subst hc
      cases hcut : cutAt ':' (readNegation after).2 with
      | none =>
        have hcut' : cutAt ':' ((readNegation after).2 ++ more) =
            (cutAt ':' more).map fun (before, behind) =>
              ((readNegation after).2 ++ before, behind) := cutAt_append_of_none hcut
        cases hbehind : cutAt ':' more with
        | none => simp [readNamedClass, readNegation_append hmore, hcut', hbehind]
        | some cut =>
          obtain ⟨before, behind⟩ := cut
          have hmem : sign ∈ (readNegation after).2 ++ before := by
            refine List.mem_append_right _ ?_
            have hcolon : sign ≠ ':' := by rcases hsign with rfl | rfl <;> decide
            rw [htail, cutAt, if_neg hcolon] at hbehind
            obtain ⟨⟨first, last⟩, -, heq⟩ := Option.map_eq_some_iff.mp hbehind
            cases heq
            exact List.mem_cons_self ..
          simp only [List.cons_append, readNamedClass, readNegation_append hmore, hcut', hbehind,
            Option.map_some, Option.bind_eq_bind, Option.bind_some]
          cases behind with
          | nil => rfl
          | cons d rest =>
            by_cases hd : d = ']'
            · subst hd
              have hnone := ofAsciiName?_eq_none hmem hsign
              show (CharClass.ofAsciiName? _).bind _ = none
              rw [hnone, Option.bind_none]
            · simp [hd]
      | some cut =>
        obtain ⟨name, behind⟩ := cut
        have hcut' : cutAt ':' ((readNegation after).2 ++ more) = some (name, behind ++ more) :=
          cutAt_append_of_some hcut
        simp only [readNamedClass, hcut, Option.bind_eq_bind, Option.bind_some] at h
        simp only [List.cons_append, readNamedClass, readNegation_append hmore, hcut',
          Option.bind_eq_bind, Option.bind_some]
        cases behind with
        | nil =>
          rw [htail]
          rcases hsign with rfl | rfl <;> rfl
        | cons c rest =>
          by_cases hc : c = ']'
          · subst hc
            simpa using h
          · simp [hc]
    · simp [readNamedClass, hc]

/-! ## Members and ranges -/

theorem readMember_append (hmore : Closing f more) {cs rest : List Char} {e : Escape}
    (h : readMember f cs = some (e, rest)) :
    ∃ rest', readMember f (cs ++ more) = some (e, rest') ∧ Behind f more rest rest' := by
  cases cs with
  | nil => cases h
  | cons c tail =>
    unfold readMember at h
    split at h
    · next heq => cases heq
    · next heq =>
      obtain ⟨rfl, rfl⟩ := List.cons.inj heq
      exact readEscape_append hmore h
    · next hne heq =>
      obtain ⟨rfl, rfl⟩ := List.cons.inj heq
      cases h
      exact ⟨rest ++ more, by rw [List.cons_append, readMember]; exact hne, .inl rfl⟩

theorem readRange_append (hmore : Closing f more) {cs rest : List Char} {cls : CharClass}
    (h : readRange f cs = some (cls, rest)) :
    ∃ rest', readRange f (cs ++ more) = some (cls, rest') ∧ Behind f more rest rest' := by
  obtain ⟨first, after, hfirst, hafter, hrest⟩ := readRange_eq_some_iff.mp h
  have hskip : f.skip (after ++ more) = f.skip after ++ more :=
    (f.skip_append hmore after).eq_append hafter
  have hafter' : f.skip (after ++ more) ≠ [] := by
    rw [hskip]
    exact List.append_ne_nil_of_left_ne_nil hafter more
  obtain ⟨after', hfirst', hbehind⟩ := readMember_append hmore hfirst
  obtain rfl : after' = after ++ more := by
    refine hbehind.eq_append fun hnil => hafter ?_
    rw [hnil]
    simp [Flags.skip, skipVerbose]
  rcases hrest with ⟨hsingle, hcls, rfl⟩ | ⟨tail, a, b, heq, hpeek, rfl, hlast, hle, rfl⟩
  · refine ⟨f.skip after ++ more, readRange_eq_some_iff.mpr ⟨first, _, hfirst', hafter',
      .inl ⟨fun tail' heq => ?_, hcls, hskip.symm⟩⟩, .inl rfl⟩
    -- a hyphen in front stands in front without the signs, and so does what follows it
    rw [hskip] at heq
    obtain ⟨tail, htail⟩ := cons_of_append_eq_cons heq (hmore.ne_cons (by decide))
    rw [htail, List.cons_append] at heq
    rw [← (List.cons.inj heq).2]
    exact (hsingle tail htail).imp Flags.peek_append Flags.peek_append
  · have htail : f.skip tail ≠ [] := by
      intro hnil
      rw [hnil] at hlast
      cases hlast
    obtain ⟨rest', hlast', hbehind'⟩ := readMember_append hmore hlast
    rw [← (f.skip_append hmore tail).eq_append htail] at hlast'
    have hpeek' :
        ¬ (f.peek (tail ++ more) = some ']' ∨ f.peek (tail ++ more) = some '-') := by
      obtain ⟨c, hc⟩ := Flags.exists_peek htail
      rw [hc] at hpeek
      rwa [Flags.peek_append hc]
    refine ⟨rest', readRange_eq_some_iff.mpr ⟨_, _, hfirst', hafter', .inr ⟨tail ++ more, a, b, ?_,
      hpeek', rfl, hlast', hle, rfl⟩⟩, hbehind'⟩
    rw [hskip, heq, List.cons_append]

/-- The step with more behind what is left. -/
def BracketStep.append (more : List Char) : BracketStep → BracketStep
  | .inside current outer rest => .inside current outer (rest ++ more)
  | .finished part rest => .finished part (rest ++ more)

/-- A step inside brackets that ends the class, or leaves something to read. -/
theorem bracketStep_append (hmore : Closing f more) {current : Bracket}
    {outer : List Bracket}
    {cs : List Char} {step : BracketStep} (h : bracketStep f current outer cs = some step)
    (hleft : ∀ next after, step ≠ .inside next after []) :
    bracketStep f current outer (cs ++ more) = some (step.append more) := by
  unfold bracketStep at h
  split at h
  · cases h
  · next tail =>
    rw [List.cons_append, bracketStep]
    split at h
    · next cls? rest hread =>
      obtain ⟨cls, rfl, rfl⟩ := Option.map_eq_some_iff.mp h
      rw [readNamedClass_append hmore hread]
      rfl
    · next hread =>
      dsimp only at h
      obtain rfl := Option.some.inj h
      rw [readNamedClass_append_none hmore hread, readOpening_append hmore]
      · rfl
      · exact fun hnil => hleft _ _ (congrArg (BracketStep.inside _ _) hnil)
  · obtain ⟨part, hpart, h⟩ := Option.bind_eq_some_iff.mp h
    rw [List.cons_append, bracketStep]
    split at h <;> cases h <;> simp [hpart, BracketStep.append]
  · cases h
    rfl
  · cases h
    rfl
  · cases h
    rfl
  · next hopen hclose hand hminus htilde =>
    -- no closing sign is a bracket or an operator, so none of them comes about
    -- at the seam
    obtain ⟨⟨cls, rest⟩, hread, h⟩ := Option.bind_eq_some_iff.mp h
    cases h
    obtain ⟨rest', hread', hbehind⟩ := readRange_append hmore hread
    obtain rfl : rest' = rest ++ more :=
      hbehind.eq_append fun hnil => hleft _ _ (by rw [hnil])
    rw [bracketStep, hread']
    · rfl
    · exact fun hnil => hmore.ne_nil (List.append_eq_nil_iff.mp hnil).2
    · intro tail heq
      obtain ⟨tail', rfl⟩ := cons_of_append_eq_cons heq (hmore.ne_cons (by decide))
      exact hopen tail' rfl
    · intro tail heq
      obtain ⟨tail', rfl⟩ := cons_of_append_eq_cons heq (hmore.ne_cons (by decide))
      exact hclose tail' rfl
    · intro tail heq
      obtain ⟨tail', rfl⟩ := cons_cons_of_append_eq_cons heq (hmore.ne_cons (by decide))
      exact hand tail' rfl
    · intro tail heq
      obtain ⟨tail', rfl⟩ := cons_cons_of_append_eq_cons heq (hmore.ne_cons (by decide))
      exact hminus tail' rfl
    · intro tail heq
      obtain ⟨tail', rfl⟩ := cons_cons_of_append_eq_cons heq (hmore.ne_cons (by decide))
      exact htilde tail' rfl

theorem ne_nil_of_readBrackets {current : Bracket} {outer : List Bracket}
    {cs rest : List Char} {part : ClassPart}
    (h : readBrackets f current outer cs = some (part, rest)) : cs ≠ [] := by
  rintro rfl
  exact absurd (length_lt_of_readBrackets h) (Nat.not_lt_zero _)

theorem readBrackets_append (hmore : Closing f more) {current : Bracket}
    {outer : List Bracket} {cs rest : List Char} {part : ClassPart}
    (h : readBrackets f current outer cs = some (part, rest)) :
    readBrackets f current outer (cs ++ more) = some (part, rest ++ more) := by
  induction current, outer, cs using readBrackets.induct f with
  | case1 current outer cs hstep =>
    rw [readBrackets] at h
    split at h <;> simp_all
  | case2 current outer cs part' rest' hstep =>
    rw [readBrackets_of_finished hstep] at h
    cases h
    have hskip : f.skip cs ≠ [] := fun hnil => by rw [hnil] at hstep; cases hstep
    apply readBrackets_of_finished
    rw [(f.skip_append hmore cs).eq_append hskip]
    exact bracketStep_append hmore hstep (fun _ _ heq => by cases heq)
  | case3 current outer cs next after rest' hstep _ ih =>
    rw [readBrackets_of_inside hstep] at h
    have hskip : f.skip cs ≠ [] := fun hnil => by rw [hnil] at hstep; cases hstep
    -- the class is not at its end yet, so something is left to read
    have hstep' : bracketStep f current outer (f.skip (cs ++ more)) =
        some (.inside next after (rest' ++ more)) := by
      rw [(f.skip_append hmore cs).eq_append hskip]
      refine bracketStep_append hmore hstep fun _ _ heq => ?_
      injection heq with _ _ hrest
      exact ne_nil_of_readBrackets h hrest
    rw [readBrackets_of_inside hstep']
    exact ih h

theorem readClass_append (hmore : Closing f more) {cs rest : List Char} {part : ClassPart}
    (h : readClass f cs = some (part, rest)) :
    readClass f (cs ++ more) = some (part, rest ++ more) := by
  rw [readClass] at h ⊢
  dsimp only at h
  rw [readOpening_append hmore (ne_nil_of_readBrackets h)]
  exact readBrackets_append hmore h

end

end UrlRouting.Regex
