import UrlRouting.Proofs.Cache.Operations

/-!
# Families of clones

A family starts with one member and grows by cloning; clones share what they have
until one of them changes it. The lineage of a member is the list of calls that made
it what it is: its own calls, and before them those of the member it was cloned from
up to the moment of cloning. A member that is alone has its lineage and nothing else.

Main statement: if every call is answered as it would be without a cache and keeps the
storages faithful, then in every run of a family every answer is the one that the
member would give alone.
-/

namespace UrlRouting

universe u

/-- A step of a family: a call on a member, or a clone of a member at the end. -/
inductive FamilyStep (κ : Type u) where
  | call (member : Nat) (c : κ)
  | clone (member : Nat)

section Runs

variable {κ : Type u} {μ α : Type}

/-- One step of a family; a step on a member that does not exist does nothing. -/
def stepFamily (perform : μ → κ → Action (μ × α)) (members : List μ) :
    FamilyStep κ → Action (List μ × Option α)
  | .call i c =>
    match members[i]? with
    | none => return (members, none)
    | some m => do
      let (m, answer) ← perform m c
      return (members.set i m, some answer)
  | .clone i => return (members ++ members[i]?.toList, none)

/-- A run of a family, with the answer of every step. -/
def runFamily (perform : μ → κ → Action (μ × α)) (members : List μ) :
    List (FamilyStep κ) → Action (List μ × List (Option α))
  | [] => return (members, [])
  | step :: rest => do
    let (members, answer) ← stepFamily perform members step
    let (members, answers) ← runFamily perform members rest
    return (members, answer :: answers)

/-- A family that starts with a member just created. -/
def startFamily (create : Action μ) (perform : μ → κ → Action (μ × α))
    (steps : List (FamilyStep κ)) : Action (List μ × List (Option α)) := do
  let m ← create
  runFamily perform [m] steps

/-- The lineages of the members after a step. -/
def FamilyStep.lineages (before : List (List κ)) : FamilyStep κ → List (List κ)
  | .call i c => before.modify i (· ++ [c])
  | .clone i => before ++ before[i]?.toList

/-- Goes through the calls of a lineage. -/
def performEach (perform : μ → κ → Action (μ × α)) (m : μ) : List κ → Action μ
  | [] => return m
  | c :: rest => do
    let (m, _) ← perform m c
    performEach perform m rest

/-- The answer to a call by a member that is alone in its session. -/
def answerAlone (create : Action μ) (perform : μ → κ → Action (μ × α))
    (lineage : List κ) (c : κ) : α :=
  let act : Action α := do
    let m ← create
    let m ← performEach perform m lineage
    let (_, answer) ← perform m c
    return answer
  (act Session.start).1

/-- The answers to the steps of a run when every member is alone. -/
def answersAlone (create : Action μ) (perform : μ → κ → Action (μ × α)) :
    List (List κ) → List (FamilyStep κ) → List (Option α)
  | _, [] => []
  | lineages, step :: rest =>
    let answer :=
      match step with
      | .call i c => lineages[i]?.map fun lineage => answerAlone create perform lineage c
      | .clone _ => none
    answer :: answersAlone create perform (step.lineages lineages) rest

end Runs

/-- Calls that a cache does not show in: what a member answers and becomes hangs on its
`meaning` alone, by the pure function `direct`. -/
structure Transparent [Regex.SizeLimit] {κ : Type u} {μ α ν : Type}
    (perform : μ → κ → Action (μ × α))
    (matcher : μ → Matcher) (meaning : μ → ν) (direct : ν → κ → ν × α) : Prop where
  grows : ∀ (owners : Owners) (m : μ) (c : κ), (matcher m).Owns owners →
    Grows owners (perform m c) fun owners' answer =>
      (matcher answer.1).Owns owners' ∧ (meaning answer.1, answer.2) = direct (meaning m) c

/-- The meaning of a lineage. -/
def lineageMeaning {κ : Type u} {ν α : Type} (direct : ν → κ → ν × α) (v : ν)
    (lineage : List κ) : ν :=
  lineage.foldl (fun v c => (direct v c).1) v

section Answers

variable {κ : Type u} {μ α ν : Type} {perform : μ → κ → Action (μ × α)}
  {matcher : μ → Matcher} {meaning : μ → ν} {direct : ν → κ → ν × α} {v : ν}

/-- Every member owns its storage and means what its lineage means. -/
structure Related (matcher : μ → Matcher) (meaning : μ → ν)
    (direct : ν → κ → ν × α) (v : ν)
    (owners : Owners) (members : List μ) (lineages : List (List κ)) : Prop where
  length_eq : members.length = lineages.length
  member : ∀ (i : Nat) (m : μ) (lineage : List κ), members[i]? = some m →
    lineages[i]? = some lineage →
      (matcher m).Owns owners ∧ meaning m = lineageMeaning direct v lineage

theorem lineageMeaning_append (lineage : List κ) (c : κ) :
    lineageMeaning direct v (lineage ++ [c]) = (direct (lineageMeaning direct v lineage) c).1 := by
  simp [lineageMeaning]

/-- What every call keeps holds of what a lineage means. -/
theorem lineageMeaning_induction {P : ν → Prop} (hstart : P v)
    (hcall : ∀ w c, P w → P (direct w c).1) (lineage : List κ) :
    P (lineageMeaning direct v lineage) := by
  induction lineage generalizing v with
  | nil => exact hstart
  | cons c rest ih => exact ih (hcall v c hstart)

/-- The members that exist are those that have a lineage. -/
theorem Related.getElem? {owners : Owners} {members : List μ} {lineages : List (List κ)}
    (h : Related matcher meaning direct v owners members lineages) (i : Nat) :
    (members[i]? = none ∧ lineages[i]? = none) ∨
      ∃ m lineage, members[i]? = some m ∧ lineages[i]? = some lineage ∧
        (matcher m).Owns owners ∧ meaning m = lineageMeaning direct v lineage := by
  rcases Nat.lt_or_ge i members.length with hlt | hge
  · have hm := List.getElem?_eq_getElem hlt
    have hl := List.getElem?_eq_getElem (h.length_eq ▸ hlt : i < lineages.length)
    exact Or.inr ⟨_, _, hm, hl, h.member i _ _ hm hl⟩
  · have hge' : lineages.length ≤ i := h.length_eq ▸ hge
    exact Or.inl ⟨List.getElem?_eq_none hge, List.getElem?_eq_none hge'⟩

/-- A call on one member leaves the others as they are. -/
theorem Related.call {owners more : Owners} {members : List μ} {lineages : List (List κ)}
    (h : Related matcher meaning direct v owners members lineages) {i : Nat}
    {m' : μ} {c : κ} {lineage : List κ} (hi : lineages[i]? = some lineage)
    (howns : (matcher m').Owns (owners ++ more))
    (hmeaning : meaning m' = lineageMeaning direct v (lineage ++ [c])) :
    Related matcher meaning direct v (owners ++ more) (members.set i m')
      (lineages.modify i (· ++ [c])) where
  length_eq := by simpa using h.length_eq
  member := by
    intro j m other hm hother
    rw [List.getElem?_modify] at hother
    by_cases hij : i = j
    · subst hij
      rw [hi] at hother
      rw [List.getElem?_set_self'] at hm
      simp only [if_true, Option.map_eq_map, Option.map_some, Option.some.injEq] at hother
      obtain ⟨_, -, rfl⟩ := Option.map_eq_some_iff.mp hm
      subst hother
      exact ⟨howns, hmeaning⟩
    · rw [List.getElem?_set_ne hij] at hm
      simp only [hij, if_false, Option.map_eq_map, Option.map_id'] at hother
      obtain ⟨howns', hmeaning'⟩ := h.member j m other hm hother
      exact ⟨howns'.append more, hmeaning'⟩

/-- A clone is what its original is. -/
theorem Related.clone {owners : Owners} {members : List μ} {lineages : List (List κ)}
    (h : Related matcher meaning direct v owners members lineages) (i : Nat) :
    Related matcher meaning direct v owners (members ++ members[i]?.toList)
      (lineages ++ lineages[i]?.toList) := by
  rcases h.getElem? i with ⟨hm, hl⟩ | ⟨m, lineage, hm, hl, howns, hmeaning⟩
  · simpa [hm, hl] using h
  · rw [hm, hl]
    refine ⟨by simp [h.length_eq], ?_⟩
    intro j m' other hm' hother
    rcases Nat.lt_or_ge j members.length with hlt | hge
    · rw [List.getElem?_append_left hlt] at hm'
      rw [List.getElem?_append_left (h.length_eq ▸ hlt)] at hother
      exact h.member j m' other hm' hother
    · rw [List.getElem?_append_right hge] at hm'
      rw [List.getElem?_append_right (h.length_eq ▸ hge), ← h.length_eq] at hother
      cases hat : j - members.length with
      | zero =>
        simp only [hat, Option.toList_some, List.getElem?_cons_zero,
          Option.some.injEq] at hm' hother
        subst hm' hother
        exact ⟨howns, hmeaning⟩
      | succ n => simp [hat] at hm'

/-- The answers that the lineages call for. -/
def directAnswers (direct : ν → κ → ν × α) (v : ν) :
    List (List κ) → List (FamilyStep κ) → List (Option α)
  | _, [] => []
  | lineages, step :: rest =>
    let answer :=
      match step with
      | .call i c => lineages[i]?.map fun lineage => (direct (lineageMeaning direct v lineage) c).2
      | .clone _ => none
    answer :: directAnswers direct v (step.lineages lineages) rest

variable [Regex.SizeLimit]

/-- What a step of a family answers and leaves. -/
theorem grows_stepFamily (ht : Transparent perform matcher meaning direct)
    {owners : Owners} {members : List μ} {lineages : List (List κ)}
    (h : Related matcher meaning direct v owners members lineages) (step : FamilyStep κ) :
    Grows owners (stepFamily perform members step) fun owners' answer =>
      Related matcher meaning direct v owners' answer.1 (step.lineages lineages) ∧
        answer.2 :: [] = directAnswers direct v lineages [step] := by
  cases step with
  | call i c =>
    rcases h.getElem? i with ⟨hm, hl⟩ | ⟨m, lineage, hm, hl, howns, hmeaning⟩
    · -- no member there: nothing happens
      have hsame : lineages.modify i (· ++ [c]) = lineages :=
        List.modify_eq_self (List.getElem?_eq_none_iff.mp hl)
      simp only [stepFamily, FamilyStep.lineages, directAnswers, hm, hl, hsame, Option.map_none]
      exact grows_pure ⟨h, rfl⟩
    · simp only [stepFamily, FamilyStep.lineages, directAnswers, hm, hl, Option.map_some]
      refine (ht.grows owners m c howns).bind fun more answer hanswer => ?_
      obtain ⟨howns', hdirect⟩ := hanswer
      rw [hmeaning] at hdirect
      refine grows_pure ⟨h.call hl howns' ?_, ?_⟩
      · rw [lineageMeaning_append, ← hdirect]
      · rw [← hdirect]
  | clone i => exact grows_pure ⟨h.clone i, rfl⟩

/-- What a run of a family answers and leaves. -/
theorem grows_runFamily (ht : Transparent perform matcher meaning direct)
    (steps : List (FamilyStep κ)) :
    ∀ {owners : Owners} {members : List μ} {lineages : List (List κ)},
      Related matcher meaning direct v owners members lineages →
        Grows owners (runFamily perform members steps) fun owners' answer =>
          Related matcher meaning direct v owners' answer.1
              (steps.foldl FamilyStep.lineages lineages) ∧
            answer.2 = directAnswers direct v lineages steps := by
  induction steps with
  | nil => exact fun h => grows_pure ⟨h, rfl⟩
  | cons step rest ih =>
    intro owners members lineages h
    unfold runFamily
    refine (grows_stepFamily ht h step).bind fun more first hfirst => ?_
    obtain ⟨hrelated, hanswer⟩ := hfirst
    refine (ih hrelated).bind fun later others hothers => grows_pure ⟨hothers.1, ?_⟩
    simp only [directAnswers, List.cons.injEq, and_true] at hanswer ⊢
    exact ⟨hanswer, hothers.2⟩

/-- Going through a lineage gives what the lineage means. -/
theorem grows_performEach (ht : Transparent perform matcher meaning direct)
    (lineage : List κ) :
    ∀ {owners : Owners} {m : μ}, (matcher m).Owns owners →
      Grows owners (performEach perform m lineage) fun owners' m' =>
        (matcher m').Owns owners' ∧ meaning m' = lineageMeaning direct (meaning m) lineage := by
  induction lineage with
  | nil => exact fun h => grows_pure ⟨h, rfl⟩
  | cons c rest ih =>
    intro owners m h
    unfold performEach
    refine (ht.grows owners m c h).bind fun more answer hanswer => ?_
    obtain ⟨howns, hdirect⟩ := hanswer
    have hmeaning : meaning answer.1 = (direct (meaning m) c).1 := by rw [← hdirect]
    intro s hs
    obtain ⟨later, hpost, hs'⟩ := ih howns s hs
    refine ⟨later, ⟨hpost.1, ?_⟩, hs'⟩
    rw [hpost.2, hmeaning]
    rfl

/-- A member that is alone answers what its lineage means. -/
theorem answerAlone_eq (ht : Transparent perform matcher meaning direct)
    {create : Action μ} (hcreate : ∀ owners, Grows owners create fun owners' m =>
      (matcher m).Owns owners' ∧ meaning m = v) (lineage : List κ) (c : κ) :
    answerAlone create perform lineage c = (direct (lineageMeaning direct v lineage) c).2 := by
  have hgrows : Grows [] (do
      let m ← create
      let m ← performEach perform m lineage
      let (_, answer) ← perform m c
      return answer : Action α) fun _ answer =>
        answer = (direct (lineageMeaning direct v lineage) c).2 := by
    refine (hcreate []).bind fun more m hm => ?_
    refine (grows_performEach ht lineage hm.1).bind fun later m' hm' => ?_
    refine (ht.grows _ m' c hm'.1).bind fun last answer hanswer => grows_pure ?_
    rw [← hm.2, ← hm'.2, ← hanswer.2]
  obtain ⟨_, hanswer, -⟩ := hgrows Session.start (faithful_unowned Session.start)
  exact hanswer

theorem answersAlone_eq (ht : Transparent perform matcher meaning direct)
    {create : Action μ} (hcreate : ∀ owners, Grows owners create fun owners' m =>
      (matcher m).Owns owners' ∧ meaning m = v) (steps : List (FamilyStep κ)) :
    ∀ lineages, answersAlone create perform lineages steps =
      directAnswers direct v lineages steps := by
  induction steps with
  | nil => exact fun _ => rfl
  | cons step rest ih =>
    intro lineages
    unfold answersAlone directAnswers
    simp only [answerAlone_eq ht hcreate, ih]

/-- A family starts with one member of an empty lineage. -/
theorem grows_startFamily (ht : Transparent perform matcher meaning direct)
    {create : Action μ} {owners : Owners} (hcreate : Grows owners create fun owners' m =>
      (matcher m).Owns owners' ∧ meaning m = v) (steps : List (FamilyStep κ)) :
    Grows owners (startFamily create perform steps) fun owners' answer =>
      Related matcher meaning direct v owners' answer.1
          (steps.foldl FamilyStep.lineages [[]]) ∧
        answer.2 = directAnswers direct v [[]] steps := by
  unfold startFamily
  refine hcreate.bind fun more m hm => grows_runFamily ht steps ⟨rfl, ?_⟩
  intro i m' lineage hm' hlineage
  cases i with
  | zero =>
    simp only [List.getElem?_cons_zero, Option.some.injEq] at hm' hlineage
    subst hm' hlineage
    exact hm
  | succ n => simp at hm'

/-- At the end of every run, each member owns its storage, means what its lineage means,
and the session is faithful. -/
theorem member_of_startFamily (ht : Transparent perform matcher meaning direct)
    {create : Action μ} (hcreate : ∀ owners, Grows owners create fun owners' m =>
      (matcher m).Owns owners' ∧ meaning m = v) (steps : List (FamilyStep κ)) (s : Session)
    {m : μ} (hm : m ∈ (startFamily create perform steps s).1.1) :
    ∃ owners lineage, (matcher m).Owns owners ∧ meaning m = lineageMeaning direct v lineage ∧
      Faithful owners (startFamily create perform steps s).2 := by
  obtain ⟨more, hend, hfaithful⟩ :=
    grows_startFamily ht (hcreate _) steps s (faithful_unowned s)
  obtain ⟨i, hlt, rfl⟩ := List.mem_iff_getElem.mp hm
  have hat := List.getElem?_eq_getElem hlt
  have hlineage := List.getElem?_eq_getElem (hend.1.length_eq ▸ hlt)
  obtain ⟨howns, hmeaning⟩ := hend.1.member i _ _ hat hlineage
  exact ⟨_, _, howns, hmeaning, hfaithful⟩

/-- Whatever the settings with which a family and a member alone were created, every
answer of a run of the family is the answer of the member alone. -/
theorem answers_startFamily (ht : Transparent perform matcher meaning direct)
    {create alone : Action μ}
    (hcreate : ∀ owners, Grows owners create fun owners' m =>
      (matcher m).Owns owners' ∧ meaning m = v)
    (halone : ∀ owners, Grows owners alone fun owners' m =>
      (matcher m).Owns owners' ∧ meaning m = v)
    (steps : List (FamilyStep κ)) (s : Session) :
    (startFamily create perform steps s).1.2 = answersAlone alone perform [[]] steps := by
  obtain ⟨_, hanswer, -⟩ := grows_startFamily ht (hcreate _) steps s (faithful_unowned s)
  rw [hanswer.2, answersAlone_eq ht halone]

end Answers

/-! ## Members over time -/

section Members

variable {κ : Type u} {μ α : Type} {perform : μ → κ → Action (μ × α)}

/-- A run of two lists of steps is a run of the one and then of the other. -/
theorem members_runFamily_append (steps later : List (FamilyStep κ)) :
    ∀ (members : List μ) (s : Session),
      (runFamily perform members (steps ++ later) s).1.1 =
        (runFamily perform (runFamily perform members steps s).1.1 later
          (runFamily perform members steps s).2).1.1 := by
  induction steps with
  | nil => exact fun _ _ => rfl
  | cons step rest ih =>
    exact fun members s => ih (stepFamily perform members step s).1.1
      (stepFamily perform members step s).2

variable {R : μ → μ → Prop}

/-- A member stays at its place, and is what its calls make of it. -/
theorem related_stepFamily {i : Nat} (hrefl : ∀ m, R m m) {step : FamilyStep κ}
    (hcall : ∀ c, step = .call i c → ∀ m s, R m (perform m c s).1.1)
    {members : List μ} {m : μ} (hm : members[i]? = some m) (s : Session) :
    ∃ m', (stepFamily perform members step s).1.1[i]? = some m' ∧ R m m' := by
  have hlt : i < members.length := (List.getElem?_eq_some_iff.mp hm).1
  cases step with
  | call j c =>
    by_cases hij : j = i
    · subst hij
      refine ⟨(perform m c s).1.1, ?_, hcall c rfl m s⟩
      simp only [stepFamily, hm]
      show (members.set j _)[j]? = _
      rw [List.getElem?_set_self hlt]
    · refine ⟨m, ?_, hrefl m⟩
      cases hj : members[j]? with
      | none =>
        simp only [stepFamily, hj]
        exact hm
      | some other =>
        simp only [stepFamily, hj]
        show (members.set j _)[i]? = _
        rw [List.getElem?_set_ne hij, hm]
  | clone j =>
    refine ⟨m, ?_, hrefl m⟩
    show (members ++ members[j]?.toList)[i]? = _
    rw [List.getElem?_append_left hlt, hm]

/-- What the calls of a run on one member keep of it, the run keeps, whatever is
done with the other members. -/
theorem related_runFamily_of_calls {i : Nat} (hrefl : ∀ m, R m m)
    (htrans : ∀ {a b c}, R a b → R b c → R a c) (steps : List (FamilyStep κ)) :
    ∀ {members : List μ} {m : μ}, members[i]? = some m →
      (∀ c, .call i c ∈ steps → ∀ m s, R m (perform m c s).1.1) → ∀ s : Session,
        ∃ m', (runFamily perform members steps s).1.1[i]? = some m' ∧ R m m' := by
  induction steps with
  | nil => exact fun hm _ _ => ⟨_, hm, hrefl _⟩
  | cons step rest ih =>
    intro members m hm hcall s
    have hstep : ∀ c, step = .call i c → ∀ m s, R m (perform m c s).1.1 := by
      rintro c rfl
      exact hcall c (List.mem_cons_self ..)
    have hrest : ∀ c, .call i c ∈ rest → ∀ m s, R m (perform m c s).1.1 := by
      intro c hmem
      exact hcall c (List.mem_cons_of_mem _ hmem)
    obtain ⟨m₁, hm₁, hfirst⟩ := related_stepFamily hrefl hstep hm s
    obtain ⟨m', hm', hlast⟩ := ih hm₁ hrest (stepFamily perform members step s).2
    exact ⟨m', hm', htrans hfirst hlast⟩

theorem related_runFamily (hrefl : ∀ m, R m m) (htrans : ∀ {a b c}, R a b → R b c → R a c)
    (hcall : ∀ m c s, R m (perform m c s).1.1) (steps : List (FamilyStep κ))
    {members : List μ} {i : Nat} {m : μ} (hm : members[i]? = some m) (s : Session) :
    ∃ m', (runFamily perform members steps s).1.1[i]? = some m' ∧ R m m' :=
  related_runFamily_of_calls hrefl htrans steps hm (fun c _ m s => hcall m c s) s

end Members

end UrlRouting
