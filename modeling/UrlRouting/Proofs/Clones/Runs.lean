import UrlRouting.Proofs.Clones.Transparency

/-!
# Runs of one router

A run is a list of calls on one router. What it answers, and the table that it leaves,
depend on the table of the router before it, and not on what is in the storages.

Main statement: `Router.performAll_setUp`.
-/

namespace UrlRouting

variable [Regex.SizeLimit] {τ : Type}

/-- Calls in order, with the answer to each. -/
def Router.performAll (r : Router τ) :
    List (RouterCall τ) → Action (Router τ × List (RouterAnswer τ))
  | [] => return (r, [])
  | c :: rest => do
    let (r, answer) ← r.perform c
    let (r, answers) ← r.performAll rest
    return (r, answer :: answers)

/-- A new router and the calls on it. -/
def Router.setUp (settings : RouterSettings) (calls : List (RouterCall τ)) :
    Action (Router τ × List (RouterAnswer τ)) := do
  let r ← Router.create settings
  r.performAll calls

/-- Calls in order without a cache. -/
def Table.performAll (t : Table τ) : List (RouterCall τ) → Table τ × List (RouterAnswer τ)
  | [] => (t, [])
  | c :: rest =>
    let first := t.perform c
    let others := first.1.performAll rest
    (others.1, first.2 :: others.2)

theorem Router.performAll_cons (r : Router τ) (c : RouterCall τ)
    (rest : List (RouterCall τ)) (s : Session) :
    r.performAll (c :: rest) s =
      let first := r.perform c s
      let others := first.1.1.performAll rest first.2
      ((others.1.1, first.1.2 :: others.1.2), others.2) := rfl

theorem Router.grows_performAll (calls : List (RouterCall τ)) :
    ∀ {owners : Owners} {r : Router τ}, r.matcher.Owns owners →
      Grows owners (r.performAll calls) fun owners' answer =>
        answer.1.matcher.Owns owners' ∧ (answer.1.table, answer.2) = r.table.performAll calls := by
  induction calls with
  | nil => exact fun hm => grows_pure ⟨hm, rfl⟩
  | cons c rest ih =>
    intro owners r hm
    unfold Router.performAll Table.performAll
    refine (Router.transparent.grows owners r c hm).bind fun more first hfirst => ?_
    obtain ⟨hm', hdirect⟩ := hfirst
    rw [← hdirect]
    refine (ih hm').bind fun later others hothers => grows_pure ⟨hothers.1, ?_⟩
    dsimp only
    rw [← hothers.2]

/-- A new router answers calls as its table does without a cache, those that set it up
and those that come later. -/
theorem Router.performAll_setUp (settings : RouterSettings) (calls : List (RouterCall τ))
    (s : Session) :
    let final := Router.setUp settings calls s
    final.1.1.table = ((Table.create settings.base).performAll calls).1 ∧
      final.1.2 = ((Table.create settings.base).performAll calls).2 ∧
      ∀ later, (final.1.1.performAll later final.2).1.2 =
        (final.1.1.table.performAll later).2 := by
  intro final
  have hgrows : ∀ owners, Grows owners (Router.setUp settings calls) fun owners' answer =>
      answer.1.matcher.Owns owners' ∧
        (answer.1.table, answer.2) = (Table.create settings.base).performAll calls := by
    intro owners
    unfold Router.setUp
    refine (Router.grows_create settings).bind fun more r hr => ?_
    rw [← hr.2]
    exact Router.grows_performAll calls hr.1
  obtain ⟨more, ⟨howns, hrun⟩, hs⟩ := hgrows _ s (faithful_unowned s)
  refine ⟨congrArg Prod.fst hrun, congrArg Prod.snd hrun, fun later => ?_⟩
  obtain ⟨_, ⟨-, hlater⟩, -⟩ := Router.grows_performAll later howns final.2 hs
  exact congrArg Prod.snd hlater

end UrlRouting
