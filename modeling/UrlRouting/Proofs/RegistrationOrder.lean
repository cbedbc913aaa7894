import UrlRouting.Proofs.Clones.Calls
import UrlRouting.Proofs.Clones.Runs
import UrlRouting.Proofs.Registration
import UrlRouting.Regex.ProgramSize

/-!
# Routes and match types in any order

Calls that register routes and calls that add match types can be interleaved in
different ways. If no call fails, the table is the same at the end: the routes
do not depend on when the types came, and the types do not depend on the routes.
So routers that were set up in such ways answer alike, although one of them
compiled a pattern under types that the other never had.

Main statement: `answers_of_interleaved`.
-/

namespace UrlRouting

variable {τ : Type}

namespace RouterCall

/-- The calls that register routes or match types. -/
def registers : RouterCall τ → Bool
  | .add _ | .addVerb _ _ _ _ | .addAll _ | .addTypes _ => true
  | _ => false

/-- The match types that a call adds. -/
def newTypes : RouterCall τ → List (String × String)
  | .addTypes types => types
  | _ => []

end RouterCall

/-- The answer to a call that registered what it was given. -/
def RouterAnswer.accepted : RouterAnswer τ → Bool
  | .outcome (.ok ()) => true
  | _ => false

theorem RouterAnswer.accepted_outcome {outcome : Except RouteError Unit}
    (h : (RouterAnswer.outcome outcome : RouterAnswer τ).accepted = true) :
    outcome = .ok () := by
  cases outcome with
  | error e => cases h
  | ok _ => rfl

namespace Table

variable {t : Table τ}

/-- A table with more routes and more match types. -/
def grown (t : Table τ) (routes : List (Route τ))
    (types : List (String × String)) : Table τ :=
  { t.pushAll routes with types := t.types.extend types }

/-- Appending routes does not look at the match types. -/
theorem pushAll_withTypes (routes : List (Route τ)) (types : MatchTypes) :
    ∀ t : Table τ, pushAll { t with types := types } routes =
      { t.pushAll routes with types := types } := by
  induction routes with
  | nil => exact fun _ => rfl
  | cons route rest ih => exact fun t => ih (t.push route)

theorem grown_grown (routes more : List (Route τ))
    (types others : List (String × String)) :
    (t.grown routes types).grown more others = t.grown (routes ++ more)
    (types ++ others) := by
  unfold grown
  rw [pushAll_withTypes, ← pushAll_append]
  show { (t.pushAll (routes ++ more)) with types := (t.types.extend types).extend others } = _
  simp only [Dictionary.extend, List.foldl_append]

/-- What a call registers that does not fail. -/
theorem perform_of_accepted [Regex.SizeLimit] {c : RouterCall τ}
    (hregisters : c.registers = true) (hok : (t.perform c).2.accepted = true) :
    (t.perform c).1 = t.grown c.offered c.newTypes := by
  have hpush : ∀ route : Route τ, t.grown [route] [] = t.push route := fun _ => rfl
  have hpushAll : ∀ routes : List (Route τ), t.grown routes [] = t.pushAll routes := by
    intro routes
    show { t.pushAll routes with types := t.types } = _
    rw [← types_pushAll routes t]
  cases c with
  | add route => exact (add_of_ok (RouterAnswer.accepted_outcome hok)).trans (hpush route).symm
  | addVerb verb template target name =>
    exact (add_of_ok (RouterAnswer.accepted_outcome hok)).trans (hpush _).symm
  | addAll routes =>
    exact (addAll_of_ok routes (RouterAnswer.accepted_outcome hok)).trans (hpushAll routes).symm
  | addTypes types => rfl
  | setBase base => cases hregisters
  | routes => cases hregisters
  | named name => cases hregisters
  | generate name params => cases hregisters
  | matchRequest url request => cases hregisters

/-- A run without a failure registers the routes of all calls and the types of
all calls, each in the order of the calls. -/
theorem performAll_of_accepted [Regex.SizeLimit] (calls : List (RouterCall τ)) :
    ∀ {t : Table τ}, (∀ c ∈ calls, c.registers = true) →
      (∀ answer ∈ (t.performAll calls).2, answer.accepted = true) →
      (t.performAll calls).1 =
        t.grown (calls.flatMap RouterCall.offered) (calls.flatMap RouterCall.newTypes) := by
  induction calls with
  | nil => exact fun _ _ => rfl
  | cons c rest ih =>
    intro t hregisters hok
    have hfirst : (t.perform c).1 = t.grown c.offered c.newTypes :=
      perform_of_accepted (hregisters c (List.mem_cons_self ..)) (hok _ (List.mem_cons_self ..))
    have hrest := ih (t := (t.perform c).1)
      (fun other hmem => hregisters other (List.mem_cons_of_mem c hmem))
      (fun answer hmem => hok answer (List.mem_cons_of_mem _ hmem))
    show ((t.perform c).1.performAll rest).1 = _
    rw [hrest, hfirst, grown_grown, List.flatMap_cons, List.flatMap_cons]

end Table

/-- The table of a new router on which nothing failed. -/
theorem Router.table_setUp_of_accepted [Regex.SizeLimit] {settings : RouterSettings}
    {calls : List (RouterCall τ)} (hcalls : ∀ c ∈ calls, c.registers = true) {s : Session}
    (hok : ∀ answer ∈ (Router.setUp settings calls s).1.2, answer.accepted = true) :
    (Router.setUp settings calls s).1.1.table = (Table.create settings.base).grown
      (calls.flatMap RouterCall.offered) (calls.flatMap RouterCall.newTypes) := by
  obtain ⟨htable, hanswers, -⟩ := Router.performAll_setUp settings calls s
  rw [htable]
  rw [hanswers] at hok
  exact Table.performAll_of_accepted calls hcalls hok

/-- Two new routers with the same base path, on which the same routes and the
same match types are registered, each in the same order but interleaved in
different ways, and all without a failure: they have the same routes, names,
base path and match types, and answer every further run of calls alike, whether
their caches are enabled or not. -/
theorem answers_of_interleaved [Regex.SizeLimit] {settings settings' : RouterSettings}
    (hbase : settings.base = settings'.base) {calls calls' : List (RouterCall τ)}
    (hcalls : ∀ c ∈ calls, c.registers = true)
    (hcalls' : ∀ c ∈ calls', c.registers = true)
    (hroutes : calls.flatMap RouterCall.offered = calls'.flatMap RouterCall.offered)
    (htypes : calls.flatMap RouterCall.newTypes = calls'.flatMap RouterCall.newTypes)
    {s s' : Session}
    (hok : ∀ answer ∈ (Router.setUp settings calls s).1.2, answer.accepted = true)
    (hok' : ∀ answer ∈ (Router.setUp settings' calls' s').1.2, answer.accepted = true) :
    let first := Router.setUp settings calls s
    let second := Router.setUp settings' calls' s'
    first.1.1.routes = second.1.1.routes ∧ first.1.1.base = second.1.1.base ∧
      first.1.1.types = second.1.1.types ∧
      (∀ name, first.1.1.named? name = second.1.1.named? name) ∧
      ∀ later : List (RouterCall τ),
        (first.1.1.performAll later first.2).1.2 = (second.1.1.performAll later second.2).1.2 := by
  intro first second
  have htable : first.1.1.table = second.1.1.table := by
    have hfirst := Router.table_setUp_of_accepted hcalls hok
    have hsecond := Router.table_setUp_of_accepted hcalls' hok'
    rw [hbase, hroutes, htypes] at hfirst
    exact hfirst.trans hsecond.symm
  have hnamed : ∀ (r : Router τ) (name : String), r.named? name = r.table.named? name :=
    fun _ _ => rfl
  refine ⟨congrArg Table.routes htable, congrArg Table.base htable, congrArg Table.types htable,
    fun name => ?_, fun later => ?_⟩
  · rw [hnamed, hnamed, htable]
  · obtain ⟨-, -, hfirst⟩ := Router.performAll_setUp settings calls s
    obtain ⟨-, -, hsecond⟩ := Router.performAll_setUp settings' calls' s'
    calc (first.1.1.performAll later first.2).1.2
      _ = (first.1.1.table.performAll later).2 := hfirst later
      _ = (second.1.1.table.performAll later).2 := by rw [htable]
      _ = (second.1.1.performAll later second.2).1.2 := (hsecond later).symm

/-- The type of `id` is widened between the two routes, or before both. The
pattern of the first route was compiled under the built-in type in the one run
only. -/
theorem answers_of_interleaved_users :
    let user : Route String := ⟨"GET", "/users/[i:id]", "user", some "user"⟩
    let post : Route String := ⟨"GET", "/posts/[slug:title]", "post", none⟩
    let types := [("slug", "[a-z-]+"), ("i", "[0-9]+|me")]
    let calls : List (RouterCall String) := [.add user, .addTypes types, .add post]
    let calls' : List (RouterCall String) := [.addTypes types, .addAll [user, post]]
    let first := Router.setUp ⟨true, "/api"⟩ calls .start
    let second := Router.setUp ⟨false, "/api"⟩ calls' .start
    (∀ answer ∈ first.1.2, answer.accepted = true) ∧
      (∀ answer ∈ second.1.2, answer.accepted = true) ∧
      first.1.1.types = second.1.1.types ∧
      ∀ later, (first.1.1.performAll later first.2).1.2 =
        (second.1.1.performAll later second.2).1.2 := by
  intro user post types calls calls' first second
  have hok : ∀ answer ∈ (Router.setUp ⟨true, "/api"⟩ calls .start).1.2,
      answer.accepted = true := by decide +kernel
  have hok' : ∀ answer ∈ (Router.setUp ⟨false, "/api"⟩ calls' .start).1.2,
      answer.accepted = true := by decide +kernel
  have hcalls : ∀ c ∈ calls, c.registers = true := by decide
  have hcalls' : ∀ c ∈ calls', c.registers = true := by decide
  have hbase : (⟨true, "/api"⟩ : RouterSettings).base = (⟨false, "/api"⟩ : RouterSettings).base :=
    rfl
  obtain ⟨-, -, htypes, -, hlater⟩ :=
    answers_of_interleaved hbase hcalls hcalls' rfl rfl hok hok'
  exact ⟨hok, hok', htypes, hlater⟩

end UrlRouting
