import UrlRouting.Proofs.Clones.Calls
import UrlRouting.Proofs.Registration
import UrlRouting.Regex.ProgramSize

/-!
# The index of names

At every moment the index of a routing table maps a name to the one route that has it.
A new route keeps this because its name is not taken, and nothing else changes routes
or names.

Main statements: `indexed_of_family`, and `names_of_family` for what follows
about routers that are made and used in any way.
-/

namespace UrlRouting

namespace Table

variable {τ : Type}

/-- A name is mapped to a position exactly if the route there has the name. -/
def Indexed (t : Table τ) : Prop :=
  ∀ name i, t.names.lookup name = some i ↔
    ∃ route, t.routes[i]? = some route ∧ route.name = some name

theorem indexed_create (base : String) : (create (τ := τ) base).Indexed := by
  intro name i
  constructor
  · intro h
    cases h
  · rintro ⟨route, hat, -⟩
    cases hat

/-- The routes behind a new one are those before it, and the new one. -/
theorem getElem?_push (t : Table τ) (route other : Route τ) (i : Nat) :
    (t.push route).routes[i]? = some other ↔
      t.routes[i]? = some other ∨ (i = t.routes.length ∧ route = other) := by
  show (t.routes ++ [route])[i]? = some other ↔ _
  rcases Nat.lt_trichotomy i t.routes.length with hlt | rfl | hgt
  · rw [List.getElem?_append_left hlt]
    simp [Nat.ne_of_lt hlt]
  · simp
  · have hlength : (t.routes ++ [route]).length ≤ i := by
      rw [List.length_append]
      exact hgt
    rw [List.getElem?_eq_none hlength, List.getElem?_eq_none (Nat.le_of_lt hgt)]
    simp [Nat.ne_of_gt hgt]

/-- A new route takes its own name and no other. -/
theorem lookup_push (t : Table τ) (route : Route τ) (name : String) :
    (t.push route).names.lookup name =
      if route.name = some name then some t.routes.length else t.names.lookup name := by
  show ((route.name.map (·, t.routes.length)).toList ++ t.names).lookup name = _
  cases hname : route.name with
  | none => simp
  | some own =>
    by_cases heq : own = name
    · subst heq
      simp
    · have hne : (name == own) = false := beq_false_of_ne (Ne.symm heq)
      simp [List.lookup_cons, heq, hne]

/-- A route whose name is free can be appended. -/
theorem Indexed.push {t : Table τ} (h : t.Indexed) {route : Route τ}
    (hfree : t.Free route) :
    (t.push route).Indexed := by
  intro name i
  rw [lookup_push]
  by_cases hname : route.name = some name
  · -- the name is new, so no route before has it
    rw [if_pos hname]
    have hnone := hfree name hname
    constructor
    · intro heq
      exact ⟨route, (getElem?_push ..).mpr (.inr ⟨(Option.some.inj heq).symm, rfl⟩), hname⟩
    · rintro ⟨other, hother, hothername⟩
      rcases (getElem?_push ..).mp hother with hold | ⟨rfl, -⟩
      · rw [(h name i).mpr ⟨other, hold, hothername⟩] at hnone
        cases hnone
      · rfl
  · rw [if_neg hname, h name i]
    constructor
    · rintro ⟨other, hother, hothername⟩
      exact ⟨other, (getElem?_push ..).mpr (.inl hother), hothername⟩
    · rintro ⟨other, hother, hothername⟩
      rcases (getElem?_push ..).mp hother with hold | ⟨-, rfl⟩
      · exact ⟨other, hold, hothername⟩
      · exact absurd hothername hname

theorem Indexed.add [Regex.SizeLimit] {t : Table τ} (h : t.Indexed) (route : Route τ) :
    (t.add route).1.Indexed := by
  have hadded := t.added_add route
  generalize t.add route = answer at hadded
  cases hadded with
  | taken => exact h
  | refused => exact h
  | registered hfree => exact h.push hfree

/-- No call breaks the index. -/
theorem Indexed.perform [Regex.SizeLimit] {t : Table τ} (h : t.Indexed)
    (c : RouterCall τ) :
    (t.perform c).1.Indexed := by
  cases c with
  | add route => exact h.add route
  | addVerb verb template target name => exact h.add _
  | addAll routes => exact addAll_induction (fun _ route h => h.add route) routes h
  | addTypes types => exact h
  | setBase base => exact h
  | routes => exact h
  | named name => exact h
  | generate name params => exact h
  | matchRequest url request => exact h

/-- The route at a position is the one that its name leads to. -/
theorem Indexed.named?_eq {t : Table τ} (h : t.Indexed) {route : Route τ}
    {name : String} {i : Nat}
    (hat : t.routes[i]? = some route) (hname : route.name = some name) :
    t.named? name = some route := by
  unfold Table.named?
  rw [(h name i).mpr ⟨route, hat, hname⟩, Option.bind_some, hat]

end Table

/-- The table of every router of a family is indexed, and the router answers as
its table does. -/
theorem indexed_of_family [Regex.SizeLimit] {τ : Type} {settings : RouterSettings}
    {steps : List (FamilyStep (RouterCall τ))} {s : Session} {r : Router τ}
    (hr : r ∈ (startFamily (Router.create settings) Router.perform steps s).1.1) :
    r.table.Indexed ∧ ∀ url request, (r.matchRequest url request
      (startFamily (Router.create settings) Router.perform steps s).2).1 =
        r.table.matchRequest url request := by
  refine ⟨table_of_family (Table.indexed_create _) (fun _ c h => h.perform c) hr,
    fun url request => ?_⟩
  have hcreate : ∀ owners, Grows owners (Router.create (τ := τ) settings) fun owners' r =>
      r.matcher.Owns owners' ∧ r.table = Table.create settings.base :=
    fun _ => Router.grows_create settings
  obtain ⟨_, _, howns, -, hfaithful⟩ :=
    member_of_startFamily Router.transparent hcreate steps s hr
  exact (Router.keeps_matchRequest howns url request _ hfaithful).1

/-! ## Routers -/

namespace Router

variable {τ : Type}

/-- A router with more routes behind those of another one, or with the same. -/
def Grown (r r' : Router τ) : Prop :=
  ∃ more, r'.routes = r.routes ++ more

theorem Grown.refl (r : Router τ) : r.Grown r :=
  ⟨[], (List.append_nil _).symm⟩

theorem Grown.trans {a b c : Router τ} (hab : a.Grown b) (hbc : b.Grown c) :
    a.Grown c := by
  obtain ⟨more, hmore⟩ := hab
  obtain ⟨later, hlater⟩ := hbc
  exact ⟨more ++ later, by rw [hlater, hmore, List.append_assoc]⟩

theorem grown_perform [Regex.SizeLimit] (r : Router τ) (c : RouterCall τ) (s : Session) :
    r.Grown (r.perform c s).1.1 := by
  obtain ⟨more, -, hroutes, -⟩ := (leads_perform r c s).appends
  exact ⟨more, hroutes⟩

variable {r r' : Router τ}

theorem mem_routes_of_index (h : r.table.Indexed) {name : String} {route : Route τ} :
    r.named? name = some route ↔ route ∈ r.routes ∧ route.name = some name := by
  constructor
  · intro hnamed
    obtain ⟨i, hindex, hat⟩ := Option.bind_eq_some_iff.mp hnamed
    obtain ⟨other, hother, hname⟩ := (h name i).mp hindex
    obtain rfl : other = route := Option.some.inj (hother.symm.trans hat)
    exact ⟨List.mem_of_getElem? hat, hname⟩
  · rintro ⟨hmem, hname⟩
    obtain ⟨i, hat⟩ := List.mem_iff_getElem?.mp hmem
    exact h.named?_eq hat hname

/-- More routes leave the names where they were. -/
theorem index?_of_grown (h : r.table.Indexed) (h' : r'.table.Indexed)
    (hgrown : r.Grown r')
    {name : String} {i : Nat} (hindex : r.index? name = some i) :
    r'.index? name = some i := by
  obtain ⟨route, hat, hname⟩ := (h name i).mp hindex
  obtain ⟨more, hmore⟩ := hgrown
  refine (h' name i).mpr ⟨route, ?_, hname⟩
  have hlt : i < r.routes.length := (List.getElem?_eq_some_iff.mp hat).1
  show r'.routes[i]? = some route
  rw [hmore, List.getElem?_append_left hlt]
  exact hat

end Router

/-- At the end of every run of a family of routers, a router's index maps a name
to a position exactly if the route there has the name; so no two routes share a
name, and a name leads to the one route that has it, or to none. Every call
appends some of the routes that it offers and leaves the others, and so does
every further run of the family, in which a name that leads to a position goes
on to lead there. -/
theorem names_of_family [Regex.SizeLimit] {τ : Type} {settings : RouterSettings}
    {steps : List (FamilyStep (RouterCall τ))} {s : Session} {member : Nat} {r : Router τ}
    (hr : (startFamily (Router.create settings) Router.perform steps s).1.1[member]? = some r) :
    (∀ name i, r.index? name = some i ↔
      ∃ h : i < r.routes.length, r.routes[i].name = some name) ∧
    (∀ (i j : Nat) (a b : Route τ) (name : String), r.routes[i]? = some a →
      r.routes[j]? = some b → a.name = some name → b.name = some name → i = j) ∧
    (∀ name route, r.named? name = some route ↔ route ∈ r.routes ∧ route.name = some name) ∧
    (∀ name, r.named? name = none ↔ ∀ route ∈ r.routes, route.name ≠ some name) ∧
    (∀ name template, r.template? name = some template ↔
      ∃ route ∈ r.routes, route.name = some name ∧ route.template = template) ∧
    (∀ name, r.template? name = none ↔ ∀ route ∈ r.routes, route.name ≠ some name) ∧
    (∀ (c : RouterCall τ) (now : Session), ∃ more, more <+: c.offered ∧
      (r.perform c now).1.1.routes = r.routes ++ more ∧
      ((r.perform c now).1.2 = .outcome (.ok ()) → more = c.offered)) ∧
    ∀ later, ∃ r' more,
      (startFamily (Router.create settings) Router.perform (steps ++ later) s).1.1[member]? =
        some r' ∧
      r'.routes = r.routes ++ more ∧
      ∀ name i, r.index? name = some i → r'.index? name = some i := by
  have hindexed : r.table.Indexed := (indexed_of_family (List.mem_of_getElem? hr)).1
  have hnone : ∀ name, r.named? name = none ↔ ∀ route ∈ r.routes, route.name ≠ some name := by
    intro name
    rw [Option.eq_none_iff_forall_ne_some]
    simp only [ne_eq, Router.mem_routes_of_index hindexed, not_and]
  refine ⟨fun name i => ?_, fun i j a b name hi hj ha hb => ?_,
    fun name route => Router.mem_routes_of_index hindexed, hnone, fun name template => ?_,
    fun name => ?_, fun c now => (Router.leads_perform r c now).appends, fun later => ?_⟩
  · rw [show r.index? name = some i ↔ _ from hindexed name i]
    simp only [List.getElem?_eq_some_iff]
    constructor
    · rintro ⟨_, ⟨hlt, rfl⟩, hname⟩
      exact ⟨hlt, hname⟩
    · rintro ⟨hlt, hname⟩
      exact ⟨_, ⟨hlt, rfl⟩, hname⟩
  · have hiIndex := (hindexed name i).mpr ⟨a, hi, ha⟩
    have hjIndex := (hindexed name j).mpr ⟨b, hj, hb⟩
    exact Option.some.inj (hiIndex.symm.trans hjIndex)
  · rw [Router.template?, Option.map_eq_some_iff]
    simp only [Router.mem_routes_of_index hindexed, and_assoc]
  · rw [Router.template?, Option.map_eq_none_iff]
    exact hnone name
  · -- the later steps start from the members that the first ones leave
    let family := startFamily (Router.create settings) Router.perform steps s
    have hrun : ∃ r', (runFamily Router.perform family.1.1 later family.2).1.1[member]? = some r' ∧
        r.Grown r' :=
      related_runFamily Router.Grown.refl Router.Grown.trans Router.grown_perform later hr _
    obtain ⟨r', hr', hgrown⟩ := hrun
    have hr'' : (startFamily (Router.create settings) Router.perform
        (steps ++ later) s).1.1[member]? = some r' := by
      rw [← hr']
      exact congrArg (·[member]?) (members_runFamily_append steps later _ _)
    obtain ⟨more, hmore⟩ := hgrown
    have hindexed' := (indexed_of_family (List.mem_of_getElem? hr'')).1
    exact ⟨r', more, hr'', hmore,
      fun name i => Router.index?_of_grown hindexed hindexed' ⟨more, hmore⟩⟩

/-- A name that is taken and a block without an end register nothing, and what a clone
registers is found behind what it was cloned with. -/
theorem names_of_family_page :
    let user : Route String := ⟨"GET", "/users/[i:id]", "user", some "user"⟩
    let page : Route String := ⟨"GET", "/pages", "page", some "page"⟩
    let family := startFamily (Router.create ⟨true, ""⟩) Router.perform
      [.call 0 (.add user), .call 0 (.add ⟨"GET", "/other", "other", some "user"⟩),
        .call 0 (.add ⟨"GET", "/broken[i:id", "broken", some "broken"⟩), .clone 0,
        .call 1 (.add page)] .start
    let r : Router String := ⟨[user, page], [("page", 1), ("user", 0)], "", ⟨.builtIn, ⟨0, true⟩⟩⟩
    family.1.1[1]? = some r ∧ r.index? "page" = some 1 ∧ r.named? "user" = some user ∧
      r.template? "broken" = none := by
  intro user page family r
  have hr : family.1.1[1]? = some r := by decide +kernel
  obtain ⟨hindex, -, hnamed, -, -, hnone, -, -⟩ := names_of_family hr
  exact ⟨hr, (hindex "page" 1).mpr ⟨by decide, rfl⟩,
    (hnamed "user" user).mpr ⟨List.mem_cons_self .., rfl⟩, (hnone "broken").mpr (by decide)⟩

end UrlRouting
