import UrlRouting.Proofs.Direct

/-!
# What registering does to a table

A route is registered if its name is free and its template can be matched; otherwise
the table stays as it is, and the outcome says why. So whatever routes are registered,
those that are new can be matched. New match types stay, whether every route fits them
or not, and the outcome is about the first route that does not.

Main statements: `Table.added_add`, `Table.preparedAll_eq_error_iff`.
-/

namespace UrlRouting

/-! ## Templates -/

section Templates

variable {types : MatchTypes} {template : String} {e : RouteError}

/-- The wildcard neither is raw nor has a bracket, so it is no exception. -/
theorem needsPattern_eq (template : String) :
    needsPattern template = (isRaw template || hasBracket template) := by
  unfold needsPattern
  by_cases hwildcard : template = wildcard
  · subst hwildcard
    decide
  · simp [hwildcard]

theorem prepared_eq_ok_iff [Regex.SizeLimit] :
    prepared types template = .ok () ↔
      (needsPattern template = true → ∃ c, compileTemplate types template = .ok c) := by
  unfold prepared
  split
  · next hneeds =>
    cases compileTemplate types template with
    | error e => simp [Except.map, hneeds]
    | ok c => simp [Except.map]
  · next hneeds => simp [hneeds]

theorem prepared_eq_error_iff [Regex.SizeLimit] :
    prepared types template = .error e ↔
      needsPattern template = true ∧ compileTemplate types template = .error e := by
  unfold prepared
  split
  · next hneeds =>
    cases compileTemplate types template with
    | error e' => simp [Except.map, hneeds]
    | ok c => simp [Except.map]
  · next hneeds => simp [hneeds]

end Templates

namespace Table

variable {τ : Type}

/-! ## One route -/

/-- No route has the name of a new one, if the new one has a name. -/
def Free (t : Table τ) (route : Route τ) : Prop :=
  ∀ name, route.name = some name → t.names.lookup name = none

/-- The ways in which registering a route can end. -/
inductive Added [Regex.SizeLimit] (t : Table τ) (route : Route τ) :
    Table τ × Except RouteError Unit → Prop
  | taken {name : String} (hname : route.name = some name) (htaken : ¬ t.Free route) :
    Added t route (t, .error (.duplicateName name))
  | refused {e : RouteError} (hfree : t.Free route)
    (hrefused : prepared t.types route.template = .error e) : Added t route (t, .error e)
  | registered (hfree : t.Free route) (hprepared : prepared t.types route.template = .ok ()) :
    Added t route (t.push route, .ok ())

theorem added_add [Regex.SizeLimit] (t : Table τ) (route : Route τ) :
    t.Added route (t.add route) := by
  unfold Table.add
  split
  · next name hfilter =>
    obtain ⟨hname, htaken⟩ := Option.filter_eq_some_iff.mp hfilter
    refine .taken hname fun hfree => ?_
    rw [hfree name hname] at htaken
    cases htaken
  · next hfilter =>
    have hfree : t.Free route := by
      intro name hname
      rw [hname, Option.filter_some] at hfilter
      cases hlookup : t.names.lookup name with
      | none => rfl
      | some i => simp [hlookup] at hfilter
    split
    · next e hrefused => exact .refused hfree hrefused
    · next hprepared => exact .registered hfree hprepared

theorem add_of_ok [Regex.SizeLimit] {t : Table τ} {route : Route τ}
    (h : (t.add route).2 = .ok ()) :
    (t.add route).1 = t.push route := by
  have hadded := t.added_add route
  generalize t.add route = answer at h hadded
  cases hadded with
  | taken => cases h
  | refused => cases h
  | registered => rfl

/-- Only a route that can be matched is registered. -/
theorem prepared_of_mem_add [Regex.SizeLimit] {t : Table τ} {new route : Route τ}
    (h : route ∈ (t.add new).1.routes) :
    route ∈ t.routes ∨ prepared t.types route.template = .ok () := by
  have hadded := t.added_add new
  generalize t.add new = answer at h hadded
  cases hadded with
  | taken => exact .inl h
  | refused => exact .inl h
  | registered hfree hprepared =>
    rcases List.mem_append.mp h with hold | hnew
    · exact .inl hold
    · rw [List.mem_singleton.mp hnew]
      exact .inr hprepared

/-! ## Several routes -/

theorem types_add [Regex.SizeLimit] (t : Table τ) (route : Route τ) :
    (t.add route).1.types = t.types := by
  have hadded := t.added_add route
  generalize t.add route = answer at hadded
  cases hadded <;> rfl

/-- What every new route keeps of a table, several keep together. -/
theorem addAll_induction [Regex.SizeLimit] {P : Table τ → Prop}
    (hadd : ∀ (t : Table τ) (route : Route τ), P t → P (t.add route).1)
    (routes : List (Route τ)) : ∀ {t : Table τ}, P t → P (t.addAll routes).1 := by
  induction routes with
  | nil => exact fun h => h
  | cons route rest ih =>
    intro t h
    have hfirst := hadd t route h
    unfold Table.addAll
    generalize t.add route = answer at hfirst ⊢
    obtain ⟨t', outcome⟩ := answer
    cases outcome with
    | error e => exact hfirst
    | ok _ => exact ih hfirst

theorem prepared_of_mem_addAll [Regex.SizeLimit] {t : Table τ} {route : Route τ}
    (routes : List (Route τ)) (h : route ∈ (t.addAll routes).1.routes) :
    route ∈ t.routes ∨ prepared t.types route.template = .ok () := by
  -- the match types stay, so being matched means the same all along
  let Kept : Table τ → Prop := fun t' => t'.types = t.types ∧
    ∀ other ∈ t'.routes, other ∈ t.routes ∨ prepared t.types other.template = .ok ()
  have hadd : ∀ (t' : Table τ) (new : Route τ), Kept t' → Kept (t'.add new).1 := by
    intro t' new hkept
    refine ⟨(t'.types_add new).trans hkept.1, fun other hmem => ?_⟩
    rcases prepared_of_mem_add hmem with hold | hprepared
    · exact hkept.2 other hold
    · exact .inr (hkept.1 ▸ hprepared)
  have hkept : Kept (t.addAll routes).1 :=
    addAll_induction hadd routes ⟨rfl, fun _ hmem => .inl hmem⟩
  exact hkept.2 route h

/-- Appends routes in order. -/
def pushAll (t : Table τ) (routes : List (Route τ)) : Table τ :=
  routes.foldl push t

theorem pushAll_append (t : Table τ) (routes more : List (Route τ)) :
    t.pushAll (routes ++ more) = (t.pushAll routes).pushAll more :=
  List.foldl_append

theorem routes_pushAll (routes : List (Route τ)) :
    ∀ t : Table τ, (t.pushAll routes).routes = t.routes ++ routes := by
  induction routes with
  | nil => exact fun t => (List.append_nil t.routes).symm
  | cons route rest ih =>
    intro t
    show ((t.push route).pushAll rest).routes = _
    rw [ih (t.push route)]
    exact List.append_assoc t.routes [route] rest

theorem types_pushAll (routes : List (Route τ)) :
    ∀ t : Table τ, (t.pushAll routes).types = t.types := by
  induction routes with
  | nil => exact fun _ => rfl
  | cons route rest ih => exact fun t => ih (t.push route)

theorem base_pushAll (routes : List (Route τ)) :
    ∀ t : Table τ, (t.pushAll routes).base = t.base := by
  induction routes with
  | nil => exact fun _ => rfl
  | cons route rest ih => exact fun t => ih (t.push route)

/-- Without a refusal, all routes are registered. -/
theorem addAll_of_ok [Regex.SizeLimit] (routes : List (Route τ)) :
    ∀ {t : Table τ}, (t.addAll routes).2 = .ok () → (t.addAll routes).1 = t.pushAll routes := by
  induction routes with
  | nil => exact fun _ => rfl
  | cons route rest ih =>
    intro t h
    have hfirst : (t.add route).2 = .ok () → (t.add route).1 = t.push route := add_of_ok
    unfold Table.addAll at h ⊢
    generalize t.add route = answer at h hfirst ⊢
    obtain ⟨t', outcome⟩ := answer
    cases outcome with
    | error e => cases h
    | ok _ =>
      obtain rfl : t' = t.push route := hfirst rfl
      exact ih h

/-! ## All templates of a table -/

section All

variable [Regex.SizeLimit] {types : MatchTypes} {first : String} {rest templates : List String}
  {e : RouteError}

theorem preparedAll_cons_of_ok (h : prepared types first = .ok ()) :
    preparedAll types (first :: rest) = preparedAll types rest := by
  rw [preparedAll, h]

theorem preparedAll_cons_of_error (h : prepared types first = .error e) :
    preparedAll types (first :: rest) = .error e := by
  rw [preparedAll, h]

/-- Of several templates every one can be matched. -/
theorem preparedAll_eq_ok_iff :
    preparedAll types templates = .ok () ↔
      ∀ template ∈ templates, prepared types template = .ok () := by
  induction templates with
  | nil => exact ⟨fun _ => nofun, fun _ => rfl⟩
  | cons first rest ih =>
    rw [List.forall_mem_cons, ← ih]
    cases hfirst : prepared types first with
    | error e => simp [preparedAll_cons_of_error hfirst]
    | ok _ => simp [preparedAll_cons_of_ok hfirst]

/-- The outcome for several templates is that of the first that cannot be matched. -/
theorem preparedAll_eq_error_iff :
    preparedAll types templates = .error e ↔
      ∃ before template after, templates = before ++ template :: after ∧
        (∀ other ∈ before, prepared types other = .ok ()) ∧
        prepared types template = .error e := by
  constructor
  · intro h
    induction templates with
    | nil => cases h
    | cons first rest ih =>
      cases hfirst : prepared types first with
      | error e' =>
        rw [preparedAll_cons_of_error hfirst] at h
        exact ⟨[], first, rest, rfl, nofun, h ▸ hfirst⟩
      | ok _ =>
        rw [preparedAll_cons_of_ok hfirst] at h
        obtain ⟨before, template, after, rfl, hbefore, htemplate⟩ := ih h
        refine ⟨first :: before, template, after, rfl, ?_, htemplate⟩
        intro other hmem
        rcases List.mem_cons.mp hmem with rfl | hmem
        · exact hfirst
        · exact hbefore other hmem
  · rintro ⟨before, template, after, rfl, hbefore, htemplate⟩
    induction before with
    | nil => exact preparedAll_cons_of_error htemplate
    | cons first before ih =>
      have hfirst : prepared types first = .ok () := hbefore first (List.mem_cons_self ..)
      rw [List.cons_append, preparedAll_cons_of_ok hfirst]
      exact ih fun other hmem => hbefore other (List.mem_cons_of_mem _ hmem)

end All

end Table

end UrlRouting
