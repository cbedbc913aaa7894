import UrlRouting.Proofs.Clones.Family

/-!
# Caches do not show

Routers and matchers answer calls, are cloned, and share storages with their clones.
Main statement: whatever is asked of the members of a family and in whatever order,
every answer is the one that the member would give alone and with its cache disabled.
-/

namespace UrlRouting

universe u

/-! ## Calls on routers -/

/-- What is asked of one router. -/
inductive RouterCall (τ : Type) : Type 1 where
  | add (route : Route τ)
  | addVerb (verb : Verb) (template : String) (target : τ) (name : Option String)
  | addAll (routes : List (Route τ))
  | addTypes (types : List (String × String))
  | setBase (base : String)
  | routes
  | named (name : String)
  | generate {σ : Type} [ParamSource σ] (name : String) (params : σ)
  | matchRequest (url request : String)

inductive RouterAnswer (τ : Type) where
  | outcome (o : Except RouteError Unit)
  | routes (routes : List (Route τ))
  | route (route : Option (Route τ))
  | url (url : Except RouteError String)
  | hit (hit : Option (Hit τ))

variable [Regex.SizeLimit]

section Routers

variable {τ : Type}

/-- The route that a verb registers. -/
def Verb.route (verb : Verb) (template : String) (target : τ)
    (name : Option String) : Route τ :=
  ⟨verb.methods, template, target, name⟩

def Router.perform (r : Router τ) : RouterCall τ → Action (Router τ × RouterAnswer τ)
  | .add route => do
    let (r, o) ← r.add route
    return (r, .outcome o)
  | .addVerb verb template target name => do
    let (r, o) ← r.add (verb.route template target name)
    return (r, .outcome o)
  | .addAll routes => do
    let (r, o) ← r.addAll routes
    return (r, .outcome o)
  | .addTypes types => do
    let (r, o) ← r.addTypes types
    return (r, .outcome o)
  | .setBase base => return (r.withBase base, .outcome (.ok ()))
  | .routes => return (r, .routes r.routes)
  | .named name => return (r, .route (r.named? name))
  | @RouterCall.generate _ _ _ name params => return (r, .url (r.generate name params))
  | .matchRequest url request => return (r, .hit (← r.matchRequest url request))

/-- A call on a router without a cache. -/
def Table.perform (t : Table τ) : RouterCall τ → Table τ × RouterAnswer τ
  | .add route => ((t.add route).1, .outcome (t.add route).2)
  | .addVerb verb template target name =>
    let answer := t.add (verb.route template target name)
    (answer.1, .outcome answer.2)
  | .addAll routes => ((t.addAll routes).1, .outcome (t.addAll routes).2)
  | .addTypes types => ((t.addTypes types).1, .outcome (t.addTypes types).2)
  | .setBase base => ({ t with base := base }, .outcome (.ok ()))
  | .routes => (t, .routes t.routes)
  | .named name => (t, .route (t.named? name))
  | @RouterCall.generate _ _ _ name params => (t, .url (t.generate name params))
  | .matchRequest url request => (t, .hit (t.matchRequest url request))

/-- A registration that gives what it gives without a cache is such a call. -/
theorem Router.keeps_outcome {owners : Owners} {r : Router τ} (hm : r.matcher.Owns owners)
    {x : Action (Router τ × Except RouteError Unit)}
    {expected : Table τ × Except RouteError Unit} (h : Keeps owners x fun answer =>
      answer.1.matcher = r.matcher ∧ (answer.1.table, answer.2) = expected) :
    Grows owners (do let (r, o) ← x; return ((r, .outcome o) : Router τ × RouterAnswer τ))
      fun owners' answer => answer.1.matcher.Owns owners' ∧
        (answer.1.table, answer.2) = (expected.1, RouterAnswer.outcome expected.2) := by
  have hkeeps : Keeps owners
      (do let (r, o) ← x; return ((r, .outcome o) : Router τ × RouterAnswer τ)) fun answer =>
        answer.1.matcher = r.matcher ∧
          (answer.1.table, answer.2) = (expected.1, RouterAnswer.outcome expected.2) := by
    refine h.bind fun answer hanswer => ?_
    exact keeps_pure ⟨hanswer.1, by rw [← hanswer.2]⟩
  exact hkeeps.grows fun answer hanswer => ⟨hanswer.1 ▸ hm, hanswer.2⟩

theorem Router.transparent :
    Transparent (Router.perform (τ := τ)) Router.matcher Router.table Table.perform where
  grows := by
    intro owners r c hm
    cases c with
    | add route => exact Router.keeps_outcome hm (Router.keeps_add hm route)
    | addVerb verb template target name =>
      exact Router.keeps_outcome hm (Router.keeps_add hm (verb.route template target name))
    | addAll routes => exact Router.keeps_outcome hm (Router.keeps_addAll hm routes)
    | addTypes types =>
      refine (Router.grows_addTypes r types).bind fun more answer hanswer => ?_
      refine grows_pure ⟨hanswer.1, ?_⟩
      simp only [Table.perform, ← hanswer.2]
    | setBase base => exact grows_pure ⟨hm, rfl⟩
    | routes => exact grows_pure ⟨hm, rfl⟩
    | named name => exact grows_pure ⟨hm, rfl⟩
    | generate name params => exact grows_pure ⟨hm, rfl⟩
    | matchRequest url request =>
      have hkeeps : Keeps owners (r.perform (.matchRequest url request)) fun answer =>
          answer.1 = r ∧ answer.2 = .hit (r.table.matchRequest url request) :=
        (Router.keeps_matchRequest hm url request).bind
          fun hit hhit => keeps_pure ⟨rfl, by rw [hhit]⟩
      refine hkeeps.grows fun answer hanswer => ?_
      rw [hanswer.1, hanswer.2]
      exact ⟨hm, rfl⟩

/-- What every call keeps of a table holds of the table of every router of a family. -/
theorem table_of_family {settings : RouterSettings}
    {steps : List (FamilyStep (RouterCall τ))}
    {s : Session} {P : Table τ → Prop} (hcreate : P (Table.create settings.base))
    (hcall : ∀ t c, P t → P (t.perform c).1) {r : Router τ}
    (hr : r ∈ (startFamily (Router.create settings) Router.perform steps s).1.1) :
    P r.table := by
  obtain ⟨_, lineage, -, hmeaning, -⟩ :=
    member_of_startFamily Router.transparent (fun _ => Router.grows_create settings) steps s hr
  rw [hmeaning]
  exact lineageMeaning_induction hcreate hcall lineage

end Routers

/-! ## Calls on matchers -/

/-- What is asked of one matcher. -/
inductive MatcherCall where
  | compile (template : String)
  | prepare (template : String)
  | matchRoute (methods template path request : String)
  | translate (template : String)
  | addTypes (types : List (String × String))
  | clear

inductive MatcherAnswer where
  | pattern (answer : Except RouteError CompiledPattern)
  | prepared (outcome : Except RouteError Unit)
  | params (answer : Except RouteError (Option Params))
  | text (answer : Except RouteError String)
  | done

def Matcher.perform (m : Matcher) : MatcherCall → Action (Matcher × MatcherAnswer)
  | .compile template => return (m, .pattern ((← m.compile template).map (·.compiled)))
  | .prepare template => return (m, .prepared (← m.prepare template))
  | .matchRoute methods template path request =>
    return (m, .params (← m.matchRoute methods template path request))
  | .translate template => return (m, .text (patternText m.types template))
  | .addTypes types => return (← m.addTypes types, .done)
  | .clear => do
    m.cache.clear
    return (m, .done)

/-- A call on a matcher without a cache, which is a table of match types. -/
def MatchTypes.perform (types : MatchTypes) : MatcherCall → MatchTypes × MatcherAnswer
  | .compile template => (types, .pattern (compileTemplate types template))
  | .prepare template => (types, .prepared (prepared types template))
  | .matchRoute methods template path request =>
    (types, .params (routeAnswer types methods template path request))
  | .translate template => (types, .text (patternText types template))
  | .addTypes more => (types.extend more, .done)
  | .clear => (types, .done)

/-- An action that gives what it gives without a cache, as a call that changes
nothing. -/
theorem Matcher.keeps_answer {α : Type} {owners : Owners} {m : Matcher}
    (hm : m.Owns owners) {x : Action α} {f : α → MatcherAnswer} {expected : MatcherAnswer}
    (h : Keeps owners x fun a => f a = expected) :
    Grows owners (do let a ← x; return (m, f a)) fun owners' answer =>
      answer.1.Owns owners' ∧ (answer.1.types, answer.2) = (m.types, expected) := by
  have hkeeps : Keeps owners (do let a ← x; return (m, f a)) fun answer =>
      answer.1 = m ∧ answer.2 = expected :=
    h.bind fun a ha => keeps_pure ⟨rfl, ha⟩
  refine hkeeps.grows fun answer hanswer => ?_
  rw [hanswer.1, hanswer.2]
  exact ⟨hm, rfl⟩

theorem Matcher.transparent :
    Transparent Matcher.perform id Matcher.types MatchTypes.perform where
  grows := by
    intro owners m c hm
    cases c with
    | compile template =>
      exact Matcher.keeps_answer hm ((Matcher.keeps_compile hm template).imp
        fun _ h => congrArg MatcherAnswer.pattern h)
    | prepare template =>
      exact Matcher.keeps_answer hm ((Matcher.keeps_prepare hm template).imp
        fun _ h => congrArg MatcherAnswer.prepared h)
    | matchRoute methods template path request =>
      exact Matcher.keeps_answer hm
        ((Matcher.keeps_matchRoute hm methods template path request).imp
          fun _ h => congrArg MatcherAnswer.params h)
    | translate template => exact grows_pure ⟨hm, rfl⟩
    | addTypes types =>
      refine (Matcher.grows_addTypes m types).bind fun more m' hm' => grows_pure ⟨hm'.1, ?_⟩
      rw [hm'.2]
      rfl
    | clear => exact Matcher.keeps_answer hm ((Cache.keeps_clear m.cache).imp fun _ _ => rfl)

/-! ## Families -/

/-- Every template compiles to what the matcher's own table makes of it now. -/
def Matcher.CompilesAnew (m : Matcher) (s : Session) : Prop :=
  ∀ template, (m.compile template s).1.map (·.compiled) = compileTemplate m.types template

/-- The members of a family compile under their own tables at the end of every run. -/
theorem compilesAnew_of_startFamily {κ : Type u} {μ α ν : Type}
    {perform : μ → κ → Action (μ × α)}
    {matcher : μ → Matcher} {meaning : μ → ν} {direct : ν → κ → ν × α} {v : ν}
    (ht : Transparent perform matcher meaning direct) {create : Action μ}
    (hcreate : ∀ owners, Grows owners create fun owners' m =>
      (matcher m).Owns owners' ∧ meaning m = v)
    (steps : List (FamilyStep κ)) (s : Session) :
    ∀ m ∈ (startFamily create perform steps s).1.1,
      (matcher m).CompilesAnew (startFamily create perform steps s).2 := by
  intro m hmem template
  obtain ⟨owners, _, howns, -, hfaithful⟩ := member_of_startFamily ht hcreate steps s hmem
  exact (Matcher.keeps_compile howns template _ hfaithful).1

/-- In every run of a family of routers that descend from one new router, and of a
family of matchers that descend from one new matcher, every answer is the one that the
member would give alone with its cache disabled, and every member compiles under its
own present table. -/
theorem answers_eq_answersAlone :
    (∀ (τ : Type) (settings : RouterSettings) (steps : List (FamilyStep (RouterCall τ)))
        (s : Session),
      (startFamily (Router.create settings) Router.perform steps s).1.2 =
          answersAlone (Router.create ⟨false, settings.base⟩) Router.perform [[]] steps ∧
        ∀ r ∈ (startFamily (Router.create settings) Router.perform steps s).1.1,
          r.matcher.CompilesAnew
            (startFamily (Router.create settings) Router.perform steps s).2) ∧
    (∀ (types : MatchTypes) (enabled : Bool) (steps : List (FamilyStep MatcherCall))
        (s : Session),
      (startFamily (Matcher.create types enabled) Matcher.perform steps s).1.2 =
          answersAlone (Matcher.create types false) Matcher.perform [[]] steps ∧
        ∀ m ∈ (startFamily (Matcher.create types enabled) Matcher.perform steps s).1.1,
          m.CompilesAnew
            (startFamily (Matcher.create types enabled) Matcher.perform steps s).2) := by
  constructor
  · intro τ settings steps s
    have hcreate : ∀ owners, Grows owners (Router.create (τ := τ) settings)
        fun owners' r => r.matcher.Owns owners' ∧ r.table = Table.create settings.base :=
      fun _ => Router.grows_create settings
    have halone : ∀ owners, Grows owners (Router.create (τ := τ) ⟨false, settings.base⟩)
        fun owners' r => r.matcher.Owns owners' ∧ r.table = Table.create settings.base :=
      fun _ => Router.grows_create ⟨false, settings.base⟩
    exact ⟨answers_startFamily Router.transparent hcreate halone steps s,
      compilesAnew_of_startFamily Router.transparent hcreate steps s⟩
  · intro types enabled steps s
    have hcreate : ∀ enabled owners, Grows owners (Matcher.create types enabled)
        fun owners' m => (id m).Owns owners' ∧ m.types = types :=
      fun enabled _ => Matcher.grows_create types enabled
    exact ⟨answers_startFamily Matcher.transparent (hcreate enabled) (hcreate false) steps s,
      compilesAnew_of_startFamily Matcher.transparent (hcreate enabled) steps s⟩

end UrlRouting
