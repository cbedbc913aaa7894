import UrlRouting.Proofs.Dictionaries
import UrlRouting.Router.Basic

/-!
# Containers of parameters

A URL takes its values from a container that is asked for names. Lists and
arrays are searched from their end, a hash table and a tree are overwritten as
they are filled, and the parameters of a match keep whatever was pushed. Made
from the same pairs they answer alike, with the last value that the pairs give
to a name, and so they lead to the same URLs.

Main statement: `containers_agree`.
-/

namespace UrlRouting

/-! ## What each container finds -/

theorem getElem?_hashOfList {ν : Type} (pairs : List (String × ν)) (name : String) :
    (hashOfList pairs)[name]? = lookupLast pairs name := by
  have hinsert : ∀ (table : Std.HashMap String ν) key value name,
      (table.insert key value)[name]? = if name = key then some value else table[name]? := by
    intro table key value name
    rw [Std.HashMap.getElem?_insert]
    by_cases hname : name = key
    · simp [hname]
    · simp [hname, Ne.symm hname]
  rw [hashOfList, get_foldl hinsert]
  simp

theorem getElem?_treeOfList {ν : Type} (pairs : List (String × ν)) (name : String) :
    (treeOfList pairs)[name]? = lookupLast pairs name := by
  have hinsert : ∀ (tree : Std.TreeMap String ν) key value name,
      (tree.insert key value)[name]? = if name = key then some value else tree[name]? := by
    intro tree key value name
    rw [Std.TreeMap.getElem?_insert]
    by_cases hname : name = key
    · simp [hname]
    · simp [hname, Ne.symm hname]
  rw [treeOfList, get_foldl hinsert]
  simp

namespace Params

theorem get?_eq (p : Params) (name : String) : p.get? name = lookupLast p.entries name :=
  lookup_reverse p.entries name

theorem entries_foldl_push (p : Params) (pairs : List (String × String)) :
    (pairs.foldl (fun p (name, value) => p.push name value) p).entries = p.entries ++ pairs := by
  induction pairs generalizing p with
  | nil => exact (List.append_nil _).symm
  | cons pair rest ih =>
    rw [List.foldl_cons, ih]
    simp [push]

@[simp] theorem entries_ofList (pairs : List (String × String)) : (ofList pairs).entries = pairs :=
  entries_foldl_push empty pairs

end Params

/-! ## Containers -/

section Containers

variable {ν σ σ' : Type} [ParamText ν] [ParamSource σ] [ParamSource σ']

/-- A container answers for a name with the text of the last value that pairs
give to it. -/
def Answers (params : σ) (pairs : List (String × ν)) : Prop :=
  ∀ name text, ParamSource.lookup params name = some text ↔
    ∃ value, LastValue pairs name value ∧ ParamText.text value = text

theorem answers_iff {params : σ} {pairs : List (String × ν)} :
    Answers params pairs ↔
      ∀ name, ParamSource.lookup params name = (lookupLast pairs name).map ParamText.text := by
  unfold Answers
  simp only [← lookupLast_eq_some_iff, ← Option.map_eq_some_iff]
  constructor
  · intro h name
    exact Option.ext (h name)
  · intro h name text
    rw [h name]

/-- URLs depend on what a container answers, and not on how it is made. -/
theorem generateUrl_congr {params : σ} {params' : σ'}
    (h : ∀ name, ParamSource.lookup params name = ParamSource.lookup params' name)
    (base template : String) :
    generateUrl base template params = generateUrl base template params' := by
  have hlookup : ParamSource.lookup params = ParamSource.lookup params' := funext h
  unfold generateUrl
  rw [hlookup]

end Containers

/-- Pairs as a list and as an array, put in order into a hash table or a tree,
and their texts put into a dictionary or pushed to parameters: all of these
answer for a name with the text of the last value that the pairs give to it. All
containers that do so lead to the same URLs, of templates and of named routes.
Parameters find under a name what their dictionary has there, which is the value
pushed last, and they keep all that was pushed, in order. -/
theorem containers_agree {ν : Type} [ParamText ν] (pairs : List (String × ν)) :
    let texts := pairs.map fun pair => (pair.1, ParamText.text pair.2)
    (Answers pairs pairs ∧ Answers pairs.toArray pairs ∧ Answers (hashOfList pairs) pairs ∧
      Answers (treeOfList pairs) pairs ∧ Answers (Dictionary.ofList texts) pairs ∧
      Answers (Params.ofList texts) pairs) ∧
    (∀ {σ σ' : Type} [ParamSource σ] [ParamSource σ'] (params : σ) (params' : σ'),
      Answers params pairs → Answers params' pairs →
        (∀ base template,
          generateUrl base template params = generateUrl base template params') ∧
        ∀ {τ : Type} (r : Router τ) (name : String),
          r.generate name params = r.generate name params') ∧
    ∀ p : Params,
      (∀ name, ParamSource.lookup p name = p.get? name ∧
        p.toDictionary.get? name = p.get? name ∧
        ∀ value, p.get? name = some value ↔ LastValue p.entries name value) ∧
      ∀ more : List (String × String),
        let pushed := more.foldl (fun p (name, value) => p.push name value) p
        pushed.entries = p.entries ++ more ∧ pushed.size = p.size + more.length := by
  intro texts
  have htexts : ∀ name, lookupLast texts name = (lookupLast pairs name).map ParamText.text :=
    lookupLast_map ParamText.text pairs
  refine ⟨⟨?_, ?_, ?_, ?_, ?_, ?_⟩, ?_, ?_⟩
  · rw [answers_iff]
    intro name
    rfl
  · rw [answers_iff]
    intro name
    show (lookupLast pairs.toArray.toList name).map _ = _
    rw [List.toList_toArray]
  · rw [answers_iff]
    intro name
    show ((hashOfList pairs)[name]?).map _ = _
    rw [getElem?_hashOfList]
  · rw [answers_iff]
    intro name
    show ((treeOfList pairs)[name]?).map _ = _
    rw [getElem?_treeOfList]
  · rw [answers_iff]
    intro name
    rw [← htexts]
    exact Dictionary.get?_ofList texts name
  · rw [answers_iff]
    intro name
    show (Params.ofList texts).get? name = _
    rw [Params.get?_eq, Params.entries_ofList, htexts]
  · intro σ σ' _ _ params params' h h'
    rw [answers_iff] at h h'
    have hsame : ∀ name, ParamSource.lookup params name = ParamSource.lookup params' name := by
      intro name
      rw [h, h']
    refine ⟨generateUrl_congr hsame, ?_⟩
    intro τ r name
    unfold Router.generate
    cases r.named? name with
    | none => rfl
    | some route => exact generateUrl_congr hsame r.base route.template
  · intro p
    refine ⟨fun name => ⟨rfl, ?_, fun value => ?_⟩, fun more => ?_⟩
    · rw [Params.toDictionary, Dictionary.get?_ofList, Params.get?_eq]
    · rw [Params.get?_eq, lookupLast_eq_some_iff]
    · intro pushed
      have hentries : pushed.entries = p.entries ++ more := p.entries_foldl_push more
      refine ⟨hentries, ?_⟩
      rw [Params.size, Params.size, hentries, List.length_append]

/-- A name that comes three times, as a hash table and as parameters of texts. -/
theorem containers_agree_user :
    let pairs : List (String × Int) := [("id", 1), ("page", -2), ("id", 3), ("id", 7)]
    let params := Params.ofList [("id", "1"), ("page", "-2"), ("id", "3"), ("id", "7")]
    Answers (hashOfList pairs) pairs ∧ Answers params pairs ∧
      generateUrl "/app" "/users/[i:id].[:page]?" (hashOfList pairs) = .ok "/app/users/7.-2" ∧
      params.get? "id" = some "7" ∧ params.toDictionary.get? "id" = some "7" ∧ params.size = 4 := by
  intro pairs params
  obtain ⟨⟨-, -, hhash, -, -, hparams⟩, hurls, -⟩ := containers_agree pairs
  have htexts : Params.ofList (pairs.map fun pair => (pair.1, ParamText.text pair.2)) = params := by
    decide +kernel
  rw [htexts] at hparams
  have hget : params.get? "id" = some "7" := by decide +kernel
  have hurl : generateUrl "/app" "/users/[i:id].[:page]?" params = .ok "/app/users/7.-2" := by
    decide +kernel
  refine ⟨hhash, hparams, ?_, hget, ?_, by decide⟩
  · rw [(hurls _ params hhash hparams).1, hurl]
  · obtain ⟨-, -, hfind⟩ := containers_agree ([] : List (String × String))
    rw [((hfind params).1 "id").2.1, hget]

end UrlRouting
