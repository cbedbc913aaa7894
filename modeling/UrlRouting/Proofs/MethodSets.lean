import Mathlib.Data.List.DropRight
import Mathlib.Data.List.Forall2
import UrlRouting.Matcher
import UrlRouting.Regex.ProgramSize

/-!
# Method sets as sets

Method texts joined with bars are cut at the bars into the same texts, and a
text is compared with the method of a request without the blanks around it and
up to the case of ASCII letters. So a method set admits a request as a set does,
by one of its members: it does not matter in which order they are written, how
often, in which case and with which blanks. A route whose set does not admit a
request answers before anything is compiled.

Main statement: `allowsMethod_members`.
-/

namespace UrlRouting

/-! ## Cutting at bars -/

theorem splitOn_eq (sep : Char) (cs : List Char) : splitOn sep cs = cs.splitOn sep := by
  induction cs with
  | nil => rw [List.splitOn_nil, splitOn]
  | cons c rest ih =>
    rw [splitOn, ih, List.splitOn_cons_eq_if_modifyHead]
    by_cases hc : c = sep
    · simp [hc]
    · simp only [hc, beq_iff_eq, if_false]
      cases hrest : rest.splitOn sep with
      | nil => exact absurd hrest (List.splitOn_ne_nil sep rest)
      | cons piece pieces => rfl

/-- No piece between bars has a bar. -/
theorem not_mem_of_mem_splitOn {sep : Char} {cs piece : List Char}
    (h : piece ∈ splitOn sep cs) : sep ∉ piece := by
  induction cs generalizing piece with
  | nil =>
    rw [List.mem_singleton.mp h]
    exact List.not_mem_nil
  | cons c rest ih =>
    rw [splitOn] at h
    split at h
    · rcases List.mem_cons.mp h with rfl | hmem
      · exact List.not_mem_nil
      · exact ih hmem
    · next hc =>
      cases hrest : splitOn sep rest with
      | nil => exact absurd hrest (splitOn_ne_nil sep rest)
      | cons first pieces =>
        rw [hrest] at h ih
        rcases List.mem_cons.mp h with rfl | hmem
        · intro hsep
          rcases List.mem_cons.mp hsep with hc' | hfirst
          · exact hc hc'.symm
          · exact ih List.mem_cons_self hfirst
        · exact ih (List.mem_cons_of_mem _ hmem)

/-- Texts without a bar, joined with bars. -/
theorem splitOn_joined {elements : List String} (hne : elements ≠ [])
    (hbar : ∀ e ∈ elements, '|' ∉ e.toList) :
    splitOn '|' ("|".intercalate elements).toList = elements.map String.toList := by
  rw [splitOn_eq, String.toList_intercalate]
  refine List.splitOn_intercalate '|' ?_ (List.map_eq_nil_iff.not.mpr hne)
  intro piece hpiece
  obtain ⟨e, he, rfl⟩ := List.mem_map.mp hpiece
  exact hbar e he

/-- The texts between the bars of a method set. -/
def elementsOf (methods : String) : List String :=
  (splitOn '|' methods.toList).map String.ofList

theorem elementsOf_ne_nil (methods : String) : elementsOf methods ≠ [] :=
  List.map_eq_nil_iff.not.mpr (splitOn_ne_nil '|' methods.toList)

theorem bar_not_mem_elementsOf {methods e : String} (h : e ∈ elementsOf methods) :
    '|' ∉ e.toList := by
  obtain ⟨piece, hpiece, rfl⟩ := List.mem_map.mp h
  rw [String.toList_ofList]
  exact not_mem_of_mem_splitOn hpiece

theorem intercalate_elementsOf (methods : String) :
    "|".intercalate (elementsOf methods) = methods := by
  apply String.toList_inj.mp
  rw [String.toList_intercalate, elementsOf, List.map_map, splitOn_eq]
  have hid : String.toList ∘ String.ofList = id := funext fun _ => String.toList_ofList
  rw [hid, List.map_id]
  exact List.intercalate_splitOn '|'

/-! ## Blanks around a text -/

/-- What is left of a text without the blanks at both ends. -/
structure Trimmed (text core : List Char) : Prop where
  around : ∃ before after, text = before ++ (core ++ after) ∧
    (∀ c ∈ before, isBlank c = true) ∧ ∀ c ∈ after, isBlank c = true
  head : ∀ c ∈ core.head?, isBlank c = false
  last : ∀ c ∈ core.getLast?, isBlank c = false

theorem trimRight_eq (cs : List Char) : trimRight cs = cs.rdropWhile isBlank := by
  induction cs using List.reverseRecOn with
  | nil => rfl
  | append_singleton cs c ih =>
    cases hc : isBlank c with
    | true => rw [trimRight_append_blank hc, List.rdropWhile_concat_pos _ _ _ hc, ih]
    | false =>
      rw [trimRight_append_not_blank hc, List.rdropWhile_concat_neg _ _ _ (by simp [hc])]

theorem trimRight_append_blanks (cs : List Char) {blanks : List Char}
    (h : ∀ c ∈ blanks, isBlank c = true) : trimRight (cs ++ blanks) = trimRight cs := by
  induction blanks using List.reverseRecOn with
  | nil => rw [List.append_nil]
  | append_singleton blanks c ih =>
    rw [← List.append_assoc, trimRight_append_blank (h c (by simp))]
    exact ih fun d hd => h d (List.mem_append_left _ hd)

theorem trimmed_trim (text : List Char) : Trimmed text (trim text) := by
  have hcut := List.takeWhile_append_dropWhile (p := isBlank) (l := text)
  have hhead : ∀ c ∈ (text.dropWhile isBlank).head?, isBlank c = false := by
    intro c hc
    obtain ⟨rest, hrest⟩ := List.head?_eq_some_iff.mp hc
    simpa [hrest] using List.head_dropWhile_not isBlank (l := text) (by simp [hrest])
  rw [trim, trimRight_eq]
  generalize text.dropWhile isBlank = left at hcut hhead
  refine ⟨⟨text.takeWhile isBlank, left.rtakeWhile isBlank, ?_, ?_, ?_⟩, ?_, ?_⟩
  · rw [List.rdropWhile_append_rtakeWhile, hcut]
  · exact fun c hc => List.mem_takeWhile_imp hc
  · exact fun c hc => List.mem_rtakeWhile_imp hc
  · intro c hc
    obtain ⟨after, hafter⟩ := List.rdropWhile_prefix isBlank left
    obtain ⟨rest, hrest⟩ := List.head?_eq_some_iff.mp hc
    exact hhead c (by rw [← hafter, hrest]; rfl)
  · intro c hc
    obtain ⟨hne, rfl⟩ := List.mem_getLast?_eq_getLast hc
    simpa using List.rdropWhile_last_not isBlank left hne

theorem Trimmed.trim_eq {text core : List Char} (h : Trimmed text core) :
    trim text = core := by
  obtain ⟨before, after, rfl, hbefore, hafter⟩ := h.around
  rw [trim, List.dropWhile_append_of_pos hbefore]
  rcases List.eq_nil_or_concat' core with rfl | ⟨init, d, rfl⟩
  · rw [List.nil_append, List.dropWhile_eq_nil_iff.mpr hafter]
    rfl
  · have hhead : ∀ c ∈ ((init ++ [d]) ++ after).head?, isBlank c = false := by
      intro c hc
      rw [List.head?_append_of_ne_nil _ (by simp)] at hc
      exact h.head c hc
    have hdrop : ((init ++ [d]) ++ after).dropWhile isBlank = (init ++ [d]) ++ after := by
      cases hall : (init ++ [d]) ++ after with
      | nil => rfl
      | cons c rest => exact List.dropWhile_cons_of_neg (by simp [hhead c (by simp [hall])])
    rw [hdrop, trimRight_append_blanks _ hafter]
    exact trimRight_append_not_blank (h.last d (by simp)) init

theorem trimmed_iff {text core : List Char} : Trimmed text core ↔ trim text = core :=
  ⟨Trimmed.trim_eq, fun h => h ▸ trimmed_trim text⟩

/-! ## Letter case -/

/-- The capital and the small form of one ASCII letter. -/
def LetterPair (upper lower : Char) : Prop :=
  'A' ≤ upper ∧ upper ≤ 'Z' ∧ lower.toNat = upper.toNat + 32

/-- The same character up to the case of an ASCII letter. -/
def SameLetter (c d : Char) : Prop :=
  c = d ∨ LetterPair c d ∨ LetterPair d c

theorem toNat_toLower (c : Char) :
    c.toLower.toNat = if 'A' ≤ c ∧ c ≤ 'Z' then c.toNat + 32 else c.toNat := by
  unfold Char.toLower
  split
  · next h =>
    have hle : c.val.toNat ≤ 90 := h.2
    rw [if_pos (show 'A' ≤ c ∧ c ≤ 'Z' from h)]
    show (c.val + 32).toNat = c.val.toNat + 32
    rw [UInt32.toNat_add]
    exact Nat.mod_eq_of_lt (show c.val.toNat + 32 < 2 ^ 32 by omega)
  · next h => rw [if_neg (show ¬('A' ≤ c ∧ c ≤ 'Z') from h)]

theorem toLower_eq_toLower_iff {c d : Char} : c.toLower = d.toLower ↔ SameLetter c d := by
  have hle : ∀ x y : Char, x ≤ y ↔ x.toNat ≤ y.toNat := fun _ _ => Iff.rfl
  have hA : ('A' : Char).toNat = 65 := rfl
  have hZ : ('Z' : Char).toNat = 90 := rfl
  rw [SameLetter, LetterPair, LetterPair, ← Char.toNat_inj, ← Char.toNat_inj,
    toNat_toLower, toNat_toLower]
  simp only [hle, hA, hZ]
  split <;> split <;> omega

theorem sameIgnoringCase_iff {xs ys : List Char} :
    sameIgnoringCase xs ys = true ↔ List.Forall₂ SameLetter xs ys := by
  rw [sameIgnoringCase, beq_iff_eq, lowerAscii, lowerAscii]
  induction xs generalizing ys with
  | nil => cases ys <;> simp
  | cons c rest ih =>
    cases ys with
    | nil => simp
    | cons d others =>
      rw [List.map_cons, List.map_cons, List.cons.injEq, List.forall₂_cons, ih,
        toLower_eq_toLower_iff]

/-! ## Members of a method set -/

/-- An element, without the blanks around it, is the method of a request up to
the case of ASCII letters. -/
def Admits (element request : String) : Prop :=
  ∃ core, Trimmed element.toList core ∧ List.Forall₂ SameLetter core request.toList

/-- Two elements differ at most in the blanks around them and the case of ASCII
letters. -/
def SameMethod (e o : String) : Prop :=
  ∃ core other, Trimmed e.toList core ∧ Trimmed o.toList other ∧
    List.Forall₂ SameLetter core other

theorem admits_iff {e request : String} :
    Admits e request ↔ sameIgnoringCase (trim e.toList) request.toList = true := by
  rw [sameIgnoringCase_iff, Admits]
  simp only [trimmed_iff, exists_eq_left']

theorem sameMethod_iff {e o : String} :
    SameMethod e o ↔ lowerAscii (trim e.toList) = lowerAscii (trim o.toList) := by
  rw [← beq_iff_eq, ← sameIgnoringCase, sameIgnoringCase_iff, SameMethod]
  simp only [trimmed_iff, exists_and_left, exists_eq_left']

instance (e request : String) : Decidable (Admits e request) :=
  decidable_of_iff _ admits_iff.symm

instance (e o : String) : Decidable (SameMethod e o) :=
  decidable_of_iff _ sameMethod_iff.symm

theorem SameMethod.admits_iff {e o : String} (h : SameMethod e o) (request : String) :
    Admits e request ↔ Admits o request := by
  rw [UrlRouting.admits_iff, UrlRouting.admits_iff, sameIgnoringCase, sameIgnoringCase,
    sameMethod_iff.mp h]

theorem allowsMethod_iff {methods request : String} :
    allowsMethod methods request = true ↔ ∃ e ∈ elementsOf methods, Admits e request := by
  rw [allowsMethod, methodAllowed, List.any_eq_true, elementsOf]
  simp only [List.mem_map, exists_exists_and_eq_and, admits_iff, String.toList_ofList]

theorem elementsOf_intercalate {elements : List String} (hne : elements ≠ [])
    (hbar : ∀ e ∈ elements, '|' ∉ e.toList) :
    elementsOf ("|".intercalate elements) = elements := by
  rw [elementsOf, splitOn_joined hne hbar, List.map_map]
  have hid : String.ofList ∘ String.toList = id := funext fun _ => String.ofList_toList
  rw [hid, List.map_id]

theorem elementsOf_append (s₁ s₂ : String) :
    elementsOf (s₁ ++ "|" ++ s₂) = elementsOf s₁ ++ elementsOf s₂ := by
  rw [elementsOf, String.toList_append, String.toList_append, List.append_assoc]
  exact (congrArg _ (splitOn_append_sep '|' _ _)).trans (List.map_append ..)

theorem allowsMethod_append (s₁ s₂ request : String) :
    allowsMethod (s₁ ++ "|" ++ s₂) request
      = (allowsMethod s₁ request || allowsMethod s₂ request) := by
  rw [Bool.eq_iff_iff, Bool.or_eq_true, allowsMethod_iff, allowsMethod_iff, allowsMethod_iff,
    elementsOf_append]
  simp only [List.mem_append, or_and_right, exists_or]

/-- Of two lists of elements, each element of one is like an element of the other. -/
def CoveredBy (elements others : List String) : Prop :=
  ∀ e ∈ elements, ∃ o ∈ others, SameMethod e o

instance (elements others : List String) : Decidable (CoveredBy elements others) :=
  inferInstanceAs (Decidable (∀ e ∈ elements, ∃ o ∈ others, SameMethod e o))

theorem CoveredBy.admits {elements others : List String} (h : CoveredBy elements others)
    {request : String} (hadmits : ∃ e ∈ elements, Admits e request) :
    ∃ o ∈ others, Admits o request := by
  obtain ⟨e, he, hreq⟩ := hadmits
  obtain ⟨o, ho, hsame⟩ := h e he
  exact ⟨o, ho, (hsame.admits_iff request).mp hreq⟩

theorem matchRoute_of_not_allowsMethod [Regex.SizeLimit] (m : Matcher)
    {methods request : String}
    (h : allowsMethod methods request = false) (template path : String) (s : Session) :
    m.matchRoute methods template path request s = (.ok none, s) := by
  rw [Matcher.matchRoute, h]
  rfl

/-- A method set, which is always a join of elements with bars, admits a request
by one of its elements. The set made of two sets admits what one of them does;
elements that are alike, in whatever order and number, admit the same requests;
and where the set does not admit the request, a route answers so for every
template and leaves everything as it was. -/
theorem allowsMethod_members [Regex.SizeLimit] {elements : List String}
    (hne : elements ≠ []) (hbar : ∀ e ∈ elements, '|' ∉ e.toList) (request : String) :
    (allowsMethod ("|".intercalate elements) request = true ↔ ∃ e ∈ elements, Admits e request) ∧
    (∀ methods, ∃ parts : List String, parts ≠ [] ∧ (∀ e ∈ parts, '|' ∉ e.toList) ∧
      "|".intercalate parts = methods) ∧
    (∀ s₁ s₂, allowsMethod (s₁ ++ "|" ++ s₂) request
      = (allowsMethod s₁ request || allowsMethod s₂ request)) ∧
    (∀ others : List String, (∀ o ∈ others, '|' ∉ o.toList) → CoveredBy elements others →
      CoveredBy others elements →
      allowsMethod ("|".intercalate others) request
        = allowsMethod ("|".intercalate elements) request) ∧
    ∀ methods, allowsMethod methods request = false →
      ∀ (m : Matcher) (template path : String) (s : Session),
        m.matchRoute methods template path request s = (.ok none, s) := by
  refine ⟨?_, ?_, ?_, ?_, ?_⟩
  · rw [allowsMethod_iff, elementsOf_intercalate hne hbar]
  · exact fun methods => ⟨elementsOf methods, elementsOf_ne_nil methods,
      fun e he => bar_not_mem_elementsOf he, intercalate_elementsOf methods⟩
  · exact fun s₁ s₂ => allowsMethod_append s₁ s₂ request
  · intro others hothers hcovered hcovers
    have hne' : others ≠ [] := by
      rintro rfl
      obtain ⟨e, he⟩ := List.exists_mem_of_ne_nil elements hne
      obtain ⟨o, ho, -⟩ := hcovered e he
      exact List.not_mem_nil ho
    rw [Bool.eq_iff_iff, allowsMethod_iff, allowsMethod_iff, elementsOf_intercalate hne' hothers,
      elementsOf_intercalate hne hbar]
    exact ⟨hcovers.admits, hcovered.admits⟩
  · exact fun methods h m template path s => matchRoute_of_not_allowsMethod m h template path s

/-- An empty element and one with blanks of Unicode around it, written again in
another case, order and number; and a route whose template is malformed. -/
theorem allowsMethod_members_padded :
    allowsMethod "|\u3000PoSt\u00a0" "post" = true ∧
    allowsMethod "POST|| post |" "post" = allowsMethod "|\u3000PoSt\u00a0" "post" ∧
    allowsMethod "|\u3000PoSt\u00a0" " post" = false ∧
    ∀ (m : Matcher) (s : Session),
      m.matchRoute "|\u3000PoSt\u00a0" "/[" "/a" " post" s = (.ok none, s) := by
  have hbar : ∀ e ∈ ["", "\u3000PoSt\u00a0"], '|' ∉ e.toList := by decide
  obtain ⟨hadmits, -, -, hsame, -⟩ := allowsMethod_members (by decide) hbar "post"
  obtain ⟨-, -, -, -, hgate⟩ := allowsMethod_members (by decide) hbar " post"
  refine ⟨hadmits.mpr (by decide), ?_, by decide, fun m s => hgate _ (by decide) m "/[" "/a" s⟩
  exact hsame ["POST", "", " post "] (by decide) (by decide) (by decide)

end UrlRouting
