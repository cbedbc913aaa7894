import UrlRouting.Proofs.Template.Kinds
import UrlRouting.Template.Basic

/-!
# Cuts of a path

What it means for a path to fit a plain template, without regular expressions: the
path is cut into consecutive pieces, one for each segment. Of several cuts one is
preferred. Going from left to right, a block would rather have a value than none, and
rather a longer value than a shorter one, or a shorter one if its kind is lazy.

Main statement: `Preferred.unique`.
-/

namespace UrlRouting

/-- The kind of value that a block asks for. -/
def Block.kind (b : Block) : ValueKind :=
  .ofName b.typeName

/-- The lead of a block as text. -/
def Block.leadText (b : Block) : List Char :=
  (b.lead.map Lead.char).toList

/-- A path cut along segments, with the value of each block or `none` where the block is
left out. -/
inductive Cut : List Segment → List Char → List (Option (List Char)) → Prop
  | nil : Cut [] [] []
  | literal {text : String} {rest : List Segment} {path : List Char}
      {values : List (Option (List Char))} (hrest : Cut rest path values) :
      Cut (.literal text :: rest) (text.toList ++ path) values
  | present {b : Block} {rest : List Segment} {value path : List Char}
      {values : List (Option (List Char))} (hne : value ≠ [])
      (hvalue : ∀ c ∈ value, b.kind.admits c = true) (hrest : Cut rest path values) :
      Cut (.block b :: rest) (b.leadText ++ (value ++ path)) (some value :: values)
  | absent {b : Block} {rest : List Segment} {path : List Char}
      {values : List (Option (List Char))} (hoptional : b.isOptional = true)
      (hrest : Cut rest path values) :
      Cut (.block b :: rest) path (none :: values)

/-! ## What a cut begins with -/

section

variable {b : Block} {text : String} {rest : List Segment} {path : List Char}
  {values : List (Option (List Char))}

theorem cut_nil_iff : Cut [] path values ↔ path = [] ∧ values = [] := by
  constructor
  · rintro ⟨⟩
    exact ⟨rfl, rfl⟩
  · rintro ⟨rfl, rfl⟩
    exact .nil

theorem cut_literal_iff :
    Cut (.literal text :: rest) path values ↔
      ∃ tail, path = text.toList ++ tail ∧ Cut rest tail values := by
  constructor
  · intro h
    cases h with
    | literal hrest => exact ⟨_, rfl, hrest⟩
  · rintro ⟨tail, rfl, hrest⟩
    exact .literal hrest

theorem cut_block_iff :
    Cut (.block b :: rest) path values ↔
      (∃ value tail others, values = some value :: others ∧ value ≠ [] ∧
        (∀ c ∈ value, b.kind.admits c = true) ∧ path = b.leadText ++ (value ++ tail) ∧
        Cut rest tail others) ∨
      (∃ others, values = none :: others ∧ b.isOptional = true ∧ Cut rest path others) := by
  constructor
  · intro h
    cases h with
    | present hne hvalue hrest => exact .inl ⟨_, _, _, rfl, hne, hvalue, rfl, hrest⟩
    | absent hoptional hrest => exact .inr ⟨_, rfl, hoptional, hrest⟩
  · rintro (⟨value, tail, others, rfl, hne, hvalue, rfl, hrest⟩ | ⟨others, rfl, hoptional, hrest⟩)
    · exact .present hne hvalue hrest
    · exact .absent hoptional hrest

end

/-! ## The order of cuts -/

/-- Whether a block of a kind tries one value before another. -/
inductive ValueKind.Sooner (k : ValueKind) :
    Option (List Char) → Option (List Char) → Prop
  | present (value : List Char) : Sooner k (some value) none
  | longer {value other : List Char} (hgreedy : k.isLazy = false)
      (hlt : other.length < value.length) : Sooner k (some value) (some other)
  | shorter {value other : List Char} (hlazy : k.isLazy = true)
      (hlt : value.length < other.length) : Sooner k (some value) (some other)

/-- Whether some values of the blocks are tried before others: the first block at which
they differ decides. -/
inductive Sooner : List Segment → List (Option (List Char)) → List (Option (List Char)) → Prop
  | literal {text : String} {rest : List Segment} {values others : List (Option (List Char))}
      (hrest : Sooner rest values others) : Sooner (.literal text :: rest) values others
  | here {b : Block} {rest : List Segment} {value other : Option (List Char)}
      {values others : List (Option (List Char))} (h : b.kind.Sooner value other) :
      Sooner (.block b :: rest) (value :: values) (other :: others)
  | later {b : Block} {rest : List Segment} {value : Option (List Char)}
      {values others : List (Option (List Char))} (hrest : Sooner rest values others) :
      Sooner (.block b :: rest) (value :: values) (value :: others)

/-- The cut that is tried before every other one. -/
structure Preferred (segments : List Segment) (path : List Char)
    (values : List (Option (List Char))) : Prop where
  cut : Cut segments path values
  first : ∀ others, Cut segments path others → others ≠ values → Sooner segments values others

/-- The value of a block under its name, if it has both. -/
def Block.namedValue (b : Block) (value : Option (List Char)) :
    Option (String × String) :=
  b.name?.bind fun name => value.map fun text => (name, String.ofList text)

/-- The values of the named blocks that are present, in order. -/
def namedValues (segments : List Segment) (values : List (Option (List Char))) :
    List (String × String) :=
  ((blocksOf segments).zip values).filterMap fun pair => pair.1.namedValue pair.2

theorem namedValues_literal (text : String) (rest : List Segment)
    (values : List (Option (List Char))) :
    namedValues (.literal text :: rest) values = namedValues rest values := rfl

theorem namedValues_block (b : Block) (rest : List Segment) (value : Option (List Char))
    (values : List (Option (List Char))) :
    namedValues (.block b :: rest) (value :: values) =
      (b.namedValue value).toList ++ namedValues rest values := by
  show List.filterMap _ ((b, value) :: (blocksOf rest).zip values) = _
  cases h : b.namedValue value with
  | none => exact List.filterMap_cons_none h
  | some entry => exact List.filterMap_cons_some h

theorem mem_blocksOf_iff {segments : List Segment} {b : Block} :
    b ∈ blocksOf segments ↔ .block b ∈ segments := by
  unfold blocksOf
  rw [List.mem_filterMap]
  constructor
  · rintro ⟨s, hs, heq⟩
    cases s with
    | literal text => cases heq
    | block b' =>
      cases heq
      exact hs
  · intro h
    exact ⟨.block b, h, rfl⟩

theorem namesOf_block (b : Block) (rest : List Segment) :
    namesOf (.block b :: rest) = b.name?.toList ++ namesOf rest := by
  show List.filterMap Block.name? (b :: blocksOf rest) = _
  cases h : b.name? with
  | none => exact List.filterMap_cons_none h
  | some name => exact List.filterMap_cons_some h

theorem ValueKind.Sooner.asymm {k : ValueKind} {value other : Option (List Char)}
    (h : k.Sooner value other) : ¬ k.Sooner other value := by
  intro hback
  cases h with
  | present => cases hback
  | longer hgreedy hlt =>
    cases hback with
    | longer _ hback => omega
    | shorter hlazy _ => simp [hgreedy] at hlazy
  | shorter hlazy hlt =>
    cases hback with
    | longer hgreedy _ => simp [hgreedy] at hlazy
    | shorter _ hback => omega

theorem ValueKind.Sooner.irrefl {k : ValueKind} {value : Option (List Char)} :
    ¬ k.Sooner value value :=
  fun h => h.asymm h

/-- Of two lists of values at most one is tried before the other. -/
theorem Sooner.asymm {segments : List Segment} {values others : List (Option (List Char))}
    (h : Sooner segments values others) : ¬ Sooner segments others values := by
  induction h with
  | literal _ ih =>
    intro hback
    cases hback with
    | literal hrest => exact ih hrest
  | here h =>
    intro hback
    cases hback with
    | here hback => exact h.asymm hback
    | later _ => exact h.irrefl
  | later _ ih =>
    intro hback
    cases hback with
    | here hback => exact hback.irrefl
    | later hrest => exact ih hrest

/-- A path has at most one preferred cut. -/
theorem Preferred.unique {segments : List Segment} {path : List Char}
    {values others : List (Option (List Char))} (h : Preferred segments path values)
    (hother : Preferred segments path others) : values = others := by
  apply Classical.byContradiction
  intro hne
  exact (h.first others hother.cut (Ne.symm hne)).asymm (hother.first values h.cut hne)

/-! ## Preferred cuts, from the right -/

section

variable {b : Block} {rest : List Segment} {values : List (Option (List Char))}

theorem preferred_nil : Preferred [] [] [] where
  cut := .nil
  first := fun _ hcut hne => absurd (cut_nil_iff.mp hcut).2 hne

theorem preferred_literal {tail : List Char} (text : String)
    (h : Preferred rest tail values) :
    Preferred (.literal text :: rest) (text.toList ++ tail) values where
  cut := .literal h.cut
  first := by
    intro others hcut hne
    obtain ⟨tail', heq, hrest⟩ := cut_literal_iff.mp hcut
    rw [← List.append_cancel_left heq] at hrest
    exact .literal (h.first others hrest hne)

/-- A block is present in the preferred cut with the value that is tried first among
those behind which the rest can be cut. -/
theorem preferred_present {value tail : List Char} (hne : value ≠ [])
    (hvalue : ∀ c ∈ value, b.kind.admits c = true) (h : Preferred rest tail values)
    (hfirst : ∀ other behind others, other ≠ [] → (∀ c ∈ other, b.kind.admits c = true) →
      other ++ behind = value ++ tail → Cut rest behind others →
      other.length = value.length ∨ b.kind.Sooner (some value) (some other)) :
    Preferred (.block b :: rest) (b.leadText ++ (value ++ tail)) (some value :: values) where
  cut := .present hne hvalue h.cut
  first := by
    intro others hcut hdiffer
    rcases cut_block_iff.mp hcut with
      ⟨other, behind, others, rfl, hother, hadmits, heq, hrest⟩ | ⟨others, rfl, -, -⟩
    · have hpath : other ++ behind = value ++ tail := (List.append_cancel_left heq).symm
      rcases hfirst other behind others hother hadmits hpath hrest with hlength | hsooner
      · -- the same value, and so the rest of the cut decides
        obtain ⟨rfl, rfl⟩ := List.append_inj hpath hlength
        refine .later (h.first others hrest ?_)
        rintro rfl
        exact hdiffer rfl
      · exact .here hsooner
    · exact .here (.present value)

/-- A block is left out of the preferred cut if no value of it leads to a cut. -/
theorem preferred_absent {path : List Char} (hoptional : b.isOptional = true)
    (h : Preferred rest path values)
    (hnone : ∀ value tail others, value ≠ [] → (∀ c ∈ value, b.kind.admits c = true) →
      path = b.leadText ++ (value ++ tail) → ¬ Cut rest tail others) :
    Preferred (.block b :: rest) path (none :: values) where
  cut := .absent hoptional h.cut
  first := by
    intro others hcut hdiffer
    rcases cut_block_iff.mp hcut with
      ⟨value, tail, others, rfl, hne, hvalue, heq, hrest⟩ | ⟨others, rfl, -, hrest⟩
    · exact absurd hrest (hnone value tail others hne hvalue heq)
    · refine .later (h.first others hrest ?_)
      rintro rfl
      exact hdiffer rfl

end

end UrlRouting
