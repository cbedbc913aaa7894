import UrlRouting.Proofs.Template.Filling

/-!
# Values between delimiters

A slash or a dot leads a block, and the values of most kinds hold neither. If every
block of a template has a lead and asks for such values, the delimiters of a path tell
how many blocks are present and where their values end. If no block but the last can be
left out, a path then has one cut at most. So the path that a template is filled up to
is cut into the values that it was filled with.

Main statements: `Cut.unique_of_delimited`, `preferred_fill`.
-/

namespace UrlRouting

/-- A sign that may lead a block. -/
def isDelimiter (c : Char) : Bool :=
  (Lead.ofChar? c).isSome

/-- Whether the values of a kind hold no delimiter. -/
def ValueKind.isBounded : ValueKind → Bool
  | shortest => false
  | longest => false
  | _ => true

/-- A block that begins with a delimiter and has no other. -/
structure Block.Delimited (b : Block) : Prop where
  lead : b.lead.isSome = true
  bounded : b.kind.isBounded = true

/-- Blocks with delimiters between their values, of which only the last may be left
out. -/
structure Delimited (segments : List Segment) : Prop where
  blocks : ∀ b ∈ blocksOf segments, b.Delimited
  required : ∀ b ∈ (blocksOf segments).dropLast, b.isOptional = false

instance (b : Block) : Decidable b.Delimited :=
  decidable_of_iff (b.lead.isSome = true ∧ b.kind.isBounded = true)
    ⟨fun ⟨lead, bounded⟩ => ⟨lead, bounded⟩, fun h => ⟨h.lead, h.bounded⟩⟩

instance (segments : List Segment) : Decidable (Delimited segments) :=
  decidable_of_iff
    ((∀ b ∈ blocksOf segments, b.Delimited) ∧
      ∀ b ∈ (blocksOf segments).dropLast, b.isOptional = false)
    ⟨fun ⟨blocks, required⟩ => ⟨blocks, required⟩, fun h => ⟨h.blocks, h.required⟩⟩

theorem isDelimiter_char (lead : Lead) : isDelimiter lead.char = true := by
  rw [isDelimiter, Lead.ofChar?_char]
  rfl

theorem isDelimiter_eq_false_of_admits {k : ValueKind} (hk : k.isBounded = true)
    {c : Char} (hc : k.admits c = true) : isDelimiter c = false := by
  rw [← Bool.not_eq_true]
  intro hdelimiter
  obtain ⟨lead, hlead⟩ := Option.isSome_iff_exists.mp hdelimiter
  obtain rfl := Lead.ofChar?_eq_some_iff.mp hlead
  have hnone : k.admits lead.char = false := by
    clear hdelimiter hlead hc
    revert hk
    cases k <;> cases lead <;> decide
  rw [hnone] at hc
  cases hc

theorem Block.Delimited.leadText {b : Block} (hb : b.Delimited) :
    ∃ lead : Lead, b.leadText = [lead.char] := by
  obtain ⟨lead, hlead⟩ := Option.isSome_iff_exists.mp hb.lead
  exact ⟨lead, by rw [Block.leadText, hlead]; rfl⟩

/-! ## Counting delimiters -/

/-- The delimiters in the literal text of segments. -/
def literalDelimiters (segments : List Segment) : Nat :=
  (segments.map fun
    | .literal text => text.toList.countP isDelimiter
    | .block _ => 0).sum

/-- A path has the delimiters of the literals and one for each block that is present. -/
theorem Cut.countP_isDelimiter {segments : List Segment} {path : List Char}
    {values : List (Option (List Char))} (hcut : Cut segments path values)
    (hblocks : ∀ b ∈ blocksOf segments, b.Delimited) :
    path.countP isDelimiter = literalDelimiters segments + values.countP (·.isSome) := by
  induction hcut with
  | nil => rfl
  | @literal text rest path values _ ih =>
    rw [List.countP_append, ih hblocks]
    simp [literalDelimiters, Nat.add_assoc]
  | @present b rest value path values _ hvalue _ ih =>
    -- of a block that is present, the lead counts and the value does not
    have hb : b.Delimited := hblocks b (List.mem_cons_self ..)
    obtain ⟨lead, hlead⟩ := hb.leadText
    have hnone : value.countP isDelimiter = 0 :=
      List.countP_eq_zero.mpr fun c hc => by
        rw [isDelimiter_eq_false_of_admits hb.bounded (hvalue c hc)]
        simp
    rw [hlead, List.countP_append, List.countP_append, hnone,
      ih fun b' hb' => hblocks b' (List.mem_cons_of_mem b hb')]
    simp [literalDelimiters, isDelimiter_char]
    omega
  | @absent b rest path values _ _ ih =>
    rw [ih fun b' hb' => hblocks b' (List.mem_cons_of_mem b hb')]
    simp [literalDelimiters]

theorem Cut.length_values {segments : List Segment} {path : List Char}
    {values : List (Option (List Char))} (hcut : Cut segments path values) :
    values.length = (blocksOf segments).length := by
  induction hcut with
  | nil => rfl
  | literal _ ih => exact ih
  | present _ _ _ ih => exact congrArg (· + 1) ih
  | absent _ _ ih => exact congrArg (· + 1) ih

/-- Behind a block that can be left out there is no other. -/
theorem blocksOf_eq_nil_of_isOptional {b : Block} {rest : List Segment}
    (hrequired : ∀ b' ∈ (blocksOf (.block b :: rest)).dropLast, b'.isOptional = false)
    (hoptional : b.isOptional = true) : blocksOf rest = [] := by
  cases hrest : blocksOf rest with
  | nil => rfl
  | cons next others =>
    have hmem : b ∈ (blocksOf (.block b :: rest)).dropLast := by
      show b ∈ (b :: blocksOf rest).dropLast
      rw [hrest]
      exact List.mem_cons_self ..
    rw [hrequired b hmem] at hoptional
    cases hoptional

theorem required_of_cons {b : Block} {rest : List Segment}
    (hrequired : ∀ b' ∈ (blocksOf (.block b :: rest)).dropLast, b'.isOptional = false) :
    ∀ b' ∈ (blocksOf rest).dropLast, b'.isOptional = false := by
  intro b' hb'
  refine hrequired b' ?_
  show b' ∈ (b :: blocksOf rest).dropLast
  cases hrest : blocksOf rest with
  | nil => rw [hrest] at hb'; cases hb'
  | cons next others =>
    rw [hrest] at hb'
    exact List.mem_cons_of_mem b hb'

theorem Cut.values_eq_nil {rest : List Segment} {path : List Char}
    {values : List (Option (List Char))} (hcut : Cut rest path values)
    (hrest : blocksOf rest = []) : values = [] :=
  List.length_eq_zero_iff.mp (by rw [hcut.length_values, hrest]; rfl)

/-- If only the last block can be left out, the number of present blocks tells which are
present. -/
theorem Cut.map_isSome_eq {segments : List Segment} {path path' : List Char}
    {values values' : List (Option (List Char))} (hcut : Cut segments path values)
    (hcut' : Cut segments path' values')
    (hrequired : ∀ b ∈ (blocksOf segments).dropLast, b.isOptional = false)
    (hcount : values.countP (·.isSome) = values'.countP (·.isSome)) :
    values.map (·.isSome) = values'.map (·.isSome) := by
  induction hcut generalizing path' values' with
  | nil => rw [(cut_nil_iff.mp hcut').2]
  | literal _ ih =>
    obtain ⟨_, _, hrest'⟩ := cut_literal_iff.mp hcut'
    exact ih hrest' hrequired hcount
  | @present b rest value path values _ _ hrest ih =>
    rcases cut_block_iff.mp hcut' with
      ⟨value', tail, others, rfl, -, -, -, hrest'⟩ | ⟨others, rfl, hoptional, hrest'⟩
    · rw [List.map_cons, List.map_cons,
        ih hrest' (required_of_cons hrequired) (by simpa using hcount)]
      rfl
    · -- the block is the last, and is counted in one of the cuts only
      have hlast := blocksOf_eq_nil_of_isOptional hrequired hoptional
      rw [hrest.values_eq_nil hlast, hrest'.values_eq_nil hlast] at hcount
      cases hcount
  | @absent b rest path values hoptional hrest ih =>
    have hlast := blocksOf_eq_nil_of_isOptional hrequired hoptional
    rcases cut_block_iff.mp hcut' with
      ⟨value', tail, others, rfl, -, -, -, hrest'⟩ | ⟨others, rfl, -, hrest'⟩
    · rw [hrest.values_eq_nil hlast, hrest'.values_eq_nil hlast] at hcount
      cases hcount
    · rw [hrest.values_eq_nil hlast, hrest'.values_eq_nil hlast]

/-! ## From one delimiter to the next -/

/-- The text before the first delimiter. -/
def untilDelimiter (text : List Char) : List Char :=
  text.takeWhile fun c => !isDelimiter c

/-- Which blocks are present tells how far it is to the first delimiter. -/
theorem Cut.length_untilDelimiter_eq {segments : List Segment} {path path' : List Char}
    {values values' : List (Option (List Char))} (hcut : Cut segments path values)
    (hcut' : Cut segments path' values') (hblocks : ∀ b ∈ blocksOf segments, b.Delimited)
    (hpresent : values.map (·.isSome) = values'.map (·.isSome)) :
    (untilDelimiter path).length = (untilDelimiter path').length := by
  induction hcut generalizing path' values' with
  | nil => rw [(cut_nil_iff.mp hcut').1]
  | @literal text rest path values _ ih =>
    obtain ⟨tail, rfl, hrest'⟩ := cut_literal_iff.mp hcut'
    have htail := ih hrest' hblocks hpresent
    unfold untilDelimiter at htail ⊢
    rw [List.takeWhile_append, List.takeWhile_append]
    split
    · rw [List.length_append, List.length_append, htail]
    · rfl
  | @present b rest value path values _ _ _ _ =>
    have hlead : ∀ tail, untilDelimiter (b.leadText ++ tail) = [] := by
      intro tail
      obtain ⟨lead, hlead⟩ := (hblocks b (List.mem_cons_self ..)).leadText
      rw [hlead, List.singleton_append, untilDelimiter,
        List.takeWhile_cons_of_neg (by simp [isDelimiter_char])]
    rcases cut_block_iff.mp hcut' with ⟨_, _, _, rfl, -, -, rfl, -⟩ | ⟨_, rfl, -, -⟩
    · rw [hlead, hlead]
    · cases hpresent
  | @absent b rest path values _ _ ih =>
    rcases cut_block_iff.mp hcut' with ⟨_, _, _, rfl, -, -, -, -⟩ | ⟨others, rfl, -, hrest'⟩
    · cases hpresent
    · exact ih hrest' (fun b' hb' => hblocks b' (List.mem_cons_of_mem b hb'))
        (List.cons.inj hpresent).2

theorem untilDelimiter_append {b : Block} (hb : b.Delimited) {value : List Char}
    (hvalue : ∀ c ∈ value, b.kind.admits c = true) (tail : List Char) :
    untilDelimiter (value ++ tail) = value ++ untilDelimiter tail :=
  List.takeWhile_append_of_pos fun c hc => by
    rw [isDelimiter_eq_false_of_admits hb.bounded (hvalue c hc)]
    rfl

/-- Two cuts of a path in which the same blocks are present are the same. -/
theorem Cut.eq_of_map_isSome_eq {segments : List Segment} {path : List Char}
    {values values' : List (Option (List Char))} (hcut : Cut segments path values)
    (hcut' : Cut segments path values') (hblocks : ∀ b ∈ blocksOf segments, b.Delimited)
    (hpresent : values.map (·.isSome) = values'.map (·.isSome)) : values = values' := by
  induction hcut generalizing values' with
  | nil => rw [(cut_nil_iff.mp hcut').2]
  | literal _ ih =>
    obtain ⟨tail, heq, hrest'⟩ := cut_literal_iff.mp hcut'
    rw [← List.append_cancel_left heq] at hrest'
    exact ih hrest' hblocks hpresent
  | @present b rest value path values _ hvalue hrest ih =>
    rcases cut_block_iff.mp hcut' with
      ⟨value', tail, others, rfl, -, hvalue', heq, hrest'⟩ | ⟨_, rfl, -, -⟩
    · have hb : b.Delimited := hblocks b (List.mem_cons_self ..)
      have hrestBlocks : ∀ b' ∈ blocksOf rest, b'.Delimited :=
        fun b' hb' => hblocks b' (List.mem_cons_of_mem b hb')
      have hothers := (List.cons.inj hpresent).2
      have hpath : value ++ path = value' ++ tail := List.append_cancel_left heq
      -- from the lead of the block to the next delimiter it is equally far in both
      have hlength : value.length = value'.length := by
        have hbehind := hrest.length_untilDelimiter_eq hrest' hrestBlocks hothers
        have huntil := congrArg (fun text => (untilDelimiter text).length) hpath
        simp only [untilDelimiter_append hb hvalue, untilDelimiter_append hb hvalue',
          List.length_append] at huntil
        omega
      obtain ⟨rfl, rfl⟩ := List.append_inj hpath hlength
      rw [ih hrest' hrestBlocks hothers]
    · cases hpresent
  | @absent b rest path values _ _ ih =>
    rcases cut_block_iff.mp hcut' with ⟨_, _, _, rfl, -, -, -, -⟩ | ⟨others, rfl, -, hrest'⟩
    · cases hpresent
    · rw [ih hrest' (fun b' hb' => hblocks b' (List.mem_cons_of_mem b hb'))
        (List.cons.inj hpresent).2]

/-- Along delimited segments, a path has one cut at most. -/
theorem Cut.unique_of_delimited {segments : List Segment} {path : List Char}
    {values values' : List (Option (List Char))} (hcut : Cut segments path values)
    (hcut' : Cut segments path values') (hdelimited : Delimited segments) :
    values = values' := by
  refine hcut.eq_of_map_isSome_eq hcut' hdelimited.blocks ?_
  refine hcut.map_isSome_eq hcut' hdelimited.required ?_
  have hcount := hcut.countP_isDelimiter hdelimited.blocks
  rw [hcut'.countP_isDelimiter hdelimited.blocks] at hcount
  exact (Nat.add_left_cancel hcount).symm

/-! ## Filling -/

/-- The value of a block. -/
def Block.valueFrom (lookup : String → Option String) (b : Block) : Option (List Char) :=
  (b.name?.bind lookup).map String.toList

/-- Values that fit the blocks of a template, for all blocks that cannot be left out. -/
structure Supplies (lookup : String → Option String) (segments : List Segment) :
    Prop where
  fits : ∀ b ∈ blocksOf segments, ∀ value, b.valueFrom lookup = some value →
    value ≠ [] ∧ ∀ c ∈ value, b.kind.admits c = true
  required : ∀ b ∈ blocksOf segments, b.isOptional = false → (b.valueFrom lookup).isSome = true

theorem supplies_iff {lookup : String → Option String} {segments : List Segment} :
    Supplies lookup segments ↔
      (∀ b ∈ blocksOf segments,
        (b.valueFrom lookup).all (fun value => value ≠ [] && value.all b.kind.admits) = true) ∧
      ∀ b ∈ blocksOf segments, b.isOptional = false → (b.valueFrom lookup).isSome = true := by
  have hfits : ∀ b : Block,
      (b.valueFrom lookup).all (fun value => value ≠ [] && value.all b.kind.admits) = true ↔
        ∀ value, b.valueFrom lookup = some value →
          value ≠ [] ∧ ∀ c ∈ value, b.kind.admits c = true := by
    intro b
    cases b.valueFrom lookup <;> simp
  constructor
  · exact fun h => ⟨fun b hb => (hfits b).mpr (h.fits b hb), h.required⟩
  · exact fun h => ⟨fun b hb => (hfits b).mp (h.1 b hb), h.2⟩

instance (lookup : String → Option String) (segments : List Segment) :
    Decidable (Supplies lookup segments) :=
  decidable_of_iff _ supplies_iff.symm

/-- A template that is filled in can be cut into the values again. -/
theorem cut_fill {lookup : String → Option String} {segments : List Segment}
    (h : Supplies lookup segments) :
    Cut segments (fill lookup segments) ((blocksOf segments).map (Block.valueFrom lookup)) := by
  induction segments with
  | nil => exact .nil
  | cons s rest ih =>
    cases s with
    | literal text => exact .literal (ih ⟨h.fits, h.required⟩)
    | block b =>
      have hrest := ih ⟨fun b' hb' => h.fits b' (List.mem_cons_of_mem b hb'),
        fun b' hb' => h.required b' (List.mem_cons_of_mem b hb')⟩
      show Cut _ (b.filled (b.name?.bind lookup) ++ fill lookup rest)
        (b.valueFrom lookup :: (blocksOf rest).map (Block.valueFrom lookup))
      have hfits := h.fits b (List.mem_cons_self ..)
      have hrequired := h.required b (List.mem_cons_self ..)
      unfold Block.valueFrom at hfits hrequired ⊢
      cases hvalue : b.name?.bind lookup with
      | some value =>
        obtain ⟨hne, hadmits⟩ := hfits value.toList (by rw [hvalue]; rfl)
        have hfilled : b.filled (some value) ++ fill lookup rest =
            b.leadText ++ (value.toList ++ fill lookup rest) := List.append_assoc ..
        rw [hfilled]
        exact .present hne hadmits hrest
      | none =>
        have hoptional : b.isOptional = true := by
          cases hopt : b.isOptional with
          | true => rfl
          | false =>
            have hsome := hrequired hopt
            rw [hvalue] at hsome
            cases hsome
        have hfilled : b.filled none = [] := if_pos hoptional
        rw [hfilled]
        exact .absent hoptional hrest

/-- The names of a template with the values that there are, in order. -/
def suppliedParams (lookup : String → Option String) (segments : List Segment) : Params :=
  ⟨(namesOf segments).filterMap fun name => (lookup name).map fun value => (name, value)⟩

theorem namedValues_valueFrom (lookup : String → Option String)
    (segments : List Segment) :
    namedValues segments ((blocksOf segments).map (Block.valueFrom lookup)) =
      (suppliedParams lookup segments).entries := by
  induction segments with
  | nil => rfl
  | cons s rest ih =>
    cases s with
    | literal text => exact ih
    | block b =>
      show namedValues (.block b :: rest)
        (b.valueFrom lookup :: (blocksOf rest).map (Block.valueFrom lookup)) = _
      rw [namedValues_block, ih, suppliedParams, suppliedParams, namesOf_block,
        List.filterMap_append]
      congr 1
      unfold Block.namedValue Block.valueFrom
      cases b.name? with
      | none => rfl
      | some name => cases hvalue : lookup name <;> simp [hvalue]

/-- The values that a delimited template was filled with are the preferred cut. -/
theorem preferred_fill {lookup : String → Option String} {segments : List Segment}
    (hdelimited : Delimited segments) (h : Supplies lookup segments) :
    Preferred segments (fill lookup segments)
      ((blocksOf segments).map (Block.valueFrom lookup)) where
  cut := cut_fill h
  first := fun _ hcut hne => absurd (hcut.unique_of_delimited (cut_fill h) hdelimited) hne

end UrlRouting
