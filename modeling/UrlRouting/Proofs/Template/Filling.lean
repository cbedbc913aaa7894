import Mathlib.Data.List.Nodup
import UrlRouting.Generation
import UrlRouting.Proofs.Template.Cuts

/-!
# Filling in what was cut out

Filling the blocks of a template with the values of a cut writes the path again. The
values come back under their names, so every block has to have a name, and no two
blocks the same one.

Main statement: `fill_params`.
-/

namespace UrlRouting

theorem generateUrl_of_readTemplate {σ : Type} [ParamSource σ] {template : String}
    {segments : List Segment} (hraw : isRaw template = false)
    (hbracket : hasBracket template = true)
    (hsegments : readTemplate template = .ok segments) (base : String) (params : σ) :
    generateUrl base template params =
      .ok (base ++ String.ofList (fill (ParamSource.lookup params) segments)) := by
  rw [generateUrl, hraw, hbracket, hsegments]
  rfl

/-- Only the names of the blocks are asked for. -/
theorem fill_congr {segments : List Segment} {lookup lookup' : String → Option String}
    (h : ∀ name ∈ namesOf segments, lookup name = lookup' name) :
    fill lookup segments = fill lookup' segments := by
  unfold fill
  apply List.flatMap_congr
  intro s hs
  cases s with
  | literal text => rfl
  | block b =>
    show b.filled (b.name?.bind lookup) = b.filled (b.name?.bind lookup')
    cases hname : b.name? with
    | none => rfl
    | some name =>
      have hmem : name ∈ namesOf segments :=
        List.mem_filterMap.mpr ⟨b, mem_blocksOf_iff.mpr hs, hname⟩
      rw [Option.bind_some, Option.bind_some, h name hmem]

/-- A value that stands for a block under its name. -/
theorem Block.filled_value {b : Block} {lookup : String → Option String}
    {value : Option (List Char)} (hnamed : b.name?.isSome = true)
    (hlookup : ∀ name, b.name? = some name → lookup name = value.map String.ofList) :
    b.name?.bind lookup = value.map String.ofList := by
  obtain ⟨name, hname⟩ := Option.isSome_iff_exists.mp hnamed
  rw [hname, Option.bind_some, hlookup name hname]

/-- If every block finds its value of a cut, the filled template is the path. -/
theorem fill_of_cut {segments : List Segment} {path : List Char}
    {values : List (Option (List Char))} (hcut : Cut segments path values)
    {lookup : String → Option String}
    (hnamed : ∀ b ∈ blocksOf segments, b.name?.isSome = true)
    (hlookup : ∀ pair ∈ (blocksOf segments).zip values, ∀ name, pair.1.name? = some name →
      lookup name = pair.2.map String.ofList) :
    fill lookup segments = path := by
  induction hcut with
  | nil => rfl
  | @literal text rest path values _ ih =>
    show text.toList ++ fill lookup rest = _
    rw [ih hnamed hlookup]
  | @present b rest value path values _ _ _ ih =>
    have hvalue := Block.filled_value (hnamed b (List.mem_cons_self ..))
      (hlookup (b, some value) (List.mem_cons_self ..))
    show b.filled (b.name?.bind lookup) ++ fill lookup rest = _
    rw [hvalue, ih (fun b' hb' => hnamed b' (List.mem_cons_of_mem b hb'))
      (fun pair hpair => hlookup pair (List.mem_cons_of_mem _ hpair))]
    simp [Block.filled, Block.leadText]
  | @absent b rest path values hoptional _ ih =>
    have hvalue := Block.filled_value (hnamed b (List.mem_cons_self ..))
      (hlookup (b, none) (List.mem_cons_self ..))
    show b.filled (b.name?.bind lookup) ++ fill lookup rest = _
    rw [hvalue, ih (fun b' hb' => hnamed b' (List.mem_cons_of_mem b hb'))
      (fun pair hpair => hlookup pair (List.mem_cons_of_mem _ hpair))]
    simp [Block.filled, hoptional]

/-- A value is reported under the name of a block. -/
theorem mem_namesOf_of_mem_namedValues {segments : List Segment}
    {values : List (Option (List Char))} {entry : String × String}
    (h : entry ∈ namedValues segments values) : entry.1 ∈ namesOf segments := by
  obtain ⟨⟨b, value⟩, hpair, hentry⟩ := List.mem_filterMap.mp h
  obtain ⟨name, hname, hvalue⟩ := Option.bind_eq_some_iff.mp hentry
  obtain ⟨text, _, rfl⟩ := Option.map_eq_some_iff.mp hvalue
  exact List.mem_filterMap.mpr ⟨b, (List.of_mem_zip hpair).1, hname⟩

/-- A name that no block has finds nothing. -/
theorem lookup_namedValues_of_not_mem {segments : List Segment}
    {values : List (Option (List Char))} {name : String} (h : name ∉ namesOf segments) :
    (namedValues segments values).reverse.lookup name = none := by
  rw [List.lookup_eq_none_iff]
  intro entry hentry
  have hmem := mem_namesOf_of_mem_namedValues (List.mem_reverse.mp hentry)
  rw [bne_iff_ne]
  rintro rfl
  exact h hmem

/-- A block finds nothing under the name of another block. -/
theorem Block.lookup_namedValue_of_ne {b : Block} {value : Option (List Char)}
    {name : String}
    (h : b.name? ≠ some name) :
    (b.namedValue value).toList.reverse.lookup name = none := by
  rw [List.lookup_eq_none_iff]
  intro entry hentry
  rw [List.mem_reverse, Option.mem_toList] at hentry
  obtain ⟨own, hown, hvalue⟩ := Option.bind_eq_some_iff.mp hentry
  obtain ⟨text, _, rfl⟩ := Option.map_eq_some_iff.mp hvalue
  rw [bne_iff_ne]
  rintro rfl
  exact h hown

/-- Under different names, each block finds its own value, or none where it was left
out. -/
theorem lookup_namedValues {segments : List Segment} {values : List (Option (List Char))}
    (hdistinct : (namesOf segments).Nodup) {b : Block} {value : Option (List Char)}
    (hpair : (b, value) ∈ (blocksOf segments).zip values) {name : String}
    (hname : b.name? = some name) :
    (namedValues segments values).reverse.lookup name = value.map String.ofList := by
  induction segments generalizing values with
  | nil => cases hpair
  | cons s rest ih =>
    cases s with
    | literal text => exact ih hdistinct hpair
    | block first =>
      cases values with
      | nil => cases hpair
      | cons head values =>
        rw [namesOf_block, List.nodup_append] at hdistinct
        obtain ⟨-, hrest, hdisjoint⟩ := hdistinct
        rw [namedValues_block, List.reverse_append, List.lookup_append]
        rcases List.mem_cons.mp hpair with heq | hpair
        · cases heq
          have hfresh : name ∉ namesOf rest := fun hmem =>
            hdisjoint name (by rw [hname]; exact List.mem_singleton.mpr rfl) _ hmem rfl
          rw [lookup_namedValues_of_not_mem hfresh, Option.none_or]
          unfold Block.namedValue
          rw [hname]
          cases value <;> simp
        · have hmem : name ∈ namesOf rest :=
            List.mem_filterMap.mpr ⟨b, (List.of_mem_zip hpair).1, hname⟩
          have hother : first.name? ≠ some name := fun heq =>
            hdisjoint name (by rw [heq]; exact List.mem_singleton.mpr rfl) _ hmem rfl
          rw [ih hrest hpair, Block.lookup_namedValue_of_ne hother, Option.or_none]

/-- The parameters of a cut fill the template up to the path. -/
theorem fill_params {segments : List Segment} {path : List Char}
    {values : List (Option (List Char))} (hcut : Cut segments path values)
    (hnamed : ∀ b ∈ blocksOf segments, b.name?.isSome = true)
    (hdistinct : (namesOf segments).Nodup) {params : Params}
    (hparams : params.entries = namedValues segments values) :
    fill params.get? segments = path := by
  refine fill_of_cut hcut hnamed fun pair hpair name hname => ?_
  unfold Params.get?
  rw [hparams]
  exact lookup_namedValues hdistinct hpair hname

end UrlRouting
