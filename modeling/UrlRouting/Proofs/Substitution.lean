import UrlRouting.Proofs.Bytes
import UrlRouting.Proofs.Template.Filling
import UrlRouting.Proofs.Template.ReadBack
import UrlRouting.Proofs.Template.Spans

/-!
# Filling a template is substitution at the spans of its blocks

A URL is the base path and the bytes of the template, with other bytes in the
spans of the blocks: lead and value if the name of the block has a value, and
otherwise nothing for an optional block and the bytes that stood there for one
that is not. A value is not read again, so it does not matter what it looks
like, and only the names of the blocks are asked for.

Main statement: `generateUrl_splices`.
-/

namespace UrlRouting

/-- Bytes for the span from `start` to `stop`. -/
structure Edit where
  start : Nat
  stop : Nat
  bytes : List UInt8

/-- The bytes from an offset on, with the spans of edits replaced. The spans
come in order. -/
def spliceFrom (bytes : List UInt8) (offset : Nat) : List Edit → List UInt8
  | [] => bytes.drop offset
  | e :: rest => (bytes.take e.start).drop offset ++ e.bytes ++ spliceFrom bytes e.stop rest

/-- What is put into the span of a block of a template. -/
def Block.replacement (template : String) (lookup : String → Option String) (b : Block) :
    List UInt8 :=
  match b.name?.bind lookup with
  | some value => encoded (b.leadText ++ value.toList)
  | none =>
    if b.isOptional then [] else ((encoded template.toList).take b.stop).drop b.start

def Block.edit (template : String) (lookup : String → Option String) (b : Block) : Edit :=
  ⟨b.start, b.stop, b.replacement template lookup⟩

/-! ## Bytes between two offsets -/

theorem drop_encoded (xs ys : List Char) :
    (encoded (xs ++ ys)).drop (byteCount xs) = encoded ys := by
  rw [encoded_append, List.drop_left' (length_encoded xs)]

theorem take_encoded (xs ys : List Char) :
    (encoded (xs ++ ys)).take (byteCount xs) = encoded xs := by
  rw [encoded_append, List.take_left' (length_encoded xs)]

/-! ## The blocks of a template -/

section

variable {template : String} {lookup : String → Option String}

/-- The bytes for a block are those of what stands for it in the URL. -/
theorem Block.replacement_eq {b : Block} {before after : List Char}
    (htemplate : template.toList = before ++ b.written ++ after)
    (hstart : b.start = byteCount before)
    (hstop : b.stop = b.start + byteCount b.written) :
    b.replacement template lookup = encoded (b.filled (b.name?.bind lookup)) := by
  unfold Block.replacement Block.filled
  cases b.name?.bind lookup with
  | some value => rfl
  | none =>
    by_cases hoptional : b.isOptional = true
    · simp only [if_pos hoptional]
      rfl
    · simp only [if_neg hoptional]
      rw [htemplate, hstop, hstart, ← byteCount_append, take_encoded, drop_encoded]

/-- Splicing from a byte offset on, where the blocks begin behind some literal text. -/
theorem spliceFrom_edits {segments : List Segment} {before held : List Char}
    (htemplate : template.toList = before ++ held ++ writtenOf segments)
    (hplaced : placedFrom (byteCount (before ++ held)) segments = segments) :
    spliceFrom (encoded template.toList) (byteCount before)
        ((blocksOf segments).map (Block.edit template lookup)) =
      encoded held ++ encoded (fill lookup segments) := by
  induction segments generalizing before held with
  | nil =>
    show (encoded template.toList).drop (byteCount before) = encoded held ++ []
    rw [htemplate, writtenOf_nil, List.append_nil, List.append_nil, drop_encoded]
  | cons s rest ih =>
    obtain ⟨hfirst, hrest⟩ := List.cons.inj hplaced
    cases s with
    | literal text =>
      -- the text is held until the next block
      have hnext := @ih before (held ++ text.toList)
        (by rw [htemplate]; simp [Segment.written])
        (by simpa [Segment.written, Nat.add_assoc] using hrest)
      show spliceFrom _ _ ((blocksOf rest).map _) =
        encoded held ++ encoded (text.toList ++ fill lookup rest)
      rw [hnext, encoded_append, encoded_append, List.append_assoc]
    | block b =>
      have hblock := Segment.block.inj hfirst
      have hstart : b.start = byteCount (before ++ held) := (congrArg Block.start hblock).symm
      have hstop : b.stop = b.start + byteCount b.written := by
        rw [hstart]
        exact (congrArg Block.stop hblock).symm
      have htext : template.toList = (before ++ held) ++ b.written ++ writtenOf rest := by
        rw [htemplate, writtenOf_cons]
        simp [Segment.written]
      have hnext := @ih (before ++ held ++ b.written) []
        (by rw [htext, List.append_nil])
        (by rw [List.append_nil, byteCount_append]; exact hrest)
      have hoffset : byteCount (before ++ held ++ b.written) = b.stop := by
        rw [hstop, hstart, byteCount_append]
      have hheld : ((encoded template.toList).take b.start).drop (byteCount before) =
          encoded held := by
        rw [htext, List.append_assoc, hstart, take_encoded, drop_encoded]
      have hbytes : b.replacement template lookup = encoded (b.filled (b.name?.bind lookup)) :=
        Block.replacement_eq htext hstart hstop
      rw [hoffset] at hnext
      show ((encoded template.toList).take b.start).drop (byteCount before) ++
          b.replacement template lookup ++ spliceFrom _ b.stop ((blocksOf rest).map _) =
        encoded held ++ encoded (b.filled (b.name?.bind lookup) ++ fill lookup rest)
      rw [hheld, hbytes, hnext, encoded_append]
      simp [encoded]

end

/-- The URL of a raw template, and of one without a bracket, is the base path
and the template. The URL of any other template that can be read is, byte by
byte, the base path and the template with the spans of the blocks replaced;
these lie in the template, in order and apart. Parameters that agree on the
names of the blocks give the same URL, whatever holds them. -/
theorem generateUrl_splices {σ : Type} [ParamSource σ] (base template : String)
    (params : σ) :
    (isRaw template = true ∨ hasBracket template = false →
      generateUrl base template params = .ok (base ++ template)) ∧
    ∀ segments, isRaw template = false → hasBracket template = true →
      readTemplate template = .ok segments →
      ((blocksOf segments).Pairwise (fun a b => a.stop ≤ b.start) ∧
        ∀ b ∈ blocksOf segments, b.start < b.stop ∧ b.stop ≤ template.utf8ByteSize) ∧
      (∃ url, generateUrl base template params = .ok url ∧
        encoded url.toList = encoded base.toList ++ spliceFrom (encoded template.toList) 0
          ((blocksOf segments).map (Block.edit template (ParamSource.lookup params)))) ∧
      ∀ (σ' : Type) [ParamSource σ'] (params' : σ'),
        (∀ name ∈ namesOf segments,
          ParamSource.lookup params name = ParamSource.lookup params' name) →
        generateUrl base template params = generateUrl base template params' := by
  constructor
  · intro hplain
    have hcond : (isRaw template || !hasBracket template) = true := by
      rcases hplain with hraw | hbracket
      · rw [hraw, Bool.true_or]
      · rw [hbracket, Bool.not_false, Bool.or_true]
    rw [generateUrl, if_pos hcond]
  · intro segments hraw hbracket hread
    have hlaid := laid_of_readTemplate hread
    have hwritten := writtenOf_of_readTemplate hread
    have hurl := generateUrl_of_readTemplate hraw hbracket hread base params
    have hspans : ∀ b ∈ blocksOf segments, b.start < b.stop ∧ b.stop ≤ template.utf8ByteSize :=
      fun b hb => hlaid.inRange hwritten hb
    refine ⟨⟨hlaid.blocks_ordered, hspans⟩, ⟨_, hurl, ?_⟩, ?_⟩
    · have hplaced := placedFrom_of_laid hlaid
      rw [List.reverse_reverse] at hplaced
      have hsplice := @spliceFrom_edits template (ParamSource.lookup params) segments [] []
        hwritten.symm hplaced
      rw [String.toList_append, String.toList_ofList, encoded_append]
      exact congrArg (encoded base.toList ++ ·) hsplice.symm
    · intro σ' _ params' hagree
      rw [hurl, generateUrl_of_readTemplate hraw hbracket hread base params', fill_congr hagree]

/-- An optional block without a value, a value that looks like a block, and a
block that stays as it is written, with characters of several bytes around
them. -/
theorem generateUrl_splices_multibyte :
    let template := "/é/[i:id]?.[:größe]日[a:tag]"
    let params : List (String × String) := [("größe", "/[a:tag]?"), ("é", "[")]
    ∃ segments url, readTemplate template = .ok segments ∧
      generateUrl "/bäse" template params = .ok url ∧
      encoded url.toList = encoded "/bäse/é./[a:tag]?日[a:tag]".toList ∧
      generateUrl "/bäse" template [("größe", "/[a:tag]?")] = .ok url := by
  intro template params
  let segments : List Segment := [
    .literal "/é", .block ⟨some .slash, "i", some "id", true, 3, 11⟩,
    .block ⟨some .dot, "", some "größe", false, 11, 22⟩, .literal "日",
    .block ⟨none, "a", some "tag", false, 25, 32⟩]
  have hread : readTemplate template = .ok segments := by decide +kernel
  obtain ⟨-, hsplices⟩ := generateUrl_splices "/bäse" template params
  obtain ⟨-, ⟨url, hurl, hbytes⟩, hsame⟩ := hsplices segments (by decide) (by decide) hread
  refine ⟨segments, url, hread, hurl, hbytes.trans (by decide +kernel), ?_⟩
  exact (hsame _ [("größe", "/[a:tag]?")] (by decide)).symm.trans hurl

end UrlRouting
