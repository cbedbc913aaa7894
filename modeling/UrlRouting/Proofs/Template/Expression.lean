import UrlRouting.Pattern.Compiled
import UrlRouting.Proofs.Template.Parts

/-!
# The expression of a plain template

A template is plain if its literal text has no metacharacters and its blocks ask for
built-in match types under names that a group may carry. Its pattern is then read as
the characters of the literals and one group for each block, in order, between the
start and the end of the text.

Main statement: `expr_of_compileTemplate`.
-/

namespace UrlRouting

open Regex

/-! ## Plain templates -/

/-- A block that asks for a built-in match type that is still the built-in one. Its
name, if it has one, is one that a group may carry. -/
structure Block.Plain (types : MatchTypes) (b : Block) : Prop where
  builtIn : b.typeName ∈ builtInTypes.map (·.1)
  kept : types.get? b.typeName = MatchTypes.builtIn.get? b.typeName
  named : b.name?.all (fun name => isGroupName name.toList) = true

instance (types : MatchTypes) (b : Block) : Decidable (b.Plain types) :=
  decidable_of_iff
    (b.typeName ∈ builtInTypes.map (·.1) ∧
      types.get? b.typeName = MatchTypes.builtIn.get? b.typeName ∧
      b.name?.all (fun name => isGroupName name.toList) = true)
    ⟨fun ⟨builtIn, kept, named⟩ => ⟨builtIn, kept, named⟩, fun h => ⟨h.1, h.2, h.3⟩⟩

/-- Literal text without metacharacters, or a plain block. -/
def Segment.Plain (types : MatchTypes) : Segment → Prop
  | .literal text => ∀ c ∈ text.toList, c ∉ metacharacters
  | .block b => b.Plain types

instance (types : MatchTypes) (s : Segment) : Decidable (s.Plain types) :=
  match s with
  | .literal text => List.decidableBAll (· ∉ metacharacters) text.toList
  | .block b => inferInstanceAs (Decidable (b.Plain types))

theorem Block.Plain.get? {types : MatchTypes} {b : Block} (h : b.Plain types) :
    types.get? b.typeName = some b.kind.fragment := by
  obtain ⟨k, hk⟩ := ValueKind.exists_of_mem_builtInTypes h.builtIn
  rw [h.kept, Block.kind, hk, ValueKind.ofName_name]
  exact k.get?_builtIn

/-! ## The expression -/

/-- The group that captures the value of a block. -/
def Block.valueExpr (b : Block) (number : Nat) : Pattern :=
  .group number b.name? b.kind.expr

/-- The lead of a block and its value. -/
def Block.presentExpr (b : Block) (number : Nat) : Pattern :=
  match b.lead with
  | none => b.valueExpr number
  | some lead => .seq (Pattern.char lead.char) (b.valueExpr number)

/-- The expression of a block, whose value is captured under a number. -/
def Block.expr (b : Block) (number : Nat) : Pattern :=
  if b.isOptional then .loop 0 (some 1) true (b.presentExpr number) else b.presentExpr number

/-- The expressions of the characters and blocks of a template. `count` groups stand
before them. -/
def segmentExprs (count : Nat) : List Segment → List Pattern
  | [] => []
  | .literal text :: rest => text.toList.map Pattern.char ++ segmentExprs count rest
  | .block b :: rest => b.expr (count + 1) :: segmentExprs (count + 1) rest

/-- The expression of a whole template. -/
def templateExpr (segments : List Segment) : Pattern :=
  Expr.concat (.test .textStart :: (segmentExprs 0 segments ++ [.test .textEnd]))

/-! ## Reading the expression of a kind -/

namespace ValueKind

/-- The part of the expression that stands for one character. -/
def classText : ValueKind → List Char
  | digits => ['[', '0', '-', '9', ']']
  | alphanumerics => ['[', '0', '-', '9', 'A', '-', 'Z', 'a', '-', 'z', ']']
  | hexDigits => ['[', '0', '-', '9', 'A', '-', 'F', 'a', '-', 'f', ']']
  | shortest => ['.']
  | longest => ['.']
  | component => ['[', '^', '/', '\\', '.', ']']

/-- How deeply the class of one character is nested. -/
def classDepth : ValueKind → Nat
  | digits => 1
  | alphanumerics => 2
  | hexDigits => 2
  | shortest => 0
  | longest => 0
  | component => 2

theorem toList_fragment (k : ValueKind) :
    k.fragment.toList = k.classText ++ '+' :: (if k.isLazy then ['?'] else []) := by
  cases k <;> rfl

theorem readOpening_range (rest : List Char) :
    readOpening {} ('0' :: '-' :: '9' :: rest) =
      (⟨false, none, []⟩, '0' :: '-' :: '9' :: rest) := by
  simp [readOpening, readNegation, Flags.skip, readHyphens_of_head]

theorem readOpening_negated (rest : List Char) :
    readOpening {} ('^' :: '/' :: rest) = (⟨true, none, []⟩, '/' :: rest) := by
  simp [readOpening, readNegation, Flags.skip, readHyphens_of_head]

/-- The step over the range of the digits. -/
theorem bracketStep_digits (current : Bracket) (rest : List Char) :
    bracketStep {} current [] ('0' :: '-' :: '9' :: rest) =
      some (.inside (current.add ⟨.range '0' '9', 0⟩) [] rest) := rfl

theorem bracketStep_slash (current : Bracket) (rest : List Char) :
    bracketStep {} current [] ('/' :: '\\' :: rest) =
      some (.inside (current.add ⟨.single '/', 0⟩) [] ('\\' :: rest)) := rfl

theorem bracketStep_dot (current : Bracket) (rest : List Char) :
    bracketStep {} current [] ('\\' :: '.' :: ']' :: rest) =
      some (.inside (current.add ⟨.single '.', 0⟩) [] (']' :: rest)) := rfl

theorem readClass_digits (rest : List Char) :
    readClass {} ('0' :: '-' :: '9' :: ']' :: rest) = some (⟨digits.cls, 1⟩, rest) := by
  rw [readClass, readOpening_range]
  dsimp only
  rw [readBrackets_inside (bracketStep_digits _ _)]
  exact readBrackets_finished rfl

/-- Three ranges, of which the first is that of the digits. -/
theorem readClass_ranges {a b c d : Char}
    (hstep : ∀ (current : Bracket) (rest : List Char),
      bracketStep {} current [] (a :: '-' :: b :: rest) =
        some (.inside (current.add ⟨.range a b, 0⟩) [] rest))
    (hnext : ∀ (current : Bracket) (rest : List Char),
      bracketStep {} current [] (c :: '-' :: d :: rest) =
        some (.inside (current.add ⟨.range c d, 0⟩) [] rest)) (rest : List Char) :
    readClass {} ('0' :: '-' :: '9' :: a :: '-' :: b :: c :: '-' :: d :: ']' :: rest) =
      some (⟨.ofList [.range '0' '9', .range a b, .range c d], 2⟩, rest) := by
  rw [readClass, readOpening_range]
  dsimp only
  rw [readBrackets_inside (bracketStep_digits _ _),
    readBrackets_inside (hstep _ _), readBrackets_inside (hnext _ _)]
  exact readBrackets_finished rfl

theorem readClass_component (rest : List Char) :
    readClass {} ('^' :: '/' :: '\\' :: '.' :: ']' :: rest) = some (⟨component.cls, 2⟩, rest) := by
  rw [readClass, readOpening_negated]
  dsimp only
  rw [readBrackets_inside (bracketStep_slash _ _),
    readBrackets_inside (bracketStep_dot _ _)]
  exact readBrackets_finished rfl

/-- The class of a kind is one token. -/
theorem readToken_classText (k : ValueKind) (rest : List Char) :
    readToken {} (k.classText ++ rest) = some (.leaf (.take k.cls) k.classDepth, rest) := by
  have hclass : ∀ {cs : List Char} {part : ClassPart}, readClass {} cs = some (part, rest) →
      readToken {} ('[' :: cs) = some (.leaf (.take part.cls) part.depth, rest) := by
    intro cs part h
    show (readClass {} cs).map _ = _
    rw [h]
    rfl
  cases k with
  | digits => exact hclass (readClass_digits rest)
  | alphanumerics => exact hclass (readClass_ranges (fun _ _ => rfl) (fun _ _ => rfl) rest)
  | hexDigits => exact hclass (readClass_ranges (fun _ _ => rfl) (fun _ _ => rfl) rest)
  | shortest => rfl
  | longest => rfl
  | component => exact hclass (readClass_component rest)

/-- The piece of the expression of a kind. -/
def piece (k : ValueKind) : Piece :=
  ⟨k.expr, k.classDepth + 1, true⟩

theorem readTokens_fragment (k : ValueKind) (r : Regex.Reading) (hflags : r.flags = {})
    (rest : List Char) :
    readTokens r (k.fragment.toList ++ ')' :: rest) = readTokens (r.add k.piece) (')' :: rest) := by
  have hagain : readToken {} ('+' :: ((if k.isLazy then ['?'] else []) ++ ')' :: rest)) =
      some (.again 1 none k.isLazy, ')' :: rest) := by
    cases k <;> rfl
  rw [toList_fragment, List.append_assoc, List.cons_append,
    readTokens_of_token hflags (readToken_classText k _)]
  have hadd : (r.add ⟨.take k.cls, k.classDepth, true⟩).flags = {} := hflags
  show readTokens (r.add ⟨.take k.cls, k.classDepth, true⟩) _ = _
  rw [readTokens_of_token hadd hagain, Regex.Reading.apply_again_take r hflags]
  rfl

/-- What the fragment of a kind is read as. -/
def part (k : ValueKind) : Part :=
  ⟨k.expr, k.classDepth + 1, 0, trivial⟩

theorem heldAs (k : ValueKind) : HeldAs k.fragment.toList k.part where
  head := by cases k <;> decide
  closes := by
    intro r capture parent outer rest hflags hlevel hparent
    have hclose : readToken {} (')' :: rest) = some (.close, rest) := rfl
    have hadd : (r.add k.piece).flags = {} := hflags
    have houter : (r.add k.piece).outer = parent :: outer := hparent
    have hgroup : (r.add k.piece).level.close = k.part.closed capture r.captures := by
      show (r.level.add k.piece).close = _
      rw [hlevel]
      rcases capture with - | ⟨number, name⟩ <;> rfl
    have houterFlags : (r.add k.piece).level.outerFlags = r.flags := by
      show r.level.outerFlags = r.flags
      rw [hlevel, hflags]
    rw [k.readTokens_fragment r hflags, readTokens_of_token hadd hclose,
      Regex.Reading.apply_close houter, Option.bind_some, hgroup, houterFlags]
    rfl

end ValueKind

/-! ## Reading the pattern of a template -/

/-- The pattern text of a plain segment. -/
def Segment.plainText : Segment → List Char
  | .literal text => text.toList
  | .block b => b.patternText b.kind.fragment.toList

theorem Block.exprBy_plain (b : Block) (number : Nat) :
    b.exprBy b.kind.part number = b.expr number := rfl

theorem Segment.textBy_plain (s : Segment) :
    s.textBy (fun b => b.kind.fragment.toList) = s.plainText := by
  cases s <;> rfl

theorem flatMap_textBy_plain (segments : List Segment) :
    segments.flatMap (Segment.textBy fun b => b.kind.fragment.toList) =
      segments.flatMap Segment.plainText :=
  congrArg segments.flatMap (funext Segment.textBy_plain)

theorem segmentExprsBy_plain (count : Nat) (segments : List Segment) :
    segmentExprsBy (·.kind.part) count segments = segmentExprs count segments := by
  induction segments generalizing count with
  | nil => rfl
  | cons s rest ih =>
    cases s with
    | literal text => rw [segmentExprsBy, segmentExprs, ih]
    | block b => rw [segmentExprsBy, segmentExprs, Block.exprBy_plain, ih]; rfl

theorem templateExprBy_plain (segments : List Segment) :
    templateExprBy (·.kind.part) segments = templateExpr segments := by
  rw [templateExprBy, templateExpr, segmentExprsBy_plain]

theorem Segment.Plain.readable {types : MatchTypes} {s : Segment} (h : s.Plain types) :
    s.Readable (fun b => b.kind.fragment.toList) (·.kind.part) := by
  cases s with
  | literal text => exact h
  | block b => exact ⟨Block.Plain.named h, b.kind.heldAs⟩

theorem segmentsText_plain {types : MatchTypes} {segments : List Segment}
    (hplain : ∀ s ∈ segments, s.Plain types) :
    segmentsText types segments = .ok (segments.flatMap Segment.plainText) := by
  rw [← flatMap_textBy_plain]
  refine segmentsText_textBy fun b hb => ?_
  rw [Block.Plain.get? (hplain (.block b) hb), String.ofList_toList]

/-- The pattern text of plain segments is read as the segments between two anchors. -/
theorem readTokens_plainText {types : MatchTypes} {segments : List Segment}
    (hplain : ∀ s ∈ segments, s.Plain types) :
    readTokens Regex.Reading.start ('^' :: segments.flatMap Segment.plainText ++ ['$']) =
      (segments.foldlM (Segment.readBy? (·.kind.part))
        (Regex.Reading.start.add Piece.textStart)).map (·.add Piece.textEnd) := by
  rw [← flatMap_textBy_plain]
  exact readTokens_patternText fun s hs => (hplain s hs).readable

/-- The expression that the pattern text of plain segments writes, if it writes one. -/
theorem expr_of_ofText? [SizeLimit] {types : MatchTypes} {segments : List Segment}
    (hplain : ∀ s ∈ segments, s.Plain types) {e : Pattern}
    (h : Pattern.ofText? ('^' :: segments.flatMap Segment.plainText ++ ['$']) = some e) :
    e = templateExpr segments ∧ (namesOf segments).Nodup := by
  rw [← flatMap_textBy_plain] at h
  obtain ⟨after, hbetween, -, rfl⟩ := exists_readBetween (fun s hs => (hplain s hs).readable) h
  refine ⟨templateExprBy_plain segments, ?_⟩
  have hnames := hbetween.distinct List.nodup_nil
  rw [hbetween.names] at hnames
  exact List.nodup_reverse.mp (by simpa [Regex.Reading.start, Regex.Reading.add] using hnames)

/-- A plain template compiles to its expression, and then its blocks have different
names. -/
theorem expr_of_compileTemplate [SizeLimit] {types : MatchTypes} {template : String}
    {segments : List Segment} {c : CompiledPattern} (hraw : isRaw template = false)
    (hsegments : readTemplate template = .ok segments)
    (hplain : ∀ s ∈ segments, s.Plain types)
    (hcompile : compileTemplate types template = .ok c) :
    c.expr = templateExpr segments ∧ (namesOf segments).Nodup := by
  obtain ⟨inner, hinner, he⟩ := exists_inner_of_compileTemplate hraw hsegments hcompile
  cases (segmentsText_plain hplain).symm.trans hinner
  exact expr_of_ofText? hplain he

end UrlRouting
