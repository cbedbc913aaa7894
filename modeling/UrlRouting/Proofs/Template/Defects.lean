import Mathlib.Data.List.Induction
import UrlRouting.Pattern.Text
import UrlRouting.Proofs.Bytes
import UrlRouting.Proofs.Template.Passes
import UrlRouting.Proofs.Template.Spans

/-!
# What is wrong with a template

A template is rejected for the first bracket that makes it malformed, or for a
second colon once its block is closed. Up to the bracket that opens the block,
or the one that closes none, the template can be read.

Main statements: `readSegments_eq_error_iff`, `readTemplate_eq_error_iff`.
-/

namespace UrlRouting

/-- Texts that are malformed, each with its defect. -/
inductive Malformed : List Char → Defect → Prop
  | unmatchedClose {before after : List Char} (hbefore : Parses before) :
      Malformed (before ++ ']' :: after) ⟨byteCount before, .unmatchedClose⟩
  | unclosedOpen {before inner : List Char} (hbefore : Parses before)
      (hinner : NoBracket inner) :
      Malformed (before ++ '[' :: inner) ⟨byteCount before, .unclosedOpen⟩
  | nestedOpen {before inner after : List Char} (hbefore : Parses before)
      (hinner : NoBracket inner) :
      Malformed (before ++ '[' :: (inner ++ '[' :: after))
        ⟨byteCount (before ++ '[' :: inner), .nestedOpen⟩
  | secondColon {before name label more after : List Char} (hbefore : Parses before)
      (hname : Unmarked name) (hlabel : Unmarked label) (hmore : NoBracket more) :
      Malformed (before ++ '[' :: (name ++ ':' :: label ++ ':' :: more ++ ']' :: after))
        ⟨byteCount (before ++ '[' :: (name ++ ':' :: label)), .secondColon⟩

/-! ## Malformed texts are rejected -/

theorem passOver_unmatchedClose {before : List Char} (hbefore : Parses before) :
    passOver (before ++ [']']) = .error ⟨byteCount before, .unmatchedClose⟩ := by
  obtain ⟨s, hpass, hrest⟩ := parses_iff_exists_atRest.mp hbefore
  rw [passOver_concat hpass, hrest.step_close, position_of_passOver hpass]

theorem passOver_nestedOpen {before inner : List Char} (hbefore : Parses before)
    (hinner : NoBracket inner) :
    passOver (before ++ '[' :: inner ++ ['[']) =
      .error ⟨byteCount (before ++ '[' :: inner), .nestedOpen⟩ := by
  obtain ⟨s, hpass, hinside⟩ := exists_passOver_inner hbefore hinner
  rw [passOver_concat hpass, hinside.step_open, position_of_passOver hpass]

theorem passOver_secondColon {before name label more : List Char}
    (hbefore : Parses before)
    (hname : Unmarked name) (hlabel : Unmarked label) (hmore : NoBracket more) :
    passOver (before ++ '[' :: (name ++ ':' :: label ++ ':' :: more) ++ [']']) =
      .error ⟨byteCount (before ++ '[' :: (name ++ ':' :: label)), .secondColon⟩ := by
  obtain ⟨done, lead, hopen⟩ := exists_passOver_open hbefore
  have hpass := (passOver_append hopen).trans
    (foldlM_step_overfull hname hlabel hmore (byteCount before + 1))
  have hbracket : ('[' : Char).utf8Size = 1 := rfl
  have hsecond : byteCount (before ++ '[' :: (name ++ ':' :: label)) =
      byteCount before + 1 + byteCount (name ++ ':' :: label) := by
    rw [byteCount_append, byteCount_cons, hbracket, Nat.add_assoc]
  rw [List.append_cons before, passOver_concat hpass, hsecond]
  rfl

theorem readSegments_of_malformed {text : List Char} {d : Defect} (h : Malformed text d) :
    readSegments text = .error d := by
  cases h with
  | unmatchedClose hbefore =>
    rw [List.append_cons]
    exact readSegments_eq_error_of_passOver
      (passOver_append_of_error (passOver_unmatchedClose hbefore) _)
  | unclosedOpen hbefore hinner =>
    obtain ⟨s, hpass, hinside⟩ := exists_passOver_inner hbefore hinner
    rw [readSegments_eq_of_passOver hpass]
    obtain ⟨position, done, zone⟩ := s
    rcases hinside with ⟨lead, name, rfl⟩ | ⟨lead, name, held, rfl⟩ | ⟨second, rfl⟩ <;> rfl
  | @nestedOpen before inner after hbefore hinner =>
    have hsplit : before ++ '[' :: (inner ++ '[' :: after) =
        (before ++ '[' :: inner ++ ['[']) ++ after := by simp
    rw [hsplit]
    exact readSegments_eq_error_of_passOver
      (passOver_append_of_error (passOver_nestedOpen hbefore hinner) _)
  | @secondColon before name label more after hbefore hname hlabel hmore =>
    have hsplit : before ++ '[' :: (name ++ ':' :: label ++ ':' :: more ++ ']' :: after) =
        (before ++ '[' :: (name ++ ':' :: label ++ ':' :: more) ++ [']']) ++ after := by simp
    rw [hsplit]
    exact readSegments_eq_error_of_passOver
      (passOver_append_of_error (passOver_secondColon hbefore hname hlabel hmore) _)

/-! ## Rejected texts are malformed -/

/-- Text without brackets holds no colon, one, or more. -/
theorem NoBracket.colons {inner : List Char} (h : NoBracket inner) :
    Unmarked inner ∨
      (∃ name label, inner = name ++ ':' :: label ∧ Unmarked name ∧ Unmarked label) ∨
        ∃ name label more, inner = name ++ ':' :: label ++ ':' :: more ∧ Unmarked name ∧
          Unmarked label ∧ NoBracket more := by
  by_cases hcolon : ':' ∈ inner
  · obtain ⟨name, rest, rfl, hname⟩ := List.eq_append_cons_of_mem hcolon
    obtain ⟨hbefore, hrest⟩ := noBracket_append_iff.mp h
    have hrest := (noBracket_cons_iff.mp hrest).2
    by_cases hcolon : ':' ∈ rest
    · obtain ⟨label, more, rfl, hlabel⟩ := List.eq_append_cons_of_mem hcolon
      obtain ⟨hbetween, hmore⟩ := noBracket_append_iff.mp hrest
      refine .inr (.inr ⟨name, label, more, ?_, ⟨hbefore, hname⟩, ⟨hbetween, hlabel⟩,
        (noBracket_cons_iff.mp hmore).2⟩)
      rw [List.append_assoc, List.cons_append]
    · exact .inr (.inl ⟨name, rest, rfl, ⟨hbefore, hname⟩, ⟨hrest, hcolon⟩⟩)
  · exact .inl ⟨h, hcolon⟩

/-- A text that can be read, with a block opened behind it. -/
def OpenAtEnd (text : List Char) : Prop :=
  ∃ before inner, text = before ++ '[' :: inner ∧ Parses before ∧ NoBracket inner

/-- A text that can be read, has a block open at its end, or is malformed
whatever follows. -/
def Classified (text : List Char) : Prop :=
  Parses text ∨ OpenAtEnd text ∨ ∃ d, ∀ more, Malformed (text ++ more) d

/-- The next character ends the reading of a text only if it is a closing bracket. -/
theorem Parses.classified_concat {text : List Char} (h : Parses text) (c : Char) :
    Classified (text ++ [c]) := by
  by_cases hopen : c = '['
  · exact .inr (.inl ⟨text, [], by rw [hopen], h, List.not_mem_nil, List.not_mem_nil⟩)
  by_cases hclose : c = ']'
  · refine .inr (.inr ⟨⟨byteCount text, .unmatchedClose⟩, fun more => ?_⟩)
    rw [hclose, ← List.append_cons]
    exact .unmatchedClose h
  · obtain ⟨s, hpass, hrest⟩ := parses_iff_exists_atRest.mp h
    obtain ⟨s', hstep, hs'⟩ := hrest.step_other hopen hclose
    exact .inl (parses_iff_exists_atRest.mpr ⟨s', (passOver_concat hpass c).trans hstep, hs'⟩)

/-- A block without a colon can be closed. -/
theorem parses_of_unmarked {before name : List Char} (hbefore : Parses before)
    (hname : Unmarked name) : Parses (before ++ '[' :: name ++ [']']) := by
  obtain ⟨done, lead, hopen⟩ := exists_passOver_open hbefore
  have hpass := (passOver_append hopen).trans (foldlM_step_typeName hname _)
  rw [← List.append_cons] at hpass
  exact parses_iff_exists_atRest.mpr ⟨_, (passOver_concat hpass ']').trans rfl, .inr ⟨_, rfl⟩⟩

/-- A block with one colon can be closed. -/
theorem parses_of_label {before name label : List Char} (hbefore : Parses before)
    (hname : Unmarked name) (hlabel : Unmarked label) :
    Parses (before ++ '[' :: (name ++ ':' :: label) ++ [']']) := by
  obtain ⟨done, lead, hopen⟩ := exists_passOver_open hbefore
  have hpass := (passOver_append hopen).trans (foldlM_step_label hname hlabel _)
  rw [← List.append_cons] at hpass
  exact parses_iff_exists_atRest.mpr ⟨_, (passOver_concat hpass ']').trans rfl, .inr ⟨_, rfl⟩⟩

/-- The next bracket closes an open block or is at fault, or the block has a
second colon. -/
theorem OpenAtEnd.classified_concat {text : List Char} (h : OpenAtEnd text) (c : Char) :
    Classified (text ++ [c]) := by
  obtain ⟨before, inner, rfl, hbefore, hinner⟩ := h
  by_cases hopen : c = '['
  · subst hopen
    refine .inr (.inr ⟨⟨byteCount (before ++ '[' :: inner), .nestedOpen⟩, fun after => ?_⟩)
    have hnested : Malformed (before ++ '[' :: (inner ++ '[' :: after)) _ :=
      .nestedOpen hbefore hinner
    simpa using hnested
  by_cases hclose : c = ']'
  · subst hclose
    rcases hinner.colons with hname | ⟨name, label, rfl, hname, hlabel⟩ |
      ⟨name, label, more, rfl, hname, hlabel, hmore⟩
    · exact .inl (parses_of_unmarked hbefore hname)
    · exact .inl (parses_of_label hbefore hname hlabel)
    · refine .inr (.inr ⟨⟨byteCount (before ++ '[' :: (name ++ ':' :: label)), .secondColon⟩,
        fun after => ?_⟩)
      have hsecond : Malformed
          (before ++ '[' :: (name ++ ':' :: label ++ ':' :: more ++ ']' :: after)) _ :=
        .secondColon hbefore hname hlabel hmore
      simpa using hsecond
  · refine .inr (.inl ⟨before, inner ++ [c], by simp, hbefore, ?_⟩)
    exact noBracket_append_iff.mpr
      ⟨hinner, noBracket_cons_iff.mpr ⟨⟨hopen, hclose⟩, List.not_mem_nil, List.not_mem_nil⟩⟩

theorem classified (text : List Char) : Classified text := by
  induction text using List.reverseRecOn with
  | nil => exact .inl ⟨[], rfl⟩
  | append_singleton text c ih =>
    rcases ih with hparses | hopen | ⟨d, hmalformed⟩
    · exact hparses.classified_concat c
    · exact hopen.classified_concat c
    · refine .inr (.inr ⟨d, fun more => ?_⟩)
      rw [← List.append_cons]
      exact hmalformed (c :: more)

/-- The texts that cannot be read are the malformed ones. -/
theorem readSegments_eq_error_iff {text : List Char} {d : Defect} :
    readSegments text = .error d ↔ Malformed text d := by
  refine ⟨fun h => ?_, readSegments_of_malformed⟩
  obtain ⟨d', hmalformed⟩ : ∃ d', Malformed text d' := by
    rcases classified text with ⟨segments, hread⟩ | hopen | ⟨d', hmalformed⟩
    · rw [hread] at h
      cases h
    · obtain ⟨before, inner, rfl, hbefore, hinner⟩ := hopen
      exact ⟨_, .unclosedOpen hbefore hinner⟩
    · have hend := hmalformed []
      rw [List.append_nil] at hend
      exact ⟨d', hend⟩
  have hd := (readSegments_of_malformed hmalformed).symm.trans h
  rwa [← Except.error.inj hd]

/-! ## Defects by the bytes of the template -/

/-- The template can be read up to a byte offset. -/
def ReadsUpTo (template : String) (position : Nat) : Prop :=
  ∃ segments, readTemplate (byteSlice template 0 position) = .ok segments

/-- No bracket stands strictly between two byte offsets. -/
def NoBracketBetween (template : String) (first last : Nat) : Prop :=
  ∀ position, first < position → position < last →
    ¬ ByteIs template position '[' ∧ ¬ ByteIs template position ']'

/-- What a template is rejected for. -/
def Defect.Stands (template : String) (d : Defect) : Prop :=
  match d.flaw with
  | .unmatchedClose => ByteIs template d.position ']' ∧ ReadsUpTo template d.position
  | .unclosedOpen =>
    ByteIs template d.position '[' ∧ ReadsUpTo template d.position ∧
      NoBracketBetween template d.position template.utf8ByteSize
  | .nestedOpen =>
    ∃ opened < d.position, ByteIs template opened '[' ∧ ByteIs template d.position '[' ∧
      ReadsUpTo template opened ∧ NoBracketBetween template opened d.position
  | .secondColon =>
    ∃ opened < d.position, ByteIs template opened '[' ∧ ReadsUpTo template opened ∧
      ByteIs template d.position ':' ∧
      (∃! first, opened < first ∧ first < d.position ∧ ByteIs template first ':') ∧
      ∃ closed > d.position, ByteIs template closed ']' ∧
        NoBracketBetween template opened closed

section

variable {template : String} {before middle after : List Char} {c : Char}

theorem readsUpTo_iff (h : template.toList = before ++ after) :
    ReadsUpTo template (byteCount before) ↔ Parses before := by
  have hslice : byteSlice template 0 (byteCount before) = String.ofList before := by
    have heq : byteSlice template (byteCount []) (byteCount [] + byteCount before) =
        String.ofList before := byteSlice_eq h
    rwa [byteCount_nil, Nat.zero_add] at heq
  unfold ReadsUpTo Parses readTemplate
  rw [hslice, String.toList_ofList]

/-- What stands behind a character of one byte begins at the next offset. -/
theorem cut_behind (hc : c.utf8Size = 1)
    (h : template.toList = before ++ c :: (middle ++ after)) :
    template.toList = (before ++ [c]) ++ middle ++ after ∧
      byteCount (before ++ [c]) = byteCount before + 1 := by
  constructor
  · rw [h]
    simp
  · simp [hc]

theorem noBracketBetween_iff (hc : c.utf8Size = 1)
    (h : template.toList = before ++ c :: (middle ++ after)) :
    NoBracketBetween template (byteCount before) (byteCount (before ++ c :: middle)) ↔
      NoBracket middle := by
  obtain ⟨hsplit, hstart⟩ := cut_behind hc h
  unfold NoBracketBetween NoBracket
  rw [mem_iff_exists_byteIs rfl hsplit, mem_iff_exists_byteIs rfl hsplit, hstart,
    ← List.append_cons]
  constructor
  · intro hnone
    constructor
    · rintro ⟨position, hfrom, hto, hbyte⟩
      exact (hnone position hfrom hto).1 hbyte
    · rintro ⟨position, hfrom, hto, hbyte⟩
      exact (hnone position hfrom hto).2 hbyte
  · rintro ⟨hopen, hclose⟩ position hfrom hto
    exact ⟨fun hbyte => hopen ⟨position, hfrom, hto, hbyte⟩,
      fun hbyte => hclose ⟨position, hfrom, hto, hbyte⟩⟩

theorem existsUnique_colon_iff (hc : c.utf8Size = 1)
    (h : template.toList = before ++ c :: (middle ++ after)) :
    (∃! first, byteCount before < first ∧ first < byteCount (before ++ c :: middle) ∧
        ByteIs template first ':') ↔
      ∃ name label, middle = name ++ ':' :: label ∧ ':' ∉ name ∧ ':' ∉ label := by
  obtain ⟨hsplit, hstart⟩ := cut_behind hc h
  rw [← existsUnique_byteIs_iff rfl hsplit, hstart, ← List.append_cons]
  rfl

end

section

variable {template : String} {position : Nat}

theorem stands_unmatchedClose_iff :
    Defect.Stands template ⟨position, .unmatchedClose⟩ ↔
      Malformed template.toList ⟨position, .unmatchedClose⟩ := by
  constructor
  · rintro ⟨hclose, hreads⟩
    obtain ⟨before, after, htext, rfl⟩ := (byteIs_iff rfl).mp hclose
    rw [htext]
    exact .unmatchedClose ((readsUpTo_iff htext).mp hreads)
  · intro h
    generalize htext : template.toList = text at h
    cases h with
    | unmatchedClose hbefore =>
      exact ⟨(byteIs_iff rfl).mpr ⟨_, _, htext, rfl⟩, (readsUpTo_iff htext).mpr hbefore⟩

theorem stands_unclosedOpen_iff :
    Defect.Stands template ⟨position, .unclosedOpen⟩ ↔
      Malformed template.toList ⟨position, .unclosedOpen⟩ := by
  have hend : ∀ before inner, template.toList = before ++ '[' :: inner →
      (NoBracketBetween template (byteCount before) template.utf8ByteSize ↔ NoBracket inner) := by
    intro before inner htext
    have hrest : template.toList = before ++ '[' :: (inner ++ []) := by
      rw [htext, List.append_nil]
    rw [← byteCount_toList, htext]
    exact noBracketBetween_iff rfl hrest
  constructor
  · rintro ⟨hopen, hreads, hnone⟩
    obtain ⟨before, inner, htext, rfl⟩ := (byteIs_iff rfl).mp hopen
    rw [htext]
    exact .unclosedOpen ((readsUpTo_iff htext).mp hreads) ((hend before inner htext).mp hnone)
  · intro h
    generalize htext : template.toList = text at h
    cases h with
    | unclosedOpen hbefore hinner =>
      exact ⟨(byteIs_iff rfl).mpr ⟨_, _, htext, rfl⟩, (readsUpTo_iff htext).mpr hbefore,
        (hend _ _ htext).mpr hinner⟩

theorem stands_nestedOpen_iff :
    Defect.Stands template ⟨position, .nestedOpen⟩ ↔
      Malformed template.toList ⟨position, .nestedOpen⟩ := by
  constructor
  · rintro ⟨opened, hlt, hopen, hnested, hreads, hnone⟩
    obtain ⟨before, inner, after, htext, rfl, hposition⟩ :=
      (byteIs_and_byteIs_iff rfl rfl).mp ⟨hlt, hopen, hnested⟩
    change position = _ at hposition
    subst hposition
    rw [htext]
    exact .nestedOpen ((readsUpTo_iff htext).mp hreads) ((noBracketBetween_iff rfl htext).mp hnone)
  · intro h
    generalize htext : template.toList = text at h
    cases h with
    | nestedOpen hbefore hinner =>
      obtain ⟨hlt, hopen, hnested⟩ :=
        (byteIs_and_byteIs_iff rfl rfl).mpr ⟨_, _, _, htext, rfl, rfl⟩
      exact ⟨_, hlt, hopen, hnested, (readsUpTo_iff htext).mpr hbefore,
        (noBracketBetween_iff rfl htext).mpr hinner⟩

theorem stands_secondColon_iff :
    Defect.Stands template ⟨position, .secondColon⟩ ↔
      Malformed template.toList ⟨position, .secondColon⟩ := by
  constructor
  · rintro ⟨opened, hlt, hopen, hreads, hcolon, hfirst, closed, hgt, hclose, hnone⟩
    obtain ⟨before, inner, rest, htext, rfl, hposition⟩ :=
      (byteIs_and_byteIs_iff rfl rfl).mp ⟨hlt, hopen, hcolon⟩
    obtain ⟨before', more, after, htext', hposition', rfl⟩ :=
      (byteIs_and_byteIs_iff rfl rfl).mp ⟨hgt, hcolon, hclose⟩
    change position = _ at hposition hposition'
    -- both cut the template at the same colon
    have hcut : (before ++ '[' :: inner) ++ ':' :: rest =
        before' ++ ':' :: (more ++ ']' :: after) := by
      rw [← htext', htext]
      simp
    obtain ⟨rfl, hrest⟩ := append_inj_of_byteCount hcut (hposition.symm.trans hposition')
    obtain rfl := (List.cons.inj hrest).2
    subst hposition
    obtain ⟨name, label, rfl, hname, hlabel⟩ := (existsUnique_colon_iff rfl htext).mp hfirst
    have hblock : template.toList =
        before ++ '[' :: ((name ++ ':' :: label ++ ':' :: more) ++ ']' :: after) := by
      rw [htext]
      simp
    have hinner : NoBracket (name ++ ':' :: label ++ ':' :: more) := by
      rw [← noBracketBetween_iff rfl hblock]
      simpa using hnone
    obtain ⟨hbefore, hmore⟩ := noBracket_append_iff.mp hinner
    obtain ⟨hnamed, hlabelled⟩ := noBracket_append_iff.mp hbefore
    rw [hblock]
    exact .secondColon ((readsUpTo_iff htext).mp hreads) ⟨hnamed, hname⟩
      ⟨(noBracket_cons_iff.mp hlabelled).2, hlabel⟩ (noBracket_cons_iff.mp hmore).2
  · intro h
    generalize htext : template.toList = text at h
    cases h with
    | @secondColon before name label more after hbefore hname hlabel hmore =>
      have hcolon : template.toList =
          before ++ '[' :: ((name ++ ':' :: label) ++ ':' :: (more ++ ']' :: after)) := by
        rw [htext]
        simp
      have hclosed : template.toList =
          (before ++ '[' :: (name ++ ':' :: label)) ++ ':' :: (more ++ ']' :: after) := by
        rw [htext]
        simp
      have hinner : NoBracket (name ++ ':' :: label ++ ':' :: more) := by
        simp only [noBracket_append_iff, noBracket_cons_iff]
        exact ⟨⟨hname.noBracket, by decide, hlabel.noBracket⟩, by decide, hmore⟩
      have hend : byteCount (before ++ '[' :: (name ++ ':' :: label) ++ ':' :: more) =
          byteCount (before ++ '[' :: (name ++ ':' :: label ++ ':' :: more)) := by
        simp
      obtain ⟨hlt, hopen, hsecond⟩ :=
        (byteIs_and_byteIs_iff rfl rfl).mpr ⟨_, _, _, hcolon, rfl, rfl⟩
      obtain ⟨hgt, -, hclose⟩ :=
        (byteIs_and_byteIs_iff rfl rfl).mpr ⟨_, _, _, hclosed, rfl, rfl⟩
      refine ⟨_, hlt, hopen, (readsUpTo_iff htext).mpr hbefore, hsecond, ?_, _, hgt, hclose, ?_⟩
      · exact (existsUnique_colon_iff rfl hcolon).mpr
          ⟨name, label, rfl, hname.noColon, hlabel.noColon⟩
      · rw [hend]
        exact (noBracketBetween_iff rfl htext).mpr hinner

end

theorem stands_iff_malformed {template : String} {d : Defect} :
    d.Stands template ↔ Malformed template.toList d := by
  obtain ⟨position, flaw⟩ := d
  cases flaw with
  | unmatchedClose => exact stands_unmatchedClose_iff
  | unclosedOpen => exact stands_unclosedOpen_iff
  | nestedOpen => exact stands_nestedOpen_iff
  | secondColon => exact stands_secondColon_iff

/-- The character at fault stands in the text. -/
theorem Malformed.exists_split {text : List Char} {d : Defect} (h : Malformed text d) :
    ∃ before c after, text = before ++ c :: after ∧ d.position = byteCount before := by
  cases h with
  | unmatchedClose => exact ⟨_, _, _, rfl, rfl⟩
  | unclosedOpen => exact ⟨_, _, _, rfl, rfl⟩
  | @nestedOpen before inner after =>
    exact ⟨before ++ '[' :: inner, '[', after, by simp, rfl⟩
  | @secondColon before name label more after =>
    exact ⟨before ++ '[' :: (name ++ ':' :: label), ':', more ++ ']' :: after, by simp, rfl⟩

theorem position_of_stands {template : String} {d : Defect} (h : d.Stands template) :
    d.position < template.utf8ByteSize ∧ String.Pos.Raw.IsValid template ⟨d.position⟩ := by
  obtain ⟨before, c, after, htext, hposition⟩ := (stands_iff_malformed.mp h).exists_split
  have hpos := c.utf8Size_pos
  rw [hposition]
  refine ⟨?_, isValid_byteCount htext⟩
  rw [← byteCount_toList, htext, byteCount_append, byteCount_cons]
  omega

theorem readTemplate_eq_error_iff {template : String} {d : Defect} :
    readTemplate template = .error d ↔ d.Stands template := by
  rw [stands_iff_malformed, ← readSegments_eq_error_iff]
  rfl

/-! ## What callers report -/

theorem patternText_eq_malformed_iff {types : MatchTypes} {template t : String}
    {d : Defect} :
    patternText types template = .error (.malformedTemplate t d) ↔
      t = template ∧ readTemplate template = .error d := by
  unfold patternText
  cases hread : readTemplate template with
  | error d' => simp [eq_comm]
  | ok segments =>
    cases htext : segmentsText types segments with
    | error typeName => simp [htext]
    | ok text => simp [htext]

theorem generateUrl_eq_malformed_iff {σ : Type} [ParamSource σ] {base template t : String}
    {params : σ} {d : Defect} :
    generateUrl base template params = .error (.malformedTemplate t d) ↔
      (isRaw template = false ∧ hasBracket template = true) ∧
        t = template ∧ readTemplate template = .error d := by
  unfold generateUrl
  by_cases hplain : isRaw template = false ∧ hasBracket template = true
  · obtain ⟨hraw, hbracket⟩ := hplain
    cases hread : readTemplate template with
    | error d' => simp [hraw, hbracket, eq_comm]
    | ok segments => simp [hraw, hbracket]
  · have hcopied : (isRaw template || !hasBracket template) = true := by
      cases hraw : isRaw template <;> cases hbracket : hasBracket template <;> simp_all
    rw [if_pos hcopied]
    simp [hplain]

/-- A template is rejected exactly for what is wrong with it by its bytes, which
is one thing at one character, and every caller reports it with the template. -/
theorem readTemplate_reports_defect (template : String) :
    (∀ d : Defect, readTemplate template = .error d ↔ d.Stands template) ∧
      (∀ d d' : Defect, d.Stands template → d'.Stands template → d = d') ∧
      (∀ d : Defect, d.Stands template → d.position < template.utf8ByteSize ∧
        String.Pos.Raw.IsValid template ⟨d.position⟩) ∧
      (∀ types t d, patternText types template = .error (.malformedTemplate t d) ↔
        t = template ∧ d.Stands template) ∧
      ∀ (σ : Type) [ParamSource σ] (base : String) (params : σ) t d,
        generateUrl base template params = .error (.malformedTemplate t d) ↔
          (isRaw template = false ∧ hasBracket template = true) ∧
            t = template ∧ d.Stands template := by
  refine ⟨fun d => readTemplate_eq_error_iff, ?_, fun d => position_of_stands, ?_, ?_⟩
  · intro d d' h h'
    rw [← readTemplate_eq_error_iff] at h h'
    exact Except.error.inj (h.symm.trans h')
  · intro types t d
    rw [patternText_eq_malformed_iff, readTemplate_eq_error_iff]
  · intro σ _ base params t d
    rw [generateUrl_eq_malformed_iff, readTemplate_eq_error_iff]

/-- Behind a block of its own and text of several bytes a character, the second
colon of a block that is closed is at fault, and not the bracket that closes
nothing. -/
theorem readTemplate_reports_defect_multibyte :
    Defect.Stands "é/[i:größe]ß[日:x:]]" ⟨22, .secondColon⟩ ∧
      ¬ Defect.Stands "é/[i:größe]ß[日:x:]]" ⟨24, .unmatchedClose⟩ := by
  obtain ⟨hreads, hone, -⟩ := readTemplate_reports_defect "é/[i:größe]ß[日:x:]]"
  have hsecond : Defect.Stands "é/[i:größe]ß[日:x:]]" ⟨22, .secondColon⟩ :=
    (hreads _).mp (by decide +kernel)
  refine ⟨hsecond, fun hclose => ?_⟩
  cases hone _ _ hsecond hclose

end UrlRouting
