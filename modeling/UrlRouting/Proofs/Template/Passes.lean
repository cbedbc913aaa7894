import UrlRouting.Proofs.Template.Layout

/-!
# Passes over parts of a template

A pass over two texts is a pass over the one and then over the other. In literal
text and behind a closing bracket it is at rest: it could end there, and an
opening bracket begins a block. From there to the next bracket it only counts
colons.

Main statements: `parses_iff_exists_atRest`, `exists_passOver_open`, and one
statement for each number of colons behind an opening bracket.
-/

namespace UrlRouting

/-- The state of a pass behind a text. -/
def passOver (text : List Char) : Except Defect Scan :=
  text.foldlM Scan.step Scan.start

/-- A text that can be read. -/
def Parses (text : List Char) : Prop :=
  ∃ segments, readSegments text = .ok segments

/-- A pass goes on from the state behind the first text. -/
theorem foldlM_step_append {text more : List Char} {s s' : Scan}
    (h : text.foldlM Scan.step s = .ok s') :
    (text ++ more).foldlM Scan.step s = more.foldlM Scan.step s' := by
  rw [List.foldlM_append, h]
  rfl

theorem passOver_append {text more : List Char} {s : Scan} (h : passOver text = .ok s) :
    passOver (text ++ more) = more.foldlM Scan.step s :=
  foldlM_step_append h

theorem passOver_append_of_error {text : List Char} {d : Defect}
    (h : passOver text = .error d)
    (more : List Char) : passOver (text ++ more) = .error d := by
  unfold passOver at h ⊢
  rw [List.foldlM_append, h]
  rfl

/-- One more character is one more step. -/
theorem passOver_concat {text : List Char} {s : Scan} (h : passOver text = .ok s)
    (c : Char) :
    passOver (text ++ [c]) = s.step c := by
  rw [passOver_append h]
  show (s.step c >>= fun s' => pure s') = s.step c
  exact bind_pure _

theorem readSegments_eq_of_passOver {text : List Char} {s : Scan}
    (h : passOver text = .ok s) :
    readSegments text = s.finish := by
  show passOver text >>= Scan.finish = _
  rw [h]
  rfl

theorem readSegments_eq_error_of_passOver {text : List Char} {d : Defect}
    (h : passOver text = .error d) : readSegments text = .error d := by
  show passOver text >>= Scan.finish = _
  rw [h]
  rfl

/-! ## At rest -/

/-- A pass in literal text or behind a closing bracket. -/
def Scan.AtRest (s : Scan) : Prop :=
  (∃ held, s.zone = .literal held) ∨ ∃ b, s.zone = .closed b

/-- A text can be read if a pass over it ends at rest. -/
theorem parses_iff_exists_atRest {text : List Char} :
    Parses text ↔ ∃ s, passOver text = .ok s ∧ s.AtRest := by
  constructor
  · rintro ⟨segments, h⟩
    cases hpass : passOver text with
    | error d =>
      rw [readSegments_eq_error_of_passOver hpass] at h
      cases h
    | ok s =>
      rw [readSegments_eq_of_passOver hpass] at h
      refine ⟨s, rfl, ?_⟩
      obtain ⟨position, done, zone⟩ := s
      cases zone with
      | literal held => exact .inl ⟨held, rfl⟩
      | closed b => exact .inr ⟨b, rfl⟩
      | typeName => cases h
      | label => cases h
      | overfull => cases h
  · rintro ⟨s, hpass, hrest⟩
    unfold Parses
    rw [readSegments_eq_of_passOver hpass]
    obtain ⟨position, done, zone⟩ := s
    rcases hrest with ⟨held, rfl⟩ | ⟨b, rfl⟩
    · exact ⟨_, rfl⟩
    · exact ⟨_, rfl⟩

theorem Scan.AtRest.step_open {s : Scan} (h : s.AtRest) :
    ∃ done lead, s.step '[' = .ok ⟨s.position + 1, done, .typeName s.position lead []⟩ := by
  obtain ⟨position, done, zone⟩ := s
  rcases h with ⟨held, rfl⟩ | ⟨b, rfl⟩
  · exact ⟨_, _, rfl⟩
  · exact ⟨_, _, rfl⟩

theorem Scan.AtRest.step_close {s : Scan} (h : s.AtRest) :
    s.step ']' = .error ⟨s.position, .unmatchedClose⟩ := by
  obtain ⟨position, done, zone⟩ := s
  rcases h with ⟨held, rfl⟩ | ⟨b, rfl⟩
  · rfl
  · rfl

theorem Scan.AtRest.step_other {s : Scan} (h : s.AtRest) {c : Char} (hopen : c ≠ '[')
    (hclose : c ≠ ']') : ∃ s', s.step c = .ok s' ∧ s'.AtRest := by
  obtain ⟨position, done, zone⟩ := s
  rcases h with ⟨held, rfl⟩ | ⟨b, rfl⟩
  · refine ⟨⟨position + c.utf8Size, done, .literal (c :: held)⟩, ?_, .inl ⟨_, rfl⟩⟩
    simp [Scan.step, stepLiteral, hopen, hclose]
  · by_cases hmark : c = '?'
    · subst hmark
      exact ⟨_, rfl, .inl ⟨_, rfl⟩⟩
    · refine ⟨⟨position + c.utf8Size, .block b :: done, .literal [c]⟩, ?_, .inl ⟨_, rfl⟩⟩
      simp [Scan.step, stepLiteral, hopen, hclose, hmark]

/-! ## Offsets -/

theorem Scan.position_step {s s' : Scan} {c : Char} (h : s.step c = .ok s') :
    s'.position = s.position + c.utf8Size := by
  have hascii : ('[' : Char).utf8Size = 1 ∧ (']' : Char).utf8Size = 1 ∧
      (':' : Char).utf8Size = 1 ∧ ('?' : Char).utf8Size = 1 := by decide
  obtain ⟨position, done, zone⟩ := s
  cases zone <;> grind [Scan.step, stepLiteral]

/-- A pass stands behind what it has read. -/
theorem position_of_passOver {text : List Char} {s : Scan} (h : passOver text = .ok s) :
    s.position = byteCount text := by
  have hpass : s.position = byteCount ([] ++ text) := by
    refine Scan.foldlM_induction (motive := fun read s => s.position = byteCount read) ?_ rfl h
    intro read s c s' hs hstep
    rw [Scan.position_step hstep, hs, byteCount_append]
    rfl
  exact hpass

/-- Behind a text that can be read, an opening bracket begins a block. -/
theorem exists_passOver_open {before : List Char} (h : Parses before) :
    ∃ done lead, passOver (before ++ ['[']) =
      .ok ⟨byteCount before + 1, done, .typeName (byteCount before) lead []⟩ := by
  obtain ⟨s, hpass, hrest⟩ := parses_iff_exists_atRest.mp h
  obtain ⟨done, lead, hstep⟩ := hrest.step_open
  rw [position_of_passOver hpass] at hstep
  exact ⟨done, lead, (passOver_concat hpass '[').trans hstep⟩

/-! ## Behind an opening bracket -/

/-- A pass behind an opening bracket that stands at byte `opened`. -/
def Scan.Inside (opened : Nat) (s : Scan) : Prop :=
  (∃ lead name, s.zone = .typeName opened lead name) ∨
    (∃ lead name held, s.zone = .label opened lead name held) ∨
      ∃ second, s.zone = .overfull opened second

theorem Scan.Inside.step_open {opened : Nat} {s : Scan} (h : s.Inside opened) :
    s.step '[' = .error ⟨s.position, .nestedOpen⟩ := by
  obtain ⟨position, done, zone⟩ := s
  rcases h with ⟨lead, name, rfl⟩ | ⟨lead, name, held, rfl⟩ | ⟨second, rfl⟩ <;> rfl

theorem Scan.Inside.step_other {opened : Nat} {s : Scan} (h : s.Inside opened) {c : Char}
    (hopen : c ≠ '[') (hclose : c ≠ ']') :
    ∃ s', s.step c = .ok s' ∧ s'.Inside opened := by
  obtain ⟨position, done, zone⟩ := s
  by_cases hcolon : c = ':'
  · subst hcolon
    rcases h with ⟨lead, name, rfl⟩ | ⟨lead, name, held, rfl⟩ | ⟨second, rfl⟩
    · exact ⟨_, rfl, .inr (.inl ⟨_, _, _, rfl⟩)⟩
    · exact ⟨_, rfl, .inr (.inr ⟨_, rfl⟩)⟩
    · exact ⟨_, rfl, .inr (.inr ⟨_, rfl⟩)⟩
  · rcases h with ⟨lead, name, rfl⟩ | ⟨lead, name, held, rfl⟩ | ⟨second, rfl⟩
    · refine ⟨⟨position + c.utf8Size, done, .typeName opened lead (c :: name)⟩, ?_,
        .inl ⟨_, _, rfl⟩⟩
      simp [Scan.step, hopen, hclose, hcolon]
    · refine ⟨⟨position + c.utf8Size, done, .label opened lead name (c :: held)⟩, ?_,
        .inr (.inl ⟨_, _, _, rfl⟩)⟩
      simp [Scan.step, hopen, hclose, hcolon]
    · refine ⟨⟨position + c.utf8Size, done, .overfull opened second⟩, ?_, .inr (.inr ⟨_, rfl⟩)⟩
      simp [Scan.step, hopen, hclose]

/-- Up to the next bracket, a pass stays in the block. -/
theorem Scan.Inside.exists_foldlM {opened : Nat} {s : Scan} (h : s.Inside opened)
    {text : List Char} (htext : NoBracket text) :
    ∃ s', text.foldlM Scan.step s = .ok s' ∧ s'.Inside opened := by
  induction text generalizing s with
  | nil => exact ⟨s, rfl, h⟩
  | cons c rest ih =>
    obtain ⟨⟨hopen, hclose⟩, hfree⟩ := noBracket_cons_iff.mp htext
    obtain ⟨next, hstep, hnext⟩ := h.step_other hopen hclose
    obtain ⟨s', hrest, hs'⟩ := ih hnext hfree
    refine ⟨s', ?_, hs'⟩
    rw [List.foldlM_cons, hstep]
    exact hrest

theorem exists_passOver_inner {before inner : List Char} (hbefore : Parses before)
    (hinner : NoBracket inner) :
    ∃ s, passOver (before ++ '[' :: inner) = .ok s ∧ s.Inside (byteCount before) := by
  obtain ⟨done, lead, hopen⟩ := exists_passOver_open hbefore
  have hinside : Scan.Inside (byteCount before)
      ⟨byteCount before + 1, done, .typeName (byteCount before) lead []⟩ := .inl ⟨_, _, rfl⟩
  obtain ⟨s, hfold, hs⟩ := hinside.exists_foldlM hinner
  refine ⟨s, ?_, hs⟩
  rw [List.append_cons]
  exact (passOver_append hopen).trans hfold

section

variable {opened : Nat} {lead : Option Lead} {done : List Segment} {name label : List Char}

/-- Without a colon, all text is the name of the type. -/
theorem foldlM_step_typeName (hname : Unmarked name) (position : Nat) :
    name.foldlM Scan.step ⟨position, done, .typeName opened lead []⟩ =
      .ok ⟨position + byteCount name, done, .typeName opened lead name.reverse⟩ := by
  have hstep : ∀ (position : Nat) (held : List Char), ∀ c ∈ name,
      Scan.step ⟨position, done, .typeName opened lead held⟩ c =
        .ok ⟨position + c.utf8Size, done, .typeName opened lead (c :: held)⟩ := by
    intro position held c hc
    obtain ⟨hopen, hclose⟩ := hname.noBracket.ne_of_mem hc
    have hcolon : c ≠ ':' := fun heq => hname.noColon (heq ▸ hc)
    simp [Scan.step, hopen, hclose, hcolon]
  have hpass := foldlM_step_hold (.typeName opened lead) hstep position []
  rwa [List.append_nil] at hpass

/-- What stands behind the one colon is the label. -/
theorem foldlM_step_label (hname : Unmarked name) (hlabel : Unmarked label)
    (position : Nat) :
    (name ++ ':' :: label).foldlM Scan.step ⟨position, done, .typeName opened lead []⟩ =
      .ok ⟨position + byteCount (name ++ ':' :: label), done,
        .label opened lead (String.ofList name) label.reverse⟩ := by
  have hstep : ∀ (position : Nat) (held : List Char), ∀ c ∈ label,
      Scan.step ⟨position, done, .label opened lead (String.ofList name) held⟩ c =
        .ok ⟨position + c.utf8Size, done,
          .label opened lead (String.ofList name) (c :: held)⟩ := by
    intro position held c hc
    obtain ⟨hopen, hclose⟩ := hlabel.noBracket.ne_of_mem hc
    have hcolon : c ≠ ':' := fun heq => hlabel.noColon (heq ▸ hc)
    simp [Scan.step, hopen, hclose, hcolon]
  have hcolon : Scan.step ⟨position + byteCount name, done, .typeName opened lead name.reverse⟩
      ':' = .ok ⟨position + byteCount name + 1, done,
        .label opened lead (String.ofList name) []⟩ := by
    simp [Scan.step]
  rw [foldlM_step_append (foldlM_step_typeName hname position), List.foldlM_cons, hcolon]
  show label.foldlM Scan.step _ = _
  rw [foldlM_step_hold (.label opened lead _) hstep, List.append_nil, byteCount_append,
    byteCount_cons, Nat.add_assoc, Nat.add_assoc]
  rfl

/-- Behind a second colon, its offset is all that is kept. -/
theorem foldlM_step_overfull {more : List Char} (hname : Unmarked name)
    (hlabel : Unmarked label) (hmore : NoBracket more) (position : Nat) :
    (name ++ ':' :: label ++ ':' :: more).foldlM Scan.step
        ⟨position, done, .typeName opened lead []⟩ =
      .ok ⟨position + byteCount (name ++ ':' :: label ++ ':' :: more), done,
        .overfull opened (position + byteCount (name ++ ':' :: label))⟩ := by
  have hrest : ∀ second position : Nat,
      more.foldlM Scan.step ⟨position, done, .overfull opened second⟩ =
        .ok ⟨position + byteCount more, done, .overfull opened second⟩ := by
    intro second position
    refine foldlM_step_hold (fun _ => .overfull opened second) ?_ position []
    intro position held c hc
    obtain ⟨hopen, hclose⟩ := hmore.ne_of_mem hc
    simp [Scan.step, hopen, hclose]
  have hcolon : ∀ position : Nat, Scan.step ⟨position, done,
      .label opened lead (String.ofList name) label.reverse⟩ ':' =
        .ok ⟨position + 1, done, .overfull opened position⟩ := fun position => rfl
  rw [foldlM_step_append (foldlM_step_label hname hlabel position), List.foldlM_cons, hcolon]
  show more.foldlM Scan.step _ = _
  rw [hrest, byteCount_append _ (':' :: more), byteCount_cons, Nat.add_assoc, Nat.add_assoc]
  rfl

end

end UrlRouting
