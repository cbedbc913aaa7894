import UrlRouting.Regex.Escape
import UrlRouting.Text.Split

/-!
# Bracketed classes

A class in brackets is a union of characters, ranges, escapes and further
classes, or a chain of set operations on such unions, taken from left to right.
Without the Unicode flag a class may hold ASCII only, so it cannot be negated.
-/

namespace UrlRouting.Regex

/-- A class and how deeply its parts are nested. -/
structure ClassPart where
  cls : CharClass
  depth : Nat
deriving DecidableEq, Repr

inductive SetOperator where
  | intersection
  | difference
  | symmetricDifference
deriving DecidableEq, Repr

/-- An open bracket: the left side of an operator, if one was read, and the parts
of the union behind it, the last one first. -/
structure Bracket where
  negated : Bool
  left : Option (ClassPart × SetOperator)
  parts : List ClassPart
deriving DecidableEq, Repr

def Flags.fold (f : Flags) (cls : CharClass) : CharClass :=
  if !f.ignoreCase then cls
  else if f.unicode then .folded cls
  else .foldedAscii cls

/-- Folds a class and then negates it. -/
def Flags.finishClass? (f : Flags) (negated : Bool) (cls : CharClass) :
    Option CharClass :=
  if !negated then some (f.fold cls)
  else if f.unicode then some (.complement (f.fold cls))
  else none

/-- The class of an escape, if it stands for characters. -/
def Escape.class? (f : Flags) : Escape → Option CharClass
  | .literal c => if f.unicode || Unicode.isAscii c then some (.single c) else none
  | .shorthand s negated =>
    if f.unicode then
      some (if negated then .complement (.shorthand s) else .shorthand s)
    else if negated then none
    else some (CharClass.ofAsciiShorthand s)
  | .property p negated => if f.unicode then f.finishClass? negated (.property p) else none
  | .look _ => none

def SetOperator.apply (f : Flags) (a b : CharClass) : SetOperator → CharClass
  | .intersection => .intersection (f.fold a) (f.fold b)
  | .difference => .difference (f.fold a) (f.fold b)
  | .symmetricDifference => .symmetricDifference (f.fold a) (f.fold b)

namespace Bracket

def add (b : Bracket) (part : ClassPart) : Bracket :=
  { b with parts := part :: b.parts }

/-- The union read last, with what its operator makes of it. -/
def body (b : Bracket) (f : Flags) : ClassPart :=
  let right : ClassPart :=
    match b.parts with
    | [] => ⟨.empty, 0⟩
    | [part] => part
    | parts =>
      ⟨CharClass.ofList (parts.reverse.map (·.cls)), 1 + (parts.map (·.depth)).foldl max 0⟩
  match b.left with
  | none => right
  | some (left, operator) =>
    ⟨operator.apply f left.cls right.cls, 1 + max left.depth right.depth⟩

/-- Makes all that was read the left side of an operator. -/
def operate (b : Bracket) (f : Flags) (operator : SetOperator) : Bracket :=
  ⟨b.negated, some (b.body f, operator), []⟩

/-- The class of the whole bracket. -/
def close? (b : Bracket) (f : Flags) : Option ClassPart :=
  let body := b.body f
  (f.finishClass? b.negated body.cls).map (⟨·, body.depth + 1⟩)

end Bracket

/-- Hyphens at the start of a bracket stand for themselves. -/
def readHyphens (f : Flags) (cs : List Char) (b : Bracket) : Bracket × List Char :=
  match h : f.skip cs with
  | '-' :: rest =>
    have := Flags.length_lt_of_skip h
    readHyphens f rest (b.add ⟨.single '-', 0⟩)
  | rest => (b, rest)
termination_by cs.length

theorem readHyphens_of_skip {f : Flags} {cs rest : List Char} (b : Bracket)
    (h : f.skip cs = '-' :: rest) :
    readHyphens f cs b = readHyphens f rest (b.add ⟨.single '-', 0⟩) := by
  rw [readHyphens]
  split <;> simp_all

theorem readHyphens_of_skip_ne {f : Flags} {cs : List Char} (b : Bracket)
    (h : ∀ rest, f.skip cs ≠ '-' :: rest) : readHyphens f cs b = (b, f.skip cs) := by
  rw [readHyphens]
  split
  · next rest heq => exact absurd heq (h rest)
  · rfl

/-- Reads the sign that negates a class, if it is there. -/
def readNegation : List Char → Bool × List Char
  | '^' :: rest => (true, rest)
  | rest => (false, rest)

/-- Reads the start of a bracket behind its opening sign: a negation, hyphens, and
a closing sign that stands for itself if it comes first. -/
def readOpening (f : Flags) (cs : List Char) : Bracket × List Char :=
  let (negated, rest) := readNegation (f.skip cs)
  let (b, rest) := readHyphens f rest ⟨negated, none, []⟩
  match b.parts, rest with
  | [], ']' :: rest => (b.add ⟨.single ']', 0⟩, rest)
  | _, rest => (b, rest)

/-- Reads a named ASCII class behind its opening bracket. -/
def readNamedClass (f : Flags) (cs : List Char) :
    Option (Option CharClass × List Char) := do
  let (':' :: rest) := cs | none
  let (negated, rest) := readNegation rest
  let (name, rest) ← cutAt ':' rest
  let (']' :: rest) := rest | none
  let cls ← CharClass.ofAsciiName? (String.ofList name)
  return (f.finishClass? negated cls, rest)

/-- Reads one member: an escape, or a character that stands for itself. -/
def readMember (f : Flags) : List Char → Option (Escape × List Char)
  | [] => none
  | '\\' :: rest => readEscape f rest
  | c :: rest => some (.literal c, rest)

/-- Reads a member or a range. A hyphen before a closing bracket or a second
hyphen makes no range. -/
def readRange (f : Flags) (cs : List Char) : Option (CharClass × List Char) := do
  let (first, rest) ← readMember f cs
  match f.skip rest with
  | [] => none
  | '-' :: tail =>
    if f.peek tail = some ']' || f.peek tail = some '-' then
      return (← first.class? f, '-' :: tail)
    else
      let (last, rest) ← readMember f (f.skip tail)
      match first, last with
      | .literal a, .literal b =>
        if a ≤ b && (f.unicode || Unicode.isAscii b) then return (.range a b, rest) else none
      | _, _ => none
  | rest => return (← first.class? f, rest)

/-- A hyphen behind which the class ends, or another hyphen stands, makes no range. -/
theorem readRange_eq_some_iff {f : Flags} {cs rest : List Char} {cls : CharClass} :
    readRange f cs = some (cls, rest) ↔
      ∃ first after, readMember f cs = some (first, after) ∧ f.skip after ≠ [] ∧
        (((∀ tail, f.skip after = '-' :: tail →
              f.peek tail = some ']' ∨ f.peek tail = some '-') ∧
            first.class? f = some cls ∧ rest = f.skip after) ∨
          ∃ tail a b, f.skip after = '-' :: tail ∧
            ¬ (f.peek tail = some ']' ∨ f.peek tail = some '-') ∧ first = .literal a ∧
            readMember f (f.skip tail) = some (.literal b, rest) ∧
            (a ≤ b ∧ (f.unicode || Unicode.isAscii b) = true) ∧ cls = .range a b) := by
  constructor
  · intro h
    unfold readRange at h
    obtain ⟨⟨first, after⟩, hfirst, h⟩ := Option.bind_eq_some_iff.mp h
    refine ⟨first, after, hfirst, ?_⟩
    dsimp only at h
    split at h
    · cases h
    · next tail heq =>
      refine ⟨by simp [heq], ?_⟩
      split at h
      · next hpeek =>
        obtain ⟨cls', hcls, h⟩ := Option.bind_eq_some_iff.mp h
        cases h
        refine .inl ⟨fun tail' heq' => ?_, hcls, heq.symm⟩
        obtain rfl : tail = tail' := (List.cons.inj (heq.symm.trans heq')).2
        simpa using hpeek
      · next hpeek =>
        obtain ⟨⟨last, behind⟩, hlast, h⟩ := Option.bind_eq_some_iff.mp h
        dsimp only at h
        split at h
        · next a b _ =>
          split at h
          · next hle =>
            cases h
            rw [Bool.and_eq_true, decide_eq_true_eq] at hle
            exact .inr ⟨tail, a, b, heq, by simpa using hpeek, rfl, hlast, hle, rfl⟩
          · cases h
        · cases h
    · next hnil hne =>
      obtain ⟨cls', hcls, h⟩ := Option.bind_eq_some_iff.mp h
      cases h
      exact ⟨hnil, .inl ⟨fun tail heq => absurd heq (hne tail), hcls, rfl⟩⟩
  · rintro ⟨first, after, hfirst, hne, ⟨hsingle, hcls, rfl⟩ |
      ⟨tail, a, b, heq, hpeek, rfl, hlast, hle, rfl⟩⟩
    · obtain ⟨c, tail, hcons⟩ := List.exists_cons_of_ne_nil hne
      unfold readRange
      rw [hfirst]
      simp only [Option.bind_eq_bind, Option.bind_some, hcons]
      by_cases hc : c = '-'
      · subst hc
        have := hsingle tail hcons
        simp [hcls, this]
      · simp [hc, hcls]
    · rw [← decide_eq_true_eq (p := a ≤ b), ← Bool.and_eq_true] at hle
      unfold readRange
      rw [hfirst]
      simp only [Option.bind_eq_bind, Option.bind_some, heq]
      rw [if_neg (by simpa using hpeek), hlast]
      exact if_pos hle

/-- What one step inside brackets leads to. -/
inductive BracketStep where
  | inside (current : Bracket) (outer : List Bracket) (rest : List Char)
  | finished (part : ClassPart) (rest : List Char)

/-- One step inside brackets. -/
def bracketStep (f : Flags) (current : Bracket) (outer : List Bracket) :
    List Char → Option BracketStep
  | [] => none
  | '[' :: rest =>
    match readNamedClass f rest with
    | some (cls?, rest) => cls?.map fun cls => .inside (current.add ⟨cls, 0⟩) outer rest
    | none =>
      let (inner, rest) := readOpening f rest
      some (.inside inner (current :: outer) rest)
  | ']' :: rest => do
    let part ← current.close? f
    match outer with
    | [] => return .finished part rest
    | parent :: outer => return .inside (parent.add part) outer rest
  | '&' :: '&' :: rest => some (.inside (current.operate f .intersection) outer rest)
  | '-' :: '-' :: rest => some (.inside (current.operate f .difference) outer rest)
  | '~' :: '~' :: rest => some (.inside (current.operate f .symmetricDifference) outer rest)
  | cs => do
    let (cls, rest) ← readRange f cs
    return .inside (current.add ⟨cls, 0⟩) outer rest

/-- What is left to read behind a step inside brackets. -/
def BracketStep.rest : BracketStep → List Char
  | .inside _ _ rest => rest
  | .finished _ rest => rest

/-! ## What is left to read -/

theorem length_readHyphens_le (f : Flags) (cs : List Char) (b : Bracket) :
    (readHyphens f cs b).2.length ≤ cs.length := by
  fun_induction readHyphens f cs b <;> grind [Flags.length_skip_le]

theorem length_readNegation_le (cs : List Char) :
    (readNegation cs).2.length ≤ cs.length := by
  unfold readNegation
  split
  · exact Nat.le_succ _
  · exact Nat.le_refl _

theorem length_readOpening_le (f : Flags) (cs : List Char) :
    (readOpening f cs).2.length ≤ cs.length := by
  have hskip := f.length_skip_le cs
  unfold readOpening
  grind [length_readHyphens_le, length_readNegation_le]

theorem length_le_of_readNamedClass {f : Flags} {cs rest : List Char}
    {cls? : Option CharClass}
    (h : readNamedClass f cs = some (cls?, rest)) : rest.length ≤ cs.length := by
  unfold readNamedClass at h
  split at h
  · next after =>
    dsimp only at h
    obtain ⟨⟨name, behind⟩, hcut, h⟩ := Option.bind_eq_some_iff.mp h
    have hbehind := length_lt_of_cutAt hcut
    have hle := length_readNegation_le after
    dsimp only at h
    split at h
    · obtain ⟨cls, -, h⟩ := Option.bind_eq_some_iff.mp h
      cases h
      simp only [List.length_cons] at hbehind ⊢
      omega
    · cases h
  · cases h

theorem length_lt_of_readMember {f : Flags} {cs rest : List Char} {e : Escape}
    (h : readMember f cs = some (e, rest)) : rest.length < cs.length := by
  unfold readMember at h
  split at h
  · cases h
  · exact Nat.lt_succ_of_lt (length_lt_of_readEscape h)
  · cases h
    exact Nat.lt_succ_self _

theorem length_lt_of_readRange {f : Flags} {cs rest : List Char} {cls : CharClass}
    (h : readRange f cs = some (cls, rest)) : rest.length < cs.length := by
  obtain ⟨first, after, hfirst, -, hrest⟩ := readRange_eq_some_iff.mp h
  have hafter := length_lt_of_readMember hfirst
  have hle := f.length_skip_le after
  rcases hrest with ⟨-, -, rfl⟩ | ⟨tail, a, b, heq, -, -, hlast, -, -⟩
  · exact Nat.lt_of_le_of_lt hle hafter
  · have hbehind := length_lt_of_readMember hlast
    have htail := f.length_skip_le tail
    rw [heq, List.length_cons] at hle
    omega

theorem length_lt_of_bracketStep {f : Flags} {current : Bracket} {outer : List Bracket}
    {cs : List Char} {step : BracketStep}
    (h : bracketStep f current outer cs = some step) :
    step.rest.length < cs.length := by
  unfold bracketStep at h
  split at h
  · cases h
  · next tail =>
    refine Nat.lt_succ_of_le ?_
    split at h
    · next hread =>
      obtain ⟨cls, -, heq⟩ := Option.map_eq_some_iff.mp h
      cases heq
      exact length_le_of_readNamedClass hread
    · cases h
      exact length_readOpening_le f tail
  · obtain ⟨part, -, h⟩ := Option.bind_eq_some_iff.mp h
    split at h <;> cases h <;> exact Nat.lt_succ_self _
  · cases h
    exact Nat.lt_add_of_pos_right (Nat.succ_pos 1)
  · cases h
    exact Nat.lt_add_of_pos_right (Nat.succ_pos 1)
  · cases h
    exact Nat.lt_add_of_pos_right (Nat.succ_pos 1)
  · obtain ⟨⟨cls, rest⟩, hread, h⟩ := Option.bind_eq_some_iff.mp h
    cases h
    exact length_lt_of_readRange hread

/-! ## The whole class -/

/-- Reads up to the end of the outermost bracket. -/
def readBrackets (f : Flags) (current : Bracket) (outer : List Bracket) (cs : List Char) :
    Option (ClassPart × List Char) :=
  match h : bracketStep f current outer (f.skip cs) with
  | none => none
  | some (.finished part rest) => some (part, rest)
  | some (.inside current outer rest) =>
    have := Nat.lt_of_lt_of_le (length_lt_of_bracketStep h) (f.length_skip_le cs)
    readBrackets f current outer rest
termination_by cs.length

theorem readBrackets_of_inside {f : Flags} {current next : Bracket}
    {outer after : List Bracket} {cs rest : List Char}
    (h : bracketStep f current outer (f.skip cs) = some (.inside next after rest)) :
    readBrackets f current outer cs = readBrackets f next after rest := by
  rw [readBrackets]
  split <;> simp_all

theorem readBrackets_of_finished {f : Flags} {current : Bracket} {outer : List Bracket}
    {cs rest : List Char} {part : ClassPart}
    (h : bracketStep f current outer (f.skip cs) = some (.finished part rest)) :
    readBrackets f current outer cs = some (part, rest) := by
  rw [readBrackets]
  split <;> simp_all

theorem length_lt_of_readBrackets {f : Flags} {current : Bracket} {outer : List Bracket}
    {cs rest : List Char} {part : ClassPart}
    (h : readBrackets f current outer cs = some (part, rest)) :
    rest.length < cs.length := by
  fun_induction readBrackets f current outer cs with
  | case1 => cases h
  | case2 current outer cs part' rest' hstep =>
    cases h
    exact Nat.lt_of_lt_of_le (length_lt_of_bracketStep hstep) (f.length_skip_le cs)
  | case3 current outer cs next after rest' hstep hlt ih =>
    exact Nat.lt_trans (ih h) hlt

/-- Reads a class behind its opening bracket. -/
def readClass (f : Flags) (cs : List Char) : Option (ClassPart × List Char) :=
  let (b, rest) := readOpening f cs
  readBrackets f b [] rest

theorem length_lt_of_readClass {f : Flags} {cs rest : List Char} {part : ClassPart}
    (h : readClass f cs = some (part, rest)) : rest.length < cs.length :=
  Nat.lt_of_lt_of_le (length_lt_of_readBrackets h) (length_readOpening_le f cs)

end UrlRouting.Regex
