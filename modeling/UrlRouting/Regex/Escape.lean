import UrlRouting.Regex.Expr
import UrlRouting.Regex.Flags
import UrlRouting.Text.Letters

/-!
# Escapes

What a backslash and the characters after it stand for. Back references and
octal numbers are no escapes here, and a letter or digit without a meaning of its
own may not be escaped at all.
-/

namespace UrlRouting.Regex

inductive Escape where
  | literal (c : Char)
  | shorthand (s : Shorthand) (negated : Bool)
  | property (p : Unicode.Property) (negated : Bool)
  | look (l : Look)
deriving DecidableEq, Repr

/-- The character of a number, if the number is one of a character. -/
def charOfNumber? (n : Nat) : Option Char :=
  if n.isValidChar then some (Char.ofNat n) else none

/-- Reads exactly `count` hexadecimal digits, the first of which is the first
character. -/
def readFixedHex (f : Flags) : Nat → Nat → List Char → Option (Char × List Char)
  | 0, value, cs => (charOfNumber? value).map (·, cs)
  | _ + 1, _, [] => none
  | count + 1, value, c :: rest => do
    let digit ← digitValue 16 c
    readFixedHex f count (16 * value + digit) (f.skip rest)

/-- Reads what stands before a closing brace, without blanks and comments in
verbose mode. -/
def readBraced (f : Flags) (cs : List Char) (held : List Char) :
    Option (List Char × List Char) :=
  match h : f.skip cs with
  | [] => none
  | c :: rest =>
    have := Flags.length_lt_of_skip h
    if c = '\x7d' then some (held.reverse, rest)
    else readBraced f rest (c :: held)
termination_by cs.length

theorem readBraced_of_skip {f : Flags} {cs rest : List Char} {c : Char} (held : List Char)
    (h : f.skip cs = c :: rest) :
    readBraced f cs held =
      if c = '\x7d' then some (held.reverse, rest) else readBraced f rest (c :: held) := by
  rw [readBraced]
  split <;> simp_all

/-- Whether `count` digits without braces may give a character. Two digits give
a byte, which without the Unicode flag is a character only if it is one of
ASCII. -/
def givesCharacter (f : Flags) (count : Nat) (c : Char) : Bool :=
  f.unicode || count ≠ 2 || Unicode.isAscii c

/-- Reads a hexadecimal number: `count` digits, or any digits in braces. -/
def readHex (f : Flags) (count : Nat) (cs : List Char) : Option (Char × List Char) :=
  match f.skip cs with
  | '\x7b' :: rest => do
    let (digits, rest) ← readBraced f rest []
    if digits = [] then none
    else
      let value ← numberValue 16 digits
      let c ← charOfNumber? value
      return (c, f.skip rest)
  | cs => (readFixedHex f count 0 cs).filter fun (c, _) => givesCharacter f count c

/-- The property that a text in braces asks for, and whether it asks for its
absence: `name`, `name=value`, `name:value` or `name!=value`. -/
def propertyOfText? (text : List Char) : Option (Unicode.Property × Bool) :=
  let unequal := text.findIdx? (· = '!') |>.filter fun i => text[i + 1]? = some '='
  match unequal with
  | some i => (Unicode.Property.ofValue? (text.take i) (text.drop (i + 2))).map (·, true)
  | none =>
    match text.findIdx? (· = ':') <|> text.findIdx? (· = '=') with
    | some i => (Unicode.Property.ofValue? (text.take i) (text.drop (i + 1))).map (·, false)
    | none => (Unicode.Property.ofName? text).map (·, false)

/-- Reads a property: one letter, or a text in braces. -/
def readProperty (f : Flags) (negated : Bool) (cs : List Char) :
    Option (Escape × List Char) :=
  match f.skip cs with
  | [] => none
  | '\x7b' :: rest => do
    let (text, rest) ← readBraced f rest []
    let (p, absent) ← propertyOfText? text
    return (.property p (negated != absent), rest)
  | c :: rest =>
    if c = '\\' then none
    else (Unicode.Property.ofName? [c]).map fun p => (.property p negated, rest)

/-- Reads the kind of a word bound in braces. If no letter or hyphen follows the
brace, the brace does not belong to the word bound. -/
def readWordBound (f : Flags) (cs : List Char) : Option (Look × List Char) :=
  let ascii := !f.unicode
  match cs with
  | '\x7b' :: rest =>
    match f.skip rest with
    | [] => none
    | c :: tail =>
      if c.isAlpha || c = '-' then do
        let (word, rest) ← readBraced f (c :: tail) []
        match String.ofList word with
        | "start" => some (.wordStart ascii, rest)
        | "end" => some (.wordEnd ascii, rest)
        | "start-half" => some (.wordStartHalf ascii, rest)
        | "end-half" => some (.wordEndHalf ascii, rest)
        | _ => none
      else some (.wordBound ascii, cs)
  | cs => some (.wordBound ascii, cs)

/-- The letters that stand for a control character. -/
def controlOf? : Char → Option Char
  | 'a' => some '\x07'
  | 'f' => some '\x0c'
  | 't' => some '\t'
  | 'n' => some '\n'
  | 'r' => some '\r'
  | 'v' => some '\x0b'
  | _ => none

/-- Reads an escape behind its backslash. -/
def readEscape (f : Flags) : List Char → Option (Escape × List Char)
  | [] => none
  | c :: rest =>
    let ascii := !f.unicode
    match c with
    | 'x' => (readHex f 2 rest).map fun (c, rest) => (.literal c, rest)
    | 'u' => (readHex f 4 rest).map fun (c, rest) => (.literal c, rest)
    | 'U' => (readHex f 8 rest).map fun (c, rest) => (.literal c, rest)
    | 'p' => readProperty f false rest
    | 'P' => readProperty f true rest
    | 'd' => some (.shorthand .digit false, rest)
    | 's' => some (.shorthand .space false, rest)
    | 'w' => some (.shorthand .word false, rest)
    | 'D' => some (.shorthand .digit true, rest)
    | 'S' => some (.shorthand .space true, rest)
    | 'W' => some (.shorthand .word true, rest)
    | 'A' => some (.look .textStart, rest)
    | 'z' => some (.look .textEnd, rest)
    | 'b' => (readWordBound f rest).map fun (l, rest) => (.look l, rest)
    | 'B' => some (.look (.notWordBound ascii), rest)
    | '<' => some (.look (.wordStart ascii), rest)
    | '>' => some (.look (.wordEnd ascii), rest)
    | c =>
      match controlOf? c with
      | some control => some (.literal control, rest)
      | none =>
        if Unicode.isAscii c && !c.isAlphanum then some (.literal c, rest) else none

/-! ## What is left to read -/

theorem length_le_of_readFixedHex {f : Flags} {count value : Nat}
    {cs rest : List Char} {c : Char}
    (h : readFixedHex f count value cs = some (c, rest)) : rest.length ≤ cs.length := by
  fun_induction readFixedHex f count value cs <;>
    grind [Option.map_eq_some_iff, Option.bind_eq_some_iff, Flags.length_skip_le]

theorem length_lt_of_readBraced {f : Flags} {cs held text rest : List Char}
    (h : readBraced f cs held = some (text, rest)) : rest.length < cs.length := by
  fun_induction readBraced f cs held <;> grind [Flags.length_lt_of_skip]

theorem length_le_of_readHex {f : Flags} {count : Nat} {cs rest : List Char} {c : Char}
    (h : readHex f count cs = some (c, rest)) : rest.length ≤ cs.length := by
  unfold readHex at h
  split at h
  · next braced hskip =>
    obtain ⟨⟨digits, tail⟩, hbraced, h⟩ := Option.bind_eq_some_iff.mp h
    have htail := length_lt_of_readBraced hbraced
    have hle := f.length_skip_le tail
    have hlt := Flags.length_lt_of_skip hskip
    dsimp only at h
    split at h
    · cases h
    · obtain ⟨value, -, h⟩ := Option.bind_eq_some_iff.mp h
      obtain ⟨d, -, h⟩ := Option.bind_eq_some_iff.mp h
      cases h
      omega
  · have hdigits := (Option.filter_eq_some_iff.mp h).1
    exact Nat.le_trans (length_le_of_readFixedHex hdigits) (f.length_skip_le cs)

theorem length_le_of_readProperty {f : Flags} {negated : Bool}
    {cs rest : List Char} {e : Escape}
    (h : readProperty f negated cs = some (e, rest)) : rest.length ≤ cs.length := by
  unfold readProperty at h
  split at h
  · cases h
  · next braced hskip =>
    obtain ⟨⟨text, tail⟩, hbraced, h⟩ := Option.bind_eq_some_iff.mp h
    obtain ⟨⟨p, absent⟩, -, h⟩ := Option.bind_eq_some_iff.mp h
    cases h
    exact Nat.le_of_lt
      (Nat.lt_trans (length_lt_of_readBraced hbraced) (Flags.length_lt_of_skip hskip))
  · next c tail _ hskip =>
    split at h
    · cases h
    · obtain ⟨p, -, heq⟩ := Option.map_eq_some_iff.mp h
      cases heq
      exact Nat.le_of_lt (Flags.length_lt_of_skip hskip)

theorem length_le_of_readWordBound {f : Flags} {cs rest : List Char} {l : Look}
    (h : readWordBound f cs = some (l, rest)) : rest.length ≤ cs.length := by
  unfold readWordBound at h
  dsimp only at h
  split at h
  · next braced =>
    split at h
    · cases h
    · next c tail hskip =>
      split at h
      · obtain ⟨⟨word, after⟩, hbraced, h⟩ := Option.bind_eq_some_iff.mp h
        have hafter := length_lt_of_readBraced hbraced
        have hle := f.length_skip_le braced
        rw [hskip] at hle
        dsimp only at h
        have hrest : rest = after := by
          split at h <;> cases h <;> rfl
        rw [hrest]
        exact Nat.le_succ_of_le (Nat.le_trans (Nat.le_of_lt hafter) hle)
      · cases h
        exact Nat.le_refl _
  · cases h
    exact Nat.le_refl _

theorem length_lt_of_readEscape {f : Flags} {cs rest : List Char} {e : Escape}
    (h : readEscape f cs = some (e, rest)) : rest.length < cs.length := by
  cases cs with
  | nil => cases h
  | cons c tail =>
    refine Nat.lt_succ_of_le ?_
    unfold readEscape at h
    dsimp only at h
    split at h
    case h_1 | h_2 | h_3 =>
      obtain ⟨⟨d, after⟩, hread, heq⟩ := Option.map_eq_some_iff.mp h
      cases heq
      exact length_le_of_readHex hread
    case h_4 | h_5 => exact length_le_of_readProperty h
    case h_14 =>
      obtain ⟨⟨l, after⟩, hread, heq⟩ := Option.map_eq_some_iff.mp h
      cases heq
      exact length_le_of_readWordBound hread
    case h_18 =>
      split at h
      · cases h
        exact Nat.le_refl _
      · split at h <;> cases h
        exact Nat.le_refl _
    all_goals
      cases h
      exact Nat.le_refl _

end UrlRouting.Regex
