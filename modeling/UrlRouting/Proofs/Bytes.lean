import Mathlib.Data.String.Basic
import UrlRouting.Text.Bytes

/-!
# The bytes of a text

In UTF-8 a character of one byte is its own byte, and all other characters take
bytes that are no such character. So where the byte of a bracket or a colon
stands, the character stands, and the text before it takes the bytes before it.

Main statements: `byteIs_iff`, `existsUnique_byteIs_iff`, `encoded_prefix_iff`,
`byteIs_and_byteIs_iff`.
-/

namespace UrlRouting

/-- The text in UTF-8. -/
def encoded (text : List Char) : List UInt8 :=
  text.flatMap String.utf8EncodeChar

/-- The byte of a character stands at a byte offset of a text. -/
def ByteIs (text : String) (position : Nat) (c : Char) : Prop :=
  text.toUTF8.data[position]? = some c.toUInt8

theorem encoded_append (xs ys : List Char) :
    encoded (xs ++ ys) = encoded xs ++ encoded ys :=
  List.flatMap_append

theorem length_encoded (text : List Char) : (encoded text).length = byteCount text := by
  induction text with
  | nil => rfl
  | cons c rest ih =>
    rw [encoded, List.flatMap_cons, List.length_append, String.length_utf8EncodeChar]
    exact congrArg (c.utf8Size + ·) ih

theorem toList_data_toUTF8 (text : String) :
    text.toUTF8.data.toList = encoded text.toList := by
  rw [← List.toList_data_toByteArray (l := encoded text.toList)]
  exact congrArg (fun bytes => bytes.data.toList) (String.utf8Encode_toList (b := text)).symm

theorem byteIs_iff_getElem? {text : String} {position : Nat} {c : Char} :
    ByteIs text position c ↔ (encoded text.toList)[position]? = some c.toUInt8 := by
  rw [← toList_data_toUTF8, Array.getElem?_toList]
  rfl

/-! ## Characters of one byte -/

section

variable {c : Char} (hc : c.utf8Size = 1)

include hc

theorem mem_utf8EncodeChar_iff {d : Char} :
    c.toUInt8 ∈ String.utf8EncodeChar d ↔ d = c := by
  have hsmall : c.val.toNat ≤ 127 := by
    have hval := Char.utf8Size_eq_one_iff.mp hc
    exact UInt32.le_iff_toNat_le.mp hval
  have hchar : d = c ↔ d.val.toNat = c.val.toNat := by
    rw [UInt32.toNat_inj, ← Char.ext_iff]
  have hbyte : ∀ n : Nat, c.toUInt8 = UInt8.ofNat n ↔ c.val.toNat = n % 256 := by
    intro n
    rw [← UInt8.toNat_inj, UInt8.toNat_ofNat']
    show c.val.toUInt8.toNat = _ ↔ _
    rw [UInt32.toNat_toUInt8, Nat.mod_eq_of_lt (by omega)]
  rw [hchar]
  unfold String.utf8EncodeChar
  dsimp only
  -- every byte of a longer character is at least 128
  repeat' split
  all_goals
    simp only [List.mem_cons, List.not_mem_nil, or_false, hbyte]
    omega

theorem mem_encoded_iff {text : List Char} : c.toUInt8 ∈ encoded text ↔ c ∈ text := by
  unfold encoded
  simp only [List.mem_flatMap, mem_utf8EncodeChar_iff hc]
  exact ⟨fun ⟨d, hmem, heq⟩ => heq ▸ hmem, fun hmem => ⟨c, hmem, rfl⟩⟩

/-- Where its byte stands, the character stands. -/
theorem getElem?_encoded_iff {text : List Char} {position : Nat} :
    (encoded text)[position]? = some c.toUInt8 ↔
      ∃ before after, text = before ++ c :: after ∧ position = byteCount before := by
  constructor
  · intro h
    induction text generalizing position with
    | nil => cases h
    | cons d rest ih =>
      have hsplit : encoded (d :: rest) = String.utf8EncodeChar d ++ encoded rest :=
        List.flatMap_cons
      rw [hsplit] at h
      by_cases hposition : position < (String.utf8EncodeChar d).length
      · rw [List.getElem?_append_left hposition] at h
        obtain rfl := (mem_utf8EncodeChar_iff hc).mp (List.mem_of_getElem? h)
        rw [String.length_utf8EncodeChar, hc] at hposition
        exact ⟨[], rest, rfl, by rw [byteCount_nil]; omega⟩
      · rw [List.getElem?_append_right (by omega)] at h
        rw [String.length_utf8EncodeChar] at h hposition
        obtain ⟨before, after, rfl, hbefore⟩ := ih h
        refine ⟨d :: before, after, rfl, ?_⟩
        rw [byteCount_cons]
        omega
  · rintro ⟨before, after, rfl, rfl⟩
    have hsplit : encoded (c :: after) = c.toUInt8 :: encoded after := by
      rw [encoded, List.flatMap_cons, String.utf8EncodeChar_eq_singleton hc]
      rfl
    rw [encoded_append, List.getElem?_append_right (by rw [length_encoded]), length_encoded,
      Nat.sub_self, hsplit]
    rfl

theorem byteIs_iff {text : String} {position : Nat} :
    ByteIs text position c ↔
      ∃ before after, text.toList = before ++ c :: after ∧ position = byteCount before := by
  rw [byteIs_iff_getElem?, getElem?_encoded_iff hc]

/-- A character of one byte stands in a part of a text if its byte stands there. -/
theorem mem_iff_exists_byteIs {text : String} {before middle after : List Char}
    (h : text.toList = before ++ middle ++ after) :
    c ∈ middle ↔ ∃ position, byteCount before ≤ position ∧
      position < byteCount (before ++ middle) ∧ ByteIs text position c := by
  constructor
  · intro hmem
    obtain ⟨first, second, rfl⟩ := List.append_of_mem hmem
    refine ⟨byteCount (before ++ first), ?_, ?_, ?_⟩
    · simp
    · simp [hc]
    · exact (byteIs_iff hc).mpr ⟨before ++ first, second ++ after, by rw [h]; simp, rfl⟩
  · rintro ⟨position, hfrom, hto, hbyte⟩
    rw [byteIs_iff_getElem?, h, encoded_append,
      List.getElem?_append_left (by rwa [length_encoded]), encoded_append,
      List.getElem?_append_right (by rwa [length_encoded])] at hbyte
    exact (mem_encoded_iff hc).mp (List.mem_of_getElem? hbyte)

/-- A character stands in a part of a text once if its byte does. -/
theorem existsUnique_byteIs_iff {text : String} {before middle after : List Char}
    (h : text.toList = before ++ middle ++ after) :
    (∃! position, byteCount before ≤ position ∧ position < byteCount (before ++ middle) ∧
        ByteIs text position c) ↔
      ∃ first second, middle = first ++ c :: second ∧ c ∉ first ∧ c ∉ second := by
  have hbyte : ∀ first second, middle = first ++ c :: second →
      byteCount before ≤ byteCount (before ++ first) ∧
        byteCount (before ++ first) < byteCount (before ++ middle) ∧
          ByteIs text (byteCount (before ++ first)) c := by
    rintro first second rfl
    refine ⟨by simp, by simp [hc], (byteIs_iff hc).mpr ⟨_, second ++ after, ?_, rfl⟩⟩
    rw [h]
    simp
  constructor
  · rintro ⟨position, hposition, hunique⟩
    have hmem := (mem_iff_exists_byteIs hc h).mpr ⟨position, hposition⟩
    obtain ⟨first, second, hfirst, hnot⟩ := List.eq_append_cons_of_mem hmem
    refine ⟨first, second, hfirst, hnot, fun hmem' => ?_⟩
    -- a second one would stand further back
    obtain ⟨more, rest, rfl⟩ := List.append_of_mem hmem'
    have heq := (hunique _ (hbyte first _ hfirst)).trans
      (hunique _ (hbyte (first ++ c :: more) rest (by rw [hfirst]; simp))).symm
    simp [hc] at heq
  · rintro ⟨first, second, hmiddle, hfirst, hsecond⟩
    refine ⟨byteCount (before ++ first), hbyte first second hmiddle, ?_⟩
    rintro position ⟨hfrom, hto, hposition⟩
    rcases Nat.lt_trichotomy position (byteCount (before ++ first)) with hlt | heq | hgt
    · have hsplit : text.toList = before ++ first ++ (c :: second ++ after) := by
        rw [h, hmiddle]
        simp
      exact absurd ((mem_iff_exists_byteIs hc hsplit).mpr ⟨position, hfrom, hlt, hposition⟩) hfirst
    · exact heq
    · have hsplit : text.toList = (before ++ first ++ [c]) ++ second ++ after := by
        rw [h, hmiddle]
        simp
      refine absurd ((mem_iff_exists_byteIs hc hsplit).mpr ⟨position, ?_, ?_, hposition⟩) hsecond
      · rw [byteCount_append, byteCount_cons, byteCount_nil, hc]
        omega
      · rw [hmiddle] at hto
        simpa using hto

end

/-- One text begins with another exactly if its bytes begin with the bytes of
the other. -/
theorem encoded_prefix_iff {xs ys : List Char} :
    encoded xs <+: encoded ys ↔ xs <+: ys := by
  constructor
  · intro h
    induction xs generalizing ys with
    | nil => exact List.nil_prefix
    | cons c rest ih =>
      obtain ⟨more, hmore⟩ := h
      rw [encoded, List.flatMap_cons, List.append_assoc] at hmore
      cases ys with
      | nil =>
        rw [encoded, List.flatMap_nil, List.append_eq_nil_iff] at hmore
        exact absurd hmore.1 String.utf8EncodeChar_ne_nil
      | cons d others =>
        rw [encoded, List.flatMap_cons] at hmore
        -- the first character is what its bytes decode to, whatever stands behind them
        have hdecode := congrArg (fun bytes => bytes.toByteArray.utf8DecodeChar? 0) hmore
        simp only [List.toByteArray_append, ByteArray.utf8DecodeChar?_utf8EncodeChar_append]
          at hdecode
        obtain rfl := Option.some.inj hdecode
        exact List.cons_prefix_cons.mpr ⟨rfl, ih ⟨more, List.append_cancel_left hmore⟩⟩
  · rintro ⟨more, rfl⟩
    exact ⟨encoded more, (encoded_append xs more).symm⟩

/-! ## Two offsets -/

theorem byteCount_eq_zero_iff {text : List Char} : byteCount text = 0 ↔ text = [] := by
  cases text with
  | nil => simp
  | cons c rest =>
    have hpos := c.utf8Size_pos
    simp
    omega

/-- A byte offset cuts a text in one way. -/
theorem append_inj_of_byteCount {before before' after after' : List Char}
    (h : before ++ after = before' ++ after')
    (hcount : byteCount before = byteCount before') :
    before = before' ∧ after = after' := by
  rcases List.append_eq_append_iff.mp h with ⟨more, rfl, rfl⟩ | ⟨more, rfl, rfl⟩
  · rw [byteCount_append] at hcount
    obtain rfl := byteCount_eq_zero_iff.mp (by omega : byteCount more = 0)
    simp
  · rw [byteCount_append] at hcount
    obtain rfl := byteCount_eq_zero_iff.mp (by omega : byteCount more = 0)
    simp

theorem byteIs_and_byteIs_iff {text : String} {first second : Nat} {c d : Char}
    (hc : c.utf8Size = 1) (hd : d.utf8Size = 1) :
    (first < second ∧ ByteIs text first c ∧ ByteIs text second d) ↔
      ∃ before inner after, text.toList = before ++ c :: (inner ++ d :: after) ∧
        first = byteCount before ∧ second = byteCount (before ++ c :: inner) := by
  constructor
  · rintro ⟨hlt, hfirst, hsecond⟩
    obtain ⟨before, rest, htext, rfl⟩ := (byteIs_iff hc).mp hfirst
    obtain ⟨before', after, htext', rfl⟩ := (byteIs_iff hd).mp hsecond
    rcases List.append_eq_append_iff.mp (htext.symm.trans htext') with
      ⟨more, rfl, hmore⟩ | ⟨more, rfl, -⟩
    · cases more with
      | nil =>
        rw [List.append_nil] at hlt
        exact absurd hlt (Nat.lt_irrefl _)
      | cons c' inner =>
        obtain ⟨rfl, rfl⟩ := List.cons.inj hmore
        exact ⟨before, inner, after, htext, rfl, rfl⟩
    · rw [byteCount_append] at hlt
      omega
  · rintro ⟨before, inner, after, htext, rfl, rfl⟩
    refine ⟨by simp [hc], (byteIs_iff hc).mpr ⟨before, _, htext, rfl⟩, ?_⟩
    exact (byteIs_iff hd).mpr ⟨before ++ c :: inner, after, by rw [htext]; simp, rfl⟩

end UrlRouting
