/-
Bytes read as text, and the text written again.

* `chunksOf?_eq_some` — the pieces of a sequence have one length and make up the sequence;
* `Text.scalar?_eq_some_iff` — the characters are numbered by their code points;
* `Text.utf16_of_ofUtf16?`, `Text.utf32_of_ofUtf32?` — text is written in the units it was read
  from;
* `Text.IsAscii` — bytes that are characters of their own in UTF-8;
* `Text.utf8_latin1_eq_iff` — bytes read one character each are written as they were only if they
  are ASCII; otherwise there are more of them.

Design notes: a surrogate outside of a pair has no character, so the units of a text determine how
they are grouped.
-/
import Mathlib.Data.List.Basic
import StructuralMatching.Text.Encoding

namespace StructuralMatching

/-! ### Pieces of one length -/

theorem chunksOf?_eq_some {α : Type} {size : Nat} {items : List α} {pieces : List (List α)}
    (h : chunksOf? size items = some pieces) :
    pieces.flatten = items ∧ ∀ piece ∈ pieces, piece.length = size := by
  induction items using chunksOf?.induct size generalizing pieces with
  | case1 =>
    rw [chunksOf?, if_pos rfl] at h
    cases h
    exact ⟨rfl, fun piece hp => nomatch hp⟩
  | case2 items hne hsize ih =>
    rw [chunksOf?, if_neg hne, dif_pos hsize] at h
    obtain ⟨more, hmore, rfl⟩ := Option.map_eq_some_iff.mp h
    obtain ⟨hflat, hlen⟩ := ih hmore
    constructor
    · rw [List.flatten_cons, hflat, List.take_append_drop]
    · intro piece hp
      rcases List.mem_cons.mp hp with rfl | hp
      · exact List.length_take_of_le hsize.2
      · exact hlen piece hp
  | case3 items hne hsize =>
    rw [chunksOf?, if_neg hne, dif_neg hsize] at h
    cases h

/-- Numbers read from pieces of bytes are written as the same bytes. -/
theorem ByteOrder.flatMap_encode_decode (order : ByteOrder) {size : Nat} {bytes : List UInt8}
    {pieces : List (List UInt8)} (h : chunksOf? size bytes = some pieces) :
    (pieces.map order.decode).flatMap (order.encode size) = bytes := by
  obtain ⟨hflat, hlen⟩ := chunksOf?_eq_some h
  have hpiece : ∀ piece ∈ pieces, order.encode size (order.decode piece) = piece := by
    intro piece hp
    have hd := order.encode_decode piece
    rwa [hlen piece hp] at hd
  rw [List.flatMap_map, List.flatMap_congr hpiece, List.flatMap_id', hflat]

namespace Text

/-! ### Characters and units -/

theorem toNat_ofNat {n : Nat} (h : n.isValidChar) : (Char.ofNat n).toNat = n := by
  rw [Char.ofNat, dif_pos h]
  rfl

theorem scalar?_eq_some_iff {n : Nat} {c : Char} : scalar? n = some c ↔ c.toNat = n := by
  rw [scalar?]
  constructor
  · intro h
    split at h
    · rename_i hvalid
      cases h
      exact toNat_ofNat hvalid
    · cases h
  · rintro rfl
    rw [if_pos (show c.toNat.isValidChar from c.valid), Char.ofNat_toNat]

theorem utf16Units_of_lt {c : Char} (h : c.toNat < 0x10000) : utf16Units c = [c.toNat] := if_pos h

theorem utf16Units_of_pair {c : Char} {high low : Nat} (hhigh : isHighSurrogate high)
    (hlow : isLowSurrogate low)
    (hc : c.toNat = 0x10000 + (high - 0xD800) * 0x400 + (low - 0xDC00)) :
    utf16Units c = [high, low] := by
  simp only [isHighSurrogate, isLowSurrogate, Bool.and_eq_true, decide_eq_true_eq] at hhigh hlow
  have hdiv : (c.toNat - 0x10000) / 0x400 = high - 0xD800 := by omega
  have hmod : (c.toNat - 0x10000) % 0x400 = low - 0xDC00 := by omega
  rw [utf16Units, if_neg (by omega), hdiv, hmod, Nat.add_sub_cancel' hhigh.1,
    Nat.add_sub_cancel' hlow.1]

theorem flatMap_utf16Units {units : List Nat} {chars : List Char}
    (h : charsOfUtf16? units = some chars) (hunits : ∀ unit ∈ units, unit < 0x10000) :
    chars.flatMap utf16Units = units := by
  -- A character is read from one unit or from a pair, and these are the units it is written in.
  induction units using charsOfUtf16?.induct generalizing chars with
  | case1 => cases h; rfl
  | case2 unit =>
    obtain ⟨c, hc, rfl⟩ := Option.map_eq_some_iff.mp h
    rw [scalar?_eq_some_iff] at hc
    have hlt := hunits unit List.mem_cons_self
    rw [List.flatMap_singleton, utf16Units_of_lt (by omega), hc]
  | case3 high low rest hpair ih =>
    rw [charsOfUtf16?, if_pos hpair] at h
    obtain ⟨c, hc, h⟩ := Option.bind_eq_some_iff.mp h
    obtain ⟨more, hmore, h⟩ := Option.bind_eq_some_iff.mp h
    cases h
    rw [scalar?_eq_some_iff] at hc
    rw [Bool.and_eq_true] at hpair
    have hrest := ih hmore fun unit hu =>
      hunits unit (List.mem_cons_of_mem _ (List.mem_cons_of_mem _ hu))
    rw [List.flatMap_cons, utf16Units_of_pair hpair.1 hpair.2 hc, hrest]
    rfl
  | case4 high low rest hpair ih =>
    rw [charsOfUtf16?, if_neg hpair] at h
    obtain ⟨c, hc, h⟩ := Option.bind_eq_some_iff.mp h
    obtain ⟨more, hmore, h⟩ := Option.bind_eq_some_iff.mp h
    cases h
    rw [scalar?_eq_some_iff] at hc
    have hlt := hunits high List.mem_cons_self
    have hrest := ih hmore fun unit hu => hunits unit (List.mem_cons_of_mem _ hu)
    rw [List.flatMap_cons, utf16Units_of_lt (by omega), hc, hrest]
    rfl

/-- Text is written in the UTF-16 units it was read from. -/
theorem utf16_of_ofUtf16? {units : List Nat} {s : String} (h : ofUtf16? units = some s)
    (hunits : ∀ unit ∈ units, unit < 0x10000) : utf16 s = units := by
  obtain ⟨chars, hchars, rfl⟩ := Option.map_eq_some_iff.mp h
  rw [utf16, String.toList_ofList, flatMap_utf16Units hchars hunits]

theorem map_toNat_of_mapM_scalar? {units : List Nat} {chars : List Char}
    (h : units.mapM scalar? = some chars) : chars.map Char.toNat = units := by
  induction units generalizing chars with
  | nil => cases h; rfl
  | cons unit rest ih =>
    rw [List.mapM_cons] at h
    obtain ⟨c, hc, h⟩ := Option.bind_eq_some_iff.mp h
    obtain ⟨more, hmore, h⟩ := Option.bind_eq_some_iff.mp h
    cases h
    rw [List.map_cons, scalar?_eq_some_iff.mp hc, ih hmore]

/-- Text is written in the code points it was read from. -/
theorem utf32_of_ofUtf32? {units : List Nat} {s : String} (h : ofUtf32? units = some s) :
    utf32 s = units := by
  obtain ⟨chars, hchars, rfl⟩ := Option.map_eq_some_iff.mp h
  rw [utf32, String.toList_ofList, map_toNat_of_mapM_scalar? hchars]

/-! ### Bytes as characters -/

/-- All bytes are ASCII characters. -/
def IsAscii (bytes : List UInt8) : Prop := ∀ b ∈ bytes, b < 0x80

instance (bytes : List UInt8) : Decidable (IsAscii bytes) := List.decidableBAll (· < 0x80) bytes

theorem toNat_ofNat_byte (b : UInt8) : (Char.ofNat b.toNat).toNat = b.toNat := by
  have hb := b.toNat_lt
  exact toNat_ofNat (.inl (by omega))

theorem utf8_latin1 (bytes : List UInt8) :
    utf8 (latin1 bytes) = bytes.flatMap fun b => String.utf8EncodeChar (Char.ofNat b.toNat) := by
  rw [utf8, latin1, String.toList_ofList, List.flatMap_map]

theorem utf8EncodeChar_of_lt {b : UInt8} (h : b < 0x80) :
    String.utf8EncodeChar (Char.ofNat b.toNat) = [b] := by
  have hlt : b.toNat < 128 := UInt8.lt_iff_toNat_lt.mp h
  have hc : (Char.ofNat b.toNat).val.toNat = b.toNat := toNat_ofNat_byte b
  have hsize : (Char.ofNat b.toNat).utf8Size = 1 := by
    rw [Char.utf8Size_eq_one_iff, UInt32.le_iff_toNat_le, hc]
    show b.toNat ≤ 127
    omega
  rw [String.utf8EncodeChar_eq_singleton hsize]
  congr 1
  apply UInt8.toNat_inj.mp
  rw [UInt32.toNat_toUInt8, hc]
  omega

theorem length_utf8EncodeChar_of_le {b : UInt8} (h : 0x80 ≤ b) :
    (String.utf8EncodeChar (Char.ofNat b.toNat)).length = 2 := by
  have hle : 128 ≤ b.toNat := UInt8.le_iff_toNat_le.mp h
  have hlt := b.toNat_lt
  have hc : (Char.ofNat b.toNat).val.toNat = b.toNat := toNat_ofNat_byte b
  rw [String.length_utf8EncodeChar, Char.utf8Size_eq_two_iff, UInt32.lt_iff_toNat_lt,
    UInt32.le_iff_toNat_le, hc]
  exact ⟨show 127 < b.toNat by omega, show b.toNat ≤ 2047 by omega⟩

/-- Every byte that is not ASCII is written as two. -/
theorem length_utf8_latin1 (bytes : List UInt8) :
    (utf8 (latin1 bytes)).length = bytes.length + bytes.countP (0x80 ≤ ·) := by
  rw [utf8_latin1]
  induction bytes with
  | nil => rfl
  | cons b rest ih =>
    rw [List.flatMap_cons, List.length_append, ih, List.length_cons, List.countP_cons]
    by_cases hb : b < 0x80
    · have hle : ¬0x80 ≤ b := UInt8.not_le.mpr hb
      rw [utf8EncodeChar_of_lt hb, if_neg (by simpa using hle)]
      simp only [List.length_singleton]
      omega
    · have hle : 0x80 ≤ b := UInt8.not_lt.mp hb
      rw [length_utf8EncodeChar_of_le hle, if_pos (by simpa using hle)]
      omega

theorem utf8_latin1_of_isAscii {bytes : List UInt8} (h : IsAscii bytes) :
    utf8 (latin1 bytes) = bytes := by
  rw [utf8_latin1, List.flatMap_congr fun b hb => utf8EncodeChar_of_lt (h b hb)]
  exact List.flatMap_singleton' bytes

theorem length_lt_utf8_latin1 {bytes : List UInt8} (h : ¬IsAscii bytes) :
    bytes.length < (utf8 (latin1 bytes)).length := by
  simp only [IsAscii, not_forall] at h
  obtain ⟨b, hb, hnot⟩ := h
  have hcount : 0 < bytes.countP (0x80 ≤ ·) :=
    List.countP_pos_iff.mpr ⟨b, hb, by simpa using UInt8.not_lt.mp hnot⟩
  rw [length_utf8_latin1]
  omega

/-- **Bytes read one character each are written as they were only if they are ASCII.** -/
theorem utf8_latin1_eq_iff {bytes : List UInt8} : utf8 (latin1 bytes) = bytes ↔ IsAscii bytes := by
  refine ⟨fun h => ?_, utf8_latin1_of_isAscii⟩
  by_contra hnot
  have hlt := length_lt_utf8_latin1 hnot
  rw [h] at hlt
  exact Nat.lt_irrefl _ hlt

end Text

end StructuralMatching
