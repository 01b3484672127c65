/-
Wide units of text: their bytes, and which of them have no characters.

* `piecesOf`, `chunksOf?_eq` — a sequence can be cut into pieces of one length if this divides its
  length;
* `ByteOrder.units`, `ByteOrder.chunksOf?_flatMap_encode` — the numbers in a byte sequence;
* `Text.IsScalar` — the numbers that are code points of characters;
* `Text.IsUnpaired`, `Text.charsOfUtf16?_eq_none_iff` — units of 16 bits have no characters if one
  of them is a surrogate outside of a pair;
* `Text.ofUtf16?_utf16`, `Text.ofUtf32?_utf32` — text is read from the units it was written in.

Design notes: whether a surrogate has its other half is said by its position alone, without regard
to how the units before it were grouped.  No unit is both a high and a low surrogate, so this comes
to the same.
-/
import StructuralMatching.Proofs.Text.RoundTrip

namespace StructuralMatching

/-! ### Pieces of one length -/

/-- Pieces of `size` elements, as many as there are. -/
def piecesOf {α : Type} (size : Nat) (items : List α) : List (List α) :=
  (List.range (items.length / size)).map fun k => (items.drop (size * k)).take size

theorem piecesOf_of_le {α : Type} {size : Nat} {items : List α} (hsize : 0 < size)
    (h : size ≤ items.length) :
    piecesOf size items = items.take size :: piecesOf size (items.drop size) := by
  rw [piecesOf, Nat.div_eq_sub_div hsize h, List.range_succ_eq_map, List.map_cons, List.map_map,
    piecesOf, List.length_drop]
  refine congrArg₂ List.cons rfl (List.map_congr_left fun k _ => ?_)
  show (items.drop (size * (k + 1))).take size = _
  rw [List.drop_drop, Nat.mul_succ, Nat.add_comm]

/-- A sequence is cut into these pieces if nothing is left over. -/
theorem chunksOf?_eq {α : Type} {size : Nat} (hsize : 0 < size) (items : List α) :
    chunksOf? size items = if size ∣ items.length then some (piecesOf size items) else none := by
  induction items using chunksOf?.induct size with
  | case1 =>
    have hdvd : size ∣ ([] : List α).length := Nat.dvd_zero size
    rw [chunksOf?, if_pos rfl, if_pos hdvd, piecesOf, List.length_nil, Nat.zero_div]
    rfl
  | case2 items hne h ih =>
    have hdvd : size ∣ (items.drop size).length ↔ size ∣ items.length := by
      rw [List.length_drop]
      exact Nat.dvd_sub_iff_left h.2 (Nat.dvd_refl size)
    rw [chunksOf?, if_neg hne, dif_pos h, ih, if_congr hdvd rfl rfl, piecesOf_of_le hsize h.2]
    split <;> rfl
  | case3 items hne h =>
    have hlt : items.length < size := by
      by_contra hge
      exact h ⟨hsize, Nat.not_lt.mp hge⟩
    have hpos := List.length_pos_iff.mpr hne
    rw [chunksOf?, if_neg hne, dif_neg h, if_neg (Nat.not_dvd_of_pos_of_lt hpos hlt)]

/-- Pieces of one length are found again in what they make up. -/
theorem chunksOf?_flatten {α : Type} {size : Nat} (hsize : 0 < size) {pieces : List (List α)}
    (h : ∀ piece ∈ pieces, piece.length = size) : chunksOf? size pieces.flatten = some pieces := by
  induction pieces with
  | nil =>
    rw [List.flatten_nil, chunksOf?, if_pos rfl]
  | cons piece rest ih =>
    obtain ⟨hpiece, hrest⟩ := List.forall_mem_cons.mp h
    have hle : size ≤ (piece ++ rest.flatten).length := by
      rw [List.length_append, hpiece]
      exact Nat.le_add_right _ _
    have hne : piece ++ rest.flatten ≠ [] := List.length_pos_iff.mp (Nat.lt_of_lt_of_le hsize hle)
    rw [List.flatten_cons, chunksOf?, if_neg hne, dif_pos ⟨hsize, hle⟩, List.drop_left' hpiece,
      List.take_left' hpiece, ih hrest]
    rfl

namespace ByteOrder

variable {order : ByteOrder} {size : Nat}

/-- The numbers of `size` bytes each that a byte sequence stands for. -/
def units (order : ByteOrder) (size : Nat) (bytes : List UInt8) : List Nat :=
  (piecesOf size bytes).map order.decode

theorem lt_of_mem_units (hsize : 0 < size) {bytes : List UInt8} (hdvd : size ∣ bytes.length)
    {unit : Nat} (h : unit ∈ order.units size bytes) : unit < 256 ^ size := by
  obtain ⟨piece, hpiece, rfl⟩ := List.mem_map.mp h
  have hchunks := (chunksOf?_eq hsize bytes).trans (if_pos hdvd)
  have hlt := order.decode_lt piece
  rwa [(chunksOf?_eq_some hchunks).2 piece hpiece] at hlt

/-- Numbers that have room in `size` bytes each are read from the bytes they were written in. -/
theorem chunksOf?_flatMap_encode (hsize : 0 < size) {numbers : List Nat}
    (h : ∀ n ∈ numbers, n < 256 ^ size) :
    (chunksOf? size (numbers.flatMap (order.encode size))).map (List.map order.decode) =
      some numbers := by
  have hlen : ∀ piece ∈ numbers.map (order.encode size), piece.length = size := by
    intro piece hpiece
    obtain ⟨n, _, rfl⟩ := List.mem_map.mp hpiece
    exact order.length_encode size n
  have hread : numbers.map (order.decode ∘ order.encode size) = numbers.map id := by
    refine List.map_congr_left fun n hn => ?_
    exact (order.decode_encode size n).trans (Nat.mod_eq_of_lt (h n hn))
  rw [List.flatMap_def, chunksOf?_flatten hsize hlen, Option.map_some, List.map_map, hread,
    List.map_id]

end ByteOrder

namespace Text

/-! ### Code points -/

/-- The numbers that are code points of characters: all up to `0x10FFFF` but the surrogates. -/
def IsScalar (n : Nat) : Prop := n ≤ 0x10FFFF ∧ ¬(0xD800 ≤ n ∧ n ≤ 0xDFFF)

theorem isScalar_toNat (c : Char) : IsScalar c.toNat := by
  have hvalid : c.toNat.isValidChar := c.valid
  rw [Nat.isValidChar] at hvalid
  rw [IsScalar]
  omega

theorem exists_scalar? {n : Nat} (h : IsScalar n) : ∃ c, scalar? n = some c := by
  refine ⟨_, if_pos ?_⟩
  rw [IsScalar] at h
  rw [Nat.isValidChar]
  omega

theorem exists_toNat_eq_iff {n : Nat} : (∃ c : Char, c.toNat = n) ↔ IsScalar n := by
  constructor
  · rintro ⟨c, rfl⟩
    exact isScalar_toNat c
  · intro h
    obtain ⟨c, hc⟩ := exists_scalar? h
    exact ⟨c, scalar?_eq_some_iff.mp hc⟩

theorem exists_toNat_cast_eq_iff {z : Int} :
    (∃ c : Char, (c.toNat : Int) = z) ↔ ∃ k : Nat, (k : Int) = z ∧ IsScalar k := by
  constructor
  · rintro ⟨c, hc⟩
    exact ⟨c.toNat, hc, isScalar_toNat c⟩
  · rintro ⟨k, hk, hscalar⟩
    obtain ⟨c, rfl⟩ := exists_toNat_eq_iff.mpr hscalar
    exact ⟨c, hk⟩

theorem scalar?_eq_none_iff {n : Nat} : scalar? n = none ↔ ¬IsScalar n := by
  rw [← exists_toNat_eq_iff, Option.eq_none_iff_forall_ne_some, not_exists]
  exact forall_congr' fun c => not_congr scalar?_eq_some_iff

theorem scalar?_toNat (c : Char) : scalar? c.toNat = some c := scalar?_eq_some_iff.mpr rfl

/-! ### Units of 16 bits -/

def IsHighAt (units : List Nat) (k : Nat) : Prop := units[k]?.any isHighSurrogate

def IsLowAt (units : List Nat) (k : Nat) : Prop := units[k]?.any isLowSurrogate

/-- The unit at `k` is a surrogate outside of a pair: a high one without a low one after it, or a
low one without a high one before it. -/
def IsUnpaired (units : List Nat) (k : Nat) : Prop :=
  IsHighAt units k ∧ ¬IsLowAt units (k + 1) ∨
  IsLowAt units k ∧ (k = 0 ∨ ¬IsHighAt units (k - 1))

theorem isHighSurrogate_iff {unit : Nat} :
    isHighSurrogate unit = true ↔ 0xD800 ≤ unit ∧ unit < 0xDC00 := by
  rw [isHighSurrogate, Bool.and_eq_true, decide_eq_true_iff, decide_eq_true_iff]

theorem isLowSurrogate_iff {unit : Nat} :
    isLowSurrogate unit = true ↔ 0xDC00 ≤ unit ∧ unit < 0xE000 := by
  rw [isLowSurrogate, Bool.and_eq_true, decide_eq_true_iff, decide_eq_true_iff]

theorem not_isHighSurrogate_of_isLow {unit : Nat} (h : isLowSurrogate unit) :
    ¬isHighSurrogate unit := by
  rw [isLowSurrogate_iff] at h
  rw [isHighSurrogate_iff]
  omega

theorem not_isScalar_iff_of_lt {unit : Nat} (h : unit < 0x10000) :
    ¬IsScalar unit ↔ isHighSurrogate unit ∨ isLowSurrogate unit := by
  rw [isHighSurrogate_iff, isLowSurrogate_iff, IsScalar]
  omega

section

variable {unit : Nat} {rest : List Nat}

/-- A unit before all others pairs with the first of them only. -/
theorem isUnpaired_cons_succ_iff {k : Nat} (h : k ≠ 0 ∨ ¬isHighSurrogate unit) :
    IsUnpaired (unit :: rest) (k + 1) ↔ IsUnpaired rest k := by
  refine or_congr Iff.rfl (and_congr_right fun _ => ?_)
  cases k with
  | zero =>
    have hunit : ¬isHighSurrogate unit := h.resolve_left (by simp)
    exact iff_of_true (.inr hunit) (.inl rfl)
  | succ k => exact or_congr (by simp) Iff.rfl

theorem isUnpaired_cons_zero_iff : IsUnpaired (unit :: rest) 0 ↔
    isHighSurrogate unit ∧ ¬IsLowAt rest 0 ∨ isLowSurrogate unit :=
  or_congr Iff.rfl (and_iff_left (.inl rfl))

/-- A unit is a character of its own unless it begins a pair. -/
theorem charsOfUtf16?_cons (h : ¬(isHighSurrogate unit ∧ IsLowAt rest 0)) :
    charsOfUtf16? (unit :: rest) =
      (scalar? unit).bind fun c => (charsOfUtf16? rest).map (c :: ·) := by
  cases rest with
  | nil => exact Option.map_eq_bind
  | cons low rest =>
    have hpair : ¬((isHighSurrogate unit && isLowSurrogate low) = true) := by
      rw [Bool.and_eq_true]
      exact h
    rw [charsOfUtf16?, if_neg hpair]
    simp only [Option.map_eq_bind]
    rfl

/-- A pair of surrogates is one character. -/
theorem charsOfUtf16?_pair {high low : Nat} (hhigh : isHighSurrogate high)
    (hlow : isLowSurrogate low) {c : Char}
    (hc : c.toNat = 0x10000 + (high - 0xD800) * 0x400 + (low - 0xDC00)) :
    charsOfUtf16? (high :: low :: rest) = (charsOfUtf16? rest).map (c :: ·) := by
  have hpair : (isHighSurrogate high && isLowSurrogate low) = true := by
    rw [hhigh, hlow]
    rfl
  rw [charsOfUtf16?, if_pos hpair, scalar?_eq_some_iff.mpr hc, Option.map_eq_bind]
  rfl

theorem exists_char_of_pair {high low : Nat} (hhigh : isHighSurrogate high)
    (hlow : isLowSurrogate low) :
    ∃ c : Char, c.toNat = 0x10000 + (high - 0xD800) * 0x400 + (low - 0xDC00) := by
  rw [isHighSurrogate_iff] at hhigh
  rw [isLowSurrogate_iff] at hlow
  rw [exists_toNat_eq_iff, IsScalar]
  omega

end

theorem not_isUnpaired_nil (k : Nat) : ¬IsUnpaired [] k := by
  rintro (⟨⟨⟩, _⟩ | ⟨⟨⟩, _⟩)

/-- The units after one that begins no pair are unpaired or not as they would be without it. -/
theorem charsOfUtf16?_cons_eq_none_iff {unit : Nat} {rest : List Nat} (hlt : unit < 0x10000)
    (hpair : ¬(isHighSurrogate unit ∧ IsLowAt rest 0))
    (ih : charsOfUtf16? rest = none ↔ ∃ k, IsUnpaired rest k) :
    charsOfUtf16? (unit :: rest) = none ↔ ∃ k, IsUnpaired (unit :: rest) k := by
  have hsurrogate := not_isScalar_iff_of_lt hlt
  rw [charsOfUtf16?_cons hpair, ← Nat.or_exists_add_one, isUnpaired_cons_zero_iff]
  cases hc : scalar? unit with
  | none =>
    -- A surrogate that begins no pair is unpaired as a high one, and as a low one it comes first.
    refine iff_of_true rfl (.inl ?_)
    rcases hsurrogate.mp (scalar?_eq_none_iff.mp hc) with hhigh | hlow
    · exact .inl ⟨hhigh, fun hlow => hpair ⟨hhigh, hlow⟩⟩
    · exact .inr hlow
  | some c =>
    have hscalar : IsScalar unit := by
      rw [← scalar?_eq_some_iff.mp hc]
      exact isScalar_toNat c
    obtain ⟨hhigh, hlow⟩ := not_or.mp (hsurrogate.not.mp (not_not.mpr hscalar))
    rw [Option.bind_some, Option.map_eq_none_iff, ih,
      or_iff_right (not_or.mpr ⟨fun h => hhigh h.1, hlow⟩)]
    exact exists_congr fun k => (isUnpaired_cons_succ_iff (.inr hhigh)).symm

/-- Both halves of a pair have their other half, and neither is that of another unit. -/
theorem exists_isUnpaired_pair_iff {high low : Nat} {rest : List Nat} (hhigh : isHighSurrogate high)
    (hlow : isLowSurrogate low) :
    (∃ k, IsUnpaired (high :: low :: rest) k) ↔ ∃ k, IsUnpaired rest k := by
  have hnot := not_isHighSurrogate_of_isLow hlow
  have hzero : ¬IsUnpaired (high :: low :: rest) 0 := by
    rw [isUnpaired_cons_zero_iff]
    rintro (⟨_, h⟩ | h)
    · exact h hlow
    · exact not_isHighSurrogate_of_isLow h hhigh
  have hone : ¬IsUnpaired (high :: low :: rest) 1 := by
    rintro (⟨h, _⟩ | ⟨_, h | h⟩)
    · exact hnot h
    · cases h
    · exact h hhigh
  rw [← Nat.or_exists_add_one, or_iff_right hzero, ← Nat.or_exists_add_one, or_iff_right hone]
  refine exists_congr fun k => ?_
  rw [isUnpaired_cons_succ_iff (.inl k.succ_ne_zero), isUnpaired_cons_succ_iff (.inr hnot)]

/-- **Units of 16 bits have no characters if one of them is an unpaired surrogate**, and only
then. -/
theorem charsOfUtf16?_eq_none_iff {units : List Nat} (hunits : ∀ unit ∈ units, unit < 0x10000) :
    charsOfUtf16? units = none ↔ ∃ k, IsUnpaired units k := by
  have hnil : charsOfUtf16? [] = none ↔ ∃ k, IsUnpaired [] k :=
    iff_of_false (Option.some_ne_none []) (not_exists.mpr not_isUnpaired_nil)
  -- The reader looks one unit ahead and takes a pair at once.
  induction units using charsOfUtf16?.induct with
  | case1 => exact hnil
  | case2 unit =>
    have hpair : ¬(isHighSurrogate unit ∧ IsLowAt [] 0) := fun h => Bool.false_ne_true h.2
    exact charsOfUtf16?_cons_eq_none_iff (hunits unit List.mem_cons_self) hpair hnil
  | case3 high low rest hpair ih =>
    rw [Bool.and_eq_true] at hpair
    obtain ⟨c, hc⟩ := exists_char_of_pair hpair.1 hpair.2
    rw [charsOfUtf16?_pair hpair.1 hpair.2 hc, Option.map_eq_none_iff,
      exists_isUnpaired_pair_iff hpair.1 hpair.2]
    exact ih fun unit hu => hunits unit (List.mem_cons_of_mem _ (List.mem_cons_of_mem _ hu))
  | case4 high low rest hpair ih =>
    rw [Bool.and_eq_true] at hpair
    exact charsOfUtf16?_cons_eq_none_iff (hunits high List.mem_cons_self) hpair
      (ih fun unit hu => hunits unit (List.mem_cons_of_mem _ hu))

theorem ofUtf16?_eq_none_iff {units : List Nat} (hunits : ∀ unit ∈ units, unit < 0x10000) :
    ofUtf16? units = none ↔ ∃ k, IsUnpaired units k := by
  rw [ofUtf16?, Option.map_eq_none_iff, charsOfUtf16?_eq_none_iff hunits]

/-- The surrogates of a character beyond 16 bits. -/
theorem exists_utf16Units_eq_pair {c : Char} (h : ¬c.toNat < 0x10000) :
    ∃ high low, isHighSurrogate high ∧ isLowSurrogate low ∧ utf16Units c = [high, low] ∧
      c.toNat = 0x10000 + (high - 0xD800) * 0x400 + (low - 0xDC00) := by
  have hle := (isScalar_toNat c).1
  refine ⟨_, _, ?_, ?_, if_neg h, ?_⟩
  · rw [isHighSurrogate_iff]
    omega
  · rw [isLowSurrogate_iff]
    omega
  · omega

theorem lt_of_mem_utf16 {s : String} {unit : Nat} (h : unit ∈ utf16 s) : unit < 0x10000 := by
  obtain ⟨c, _, hunit⟩ := List.mem_flatMap.mp h
  by_cases hc : c.toNat < 0x10000
  · rw [utf16Units_of_lt hc, List.mem_singleton] at hunit
    omega
  · obtain ⟨high, low, hhigh, hlow, hunits, _⟩ := exists_utf16Units_eq_pair hc
    rw [isHighSurrogate_iff] at hhigh
    rw [isLowSurrogate_iff] at hlow
    rw [hunits, List.mem_pair] at hunit
    omega

theorem charsOfUtf16?_flatMap (chars : List Char) :
    charsOfUtf16? (chars.flatMap utf16Units) = some chars := by
  induction chars with
  | nil => rfl
  | cons c rest ih =>
    rw [List.flatMap_cons]
    by_cases hc : c.toNat < 0x10000
    · have hhigh : ¬isHighSurrogate c.toNat := fun h =>
        (not_isScalar_iff_of_lt hc).mpr (.inl h) (isScalar_toNat c)
      rw [utf16Units_of_lt hc, List.singleton_append, charsOfUtf16?_cons fun h => hhigh h.1,
        scalar?_toNat, ih]
      rfl
    · obtain ⟨high, low, hhigh, hlow, hunits, hpair⟩ := exists_utf16Units_eq_pair hc
      rw [hunits, List.cons_append, List.singleton_append, charsOfUtf16?_pair hhigh hlow hpair, ih]
      rfl

/-- **Text is read from the UTF-16 units it was written in.** -/
theorem ofUtf16?_utf16 (s : String) : ofUtf16? (utf16 s) = some s := by
  rw [ofUtf16?, utf16, charsOfUtf16?_flatMap, Option.map_some, String.ofList_toList]

/-! ### Units of 32 bits -/

theorem lt_of_mem_utf32 {s : String} {unit : Nat} (h : unit ∈ utf32 s) : unit < 256 ^ 4 := by
  obtain ⟨c, _, rfl⟩ := List.mem_map.mp h
  have hle := (isScalar_toNat c).1
  omega

theorem mapM_scalar?_map_toNat (chars : List Char) :
    (chars.map Char.toNat).mapM scalar? = some chars := by
  induction chars with
  | nil => rfl
  | cons c rest ih =>
    rw [List.map_cons, List.mapM_cons, scalar?_toNat, ih]
    rfl

/-- **Text is read from the code points it was written in.** -/
theorem ofUtf32?_utf32 (s : String) : ofUtf32? (utf32 s) = some s := by
  rw [ofUtf32?, utf32, mapM_scalar?_map_toNat, Option.map_some, String.ofList_toList]

theorem ofUtf32?_eq_none_iff {units : List Nat} :
    ofUtf32? units = none ↔ ∃ unit ∈ units, ¬IsScalar unit := by
  rw [ofUtf32?, Option.map_eq_none_iff]
  induction units with
  | nil =>
    refine iff_of_false (Option.some_ne_none []) ?_
    rintro ⟨unit, hunit, _⟩
    cases hunit
  | cons unit rest ih =>
    rw [List.mapM_cons, List.exists_mem_cons_iff, ← scalar?_eq_none_iff, ← ih]
    cases scalar? unit with
    | none => exact iff_of_true rfl (.inl rfl)
    | some c =>
      rw [or_iff_right (Option.some_ne_none c)]
      show ((rest.mapM scalar?).bind (some ∘ (c :: ·))) = none ↔ _
      rw [← Option.map_eq_bind, Option.map_eq_none_iff]

end Text

end StructuralMatching
