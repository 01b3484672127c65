/-
Values as JSON trees, and back.

A tree read as a value and written again is the tree it was.  The other way round something may be
lost: what JSON cannot say becomes something that it can.  What is left then is a normal form.

* `Json.IsSigned` — a tree without numbers that are too large for a signed integer;
* `Value.IsData` — a value in which nothing is found but what JSON can say;
* `Value.toJson_ofJson_eq` — a tree without such numbers is written as it was, in normal form;
* `Value.isData_ofJson` — every tree is read as data;
* `Value.ofJson_toJson_of_isData` — data are read as they were written;
* `Value.toJson_ofJson_retraction` — all this together: conversion is a retraction.

Design notes: a tree may hold a key several times, as a text can, and reading it keeps the last
entry of each.  So writing it again comes to `Json.normalize`, and trees that are normal are what
writing and reading leave alone.
-/
import StructuralMatching.Proofs.Matching.Constants
import StructuralMatching.Proofs.Value.Equality
import StructuralMatching.Value.Json

namespace StructuralMatching

/-! ### Finite numbers -/

namespace Binary64

theorem isNaN_eq_false_of_isFinite {x : Binary64} (h : x.isFinite = true) : x.isNaN = false := by
  have hlt : BinaryFormat.double.magnitude x.word < BinaryFormat.double.infinity :=
    of_decide_eq_true h
  exact decide_eq_false (Nat.lt_asymm hlt)

theorem isInfinite_eq_false_of_isFinite {x : Binary64} (h : x.isFinite = true) :
    x.isInfinite = false := by
  have hlt : BinaryFormat.double.magnitude x.word < BinaryFormat.double.infinity :=
    of_decide_eq_true h
  exact beq_eq_false_iff_ne.mpr (Nat.ne_of_lt hlt)

theorem roundQuotient_le (num den : Nat) : roundQuotient num den ≤ num / den + 1 := by
  rw [roundQuotient]
  split
  · omega
  · split
    · omega
    · have hmod := Nat.mod_lt (num / den) (show 2 > 0 by decide)
      omega

/-- A natural number of 64 bits that is too large for a signed integer is counted in units of
`2 ^ 11`, of which it has not more than `2 ^ 53`. -/
theorem roundRatio_lt_infinity {n : Nat} (hlarge : 2 ^ 63 ≤ n) (hn : n < 2 ^ 64) :
    BinaryFormat.double.roundRatio n 1 < BinaryFormat.double.infinity := by
  have hne : n ≠ 0 := by omega
  have hlog : n.log2 = 63 := (Nat.log2_eq_iff hne).mpr ⟨hlarge, hn⟩
  have hbinade : BinaryFormat.binade n 1 = 63 := by
    rw [BinaryFormat.binade, hlog]
    show (if n < 1 * 2 ^ (62 + 1) then _ else _) = _
    rw [if_neg (by omega)]
    rfl
  have hround : BinaryFormat.double.roundRatio n 1 =
      min (1085 * 2 ^ 52 + roundQuotient n (1 * 2 ^ (10 + 1))) BinaryFormat.double.infinity := by
    rw [BinaryFormat.roundRatio, if_neg hne, hbinade]
    rfl
  have hquotient := roundQuotient_le n (1 * 2 ^ (10 + 1))
  have hinfinity : BinaryFormat.double.infinity = 2047 * 2 ^ 52 := by decide
  rw [hround, hinfinity]
  omega

theorem isFinite_ofInt_of_large {n : UInt64} (h : 2 ^ 63 ≤ n.toNat) :
    (ofInt n.toNat).isFinite = true := by
  have hlt := roundRatio_lt_infinity h n.toNat_lt
  have hinfinity : BinaryFormat.double.infinity < 2 ^ 63 := by decide
  have hsign : decide ((n.toNat : Int) < 0) = false := decide_eq_false (by omega)
  have hword : (ofInt n.toNat).word = BinaryFormat.double.roundRatio n.toNat 1 := by
    show (ofMagnitude (decide ((n.toNat : Int) < 0)) _).word = _
    rw [hsign, Int.natAbs_natCast]
    show (UInt64.ofNat (0 + _)).toNat = _
    rw [Nat.zero_add, UInt64.toNat_ofNat_of_lt']
    exact Nat.lt_trans hlt (by decide)
  refine decide_eq_true ?_
  rw [hword]
  exact Nat.lt_of_le_of_lt (Nat.mod_le _ _) hlt

end Binary64

/-! ### Natural numbers of 64 bits -/

namespace Json

theorem ofNatural?_toInt {n : Int64} (h : 0 ≤ n.toInt) : ofNatural? n.toInt.toNat = some (int n) := by
  have hlt : n.toInt < 2 ^ 63 := n.toInt_lt
  have hsame : Int64.ofNat n.toInt.toNat = n := by
    rw [← Int64.ofInt_eq_ofNat, Int.toNat_of_nonneg h, Int64.ofInt_toInt]
  rw [ofNatural?, if_pos (by omega), hsame]

theorem ofNatural?_toNat {n : UInt64} (h : 2 ^ 63 ≤ n.toNat) :
    ofNatural? n.toNat = some (large n h) := by
  have hword : UInt64.ofNat n.toNat = n := UInt64.ofNat_toNat
  rw [ofNatural?, if_neg (by omega), dif_pos ⟨hword.symm ▸ h, n.toNat_lt⟩]
  simp only [hword]

end Json

/-! ### Trees whose integers are signed -/

namespace Json

mutual

/-- No number of the tree is too large for a signed integer. -/
def IsSigned : Json → Prop
  | large _ _ => False
  | array items => IsSignedItems items
  | object entries => IsSignedEntries entries
  | _ => True
termination_by structural j => j

def IsSignedItems : List Json → Prop
  | [] => True
  | j :: js => IsSigned j ∧ IsSignedItems js
termination_by structural js => js

def IsSignedEntries : List (String × Json) → Prop
  | [] => True
  | (_, j) :: entries => IsSigned j ∧ IsSignedEntries entries
termination_by structural entries => entries

end

mutual

/-- In a normal tree there is nothing to do. -/
theorem normalize_of_normal (j : Json) (h : j.Normal) : j.normalize = j := by
  cases j with
  | array items => exact congrArg array (normalizeItems_of_normal items h)
  | object entries =>
    show object (Fields.ofList (normalizeEntries entries)) = object entries
    rw [normalizeEntries_of_normal entries h.2, Fields.ofList_of_ascending h.1]
  | _ => rfl
termination_by structural j

theorem normalizeItems_of_normal (js : List Json) (h : NormalItems js) :
    normalizeItems js = js := by
  cases js with
  | nil => rfl
  | cons j js =>
    rw [normalizeItems, normalize_of_normal j h.1, normalizeItems_of_normal js h.2]
termination_by structural js

theorem normalizeEntries_of_normal (entries : List (String × Json)) (h : NormalEntries entries) :
    normalizeEntries entries = entries := by
  cases entries with
  | nil => rfl
  | cons entry rest =>
    obtain ⟨key, j⟩ := entry
    rw [normalizeEntries, normalize_of_normal j h.1, normalizeEntries_of_normal rest h.2]
termination_by structural entries

end

end Json

namespace Value

/-! ### Data -/

/-- A value without parts that JSON can say, or a list or a map. -/
def IsDatum : Value → Prop
  | undefined | atom _ | bytes _ | object _ => False
  | float x => x.isFinite = true
  | _ => True

/-- Nothing is found in the value but what JSON can say. -/
def IsData (v : Value) : Prop := ∀ x, Reaches v x → x.IsDatum

theorem IsLeaf.isData {v : Value} (hv : v.IsLeaf) (h : v.IsDatum) : v.IsData := by
  intro x hx
  rwa [hv.eq_of_reaches hx]

theorem isData_list_iff {items : List Value} :
    (list items).IsData ↔ ∀ w ∈ items, w.IsData := by
  constructor
  · exact fun h w hw x hx => h x (.item hw hx)
  · intro h x hx
    cases hx with
    | refl => trivial
    | item hw hx => exact h _ hw x hx

theorem isData_map_iff {entries : List (String × Value)} :
    (map entries).IsData ↔ ∀ e ∈ entries, e.2.IsData := by
  constructor
  · exact fun h e he x hx => h x (.entry he hx)
  · intro h x hx
    cases hx with
    | refl => trivial
    | entry he hx => exact h _ he x hx

theorem beq_self_of_isData {v : Value} (h : v.IsData) : (v == v) = true :=
  (beq_self_iff v).mpr fun _ hx => Binary64.isNaN_eq_false_of_isFinite (h _ hx)

/-! ### Part by part -/

theorem ofJsonItems_eq_map (js : List Json) : ofJsonItems js = js.map ofJson := by
  induction js with
  | nil => rfl
  | cons j js ih => rw [ofJsonItems, ih, List.map_cons]

theorem ofJsonEntries_eq_map (entries : List (String × Json)) :
    ofJsonEntries entries = entries.map fun e => (e.1, ofJson e.2) := by
  induction entries with
  | nil => rfl
  | cons e rest ih => rw [ofJsonEntries, ih, List.map_cons]

theorem toJsonItems_eq_map (o : Occasion) (vs : List Value) :
    toJsonItems o vs = vs.map (toJson o) := by
  induction vs with
  | nil => rfl
  | cons v vs ih => rw [toJsonItems, ih, List.map_cons]

theorem toJsonEntries_eq_map (o : Occasion) (entries : List (String × Value)) :
    toJsonEntries o entries = entries.map fun e => (e.1, toJson o e.2) := by
  induction entries with
  | nil => rfl
  | cons e rest ih => rw [toJsonEntries, ih, List.map_cons]

theorem toJson_float {x : Binary64} (h : x.isFinite = true) (o : Occasion) :
    (float x).toJson o = .float x h :=
  dif_pos h

/-! ### A tree as a value -/

mutual

/-- **A tree without large numbers is written as it was**, in normal form. -/
theorem toJson_ofJson_eq (j : Json) (h : j.IsSigned) (o : Occasion) :
    (ofJson j).toJson o = j.normalize := by
  cases j with
  | large n hn => exact h.elim
  | float x hx => exact toJson_float hx o
  | array items => exact congrArg Json.array (toJsonItems_ofJsonItems_eq items h o)
  | object entries =>
    show Json.object (toJsonEntries o (Fields.ofList (ofJsonEntries entries))) =
      .object (Fields.ofList (Json.normalizeEntries entries))
    rw [toJsonEntries_eq_map, ← Fields.ofList_map, ← toJsonEntries_eq_map,
      toJsonEntries_ofJsonEntries_eq entries h o]
  | _ => rfl
termination_by structural j

theorem toJsonItems_ofJsonItems_eq (js : List Json) (h : Json.IsSignedItems js) (o : Occasion) :
    toJsonItems o (ofJsonItems js) = Json.normalizeItems js := by
  cases js with
  | nil => rfl
  | cons j js =>
    rw [ofJsonItems, toJsonItems, toJson_ofJson_eq j h.1, toJsonItems_ofJsonItems_eq js h.2,
      Json.normalizeItems]
termination_by structural js

theorem toJsonEntries_ofJsonEntries_eq (entries : List (String × Json))
    (h : Json.IsSignedEntries entries) (o : Occasion) :
    toJsonEntries o (ofJsonEntries entries) = Json.normalizeEntries entries := by
  cases entries with
  | nil => rfl
  | cons entry rest =>
    obtain ⟨key, j⟩ := entry
    rw [ofJsonEntries, toJsonEntries, toJson_ofJson_eq j h.1,
      toJsonEntries_ofJsonEntries_eq rest h.2, Json.normalizeEntries]
termination_by structural entries

end

mutual

/-- A tree and its normal form are one value. -/
theorem ofJson_normalize (j : Json) : ofJson j.normalize = ofJson j := by
  cases j with
  | array items => exact congrArg list (ofJsonItems_normalizeItems items)
  | object entries =>
    show map (Fields.ofList (ofJsonEntries (Fields.ofList (Json.normalizeEntries entries)))) =
      map (Fields.ofList (ofJsonEntries entries))
    rw [ofJsonEntries_eq_map, Fields.ofList_map,
      Fields.ofList_of_ascending (Fields.ascending_ofList _), ← Fields.ofList_map,
      ← ofJsonEntries_eq_map, ofJsonEntries_normalizeEntries entries]
  | _ => rfl
termination_by structural j

theorem ofJsonItems_normalizeItems (js : List Json) :
    ofJsonItems (Json.normalizeItems js) = ofJsonItems js := by
  cases js with
  | nil => rfl
  | cons j js =>
    rw [Json.normalizeItems, ofJsonItems, ofJson_normalize j, ofJsonItems_normalizeItems js,
      ofJsonItems]
termination_by structural js

theorem ofJsonEntries_normalizeEntries (entries : List (String × Json)) :
    ofJsonEntries (Json.normalizeEntries entries) = ofJsonEntries entries := by
  cases entries with
  | nil => rfl
  | cons entry rest =>
    obtain ⟨key, j⟩ := entry
    rw [Json.normalizeEntries, ofJsonEntries, ofJson_normalize j,
      ofJsonEntries_normalizeEntries rest, ofJsonEntries]
termination_by structural entries

end

mutual

/-- **A tree is read as data.** -/
theorem isData_ofJson (j : Json) : (ofJson j).IsData := by
  cases j with
  | array items => exact isData_list_iff.mpr (isData_ofJsonItems items)
  | object entries =>
    exact isData_map_iff.mpr fun e he =>
      isData_ofJsonEntries entries e (Fields.mem_of_mem_ofList he)
  | large n hn => exact IsLeaf.isData trivial (Binary64.isFinite_ofInt_of_large hn)
  | float x hx => exact IsLeaf.isData trivial hx
  | _ => exact IsLeaf.isData trivial trivial
termination_by structural j

theorem isData_ofJsonItems (js : List Json) : ∀ w ∈ ofJsonItems js, w.IsData := by
  cases js with
  | nil => exact fun w hw => absurd hw List.not_mem_nil
  | cons j js => exact List.forall_mem_cons.mpr ⟨isData_ofJson j, isData_ofJsonItems js⟩
termination_by structural js

theorem isData_ofJsonEntries (entries : List (String × Json)) :
    ∀ e ∈ ofJsonEntries entries, e.2.IsData := by
  cases entries with
  | nil => exact fun e he => absurd he List.not_mem_nil
  | cons entry rest =>
    obtain ⟨key, j⟩ := entry
    exact List.forall_mem_cons.mpr ⟨isData_ofJson j, isData_ofJsonEntries rest⟩
termination_by structural entries

end

mutual

/-- The maps of a tree have their keys in order. -/
theorem ordered_ofJson (j : Json) : (ofJson j).Ordered := by
  cases j with
  | array items => exact orderedItems_iff.mpr (ordered_ofJsonItems items)
  | object entries =>
    refine ⟨Fields.ascending_ofList _, orderedEntries_iff.mpr fun e he => ?_⟩
    exact ordered_ofJsonEntries entries e (Fields.mem_of_mem_ofList he)
  | _ => trivial
termination_by structural j

theorem ordered_ofJsonItems (js : List Json) : ∀ w ∈ ofJsonItems js, w.Ordered := by
  cases js with
  | nil => exact fun w hw => absurd hw List.not_mem_nil
  | cons j js => exact List.forall_mem_cons.mpr ⟨ordered_ofJson j, ordered_ofJsonItems js⟩
termination_by structural js

theorem ordered_ofJsonEntries (entries : List (String × Json)) :
    ∀ e ∈ ofJsonEntries entries, e.2.Ordered := by
  cases entries with
  | nil => exact fun e he => absurd he List.not_mem_nil
  | cons entry rest =>
    obtain ⟨key, j⟩ := entry
    exact List.forall_mem_cons.mpr ⟨ordered_ofJson j, ordered_ofJsonEntries rest⟩
termination_by structural entries

end

theorem ofJson_eq_null_iff {j : Json} : ofJson j = null ↔ j = .null := by
  cases j <;> simp [ofJson]

/-! ### A value as a tree -/

mutual

/-- No value is written as a large number. -/
theorem isSigned_toJson (v : Value) (o : Occasion) : (v.toJson o).IsSigned := by
  cases v with
  | float x =>
    rw [toJson]
    split <;> trivial
  | bytes content =>
    show Json.IsSignedItems (content.map fun b => .int (Int64.ofNat b.toNat))
    induction content with
    | nil => trivial
    | cons b content ih => exact ⟨trivial, ih⟩
  | list items => exact isSigned_toJsonItems items o
  | map entries => exact isSigned_toJsonEntries entries o
  | object i => exact isSigned_toJsonEntries (i.fields o) o
  | _ => trivial
termination_by structural v

theorem isSigned_toJsonItems (vs : List Value) (o : Occasion) :
    Json.IsSignedItems (toJsonItems o vs) := by
  cases vs with
  | nil => trivial
  | cons v vs => exact ⟨isSigned_toJson v o, isSigned_toJsonItems vs o⟩
termination_by structural vs

theorem isSigned_toJsonEntries (entries : List (String × Value)) (o : Occasion) :
    Json.IsSignedEntries (toJsonEntries o entries) := by
  cases entries with
  | nil => trivial
  | cons entry rest =>
    obtain ⟨key, v⟩ := entry
    exact ⟨isSigned_toJson v o, isSigned_toJsonEntries rest o⟩
termination_by structural entries

end

/-- **Data are read as they were written.** -/
theorem ofJson_toJson_of_isData {v : Value} (hv : v.Ordered) (h : v.IsData) (o : Occasion) :
    ofJson (v.toJson o) = v := by
  induction v using inductionOnParts with
  | leaf v hleaf =>
    have hdatum := h v (.refl v)
    cases v with
    | float x => rw [toJson_float hdatum]; rfl
    | undefined | atom | bytes | object => exact hdatum.elim
    | list | map => exact hleaf.elim
    | null | bool | int | string => rfl
  | list items ih =>
    show list (ofJsonItems (toJsonItems o items)) = list items
    rw [toJsonItems_eq_map, ofJsonItems_eq_map, List.map_map]
    refine congrArg list ((List.map_congr_left fun w hw => ?_).trans (List.map_id' items))
    exact ih w hw (orderedItems_iff.mp hv w hw) (isData_list_iff.mp h w hw)
  | map entries ih =>
    show map (Fields.ofList (ofJsonEntries (toJsonEntries o entries))) = map entries
    have hsame : ofJsonEntries (toJsonEntries o entries) = entries := by
      rw [toJsonEntries_eq_map, ofJsonEntries_eq_map, List.map_map]
      refine (List.map_congr_left fun e he => ?_).trans (List.map_id' entries)
      have hvalue := ih e he (orderedEntries_iff.mp hv.2 e he) (isData_map_iff.mp h e he)
      exact Prod.ext rfl hvalue
    rw [hsame, Fields.ofList_of_ascending hv.1]

/-- **Conversion to JSON trees is a retraction.**  A tree without large numbers is read and written
without a change.  A value that is written and read becomes data, which are equal to themselves and
do not change any more, and it is the value itself if that is data already. -/
theorem toJson_ofJson_retraction :
    (∀ j : Json, j.Normal → j.IsSigned → ∀ o, (ofJson j).toJson o = j) ∧
    ∀ (v : Value) (o : Occasion),
      (ofJson (v.toJson o)).IsData ∧
      (∀ o', ofJson ((ofJson (v.toJson o)).toJson o') = ofJson (v.toJson o)) ∧
      (ofJson (v.toJson o) == ofJson (v.toJson o)) = true ∧
      (v.Ordered → v.IsData → ofJson (v.toJson o) = v) := by
  refine ⟨fun j hnormal hsigned o => ?_, fun v o => ⟨isData_ofJson _, fun o' => ?_, ?_,
    fun hv h => ofJson_toJson_of_isData hv h o⟩⟩
  · rw [toJson_ofJson_eq j hsigned, Json.normalize_of_normal j hnormal]
  · rw [toJson_ofJson_eq _ (isSigned_toJson v o), ofJson_normalize]
  · exact beq_self_of_isData (isData_ofJson _)

/-- The whole number zero and the two zeros of the floating-point numbers stay apart, in a tree as
in a value. -/
theorem toJson_ofJson_retraction_zeros :
    (∃ j : Json,
      j = .object [("a", .array [.int 0, .float ⟨0⟩ rfl]), ("b", .float ⟨0x8000000000000000⟩ rfl)] ∧
        j.Normal ∧ j.IsSigned ∧ (ofJson j).toJson .start = j) ∧
    ∃ v : Value, v = map [("a", list [int 0, float ⟨0⟩]), ("b", float ⟨0x8000000000000000⟩)] ∧
      v.Ordered ∧ v.IsData ∧ ofJson (v.toJson .start) = v := by
  have hkeys : "a" < "b" := by decide
  have hfields {α : Type} (a b : α) : Fields.Ascending [("a", a), ("b", b)] :=
    List.pairwise_pair.mpr hkeys
  refine ⟨⟨_, rfl, ?_⟩, _, rfl, ?_⟩
  · have hnormal : (Json.object [("a", .array [.int 0, .float ⟨0⟩ rfl]),
        ("b", .float ⟨0x8000000000000000⟩ rfl)]).Normal :=
      ⟨hfields _ _, ⟨trivial, trivial, trivial⟩, trivial, trivial⟩
    have hsigned : (Json.object [("a", .array [.int 0, .float ⟨0⟩ rfl]),
        ("b", .float ⟨0x8000000000000000⟩ rfl)]).IsSigned :=
      ⟨⟨trivial, trivial, trivial⟩, trivial, trivial⟩
    exact ⟨hnormal, hsigned, toJson_ofJson_retraction.1 _ hnormal hsigned .start⟩
  · have hordered : (map [("a", list [int 0, float ⟨0⟩]),
        ("b", float ⟨0x8000000000000000⟩)]).Ordered :=
      ⟨hfields _ _, ⟨trivial, trivial, trivial⟩, trivial, trivial⟩
    have hdata : (map [("a", list [int 0, float ⟨0⟩]),
        ("b", float ⟨0x8000000000000000⟩)]).IsData := by
      simp only [isData_map_iff, isData_list_iff, List.forall_mem_cons]
      exact ⟨⟨IsLeaf.isData trivial trivial, IsLeaf.isData trivial rfl, by simp⟩,
        IsLeaf.isData trivial rfl, by simp⟩
    exact ⟨hordered, hdata, (toJson_ofJson_retraction.2 _ .start).2.2.2 hordered hdata⟩

end Value

end StructuralMatching
