/-
Numbers as they are written.

The text of a number has a sign, digits, decimal places and a power of ten, of which all but the
digits may be missing.  Whoever reads such a text from the front has to see where it ends:

* `NumberText` — the parts of the text of a number;
* `NumberText.WellFormed` — there are digits wherever there have to be, and no zero in front;
* `NumberText.scanNumber_chars` — the parts are what is read, whatever follows that ends a value;
* `Json.toJson?_ofWhole_int`, `toJson?_ofWhole_large` — integers are read as they were written;
* `Binary64.coefficient_shortest` — the shortest decimal of a number other than zero is not zero;
* `NumberText.ofPositional`, `ofScientific` — the two forms of a decimal;
* `NumberText.exists_render` — the text of a finite number is of this form.

Design notes: a whole number in front of the decimal point may have zeros appended to it, so it
matters that the digits before them do not begin with one.
-/
import Mathlib.Data.List.Basic
import Mathlib.Tactic.IntervalCases
import StructuralMatching.Json.Parse
import StructuralMatching.Proofs.Value.Json

namespace StructuralMatching

/-- What may stand behind a value in a text. -/
def JsonSource.Ends (rest : List Char) : Prop :=
  ∀ c, rest.head? = some c → c = ',' ∨ c = ']' ∨ c = '}'

/-- The text of a number by its parts. -/
structure NumberText where
  negative : Bool
  whole : List Char
  places : Option (List Char)
  /-- Whether the power of ten has a minus sign, and its digits. -/
  exponent : Option (Bool × List Char)

namespace NumberText

/-- Digits, of which there is one at least. -/
def AreDigits (cs : List Char) : Prop := cs ≠ [] ∧ ∀ c ∈ cs, c.isDigit = true

/-- There are digits in all parts, and a zero is in front only if it is the whole number. -/
structure WellFormed (t : NumberText) : Prop where
  whole : AreDigits t.whole
  front : t.whole.length = 1 ∨ t.whole.head? ≠ some '0'
  places : ∀ cs, t.places = some cs → AreDigits cs
  exponent : ∀ e, t.exponent = some e → AreDigits e.2

/-- The decimal places with their point. -/
def placeChars : Option (List Char) → List Char
  | none => []
  | some cs => '.' :: cs

/-- The power of ten with its sign. -/
def exponentChars : Option (Bool × List Char) → List Char
  | none => []
  | some (negative, cs) => 'e' :: (if negative then '-' else '+') :: cs

/-- The characters of the text. -/
def chars (t : NumberText) : List Char :=
  (if t.negative then ['-'] else []) ++
    (t.whole ++ (placeChars t.places ++ exponentChars t.exponent))

/-- The numeral that the text is read as. -/
def numeral (t : NumberText) : Numeral :=
  ⟨t.negative, t.whole.map JsonSource.digitValue, t.places.map (·.map JsonSource.digitValue),
    t.exponent.map fun e => (e.1, e.2.map JsonSource.digitValue)⟩

open JsonSource

/-! ### Reading the parts -/

/-- What stands there does not go on with a digit. -/
def NoDigit (rest : List Char) : Prop := ∀ c, rest.head? = some c → c.isDigit = false

theorem noDigit_of_ends {rest : List Char} (h : Ends rest) : NoDigit rest := by
  intro c hc
  rcases h c hc with rfl | rfl | rfl <;> rfl

theorem scanDigits_append {cs rest : List Char} (hcs : AreDigits cs) (hrest : NoDigit rest) :
    scanDigits (cs ++ rest) = some (cs.map digitValue, rest) := by
  have htake : (cs ++ rest).takeWhile Char.isDigit = cs := by
    rw [List.takeWhile_append_of_pos hcs.2]
    cases rest with
    | nil => exact List.append_nil cs
    | cons c rest => rw [List.takeWhile_cons_of_neg (by simp [hrest c rfl]), List.append_nil]
  have hdrop : (cs ++ rest).dropWhile Char.isDigit = rest := by
    rw [List.dropWhile_append_of_pos hcs.2]
    cases rest with
    | nil => rfl
    | cons c rest => exact List.dropWhile_cons_of_neg (by simp [hrest c rfl])
  rw [scanDigits, htake, hdrop, if_neg (by simpa using hcs.1)]

theorem noDigit_exponentChars (e : Option (Bool × List Char)) {rest : List Char}
    (hrest : NoDigit rest) : NoDigit (exponentChars e ++ rest) := by
  cases e with
  | none => exact hrest
  | some e =>
    intro c hc
    cases hc
    rfl

theorem noDigit_placeChars (p : Option (List Char)) {rest : List Char} (hrest : NoDigit rest) :
    NoDigit (placeChars p ++ rest) := by
  cases p with
  | none => exact hrest
  | some cs =>
    intro c hc
    cases hc
    rfl

theorem scanFraction_append {p : Option (List Char)} {rest : List Char}
    (hp : ∀ cs, p = some cs → AreDigits cs) (hrest : NoDigit rest)
    (hpoint : rest.head? ≠ some '.') :
    scanFraction (placeChars p ++ rest) = some (p.map (·.map digitValue), rest) := by
  cases p with
  | none =>
    rw [placeChars, List.nil_append, scanFraction]
    · rfl
    · rintro rest rfl
      exact hpoint rfl
  | some cs =>
    show ((scanDigits (cs ++ rest)).bind fun r => some (some r.1, r.2)) = _
    rw [scanDigits_append (hp cs rfl) hrest]
    rfl

theorem scanExponent_append {e : Option (Bool × List Char)} {rest : List Char}
    (he : ∀ d, e = some d → AreDigits d.2) (hrest : Ends rest) :
    scanExponent (exponentChars e ++ rest) =
      some (e.map fun d => (d.1, d.2.map digitValue), rest) := by
  cases e with
  | none =>
    cases rest with
    | nil => rfl
    | cons c rest =>
      have hc : ¬(c = 'e' ∨ c = 'E') := by
        rcases hrest c rfl with rfl | rfl | rfl <;> decide
      exact if_neg hc
  | some e =>
    obtain ⟨negative, cs⟩ := e
    have hdigits := scanDigits_append (he _ rfl) (noDigit_of_ends hrest)
    cases negative with
    | true =>
      show ((scanDigits (cs ++ rest)).bind fun r => some (some (true, r.1), r.2)) = _
      rw [hdigits]
      rfl
    | false =>
      show ((scanDigits (cs ++ rest)).bind fun r => some (some (false, r.1), r.2)) = _
      rw [hdigits]
      rfl

/-- A digit has the value zero only if it is a zero. -/
theorem digitValue_eq_zero {c : Char} (hc : c.isDigit = true) (h : digitValue c = 0) : c = '0' := by
  obtain ⟨hlow, _⟩ := Char.isDigit_iff_toNat.mp hc
  have hnat : c.toNat = '0'.toNat := by
    rw [digitValue] at h
    exact Nat.le_antisymm (Nat.sub_eq_zero_iff_le.mp h) hlow
  exact Char.toNat_inj.mp hnat

/-- No zero stands in front of other digits. -/
theorem WellFormed.noZero {t : NumberText} (h : t.WellFormed) :
    (1 < (t.whole.map digitValue).length && (t.whole.map digitValue).head? == some 0) = false := by
  rw [List.length_map]
  rcases h.front with hone | hfirst
  · simp [hone]
  · rw [Bool.and_eq_false_iff]
    refine .inr ?_
    cases hw : t.whole with
    | nil => rfl
    | cons c cs =>
      rw [hw] at hfirst
      have hc := h.whole.2 c (hw ▸ List.mem_cons_self)
      have hne : digitValue c ≠ 0 := fun h0 => hfirst (by rw [digitValue_eq_zero hc h0]; rfl)
      simpa using hne

/-- What stands behind the sign is read as the number without one. -/
theorem scanNumber_sign (negative : Bool) {cs : List Char} (hcs : cs.head? ≠ some '-') :
    scanNumber ((if negative then ['-'] else []) ++ cs) =
      (do
        let (whole, rest) ← scanDigits cs
        if 1 < whole.length && whole.head? == some 0 then none
        let (places, rest) ← scanFraction rest
        let (exponent, rest) ← scanExponent rest
        return (.number ⟨negative, whole, places, exponent⟩, rest)) := by
  cases negative with
  | true => rfl
  | false =>
    show scanNumber cs = _
    rw [scanNumber]
    rintro rest rfl
    exact hcs rfl

/-- **The parts of a number are read from its text**, whatever follows that ends a value. -/
theorem scanNumber_chars {t : NumberText} (h : t.WellFormed) {rest : List Char}
    (hrest : Ends rest) : scanNumber (t.chars ++ rest) = some (.number t.numeral, rest) := by
  have hexponent := scanExponent_append h.exponent hrest
  have hpoint : (exponentChars t.exponent ++ rest).head? ≠ some '.' := by
    intro hhead
    cases he : t.exponent with
    | none =>
      rw [he] at hhead
      rcases hrest '.' hhead with heq | heq | heq <;> cases heq
    | some e =>
      rw [he] at hhead
      cases hhead
  have hnodigit := noDigit_exponentChars t.exponent (noDigit_of_ends hrest)
  have hfraction := scanFraction_append h.places hnodigit hpoint
  have hwhole := scanDigits_append h.whole (noDigit_placeChars t.places hnodigit)
  have hminus : (t.whole ++ (placeChars t.places ++ (exponentChars t.exponent ++ rest))).head? ≠
      some '-' := by
    obtain ⟨hne, hdigits⟩ := h.whole
    cases hw : t.whole with
    | nil => exact absurd hw hne
    | cons c cs =>
      intro hhead
      cases hhead
      exact absurd (hdigits '-' (hw ▸ List.mem_cons_self)) (by decide)
  rw [chars, List.append_assoc, List.append_assoc, List.append_assoc,
    scanNumber_sign t.negative hminus, hwhole]
  show (if _ then none else (scanFraction _).bind _) = _
  rw [if_neg (by rw [h.noZero]; exact Bool.false_ne_true), hfraction]
  show (scanExponent _).bind _ = _
  rw [hexponent]
  rfl

/-! ### Whole numbers -/

theorem areDigits_toDigits (n : Nat) : AreDigits (Nat.toDigits 10 n) :=
  ⟨Nat.toDigits_ne_nil, fun _ => Nat.isDigit_of_mem_toDigits (by decide) (by decide)⟩

/-- A number other than zero does not begin with a zero. -/
theorem head?_toDigits {n : Nat} (h : 0 < n) : (Nat.toDigits 10 n).head? ≠ some '0' := by
  induction n using Nat.base_induction 10 (by decide) with
  | single m hm =>
    rw [Nat.toDigits_of_lt_base hm]
    interval_cases m <;> decide
  | digit m k hk hm ih =>
    rw [← Nat.toDigits_append_toDigits (by decide) hm hk,
      List.head?_append_of_ne_nil _ Nat.toDigits_ne_nil]
    exact ih hm

theorem front_toDigits (n : Nat) :
    (Nat.toDigits 10 n).length = 1 ∨ (Nat.toDigits 10 n).head? ≠ some '0' := by
  rcases Nat.eq_zero_or_pos n with rfl | hn
  · exact .inl rfl
  · exact .inr (head?_toDigits hn)

theorem valueOfDigits_toDigits (n : Nat) :
    Numeral.valueOfDigits ((Nat.toDigits 10 n).map digitValue) = n := by
  rw [Numeral.valueOfDigits, List.foldl_map]
  exact Nat.ofDigitChars_ten_toDigits

/-- The text of a whole number. -/
def ofWhole (negative : Bool) (n : Nat) : NumberText := ⟨negative, Nat.toDigits 10 n, none, none⟩

theorem wellFormed_ofWhole (negative : Bool) (n : Nat) : (ofWhole negative n).WellFormed :=
  ⟨areDigits_toDigits n, front_toDigits n, nofun, nofun⟩

theorem chars_ofWhole (negative : Bool) (n : Nat) :
    (ofWhole negative n).chars = (if negative then ['-'] else []) ++ Nat.toDigits 10 n :=
  congrArg (_ ++ ·) (List.append_nil _)

theorem toWhole?_ofWhole (negative : Bool) (n : Nat) :
    (ofWhole negative n).numeral.toWhole? =
      if !negative then Json.ofNatural? n
      else if 0 < n ∧ n ≤ 2 ^ 63 then some (.int (Int64.ofInt (-(n : Int)))) else none := by
  have hvalue : Numeral.valueOfDigits (ofWhole negative n).numeral.whole = n :=
    valueOfDigits_toDigits n
  rw [Numeral.toWhole?, if_neg (by exact Bool.false_ne_true)]
  show (if !negative then Json.ofNatural? (Numeral.valueOfDigits _) else _) = _
  rw [hvalue]

end NumberText

namespace Json

open NumberText

theorem toList_toString_int (n : Int) :
    (toString n).toList = (if n < 0 then ['-'] else []) ++ Nat.toDigits 10 n.natAbs := by
  rw [Int.toString_eq_repr, Int.repr_eq_if]
  by_cases hn : 0 ≤ n
  · have habs : n.toNat = n.natAbs := by omega
    rw [if_pos hn, if_neg (by omega), Nat.toList_repr, habs]
    rfl
  · have habs : (-n).toNat = n.natAbs := by omega
    rw [if_neg hn, if_pos (by omega), String.toList_append, Nat.toList_repr, habs]
    rfl

/-- The text of an integer is read as the integer. -/
theorem toJson?_ofWhole_int (n : Int64) :
    (ofWhole (n.toInt < 0) n.toInt.natAbs).numeral.toJson? = some (.int n) := by
  have hlow := n.le_toInt
  rw [Numeral.toJson?, toWhole?_ofWhole]
  by_cases hn : n.toInt < 0
  · have habs : -(n.toInt.natAbs : Int) = n.toInt := by omega
    rw [if_neg (by simpa using hn), if_pos (by omega), habs, Int64.ofInt_toInt]
    rfl
  · have habs : n.toInt.natAbs = n.toInt.toNat := by omega
    rw [if_pos (by simpa using hn), habs, ofNatural?_toInt (by omega)]
    rfl

theorem toJson?_ofWhole_large {n : UInt64} (h : 2 ^ 63 ≤ n.toNat) :
    (ofWhole false n.toNat).numeral.toJson? = some (.large n h) := by
  rw [Numeral.toJson?, toWhole?_ofWhole, if_pos (by rfl), ofNatural?_toNat h]
  rfl

end Json

namespace Binary64

/-! ### The shortest decimal -/

theorem decimalWidth_pos (n : Nat) : 0 < decimalWidth n := by
  rw [decimalWidth]
  split
  · exact Nat.one_pos
  · exact Nat.succ_pos _

theorem lt_pow_decimalWidth (n : Nat) : n < 10 ^ decimalWidth n := by
  induction n using decimalWidth.induct with
  | case1 n hn => rwa [decimalWidth, if_pos hn, Nat.pow_one]
  | case2 n hn ih =>
    rw [decimalWidth, if_neg hn, Nat.pow_succ]
    omega

theorem pow_decimalWidth_le {n : Nat} (h : 0 < n) : 10 ^ (decimalWidth n - 1) ≤ n := by
  induction n using decimalWidth.induct with
  | case1 n hn => rwa [decimalWidth, if_pos hn]
  | case2 n hn ih =>
    have hwidth : decimalWidth (n / 10) = decimalWidth (n / 10) - 1 + 1 :=
      (Nat.sub_add_cancel (decimalWidth_pos _)).symm
    rw [decimalWidth, if_neg hn, Nat.add_sub_cancel, hwidth, Nat.pow_succ]
    have hdiv := ih (by omega)
    omega

/-- The value is as great as the unit of every grid that has a digit for it. -/
theorem step_le_value {num den : Nat} (hnum : 0 < num) (hden : 0 < den) {places : Nat}
    (hplaces : 0 < places) :
    den * (gridFactors (decimalPoint num den - places)).2 ≤
      num * (gridFactors (decimalPoint num den - places)).1 := by
  by_cases hle : den ≤ num
  · have hpoint : decimalPoint num den = decimalWidth (num / den) := if_pos hle
    cases hunit : decimalPoint num den - places with
    | ofNat k =>
      have hk : k ≤ decimalWidth (num / den) - 1 := by
        rw [Int.ofNat_eq_natCast] at hunit
        omega
      calc
        den * 10 ^ k ≤ den * 10 ^ (decimalWidth (num / den) - 1) :=
          Nat.mul_le_mul_left _ (Nat.pow_le_pow_right (by decide) hk)
        _ ≤ den * (num / den) :=
          Nat.mul_le_mul_left _ (pow_decimalWidth_le (Nat.div_pos hle hden))
        _ ≤ num * 1 := by rw [Nat.mul_one]; exact Nat.mul_div_le num den
    | negSucc k =>
      calc
        den * 1 ≤ num := by rwa [Nat.mul_one]
        _ ≤ num * 10 ^ (k + 1) := Nat.le_mul_of_pos_right _ (Nat.pow_pos (by decide))
  · have hpoint : decimalPoint num den = 1 - (decimalWidth ((den - 1) / num) : Int) := if_neg hle
    cases hunit : decimalPoint num den - places with
    | ofNat k =>
      have hpos := decimalWidth_pos ((den - 1) / num)
      rw [Int.ofNat_eq_natCast] at hunit
      omega
    | negSucc k =>
      have hk : decimalWidth ((den - 1) / num) ≤ k + 1 := by
        rw [Int.negSucc_eq] at hunit
        omega
      have hlt : den - 1 < 10 ^ decimalWidth ((den - 1) / num) * num :=
        (Nat.div_lt_iff_lt_mul hnum).mp (lt_pow_decimalWidth _)
      calc
        den * 1 ≤ num * 10 ^ decimalWidth ((den - 1) / num) := by
          rw [Nat.mul_comm num]
          omega
        _ ≤ num * 10 ^ (k + 1) := Nat.mul_le_mul_left _ (Nat.pow_le_pow_right (by decide) hk)

theorem gridFactors_snd_pos (unit : Int) : 0 < (gridFactors unit).2 := by
  cases unit with
  | ofNat k => exact Nat.pow_pos (by decide)
  | negSucc k => exact Nat.one_pos

theorem ReadBack.onGrid?_pos {r : ReadBack} {tie : Tie} {unit : Int} {c : Nat}
    (hden : 0 < r.denominator)
    (hstep : r.denominator * (gridFactors unit).2 ≤ r.value * (gridFactors unit).1)
    (h : r.onGrid? tie unit = some c) : 0 < c := by
  have hpos := gridFactors_snd_pos unit
  rw [onGrid?] at h
  rcases hfactors : gridFactors unit with ⟨a, b⟩
  rw [hfactors] at h hstep hpos
  have hlower : 0 < r.value * a / (r.denominator * b) :=
    Nat.div_pos hstep (Nat.mul_pos hden hpos)
  simp only at h
  split at h
  · cases h
    split
    · exact hlower
    · split
      · exact Nat.succ_pos _
      · split
        · exact Nat.succ_pos _
        · exact Nat.add_pos_left hlower _
  · cases h
    exact hlower
  · cases h
    exact Nat.succ_pos _
  · cases h

theorem significand_pos {x : Binary64} (h : x.isZero = false) : 0 < x.significand := by
  rw [significand, BinaryFormat.significand]
  split
  · rename_i hfield
    refine Nat.pos_of_ne_zero fun hfraction => ?_
    have hsplit : x.word % (2 ^ 52 * 2 ^ 11) =
        x.word % 2 ^ 52 + 2 ^ 52 * (x.word / 2 ^ 52 % 2 ^ 11) := Nat.mod_mul
    have hmagnitude : BinaryFormat.double.magnitude x.word = 0 := by
      show x.word % 2 ^ (52 + 11) = 0
      rw [Nat.pow_add, hsplit]
      show BinaryFormat.double.fraction x.word + 2 ^ 52 * BinaryFormat.double.field x.word = 0
      rw [hfraction, hfield, Nat.mul_zero]
    rw [isZero, hmagnitude] at h
    cases h
  · exact Nat.add_pos_left (Nat.pow_pos (by decide)) _

theorem scaleRatio_pos (e : Int) : 0 < (scaleRatio 1 4 e).1 ∧ 0 < (scaleRatio 1 4 e).2 := by
  cases e with
  | ofNat k => exact ⟨Nat.mul_pos Nat.one_pos (Nat.pow_pos (by decide)), Nat.succ_pos 3⟩
  | negSucc k => exact ⟨Nat.one_pos, Nat.mul_pos (Nat.succ_pos 3) (Nat.pow_pos (by decide))⟩

/-- **The shortest decimal of a number other than zero** is not zero, or else there is none. -/
theorem coefficient_shortest {x : Binary64} (h : x.isZero = false) (tie : Tie) :
    x.shortest tie = ⟨0, 0⟩ ∨ 0 < (x.shortest tie).coefficient := by
  obtain ⟨hunit, hden⟩ := scaleRatio_pos x.exponent
  have hvalue : 0 < x.readBack.value :=
    Nat.mul_pos (Nat.mul_pos (by decide) (significand_pos h)) hunit
  rw [shortest]
  cases hfound : (List.range' 1 17).findSome? _ with
  | none => exact .inl rfl
  | some d =>
    refine .inr ?_
    obtain ⟨places, hmem, hd⟩ := List.exists_of_findSome?_eq_some hfound
    obtain ⟨c, hc, rfl⟩ := Option.map_eq_some_iff.mp hd
    have hplaces : 0 < places := (List.mem_range'_1.mp hmem).1
    have hpos := x.readBack.onGrid?_pos hden (step_le_value hvalue hden hplaces) hc
    show 0 < Decimal.coefficient (if c = 10 ^ places then _ else _)
    split
    · exact Nat.one_pos
    · exact hpos

end Binary64

namespace NumberText

/-! ### Decimals -/

theorem AreDigits.append {cs ds : List Char} (hcs : AreDigits cs)
    (hds : ∀ c ∈ ds, c.isDigit = true) : AreDigits (cs ++ ds) :=
  ⟨List.append_ne_nil_of_left_ne_nil hcs.1 ds,
    List.forall_mem_append.mpr ⟨hcs.2, hds⟩⟩

theorem isDigit_replicate (n : Nat) : ∀ c ∈ List.replicate n '0', c.isDigit = true := by
  intro c hc
  rw [(List.mem_replicate.mp hc).2]
  rfl

theorem areDigits_digits (d : Decimal) : AreDigits d.digits := areDigits_toDigits d.coefficient

theorem areDigits_zero : AreDigits ['0'] := ⟨nofun, List.forall_mem_singleton.mpr rfl⟩

/-- A text whose whole number is a zero. -/
theorem wellFormed_zero {negative : Bool} {cs : List Char} (hcs : AreDigits cs) :
    WellFormed ⟨negative, ['0'], some cs, none⟩ :=
  ⟨areDigits_zero, .inl rfl, fun _ h => by cases h; exact hcs, nofun⟩

/-- The digits of a decimal around its point. -/
def ofPositional (negative : Bool) (d : Decimal) : NumberText :=
  match d.point with
  | .ofNat k =>
    if d.digits.length ≤ k then
      ⟨negative, d.digits ++ List.replicate (k - d.digits.length) '0', some ['0'], none⟩
    else if k = 0 then ⟨negative, ['0'], some d.digits, none⟩
    else ⟨negative, d.digits.take k, some (d.digits.drop k), none⟩
  | .negSucc k => ⟨negative, ['0'], some (List.replicate (k + 1) '0' ++ d.digits), none⟩

theorem chars_ofPositional (negative : Bool) (d : Decimal) :
    (ofPositional negative d).chars =
      (if negative then ['-'] else []) ++ (d.positional ".0").toList := by
  rw [ofPositional, Decimal.positional]
  cases d.point with
  | negSucc k => simp [chars, placeChars, exponentChars]
  | ofNat k =>
    by_cases hlen : d.digits.length ≤ k
    · simp [hlen, chars, placeChars, exponentChars]
    · by_cases hk : k = 0
      · simp only [if_neg hlen, if_pos hk]
        simp [chars, placeChars, exponentChars]
      · simp [hlen, hk, chars, placeChars, exponentChars]

/-- A decimal does not begin with a zero, unless it is a zero without a power of ten. -/
theorem wellFormed_ofPositional (negative : Bool) {d : Decimal}
    (hd : d = ⟨0, 0⟩ ∨ 0 < d.coefficient) : (ofPositional negative d).WellFormed := by
  have hdigits := areDigits_digits d
  rw [ofPositional]
  cases hpoint : d.point with
  | negSucc k =>
    refine wellFormed_zero ⟨?_, ?_⟩
    · exact List.append_ne_nil_of_right_ne_nil _ hdigits.1
    · exact List.forall_mem_append.mpr ⟨isDigit_replicate (k + 1), hdigits.2⟩
  | ofNat k =>
    by_cases hlen : d.digits.length ≤ k
    · -- a whole number, to which zeros may have been appended
      simp only [if_pos hlen]
      refine ⟨hdigits.append (isDigit_replicate _), ?_, fun _ h => by cases h; exact areDigits_zero,
        nofun⟩
      rcases hd with rfl | hpos
      · cases hpoint
        exact .inl rfl
      · rw [List.head?_append_of_ne_nil _ hdigits.1]
        exact .inr (head?_toDigits hpos)
    · by_cases hk : k = 0
      · simp only [if_neg hlen, if_pos hk]
        exact wellFormed_zero hdigits
      · have hpos : 0 < d.coefficient := by
          rcases hd with rfl | hpos
          · exact absurd (Nat.le_of_eq (Int.ofNat.inj hpoint)) hlen
          · exact hpos
        simp only [if_neg hlen, if_neg hk]
        refine ⟨⟨?_, ?_⟩, .inr ?_, ?_, nofun⟩
        · simpa [hk] using hdigits.1
        · exact fun c hc => hdigits.2 c (List.mem_of_mem_take hc)
        · rw [List.head?_take, if_neg hk]
          exact head?_toDigits hpos
        · rintro cs hcs
          cases hcs
          exact ⟨mt List.drop_eq_nil_iff.mp hlen, fun c hc => hdigits.2 c (List.mem_of_mem_drop hc)⟩

theorem parts_ofPositional (negative : Bool) (d : Decimal) :
    (ofPositional negative d).negative = negative ∧
      (ofPositional negative d).places.isSome = true := by
  rw [ofPositional]
  split
  · split
    · exact ⟨rfl, rfl⟩
    · split
      · exact ⟨rfl, rfl⟩
      · exact ⟨rfl, rfl⟩
  · exact ⟨rfl, rfl⟩

theorem toList_power (power : Int) :
    ("e" ++ ((if power < 0 then "" else "+") ++ toString power)).toList =
      exponentChars (some (power < 0, Nat.toDigits 10 power.natAbs)) := by
  rw [String.toList_append, String.toList_append, Json.toList_toString_int]
  by_cases hp : power < 0
  · simp [exponentChars, hp]
  · simp [exponentChars, hp]

/-- The first digit of a decimal, the other ones if there are any, and a power of ten. -/
def ofScientific (negative : Bool) (d : Decimal) : NumberText :=
  ⟨negative, d.digits.take 1, if d.digits.length = 1 then none else some (d.digits.drop 1),
    some (d.point - 1 < 0, Nat.toDigits 10 (d.point - 1).natAbs)⟩

theorem chars_ofScientific (negative : Bool) (d : Decimal) :
    (ofScientific negative d).chars =
      (if negative then ['-'] else []) ++ (d.scientific "+").toList := by
  rw [ofScientific, Decimal.scientific, String.append_assoc, String.append_assoc,
    String.toList_append, toList_power]
  match hcs : d.digits with
  | [] => exact absurd hcs (areDigits_digits d).1
  | [c] => rw [String.toList_ofList]; rfl
  | c :: c' :: cs => rw [String.toList_ofList]; rfl

theorem wellFormed_ofScientific (negative : Bool) (d : Decimal) :
    (ofScientific negative d).WellFormed := by
  obtain ⟨hne, hdigits⟩ := areDigits_digits d
  obtain ⟨c, cs, hcs⟩ := List.exists_cons_of_ne_nil hne
  rw [hcs, List.forall_mem_cons] at hdigits
  rw [ofScientific, hcs]
  refine ⟨⟨nofun, List.forall_mem_singleton.mpr hdigits.1⟩, .inl rfl, fun places hplaces => ?_,
    fun e he => by cases he; exact areDigits_toDigits _⟩
  cases cs with
  | nil => cases hplaces
  | cons c' cs =>
    cases hplaces
    exact ⟨nofun, hdigits.2⟩

/-- **The text of a finite number** has its sign, and a decimal point or a power of ten. -/
theorem exists_render {x : Binary64} (hx : x.isFinite = true) :
    ∃ t : NumberText, t.WellFormed ∧ t.negative = x.isNegative ∧
      (t.places.isSome = true ∨ t.exponent.isSome = true) ∧
      t.chars = (x.render jsonLayout).toList := by
  have hnan := Binary64.isNaN_eq_false_of_isFinite hx
  have hinfinite := Binary64.isInfinite_eq_false_of_isFinite hx
  have hsign : ∀ s : String, ((if x.isNegative then "-" else "") ++ s).toList =
      (if x.isNegative then ['-'] else []) ++ s.toList := by
    intro s
    rw [String.toList_append]
    cases x.isNegative <;> rfl
  rw [Binary64.render, hnan, if_neg Bool.false_ne_true, hsign, hinfinite,
    if_neg Bool.false_ne_true]
  cases hzero : x.isZero with
  | true =>
    rw [if_pos rfl]
    exact ⟨⟨x.isNegative, ['0'], some ['0'], none⟩, wellFormed_zero areDigits_zero, rfl, .inl rfl,
      rfl⟩
  | false =>
    have hshortest := Binary64.coefficient_shortest hzero jsonLayout.tie
    generalize x.shortest jsonLayout.tie = d at hshortest
    rw [if_neg Bool.false_ne_true]
    by_cases hpositional : jsonLayout.positional d.point = true
    · obtain ⟨hnegative, hplaces⟩ := parts_ofPositional x.isNegative d
      rw [if_pos hpositional]
      exact ⟨ofPositional x.isNegative d, wellFormed_ofPositional _ hshortest, hnegative,
        .inl hplaces, chars_ofPositional _ d⟩
    · rw [if_neg hpositional]
      exact ⟨ofScientific x.isNegative d, wellFormed_ofScientific _ d, rfl, .inr rfl,
        chars_ofScientific _ d⟩

end NumberText

end StructuralMatching
