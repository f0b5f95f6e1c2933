import Mathlib.Algebra.Order.Ring.Cast
import ModelGateway.Proofs.Json.Rounding
import ModelGateway.Proofs.Record.Equality

/-!
# The order of numbers

A number denotes an exact value (`Number.value`), and has a nearest double. Two numbers are compared
by their values if both are 64-bit whole numbers, and else by their nearest doubles.

* **Order** (`Number.comparison_exact_iff`): comparing never reverses the order of the values, since
  rounding does not. It is the order of the values unless the numbers are blurred
  (`Number.Blurred`): different, but with the same nearest double. Then they compare as equal,
  unless both are 64-bit whole numbers.
* **Equality**: so equality of numbers is not transitive at large. It is an equivalence on a set
  exactly if no number of the set that is not a 64-bit whole number blurs two that are
  (`Number.Separates`). Doubles and whole numbers of at most 53 bits are such a set
  (`Number.separates_isShort`), and are compared exactly.
* **Blurred numbers** (`Number.comparison_blurs`): `2 ^ 53` and `2 ^ 53 + 1` differ, and both equal
  the double `2 ^ 53`; two unsigned numbers may equal each other.
-/

namespace ModelGateway

/-! ## Values -/

/-- The value of a double. -/
def Double.value (d : Double) : ℚ :=
  (if d.negative then -1 else 1) * d.mantissa * 2 ^ ((d.exponent : ℤ) - 1074)

/-- The value of a double is that of its units. -/
theorem Double.value_eq_units (d : Double) : d.value = d.units / (Double.one : ℚ) := by
  have hone : (Double.one : ℚ) = 2 ^ Double.unitExponent := by
    rw [Double.one_eq, Nat.cast_pow, Nat.cast_ofNat]
  have hmagnitude : (d.magnitude : ℚ) = d.mantissa * 2 ^ d.exponent := by
    rw [Double.magnitude, Nat.pow_eq, Nat.cast_mul, Nat.cast_pow, Nat.cast_ofNat]
  have hpow : (2 : ℚ) ^ ((d.exponent : ℤ) - 1074) = 2 ^ d.exponent / 2 ^ Double.unitExponent := by
    have hexp : (1074 : ℤ) = (Double.unitExponent : ℤ) := rfl
    rw [hexp, zpow_sub₀ two_ne_zero, zpow_natCast, zpow_natCast]
  unfold value units
  rw [hone, hpow]
  split_ifs
  · rw [Int.cast_neg, Int.cast_natCast, hmagnitude]
    ring
  · rw [Int.cast_natCast, hmagnitude]
    ring

namespace Number

/-- The value of a number. -/
def value : Number → ℚ
  | .int n _ => n
  | .double d => d.value

/-- The value of a number in units of doubles. -/
def units : Number → Int
  | .int n _ => n * Double.one
  | .double d => d.units

/-- Two numbers of different values with the same nearest double. -/
def Blurred (x y : Number) : Prop :=
  x.value ≠ y.value ∧ x.toDouble.value = y.toDouble.value

/-- One is positive. -/
theorem one_pos_rat : (0 : ℚ) < Double.one := by
  exact_mod_cast Double.one_pos

/-- The value of a number is that of its units. -/
theorem value_eq_units (x : Number) : x.value = x.units / (Double.one : ℚ) := by
  cases x with
  | int n _ =>
    unfold value units
    rw [Int.cast_mul, Int.cast_natCast, mul_div_cancel_right₀ _ one_pos_rat.ne']
  | double d => exact d.value_eq_units

/-- Values are ordered as their units are. -/
theorem value_lt_iff {x y : Number} : x.value < y.value ↔ x.units < y.units := by
  rw [value_eq_units, value_eq_units, div_lt_div_iff_of_pos_right one_pos_rat, Int.cast_lt]

/-- Values are equal if their units are. -/
theorem value_eq_iff {x y : Number} : x.value = y.value ↔ x.units = y.units := by
  rw [value_eq_units, value_eq_units, div_left_inj' one_pos_rat.ne', Int.cast_inj]

/-! ## Nearest doubles -/

/-- The nearest double in units is the rounded number of units. -/
theorem units_toDouble (x : Number) : x.toDouble.units = Double.roundUnits x.units := by
  cases x with
  | int n fits =>
    obtain ⟨d, hd, hunits⟩ := Double.exists_ofInt? fits
    have hdouble : (Number.int n fits).toDouble = d := by
      rw [toDouble, hd, Option.getD_some]
    rw [hdouble]
    exact hunits
  | double d => exact (Double.roundUnits_units d).symm

/-- Two numbers have the same nearest double if their units are rounded to the same. -/
theorem value_toDouble_eq_iff {x y : Number} :
    x.toDouble.value = y.toDouble.value ↔
      Double.roundUnits x.units = Double.roundUnits y.units := by
  have h := value_eq_iff (x := .double x.toDouble) (y := .double y.toDouble)
  rw [← units_toDouble, ← units_toDouble]
  exact h

/-- Numbers are blurred if different units are rounded to the same. -/
theorem blurred_iff {x y : Number} :
    x.Blurred y ↔ x.units ≠ y.units ∧ Double.roundUnits x.units = Double.roundUnits y.units := by
  unfold Blurred
  rw [value_toDouble_eq_iff, ne_eq, value_eq_iff]

/-- A whole number of at most 53 bits is its own nearest double. -/
theorem value_toDouble_small {n : Int} {fits : IsWord n} (hn : n.natAbs ≤ 2 ^ 53) :
    (Number.int n fits).toDouble.value = n := by
  have hunits : (Number.double (Number.int n fits).toDouble).units = (Number.int n fits).units := by
    have h := units_toDouble (.int n fits)
    unfold units at h ⊢
    rwa [Double.roundUnits_small hn] at h
  exact value_eq_iff.mpr hunits

/-! ## Comparing -/

/-- Whether a number is a 64-bit whole number. -/
def IsInt64 (x : Number) : Prop :=
  x.toInt64?.isSome = true

/-- Scaling by one keeps the order of whole numbers. -/
theorem compare_mul_one (a b : Int) : compare (a * Double.one) (b * Double.one) = compare a b := by
  rcases lt_trichotomy a b with hlt | rfl | hgt
  · rw [compare_lt_iff_lt.mpr hlt, compare_lt_iff_lt]
    exact Int.mul_lt_mul_of_pos_right hlt Double.one_pos
  · rw [compare_eq_iff_eq.mpr rfl, compare_eq_iff_eq.mpr rfl]
  · rw [compare_gt_iff_gt.mpr hgt, compare_gt_iff_gt]
    exact Int.mul_lt_mul_of_pos_right hgt Double.one_pos

/-- The signed 64-bit whole number that a number is. -/
theorem isInt64_of_toInt64? {x : Number} {n : Int} (h : x.toInt64? = some n) :
    ModelGateway.IsInt64 n := by
  cases x with
  | int m _ =>
    obtain ⟨hint, rfl⟩ := int64?_eq_some_iff.mp h
    exact hint
  | double _ => cases h

/-- A 64-bit whole number in units. -/
theorem units_of_toInt64? {x : Number} {n : Int} (h : x.toInt64? = some n) :
    x.units = n * Double.one := by
  cases x with
  | int m _ =>
    obtain ⟨-, rfl⟩ := int64?_eq_some_iff.mp h
    rfl
  | double _ => cases h

/-- 64-bit whole numbers are compared by their values. -/
theorem compareNumbers_of_isInt64 {x y : Number} (hx : x.IsInt64) (hy : y.IsInt64) :
    compareNumbers x y = compare x.units y.units := by
  obtain ⟨a, ha⟩ := Option.isSome_iff_exists.mp hx
  obtain ⟨b, hb⟩ := Option.isSome_iff_exists.mp hy
  rw [units_of_toInt64? ha, units_of_toInt64? hb, compare_mul_one]
  unfold compareNumbers
  rw [ha, hb]

/-- Other numbers are compared by their nearest doubles. -/
theorem compareNumbers_of_not_isInt64 {x y : Number} (h : ¬(x.IsInt64 ∧ y.IsInt64)) :
    compareNumbers x y = compare (Double.roundUnits x.units) (Double.roundUnits y.units) := by
  rw [← units_toDouble, ← units_toDouble]
  unfold IsInt64 at h
  unfold compareNumbers
  split
  · rename_i hx hy
    rw [hx, hy] at h
    exact absurd ⟨rfl, rfl⟩ h
  · rfl

/-- Comparing never reverses the order of the values. -/
theorem compareNumbers_ne_gt {x y : Number} (h : x.value < y.value) : compareNumbers x y ≠ .gt := by
  rw [value_lt_iff] at h
  by_cases hint : x.IsInt64 ∧ y.IsInt64
  · rw [compareNumbers_of_isInt64 hint.1 hint.2, compare_lt_iff_lt.mpr h]
    decide
  · rw [compareNumbers_of_not_isInt64 hint, ne_eq, compare_gt_iff_gt]
    exact not_lt.mpr (Double.roundUnits_mono h.le)

/-- Numbers compare as equal if their values are equal, or are blurred and not both 64-bit whole
numbers. -/
theorem compareNumbers_eq_iff {x y : Number} :
    compareNumbers x y = .eq ↔ x.value = y.value ∨ x.Blurred y ∧ ¬(x.IsInt64 ∧ y.IsInt64) := by
  rw [blurred_iff, value_eq_iff]
  by_cases hint : x.IsInt64 ∧ y.IsInt64
  · rw [compareNumbers_of_isInt64 hint.1 hint.2, compare_eq_iff_eq]
    tauto
  · rw [compareNumbers_of_not_isInt64 hint, compare_eq_iff_eq]
    constructor
    · intro hround
      by_cases hunits : x.units = y.units
      · exact .inl hunits
      · exact .inr ⟨⟨hunits, hround⟩, hint⟩
    · rintro (hunits | ⟨⟨-, hround⟩, -⟩)
      · rw [hunits]
      · exact hround

/-- Numbers that are told apart have their values in that order. -/
theorem value_lt_of_compareNumbers_lt {x y : Number} (h : compareNumbers x y = .lt) :
    x.value < y.value := by
  rcases lt_trichotomy x.value y.value with hlt | heq | hgt
  · exact hlt
  · rw [compareNumbers_eq_iff.mpr (.inl heq)] at h
    cases h
  · have hne := compareNumbers_ne_gt hgt
    rw [← compareNumbers_swap, h] at hne
    exact absurd rfl hne

/-- The comparison is the order of the values, unless the numbers are blurred and not both 64-bit
whole numbers. -/
theorem compareNumbers_eq_compare_iff {x y : Number} :
    compareNumbers x y = compare x.value y.value ↔ (x.Blurred y → x.IsInt64 ∧ y.IsInt64) := by
  constructor
  · intro h hblurred
    by_contra hint
    have heq := compareNumbers_eq_iff.mpr (.inr ⟨hblurred, hint⟩)
    rw [heq] at h
    exact hblurred.1 (compare_eq_iff_eq.mp h.symm)
  · intro h
    cases hc : compareNumbers x y with
    | lt => exact (compare_lt_iff_lt.mpr (value_lt_of_compareNumbers_lt hc)).symm
    | gt =>
      rw [← compareNumbers_swap, Ordering.swap_eq_gt] at hc
      exact (compare_gt_iff_gt.mpr (value_lt_of_compareNumbers_lt hc)).symm
    | eq =>
      rcases compareNumbers_eq_iff.mp hc with heq | ⟨hblurred, hint⟩
      · exact (compare_eq_iff_eq.mpr heq).symm
      · exact absurd (h hblurred) hint

/-- Numbers that compare as equal have one nearest double. -/
theorem value_toDouble_eq_of_compareNumbers {x y : Number} (h : compareNumbers x y = .eq) :
    x.toDouble.value = y.toDouble.value := by
  rcases compareNumbers_eq_iff.mp h with heq | ⟨hblurred, -⟩
  · rw [value_toDouble_eq_iff, value_eq_iff.mp heq]
  · exact hblurred.2

/-- Numbers of one nearest double compare as equal, unless both are 64-bit whole numbers. -/
theorem compareNumbers_eq_of_value_toDouble {x y : Number}
    (h : x.toDouble.value = y.toDouble.value) (hint : ¬(x.IsInt64 ∧ y.IsInt64)) :
    compareNumbers x y = .eq := by
  rw [compareNumbers_of_not_isInt64 hint, compare_eq_iff_eq]
  exact value_toDouble_eq_iff.mp h

/-- Coming before is transitive: of three numbers in the order of their values the outer ones have
one nearest double only if all three have, and then all three are 64-bit whole numbers. -/
theorem compareNumbers_lt_trans {x y z : Number} (hxy : compareNumbers x y = .lt)
    (hyz : compareNumbers y z = .lt) : compareNumbers x z = .lt := by
  have hxyvalue := value_lt_of_compareNumbers_lt hxy
  have hyzvalue := value_lt_of_compareNumbers_lt hyz
  have hxzvalue := hxyvalue.trans hyzvalue
  cases hxz : compareNumbers x z with
  | lt => rfl
  | gt => exact absurd hxz (compareNumbers_ne_gt hxzvalue)
  | eq =>
    have hxzround := value_toDouble_eq_iff.mp (value_toDouble_eq_of_compareNumbers hxz)
    have hxyround := Double.roundUnits_mono (value_lt_iff.mp hxyvalue).le
    have hyzround := Double.roundUnits_mono (value_lt_iff.mp hyzvalue).le
    have hxyint : x.IsInt64 ∧ y.IsInt64 := by
      by_contra hint
      have heq := value_toDouble_eq_iff.mpr (hxyround.antisymm (hyzround.trans hxzround.ge))
      rw [compareNumbers_eq_of_value_toDouble heq hint] at hxy
      cases hxy
    have hyzint : y.IsInt64 ∧ z.IsInt64 := by
      by_contra hint
      have heq := value_toDouble_eq_iff.mpr (hyzround.antisymm (hxzround.ge.trans hxyround))
      rw [compareNumbers_eq_of_value_toDouble heq hint] at hyz
      cases hyz
    rw [compareNumbers_of_isInt64 hxyint.1 hyzint.2, compare_eq_iff_eq] at hxz
    exact absurd (value_eq_iff.mpr hxz) hxzvalue.ne

/-! ## Equality -/

/-- No number of the set blurs two 64-bit whole numbers of the set, without being one itself. -/
def Separates (S : Set Number) : Prop :=
  ∀ x ∈ S, ∀ y ∈ S, ∀ z ∈ S, x.IsInt64 → ¬y.IsInt64 → z.IsInt64 →
    x.toDouble.value = y.toDouble.value → y.toDouble.value = z.toDouble.value → x.value = z.value

/-- Equality is transitive on a set of which no number blurs others. -/
theorem Separates.trans {S : Set Number} (h : Separates S) {x y z : Number} (hx : x ∈ S)
    (hy : y ∈ S) (hz : z ∈ S) (hxy : compareNumbers x y = .eq) (hyz : compareNumbers y z = .eq) :
    compareNumbers x z = .eq := by
  have hxyround := value_toDouble_eq_of_compareNumbers hxy
  have hyzround := value_toDouble_eq_of_compareNumbers hyz
  by_cases hint : x.IsInt64 ∧ z.IsInt64
  · by_cases hyint : y.IsInt64
    · exact compareNumbers_trans hint.1 hyint hint.2 hxy hyz
    · exact compareNumbers_eq_iff.mpr
        (.inl (h x hx y hy z hz hint.1 hyint hint.2 hxyround hyzround))
  · exact compareNumbers_eq_of_value_toDouble (hxyround.trans hyzround) hint

/-- Equality of the numbers of a set. -/
def EqualIn (S : Set Number) (x y : S) : Prop :=
  valuesEqual (.num x) (.num y) = true

/-- Equality of numbers is comparing as equal. -/
theorem equalIn_iff {S : Set Number} {x y : S} : EqualIn S x y ↔ compareNumbers x y = .eq := by
  unfold EqualIn valuesEqual
  exact beq_iff_eq

/-- Equality is an equivalence on the sets of which no number blurs others. -/
theorem equivalence_equalIn_iff {S : Set Number} : Equivalence (EqualIn S) ↔ Separates S := by
  constructor
  · intro h x hx y hy z hz hxint hyint hzint hxy hyz
    have hxeq : EqualIn S ⟨x, hx⟩ ⟨y, hy⟩ :=
      equalIn_iff.mpr (compareNumbers_eq_of_value_toDouble hxy fun hboth => hyint hboth.2)
    have hyeq : EqualIn S ⟨y, hy⟩ ⟨z, hz⟩ :=
      equalIn_iff.mpr (compareNumbers_eq_of_value_toDouble hyz fun hboth => hyint hboth.1)
    rcases compareNumbers_eq_iff.mp (equalIn_iff.mp (h.trans hxeq hyeq)) with heq | ⟨-, hint⟩
    · exact heq
    · exact absurd ⟨hxint, hzint⟩ hint
  · intro h
    constructor
    · intro x
      exact equalIn_iff.mpr (compareNumbers_self x)
    · intro x y hxy
      rw [equalIn_iff] at hxy ⊢
      rw [← compareNumbers_swap, hxy]
      rfl
    · intro x y z hxy hyz
      rw [equalIn_iff] at hxy hyz ⊢
      exact h.trans x.2 y.2 z.2 hxy hyz

/-- Whether a number is its own nearest double: a double, or a whole number of at most 53 bits. -/
def IsShort : Number → Prop
  | .int n _ => n.natAbs ≤ 2 ^ 53
  | .double _ => True

/-- A short number has the value of its nearest double. -/
theorem IsShort.value_toDouble {x : Number} (h : x.IsShort) : x.toDouble.value = x.value := by
  cases x with
  | int n _ => exact value_toDouble_small h
  | double d => rfl

/-- Short numbers are not blurred. -/
theorem IsShort.not_blurred {x y : Number} (hx : x.IsShort) (hy : y.IsShort) : ¬x.Blurred y := by
  rintro ⟨hne, heq⟩
  rw [hx.value_toDouble, hy.value_toDouble] at heq
  exact hne heq

/-- Short numbers are compared exactly. -/
theorem IsShort.compareNumbers {x y : Number} (hx : x.IsShort) (hy : y.IsShort) :
    ModelGateway.compareNumbers x y = compare x.value y.value :=
  compareNumbers_eq_compare_iff.mpr fun h => absurd h (hx.not_blurred hy)

/-- Equality is an equivalence on short numbers. -/
theorem separates_isShort : Separates {x | x.IsShort} := by
  intro x hx y _ z hz _ _ _ hxy hyz
  have hround := hxy.trans hyz
  rwa [IsShort.value_toDouble hx, IsShort.value_toDouble hz] at hround

/-- Comparing numbers, by their values. The comparison is exact unless the numbers are blurred and
not both 64-bit whole numbers; it never reverses the values; numbers are equal if their values are,
or if they are so blurred; and equality is an equivalence on a set exactly if no number of the set
that is not a 64-bit whole number blurs two that are. -/
theorem comparison_exact_iff (x y : Number) (S : Set Number) :
    (compareValues (.num x) (.num y) = some (compare x.value y.value) ↔
      (x.Blurred y → x.IsInt64 ∧ y.IsInt64)) ∧
    (x.value < y.value → compareValues (.num x) (.num y) ≠ some .gt) ∧
    (valuesEqual (.num x) (.num y) = true ↔
      x.value = y.value ∨ x.Blurred y ∧ ¬(x.IsInt64 ∧ y.IsInt64)) ∧
    (Equivalence (EqualIn S) ↔ Separates S) := by
  refine ⟨?_, ?_, ?_, equivalence_equalIn_iff⟩
  · rw [compareValues, Option.some_inj]
    exact compareNumbers_eq_compare_iff
  · intro h
    rw [compareValues, ne_eq, Option.some_inj]
    exact compareNumbers_ne_gt h
  · rw [valuesEqual, beq_iff_eq]
    exact compareNumbers_eq_iff

/-- The double `2 ^ 53`. -/
def double53 : Number :=
  .double (.mk false 4503599627370496 1075 (by decide) (by decide) (by decide))

/-- Two unsigned numbers that differ compare as equal. And `2 ^ 53 + 1` and `2 ^ 53` equal the
double `2 ^ 53`, but not each other. -/
theorem comparison_blurs :
    (compareValues (.num (.int 9223372036854775808 (by decide)))
        (.num (.int 9223372036854775809 (by decide))) = some .eq ∧
      (Number.int 9223372036854775808 (by decide)).value
        ≠ (Number.int 9223372036854775809 (by decide)).value) ∧
    (valuesEqual (.num (.int 9007199254740993 (by decide))) (.num double53) = true ∧
      valuesEqual (.num double53) (.num (.int 9007199254740992 (by decide))) = true ∧
      valuesEqual (.num (.int 9007199254740993 (by decide)))
        (.num (.int 9007199254740992 (by decide))) = false) := by
  refine ⟨⟨by decide +kernel, ?_⟩, by decide +kernel, by decide +kernel, by decide +kernel⟩
  unfold value
  rw [ne_eq, Int.cast_inj]
  decide

end Number

end ModelGateway
