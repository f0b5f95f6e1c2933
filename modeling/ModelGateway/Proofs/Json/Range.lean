import Mathlib.Algebra.Order.Field.Basic
import Mathlib.Algebra.Order.Ring.Cast
import Mathlib.Tactic.Linarith
import ModelGateway.Proofs.Record.Numbers

/-!
# The range of the doubles

A number is rounded to a finite double exactly if it lies within the range of the doubles
(`Double.ofUnits?_eq_none_iff`): the greatest finite double is `2 ^ 1024 - 2 ^ 971`, and from the
midpoint between it and `2 ^ 1024` on, a number is nearer to the latter, which is no finite double
any more (`Double.IsBeyond`). The operations round their exact results, so they have a result
exactly if the exact one is within the range (`Double.add?_eq_none_iff` and so on).
-/

namespace ModelGateway.Double

/-! ## Rounding up to an even number -/

/-- A quotient is rounded up to an even number from half a unit below it on, since a tie goes to the
even one. -/
theorem le_roundHalfEven_iff {num den k : Nat} (hd : 0 < den) :
    2 * k + 2 ≤ roundHalfEven num den ↔ (4 * k + 3) * den ≤ 2 * num := by
  have hdecomp : num / den * den + num % den = num := Nat.div_add_mod' num den
  have hmod : num % den < den := Nat.mod_lt num hd
  unfold roundHalfEven
  dsimp only
  generalize num / den = q at hdecomp
  generalize num % den = r at hdecomp hmod
  rcases lt_trichotomy q (2 * k + 1) with hlt | rfl | hgt
  · have hq : (q + 1) * den ≤ (2 * k + 1) * den := Nat.mul_le_mul_right den hlt
    refine iff_of_false ?_ ?_
    · split_ifs <;> omega
    · rw [not_le]
      linarith
  · -- the odd quotient below the even number: the remainder decides
    have hround : (4 * k + 3) * den ≤ 2 * num ↔ den ≤ 2 * r := by
      constructor <;> intro h <;> linarith
    rw [hround]
    split_ifs <;> omega
  · have hq : (2 * k + 2) * den ≤ q * den := Nat.mul_le_mul_right den hgt
    refine iff_of_true ?_ ?_
    · split_ifs <;> omega
    · linarith

/-! ## Rounding a quotient of units -/

/-- The power of two in the number of units that the range ends with. -/
def limitExponent : Nat := 2044

/-- The number of units from which on a number is nearer to `2 ^ 1024` than to any finite double:
`(2 ^ 54 - 1) * 2 ^ 2044`. -/
def limit : Nat := 18014398509481983 * 2 ^ limitExponent

/-- A quotient lies below the power of two after the one that its binary logarithm gives. -/
theorem lt_of_log2_div {num den : Nat} (hd : 0 < den) :
    num < 2 ^ ((num / den).log2 + 1) * den :=
  (Nat.div_lt_iff_lt_mul hd).mp Nat.lt_log2_self

/-- A quotient reaches the power of two that its binary logarithm gives, unless it is below one. -/
theorem le_of_log2_div {num den : Nat} (hd : 0 < den) (hlog : (num / den).log2 ≠ 0) :
    2 ^ (num / den).log2 * den ≤ num := by
  rw [← Nat.le_div_iff_mul_le hd]
  refine Nat.log2_self_le ?_
  intro hzero
  rw [hzero] at hlog
  exact hlog rfl

/-- The significand of a quotient has 53 bits, or a carry. -/
theorem roundHalfEven_log2_le {num den : Nat} (hd : 0 < den) :
    roundHalfEven num (den * 2 ^ ((num / den).log2 - 52)) ≤ 9007199254740992 := by
  refine roundHalfEven_le (Nat.mul_pos hd (Nat.two_pow_pos _)) ?_
  have hpow : 2 ^ ((num / den).log2 + 1) ≤ 9007199254740992 * 2 ^ ((num / den).log2 - 52) := by
    have hbits : 9007199254740992 = 2 ^ 53 := by decide
    rw [hbits, ← pow_add]
    exact Nat.pow_le_pow_right (by decide) (by omega)
  calc num ≤ 2 ^ ((num / den).log2 + 1) * den := (lt_of_log2_div hd).le
    _ ≤ 9007199254740992 * 2 ^ ((num / den).log2 - 52) * den := Nat.mul_le_mul_right den hpow
    _ = 9007199254740992 * (den * 2 ^ ((num / den).log2 - 52)) := by ring

/-- The significand of a quotient has its leading bit, unless the exponent is the least one. -/
theorem le_roundHalfEven_log2 {num den : Nat} (hd : 0 < den) (hexp : (num / den).log2 - 52 ≠ 0) :
    4503599627370496 ≤ roundHalfEven num (den * 2 ^ ((num / den).log2 - 52)) := by
  refine le_roundHalfEven (Nat.mul_pos hd (Nat.two_pow_pos _)) ?_
  have hpow : 2 ^ (num / den).log2 = 4503599627370496 * 2 ^ ((num / den).log2 - 52) := by
    have hbits : 4503599627370496 = 2 ^ 52 := by decide
    rw [hbits, ← pow_add]
    congr 1
    omega
  have hle : 2 ^ (num / den).log2 * den ≤ num := le_of_log2_div hd (by omega)
  rw [hpow] at hle
  linarith

/-- The parts are those of a finite double unless the significand or the exponent is out of
range. -/
theorem ofParts?_eq_none_iff {negative : Bool} {mantissa exponent : Nat} :
    ofParts? negative mantissa exponent = none ↔
      ¬(mantissa < 9007199254740992 ∧ exponent ≤ 2045 ∧
        (exponent = 0 ∨ 4503599627370496 ≤ mantissa)) := by
  unfold ofParts?
  by_cases h : mantissa < 9007199254740992 ∧ exponent ≤ 2045 ∧
      (exponent = 0 ∨ 4503599627370496 ≤ mantissa)
  · rw [dif_pos h]
    exact iff_of_false (Option.some_ne_none _) (not_not_intro h)
  · rw [dif_neg h]
    exact iff_of_true rfl h

/-- A quotient of units has no nearest finite double if its exponent is beyond the greatest one, or
is the greatest one and the significand carries. -/
theorem ofUnits?_eq_none_iff_exponent (negative : Bool) {num den : Nat} (hd : 0 < den) :
    ofUnits? negative num den = none ↔
      2045 < (num / den).log2 - 52 ∨ (num / den).log2 - 52 = 2045 ∧
        9007199254740992 ≤ roundHalfEven num (den * 2 ^ ((num / den).log2 - 52)) := by
  have hle := @roundHalfEven_log2_le num den hd
  have hleading := @le_roundHalfEven_log2 num den hd
  unfold ofUnits?
  simp only [Nat.pow_eq]
  generalize (num / den).log2 - 52 = exponent at hle hleading
  split_ifs with hcarry
  · rw [ofParts?_eq_none_iff]
    omega
  · rw [ofParts?_eq_none_iff]
    omega

/-- A quotient of units is rounded to a finite double unless it reaches the limit. -/
theorem ofUnits?_eq_none_iff_limit (negative : Bool) {num den : Nat} (hd : 0 < den) :
    ofUnits? negative num den = none ↔ limit * den ≤ num := by
  have hlt := @lt_of_log2_div num den hd
  have hge := @le_of_log2_div num den hd
  have hlimit : limit * den = 18014398509481983 * (2 ^ limitExponent * den) := by
    unfold limit
    ring
  rw [ofUnits?_eq_none_iff_exponent negative hd, hlimit]
  have hexponent : limitExponent = 2044 := rfl
  generalize limitExponent = k at hexponent
  rcases lt_trichotomy (num / den).log2 (k + 53) with hlog | hlog | hlog
  · -- the quotient is below `2 ^ 1024`
    refine iff_of_false (by omega) (not_le.mpr ?_)
    have hpow : 2 ^ ((num / den).log2 + 1) ≤ 2 ^ 53 * 2 ^ k := by
      rw [← pow_add]
      exact Nat.pow_le_pow_right (by decide) (by omega)
    have hmul := Nat.mul_le_mul_right den hpow
    have hpos := Nat.mul_pos (Nat.two_pow_pos k) hd
    linarith
  · -- the significand decides
    have hsplit : den * 2 ^ ((num / den).log2 - 52) = 2 * (2 ^ k * den) := by
      have hnext : (num / den).log2 - 52 = k + 1 := by omega
      rw [hnext, pow_succ]
      ring
    have hround := @le_roundHalfEven_iff num _ 4503599627370495
      (Nat.mul_pos hd (Nat.two_pow_pos ((num / den).log2 - 52)))
    rw [hsplit] at hround ⊢
    constructor
    · intro h
      have hcarry := hround.mp (h.resolve_left (by omega)).2
      linarith
    · intro h
      exact .inr ⟨by omega, hround.mpr (by linarith)⟩
  · -- the quotient is at least `2 ^ 1025`
    refine iff_of_true (.inl (by omega)) ?_
    have hpow : 2 ^ 54 * 2 ^ k ≤ 2 ^ (num / den).log2 := by
      rw [← pow_add]
      exact Nat.pow_le_pow_right (by decide) (by omega)
    have hmul := Nat.mul_le_mul_right den hpow
    have hreach := hge (by omega)
    linarith

/-! ## Values beyond the range -/

/-- A value that is nearer to `2 ^ 1024`, or to its negative, than to any finite double, or as near
to it as to the greatest one. -/
def IsBeyond (value : ℚ) : Prop :=
  2 ^ 1024 - 2 ^ 970 ≤ |value|

/-- A value is beyond the range if its number of units reaches the limit. -/
theorem isBeyond_iff_limit {value : ℚ} : IsBeyond value ↔ (limit : ℚ) ≤ |value| * one := by
  have hsplit : ∀ a b c : ℕ, a = b + c → (2 : ℚ) ^ a = 2 ^ b * 2 ^ c := by
    rintro _ b c rfl
    exact pow_add 2 b c
  have hlimit : (limit : ℚ) = (2 ^ 1024 - 2 ^ 970) * (one : ℚ) := by
    rw [one_eq, hsplit 1024 54 970 rfl]
    unfold limit
    rw [Nat.cast_mul, Nat.cast_pow, Nat.cast_pow, Nat.cast_ofNat, Nat.cast_ofNat,
      hsplit limitExponent 970 unitExponent rfl]
    generalize (2 : ℚ) ^ 970 = gap
    ring
  unfold IsBeyond
  rw [hlimit, mul_le_mul_iff_left₀ Number.one_pos_rat]

/-- The absolute value of a double, in units. -/
theorem abs_value_mul_one (d : Double) : |d.value| * one = d.magnitude := by
  have habs : |d.value| = d.magnitude / (one : ℚ) := by
    rw [value_eq_units, abs_div, abs_of_pos Number.one_pos_rat]
    unfold units
    split_ifs
    · rw [Int.cast_neg, abs_neg, Int.cast_natCast, Nat.abs_cast]
    · rw [Int.cast_natCast, Nat.abs_cast]
  rw [habs, div_mul_cancel₀ _ Number.one_pos_rat.ne']

/-- A quotient of units is rounded to a finite double unless its value is beyond the range. -/
theorem ofUnits?_eq_none_iff (negative : Bool) {num den : Nat} (hd : 0 < den) {value : ℚ}
    (hvalue : |value| * one * den = num) :
    ofUnits? negative num den = none ↔ IsBeyond value := by
  rw [ofUnits?_eq_none_iff_limit negative hd, isBeyond_iff_limit]
  have hden : (0 : ℚ) < den := Nat.cast_pos.mpr hd
  rw [← mul_le_mul_iff_left₀ hden, hvalue]
  exact_mod_cast Iff.rfl

/-! ## Operations -/

variable {x y : Double}

/-- Zero is within the range. -/
theorem not_isBeyond_zero : ¬IsBeyond 0 := by
  rw [isBeyond_iff_limit, abs_zero, zero_mul, not_le, Nat.cast_pos]
  exact Nat.mul_pos (by decide) (Nat.two_pow_pos _)

/-- The sum is finite unless the exact sum is beyond the range. -/
theorem add?_eq_none_iff : x.add? y = none ↔ IsBeyond (x.value + y.value) := by
  have hsum : (x.value + y.value) * one = (x.units + y.units : Int) := by
    rw [value_eq_units, value_eq_units, ← add_div, div_mul_cancel₀ _ Number.one_pos_rat.ne',
      Int.cast_add]
  unfold add?
  dsimp only
  by_cases hzero : x.units + y.units = 0
  · rw [if_pos hzero]
    rw [hzero, Int.cast_zero] at hsum
    have hvalue := (mul_eq_zero_iff_right Number.one_pos_rat.ne').mp hsum
    rw [hvalue]
    exact iff_of_false (Option.some_ne_none _) not_isBeyond_zero
  · rw [if_neg hzero]
    refine ofUnits?_eq_none_iff _ Nat.one_pos ?_
    have hnatAbs : ((x.units + y.units).natAbs : ℚ) = |((x.units + y.units : Int) : ℚ)| := by
      rw [← Int.cast_abs, Int.abs_eq_natAbs, Int.cast_natCast]
    rw [hnatAbs, ← hsum, abs_mul, abs_of_pos Number.one_pos_rat, Nat.cast_one, mul_one]

/-- The value of the double with the other sign. -/
theorem value_neg (x : Double) : x.neg.value = -x.value := by
  unfold neg value
  cases x.negative <;> simp

/-- The difference is finite unless the exact one is beyond the range. -/
theorem sub?_eq_none_iff : x.sub? y = none ↔ IsBeyond (x.value - y.value) := by
  unfold sub?
  rw [add?_eq_none_iff, value_neg, sub_eq_add_neg]

/-- The product is finite unless the exact one is beyond the range. -/
theorem mul?_eq_none_iff : x.mul? y = none ↔ IsBeyond (x.value * y.value) := by
  unfold mul?
  refine ofUnits?_eq_none_iff _ (Nat.cast_pos.mp Number.one_pos_rat) ?_
  rw [abs_mul, Nat.cast_mul, ← abs_value_mul_one, ← abs_value_mul_one]
  ring

/-- A double is zero if its significand is. -/
theorem value_eq_zero_iff : x.value = 0 ↔ x.mantissa = 0 := by
  unfold value
  have hpow : (2 : ℚ) ^ ((x.exponent : ℤ) - 1074) ≠ 0 := zpow_ne_zero _ two_ne_zero
  rw [mul_eq_zero_iff_right hpow]
  split_ifs <;> simp

/-- The quotient is finite unless the divisor is zero or the exact one is beyond the range. -/
theorem div?_eq_none_iff :
    x.div? y = none ↔ y.value = 0 ∨ IsBeyond (x.value / y.value) := by
  unfold div?
  rw [value_eq_zero_iff]
  by_cases hzero : y.mantissa = 0
  · rw [if_pos hzero]
    exact iff_of_true rfl (.inl hzero)
  · rw [if_neg hzero, or_iff_right hzero]
    have hpos : 0 < y.magnitude := Nat.mul_pos (Nat.pos_of_ne_zero hzero) (Nat.two_pow_pos _)
    refine ofUnits?_eq_none_iff _ hpos ?_
    have hvalue : |y.value| ≠ 0 := by
      rw [ne_eq, abs_eq_zero, value_eq_zero_iff]
      exact hzero
    rw [abs_div, Nat.cast_mul, ← abs_value_mul_one, ← abs_value_mul_one]
    rw [div_mul_eq_mul_div, div_mul_eq_mul_div, div_eq_iff hvalue]
    ring

end ModelGateway.Double
