import Mathlib.Algebra.Order.Field.Rat
import Mathlib.Tactic.Ring
import ModelGateway.Json.Number

/-!
# Rounding whole numbers to doubles

* **One rounding** (`Double.rounded`): the double nearest to a number of units has the magnitude
  that keeps the 53 leading bits of the number (`Double.exists_ofUnits?`).
* **Order** (`Double.rounded_mono`): rounding never reverses the order of two numbers of units.
  Within one binary exponent it is division by one power of two, which rounds monotonically; between
  two exponents lies a power of two, which no rounding crosses (`Double.two_pow_le_rounded`,
  `Double.rounded_le_two_pow`).
* **Exactness** (`Double.rounded_magnitude`, `Double.rounded_small`): what is a double already, and
  what has at most 53 bits, is kept.
-/

namespace ModelGateway.Double

/-! ## Nearest whole numbers -/

/-- A quotient is not rounded up past a whole number. -/
theorem roundHalfEven_le {num den k : Nat} (hd : 0 < den) (h : num ≤ k * den) :
    roundHalfEven num den ≤ k := by
  have hdiv : num / den ≤ k := Nat.div_le_of_le_mul (by rwa [Nat.mul_comm])
  unfold roundHalfEven
  dsimp only
  split_ifs with hc
  · exact hdiv
  · -- rounding up needs a remainder, so the quotient is below `k`
    by_contra hk
    have hq : num / den = k := by omega
    have hdecomp := Nat.div_add_mod num den
    rw [hq, Nat.mul_comm] at hdecomp
    have hzero : num % den = 0 := by omega
    exact hc (.inl (by omega))

/-- A quotient is not rounded down past a whole number. -/
theorem le_roundHalfEven {num den k : Nat} (hd : 0 < den) (h : k * den ≤ num) :
    k ≤ roundHalfEven num den := by
  have hdiv : k ≤ num / den := (Nat.le_div_iff_mul_le hd).mpr h
  unfold roundHalfEven
  dsimp only
  split_ifs <;> omega

/-- Quotients by one number are rounded in order. -/
theorem roundHalfEven_mono {a b den : Nat} (h : a ≤ b) :
    roundHalfEven a den ≤ roundHalfEven b den := by
  rcases Nat.lt_or_eq_of_le (Nat.div_le_div_right (c := den) h) with hlt | heq
  · -- a whole number lies between the two quotients
    have ha : roundHalfEven a den ≤ a / den + 1 := by
      unfold roundHalfEven
      dsimp only
      split_ifs <;> omega
    have hb : b / den ≤ roundHalfEven b den := by
      unfold roundHalfEven
      dsimp only
      split_ifs <;> omega
    omega
  · have hmod : a % den ≤ b % den := by
      have ha := Nat.div_add_mod a den
      have hb := Nat.div_add_mod b den
      rw [heq] at ha
      omega
    unfold roundHalfEven
    dsimp only
    rw [heq]
    split_ifs <;> omega

/-- A whole quotient is kept. -/
theorem roundHalfEven_mul {k den : Nat} (hd : 0 < den) : roundHalfEven (k * den) den = k :=
  Nat.le_antisymm (roundHalfEven_le hd le_rfl) (le_roundHalfEven hd le_rfl)

/-! ## Magnitudes -/

/-- The binary exponent of the double nearest to a number of units. -/
def exponentOf (n : Nat) : Nat :=
  n.log2 - 52

/-- The significand of the double nearest to a number of units, before a carry. -/
def mantissaOf (n : Nat) : Nat :=
  roundHalfEven n (2 ^ exponentOf n)

/-- The number of units of the double nearest to a number of units. -/
def rounded (n : Nat) : Nat :=
  mantissaOf n * 2 ^ exponentOf n

/-- A power of two splits at the exponent of a number that reaches it. -/
theorem two_pow_eq_mul {n k : Nat} (h : exponentOf n ≤ k) :
    2 ^ k = 2 ^ (k - exponentOf n) * 2 ^ exponentOf n := by
  rw [← pow_add]
  congr 1
  omega

/-- A number of units with a power of two as its last bits is kept. -/
theorem rounded_mul_two_pow {m e : Nat} (h : exponentOf (m * 2 ^ e) ≤ e) :
    rounded (m * 2 ^ e) = m * 2 ^ e := by
  unfold rounded mantissaOf
  generalize exponentOf (m * 2 ^ e) = k at h
  obtain ⟨d, rfl⟩ := Nat.exists_eq_add_of_le h
  have hsplit : m * 2 ^ (k + d) = m * 2 ^ d * 2 ^ k := by ring
  rw [hsplit, roundHalfEven_mul (Nat.two_pow_pos k)]

/-- A power of two at most a number is at most the rounded number. -/
theorem two_pow_le_rounded {n k : Nat} (hn : n ≠ 0) (h : k ≤ n.log2) : 2 ^ k ≤ rounded n := by
  have hk : 2 ^ k ≤ 2 ^ n.log2 := Nat.pow_le_pow_right (by decide) h
  have hself := Nat.log2_self_le hn
  rw [two_pow_eq_mul (Nat.sub_le _ _)] at hk hself
  exact hk.trans (Nat.mul_le_mul_right _ (le_roundHalfEven (Nat.two_pow_pos _) hself))

/-- A power of two above a number is at least the rounded number. -/
theorem rounded_le_two_pow (n : Nat) : rounded n ≤ 2 ^ (n.log2 + 1) := by
  have hlt : n < 2 ^ (n.log2 + 1) := Nat.lt_log2_self
  have hexp : exponentOf n ≤ n.log2 + 1 := (Nat.sub_le _ _).trans (Nat.le_succ _)
  rw [two_pow_eq_mul hexp] at hlt ⊢
  exact Nat.mul_le_mul_right _ (roundHalfEven_le (Nat.two_pow_pos _) hlt.le)

/-- A greater number has at least as many bits. -/
theorem log2_mono {a b : Nat} (h : a ≤ b) : a.log2 ≤ b.log2 := by
  rcases Nat.eq_zero_or_pos a with rfl | ha
  · exact Nat.zero_le _
  · have hb : b ≠ 0 := by omega
    exact (Nat.le_log2 hb).mpr ((Nat.log2_self_le (by omega)).trans h)

/-- Rounding keeps the order of numbers of units. -/
theorem rounded_mono {a b : Nat} (h : a ≤ b) : rounded a ≤ rounded b := by
  rcases Nat.lt_or_eq_of_le (log2_mono h) with hlt | heq
  · have hb : b ≠ 0 := by
      rintro rfl
      exact absurd hlt (Nat.not_lt_zero _)
    exact (rounded_le_two_pow a).trans (two_pow_le_rounded hb hlt)
  · unfold rounded mantissaOf exponentOf
    rw [heq]
    exact Nat.mul_le_mul_right _ (roundHalfEven_mono h)

/-! ## Doubles -/

/-- The significand has 53 bits, or a carry. -/
theorem mantissaOf_le (n : Nat) : mantissaOf n ≤ 2 ^ 53 := by
  refine roundHalfEven_le (Nat.two_pow_pos _) ?_
  rw [← pow_add]
  refine Nat.lt_log2_self.le.trans (Nat.pow_le_pow_right (by decide) ?_)
  unfold exponentOf
  omega

/-- The significand has its leading bit, unless the exponent is the least one. -/
theorem le_mantissaOf {n : Nat} (h : exponentOf n ≠ 0) : 2 ^ 52 ≤ mantissaOf n := by
  refine le_roundHalfEven (Nat.two_pow_pos _) ?_
  have hlog : n.log2 = 52 + exponentOf n := by
    unfold exponentOf at h ⊢
    omega
  have hn : n ≠ 0 := by
    rintro rfl
    exact h rfl
  have hself := Nat.log2_self_le hn
  rwa [hlog, pow_add] at hself

/-- The double nearest to a number of units, by its parts. -/
theorem ofUnits?_eq (negative : Bool) (n : Nat) :
    ofUnits? negative n 1 =
      if mantissaOf n = 9007199254740992 then
        ofParts? negative 4503599627370496 (exponentOf n + 1)
      else ofParts? negative (mantissaOf n) (exponentOf n) := by
  unfold ofUnits? mantissaOf exponentOf
  simp only [Nat.div_one, Nat.one_mul, Nat.pow_eq]

/-- The double nearest to a number of units has the rounded magnitude, if the number is not beyond
the finite doubles. -/
theorem exists_ofUnits? (negative : Bool) {n : Nat} (hn : n.log2 ≤ 2096) :
    ∃ d, ofUnits? negative n 1 = some d ∧ d.negative = negative ∧ d.magnitude = rounded n := by
  have hexp : exponentOf n ≤ 2044 := by
    unfold exponentOf
    omega
  have hle := mantissaOf_le n
  rw [ofUnits?_eq]
  split_ifs with hcarry
  · -- the significand carries into the next exponent
    refine ⟨_, dif_pos ⟨by decide, by omega, .inr le_rfl⟩, rfl, ?_⟩
    rw [magnitude, rounded, hcarry, Nat.pow_eq, pow_succ]
    ring
  · have hleading : exponentOf n = 0 ∨ 4503599627370496 ≤ mantissaOf n := by
      by_cases hzero : exponentOf n = 0
      · exact .inl hzero
      · exact .inr (le_mantissaOf hzero)
    exact ⟨_, dif_pos ⟨by omega, by omega, hleading⟩, rfl, rfl⟩

/-- What is a double already is kept. -/
theorem rounded_magnitude (d : Double) : rounded d.magnitude = d.magnitude := by
  unfold magnitude
  rw [Nat.pow_eq]
  refine rounded_mul_two_pow ?_
  unfold exponentOf
  rcases Nat.eq_zero_or_pos d.mantissa with hzero | hpos
  · rw [hzero, Nat.zero_mul]
    exact Nat.zero_le _
  · have hlt : (d.mantissa * 2 ^ d.exponent).log2 < 53 + d.exponent := by
      rw [Nat.log2_lt (Nat.mul_ne_zero (by omega) (Nat.two_pow_pos _).ne'), pow_add]
      exact Nat.mul_lt_mul_of_pos_right d.mantissa_lt (Nat.two_pow_pos _)
    omega

/-! ## Signed numbers of units -/

/-- The number of units of the double nearest to a signed number of units. -/
def roundUnits (u : Int) : Int :=
  if u < 0 then -(rounded u.natAbs : Int) else rounded u.natAbs

/-- Rounding keeps the order of signed numbers of units. -/
theorem roundUnits_mono {u v : Int} (h : u ≤ v) : roundUnits u ≤ roundUnits v := by
  unfold roundUnits
  split_ifs with hu hv hv
  · have hmono : rounded v.natAbs ≤ rounded u.natAbs := rounded_mono (by omega)
    omega
  · omega
  · omega
  · have hmono : rounded u.natAbs ≤ rounded v.natAbs := rounded_mono (by omega)
    omega

/-- What is a double already is kept, with its sign. -/
theorem roundUnits_units (d : Double) : roundUnits d.units = d.units := by
  have hkeep := rounded_magnitude d
  unfold roundUnits units
  split_ifs with hneg hlt hlt
  · rw [Int.natAbs_neg, Int.natAbs_natCast, hkeep]
  · have hzero : d.magnitude = 0 := by omega
    rw [hzero] at hkeep ⊢
    simpa using hkeep
  · omega
  · rw [Int.natAbs_natCast, hkeep]

/-! ## Whole numbers -/

/-- The exponent of one in units. -/
def unitExponent : Nat := 1074

/-- One is a power of two of units. -/
theorem one_eq : one = 2 ^ unitExponent := by
  have hpow : ∀ k, k = unitExponent → Nat.pow 2 k = 2 ^ unitExponent := by
    intro k hk
    rw [← hk, Nat.pow_eq]
  unfold one
  apply hpow
  rfl

/-- One is some units. -/
theorem one_pos : (0 : Int) < one :=
  Int.natCast_pos.mpr (one_eq ▸ Nat.two_pow_pos _)

/-- A whole number in units has the sign of the number. -/
theorem mul_one_neg_iff {n : Int} : n * one < 0 ↔ n < 0 := by
  constructor
  · intro h
    by_contra hn
    exact absurd (Int.mul_nonneg (Int.not_lt.mp hn) one_pos.le) (Int.not_le.mpr h)
  · intro h
    exact Int.mul_neg_of_neg_of_pos h one_pos

/-- The absolute value of a whole number in units. -/
theorem natAbs_mul_one (n : Int) : (n * one).natAbs = n.natAbs * 2 ^ unitExponent := by
  rw [Int.natAbs_mul, Int.natAbs_natCast, one_eq]

/-- A whole number of some bits has as many more in units. -/
theorem log2_mul_one_lt {n : Nat} {bits : Nat} (hn : n < 2 ^ bits) :
    (n * 2 ^ unitExponent).log2 < bits + unitExponent ∨ n = 0 := by
  rcases Nat.eq_zero_or_pos n with rfl | hpos
  · exact .inr rfl
  · left
    rw [Nat.log2_lt (Nat.mul_ne_zero hpos.ne' (Nat.two_pow_pos _).ne'), pow_add]
    exact Nat.mul_lt_mul_of_pos_right hn (Nat.two_pow_pos _)

/-- The double nearest to a whole number of 64 bits, in units. -/
theorem exists_ofInt? {n : Int} (hn : IsWord n) :
    ∃ d, ofInt? n = some d ∧ d.units = roundUnits (n * one) := by
  have hbits : (n.natAbs * 2 ^ unitExponent).log2 ≤ 2096 := by
    have hword : n.natAbs < 2 ^ 65 := by omega
    rcases log2_mul_one_lt hword with hlt | hzero
    · unfold unitExponent at hlt ⊢
      omega
    · rw [hzero, Nat.zero_mul]
      exact Nat.zero_le _
  obtain ⟨d, hd, hnegative, hmagnitude⟩ := exists_ofUnits? (decide (n < 0)) hbits
  refine ⟨d, ?_, ?_⟩
  · unfold ofInt? ofRatio?
    rw [one_eq, hd]
  unfold units roundUnits
  rw [hnegative, hmagnitude, natAbs_mul_one]
  simp only [decide_eq_true_eq, mul_one_neg_iff]

/-- A whole number of at most 53 bits is kept. -/
theorem rounded_small {n : Nat} (hn : n ≤ 2 ^ 53) :
    rounded (n * 2 ^ unitExponent) = n * 2 ^ unitExponent := by
  rcases Nat.lt_or_eq_of_le hn with hlt | rfl
  · refine rounded_mul_two_pow ?_
    unfold exponentOf
    rcases log2_mul_one_lt hlt with hlog | rfl
    · omega
    · rw [Nat.zero_mul]
      exact Nat.zero_le _
  · -- one bit more, but the last one is zero
    have hsplit : 2 ^ 53 * 2 ^ unitExponent = 2 ^ 52 * 2 ^ (unitExponent + 1) := by
      rw [← pow_add, ← pow_add]
      congr 1
    rw [hsplit]
    refine rounded_mul_two_pow ?_
    unfold exponentOf
    rw [← pow_add, Nat.log2_two_pow]
    omega

/-- A whole number of at most 53 bits and a sign is kept. -/
theorem roundUnits_small {n : Int} (hn : n.natAbs ≤ 2 ^ 53) : roundUnits (n * one) = n * one := by
  have hkeep := rounded_small hn
  rw [← natAbs_mul_one] at hkeep
  unfold roundUnits
  rw [hkeep]
  split_ifs <;> omega

end ModelGateway.Double
