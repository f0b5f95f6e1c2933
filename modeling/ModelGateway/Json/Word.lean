/-!
# Words of 64 bits

Which whole numbers 64 bits hold, with a sign (`IsInt64`) and with or without one (`IsWord`).
-/

namespace ModelGateway

/-- Whether a whole number is a signed 64-bit one: at least `-2 ^ 63` and below `2 ^ 63`. -/
abbrev IsInt64 (n : Int) : Prop :=
  -9223372036854775808 ≤ n ∧ n < 9223372036854775808

/-- Whether a whole number is a signed or an unsigned 64-bit one: at least `-2 ^ 63` and below
`2 ^ 64`. -/
abbrev IsWord (n : Int) : Prop :=
  -9223372036854775808 ≤ n ∧ n < 18446744073709551616

/-- The number of unsigned 64-bit numbers, `2 ^ 64`. -/
abbrev wordCount : Nat := 18446744073709551616

/-- A whole number, if it is a signed 64-bit one. -/
def int64? (n : Int) : Option Int :=
  if IsInt64 n then some n else none

/-- A whole number modulo `2 ^ 64`, as a signed 64-bit number. -/
def wrapInt64 (n : Int) : Int :=
  (n + 9223372036854775808) % 18446744073709551616 - 9223372036854775808

theorem int64?_eq_some_iff {n m : Int} : int64? n = some m ↔ IsInt64 n ∧ n = m := by
  simp only [int64?, Option.ite_none_right_eq_some, Option.some.injEq]

theorem isInt64_wrapInt64 (n : Int) : IsInt64 (wrapInt64 n) := by
  simp only [IsInt64, wrapInt64]
  omega

/-- A signed 64-bit number is kept as it is. -/
theorem wrapInt64_of_isInt64 {n : Int} (h : IsInt64 n) : wrapInt64 n = n := by
  simp only [IsInt64, wrapInt64] at h ⊢
  omega

end ModelGateway
