import Mathlib.Data.Rat.Floor
import ModelGateway.Proofs.Json.Range
import ModelGateway.Proofs.Store.Nulls

/-!
# Arithmetic on columns

An update may calculate with the number in a column (`Arithmetic`). Two 64-bit whole numbers are
calculated exactly, and a result that is none is refused (`Arithmetic.apply_wholes`). Other numbers
are calculated as doubles, and here a result that no double holds is not refused: it is stored as
null (`Arithmetic.apply_doubles`).

* **Results** (`arithmetic_numeric_iff`): arithmetic on two numbers is refused or gives a number,
  unless they are not both 64-bit whole numbers and the divisor is zero or the exact result is
  beyond the range of the doubles.
* **Nulls** (`division_clears_balance`): an update that divides a number by zero leaves null.
-/

namespace ModelGateway

namespace Arithmetic

/-! ## Exact results -/

/-- The exact result of an operation on values. -/
def exact (op : Arithmetic) (a b : ℚ) : ℚ :=
  match op with
  | .increment => a + b
  | .decrement => a - b
  | .multiply => a * b
  | .divide => a / b

/-- The operation divides by zero. -/
def DividesByZero (op : Arithmetic) (b : ℚ) : Prop :=
  op = .divide ∧ b = 0

/-- A value without its fraction, truncated toward zero. -/
def truncated (value : ℚ) : Int :=
  if 0 ≤ value then ⌊value⌋ else ⌈value⌉

/-- A whole number is its own truncation. -/
theorem truncated_intCast (n : Int) : truncated n = n := by
  unfold truncated
  rw [Int.floor_intCast, Int.ceil_intCast, ite_self]

/-- Truncation keeps the sign. -/
theorem truncated_neg (value : ℚ) : truncated (-value) = -truncated value := by
  unfold truncated
  rcases lt_trichotomy value 0 with hlt | rfl | hgt
  · rw [if_pos (by linarith), if_neg (not_le.mpr hlt), Int.floor_neg]
  · simp
  · rw [if_neg (by linarith), if_pos hgt.le, Int.ceil_neg]

/-- The quotient of whole numbers is the truncated exact one. -/
theorem truncated_div (m n : Int) : truncated (m / n) = m.tdiv n := by
  have hnat : ∀ a b : ℕ, truncated ((a : ℚ) / b) = (a : Int).tdiv b := by
    intro a b
    unfold truncated
    rw [if_pos (by positivity), Rat.floor_natCast_div_natCast,
      Int.tdiv_eq_ediv_of_nonneg (Int.natCast_nonneg a)]
  obtain ⟨a, rfl | rfl⟩ := Int.eq_nat_or_neg m <;> obtain ⟨b, rfl | rfl⟩ := Int.eq_nat_or_neg n
  · rw [← hnat, Int.cast_natCast, Int.cast_natCast]
  · rw [Int.tdiv_neg, ← hnat, ← truncated_neg, Int.cast_neg, Int.cast_natCast, Int.cast_natCast,
      div_neg]
  · rw [Int.neg_tdiv, ← hnat, ← truncated_neg, Int.cast_neg, Int.cast_natCast, Int.cast_natCast,
      neg_div]
  · rw [Int.tdiv_neg, Int.neg_tdiv, neg_neg, ← hnat, Int.cast_neg, Int.cast_neg, Int.cast_natCast,
      Int.cast_natCast, neg_div_neg_eq]

/-! ## Results -/

variable {op : Arithmetic}

/-- Only a quotient divides by zero. -/
theorem not_dividesByZero (hop : op ≠ .divide) (b : ℚ) : ¬op.DividesByZero b :=
  fun h => hop h.1

/-- The result on 64-bit whole numbers is the exact one, truncated, if there is one and it is a
64-bit whole number. -/
theorem onInts?_eq_some_iff {m n k : Int} :
    op.onInts? m n = some k ↔
      ¬op.DividesByZero n ∧ IsInt64 k ∧ truncated (op.exact m n) = k := by
  have hfits : ∀ r : Int, int64? r = some k ↔ IsInt64 k ∧ r = k := by
    intro r
    rw [int64?_eq_some_iff]
    constructor <;> rintro ⟨hint, rfl⟩ <;> exact ⟨hint, rfl⟩
  cases op with
  | divide =>
    unfold onInts? exact
    dsimp only
    rw [truncated_div]
    by_cases hzero : n = 0
    · have hdivides : DividesByZero .divide n := ⟨rfl, Int.cast_eq_zero.mpr hzero⟩
      rw [if_pos hzero]
      exact iff_of_false (Option.some_ne_none k).symm fun h => h.1 hdivides
    · have hdivides : ¬DividesByZero .divide n := fun h => hzero (Int.cast_eq_zero.mp h.2)
      rw [if_neg hzero, hfits, and_iff_right hdivides]
  | increment =>
    rw [and_iff_right (not_dividesByZero (by decide) _)]
    unfold onInts? exact
    dsimp only
    rw [hfits, ← Int.cast_add, truncated_intCast]
  | decrement =>
    rw [and_iff_right (not_dividesByZero (by decide) _)]
    unfold onInts? exact
    dsimp only
    rw [hfits, ← Int.cast_sub, truncated_intCast]
  | multiply =>
    rw [and_iff_right (not_dividesByZero (by decide) _)]
    unfold onInts? exact
    dsimp only
    rw [hfits, ← Int.cast_mul, truncated_intCast]

/-- Doubles have no result if the divisor is zero or the exact result is beyond their range. -/
theorem onDoubles?_eq_none_iff {x y : Double} :
    op.onDoubles? x y = none ↔
      op.DividesByZero y.value ∨ Double.IsBeyond (op.exact x.value y.value) := by
  cases op with
  | divide =>
    have hdivides : DividesByZero .divide y.value ↔ y.value = 0 := and_iff_right rfl
    rw [hdivides]
    exact Double.div?_eq_none_iff
  | increment =>
    rw [or_iff_right (not_dividesByZero (by decide) _)]
    exact Double.add?_eq_none_iff
  | decrement =>
    rw [or_iff_right (not_dividesByZero (by decide) _)]
    exact Double.sub?_eq_none_iff
  | multiply =>
    rw [or_iff_right (not_dividesByZero (by decide) _)]
    exact Double.mul?_eq_none_iff

/-- Two 64-bit whole numbers have the exact result, truncated, or are refused. -/
theorem apply_wholes {a b : Number} {m n : Int} (ha : a.toInt64? = some m)
    (hb : b.toInt64? = some n) (column : String) :
    (¬op.DividesByZero n ∧ IsInt64 (truncated (op.exact m n)) →
      op.apply column (.num a) (.num b) = .ok (.ofInt (truncated (op.exact m n)))) ∧
    (op.DividesByZero n ∨ ¬IsInt64 (truncated (op.exact m n)) →
      op.apply column (.num a) (.num b) = .error (.overflow column)) := by
  have hcurrent : (Json.num a).asInt64? = some m := ha
  have hoperand : (Json.num b).asInt64? = some n := hb
  constructor
  · rintro ⟨hdivides, hint⟩
    have hresult := onInts?_eq_some_iff.mpr ⟨hdivides, hint, rfl⟩
    simp only [apply, hcurrent, hoperand, hresult]
  · intro hrefused
    cases hresult : op.onInts? m n with
    | none => simp only [apply, hcurrent, hoperand, hresult]
    | some k =>
      obtain ⟨hdivides, hint, rfl⟩ := onInts?_eq_some_iff.mp hresult
      exact absurd hrefused (not_or.mpr ⟨hdivides, not_not_intro hint⟩)

/-- Other numbers are calculated as doubles. -/
theorem apply_doubles {a b : Number} (h : ¬(a.IsInt64 ∧ b.IsInt64)) (column : String) :
    op.apply column (.num a) (.num b) =
      .ok (.ofDouble? (op.onDoubles? a.toDouble b.toDouble)) := by
  unfold Number.IsInt64 at h
  unfold apply Json.asInt64?
  split
  · rename_i ha hb
    exact absurd ⟨Option.isSome_of_eq_some ha, Option.isSome_of_eq_some hb⟩ h
  · rfl

end Arithmetic

/-- An update operation that calculates is arithmetic on the column. -/
theorem applyUpdate_arithmetic {f : Field} {name : String} {op : Arithmetic}
    (hop : Arithmetic.ofName? name = some op) (current operand : Json) :
    applyUpdate f current [(name, operand)] = op.apply f.name current operand := by
  unfold applyUpdate
  dsimp only
  split
  · cases hop
  · cases hop
  · rw [hop]

/-- Arithmetic on two numbers is refused or gives a number, unless they are not both 64-bit whole
numbers and the divisor is zero or the exact result is beyond the range of the doubles: then it
gives null. On two 64-bit whole numbers it gives the exact result, truncated toward zero, if there
is one and it is a 64-bit whole number, and else it is refused. -/
theorem arithmetic_numeric_iff (f : Field) {name : String} {op : Arithmetic}
    (hop : Arithmetic.ofName? name = some op) (a b : Number) :
    ((∃ fault, applyUpdate f (.num a) [(name, .num b)] = .error fault) ∨
        (∃ x, applyUpdate f (.num a) [(name, .num b)] = .ok (.num x)) ↔
      a.IsInt64 ∧ b.IsInt64 ∨
        ¬op.DividesByZero b.toDouble.value ∧
          ¬Double.IsBeyond (op.exact a.toDouble.value b.toDouble.value)) ∧
    (¬(a.IsInt64 ∧ b.IsInt64) → op.DividesByZero b.toDouble.value ∨
        Double.IsBeyond (op.exact a.toDouble.value b.toDouble.value) →
      applyUpdate f (.num a) [(name, .num b)] = .ok .null) ∧
    (∀ m n, a.toInt64? = some m → b.toInt64? = some n →
      (¬op.DividesByZero n ∧ IsInt64 (Arithmetic.truncated (op.exact m n)) →
        applyUpdate f (.num a) [(name, .num b)] =
          .ok (.ofInt (Arithmetic.truncated (op.exact m n)))) ∧
      (op.DividesByZero n ∨ ¬IsInt64 (Arithmetic.truncated (op.exact m n)) →
        applyUpdate f (.num a) [(name, .num b)] = .error (.overflow f.name))) := by
  rw [applyUpdate_arithmetic hop]
  have hnull : ¬(a.IsInt64 ∧ b.IsInt64) → op.DividesByZero b.toDouble.value ∨
        Double.IsBeyond (op.exact a.toDouble.value b.toDouble.value) →
      op.apply f.name (.num a) (.num b) = .ok .null := by
    intro hdoubles hnone
    rw [Arithmetic.apply_doubles hdoubles, Arithmetic.onDoubles?_eq_none_iff.mpr hnone]
    rfl
  refine ⟨?_, hnull, fun m n ha hb => Arithmetic.apply_wholes ha hb f.name⟩
  by_cases hwholes : a.IsInt64 ∧ b.IsInt64
  · refine iff_of_true ?_ (.inl hwholes)
    obtain ⟨m, ha⟩ := Option.isSome_iff_exists.mp hwholes.1
    obtain ⟨n, hb⟩ := Option.isSome_iff_exists.mp hwholes.2
    obtain ⟨hexact, hrefused⟩ := @Arithmetic.apply_wholes op _ _ _ _ ha hb f.name
    by_cases hresult : ¬op.DividesByZero n ∧ IsInt64 (Arithmetic.truncated (op.exact m n))
    · obtain ⟨x, hx, -⟩ := Json.exists_ofInt hresult.2
      exact .inr ⟨x, (hexact hresult).trans (congrArg Except.ok hx)⟩
    · rw [not_and_or, not_not] at hresult
      exact .inl ⟨_, hrefused hresult⟩
  · rw [or_iff_right hwholes, ← not_or]
    constructor
    · intro hnumeric hnone
      rw [hnull hwholes hnone] at hnumeric
      rcases hnumeric with ⟨fault, hfault⟩ | ⟨x, hx⟩
      · cases hfault
      · cases hx
    · intro hfinite
      obtain ⟨d, hd⟩ := Option.ne_none_iff_exists'.mp
        (mt Arithmetic.onDoubles?_eq_none_iff.mp hfinite)
      rw [Arithmetic.apply_doubles hwholes, hd]
      exact .inr ⟨.double d, rfl⟩

namespace Store

/-! ## Accounts -/

namespace Accounts

/-- The balance of an account. -/
def balance : Field :=
  { Seats.column "balance" true with typeName := "Float" }

/-- An account has a number and a balance. -/
def model : Model where
  name := "Account"
  fields := [{ Seats.column "id" true with isId := true }, balance]
  primaryKey := none

/-- The document with accounts alone. -/
def document : Document :=
  { Seats.document with models := [model] }

/-- The number `1.5`. -/
def oneAndHalf : Number :=
  .double (.mk false 6755399441055744 1022 (by decide) (by decide) (by decide))

/-- The least 64-bit whole number. -/
def least : Number :=
  .int (-9223372036854775808) (by decide)

/-- A balance of the least 64-bit whole number, divided by `-1`, has an exact result that does not
fit. -/
theorem least_divided :
    Arithmetic.ofName? "divide" = some .divide ∧
      least.toInt64? = some (-9223372036854775808) ∧
      (Number.int (-1) (by decide)).toInt64? = some (-1) ∧
      applyUpdate balance (.num least) [("divide", .num (.int (-1) (by decide)))] =
        .error (.overflow "balance") := by
  have hdivide : Arithmetic.ofName? "divide" = some .divide := rfl
  have hrefused := (arithmetic_numeric_iff balance hdivide least
    (.int (-1) (by decide))).2.2 (-9223372036854775808) (-1) rfl rfl
  refine ⟨hdivide, rfl, rfl, hrefused.2 (.inr ?_)⟩
  have hquotient : Arithmetic.truncated (Arithmetic.exact .divide
      ((-9223372036854775808 : Int) : ℚ) ((-1 : Int) : ℚ)) = 9223372036854775808 :=
    Arithmetic.truncated_div _ _
  rw [hquotient]
  decide

end Accounts

/-- The balance of an account is a number, and dividing it by zero leaves null, although the column
is required. -/
theorem division_clears_balance :
    let created := Call.execute "account" .create
      (.obj [("data", .obj [("id", .ofNat 1), ("balance", .num Accounts.oneAndHalf)])])
    let divided := Call.execute "account" .update
      (.obj [("where", .obj [("id", .ofNat 1)]),
        ("data", .obj [("balance", .obj [("divide", .ofNat 0)])])])
    let s := (ofModels Accounts.document.models).after Seats.supply created
    Reachable Accounts.document s ∧
      (s.rowsOf "Account").map (·.2.data) =
        [[("id", .ofNat 1), ("balance", .num Accounts.oneAndHalf)]] ∧
      ((s.after Seats.supply divided).rowsOf "Account").map (·.2.data) =
        [[("id", .ofNat 1), ("balance", .null)]] ∧
      applyUpdate Accounts.balance (.num Accounts.oneAndHalf) [("divide", .ofNat 0)] =
        .ok .null := by
  intro created divided s
  have hs : Reachable Accounts.document s :=
    Reachable.start.call Seats.supply (by simp [created, Call.WellFormed, Entries.names])
  exact ⟨hs, by decide +kernel, by decide +kernel, by decide +kernel⟩

end Store

end ModelGateway
