import Mathlib.Order.Compare
import ModelGateway.Proofs.Json.WellFormed
import ModelGateway.Record.Compare

/-!
# Equality of column values

* **Order** (`compareNumbers_swap`, `compareTexts_swap`): comparing two numbers or two texts the
  other way round gives the opposite order.
* **Equality** (`valuesEqual_refl`, `valuesEqual_symm`): `valuesEqual` is reflexive and symmetric on
  well-formed values, and only null equals null (`eq_null_of_valuesEqual_null`). It is transitive on
  nulls, texts and 64-bit whole numbers (`valuesEqual_trans`), not on numbers at large: a whole
  number is compared to a double as a double. But what equals a value equals all that is the same as
  it (`valuesEqual_trans_same`).
* **Records** (`Record.WellFormed`): the records whose columns differ and hold well-formed values,
  and the operations that keep them so.
-/

namespace ModelGateway

/-! ## Order -/

/-- The opposite order of two instants. -/
theorem Time.Instant.compare_swap (a b : Time.Instant) : (a.compare b).swap = b.compare a := by
  simp only [Time.Instant.compare, Ordering.swap_then]
  rw [← Std.OrientedOrd.eq_swap, ← Std.OrientedOrd.eq_swap]

/-- The opposite order of two numbers. -/
theorem compareNumbers_swap (x y : Number) : (compareNumbers x y).swap = compareNumbers y x := by
  unfold compareNumbers
  cases x.toInt64? <;> cases y.toInt64? <;> exact (Std.OrientedOrd.eq_swap).symm

/-- The opposite order of two texts. -/
theorem compareTexts_swap (x y : String) : (compareTexts x y).swap = compareTexts y x := by
  unfold compareTexts
  cases Time.Instant.read? x <;> cases Time.Instant.read? y
  case some.some a b => exact a.compare_swap b
  all_goals exact (Std.OrientedOrd.eq_swap).symm

/-! ## Equality -/

/-- Numbers are equal as column values if they compare as equal, in either order. -/
theorem compareNumbers_beq_comm (x y : Number) :
    (compareNumbers x y == .eq) = (compareNumbers y x == .eq) := by
  rw [← compareNumbers_swap x y]
  cases compareNumbers x y <;> rfl

/-- Texts are equal as column values if they compare as equal, in either order. -/
theorem compareTexts_beq_comm (x y : String) :
    (compareTexts x y == .eq) = (compareTexts y x == .eq) := by
  rw [← compareTexts_swap x y]
  cases compareTexts x y <;> rfl

/-- A number equals itself. -/
theorem compareNumbers_self (x : Number) : compareNumbers x x = .eq := by
  unfold compareNumbers
  cases x.toInt64? <;> simp [Double.compare]

/-- A text equals itself. -/
theorem compareTexts_self (x : String) : compareTexts x x = .eq := by
  unfold compareTexts
  cases Time.Instant.read? x <;> simp [Time.Instant.compare]

/-- A well-formed value equals itself. -/
theorem valuesEqual_refl {a : Json} (h : a.WellFormed) : valuesEqual a a = true := by
  cases a with
  | num x => simp [valuesEqual, compareNumbers_self]
  | str x => simp [valuesEqual, compareTexts_self]
  | null => exact Json.same_refl h
  | bool b => exact Json.same_refl h
  | arr items => exact Json.same_refl h
  | obj entries => exact Json.same_refl h

/-- Values of which one is neither a number nor a text are equal if they are so up to order. -/
theorem valuesEqual_eq_same {a b : Json} (hn : ∀ x y, ¬(a = .num x ∧ b = .num y))
    (hs : ∀ x y, ¬(a = .str x ∧ b = .str y)) : valuesEqual a b = a.same b := by
  unfold valuesEqual
  split
  · exact absurd ⟨rfl, rfl⟩ (hn _ _)
  · exact absurd ⟨rfl, rfl⟩ (hs _ _)
  · rfl

/-- Equality of well-formed values is symmetric. -/
theorem valuesEqual_symm {a b : Json} (ha : a.WellFormed) (hb : b.WellFormed)
    (h : valuesEqual a b = true) : valuesEqual b a = true := by
  by_cases hn : ∃ x y, a = .num x ∧ b = .num y
  · obtain ⟨x, y, rfl, rfl⟩ := hn
    rw [valuesEqual] at h ⊢
    rwa [compareNumbers_beq_comm]
  by_cases hs : ∃ x y, a = .str x ∧ b = .str y
  · obtain ⟨x, y, rfl, rfl⟩ := hs
    rw [valuesEqual] at h ⊢
    rwa [compareTexts_beq_comm]
  push Not at hn hs
  rw [valuesEqual_eq_same (fun x y e => hn x y e.1 e.2) fun x y e => hs x y e.1 e.2] at h
  rw [valuesEqual_eq_same (fun x y e => hn y x e.2 e.1) fun x y e => hs y x e.2 e.1]
  exact Json.same_symm ha hb h

/-- The test for null. -/
theorem Json.isNull_iff {a : Json} : a.isNull = true ↔ a = .null := by
  cases a <;> simp [Json.isNull]

/-- Being equal to null is the test for null. -/
theorem valuesEqual_null (a : Json) : valuesEqual a .null = a.isNull := by
  cases a <;> rfl

/-- Only null equals null. -/
theorem eq_null_of_valuesEqual_null {a : Json} (h : valuesEqual a .null = true) : a = .null := by
  cases a <;> simp_all [valuesEqual, Json.same]

/-- Numbers that are the same number compare alike with every other. -/
theorem compareNumbers_of_same (x : Number) {y z : Number} (h : y.same z = true) :
    compareNumbers x y = compareNumbers x z := by
  cases y with
  | int a fits =>
    cases z with
    | int b fits' =>
      have heq : a = b := by simpa [Number.same] using h
      subst heq
      rfl
    | double d => simp [Number.same] at h
  | double d =>
    cases z with
    | int b fits' => simp [Number.same] at h
    | double d' =>
      have hunits : d.units = d'.units := by simpa [Number.same, Double.sameValue] using h
      simp [compareNumbers, Number.toInt64?, Number.toDouble, Double.compare, hunits]

/-- Values that are the same up to order are equal. -/
theorem valuesEqual_of_same {a b : Json} (h : a.same b = true) : valuesEqual a b = true := by
  cases a with
  | num x =>
    cases b with
    | num y => simp [valuesEqual, ← compareNumbers_of_same x h, compareNumbers_self]
    | _ => exact h
  | str x =>
    cases b with
    | str y =>
      have heq : x = y := by simpa [Json.same] using h
      simp [valuesEqual, heq, compareTexts_self]
    | _ => exact h
  | _ => exact h

/-- A well-formed value that equals another one equals what is the same as that. -/
theorem valuesEqual_trans_same {a b c : Json} (ha : a.WellFormed) (hab : valuesEqual a b = true)
    (hbc : b.same c = true) : valuesEqual a c = true := by
  by_cases hn : ∃ x y, a = .num x ∧ b = .num y
  · obtain ⟨x, y, rfl, rfl⟩ := hn
    cases c with
    | num z =>
      rw [valuesEqual] at hab ⊢
      rwa [← compareNumbers_of_same x hbc]
    | _ => simp [Json.same] at hbc
  by_cases hs : ∃ x y, a = .str x ∧ b = .str y
  · obtain ⟨x, y, rfl, rfl⟩ := hs
    cases c with
    | str z =>
      have heq : y = z := by simpa [Json.same] using hbc
      rwa [← heq]
    | _ => simp [Json.same] at hbc
  push Not at hn hs
  rw [valuesEqual_eq_same (fun x y e => hn x y e.1 e.2) fun x y e => hs x y e.1 e.2] at hab
  exact valuesEqual_of_same (Json.same_trans ha hab hbc)

/-! ## Plain values -/

/-- Texts that compare as equal are the same, or instants of one moment. -/
theorem compareTexts_eq_iff {x y : String} :
    compareTexts x y = .eq ↔ x = y ∨ ∃ a b, Time.Instant.read? x = some a ∧
      Time.Instant.read? y = some b ∧ a.compare b = .eq := by
  refine ⟨fun h => ?_, ?_⟩
  · unfold compareTexts at h
    cases hx : Time.Instant.read? x with
    | none => exact .inl (by simpa [hx] using h)
    | some a =>
      cases hy : Time.Instant.read? y with
      | none => exact .inl (by simpa [hx, hy] using h)
      | some b => exact .inr ⟨a, b, rfl, rfl, by simpa [hx, hy] using h⟩
  · rintro (rfl | ⟨a, b, hx, hy, h⟩)
    · exact compareTexts_self x
    · simpa [compareTexts, hx, hy] using h

/-- Two instants compare as equal if they are of the same moment. -/
theorem Time.Instant.compare_eq_iff {a b : Time.Instant} :
    a.compare b = .eq ↔ a.seconds = b.seconds ∧ a.nanos = b.nanos := by
  simp [Time.Instant.compare, Ordering.then_eq_eq]

/-- Comparing as equal is transitive on texts. -/
theorem compareTexts_trans {x y z : String} (hxy : compareTexts x y = .eq)
    (hyz : compareTexts y z = .eq) : compareTexts x z = .eq := by
  rcases compareTexts_eq_iff.mp hxy with rfl | ⟨a, b, hx, hy, hab⟩
  · exact hyz
  rcases compareTexts_eq_iff.mp hyz with rfl | ⟨b', c, hy', hz, hbc⟩
  · exact hxy
  obtain rfl : b = b' := Option.some.inj (hy.symm.trans hy')
  rw [Time.Instant.compare_eq_iff] at hab hbc
  refine compareTexts_eq_iff.mpr (.inr ⟨a, c, hx, hz, ?_⟩)
  exact Time.Instant.compare_eq_iff.mpr ⟨hab.1.trans hbc.1, hab.2.trans hbc.2⟩

/-- What equals a text is equal to the same values as the text is. -/
theorem valuesEqual_congr_text {x : String} {v : Json} (h : valuesEqual (.str x) v = true)
    (a : Json) : valuesEqual a (.str x) = valuesEqual a v := by
  cases v with
  | str y =>
    have hxy : compareTexts x y = .eq := eq_of_beq h
    have hyx : compareTexts y x = .eq := by rw [← compareTexts_swap, hxy]; rfl
    cases a with
    | str z =>
      rw [Bool.eq_iff_iff]
      constructor
      · exact fun hzx => beq_iff_eq.mpr (compareTexts_trans (eq_of_beq hzx) hxy)
      · exact fun hzy => beq_iff_eq.mpr (compareTexts_trans (eq_of_beq hzy) hyx)
    | _ => rfl
  | _ => cases h

/-- A text equals the same values as what equals it. -/
theorem valuesEqual_text {a v : Json} {x : String} (h : valuesEqual a (.str x) = true)
    (hv : valuesEqual a v = true) : valuesEqual (.str x) v = true := by
  cases a with
  | str y =>
    have hback : valuesEqual (.str x) (.str y) = true := valuesEqual_symm (.str y) (.str x) h
    rwa [valuesEqual_congr_text hv] at hback
  | _ => cases h

/-- Comparing as equal is transitive on 64-bit whole numbers. -/
theorem compareNumbers_trans {x y z : Number} (hx : x.toInt64?.isSome) (hy : y.toInt64?.isSome)
    (hz : z.toInt64?.isSome) (hxy : compareNumbers x y = .eq) (hyz : compareNumbers y z = .eq) :
    compareNumbers x z = .eq := by
  obtain ⟨a, ha⟩ := Option.isSome_iff_exists.mp hx
  obtain ⟨b, hb⟩ := Option.isSome_iff_exists.mp hy
  obtain ⟨c, hc⟩ := Option.isSome_iff_exists.mp hz
  simp only [compareNumbers, ha, hb, hc, Std.LawfulEqOrd.compare_eq_iff_eq] at hxy hyz ⊢
  exact hxy.trans hyz

/-- Whether a value is null, a text or a 64-bit whole number. -/
def Json.isPlain : Json → Bool
  | .null | .str _ => true
  | .num n => n.toInt64?.isSome
  | _ => false

/-- Equality of plain values is transitive. -/
theorem valuesEqual_trans {a b c : Json} (ha : a.isPlain) (hb : b.isPlain) (hc : c.isPlain)
    (hab : valuesEqual a b = true) (hbc : valuesEqual b c = true) : valuesEqual a c = true := by
  cases b with
  | null =>
    obtain rfl := eq_null_of_valuesEqual_null hab
    exact hbc
  | num y =>
    cases a with
    | num x =>
      cases c with
      | num z =>
        exact beq_iff_eq.mpr (compareNumbers_trans ha hb hc (eq_of_beq hab) (eq_of_beq hbc))
      | _ => cases hbc
    | _ => cases hab
  | str y =>
    cases a with
    | str x =>
      cases c with
      | str z => exact beq_iff_eq.mpr (compareTexts_trans (eq_of_beq hab) (eq_of_beq hbc))
      | _ => cases hbc
    | _ => cases hab
  | bool | arr | obj => cases hb

/-! ## Well-formed records -/

namespace Record

/-- The columns of the record differ and hold well-formed values. -/
def WellFormed (r : Record) : Prop := (Json.obj r).WellFormed

/-- The record without columns is well formed. -/
theorem wellFormed_nil : WellFormed [] :=
  .obj List.nodup_nil fun _ he => absurd he List.not_mem_nil

variable {r : Record}

/-- The values of a well-formed record are well formed. -/
theorem WellFormed.value (h : WellFormed r) (column : String) :
    (Record.value r column).WellFormed := by
  unfold Record.value
  cases hv : Entries.get? r column with
  | none => exact .null
  | some value => exact Json.WellFormed.of_get? h hv

/-- Setting a column keeps a record well formed. -/
theorem WellFormed.insert (h : WellFormed r) (column : String) {value : Json}
    (hv : value.WellFormed) : WellFormed (Entries.insert r column value) := by
  rw [WellFormed, Json.wellFormed_obj] at h
  refine .obj (Entries.nodup_names_insert h.1 column value) ?_
  intro e he
  rcases Entries.mem_insert he with rfl | ho
  · exact hv
  · exact h.2 e ho

/-- Setting several columns keeps a record well formed. -/
theorem WellFormed.extend (h : WellFormed r) {columns : Entries Json}
    (hv : ∀ e ∈ columns, e.2.WellFormed) : WellFormed (Entries.extend r columns) := by
  rw [WellFormed, Json.wellFormed_obj] at h
  refine .obj (Entries.nodup_names_extend h.1 columns) ?_
  intro e he
  rcases Entries.mem_extend he with hn | ho
  · exact hv e hn
  · exact h.2 e ho

end Record

end ModelGateway
