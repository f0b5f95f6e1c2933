import Mathlib.Data.Set.Image
import ModelGateway.Proofs.Record.Numbers
import ModelGateway.Record.Sort

/-!
# The order of records

Sorting relies on a strict weak order: the comparison reverses with its arguments, and both coming
before and being tied are transitive. Which records the keys of an ordering order in this way
depends on the values in their columns.

* **Ordered records** (`SortKey.strictWeakOn_iff`): one key is a strict weak order of some records
  exactly if the values of its column are coherent (`Coherent`), and a list of keys is one if the
  columns of all of them are. The comparison always reverses with its arguments.
* **Coherent columns**: a column is coherent if its values are of one kind, unless no two of them
  are told apart (`Coherent.kinds`); no number blurs two 64-bit whole numbers (`Number.Separates`);
  and texts that are no instants do not stand between instants of another order
  (`InstantsInOrder`).
* **Composition** (`StrictWeakOn.then`): a second comparison need only order the records that the
  first one ties. Nulls against values, and one key after another, are both of this form.
* **Incoherent columns** (`SortKey.ordering_cycles`): two instants with different offsets and a text
  between them make a cycle.
-/

namespace ModelGateway

/-! ## Strict weak orders -/

/-- A comparison is a strict weak order of a set: it reverses with its arguments, and coming before
and being tied are transitive. -/
structure StrictWeakOn {α : Type} (S : Set α) (cmp : α → α → Ordering) : Prop where
  swap : ∀ a ∈ S, ∀ b ∈ S, (cmp a b).swap = cmp b a
  lt_trans : ∀ a ∈ S, ∀ b ∈ S, ∀ c ∈ S, cmp a b = .lt → cmp b c = .lt → cmp a c = .lt
  eq_trans : ∀ a ∈ S, ∀ b ∈ S, ∀ c ∈ S, cmp a b = .eq → cmp b c = .eq → cmp a c = .eq

namespace StrictWeakOn

variable {α β : Type} {S T : Set α} {cmp cmp' : α → α → Ordering} {a b c : α}

/-- What is compared to itself is tied. -/
theorem self_eq (h : StrictWeakOn S cmp) (ha : a ∈ S) : cmp a a = .eq := by
  have hswap := h.swap a ha a ha
  cases haa : cmp a a <;> rw [haa] at hswap <;> first | rfl | cases hswap

/-- What is tied is so in either order. -/
theorem eq_symm (h : StrictWeakOn S cmp) (ha : a ∈ S) (hb : b ∈ S) (hab : cmp a b = .eq) :
    cmp b a = .eq := by
  rw [← h.swap a ha b hb, hab]
  rfl

/-- What comes before one of two that are tied comes before the other. -/
theorem lt_of_lt_of_eq (h : StrictWeakOn S cmp) (ha : a ∈ S) (hb : b ∈ S) (hc : c ∈ S)
    (hab : cmp a b = .lt) (hbc : cmp b c = .eq) : cmp a c = .lt := by
  cases hac : cmp a c with
  | lt => rfl
  | eq =>
    -- then the first two are tied
    have htie := h.eq_trans a ha c hc b hb hac (h.eq_symm hb hc hbc)
    rw [hab] at htie
    cases htie
  | gt =>
    -- then the last two are not
    have hca : cmp c a = .lt := by
      rw [← h.swap a ha c hc, hac]
      rfl
    have hcb := h.lt_trans c hc a ha b hb hca hab
    rw [h.eq_symm hb hc hbc] at hcb
    cases hcb

/-- A strict weak order of a set is one of its subsets. -/
theorem mono (h : StrictWeakOn S cmp) (hsub : T ⊆ S) : StrictWeakOn T cmp where
  swap a ha b hb := h.swap a (hsub ha) b (hsub hb)
  lt_trans a ha b hb c hc := h.lt_trans a (hsub ha) b (hsub hb) c (hsub hc)
  eq_trans a ha b hb c hc := h.eq_trans a (hsub ha) b (hsub hb) c (hsub hc)

/-- Comparisons that agree on a set are both strict weak orders of it. -/
theorem congr (h : StrictWeakOn S cmp) (heq : ∀ a ∈ S, ∀ b ∈ S, cmp' a b = cmp a b) :
    StrictWeakOn S cmp' where
  swap a ha b hb := by
    rw [heq a ha b hb, heq b hb a ha]
    exact h.swap a ha b hb
  lt_trans a ha b hb c hc := by
    rw [heq a ha b hb, heq b hb c hc, heq a ha c hc]
    exact h.lt_trans a ha b hb c hc
  eq_trans a ha b hb c hc := by
    rw [heq a ha b hb, heq b hb c hc, heq a ha c hc]
    exact h.eq_trans a ha b hb c hc

/-- The reversed comparison is a strict weak order too. -/
theorem reverse (h : StrictWeakOn S cmp) : StrictWeakOn S fun a b => (cmp a b).swap where
  swap a ha b hb := congrArg Ordering.swap (h.swap a ha b hb)
  lt_trans a ha b hb c hc := by
    rw [h.swap a ha b hb, h.swap b hb c hc, h.swap a ha c hc]
    intro hab hbc
    exact h.lt_trans c hc b hb a ha hbc hab
  eq_trans a ha b hb c hc := by
    rw [h.swap a ha b hb, h.swap b hb c hc, h.swap a ha c hc]
    intro hab hbc
    exact h.eq_trans c hc b hb a ha hbc hab

/-- One of two that are tied comes before what the other comes before. -/
theorem lt_of_eq_of_lt (h : StrictWeakOn S cmp) (ha : a ∈ S) (hb : b ∈ S) (hc : c ∈ S)
    (hab : cmp a b = .eq) (hbc : cmp b c = .lt) : cmp a c = .lt := by
  rw [← h.swap c hc b hb] at hbc
  rw [← h.swap b hb a ha] at hab
  rw [← h.swap c hc a ha]
  exact h.reverse.lt_of_lt_of_eq hc hb ha hbc hab

/-- Comparing by images is a strict weak order of a set if comparing is one of the images. -/
theorem image_iff {f : β → α} {R : Set β} :
    StrictWeakOn R (fun a b => cmp (f a) (f b)) ↔ StrictWeakOn (f '' R) cmp := by
  constructor
  · intro h
    constructor
    · rintro _ ⟨a, ha, rfl⟩ _ ⟨b, hb, rfl⟩
      exact h.swap a ha b hb
    · rintro _ ⟨a, ha, rfl⟩ _ ⟨b, hb, rfl⟩ _ ⟨c, hc, rfl⟩
      exact h.lt_trans a ha b hb c hc
    · rintro _ ⟨a, ha, rfl⟩ _ ⟨b, hb, rfl⟩ _ ⟨c, hc, rfl⟩
      exact h.eq_trans a ha b hb c hc
  · intro h
    constructor
    · intro a ha b hb
      exact h.swap _ ⟨a, ha, rfl⟩ _ ⟨b, hb, rfl⟩
    · intro a ha b hb c hc
      exact h.lt_trans _ ⟨a, ha, rfl⟩ _ ⟨b, hb, rfl⟩ _ ⟨c, hc, rfl⟩
    · intro a ha b hb c hc
      exact h.eq_trans _ ⟨a, ha, rfl⟩ _ ⟨b, hb, rfl⟩ _ ⟨c, hc, rfl⟩

/-- Two comparisons after another are a strict weak order if the first one is, and the second one is
on what the first one ties. -/
theorem «then» (h : StrictWeakOn S cmp)
    (h' : ∀ a ∈ S, StrictWeakOn {b ∈ S | cmp a b = .eq} cmp') :
    StrictWeakOn S fun a b => (cmp a b).then (cmp' a b) := by
  constructor
  · intro a ha b hb
    rw [Ordering.swap_then, h.swap a ha b hb]
    cases hba : cmp b a with
    | lt => rfl
    | gt => rfl
    | eq => exact (h' a ha).swap a ⟨ha, h.self_eq ha⟩ b ⟨hb, h.eq_symm hb ha hba⟩
  · intro a ha b hb c hc hab hbc
    rw [Ordering.then_eq_lt] at hab hbc ⊢
    rcases hab with hab | ⟨hab, hab'⟩ <;> rcases hbc with hbc | ⟨hbc, hbc'⟩
    · exact .inl (h.lt_trans a ha b hb c hc hab hbc)
    · exact .inl (h.lt_of_lt_of_eq ha hb hc hab hbc)
    · exact .inl (h.lt_of_eq_of_lt ha hb hc hab hbc)
    · have hac := h.eq_trans a ha b hb c hc hab hbc
      exact .inr ⟨hac, (h' a ha).lt_trans a ⟨ha, h.self_eq ha⟩ b ⟨hb, hab⟩ c ⟨hc, hac⟩ hab' hbc'⟩
  · intro a ha b hb c hc hab hbc
    rw [Ordering.then_eq_eq] at hab hbc ⊢
    have hac := h.eq_trans a ha b hb c hc hab.1 hbc.1
    exact ⟨hac, (h' a ha).eq_trans a ⟨ha, h.self_eq ha⟩ b ⟨hb, hab.1⟩ c ⟨hc, hac⟩ hab.2 hbc.2⟩

end StrictWeakOn

/-! ## Texts -/

/-- Instants between which a text that is no instant stands come in the order of the texts. -/
def InstantsInOrder (T : Set String) : Prop :=
  ∀ x ∈ T, ∀ y ∈ T, ∀ z ∈ T, ∀ a c, Time.Instant.read? x = some a → Time.Instant.read? y = none →
    Time.Instant.read? z = some c → compare x y = .lt → compare y z = .lt → a.compare c = .lt

/-- Instants are ordered by their moments. -/
theorem Time.Instant.compare_lt_trans {a b c : Time.Instant} (hab : a.compare b = .lt)
    (hbc : b.compare c = .lt) : a.compare c = .lt := by
  unfold Time.Instant.compare at hab hbc ⊢
  rw [Ordering.then_eq_lt, compare_lt_iff_lt, compare_eq_iff_eq, compare_lt_iff_lt]
    at hab hbc ⊢
  omega

/-- A text that is no instant is compared by code points. -/
theorem compareTexts_of_left {x : String} (hx : Time.Instant.read? x = none) (y : String) :
    compareTexts x y = compare x y := by
  unfold compareTexts
  rw [hx]

/-- So is an instant to a text that is none. -/
theorem compareTexts_of_right (x : String) {y : String} (hy : Time.Instant.read? y = none) :
    compareTexts x y = compare x y := by
  rw [← compareTexts_swap, compareTexts_of_left hy]
  exact Std.OrientedOrd.eq_swap.symm

/-- Two instants are compared by their moments. -/
theorem compareTexts_of_instants {x y : String} {a b : Time.Instant}
    (hx : Time.Instant.read? x = some a) (hy : Time.Instant.read? y = some b) :
    compareTexts x y = a.compare b := by
  unfold compareTexts
  rw [hx, hy]

/-- An instant is no text that is none. -/
theorem compare_ne_eq_of_read? {x y : String} {a : Time.Instant}
    (hx : Time.Instant.read? x = some a) (hy : Time.Instant.read? y = none) :
    compare x y ≠ .eq := by
  intro h
  rw [Std.LawfulEqOrd.eq_of_compare h, hy] at hx
  cases hx

namespace InstantsInOrder

variable {T : Set String} {x y z : String}

/-- Before is transitive if the first text is no instant and the others are: else the first one
would stand between two instants of another order. -/
theorem lt_trans_left (h : InstantsInOrder T) (hx : x ∈ T) (hy : y ∈ T) (hz : z ∈ T)
    {b c : Time.Instant} (hxread : Time.Instant.read? x = none)
    (hyread : Time.Instant.read? y = some b) (hzread : Time.Instant.read? z = some c)
    (hxy : compare x y = .lt) (hyz : b.compare c = .lt) : compare x z = .lt := by
  cases hxz : compare x z with
  | lt => rfl
  | eq =>
    have hzx := Std.OrientedCmp.eq_symm hxz
    exact absurd hzx (compare_ne_eq_of_read? hzread hxread)
  | gt =>
    have hzx := Std.OrientedCmp.lt_of_gt hxz
    have hcb := h z hz x hx y hy c b hzread hxread hyread hzx hxy
    rw [← Time.Instant.compare_swap, hyz] at hcb
    cases hcb

/-- Before is transitive if the last text is no instant and the others are. -/
theorem lt_trans_right (h : InstantsInOrder T) (hx : x ∈ T) (hy : y ∈ T) (hz : z ∈ T)
    {a b : Time.Instant} (hxread : Time.Instant.read? x = some a)
    (hyread : Time.Instant.read? y = some b) (hzread : Time.Instant.read? z = none)
    (hxy : a.compare b = .lt) (hyz : compare y z = .lt) : compare x z = .lt := by
  cases hxz : compare x z with
  | lt => rfl
  | eq => exact absurd hxz (compare_ne_eq_of_read? hxread hzread)
  | gt =>
    have hzx := Std.OrientedCmp.lt_of_gt hxz
    have hba := h y hy z hz x hx b a hyread hzread hxread hyz hzx
    rw [← Time.Instant.compare_swap, hxy] at hba
    cases hba

/-- Before is transitive on texts with their instants in order. -/
theorem lt_trans (h : InstantsInOrder T) (hx : x ∈ T) (hy : y ∈ T) (hz : z ∈ T)
    (hxy : compareTexts x y = .lt) (hyz : compareTexts y z = .lt) : compareTexts x z = .lt := by
  cases hxread : Time.Instant.read? x with
  | none =>
    rw [compareTexts_of_left hxread] at hxy ⊢
    cases hyread : Time.Instant.read? y with
    | none =>
      rw [compareTexts_of_left hyread] at hyz
      exact Std.TransCmp.lt_trans hxy hyz
    | some b =>
      cases hzread : Time.Instant.read? z with
      | none =>
        rw [compareTexts_of_right y hzread] at hyz
        exact Std.TransCmp.lt_trans hxy hyz
      | some c =>
        rw [compareTexts_of_instants hyread hzread] at hyz
        exact h.lt_trans_left hx hy hz hxread hyread hzread hxy hyz
  | some a =>
    cases hyread : Time.Instant.read? y with
    | none =>
      rw [compareTexts_of_right x hyread] at hxy
      rw [compareTexts_of_left hyread] at hyz
      cases hzread : Time.Instant.read? z with
      | none =>
        rw [compareTexts_of_right x hzread]
        exact Std.TransCmp.lt_trans hxy hyz
      | some c =>
        rw [compareTexts_of_instants hxread hzread]
        exact h x hx y hy z hz a c hxread hyread hzread hxy hyz
    | some b =>
      rw [compareTexts_of_instants hxread hyread] at hxy
      cases hzread : Time.Instant.read? z with
      | none =>
        rw [compareTexts_of_right y hzread] at hyz
        rw [compareTexts_of_right x hzread]
        exact h.lt_trans_right hx hy hz hxread hyread hzread hxy hyz
      | some c =>
        rw [compareTexts_of_instants hyread hzread] at hyz
        rw [compareTexts_of_instants hxread hzread]
        exact Time.Instant.compare_lt_trans hxy hyz

end InstantsInOrder

/-! ## Values -/

/-- The order of two values, tied if they are not comparable. -/
def orderValues (x y : Json) : Ordering :=
  (compareValues x y).getD .eq

/-- The opposite order of two values. -/
theorem compareValues_swap (x y : Json) :
    (compareValues x y).map Ordering.swap = compareValues y x := by
  cases x with
  | num a =>
    cases y with
    | num b => exact congrArg some (compareNumbers_swap a b)
    | _ => rfl
  | str a =>
    cases y with
    | str b => exact congrArg some (compareTexts_swap a b)
    | _ => rfl
  | bool a =>
    cases y with
    | bool b => exact congrArg some Std.OrientedOrd.eq_swap.symm
    | _ => rfl
  | _ => cases y <;> rfl

/-- The opposite order of two values, comparable or not. -/
theorem orderValues_swap (x y : Json) : (orderValues x y).swap = orderValues y x := by
  unfold orderValues
  rw [← compareValues_swap x y]
  cases compareValues x y <;> rfl

/-- One value comes before another if they are comparable and it is less. -/
theorem orderValues_eq_lt_iff {x y : Json} :
    orderValues x y = .lt ↔ compareValues x y = some .lt := by
  unfold orderValues
  cases compareValues x y with
  | none => exact iff_of_false (by decide) (by decide)
  | some o => exact Option.some_inj.symm

/-- Values that are not comparable are tied. -/
theorem orderValues_of_none {x y : Json} (h : compareValues x y = none) :
    orderValues x y = .eq := by
  rw [orderValues, h, Option.getD_none]

/-- What is comparable to a number is a number. -/
theorem exists_num_of_compareValues {a : Number} {y : Json}
    (h : compareValues (.num a) y ≠ none) : ∃ b, y = .num b := by
  cases y with
  | num b => exact ⟨b, rfl⟩
  | _ => exact absurd rfl h

/-- What is comparable to a text is a text. -/
theorem exists_str_of_compareValues {a : String} {y : Json}
    (h : compareValues (.str a) y ≠ none) : ∃ b, y = .str b := by
  cases y with
  | str b => exact ⟨b, rfl⟩
  | _ => exact absurd rfl h

/-- What is comparable to a truth value is a truth value. -/
theorem exists_bool_of_compareValues {a : Bool} {y : Json}
    (h : compareValues (.bool a) y ≠ none) : ∃ b, y = .bool b := by
  cases y with
  | bool b => exact ⟨b, rfl⟩
  | _ => exact absurd rfl h

/-- A value that is not comparable to one of two that are told apart is not to the other. -/
theorem compareValues_none_of_lt {x y z : Json} (hxz : compareValues x z = some .lt)
    (hxy : compareValues x y = none) : compareValues y z = none := by
  cases x with
  | num a =>
    obtain ⟨c, rfl⟩ := exists_num_of_compareValues (by rw [hxz]; exact Option.some_ne_none _)
    cases y with
    | num b => cases hxy
    | _ => rfl
  | str a =>
    obtain ⟨c, rfl⟩ := exists_str_of_compareValues (by rw [hxz]; exact Option.some_ne_none _)
    cases y with
    | str b => cases hxy
    | _ => rfl
  | bool a =>
    obtain ⟨c, rfl⟩ := exists_bool_of_compareValues (by rw [hxz]; exact Option.some_ne_none _)
    cases y with
    | bool b => cases hxy
    | _ => rfl
  | null => cases z <;> cases hxz
  | arr | obj => cases hxz

/-- The values of a column are ordered consistently. -/
structure Coherent (V : Set Json) : Prop where
  /-- If two values are told apart, all values besides null are of their kind. -/
  kinds : ∀ x ∈ V, ∀ y ∈ V, ∀ z ∈ V, y ≠ .null → compareValues x z = some .lt →
    compareValues x y ≠ none
  /-- No number blurs two 64-bit whole numbers. -/
  numbers : Number.Separates {n | Json.num n ∈ V}
  /-- No text that is no instant stands between instants of another order. -/
  texts : InstantsInOrder {s | Json.str s ∈ V}

namespace Coherent

variable {V : Set Json} {x y z : Json}

/-- Two values that are tied with a third one are not told apart. -/
theorem not_lt_of_ties (h : Coherent V) (hx : x ∈ V) (hy : y ∈ V) (hz : z ∈ V) (hnull : y ≠ .null)
    (hxy : orderValues x y = .eq) (hyz : orderValues y z = .eq) :
    compareValues x z ≠ some .lt := by
  intro hxz
  have hkinds := h.kinds x hx y hy z hz hnull hxz
  have hxzkinds : compareValues x z ≠ none := by
    rw [hxz]
    exact Option.some_ne_none _
  rw [← orderValues_eq_lt_iff] at hxz
  cases x with
  | num a =>
    obtain ⟨b, rfl⟩ := exists_num_of_compareValues hkinds
    obtain ⟨c, rfl⟩ := exists_num_of_compareValues hxzkinds
    have heq : compareNumbers a c = .eq := h.numbers.trans hx hy hz hxy hyz
    exact absurd (hxz.symm.trans heq) (by decide)
  | str a =>
    obtain ⟨b, rfl⟩ := exists_str_of_compareValues hkinds
    obtain ⟨c, rfl⟩ := exists_str_of_compareValues hxzkinds
    have heq : compareTexts a c = .eq := compareTexts_trans hxy hyz
    exact absurd (hxz.symm.trans heq) (by decide)
  | bool a =>
    obtain ⟨b, rfl⟩ := exists_bool_of_compareValues hkinds
    obtain ⟨c, rfl⟩ := exists_bool_of_compareValues hxzkinds
    have heq : compare a c = .eq := Std.TransCmp.eq_trans hxy hyz
    exact absurd (hxz.symm.trans heq) (by decide)
  | null => cases z <;> cases hxz
  | arr | obj => cases hxz

/-- Coming before is transitive. -/
theorem lt_trans (h : Coherent V) (hx : x ∈ V) (hy : y ∈ V) (hz : z ∈ V)
    (hxy : orderValues x y = .lt) (hyz : orderValues y z = .lt) : orderValues x z = .lt := by
  have hxykinds : compareValues x y ≠ none := by
    rw [orderValues_eq_lt_iff.mp hxy]
    exact Option.some_ne_none _
  have hyzkinds : compareValues y z ≠ none := by
    rw [orderValues_eq_lt_iff.mp hyz]
    exact Option.some_ne_none _
  cases x with
  | num a =>
    obtain ⟨b, rfl⟩ := exists_num_of_compareValues hxykinds
    obtain ⟨c, rfl⟩ := exists_num_of_compareValues hyzkinds
    exact Number.compareNumbers_lt_trans hxy hyz
  | str a =>
    obtain ⟨b, rfl⟩ := exists_str_of_compareValues hxykinds
    obtain ⟨c, rfl⟩ := exists_str_of_compareValues hyzkinds
    exact h.texts.lt_trans hx hy hz hxy hyz
  | bool a =>
    obtain ⟨b, rfl⟩ := exists_bool_of_compareValues hxykinds
    obtain ⟨c, rfl⟩ := exists_bool_of_compareValues hyzkinds
    have hac : compare a c = .lt := Std.TransCmp.lt_trans hxy hyz
    exact hac
  | null => cases y <;> cases hxy
  | arr | obj => cases hxy

/-- The values of a coherent column are in a strict weak order, nulls apart. -/
theorem strictWeakOn (h : Coherent V) : StrictWeakOn {x ∈ V | x ≠ .null} orderValues where
  swap x _ y _ := orderValues_swap x y
  lt_trans x hx y hy z hz := h.lt_trans hx.1 hy.1 hz.1
  eq_trans x hx y hy z hz hxy hyz := by
    cases hxz : orderValues x z with
    | eq => rfl
    | lt =>
      rw [orderValues_eq_lt_iff] at hxz
      exact absurd hxz (h.not_lt_of_ties hx.1 hy.1 hz.1 hy.2 hxy hyz)
    | gt =>
      rw [← orderValues_swap, Ordering.swap_eq_gt, orderValues_eq_lt_iff] at hxz
      rw [← orderValues_swap, Ordering.swap_eq_eq] at hxy hyz
      exact absurd hxz (h.not_lt_of_ties hz.1 hy.1 hx.1 hy.2 hyz hxy)

/-- A column is coherent if its values are in a strict weak order, nulls apart. -/
theorem of_strictWeakOn (h : StrictWeakOn {x ∈ V | x ≠ .null} orderValues) : Coherent V where
  kinds x hx y hy z hz hnull hxz hxy := by
    have hyz := orderValues_of_none (compareValues_none_of_lt hxz hxy)
    have hxnull : x ≠ .null := by
      rintro rfl
      cases z <;> cases hxz
    have hznull : z ≠ .null := by
      rintro rfl
      cases x <;> cases hxz
    have hxy := orderValues_of_none hxy
    have htie := h.eq_trans x ⟨hx, hxnull⟩ y ⟨hy, hnull⟩ z ⟨hz, hznull⟩ hxy hyz
    rw [orderValues_eq_lt_iff.mpr hxz] at htie
    cases htie
  numbers x hx y hy z hz hxint hyint hzint hxy hyz := by
    have hxytie := Number.compareNumbers_eq_of_value_toDouble hxy fun hint => hyint hint.2
    have hyztie := Number.compareNumbers_eq_of_value_toDouble hyz fun hint => hyint hint.1
    have htie : compareNumbers x z = .eq := h.eq_trans (.num x) ⟨hx, Json.noConfusion⟩
      (.num y) ⟨hy, Json.noConfusion⟩ (.num z) ⟨hz, Json.noConfusion⟩ hxytie hyztie
    rw [Number.compareNumbers_of_isInt64 hxint hzint, compare_eq_iff_eq] at htie
    exact Number.value_eq_iff.mpr htie
  texts x hx y hy z hz a c hxread hyread hzread hxy hyz := by
    rw [← compareTexts_of_right x hyread] at hxy
    rw [← compareTexts_of_left hyread] at hyz
    rw [← compareTexts_of_instants hxread hzread]
    exact h.lt_trans (.str x) ⟨hx, Json.noConfusion⟩ (.str y) ⟨hy, Json.noConfusion⟩
      (.str z) ⟨hz, Json.noConfusion⟩ hxy hyz

end Coherent

/-! ## Keys -/

namespace SortKey

/-- Where a key puts a value because it is null or not. -/
def nullRank (key : SortKey) (x : Json) : Nat :=
  if x.isNull then if key.nullsFirst then 0 else 2 else 1

/-- An order in the direction of a key. -/
def directed (key : SortKey) (order : Ordering) : Ordering :=
  if key.descending then order.swap else order

/-- The order of two values by a key. -/
def orderBy (key : SortKey) (x y : Json) : Ordering :=
  (Ord.compare (key.nullRank x) (key.nullRank y)).then (key.directed (orderValues x y))

/-- A key orders records by the values of its column. -/
theorem compare_eq_orderBy (key : SortKey) (a b : Record) :
    key.compare a b = key.orderBy (Record.value a key.field) (Record.value b key.field) := by
  unfold compare orderBy nullRank directed
  dsimp only
  generalize Record.value a key.field = x
  generalize Record.value b key.field = y
  cases hx : x.isNull <;> cases hy : y.isNull
  · rfl
  · cases key.nullsFirst <;> rfl
  · cases key.nullsFirst <;> rfl
  · cases x <;> cases hx
    cases y <;> cases hy
    cases key.descending <;> cases key.nullsFirst <;> rfl

/-- The opposite order of two values by a key. -/
theorem orderBy_swap (key : SortKey) (x y : Json) : (key.orderBy x y).swap = key.orderBy y x := by
  have hrank : (Ord.compare (key.nullRank x) (key.nullRank y)).swap
      = Ord.compare (key.nullRank y) (key.nullRank x) := Std.OrientedOrd.eq_swap.symm
  unfold orderBy directed
  rw [Ordering.swap_then, hrank]
  split_ifs <;> rw [orderValues_swap]

/-- The opposite order of two records by some keys. -/
theorem compareAll_swap (keys : List SortKey) (a b : Record) :
    (compareAll keys a b).swap = compareAll keys b a := by
  induction keys with
  | nil => rfl
  | cons key rest ih =>
    unfold compareAll
    rw [Ordering.swap_then, ih, compare_eq_orderBy, compare_eq_orderBy, orderBy_swap]

/-- Values besides null have one rank. -/
theorem nullRank_of_ne_null (key : SortKey) {x : Json} (h : x ≠ .null) : key.nullRank x = 1 := by
  unfold nullRank
  rw [if_neg]
  intro hnull
  cases x with
  | null => exact h rfl
  | _ => cases hnull

/-- Null has another rank than the values. -/
theorem nullRank_null_ne_one (key : SortKey) : key.nullRank .null ≠ 1 := by
  unfold nullRank
  cases key.nullsFirst <;> decide

/-- Values besides null are ordered in the direction of the key. -/
theorem orderBy_of_ne_null (key : SortKey) {x y : Json} (hx : x ≠ .null) (hy : y ≠ .null) :
    key.orderBy x y = key.directed (orderValues x y) := by
  unfold orderBy
  rw [key.nullRank_of_ne_null hx, key.nullRank_of_ne_null hy, compare_eq_iff_eq.mpr rfl]
  rfl

/-- The direction of a key does not matter to being a strict weak order. -/
theorem strictWeakOn_directed_iff (key : SortKey) {V : Set Json} :
    StrictWeakOn V (fun x y => key.directed (orderValues x y)) ↔ StrictWeakOn V orderValues := by
  unfold directed
  cases key.descending with
  | false => exact Iff.rfl
  | true =>
    constructor
    · intro h
      refine h.reverse.congr ?_
      intro x _ y _
      exact (Ordering.swap_swap).symm
    · intro h
      exact h.reverse

/-- Ranks are in a strict weak order. -/
theorem strictWeakOn_nullRank (key : SortKey) (V : Set Json) :
    StrictWeakOn V fun x y => Ord.compare (key.nullRank x) (key.nullRank y) where
  swap _ _ _ _ := Std.OrientedOrd.eq_swap.symm
  lt_trans _ _ _ _ _ _ := Std.TransCmp.lt_trans
  eq_trans _ _ _ _ _ _ := Std.TransCmp.eq_trans

/-- Nulls are tied with each other. -/
theorem strictWeakOn_null (key : SortKey) :
    StrictWeakOn {.null} fun x y => key.directed (orderValues x y) := by
  rw [strictWeakOn_directed_iff]
  constructor
  · rintro _ rfl _ rfl
    rfl
  · rintro _ rfl _ rfl _ rfl hlt
    cases hlt
  · rintro _ rfl _ rfl _ rfl _ _
    rfl

/-- A key orders the values of a coherent column. -/
theorem strictWeakOn_orderBy (key : SortKey) {V : Set Json} (h : Coherent V) :
    StrictWeakOn V key.orderBy := by
  refine (key.strictWeakOn_nullRank V).then ?_
  intro x _
  by_cases hx : x = .null
  · -- what ties with null in rank is null
    refine key.strictWeakOn_null.mono ?_
    rintro y ⟨-, hrank⟩
    by_contra hy
    rw [compare_eq_iff_eq, key.nullRank_of_ne_null hy, hx] at hrank
    exact key.nullRank_null_ne_one hrank
  · refine (key.strictWeakOn_directed_iff.mpr h.strictWeakOn).mono ?_
    rintro y ⟨hy, hrank⟩
    refine ⟨hy, ?_⟩
    rintro rfl
    rw [compare_eq_iff_eq, key.nullRank_of_ne_null hx] at hrank
    exact key.nullRank_null_ne_one hrank.symm

/-- A column whose values a key orders is coherent. -/
theorem coherent_of_strictWeakOn (key : SortKey) {V : Set Json} (h : StrictWeakOn V key.orderBy) :
    Coherent V := by
  refine Coherent.of_strictWeakOn (key.strictWeakOn_directed_iff.mp ?_)
  refine (h.mono (Set.sep_subset _ _)).congr ?_
  intro x hx y hy
  exact (key.orderBy_of_ne_null hx.2 hy.2).symm

/-- The values of a column over some records. -/
def columnValues (S : Set Record) (column : String) : Set Json :=
  (fun r => Record.value r column) '' S

/-- A key orders records if it orders the values of its column. -/
theorem strictWeakOn_compare_iff (key : SortKey) {S : Set Record} :
    StrictWeakOn S key.compare ↔ Coherent (columnValues S key.field) := by
  have hcompare : key.compare =
      fun a b => key.orderBy (Record.value a key.field) (Record.value b key.field) := by
    funext a b
    exact key.compare_eq_orderBy a b
  unfold columnValues
  rw [hcompare, StrictWeakOn.image_iff (f := fun r => Record.value r key.field)]
  exact ⟨key.coherent_of_strictWeakOn, key.strictWeakOn_orderBy⟩

/-- One key after another orders records with coherent columns. -/
theorem strictWeakOn_compareAll {S : Set Record} {keys : List SortKey}
    (h : ∀ key ∈ keys, Coherent (columnValues S key.field)) :
    StrictWeakOn S (compareAll keys) := by
  induction keys with
  | nil =>
    constructor
    · intro _ _ _ _
      rfl
    · intro _ _ _ _ _ _ hlt
      cases hlt
    · intro _ _ _ _ _ _ _ _
      rfl
  | cons key rest ih =>
    have hkey := key.strictWeakOn_compare_iff.mpr (h key List.mem_cons_self)
    have hrest := ih fun other hother => h other (List.mem_cons_of_mem _ hother)
    exact hkey.then fun a _ => hrest.mono (Set.sep_subset _ _)

/-- A single key orders as it does alone. -/
theorem compareAll_singleton (key : SortKey) : compareAll [key] = key.compare := by
  funext a b
  unfold compareAll compareAll
  cases key.compare a b <;> rfl

/-- Which records the keys of an ordering order strictly and weakly. The comparison reverses with
its arguments; some keys are a strict weak order of the records with coherent columns; and a single
key is one of no other records. -/
theorem strictWeakOn_iff (S : Set Record) (keys : List SortKey) (key : SortKey) :
    (∀ a b, (compareAll keys a b).swap = compareAll keys b a) ∧
    ((∀ k ∈ keys, Coherent (columnValues S k.field)) → StrictWeakOn S (compareAll keys)) ∧
    (StrictWeakOn S (compareAll [key]) ↔ Coherent (columnValues S key.field)) := by
  refine ⟨compareAll_swap keys, strictWeakOn_compareAll, ?_⟩
  rw [compareAll_singleton]
  exact key.strictWeakOn_compare_iff

/-- Two instants and a text between them that is none come before each other in a cycle, and so
sorting leaves them as they are. -/
theorem ordering_cycles :
    let key : SortKey := ⟨"v", false, false⟩
    let early : Record := [("v", .str "2024-01-01T00:00:00Z")]
    let between : Record := [("v", .str "2024-01-01T00:30")]
    let offset : Record := [("v", .str "2024-01-01T01:00:00+05:00")]
    compareAll [key] early between = .lt ∧ compareAll [key] between offset = .lt ∧
      compareAll [key] offset early = .lt ∧
      sortRecords [key] [between, offset, early] = [between, offset, early] := by
  decide +kernel

end SortKey

end ModelGateway
