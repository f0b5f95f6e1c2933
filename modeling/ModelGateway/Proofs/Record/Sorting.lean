import Mathlib.Data.List.Induction
import ModelGateway.Proofs.Record.Ordering
import ModelGateway.Proofs.Record.Paging

/-!
# Sorted records

* **Insertion** (`sortRecords_stableSort`): sorting is a stable sort wherever the comparison is a
  strict weak order of the records. Each record moves left past those that it precedes; as the
  others are in order already, it precedes none of those that it has not passed, and it passes none
  that is tied with it.
* **The order that is asked for** (`SortKey.Precedes`, `SortKey.PrecedesBy`): what the keys of an
  ordering mean for columns of one kind of values, said without the comparison.
* **Homogeneous columns** (`SortKey.sortRecords_sorts`): there sorting gives the records in that
  order, and those that are tied on all keys as they were. No other list is in that order
  (`StableSort.unique`), so it does not matter which stable sort is used.
-/

namespace ModelGateway

/-! ## Stable sorts -/

namespace StrictWeakOn

variable {α : Type} {S : Set α} {cmp : α → α → Ordering} {a b c : α}

/-- What does not come before something does not come before what is not after that. -/
theorem ne_lt_trans (h : StrictWeakOn S cmp) (ha : a ∈ S) (hb : b ∈ S) (hc : c ∈ S)
    (hab : cmp a b ≠ .lt) (hbc : cmp b c ≠ .lt) : cmp a c ≠ .lt := by
  intro hac
  cases hba : cmp b a with
  | lt => exact hbc (h.lt_trans b hb a ha c hc hba hac)
  | eq => exact hbc (h.lt_of_eq_of_lt hb ha hc hba hac)
  | gt =>
    rw [← h.swap a ha b hb, Ordering.swap_eq_gt] at hba
    exact hab hba

/-- Of two that are tied, something is tied with both or with none. -/
theorem eq_iff_eq (h : StrictWeakOn S cmp) (ha : a ∈ S) (hb : b ∈ S) (hc : c ∈ S)
    (hab : cmp a b = .eq) : cmp a c = .eq ↔ cmp b c = .eq :=
  ⟨h.eq_trans b hb a ha c hc (h.eq_symm ha hb hab), h.eq_trans a ha b hb c hc hab⟩

end StrictWeakOn

/-- A list is another one in a stable order: it has the same items, none comes before one that
stands to the left of it, and items that are all tied keep their order. -/
structure StableSort {α : Type} (cmp : α → α → Ordering) (items sorted : List α) : Prop where
  perm : sorted.Perm items
  ordered : sorted.Pairwise fun a b => cmp b a ≠ .lt
  stable : ∀ run : List α, run.Sublist items → (run.Pairwise fun a b => cmp a b = .eq) →
    run.Sublist sorted

namespace StableSort

variable {α : Type} {cmp : α → α → Ordering} {items sorted sorted' : List α}

/-- A list in order is a stable sort if it has the same items of each class of tied ones, in their
order. -/
theorem of_filter (h : StrictWeakOn {x | x ∈ items} cmp) (hperm : sorted.Perm items)
    (hordered : sorted.Pairwise fun a b => cmp b a ≠ .lt)
    (hclass : ∀ x ∈ items, sorted.filter (cmp x · == .eq) = items.filter (cmp x · == .eq)) :
    StableSort cmp items sorted where
  perm := hperm
  ordered := hordered
  stable run hrun htied := by
    cases run with
    | nil => exact List.nil_sublist sorted
    | cons x rest =>
      have hx : x ∈ items := hrun.subset List.mem_cons_self
      have hall : (x :: rest).filter (cmp x · == .eq) = x :: rest := by
        rw [List.filter_eq_self]
        intro y hy
        rw [beq_iff_eq]
        rcases List.mem_cons.mp hy with rfl | hy
        · exact h.self_eq hx
        · exact (List.pairwise_cons.mp htied).1 y hy
      have hsub := hrun.filter (cmp x · == .eq)
      rw [hall, ← hclass x hx] at hsub
      exact hsub.trans List.filter_sublist

/-- A stable sort has the items of each class of tied ones in their order. -/
theorem filter_eq (hs : StableSort cmp items sorted) (h : StrictWeakOn {x | x ∈ items} cmp) {x : α}
    (hx : x ∈ items) : sorted.filter (cmp x · == .eq) = items.filter (cmp x · == .eq) := by
  have htied : (items.filter (cmp x · == .eq)).Pairwise fun a b => cmp a b = .eq := by
    refine List.pairwise_of_forall_mem_list fun a ha b hb => ?_
    obtain ⟨ha, hxa⟩ := List.mem_filter.mp ha
    obtain ⟨hb, hxb⟩ := List.mem_filter.mp hb
    exact (h.eq_iff_eq hx ha hb (beq_iff_eq.mp hxa)).mp (beq_iff_eq.mp hxb)
  have hsub := (hs.stable _ List.filter_sublist htied).filter (cmp x · == .eq)
  rw [List.filter_filter] at hsub
  simp only [Bool.and_self] at hsub
  exact (hsub.eq_of_length (hs.perm.filter _).length_eq.symm).symm

/-- A list has one stable sort. -/
theorem unique (h : StrictWeakOn {x | x ∈ items} cmp) (hs : StableSort cmp items sorted)
    (hs' : StableSort cmp items sorted') : sorted = sorted' := by
  have hclass : ∀ x ∈ items,
      sorted.filter (cmp x · == .eq) = sorted'.filter (cmp x · == .eq) := by
    intro x hx
    rw [hs.filter_eq h hx, hs'.filter_eq h hx]
  have hsub : ∀ x ∈ sorted, x ∈ items := fun x hx => hs.perm.mem_iff.mp hx
  have hperm := hs.perm.trans hs'.perm.symm
  have hordered := hs.ordered
  have hordered' := hs'.ordered
  clear hs hs'
  induction sorted generalizing sorted' with
  | nil => exact (List.nil_perm.mp hperm).symm
  | cons x rest ih =>
    cases sorted' with
    | nil => exact List.perm_nil.mp hperm
    | cons y rest' =>
      obtain ⟨hx, hrest⟩ := List.forall_mem_cons.mp hsub
      have hy : y ∈ items := hsub y (hperm.mem_iff.mpr List.mem_cons_self)
      obtain ⟨hfirst, htail⟩ := List.pairwise_cons.mp hordered
      obtain ⟨hfirst', htail'⟩ := List.pairwise_cons.mp hordered'
      -- the first items are tied, and so they are the first ones of their class
      have hxy : cmp x y ≠ .lt := by
        rcases List.mem_cons.mp (hperm.mem_iff.mp List.mem_cons_self) with rfl | hmem
        · simp [h.self_eq hx]
        · exact hfirst' x hmem
      have hyx : cmp y x ≠ .lt := by
        rcases List.mem_cons.mp (hperm.mem_iff.mpr List.mem_cons_self) with rfl | hmem
        · simp [h.self_eq hy]
        · exact hfirst y hmem
      have htie : cmp x y = .eq := by
        have hswap := h.swap x hx y hy
        cases hcase : cmp x y with
        | lt => exact absurd hcase hxy
        | eq => rfl
        | gt =>
          rw [hcase] at hswap
          exact absurd hswap.symm hyx
      have hheads := hclass x hx
      rw [List.filter_cons_of_pos (by simp [h.self_eq hx]),
        List.filter_cons_of_pos (by simp [htie])] at hheads
      obtain ⟨rfl, -⟩ := List.cons.inj hheads
      congr 1
      refine ih (fun z hz => ?_) hrest ((List.perm_cons x).mp hperm) htail htail'
      have hz := hclass z hz
      rw [List.filter_cons, List.filter_cons] at hz
      split_ifs at hz
      · exact (List.cons.inj hz).2
      · exact hz

end StableSort

/-! ## Insertion -/

section Insertion

variable {S : Set Record} {cmp : Record → Record → Ordering} {r : Record} {sorted : List Record}

/-- Inserting a record keeps a list in order from last to first. -/
theorem insertLast_ordered (h : StrictWeakOn S cmp) (hr : r ∈ S) (hs : ∀ x ∈ sorted, x ∈ S)
    (hordered : sorted.Pairwise fun a b => cmp a b ≠ .lt) :
    (insertLast (fun a b => cmp a b == .lt) r sorted).Pairwise fun a b => cmp a b ≠ .lt := by
  induction sorted with
  | nil => exact List.pairwise_singleton _ _
  | cons last before ih =>
    obtain ⟨hlast, hbefore⟩ := List.forall_mem_cons.mp hs
    obtain ⟨hfirst, hrest⟩ := List.pairwise_cons.mp hordered
    rw [insertLast]
    split_ifs with hpasses
    · refine List.pairwise_cons.mpr ⟨fun x hx => ?_, ih hbefore hrest⟩
      rcases List.mem_cons.mp ((insertLast_perm _ r before).mem_iff.mp hx) with rfl | hx
      · rw [← h.swap x hr last hlast, beq_iff_eq.mp hpasses]
        decide
      · exact hfirst x hx
    · have hstops : cmp r last ≠ .lt := by simpa using hpasses
      refine List.pairwise_cons.mpr ⟨List.forall_mem_cons.mpr ⟨hstops, fun x hx => ?_⟩, hordered⟩
      exact h.ne_lt_trans hr hlast (hbefore x hx) hstops (hfirst x hx)

/-- A record passes no record of a class to which it belongs, if it precedes none of them. -/
theorem filter_insertLast {test : Record → Bool}
    (h : test r = true → ∀ x ∈ sorted, test x = true → cmp r x ≠ .lt) :
    (insertLast (fun a b => cmp a b == .lt) r sorted).filter test =
      (r :: sorted).filter test := by
  induction sorted with
  | nil => rfl
  | cons last before ih =>
    rw [insertLast]
    split_ifs with hpasses
    · have hlast : test r = true → test last ≠ true :=
        fun hr hlast => h hr last List.mem_cons_self hlast (beq_iff_eq.mp hpasses)
      rw [List.filter_cons, ih fun hr x hx => h hr x (List.mem_cons_of_mem _ hx)]
      cases hr : test r with
      | false => simp [List.filter_cons, hr]
      | true => simp [hr, hlast hr]
    · rfl

/-- Records that are inserted one after another are in order from last to first, and those that are
tied with one record are from last to first as they came. -/
theorem foldl_insertLast (h : StrictWeakOn S cmp) {records : List Record}
    (hrecords : ∀ r ∈ records, r ∈ S) :
    let sorted := records.foldl (fun sorted r => insertLast (fun a b => cmp a b == .lt) r sorted) []
    (sorted.Pairwise fun a b => cmp a b ≠ .lt) ∧
      ∀ x ∈ S, sorted.filter (cmp x · == .eq) = (records.filter (cmp x · == .eq)).reverse := by
  induction records using List.reverseRecOn with
  | nil => exact ⟨.nil, fun _ _ => rfl⟩
  | append_singleton rest r ih =>
    obtain ⟨hrest, hr⟩ := List.forall_mem_append.mp hrecords
    have hr := hr r (List.mem_singleton_self r)
    obtain ⟨hordered, hclass⟩ := ih hrest
    have hsorted : ∀ x ∈ rest.foldl
        (fun sorted r => insertLast (fun a b => cmp a b == .lt) r sorted) [], x ∈ S :=
      fun x hx => hrest x (mem_foldl_insertLast.mp hx)
    dsimp only
    rw [List.foldl_append, List.foldl_cons, List.foldl_nil]
    refine ⟨insertLast_ordered h hr hsorted hordered, fun x hx => ?_⟩
    -- what is tied with `x` is tied with `r` if `r` is
    have htied : (cmp x r == .eq) = true → ∀ y ∈ rest.foldl
        (fun sorted r => insertLast (fun a b => cmp a b == .lt) r sorted) [],
        (cmp x y == .eq) = true → cmp r y ≠ .lt := by
      intro hxr y hy hxy
      rw [beq_iff_eq] at hxr hxy
      rw [(h.eq_iff_eq hx hr (hsorted y hy) hxr).mp hxy]
      decide
    rw [filter_insertLast htied, List.filter_append, List.reverse_append, ← hclass x hx,
      List.filter_cons, List.filter_cons]
    split_ifs <;> rfl

end Insertion

/-- Sorting is a stable sort where the keys are a strict weak order of the records. -/
theorem sortRecords_stableSort {keys : List SortKey} {records : List Record}
    (h : StrictWeakOn {r | r ∈ records} (SortKey.compareAll keys)) :
    StableSort (SortKey.compareAll keys) records (sortRecords keys records) := by
  have hperm := sortRecords_perm keys records
  have hmem : ∀ r ∈ records, r ∈ {r | r ∈ records} := fun _ hr => hr
  obtain ⟨hordered, hclass⟩ := foldl_insertLast h hmem
  rw [sortRecords] at hperm ⊢
  split_ifs at hperm ⊢ with hkeys
  · obtain rfl := List.isEmpty_iff.mp hkeys
    exact ⟨.refl _, List.pairwise_of_forall fun _ _ => by simp [SortKey.compareAll],
      fun run hrun _ => hrun⟩
  · refine .of_filter h hperm (List.pairwise_reverse.mpr hordered) ?_
    intro x hx
    rw [List.filter_reverse, hclass x hx, List.reverse_reverse]

/-! ## Kinds of values -/

/-- One value comes before another of its kind: the smaller whole number, false before true, the
earlier instant, and of other texts the one that is less by code points. -/
inductive Json.Below : Json → Json → Prop
  | whole {x y : Number} {a b : Int} (hx : x.toInt64? = some a) (hy : y.toInt64? = some b)
      (hlt : a < b) : Below (.num x) (.num y)
  | truth : Below (.bool false) (.bool true)
  | instant {x y : String} {a b : Time.Instant} (hx : Time.Instant.read? x = some a)
      (hy : Time.Instant.read? y = some b)
      (hlt : a.seconds < b.seconds ∨ a.seconds = b.seconds ∧ a.nanos < b.nanos) :
      Below (.str x) (.str y)
  | text {x y : String} (hx : Time.Instant.read? x = none) (hy : Time.Instant.read? y = none)
      (hlt : x < y) : Below (.str x) (.str y)

namespace Json

/-- Whole numbers are below others as integers are. -/
theorem below_whole_iff {x y : Number} {a b : Int} (hx : x.toInt64? = some a)
    (hy : y.toInt64? = some b) : (num x).Below (num y) ↔ a < b := by
  constructor
  · rintro ⟨hx', hy', hlt⟩
    rw [hx] at hx'
    rw [hy] at hy'
    cases hx'
    cases hy'
    exact hlt
  · exact .whole hx hy

/-- False is below true. -/
theorem below_truth_iff {a b : Bool} : (bool a).Below (bool b) ↔ a < b := by
  constructor
  · rintro ⟨⟩
    decide
  · intro hlt
    obtain ⟨rfl, rfl⟩ := Bool.lt_iff.mp hlt
    exact .truth

/-- Instants are below others by their moments. -/
theorem below_instant_iff {x y : String} {a b : Time.Instant} (hx : Time.Instant.read? x = some a)
    (hy : Time.Instant.read? y = some b) :
    (str x).Below (str y) ↔ a.seconds < b.seconds ∨ a.seconds = b.seconds ∧ a.nanos < b.nanos := by
  constructor
  · intro h
    cases h with
    | instant hx' hy' hlt =>
      rw [hx] at hx'
      rw [hy] at hy'
      cases hx'
      cases hy'
      exact hlt
    | text hx' =>
      rw [hx] at hx'
      cases hx'
  · exact .instant hx hy

/-- Other texts are below each other by code points. -/
theorem below_text_iff {x y : String} (hx : Time.Instant.read? x = none)
    (hy : Time.Instant.read? y = none) : (str x).Below (str y) ↔ x < y := by
  constructor
  · intro h
    cases h with
    | instant hx' =>
      rw [hx] at hx'
      cases hx'
    | text _ _ hlt => exact hlt
  · exact .text hx hy

/-- Null is below nothing. -/
theorem Below.left_ne_null {x y : Json} (h : x.Below y) : x ≠ .null := by
  rintro rfl
  cases h

/-- Nothing is below null. -/
theorem Below.right_ne_null {x y : Json} (h : x.Below y) : y ≠ .null := by
  rintro rfl
  cases h

end Json

/-- A kind of values that have an order: whole numbers of 64 bits, truth values, instants, and texts
that are none. -/
inductive ValueKind where
  | whole
  | truth
  | instant
  | text
deriving DecidableEq, Repr

namespace ValueKind

/-- Whether a value is of a kind. -/
def admits : ValueKind → Json → Bool
  | .whole, .num x => x.toInt64?.isSome
  | .truth, .bool _ => true
  | .instant, .str x => (Time.Instant.read? x).isSome
  | .text, .str x => (Time.Instant.read? x).isNone
  | _, _ => false

variable {kind : ValueKind} {x y : Json}

/-- What is of the kind of whole numbers is one. -/
theorem exists_of_whole (h : whole.admits x = true) : ∃ n a, x = .num n ∧ n.toInt64? = some a := by
  cases x with
  | num n =>
    obtain ⟨a, ha⟩ := Option.isSome_iff_exists.mp h
    exact ⟨n, a, rfl, ha⟩
  | _ => cases h

/-- What is of the kind of truth values is one. -/
theorem exists_of_truth (h : truth.admits x = true) : ∃ b, x = .bool b := by
  cases x with
  | bool b => exact ⟨b, rfl⟩
  | _ => cases h

/-- What is of the kind of instants is a text that reads as one. -/
theorem exists_of_instant (h : instant.admits x = true) :
    ∃ s a, x = .str s ∧ Time.Instant.read? s = some a := by
  cases x with
  | str s =>
    obtain ⟨a, ha⟩ := Option.isSome_iff_exists.mp h
    exact ⟨s, a, rfl, ha⟩
  | _ => cases h

/-- What is of the kind of other texts is a text that reads as none. -/
theorem exists_of_text (h : text.admits x = true) :
    ∃ s, x = .str s ∧ Time.Instant.read? s = none := by
  cases x with
  | str s => exact ⟨s, rfl, Option.isNone_iff_eq_none.mp h⟩
  | _ => cases h

/-- Two values of one kind are comparable, and the one that is below the other comes before it. -/
theorem compareValues_of_admits (hx : kind.admits x = true) (hy : kind.admits y = true) :
    ∃ order, compareValues x y = some order ∧ (order = .lt ↔ x.Below y) := by
  cases kind with
  | whole =>
    obtain ⟨n, a, rfl, ha⟩ := exists_of_whole hx
    obtain ⟨m, b, rfl, hb⟩ := exists_of_whole hy
    refine ⟨compare a b, by simp only [compareValues, compareNumbers, ha, hb], ?_⟩
    rw [compare_lt_iff_lt, Json.below_whole_iff ha hb]
  | truth =>
    obtain ⟨a, rfl⟩ := exists_of_truth hx
    obtain ⟨b, rfl⟩ := exists_of_truth hy
    refine ⟨compare a b, rfl, ?_⟩
    rw [compare_lt_iff_lt, Json.below_truth_iff]
  | instant =>
    obtain ⟨s, a, rfl, ha⟩ := exists_of_instant hx
    obtain ⟨t, b, rfl, hb⟩ := exists_of_instant hy
    refine ⟨a.compare b, congrArg some (compareTexts_of_instants ha hb), ?_⟩
    rw [Time.Instant.compare, Ordering.then_eq_lt, compare_lt_iff_lt, compare_eq_iff_eq,
      compare_lt_iff_lt, Json.below_instant_iff ha hb]
  | text =>
    obtain ⟨s, rfl, hs⟩ := exists_of_text hx
    obtain ⟨t, rfl, ht⟩ := exists_of_text hy
    refine ⟨compare s t, congrArg some (compareTexts_of_left hs t), ?_⟩
    rw [Json.below_text_iff hs ht]
    exact compareOfLessAndEq_eq_lt

end ValueKind

/-- Null is not told apart from a value. -/
theorem ne_null_of_compareValues {x y : Json} (h : compareValues x y = some .lt) :
    x ≠ .null ∧ y ≠ .null := by
  constructor
  · rintro rfl
    cases y <;> cases h
  · rintro rfl
    cases x <;> cases h

/-- A column of some records is of one kind, nulls apart. -/
def Homogeneous (records : List Record) (column : String) : Prop :=
  ∃ kind : ValueKind, ∀ r ∈ records,
    Record.value r column = .null ∨ kind.admits (Record.value r column) = true

namespace Homogeneous

variable {records : List Record} {column : String}

/-- The values of one kind are ordered consistently. -/
theorem coherent (h : Homogeneous records column) :
    Coherent (SortKey.columnValues {r | r ∈ records} column) := by
  obtain ⟨kind, hkind⟩ := h
  have hadmits : ∀ x ∈ SortKey.columnValues {r | r ∈ records} column, x ≠ .null →
      kind.admits x = true := by
    rintro _ ⟨r, hr, rfl⟩ hnull
    exact (hkind r hr).resolve_left hnull
  constructor
  · intro x hx y hy z _ hnull hlt
    have hxnull := (ne_null_of_compareValues hlt).1
    obtain ⟨order, horder, -⟩ :=
      ValueKind.compareValues_of_admits (hadmits x hx hxnull) (hadmits y hy hnull)
    rw [horder]
    exact Option.some_ne_none order
  · -- where numbers are admitted, all of them are whole
    intro x _ y hy z _ _ hyint
    have hyadmits := hadmits (.num y) hy Json.noConfusion
    cases kind <;> first | exact absurd hyadmits hyint | cases hyadmits
  · -- instants and other texts are of two kinds
    intro x hx y hy z _ a c hxread hyread
    have hxadmits := hadmits (.str x) hx Json.noConfusion
    have hyadmits := hadmits (.str y) hy Json.noConfusion
    cases kind <;> simp [ValueKind.admits, hxread, hyread] at hxadmits hyadmits

/-- Of two values of a homogeneous column, the one that is below the other is ordered before it. -/
theorem orderValues_eq_lt_iff (h : Homogeneous records column) {a b : Record} (ha : a ∈ records)
    (hb : b ∈ records) :
    orderValues (Record.value a column) (Record.value b column) = .lt ↔
      (Record.value a column).Below (Record.value b column) := by
  obtain ⟨kind, hkind⟩ := h
  rw [ModelGateway.orderValues_eq_lt_iff]
  by_cases hanull : Record.value a column = .null
  · exact iff_of_false (fun hlt => (ne_null_of_compareValues hlt).1 hanull)
      fun hbelow => hbelow.left_ne_null hanull
  by_cases hbnull : Record.value b column = .null
  · exact iff_of_false (fun hlt => (ne_null_of_compareValues hlt).2 hbnull)
      fun hbelow => hbelow.right_ne_null hbnull
  obtain ⟨order, horder, hlt⟩ := ValueKind.compareValues_of_admits
    ((hkind a ha).resolve_left hanull) ((hkind b hb).resolve_left hbnull)
  rw [horder, Option.some_inj, hlt]

end Homogeneous

/-! ## The order that is asked for -/

namespace SortKey

/-- One record precedes another by a key: it is on the side of the nulls, or its value is below in
an ascending order and above in a descending one. -/
@[mk_iff]
inductive Precedes (key : SortKey) (a b : Record) : Prop
  | nullFirst (first : key.nullsFirst = true) (ha : Record.value a key.field = .null)
      (hb : Record.value b key.field ≠ .null)
  | nullLast (last : key.nullsFirst = false) (ha : Record.value a key.field ≠ .null)
      (hb : Record.value b key.field = .null)
  | ascending (up : key.descending = false)
      (below : (Record.value a key.field).Below (Record.value b key.field))
  | descending (down : key.descending = true)
      (above : (Record.value b key.field).Below (Record.value a key.field))

/-- Two records are tied by a key if none precedes the other. -/
def Tied (key : SortKey) (a b : Record) : Prop :=
  ¬key.Precedes a b ∧ ¬key.Precedes b a

/-- One record precedes another by the first key by which they are not tied. -/
inductive PrecedesBy : List SortKey → Record → Record → Prop
  | here {key : SortKey} {rest : List SortKey} {a b : Record} (h : key.Precedes a b) :
      PrecedesBy (key :: rest) a b
  | later {key : SortKey} {rest : List SortKey} {a b : Record} (htied : key.Tied a b)
      (h : PrecedesBy rest a b) : PrecedesBy (key :: rest) a b

/-- Records are sorted by some keys: no record is lost or made up, of any two the left one precedes
the other unless they are tied by all keys, and those that are tied by all keys are as they were. -/
structure Sorts (keys : List SortKey) (records sorted : List Record) : Prop where
  perm : sorted.Perm records
  ordered : sorted.Pairwise fun a b => PrecedesBy keys a b ∨ ∀ key ∈ keys, key.Tied a b
  stable : ∀ run : List Record, run.Sublist records →
    (run.Pairwise fun a b => ∀ key ∈ keys, key.Tied a b) → run.Sublist sorted

section Homogeneous

variable {records : List Record} {keys : List SortKey} {a b : Record} {key : SortKey}

/-- Two nulls are tied. -/
theorem compare_of_nulls (ha : Record.value a key.field = .null)
    (hb : Record.value b key.field = .null) : key.compare a b = .eq := by
  unfold compare
  rw [ha, hb]
  rfl

/-- A null is on its side of a value. -/
theorem compare_of_null_left (ha : Record.value a key.field = .null)
    (hb : Record.value b key.field ≠ .null) :
    key.compare a b = if key.nullsFirst then .lt else .gt := by
  unfold compare
  rw [ha]
  cases hvalue : Record.value b key.field <;> first | exact absurd hvalue hb | rfl

/-- A value is on the other side of a null. -/
theorem compare_of_null_right (ha : Record.value a key.field ≠ .null)
    (hb : Record.value b key.field = .null) :
    key.compare a b = if key.nullsFirst then .gt else .lt := by
  unfold compare
  rw [hb]
  cases hvalue : Record.value a key.field <;> first | exact absurd hvalue ha | rfl

/-- Values are in the order of the key. -/
theorem compare_of_values (ha : Record.value a key.field ≠ .null)
    (hb : Record.value b key.field ≠ .null) :
    key.compare a b =
      key.directed (orderValues (Record.value a key.field) (Record.value b key.field)) := by
  rw [compare_eq_orderBy, orderBy_of_ne_null key ha hb]

/-- On a homogeneous column, a record comes before those that it precedes. -/
theorem compare_eq_lt_iff (h : Homogeneous records key.field) (ha : a ∈ records)
    (hb : b ∈ records) : key.compare a b = .lt ↔ key.Precedes a b := by
  rw [precedes_iff]
  by_cases hanull : Record.value a key.field = .null <;>
    by_cases hbnull : Record.value b key.field = .null
  · rw [compare_of_nulls hanull hbnull, hanull, hbnull]
    refine iff_of_false (by decide) ?_
    rintro (⟨-, -, hb⟩ | ⟨-, ha, -⟩ | ⟨-, hbelow⟩ | ⟨-, habove⟩)
    · exact hb rfl
    · exact ha rfl
    · exact hbelow.left_ne_null rfl
    · exact habove.left_ne_null rfl
  · rw [compare_of_null_left hanull hbnull, hanull]
    cases hfirst : key.nullsFirst with
    | true => exact iff_of_true rfl (.inl ⟨rfl, rfl, hbnull⟩)
    | false =>
      refine iff_of_false (by decide) ?_
      rintro (⟨hfirst, -, -⟩ | ⟨-, ha, -⟩ | ⟨-, hbelow⟩ | ⟨-, habove⟩)
      · cases hfirst
      · exact ha rfl
      · exact hbelow.left_ne_null rfl
      · exact habove.right_ne_null rfl
  · rw [compare_of_null_right hanull hbnull, hbnull]
    cases hfirst : key.nullsFirst with
    | false => exact iff_of_true rfl (.inr (.inl ⟨rfl, hanull, rfl⟩))
    | true =>
      refine iff_of_false (by decide) ?_
      rintro (⟨-, -, hb⟩ | ⟨hlast, -, -⟩ | ⟨-, hbelow⟩ | ⟨-, habove⟩)
      · exact hb rfl
      · cases hlast
      · exact hbelow.right_ne_null rfl
      · exact habove.left_ne_null rfl
  · rw [compare_of_values hanull hbnull, directed]
    simp only [hanull, hbnull, false_and, and_false, false_or]
    cases key.descending with
    | false => simpa using h.orderValues_eq_lt_iff ha hb
    | true => simpa [orderValues_swap] using h.orderValues_eq_lt_iff hb ha

/-- The opposite order of two records by a key. -/
theorem compare_swap (key : SortKey) (a b : Record) : (key.compare a b).swap = key.compare b a := by
  rw [compare_eq_orderBy, compare_eq_orderBy, orderBy_swap]

/-- On a homogeneous column, records are tied if none comes before the other. -/
theorem compare_eq_eq_iff (h : Homogeneous records key.field) (ha : a ∈ records)
    (hb : b ∈ records) : key.compare a b = .eq ↔ key.Tied a b := by
  unfold Tied
  rw [← compare_eq_lt_iff h ha hb, ← compare_eq_lt_iff h hb ha, ← key.compare_swap a b]
  cases key.compare a b <;> decide

/-- On homogeneous columns, records are tied by all keys if every key ties them. -/
theorem compareAll_eq_eq_iff (h : ∀ key ∈ keys, Homogeneous records key.field) (ha : a ∈ records)
    (hb : b ∈ records) : compareAll keys a b = .eq ↔ ∀ key ∈ keys, key.Tied a b := by
  induction keys with
  | nil => exact iff_of_true rfl fun _ hkey => absurd hkey List.not_mem_nil
  | cons key rest ih =>
    obtain ⟨hkey, hrest⟩ := List.forall_mem_cons.mp h
    rw [compareAll, Ordering.then_eq_eq, compare_eq_eq_iff hkey ha hb, ih hrest,
      List.forall_mem_cons]

/-- On homogeneous columns, the first key that tells records apart says which one comes before. -/
theorem compareAll_eq_lt_iff (h : ∀ key ∈ keys, Homogeneous records key.field) (ha : a ∈ records)
    (hb : b ∈ records) : compareAll keys a b = .lt ↔ PrecedesBy keys a b := by
  induction keys with
  | nil => exact iff_of_false (fun hlt => by cases hlt) fun hprec => by cases hprec
  | cons key rest ih =>
    obtain ⟨hkey, hrest⟩ := List.forall_mem_cons.mp h
    rw [compareAll, Ordering.then_eq_lt, compare_eq_lt_iff hkey ha hb,
      compare_eq_eq_iff hkey ha hb, ih hrest]
    constructor
    · rintro (hprec | ⟨htied, hprec⟩)
      · exact .here hprec
      · exact .later htied hprec
    · rintro (hprec | ⟨htied, hprec⟩)
      · exact .inl hprec
      · exact .inr ⟨htied, hprec⟩

/-- On homogeneous columns, being sorted by some keys is being in the stable order of their
comparison. -/
theorem sorts_iff (h : ∀ key ∈ keys, Homogeneous records key.field) {sorted : List Record} :
    Sorts keys records sorted ↔ StableSort (compareAll keys) records sorted := by
  have hright : ∀ a ∈ records, ∀ b ∈ records,
      (compareAll keys b a ≠ .lt ↔ PrecedesBy keys a b ∨ ∀ key ∈ keys, key.Tied a b) := by
    intro a ha b hb
    rw [← compareAll_eq_lt_iff h ha hb, ← compareAll_eq_eq_iff h ha hb, ← compareAll_swap keys a b]
    cases compareAll keys a b <;> decide
  have hties : ∀ run : List Record, run.Sublist records →
      ((run.Pairwise fun a b => compareAll keys a b = .eq) ↔
        run.Pairwise fun a b => ∀ key ∈ keys, key.Tied a b) := by
    intro run hrun
    refine List.Pairwise.iff_of_mem fun {a b} ha hb => ?_
    exact compareAll_eq_eq_iff h (hrun.subset ha) (hrun.subset hb)
  constructor
  · intro ⟨hperm, hordered, hstable⟩
    refine ⟨hperm, hordered.imp_of_mem fun ha hb hab => ?_, fun run hrun htied => ?_⟩
    · exact (hright _ (hperm.mem_iff.mp ha) _ (hperm.mem_iff.mp hb)).mpr hab
    · exact hstable run hrun ((hties run hrun).mp htied)
  · intro ⟨hperm, hordered, hstable⟩
    refine ⟨hperm, hordered.imp_of_mem fun ha hb hab => ?_, fun run hrun htied => ?_⟩
    · exact (hright _ (hperm.mem_iff.mp ha) _ (hperm.mem_iff.mp hb)).mp hab
    · exact hstable run hrun ((hties run hrun).mpr htied)

/-- On homogeneous columns, sorting gives the records in the order that the keys ask for, with ties
as they were, and no other list is in this order. -/
theorem sortRecords_sorts (h : ∀ key ∈ keys, Homogeneous records key.field)
    (sorted : List Record) : Sorts keys records sorted ↔ sorted = sortRecords keys records := by
  have hweak : StrictWeakOn {r | r ∈ records} (compareAll keys) :=
    strictWeakOn_compareAll fun key hkey => (h key hkey).coherent
  rw [sorts_iff h]
  constructor
  · intro hsorted
    exact hsorted.unique hweak (sortRecords_stableSort hweak)
  · rintro rfl
    exact sortRecords_stableSort hweak

/-- Shifts from the latest start on, with unknown starts last, and those of one start by their
rank: two starts are of one moment, two ranks are missing, and two shifts are tied. -/
theorem sortRecords_sorts_shifts :
    let shift (id start rank : Json) : Record := [("id", id), ("start", start), ("rank", rank)]
    let early := shift (.ofInt 1) (.str "2024-01-01T08:00:00Z") (.ofInt 2)
    let offset := shift (.ofInt 2) (.str "2024-01-01T09:00:00+01:00") (.ofInt 1)
    let unranked : Record := [("id", .ofInt 3), ("start", .str "2024-01-01T08:00:00Z")]
    let late := shift (.ofInt 4) (.str "2024-01-01T17:00:00Z") .null
    let unknown := shift (.ofInt 5) .null (.ofInt 1)
    let again := shift (.ofInt 6) (.str "2024-01-01T08:00:00Z") (.ofInt 2)
    let keys : List SortKey := [⟨"start", true, false⟩, ⟨"rank", false, true⟩]
    let records := [early, offset, unknown, unranked, late, again]
    (∀ key ∈ keys, Homogeneous records key.field) ∧
      Sorts keys records [late, unranked, offset, early, again, unknown] := by
  intro shift early offset unranked late unknown again keys records
  have hkeys : ∀ key ∈ keys, Homogeneous records key.field := by
    refine List.forall_mem_cons.mpr ⟨⟨.instant, by decide +kernel⟩, ?_⟩
    exact List.forall_mem_singleton.mpr ⟨.whole, by decide +kernel⟩
  exact ⟨hkeys, (sortRecords_sorts hkeys _).mpr (by decide +kernel)⟩

end Homogeneous

end SortKey

end ModelGateway
