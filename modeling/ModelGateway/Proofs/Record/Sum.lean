import Mathlib.Algebra.Order.BigOperators.Group.List
import Mathlib.Algebra.Order.Ring.Int
import ModelGateway.Proofs.Record.Extremes

/-!
# Sums of whole numbers

The sum of a column of whole numbers is added up from the first record to the last, and fails as
soon as a partial sum leaves the signed 64-bit numbers.

* **One order** (`foldlM_int64?_eq_some_iff`): so it has a value exactly if all partial sums are
  64-bit numbers, and its value is the exact sum.
* **All orders** (`forall_perm_staysWithin_iff`): a list can be added up in every order exactly if
  the sum of its positive numbers is a 64-bit number and that of the others is. If the sum of all is
  one, then some order keeps all partial sums within (`exists_perm_staysWithin`): one that adds a
  number of the other sign as long as there is one.
* **Records** (`sum_exact_iff`): whether a column has its exact sum, and whether this depends on the
  order of the records. `sum_depends_on_order` is a run in which it does.
-/

namespace ModelGateway

/-! ## One order -/

/-- All partial sums of a list that is added to a start are signed 64-bit numbers, the start
included. -/
def StaysWithin (start : Int) (ns : List Int) : Prop :=
  ∀ count : Nat, IsInt64 (start + (ns.take count).sum)

section Lists

variable {start : Int} {ns ms : List Int}

/-- The partial sums of a list start with the start and go on from the sum with its first number. -/
theorem staysWithin_cons {n : Int} :
    StaysWithin start (n :: ns) ↔ IsInt64 start ∧ StaysWithin (start + n) ns := by
  constructor
  · intro h
    refine ⟨by simpa using h 0, fun count => ?_⟩
    simpa [Int.add_assoc] using h (count + 1)
  · rintro ⟨hstart, hrest⟩ (_ | count)
    · simpa using hstart
    · simpa [Int.add_assoc] using hrest count

/-- The last partial sum is the sum of all numbers. -/
theorem StaysWithin.isInt64_sum (h : StaysWithin start ns) : IsInt64 (start + ns.sum) := by
  simpa using h ns.length

/-- Adding up succeeds exactly if all partial sums stay within, and gives the exact sum. -/
theorem foldlM_int64?_eq_some_iff (hstart : IsInt64 start) {sum : Int} :
    ns.foldlM (fun total n => int64? (total + n)) start = some sum ↔
      StaysWithin start ns ∧ start + ns.sum = sum := by
  constructor
  · intro h
    have hstays : StaysWithin start ns := by
      induction ns generalizing start with
      | nil => simpa [StaysWithin] using hstart
      | cons n rest ih =>
        rw [List.foldlM_cons] at h
        obtain ⟨next, hnext, h⟩ := Option.bind_eq_some_iff.mp h
        obtain ⟨hint, rfl⟩ := int64?_eq_some_iff.mp hnext
        exact staysWithin_cons.mpr ⟨hstart, ih hint h⟩
    rw [foldlM_int64? start hstays, Option.some.injEq] at h
    exact ⟨hstays, h⟩
  · rintro ⟨hstays, rfl⟩
    exact foldlM_int64? start hstays

/-! ## All orders -/

/-- A sum of numbers none of which is positive is not positive. -/
theorem sum_nonpos_of_forall (h : ∀ n ∈ ns, n ≤ 0) : ns.sum ≤ 0 := by
  simpa using List.sum_le_card_nsmul ns 0 h

/-- Numbers of one sign stay within if their sum does, since they lead to it in one direction. -/
theorem staysWithin_of_one_sign (hsign : (∀ n ∈ ns, 0 ≤ n) ∨ ∀ n ∈ ns, n ≤ 0)
    (hstart : IsInt64 start) (hsum : IsInt64 (start + ns.sum)) : StaysWithin start ns := by
  intro count
  have hsplit : (ns.take count).sum + (ns.drop count).sum = ns.sum := by
    rw [← List.sum_append, List.take_append_drop]
  have htake : ∀ n ∈ ns.take count, n ∈ ns := fun n => List.mem_of_mem_take
  have hdrop : ∀ n ∈ ns.drop count, n ∈ ns := fun n => List.mem_of_mem_drop
  simp only [IsInt64] at hstart hsum ⊢
  rcases hsign with hsign | hsign
  · have hbefore : 0 ≤ (ns.take count).sum := List.sum_nonneg fun n hn => hsign n (htake n hn)
    have hafter : 0 ≤ (ns.drop count).sum := List.sum_nonneg fun n hn => hsign n (hdrop n hn)
    omega
  · have hbefore : (ns.take count).sum ≤ 0 := sum_nonpos_of_forall fun n hn => hsign n (htake n hn)
    have hafter : (ns.drop count).sum ≤ 0 := sum_nonpos_of_forall fun n hn => hsign n (hdrop n hn)
    omega

/-- 64-bit numbers whose sum is one can be added up in some order. -/
theorem exists_perm_staysWithin {start : Int} {ns : List Int} (hns : ∀ n ∈ ns, IsInt64 n)
    (hstart : IsInt64 start) (hsum : IsInt64 (start + ns.sum)) :
    ∃ ms, ms.Perm ns ∧ StaysWithin start ms := by
  by_cases hother : ∃ n ∈ ns, (0 ≤ start ∧ n < 0) ∨ (start < 0 ∧ 0 < n)
  · -- a number of the other sign leads to no sum that is further from zero than itself or the start
    obtain ⟨n, hn, hsign⟩ := hother
    have hperm : (n :: ns.erase n).Perm ns := (List.perm_cons_erase hn).symm
    have hnext : IsInt64 (start + n) := by
      have hrange := hns n hn
      simp only [IsInt64] at hstart hrange ⊢
      omega
    have hrest : IsInt64 (start + n + (ns.erase n).sum) := by
      rw [Int.add_assoc, ← List.sum_cons, hperm.sum_eq]
      exact hsum
    obtain ⟨ms, hms, hstays⟩ :=
      exists_perm_staysWithin (fun m hm => hns m (List.mem_of_mem_erase hm)) hnext hrest
    exact ⟨n :: ms, (hms.cons n).trans hperm, staysWithin_cons.mpr ⟨hstart, hstays⟩⟩
  · refine ⟨ns, .refl ns, staysWithin_of_one_sign ?_ hstart hsum⟩
    push Not at hother
    rcases Int.lt_or_le start 0 with hneg | hpos
    · exact .inr fun n hn => (hother n hn).2 hneg
    · exact .inl fun n hn => (hother n hn).1 hpos
termination_by ns.length
decreasing_by
  rw [List.length_erase_of_mem hn]
  exact Nat.sub_one_lt_of_lt (List.length_pos_of_mem hn)

/-- The sum of the positive numbers of a list and that of the others are signed 64-bit numbers. -/
def SidesFit (ns : List Int) : Prop :=
  IsInt64 (ns.filter (0 < ·)).sum ∧ IsInt64 (ns.filter fun n => !decide (0 < n)).sum

/-- A list is the sum of its positive numbers and of the others. -/
theorem sum_eq_sides (ns : List Int) :
    ns.sum = (ns.filter (0 < ·)).sum + (ns.filter fun n => !decide (0 < n)).sum ∧
      0 ≤ (ns.filter (0 < ·)).sum ∧ (ns.filter fun n => !decide (0 < n)).sum ≤ 0 := by
  refine ⟨?_, List.sum_nonneg fun n hn => ?_, sum_nonpos_of_forall fun n hn => ?_⟩
  · rw [← List.sum_append]
    exact (List.filter_append_perm _ ns).symm.sum_eq
  · have hpos := (List.mem_filter.mp hn).2
    simp only [decide_eq_true_eq] at hpos
    omega
  · have hneg := (List.mem_filter.mp hn).2
    simp only [Bool.not_eq_true', decide_eq_false_iff_not] at hneg
    omega

/-- A list can be added up in every order exactly if its positive numbers and the others can be
added up on their own. -/
theorem forall_perm_staysWithin_iff :
    (∀ ms, ms.Perm ns → StaysWithin 0 ms) ↔ SidesFit ns := by
  constructor
  · intro h
    have hfirst : ∀ xs ys : List Int, (xs ++ ys).Perm ns → IsInt64 xs.sum := by
      intro xs ys hperm
      simpa using h _ hperm xs.length
    have hperm := List.filter_append_perm (fun n : Int => decide (0 < n)) ns
    exact ⟨hfirst _ _ hperm, hfirst _ _ (List.perm_append_comm.trans hperm)⟩
  · rintro ⟨hpos, hneg⟩ ms hms count
    -- a partial sum lies between the sums of both sides
    obtain ⟨hsplit, hbefore⟩ := sum_eq_sides (ms.take count)
    obtain ⟨-, hafter⟩ := sum_eq_sides (ms.drop count)
    have hside : ∀ p : Int → Bool, ((ms.take count).filter p).sum + ((ms.drop count).filter p).sum =
        (ns.filter p).sum := by
      intro p
      rw [← List.sum_append, ← List.filter_append, List.take_append_drop, (hms.filter p).sum_eq]
    rw [← hside] at hpos hneg
    simp only [IsInt64] at hpos hneg ⊢
    omega

end Lists

/-! ## Columns of whole numbers -/

/-- The whole numbers of a column, from the first record to the last. -/
def wholeValues (records : List Record) (column : String) : List Int :=
  (columnValues records column).filterMap Json.toInt64?

/-- The values of a column, nulls apart, are signed 64-bit whole numbers, and there is one. -/
structure WholeColumn (records : List Record) (column : String) : Prop where
  given : columnValues records column ≠ []
  whole : ∀ value ∈ columnValues records column, (Json.toInt64? value).isSome

/-- The answer to a request for the sum of a column. -/
def sumAnswer (records : List Record) (column : String) : Except Fault Json :=
  aggregateRecords records (.obj [("_sum", .obj [(column, .bool true)])])

/-- The exact sum of the whole numbers of a column as an answer, and a fault if it is no signed
64-bit number. -/
def exactSumAnswer (records : List Record) (column : String) : Except Fault Json :=
  match int64? (wholeValues records column).sum with
  | some total => .ok (.obj [("_sum", .obj [(column, .ofInt total)])])
  | none => .error (.sumOverflow column)

variable {records others : List Record} {column : String}

/-- The numbers of a column are those that its records give, one by one. -/
theorem wholeValues_eq_filterMap (records : List Record) (column : String) :
    wholeValues records column =
      records.filterMap fun r => Json.toInt64? (Record.value r column) := by
  induction records with
  | nil => rfl
  | cons r rest ih =>
    rw [wholeValues] at ih ⊢
    rw [columnValues_cons, List.filterMap_cons, ← ih]
    split_ifs with hnull
    · rw [Json.isNull_iff.mp hnull]
      rfl
    · rw [List.filterMap_cons]

/-- The numbers of a column are signed 64-bit ones. -/
theorem isInt64_of_mem_wholeValues {n : Int} (h : n ∈ wholeValues records column) : IsInt64 n := by
  obtain ⟨value, -, hvalue⟩ := List.mem_filterMap.mp h
  cases value with
  | num x => exact Number.isInt64_of_toInt64? hvalue
  | _ => cases hvalue

/-- Records in another order have their numbers in another order. -/
theorem wholeValues_perm (h : others.Perm records) :
    (wholeValues others column).Perm (wholeValues records column) :=
  ((h.filterMap _).filter _).filterMap _

/-- Every order of the numbers of a column is that of the records in some order. -/
theorem exists_perm_wholeValues {ns : List Int} (h : ns.Perm (wholeValues records column)) :
    ∃ others : List Record, others.Perm records ∧ wholeValues others column = ns := by
  simp only [wholeValues_eq_filterMap] at h ⊢
  generalize (fun r => Json.toInt64? (Record.value r column)) = number? at h ⊢
  induction ns generalizing records with
  | nil => exact ⟨records, .refl records, List.perm_nil.mp h.symm⟩
  | cons n rest ih =>
    obtain ⟨r, hr, hn⟩ := List.mem_filterMap.mp (h.subset List.mem_cons_self)
    have hperm : (r :: records.erase r).Perm records := (List.perm_cons_erase hr).symm
    have hrest : rest.Perm ((records.erase r).filterMap number?) := by
      have hall := h.trans (hperm.filterMap number?).symm
      rw [List.filterMap_cons_some hn] at hall
      exact hall.cons_inv
    obtain ⟨others, hothers, hvalues⟩ := ih hrest
    refine ⟨r :: others, (hothers.cons r).trans hperm, ?_⟩
    rw [List.filterMap_cons_some hn, hvalues]

/-- Whether a column holds whole numbers does not depend on the order of the records. -/
theorem WholeColumn.perm (h : WholeColumn records column) (hperm : others.Perm records) :
    WholeColumn others column := by
  have hvalues : (columnValues others column).Perm (columnValues records column) :=
    (hperm.filterMap _).filter _
  refine ⟨fun hnil => h.given ?_, fun value hvalue => h.whole value (hvalues.subset hvalue)⟩
  rw [hnil] at hvalues
  exact List.perm_nil.mp hvalues.symm

/-- The exact sum does not depend on the order of the records. -/
theorem exactSumAnswer_perm (h : others.Perm records) :
    exactSumAnswer others column = exactSumAnswer records column := by
  rw [exactSumAnswer, (wholeValues_perm h).sum_eq, exactSumAnswer]

/-! ## Sums of records -/

/-- The sum of a column of whole numbers, if adding them up has a value. -/
theorem WholeColumn.sumColumn_eq (h : WholeColumn records column) :
    sumColumn column (columnValues records column) =
      match sumInts? (wholeValues records column) with
      | some total => .ok (.ofInt total)
      | none => .error (.sumOverflow column) := by
  obtain ⟨ns, hns, hempty, hints⟩ : ∃ ns,
      numbersOf column (columnValues records column) = .ok ns ∧
        ns.isEmpty = (columnValues records column).isEmpty ∧
        ns.mapM Number.toInt64? = some (wholeValues records column) := exists_numbersOf h.whole
  have hgiven : ns.isEmpty = false := by
    rw [hempty, List.isEmpty_eq_false_iff]
    exact h.given
  rw [sumColumn, hns]
  simp only [bind, Except.bind, hgiven, hints]
  rfl

/-- A request for the sum of a column is answered with it. -/
theorem sumAnswer_eq_map (records : List Record) (column : String) :
    sumAnswer records column =
      (sumColumn column (columnValues records column)).map fun total =>
        .obj [("_sum", .obj [(column, total)])] := by
  rw [sumAnswer, aggregateRecords, aggregateEntries, aggregateRequests_cons]
  cases hcolumn : sumColumn column (columnValues records column) <;>
    simp [Aggregate.ofName?, aggregateRequests, aggregateGroup, isWanted, aggregateColumn,
      hcolumn, bind, Except.bind, pure, Except.pure, Except.map]

/-- Adding up the numbers of a column gives their exact sum, if it gives any. -/
theorem sumInts?_eq_some_iff {ns : List Int} {total : Int} :
    sumInts? ns = some total ↔ StaysWithin 0 ns ∧ ns.sum = total := by
  rw [sumInts?, foldlM_int64?_eq_some_iff (by decide), Int.zero_add]

/-- A column whose partial sums stay within is answered with the exact sum. -/
theorem WholeColumn.sumAnswer_of_staysWithin (h : WholeColumn records column)
    (hstays : StaysWithin 0 (wholeValues records column)) :
    sumAnswer records column = exactSumAnswer records column ∧
      IsInt64 (wholeValues records column).sum := by
  have hrange : IsInt64 (wholeValues records column).sum := by simpa using hstays.isInt64_sum
  rw [sumAnswer_eq_map, h.sumColumn_eq, sumInts?_eq_some_iff.mpr ⟨hstays, rfl⟩, exactSumAnswer,
    int64?_eq_some_iff.mpr ⟨hrange, rfl⟩]
  exact ⟨rfl, hrange⟩

/-- A column of which a partial sum does not stay within is answered with a fault. -/
theorem WholeColumn.sumAnswer_of_not_staysWithin (h : WholeColumn records column)
    (hstays : ¬ StaysWithin 0 (wholeValues records column)) :
    sumAnswer records column = .error (.sumOverflow column) := by
  have hsum : sumInts? (wholeValues records column) = none := by
    rw [Option.eq_none_iff_forall_ne_some]
    exact fun total htotal => hstays (sumInts?_eq_some_iff.mp htotal).1
  rw [sumAnswer_eq_map, h.sumColumn_eq, hsum]
  rfl

/-- A column is answered with its exact sum if the partial sums stay within, and with a fault
otherwise; so wrongly only if the sum is a 64-bit number and some partial sum is not. -/
theorem WholeColumn.sumAnswer_eq_exact_iff (h : WholeColumn records column) :
    sumAnswer records column = exactSumAnswer records column ↔
      StaysWithin 0 (wholeValues records column) ∨ ¬ IsInt64 (wholeValues records column).sum := by
  by_cases hstays : StaysWithin 0 (wholeValues records column)
  · exact iff_of_true (h.sumAnswer_of_staysWithin hstays).1 (.inl hstays)
  · rw [h.sumAnswer_of_not_staysWithin hstays, or_iff_right hstays, exactSumAnswer, int64?]
    split_ifs with hrange
    · exact iff_of_false (fun heq => by cases heq) (not_not_intro hrange)
    · exact iff_of_true rfl hrange

/-- Some order of the records has the exact sum for its answer. -/
theorem WholeColumn.exists_perm_exact (h : WholeColumn records column) :
    ∃ others : List Record, others.Perm records ∧
      sumAnswer others column = exactSumAnswer records column := by
  by_cases hrange : IsInt64 (wholeValues records column).sum
  · have hstart : IsInt64 0 := by decide
    obtain ⟨ns, hns, hstays⟩ := exists_perm_staysWithin
      (fun n hn => isInt64_of_mem_wholeValues hn) hstart (by rwa [Int.zero_add])
    obtain ⟨others, hothers, rfl⟩ := exists_perm_wholeValues hns
    refine ⟨others, hothers, ?_⟩
    rw [((h.perm hothers).sumAnswer_of_staysWithin hstays).1, exactSumAnswer_perm hothers]
  · exact ⟨records, .refl records, h.sumAnswer_eq_exact_iff.mpr (.inr hrange)⟩

/-- The answer does not depend on the order of the records exactly if the sum of the column is no
64-bit number, or the sum of its positive numbers and that of the others are. -/
theorem WholeColumn.forall_perm_sumAnswer_iff (h : WholeColumn records column) :
    (∀ others : List Record, others.Perm records →
        sumAnswer others column = sumAnswer records column) ↔
      SidesFit (wholeValues records column) ∨ ¬ IsInt64 (wholeValues records column).sum := by
  -- since some order has the exact answer, all orders agree exactly if all of them have it
  have hexact : (∀ others : List Record, others.Perm records →
      sumAnswer others column = sumAnswer records column) ↔
      ∀ others : List Record, others.Perm records →
        StaysWithin 0 (wholeValues others column) ∨ ¬ IsInt64 (wholeValues others column).sum := by
    obtain ⟨best, hbest, heq⟩ := h.exists_perm_exact
    constructor
    · intro hagree others hothers
      rw [← (h.perm hothers).sumAnswer_eq_exact_iff, hagree others hothers, ← hagree best hbest,
        heq, exactSumAnswer_perm hothers]
    · intro hall others hothers
      rw [(h.perm hothers).sumAnswer_eq_exact_iff.mpr (hall others hothers),
        h.sumAnswer_eq_exact_iff.mpr (hall records (.refl records)), exactSumAnswer_perm hothers]
  rw [hexact, ← forall_perm_staysWithin_iff]
  constructor
  · intro hall
    by_cases hrange : IsInt64 (wholeValues records column).sum
    · refine .inl fun ns hns => ?_
      obtain ⟨others, hothers, rfl⟩ := exists_perm_wholeValues hns
      refine (hall others hothers).resolve_right (not_not_intro ?_)
      rwa [hns.sum_eq]
    · exact .inr hrange
  · rintro (hall | hrange) others hothers
    · exact .inl (hall _ (wholeValues_perm hothers))
    · exact .inr (by rwa [(wholeValues_perm hothers).sum_eq])

/-- The sum of a column of whole numbers, whenever there is an answer, is the exact one. A request
for it alone is answered as exactness asks, by the sum if it is a 64-bit number and else by a fault
of validation, exactly if all partial sums are 64-bit numbers or the sum is not. Some order of the
records is always answered so, and all of them are answered alike exactly if the positive numbers on
their own and the others on their own add up, or the sum is no 64-bit number. -/
theorem sum_exact_iff (h : WholeColumn records column) :
    (∀ args answer, aggregateRecords records args = .ok answer → args.Asks "_sum" column →
      answer.under? "_sum" column = some (.ofInt (wholeValues records column).sum)) ∧
    (sumAnswer records column = exactSumAnswer records column ↔
      StaysWithin 0 (wholeValues records column) ∨ ¬ IsInt64 (wholeValues records column).sum) ∧
    (∃ others : List Record, others.Perm records ∧
      sumAnswer others column = exactSumAnswer records column) ∧
    ((∀ others : List Record, others.Perm records →
        sumAnswer others column = sumAnswer records column) ↔
      SidesFit (wholeValues records column) ∨ ¬ IsInt64 (wholeValues records column).sum) ∧
    (Fault.sumOverflow column).kind = .validation := by
  refine ⟨?_, h.sumAnswer_eq_exact_iff, h.exists_perm_exact, h.forall_perm_sumAnswer_iff, rfl⟩
  intro args answer hok hasks
  obtain ⟨value, hunder, hvalue⟩ := under?_of_aggregateRecords rfl hok hasks
  have hcolumn : sumColumn column (columnValues records column) = .ok value := hvalue
  rw [h.sumColumn_eq] at hcolumn
  split at hcolumn
  · rename_i total htotal
    cases hcolumn
    rw [hunder, (sumInts?_eq_some_iff.mp htotal).2]
  · cases hcolumn

/-- Three guests whose numbers add up in some orders and not in others, beside a seat without a
guest. -/
def guests : List Record :=
  [[("guest", .ofInt 9223372036854775807)], [("guest", .ofInt (-1))], [("guest", .null)],
    [("guest", .ofInt 1)]]

/-- The numbers of the guests are a column of whole numbers. -/
theorem wholeColumn_guests : WholeColumn guests "guest" :=
  ⟨by decide, by decide⟩

/-- The exact sum of the numbers of the guests is what some order of them is answered with, and not
what all orders are. -/
theorem sum_exact_iff_guests :
    WholeColumn guests "guest" ∧ (wholeValues guests "guest").sum = 9223372036854775807 ∧
      (sumAnswer guests "guest" = exactSumAnswer guests "guest" ↔
        StaysWithin 0 (wholeValues guests "guest") ∨
          ¬ IsInt64 (wholeValues guests "guest").sum) ∧
      ¬ ∀ others : List Record, others.Perm guests →
        sumAnswer others "guest" = sumAnswer guests "guest" := by
  obtain ⟨-, hexact, -, horder, -⟩ := sum_exact_iff wholeColumn_guests
  refine ⟨wholeColumn_guests, by decide, hexact, horder.not.mpr ?_⟩
  rintro (⟨hpos, -⟩ | hrange)
  · exact absurd hpos (by decide)
  · exact hrange (by decide)

/-- In ascending order the guests are answered with the sum of their numbers, and in descending
order with a fault. -/
theorem sum_depends_on_order :
    let ascending := sortRecords [⟨"guest", false, false⟩] guests
    let descending := sortRecords [⟨"guest", true, true⟩] guests
    let exact := Json.obj [("_sum", .obj [("guest", .ofInt 9223372036854775807)])]
    SortKey.ofArgument (some (.obj [("guest", .str "asc")])) = .ok [⟨"guest", false, false⟩] ∧
      SortKey.ofArgument (some (.obj [("guest", .str "desc")])) = .ok [⟨"guest", true, true⟩] ∧
      WholeColumn ascending "guest" ∧ WholeColumn descending "guest" ∧
      exactSumAnswer ascending "guest" = .ok exact ∧
      exactSumAnswer descending "guest" = .ok exact ∧
      sumAnswer ascending "guest" = .ok exact ∧
      sumAnswer descending "guest" = .error (.sumOverflow "guest") := by
  exact ⟨rfl, rfl, ⟨by decide +kernel, by decide +kernel⟩, ⟨by decide +kernel, by decide +kernel⟩,
    by decide +kernel, by decide +kernel, by decide +kernel, by decide +kernel⟩

end ModelGateway
