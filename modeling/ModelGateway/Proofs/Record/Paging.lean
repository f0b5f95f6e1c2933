import ModelGateway.Proofs.Except
import ModelGateway.Proofs.Json.WellFormed
import ModelGateway.Record.Page
import ModelGateway.Record.Sort

/-!
# Pages of sorted records

* **Sorting** (`sortRecords_perm`): sorting keeps all records, each as often as it was there.
* **Pages** (`paginate_window`): with 64-bit numbers for `skip` and `take` that are not negative, a
  page is a window of the list.
* **Cursors** (`dropWhile_of_filter_singleton`): where one record alone passes a test, skipping
  those that do not goes right up to it.
-/

namespace ModelGateway

/-! ## Sorting -/

/-- Inserting a record keeps all others. -/
theorem insertLast_perm (precedes : Record → Record → Bool) (r : Record) (sorted : List Record) :
    (insertLast precedes r sorted).Perm (r :: sorted) := by
  induction sorted with
  | nil => exact .refl _
  | cons last before ih =>
    rw [insertLast]
    split_ifs
    · exact (ih.cons last).trans (.swap r last before)
    · exact .refl _

/-- Inserting records one after another keeps all of them. -/
theorem foldl_insertLast_perm (precedes : Record → Record → Bool) (records sorted : List Record) :
    (records.foldl (fun sorted r => insertLast precedes r sorted) sorted).Perm
      (records ++ sorted) := by
  induction records generalizing sorted with
  | nil => exact .refl _
  | cons r rest ih =>
    refine (ih _).trans ?_
    refine ((insertLast_perm precedes r sorted).append_left rest).trans ?_
    exact List.perm_middle

/-- What is inserted is what is there. -/
theorem mem_foldl_insertLast {precedes : Record → Record → Bool} {records : List Record}
    {r : Record} :
    r ∈ records.foldl (fun sorted r => insertLast precedes r sorted) [] ↔ r ∈ records := by
  rw [(foldl_insertLast_perm precedes records []).mem_iff, List.append_nil]

/-- Sorting keeps all records. -/
theorem sortRecords_perm (keys : List SortKey) (records : List Record) :
    (sortRecords keys records).Perm records := by
  unfold sortRecords
  split_ifs
  · exact .refl _
  · refine (List.reverse_perm _).trans ?_
    simpa using foldl_insertLast_perm (fun a b => SortKey.compareAll keys a b == .lt) records []

/-! ## Pages -/

/-- A 64-bit whole number is read from its argument. -/
theorem integerArgument_ofInt {args : Json} {name : String} {n : Int} (hn : IsInt64 n)
    (h : args.get? name = some (.ofInt n)) : integerArgument args name = .ok (some n) := by
  obtain ⟨x, hx, hxn⟩ := Json.exists_ofInt hn
  unfold integerArgument
  rw [h, hx]
  simp only [Json.asInt64?, hxn]

/-- An absent argument is no number. -/
theorem integerArgument_absent {args : Json} {name : String} (h : args.get? name = none) :
    integerArgument args name = .ok none := by
  unfold integerArgument
  rw [h]

/-- A page that skips some records and takes some is a window of the list. -/
theorem paginate_window {args : Json} {skip : Option Int} {take : Int}
    (hskip : integerArgument args "skip" = .ok skip)
    (htake : integerArgument args "take" = .ok (some take)) (hpos : 0 ≤ take)
    (records : List Record) :
    paginate records args = .ok ((records.drop (skip.getD 0).toNat).take take.toNat) := by
  unfold paginate
  rw [hskip, htake]
  simp [takeSigned, hpos, bind, Except.bind, pure, Except.pure]

/-- The records of a page are among the records. -/
theorem paginate_subset {args : Json} {records page : List Record}
    (h : paginate records args = .ok page) : page ⊆ records := by
  unfold paginate at h
  obtain ⟨skip, -, h⟩ := Except.bind_eq_ok_iff.mp h
  obtain ⟨take, -, h⟩ := Except.bind_eq_ok_iff.mp h
  have hremaining : records.drop (skip.getD 0).toNat ⊆ records := List.drop_subset _ _
  cases take with
  | none =>
    cases h
    exact hremaining
  | some n =>
    cases h
    unfold takeSigned
    split_ifs
    · exact List.Subset.trans (List.take_subset _ _) hremaining
    · exact List.Subset.trans (List.drop_subset _ _) hremaining

/-! ## Cursors -/

/-- In front of the only item that passes a test are items that do not pass. -/
theorem dropWhile_of_filter_singleton {α : Type} {test : α → Bool} {before after : List α} {x : α}
    (h : (before ++ x :: after).filter test = [x]) :
    (before ++ x :: after).dropWhile (fun y => !test y) = x :: after := by
  have hx : test x = true := by
    have hmem : x ∈ (before ++ x :: after).filter test := by
      rw [h]
      exact List.mem_cons_self
    exact (List.mem_filter.mp hmem).2
  rw [List.filter_append, List.filter_cons_of_pos hx] at h
  have hlength := congrArg List.length h
  rw [List.length_append, List.length_cons, List.length_singleton] at hlength
  have hbefore : before.filter test = [] := List.length_eq_zero_iff.mp (by omega)
  rw [List.filter_eq_nil_iff] at hbefore
  rw [List.dropWhile_append_of_pos]
  · rw [List.dropWhile_cons_of_neg]
    simp [hx]
  · intro y hy
    simpa using hbefore y hy

end ModelGateway
