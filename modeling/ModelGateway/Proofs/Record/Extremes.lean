import ModelGateway.Proofs.Record.Aggregate
import ModelGateway.Proofs.Record.Sorting

/-!
# Extremes and sorting

The least and the greatest value of a column are found in one pass, which keeps the first best
value. Sorting by the column with nulls last puts the record of that value first.

* **First records** (`head?_sortRecords`): the first record of a sorted list is the one that a pass
  over the records keeps, since a record that is inserted comes first exactly if it precedes the
  first one.
* **One pass** (`extreme_columnValues`): the pass over the records and the one over the values keep
  a record and its value, whatever the column holds.
* **Agreement** (`extremes_first_sorted`): so on homogeneous columns the extremes are the values of
  the first records, written as there, and they are null exactly if all values are.
-/

namespace ModelGateway

/-! ## First records -/

/-- Of the best one so far and another one, the better one, and the earlier one of equals. -/
def keepBest {α : Type} (better : α → α → Bool) : Option α → α → Option α
  | some best, x => if better x best then some x else some best
  | none, x => some x

section First

variable {S : Set Record} {cmp : Record → Record → Ordering} {r : Record} {sorted : List Record}

/-- A record that is inserted comes first exactly if it precedes the first one. -/
theorem getLast?_insertLast (h : StrictWeakOn S cmp) (hr : r ∈ S) (hs : ∀ x ∈ sorted, x ∈ S)
    (hordered : sorted.Pairwise fun a b => cmp a b ≠ .lt) :
    (insertLast (fun a b => cmp a b == .lt) r sorted).getLast? =
      keepBest (fun a b => cmp a b == .lt) sorted.getLast? r := by
  induction sorted with
  | nil => rfl
  | cons last before ih =>
    obtain ⟨hlast, hbefore⟩ := List.forall_mem_cons.mp hs
    obtain ⟨hfirst, hrest⟩ := List.pairwise_cons.mp hordered
    rw [insertLast]
    split_ifs with hpasses
    · rw [List.getLast?_cons, List.getLast?_cons, ih hbefore hrest]
      cases before.getLast? with
      | none => simp [keepBest, hpasses]
      | some first =>
        simp only [keepBest, Option.getD_some]
        split_ifs <;> rfl
    · -- what does not precede the last record precedes none before it
      have hstops : cmp r last ≠ .lt := by simpa using hpasses
      have hfirst : ∀ first, before.getLast? = some first → cmp r first ≠ .lt := by
        intro first hmem
        have hmem := List.mem_of_getLast? hmem
        exact h.ne_lt_trans hr hlast (hbefore first hmem) hstops (hfirst first hmem)
      rw [List.getLast?_cons, List.getLast?_cons]
      cases hgot : before.getLast? with
      | none => simp [keepBest, hpasses]
      | some first => simp [keepBest, hfirst first hgot]

/-- A list that is sorted by keys starts with the record that one pass keeps. -/
theorem head?_sortRecords {keys : List SortKey} {records : List Record} (hkeys : keys ≠ [])
    (h : StrictWeakOn {r | r ∈ records} (SortKey.compareAll keys)) :
    (sortRecords keys records).head? =
      records.foldl (keepBest fun a b => SortKey.compareAll keys a b == .lt) none := by
  rw [sortRecords, if_neg (by simpa using hkeys), List.head?_reverse]
  have hmem : ∀ r ∈ records, r ∈ {r | r ∈ records} := fun _ hr => hr
  generalize {r | r ∈ records} = S at h hmem
  induction records using List.reverseRecOn with
  | nil => rfl
  | append_singleton rest r ih =>
    obtain ⟨hrest, hr⟩ := List.forall_mem_append.mp hmem
    have hr := hr r (List.mem_singleton_self r)
    obtain ⟨hordered, -⟩ := foldl_insertLast h hrest
    rw [List.foldl_append, List.foldl_append, ← ih hrest, List.foldl_cons, List.foldl_nil,
      List.foldl_cons, List.foldl_nil]
    exact getLast?_insertLast h hr (fun x hx => hrest x (mem_foldl_insertLast.mp hx)) hordered

end First

/-! ## One pass -/

section Pass

variable {records : List Record} {column : String} {key : SortKey}

/-- The values of a column, record by record. -/
theorem columnValues_cons (r : Record) (rest : List Record) (column : String) :
    columnValues (r :: rest) column =
      if (Record.value r column).isNull then columnValues rest column
      else Record.value r column :: columnValues rest column := by
  unfold columnValues Record.value
  cases hget : Entries.get? r column with
  | none => simp [hget, Json.isNull]
  | some value => cases hnull : value.isNull <;> simp [hget, hnull]

/-- The order in which a value comes to those that it exceeds in the direction of a key. -/
def SortKey.wanted (key : SortKey) : Ordering :=
  if key.descending then .gt else .lt

/-- The value of a record in the column of a key, none if it is null. -/
def SortKey.shown (key : SortKey) (best : Option Record) : Option Json :=
  (best.map (Record.value · key.field)).filter (!·.isNull)

/-- A null is not shown. -/
theorem SortKey.shown_of_null {r : Record} (h : Record.value r key.field = .null) :
    key.shown (some r) = none := by
  simp [shown, h, Json.isNull]

/-- Other values are shown. -/
theorem SortKey.shown_of_ne_null {r : Record} (h : Record.value r key.field ≠ .null) :
    key.shown (some r) = some (Record.value r key.field) := by
  have hnull : (Record.value r key.field).isNull = false := by
    rw [← Bool.not_eq_true, Json.isNull_iff]
    exact h
  simp [shown, hnull]

/-- An extreme is what one pass over the values keeps. -/
theorem extreme_eq_keepBest (wanted : Ordering) (values : List Json) :
    extreme wanted values =
      (values.foldl (keepBest fun v b => compareValues v b == some wanted) none).getD .null := by
  rw [extreme]
  rw [List.foldl_ext _ (keepBest fun v b => compareValues v b == some wanted) none]
  intro best v _
  cases best with
  | none => rfl
  | some b => simp [keepBest]

/-- Of two records with values, the better one has the better value. -/
theorem SortKey.compare_eq_lt_iff_wanted {a b : Record} (ha : Record.value a key.field ≠ .null)
    (hb : Record.value b key.field ≠ .null) : key.compare a b = .lt ↔
      compareValues (Record.value a key.field) (Record.value b key.field) = some key.wanted := by
  rw [key.compare_of_values ha hb, directed, wanted, orderValues]
  cases compareValues (Record.value a key.field) (Record.value b key.field) with
  | none => cases key.descending <;> decide
  | some order => cases key.descending <;> cases order <;> decide

/-- One step of the pass over the records is one over the values, and none at a null. -/
theorem SortKey.shown_keepBest (hlast : key.nullsFirst = false) (best : Option Record)
    (r : Record) :
    key.shown (keepBest (fun a b => key.compare a b == .lt) best r) =
      if (Record.value r key.field).isNull then key.shown best
      else keepBest (fun v b => compareValues v b == some key.wanted) (key.shown best)
        (Record.value r key.field) := by
  by_cases hr : Record.value r key.field = .null
  · -- a null comes before nothing, as nulls are last
    rw [if_pos (Json.isNull_iff.mpr hr)]
    cases best with
    | none => exact shown_of_null hr
    | some b =>
      have hstays : key.compare r b ≠ .lt := by
        by_cases hb : Record.value b key.field = .null
        · simp [compare_of_nulls hr hb]
        · simp [compare_of_null_left hr hb, hlast]
      simp [keepBest, hstays]
  rw [if_neg (by rwa [Json.isNull_iff])]
  cases best with
  | none => exact shown_of_ne_null hr
  | some b =>
    by_cases hb : Record.value b key.field = .null
    · have hbetter : key.compare r b = .lt := by simp [compare_of_null_right hr hb, hlast]
      simp [keepBest, hbetter, shown_of_null hb, shown_of_ne_null hr]
    · rw [shown_of_ne_null hb]
      simp only [keepBest, beq_iff_eq, SortKey.compare_eq_lt_iff_wanted hr hb]
      split_ifs
      · exact shown_of_ne_null hr
      · exact shown_of_ne_null hb

/-- The extreme of a column is the value of the record that the pass over the records keeps, null
if it keeps none. -/
theorem extreme_columnValues (hlast : key.nullsFirst = false) (records : List Record) :
    extreme key.wanted (columnValues records key.field) =
      (key.shown (records.foldl (keepBest fun a b => key.compare a b == .lt) none)).getD .null := by
  have hfold : ∀ best, (columnValues records key.field).foldl
      (keepBest fun v b => compareValues v b == some key.wanted) (key.shown best) =
        key.shown (records.foldl (keepBest fun a b => key.compare a b == .lt) best) := by
    induction records with
    | nil => exact fun best => rfl
    | cons r rest ih =>
      intro best
      rw [List.foldl_cons, ← ih, key.shown_keepBest hlast, columnValues_cons]
      split_ifs <;> rfl
  rw [extreme_eq_keepBest, ← hfold none]
  rfl

/-- A pass keeps something that was there. -/
theorem exists_foldl_keepBest {α : Type} (better : α → α → Bool) (best : α) (xs : List α) :
    ∃ kept ∈ best :: xs, xs.foldl (keepBest better) (some best) = some kept := by
  induction xs generalizing best with
  | nil => exact ⟨best, List.mem_cons_self, rfl⟩
  | cons x rest ih =>
    rw [List.foldl_cons, keepBest]
    split_ifs
    · obtain ⟨kept, hmem, hkept⟩ := ih x
      exact ⟨kept, List.mem_cons_of_mem _ hmem, hkept⟩
    · obtain ⟨kept, hmem, hkept⟩ := ih best
      refine ⟨kept, ?_, hkept⟩
      exact (List.sublist_cons_self x rest).cons_cons best |>.subset hmem

/-- A column has no values exactly if all of them are null. -/
theorem columnValues_eq_nil_iff :
    columnValues records column = [] ↔ ∀ r ∈ records, Record.value r column = .null := by
  induction records with
  | nil => exact iff_of_true rfl fun _ hr => absurd hr List.not_mem_nil
  | cons r rest ih =>
    rw [columnValues_cons, List.forall_mem_cons, ← ih, ← Json.isNull_iff]
    split_ifs with hnull
    · simp [hnull]
    · simp [hnull]

/-- An extreme of a column is null exactly if all values are. -/
theorem extreme_eq_null_iff {wanted : Ordering} :
    extreme wanted (columnValues records column) = .null ↔
      ∀ r ∈ records, Record.value r column = .null := by
  rw [← columnValues_eq_nil_iff, extreme_eq_keepBest]
  have hvalues : ∀ v ∈ columnValues records column, v ≠ .null := by
    intro v hv
    have hnull := (List.mem_filter.mp hv).2
    rwa [Bool.not_eq_true', ← Bool.not_eq_true, Json.isNull_iff] at hnull
  cases hcolumn : columnValues records column with
  | nil => exact iff_of_true rfl rfl
  | cons v rest =>
    obtain ⟨kept, hmem, hkept⟩ :=
      exists_foldl_keepBest (fun v b => compareValues v b == some wanted) v rest
    rw [hcolumn] at hvalues
    rw [List.foldl_cons, keepBest, hkept]
    exact iff_of_false (hvalues kept hmem) (List.cons_ne_nil v rest)

/-- The value of the first record, null if there is none. -/
def firstValue (records : List Record) (column : String) : Json :=
  (records.head?.map (Record.value · column)).getD .null

/-- The extreme of a homogeneous column is the value of the first record in the order of a key that
puts nulls last. -/
theorem extreme_eq_firstValue (key : SortKey) (hlast : key.nullsFirst = false)
    (h : Homogeneous records key.field) :
    extreme key.wanted (columnValues records key.field) =
      firstValue (sortRecords [key] records) key.field := by
  have hweak : StrictWeakOn {r | r ∈ records} (SortKey.compareAll [key]) :=
    SortKey.strictWeakOn_compareAll fun _ hkey => List.mem_singleton.mp hkey ▸ h.coherent
  have hhead := head?_sortRecords (List.cons_ne_nil key []) hweak
  rw [SortKey.compareAll_singleton] at hhead
  rw [extreme_columnValues hlast, ← hhead, firstValue]
  cases (sortRecords [key] records).head? with
  | none => rfl
  | some r =>
    by_cases hr : Record.value r key.field = .null
    · simp [SortKey.shown_of_null hr, hr]
    · simp [SortKey.shown_of_ne_null hr]

end Pass

/-! ## Answers -/

section Answers

variable {records : List Record} {kind : Aggregate} {group column : String}

/-- The entry of a column in the object under a name. -/
def Json.under? (a : Json) (group column : String) : Option Json :=
  (a.get? group).bind (·.get? column)

/-- The arguments ask for a column in the object under a name. -/
def Json.Asks (args : Json) (group column : String) : Prop :=
  ∃ selection, args.under? group column = some selection ∧ isWanted selection = true

/-- The request under the name of an aggregate is that of the first entry of this name. -/
theorem get?_aggregateRequests {entries : Entries Json} {selection : Json}
    (hkind : Aggregate.ofName? group = some kind)
    (h : Entries.get? entries group = some selection) :
    Entries.get? (aggregateRequests (.obj entries)) group = some (kind, selection) := by
  induction entries with
  | nil => cases h
  | cons e rest ih =>
    obtain ⟨name, value⟩ := e
    rw [aggregateRequests_cons]
    by_cases hname : name = group
    · subst hname
      rw [Entries.get?, if_pos rfl, Option.some.injEq] at h
      rw [hkind, h]
      exact if_pos rfl
    · rw [Entries.get?, if_neg hname] at h
      cases Aggregate.ofName? name with
      | none => exact ih h
      | some other =>
        dsimp only
        rw [Entries.get?, if_neg hname]
        exact ih h

/-- What the records answer for a column that they are asked for is the aggregate of the column. -/
theorem under?_of_aggregateRecords {args answer : Json}
    (hkind : Aggregate.ofName? group = some kind)
    (hok : aggregateRecords records args = .ok answer) (hasks : args.Asks group column) :
    ∃ value, answer.under? group column = some value ∧
      aggregateColumn records kind column = .ok value := by
  obtain ⟨wanted, hunder, hwanted⟩ := hasks
  obtain ⟨selection, hselection, hcolumn⟩ := Option.bind_eq_some_iff.mp hunder
  cases args with
  | obj entries =>
    cases selection with
    | obj columns =>
      obtain ⟨answers, hanswers, rfl⟩ := Except.map_eq_ok_iff.mp hok
      obtain ⟨values, hget, hvalues⟩ := Entries.get?_of_forall₂
        (R := fun _ (request : Aggregate × Json) value =>
          aggregateGroup records request.1 request.2 = .ok value)
        (aggregateEntries_eq_ok_iff.mp hanswers) (get?_aggregateRequests hkind hselection)
      obtain ⟨shown, hshown, heq⟩ := Except.bind_eq_ok_iff.mp hvalues
      cases heq
      rw [Except.mapM_eq_ok_iff] at hshown
      simp only [Except.pair_eq_ok_iff] at hshown
      obtain ⟨value, hvalue, haggregate⟩ := Entries.get?_of_forall₂
        (R := fun column _ value => aggregateColumn records kind column = .ok value)
        hshown (Entries.get?_filter hcolumn hwanted)
      refine ⟨value, ?_, haggregate⟩
      rw [Json.under?, Json.get?, hget]
      exact hvalue
    | _ => cases hcolumn
  | _ => cases hselection

/-- An ordering by one column in a direction, with nulls last. -/
def orderingBy (column direction : String) : Json :=
  .obj [(column, .obj [("sort", .str direction), ("nulls", .str "last")])]

/-- An aggregate of a column is the value of the first record in a direction with nulls last: it can
be asked for, it is what every answer has that is asked for it, and it is null exactly if the column
has no other values. -/
def IsFirstSorted (records : List Record) (group column direction : String) : Prop :=
  ∃ keys, SortKey.ofArgument (some (orderingBy column direction)) = .ok keys ∧
    (∃ answer,
      aggregateRecords records (.obj [(group, .obj [(column, .bool true)])]) = .ok answer) ∧
    (∀ args answer, aggregateRecords records args = .ok answer → args.Asks group column →
      answer.under? group column = some (firstValue (sortRecords keys records) column)) ∧
    (firstValue (sortRecords keys records) column = .null ↔
      ∀ r ∈ records, Record.value r column = .null)

/-- An extreme of a homogeneous column is the value of the first record in the direction of the
extreme. -/
theorem isFirstSorted_of_extreme {direction : String} {descending : Bool}
    (hread : SortKey.ofArgument (some (orderingBy column direction)) =
      .ok [⟨column, descending, false⟩])
    (hkind : Aggregate.ofName? group = some kind)
    (hextreme : ∀ records column, aggregateColumn records kind column =
      .ok (extreme (if descending then .gt else .lt) (columnValues records column)))
    (h : Homogeneous records column) : IsFirstSorted records group column direction := by
  have hfirst := extreme_eq_firstValue ⟨column, descending, false⟩ rfl h
  refine ⟨_, hread, ?_, ?_, ?_⟩
  · have hgroup : ∃ values : Entries Json,
        aggregateGroup records kind (.obj [(column, .bool true)]) = .ok (.obj values) ∧
          values.names = [column] :=
      aggregateGroup_obj (List.forall_mem_singleton.mpr rfl)
        (List.forall_mem_singleton.mpr ⟨_, hextreme records column⟩)
    obtain ⟨values, hvalues, -⟩ := hgroup
    have hentries : aggregateEntries records (.obj [(group, .obj [(column, .bool true)])]) =
        .ok [(group, .obj values)] := by
      rw [aggregateEntries_eq_ok_iff, aggregateRequests_cons, hkind]
      exact .cons ⟨rfl, hvalues⟩ .nil
    exact ⟨_, Except.map_eq_ok_iff.mpr ⟨_, hentries, rfl⟩⟩
  · intro args answer hok hasks
    obtain ⟨value, hunder, hvalue⟩ := under?_of_aggregateRecords hkind hok hasks
    rw [hextreme, Except.ok.injEq] at hvalue
    rw [hunder, ← hvalue]
    exact congrArg some hfirst
  · rw [← hfirst]
    exact extreme_eq_null_iff

/-- The least value of a homogeneous column is that of the first record in ascending order, and the
greatest one that of the first record in descending order. -/
theorem extremes_first_sorted (h : Homogeneous records column) :
    IsFirstSorted records "_min" column "asc" ∧ IsFirstSorted records "_max" column "desc" :=
  ⟨isFirstSorted_of_extreme rfl rfl (fun _ _ => rfl) h,
    isFirstSorted_of_extreme rfl rfl (fun _ _ => rfl) h⟩

/-- The extremes of shifts by their start: the earliest one is written in two ways, and both the
pass and the sort take the one that is written first. -/
theorem extremes_first_sorted_shifts :
    let shift (start : Json) : Record := [("start", start)]
    let records := [shift .null, shift (.str "2024-01-01T09:00:00+01:00"),
      shift (.str "2024-01-01T17:00:00Z"), [], shift (.str "2024-01-01T08:00:00Z")]
    Homogeneous records "start" ∧ IsFirstSorted records "_min" "start" "asc" ∧
      IsFirstSorted records "_max" "start" "desc" ∧
      (sortRecords [⟨"start", false, false⟩] records).head? =
        some (shift (.str "2024-01-01T09:00:00+01:00")) := by
  intro shift records
  have h : Homogeneous records "start" := ⟨.instant, by decide +kernel⟩
  obtain ⟨hleast, hgreatest⟩ := extremes_first_sorted h
  exact ⟨h, hleast, hgreatest, by decide +kernel⟩

end Answers

end ModelGateway
