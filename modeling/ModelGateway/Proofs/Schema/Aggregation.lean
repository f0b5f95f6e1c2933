import ModelGateway.Proofs.Record.Aggregate
import ModelGateway.Proofs.Schema.AggregateSelection

/-!
# What a selection is answered with

The arguments that are extracted from a selection set go to the aggregates. A selection set is legal
(`Legal`) if no field repeats in it and each of its groups is an aggregate of some leaf fields, with
columns that add up where values are added.

* **Extraction** (`names_collect`): the requests of a selection set without repeated fields are its
  fields that count, in their order.
* **Groups** (`aggregateGroup_request_iff`): a group is answered with an object of its fields that
  count exactly if it has one. A group of meta fields alone is extracted like a field without
  selections, as `true`, and the aggregates take that for a group that names no columns.
* **Answers** (`aggregateRecords_answers_iff`): so a legal selection set is answered, group by
  group, exactly if every group has a field that counts.
-/

namespace ModelGateway.AggregateSelection

open Query (Selection)

variable {selections below : List Selection} {root : Bool} {group : String}
  {records : List Record}

/-! ## Extraction -/

/-- Extraction repeats no name. -/
theorem nodup_names_collect {out : Entries Json} (hout : out.names.Nodup) :
    (collect root selections out).names.Nodup := by
  induction selections generalizing out with
  | nil => simpa [collect] using hout
  | cons selection rest ih =>
    cases selection with
    | field label name arguments directives below position =>
      rw [collect]
      split_ifs
      · apply ih
        exact Entries.nodup_names_insert hout _ _
      · exact ih hout
    | spread | inline =>
      rw [collect]
      exact ih hout

/-- The requests of a selection set whose field names differ, after those that are there: one for
each field that counts. -/
theorem names_collect_append (out : Entries Json)
    (hn : (out.names ++ selections.filterMap fieldName?).Nodup) :
    (collect root selections out).names =
      out.names ++ (selections.filterMap fieldName?).filter (isRequested root) := by
  induction selections generalizing out with
  | nil => simp [collect]
  | cons selection rest ih =>
    cases selection with
    | field label name arguments directives below position =>
      rw [List.filterMap_cons_some (by rfl : fieldName? _ = some name)] at hn ⊢
      have hnew : name ∉ out.names := by
        intro hmem
        exact (List.nodup_append.mp hn).2.2 name hmem name List.mem_cons_self rfl
      rw [collect]
      split_ifs with hname
      · have hinsert : (out.insert name (request (collect false below []))).names =
            out.names ++ [name] := by
          rw [Entries.names_insert, if_neg hnew]
        rw [ih _ (by rwa [hinsert, ← List.append_cons]), hinsert, List.filter_cons_of_pos hname,
          ← List.append_cons]
      · have hsub : (out.names ++ rest.filterMap fieldName?).Sublist
            (out.names ++ name :: rest.filterMap fieldName?) :=
          (List.sublist_cons_self _ _).append_left _
        rw [ih _ (hn.sublist hsub), List.filter_cons_of_neg hname]
    | spread | inline =>
      rw [collect]
      exact ih _ hn

/-- The requests of a selection set whose field names differ: one for each field that counts. -/
theorem names_collect (hn : (selections.filterMap fieldName?).Nodup) :
    (collect root selections []).names =
      (selections.filterMap fieldName?).filter (isRequested root) :=
  names_collect_append [] hn

/-! ## Groups -/

/-- A field without selections. -/
def IsLeaf : Selection → Prop
  | .field _ _ _ _ nested _ => nested = []
  | .spread _ _ | .inline _ _ _ => False

/-- Every request of leaf fields is `true`. -/
theorem eq_true_of_mem_collect (hleaf : ∀ selection ∈ below, IsLeaf selection)
    {e : String × Json} (he : e ∈ collect root below []) : e.2 = .bool true := by
  have hget : (collect root below []).get? e.1 = some e.2 :=
    (Entries.get?_eq_some_iff_mem (nodup_names_collect (by simp [Entries.names]))).mpr he
  obtain ⟨-, nested, hlast, hvalue⟩ := get?_collect_eq_some_iff.mp hget
  obtain ⟨label, arguments, directives, position, hmem⟩ := hlast.occurs
  have hnil : nested = [] := hleaf _ hmem
  rw [hvalue, hnil, collect]
  rfl

/-- A group of leaf fields is answered with an object exactly if one of the fields counts. The names
of the object are then those of the fields that count. -/
theorem aggregateGroup_request_iff {kind : Aggregate}
    (hn : (below.filterMap fieldName?).Nodup) (hleaf : ∀ selection ∈ below, IsLeaf selection)
    (hcolumns : kind = .sum ∨ kind = .avg → ∀ column ∈ below.filterMap fieldName?,
      isMeta column = false → AddsUp records column) :
    (∃ values : Entries Json,
      aggregateGroup records kind (request (collect false below [])) = .ok (.obj values) ∧
        values.names = (below.filterMap fieldName?).filter (isRequested false)) ↔
      ∃ column ∈ below.filterMap fieldName?, isMeta column = false := by
  have hcounts : ∀ column, isRequested false column = true ↔ isMeta column = false := by
    simp [isRequested]
  have hnames : (collect false below []).names =
      (below.filterMap fieldName?).filter (isRequested false) := names_collect hn
  constructor
  · rintro ⟨values, hvalues, -⟩
    obtain ⟨columns, hobj⟩ := exists_obj_of_aggregateGroup hvalues
    cases hcollect : collect false below [] with
    | nil => simp [hcollect, request] at hobj
    | cons e rest =>
      have he : e.1 ∈ (collect false below []).names := by
        rw [hcollect]
        exact List.mem_cons_self
      rw [hnames, List.mem_filter] at he
      exact ⟨e.1, he.1, (hcounts _).mp he.2⟩
  · rintro ⟨column, hmem, hmeta⟩
    have hin : column ∈ (collect false below []).names := by
      rw [hnames, List.mem_filter]
      exact ⟨hmem, (hcounts column).mpr hmeta⟩
    have hrequest : request (collect false below []) = .obj (collect false below []) := by
      cases hcollect : collect false below [] with
      | nil => simp [hcollect, Entries.names] at hin
      | cons e rest => rfl
    rw [hrequest, ← hnames]
    apply aggregateGroup_obj
    · intro e he
      rw [eq_true_of_mem_collect hleaf he]
      rfl
    · intro e he
      have hname := Entries.name_mem_names he
      rw [hnames, List.mem_filter] at hname
      apply exists_aggregateColumn
      intro hkind
      exact hcolumns hkind e.1 hname.1 ((hcounts _).mp hname.2)

/-! ## Answers -/

/-- A selection set that the aggregates of some records can be asked for: no field repeats, each
group is an aggregate of at least one leaf field, and the columns under `_sum` and `_avg` add up. -/
structure Legal (records : List Record) (selections : List Selection) : Prop where
  distinct : Distinct selections
  aggregate : ∀ {group below}, Occurs selections group below → isRequested true group = true →
    (Aggregate.ofName? group).isSome
  nonempty : ∀ {group below}, Occurs selections group below → isRequested true group = true →
    below ≠ []
  leaves : ∀ {group below}, Occurs selections group below → isRequested true group = true →
    ∀ selection ∈ below, IsLeaf selection
  addsUp : ∀ {group below}, Occurs selections group below → group = "_sum" ∨ group = "_avg" →
    ∀ column ∈ below.filterMap fieldName?, isMeta column = false → AddsUp records column

/-- The records answer a selection set: with the groups that it requests, and in each of them with
an object of the fields that it requests. -/
def Answers (records : List Record) (selections : List Selection) : Prop :=
  ∃ answer : Entries Json,
    aggregateRecords records (.obj (ofSelections selections)) = .ok (.obj answer) ∧
    answer.names = (selections.filterMap fieldName?).filter (isRequested true) ∧
    ∀ group below, Occurs selections group below → isRequested true group = true →
      ∃ values : Entries Json, answer.get? group = some (.obj values) ∧
        values.names = (below.filterMap fieldName?).filter (isRequested false)

/-- The groups that mean adding values are `_sum` and `_avg`. -/
theorem sum_or_avg_of_ofName? {group : String} {kind : Aggregate}
    (h : Aggregate.ofName? group = some kind) (hkind : kind = .sum ∨ kind = .avg) :
    group = "_sum" ∨ group = "_avg" := by
  unfold Aggregate.ofName? at h
  rcases hkind with rfl | rfl <;> split at h <;> simp_all

/-- A request is an entry whose name is an aggregate. -/
theorem mem_aggregateRequests {entries : Entries Json} {name : String} {kind : Aggregate}
    {selection : Json} : (name, kind, selection) ∈ aggregateRequests (.obj entries) ↔
      (name, selection) ∈ entries ∧ Aggregate.ofName? name = some kind := by
  simp only [aggregateRequests, List.mem_filterMap, Option.map_eq_some_iff, Prod.mk.injEq,
    Prod.exists]
  constructor
  · rintro ⟨_, _, hmem, _, hkind, rfl, rfl, rfl⟩
    exact ⟨hmem, hkind⟩
  · rintro ⟨hmem, hkind⟩
    exact ⟨name, selection, hmem, kind, hkind, rfl, rfl, rfl⟩

/-- Answers have the names of the entries, if all of these are aggregates. -/
theorem names_of_aggregateEntries {entries answer : Entries Json}
    (h : ∀ e ∈ entries, (Aggregate.ofName? e.1).isSome)
    (hok : aggregateEntries records (.obj entries) = .ok answer) :
    answer.names = entries.names := by
  have hnames : Entries.names (aggregateRequests (.obj entries)) = entries.names := by
    rw [names_aggregateRequests, List.filter_eq_self]
    exact List.forall_mem_map.mpr h
  rw [← hnames]
  apply Except.map_eq_of_mapM_eq_ok _ hok
  intro request entry hentry
  exact (Except.pair_eq_ok_iff.mp hentry).1.symm

/-- The answer under a name is that of its request, if no name repeats. -/
theorem get?_of_aggregateEntries {entries answer : Entries Json} {group : String}
    {kind : Aggregate} {selection : Json} (hn : answer.names.Nodup)
    (hok : aggregateEntries records (.obj entries) = .ok answer)
    (hmem : (group, selection) ∈ entries) (hkind : Aggregate.ofName? group = some kind) :
    ∃ value, answer.get? group = some value ∧
      aggregateGroup records kind selection = .ok value := by
  have hrequest := mem_aggregateRequests.mpr ⟨hmem, hkind⟩
  obtain ⟨i, hi, hat⟩ := List.getElem_of_mem hrequest
  have hall := aggregateEntries_eq_ok_iff.mp hok
  have hi' : i < answer.length := by rwa [← hall.length_eq]
  obtain ⟨hname, hvalue⟩ := hall.get hi hi'
  simp only [List.get_eq_getElem, hat] at hname hvalue
  refine ⟨_, (Entries.get?_eq_some_iff_mem hn).mpr ?_, hvalue⟩
  rw [hname]
  exact List.getElem_mem hi'

/-- The names of the fields of a group differ. -/
theorem Legal.nodup_fields (legal : Legal records selections)
    (hoccurs : Occurs selections group below) : (below.filterMap fieldName?).Nodup := by
  obtain ⟨-, hnested⟩ := legal.distinct
  obtain ⟨hn, -⟩ := hnested hoccurs
  exact hn

/-- The names of the extracted arguments are those of the groups. -/
theorem Legal.names_ofSelections (legal : Legal records selections) :
    (ofSelections selections).names =
      (selections.filterMap fieldName?).filter (isRequested true) := by
  obtain ⟨hn, -⟩ := legal.distinct
  exact names_collect hn

/-- The entries of the extracted arguments are the groups, each with what its own fields request. -/
theorem Legal.mem_ofSelections_iff (legal : Legal records selections) {request' : Json} :
    (group, request') ∈ ofSelections selections ↔ isRequested true group = true ∧
      ∃ below, Occurs selections group below ∧ request' = request (collect false below []) := by
  obtain ⟨hn, -⟩ := legal.distinct
  have hentries : (ofSelections selections).names.Nodup := by
    rw [legal.names_ofSelections]
    exact hn.filter _
  rw [← Entries.get?_eq_some_iff_mem hentries, ofSelections, get?_collect_eq_some_iff]
  constructor
  · rintro ⟨hgroup, below, hlast, hrequest⟩
    exact ⟨hgroup, below, hlast.occurs, hrequest⟩
  · rintro ⟨hgroup, below, hoccurs, hrequest⟩
    exact ⟨hgroup, below, hoccurs.occursLast hn, hrequest⟩

/-- A group is answered as it asks exactly if it has a field that counts. -/
theorem Legal.aggregateGroup_iff (legal : Legal records selections)
    (hoccurs : Occurs selections group below) (hgroup : isRequested true group = true)
    {kind : Aggregate} (hkind : Aggregate.ofName? group = some kind) :
    (∃ values : Entries Json,
      aggregateGroup records kind (request (collect false below [])) = .ok (.obj values) ∧
        values.names = (below.filterMap fieldName?).filter (isRequested false)) ↔
      ∃ column ∈ below.filterMap fieldName?, isMeta column = false := by
  apply aggregateGroup_request_iff (legal.nodup_fields hoccurs) (legal.leaves hoccurs hgroup)
  intro hadds
  exact legal.addsUp hoccurs (sum_or_avg_of_ofName? hkind hadds)

/-- Where the answer has an object of its fields for each group, each group has a field that
counts. -/
theorem Legal.exists_column (legal : Legal records selections)
    (hanswers : Answers records selections) (hoccurs : Occurs selections group below)
    (hgroup : isRequested true group = true) :
    ∃ column ∈ below.filterMap fieldName?, isMeta column = false := by
  obtain ⟨answer, hanswer, hnames, hfields⟩ := hanswers
  obtain ⟨_, hok, heq⟩ := Except.map_eq_ok_iff.mp hanswer
  cases heq
  obtain ⟨kind, hkind⟩ := Option.isSome_iff_exists.mp (legal.aggregate hoccurs hgroup)
  have hnodup : answer.names.Nodup := by
    obtain ⟨hn, -⟩ := legal.distinct
    rw [hnames]
    exact hn.filter _
  have hmem := legal.mem_ofSelections_iff.mpr ⟨hgroup, below, hoccurs, rfl⟩
  obtain ⟨value, hget, hvalue⟩ := get?_of_aggregateEntries hnodup hok hmem hkind
  obtain ⟨values, hvalues, hvaluesNames⟩ := hfields group below hoccurs hgroup
  rw [hget, Option.some.injEq] at hvalues
  subst hvalues
  exact (legal.aggregateGroup_iff hoccurs hgroup hkind).mp ⟨values, hvalue, hvaluesNames⟩

/-- Where each group has a field that counts, all of them are answered. -/
theorem Legal.exists_aggregateEntries (legal : Legal records selections)
    (hcounts : ∀ group below, Occurs selections group below → isRequested true group = true →
      ∃ column ∈ below.filterMap fieldName?, isMeta column = false) :
    ∃ answer, aggregateEntries records (.obj (ofSelections selections)) = .ok answer := by
  apply Except.exists_mapM_eq_ok_iff.mpr
  rintro ⟨group, kind, selection⟩ hrequest
  obtain ⟨hmem, hkind⟩ := mem_aggregateRequests.mp hrequest
  obtain ⟨hgroup, below, hoccurs, rfl⟩ := legal.mem_ofSelections_iff.mp hmem
  obtain ⟨values, hvalues, -⟩ :=
    (legal.aggregateGroup_iff hoccurs hgroup hkind).mpr (hcounts group below hoccurs hgroup)
  exact ⟨(group, .obj values), Except.pair_eq_ok_iff.mpr ⟨rfl, hvalues⟩⟩

/-- A legal selection set is answered as it asks exactly if each of its groups has a field that
counts. -/
theorem aggregateRecords_answers_iff (legal : Legal records selections) :
    Answers records selections ↔
      ∀ group below, Occurs selections group below → isRequested true group = true →
        ∃ column ∈ below.filterMap fieldName?, isMeta column = false := by
  constructor
  · intro hanswers group below hoccurs hgroup
    exact legal.exists_column hanswers hoccurs hgroup
  intro hcounts
  have haggregates : ∀ e ∈ ofSelections selections, (Aggregate.ofName? e.1).isSome := by
    intro e he
    obtain ⟨hgroup, below, hoccurs, -⟩ := legal.mem_ofSelections_iff.mp he
    exact legal.aggregate hoccurs hgroup
  obtain ⟨answer, hok⟩ := legal.exists_aggregateEntries hcounts
  have hnames : answer.names = (selections.filterMap fieldName?).filter (isRequested true) := by
    rw [names_of_aggregateEntries haggregates hok, legal.names_ofSelections]
  have hnodup : answer.names.Nodup := by
    obtain ⟨hn, -⟩ := legal.distinct
    rw [hnames]
    exact hn.filter _
  refine ⟨answer, by rw [aggregateRecords, hok]; rfl, hnames, ?_⟩
  intro group below hoccurs hgroup
  obtain ⟨kind, hkind⟩ := Option.isSome_iff_exists.mp (legal.aggregate hoccurs hgroup)
  have hmem := legal.mem_ofSelections_iff.mpr ⟨hgroup, below, hoccurs, rfl⟩
  obtain ⟨value, hget, hvalue⟩ := get?_of_aggregateEntries hnodup hok hmem hkind
  obtain ⟨values, hvalues, hvaluesNames⟩ :=
    (legal.aggregateGroup_iff hoccurs hgroup hkind).mpr (hcounts group below hoccurs hgroup)
  rw [hvalues] at hvalue
  cases hvalue
  exact ⟨values, hget, hvaluesNames⟩

/-- A field without selections, called `name`. -/
def leaf (name : String) : Selection :=
  .field none name [] [] [] ⟨1, 1⟩

/-- A field called `name` with fields below it. -/
def groupOf (name : String) (below : List Selection) : Selection :=
  .field none name [] [] below ⟨1, 1⟩

/-- Leaf fields of different names are distinct. -/
theorem distinct_leaves {names : List String} (hn : names.Nodup) :
    Distinct (names.map leaf) := by
  refine .intro ?_ ?_
  · have hnames : (names.map leaf).filterMap fieldName? = names := by
      rw [List.filterMap_map]
      exact List.filterMap_some
    rwa [hnames]
  · rintro name below ⟨label, arguments, directives, position, hmem⟩
    obtain ⟨name', -, heq⟩ := List.mem_map.mp hmem
    cases heq
    exact .intro List.nodup_nil fun h => by simp [Occurs] at h

/-- A count and a sum, with a meta field, are answered. -/
theorem aggregateRecords_answers_ages :
    let records : List Record := [[("age", .ofInt 7)], [("age", .null)]]
    let selections := [groupOf "_count" (["_all"].map leaf),
      groupOf "_sum" (["age", "__typename"].map leaf)]
    Legal records selections ∧ Answers records selections := by
  intro records selections
  have hoccurs : ∀ {group below}, Occurs selections group below →
      group = "_count" ∧ below = ["_all"].map leaf ∨
        group = "_sum" ∧ below = ["age", "__typename"].map leaf := by
    rintro group below ⟨label, arguments, directives, position, hmem⟩
    rcases List.mem_cons.mp hmem with heq | hmem
    · cases heq
      exact .inl ⟨rfl, rfl⟩
    · cases List.mem_singleton.mp hmem
      exact .inr ⟨rfl, rfl⟩
  have hages : AddsUp records "age" := by
    have hvalues : columnValues records "age" = [.ofInt 7] := rfl
    have hints : [Json.ofInt 7].filterMap Json.toInt64? = [7] := by decide
    refine ⟨by rw [hvalues]; decide, ?_⟩
    intro count
    rw [hvalues, hints]
    cases count <;> simp [IsInt64]
  have legal : Legal records selections := by
    refine ⟨.intro (by decide) ?_, ?_, ?_, ?_, ?_⟩
    · intro group below h
      rcases hoccurs h with ⟨-, rfl⟩ | ⟨-, rfl⟩
      · exact distinct_leaves (by decide)
      · exact distinct_leaves (by decide)
    · intro group below h _
      rcases hoccurs h with ⟨rfl, -⟩ | ⟨rfl, -⟩ <;> rfl
    · intro group below h _
      rcases hoccurs h with ⟨-, rfl⟩ | ⟨-, rfl⟩ <;> simp
    · intro group below h _
      rcases hoccurs h with ⟨-, rfl⟩ | ⟨-, rfl⟩ <;> simp [leaf, IsLeaf]
    · intro group below h hadds column hcolumn hmeta
      rcases hoccurs h with ⟨rfl, -⟩ | ⟨rfl, rfl⟩
      · simp at hadds
      · have hcolumn : column = "age" ∨ column = "__typename" := by
          simpa [leaf, fieldName?] using hcolumn
        rcases hcolumn with rfl | rfl
        · exact hages
        · exact absurd hmeta (by decide)
  refine ⟨legal, (aggregateRecords_answers_iff legal).mpr ?_⟩
  intro group below h _
  rcases hoccurs h with ⟨-, rfl⟩ | ⟨-, rfl⟩
  · exact ⟨"_all", by simp [leaf, fieldName?], by decide⟩
  · exact ⟨"age", by simp [leaf, fieldName?], by decide⟩

/-- A group of a meta field alone fails, though its selection set is legal. -/
theorem meta_group_fails :
    let selections := [groupOf "_max" (["__typename"].map leaf)]
    Legal [] selections ∧
      aggregateRecords [] (.obj (ofSelections selections)) = .error .aggregateWithoutFields ∧
      ¬ Answers [] selections := by
  intro selections
  have hoccurs : ∀ {group below}, Occurs selections group below →
      group = "_max" ∧ below = ["__typename"].map leaf := by
    rintro group below ⟨label, arguments, directives, position, hmem⟩
    cases List.mem_singleton.mp hmem
    exact ⟨rfl, rfl⟩
  have hfails : aggregateRecords [] (.obj (ofSelections selections)) =
      .error .aggregateWithoutFields := by
    have hmeta : isRequested false "__typename" = false ∧ isRequested true "_max" = true := by
      decide
    simp [selections, groupOf, leaf, ofSelections, collect, hmeta, request, Entries.insert]
    rfl
  refine ⟨⟨.intro (by decide) ?_, ?_, ?_, ?_, ?_⟩, hfails, ?_⟩
  · intro group below h
    obtain ⟨-, rfl⟩ := hoccurs h
    exact distinct_leaves (by decide)
  · intro group below h _
    obtain ⟨rfl, -⟩ := hoccurs h
    rfl
  · intro group below h _
    obtain ⟨-, rfl⟩ := hoccurs h
    simp
  · intro group below h _
    obtain ⟨-, rfl⟩ := hoccurs h
    simp [leaf, IsLeaf]
  · intro group below h hadds
    obtain ⟨rfl, -⟩ := hoccurs h
    simp at hadds
  · rintro ⟨answer, hok, -⟩
    rw [hfails] at hok
    cases hok

end ModelGateway.AggregateSelection
