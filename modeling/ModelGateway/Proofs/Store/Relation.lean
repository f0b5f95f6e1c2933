import ModelGateway.Proofs.Record.Where
import ModelGateway.Proofs.Store.Counts
import ModelGateway.Proofs.Store.Join

/-!
# Reading relations

A relation of a record is read with arguments of its own: it is followed from the record, or
selected or included with it. All three read the same (`Store.RelationReads`).

* **Scopes** (`Filter.ofArgument_scopedTo`): a `where` can ask for values of some columns besides
  what another `where` asks for. Among the records that a scope allows, the other `where` then
  selects as before (`Table.select_scoped`), whatever the order, the cursor and the page.
* **List relations** (`Store.listRelation_reads_findMany`): so a list relation reads as `findMany`
  on the other model does, with the values that the relation joins as the scope. A record that
  lacks one of these values has no related records.
-/

namespace ModelGateway

/-! ## Scopes -/

/-- A `where` that asks for values of columns besides what another `where` asks for, if there is
one. -/
def Json.scopedTo (values : Entries Json) (condition : Option Json) : Json :=
  .obj [("AND", .arr [.obj values, condition.getD (.obj [])])]

/-- A filter can ask for the values of a column: the name means a column of the model and no
combination of filters. -/
structure Model.CanFilter (m : Model) (column : String) : Prop where
  no_combinator : column ∉ ["AND", "OR", "NOT"]
  declared : ∃ f, m.field? column = some f ∧ f.isRelation = false

namespace Filter

variable {m : Model} {values : Entries Json}

/-- Values of columns that are no objects are read as conditions to be equal to them. -/
theorem ofEntries_columns (hc : ∀ e ∈ values, m.CanFilter e.1)
    (hv : ∀ e ∈ values, e.2.isObject = false) :
    ofEntries m values = .ok (values.map fun e => equals e.1 e.2) := by
  induction values with
  | nil => rfl
  | cons e rest ih =>
    obtain ⟨column, value⟩ := e
    obtain ⟨⟨hname, f, hf, hscalar⟩, hcs⟩ := List.forall_mem_cons.mp hc
    obtain ⟨hvalue, hvs⟩ := List.forall_mem_cons.mp hv
    have hentry : ofEntry m column value = .ok (equals column value) := by
      dsimp only at hf hvalue
      simp only [ofEntry, hf, hscalar, Bool.false_eq_true, if_false, condition_ofJson hvalue]
      rfl
    rw [ofEntries_cons, Combinator.ofName?_eq_none_iff.mpr hname, ih hcs hvs]
    simp only [hentry]
    rfl

/-- A `where` with a scope is read if it can be read without, as the conjunction of both. -/
theorem ofArgument_scopedTo (hc : ∀ e ∈ values, m.CanFilter e.1)
    (hv : ∀ e ∈ values, e.2.isObject = false) (condition : Option Json) :
    ofArgument m (some (Json.scopedTo values condition)) =
      (ofArgument m condition).map fun asked =>
        .and [conjunction (values.map fun e => equals e.1 e.2), asked] := by
  have hscope : ofJson m (.obj values) =
      .ok (conjunction (values.map fun e => equals e.1 e.2)) := by
    rw [ofJson, ofEntries_columns hc hv]
    rfl
  have hasked : ofJson m (condition.getD (.obj [])) = ofArgument m condition := by
    cases condition <;> rfl
  rw [Json.scopedTo, ofArgument, ofJson, ofEntries, Combinator.ofName?, ofItems, ofItems, ofItems,
    hscope, hasked]
  cases ofArgument m condition <;> rfl

/-- A record passes the conjunction of a scope and another filter if it has equal values and passes
the other filter. -/
theorem matches_scoped (values : Entries Json) (asked : Filter) (r : Record) :
    (Filter.and [conjunction (values.map fun e => equals e.1 e.2), asked]).matches r =
      (Filter.and [allEqual values, asked]).matches r := by
  simp [Filter.matches, matchesAll, matches_conjunction, allEqual]

end Filter

namespace Table

variable {t : Table} {args args' : Json} {scope : Filter} {combined : Filter → Filter}

/-- The page depends on `skip` and `take` alone. -/
theorem paginate_congr (hskip : args'.get? "skip" = args.get? "skip")
    (htake : args'.get? "take" = args.get? "take") (records : List Record) :
    paginate records args' = paginate records args := by
  simp only [paginate, integerArgument, hskip, htake]

/-- Records are selected within a scope as with a `where` that includes it. -/
theorem select_scoped
    (hwhere : Filter.ofArgument t.model (args'.get? "where") =
      (Filter.ofArgument t.model (args.get? "where")).map combined)
    (hcombined : ∀ asked r, (combined asked).matches r = (Filter.and [scope, asked]).matches r)
    (hothers : ∀ name, name ≠ "where" → args'.get? name = args.get? name) :
    t.select args' none = t.select args (some scope) := by
  unfold select
  rw [hwhere, hothers "orderBy" (by decide), hothers "cursor" (by decide),
    hothers "distinct" (by decide)]
  simp only [paginate_congr (hothers "skip" (by decide)) (hothers "take" (by decide))]
  cases Filter.ofArgument t.model (args.get? "where") with
  | error fault => rfl
  | ok asked =>
    have hfound : t.records.filter (combined asked).matches =
        t.records.filter (Filter.and [scope, asked]).matches :=
      List.filter_congr fun r _ => hcombined asked r
    simp only [Except.map, bind, Except.bind, hfound]

end Table

/-! ## Ways to read a relation -/

namespace Store

variable {s : Store} {t target : Table} {r : Record} {field : Field}
  {pairs : List (String × String)} {delegate : String}

/-- What a record that is shaped by one entry of `select` or `include` has under its name. -/
def shownValue (s : Store) (t : Table) (r : Record) (part name : String) (wanted : Json) :
    Except Fault (Option Json) :=
  (s.project t r (.obj [(part, .obj [(name, wanted)])])).map (·.get? name)

/-- A relation of a record reads as a result with some arguments, whether it is followed from the
record or selected or included with it. -/
structure RelationReads (s : Store) (t : Table) (r : Record) (field : Field) (args : Json)
    (result : Except Fault Json) : Prop where
  followed : s.readRelation t r field args = result
  selected : s.shownValue t r "select" field.name args = result.map some
  included : s.shownValue t r "include" field.name args = result.map some

/-- The one entry of `select` or `include` that is wanted chooses the value under its name. -/
theorem chosenValues_single {name : String} {wanted : Json} (hw : isWanted wanted = true) :
    s.chosenValues t r [(name, wanted)] =
      (s.selectedValue t r name wanted fun target related => s.project target related wanted).map
        fun value => [(name, value)] := by
  rw [chosenValues, if_pos hw, chosenValues]
  cases s.selectedValue t r name wanted fun target related => s.project target related wanted <;>
    rfl

/-- An entry that is selected or included is the value under its name. -/
theorem shownValue_eq {part name : String} {wanted : Json} (hpart : part ∈ ["select", "include"])
    (hw : isWanted wanted = true) :
    s.shownValue t r part name wanted =
      (s.selectedValue t r name wanted fun target related => s.project target related wanted).map
        some := by
  rw [shownValue, project_eq]
  simp only [List.mem_cons, List.not_mem_nil, or_false] at hpart
  rcases hpart with rfl | rfl
  all_goals
    simp only [Json.get?, Entries.get?, if_true, Option.bind_some, chosenBy, chosenValues_single hw]
    cases s.selectedValue t r name wanted fun target related => s.project target related wanted with
    | error fault => rfl
    | ok value => simp [shapeOf, Except.map, Entries.extend, Entries.get?, Entries.get?_insert]

/-- A relation that is selected or included reads as the one that is followed. -/
theorem shownValue_relation {part : String} {wanted : Json} (hpart : part ∈ ["select", "include"])
    (hw : isWanted wanted = true) (hf : t.model.field? field.name = some field)
    (hrel : field.isRelation = true) :
    s.shownValue t r part field.name wanted = (s.readRelation t r field wanted).map some := by
  rw [shownValue_eq hpart hw, selectedValue, hf]
  simp only [hrel, if_true]
  rfl

/-- A relation reads in all ways as it does when it is followed. -/
theorem relationReads_of_followed {wanted : Json} (hw : isWanted wanted = true)
    (hf : t.model.field? field.name = some field) (hrel : field.isRelation = true)
    {result : Except Fault Json} (h : s.readRelation t r field wanted = result) :
    s.RelationReads t r field wanted result where
  followed := h
  selected := h ▸ shownValue_relation (by simp) hw hf hrel
  included := h ▸ shownValue_relation (by simp) hw hf hrel

/-! ## List relations -/

/-- The values that a record joins the columns of another model to. -/
def joinValues (r : Record) (pairs : List (String × String)) : Entries Json :=
  pairs.map fun p => (p.1, Record.value r p.2)

/-- A record of which no joined value is null has all of them. -/
theorem joinValues?_eq_some (h : ∀ p ∈ pairs, Record.value r p.2 ≠ .null) :
    joinValues? r pairs = some (joinValues r pairs) := by
  induction pairs with
  | nil => rfl
  | cons p rest ih =>
    obtain ⟨hp, hrest⟩ := List.forall_mem_cons.mp h
    rw [joinValues?, ih hrest]
    split
    · rename_i hnull
      exact absurd hnull hp
    · rfl

/-- A record of which a joined value is null is joined to nothing. -/
theorem joinValues?_eq_none (h : ∃ p ∈ pairs, Record.value r p.2 = .null) :
    joinValues? r pairs = none := by
  induction pairs with
  | nil => simp at h
  | cons p rest ih =>
    rw [joinValues?]
    split
    · rfl
    · rename_i hne
      obtain ⟨q, hq, hnull⟩ := h
      rcases List.mem_cons.mp hq with rfl | hrest
      · exact absurd hnull hne
      · rw [ih ⟨q, hrest, hnull⟩, Option.map_none]

/-- Records are shaped alike by arguments with the same `select` and the same `include`. -/
theorem projectAll_congr {args args' : Json} (hselect : args'.get? "select" = args.get? "select")
    (hinclude : args'.get? "include" = args.get? "include") (records : List Record) :
    s.projectAll t records args' = s.projectAll t records args := by
  simp only [projectAll, project_eq, hselect, hinclude]

/-- A list relation that joins values selects the records of the other model that have them. -/
theorem readRelation_list (ht : s.tableOf field.typeName = .ok target)
    (hp : joinPairs t.model field target.model = .ok pairs) (hlist : field.isList = true)
    (hgiven : ∀ p ∈ pairs, Record.value r p.2 ≠ .null) (args : Json) :
    s.readRelation t r field args =
      (target.select args (some (.allEqual (joinValues r pairs)))).bind fun records =>
        s.projectAll target records args := by
  rw [readRelation, related, ht]
  simp only [bind, Except.bind, hp, joinValues?_eq_some hgiven, hlist, if_true]
  cases target.select args (some (.allEqual (joinValues r pairs))) <;> rfl

/-- A list relation of a record that lacks a joined value is empty. -/
theorem readRelation_list_null (ht : s.tableOf field.typeName = .ok target)
    (hp : joinPairs t.model field target.model = .ok pairs) (hlist : field.isList = true)
    (hnull : ∃ p ∈ pairs, Record.value r p.2 = .null) (args : Json) :
    s.readRelation t r field args = .ok (.arr []) := by
  rw [readRelation, related, ht]
  simp only [bind, Except.bind, hp, joinValues?_eq_none hnull, hlist, if_true]
  rfl

/-- With a scope added to the `where`, `findMany` selects within the scope and shapes the records
alike. -/
theorem execute_findMany_scopedTo {values : Entries Json} (hfor : s.tableFor delegate = .ok target)
    (hc : ∀ e ∈ values, target.model.CanFilter e.1) (hv : ∀ e ∈ values, e.2.isObject = false)
    (supply : Supply) (args : Entries Json) :
    (s.execute supply delegate .findMany
      (.obj (args.insert "where" (Json.scopedTo values (args.get? "where"))))).2 =
      (target.select (.obj args) (some (.allEqual values))).bind fun records =>
        s.projectAll target records (.obj args) := by
  let full := Json.obj (args.insert "where" (Json.scopedTo values (args.get? "where")))
  have hwhere : full.get? "where" = some (Json.scopedTo values (args.get? "where")) :=
    Entries.get?_insert_self args "where" _
  have hothers : ∀ name, name ≠ "where" → full.get? name = (Json.obj args).get? name :=
    fun name hname => Entries.get?_insert_of_ne args _ hname
  have hselect : target.select full none =
      target.select (.obj args) (some (.allEqual values)) := by
    refine Table.select_scoped ?_ (Filter.matches_scoped values) hothers
    rw [hwhere]
    exact Filter.ofArgument_scopedTo hc hv (args.get? "where")
  rw [execute_of_tableFor hfor, executeOn, answer, findMany]
  dsimp only
  rw [hselect]
  cases target.select (.obj args) (some (.allEqual values)) with
  | error fault => rfl
  | ok records =>
    exact projectAll_congr (hothers "select" (by decide)) (hothers "include" (by decide)) records

/-- A list relation reads with any arguments as `findMany` on the other model does with the joined
values asked for as well, if they are no objects; without one of the values it is empty. -/
theorem listRelation_reads_findMany (htarget : s.tableOf field.typeName = .ok target)
    (hfor : s.tableFor delegate = .ok target)
    (hp : joinPairs t.model field target.model = .ok pairs)
    (hf : t.model.field? field.name = some field) (hrel : field.isRelation = true)
    (hlist : field.isList = true) (hcolumns : ∀ p ∈ pairs, target.model.CanFilter p.1)
    (supply : Supply) (args : Entries Json) :
    ((∀ p ∈ pairs, Record.value r p.2 ≠ .null ∧ (Record.value r p.2).isObject = false) →
      s.RelationReads t r field (.obj args) (s.execute supply delegate .findMany (.obj (args.insert
        "where" (Json.scopedTo (joinValues r pairs) (args.get? "where"))))).2) ∧
    ((∃ p ∈ pairs, Record.value r p.2 = .null) →
      s.RelationReads t r field (.obj args) (.ok (.arr []))) := by
  have hwanted : isWanted (.obj args) = true := by simp [isWanted]
  constructor
  · intro hgiven
    have hc : ∀ e ∈ joinValues r pairs, target.model.CanFilter e.1 :=
      List.forall_mem_map.mpr hcolumns
    have hv : ∀ e ∈ joinValues r pairs, e.2.isObject = false :=
      List.forall_mem_map.mpr fun p h => (hgiven p h).2
    apply relationReads_of_followed hwanted hf hrel
    rw [readRelation_list htarget hp hlist fun p h => (hgiven p h).1,
      execute_findMany_scopedTo hfor hc hv]
  · intro hnull
    apply relationReads_of_followed hwanted hf hrel
    exact readRelation_list_null htarget hp hlist hnull (.obj args)

/-! ## Desks -/

namespace Desks

/-- The table of the desks in the office. -/
def table : Table :=
  { Table.empty model with rows := rows, nextSequence := 5 }

/-- The first desk, which has none to its left. -/
def first : Record :=
  [("row", .ofNat 1), ("number", .ofNat 1), ("leftRow", .null), ("leftNumber", .null)]

end Desks

/-- Of the two desks to the right of the first one, the last is found in the second row, and shown
with the number of the desk to its left. -/
theorem desks_listRelation_reads_findMany :
    let s := Desks.office
    let t := Desks.table
    let pairs := [("leftRow", "row"), ("leftNumber", "number")]
    let args : Entries Json := [("orderBy", .obj [("row", .str "desc")]), ("take", .ofNat 1),
      ("where", .obj [("row", .obj [("gte", .ofNat 1)])]),
      ("select", .obj [("row", .bool true),
        ("left", .obj [("select", .obj [("number", .bool true)])])])]
    let found : Except Fault Json :=
      .ok (.arr [.obj [("row", .ofNat 2), ("left", .obj [("number", .ofNat 1)])]])
    Reachable Desks.document s ∧ Desks.first ∈ t.records ∧
      s.tableOf Desks.right.typeName = .ok t ∧ s.tableFor "desk" = .ok t ∧
      joinPairs t.model Desks.right t.model = .ok pairs ∧
      t.model.field? Desks.right.name = some Desks.right ∧ Desks.right.isRelation = true ∧
      Desks.right.isList = true ∧ (∀ p ∈ pairs, t.model.CanFilter p.1) ∧
      (∀ p ∈ pairs, Record.value Desks.first p.2 ≠ .null ∧
        (Record.value Desks.first p.2).isObject = false) ∧
      (s.execute Seats.supply "desk" .findMany (.obj (args.insert "where" (.obj [("AND", .arr [
        .obj [("leftRow", .ofNat 1), ("leftNumber", .ofNat 1)],
        .obj [("row", .obj [("gte", .ofNat 1)])]])])))).2 = found ∧
      s.RelationReads t Desks.first Desks.right (.obj args) found := by
  intro s t pairs args found
  have ht : s.tableOf Desks.right.typeName = .ok t := rfl
  have hfor : s.tableFor "desk" = .ok t := rfl
  have hp : joinPairs t.model Desks.right t.model = .ok pairs := by decide +kernel
  have hf : t.model.field? Desks.right.name = some Desks.right := by decide +kernel
  have hcolumns : ∀ p ∈ pairs, t.model.CanFilter p.1 := by
    simp only [pairs, List.forall_mem_cons, List.not_mem_nil, false_implies, implies_true, and_true]
    exact ⟨⟨by decide, _, rfl, rfl⟩, ⟨by decide, _, rfl, rfl⟩⟩
  have hgiven : ∀ p ∈ pairs, Record.value Desks.first p.2 ≠ .null ∧
      (Record.value Desks.first p.2).isObject = false := by decide
  have hfound : (s.execute Seats.supply "desk" .findMany (.obj (args.insert "where"
      (Json.scopedTo (joinValues Desks.first pairs) (args.get? "where"))))).2 = found := by
    decide +kernel
  have hreads :=
    (listRelation_reads_findMany ht hfor hp hf rfl rfl hcolumns Seats.supply args).1 hgiven
  rw [hfound] at hreads
  exact ⟨Desks.reachable_office, by decide +kernel, ht, hfor, hp, hf, rfl, rfl, hcolumns, hgiven,
    hfound, hreads⟩

end Store

end ModelGateway
