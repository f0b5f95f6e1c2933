import ModelGateway.Proofs.Store.Relation

/-!
# The `where` of a relation

A relation can be asked for with a `where`. Only the records of a list are selected by it.

* **Single relations** (`Store.singleRelation_honours_where_iff`): the record of a single relation
  is read as without the `where`, so the result is right exactly if the record passes it, or if the
  `where` cannot be read and shaping the record fails as well.
* **Counts** (`Store.relationCount_agrees_iff`): the count of a list relation is that of all related
  records, so it agrees with the list that is read with the same `where` exactly if all of them pass
  it. Without a `where` the two agree.
-/

namespace ModelGateway

namespace Store

variable {s : Store} {t target : Table} {r : Record} {field : Field}
  {pairs : List (String × String)} {filter : Filter}

/-! ## Single relations -/

/-- The record that a single relation leads to if it joins these pairs of columns. -/
def partner? (target : Table) (pairs : List (String × String)) (r : Record) : Option Record :=
  (target.joined pairs r).head?.map (·.2.data)

/-- The result of a single relation that leads to a record, or to none. -/
def shapeSingle (s : Store) (target : Table) (record : Option Record) (args : Json) :
    Except Fault Json :=
  shapeRelated (fun target related => s.project target related args) (.one target record)

/-- What a single relation has to answer if its arguments have a `where`: an error if this cannot be
read, null if it rules out the related record, and otherwise this record in its shape. -/
structure HonoursWhere (s : Store) (target : Table) (record : Option Record) (args : Json)
    (result : Except Fault Json) : Prop where
  refused : ∀ fault, Filter.ofArgument target.model (args.get? "where") = .error fault →
    ∃ fault', result = .error fault'
  ruledOut : ∀ filter, Filter.ofArgument target.model (args.get? "where") = .ok filter →
    (∀ related ∈ record, filter.matches related = false) → result = .ok .null
  shown : ∀ filter, Filter.ofArgument target.model (args.get? "where") = .ok filter →
    ∀ related ∈ record, filter.matches related = true → result = s.project target related args

/-- The result of a single relation that leads to a record is the record in its shape. -/
theorem shapeSingle_some {record : Option Record} {related : Record} (h : related ∈ record)
    (args : Json) : s.shapeSingle target record args = s.project target related args := by
  rw [Option.mem_def.mp h]
  rfl

/-- No record has the shape of null. -/
theorem project_ne_null (s : Store) (t : Table) (r : Record) (args : Json) :
    s.project t r args ≠ .ok .null := by
  rw [project_eq]
  rcases (args.get? "select").bind (s.chosenBy t r) with _ | (fault | chosen)
  · rcases (args.get? "include").bind (s.chosenBy t r) with _ | (fault | more) <;>
      simp [shapeOf, Except.map]
  all_goals simp [shapeOf, Except.map]

/-- A result for which the `where` plays no part honours it exactly if it makes no difference: the
record passes it, or it cannot be read and the record cannot be shaped either. -/
theorem honoursWhere_shapeSingle_iff (record : Option Record) (args : Json) :
    s.HonoursWhere target record args (s.shapeSingle target record args) ↔
      (∃ filter, Filter.ofArgument target.model (args.get? "where") = .ok filter ∧
        ∀ related ∈ record, filter.matches related = true) ∨
      (∃ fault, Filter.ofArgument target.model (args.get? "where") = .error fault) ∧
        ∃ fault, s.shapeSingle target record args = .error fault := by
  constructor
  · intro h
    cases hw : Filter.ofArgument target.model (args.get? "where") with
    | error fault => exact .inr ⟨⟨fault, rfl⟩, h.refused fault hw⟩
    | ok filter =>
      refine .inl ⟨filter, rfl, fun related hrelated => ?_⟩
      -- otherwise the result would be null, which is the shape of no record
      by_contra hfails
      have hnull : s.shapeSingle target record args = .ok .null := by
        refine h.ruledOut filter hw fun related' hrelated' => ?_
        rw [Option.mem_unique hrelated' hrelated, ← Bool.not_eq_true]
        exact hfails
      rw [shapeSingle_some hrelated] at hnull
      exact project_ne_null s target related args hnull
  · rintro (⟨filter, hw, hpasses⟩ | ⟨⟨fault, hw⟩, hfails⟩)
    · refine ⟨fun fault hw' => ?_, fun filter' hw' hnone => ?_, fun _ _ related hm _ => ?_⟩
      · rw [hw] at hw'
        cases hw'
      · obtain rfl : filter = filter' := Except.ok.inj (hw.symm.trans hw')
        cases record with
        | none => rfl
        | some related =>
          have hpass := hpasses related rfl
          rw [hnone related rfl] at hpass
          cases hpass
      · exact shapeSingle_some hm args
    · refine ⟨fun _ _ => hfails, fun filter' hw' => ?_, fun filter' hw' => ?_⟩
      all_goals
        rw [hw] at hw'
        cases hw'

/-- A single relation is read as the first record that it joins, whatever the `where`. -/
theorem readRelation_single (ht : s.tableOf field.typeName = .ok target)
    (hp : joinPairs t.model field target.model = .ok pairs) (hsingle : field.isList = false)
    (args : Json) :
    s.readRelation t r field args = s.shapeSingle target (partner? target pairs r) args := by
  rw [readRelation, related_single ht hp hsingle]
  rfl

/-- The record of a single relation is read without a `where`. So the result honours the `where`
exactly if the record passes it, or if it cannot be read and the record cannot be shaped either. -/
theorem singleRelation_honours_where_iff (ht : s.tableOf field.typeName = .ok target)
    (hp : joinPairs t.model field target.model = .ok pairs)
    (hf : t.model.field? field.name = some field) (hrel : field.isRelation = true)
    (hsingle : field.isList = false) (args : Entries Json) :
    let record := partner? target pairs r
    let result := s.shapeSingle target record (.obj args)
    s.RelationReads t r field (.obj args) result ∧
      (s.HonoursWhere target record (.obj args) result ↔
        (∃ filter, Filter.ofArgument target.model (args.get? "where") = .ok filter ∧
          ∀ related ∈ record, filter.matches related = true) ∨
        (∃ fault, Filter.ofArgument target.model (args.get? "where") = .error fault) ∧
          ∃ fault, result = .error fault) := by
  intro record result
  have hfollowed : s.readRelation t r field (.obj args) = result :=
    readRelation_single ht hp hsingle _
  exact ⟨relationReads_of_followed (by simp [isWanted]) hf hrel hfollowed,
    honoursWhere_shapeSingle_iff record (.obj args)⟩

namespace Desks

/-- The second desk, which has the first one to its left. -/
def second : Record :=
  [("row", .ofNat 1), ("number", .ofNat 2), ("leftRow", .ofNat 1), ("leftNumber", .ofNat 1)]

end Desks

/-- The desk to the left of the second one has the number that is asked for. -/
theorem desk_left_honours_where :
    let s := Desks.office
    let t := Desks.table
    let pairs := [("row", "leftRow"), ("number", "leftNumber")]
    let args : Entries Json := [("where", .obj [("number", .ofNat 1)]),
      ("select", .obj [("number", .bool true)])]
    let result : Except Fault Json := .ok (.obj [("number", .ofNat 1)])
    Reachable Desks.document s ∧ Desks.second ∈ t.records ∧
      s.tableOf Desks.left.typeName = .ok t ∧ joinPairs t.model Desks.left t.model = .ok pairs ∧
      t.model.field? Desks.left.name = some Desks.left ∧ Desks.left.isRelation = true ∧
      Desks.left.isList = false ∧ partner? t pairs Desks.second = some Desks.first ∧
      s.RelationReads t Desks.second Desks.left (.obj args) result ∧
      s.HonoursWhere t (some Desks.first) (.obj args) result := by
  intro s t pairs args result
  have ht : s.tableOf Desks.left.typeName = .ok t := rfl
  have hp : joinPairs t.model Desks.left t.model = .ok pairs := by decide +kernel
  have hf : t.model.field? Desks.left.name = some Desks.left := by decide +kernel
  have hpartner : partner? t pairs Desks.second = some Desks.first := by decide +kernel
  have hresult : s.shapeSingle t (some Desks.first) (.obj args) = result := by decide +kernel
  obtain ⟨hreads, hhonours⟩ :=
    singleRelation_honours_where_iff (r := Desks.second) ht hp hf rfl rfl args
  rw [hpartner, hresult] at hreads hhonours
  exact ⟨Desks.reachable_office, by decide +kernel, ht, hp, hf, rfl, rfl, hpartner, hreads,
    hhonours.mpr (.inl ⟨.field "number" (.equals (.ofNat 1)), by rfl, by decide +kernel⟩)⟩

/-- The desk to the left of the second one is read although its number is not the one that is asked
for, and also if what is asked for cannot be read. -/
theorem desk_left_ignores_where :
    let s := Desks.office
    let t := Desks.table
    let other : Json := .obj [("where", .obj [("number", .ofNat 9)])]
    let unreadable : Json := .obj [("where", .obj [("nope", .ofNat 9)])]
    Reachable Desks.document s ∧ s.tableOf "Desk" = .ok t ∧ Desks.second ∈ t.records ∧
      Desks.left.isList = false ∧
      s.related t Desks.second Desks.left .null = .ok (.one t (some Desks.first)) ∧
      s.readRelation t Desks.second Desks.left other = .ok (.obj Desks.first) ∧
      ¬s.HonoursWhere t (some Desks.first) other
        (s.readRelation t Desks.second Desks.left other) ∧
      s.readRelation t Desks.second Desks.left unreadable = .ok (.obj Desks.first) ∧
      ¬s.HonoursWhere t (some Desks.first) unreadable
        (s.readRelation t Desks.second Desks.left unreadable) := by
  intro s t other unreadable
  have hother : s.readRelation t Desks.second Desks.left other = .ok (.obj Desks.first) := by
    decide +kernel
  have hunreadable :
      s.readRelation t Desks.second Desks.left unreadable = .ok (.obj Desks.first) := by
    decide +kernel
  refine ⟨Desks.reachable_office, rfl, by decide +kernel, rfl, rfl, hother, fun h => ?_,
    hunreadable, fun h => ?_⟩
  · have hnull := h.ruledOut (.field "number" (.equals (.ofNat 9))) (by rfl) (by decide +kernel)
    rw [hother] at hnull
    cases hnull
  · obtain ⟨fault, hfault⟩ := h.refused (.unknownFilter "Desk" "nope") (by rfl)
    rw [hunreadable] at hfault
    cases hfault

/-! ## Counts -/

/-- What the count of one relation has for it, if it is selected or included with some value. -/
def relationCount (s : Store) (t : Table) (r : Record) (part name : String) (wanted : Json) :
    Except Fault (Option Json) :=
  (s.shownValue t r part "_count" (.obj [("select", .obj [(name, wanted)])])).map
    (·.bind (·.get? name))

/-- Asked for with some value, the count of a relation is one number, and the list that is included
has another number of records. -/
structure RelationSizes (s : Store) (t : Table) (r : Record) (name : String) (wanted : Json)
    (counted listed : Nat) : Prop where
  count : ∀ part ∈ ["select", "include"],
    s.relationCount t r part name wanted = .ok (some (.ofNat counted))
  list : ∃ items, s.shownValue t r "include" name wanted = .ok (some (.arr items)) ∧
    items.length = listed

/-- The count of a list relation is the number of joined rows, with whatever value it is asked
for. -/
theorem relationCount_eq (ht : s.tableOf field.typeName = .ok target)
    (hp : joinPairs t.model field target.model = .ok pairs)
    (hf : t.model.field? field.name = some field) (hrel : field.isRelation = true)
    (hlist : field.isList = true) (hcount : t.model.field? "_count" = none) {part : String}
    (hpart : part ∈ ["select", "include"]) {wanted : Json} (hw : isWanted wanted = true) :
    s.relationCount t r part field.name wanted =
      .ok (some (.ofNat (target.joined pairs r).length)) := by
  have hrelated : s.relatedCount t r field = .ok (target.joined pairs r).length := by
    rw [relatedCount, related_eq_joined ht hp (fun _ => rfl), if_pos hlist]
    simp [bind, Except.bind, pure, Except.pure]
  have hfields :
      countedFields t (.obj [("select", .obj [(field.name, wanted)])]) = .ok [field] := by
    simp [countedFields, Json.get?, Entries.get?, hw, hf, hrel, hlist, pure, Except.pure, bind,
      Except.bind]
  have hcounts : s.relationCounts t r (.obj [("select", .obj [(field.name, wanted)])]) =
      .ok (.obj [(field.name, .ofNat (target.joined pairs r).length)]) := by
    simp [relationCounts, hfields, hrelated, pure, Except.pure, bind, Except.bind, Entries.ofList,
      Entries.extend, Entries.insert]
  rw [relationCount, shownValue_eq hpart (by simp [isWanted]), selectedValue, hcount]
  simp only [if_true, hcounts]
  simp [Except.map, Json.get?, Entries.get?]

/-- Asked for with a `where` that can be read, and no order, page or shape, a list relation is
counted with all joined rows and listed with those that pass. -/
theorem relationSizes_of_filter (ht : s.tableOf field.typeName = .ok target)
    (hp : joinPairs t.model field target.model = .ok pairs)
    (hf : t.model.field? field.name = some field) (hrel : field.isRelation = true)
    (hlist : field.isList = true) (hcount : t.model.field? "_count" = none) {wanted : Json}
    (hwanted : isWanted wanted = true) (hunpaged : wanted.Unpaged)
    (hselect : wanted.get? "select" = none) (hinclude : wanted.get? "include" = none)
    (hw : Filter.ofArgument target.model (wanted.get? "where") = .ok filter) :
    s.RelationSizes t r field.name wanted (target.joined pairs r).length
      ((target.joined pairs r).filter fun e => filter.matches e.2.data).length where
  count _ hpart := relationCount_eq ht hp hf hrel hlist hcount hpart hwanted
  list := by
    have hread : s.readRelation t r field wanted =
        .ok (.arr ((((target.joined pairs r).map (·.2.data)).filter filter.matches).map
          fun related => .obj (target.columns related))) := by
      rw [readRelation, related_list ht hp hlist hunpaged hw]
      exact projectAll_whole s target _ hselect hinclude
    refine ⟨_, by rw [shownValue_relation (by simp) hwanted hf hrel, hread]; rfl, ?_⟩
    rw [List.length_map, List.filter_map, List.length_map]
    rfl

/-- The count of a list relation is that of all related records also if it is asked for with a
`where`. So it is the length of the list that is read with the same `where` exactly if all related
records pass this; without a `where` it always is. -/
theorem relationCount_agrees_iff (ht : s.tableOf field.typeName = .ok target)
    (hp : joinPairs t.model field target.model = .ok pairs)
    (hf : t.model.field? field.name = some field) (hrel : field.isRelation = true)
    (hlist : field.isList = true) (hcount : t.model.field? "_count" = none) {condition : Json}
    (hw : Filter.ofArgument target.model (some condition) = .ok filter) :
    let rows := target.joined pairs r
    let passing := rows.filter fun e => filter.matches e.2.data
    s.RelationSizes t r field.name (.obj [("where", condition)]) rows.length passing.length ∧
      s.RelationSizes t r field.name (.bool true) rows.length rows.length ∧
      (rows.length = passing.length ↔ ∀ e ∈ rows, filter.matches e.2.data = true) := by
  intro rows passing
  have hwhere : s.RelationSizes t r field.name (.obj [("where", condition)]) rows.length
      passing.length :=
    relationSizes_of_filter ht hp hf hrel hlist hcount (by simp [isWanted]) (by simp [Entries.get?])
      rfl rfl hw
  have hall : (rows.filter fun e => Filter.all.matches e.2.data) = rows := by
    simp [Filter.matches]
  have hwhole : s.RelationSizes t r field.name (.bool true) rows.length
      (rows.filter fun e => Filter.all.matches e.2.data).length :=
    relationSizes_of_filter ht hp hf hrel hlist hcount rfl (fun _ _ => rfl) rfl rfl rfl
  rw [hall] at hwhole
  exact ⟨hwhere, hwhole, by rw [eq_comm, List.length_filter_eq_length_iff]⟩

/-- Two desks have the first one to their left. The count of them is two also if only the one in the
first row is asked for. -/
theorem desks_relationCount_agrees_iff :
    let s := Desks.office
    let t := Desks.table
    let pairs := [("leftRow", "row"), ("leftNumber", "number")]
    let condition : Json := .obj [("row", .ofNat 1)]
    let filter : Filter := .field "row" (.equals (.ofNat 1))
    Reachable Desks.document s ∧ Desks.first ∈ t.records ∧
      s.tableOf Desks.right.typeName = .ok t ∧ joinPairs t.model Desks.right t.model = .ok pairs ∧
      t.model.field? Desks.right.name = some Desks.right ∧ Desks.right.isRelation = true ∧
      Desks.right.isList = true ∧ t.model.field? "_count" = none ∧
      Filter.ofArgument t.model (some condition) = .ok filter ∧
      s.RelationSizes t Desks.first Desks.right.name (.obj [("where", condition)]) 2 1 ∧
      s.RelationSizes t Desks.first Desks.right.name (.bool true) 2 2 := by
  intro s t pairs condition filter
  have ht : s.tableOf Desks.right.typeName = .ok t := rfl
  have hp : joinPairs t.model Desks.right t.model = .ok pairs := by decide +kernel
  have hf : t.model.field? Desks.right.name = some Desks.right := by decide +kernel
  have hcount : t.model.field? "_count" = none := by decide +kernel
  have hw : Filter.ofArgument t.model (some condition) = .ok filter := rfl
  have hrows : (t.joined pairs Desks.first).length = 2 := by decide +kernel
  have hpassing :
      ((t.joined pairs Desks.first).filter fun e => filter.matches e.2.data).length = 1 := by
    decide +kernel
  obtain ⟨hwhere, hwhole, -⟩ :=
    relationCount_agrees_iff (r := Desks.first) ht hp hf rfl rfl hcount hw
  rw [hrows] at hwhere hwhole
  rw [hpassing] at hwhere
  exact ⟨Desks.reachable_office, by decide +kernel, ht, hp, hf, rfl, rfl, hcount, hw, hwhere,
    hwhole⟩

/-- A desk is listed alone although two are counted with the same `where`. -/
theorem desks_count_ignores_where :
    let s := Desks.office
    let t := Desks.table
    let asked : Json := .obj [("where", .obj [("row", .ofNat 1)])]
    Reachable Desks.document s ∧ s.tableOf "Desk" = .ok t ∧ Desks.first ∈ t.records ∧
      Desks.right.isList = true ∧
      Filter.ofArgument t.model (asked.get? "where") =
        .ok (.field "row" (.equals (.ofNat 1))) ∧
      ¬∃ n, s.RelationSizes t Desks.first Desks.right.name asked n n := by
  intro s t asked
  have hcounted : s.relationCount t Desks.first "include" Desks.right.name asked =
      .ok (some (.ofNat 2)) := by decide +kernel
  have hlisted : (s.shownValue t Desks.first "include" Desks.right.name asked).map
      (·.bind fun list => list.asItems?.map List.length) = .ok (some 1) := by decide +kernel
  refine ⟨Desks.reachable_office, rfl, by decide +kernel, rfl, rfl, ?_⟩
  rintro ⟨n, hcount, items, hitems, rfl⟩
  rw [hitems] at hlisted
  have hone : items.length = 1 := by simpa [Except.map, Json.asItems?] using hlisted
  have htwo := (hcount "include" (by simp)).symm.trans hcounted
  rw [hone] at htwo
  exact absurd htwo (by decide)

end Store

end ModelGateway
