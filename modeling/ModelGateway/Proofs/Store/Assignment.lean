import ModelGateway.Proofs.Store.ForeignKey
import ModelGateway.Proofs.Store.Reread
import ModelGateway.Proofs.Store.Unordered

/-!
# Lists that a write assigns

A write may assign a list to a column as it is, or wrapped in `set` (`Assigns`). Creations and
updates unwrap it by different conditions:

* **Creating** (`Draft.givenValue_of_assigns`): the value of a list column is unwrapped if it has an
  entry `set`, whatever the type of the column.
* **Updating** (`Field.updated_of_assigns`): an object is an operation unless the type of the column
  is `Json`. So a wrapped list stays wrapped in a list column of this type.
* **Writes** (`Store.Reachable.list_assigned_iff`): a write stores the list unless it is such an
  update. `note_update_keeps_wrapping` is one.
-/

namespace ModelGateway

/-- A value assigns a list: it is the list, or the operation `set` with it. -/
inductive Assigns (items : List Json) : Json → Prop
  | plain : Assigns items (.arr items)
  | wrapped : Assigns items (.obj [("set", .arr items)])

variable {f : Field} {items : List Json} {given : Json}

/-- A creation stores a list that is assigned to a list column. -/
theorem Draft.givenValue_of_assigns (hlist : f.isList = true) (h : Assigns items given)
    (d : Draft) : (d.givenValue f given).2 = .arr items := by
  unfold givenValue
  rw [if_pos hlist]
  cases h with
  | plain =>
    dsimp only [Json.get?]
    split <;> rfl
  | wrapped => rfl

/-- An update stores a list that is assigned to a column, but keeps it wrapped if it is so and the
column is of the type `Json`. -/
theorem Field.updated_of_assigns (h : Assigns items given) (current : Json) :
    f.updated current given = .ok (if f.typeName = "Json" then given else .arr items) := by
  cases h with
  | plain => rw [ite_self]; rfl
  | wrapped =>
    rw [updated]
    split_ifs <;> rfl

namespace Progress

variable {supply : Supply} {p : Progress} {t : Table} {data : Entries Json} {r : Record}

/-- A creation leaves the list that its data assigns to a column. -/
theorem Filling.get?_of_assigns {draft : Draft} (h : Filling supply p t data draft (.ok r))
    (hcolumn : t.model.column? f.name = some f) (hlist : f.isList = true)
    (hgiven : Entries.get? data f.name = some given) (hassigns : Assigns items given) :
    Entries.get? r f.name = some (.arr items) := by
  obtain ⟨pairs, -, hfill⟩ := h.filled_eq
  have hlast := Draft.get?_fill_last f.name hfill
  rw [← Model.column?, hcolumn] at hlast
  obtain ⟨d₁, d₂, value, hvalue, hget⟩ := hlast
  have hdata : Draft.given? data (Entries.ofList pairs) f = some given := by
    rw [Draft.given?, hgiven]
  rw [Draft.column, hdata] at hvalue
  cases hvalue
  rw [hget, Draft.givenValue_of_assigns hlist hassigns]

/-- An update leaves the list that its data assigns to a column, or the wrapped list, if no other
entry writes the column. -/
theorem Rewriting.get?_of_assigns {row : Row} {drawn : Nat}
    (h : Rewriting supply p t row data drawn r) (hfield : t.model.field? f.name = some f)
    (hscalar : f.isRelation = false) (hnodup : data.names.Nodup)
    (hgiven : Entries.get? data f.name = some given) (hassigns : Assigns items given)
    (hsole : ∀ entry ∈ data, entry.1 ≠ f.name → ¬ t.model.Writes f.name entry) :
    Entries.get? r f.name = some (if f.typeName = "Json" then given else .arr items) := by
  obtain ⟨applied, happlied, hstamped⟩ := h.rewritten
  have he : (f.name, given) ∈ data := Entries.mem_of_get?_eq_some hgiven
  have hwrites : t.model.Writes f.name (f.name, given) :=
    ⟨f, hfield, by rw [if_neg (by simp [hscalar])]⟩
  have honly : ∀ other ∈ data, (f.name, given) ≠ other → ¬ t.model.Writes f.name other := by
    intro other ho hne
    exact hsole other ho fun hname => hne (List.inj_on_of_nodup_map hnodup he ho hname.symm)
  obtain ⟨next, hgives, hget⟩ := Store.exists_gives_of_sole happlied hnodup he hwrites honly
  have hclock : ¬ t.model.Clocked data f.name := Store.not_clocked_of_mem he
  obtain rfl : (stampUpdated supply data t.model.fields applied p.drawn).2 = r :=
    congrArg Prod.snd hstamped
  rw [get?_stampUpdated supply hclock, hget]
  cases hgives with
  | linked found relation =>
    cases hfield.symm.trans found
    cases hscalar.symm.trans relation
  | updated found _ accepted =>
    cases hfield.symm.trans found
    rw [Field.updated_of_assigns hassigns] at accepted
    exact congrArg some (Except.ok.inj accepted).symm

end Progress

namespace Store

variable {d : Document} {s : Store} {t : Table} {supply : Supply} {args : Json} {op : Operation}
  {old : Option Row} {r : Record} {data : Entries Json}

/-- A write whose data assigns a list to a list column stores a record with the list in this column,
unless it is an update, the list is wrapped and the column is of the type `Json`. Then it stores the
wrapped list. -/
theorem Reachable.list_assigned_iff (hd : d.WellFormed) (h : Reachable d s) {delegate : String}
    (ht : s.tableFor delegate = .ok t) (hargs : args.WellFormed)
    (hfield : t.model.field? f.name = some f) (hcolumn : t.model.column? f.name = some f)
    (hlist : f.isList = true) (hw : s.Writes supply t args op old r)
    (hdata : argument args (writeArgument op old) = .obj data)
    (hgiven : Entries.get? data f.name = some given) (hassigns : Assigns items given)
    (hsole : old.isSome = true →
      ∀ entry ∈ data, entry.1 ≠ f.name → ¬ t.model.Writes f.name entry) :
    (∃ e ∈ (s.execute supply delegate op args).1.rowsOf t.model.name, e.2.data = r) ∧
      (Entries.get? r f.name = some (.arr items) ↔
        old = none ∨ given = .arr items ∨ f.typeName ≠ "Json") ∧
      (Entries.get? r f.name = some (.arr items) ∨ Entries.get? r f.name = some given) := by
  have hs := h.sound hd
  have found := hs.named.tableOf_of_tableFor ht
  have hscalar : f.isRelation = false := by
    have hmem := List.mem_reverse.mp (List.mem_of_find?_eq_some hcolumn)
    simpa using (List.mem_filter.mp hmem).2
  have hstored : Entries.get? r f.name =
      some (if old.isSome = true ∧ f.typeName = "Json" then given else .arr items) := by
    cases old with
    | none =>
      obtain ⟨-, entries, draft, hobject, hfilling, -⟩ :=
        Progress.exists_stored_of_create found hw.created.1
      cases hobject.symm.trans hdata
      simpa using hfilling.get?_of_assigns hcolumn hlist hgiven hassigns
    | some row =>
      obtain ⟨key, -, hr, -⟩ := hw.exists_update
      obtain ⟨-, entries, drawn, hobject, hrewriting, -⟩ :=
        Progress.exists_stored_of_update found hr
      cases hobject.symm.trans hdata
      have hnodup := nodup_names_of_argument hargs hdata
      simpa using hrewriting.get?_of_assigns hfield hscalar hnodup hgiven hassigns (hsole rfl)
  refine ⟨?_, ?_, ?_⟩
  · obtain ⟨t', ht', e, he, hdata⟩ := hs.exists_row_of_writes found hw
    rw [execute_of_tableFor ht, rowsOf_of_tableOf ht']
    exact ⟨e, he, hdata⟩
  · rw [hstored, Option.some.injEq]
    cases old <;> by_cases htype : f.typeName = "Json" <;> simp [htype]
  · rw [hstored]
    split_ifs
    · exact .inr rfl
    · exact .inl rfl

/-! ## Notes -/

namespace Notes

/-- A column of lists. -/
def list (name typeName : String) : Field :=
  { Seats.column name false with
    typeName := typeName
    isList := true }

/-- A note has a number, labels and any further values. -/
def model : Model where
  name := "Note"
  fields := [{ Seats.column "number" true with isId := true }, list "labels" "String",
    list "extras" "Json"]
  primaryKey := none

/-- The document with notes alone. -/
def document : Document :=
  { Seats.document with models := [model] }

/-- The columns of notes have no defaults. -/
theorem document_wellFormed : document.WellFormed := by
  simp [Document.WellFormed, Model.WellFormed, Field.WellFormed, document, model, list,
    Seats.column]

/-- A list of one number, wrapped in `set`. -/
def wrapped : Json :=
  .obj [("set", .arr [.ofNat 5])]

/-- The arguments that create a note whose lists are wrapped. -/
def creation : Json :=
  .obj [("data", .obj [("number", .ofNat 1), ("labels", wrapped), ("extras", wrapped)])]

/-- The store with this note alone. -/
def store : Store :=
  (ofModels document.models).after Seats.supply (.execute "note" .create creation)

/-- The note. -/
def note : Record :=
  [("number", .ofNat 1), ("labels", .arr [.ofNat 5]), ("extras", .arr [.ofNat 5])]

/-- The store is reached by creating the note. -/
theorem reachable_store : Reachable document store :=
  Reachable.start.call Seats.supply
    (by simp [Call.WellFormed, creation, wrapped, Entries.names])

end Notes

/-- The labels of a note are replaced by a list that is wrapped. -/
theorem note_labels_assigned :
    let s := Notes.store
    let t := s.current (Table.empty Notes.model)
    let data : Entries Json := [("labels", Notes.wrapped)]
    let args := Json.obj [("where", .obj [("number", .ofNat 1)]), ("data", .obj data)]
    let f := Notes.list "labels" "String"
    Notes.document.WellFormed ∧ Reachable Notes.document s ∧ s.tableFor "note" = .ok t ∧
      args.WellFormed ∧ t.model.field? f.name = some f ∧ t.model.column? f.name = some f ∧
      f.isList = true ∧ s.Writes Seats.supply t args .update (some ⟨1, Notes.note⟩) Notes.note ∧
      argument args (writeArgument .update (some ⟨1, Notes.note⟩)) = .obj data ∧
      Entries.get? data f.name = some Notes.wrapped ∧ Assigns [.ofNat 5] Notes.wrapped ∧
      (∀ entry ∈ data, entry.1 ≠ f.name → ¬ t.model.Writes f.name entry) ∧
      (∃ e ∈ (s.execute Seats.supply "note" .update args).1.rowsOf t.model.name,
        e.2.data = Notes.note) ∧
      (Entries.get? Notes.note f.name = some (.arr [.ofNat 5]) ↔
        some (⟨1, Notes.note⟩ : Row) = none ∨ Notes.wrapped = .arr [.ofNat 5] ∨
          f.typeName ≠ "Json") ∧
      (Entries.get? Notes.note f.name = some (.arr [.ofNat 5]) ∨
        Entries.get? Notes.note f.name = some Notes.wrapped) := by
  intro s t data args f
  have hargs : args.WellFormed := by simp [args, data, Notes.wrapped, Entries.names]
  have ht : s.tableFor "note" = .ok t := rfl
  have hfound : t.findRow (args.get? "where") =
      .ok (some (.values [.ofNat 1], ⟨1, Notes.note⟩)) := rfl
  have hwritten : (Progress.update Seats.supply ⟨s, 0⟩ t.model.name (.values [.ofNat 1])
      ⟨1, Notes.note⟩ (argument args "data")).2 = .ok Notes.note := by decide +kernel
  have hw : s.Writes Seats.supply t args .update (some ⟨1, Notes.note⟩) Notes.note :=
    .update hfound hwritten
  have hsole : ∀ entry ∈ data, entry.1 ≠ f.name → ¬ t.model.Writes f.name entry := by
    intro entry he hne
    cases List.mem_singleton.mp he
    exact absurd rfl hne
  exact ⟨Notes.document_wellFormed, Notes.reachable_store, ht, hargs, rfl, rfl, rfl, hw, rfl, rfl,
    .wrapped, hsole, Notes.reachable_store.list_assigned_iff Notes.document_wellFormed ht hargs rfl
      rfl rfl hw rfl rfl .wrapped fun _ => hsole⟩

/-- A wrapped list is stored as a list by the creation of a note, and stays wrapped in an update. -/
theorem note_update_keeps_wrapping :
    let s := Notes.store
    let t := s.current (Table.empty Notes.model)
    let args := Json.obj [("where", .obj [("number", .ofNat 1)]),
      ("data", .obj [("extras", Notes.wrapped)])]
    let r : Record := [("number", .ofNat 1), ("labels", .arr [.ofNat 5]), ("extras", Notes.wrapped)]
    (Notes.list "extras" "Json").isList = true ∧ Reachable Notes.document s ∧
      s.tableFor "note" = .ok t ∧
      (ofModels Notes.document.models).Writes Seats.supply (Table.empty Notes.model) Notes.creation
        .create none Notes.note ∧
      Entries.get? Notes.note "extras" = some (.arr [.ofNat 5]) ∧
      s.Writes Seats.supply t args .update (some ⟨1, Notes.note⟩) r ∧
      Entries.get? r "extras" ≠ some (.arr [.ofNat 5]) := by
  intro s t args r
  have hcreated : (Progress.create Seats.supply ⟨ofModels Notes.document.models, 0⟩
      (Table.empty Notes.model).model.name (argument Notes.creation "data")).2 =
        .ok Notes.note := by decide +kernel
  have hfound : t.findRow (args.get? "where") =
      .ok (some (.values [.ofNat 1], ⟨1, Notes.note⟩)) := rfl
  have hwritten : (Progress.update Seats.supply ⟨s, 0⟩ t.model.name (.values [.ofNat 1])
      ⟨1, Notes.note⟩ (argument args "data")).2 = .ok r := by decide +kernel
  exact ⟨rfl, Notes.reachable_store, rfl, .create hcreated, rfl, .update hfound hwritten,
    by decide⟩

end Store

end ModelGateway
