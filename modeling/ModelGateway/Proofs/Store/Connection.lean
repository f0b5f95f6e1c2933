import ModelGateway.Proofs.Store.ForeignKey
import ModelGateway.Proofs.Store.RelationWhere
import ModelGateway.Proofs.Store.Reread

/-!
# Connections

A write can connect its record to a row of another model or disconnect it. Whether reading the
relation shows this afterwards.

* **Reading** (`Store.shows_iff`, `Store.reads_null_iff`): a single relation is read as the first
  row that has the values of the foreign key, and as null if there is none.
* **Reachable stores** (`Store.Reachable.connection_shown_iff`): a connection by a creation is
  always shown. One by an update is shown exactly if the instants that the update has stamped into
  the foreign key equal the values of the key that was given. A disconnection is not shown only if
  the whole foreign key was stamped and some row has these instants.
* **Overwritten keys** (`shift_connection_overwritten`): an update that connects a record by a
  column with the time of the last update loses the connection.
-/

namespace ModelGateway

/-- No value that a key gives for the columns that a foreign key refers to is null or an object. -/
def Field.ScalarKey (f : Field) (key : Json) : Prop :=
  ∀ column ∈ f.toFields, ∀ value, keyPart? key column = some value →
    value ≠ .null ∧ value.isObject = false

/-! ## Reading -/

/-- A row is joined to a record by a foreign key if the record has its values, none of them null. -/
theorem Record.joins_key_iff {f : Field} {b r : Record} :
    joins (f.toFields.zip f.fromFields) b r = true ↔
      ∀ p ∈ f.fromFields.zip f.toFields,
        value r p.1 ≠ .null ∧ valuesEqual (value b p.2) (value r p.1) = true := by
  rw [joins_iff, ← List.zip_swap f.fromFields f.toFields, List.forall_mem_map]
  rfl

namespace Store

variable {s : Store} {t target : Table} {f : Field} {r : Record} {key change : Json}
  {supply : Supply} {old : Option Row}

/-- Reading a single relation of a record leads to a row of the other model that has the values of a
key, and shows it as the arguments ask for. -/
def Shows (s : Store) (t target : Table) (r : Record) (f : Field) (key : Json) : Prop :=
  ∃ b ∈ target.rows, f.HasKey key b.2.data ∧ ∀ args,
    s.related t r f args = .ok (.one target (some b.2.data)) ∧
      s.readRelation t r f args = s.project target b.2.data args

/-- Reading a single relation leads to the first row that the foreign key joins. -/
theorem shows_iff (hf : t.model.Owns f) (htarget : s.tableOf f.typeName = .ok target) :
    s.Shows t target r f key ↔
      ∃ b, (target.joined (f.toFields.zip f.fromFields) r).head? = some b ∧
        f.HasKey key b.2.data := by
  have hp := joinPairs_holder hf.from_given t.model target.model
  constructor
  · rintro ⟨b, -, hkey, hread⟩
    have hrelated := (hread .null).1
    rw [related_single htarget hp hf.single, Except.ok.injEq, Related.one.injEq,
      Option.map_eq_some_iff] at hrelated
    obtain ⟨-, e, hhead, hdata⟩ := hrelated
    exact ⟨e, hhead, hdata ▸ hkey⟩
  · rintro ⟨b, hhead, hkey⟩
    have hb := (List.mem_filter.mp (List.mem_of_head? hhead)).1
    refine ⟨b, hb, hkey, fun args => ⟨?_, ?_⟩⟩
    · rw [related_single htarget hp hf.single, hhead, Option.map_some]
    · rw [readRelation_single htarget hp hf.single]
      apply shapeSingle_some
      rw [partner?, hhead, Option.map_some]
      rfl

/-- Reading a single relation gives null exactly if the foreign key joins no row. -/
theorem reads_null_iff (hf : t.model.Owns f) (htarget : s.tableOf f.typeName = .ok target) :
    (∀ args, s.readRelation t r f args = .ok .null) ↔
      ¬ ∃ b ∈ target.rows, Record.joins (f.toFields.zip f.fromFields) b.2.data r = true := by
  have hp := joinPairs_holder hf.from_given t.model target.model
  have hread := readRelation_single (r := r) htarget hp hf.single
  simp only [hread, partner?]
  cases hjoined : target.joined (f.toFields.zip f.fromFields) r with
  | nil =>
    refine iff_of_true (fun _ => rfl) ?_
    rintro ⟨b, hb, hjoins⟩
    exact List.filter_eq_nil_iff.mp hjoined b hb hjoins
  | cons b rest =>
    have hb : b ∈ target.joined (f.toFields.zip f.fromFields) r := hjoined ▸ List.mem_cons_self
    refine iff_of_false (fun hnull => ?_) (not_not_intro ⟨b, List.mem_filter.mp hb⟩)
    exact project_ne_null s target b.2.data .null (hnull .null)

/-! ## Changes -/

/-- A value of the foreign key that is stored stands for the value that a connection gives: it is
not null and equal to the same values. If it was stamped, the two have to be equal. -/
theorem alike_of_links (hlinks : t.model.Links supply f change old r)
    (hkey : change.get? "connect" = some key) (hscalar : f.ScalarKey key) {p : String × String}
    (hp : p ∈ f.fromFields.zip f.toFields) {value : Json} (hvalue : keyPart? key p.2 = some value)
    (hstamped : t.model.Stamps old p.1 → valuesEqual (Record.value r p.1) value = true) :
    Record.value r p.1 ≠ .null ∧
      ∀ a, valuesEqual a (Record.value r p.1) = valuesEqual a value := by
  by_cases hstamps : t.model.Stamps old p.1
  · obtain ⟨n, hn⟩ := hlinks.stamped p hp hstamps
    have hinstant := hstamped hstamps
    rw [hn] at hinstant ⊢
    exact ⟨Json.noConfusion, valuesEqual_congr_text hinstant⟩
  · obtain ⟨hne, hplain⟩ := hscalar p.2 (List.of_mem_zip hp).2 value hvalue
    have hlinked : linkedValue change p.2 = value := by
      rw [linkedValue, hkey]
      dsimp only
      rw [hvalue, Option.getD_some]
    rw [← hlinked] at hplain
    rw [hlinks.kept p hp hstamps hplain, hlinked]
    exact ⟨hne, fun _ => rfl⟩

/-- If the values of the foreign key stand for those of a key, then the rows that it joins are the
rows that have the values of the key. -/
theorem joins_iff_hasKey (hf : t.model.Owns f)
    (halike : ∀ p ∈ f.fromFields.zip f.toFields, ∃ value, keyPart? key p.2 = some value ∧
      Record.value r p.1 ≠ .null ∧ ∀ a, valuesEqual a (Record.value r p.1) = valuesEqual a value)
    (b : Record) :
    Record.joins (f.toFields.zip f.fromFields) b r = true ↔ f.HasKey key b := by
  rw [Record.joins_key_iff]
  conv_rhs => rw [Field.HasKey, ← hf.map_snd, List.forall_mem_map]
  refine forall₂_congr fun p hp => ?_
  obtain ⟨value, hvalue, hne, hequal⟩ := halike p hp
  rw [hequal, hvalue]
  simp [hne]

/-- A connection is shown exactly if what was stamped into the foreign key equals the values of the
key, since the other values are those of the key. -/
theorem shows_iff_of_links (hf : t.model.Owns f) (htarget : s.tableOf f.typeName = .ok target)
    (hlinks : t.model.Links supply f change old r) (hkey : change.get? "connect" = some key)
    (hscalar : f.ScalarKey key) (hfound : ∃ b ∈ target.rows, f.HasKey key b.2.data) :
    s.Shows t target r f key ↔
      ∀ p ∈ f.fromFields.zip f.toFields, t.model.Stamps old p.1 →
        ∃ value, keyPart? key p.2 = some value ∧
          valuesEqual (Record.value r p.1) value = true := by
  rw [shows_iff hf htarget]
  constructor
  · rintro ⟨b, hhead, hb⟩ p hp hstamps
    obtain ⟨value, hvalue, hequal⟩ := hb p.2 (List.of_mem_zip hp).2
    obtain ⟨n, hn⟩ := hlinks.stamped p hp hstamps
    have hjoins := (List.mem_filter.mp (List.mem_of_head? hhead)).2
    have hinstant := (Record.joins_key_iff.mp hjoins p hp).2
    rw [hn] at hinstant ⊢
    exact ⟨value, hvalue, valuesEqual_text hinstant hequal⟩
  · intro hstamped
    obtain ⟨found, hmem, hhas⟩ := hfound
    have hjoins : ∀ b, Record.joins (f.toFields.zip f.fromFields) b r = true ↔ f.HasKey key b := by
      apply joins_iff_hasKey hf
      intro p hp
      obtain ⟨value, hvalue, -⟩ := hhas p.2 (List.of_mem_zip hp).2
      refine ⟨value, hvalue, alike_of_links hlinks hkey hscalar hp hvalue fun hstamps => ?_⟩
      obtain ⟨value', hvalue', hinstant⟩ := hstamped p hp hstamps
      obtain rfl : value' = value := Option.some.inj (hvalue'.symm.trans hvalue)
      exact hinstant
    -- the row that the connection has found is joined, so some row is the first one
    have hjoined : found ∈ target.joined (f.toFields.zip f.fromFields) r :=
      List.mem_filter.mpr ⟨hmem, (hjoins found.2.data).mpr hhas⟩
    obtain ⟨b, hhead⟩ := Option.isSome_iff_exists.mp
      (List.isSome_head?.mpr (List.ne_nil_of_mem hjoined))
    exact ⟨b, hhead, (hjoins b.2.data).mp (List.mem_filter.mp (List.mem_of_head? hhead)).2⟩

/-- A disconnection is shown unless the whole foreign key was stamped and joins a row. -/
theorem reads_null_iff_of_links (hf : t.model.Owns f)
    (htarget : s.tableOf f.typeName = .ok target)
    (hlinks : t.model.Links supply f change old r) (habsent : change.get? "connect" = none) :
    (∀ args, s.readRelation t r f args = .ok .null) ↔
      ¬ ((∀ column ∈ f.fromFields, t.model.Stamps old column) ∧
        ∃ b ∈ target.rows, Record.joins (f.toFields.zip f.fromFields) b.2.data r = true) := by
  rw [reads_null_iff hf htarget, not_iff_not]
  refine ⟨fun hjoined => ⟨fun column hc => ?_, hjoined⟩, And.right⟩
  obtain ⟨b, -, hjoins⟩ := hjoined
  obtain ⟨p, hp, rfl⟩ : ∃ p ∈ f.fromFields.zip f.toFields, p.1 = column := by
    rwa [← hf.map_fst, List.mem_map] at hc
  -- a column that is not stamped is null, and joins nothing
  by_contra hnot
  have hnull : linkedValue change p.2 = .null := by rw [linkedValue, habsent]
  have hr := hlinks.kept p hp hnot (by rw [hnull]; rfl)
  exact (Record.joins_key_iff.mp hjoins p hp).1 (hr.trans hnull)

/-! ## Reachable stores -/

/-- Whether reading a relation of a record shows what an argument of the relation has changed: a
connection if what was stamped into the foreign key equals the values of the key, a disconnection
unless the whole foreign key was stamped and joins a row. -/
structure ShowsChange (s : Store) (t target : Table) (f : Field) (change : Json)
    (old : Option Row) (r : Record) : Prop where
  connected : ∀ key, change.get? "connect" = some key → f.ScalarKey key →
    (s.Shows t target r f key ↔
      ∀ p ∈ f.fromFields.zip f.toFields, t.model.Stamps old p.1 →
        ∃ value, keyPart? key p.2 = some value ∧ valuesEqual (Record.value r p.1) value = true)
  disconnected : change.get? "connect" = none →
    ((∀ args, s.readRelation t r f args = .ok .null) ↔
      ¬ ((∀ column ∈ f.fromFields, t.model.Stamps old column) ∧
        ∃ b ∈ target.rows, Record.joins (f.toFields.zip f.fromFields) b.2.data r = true))

variable {d : Document} {args : Json} {op : Operation}

/-- After a `create`, `update` or `upsert` that connects its record to a row of another model, or
disconnects it, the relation of the stored record shows this, unless the update has stamped columns
of the foreign key. -/
theorem Reachable.connection_shown_iff (hd : d.WellFormed) (h : Reachable d s) {delegate : String}
    (ht : s.tableFor delegate = .ok t) (hf : t.model.Owns f)
    (htarget : s.tableOf f.typeName = .ok target) (hargs : args.WellFormed)
    (hw : s.Writes supply t args op old r) {data : Entries Json}
    (hdata : argument args (writeArgument op old) = .obj data)
    (hchange : data.get? f.name = some change) (hsole : t.model.SoleWriter f data) :
    ∃ t', (s.execute supply delegate op args).1.tableOf t.model.name = .ok t' ∧
      (∃ e ∈ t'.rows, e.2.data = r) ∧
      (s.execute supply delegate op args).1.ShowsChange t' target f change old r := by
  have hs := h.sound hd
  have found := hs.named.tableOf_of_tableFor ht
  obtain ⟨⟨columns, hcolumns⟩, hlinks, u, hmodel, hset⟩ :=
    hw.links found hargs hf hdata hchange hsole
  obtain ⟨t', ht', hrow⟩ := hs.exists_row_of_writes found hw
  rw [execute_of_tableFor ht]
  refine ⟨t', ht', hrow, ?_⟩
  rw [hset] at ht' ⊢
  obtain rfl : u = t' := by
    rw [hs.named.tableOf_setTable_self found hmodel] at ht'
    exact Except.ok.inj ht'
  -- the write has changed no row of the other model
  have htarget' : (s.setTable u).tableOf f.typeName = .ok target := by
    rw [tableOf_setTable, hmodel, if_neg hf.other, htarget]
  rw [← hmodel] at hf hlinks
  constructor
  · intro key hkey hscalar
    have hfound := exists_row_of_foreignKey hf hcolumns hkey htarget
    exact shows_iff_of_links hf htarget' hlinks hkey hscalar hfound
  · intro habsent
    exact reads_null_iff_of_links hf htarget' hlinks habsent

/-! ## Shifts -/

namespace Shifts

/-- A column of instants. -/
def instant (name : String) (isRequired : Bool) : Field :=
  { Seats.column name isRequired with typeName := "DateTime" }

/-- The hour at which a shift starts, by the instant of the hour. -/
def hour : Field :=
  { Desks.relation "hour" false with
    typeName := "Hour"
    fromFields := ["hourAt"]
    toFields := ["at"] }

/-- An hour is identified by its instant. -/
def hourModel : Model where
  name := "Hour"
  fields := [{ instant "at" true with isId := true },
    { Desks.relation "shifts" true with typeName := "Shift" }]
  primaryKey := none

/-- A shift has a number, and its hour is also the time of its last update. -/
def model : Model where
  name := "Shift"
  fields := [{ Seats.column "id" true with isId := true },
    { instant "hourAt" false with isUpdatedAt := true }, hour]
  primaryKey := none

/-- The document with hours and shifts. -/
def document : Document :=
  { Seats.document with models := [hourModel, model] }

/-- It is noon all the time. -/
def noon : Supply :=
  { Seats.supply with instant := fun _ => "2024-01-01T12:00:00Z" }

/-- An hour in the morning of the same day. -/
def morning : Record :=
  [("at", .str "2024-01-01T09:00:00Z")]

/-- Data that connects a shift to the hour in the morning, and more. -/
def connecting (more : Entries Json) : Entries Json :=
  ("hour", .obj [("connect", .obj morning)]) :: more

/-- The arguments that create a shift in the morning. -/
def creation (id : Nat) : Json :=
  .obj [("data", .obj (connecting [("id", .ofNat id)]))]

/-- The store with the hour in the morning and one shift. -/
def plan : Store :=
  [.execute "hour" .create (.obj [("data", .obj morning)]),
    .execute "shift" .create (creation 1)].foldl
      (fun s c => s.after noon c) (ofModels document.models)

/-- A shift in the morning. -/
def early (id : Nat) : Record :=
  [("id", .ofNat id), ("hourAt", .str "2024-01-01T09:00:00Z")]

/-- A shift at noon. -/
def late (id : Nat) : Record :=
  [("id", .ofNat id), ("hourAt", .str "2024-01-01T12:00:00Z")]

/-- The columns of hours and shifts have no defaults. -/
theorem document_wellFormed : document.WellFormed := by
  simp [Document.WellFormed, Model.WellFormed, Field.WellFormed, document, model, hourModel, hour,
    instant, Desks.relation, Seats.column]

/-- The plan is reached by creating the hour and the shift. -/
theorem reachable_plan : Reachable document plan :=
  Reachable.start.foldl noon
    (by simp [Call.WellFormed, creation, connecting, morning, Entries.names])

/-- A shift holds the foreign key of its hour. -/
theorem owns : model.Owns hour where
  names_nodup := by decide
  declared := by decide
  relation := rfl
  single := rfl
  other := by decide
  from_given := by decide
  lengths := rfl
  from_nodup := by decide
  columns := by decide

/-- The key of the hour has one value. -/
theorem scalarKey : hour.ScalarKey (.obj morning) := by
  intro column hc value hvalue
  obtain rfl : column = "at" := List.mem_singleton.mp hc
  cases hvalue
  exact ⟨Json.noConfusion, rfl⟩

/-- The number of a shift is no part of the foreign key. -/
theorem soleWriter (more : Entries Json) (h : ∀ e ∈ more, e.1 = "id") :
    model.SoleWriter hour (connecting more) := by
  intro entry hentry hne column hc hwrites
  obtain rfl : column = "hourAt" := List.mem_singleton.mp hc
  rcases List.mem_cons.mp hentry with rfl | hentry
  · exact hne rfl
  · obtain ⟨f, hf, hwrites⟩ := hwrites
    rw [h entry hentry] at hf hwrites
    cases hf
    have hname : "id" = "hourAt" := hwrites
    exact absurd hname (by decide)

end Shifts

/-- A second shift is created in the morning, and shows the hour. -/
theorem shift_connection_shown :
    let s := Shifts.plan
    let t := s.current (Table.empty Shifts.model)
    let target := s.current (Table.empty Shifts.hourModel)
    let outcome := s.execute Shifts.noon "shift" .create (Shifts.creation 2)
    Shifts.document.WellFormed ∧ Reachable Shifts.document s ∧ s.tableFor "shift" = .ok t ∧
      t.model.Owns Shifts.hour ∧ s.tableOf Shifts.hour.typeName = .ok target ∧
      (Shifts.creation 2).WellFormed ∧
      s.Writes Shifts.noon t (Shifts.creation 2) .create none (Shifts.early 2) ∧
      t.model.SoleWriter Shifts.hour (Shifts.connecting [("id", .ofNat 2)]) ∧
      ∃ t', outcome.1.tableOf "Shift" = .ok t' ∧ (∃ e ∈ t'.rows, e.2.data = Shifts.early 2) ∧
        outcome.1.ShowsChange t' target Shifts.hour (.obj [("connect", .obj Shifts.morning)]) none
          (Shifts.early 2) ∧
        outcome.1.Shows t' target (Shifts.early 2) Shifts.hour (.obj Shifts.morning) := by
  intro s t target outcome
  have ht : s.tableFor "shift" = .ok t := rfl
  have htarget : s.tableOf Shifts.hour.typeName = .ok target := rfl
  have hargs : (Shifts.creation 2).WellFormed := by
    simp [Shifts.creation, Shifts.connecting, Shifts.morning, Entries.names]
  have hwritten : (Progress.create Shifts.noon ⟨s, 0⟩ "Shift"
      (argument (Shifts.creation 2) "data")).2 = .ok (Shifts.early 2) := by decide +kernel
  have hw : s.Writes Shifts.noon t (Shifts.creation 2) .create none (Shifts.early 2) :=
    .create hwritten
  have hsole := Shifts.soleWriter [("id", .ofNat 2)] (by simp)
  obtain ⟨t', ht', hrow, hshows⟩ := Shifts.reachable_plan.connection_shown_iff
    Shifts.document_wellFormed ht Shifts.owns htarget hargs hw rfl rfl hsole
  refine ⟨Shifts.document_wellFormed, Shifts.reachable_plan, ht, Shifts.owns, htarget, hargs, hw,
    hsole, t', ht', hrow, hshows, ?_⟩
  -- a creation stamps no column
  refine (hshows.connected _ rfl Shifts.scalarKey).mpr fun _ _ hstamps => ?_
  exact absurd hstamps.1 Bool.false_ne_true

/-- The first shift is connected to its hour once more. The update succeeds and stamps the time into
the foreign key, so that the shift has lost its hour. -/
theorem shift_connection_overwritten :
    let s := Shifts.plan
    let t := s.current (Table.empty Shifts.model)
    let target := s.current (Table.empty Shifts.hourModel)
    let args := Json.obj [("where", .obj [("id", .ofNat 1)]),
      ("data", .obj (Shifts.connecting []))]
    let s' := (s.execute Shifts.noon "shift" .update args).1
    let t' := s'.current t
    Reachable Shifts.document s ∧ s.tableFor "shift" = .ok t ∧ t.model.Owns Shifts.hour ∧
      s.tableOf Shifts.hour.typeName = .ok target ∧ args.WellFormed ∧
      s.Writes Shifts.noon t args .update (some ⟨1, Shifts.early 1⟩) (Shifts.late 1) ∧
      t.model.SoleWriter Shifts.hour (Shifts.connecting []) ∧
      Shifts.hour.ScalarKey (.obj Shifts.morning) ∧
      s.readRelation t (Shifts.early 1) Shifts.hour .null = .ok (.obj Shifts.morning) ∧
      s'.tableOf "Shift" = .ok t' ∧ Shifts.late 1 ∈ t'.records ∧
      s'.readRelation t' (Shifts.late 1) Shifts.hour .null = .ok .null ∧
      ¬ s'.Shows t' target (Shifts.late 1) Shifts.hour (.obj Shifts.morning) := by
  intro s t target args s' t'
  have hargs : args.WellFormed := by
    simp [args, Shifts.connecting, Shifts.morning, Entries.names]
  have hfound : t.findRow (args.get? "where") =
      .ok (some (.values [.ofNat 1], ⟨1, Shifts.early 1⟩)) := rfl
  have hwritten : (Progress.update Shifts.noon ⟨s, 0⟩ "Shift" (.values [.ofNat 1])
      ⟨1, Shifts.early 1⟩ (argument args "data")).2 = .ok (Shifts.late 1) := by decide +kernel
  have hbefore : s.readRelation t (Shifts.early 1) Shifts.hour .null =
      .ok (.obj Shifts.morning) := by decide +kernel
  have hafter : s'.readRelation t' (Shifts.late 1) Shifts.hour .null = .ok .null := by
    decide +kernel
  refine ⟨Shifts.reachable_plan, rfl, Shifts.owns, rfl, hargs, .update hfound hwritten,
    Shifts.soleWriter [] (by simp), Shifts.scalarKey, hbefore, by rfl, by decide +kernel, hafter,
    ?_⟩
  rintro ⟨b, -, -, hread⟩
  rw [(hread .null).2] at hafter
  exact project_ne_null s' target b.2.data .null hafter

end Store

end ModelGateway
