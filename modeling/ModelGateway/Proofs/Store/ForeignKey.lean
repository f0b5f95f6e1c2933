import ModelGateway.Proofs.Schema.RecordKey
import ModelGateway.Proofs.Store.Frame

/-!
# Foreign keys that a write stores

What a write leaves in the foreign key of a relation that its data connects or disconnects.

* **Relation arguments** (`Store.exists_row_of_foreignKey`, `Store.get?_foreignKey_pair`): a
  connection is accepted if a row of the other model has the values that it gives, and sets each
  column of the key to the value of the column that it refers to. A disconnection sets them to null.
* **Writes** (`Store.Writes.links`): a creation stores these values. An update applies them and then
  stamps the time of the update. A column of the key that holds this time is stamped although the
  data has set it, since the data does not name it (`Model.Stamps`).
-/

namespace ModelGateway

/-! ## Relations that hold a key -/

/-- A row has the values that a key gives for the columns that a foreign key refers to. -/
def Field.HasKey (f : Field) (key : Json) (b : Record) : Prop :=
  ∀ column ∈ f.toFields, ∃ value, keyPart? key column = some value ∧
    valuesEqual (Record.value b column) value = true

/-- The value that a relation argument gives for a column that the foreign key refers to. -/
def linkedValue (argument : Json) (referred : String) : Json :=
  match argument.get? "connect" with
  | some key => (keyPart? key referred).getD .null
  | none => .null

namespace Model

/-- A single relation to another model, of which the field holds the foreign key: in columns that
differ, each with the column that it refers to. -/
structure Owns (m : Model) (f : Field) : Prop where
  names_nodup : (m.fields.map (·.name)).Nodup
  declared : f ∈ m.fields
  relation : f.isRelation = true
  single : f.isList = false
  other : f.typeName ≠ m.name
  from_given : f.fromFields ≠ []
  lengths : f.fromFields.length = f.toFields.length
  from_nodup : f.fromFields.Nodup
  columns : ∀ column ∈ f.fromFields, ∃ g ∈ m.fields, g.name = column ∧ g.isRelation = false

/-- Of the entries of some data only the one of a relation writes columns of its foreign key. -/
def SoleWriter (m : Model) (f : Field) (data : Entries Json) : Prop :=
  ∀ entry ∈ data, entry.1 ≠ f.name → ∀ column ∈ f.fromFields, ¬ m.Writes column entry

/-- A write stamps a column if its data does not name it: an update stamps the columns that hold the
time of the last update, and a creation none. -/
def Stamps (m : Model) (old : Option Row) (column : String) : Prop :=
  old.isSome = true ∧ ∃ g ∈ m.fields, g.isUpdatedAt = true ∧ g.name = column

/-- What a write with an argument of a relation has stored in the foreign key: an instant of the
supply in columns that it stamps, and else what the argument gives, other than objects. -/
structure Links (m : Model) (supply : Supply) (f : Field) (change : Json) (old : Option Row)
    (r : Record) : Prop where
  kept : ∀ p ∈ f.fromFields.zip f.toFields, ¬ m.Stamps old p.1 →
    (linkedValue change p.2).isObject = false → Record.value r p.1 = linkedValue change p.2
  stamped : ∀ p ∈ f.fromFields.zip f.toFields, m.Stamps old p.1 →
    ∃ n, Record.value r p.1 = .str (supply.instant n)

namespace Owns

variable {m : Model} {f : Field} {data : Entries Json} {column : String}

/-- A column of the foreign key is a declared one. -/
theorem exists_column (h : m.Owns f) (hc : column ∈ f.fromFields) :
    ∃ g ∈ m.scalarFields, g.name = column ∧ m.field? column = some g := by
  obtain ⟨g, hg, rfl, hscalar⟩ := h.columns column hc
  refine ⟨g, List.mem_filter.mpr ⟨hg, by simp [hscalar]⟩, rfl, ?_⟩
  exact field?_eq_some_of_mem h.names_nodup hg

/-- Every column of the foreign key refers to a column of the other model. -/
theorem map_fst (h : m.Owns f) : (f.fromFields.zip f.toFields).map (·.1) = f.fromFields :=
  List.map_fst_zip (Nat.le_of_eq h.lengths)

/-- Every column that the foreign key refers to belongs to one of its own. -/
theorem map_snd (h : m.Owns f) : (f.fromFields.zip f.toFields).map (·.2) = f.toFields :=
  List.map_snd_zip (Nat.le_of_eq h.lengths.symm)

/-- Data whose columns of the foreign key are set by the relation alone does not name them. -/
theorem get?_eq_none (h : m.Owns f) (hsole : m.SoleWriter f data) (hc : column ∈ f.fromFields) :
    Entries.get? data column = none := by
  obtain ⟨g, hg, hname, hfound⟩ := h.exists_column hc
  obtain ⟨hg, hscalar⟩ := List.mem_filter.mp hg
  rw [Entries.get?_eq_none_iff]
  intro hmem
  obtain ⟨entry, hentry, rfl⟩ := List.mem_map.mp hmem
  -- the relation has another name than its columns
  have hne : entry.1 ≠ f.name := by
    intro heq
    obtain rfl : g = f :=
      List.inj_on_of_nodup_map h.names_nodup hg h.declared (hname.trans heq)
    simp [h.relation] at hscalar
  refine hsole entry hentry hne entry.1 hc ⟨g, hfound, ?_⟩
  rw [if_neg (by simpa using hscalar)]

end Owns

end Model

/-! ## Relation arguments -/

namespace Store

variable {s : Store} {m : Model} {f : Field} {change : Json} {columns : List (String × Json)}

/-- A relation argument sets each column of the foreign key to what it gives for the column that
this one refers to. -/
theorem get?_foreignKey_pair (hf : m.Owns f) (h : s.foreignKey f change = .ok columns)
    {p : String × String} (hp : p ∈ f.fromFields.zip f.toFields) :
    Entries.get? columns.reverse p.1 = some (linkedValue change p.2) := by
  have hcolumns : columns =
      (f.fromFields.zip f.toFields).map fun p => (p.1, linkedValue change p.2) := by
    cases keySet_of_foreignKey h with
    | connect given => simp only [linkedValue, given]
    | disconnect absent =>
      simp only [linkedValue, absent]
      conv_lhs => rw [← hf.map_fst, List.map_map]
      rfl
  have hnames : Entries.names columns.reverse = f.fromFields.reverse := by
    rw [Entries.names, List.map_reverse, hcolumns, List.map_map]
    exact congrArg List.reverse hf.map_fst
  have hnodup : (Entries.names columns.reverse).Nodup := by
    rw [hnames]
    exact List.nodup_reverse.mpr hf.from_nodup
  rw [Entries.get?_eq_some_iff_mem hnodup, List.mem_reverse, hcolumns]
  exact List.mem_map_of_mem hp

/-- A connection is accepted only if a row of the other model has the values that it gives. -/
theorem exists_row_of_foreignKey (hf : m.Owns f) (h : s.foreignKey f change = .ok columns)
    {key : Json} (hkey : change.get? "connect" = some key) {target : Table}
    (htarget : s.tableOf f.typeName = .ok target) :
    ∃ b ∈ target.rows, f.HasKey key b.2.data := by
  cases keySet_of_foreignKey h with
  | @connect key' target' given found parts exist =>
    obtain rfl : key' = key := Option.some.inj (given.symm.trans hkey)
    obtain rfl : target' = target := Except.ok.inj (found.symm.trans htarget)
    obtain ⟨r, hr, hmatches⟩ := List.any_eq_true.mp exist
    obtain ⟨b, hb, rfl⟩ := List.mem_map.mp hr
    refine ⟨b, hb, fun column hc => ?_⟩
    obtain ⟨p, hp, rfl⟩ : ∃ p ∈ f.fromFields.zip f.toFields, p.2 = column := by
      rwa [← hf.map_snd, List.mem_map] at hc
    obtain ⟨value, hvalue⟩ := Option.isSome_iff_exists.mp (parts p hp)
    refine ⟨value, hvalue, ?_⟩
    rw [Filter.allEqual, Filter.matches, Filter.matchesAll_eq_all, List.map_map, List.all_map,
      List.all_eq_true] at hmatches
    have hp := hmatches p hp
    rwa [Function.comp_apply, Function.comp_apply, Filter.matches_equals, hvalue] at hp
  | disconnect absent =>
    rw [absent] at hkey
    cases hkey

/-! ## Creating -/

variable {data : Entries Json} {column : String}

/-- The relation arguments of a creation leave a column alone that none of them sets. -/
theorem get?_foreignKeys_eq_none {fields : List Field} {pairs : Entries Json}
    (h : s.foreignKeys data fields = .ok pairs)
    (hnot : ∀ g ∈ fields, ∀ argument, Entries.get? data g.name = some argument →
      column ∉ g.keyColumns argument) :
    Entries.get? pairs.reverse column = none := by
  induction fields generalizing pairs with
  | nil =>
    cases h
    rfl
  | cons g rest ih =>
    obtain ⟨hg, hrest⟩ := List.forall_mem_cons.mp hnot
    rw [foreignKeys] at h
    split at h
    · exact ih h hrest
    · rename_i argument hargument
      obtain ⟨columns, hcolumns, h⟩ := Except.bind_eq_ok_iff.mp h
      obtain ⟨more, hmore, h⟩ := Except.bind_eq_ok_iff.mp h
      cases h
      rw [List.reverse_append, Entries.get?_append, ih hmore hrest, Option.none_or]
      exact (get?_foreignKey hcolumns column).1.mpr (hg argument hargument)

/-- The relation arguments of a creation set a column as the only one among them does that sets
it. -/
theorem get?_foreignKeys {fields : List Field} {pairs : Entries Json}
    (h : s.foreignKeys data fields = .ok pairs) (hnodup : fields.Nodup) (hf : f ∈ fields)
    (hchange : Entries.get? data f.name = some change)
    (hnot : ∀ g ∈ fields, g ≠ f → ∀ argument, Entries.get? data g.name = some argument →
      column ∉ g.keyColumns argument) :
    ∃ columns, s.foreignKey f change = .ok columns ∧
      Entries.get? pairs.reverse column = Entries.get? columns.reverse column := by
  induction fields generalizing pairs with
  | nil => exact absurd hf List.not_mem_nil
  | cons g rest ih =>
    obtain ⟨hg, hrest⟩ := List.forall_mem_cons.mp hnot
    obtain ⟨hnew, hnodup⟩ := List.nodup_cons.mp hnodup
    rw [foreignKeys] at h
    rcases List.mem_cons.mp hf with rfl | hmem
    · rw [hchange] at h
      obtain ⟨columns, hcolumns, h⟩ := Except.bind_eq_ok_iff.mp h
      obtain ⟨more, hmore, h⟩ := Except.bind_eq_ok_iff.mp h
      cases h
      have hnone : Entries.get? more.reverse column = none := by
        apply get?_foreignKeys_eq_none hmore
        intro g hg
        exact hrest g hg fun heq => hnew (heq ▸ hg)
      refine ⟨columns, hcolumns, ?_⟩
      rw [List.reverse_append, Entries.get?_append, hnone, Option.none_or]
    · split at h
      · exact ih h hnodup hmem hrest
      · rename_i argument hargument
        obtain ⟨columns, hcolumns, h⟩ := Except.bind_eq_ok_iff.mp h
        obtain ⟨more, hmore, h⟩ := Except.bind_eq_ok_iff.mp h
        cases h
        have hne : g ≠ f := fun heq => hnew (heq ▸ hmem)
        obtain ⟨linked, hlinked, hget⟩ := ih hmore hnodup hmem hrest
        refine ⟨linked, hlinked, ?_⟩
        rw [List.reverse_append, Entries.get?_append, hget,
          (get?_foreignKey hcolumns column).1.mpr (hg hne argument hargument), Option.or_none]

end Store

namespace Draft

variable {supply : Supply} {data connected : Entries Json} {d d' : Draft} {r r' : Record}

/-- A value that is given for a column is stored, if it is no object. -/
theorem get?_fill {fields : List Field} {f : Field} {value : Json}
    (h : fill supply data connected fields r d = (d', .ok r'))
    (hnodup : (fields.map (·.name)).Nodup) (hf : f ∈ fields)
    (hgiven : given? data connected f = some value) (hvalue : value.isObject = false) :
    Entries.get? r' f.name = some value := by
  have htaken : f.taken value = value := by
    cases value with
    | obj => cases hvalue
    | _ => simp [Field.taken, Json.get?]
  rw [get?_fill_given h hnodup hf hgiven, htaken]

end Draft

/-- A creation stores in the foreign key what the argument of the relation gives. -/
theorem Progress.Filling.links {supply : Supply} {p : Progress} {t : Table}
    {data : Entries Json} {draft : Draft} {r : Record} {f : Field} {change : Json}
    (h : Filling supply p t data draft (.ok r)) (hf : t.model.Owns f)
    (hchange : Entries.get? data f.name = some change) (hsole : t.model.SoleWriter f data) :
    (∃ columns, p.store.foreignKey f change = .ok columns) ∧
      t.model.Links supply f change none r := by
  obtain ⟨pairs, hpairs, hfill⟩ := h.filled_eq
  have hrelation : f ∈ t.model.relationFields := List.mem_filter.mpr ⟨hf.declared, hf.relation⟩
  have hnodup : t.model.relationFields.Nodup := hf.names_nodup.of_map.filter _
  have hscalars : (t.model.scalarFields.map (·.name)).Nodup :=
    hf.names_nodup.sublist (List.filter_sublist.map _)
  have hset : ∀ column ∈ f.fromFields, ∃ columns, p.store.foreignKey f change = .ok columns ∧
      Entries.get? pairs.reverse column = Entries.get? columns.reverse column := by
    intro column hc
    apply Store.get?_foreignKeys hpairs hnodup hrelation hchange
    intro g hg hne argument hargument hmem
    obtain ⟨hg, hgrelation⟩ := List.mem_filter.mp hg
    have hname : g.name ≠ f.name := fun heq =>
      hne (List.inj_on_of_nodup_map hf.names_nodup hg hf.declared heq)
    refine hsole _ (Entries.mem_of_get?_eq_some hargument) hname column hc ⟨g, ?_, ?_⟩
    · exact Model.field?_eq_some_of_mem hf.names_nodup hg
    · rwa [if_pos hgrelation]
  obtain ⟨first, hfirst⟩ := List.exists_mem_of_ne_nil _ hf.from_given
  obtain ⟨columns, hcolumns, -⟩ := hset first hfirst
  refine ⟨⟨columns, hcolumns⟩, ⟨fun pair hpair _ hplain => ?_, fun _ _ hstamps => ?_⟩⟩
  · have hc := (List.of_mem_zip hpair).1
    obtain ⟨g, hg, hname, -⟩ := hf.exists_column hc
    obtain ⟨columns', hcolumns', hget⟩ := hset pair.1 hc
    have hgiven :
        Draft.given? data (Entries.ofList pairs) g = some (linkedValue change pair.2) := by
      rw [Draft.given?, hname, hf.get?_eq_none hsole hc]
      dsimp only
      rw [Entries.get?_ofList, hget, Store.get?_foreignKey_pair hf hcolumns' hpair]
    rw [Record.value, ← hname, Draft.get?_fill hfill hscalars hg hgiven hplain, Option.getD_some]
  · exact absurd hstamps.1 Bool.false_ne_true

/-! ## Updating -/

namespace Store

variable {s : Store} {m : Model} {f : Field} {change : Json} {data : Entries Json}
variable {r r' : Record}

/-- The entry of a relation leaves in the foreign key what its argument gives, since no other entry
writes there. -/
theorem get?_applyData_linked (hf : m.Owns f) (h : s.applyData m data r = .ok r')
    (hnodup : (Entries.names data).Nodup) (hchange : Entries.get? data f.name = some change)
    (hsole : m.SoleWriter f data) :
    (∃ columns, s.foreignKey f change = .ok columns) ∧
      ∀ p ∈ f.fromFields.zip f.toFields,
        Entries.get? r' p.1 = some (linkedValue change p.2) := by
  obtain ⟨before, after, q, q', rfl, -, happlied, hafter⟩ :=
    exists_applyEntry_of_mem h (Entries.mem_of_get?_eq_some hchange)
  rw [applyEntry, Model.field?_eq_some_of_mem hf.names_nodup hf.declared] at happlied
  dsimp only at happlied
  rw [if_pos hf.relation] at happlied
  obtain ⟨columns, hcolumns, rfl⟩ := Except.map_eq_ok_iff.mp happlied
  refine ⟨⟨columns, hcolumns⟩, fun p hp => ?_⟩
  have hkept : ∀ entry ∈ after, ¬ m.Writes p.1 entry := by
    intro entry hentry
    have hother : entry.1 ≠ f.name := by
      intro heq
      rw [Entries.names, List.map_append, List.map_cons] at hnodup
      have hnew := (List.nodup_cons.mp (List.nodup_append.mp hnodup).2.1).1
      have hmem : entry.1 ∈ Entries.names after := Entries.name_mem_names hentry
      rw [heq] at hmem
      exact hnew hmem
    refine hsole entry ?_ hother p.1 (List.of_mem_zip hp).1
    exact List.mem_append_right _ (List.mem_cons_of_mem _ hentry)
  rw [get?_applyData hafter hkept, Entries.get?_extend, get?_foreignKey_pair hf hcolumns hp,
    Option.some_or]

end Store

/-- Stamping the time of an update leaves an instant in a column that it stamps, or that had one. -/
theorem exists_instant_of_stampUpdated (supply : Supply) {data : Entries Json}
    {fields : List Field} {r : Record} (drawn : Nat) {column : String}
    (h : ((∃ g ∈ fields, g.isUpdatedAt = true ∧ g.name = column) ∧
        Entries.get? data column = none) ∨
      ∃ n, Entries.get? r column = some (.str (supply.instant n))) :
    ∃ n, Entries.get? (stampUpdated supply data fields r drawn).2 column =
      some (.str (supply.instant n)) := by
  induction fields generalizing r drawn with
  | nil =>
    rcases h with ⟨⟨g, hg, -⟩, -⟩ | h
    · exact absurd hg List.not_mem_nil
    · exact h
  | cons f rest ih =>
    rw [stampUpdated]
    split_ifs with hstamps
    · apply ih
      by_cases hname : column = f.name
      · exact .inr ⟨drawn, by rw [hname, Entries.get?_insert_self]⟩
      · rw [Entries.get?_insert_of_ne _ _ hname]
        refine h.imp_left ?_
        rintro ⟨⟨g, hg, hupdated, rfl⟩, habsent⟩
        rcases List.mem_cons.mp hg with rfl | hg
        · exact absurd rfl hname
        · exact ⟨⟨g, hg, hupdated, rfl⟩, habsent⟩
    · apply ih
      refine h.imp_left ?_
      rintro ⟨⟨g, hg, hupdated, rfl⟩, habsent⟩
      rcases List.mem_cons.mp hg with rfl | hg
      · simp [hupdated, Entries.contains, habsent] at hstamps
      · exact ⟨⟨g, hg, hupdated, rfl⟩, habsent⟩

/-- An update stores in the foreign key what the argument of the relation gives, and then stamps it.
-/
theorem Progress.Rewriting.links {supply : Supply} {p : Progress} {t : Table} {row : Row}
    {data : Entries Json} {drawn : Nat} {r : Record} {f : Field} {change : Json}
    (h : Rewriting supply p t row data drawn r) (hf : t.model.Owns f)
    (hnodup : (Entries.names data).Nodup) (hchange : Entries.get? data f.name = some change)
    (hsole : t.model.SoleWriter f data) :
    (∃ columns, p.store.foreignKey f change = .ok columns) ∧
      t.model.Links supply f change (some row) r := by
  obtain ⟨applied, happlied, hstamped⟩ := h.rewritten
  obtain ⟨hcolumns, hlinked⟩ := Store.get?_applyData_linked hf happlied hnodup hchange hsole
  obtain rfl : (stampUpdated supply data t.model.fields applied p.drawn).2 = r :=
    congrArg Prod.snd hstamped
  refine ⟨hcolumns, ⟨fun pair hpair hnot _ => ?_, fun pair hpair hstamps => ?_⟩⟩
  · have hkept : ¬ t.model.Clocked data pair.1 := fun hclocked => hnot ⟨rfl, hclocked.2⟩
    rw [Record.value, get?_stampUpdated supply hkept, hlinked pair hpair, Option.getD_some]
  · have habsent := hf.get?_eq_none hsole (List.of_mem_zip hpair).1
    obtain ⟨n, hn⟩ := exists_instant_of_stampUpdated supply (r := applied) p.drawn
      (.inl ⟨hstamps.2, habsent⟩)
    exact ⟨n, by rw [Record.value, hn, Option.getD_some]⟩

/-! ## Writes -/

namespace Store

variable {s : Store} {t : Table} {supply : Supply} {args : Json} {op : Operation}
  {old : Option Row} {r : Record}

/-- The argument that holds the data of a write, which replaces a row or none. -/
def writeArgument (op : Operation) : Option Row → String
  | none => createArgument op
  | some _ => updateArgument op

/-- The data of a well-formed call names each column once. -/
theorem nodup_names_of_argument (hargs : args.WellFormed) {name : String} {data : Entries Json}
    (hdata : argument args name = .obj data) : data.names.Nodup := by
  have hwellFormed := argument_wellFormed hargs name
  rw [hdata] at hwellFormed
  exact (Json.wellFormed_obj.mp hwellFormed).1

/-- A write with an argument of a relation that it accepts stores the foreign key, and replaces one
table. -/
theorem Writes.links (hw : s.Writes supply t args op old r)
    (found : s.tableOf t.model.name = .ok t) (hargs : args.WellFormed) {f : Field}
    (hf : t.model.Owns f) {data : Entries Json}
    (hdata : argument args (writeArgument op old) = .obj data) {change : Json}
    (hchange : Entries.get? data f.name = some change) (hsole : t.model.SoleWriter f data) :
    (∃ columns, s.foreignKey f change = .ok columns) ∧ t.model.Links supply f change old r ∧
      ∃ t', t'.model = t.model ∧ (s.executeOn supply t op args).1 = s.setTable t' := by
  have hnodup := nodup_names_of_argument hargs hdata
  cases old with
  | none =>
    obtain ⟨hr, hstore⟩ := hw.created
    obtain ⟨t', entries, draft, hobject, hfilling, hmodel, hset⟩ :=
      Progress.exists_stored_of_create found hr
    cases hobject.symm.trans hdata
    obtain ⟨hcolumns, hlinks⟩ := hfilling.links hf hchange hsole
    exact ⟨hcolumns, hlinks, t', hmodel, hstore.trans hset⟩
  | some row =>
    obtain ⟨key, -, hr, hstore⟩ := hw.exists_update
    obtain ⟨t', entries, drawn, hobject, hrewriting, hstored, hset⟩ :=
      Progress.exists_stored_of_update found hr
    cases hobject.symm.trans hdata
    obtain ⟨hcolumns, hlinks⟩ := hrewriting.links hf hnodup hchange hsole
    exact ⟨hcolumns, hlinks, t', (Table.store_frame hstored).1, hstore.trans hset⟩

end Store

end ModelGateway
