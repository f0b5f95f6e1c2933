import ModelGateway.Proofs.Store.Values

/-!
# The counter of a table

What a write does to the counter of a table and to a column that takes its values from it.

* **Creating** (`Draft.fill_numbered`): filling a record moves the counter up only, if the 64-bit
  numbers reach (`Draft.Room`): past every number that is given for an automatic column, and to the
  next number for one that is not given. A column that is not given gets a number that the counter
  had not reached.
* **Updating** (`Store.applyData_countedBy`, `stampUpdated_countedBy`): an update whose data does
  not take a column past the counter (`Model.Reaches`) keeps the value of the column within it.
* **Creations that leave a column alone** (`Store.given?_of_leaves`): data that names neither a
  column nor a relation that is held by it (`Model.Leaves`) gives no value for it.
-/

namespace ModelGateway

/-! ## Counted values -/

/-- A value is counted if it is no number, or a 64-bit whole number that the counter has reached. -/
def Json.CountedBy (value : Json) (counter : Int) : Prop :=
  ∀ x, value = .num x → ∃ n, x.toInt64? = some n ∧ n ≤ counter

/-- A value stays counted while the counter moves up. -/
theorem Json.CountedBy.mono {value : Json} {counter later : Int} (h : value.CountedBy counter)
    (hle : counter ≤ later) : value.CountedBy later := by
  intro x hx
  obtain ⟨n, hn, hcounter⟩ := h x hx
  exact ⟨n, hn, Int.le_trans hcounter hle⟩

/-- A text is counted. -/
theorem Json.countedBy_str (text : String) (counter : Int) : (Json.str text).CountedBy counter := by
  intro x hx
  cases hx

/-! ## Filling a record -/

namespace Draft

variable {supply : Supply} {data connected : Entries Json} {f : Field} {d d' : Draft}

/-- The value that is given for a column, by the data or else by a connection. -/
def given? (data connected : Entries Json) (f : Field) : Option Json :=
  match data.get? f.name with
  | some value => some value
  | none => connected.get? f.name

/-- Whether the value of a column is drawn from the counter. -/
def draws (data connected : Entries Json) (f : Field) : Bool :=
  f.isAutoincrement && !f.isUpdatedAt && (given? data connected f).isNone

/-- The 64-bit numbers reach for the columns that are drawn, counted from the counter and from each
number that is given for an automatic column. -/
structure Room (data connected : Entries Json) (fields : List Field) (counter : Int) : Prop where
  counter : counter + fields.countP (draws data connected) ≤ 9223372036854775807
  given : ∀ f ∈ fields, f.isAutoincrement = true → ∀ n,
    (given? data connected f).bind Json.asInt64? = some n →
    n + fields.countP (draws data connected) ≤ 9223372036854775807

/-- The value of one column. -/
def column (supply : Supply) (data connected : Entries Json) (f : Field) (d : Draft) :
    Draft × Except Fault Json :=
  match given? data connected f with
  | some value => ((d.givenValue f value).1, .ok (d.givenValue f value).2)
  | none => d.absentValue supply f

/-- A record is filled column by column. -/
theorem fill_cons (rest : List Field) (r : Record) :
    fill supply data connected (f :: rest) r d =
      match column supply data connected f d with
      | (d', .ok value) => fill supply data connected rest (Entries.insert r f.name value) d'
      | (d', .error fault) => (d', .error fault) := by
  rw [fill, column]
  change (match given? data connected f with
    | some value => _
    | none => _) = _
  cases given? data connected f with
  | some value => rfl
  | none =>
    dsimp only
    rcases d.absentValue supply f with ⟨d', fault | value⟩ <;> rfl

/-! ### The counter -/

/-- A default value counts on if it is drawn from the counter. -/
theorem counter_defaultValue (supply : Supply) (f : Field) (d : Draft) :
    (d.defaultValue supply f).1.counter =
      if f.isAutoincrement && !f.isUpdatedAt then wrapInt64 (d.counter + 1) else d.counter := by
  unfold defaultValue Field.isAutoincrement
  cases f.isUpdatedAt with
  | true => simp [fresh]
  | false =>
    simp only [Bool.false_eq_true, if_false, Bool.not_false, Bool.and_true]
    split <;> simp_all [fresh, nextNumber]

/-- A column that is drawn gets the next number. -/
theorem defaultValue_of_automatic (supply : Supply) (d : Draft) (hf : f.isAutoincrement = true)
    (hstamp : f.isUpdatedAt = false) : d.defaultValue supply f = d.nextNumber := by
  have hfunction : f.defaultFunction? = some "autoincrement" := eq_of_beq hf
  unfold defaultValue
  rw [hstamp, hfunction]
  rfl

/-- The counter after a column that is not given. -/
theorem counter_absentValue (supply : Supply) (f : Field) (d : Draft) :
    (d.absentValue supply f).1.counter =
      if f.isAutoincrement && !f.isUpdatedAt then wrapInt64 (d.counter + 1) else d.counter := by
  rw [← counter_defaultValue supply f d]
  unfold absentValue
  rcases d.defaultValue supply f with ⟨d', fault | _ | value⟩
  · rfl
  · dsimp only
    split_ifs <;> rfl
  · rfl

/-- A given value leaves the counter, or moves it up to a number. -/
theorem counter_givenValue (f : Field) (value : Json) (d : Draft) :
    (d.givenValue f value).1.counter = d.counter ∨
      ∃ n, f.isAutoincrement = true ∧ value.asInt64? = some n ∧
        (d.givenValue f value).1.counter = max d.counter n := by
  unfold givenValue
  split
  · exact .inl rfl
  · split
    · rename_i n hn
      split_ifs at hn with hf
      exact .inr ⟨n, hf, hn, rfl⟩
    · exact .inl rfl

/-- The next number, if 64 bits hold it. -/
theorem wrapInt64_succ {n : Int} (hn : IsInt64 n) (hroom : n + 1 ≤ 9223372036854775807) :
    wrapInt64 (n + 1) = n + 1 := by
  refine wrapInt64_of_isInt64 ?_
  unfold IsInt64 at hn ⊢
  omega

/-- How one column moves the counter: it counts on if it is drawn, and else stays or moves up to a
number that is given. -/
theorem counter_column (supply : Supply) (hd : IsInt64 d.counter)
    (hroom : draws data connected f = true → d.counter + 1 ≤ 9223372036854775807) :
    (column supply data connected f d).1.counter =
        (if draws data connected f then d.counter + 1 else d.counter) ∨
      draws data connected f = false ∧ f.isAutoincrement = true ∧
        ∃ n, (given? data connected f).bind Json.asInt64? = some n ∧
          (column supply data connected f d).1.counter = max d.counter n := by
  unfold draws at hroom ⊢
  unfold column
  cases hgiven : given? data connected f with
  | none =>
    left
    rw [hgiven, Option.isNone_none, Bool.and_true] at hroom
    dsimp only
    rw [counter_absentValue, Option.isNone_none, Bool.and_true]
    split_ifs with hdraws
    · exact wrapInt64_succ hd (hroom hdraws)
    · rfl
  | some value =>
    simp only [Option.isNone_some, Bool.and_false, Bool.false_eq_true, if_false, true_and]
    rcases counter_givenValue f value d with heq | ⟨n, hf, hn, heq⟩
    · exact .inl heq
    · exact .inr ⟨hf, n, hn, heq⟩

/-- There is room for the other columns after the first one. -/
theorem Room.column {rest : List Field} (h : Room data connected (f :: rest) d.counter)
    (hd : IsInt64 d.counter) (supply : Supply) :
    d.counter ≤ (column supply data connected f d).1.counter ∧
      IsInt64 (column supply data connected f d).1.counter ∧
      Room data connected rest (column supply data connected f d).1.counter := by
  have hcount : (f :: rest).countP (draws data connected) = _ := List.countP_cons
  have hcounter := h.counter
  have hgiven : ∀ g ∈ rest, g.isAutoincrement = true → ∀ n,
      (given? data connected g).bind Json.asInt64? = some n →
      n + rest.countP (draws data connected) ≤ 9223372036854775807 := by
    intro g hg hauto n hn
    have hroom := h.given g (List.mem_cons_of_mem _ hg) hauto n hn
    split_ifs at hcount <;> omega
  have hnext : draws data connected f = true → d.counter + 1 ≤ 9223372036854775807 := by
    intro hdraws
    rw [if_pos hdraws] at hcount
    omega
  rcases counter_column supply hd hnext with heq | ⟨hdraws, hauto, n, hn, heq⟩
  · rw [heq]
    unfold IsInt64 at hd ⊢
    refine ⟨?_, ?_, ?_, hgiven⟩ <;> split_ifs at hcount ⊢ <;> omega
  · have hroom := h.given f List.mem_cons_self hauto n hn
    rw [hdraws] at hcount
    rw [heq]
    unfold IsInt64 at hd ⊢
    refine ⟨?_, ?_, ?_, hgiven⟩ <;> simp only [Bool.false_eq_true, if_false] at hcount <;> omega

/-- Filling a record moves the counter up only, if there is room. -/
theorem le_counter_fill (supply : Supply) {fields : List Field} (r : Record)
    (hd : IsInt64 d.counter) (hroom : Room data connected fields d.counter) :
    d.counter ≤ (fill supply data connected fields r d).1.counter ∧
      IsInt64 (fill supply data connected fields r d).1.counter := by
  induction fields generalizing r d with
  | nil => exact ⟨Int.le_refl _, hd⟩
  | cons f rest ih =>
    obtain ⟨hle, hint, hrest⟩ := hroom.column hd supply
    rw [fill_cons]
    generalize column supply data connected f d = outcome at hle hint hrest
    rcases outcome with ⟨d', fault | value⟩
    · exact ⟨hle, hint⟩
    · obtain ⟨hle', hint'⟩ := ih (Entries.insert r f.name value) hint hrest
      exact ⟨Int.le_trans hle hle', hint'⟩

/-! ### A column that is counted -/

/-- A value is the one given for a column, and a number of it at most the counter; or else it is a
number that the counter has reached since an earlier state. -/
def Numbered (data connected : Entries Json) (f : Field) (before counter : Int) (value : Json) :
    Prop :=
  match given? data connected f with
  | some given => value = given ∧ ∀ n, given.asInt64? = some n → n ≤ counter
  | none => ∃ n, value = .ofInt n ∧ before < n ∧ n ≤ counter

/-- A value stays numbered while the counter moves up. -/
theorem Numbered.mono {before earlier counter later : Int} {value : Json}
    (h : Numbered data connected f before counter value) (hbefore : earlier ≤ before)
    (hcounter : counter ≤ later) : Numbered data connected f earlier later value := by
  unfold Numbered at h ⊢
  cases hgiven : given? data connected f with
  | some given =>
    rw [hgiven] at h
    refine ⟨h.1, ?_⟩
    intro n hn
    exact Int.le_trans (h.2 n hn) hcounter
  | none =>
    rw [hgiven] at h
    obtain ⟨n, hvalue, hlt, hle⟩ := h
    exact ⟨n, hvalue, Int.lt_of_le_of_lt hbefore hlt, Int.le_trans hle hcounter⟩

/-- A field takes its values from the counter: it is automatic, holds single values, is not stamped
with the time of an update, and shares its name with no other of the fields. -/
structure Counts (fields : List Field) (f : Field) : Prop where
  automatic : f.isAutoincrement = true
  notStamped : f.isUpdatedAt = false
  single : f.isList = false
  alone : ∀ g ∈ fields, g.name = f.name → g = f

/-- The value of a counted column is numbered. -/
theorem column_numbered (supply : Supply) {fields rest : List Field} (hf : Counts fields f)
    (hroom : Room data connected (f :: rest) d.counter) (hd : IsInt64 d.counter) :
    ∃ value, (column supply data connected f d).2 = .ok value ∧
      Numbered data connected f d.counter (column supply data connected f d).1.counter value := by
  unfold Numbered column
  cases hgiven : given? data connected f with
  | some given =>
    refine ⟨given, ?_⟩
    unfold givenValue
    rw [hf.single, hf.automatic]
    dsimp only [Bool.false_eq_true, if_false, if_true]
    cases hn : given.asInt64? with
    | none =>
      refine ⟨rfl, rfl, ?_⟩
      intro n hn'
      cases hn'
    | some n =>
      refine ⟨rfl, rfl, ?_⟩
      rintro _ ⟨⟩
      exact Int.le_max_right _ _
  | none =>
    have hdraws : draws data connected f = true := by
      unfold draws
      rw [hf.automatic, hf.notStamped, hgiven]
      rfl
    have hnext : d.counter + 1 ≤ 9223372036854775807 := by
      have hcounter := hroom.counter
      have hcount : (f :: rest).countP (draws data connected) = _ := List.countP_cons
      rw [if_pos hdraws] at hcount
      omega
    have hint : IsInt64 (d.counter + 1) := by
      unfold IsInt64 at hd ⊢
      omega
    refine ⟨.ofInt (d.counter + 1), ?_⟩
    unfold absentValue
    rw [defaultValue_of_automatic supply d hf.automatic hf.notStamped, nextNumber_of_isInt64 hint]
    exact ⟨rfl, d.counter + 1, rfl, Int.lt_succ _, Int.le_refl _⟩

/-- Filling a record numbers a counted column. -/
theorem fill_numbered_of_or {fields : List Field} (hf : Counts fields f) {r r' : Record}
    {before : Int} (hbefore : before ≤ d.counter) (hd : IsInt64 d.counter)
    (hroom : Room data connected fields d.counter)
    (hor : f ∈ fields ∨ Numbered data connected f before d.counter (Record.value r f.name))
    (h : fill supply data connected fields r d = (d', .ok r')) :
    Numbered data connected f before d'.counter (Record.value r' f.name) := by
  induction fields generalizing r d with
  | nil =>
    cases h
    exact hor.resolve_left List.not_mem_nil
  | cons g rest ih =>
    have hrest : Counts rest f := { hf with
      alone := fun g hg => hf.alone g (List.mem_cons_of_mem _ hg) }
    obtain ⟨hle, hint, hroom'⟩ := hroom.column hd supply
    rw [fill_cons] at h
    by_cases hname : g.name = f.name
    · -- the counted column itself
      obtain rfl := hf.alone g List.mem_cons_self hname
      obtain ⟨value, hvalue, hnumbered⟩ := column_numbered supply hf hroom hd
      generalize column supply data connected g d = outcome at h hle hint hroom' hvalue hnumbered
      rcases outcome with ⟨d₁, fault | value'⟩
      · cases h
      · cases hvalue
        refine ih hrest (Int.le_trans hbefore hle) hint hroom' (.inr ?_) h
        rw [Record.value, Entries.get?_insert_self]
        exact hnumbered.mono hbefore (Int.le_refl _)
    · -- another column leaves it alone
      generalize column supply data connected g d = outcome at h hle hint hroom'
      rcases outcome with ⟨d₁, fault | value⟩
      · cases h
      · refine ih hrest (Int.le_trans hbefore hle) hint hroom' ?_ h
        rcases hor with hmem | hnumbered
        · refine .inl ((List.mem_cons.mp hmem).resolve_left ?_)
          rintro rfl
          exact hname rfl
        · right
          rw [Record.value, Entries.get?_insert_of_ne _ _ (Ne.symm hname)]
          exact hnumbered.mono (Int.le_refl _) hle

/-- Filling a record from nothing numbers a counted column. -/
theorem fill_numbered {fields : List Field} (hf : Counts fields f) (hmem : f ∈ fields)
    {r r' : Record} (hd : IsInt64 d.counter) (hroom : Room data connected fields d.counter)
    (h : fill supply data connected fields r d = (d', .ok r')) :
    Numbered data connected f d.counter d'.counter (Record.value r' f.name) :=
  fill_numbered_of_or hf (Int.le_refl _) hd hroom (.inl hmem) h

end Draft

/-! ## Columns that a write leaves alone -/

/-- The data of a write names neither a column nor a relation that is held by it. -/
def Model.Leaves (m : Model) (column : String) (data : Entries Json) : Prop :=
  ∀ e ∈ data, e.1 ≠ column ∧
    ∀ f ∈ m.fields, f.name = e.1 → f.isRelation = true → column ∉ f.fromFields

/-- The data of an update names no relation that is held by a column, and gives the column, if at
all, a value that the counter has reached, and no operation. -/
def Model.Reaches (m : Model) (column : String) (counter : Int) (data : Entries Json) : Prop :=
  ∀ e ∈ data, (e.1 = column → e.2.isObject = false ∧ e.2.CountedBy counter) ∧
    ∀ f ∈ m.fields, f.name = e.1 → f.isRelation = true → column ∉ f.fromFields

namespace Store

variable {s : Store} {m : Model} {column : String} {data : Entries Json}

/-- A relation argument sets columns of its foreign key. -/
theorem mem_fromFields_of_foreignKey {field : Field} {argument : Json}
    {columns : List (String × Json)} (h : s.foreignKey field argument = .ok columns) :
    ∀ c ∈ columns, c.1 ∈ field.fromFields := by
  intro c hc
  cases keySet_of_foreignKey h with
  | connect =>
    obtain ⟨p, hp, rfl⟩ := List.mem_map.mp hc
    exact (List.of_mem_zip hp).1
  | disconnect =>
    obtain ⟨name, hname, rfl⟩ := List.mem_map.mp hc
    exact hname

/-- The relation arguments of a creation set columns of the foreign keys that they name. -/
theorem exists_field_of_foreignKeys :
    {fields : List Field} → {columns : Entries Json} → s.foreignKeys data fields = .ok columns →
    ∀ c ∈ columns, ∃ f ∈ fields, (∃ argument, (f.name, argument) ∈ data) ∧ c.1 ∈ f.fromFields
  | [], _, h => by
    cases h
    intro c hc
    exact absurd hc List.not_mem_nil
  | field :: rest, _, h => by
    have hlater : ∀ {columns : Entries Json}, s.foreignKeys data rest = .ok columns →
        ∀ c ∈ columns, ∃ f ∈ field :: rest,
          (∃ argument, (f.name, argument) ∈ data) ∧ c.1 ∈ f.fromFields := by
      intro columns hcolumns c hc
      obtain ⟨f, hf, hc⟩ := exists_field_of_foreignKeys hcolumns c hc
      exact ⟨f, List.mem_cons_of_mem _ hf, hc⟩
    rw [foreignKeys] at h
    split at h
    · exact hlater h
    · rename_i argument hargument
      obtain ⟨columns, hcolumns, h⟩ := Except.bind_eq_ok_iff.mp h
      obtain ⟨more, hmore, h⟩ := Except.bind_eq_ok_iff.mp h
      cases h
      intro c hc
      rcases List.mem_append.mp hc with hc | hc
      · exact ⟨field, List.mem_cons_self, ⟨argument, Entries.mem_of_get?_eq_some hargument⟩,
          mem_fromFields_of_foreignKey hcolumns c hc⟩
      · exact hlater hmore c hc

/-- A creation whose data leaves a column alone gives no value for it. -/
theorem given?_of_leaves {f : Field} (hleaves : m.Leaves f.name data) {pairs : Entries Json}
    (h : s.foreignKeys data m.relationFields = .ok pairs) :
    Draft.given? data (Entries.ofList pairs) f = none := by
  have hdata : Entries.get? data f.name = none := by
    cases hget : Entries.get? data f.name with
    | none => rfl
    | some value => exact absurd rfl (hleaves _ (Entries.mem_of_get?_eq_some hget)).1
  unfold Draft.given?
  rw [hdata]
  dsimp only
  cases hget : Entries.get? (Entries.ofList pairs) f.name with
  | none => rfl
  | some value =>
    have hmem := Entries.mem_ofList (Entries.mem_of_get?_eq_some hget)
    obtain ⟨g, hg, ⟨argument, hargument⟩, hcolumn⟩ := exists_field_of_foreignKeys h _ hmem
    obtain ⟨hg, hrelation⟩ := List.mem_filter.mp hg
    exact absurd hcolumn ((hleaves _ hargument).2 g hg rfl hrelation)

/-- An update whose data does not take a column past the counter keeps its value counted. -/
theorem applyData_countedBy {counter : Int} :
    {data : Entries Json} → m.Reaches column counter data → {r r' : Record} →
    (Record.value r column).CountedBy counter → s.applyData m data r = .ok r' →
    (Record.value r' column).CountedBy counter
  | [], _, _, _, hr, h => by
    cases h
    exact hr
  | (name, value) :: rest, hreaches, r, r', hr, h => by
    obtain ⟨hentry, hrest⟩ := List.forall_mem_cons.mp hreaches
    have hinsert : ∀ next : Json, (name = column → next.CountedBy counter) →
        (Record.value (Entries.insert r name next) column).CountedBy counter := by
      intro next hnext
      rw [Record.value, Entries.get?_insert]
      split_ifs with hname
      · exact hnext hname.symm
      · exact hr
    rw [applyData] at h
    split at h
    · cases h
    · rename_i f hf
      obtain ⟨hmem, hname⟩ : f ∈ m.fields ∧ f.name = name := by
        refine ⟨List.mem_of_find?_eq_some hf, ?_⟩
        simpa using List.find?_some hf
      split at h
      · -- a relation that is held by other columns
        rename_i hrelation
        obtain ⟨columns, hcolumns, h⟩ := Except.bind_eq_ok_iff.mp h
        refine applyData_countedBy hrest ?_ h
        have hnone : Entries.get? columns.reverse column = none := by
          cases hget : Entries.get? columns.reverse column with
          | none => rfl
          | some next =>
            have hc := List.mem_reverse.mp (Entries.mem_of_get?_eq_some hget)
            exact absurd (mem_fromFields_of_foreignKey hcolumns _ hc)
              (hentry.2 f hmem hname hrelation)
        rw [Record.value, Entries.get?_extend, hnone, Option.none_or]
        exact hr
      · split at h
        · -- an object is given to another column
          have hother : name ≠ column := by
            intro heq
            cases (hentry.1 heq).1
          split at h
          · exact applyData_countedBy hrest (hinsert _ fun heq => absurd heq hother) h
          · obtain ⟨next, -, h⟩ := Except.bind_eq_ok_iff.mp h
            exact applyData_countedBy hrest (hinsert next fun heq => absurd heq hother) h
        · exact applyData_countedBy hrest (hinsert value fun heq => (hentry.1 heq).2) h

end Store

/-- Stamping the time of an update keeps the value of a column counted. -/
theorem stampUpdated_countedBy (supply : Supply) (data : Entries Json) {column : String}
    {counter : Int} :
    (fields : List Field) → {r : Record} → (drawn : Nat) →
    (Record.value r column).CountedBy counter →
    (Record.value (stampUpdated supply data fields r drawn).2 column).CountedBy counter
  | [], _, _, hr => hr
  | f :: rest, r, drawn, hr => by
    rw [stampUpdated]
    split_ifs
    · refine stampUpdated_countedBy supply data rest (drawn + 1) ?_
      rw [Record.value, Entries.get?_insert]
      split_ifs
      · exact Json.countedBy_str _ _
      · exact hr
    · exact stampUpdated_countedBy supply data rest drawn hr

end ModelGateway
