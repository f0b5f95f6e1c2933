import ModelGateway.Proofs.Store.Numbering

/-!
# Nulls that a write stores

When exactly a write leaves a column of its record null.

* **Creating** (`Draft.fill_value_eq_null_iff`): the last column of a name decides. It is null if
  the data or a connection gives it null (`Draft.Nulls`), or if nothing gives a value for it and it
  may be null. A missing value of a required column is no way to a null, since the creation fails.
* **Updating** (`Store.applyData_value_eq_null_iff`): the last entry of the data that writes a
  column decides (`Store.Clears`). It sets the column to null by a plain value, by `set`, by
  arithmetic beyond the doubles, by a disconnection, or by a connection whose key has a null
  (`Model.Nulls`). Without such an entry the column keeps its value. What one entry makes of a
  record is said by `Store.Applied`.
-/

namespace ModelGateway

/-! ## Creating -/

/-- The supply or the counter gives a value for the column if nothing else does. -/
def Field.Generated (f : Field) : Prop :=
  f.isUpdatedAt = true ∨
    f.defaultFunction? ∈ [some "autoincrement", some "uuid", some "cuid", some "now"]

/-- The value that a creation stores in a column for the one that is given: a list may be wrapped in
`set`. -/
def Field.taken (f : Field) (value : Json) : Json :=
  (if f.isList then value.get? "set" else none).getD value

namespace Draft

variable {supply : Supply} {data connected : Entries Json} {f : Field} {d d' : Draft} {value : Json}

/-- A number that the counter gives is not null. -/
theorem exists_of_nextNumber {value? : Option Json} (h : d.nextNumber = (d', .ok value?)) :
    ∃ value, value? = some value ∧ value ≠ .null := by
  by_cases hnext : IsInt64 (d.counter + 1)
  · rw [nextNumber_of_isInt64 hnext] at h
    cases h
    exact ⟨_, rfl, Json.ofInt_ne_null hnext⟩
  · rw [nextNumber_of_not_isInt64 hnext] at h
    cases h

/-- A text that the supply gives is not null. -/
theorem exists_of_fresh {texts : Nat → String} {value? : Option Json}
    (h : d.fresh texts = (d', .ok value?)) : ∃ value, value? = some value ∧ value ≠ .null := by
  cases h
  exact ⟨_, rfl, Json.noConfusion⟩

/-- A generated default is a value and not null, unless the program panics. -/
theorem exists_defaultValue_of_generated (hf : f.Generated) {value? : Option Json}
    (h : d.defaultValue supply f = (d', .ok value?)) :
    ∃ value, value? = some value ∧ value ≠ .null := by
  unfold defaultValue at h
  split_ifs at h with hstamp
  · exact exists_of_fresh h
  · have hfunction := hf.resolve_left hstamp
    simp only [List.mem_cons, List.not_mem_nil, or_false] at hfunction
    rcases hfunction with hf | hf | hf | hf
    · rw [hf] at h
      exact exists_of_nextNumber h
    all_goals
      rw [hf] at h
      exact exists_of_fresh h

/-- A default that is not generated is the one that the field declares, unless that is an object. -/
theorem defaultValue_of_not_generated (h : ¬ f.Generated) (d : Draft) :
    (d.defaultValue supply f).2 = .ok (f.default.filter (!·.isObject)) := by
  obtain ⟨hstamp, hfunction⟩ := not_or.mp h
  -- a function is named by an object
  have hobject : ∀ name, f.defaultFunction? = some name →
      f.default.filter (!·.isObject) = none := by
    intro name hname
    obtain ⟨default, hdefault, hname⟩ := Option.bind_eq_some_iff.mp hname
    obtain ⟨value, hvalue, -⟩ := Option.bind_eq_some_iff.mp hname
    rw [hdefault]
    cases default with
    | obj entries => rfl
    | _ => cases hvalue
  unfold defaultValue
  rw [if_neg hstamp]
  split
  case h_6 => rfl
  case h_5 name _ _ _ _ hname => exact congrArg Except.ok (hobject name hname).symm
  all_goals
    rename_i hname
    exact absurd (by simp [hname]) hfunction

/-- A default is null if it is declared so and not generated. -/
theorem defaultValue_eq_null_iff (d : Draft) :
    (d.defaultValue supply f).2 = .ok (some .null) ↔
      ¬ f.Generated ∧ f.default = some .null := by
  by_cases hgenerated : f.Generated
  · refine iff_of_false ?_ fun h => h.1 hgenerated
    intro hnull
    obtain ⟨value, hvalue, hne⟩ :=
      exists_defaultValue_of_generated hgenerated (Prod.ext rfl hnull)
    exact hne (Option.some.inj hvalue).symm
  · rw [defaultValue_of_not_generated hgenerated, and_iff_right hgenerated, Except.ok.injEq,
      Option.filter_eq_some_iff]
    exact and_iff_left rfl

/-- There is no default if none is generated and none is declared other than an object. -/
theorem defaultValue_eq_none_iff (d : Draft) :
    (d.defaultValue supply f).2 = .ok none ↔
      ¬ f.Generated ∧ ∀ value, f.default = some value → value.isObject = true := by
  by_cases hgenerated : f.Generated
  · refine iff_of_false ?_ fun h => h.1 hgenerated
    intro hnone
    obtain ⟨value, hvalue, -⟩ :=
      exists_defaultValue_of_generated hgenerated (Prod.ext rfl hnone)
    cases hvalue
  · rw [defaultValue_of_not_generated hgenerated, and_iff_right hgenerated, Except.ok.injEq,
      Option.filter_eq_none_iff]
    simp

/-- The value of a column that is not given is null if its default is, or if it has none and is
neither a list nor required. -/
theorem absentValue_eq_null_iff (h : d.absentValue supply f = (d', .ok value)) :
    value = .null ↔ (d.defaultValue supply f).2 = .ok (some .null) ∨
      (d.defaultValue supply f).2 = .ok none ∧ f.isList = false ∧ f.isRequired = false := by
  unfold absentValue at h
  generalize d.defaultValue supply f = outcome at h ⊢
  rcases outcome with ⟨d₁, fault | _ | default⟩
  · cases h
  · dsimp only at h
    split_ifs at h with hlist hrequired
    · cases h
      simp [hlist]
    · cases h
    · cases h
      simp [hlist, hrequired]
  · cases h
    simp

/-- What is stored for a given value does not depend on the draft. -/
theorem givenValue_snd (f : Field) (value : Json) (d : Draft) :
    (d.givenValue f value).2 = f.taken value := by
  unfold givenValue Field.taken
  cases (if f.isList then value.get? "set" else none) with
  | some list => rfl
  | none =>
    dsimp only
    split <;> rfl

/-- The value that is given for a column is null, or sets a list to null. -/
theorem givenValue_eq_null_iff (f : Field) (value : Json) (d : Draft) :
    (d.givenValue f value).2 = .null ↔
      value = .null ∨ f.isList = true ∧ value.get? "set" = some .null := by
  unfold givenValue
  split
  · rename_i list hlist
    split_ifs at hlist with hf
    have hvalue : value ≠ .null := by
      rintro rfl
      cases hlist
    simp [hvalue, hf, hlist]
  · rename_i hlist
    have hset : ¬ (f.isList = true ∧ value.get? "set" = some .null) := by
      rintro ⟨hf, hset⟩
      rw [if_pos hf, hset] at hlist
      cases hlist
    rw [or_iff_left hset]
    split <;> rfl

/-- The ways in which a creation leaves a column null: the data or a connection gives it null, also
inside `set` for a list, or its default is null, or it has neither a value nor a default and may be
null. -/
inductive Nulls (data connected : Entries Json) (f : Field) : Prop
  | given (given : given? data connected f = some .null)
  | set {value : Json} (list : f.isList = true) (given : given? data connected f = some value)
      (null : value.get? "set" = some .null)
  | default (absent : given? data connected f = none) (declared : ¬ f.Generated)
      (null : f.default = some .null)
  | optional (absent : given? data connected f = none) (declared : ¬ f.Generated)
      (none : ∀ value, f.default = some value → value.isObject = true)
      (single : f.isList = false) (optional : f.isRequired = false)

/-- The value of a column is null in one of these ways. -/
theorem column_eq_null_iff (h : column supply data connected f d = (d', .ok value)) :
    value = .null ↔ Nulls data connected f := by
  unfold column at h
  cases hgiven : given? data connected f with
  | some given =>
    rw [hgiven] at h
    cases h
    rw [givenValue_eq_null_iff]
    constructor
    · rintro (rfl | ⟨hlist, hset⟩)
      · exact .given hgiven
      · exact .set hlist hgiven hset
    · rintro (hnull | ⟨hlist, hvalue, hnull⟩ | ⟨habsent⟩ | ⟨habsent⟩)
      · exact .inl (Option.some.inj (hgiven.symm.trans hnull))
      · exact .inr ⟨hlist, Option.some.inj (hgiven.symm.trans hvalue) ▸ hnull⟩
      all_goals
        rw [hgiven] at habsent
        cases habsent
  | none =>
    rw [hgiven] at h
    rw [absentValue_eq_null_iff h, defaultValue_eq_null_iff, defaultValue_eq_none_iff]
    constructor
    · rintro (⟨hdeclared, hnull⟩ | ⟨⟨hdeclared, hnone⟩, hlist, hoptional⟩)
      · exact .default hgiven hdeclared hnull
      · exact .optional hgiven hdeclared hnone hlist hoptional
    · rintro (hnull | ⟨-, hvalue, -⟩ | ⟨-, hdeclared, hnull⟩ | ⟨-, hdeclared, hnone, hlist, hopt⟩)
      · rw [hgiven] at hnull
        cases hnull
      · rw [hgiven] at hvalue
        cases hvalue
      · exact .inl ⟨hdeclared, hnull⟩
      · exact .inr ⟨⟨hdeclared, hnone⟩, hlist, hopt⟩

/-- The last column of a name decides what a creation stores under the name. -/
theorem get?_fill_last {fields : List Field} {r r' : Record} (name : String)
    (h : fill supply data connected fields r d = (d', .ok r')) :
    match fields.reverse.find? (·.name == name) with
    | some f => ∃ d₁ d₂ value, column supply data connected f d₁ = (d₂, .ok value) ∧
        Entries.get? r' name = some value
    | none => Entries.get? r' name = Entries.get? r name := by
  induction fields generalizing r d with
  | nil =>
    cases h
    rfl
  | cons f rest ih =>
    rw [fill_cons] at h
    rcases hcolumn : column supply data connected f d with ⟨d₁, fault | value⟩
    · rw [hcolumn] at h
      cases h
    · rw [hcolumn] at h
      have hrest := ih h
      rw [List.reverse_cons, List.find?_append]
      cases hlast : rest.reverse.find? (·.name == name) with
      | some g =>
        rw [hlast] at hrest
        exact hrest
      | none =>
        rw [hlast] at hrest
        rw [Option.none_or, List.find?_singleton]
        by_cases hname : f.name = name
        · rw [if_pos (beq_iff_eq.mpr hname)]
          refine ⟨d, d₁, value, hcolumn, ?_⟩
          rw [hrest, ← hname, Entries.get?_insert_self]
        · rw [if_neg (by simpa using hname)]
          rw [hrest, Entries.get?_insert_of_ne _ _ (Ne.symm hname)]

/-- The value that is given for a column is stored. -/
theorem get?_fill_given {fields : List Field} {r r' : Record}
    (h : fill supply data connected fields r d = (d', .ok r'))
    (hnodup : (fields.map (·.name)).Nodup) (hf : f ∈ fields)
    (hgiven : given? data connected f = some value) :
    Entries.get? r' f.name = some (f.taken value) := by
  have hlast := get?_fill_last f.name h
  cases hfound : fields.reverse.find? (·.name == f.name) with
  | none => simpa using List.find?_eq_none.mp hfound f (List.mem_reverse.mpr hf)
  | some g =>
    obtain rfl : g = f := by
      have hname : g.name = f.name := by simpa using List.find?_some hfound
      have hg := List.mem_reverse.mp (List.mem_of_find?_eq_some hfound)
      exact List.inj_on_of_nodup_map hnodup hg hf hname
    rw [hfound] at hlast
    obtain ⟨d₁, d₂, stored, hcolumn, hget⟩ := hlast
    rw [column, hgiven] at hcolumn
    cases hcolumn
    rw [hget, givenValue_snd]

/-- The last column of a name decides whether a creation leaves the name null. -/
theorem fill_value_eq_null_iff {fields : List Field} {r r' : Record} (name : String)
    (h : fill supply data connected fields r d = (d', .ok r')) :
    Record.value r' name = .null ↔
      match fields.reverse.find? (·.name == name) with
      | some f => Nulls data connected f
      | none => Record.value r name = .null := by
  have hlast := get?_fill_last name h
  cases hfound : fields.reverse.find? (·.name == name) with
  | none =>
    rw [hfound] at hlast
    rw [Record.value, hlast, Record.value]
  | some f =>
    rw [hfound] at hlast
    obtain ⟨d₁, d₂, value, hcolumn, hget⟩ := hlast
    rw [Record.value, hget, Option.getD_some]
    exact column_eq_null_iff hcolumn

end Draft

/-! ## Updating a column -/

namespace Json

/-- The whole number of a number as a value. -/
theorem asInt64?_of_asNumber? {value : Json} {x : Number} (h : value.asNumber? = some x) :
    value.asInt64? = x.toInt64? := by
  cases value with
  | num y =>
    cases h
    rfl
  | _ => cases h

/-- Only no double is null as a value. -/
theorem ofDouble?_eq_null_iff {d : Option Double} : ofDouble? d = .null ↔ d = none := by
  cases d with
  | none => exact iff_of_true rfl rfl
  | some d => exact iff_of_false Json.noConfusion (Option.some_ne_none d)

end Json

namespace Arithmetic

/-- The result on 64-bit whole numbers is one. -/
theorem isInt64_of_onInts? {op : Arithmetic} {a b n : Int} (h : op.onInts? a b = some n) :
    IsInt64 n := by
  have hint : ∀ m, int64? m = some n → IsInt64 n := by
    intro m hm
    obtain ⟨hint, rfl⟩ := int64?_eq_some_iff.mp hm
    exact hint
  cases op with
  | divide =>
    simp only [onInts?] at h
    split_ifs at h
    exact hint _ h
  | _ => exact hint _ h

/-- Arithmetic on two numbers that are not both 64-bit whole numbers has a result that no double
holds. -/
def Overflows (op : Arithmetic) (current operand : Json) : Prop :=
  ∃ a b, current.asNumber? = some a ∧ operand.asNumber? = some b ∧
    (a.toInt64? = none ∨ b.toInt64? = none) ∧ op.onDoubles? a.toDouble b.toDouble = none

/-- Arithmetic gives null if it overflows the doubles. -/
theorem apply_eq_null_iff {op : Arithmetic} {column : String} {current operand value : Json}
    (h : op.apply column current operand = .ok value) :
    value = .null ↔ op.Overflows current operand := by
  unfold apply at h
  split at h
  · -- two 64-bit whole numbers have a whole result or none
    rename_i a b ha hb
    split at h
    · rename_i n hn
      cases h
      refine iff_of_false (Json.ofInt_ne_null (isInt64_of_onInts? hn)) ?_
      rintro ⟨x, y, hx, hy, hinexact, -⟩
      rw [← Json.asInt64?_of_asNumber? hx, ← Json.asInt64?_of_asNumber? hy, ha, hb] at hinexact
      rcases hinexact with hnone | hnone <;> cases hnone
    · cases h
  · rename_i hwhole
    split at h
    · rename_i x y hx hy
      cases h
      have hinexact : x.toInt64? = none ∨ y.toInt64? = none := by
        by_contra hboth
        obtain ⟨ha, hb⟩ := not_or.mp hboth
        obtain ⟨a, ha⟩ := Option.ne_none_iff_exists'.mp ha
        obtain ⟨b, hb⟩ := Option.ne_none_iff_exists'.mp hb
        exact hwhole a b (Json.asInt64?_of_asNumber? hx ▸ ha) (Json.asInt64?_of_asNumber? hy ▸ hb)
      rw [Json.ofDouble?_eq_null_iff]
      constructor
      · exact fun hnone => ⟨x, y, hx, hy, hinexact, hnone⟩
      · rintro ⟨x', y', hx', hy', -, hnone⟩
        cases hx.symm.trans hx'
        cases hy.symm.trans hy'
        exact hnone
    · cases h

end Arithmetic

/-- An update operation gives null if it is `set` with null, or arithmetic that overflows. -/
theorem applyUpdate_eq_null_iff {f : Field} {current next : Json} {ops : Entries Json}
    (h : applyUpdate f current ops = .ok next) :
    next = .null ↔ ∃ operation operand, ops = [(operation, operand)] ∧
      (operation = "set" ∧ operand = .null ∨
        ∃ op, Arithmetic.ofName? operation = some op ∧ op.Overflows current operand) := by
  unfold applyUpdate at h
  split at h
  · rename_i operation operand
    have hsingle : ∀ P : String → Json → Prop,
        (∃ name value, [(operation, operand)] = [(name, value)] ∧ P name value) ↔
          P operation operand := by
      simp
    rw [hsingle]
    split at h
    · cases h
      simp [Arithmetic.ofName?]
    · have hlist : ∀ items, next = .arr items → next ≠ .null := by
        rintro items rfl
        exact Json.noConfusion
      have hnext : next ≠ .null := by
        split at h <;> exact hlist _ (Except.ok.inj h).symm
      simp [hnext, Arithmetic.ofName?]
    · rename_i hset _
      have hset : operation ≠ "set" := hset
      split at h
      · rename_i op hop
        rw [Arithmetic.apply_eq_null_iff h]
        simp [hset, hop]
      · cases h
  · cases h

namespace Field

/-- The new value of a column that an update gives a value for. -/
def updated (f : Field) (current : Json) : Json → Except Fault Json
  | .obj ops => if f.typeName = "Json" then .ok (.obj ops) else applyUpdate f current ops
  | value => .ok value

/-- The ways in which the value that an update gives for a column sets it to null: it is null, or it
is the operation `set` with null, or it is arithmetic whose result no double holds. -/
inductive Voids (f : Field) (current : Json) : Json → Prop
  | given : Voids f current .null
  | set (typed : f.typeName ≠ "Json") : Voids f current (.obj [("set", .null)])
  | arithmetic {name : String} {op : Arithmetic} {operand : Json} (typed : f.typeName ≠ "Json")
      (operation : Arithmetic.ofName? name = some op) (overflows : op.Overflows current operand) :
      Voids f current (.obj [(name, operand)])

/-- The new value of a column is null in one of these ways. -/
theorem updated_eq_null_iff {f : Field} {current value next : Json}
    (h : f.updated current value = .ok next) : next = .null ↔ f.Voids current value := by
  cases value with
  | obj ops =>
    rw [updated] at h
    split_ifs at h with htyped
    · cases h
      refine iff_of_false Json.noConfusion ?_
      rintro (_ | htyped' | ⟨htyped'⟩) <;> exact htyped' htyped
    · rw [applyUpdate_eq_null_iff h]
      constructor
      · rintro ⟨operation, operand, rfl, ⟨rfl, rfl⟩ | ⟨op, hop, hoverflows⟩⟩
        · exact .set htyped
        · exact .arithmetic htyped hop hoverflows
      · rintro (_ | - | ⟨-, hop, hoverflows⟩)
        · exact ⟨_, _, rfl, .inl ⟨rfl, rfl⟩⟩
        · exact ⟨_, _, rfl, .inr ⟨_, hop, hoverflows⟩⟩
  | null =>
    cases h
    exact iff_of_true rfl .given
  | _ =>
    cases h
    refine iff_of_false Json.noConfusion ?_
    rintro ⟨⟩

/-- The columns of the foreign key that a relation argument sets. -/
def keyColumns (f : Field) (argument : Json) : List String :=
  match argument.get? "connect" with
  | some _ => (f.fromFields.zip f.toFields).map (·.1)
  | none => f.fromFields

/-- A relation argument sets a column of the foreign key to null: it connects by a key with a null
where the column refers to, or it disconnects. -/
def Detaches (f : Field) (column : String) (argument : Json) : Prop :=
  match argument.get? "connect" with
  | some target => ∃ referred,
      (f.fromFields.zip f.toFields).reverse.find? (·.1 == column) = some (column, referred) ∧
        keyPart? target referred = some .null
  | none => column ∈ f.fromFields

end Field

namespace Store

variable {s : Store} {m : Model} {column : String}

/-- The columns that a relation argument sets, and those among them that it sets to null. -/
theorem get?_foreignKey {f : Field} {argument : Json} {columns : List (String × Json)}
    (h : s.foreignKey f argument = .ok columns) (column : String) :
    (Entries.get? columns.reverse column = none ↔ column ∉ f.keyColumns argument) ∧
      (Entries.get? columns.reverse column = some .null ↔ f.Detaches column argument) := by
  rw [Field.keyColumns, Field.Detaches]
  cases keySet_of_foreignKey h with
  | @connect key target given _ parts _ =>
    rw [given]
    constructor
    · rw [Entries.get?_eq_none_iff]
      simp [Entries.names]
    · -- the last pair of a column counts
      rw [← List.map_reverse, Entries.get?_map (fun p : String × String => p.1)
        fun p => (keyPart? key p.2).getD .null, Option.map_eq_some_iff]
      constructor
      · rintro ⟨⟨name, referred⟩, hlast, hnull⟩
        obtain rfl : name = column := by simpa using List.find?_some hlast
        have hpair := List.mem_reverse.mp (List.mem_of_find?_eq_some hlast)
        obtain ⟨value, hvalue⟩ := Option.isSome_iff_exists.mp (parts _ hpair)
        refine ⟨referred, hlast, ?_⟩
        rw [hvalue] at hnull ⊢
        exact congrArg some hnull
      · rintro ⟨referred, hlast, hnull⟩
        exact ⟨_, hlast, by rw [hnull]; rfl⟩
  | disconnect absent =>
    rw [absent]
    constructor
    · rw [Entries.get?_eq_none_iff]
      simp [Entries.names]
    · rw [← List.map_reverse, Entries.get?_map (fun name => name) fun _ => Json.null]
      simp [← Option.isSome_iff_exists]

end Store

/-! ## Updating a record -/

namespace Model

/-- An entry of an update writes a column: it gives the column itself, or a relation whose foreign
key the column belongs to. -/
def Writes (m : Model) (column : String) (entry : String × Json) : Prop :=
  ∃ f, m.field? entry.1 = some f ∧
    if f.isRelation then column ∈ f.keyColumns entry.2 else entry.1 = column

/-- An entry of an update sets a column with a current value to null. -/
def Nulls (m : Model) (column : String) (current : Json) (entry : String × Json) : Prop :=
  ∃ f, m.field? entry.1 = some f ∧
    if f.isRelation then f.Detaches column entry.2
    else entry.1 = column ∧ f.Voids current entry.2

end Model

namespace Store

variable {s : Store} {m : Model} {column : String} {data : Entries Json} {r r' : Record}

/-- Applies one entry of an update. -/
def applyEntry (s : Store) (m : Model) (r : Record) (entry : String × Json) : Except Fault Record :=
  match m.field? entry.1 with
  | none => .error (.unknownData m.name entry.1)
  | some f =>
    if f.isRelation then (s.foreignKey f entry.2).map (Entries.extend r)
    else (f.updated (Record.value r entry.1) entry.2).map (Entries.insert r entry.1)

/-- The entries of an update are applied one after another. -/
theorem applyData_cons (entry : String × Json) (rest : Entries Json) :
    s.applyData m (entry :: rest) r = s.applyEntry m r entry >>= s.applyData m rest := by
  obtain ⟨name, value⟩ := entry
  rw [applyData, applyEntry]
  cases m.field? name with
  | none => rfl
  | some f =>
    dsimp only
    by_cases hrelation : f.isRelation = true
    · rw [if_pos hrelation, if_pos hrelation]
      cases s.foreignKey f value <;> rfl
    · rw [if_neg hrelation, if_neg hrelation]
      cases value with
      | obj ops =>
        dsimp only
        rw [Field.updated]
        split_ifs
        · rfl
        · cases applyUpdate f (Record.value r name) ops <;> rfl
      | _ => rfl

/-- What applying an entry makes of a record: the entry of a relation sets the columns of the
foreign key, that of a column gives its new value. -/
inductive Applied (s : Store) (m : Model) (r : Record) (entry : String × Json) : Record → Prop
  | relation {f : Field} {columns : Entries Json} (found : m.field? entry.1 = some f)
      (relation : f.isRelation = true) (set : s.foreignKey f entry.2 = .ok columns) :
      s.Applied m r entry (Entries.extend r columns)
  | column {f : Field} {next : Json} (found : m.field? entry.1 = some f)
      (scalar : f.isRelation = false)
      (updated : f.updated (Record.value r entry.1) entry.2 = .ok next) :
      s.Applied m r entry (Entries.insert r entry.1 next)

/-- An entry is applied in one of these ways. -/
theorem applied_of_applyEntry {entry : String × Json} (h : s.applyEntry m r entry = .ok r') :
    s.Applied m r entry r' := by
  unfold applyEntry at h
  cases hfound : m.field? entry.1 with
  | none =>
    rw [hfound] at h
    cases h
  | some f =>
    rw [hfound] at h
    dsimp only at h
    by_cases hrelation : f.isRelation = true
    · rw [if_pos hrelation] at h
      obtain ⟨columns, hcolumns, rfl⟩ := Except.map_eq_ok_iff.mp h
      exact .relation hfound hrelation hcolumns
    · rw [if_neg hrelation] at h
      obtain ⟨next, hnext, rfl⟩ := Except.map_eq_ok_iff.mp h
      exact .column hfound (by simpa using hrelation) hnext

/-- One entry leaves a column null if it sets it to null, or does not write it and it was null. -/
theorem applyEntry_value_eq_null_iff {entry : String × Json}
    (h : s.applyEntry m r entry = .ok r') :
    Record.value r' column = .null ↔ m.Nulls column (Record.value r column) entry ∨
      ¬ m.Writes column entry ∧ Record.value r column = .null := by
  cases applied_of_applyEntry h with
  | @relation f columns found relation set =>
    obtain ⟨hnone, hnull⟩ := get?_foreignKey set column
    have hwrites : m.Writes column entry ↔ column ∈ f.keyColumns entry.2 := by
      simp [Model.Writes, found, relation]
    have hnulls : m.Nulls column (Record.value r column) entry ↔ f.Detaches column entry.2 := by
      simp [Model.Nulls, found, relation]
    rw [hwrites, hnulls, ← hnone, ← hnull, Record.value, Entries.get?_extend]
    cases Entries.get? columns.reverse column <;> simp [Record.value]
  | @column f next found scalar updated =>
    have hwrites : m.Writes column entry ↔ entry.1 = column := by
      simp [Model.Writes, found, scalar]
    have hnulls : m.Nulls column (Record.value r column) entry ↔
        entry.1 = column ∧ f.Voids (Record.value r column) entry.2 := by
      simp [Model.Nulls, found, scalar]
    rw [hwrites, hnulls, Record.value, Entries.get?_insert]
    by_cases hown : entry.1 = column
    · subst hown
      simp [Field.updated_eq_null_iff updated]
    · simp [hown, Ne.symm hown, Record.value]

/-- An update sets a column to null with one of its entries, and no later entry writes it. -/
def Clears (s : Store) (m : Model) (data : Entries Json) (r : Record) (column : String) : Prop :=
  ∃ before entry after r', data = before ++ entry :: after ∧ s.applyData m before r = .ok r' ∧
    m.Nulls column (Record.value r' column) entry ∧ ∀ e ∈ after, ¬ m.Writes column e

/-- An update clears a column with its first entry or with a later one. -/
theorem clears_cons_iff {entry : String × Json} {rest : Entries Json}
    (h : s.applyEntry m r entry = .ok r') :
    s.Clears m (entry :: rest) r column ↔
      s.Clears m rest r' column ∨
        m.Nulls column (Record.value r column) entry ∧ ∀ e ∈ rest, ¬ m.Writes column e := by
  constructor
  · rintro ⟨before, clearing, after, r₁, hdata, happlied, hnulls, hafter⟩
    cases before with
    | nil =>
      cases hdata
      cases happlied
      exact .inr ⟨hnulls, hafter⟩
    | cons first before =>
      cases hdata
      rw [applyData_cons, h] at happlied
      exact .inl ⟨before, clearing, after, r₁, rfl, happlied, hnulls, hafter⟩
  · rintro (⟨before, clearing, after, r₁, rfl, happlied, hnulls, hafter⟩ | ⟨hnulls, hrest⟩)
    · refine ⟨entry :: before, clearing, after, r₁, rfl, ?_, hnulls, hafter⟩
      rw [applyData_cons, h]
      exact happlied
    · exact ⟨[], entry, rest, r, rfl, rfl, hnulls, hrest⟩

/-- An update leaves a column null if it clears it, or does not write it and it was null. -/
theorem applyData_value_eq_null_iff (h : s.applyData m data r = .ok r') :
    Record.value r' column = .null ↔
      s.Clears m data r column ∨
        (∀ e ∈ data, ¬ m.Writes column e) ∧ Record.value r column = .null := by
  induction data generalizing r with
  | nil =>
    cases h
    have hclears : ¬ s.Clears m [] r' column := by
      rintro ⟨before, entry, after, -, hdata, -⟩
      exact List.append_ne_nil_of_right_ne_nil before (List.cons_ne_nil entry after) hdata.symm
    simp [hclears]
  | cons entry rest ih =>
    rw [applyData_cons] at h
    obtain ⟨r₁, happlied, h⟩ := Except.bind_eq_ok_iff.mp h
    rw [ih h, clears_cons_iff happlied, applyEntry_value_eq_null_iff happlied, List.forall_mem_cons]
    tauto

end Store

/-- Stamping the time of an update leaves a column null if it is not stamped. -/
theorem stampUpdated_value_eq_null_iff (supply : Supply) (data : Entries Json) (fields : List Field)
    (r : Record) (drawn : Nat) (column : String) :
    Record.value (stampUpdated supply data fields r drawn).2 column = .null ↔
      (∀ f ∈ fields, f.name = column → f.isUpdatedAt = true → data.contains column = true) ∧
        Record.value r column = .null := by
  induction fields generalizing r drawn with
  | nil => simp [stampUpdated]
  | cons f rest ih =>
    rw [stampUpdated, List.forall_mem_cons]
    split_ifs with hstamps
    · rw [ih, Record.value, Entries.get?_insert]
      by_cases hname : column = f.name
      · subst hname
        simp_all
      · simp [hname, Ne.symm hname, Record.value]
    · rw [ih]
      by_cases hname : f.name = column
      · subst hname
        simp_all
      · simp [hname]

/-! ## Stored records -/

namespace Model

/-- The column that decides what a creation stores under a name: the last one of the name. -/
def column? (m : Model) (name : String) : Option Field :=
  m.scalarFields.reverse.find? (·.name == name)

end Model

namespace Progress

variable {supply : Supply} {p : Progress} {t : Table} {entries : Entries Json} {r : Record}

/-- When a creation leaves a column null. -/
theorem Filling.value_eq_null_iff {draft : Draft} (h : Filling supply p t entries draft (.ok r))
    {pairs : Entries Json} (hpairs : p.store.foreignKeys entries t.model.relationFields = .ok pairs)
    {name : String} {f : Field} (hf : t.model.column? name = some f) :
    Record.value r name = .null ↔ Draft.Nulls entries (Entries.ofList pairs) f := by
  obtain ⟨pairs', hpairs', hfill⟩ := h.filled_eq
  cases hpairs.symm.trans hpairs'
  rw [Draft.fill_value_eq_null_iff name hfill, ← Model.column?, hf]

/-- When an update leaves a column null that was not null. -/
theorem Rewriting.value_eq_null_iff {row : Row} {drawn : Nat}
    (h : Rewriting supply p t row entries drawn r) {column : String}
    (hrow : Record.value row.data column ≠ .null) :
    Record.value r column = .null ↔
      (∀ f ∈ t.model.fields, f.name = column → f.isUpdatedAt = true →
        entries.contains column = true) ∧
      p.store.Clears t.model entries row.data column := by
  obtain ⟨applied, happlied, hstamped⟩ := h.rewritten
  have hvalue := stampUpdated_value_eq_null_iff supply entries t.model.fields applied p.drawn column
  rw [hstamped, Store.applyData_value_eq_null_iff happlied] at hvalue
  simpa [hrow] using hvalue

end Progress

end ModelGateway
