import ModelGateway.Proofs.Store.Deletion
import ModelGateway.Proofs.Store.Order

/-!
# What a run of calls does to a counter

The counter of a table does not move but by creations of records of its model: a number that is
given for an automatic column moves it up, and one that is not given is drawn from it. A log lists
these events, of creations that succeed as of those that fail.

* **Logs** (`Store.log`): the events of a run, in their order. Where a creation succeeds, they are
  those that its record shows (`Progress.log_of_created`). One event is a panic, and a creation has
  it exactly if it panics (`Progress.create_panics_iff`, `Progress.createEach_panics_iff`).
* **Counting** (`Counting`): how events move a counter. A column moves it by its event
  (`Draft.counting_column`), and a record by those of its columns (`Draft.counting_fill`).
* **Runs** (`Store.moves_log`): a run moves each counter by its log, since a creation does
  (`Creation.moves`) and no other write moves one.
-/

namespace ModelGateway

/-! ## Logs -/

/-- What happens to the counter of a table. -/
inductive CounterEvent where
  /-- A number is given for an automatic column. -/
  | given (n : Int)
  /-- A number is drawn for an automatic column. -/
  | drawn (n : Int)
  /-- A number is to be drawn where 64 bits hold no further one, and the program panics. -/
  | exhausted
deriving DecidableEq, Repr

namespace CounterEvent

/-- The number that is given or drawn. -/
def number? : CounterEvent → Option Int
  | given n | drawn n => some n
  | exhausted => none

/-- Whether a number is drawn, or would be if there was one. -/
def isDraw : CounterEvent → Bool
  | given _ => false
  | drawn _ | exhausted => true

end CounterEvent

namespace Draft

/-- What happens to the counter when a column gets its value. -/
def event? (supply : Supply) (data connected : Entries Json) (f : Field) (d : Draft) :
    Option CounterEvent :=
  if f.isAutoincrement then
    match given? data connected f with
    | some value => value.asInt64?.map .given
    | none =>
      match (d.defaultValue supply f).2 with
      | .ok value => (value.bind Json.asInt64?).map .drawn
      | .error _ => some .exhausted
  else none

/-- What happens to the counter while the columns of a record are filled, up to the first fault. -/
def log (supply : Supply) (data connected : Entries Json) : List Field → Draft → List CounterEvent
  | [], _ => []
  | f :: rest, d =>
    (event? supply data connected f d).toList ++
      match column supply data connected f d with
      | (d, .ok _) => log supply data connected rest d
      | (_, .error _) => []

end Draft

namespace Progress

/-- What a creation does to the counter of its model. -/
def log (supply : Supply) (p : Progress) (model : String) (data : Json) : List CounterEvent :=
  match p.store.tableOf model, data with
  | .ok t, .obj entries =>
    match (Entries.names entries).find? fun name => (t.model.field? name).isNone with
    | some _ => []
    | none =>
      match p.store.foreignKeys entries t.model.relationFields with
      | .ok pairs =>
        Draft.log supply entries (Entries.ofList pairs) t.model.scalarFields ⟨t.counter, p.drawn⟩
      | .error _ => []
  | _, _ => []

end Progress

/-- A creation of a record, with the state in which it starts. -/
structure Creation where
  before : Progress
  model : String
  data : Json

/-- What a creation does to the counter of a model. -/
def Creation.log (supply : Supply) (model : String) (c : Creation) : List CounterEvent :=
  if c.model = model then c.before.log supply c.model c.data else []

/-- The creations of records one after another, up to the first fault that is not skipped. -/
def Progress.eachCreation (supply : Supply) (skipDuplicates : Bool) (model : String) :
    List Json → Progress → List Creation
  | [], _ => []
  | item :: rest, p =>
    ⟨p, model, item⟩ ::
      match p.create supply model item with
      | (p, .ok _) => eachCreation supply skipDuplicates model rest p
      | (p, .error e) =>
        if skipDuplicates && e.kind == .uniqueConstraint then
          eachCreation supply skipDuplicates model rest p
        else []

namespace Store

/-- The creations of seed data. -/
def seedCreations (supply : Supply) : List (String × Json) → Progress → Nat → List Creation
  | [], _, _ => []
  | (model, records) :: rest, p, n =>
    match p.store.tableOf model, records with
    | .ok _, .arr items =>
      p.eachCreation supply false model items ++
        match seedModel supply model items p n with
        | (p, .ok n) => seedCreations supply rest p n
        | (_, .error _) => []
    | _, _ => []

/-- The creations of an operation on a table. -/
def creationsOn (supply : Supply) (s : Store) (t : Table) (op : Operation) (args : Json) :
    List Creation :=
  match op with
  | .create => [⟨⟨s, 0⟩, t.model.name, argument args "data"⟩]
  | .createMany | .createManyAndReturn =>
    match creations (args.get? "data") with
    | .ok items =>
      let skip := ((args.get? "skipDuplicates").bind Json.asBool?).getD false
      Progress.eachCreation supply skip t.model.name items ⟨s, 0⟩
    | .error _ => []
  | .upsert =>
    match t.findRow (args.get? "where") with
    | .ok none => [⟨⟨s, 0⟩, t.model.name, argument args "create"⟩]
    | _ => []
  | _ => []

/-- The creations of a call. -/
def creationsOf (supply : Supply) (s : Store) : Call → List Creation
  | .seed (.obj models) => seedCreations supply models ⟨s, 0⟩ 0
  | .seed _ => []
  | .execute delegate op args =>
    match s.tableFor delegate with
    | .ok t => s.creationsOn supply t op args
    | .error _ => []

/-- What a run of calls does to the counter of a model. -/
def log (model : String) : Store → List (Supply × Call) → List CounterEvent
  | _, [] => []
  | s, (supply, c) :: rest =>
    (s.creationsOf supply c).flatMap (·.log supply model) ++ log model (s.after supply c) rest

end Store

/-! ## What a record shows -/

/-- The event that a record shows in a column: the number that it has there was given, or else
drawn. -/
def Field.shown? (f : Field) (isGiven : Bool) (value : Json) : Option CounterEvent :=
  if f.isAutoincrement then
    value.asInt64?.map (if isGiven then .given else .drawn)
  else none

namespace Draft

variable {supply : Supply} {data connected : Entries Json} {f : Field} {d d' : Draft} {value : Json}

/-- The number of a column that is not given is that of its default. -/
theorem exists_default_of_absentValue (h : d.absentValue supply f = (d', .ok value)) :
    ∃ default, (d.defaultValue supply f).2 = .ok default ∧
      value.asInt64? = default.bind Json.asInt64? := by
  unfold absentValue at h
  rcases hdefault : d.defaultValue supply f with ⟨d₁, fault | _ | default⟩
  · rw [hdefault] at h
    cases h
  · rw [hdefault] at h
    dsimp only at h
    refine ⟨none, rfl, ?_⟩
    split_ifs at h
    · cases h
      rfl
    · cases h
    · cases h
      rfl
  · rw [hdefault] at h
    cases h
    exact ⟨some value, rfl, rfl⟩

/-- The event of a column is the one that its value shows. -/
theorem event?_eq_shown? (hsingle : f.isAutoincrement = true → f.isList = false)
    (h : column supply data connected f d = (d', .ok value)) :
    event? supply data connected f d = f.shown? (given? data connected f).isSome value := by
  unfold event? Field.shown?
  cases hauto : f.isAutoincrement with
  | false => rfl
  | true =>
    rw [if_pos rfl, if_pos rfl]
    unfold column at h
    cases hgiven : given? data connected f with
    | some given =>
      rw [hgiven] at h
      have hvalue : (d.givenValue f given).2 = value := by
        cases h
        rfl
      rw [givenValue_snd, Field.taken, hsingle hauto] at hvalue
      rw [← hvalue]
      rfl
    | none =>
      rw [hgiven] at h
      obtain ⟨default, hdefault, hnumber⟩ := exists_default_of_absentValue h
      rw [hdefault, hnumber]
      rfl

/-- While the columns of a record are filled, happens what the record shows. -/
theorem log_of_fill {fields : List Field} (hnodup : (fields.map (·.name)).Nodup)
    (hsingle : ∀ f ∈ fields, f.isAutoincrement = true → f.isList = false) {r r' : Record}
    (h : fill supply data connected fields r d = (d', .ok r')) :
    log supply data connected fields d = fields.flatMap fun f =>
      (f.shown? (given? data connected f).isSome (Record.value r' f.name)).toList := by
  induction fields generalizing r d with
  | nil => rfl
  | cons f rest ih =>
    obtain ⟨hname, hnames⟩ := List.nodup_cons.mp hnodup
    obtain ⟨hfirst, hothers⟩ := List.forall_mem_cons.mp hsingle
    rw [fill_cons] at h
    rcases hcolumn : column supply data connected f d with ⟨d₁, fault | value⟩
    · rw [hcolumn] at h
      cases h
    · rw [hcolumn] at h
      have hvalue : Record.value r' f.name = value := by
        have hlast := get?_fill_last f.name h
        have hnone : rest.reverse.find? (·.name == f.name) = none := by
          refine List.find?_eq_none.mpr ?_
          intro g hg hsame
          exact hname (List.mem_map.mpr ⟨g, List.mem_reverse.mp hg, eq_of_beq hsame⟩)
        rw [hnone] at hlast
        unfold Record.value
        rw [hlast, Entries.get?_insert_self]
        rfl
      rw [log, hcolumn, List.flatMap_cons, hvalue, event?_eq_shown? hfirst hcolumn]
      exact congrArg _ (ih hnames hothers h)

end Draft

/-- A creation that succeeds does to the counter what its record shows, if the columns have names of
their own and no automatic one is a list. -/
theorem Progress.log_of_created {supply : Supply} {p : Progress} {model : String} {t : Table}
    {data : Json} {r : Record} (found : p.store.tableOf model = .ok t)
    (hnodup : (t.model.scalarFields.map (·.name)).Nodup)
    (hsingle : ∀ f ∈ t.model.scalarFields, f.isAutoincrement = true → f.isList = false)
    (h : (p.create supply model data).2 = .ok r) :
    ∃ entries pairs, data = .obj entries ∧
      p.store.foreignKeys entries t.model.relationFields = .ok pairs ∧
      p.log supply model data = t.model.scalarFields.flatMap fun f =>
        (f.shown? (Draft.given? entries (Entries.ofList pairs) f).isSome
          (Record.value r f.name)).toList := by
  obtain ⟨-, entries, draft, rfl, ⟨hknown, pairs, hpairs, hfill⟩, -, -⟩ :=
    exists_stored_of_create found h
  refine ⟨entries, pairs, rfl, hpairs, ?_⟩
  rw [← Draft.log_of_fill hnodup hsingle hfill]
  simp only [log, found, hknown, hpairs]

/-! ## Panics -/

namespace Draft

variable {supply : Supply} {data connected : Entries Json} {f : Field}

/-- A column that is not given makes the program panic exactly if its default does. -/
theorem absentValue_panics_iff (d : Draft) :
    (d.absentValue supply f).2 = .error .counterOverflow ↔
      ∃ fault, (d.defaultValue supply f).2 = .error fault := by
  unfold absentValue
  rcases hdefault : d.defaultValue supply f with ⟨d', fault | _ | default⟩
  · rw [(defaultValue_eq_error hdefault).1]
    exact iff_of_true rfl ⟨_, rfl⟩
  · refine iff_of_false ?_ nofun
    dsimp only
    split_ifs
    · exact nofun
    · exact nofun
    · exact nofun
  · exact iff_of_false nofun nofun

/-- A column makes the program panic exactly if there is no number for it. -/
theorem column_panics_iff (d : Draft) :
    (column supply data connected f d).2 = .error .counterOverflow ↔
      event? supply data connected f d = some .exhausted := by
  unfold column event?
  cases hgiven : given? data connected f with
  | some value =>
    refine iff_of_false nofun ?_
    dsimp only
    split_ifs
    · cases value.asInt64? <;> exact nofun
    · exact nofun
  | none =>
    dsimp only
    rw [absentValue_panics_iff]
    rcases hdefault : d.defaultValue supply f with ⟨d', fault | default⟩
    · obtain ⟨-, hauto, -⟩ := defaultValue_eq_error hdefault
      rw [hauto]
      exact iff_of_true ⟨fault, rfl⟩ rfl
    · refine iff_of_false nofun ?_
      dsimp only
      split_ifs
      · cases default.bind Json.asInt64? <;> exact nofun
      · exact nofun

/-- Filling a record makes the program panic exactly if there is no number for a column. -/
theorem fill_panics_iff (fields : List Field) (r : Record) (d : Draft) :
    (fill supply data connected fields r d).2 = .error .counterOverflow ↔
      .exhausted ∈ log supply data connected fields d := by
  induction fields generalizing r d with
  | nil => exact iff_of_false nofun List.not_mem_nil
  | cons f rest ih =>
    rw [log, fill_cons, List.mem_append, Option.mem_toList, ← column_panics_iff d]
    rcases column supply data connected f d with ⟨d', fault | value⟩
    · simp only [Except.error.injEq, List.not_mem_nil, or_false]
    · exact (ih _ d').trans (or_iff_right nofun).symm

end Draft

namespace Progress

/-- A creation makes the program panic exactly if there is no number for a column. -/
theorem create_panics_iff (supply : Supply) (p : Progress) (model : String) (data : Json) :
    (p.create supply model data).2 = .error .counterOverflow ↔
      .exhausted ∈ p.log supply model data := by
  unfold log
  cases found : p.store.tableOf model with
  | error fault =>
    refine iff_of_false ?_ List.not_mem_nil
    simp only [create, found, fail]
    rintro ⟨⟩
    exact p.store.early_tableOf model _ found .panic
  | ok t =>
    cases data with
    | obj entries =>
      dsimp only
      cases hknown : (Entries.names entries).find? fun name => (t.model.field? name).isNone with
      | some unknown =>
        simp only [create, found, createFrom, hknown, fail]
        exact iff_of_false (by rintro ⟨⟩) List.not_mem_nil
      | none =>
        cases hpairs : p.store.foreignKeys entries t.model.relationFields with
        | error fault =>
          refine iff_of_false ?_ List.not_mem_nil
          simp only [create, found, createFrom, hknown, hpairs, fail]
          rintro ⟨⟩
          exact p.store.early_foreignKeys entries _ _ hpairs .panic
        | ok pairs =>
          dsimp only
          rw [← Draft.fill_panics_iff t.model.scalarFields []]
          simp only [create, found, createFrom, hknown, hpairs]
          rcases Draft.fill supply entries (Entries.ofList pairs) t.model.scalarFields []
            ⟨t.counter, p.drawn⟩ with ⟨draft, fault | r⟩
          · exact Iff.rfl
          · refine iff_of_false ?_ (by rintro ⟨⟩)
            simp only [append]
            rcases hstore : ({ t with
              counter := draft.counter, nextSequence := t.nextSequence + 1 } : Table).store r
                t.nextSequence none with fault | t'
            · rintro ⟨⟩
              exact Table.store_ne_panic hstore
            · rintro ⟨⟩
    | _ =>
      simp only [create, found, fail]
      exact iff_of_false (by rintro ⟨⟩) List.not_mem_nil

/-- Creations one after another make the program panic exactly if there is no number for a
column. -/
theorem createEach_panics_iff (supply : Supply) (skip : Bool) (model : String) (items : List Json)
    (p : Progress) :
    (createEach supply skip model items p).2 = .error .counterOverflow ↔
      .exhausted ∈ (p.eachCreation supply skip model items).flatMap (·.log supply model) := by
  induction items generalizing p with
  | nil => exact iff_of_false (by rintro ⟨⟩) List.not_mem_nil
  | cons item rest ih =>
    have hfirst : .exhausted ∈ (Creation.mk p model item).log supply model ↔
        (p.create supply model item).2 = .error .counterOverflow := by
      rw [Creation.log, if_pos rfl]
      exact (create_panics_iff supply p model item).symm
    rw [createEach, eachCreation, List.flatMap_cons, List.mem_append, hfirst]
    rcases p.create supply model item with ⟨p₁, fault | r⟩
    · dsimp only
      split_ifs with hskip
      · -- a record is only skipped for a clash
        obtain ⟨-, hkind⟩ := Bool.and_eq_true_iff.mp hskip
        have hclash : (.error fault : Except Fault Record) ≠ .error .counterOverflow := by
          rintro ⟨⟩
          cases hkind
        rw [ih p₁, or_iff_right hclash]
      · simp only [Except.error.injEq, List.flatMap_nil, List.not_mem_nil, or_false]
    · dsimp only
      have hcreated : (.ok r : Except Fault Record) ≠ .error .counterOverflow := by
        rintro ⟨⟩
      rw [or_iff_right hcreated, ← ih p₁]
      rcases createEach supply skip model rest p₁ with ⟨p₂, fault | created⟩
      · exact Iff.rfl
      · exact iff_of_false (by rintro ⟨⟩) (by rintro ⟨⟩)

end Progress

/-! ## Counting -/

/-- The events of a log move a counter from one number to another. It moves on when no number can be
drawn any more, too, and wraps around. -/
inductive Counting : Int → List CounterEvent → Int → Prop
  | done (counter : Int) : Counting counter [] counter
  | given {counter n later : Int} {rest : List CounterEvent} (int64 : IsInt64 n)
      (after : Counting (max counter n) rest later) : Counting counter (.given n :: rest) later
  | drawn {counter later : Int} {rest : List CounterEvent} (int64 : IsInt64 (counter + 1))
      (after : Counting (counter + 1) rest later) :
      Counting counter (.drawn (counter + 1) :: rest) later
  | exhausted {counter later : Int} {rest : List CounterEvent} (beyond : ¬IsInt64 (counter + 1))
      (after : Counting (wrapInt64 (counter + 1)) rest later) :
      Counting counter (.exhausted :: rest) later

namespace Counting

variable {counter between later : Int} {before after : List CounterEvent}

/-- Without events the counter stays. -/
theorem of_eq (h : later = counter) : Counting counter [] later :=
  h ▸ .done counter

/-- The events of two logs one after the other. -/
theorem append (h : Counting counter before between) (h' : Counting between after later) :
    Counting counter (before ++ after) later := by
  induction h with
  | done => exact h'
  | given int64 _ ih => exact .given int64 (ih h')
  | drawn int64 _ ih => exact .drawn int64 (ih h')
  | exhausted beyond _ ih => exact .exhausted beyond (ih h')

/-- The counter between the two parts of a log. -/
theorem exists_between (h : Counting counter (before ++ after) later) :
    ∃ between, Counting counter before between ∧ Counting between after later := by
  induction before generalizing counter with
  | nil => exact ⟨counter, .done counter, h⟩
  | cons e rest ih =>
    cases h with
    | given int64 hafter =>
      obtain ⟨between, hrest, hlater⟩ := ih hafter
      exact ⟨between, .given int64 hrest, hlater⟩
    | drawn int64 hafter =>
      obtain ⟨between, hrest, hlater⟩ := ih hafter
      exact ⟨between, .drawn int64 hrest, hlater⟩
    | exhausted beyond hafter =>
      obtain ⟨between, hrest, hlater⟩ := ih hafter
      exact ⟨between, .exhausted beyond hrest, hlater⟩

/-- The numbers of a log are 64-bit ones. -/
theorem isInt64_number {log : List CounterEvent} (h : Counting counter log later) :
    ∀ e ∈ log, ∀ n, e.number? = some n → IsInt64 n := by
  induction h with
  | done => exact List.forall_mem_nil _
  | given int64 _ ih => exact List.forall_mem_cons.mpr ⟨by rintro _ ⟨⟩; exact int64, ih⟩
  | drawn int64 _ ih => exact List.forall_mem_cons.mpr ⟨by rintro _ ⟨⟩; exact int64, ih⟩
  | exhausted _ _ ih => exact List.forall_mem_cons.mpr ⟨nofun, ih⟩

end Counting

/-- A number of 64 bits is one. -/
theorem Json.isInt64_of_asInt64? {value : Json} {n : Int} (h : value.asInt64? = some n) :
    IsInt64 n := by
  cases value with
  | num x => exact Number.isInt64_of_toInt64? h
  | _ => cases h

namespace Draft

/-- The counter after a column that is given. -/
theorem givenValue_counter (f : Field) (value : Json) (d : Draft) :
    (d.givenValue f value).1.counter =
      match (if f.isAutoincrement then value.asInt64? else none) with
      | some n => max d.counter n
      | none => d.counter := by
  unfold givenValue
  split
  · rename_i list hlist
    -- a list that is wrapped in `set` is no number
    have hnone : value.asInt64? = none := by
      cases value with
      | num x => split_ifs at hlist; cases hlist
      | _ => rfl
    rw [hnone, ite_self]
  · cases (if f.isAutoincrement then value.asInt64? else none) with
    | some n => rfl
    | none => rfl

/-- What happens to the counter when an automatic column is not given: a number is drawn if there is
one, unless the column gets the time of the update. -/
theorem event?_of_not_given (supply : Supply) {data connected : Entries Json} {f : Field}
    (hauto : f.isAutoincrement = true) (hgiven : given? data connected f = none) (d : Draft) :
    event? supply data connected f d =
      if f.isUpdatedAt then none
      else if IsInt64 (d.counter + 1) then some (.drawn (d.counter + 1))
      else some .exhausted := by
  unfold event?
  rw [if_pos hauto, hgiven]
  cases hstamp : f.isUpdatedAt with
  | true =>
    have hdefault : d.defaultValue supply f = d.fresh supply.instant := by
      unfold defaultValue
      rw [hstamp]
      rfl
    rw [hdefault]
    rfl
  | false =>
    rw [defaultValue_of_automatic supply d hauto hstamp, if_neg Bool.false_ne_true]
    split_ifs with hnext
    · obtain ⟨x, hx, hint⟩ := Json.exists_ofInt hnext
      rw [nextNumber_of_isInt64 hnext, hx]
      exact congrArg (Option.map CounterEvent.drawn) hint
    · rw [nextNumber_of_not_isInt64 hnext]

/-- A column moves the counter by its event. -/
theorem counting_column (supply : Supply) (data connected : Entries Json) (f : Field) (d : Draft) :
    Counting d.counter (event? supply data connected f d).toList
      (column supply data connected f d).1.counter := by
  unfold column
  cases hgiven : given? data connected f with
  | some value =>
    unfold event?
    rw [hgiven]
    dsimp only
    rw [givenValue_counter]
    split_ifs with hauto
    · cases hn : value.asInt64? with
      | some n => exact .given (Json.isInt64_of_asInt64? hn) (.done _)
      | none => exact .done _
    · exact .done _
  | none =>
    dsimp only
    rw [counter_absentValue]
    cases hauto : f.isAutoincrement with
    | false =>
      unfold event?
      rw [hauto]
      exact .done _
    | true =>
      rw [event?_of_not_given supply hauto hgiven]
      cases f.isUpdatedAt with
      | true => exact .done _
      | false =>
        have hdraws : (true && !false) = true := rfl
        rw [if_neg Bool.false_ne_true, if_pos hdraws]
        by_cases hnext : IsInt64 (d.counter + 1)
        · rw [if_pos hnext, wrapInt64_of_isInt64 hnext]
          exact .drawn hnext (.done _)
        · rw [if_neg hnext]
          exact .exhausted hnext (.done _)

/-- Filling a record moves the counter by its log. -/
theorem counting_fill (supply : Supply) (data connected : Entries Json) (fields : List Field)
    (r : Record) (d : Draft) :
    Counting d.counter (log supply data connected fields d)
      (fill supply data connected fields r d).1.counter := by
  induction fields generalizing r d with
  | nil => exact .done _
  | cons f rest ih =>
    have hcolumn := counting_column supply data connected f d
    rw [log, fill_cons]
    generalize column supply data connected f d = outcome at hcolumn
    rcases outcome with ⟨d₁, fault | value⟩
    · rw [List.append_nil]
      exact hcolumn
    · exact hcolumn.append (ih _ d₁)

end Draft

/-! ## Runs -/

namespace Store

/-- The counter of a model's table. -/
def counterOf (s : Store) (model : String) : Int :=
  match s.tableOf model with
  | .ok t => t.counter
  | .error _ => 0

/-- From one store to another the events of a log move the counter of a model, and tables stay under
the names of their models. -/
def Moves (model : String) (s : Store) (log : List CounterEvent) (s' : Store) : Prop :=
  s.Named → s'.Named ∧ Counting (s.counterOf model) log (s'.counterOf model)

variable {s s₁ s' : Store} {supply : Supply} {model written : String} {t t' : Table}

/-- The counter of a table that is found. -/
theorem counterOf_of_tableOf (found : s.tableOf model = .ok t) : s.counterOf model = t.counter := by
  unfold counterOf
  rw [found]

/-- In the store without rows all counters are zero. -/
theorem counterOf_ofModels (models : List Model) (model : String) :
    (ofModels models).counterOf model = 0 := by
  unfold counterOf
  cases found : (ofModels models).tableOf model with
  | error => rfl
  | ok t =>
    obtain ⟨m, -, -, rfl⟩ := tableOf_ofModels found
    rfl

/-- Replacing a table replaces the counter of its model alone. -/
theorem Named.counterOf_setTable (hs : s.Named) (found : s.tableOf written = .ok t)
    (hmodel : t'.model = t.model) (model : String) :
    (s.setTable t').counterOf model =
      if model = written then t'.counter else s.counterOf model := by
  have hname : t'.model.name = written := hmodel ▸ hs written t found
  unfold counterOf
  rw [tableOf_setTable, hname]
  split_ifs <;> rfl

namespace Moves

/-- Nothing happens. -/
theorem refl (model : String) (s : Store) : Moves model s [] s :=
  fun hs => ⟨hs, .done _⟩

/-- One log after the other. -/
theorem append {log log' : List CounterEvent} (h : Moves model s log s₁)
    (h' : Moves model s₁ log' s') : Moves model s (log ++ log') s' := by
  intro hs
  obtain ⟨hs₁, hfirst⟩ := h hs
  obtain ⟨hs', hsecond⟩ := h' hs₁
  exact ⟨hs', hfirst.append hsecond⟩

/-- Replacing a table by one with the same counter moves no counter. -/
theorem setTable (found : s.tableOf written = .ok t) (hmodel : t'.model = t.model)
    (hcounter : t'.counter = t.counter) (model : String) : Moves model s [] (s.setTable t') := by
  intro hs
  refine ⟨hs.setTable t', ?_⟩
  rw [hs.counterOf_setTable found hmodel]
  split_ifs with heq
  · rw [hcounter, heq, counterOf_of_tableOf found]
    exact .done _
  · exact .done _

end Moves

end Store

namespace Progress

variable {supply : Supply} {p : Progress} {model written : String} {t : Table}

/-- A creation that fills a draft leaves its table with the counter of the draft. -/
theorem Filling.exists_table {entries : Entries Json} {draft : Draft}
    {filled : Except Fault Record} (h : Filling supply p t entries draft filled)
    (found : p.store.tableOf model = .ok t) :
    ∃ t', (p.create supply model (.obj entries)).1.store = p.store.setTable t' ∧
      t'.model = t.model ∧ t'.counter = draft.counter := by
  obtain ⟨hknown, pairs, hpairs, hfill⟩ := h
  simp only [create, found, createFrom, hknown, hpairs, hfill]
  cases filled with
  | error fault => exact ⟨_, rfl, rfl, rfl⟩
  | ok r =>
    simp only [append]
    rcases hstore : ({ t with counter := draft.counter, nextSequence := t.nextSequence + 1 } :
      Table).store r t.nextSequence none with fault | t'
    · exact ⟨_, Store.setTable_setTable _ rfl, rfl, rfl⟩
    · obtain ⟨hmodel, hcounter, -⟩ := Table.store_frame hstore
      exact ⟨t', Store.setTable_setTable _ hmodel, hmodel, hcounter⟩

/-- A creation moves the counter of its model by its log. -/
theorem counting_create (hs : p.store.Named) (supply : Supply) (model : String) (data : Json) :
    Counting (p.store.counterOf model) (p.log supply model data)
      ((p.create supply model data).1.store.counterOf model) := by
  unfold log
  cases found : p.store.tableOf model with
  | error fault =>
    simp only [create, found, fail]
    exact .done _
  | ok t =>
    cases data with
    | obj entries =>
      dsimp only
      cases hknown : (Entries.names entries).find? fun name => (t.model.field? name).isNone with
      | some unknown =>
        simp only [create, found, createFrom, hknown, fail]
        exact .done _
      | none =>
        cases hpairs : p.store.foreignKeys entries t.model.relationFields with
        | error fault =>
          simp only [create, found, createFrom, hknown, hpairs, fail]
          exact .done _
        | ok pairs =>
          rcases hfill : Draft.fill supply entries (Entries.ofList pairs) t.model.scalarFields []
            ⟨t.counter, p.drawn⟩ with ⟨draft, filled⟩
          have hfilling : Filling supply p t entries draft filled := ⟨hknown, pairs, hpairs, hfill⟩
          obtain ⟨t', hstore, hmodel, hcounter⟩ := hfilling.exists_table found
          rw [hstore, hs.counterOf_setTable found hmodel, if_pos rfl, hcounter,
            Store.counterOf_of_tableOf found]
          have hcounting := Draft.counting_fill supply entries (Entries.ofList pairs)
            t.model.scalarFields [] ⟨t.counter, p.drawn⟩
          rwa [hfill] at hcounting
    | _ =>
      simp only [create, found, fail]
      exact .done _

/-- An update moves no counter. -/
theorem moves_update (supply : Supply) (p : Progress) (written : String) (key : RowKey) (row : Row)
    (data : Json) (model : String) :
    Store.Moves model p.store [] (p.update supply written key row data).1.store := by
  have ho := update_outcome supply p written key row data
  generalize p.update supply written key row data = outcome at ho
  cases ho with
  | refused => exact .refl model _
  | @stored t t' _ _ _ found _ _ stored =>
    obtain ⟨hmodel, hcounter, -⟩ := Table.store_frame stored
    exact .setTable found hmodel hcounter model

/-- Updates one after another move no counter. -/
theorem moves_updateEach (supply : Supply) (p : Progress) (written : String) (data : Json)
    (rows : List (RowKey × Row)) (model : String) :
    Store.Moves model p.store [] (updateEach supply written data rows p).1.store := by
  refine updateEach_keeps (I := Store.Moves model p.store []) ?_ (.refl model _)
  intro q e _ hq
  exact hq.append (moves_update supply q written e.1 e.2 data model)

end Progress

/-- A creation moves the counter of each model by what it does to it. -/
theorem Creation.moves (supply : Supply) (c : Creation) (model : String) :
    Store.Moves model c.before.store (c.log supply model)
      (c.before.create supply c.model c.data).1.store := by
  intro hs
  refine ⟨Progress.named_create hs supply c.model c.data, ?_⟩
  unfold log
  split_ifs with heq
  · subst heq
    exact Progress.counting_create hs supply c.model c.data
  · have hother : ∀ t t', c.before.store.tableOf c.model = .ok t → t'.model = t.model →
        (c.before.store.setTable t').counterOf model = c.before.store.counterOf model := by
      intro t t' found hmodel
      rw [hs.counterOf_setTable found hmodel, if_neg (Ne.symm heq)]
    have ho := Progress.create_outcome supply c.before c.model c.data
    generalize c.before.create supply c.model c.data = outcome at ho
    cases ho with
    | refused => exact .done _
    | @unfilled t _ _ _ found | @clashing t _ _ _ _ found => exact .of_eq (hother t _ found rfl)
    | @stored t t' _ _ _ found _ _ stored =>
      exact .of_eq (hother t t' found (Table.store_frame stored).1)

namespace Store

variable {s : Store} {t : Table}

/-- Creations one after another move a counter by what each of them does to it. -/
theorem moves_createEach (supply : Supply) (skip : Bool) (written : String) (items : List Json)
    (p : Progress) (model : String) :
    Moves model p.store
      ((p.eachCreation supply skip written items).flatMap (·.log supply model))
      (Progress.createEach supply skip written items p).1.store := by
  induction items generalizing p with
  | nil => exact .refl model _
  | cons item rest ih =>
    have hfirst := (⟨p, written, item⟩ : Creation).moves supply model
    rw [Progress.eachCreation, Progress.createEach, List.flatMap_cons]
    dsimp only at hfirst
    generalize p.create supply written item = outcome at hfirst
    rcases outcome with ⟨p₁, fault | r⟩
    · dsimp only
      split_ifs
      · exact hfirst.append (ih p₁)
      · exact hfirst.append (.refl model _)
    · have hrest := ih p₁
      dsimp only
      generalize Progress.createEach supply skip written rest p₁ = outcome at hrest
      rcases outcome with ⟨p₂, fault | created⟩
      · exact hfirst.append hrest
      · exact hfirst.append hrest

/-- The records of one model are seeded as they are created, without skipping any. -/
theorem seedModel_fst (supply : Supply) (model : String) (items : List Json) (p : Progress)
    (n : Nat) :
    (seedModel supply model items p n).1 =
      (Progress.createEach supply false model items p).1 := by
  induction items generalizing p n with
  | nil => rfl
  | cons item rest ih =>
    rw [seedModel, Progress.createEach]
    rcases p.create supply model item with ⟨p₁, fault | r⟩
    · rfl
    · dsimp only
      rw [ih p₁ (n + 1)]
      rcases Progress.createEach supply false model rest p₁ with ⟨p₂, fault | created⟩
      · rfl
      · rfl

/-- Seeding moves a counter by what its creations do to it. -/
theorem moves_seedModels (supply : Supply) (models : List (String × Json)) (p : Progress) (n : Nat)
    (model : String) :
    Moves model p.store ((seedCreations supply models p n).flatMap (·.log supply model))
      (seedModels supply models p n).1.store := by
  induction models generalizing p n with
  | nil => exact .refl model _
  | cons e rest ih =>
    obtain ⟨written, records⟩ := e
    unfold seedCreations seedModels
    cases p.store.tableOf written with
    | error fault => exact .refl model _
    | ok t =>
      cases records with
      | arr items =>
        have hfirst := moves_createEach supply false written items p model
        rw [← seedModel_fst supply written items p n] at hfirst
        dsimp only
        rw [List.flatMap_append]
        generalize seedModel supply written items p n = outcome at hfirst
        rcases outcome with ⟨p₁, fault | m⟩
        · exact hfirst.append (.refl model _)
        · exact hfirst.append (ih p₁ m)
      | _ => exact .refl model _

/-- An operation on a table moves a counter by what its creations do to it. -/
theorem moves_executeOn (supply : Supply) (found : s.tableOf t.model.name = .ok t) (op : Operation)
    (args : Json) (model : String) :
    Moves model s ((s.creationsOn supply t op args).flatMap (·.log supply model))
      (s.executeOn supply t op args).1 := by
  cases op with
  | create =>
    rw [executeOn, answerWith_store, creationsOn, List.flatMap_singleton]
    exact Creation.moves supply ⟨⟨s, 0⟩, t.model.name, argument args "data"⟩ model
  | createMany | createManyAndReturn =>
    rw [executeOn, answerWith_store, creationsOn, createMany]
    cases creations (args.get? "data") with
    | error fault => exact .refl model s
    | ok items => exact moves_createEach supply _ t.model.name items ⟨s, 0⟩ model
  | update =>
    rw [executeOn, answerWith_store, updateFirst]
    split
    · exact .refl model s
    · exact .refl model s
    · exact Progress.moves_update supply ⟨s, 0⟩ t.model.name _ _ _ model
  | updateMany | updateManyAndReturn =>
    rw [executeOn, answerWith_store, updateMany]
    split
    · exact .refl model s
    · exact Progress.moves_updateEach supply ⟨s, 0⟩ t.model.name _ _ model
  | upsert =>
    rw [executeOn, answerWith_store, upsert, creationsOn]
    rcases t.findRow (args.get? "where") with fault | _ | ⟨key, row⟩
    · exact .refl model s
    · dsimp only
      rw [List.flatMap_singleton]
      exact Creation.moves supply ⟨⟨s, 0⟩, t.model.name, argument args "create"⟩ model
    · exact Progress.moves_update supply ⟨s, 0⟩ t.model.name key row _ model
  | delete =>
    rw [executeOn, deleteFirst]
    split
    · exact .refl model s
    · exact .refl model s
    · split
      · exact .refl model s
      · refine Moves.setTable found ?_ ?_ model
        · rfl
        · rfl
  | deleteMany =>
    rw [executeOn, deleteMany]
    split
    · exact .refl model s
    · rw [Table.removeEach_eq]
      refine Moves.setTable found ?_ ?_ model
      · rfl
      · rfl
  | _ => exact .refl model s

/-- A call moves a counter by what its creations do to it. -/
theorem moves_after (supply : Supply) (s : Store) (c : Call) (model : String) :
    Moves model s ((s.creationsOf supply c).flatMap (·.log supply model)) (s.after supply c) := by
  cases c with
  | seed data =>
    unfold after seed creationsOf
    cases data with
    | obj models =>
      dsimp only
      rw [answerWith_store]
      exact moves_seedModels supply models ⟨s, 0⟩ 0 model
    | _ => exact .refl model s
  | execute delegate op args =>
    intro hs
    rw [after, execute, creationsOf]
    cases found : s.tableFor delegate with
    | error fault => exact Moves.refl model s hs
    | ok t => exact moves_executeOn supply (hs.tableOf_of_tableFor found) op args model hs

/-- A run moves a counter by its log. -/
theorem moves_log (model : String) (s : Store) (calls : List (Supply × Call)) :
    Moves model s (s.log model calls) (calls.foldl (fun s e => s.after e.1 e.2) s) := by
  induction calls generalizing s with
  | nil => exact .refl model s
  | cons e rest ih => exact (moves_after e.1 s e.2 model).append (ih (s.after e.1 e.2))

end Store

end ModelGateway
