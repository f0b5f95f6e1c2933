import ModelGateway.Proofs.Store.CounterLog

/-!
# What creations ask of a counter

A creation asks the counter of its table to reach the numbers that it gives, and to give it one for
each automatic column that it leaves out. What it asks for is settled by its data and its
connections (`Draft.demand`, `Store.demand`); what the counter makes of it is the log. A creation
that fills its record asks for all of it (`Progress.request_of_filling`), any other for a first part
(`Progress.request_part`).

A counter that has reached all numbers that are given answers a demand exactly if it has one number
left for each that is to be drawn (`Counting.unfailing_iff`).
-/

namespace ModelGateway

/-! ## Demands -/

namespace CounterEvent

/-- What an event asks of the counter: to reach a number, or to give one. -/
def request : CounterEvent → Option Int
  | given n => some n
  | drawn _ | exhausted => none

/-- The draws of a log are what asks for a number. -/
theorem count_request (log : List CounterEvent) :
    (log.map request).count none = log.countP (·.isDraw) := by
  rw [List.count, List.countP_map]
  refine List.countP_congr ?_
  intro e _
  cases e with
  | given n => exact Iff.rfl
  | drawn n => exact Iff.rfl
  | exhausted => exact Iff.rfl

end CounterEvent

namespace Draft

variable {supply : Supply} {data connected : Entries Json} {f : Field} {d d' : Draft}
  {fields : List Field}

/-- What a column asks of the counter. -/
def demand? (data connected : Entries Json) (f : Field) : Option (Option Int) :=
  if f.isAutoincrement then
    match given? data connected f with
    | some value => value.asInt64?.map some
    | none => if f.isUpdatedAt then none else some none
  else none

/-- What the columns of a record ask of the counter. -/
def demand (data connected : Entries Json) (fields : List Field) : List (Option Int) :=
  fields.filterMap (demand? data connected)

/-- A column asks for the same whatever the supply and the counter. -/
theorem request_event? (supply : Supply) (data connected : Entries Json) (f : Field) (d : Draft) :
    (event? supply data connected f d).map CounterEvent.request = demand? data connected f := by
  unfold demand?
  cases hauto : f.isAutoincrement with
  | false =>
    unfold event?
    rw [hauto]
    rfl
  | true =>
    cases hgiven : given? data connected f with
    | some value =>
      unfold event?
      rw [hauto, hgiven]
      exact Option.map_map _ _ _
    | none =>
      rw [event?_of_not_given supply hauto hgiven]
      cases f.isUpdatedAt with
      | true => rfl
      | false =>
        simp only [Bool.false_eq_true, if_false, if_true]
        split_ifs <;> rfl

/-- The demand of one more column comes first. -/
theorem demand_cons (supply : Supply) (f : Field) (rest : List Field) (d : Draft) :
    demand data connected (f :: rest) =
      (event? supply data connected f d).toList.map CounterEvent.request ++
        demand data connected rest := by
  unfold demand
  rw [List.filterMap_cons, ← request_event? supply data connected f d]
  cases event? supply data connected f d <;> rfl

/-- Filling a record asks for a first part of the demand of its columns. -/
theorem request_part (supply : Supply) (fields : List Field) (d : Draft) :
    (log supply data connected fields d).map CounterEvent.request <+:
      demand data connected fields := by
  induction fields generalizing d with
  | nil => exact List.prefix_refl []
  | cons f rest ih =>
    rw [log, demand_cons supply f rest d, List.map_append, List.prefix_append_right_inj]
    rcases column supply data connected f d with ⟨d', fault | value⟩
    · exact List.nil_prefix
    · exact ih d'

/-- A record that is filled has asked for all. -/
theorem request_of_fill {r r' : Record}
    (h : fill supply data connected fields r d = (d', .ok r')) :
    (log supply data connected fields d).map CounterEvent.request =
      demand data connected fields := by
  induction fields generalizing r d with
  | nil => rfl
  | cons f rest ih =>
    rw [fill_cons] at h
    rw [log, demand_cons supply f rest d, List.map_append]
    rcases hcolumn : column supply data connected f d with ⟨d₁, fault | value⟩
    · rw [hcolumn] at h
      cases h
    · rw [hcolumn] at h
      exact congrArg _ (ih h)

end Draft

/-- What the creation of a record asks of the counter. -/
def Store.demand (s : Store) (model : String) (data : Json) : List (Option Int) :=
  match s.tableOf model, data with
  | .ok t, .obj entries =>
    match s.foreignKeys entries t.model.relationFields with
    | .ok pairs => Draft.demand entries (Entries.ofList pairs) t.model.scalarFields
    | .error _ => []
  | _, _ => []

namespace Progress

variable {supply : Supply} {p : Progress} {model : String} {t : Table} {entries : Entries Json}
  {draft : Draft} {r : Record}

/-- A creation asks for a first part of its demand. -/
theorem request_part (supply : Supply) (p : Progress) (model : String) (data : Json) :
    (p.log supply model data).map CounterEvent.request <+: p.store.demand model data := by
  unfold log Store.demand
  cases p.store.tableOf model with
  | error fault => exact List.nil_prefix
  | ok t =>
    cases data with
    | obj entries =>
      dsimp only
      cases (Entries.names entries).find? fun name => (t.model.field? name).isNone with
      | some unknown => exact List.nil_prefix
      | none =>
        cases p.store.foreignKeys entries t.model.relationFields with
        | error fault => exact List.nil_prefix
        | ok pairs => exact Draft.request_part supply _ _
    | _ => exact List.nil_prefix

/-- A creation that fills its record asks for all. -/
theorem request_of_filling (found : p.store.tableOf model = .ok t)
    (h : Filling supply p t entries draft (.ok r)) :
    (p.log supply model (.obj entries)).map CounterEvent.request =
      p.store.demand model (.obj entries) := by
  obtain ⟨hknown, pairs, hpairs, hfill⟩ := h
  simp only [log, Store.demand, found, hknown, hpairs]
  exact Draft.request_of_fill hfill

end Progress

/-! ## Answers -/

namespace Counting

variable {counter later : Int} {log : List CounterEvent} {demand : List (Option Int)}

/-- As long as there is a number for every draw the counter does not fall, and it reaches all
numbers. -/
theorem le_later (h : Counting counter log later) (hall : .exhausted ∉ log) :
    counter ≤ later ∧ ∀ e ∈ log, ∀ n, e.number? = some n → n ≤ later := by
  induction h with
  | done => exact ⟨Int.le_refl _, List.forall_mem_nil _⟩
  | @given counter n later rest int64 _ ih =>
    obtain ⟨hle, hnumbers⟩ := ih fun hmem => hall (List.mem_cons_of_mem _ hmem)
    refine ⟨(le_max_left _ _).trans hle, List.forall_mem_cons.mpr ⟨?_, hnumbers⟩⟩
    rintro _ ⟨⟩
    exact (le_max_right _ _).trans hle
  | drawn int64 _ ih =>
    obtain ⟨hle, hnumbers⟩ := ih fun hmem => hall (List.mem_cons_of_mem _ hmem)
    refine ⟨by omega, List.forall_mem_cons.mpr ⟨?_, hnumbers⟩⟩
    rintro _ ⟨⟩
    exact hle
  | exhausted => exact absurd List.mem_cons_self hall

/-- As long as there is a number for every draw the counter reaches the numbers that it is asked to
reach. -/
theorem reaches_requests (h : Counting counter log later) (hall : .exhausted ∉ log) :
    ∀ n, some n ∈ log.map CounterEvent.request → n ≤ later := by
  intro n hn
  obtain ⟨e, he, hrequest⟩ := List.mem_map.mp hn
  cases e with
  | given m =>
    cases hrequest
    exact (h.le_later hall).2 _ he n rfl
  | drawn | exhausted => cases hrequest

/-- The counter stays a 64-bit number. -/
theorem isInt64_later (h : Counting counter log later) (hcounter : IsInt64 counter) :
    IsInt64 later := by
  induction h with
  | done => exact hcounter
  | @given counter n _ _ int64 _ ih =>
    refine ih ?_
    rcases max_choice counter n with heq | heq
    · rwa [heq]
    · rwa [heq]
  | drawn int64 _ ih => exact ih int64
  | exhausted _ _ ih => exact ih (isInt64_wrapInt64 _)

/-- A counter that has reached all numbers that are given counts the draws, as long as there is a
number for each. -/
theorem later_eq (h : Counting counter log later)
    (hreached : ∀ n, some n ∈ log.map CounterEvent.request → n ≤ counter)
    (hall : .exhausted ∉ log) :
    later = counter + (log.map CounterEvent.request).count none := by
  induction h with
  | done => exact (Int.add_zero _).symm
  | @given counter n later rest int64 _ ih =>
    have hn : max counter n = counter := max_eq_left (hreached n List.mem_cons_self)
    rw [hn] at ih
    rw [List.map_cons, CounterEvent.request, List.count_cons_of_ne (Option.some_ne_none n)]
    exact ih (fun m hm => hreached m (List.mem_cons_of_mem _ hm))
      fun hmem => hall (List.mem_cons_of_mem _ hmem)
  | @drawn counter later rest int64 _ ih =>
    have hlater := ih
      (fun m hm => (hreached m (List.mem_cons_of_mem _ hm)).trans (by omega))
      fun hmem => hall (List.mem_cons_of_mem _ hmem)
    rw [hlater, List.map_cons, CounterEvent.request, List.count_cons_self]
    push_cast
    omega
  | exhausted => exact absurd List.mem_cons_self hall

/-- A counter that has reached all numbers that are given, and has none for some draw, has fewer
left than there are draws. -/
theorem lt_of_exhausted (h : Counting counter log later) (hcounter : IsInt64 counter)
    (hreached : ∀ n, some n ∈ log.map CounterEvent.request → n ≤ counter)
    (hmem : .exhausted ∈ log) :
    9223372036854775807 < counter + (log.map CounterEvent.request).count none := by
  induction h with
  | done => exact absurd hmem List.not_mem_nil
  | @given counter n later rest int64 _ ih =>
    have hn : max counter n = counter := max_eq_left (hreached n List.mem_cons_self)
    rw [hn] at ih
    rw [List.map_cons, CounterEvent.request, List.count_cons_of_ne (Option.some_ne_none n)]
    exact ih hcounter (fun m hm => hreached m (List.mem_cons_of_mem _ hm))
      ((List.mem_cons.mp hmem).resolve_left nofun)
  | @drawn counter later rest int64 _ ih =>
    have hlt := ih int64
      (fun m hm => (hreached m (List.mem_cons_of_mem _ hm)).trans (by omega))
      ((List.mem_cons.mp hmem).resolve_left nofun)
    rw [List.map_cons, CounterEvent.request, List.count_cons_self]
    push_cast
    omega
  | exhausted beyond =>
    rw [List.map_cons, CounterEvent.request, List.count_cons_self]
    unfold IsInt64 at hcounter beyond
    push_cast
    omega

/-- A counter that has reached all numbers that are given, and answers a demand as far as it can,
has a number for every draw exactly if there are as many left. -/
theorem unfailing_iff (h : Counting counter log later) (hcounter : IsInt64 counter)
    (hreached : ∀ n, some n ∈ demand → n ≤ counter)
    (hpart : log.map CounterEvent.request <+: demand)
    (hwhole : .exhausted ∉ log → log.map CounterEvent.request = demand) :
    .exhausted ∉ log ↔ counter + demand.count none ≤ 9223372036854775807 := by
  have hreached' : ∀ n, some n ∈ log.map CounterEvent.request → n ≤ counter :=
    fun n hn => hreached n (hpart.subset hn)
  constructor
  · intro hall
    have hlater := h.isInt64_later hcounter
    rw [h.later_eq hreached' hall, hwhole hall] at hlater
    unfold IsInt64 at hlater
    omega
  · intro hroom hmem
    have hlt := h.lt_of_exhausted hcounter hreached' hmem
    have hcount := hpart.sublist.count_le none
    omega

end Counting

end ModelGateway
