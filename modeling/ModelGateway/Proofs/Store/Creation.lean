import ModelGateway.Proofs.Store.Identity

/-!
# What creating records does to the rows

A new row is put under the key of its record, in place of the row that stands there. The check that
precedes it does not always find such a row (`Model.Identified`), so a creation may succeed and
overwrite another record.

* **Growth** (`Table.Growth`): creations add at most one row each. They add one each, and keep all
  rows that were there, exactly if no two of the created and the stored records have the same
  identity (`Table.Fresh`).
* **Calls** (`Store.Reachable.creation_keeps_rows_iff`): the same for `create`, `createMany`,
  `createManyAndReturn` and the creating `upsert`. Only a record that is not identified can
  overwrite another one.
-/

namespace ModelGateway

/-! ## Tables -/

namespace Table

variable {t t₁ t' : Table} {created created' : List Record}

/-- No two of the created and the stored records have the same identity; a model without
identifying fields gives each record one of its own. -/
def Fresh (t : Table) (created : List Record) : Prop :=
  t.model.identifyingFields = [] ∨ ((created ++ t.records).map t.model.identity).Nodup

/-- How creating records one after another changes a table. -/
structure Growth (t t' : Table) (created : List Record) : Prop where
  model_eq : t'.model = t.model
  length_le : t'.rows.length ≤ t.rows.length + created.length
  fresh_of_length : t'.rows.length = t.rows.length + created.length → t.Fresh created
  rows_perm : t.Fresh created →
    ∃ added, added.map (·.2.data) = created ∧ t'.rows.Perm (added ++ t.rows)
  fresh_of_identified : (∀ r ∈ created, t.model.Identified r) → t.Fresh created

/-- Some of the fresh records are fresh. -/
theorem Fresh.sublist (h : t.Fresh created) (hs : created'.Sublist created) : t.Fresh created' :=
  h.imp_right fun hn => hn.sublist ((hs.append (.refl _)).map _)

/-- Records are fresh one part after the other. -/
theorem fresh_append_iff (hm : t₁.model = t.model) {added : List (RowKey × Row)}
    (hp : t₁.rows.Perm (added ++ t.rows)) :
    t.Fresh (added.map (·.2.data) ++ created) ↔ t₁.Fresh created := by
  have hrecords : (created ++ t₁.records).Perm (added.map (·.2.data) ++ created ++ t.records) := by
    have h₁ : t₁.records.Perm (added.map (·.2.data) ++ t.records) := by
      rw [records, records, ← List.map_append]
      exact hp.map _
    refine (h₁.append_left created).trans ?_
    rw [← List.append_assoc]
    exact List.perm_append_comm.append_right _
  unfold Fresh
  rw [hm, (hrecords.map t.model.identity).nodup_iff]

/-- A single record of a sound table is fresh if no row stands under the key that it gets. -/
theorem Sound.fresh_singleton_iff (h : t.Sound) {r : Record} :
    t.Fresh [r] ↔ ∀ e ∈ t.rows, e.1 ≠ t.keyFor r t.nextSequence := by
  have hkey : ∀ e ∈ t.rows, e.1 = t.keyFor r t.nextSequence ↔
      if t.model.identifyingFields = [] then e.2.sequence = t.nextSequence
      else t.model.identity e.2.data = t.model.identity r := by
    intro e he
    rw [h.keyed e he, keyFor_eq_iff]
  by_cases hids : t.model.identifyingFields = []
  · refine iff_of_true (.inl hids) fun e he heq => ?_
    rw [hkey e he, if_pos hids] at heq
    exact Nat.ne_of_lt (h.bounded e he) heq
  · rw [Fresh, or_iff_right hids, List.singleton_append, List.map_cons, List.nodup_cons,
      and_iff_left (h.nodup_identities hids), records, List.map_map, List.mem_map, not_exists]
    refine forall_congr' fun e => ?_
    rw [not_and]
    refine forall_congr' fun he => ?_
    rw [ne_eq, hkey e he, if_neg hids, Function.comp_apply]

namespace Growth

/-- A table that keeps its model and its rows has not grown. -/
theorem of_rows_eq (hs : t.Sound) (hm : t'.model = t.model) (hr : t'.rows = t.rows) :
    t.Growth t' [] := by
  have hfresh : t.Fresh [] := or_iff_not_imp_left.mpr hs.nodup_identities
  exact {
    model_eq := hm
    length_le := by rw [hr]; exact Nat.le_refl _
    fresh_of_length := fun _ => hfresh
    rows_perm := fun _ => ⟨[], rfl, by rw [hr]; exact .refl _⟩
    fresh_of_identified := fun _ => hfresh }

/-- Growth by some records and then by others. -/
theorem trans (h : t.Growth t₁ created) (h' : t₁.Growth t' created') :
    t.Growth t' (created ++ created') where
  model_eq := h'.model_eq.trans h.model_eq
  length_le := by
    have hle := h.length_le
    have hle' := h'.length_le
    rw [List.length_append]
    omega
  fresh_of_length heq := by
    have hle := h.length_le
    have hle' := h'.length_le
    rw [List.length_append] at heq
    obtain ⟨added, rfl, hp⟩ := h.rows_perm (h.fresh_of_length (by omega))
    exact (fresh_append_iff h.model_eq hp).mpr (h'.fresh_of_length (by omega))
  rows_perm hf := by
    obtain ⟨added, rfl, hp⟩ := h.rows_perm (hf.sublist (List.sublist_append_left _ _))
    obtain ⟨added', rfl, hp'⟩ := h'.rows_perm ((fresh_append_iff h.model_eq hp).mp hf)
    refine ⟨added ++ added', List.map_append, ?_⟩
    calc t'.rows.Perm (added' ++ t₁.rows) := hp'
      _ |>.Perm (added' ++ (added ++ t.rows)) := hp.append_left _
      _ |>.Perm (added ++ added' ++ t.rows) := by
        rw [← List.append_assoc]
        exact List.perm_append_comm.append_right _
  fresh_of_identified hid := by
    have hid₁ := fun r hr => hid r (List.mem_append_left _ hr)
    obtain ⟨added, rfl, hp⟩ := h.rows_perm (h.fresh_of_identified hid₁)
    refine (fresh_append_iff h.model_eq hp).mpr (h'.fresh_of_identified fun r hr => ?_)
    rw [h.model_eq]
    exact hid r (List.mem_append_right _ hr)

/-- Storing a new record under the next sequence number. -/
theorem store (ht : t.Sound) {counter : Int} {next : Nat} {r : Record} (hr : Record.WellFormed r)
    (hs : ({ t with counter := counter, nextSequence := next } : Table).store r t.nextSequence
      none = .ok t') :
    t.Growth t' [r] := by
  have hfresh := ht.fresh_singleton_iff (r := r)
  have hpassed := clashingGroup?_eq_none_iff.mp (store_eq_ok_iff.mp hs).1
  have hothers : ∀ e ∈ t.rows, ∀ group, t.model.UniqueGroup group →
      ¬ Record.Clashes group r e.2.data :=
    fun e he => hpassed e he (by simp)
  have hperm : t'.rows.Perm ((t.keyFor r t.nextSequence, ⟨t.nextSequence, r⟩) ::
      t.rows.filter fun e => e.1 ≠ t.keyFor r t.nextSequence) := by
    have hrows := rows_store_perm hs
    rw [bystanders_none] at hrows
    exact hrows
  have hlength := hperm.length_eq
  rw [List.length_cons] at hlength
  refine ⟨(store_frame hs).1, ?_, ?_, ?_, ?_⟩
  · rw [hlength, List.length_singleton]
    exact Nat.succ_le_succ (List.length_filter_le _ _)
  · intro heq
    rw [hlength, List.length_singleton, Nat.add_right_cancel_iff,
      List.length_filter_eq_length_iff] at heq
    exact hfresh.mpr fun e he => by simpa using heq e he
  · intro hf
    have hall : (t.rows.filter fun e => e.1 ≠ t.keyFor r t.nextSequence) = t.rows := by
      rw [List.filter_eq_self]
      exact fun e he => by simpa using hfresh.mp hf e he
    rw [hall] at hperm
    exact ⟨[(t.keyFor r t.nextSequence, ⟨t.nextSequence, r⟩)], rfl, hperm⟩
  · intro hid
    refine or_iff_not_imp_left.mpr fun hids => (hfresh.mpr fun e he heq => ?_).resolve_left hids
    rw [ht.keyed e he, keyFor_eq_iff, if_neg hids] at heq
    obtain ⟨group, hgroup, hclash⟩ := (hid r (List.mem_singleton_self r)).exists_clashes hr heq.symm
    exact hothers e he group hgroup hclash

end Growth

end Table

/-! ## Stores -/

/-- The table of one model has grown by creating records, and the rows of all others are the
same. -/
def Store.Growth (s s' : Store) (model : String) (created : List Record) : Prop :=
  ∃ t t', s.tableOf model = .ok t ∧ s'.tableOf model = .ok t' ∧ t.Growth t' created ∧
    ∀ name, name ≠ model → s'.rowsOf name = s.rowsOf name

namespace Store

variable {d : Document} {s s' : Store} {t t' : Table} {model : String} {created : List Record}

/-- Replacing the table of a model by one that has grown. -/
theorem Growth.setTable (hs : s.Named) (found : s.tableOf model = .ok t)
    (h : t.Growth t' created) : s.Growth (s.setTable t') model created := by
  have hname : t'.model.name = model := h.model_eq ▸ hs model t found
  refine ⟨t, t', found, ?_, h, fun name hne => ?_⟩
  · rw [tableOf_setTable, if_pos hname.symm]
  · rw [rowsOf_setTable, if_neg (hname.symm ▸ hne)]

/-- Growth by some records and then by others. -/
theorem Growth.trans {s₁ : Store} {created' : List Record} (h : s.Growth s₁ model created)
    (h' : s₁.Growth s' model created') : s.Growth s' model (created ++ created') := by
  obtain ⟨t, t₁, ht, ht₁, hgrown, hothers⟩ := h
  obtain ⟨u, t', hu, ht', hgrown', hothers'⟩ := h'
  have heq : u = t₁ := Except.ok.inj (hu.symm.trans ht₁)
  subst heq
  refine ⟨t, t', ht, ht', hgrown.trans hgrown', fun name hne => ?_⟩
  rw [hothers' name hne, hothers name hne]

/-- Creating a record grows the table of its model by the record, or not at all if it fails. -/
theorem create_growth (hd : d.WellFormed) (supply : Supply) {p : Progress} (hs : p.store.Sound d)
    (found : p.store.tableOf model = .ok t) {data : Json} (hdata : data.WellFormed) :
    p.store.Growth (p.create supply model data).1.store model
      (match (p.create supply model data).2 with
      | .ok r => [r]
      | .error _ => []) := by
  have ht := hs.table model t found
  have ho := Progress.create_outcome supply p model data
  generalize p.create supply model data = outcome at ho
  cases ho with
  | refused => exact ⟨t, t, found, found, .of_rows_eq ht rfl rfl, fun _ _ => rfl⟩
  | unfilled found _ _ | clashing found _ _ _ =>
    have ht := hs.table model _ found
    exact Growth.setTable hs.named found (.of_rows_eq ht rfl rfl)
  | @stored t _ _ _ _ found object filling stored =>
    subst object
    have hr := filling.wellFormed (hd _ (hs.declared model t found))
      (Json.wellFormed_obj.mp hdata).2
    exact Growth.setTable hs.named found (.store (hs.table model t found) hr stored)

/-- Creating records one after another grows the table of their model by those that are created. -/
theorem createEach_growth (hd : d.WellFormed) {supply : Supply} {skip : Bool} :
    {items : List Json} → (∀ x ∈ items, x.WellFormed) → {p q : Progress} → p.store.Sound d →
    {t : Table} → p.store.tableOf model = .ok t → {created : List Record} →
    Progress.createEach supply skip model items p = (q, .ok created) →
    p.store.Growth q.store model created
  | [], _, p, q, hs, t, found, created, h => by
    cases h
    exact ⟨t, t, found, found, .of_rows_eq (hs.table model t found) rfl rfl, fun _ _ => rfl⟩
  | item :: rest, hitems, p, q, hs, t, found, created, h => by
    obtain ⟨hitem, hrest⟩ := List.forall_mem_cons.mp hitems
    have hgrown := create_growth hd supply hs found hitem
    have hs' := (hs.create hd supply model (.refl _) hitem).1
    obtain ⟨-, t₁, -, found', -, -⟩ := id hgrown
    obtain ⟨others, hrun, ⟨r, hr, rfl⟩ | ⟨fault, hfault, -, rfl⟩⟩ :=
      Progress.exists_rest_of_createEach h
    · rw [hr] at hgrown
      exact hgrown.trans (createEach_growth hd hrest hs' found' hrun)
    · rw [hfault] at hgrown
      exact hgrown.trans (createEach_growth hd hrest hs' found' hrun)

/-- Creating the records of `data` grows the table by those that are created. -/
theorem createMany_growth (hd : d.WellFormed) {supply : Supply} (hs : s.Sound d)
    (found : s.tableOf t.model.name = .ok t) {args : Json} (hargs : args.WellFormed)
    (h : (s.createMany supply t args).2 = .ok created) :
    s.Growth (s.createMany supply t args).1.store t.model.name created := by
  rw [Store.createMany] at h ⊢
  split at h
  · cases h
  · rename_i items hitems
    exact createEach_growth hd (creations_wellFormed hargs hitems) hs found (Prod.ext rfl h)

/-! ## Calls -/

/-- The arguments make an operation create records: an upsert creates if it finds no row. -/
def IsCreation (t : Table) (args : Json) : Operation → Prop
  | .create | .createMany | .createManyAndReturn => True
  | .upsert => t.findRow (args.get? "where") = .ok none
  | _ => False

/-- The records that an operation creates. -/
inductive Creates (supply : Supply) (s : Store) (t : Table) (args : Json) :
    Operation → List Record → Prop
  | create {r : Record}
      (created : (Progress.create supply ⟨s, 0⟩ t.model.name (argument args "data")).2 = .ok r) :
      Creates supply s t args .create [r]
  | createMany {records : List Record}
      (created : (s.createMany supply t args).2 = .ok records) :
      Creates supply s t args .createMany records
  | createManyAndReturn {records : List Record}
      (created : (s.createMany supply t args).2 = .ok records) :
      Creates supply s t args .createManyAndReturn records
  | upsert {r : Record} (absent : t.findRow (args.get? "where") = .ok none)
      (created : (Progress.create supply ⟨s, 0⟩ t.model.name (argument args "create")).2 = .ok r) :
      Creates supply s t args .upsert [r]

/-- How an answer tells the number of records that were created. -/
inductive Reports : Operation → Json → Nat → Prop
  | create (answer : Json) : Reports .create answer 1
  | createMany (n : Nat) : Reports .createMany (.obj [("count", .ofNat n)]) n
  | createManyAndReturn (items : List Json) : Reports .createManyAndReturn (.arr items) items.length
  | upsert (answer : Json) : Reports .upsert answer 1

variable {supply : Supply} {args : Json} {op : Operation}

/-- A creation that gives an answer has created the records that the answer tells. -/
theorem exists_creates (hop : IsCreation t args op) {answer : Json}
    (h : (s.executeOn supply t op args).2 = .ok answer) :
    ∃ created, s.Creates supply t args op created ∧ Reports op answer created.length := by
  cases op with
  | create =>
    obtain ⟨r, hr, -⟩ := answerWith_eq_ok_iff.mp h
    exact ⟨[r], .create hr, .create answer⟩
  | createMany =>
    obtain ⟨records, hrecords, hrender⟩ := answerWith_eq_ok_iff.mp h
    cases hrender
    exact ⟨records, .createMany hrecords, .createMany records.length⟩
  | createManyAndReturn =>
    obtain ⟨records, hrecords, hrender⟩ := answerWith_eq_ok_iff.mp h
    obtain ⟨items, hitems, hanswer⟩ := Except.map_eq_ok_iff.mp hrender
    refine ⟨records, .createManyAndReturn hrecords, ?_⟩
    rw [← hanswer, ← Except.length_of_mapM_eq_ok hitems]
    exact .createManyAndReturn items
  | upsert =>
    obtain ⟨r, hr, -⟩ := answerWith_eq_ok_iff.mp h
    have habsent : t.findRow (args.get? "where") = .ok none := hop
    rw [upsert, habsent] at hr
    exact ⟨[r], .upsert habsent hr, .upsert answer⟩
  | _ => exact absurd hop id

/-- The table of a creation grows by the records that it creates. -/
theorem Creates.growth (h : s.Creates supply t args op created) (hd : d.WellFormed)
    (hs : s.Sound d) (found : s.tableOf t.model.name = .ok t) (hargs : args.WellFormed) :
    s.Growth (s.executeOn supply t op args).1 t.model.name created := by
  have hsingle := fun (name : String) =>
    create_growth hd supply (p := ⟨s, 0⟩) hs found (argument_wellFormed hargs name)
  cases h with
  | create created =>
    rw [executeOn, answerWith_store]
    simpa only [created] using hsingle "data"
  | createMany created | createManyAndReturn created =>
    rw [executeOn, answerWith_store]
    exact createMany_growth hd hs found hargs created
  | upsert absent created =>
    rw [executeOn, answerWith_store, Store.upsert, absent]
    simpa only [created] using hsingle "create"

/-- A creation that succeeds keeps all rows, and adds as many as it creates, exactly if no two of
the created and the stored records have the same identity. This is so whenever each created record
has a key without nulls. -/
theorem Reachable.creation_keeps_rows_iff (hd : d.WellFormed) (h : Reachable d s)
    {delegate : String} (ht : s.tableFor delegate = .ok t) (hargs : args.WellFormed)
    (hop : IsCreation t args op) {answer : Json}
    (hok : s.execute supply delegate op args = (s', .ok answer)) :
    ∃ created, s.Creates supply t args op created ∧ Reports op answer created.length ∧
      (((∀ name, ∀ e ∈ s.rowsOf name, e ∈ s'.rowsOf name) ∧
          s'.rowCount t.model.name = s.rowCount t.model.name + created.length) ↔
        t.Fresh created) ∧
      ((∀ r ∈ created, t.model.Identified r) → t.Fresh created) := by
  have hs := h.sound hd
  have found := hs.named.tableOf_of_tableFor ht
  rw [execute, ht] at hok
  obtain ⟨created, hcreates, hreports⟩ := exists_creates hop (congrArg Prod.snd hok)
  have hgrowth := hcreates.growth hd hs found hargs
  rw [congrArg Prod.fst hok] at hgrowth
  obtain ⟨u, t', hu, ht', hgrown, hothers⟩ := hgrowth
  have heq : u = t := Except.ok.inj (hu.symm.trans found)
  subst heq
  refine ⟨created, hcreates, hreports, ⟨fun hkept => ?_, fun hfresh => ?_⟩,
    hgrown.fresh_of_identified⟩
  · refine hgrown.fresh_of_length ?_
    rw [← rowsOf_of_tableOf hu, ← rowsOf_of_tableOf ht', ← rowCount_eq_length,
      ← rowCount_eq_length]
    exact hkept.2
  · obtain ⟨added, hadded, hperm⟩ := hgrown.rows_perm hfresh
    constructor
    · intro name e he
      by_cases hname : name = u.model.name
      · subst hname
        rw [rowsOf_of_tableOf hu] at he
        rw [rowsOf_of_tableOf ht', hperm.mem_iff]
        exact List.mem_append_right _ he
      · rwa [hothers name hname]
    · rw [rowCount_eq_length, rowCount_eq_length, rowsOf_of_tableOf hu, rowsOf_of_tableOf ht',
        hperm.length_eq, List.length_append, ← hadded, List.length_map, Nat.add_comm]

/-- A second seat of a row is created beside the first one. -/
theorem creation_keeps_rows_seats :
    let s := Seats.made [
      .execute "seat" .create (.obj [("data", Seats.seat (.ofNat 1) (.ofNat 1) .null)])]
    let t := s.current (Table.empty Seats.model)
    let args := Json.obj [("data", Seats.seat (.ofNat 1) (.ofNat 2) .null)]
    let outcome := s.execute Seats.supply "seat" .create args
    Seats.document.WellFormed ∧ Reachable Seats.document s ∧ s.tableFor "seat" = .ok t ∧
      args.WellFormed ∧ IsCreation t args .create ∧
      outcome.2 = .ok (Seats.seat (.ofNat 1) (.ofNat 2) .null) ∧
      ∃ created, s.Creates Seats.supply t args .create created ∧
        Reports .create (Seats.seat (.ofNat 1) (.ofNat 2) .null) created.length ∧
        (((∀ name, ∀ e ∈ s.rowsOf name, e ∈ outcome.1.rowsOf name) ∧
            outcome.1.rowCount t.model.name = s.rowCount t.model.name + created.length) ↔
          t.Fresh created) ∧
        ((∀ r ∈ created, t.model.Identified r) → t.Fresh created) := by
  intro s t args outcome
  have hs : Reachable Seats.document s :=
    Seats.reachable_made (by simp [Call.WellFormed, Entries.names])
  have ht : s.tableFor "seat" = .ok t := rfl
  have hargs : args.WellFormed := by simp [args, Entries.names]
  have hok : outcome = (outcome.1, .ok (Seats.seat (.ofNat 1) (.ofNat 2) .null)) := rfl
  have hop : IsCreation t args .create := trivial
  exact ⟨Seats.document_wellFormed, hs, ht, hargs, hop, rfl,
    hs.creation_keeps_rows_iff Seats.document_wellFormed ht hargs hop hok⟩

/-- A seat whose number is null takes the place of another one in the same row: the creation gives
an answer, and the other guest is gone. -/
theorem creation_overwrites_seat :
    let s := Seats.made [
      .execute "seat" .create (.obj [("data", Seats.seat (.ofNat 1) .null (.ofNat 7))])]
    let outcome := s.execute Seats.supply "seat" .create
      (.obj [("data", Seats.seat (.ofNat 1) .null (.ofNat 8))])
    let guests := fun (s : Store) => (s.rowsOf "Seat").map fun e => Record.value e.2.data "guest"
    Reachable Seats.document s ∧ outcome.2 = .ok (Seats.seat (.ofNat 1) .null (.ofNat 8)) ∧
      guests s = [.ofNat 7] ∧ guests outcome.1 = [.ofNat 8] ∧
      outcome.1.rowCount "Seat" ≠ s.rowCount "Seat" + 1 ∧
      ¬ ∀ e ∈ s.rowsOf "Seat", e ∈ outcome.1.rowsOf "Seat" := by
  intro s outcome guests
  have hs : Reachable Seats.document s :=
    Seats.reachable_made (by simp [Call.WellFormed, Entries.names])
  have hbefore : guests s = [.ofNat 7] := rfl
  have hafter : guests outcome.1 = [.ofNat 8] := rfl
  refine ⟨hs, rfl, hbefore, hafter, by decide, fun hkept => ?_⟩
  have hsub : guests s ⊆ guests outcome.1 := List.map_subset _ hkept
  rw [hbefore, hafter] at hsub
  exact absurd (hsub (List.mem_singleton_self _)) (by decide)

end Store

end ModelGateway
