import ModelGateway.Proofs.Store.Sound

/-!
# Delegates

A client addresses the table of a model by the model's delegate, which is the model's name with its
first character in lower case. Models whose names differ in that character alone share a delegate.

* **Reachable stores** (`Store.Reachable.tableFor_eq`): calls change neither which models have a
  table nor the delegates. A delegate addresses the table of the last model of the document that
  has it.
* **Models** (`Store.Reachable.tableFor_lowerFirst_iff`): the delegate of a model addresses the
  table of that model exactly if no later model of the document has the same delegate
  (`Document.LastOfDelegate`). In a document whose models have different delegates each one does
  (`Document.lastOfDelegate_of_nodup`).
-/

namespace ModelGateway

/-! ## Documents -/

namespace Document

/-- The model that a delegate stands for: of several models with one delegate the last. -/
def ofDelegate? (d : Document) (delegate : String) : Option Model :=
  d.models.reverse.find? fun m => Text.lowerFirst m.name == delegate

/-- No model after the one called `model` has the same delegate. -/
def LastOfDelegate (d : Document) (model : String) : Prop :=
  ∃ before m after, d.models = before ++ m :: after ∧ m.name = model ∧
    ∀ other ∈ after, Text.lowerFirst other.name ≠ Text.lowerFirst model

variable {d : Document} {delegate model : String} {m : Model}

/-- The model that a delegate stands for is declared and has that delegate. -/
theorem mem_of_ofDelegate? (h : d.ofDelegate? delegate = some m) :
    m ∈ d.models ∧ Text.lowerFirst m.name = delegate := by
  have hmem : m ∈ d.models.reverse := List.mem_of_find?_eq_some h
  have hname := List.find?_some h
  exact ⟨List.mem_reverse.mp hmem, by simpa using hname⟩

/-- The delegate of a declared model stands for some model. -/
theorem exists_ofDelegate? (hm : m ∈ d.models) :
    ∃ found, d.ofDelegate? (Text.lowerFirst m.name) = some found := by
  apply Option.isSome_iff_exists.mp
  rw [ofDelegate?, List.find?_isSome]
  exact ⟨m, List.mem_reverse.mpr hm, by simp⟩

/-- The delegate of a model stands for a model of that name exactly if no later model has it. -/
theorem lastOfDelegate_iff :
    d.LastOfDelegate model ↔
      ∃ m, d.ofDelegate? (Text.lowerFirst model) = some m ∧ m.name = model := by
  constructor
  · rintro ⟨before, m, after, hmodels, rfl, hafter⟩
    refine ⟨m, List.find?_eq_some_iff_append.mpr ⟨by simp, after.reverse, before.reverse, ?_, ?_⟩,
      rfl⟩
    · simp [hmodels]
    · intro other hother
      simpa using hafter other (List.mem_reverse.mp hother)
  · rintro ⟨m, hfind, rfl⟩
    obtain ⟨-, after, before, hmodels, hafter⟩ := List.find?_eq_some_iff_append.mp hfind
    refine ⟨before.reverse, m, after.reverse, ?_, rfl, ?_⟩
    · rw [← List.reverse_reverse d.models, hmodels]
      simp
    · intro other hother
      simpa using hafter other (List.mem_reverse.mp hother)

/-- Where models have different delegates, each is the last with its own. -/
theorem lastOfDelegate_of_nodup (hn : (d.models.map fun m => Text.lowerFirst m.name).Nodup)
    (hm : m ∈ d.models) : d.LastOfDelegate m.name := by
  obtain ⟨before, after, hmodels⟩ := List.append_of_mem hm
  refine ⟨before, m, after, hmodels, rfl, fun other hother heq => ?_⟩
  have hother' : other ∈ d.models := by simp [hmodels, hother]
  have hsame : other = m := List.inj_on_of_nodup_map hn hother' hm heq
  subst hsame
  rw [hmodels, List.map_append, List.map_cons] at hn
  have hnot := (List.nodup_cons.mp (List.nodup_append.mp hn).2.1).1
  exact hnot (List.mem_map_of_mem hother)

end Document

/-! ## Stores -/

namespace Store

variable {d : Document} {s s₀ : Store} {t : Table} {delegate model : String}

/-- A delegate of the store without rows is that of the last model that has it. -/
theorem delegates_ofModels (d : Document) (delegate : String) :
    (ofModels d.models).delegates.get? delegate = (d.ofDelegate? delegate).map (·.name) := by
  rw [ofModels, Entries.get?_ofList, ← List.map_reverse, Entries.get?_map, Document.ofDelegate?]

/-- Every model of the document has a table in the store without rows. -/
theorem exists_tableOf_ofModels {m : Model} (hm : m ∈ d.models) :
    ∃ t, (ofModels d.models).tableOf m.name = .ok t := by
  have hsome : ((ofModels d.models).tables.get? m.name).isSome := by
    rw [ofModels, Entries.get?_ofList, ← List.map_reverse, Entries.get?_map, Option.isSome_map,
      List.find?_isSome]
    exact ⟨m, List.mem_reverse.mpr hm, by simp⟩
  obtain ⟨t, ht⟩ := Option.isSome_iff_exists.mp hsome
  exact ⟨t, tableOf_eq_ok_iff.mpr ht⟩

/-- The steps of a call leave the delegates alone. -/
theorem kept_delegates (supply : Supply) (s₀ : Store) :
    Kept supply s₀ fun s => s.delegates = s₀.delegates where
  create p model data _ _ hI := by
    have ho := Progress.create_outcome supply p model data
    generalize p.create supply model data = outcome at ho
    cases ho <;> exact hI
  update p model key row data _ _ _ _ hI := by
    have ho := Progress.update_outcome supply p model key row data
    generalize p.update supply model key row data = outcome at ho
    cases ho <;> exact hI
  remove _ _ _ _ _ hI := hI

/-- A reachable store has the delegates of its document. -/
theorem Reachable.delegates_eq (hd : d.WellFormed) (h : Reachable d s) :
    s.delegates = (ofModels d.models).delegates := by
  induction h with
  | start => rfl
  | @call s supply c before hc ih =>
    have hs := before.sound hd
    exact ((kept_delegates supply s).after hs.named hs.distinct rfl hc).trans ih

/-- Every model of the document has a table in a reachable store. -/
theorem Reachable.exists_tableOf (hd : d.WellFormed) (h : Reachable d s) {m : Model}
    (hm : m ∈ d.models) : ∃ t, s.tableOf m.name = .ok t := by
  induction h with
  | start => exact exists_tableOf_ofModels hm
  | @call s supply c before hc ih =>
    obtain ⟨t₀, h₀⟩ := ih
    obtain ⟨t, ht, -, -⟩ := ((before.sound hd).after hd supply hc).2 _ t₀ h₀
    exact ⟨t, ht⟩

/-- A delegate addresses the table of the model that it stands for. -/
theorem Reachable.tableFor_eq (hd : d.WellFormed) (h : Reachable d s) (delegate : String) :
    s.tableFor delegate =
      match d.ofDelegate? delegate with
      | some m => s.tableOf m.name
      | none => .error (.unknownDelegate delegate) := by
  rw [tableFor, h.delegates_eq hd, delegates_ofModels]
  cases hm : d.ofDelegate? delegate with
  | none => rfl
  | some m =>
    obtain ⟨t, ht⟩ := h.exists_tableOf hd (Document.mem_of_ofDelegate? hm).1
    simp [tableOf_eq_ok_iff.mp ht, ht]

/-- A delegate addresses the table of the same model in every reachable store. -/
theorem Reachable.tableFor_eq_tableOf (hd : d.WellFormed) (h : Reachable d s) {s' : Store}
    (h' : Reachable d s') {t : Table} (ht : s.tableFor delegate = .ok t) :
    s'.tableFor delegate = s'.tableOf t.model.name := by
  rw [h.tableFor_eq hd] at ht
  rw [h'.tableFor_eq hd]
  cases hm : d.ofDelegate? delegate with
  | none => simp [hm] at ht
  | some m =>
    simp only [hm] at ht
    rw [(h.sound hd).named m.name t ht]

/-- The delegate of a model addresses its table exactly if no later model has the same delegate. -/
theorem Reachable.tableFor_lowerFirst_iff (hd : d.WellFormed) (h : Reachable d s)
    (ht : s.tableOf model = .ok t) :
    s.tableFor (Text.lowerFirst model) = .ok t ↔ d.LastOfDelegate model := by
  have hnamed := (h.sound hd).named
  rw [h.tableFor_eq hd, Document.lastOfDelegate_iff]
  cases hm : d.ofDelegate? (Text.lowerFirst model) with
  | none => simp
  | some m =>
    simp only [Option.some.injEq, exists_eq_left']
    constructor
    · intro heq
      rw [← hnamed _ t heq, hnamed _ t ht]
    · intro hname
      rw [hname, ht]

end Store

end ModelGateway
