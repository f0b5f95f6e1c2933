import ModelGateway.Proofs.Store.Sound

/-!
# Runs of single writes

A course (`Store.Course`) is a run as a sequence of single writes, each at a point of a call. A rule
says which creations and updates it has, and may look at all that a write works on: the values of
the call, the state, the data, and for an update the row that it rewrites. Without restrictions
(`Rule.any`) any run of calls is a course (`Store.Reachable.course`).
-/

namespace ModelGateway.Store

/-- Which single writes a run has. -/
structure Rule where
  /-- The creations of a record of a model from data. -/
  creation : Supply → Progress → String → Json → Prop
  /-- The updates of a row of a model by data. -/
  update : Supply → Progress → String → RowKey → Row → Json → Prop

/-- All writes. -/
def Rule.any : Rule where
  creation _ _ _ _ := True
  update _ _ _ _ _ _ := True

/-- The stores that single writes make of the store without rows of a document, each after the store
at the start of its call. -/
inductive Course (d : Document) (rule : Rule) : Store → Store → Prop
  | start : Course d rule (ofModels d.models) (ofModels d.models)
  /-- The next call starts. -/
  | next {s₀ s : Store} (before : Course d rule s₀ s) : Course d rule s s
  | create {s₀ : Store} {p : Progress} (supply : Supply) {model : String} {data : Json}
      (before : Course d rule s₀ p.store) (wellFormed : data.WellFormed)
      (allowed : rule.creation supply p model data) :
      Course d rule s₀ (p.create supply model data).1.store
  /-- An update rewrites a row that the store had at the start of the call. -/
  | update {s₀ : Store} {p : Progress} (supply : Supply) {model : String} {key : RowKey} {row : Row}
      {data : Json} (before : Course d rule s₀ p.store) (wellFormed : data.WellFormed)
      (found : (key, row) ∈ s₀.rowsOf model) (settled : p.store.Settled model (key, row))
      (allowed : rule.update supply p model key row data) :
      Course d rule s₀ (p.update supply model key row data).1.store
  | remove {s₀ s : Store} {t : Table} (key : RowKey) (before : Course d rule s₀ s)
      (found : s.tableOf t.model.name = .ok t) :
      Course d rule s₀ (s.setTable (t.remove key))

variable {d : Document} {s s₀ : Store}

/-- Every run of calls is a course of writes. -/
theorem Reachable.course (hd : d.WellFormed) (h : Reachable d s) : Course d .any s s := by
  induction h with
  | start => exact .start
  | @call s supply c before hc ih =>
    have hkept : Kept supply s (Course d .any s) := {
      create := fun p model data hdata _ hbefore => .create supply hbefore hdata trivial
      update := fun p model key row data hdata _ hmem hsettled hbefore =>
        .update supply hbefore hdata hmem hsettled trivial
      remove := fun s t key _ found hbefore => .remove key hbefore found }
    have hs := before.sound hd
    exact .next (hkept.after hs.named hs.distinct ih hc)

/-- In the course of calls the store is sound, and a later state of that at the start of the
call. -/
theorem Course.sound {rule : Rule} (hd : d.WellFormed) (h : Course d rule s₀ s) :
    s₀.Sound d ∧ s.Sound d ∧ s₀.Later s := by
  induction h with
  | start => exact ⟨sound_ofModels d, sound_ofModels d, .refl _⟩
  | next _ ih => exact ⟨ih.2.1, ih.2.1, .refl _⟩
  | create supply _ wellFormed _ ih =>
    exact ⟨ih.1, ih.2.1.create hd supply _ ih.2.2 wellFormed⟩
  | update supply _ wellFormed found settled _ ih =>
    exact ⟨ih.1, ih.1.update supply ih.2.1 ih.2.2 found settled wellFormed⟩
  | remove key _ found ih =>
    obtain ⟨hs₀, hs, hlater⟩ := ih
    exact ⟨hs₀, hs.setTable found rfl ((hs.table _ _ found).remove key),
      hlater.setTable hs.named found rfl (Nat.le_refl _)⟩

end ModelGateway.Store
