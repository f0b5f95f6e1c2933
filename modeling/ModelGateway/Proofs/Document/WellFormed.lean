import ModelGateway.Document.Decode
import ModelGateway.Proofs.Json.WellFormed

/-!
# Well-formed documents

The values of a document that a store uses are the defaults of fields. A document is well formed
(`Document.WellFormed`) if they are, and every document that is read from a text is
(`Document.wellFormed_of_read?`).
-/

namespace ModelGateway

/-- The default value of the field is well formed. -/
def Field.WellFormed (f : Field) : Prop :=
  ∀ value, f.default = some value → value.WellFormed

/-- The default values of the model's fields are well formed. -/
def Model.WellFormed (m : Model) : Prop :=
  ∀ f ∈ m.fields, f.WellFormed

/-- The default values of the document's models are well formed. -/
def Document.WellFormed (d : Document) : Prop :=
  ∀ m ∈ d.models, m.WellFormed

/-! ## Readers -/

namespace Shape

variable {α : Type} {read : Reader α} {P : α → Prop}

/-- What every item of a list has, every item of the list that is read has. -/
theorem forall_of_list? (hread : ∀ tree x, read tree = some x → P x) {tree : Source} {xs : List α}
    (h : list? read tree = some xs) : ∀ x ∈ xs, P x := by
  cases tree with
  | arr level items =>
    rw [list?] at h
    induction items generalizing xs with
    | nil =>
      cases h
      exact fun x hx => absurd hx List.not_mem_nil
    | cons item rest ih =>
      rw [List.mapM_cons] at h
      obtain ⟨y, hy, h⟩ := Option.bind_eq_some_iff.mp h
      obtain ⟨ys, hys, h⟩ := Option.bind_eq_some_iff.mp h
      cases h
      exact List.forall_mem_cons.mpr ⟨hread item y hy, ih hys⟩
  | _ => cases h

/-- What every read value has, the value of a part that must be there has. -/
theorem of_required? {τ : Type} {read : τ → Option α} (hread : ∀ tree x, read tree = some x → P x)
    {tree : Option τ} {x : α} (h : required? read tree = some x) : P x := by
  cases tree with
  | none => cases h
  | some tree => exact hread tree x h

/-- What every read value and the one for an absent part have, the value of a part has. -/
theorem of_optional? {τ : Type} {read : τ → Option α} {absent : α} (habsent : P absent)
    (hread : ∀ tree x, read tree = some x → P x) {tree : Option τ} {x : α}
    (h : optional? absent read tree = some x) : P x := by
  cases tree with
  | none =>
    cases h
    exact habsent
  | some tree => exact hread tree x h

/-- A value that may be null is well formed if it is one. -/
theorem wellFormed_of_nullableValue? {tree : Source} {x : Option Json}
    (h : nullableValue? tree = some x) : ∀ value, x = some value → value.WellFormed := by
  unfold nullableValue? nullable? at h
  split at h
  · cases h
    simp
  · obtain ⟨y, hy, rfl⟩ := Option.map_eq_some_iff.mp h
    rintro value ⟨⟩
    exact Source.wellFormed_of_toJson? hy

end Shape

/-! ## Documents -/

/-- A field that is read is well formed. -/
theorem Field.wellFormed_of_read? {tree : Source} {f : Field} (h : Field.read? tree = some f) :
    f.WellFormed := by
  unfold Field.read? at h
  obtain ⟨parts, -, h⟩ := Option.bind_eq_some_iff.mp h
  obtain ⟨name, -, h⟩ := Option.bind_eq_some_iff.mp h
  obtain ⟨kind, -, h⟩ := Option.bind_eq_some_iff.mp h
  obtain ⟨typeName, -, h⟩ := Option.bind_eq_some_iff.mp h
  obtain ⟨isList, -, h⟩ := Option.bind_eq_some_iff.mp h
  obtain ⟨isRequired, -, h⟩ := Option.bind_eq_some_iff.mp h
  obtain ⟨isUnique, -, h⟩ := Option.bind_eq_some_iff.mp h
  obtain ⟨isId, -, h⟩ := Option.bind_eq_some_iff.mp h
  obtain ⟨isUpdatedAt, -, h⟩ := Option.bind_eq_some_iff.mp h
  obtain ⟨hasDefault, -, h⟩ := Option.bind_eq_some_iff.mp h
  obtain ⟨default, hdefault, h⟩ := Option.bind_eq_some_iff.mp h
  obtain ⟨relationName, -, h⟩ := Option.bind_eq_some_iff.mp h
  obtain ⟨fromFields, -, h⟩ := Option.bind_eq_some_iff.mp h
  obtain ⟨toFields, -, h⟩ := Option.bind_eq_some_iff.mp h
  cases h
  exact Shape.of_optional? (P := fun x : Option Json => ∀ value, x = some value → value.WellFormed)
    (by simp) (fun tree x => Shape.wellFormed_of_nullableValue?) hdefault

/-- A model that is read is well formed. -/
theorem Model.wellFormed_of_read? {tree : Source} {m : Model} (h : Model.read? tree = some m) :
    m.WellFormed := by
  unfold Model.read? at h
  obtain ⟨parts, -, h⟩ := Option.bind_eq_some_iff.mp h
  obtain ⟨name, -, h⟩ := Option.bind_eq_some_iff.mp h
  obtain ⟨fields, hfields, h⟩ := Option.bind_eq_some_iff.mp h
  obtain ⟨primaryKey, -, h⟩ := Option.bind_eq_some_iff.mp h
  cases h
  exact Shape.of_required? (P := fun fields : List Field => ∀ f ∈ fields, f.WellFormed)
    (fun tree xs => Shape.forall_of_list? fun _ _ => Field.wellFormed_of_read?) hfields

/-- Models that are read are well formed. -/
theorem Document.wellFormed_of_readModels? {tree : Source} {models : List Model}
    (h : Document.readModels? tree = some models) : ∀ m ∈ models, m.WellFormed := by
  unfold readModels? at h
  obtain ⟨parts, -, h⟩ := Option.bind_eq_some_iff.mp h
  exact Shape.of_optional? (P := fun models : List Model => ∀ m ∈ models, m.WellFormed) (by simp)
    (fun tree xs => Shape.forall_of_list? fun _ _ => Model.wellFormed_of_read?) h

/-- Every document that is read is well formed. -/
theorem Document.wellFormed_of_read? {tree : Source} {d : Document}
    (h : Document.read? tree = some d) : d.WellFormed := by
  unfold Document.read? at h
  obtain ⟨parts, -, h⟩ := Option.bind_eq_some_iff.mp h
  obtain ⟨models, hmodels, h⟩ := Option.bind_eq_some_iff.mp h
  obtain ⟨types, -, h⟩ := Option.bind_eq_some_iff.mp h
  obtain ⟨mappings, -, h⟩ := Option.bind_eq_some_iff.mp h
  cases h
  exact Shape.of_required? (P := fun models : List Model => ∀ m ∈ models, m.WellFormed)
    (fun tree xs => Document.wellFormed_of_readModels?) hmodels

end ModelGateway
