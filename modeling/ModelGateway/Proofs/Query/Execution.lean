import ModelGateway.Query.Execution

/-!
# Where the errors of an answer come from

An execution notes errors of its own and errors of resolvers. It asks resolvers for fields that the
type system has, and never for the two that introspection answers. So every error of a resolver in
an answer is the error of such a field (`Executor.gives_of_mem_run`).

The proof goes through the parts of an execution: each keeps what holds of all errors so far
(`Run.Keeps`), if the errors that it may note have the property.
-/

namespace ModelGateway.Query

variable {σ ε α β : Type}

/-! ## Parts of an execution -/

/-- Nothing but errors with a property are noted. -/
def Run.Keeps (P : ResponseError ε → Prop) (run : Run σ ε α) : Prop :=
  ∀ p, (∀ e ∈ p.errors, P e) → ∀ e ∈ (run.run p).2.errors, P e

namespace Run.Keeps

variable {P : ResponseError ε → Prop}

theorem pure (a : α) : Run.Keeps (σ := σ) P (Pure.pure a) :=
  fun _ hp => hp

theorem bind {run : Run σ ε α} {next : α → Run σ ε β} (hrun : Run.Keeps P run)
    (hnext : ∀ a, Run.Keeps P (next a)) : Run.Keeps P (run >>= next) :=
  fun p hp => hnext _ _ (hrun p hp)

theorem get_bind {next : Progress σ ε → Run σ ε α}
    (hnext : ∀ p, (∀ e ∈ p.errors, P e) → Run.Keeps P (next p)) : Run.Keeps P (get >>= next) :=
  fun p hp => hnext p hp p hp

theorem set {p : Progress σ ε} (hp : ∀ e ∈ p.errors, P e) : Run.Keeps P (MonadState.set p) :=
  fun _ _ => hp

end Run.Keeps

namespace Executor

variable {x : Executor σ ε} {P : ResponseError ε → Prop}

/-- An error with the property may be noted. -/
theorem keeps_fail {e : ResponseError ε} (he : P e) : Run.Keeps (σ := σ) P (fail e) := by
  intro p hp other hother
  rcases List.mem_append.mp hother with hin | hin
  · exact hp other hin
  · rw [List.mem_singleton.mp hin]
    exact he

/-- The error that a resolver may give for a field of the type system, at any parent and in any
state. -/
def Gives (x : Executor σ ε) (error : ε) : Prop :=
  ∃ object name f parent arguments selections s,
    x.types.field? object name = some f ∧ name ≠ "__schema" ∧ name ≠ "__type" ∧
      (x.resolve object f.name parent arguments selections s).2 = .error error

/-- Errors of the execution itself, and errors that resolvers give. -/
def Known (x : Executor σ ε) : ResponseError ε → Prop
  | .resolver error _ => x.Gives error
  | _ => True

/-! ## Values of fields -/

theorem keeps_unfit (path : List PathItem) : Run.Keeps x.Known (unfit (σ := σ) path) :=
  .bind (keeps_fail (by trivial)) fun _ => .pure none

theorem keeps_completeItems {item : Json → List PathItem → Run σ ε (Option Json)}
    (hitem : ∀ value path, Run.Keeps P (item value path)) (path : List PathItem) (place : Nat)
    (items : List Json) : Run.Keeps P (completeItems item path place items) := by
  induction items generalizing place with
  | nil => exact .pure _
  | cons v rest ih =>
    rw [completeItems]
    refine .bind (hitem _ _) fun value => ?_
    cases value with
    | none => exact .pure _
    | some value =>
      refine .bind (ih (place + 1)) fun values => ?_
      cases values with
      | none => exact .pure _
      | some values => exact .pure _

theorem keeps_complete {named : Json → List PathItem → Run σ ε (Option Json)}
    (hnamed : ∀ value path, Run.Keeps x.Known (named value path)) (type : TypeRef)
    (value : Option Json) (path : List PathItem) :
    Run.Keeps x.Known (complete named type value path) := by
  induction type generalizing value path with
  | named name =>
    cases value with
    | none => exact .pure _
    | some value => exact hnamed value path
  | list item ih =>
    cases value with
    | none => exact .pure _
    | some value =>
      cases value with
      | arr items =>
        exact .bind (keeps_completeItems (fun v p => ih (some v) p) path 0 items) fun _ => .pure _
      | _ => exact keeps_unfit path
  | nonNull inner ih =>
    cases value with
    | none => exact keeps_unfit path
    | some value => exact ih (some value) path

/-- Resolving a field notes the error of its resolver and what completing the value notes. -/
theorem keeps_resolveField {object name : String} {f : FieldDefinition}
    (hf : x.types.field? object name = some f) (hschema : name ≠ "__schema")
    (htype : name ≠ "__type") {parent : Json} {arguments : Entries Json}
    {selections : List Selection} {position : Position} {path : List PathItem}
    {child : Json → List PathItem → Run σ ε (Option Json)}
    (hchild : ∀ value path, Run.Keeps x.Known (child value path)) :
    Run.Keeps x.Known
      (x.resolveField object parent f arguments selections position path child) := by
  unfold resolveField
  refine .get_bind fun p hp => ?_
  split
  rename_i state result hresolve
  refine .bind (.set hp) fun _ => ?_
  split
  · rename_i error
    have hgives : x.Gives error :=
      ⟨object, name, f, parent, arguments, selections, p.state, hf, hschema, htype,
        by rw [hresolve]⟩
    exact .bind (keeps_fail hgives) fun _ => .pure none
  · refine keeps_complete (fun value path => ?_) _ _ _
    split
    · exact hchild value path
    · exact hchild value path
    · split
      · exact .pure _
      · exact keeps_unfit path

/-! ## Selections -/

/-- Introspection answers its own two fields. -/
theorem metaRoot?_eq_none {field : String} {arguments : Entries Json}
    (h : x.metaRoot? field arguments = none) : field ≠ "__schema" ∧ field ≠ "__type" := by
  unfold metaRoot? at h
  split at h
  · cases h
  · rename_i hschema
    split at h
    · split at h <;> cases h
    · rename_i htype
      exact ⟨hschema, htype⟩

/-- Answering selections notes known errors alone. -/
theorem keeps_answers : (selections : List Selection) → ∀ object parent path out,
    Run.Keeps x.Known (x.answers object parent path out selections)
  | [], _, _, _, _ => by
    rw [answers]
    exact .pure _
  | .spread _ _ :: rest, object, parent, path, out => by
    rw [answers]
    exact keeps_answers rest object parent path out
  | .inline condition directives selections :: rest, object, parent, path, out => by
    rw [answers]
    split
    · refine .bind (keeps_answers selections object parent path out) fun found => ?_
      exact keeps_answers rest object parent path found
    · exact keeps_answers rest object parent path out
  | .field label name args directives selections position :: rest, object, parent, path, out => by
    rw [answers]
    split
    · -- whatever the value is, the rest follows
      have hrest : ∀ out, Run.Keeps x.Known (x.answers object parent path out rest) :=
        keeps_answers rest object parent path
      dsimp only
      split
      · exact .bind (.pure _) fun _ => hrest _
      · split
        · exact .bind (.pure _) fun _ => hrest _
        · rename_i hmeta
          obtain ⟨hschema, htype⟩ := metaRoot?_eq_none hmeta
          split
          · exact .bind (.pure none) fun _ => hrest _
          · rename_i f hf
            refine .bind (keeps_resolveField hf hschema htype fun value here => ?_) fun _ => hrest _
            split
            · exact .bind (keeps_answers selections _ value here []) fun _ => .pure _
            · exact .bind (keeps_fail trivial) fun _ => .pure none
    · exact keeps_answers rest object parent path out

/-- Every error of a resolver in an answer was given for a field of the type system. -/
theorem gives_of_mem_run {root : String} {selections : List Selection} {state : σ} {error : ε}
    {position : Position}
    (h : .resolver error position ∈ (x.run root selections state).1.errors) : x.Gives error := by
  unfold run at h
  split at h
  · exact keeps_answers selections root .null [] [] { state, errors := [] } (by simp) _ h
  · simp [Response.refusal] at h

end Executor

end ModelGateway.Query
