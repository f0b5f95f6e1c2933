import ModelGateway.Proofs.Schema.Identifying
import ModelGateway.Proofs.Schema.RecordKey
import ModelGateway.Proofs.Store.Uniqueness

/-!
# Columns of texts

Values are compared without regard to the type of their column. So two texts that are both RFC 3339
instants are equal if they are of one moment (`SameMoment`), also in a column of the type `String`.

* **Comparisons** (`textColumn_compares_by_moment`): this decides the filters that ask for a text
  and the check of a unique column. A text that is no instant is equal to itself alone
  (`sameMoment_iff_eq`).
* **Stores** (`Store.Reachable.not_sameMoment`): in a unique column no two rows have texts of one
  moment.
-/

namespace ModelGateway

/-! ## Equal texts -/

/-- Two texts are the same, or they are instants of one moment. -/
def SameMoment (x y : String) : Prop :=
  x = y ∨ ∃ a b, Time.Instant.read? x = some a ∧ Time.Instant.read? y = some b ∧
    a.seconds = b.seconds ∧ a.nanos = b.nanos

variable {x y text : String} {m : Model} {f : Field}

/-- Texts are equal as values if they are the same or of one moment. -/
theorem valuesEqual_str_iff : valuesEqual (.str x) (.str y) = true ↔ SameMoment x y := by
  rw [valuesEqual, beq_iff_eq, compareTexts_eq_iff]
  simp only [Time.Instant.compare_eq_iff, SameMoment]

/-- Being of one moment does not depend on the order of the texts. -/
theorem SameMoment.symm (h : SameMoment x y) : SameMoment y x := by
  rcases h with rfl | ⟨a, b, hx, hy, hseconds, hnanos⟩
  · exact .inl rfl
  · exact .inr ⟨b, a, hy, hx, hseconds.symm, hnanos.symm⟩

/-- A text that is no instant is of one moment with itself alone. -/
theorem sameMoment_iff_eq (h : Time.Instant.read? x = none) : SameMoment x y ↔ x = y := by
  refine or_iff_left ?_
  rintro ⟨a, -, hx, -⟩
  cases h.symm.trans hx

/-! ## Filters -/

/-- The conditions by which a filter asks for a text. -/
def textConditions (text : String) : List Json :=
  [.str text, .obj [("equals", .str text)], .obj [("in", .arr [.str text])]]

/-- Each of these conditions asks for a value that is equal to the text. -/
theorem exists_condition_of_textConditions {condition : Json}
    (h : condition ∈ textConditions text) :
    ∃ c, Condition.ofJson condition = .ok c ∧
      ∀ actual, c.holds actual = valuesEqual actual (.str text) := by
  simp only [textConditions, List.mem_cons, List.not_mem_nil, or_false] at h
  rcases h with rfl | rfl | rfl
  · exact ⟨.equals (.str text), rfl, fun _ => by rw [Condition.holds]⟩
  · exact ⟨.equals (.str text), rfl, fun _ => by rw [Condition.holds]⟩
  · refine ⟨.oneOf [.str text], rfl, fun actual => ?_⟩
    rw [Condition.holds, List.any_cons, List.any_nil, Bool.or_false]

/-- A filter by such a condition for a name that is first that of a column is read, and is passed by
the records whose value is equal to the text. -/
theorem exists_filter_of_textConditions {name : String} (hfield : m.field? name = some f)
    (hscalar : f.isRelation = false) (hname : name ∉ ["AND", "OR", "NOT"]) {condition : Json}
    (h : condition ∈ textConditions text) :
    ∃ filter, Filter.ofArgument m (some (.obj [(name, condition)])) = .ok filter ∧
      ∀ r, filter.matches r = valuesEqual (Record.value r name) (.str text) := by
  obtain ⟨c, hc, hholds⟩ := exists_condition_of_textConditions h
  refine ⟨.field name c, ?_, fun r => ?_⟩
  · rw [Filter.ofArgument_single hname]
    unfold Filter.ofEntry
    rw [hfield]
    dsimp only
    rw [if_neg (by simp [hscalar]), hc]
    rfl
  · rw [Filter.matches, hholds]

/-! ## Unique columns -/

/-- Two records with texts in a column clash on it if the texts are the same or of one moment. -/
theorem clash_str_iff {a b : Record} (ha : Record.value a f.name = .str x)
    (hb : Record.value b f.name = .str y) :
    Table.clash [f.name] a b = true ↔ SameMoment x y := by
  rw [Table.clash_eq_true_iff, Record.Clashes, List.forall_mem_singleton, ha, hb,
    valuesEqual_str_iff]
  simp

/-- A filter that asks a column for a text is passed by a record with another text in this column
exactly if the two texts are the same or instants of one moment, unless the name of the column means
a combinator, or first a relation. The same decides whether two records clash on the column, which
is checked if the column is unique. -/
theorem textColumn_compares_by_moment (hf : f ∈ m.fields) (hscalar : f.isRelation = false)
    (x : String) :
    (f.name ∉ ["AND", "OR", "NOT"] →
      (∀ g, m.field? f.name = some g → g.isRelation = false) →
      ∀ condition ∈ textConditions x, ∃ filter,
        Filter.ofArgument m (some (.obj [(f.name, condition)])) = .ok filter ∧
          ∀ y r, Record.value r f.name = .str y → (filter.matches r = true ↔ SameMoment x y)) ∧
      (f.isUnique = true → [f.name] ∈ Table.uniqueGroups m ∧
        ∀ y a b, Record.value a f.name = .str x → Record.value b f.name = .str y →
          (Table.clash [f.name] a b = true ↔ SameMoment x y)) := by
  constructor
  · intro hname hfirst condition hcondition
    obtain ⟨g, hg⟩ := Option.isSome_iff_exists.mp (Model.field?_isSome_iff.mpr ⟨f, hf, rfl⟩)
    obtain ⟨filter, hfilter, hpasses⟩ :=
      exists_filter_of_textConditions hg (hfirst g hg) hname hcondition
    refine ⟨filter, hfilter, fun y r hr => ?_⟩
    rw [hpasses, hr, valuesEqual_str_iff]
    exact ⟨SameMoment.symm, SameMoment.symm⟩
  · intro hunique
    refine ⟨Table.mem_uniqueGroups_iff.mpr ?_, fun y a b => clash_str_iff⟩
    exact .column hf (.inr hunique) hscalar

/-! ## Labels -/

namespace Labels

/-- The name of a label. -/
def name : Field :=
  { Store.Seats.column "name" true with
    typeName := "String"
    isUnique := true }

/-- A label has a number and a name of its own. -/
def model : Model where
  name := "Label"
  fields := [{ Store.Seats.column "number" true with isId := true }, name]
  primaryKey := none

/-- A label whose text is named like a combinator. -/
def combining : Model :=
  { model with fields := [{ name with name := "AND" }] }

/-- A label whose name comes after a relation of the same name. -/
def shadowed : Model :=
  { model with
    fields :=
      [{ name with kind := .object, typeName := "Label", relationName := some "Names" }, name] }

end Labels

/-- What the filters for a name that is an instant find, and which names clash with it. -/
theorem labels_name_compares_by_moment :
    Labels.name ∈ Labels.model.fields ∧ Labels.name.isRelation = false ∧
      Labels.name.typeName = "String" ∧
      (Labels.name.name ∉ ["AND", "OR", "NOT"] →
        (∀ g, Labels.model.field? Labels.name.name = some g → g.isRelation = false) →
        ∀ condition ∈ textConditions "2024-01-01T00:00:00Z", ∃ filter,
          Filter.ofArgument Labels.model (some (.obj [(Labels.name.name, condition)])) =
              .ok filter ∧
            ∀ y r, Record.value r Labels.name.name = .str y →
              (filter.matches r = true ↔ SameMoment "2024-01-01T00:00:00Z" y)) ∧
      (Labels.name.isUnique = true → [Labels.name.name] ∈ Table.uniqueGroups Labels.model ∧
        ∀ y a b, Record.value a Labels.name.name = .str "2024-01-01T00:00:00Z" →
          Record.value b Labels.name.name = .str y →
          (Table.clash [Labels.name.name] a b = true ↔ SameMoment "2024-01-01T00:00:00Z" y)) := by
  have hmem : Labels.name ∈ Labels.model.fields := by decide
  exact ⟨hmem, rfl, rfl, textColumn_compares_by_moment hmem rfl _⟩

/-- A filter for one spelling of an instant finds the label with another one, and the two names
clash. A filter for a text whose column is named like a combinator is refused, and so is one for a
name that is first that of a relation. -/
theorem labels_name_two_spellings :
    let r (number : Nat) (text : String) : Record :=
      [("number", .ofNat number), ("name", .str text)]
    let spellings := ("2024-01-01T00:00:00Z", "2024-01-01T00:00:00+00:00")
    Labels.name ∈ Labels.model.fields ∧ Labels.name.typeName = "String" ∧
      Labels.name.isUnique = true ∧ spellings.1 ≠ spellings.2 ∧
      (∃ filter, Filter.ofArgument Labels.model
        (some (.obj [("name", .str spellings.1)])) = .ok filter ∧
          filter.matches (r 2 spellings.2) = true) ∧
      Table.clash ["name"] (r 1 spellings.1) (r 2 spellings.2) = true ∧
      Filter.ofArgument Labels.combining (some (.obj [("AND", .str "a")])) =
        .error (.filterNotObject (.str "a")) ∧
      Labels.name ∈ Labels.shadowed.fields ∧
      Filter.ofArgument Labels.shadowed (some (.obj [("name", .str "a")])) =
        .error (.relationFilter "Label" "name") := by
  intro r spellings
  have hfound : Filter.ofArgument Labels.model (some (.obj [("name", .str spellings.1)])) =
      .ok (.field "name" (.equals (.str spellings.1))) := rfl
  refine ⟨by decide, rfl, rfl, by decide, ⟨_, hfound, ?_⟩, ?_, rfl, by decide, rfl⟩
  · decide +kernel
  · decide +kernel

namespace Store

/-- In a unique column of a reachable store no two rows have the same text or texts of one
moment. -/
theorem Reachable.not_sameMoment {d : Document} {s : Store} (hd : d.WellFormed)
    (h : Reachable d s) {t : Table} {model : String} (ht : s.tableOf model = .ok t)
    (hf : f ∈ t.model.fields) (hscalar : f.isRelation = false) (hunique : f.isUnique = true) :
    t.rows.Pairwise fun a b => ∀ x y, Record.value a.2.data f.name = .str x →
      Record.value b.2.data f.name = .str y → ¬ SameMoment x y := by
  refine (h.unique hd model t ht).imp fun hseparate x y hx hy hsame => ?_
  have hclash := (clash_str_iff hx hy).mpr hsame
  exact (hseparate [f.name] (.column hf (.inr hunique) hscalar)).1
    (Table.clash_eq_true_iff.mp hclash)

end Store

end ModelGateway
