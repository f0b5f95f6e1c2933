import Mathlib.Data.List.Infix
import ModelGateway.Proofs.Schema.RecordKey
import ModelGateway.Proofs.Store.Run

/-!
# What a `where` means

A `where` is read once into a filter and then decided on every record. Both together are a direct
evaluation of the `where` on the record.

* **Conditions** (`Condition.ofJson_reads`): which conditions are well formed
  (`Where.ConditionFormed`), and when a value meets one (`Where.meets`).
* **Filters** (`Filter.ofJson_reads`): which `where` is well formed (`Where.Formed`), and when a
  record passes it (`Where.passes`): if it passes all entries (`Where.passesAll_eq_all`).
* **Arguments** (`Filter.ofArgument_reads`): reading succeeds exactly on what is well formed, and
  the filter then matches the records that pass.

A name under which a field is declared is read as that field, also if it is the name of the compound
key; a key that is hidden in this way cannot be asked for (`Where.column_hides_key`).
-/

namespace ModelGateway

/-! ## Readings -/

/-- Reading succeeds exactly on what is well formed, and gives what is right. -/
structure Reads {α : Type} (formed : Prop) (right : α → Prop) (outcome : Except Fault α) :
    Prop where
  accepts : formed → ∃ value, outcome = .ok value ∧ right value
  rejects : ¬formed → ∃ fault, outcome = .error fault

namespace Reads

variable {α β : Type} {formed formed' : Prop} {right right' : α → Prop} {outcome : Except Fault α}

/-- Something well formed is read. -/
theorem ok {value : α} (h : formed) (hr : right value) : Reads formed right (.ok value) :=
  ⟨fun _ => ⟨value, rfl, hr⟩, fun hn => absurd h hn⟩

/-- Something that is not well formed is refused. -/
theorem error (h : ¬formed) (fault : Fault) : Reads formed right (.error fault) :=
  ⟨fun hf => absurd hf h, fun _ => ⟨fault, rfl⟩⟩

/-- Well-formedness in other words. -/
theorem of_iff (h : Reads formed right outcome) (hf : formed' ↔ formed) :
    Reads formed' right outcome where
  accepts hformed := h.accepts (hf.mp hformed)
  rejects hn := h.rejects fun hformed => hn (hf.mpr hformed)

/-- What is made of something that is read. -/
theorem map {right' : β → Prop} (h : Reads formed right outcome) {f : α → β}
    (hr : ∀ value, right value → right' (f value)) : Reads formed right' (outcome.map f) where
  accepts hf := by
    obtain ⟨value, rfl, hright⟩ := h.accepts hf
    exact ⟨f value, rfl, hr value hright⟩
  rejects hn := by
    obtain ⟨fault, rfl⟩ := h.rejects hn
    exact ⟨fault, rfl⟩

/-- A first item and others, read one after another. -/
theorem cons {right' right'' : List α → Prop} {rest : Except Fault (List α)}
    (h : Reads formed right outcome) (h' : Reads formed' right' rest)
    (hr : ∀ value values, right value → right' values → right'' (value :: values)) :
    Reads (formed ∧ formed') right''
      (outcome >>= fun value => rest >>= fun values => pure (value :: values)) where
  accepts hf := by
    obtain ⟨value, rfl, hv⟩ := h.accepts hf.1
    obtain ⟨values, rfl, hvs⟩ := h'.accepts hf.2
    exact ⟨value :: values, rfl, hr value values hv hvs⟩
  rejects hn := by
    by_cases hf : formed
    · obtain ⟨value, rfl, -⟩ := h.accepts hf
      obtain ⟨fault, rfl⟩ := h'.rejects fun hf' => hn ⟨hf, hf'⟩
      exact ⟨fault, rfl⟩
    · obtain ⟨fault, rfl⟩ := h.rejects hf
      exact ⟨fault, rfl⟩

end Reads

/-! ## Conditions -/

namespace Where

/-- Whether an operand suits an operator other than `not`: any value, a list or a text. -/
def OperandFormed (operator : String) (operand : Json) : Prop :=
  operator ∈ ["equals", "lt", "lte", "gt", "gte", "mode"] ∨
    (operator ∈ ["in", "notIn"] ∧ ∃ items, operand = .arr items) ∨
    (operator ∈ ["contains", "startsWith", "endsWith"] ∧ ∃ part, operand = .str part)

/-- A condition is an object of operators with their operands, or a value. The operand of `not` is
a condition itself. -/
inductive ConditionFormed : Json → Prop
  | value {value : Json} (h : value.isObject = false) : ConditionFormed value
  | operators {operators : Entries Json}
      (negated : ∀ e ∈ operators, e.1 = "not" → ConditionFormed e.2)
      (others : ∀ e ∈ operators, e.1 ≠ "not" → OperandFormed e.1 e.2) :
      ConditionFormed (.obj operators)

/-- Whether an operand suits an operator. -/
def OperatorFormed (operator : String) (operand : Json) : Prop :=
  (operator = "not" → ConditionFormed operand) ∧
    (operator ≠ "not" → OperandFormed operator operand)

/-- An object is a condition if its operators have the operands that they take. -/
theorem conditionFormed_obj {operators : Entries Json} :
    ConditionFormed (.obj operators) ↔ ∀ e ∈ operators, OperatorFormed e.1 e.2 := by
  constructor
  · intro h
    cases h with
    | value h => cases h
    | operators negated others => exact fun e he => ⟨negated e he, others e he⟩
  · exact fun h => .operators (fun e he => (h e he).1) fun e he => (h e he).2

/-- A text in the case in which it is compared. -/
def folded (insensitive : Bool) (text : String) : List Char :=
  (if insensitive then Text.lower text else text).toList

/-- Whether characters stand in the relation of a text operator to others. -/
def textMeets (operator : String) (whole part : List Char) : Bool :=
  match operator with
  | "contains" => part <:+: whole
  | "startsWith" => part <+: whole
  | "endsWith" => part <:+ whole
  | _ => false

/-- Whether a value meets an operator other than `not` with an operand that suits it. The option
`mode` rules nothing out. -/
def operandMeets (insensitive : Bool) (actual : Json) (operator : String) (operand : Json) : Bool :=
  match operator with
  | "mode" => true
  | "equals" => valuesEqual actual operand
  | "in" => (operand.asItems?.getD []).any (valuesEqual actual)
  | "notIn" => !actual.isNull && !(operand.asItems?.getD []).any (valuesEqual actual)
  | "lt" => (compareValues actual operand).any (·.isLT)
  | "lte" => (compareValues actual operand).any (·.isLE)
  | "gt" => (compareValues actual operand).any (·.isGT)
  | "gte" => (compareValues actual operand).any (·.isGE)
  | _ =>
    match actual, operand with
    | .str whole, .str part =>
      textMeets operator (folded insensitive whole) (folded insensitive part)
    | _, _ => false

mutual

/-- Whether a value meets a condition: all of its operators, with the `mode` of the same object, or
equality. -/
def meets (actual : Json) : Json → Bool
  | .obj operators =>
    meetsAll actual (Entries.get? operators "mode" = some (.str "insensitive")) operators
  | .null => valuesEqual actual .null
  | .bool b => valuesEqual actual (.bool b)
  | .num n => valuesEqual actual (.num n)
  | .str s => valuesEqual actual (.str s)
  | .arr items => valuesEqual actual (.arr items)

/-- Whether a value meets all operators of a list. -/
def meetsAll (actual : Json) (insensitive : Bool) : List (String × Json) → Bool
  | [] => true
  | (operator, operand) :: rest =>
    (if operator = "not" then !meets actual operand
      else operandMeets insensitive actual operator operand) && meetsAll actual insensitive rest

end

/-- Whether a value meets an operator. -/
def operatorMeets (insensitive : Bool) (actual : Json) (operator : String) (operand : Json) :
    Bool :=
  if operator = "not" then !meets actual operand
  else operandMeets insensitive actual operator operand

/-- A value meets a list of operators if it meets each of them. -/
theorem meetsAll_eq_all (actual : Json) (insensitive : Bool) (operators : Entries Json) :
    meetsAll actual insensitive operators =
      operators.all fun e => operatorMeets insensitive actual e.1 e.2 := by
  induction operators with
  | nil => rfl
  | cons e rest ih => rw [meetsAll, ih, List.all_cons, operatorMeets]

end Where

namespace Text

/-- A text occurs in another one if it is a part of it. -/
theorem occursIn_iff {part whole : List Char} : occursIn part whole = true ↔ part <:+: whole := by
  induction whole with
  | nil => simp [occursIn]
  | cons c rest ih =>
    rw [occursIn, Bool.or_eq_true, List.isPrefixOf_iff_prefix, ih, List.infix_cons_iff]

end Text

namespace TextRelation

/-- The names of text operators. -/
theorem ofName?_eq_none_iff {operator : String} :
    ofName? operator = none ↔ operator ∉ ["contains", "startsWith", "endsWith"] := by
  unfold ofName?
  split <;> simp_all

/-- The relation that a text operator names. -/
theorem holds_eq_textMeets {operator : String} {relation : TextRelation}
    (h : ofName? operator = some relation) (whole part : String) :
    relation.holds whole part = Where.textMeets operator whole.toList part.toList := by
  rw [Bool.eq_iff_iff]
  unfold ofName? at h
  split at h <;> cases h <;>
    simp [holds, Where.textMeets, Text.contains, Text.startsWith, Text.endsWith, Text.occursIn_iff]

/-- A text operator holds of texts in its relation, and of no other values. -/
theorem holdsOf_eq_operandMeets {operator : String} {relation : TextRelation}
    (h : ofName? operator = some relation) (insensitive : Bool) (actual : Json) (part : String) :
    relation.holdsOf insensitive actual part =
      Where.operandMeets insensitive actual operator (.str part) := by
  cases actual with
  | str whole =>
    have hmeets : Where.operandMeets insensitive (.str whole) operator (.str part) =
        Where.textMeets operator (Where.folded insensitive whole)
          (Where.folded insensitive part) := by
      unfold ofName? at h
      split at h <;> cases h <;> rfl
    rw [hmeets]
    cases insensitive <;> exact holds_eq_textMeets h _ _
  | _ =>
    unfold ofName? at h
    split at h <;> cases h <;> rfl

end TextRelation

namespace Condition

open Where

/-- The option that makes text operators ignore letter case. -/
theorem isInsensitive_eq (operators : Entries Json) : isInsensitive operators =
    decide (Entries.get? operators "mode" = some (.str "insensitive")) := by
  rw [isInsensitive, Bool.eq_iff_iff, decide_eq_true_iff, beq_iff_eq]
  cases Entries.get? operators "mode" with
  | none => simp
  | some mode => cases mode <;> simp [Json.asString?]

/-- An operator is read if its operand is well formed. -/
theorem ofOperator_reads (insensitive : Bool) {operator : String} (operand : Json)
    (hnot : operator ≠ "not") (hmode : operator ≠ "mode") :
    Reads (OperandFormed operator operand)
      (fun c => ∀ actual, c.holds actual = operandMeets insensitive actual operator operand)
      (ofOperator insensitive operator operand) := by
  unfold ofOperator
  split
  case h_1 => exact .ok (by simp [OperandFormed]) fun actual => by rw [Condition.holds]; rfl
  case h_2 | h_3 =>
    cases operand with
    | arr items =>
      exact .ok (by simp [OperandFormed]) fun actual => by
        simp [Condition.holds, operandMeets, Json.asItems?]
    | _ => exact .error (by simp [OperandFormed]) _
  case h_8 hequals hin hnotIn hlt hlte hgt hgte =>
    split
    · rename_i relation hrelation
      have hoperator : operator ∈ ["contains", "startsWith", "endsWith"] := by
        by_contra hno
        rw [TextRelation.ofName?_eq_none_iff.mpr hno] at hrelation
        cases hrelation
      cases operand with
      | str part =>
        refine .ok (.inr (.inr ⟨hoperator, part, rfl⟩)) fun actual => ?_
        rw [Condition.holds, TextRelation.holdsOf_eq_operandMeets hrelation]
      | _ => exact .error (by simp_all [OperandFormed]) _
    · rename_i hrelation
      have hoperator := TextRelation.ofName?_eq_none_iff.mp hrelation
      exact .error (by simp_all [OperandFormed]) _
  all_goals
    refine .ok (by simp [OperandFormed]) fun actual => ?_
    simp only [Condition.holds, operandMeets]
    rcases compareValues actual operand with _ | _ | _ | _ <;> rfl

/-- A conjunction holds if all its parts do. -/
theorem holds_conjunction (conditions : List Condition) (actual : Json) :
    (conjunction conditions).holds actual = holdsAll conditions actual := by
  match conditions with
  | [] => rw [conjunction, holds]; simp
  | [condition] => simp [conjunction, holdsAll]
  | _ :: _ :: _ => rw [conjunction, holds]; simp

/-- A value that is no object is a condition. -/
theorem ofJson_reads_value {value : Json} (h : value.isObject = false) :
    Reads (ConditionFormed value) (fun c => ∀ actual, c.holds actual = meets actual value)
      (ofJson value) := by
  rw [Filter.condition_ofJson h]
  refine .ok (.value h) fun actual => ?_
  cases value with
  | obj => cases h
  | _ => rw [holds, meets]

/-- An operator is read if its operand is, in the case of `not`. -/
theorem operator_reads (insensitive : Bool) {operator : String} {operand : Json}
    (hmode : operator ≠ "mode")
    (hnegated : Reads (ConditionFormed operand) (fun c => ∀ actual, c.holds actual =
      meets actual operand) (ofJson operand)) :
    Reads (OperatorFormed operator operand)
      (fun c => ∀ actual, c.holds actual = operatorMeets insensitive actual operator operand)
      (if operator = "not" then (ofJson operand).map .not
        else ofOperator insensitive operator operand) := by
  by_cases hnot : operator = "not"
  · simp only [operatorMeets, hnot, if_true]
    refine (hnegated.map fun c hc actual => ?_).of_iff (by simp [OperatorFormed])
    rw [holds, hc]
  · simp only [operatorMeets, hnot, if_false]
    exact (ofOperator_reads insensitive operand hnot hmode).of_iff
      (by simp [OperatorFormed, hnot])

/-- Operators are read one after another. -/
theorem ofOperators_cons (insensitive : Bool) {operator : String} (operand : Json)
    (rest : List (String × Json)) (hmode : operator ≠ "mode") :
    ofOperators insensitive ((operator, operand) :: rest) =
      (if operator = "not" then (ofJson operand).map .not
        else ofOperator insensitive operator operand) >>= fun c =>
          ofOperators insensitive rest >>= fun conditions => pure (c :: conditions) := by
  rw [ofOperators, if_neg hmode]
  split_ifs <;> rfl

mutual

/-- A condition is read if it is well formed, and then values meet it that meet what was read. -/
theorem ofJson_reads : (condition : Json) → Reads (ConditionFormed condition)
    (fun c => ∀ actual, c.holds actual = meets actual condition) (ofJson condition)
  | .obj operators => by
    have hoperators := ofOperators_reads (isInsensitive operators) operators
    rw [ofJson]
    refine (hoperators.map fun conditions hright actual => ?_).of_iff conditionFormed_obj
    rw [holds_conjunction, hright, isInsensitive_eq, meets, meetsAll_eq_all]
  | .null => ofJson_reads_value rfl
  | .bool _ => ofJson_reads_value rfl
  | .num _ => ofJson_reads_value rfl
  | .str _ => ofJson_reads_value rfl
  | .arr _ => ofJson_reads_value rfl

/-- So are the operators of a condition. -/
theorem ofOperators_reads (insensitive : Bool) : (operators : List (String × Json)) →
    Reads (∀ e ∈ operators, OperatorFormed e.1 e.2)
      (fun conditions => ∀ actual, holdsAll conditions actual =
        operators.all fun e => operatorMeets insensitive actual e.1 e.2)
      (ofOperators insensitive operators)
  | [] => .ok (by simp) fun _ => rfl
  | (operator, operand) :: rest => by
    have hrest := ofOperators_reads insensitive rest
    by_cases hmode : operator = "mode"
    · -- `mode` leaves no condition behind, and every value meets it
      rw [ofOperators, if_pos hmode]
      subst hmode
      have hformed : (∀ e ∈ ("mode", operand) :: rest, OperatorFormed e.1 e.2) ↔
          ∀ e ∈ rest, OperatorFormed e.1 e.2 := by
        simp [OperatorFormed, OperandFormed]
      have hmeets : ∀ actual, operatorMeets insensitive actual "mode" operand = true := by
        simp [operatorMeets, operandMeets]
      simpa only [List.all_cons, hmeets, Bool.true_and] using hrest.of_iff hformed
    · rw [ofOperators_cons insensitive operand rest hmode]
      have hfirst := operator_reads insensitive hmode (ofJson_reads operand)
      refine (hfirst.cons hrest fun c conditions hc hcs actual => ?_).of_iff
        (by rw [List.forall_mem_cons])
      rw [holdsAll, hc, hcs, List.all_cons]

end

end Condition

/-! ## Filters -/

/-- The items of a list; another value alone. -/
def Json.listed : Json → List Json
  | .arr items => items
  | value => [value]

namespace Where

/-- An entry that combines nothing is a condition on a column, or the compound key with a value for
each of its parts under a name that no field has. -/
inductive EntryFormed (m : Model) (name : String) : Json → Prop
  | column {f : Field} {condition : Json} (declared : m.field? name = some f)
      (scalar : f.isRelation = false) (formed : ConditionFormed condition) :
      EntryFormed m name condition
  | key {parts : Entries Json} (undeclared : m.field? name = none)
      (compound : 1 < m.identifyingFields.length)
      (named : m.compoundKeyName m.identifyingFields = name)
      (given : ∀ f ∈ m.identifyingFields, (parts.get? f.name).isSome) :
      EntryFormed m name (.obj parts)

/-- Under the name of a field there is a condition on the column. -/
theorem entryFormed_of_field {m : Model} {name : String} {value : Json} {f : Field}
    (hf : m.field? name = some f) :
    EntryFormed m name value ↔ f.isRelation = false ∧ ConditionFormed value := by
  constructor
  · intro h
    cases h with
    | column declared scalar formed =>
      rw [hf] at declared
      cases declared
      exact ⟨scalar, formed⟩
    | key undeclared =>
      rw [hf] at undeclared
      cases undeclared
  · exact fun h => .column hf h.1 h.2

/-- Under another name there is the compound key. -/
theorem entryFormed_of_not_field {m : Model} {name : String} {value : Json}
    (hf : m.field? name = none) :
    EntryFormed m name value ↔ Filter.isCompoundKey m name = true ∧
      ∃ parts, value = .obj parts ∧
        ∀ f ∈ m.identifyingFields, (Entries.get? parts f.name).isSome := by
  rw [Filter.isCompoundKey, Bool.and_eq_true, decide_eq_true_iff, beq_iff_eq]
  constructor
  · intro h
    cases h with
    | column declared =>
      rw [hf] at declared
      cases declared
    | key _ compound named given => exact ⟨⟨compound, named⟩, _, rfl, given⟩
  · rintro ⟨⟨compound, named⟩, parts, rfl, given⟩
    exact .key hf compound named given

/-- A `where` is null or an object of entries, some of which combine one `where` or a list of
them. -/
inductive Formed (m : Model) : Json → Prop
  | null : Formed m .null
  | obj {entries : Entries Json}
      (combined : ∀ e ∈ entries, e.1 ∈ ["AND", "OR", "NOT"] → ∀ w ∈ e.2.listed, Formed m w)
      (others : ∀ e ∈ entries, e.1 ∉ ["AND", "OR", "NOT"] → EntryFormed m e.1 e.2) :
      Formed m (.obj entries)

/-- Whether an entry of an object is well formed. -/
def PartFormed (m : Model) (name : String) (value : Json) : Prop :=
  (name ∈ ["AND", "OR", "NOT"] → ∀ w ∈ value.listed, Formed m w) ∧
    (name ∉ ["AND", "OR", "NOT"] → EntryFormed m name value)

/-- An object is a `where` if its entries are well formed. -/
theorem formed_obj {m : Model} {entries : Entries Json} :
    Formed m (.obj entries) ↔ ∀ e ∈ entries, PartFormed m e.1 e.2 := by
  constructor
  · intro h
    cases h with
    | obj combined others => exact fun e he => ⟨combined e he, others e he⟩
  · exact fun h => .obj (fun e he => (h e he).1) fun e he => (h e he).2

/-- Whether a record passes an entry that combines nothing. -/
def entryPasses (m : Model) (r : Record) (name : String) (value : Json) : Bool :=
  match m.field? name, value with
  | some _, condition => meets (Record.value r name) condition
  | none, .obj parts => m.identifyingFields.all fun f =>
      valuesEqual (Record.value r f.name) ((Entries.get? parts f.name).getD .null)
  | none, _ => false

/-- Whether a record passes an entry, given whether it passes each of those that the entry
combines. -/
def partPasses (m : Model) (r : Record) (name : String) (value : Json) (verdicts : List Bool) :
    Bool :=
  match name with
  | "AND" => verdicts.all id
  | "OR" => verdicts.any id
  | "NOT" => !verdicts.any id
  | _ => entryPasses m r name value

mutual

/-- Whether a record passes a `where`: all entries of the object, if it is one. -/
def passes (m : Model) (r : Record) : Json → Bool
  | .obj entries => passesAll m r entries
  | _ => true

/-- Whether a record passes each `where` of a list, or the one that stands alone. -/
def verdicts (m : Model) (r : Record) : Json → List Bool
  | .arr items => itemVerdicts m r items
  | .obj entries => [passesAll m r entries]
  | _ => [true]

/-- Whether a record passes each item of a list. -/
def itemVerdicts (m : Model) (r : Record) : List Json → List Bool
  | [] => []
  | item :: rest => passes m r item :: itemVerdicts m r rest

/-- Whether a record passes all entries of an object. -/
def passesAll (m : Model) (r : Record) : List (String × Json) → Bool
  | [] => true
  | (name, value) :: rest =>
    partPasses m r name value (verdicts m r value) && passesAll m r rest

end

/-- What an entry combines is passed item by item. -/
theorem verdicts_eq_map (m : Model) (r : Record) (value : Json) :
    verdicts m r value = value.listed.map (passes m r) := by
  have hitems : ∀ items, itemVerdicts m r items = items.map (passes m r) := by
    intro items
    induction items with
    | nil => rfl
    | cons item rest ih => rw [itemVerdicts, ih, List.map_cons]
  cases value with
  | arr items => exact hitems items
  | _ => simp [verdicts, Json.listed, passes]

/-- A record passes a list of entries if it passes each of them. -/
theorem passesAll_eq_all (m : Model) (r : Record) (entries : Entries Json) :
    passesAll m r entries =
      entries.all fun e => partPasses m r e.1 e.2 (e.2.listed.map (passes m r)) := by
  induction entries with
  | nil => rfl
  | cons e rest ih => rw [passesAll, ih, verdicts_eq_map, List.all_cons]

end Where

namespace Filter

open Where

variable {m : Model} {name : String} {value : Json}

/-- A record passes an alternative if it passes some part. -/
theorem matchesAny_eq_any (parts : List Filter) (r : Record) :
    matchesAny parts r = parts.any (·.matches r) := by
  induction parts with
  | nil => rfl
  | cons part rest ih => simp [matchesAny, ih]

/-- A conjunction is passed if all its parts are. -/
theorem matches_conjunction (parts : List Filter) (r : Record) :
    (conjunction parts).matches r = matchesAll parts r := by
  match parts with
  | [] => rfl
  | [part] => simp [conjunction, matchesAll]
  | _ :: _ :: _ => rfl

/-- A combination is passed as the entry of its name is. -/
theorem matches_combine {combinator : Combinator} (h : Combinator.ofName? name = some combinator)
    (m : Model) (value : Json) (parts : List Filter) (r : Record) :
    (combinator.combine parts).matches r =
      partPasses m r name value (parts.map (·.matches r)) := by
  unfold Combinator.ofName? at h
  split at h <;> cases h <;>
    simp [Combinator.combine, Filter.matches, matchesAll_eq_all, matchesAny_eq_any, partPasses]

/-- The parts of a compound key are read if all are there. -/
theorem keyParts_reads (name : String) (parts : Entries Json) : (fields : List Field) →
    Reads (∀ f ∈ fields, (parts.get? f.name).isSome)
      (fun filters => ∀ r, matchesAll filters r = fields.all fun f =>
        valuesEqual (Record.value r f.name) ((parts.get? f.name).getD .null))
      (keyParts name parts fields)
  | [] => .ok (by simp) fun _ => rfl
  | f :: rest => by
    have hrest := keyParts_reads name parts rest
    rw [keyParts]
    cases hpart : parts.get? f.name with
    | none => exact .error (by simp [hpart]) _
    | some part =>
      refine (hrest.map fun filters hright r => ?_).of_iff (by simp [hpart])
      rw [matchesAll, matches_equals, hright, List.all_cons, hpart]
      rfl

/-- An entry that combines nothing is read if it is well formed. -/
theorem ofEntry_reads (m : Model) (name : String) (value : Json) :
    Reads (EntryFormed m name value) (fun f => ∀ r, f.matches r = entryPasses m r name value)
      (ofEntry m name value) := by
  cases hf : m.field? name with
  | some f =>
    have hpasses : ∀ r, entryPasses m r name value = meets (Record.value r name) value := by
      simp [entryPasses, hf]
    refine Reads.of_iff ?_ (entryFormed_of_field hf)
    simp only [ofEntry, hf, hpasses]
    cases hscalar : f.isRelation with
    | true => exact .error (by simp) _
    | false =>
      refine ((Condition.ofJson_reads value).map fun c hc r => ?_).of_iff (by simp)
      rw [Filter.matches, hc]
  | none =>
    refine Reads.of_iff ?_ (entryFormed_of_not_field hf)
    simp only [ofEntry, hf]
    cases hkey : isCompoundKey m name with
    | false => exact .error (by simp) _
    | true =>
      cases value with
      | obj parts =>
        have hparts := keyParts_reads name parts m.identifyingFields
        refine (hparts.map fun filters hright r => ?_).of_iff (by simp)
        simp only [Filter.matches, hright, entryPasses, hf]
      | _ => exact .error (by simp) _

/-- The filters of a list, or the one of a value that stands alone. -/
def ofListed (m : Model) : Json → Except Fault (List Filter)
  | .arr items => ofItems m items
  | value => (ofJson m value).map fun part => [part]

/-- Entries are read one after another. -/
theorem ofEntries_cons (m : Model) (name : String) (value : Json) (rest : List (String × Json)) :
    ofEntries m ((name, value) :: rest) =
      (match Combinator.ofName? name with
        | some combinator => (ofListed m value).map combinator.combine
        | none => ofEntry m name value) >>= fun part =>
          ofEntries m rest >>= fun parts => pure (part :: parts) := by
  cases value with
  | arr items =>
    simp only [ofEntries, ofListed]
    cases Combinator.ofName? name <;> rfl
  | _ =>
    simp only [ofEntries, ofListed]
    cases Combinator.ofName? name with
    | none => rfl
    | some combinator => cases ofJson m _ <;> rfl

/-- What is read from a list, or from a value that stands alone. -/
abbrev ListedReads (m : Model) (value : Json) : Prop :=
  Reads (∀ w ∈ value.listed, Formed m w)
    (fun filters => ∀ r, filters.map (·.matches r) = value.listed.map (passes m r))
    (ofListed m value)

/-- An entry is read if it is well formed, given that what it combines is. -/
theorem part_reads (h : ListedReads m value) :
    Reads (PartFormed m name value)
      (fun f => ∀ r, f.matches r = partPasses m r name value (value.listed.map (passes m r)))
      (match Combinator.ofName? name with
        | some combinator => (ofListed m value).map combinator.combine
        | none => ofEntry m name value) := by
  cases hname : Combinator.ofName? name with
  | none =>
    have hother := Combinator.ofName?_eq_none_iff.mp hname
    have hpasses : ∀ r, partPasses m r name value (value.listed.map (passes m r)) =
        entryPasses m r name value := by
      intro r
      unfold partPasses
      split <;> simp_all
    simp only [hpasses]
    exact (ofEntry_reads m name value).of_iff (by simp [PartFormed, hother])
  | some combinator =>
    have hcombined : name ∈ ["AND", "OR", "NOT"] := by
      by_contra hother
      rw [Combinator.ofName?_eq_none_iff.mpr hother] at hname
      cases hname
    refine (h.map fun filters hright r => ?_).of_iff (by simp [PartFormed, hcombined])
    rw [matches_combine hname m value, hright]

/-- An object is read if its entries are. -/
theorem object_reads {entries : Entries Json}
    (h : Reads (∀ e ∈ entries, PartFormed m e.1 e.2)
      (fun filters => ∀ r, matchesAll filters r =
        entries.all fun e => partPasses m r e.1 e.2 (e.2.listed.map (passes m r)))
      (ofEntries m entries)) :
    Reads (Formed m (.obj entries)) (fun f => ∀ r, f.matches r = passes m r (.obj entries))
      (ofJson m (.obj entries)) := by
  rw [ofJson]
  refine (h.map fun filters hright r => ?_).of_iff formed_obj
  rw [matches_conjunction, hright, passes, passesAll_eq_all]

/-- A value that is no object is read if it is null. -/
theorem ofJson_reads_value (h : value.isObject = false) :
    Reads (Formed m value) (fun f => ∀ r, f.matches r = passes m r value) (ofJson m value) := by
  cases value with
  | obj => cases h
  | null =>
    rw [ofJson]
    exact .ok .null fun r => by simp [Filter.matches, passes]
  | _ =>
    rw [ofJson]
    exact .error (fun hformed => by cases hformed) _

/-- A value that is no list is read as one that stands alone. -/
theorem listedReads_of_reads (hlist : ∀ items, value ≠ .arr items)
    (h : Reads (Formed m value) (fun f => ∀ r, f.matches r = passes m r value) (ofJson m value)) :
    ListedReads m value := by
  cases value with
  | arr items => exact absurd rfl (hlist items)
  | _ =>
    simp only [ListedReads, ofListed]
    refine (h.map fun f hright r => ?_).of_iff (by simp [Json.listed])
    simp [hright, Json.listed]

mutual

/-- A `where` is read if it is well formed, and then the filter matches the records that pass. -/
theorem ofJson_reads (m : Model) : (w : Json) →
    Reads (Formed m w) (fun f => ∀ r, f.matches r = passes m r w) (ofJson m w)
  | .obj entries => object_reads (ofEntries_reads m entries)
  | .null => ofJson_reads_value rfl
  | .bool _ => ofJson_reads_value rfl
  | .num _ => ofJson_reads_value rfl
  | .str _ => ofJson_reads_value rfl
  | .arr _ => ofJson_reads_value rfl

/-- So is what an entry combines. -/
theorem ofListed_reads (m : Model) : (value : Json) → ListedReads m value
  | .arr items => ofItems_reads m items
  -- a single `where` is as large as the entry's value, so that only its entries are smaller
  | .obj entries => listedReads_of_reads (by simp) (object_reads (ofEntries_reads m entries))
  | .null => listedReads_of_reads (by simp) (ofJson_reads_value rfl)
  | .bool _ => listedReads_of_reads (by simp) (ofJson_reads_value rfl)
  | .num _ => listedReads_of_reads (by simp) (ofJson_reads_value rfl)
  | .str _ => listedReads_of_reads (by simp) (ofJson_reads_value rfl)

/-- So are the items of a list. -/
theorem ofItems_reads (m : Model) : (items : List Json) →
    Reads (∀ w ∈ items, Formed m w)
      (fun filters => ∀ r, filters.map (·.matches r) = items.map (passes m r)) (ofItems m items)
  | [] => .ok (by simp) fun _ => rfl
  | item :: rest => by
    have hrest := ofItems_reads m rest
    refine ((ofJson_reads m item).cons hrest fun f filters hf hfs r => ?_).of_iff
      (by rw [List.forall_mem_cons])
    rw [List.map_cons, List.map_cons, hf, hfs]

/-- So are the entries of an object. -/
theorem ofEntries_reads (m : Model) : (entries : List (String × Json)) →
    Reads (∀ e ∈ entries, PartFormed m e.1 e.2)
      (fun filters => ∀ r, matchesAll filters r =
        entries.all fun e => partPasses m r e.1 e.2 (e.2.listed.map (passes m r)))
      (ofEntries m entries)
  | [] => .ok (by simp) fun _ => rfl
  | (name, value) :: rest => by
    have hrest := ofEntries_reads m rest
    have hlisted := ofListed_reads m value
    rw [ofEntries_cons]
    refine ((part_reads hlisted).cons hrest fun f filters hf hfs r => ?_).of_iff
      (by rw [List.forall_mem_cons])
    rw [matchesAll, hf, hfs, List.all_cons]

end

/-- A `where` argument is read exactly if it is absent or well formed, and then the filter matches
the records that pass it. -/
theorem ofArgument_reads (m : Model) (w : Option Json) :
    Reads (∀ value ∈ w, Formed m value)
      (fun filter => ∀ r, filter.matches r = w.all (passes m r)) (ofArgument m w) := by
  cases w with
  | none => exact .ok (by simp) fun r => by simp [Filter.matches]
  | some value => exact (ofJson_reads m value).of_iff (by simp)

end Filter

/-! ## A hidden key -/

namespace Where.Pairs

/-- A pair is identified by two columns, and the name of their key is that of a third one. -/
def model : Model where
  name := "Pair"
  fields := ["a", "b", "a_b"].map (Store.Seats.column · true)
  primaryKey := some { name := none, fields := ["a", "b"] }

/-- The two parts of the key. -/
def key : Entries Json :=
  [("a", .ofNat 1), ("b", .ofNat 2)]

end Where.Pairs

/-- A key whose name is that of a column cannot be asked for, although all its parts are given. -/
theorem Where.column_hides_key :
    let m := Pairs.model
    (m.fields.map (·.name)).Nodup ∧ 1 < m.identifyingFields.length ∧
      m.compoundKeyName m.identifyingFields = "a_b" ∧
      (∀ f ∈ m.identifyingFields, (Entries.get? Pairs.key f.name).isSome) ∧
      Filter.ofArgument m (some (.obj [("a_b", .obj Pairs.key)])) =
        .error (.unknownOperator "a") := by
  refine ⟨by decide, by decide, by decide, by decide, rfl⟩

end ModelGateway
