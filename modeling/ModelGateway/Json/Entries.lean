/-!
# Ordered entries

Named values in insertion order: the entries of a JSON object, the columns of a record, the
arguments of a field. A name keeps the place of its first insertion and the value of its last.
-/

namespace ModelGateway

/-- Named values in the order in which their names were first inserted. -/
abbrev Entries (α : Type) := List (String × α)

namespace Entries

variable {α β : Type}

/-- The value stored under `name`. -/
def get? : Entries α → String → Option α
  | [], _ => none
  | (k, v) :: rest, name => if k = name then some v else get? rest name

/-- Whether some entry is called `name`. -/
def contains (entries : Entries α) (name : String) : Bool :=
  (entries.get? name).isSome

/-- Stores `value` under `name`: in the place of an entry of that name, else at the end. -/
def insert : Entries α → String → α → Entries α
  | [], name, value => [(name, value)]
  | (k, v) :: rest, name, value =>
    if k = name then (k, value) :: rest else (k, v) :: insert rest name value

/-- Inserts the entries of the second argument one after another. -/
def extend (entries : Entries α) (more : Entries α) : Entries α :=
  more.foldl (fun acc e => acc.insert e.1 e.2) entries

/-- The entries of a list in which a name may repeat. -/
def ofList (pairs : List (String × α)) : Entries α :=
  extend [] pairs

/-- The names, in order. -/
def names (entries : Entries α) : List String :=
  entries.map (·.1)

/-- The values, in order. -/
def values (entries : Entries α) : List α :=
  entries.map (·.2)

@[simp] theorem get?_nil (name : String) : get? ([] : Entries α) name = none := rfl

/-- Reading back what was just inserted. -/
theorem get?_insert_self (entries : Entries α) (name : String) (value : α) :
    (entries.insert name value).get? name = some value := by
  induction entries with
  | nil => simp [insert, get?]
  | cons e rest ih =>
    obtain ⟨k, v⟩ := e
    by_cases h : k = name <;> simp [insert, get?, h, ih]

/-- Inserting under one name leaves the others alone. -/
theorem get?_insert_of_ne (entries : Entries α) {name other : String} (value : α)
    (h : other ≠ name) : (entries.insert name value).get? other = entries.get? other := by
  induction entries with
  | nil => simp [insert, get?, h.symm]
  | cons e rest ih =>
    obtain ⟨k, v⟩ := e
    by_cases hk : k = name
    · subst hk; simp [insert, get?, h.symm]
    · simp only [insert, if_neg hk, get?, ih]

/-- Inserting changes no place: the names stay, with a new one at the end. -/
theorem names_insert (entries : Entries α) (name : String) (value : α) :
    (entries.insert name value).names =
      if name ∈ entries.names then entries.names else entries.names ++ [name] := by
  induction entries with
  | nil => simp [insert, names]
  | cons e rest ih =>
    obtain ⟨k, v⟩ := e
    by_cases hk : k = name
    · simp [insert, names, hk]
    · have hk' : ¬ name = k := fun h => hk h.symm
      simp only [names] at ih
      by_cases hm : name ∈ rest.map (·.1) <;> simp_all [insert, names]

end Entries

end ModelGateway
