import ModelGateway.Json.Entries
import ModelGateway.Json.Number

/-!
# JSON values

The value type of arguments, records and answers, with two equalities: `=` tells apart whatever
the written form tells apart, `Json.same` ignores the order of an object's names and the sign of a
zero.
-/

namespace ModelGateway

/-- A JSON value. The names of an object keep their order. -/
inductive Json where
  | null
  | bool (value : Bool)
  | num (value : Number)
  | str (value : String)
  | arr (items : List Json)
  | obj (entries : List (String × Json))

namespace Json

instance : Inhabited Json := ⟨.null⟩

/-! ## Exact equality -/

mutual

/-- Decides equality of values. -/
def decEq : (a b : Json) → Decidable (a = b)
  | .null, .null => isTrue rfl
  | .bool a, .bool b => if h : a = b then isTrue (h ▸ rfl) else isFalse (by simpa using h)
  | .num a, .num b => if h : a = b then isTrue (h ▸ rfl) else isFalse (by simpa using h)
  | .str a, .str b => if h : a = b then isTrue (h ▸ rfl) else isFalse (by simpa using h)
  | .arr a, .arr b =>
    match decEqItems a b with
    | isTrue h => isTrue (h ▸ rfl)
    | isFalse h => isFalse (by simpa using h)
  | .obj a, .obj b =>
    match decEqEntries a b with
    | isTrue h => isTrue (h ▸ rfl)
    | isFalse h => isFalse (by simpa using h)
  | .null, .bool _ | .null, .num _ | .null, .str _ | .null, .arr _ | .null, .obj _
  | .bool _, .null | .bool _, .num _ | .bool _, .str _ | .bool _, .arr _ | .bool _, .obj _
  | .num _, .null | .num _, .bool _ | .num _, .str _ | .num _, .arr _ | .num _, .obj _
  | .str _, .null | .str _, .bool _ | .str _, .num _ | .str _, .arr _ | .str _, .obj _
  | .arr _, .null | .arr _, .bool _ | .arr _, .num _ | .arr _, .str _ | .arr _, .obj _
  | .obj _, .null | .obj _, .bool _ | .obj _, .num _ | .obj _, .str _ | .obj _, .arr _ =>
    isFalse (by simp)

/-- Decides equality of lists of values. -/
def decEqItems : (a b : List Json) → Decidable (a = b)
  | [], [] => isTrue rfl
  | [], _ :: _ => isFalse (by simp)
  | _ :: _, [] => isFalse (by simp)
  | x :: xs, y :: ys =>
    match decEq x y, decEqItems xs ys with
    | isTrue h, isTrue h' => isTrue (h ▸ h' ▸ rfl)
    | isFalse h, _ => isFalse (by simp [h])
    | _, isFalse h => isFalse (by simp [h])

/-- Decides equality of lists of entries. -/
def decEqEntries : (a b : List (String × Json)) → Decidable (a = b)
  | [], [] => isTrue rfl
  | [], _ :: _ => isFalse (by simp)
  | _ :: _, [] => isFalse (by simp)
  | (k, x) :: xs, (l, y) :: ys =>
    if hk : k = l then
      match decEq x y, decEqEntries xs ys with
      | isTrue h, isTrue h' => isTrue (hk ▸ h ▸ h' ▸ rfl)
      | isFalse h, _ => isFalse (by simp [h])
      | _, isFalse h => isFalse (by simp [h])
    else isFalse (by simp [hk])

end

instance : DecidableEq Json := decEq

/-! ## Equality up to order -/

mutual

/-- Equality up to the order of names in objects; numbers of one kind are equal by value. -/
def same : Json → Json → Bool
  | .null, .null => true
  | .bool a, .bool b => a == b
  | .num a, .num b => a.same b
  | .str a, .str b => a == b
  | .arr a, .arr b => sameItems a b
  | .obj a, .obj b => a.length == b.length && sameEntries a b
  | _, _ => false

/-- Item by item `same`. -/
def sameItems : List Json → List Json → Bool
  | [], [] => true
  | x :: xs, y :: ys => same x y && sameItems xs ys
  | _, _ => false

/-- Whether every entry of the first list has the same value in the second. -/
def sameEntries : List (String × Json) → List (String × Json) → Bool
  | [], _ => true
  | (k, x) :: xs, ys =>
    (match Entries.get? ys k with
      | some y => same x y
      | none => false) && sameEntries xs ys

end

/-! ## Reading parts of a value -/

/-- The value under `name`, if this is an object that has it. -/
def get? : Json → String → Option Json
  | .obj entries, name => Entries.get? entries name
  | _, _ => none

/-- The text of a string. -/
def asString? : Json → Option String
  | .str s => some s
  | _ => none

/-- The truth value. -/
def asBool? : Json → Option Bool
  | .bool b => some b
  | _ => none

/-- The items of a list. -/
def asItems? : Json → Option (List Json)
  | .arr items => some items
  | _ => none

/-- The entries of an object. -/
def asEntries? : Json → Option (Entries Json)
  | .obj entries => some entries
  | _ => none

/-- The number. -/
def asNumber? : Json → Option Number
  | .num n => some n
  | _ => none

/-- The number, if it is a signed 64-bit whole number. -/
def asInt64? : Json → Option Int
  | .num n => n.toInt64?
  | _ => none

/-- Whether this is null. -/
def isNull : Json → Bool
  | .null => true
  | _ => false

/-- Whether this is an object. -/
def isObject : Json → Bool
  | .obj _ => true
  | _ => false

/-- A count as a value. -/
def ofNat (n : Nat) : Json := .num (.ofNat n)

/-- A double as a value, null if there is none. -/
def ofDouble? (value : Option Double) : Json :=
  match value with
  | some d => .num (.double d)
  | none => .null

/-- The whole number as a value, null if 64 bits do not hold it. -/
def ofInt (n : Int) : Json :=
  match Number.ofInt? n with
  | some n => .num n
  | none => .null

end Json

end ModelGateway
