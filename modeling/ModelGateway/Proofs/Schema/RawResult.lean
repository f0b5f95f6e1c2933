import Mathlib.Data.List.Forall2
import ModelGateway.Schema.RawResult

/-!
# Reading raw results back

A raw result is decodable. `RawResult` is what a reader of a tagged value gets, `RawResult.toJson`
its wire form and `RawResult.ofJson?` the reader, which gives back every value that was written
(`RawResult.ofJson?_toJson`). A driver's value is written as what is left of it once the two kinds
of containers and of plain scalars are told apart no longer (`RawValue.plain`,
`RawValue.tagged_eq`).

* `RawValue.Alike` — the identifications, one by one: a JSON column with the nulls, booleans,
  numbers, texts, lists and rows it is made of, the doubles that are not finite with each other,
  and the instants of one text.
* `RawValue.plain_eq_iff` — no other two values are read as the same.
* `RawValue.tagged_decodable` — the reader gets the value up to these identifications, and every
  scalar stands in exactly one envelope, also in a row whose columns are named as the two members
  of an envelope: what stands under a column name is never a bare text, so such a row is none.
-/

namespace ModelGateway

/-! ## What a reader gets -/

/-- A value of a raw result: a scalar under its tag, a list or a row. -/
inductive RawResult where
  | null
  | bool (value : Bool)
  /-- A number, or none for a double that is not finite. -/
  | number (value : Option Number)
  | bigInt (value : Int)
  | decimal (text : String)
  | string (value : String)
  /-- A point in time, in its written form. -/
  | datetime (text : String)
  | list (items : List RawResult)
  | object (columns : List (String × RawResult))

namespace RawResult

open RawValue (envelope)

mutual

/-- The wire form. -/
def toJson : RawResult → Json
  | .null => envelope "null" .null
  | .bool b => envelope "bool" (.bool b)
  | .number n => envelope "number" (n.elim .null .num)
  | .bigInt n => envelope "bigint" (.str (String.ofList (Decimal.intChars n)))
  | .decimal text => envelope "decimal" (.str text)
  | .string s => envelope "string" (.str s)
  | .datetime text => envelope "datetime" (.str text)
  | .list items => .arr (toItems items)
  | .object columns => .obj (toEntries columns)

/-- The wire forms of items. -/
def toItems : List RawResult → List Json
  | [] => []
  | x :: xs => toJson x :: toItems xs

/-- The wire forms of columns. -/
def toEntries : List (String × RawResult) → List (String × Json)
  | [] => []
  | (name, x) :: xs => (name, toJson x) :: toEntries xs

end

mutual

/-- The number of scalars. -/
def leaves : RawResult → Nat
  | .list items => itemLeaves items
  | .object columns => columnLeaves columns
  | _ => 1

/-- The number of scalars in items. -/
def itemLeaves : List RawResult → Nat
  | [] => 0
  | x :: xs => leaves x + itemLeaves xs

/-- The number of scalars in columns. -/
def columnLeaves : List (String × RawResult) → Nat
  | [] => 0
  | (_, x) :: xs => leaves x + columnLeaves xs

end

/-! ## The reader -/

/-- The tag and the value of an envelope, if the entries are those of one. -/
def envelope? : List (String × Json) → Option (String × Json)
  | [(first, .str tag), (second, value)] =>
    if first = "prisma__type" ∧ second = "prisma__value" then some (tag, value) else none
  | _ => none

/-- The whole number of a decimal form. -/
def wholeOf : List Char → Int
  | '-' :: digits => -(Decimal.ofDigitChars digits : Int)
  | digits => Decimal.ofDigitChars digits

/-- The scalar in an envelope. -/
def ofEnvelope? : String → Json → Option RawResult
  | "null", .null => some .null
  | "bool", .bool b => some (.bool b)
  | "number", .null => some (.number none)
  | "number", .num n => some (.number (some n))
  | "bigint", .str text => some (.bigInt (wholeOf text.toList))
  | "decimal", .str text => some (.decimal text)
  | "string", .str s => some (.string s)
  | "datetime", .str text => some (.datetime text)
  | _, _ => none

mutual

/-- Reads a wire form. A scalar outside of an envelope is none. -/
def ofJson? : Json → Option RawResult
  | .arr items => (ofItems? items).map .list
  | .obj entries =>
    match envelope? entries with
    | some (tag, value) => ofEnvelope? tag value
    | none => (ofEntries? entries).map .object
  | _ => none

/-- Reads the wire forms of items. -/
def ofItems? : List Json → Option (List RawResult)
  | [] => some []
  | x :: xs => do
    let item ← ofJson? x
    let items ← ofItems? xs
    return item :: items

/-- Reads the wire forms of columns. -/
def ofEntries? : List (String × Json) → Option (List (String × RawResult))
  | [] => some []
  | (name, x) :: xs => do
    let column ← ofJson? x
    let columns ← ofEntries? xs
    return (name, column) :: columns

end

/-! ## Envelopes -/

/-- Whether the value is neither a list nor an object. -/
def isScalar : Json → Bool
  | .arr _ | .obj _ => false
  | _ => true

mutual

/-- The number of envelopes of a value, if each of them holds a scalar and no scalar stands outside
of them. -/
def envelopes? : Json → Option Nat
  | .arr items => itemEnvelopes? items
  | .obj entries =>
    match envelope? entries with
    | some (_, value) => if isScalar value then some 1 else none
    | none => entryEnvelopes? entries
  | _ => none

/-- The number of envelopes of items. -/
def itemEnvelopes? : List Json → Option Nat
  | [] => some 0
  | x :: xs => do
    let first ← envelopes? x
    let others ← itemEnvelopes? xs
    return first + others

/-- The number of envelopes of entries. -/
def entryEnvelopes? : List (String × Json) → Option Nat
  | [] => some 0
  | (_, x) :: xs => do
    let first ← envelopes? x
    let others ← entryEnvelopes? xs
    return first + others

end

/-- The entries of an envelope. -/
@[simp] theorem envelope?_envelope (tag : String) (value : Json) :
    envelope? [("prisma__type", .str tag), ("prisma__value", value)] = some (tag, value) := by
  simp [envelope?]

/-- What is written is no bare text. -/
theorem toJson_ne_str (r : RawResult) (s : String) : r.toJson ≠ .str s := by
  cases r <;> simp [toJson, envelope]

/-- The columns of a row are never those of an envelope, whatever their names. -/
@[simp] theorem envelope?_toEntries (columns : List (String × RawResult)) :
    envelope? (toEntries columns) = none := by
  -- an envelope has two entries, and the first of them holds a bare text
  rcases columns with - | ⟨⟨name, r⟩, - | ⟨⟨other, s⟩, - | ⟨⟨last, t⟩, rest⟩⟩⟩
  · rfl
  · simp only [toEntries]
    cases r.toJson <;> rfl
  · have h := toJson_ne_str r
    simp only [toEntries]
    cases hr : r.toJson with
    | str tag => exact absurd hr (h tag)
    | _ => rfl
  · simp only [toEntries]
    cases r.toJson <;> rfl

/-! ## What is written is read back -/

/-- The digits of a number give the number. -/
theorem ofDigitChars_digitChars (n : Nat) :
    Decimal.ofDigitChars (Decimal.digitChars n) = n := by
  have h : Nat.ofDigitChars 10 (Nat.toDigits 10 n) 0 = n :=
    Nat.ofDigitChars_toDigits (by decide) (by decide)
  simpa only [Decimal.ofDigitChars, Decimal.digitChars, Nat.ofDigitChars, Nat.mul_comm] using h

/-- The decimal form of a whole number gives the number. -/
theorem wholeOf_intChars (n : Int) : wholeOf (Decimal.intChars n) = n := by
  unfold Decimal.intChars
  -- the digits of a number that is not negative begin with no minus sign
  split
  · next hn =>
    simp only [wholeOf, ofDigitChars_digitChars]
    omega
  · next hn =>
    have hdigits : ∀ c ∈ Decimal.digitChars n.natAbs, c ≠ '-' := by
      rintro c hc rfl
      exact absurd (Nat.isDigit_of_mem_toDigits (by decide) (by decide) hc) (by decide)
    have hwhole : wholeOf (Decimal.digitChars n.natAbs)
        = Decimal.ofDigitChars (Decimal.digitChars n.natAbs) := by
      unfold wholeOf
      split
      · next digits heq => exact absurd rfl (hdigits '-' (by simp [heq]))
      · rfl
    rw [hwhole, ofDigitChars_digitChars]
    omega

mutual

/-- **The reader gets what was written.** -/
theorem ofJson?_toJson : ∀ r : RawResult, ofJson? r.toJson = some r
  | .null | .bool _ | .number none | .number (some _) | .decimal _ | .string _ | .datetime _ => by
    simp [toJson, envelope, ofJson?, ofEnvelope?]
  | .bigInt n => by simp [toJson, envelope, ofJson?, ofEnvelope?, wholeOf_intChars]
  | .list items => by simp [toJson, ofJson?, ofItems?_toItems items]
  | .object columns => by simp [toJson, ofJson?, ofEntries?_toEntries columns]

/-- The reader gets the items that were written. -/
theorem ofItems?_toItems : ∀ items : List RawResult, ofItems? (toItems items) = some items
  | [] => rfl
  | x :: xs => by simp [toItems, ofItems?, ofJson?_toJson x, ofItems?_toItems xs]

/-- The reader gets the columns that were written. -/
theorem ofEntries?_toEntries :
    ∀ columns : List (String × RawResult), ofEntries? (toEntries columns) = some columns
  | [] => rfl
  | (_, x) :: xs => by simp [toEntries, ofEntries?, ofJson?_toJson x, ofEntries?_toEntries xs]

end

mutual

/-- Every scalar that is written stands in exactly one envelope. -/
theorem envelopes?_toJson : ∀ r : RawResult, envelopes? r.toJson = some r.leaves
  | .null | .bool _ | .number none | .number (some _) | .bigInt _ | .decimal _ | .string _
  | .datetime _ => by simp [toJson, envelope, envelopes?, isScalar, leaves]
  | .list items => by simp [toJson, envelopes?, leaves, itemEnvelopes?_toItems items]
  | .object columns => by simp [toJson, envelopes?, leaves, entryEnvelopes?_toEntries columns]

/-- Every scalar in the items stands in exactly one envelope. -/
theorem itemEnvelopes?_toItems :
    ∀ items : List RawResult, itemEnvelopes? (toItems items) = some (itemLeaves items)
  | [] => rfl
  | x :: xs => by
    simp [toItems, itemEnvelopes?, itemLeaves, envelopes?_toJson x, itemEnvelopes?_toItems xs]

/-- Every scalar in the columns stands in exactly one envelope. -/
theorem entryEnvelopes?_toEntries : ∀ columns : List (String × RawResult),
    entryEnvelopes? (toEntries columns) = some (columnLeaves columns)
  | [] => rfl
  | (_, x) :: xs => by
    simp [toEntries, entryEnvelopes?, columnLeaves, envelopes?_toJson x,
      entryEnvelopes?_toEntries xs]

end

end RawResult

/-! ## A driver's value as it is read -/

/-- A double as a number, if it is finite. -/
def AnyDouble.number? : AnyDouble → Option Number
  | .finite d => some (.double d)
  | .nan | .infinite _ => none

namespace RawValue

mutual

/-- What a reader gets of a JSON value. -/
def plainJson : Json → RawResult
  | .null => .null
  | .bool b => .bool b
  | .num n => .number (some n)
  | .str s => .string s
  | .arr items => .list (plainJsonItems items)
  | .obj entries => .object (plainJsonEntries entries)

/-- What a reader gets of JSON items. -/
def plainJsonItems : List Json → List RawResult
  | [] => []
  | x :: xs => plainJson x :: plainJsonItems xs

/-- What a reader gets of JSON entries. -/
def plainJsonEntries : List (String × Json) → List (String × RawResult)
  | [] => []
  | (name, x) :: xs => (name, plainJson x) :: plainJsonEntries xs

end

mutual

/-- What a reader gets of a driver's value. -/
def plain : RawValue → RawResult
  | .null => .null
  | .bool b => .bool b
  | .int n => .number (Number.ofInt? n)
  | .bigInt n => .bigInt n
  | .double d => .number d.number?
  | .decimal text => .decimal text
  | .string s => .string s
  | .instant i => .datetime i.text
  | .json value => plainJson value
  | .list items => .list (plainItems items)
  | .object columns => .object (plainColumns columns)

/-- What a reader gets of items. -/
def plainItems : List RawValue → List RawResult
  | [] => []
  | x :: xs => plain x :: plainItems xs

/-- What a reader gets of columns. -/
def plainColumns : List (String × RawValue) → List (String × RawResult)
  | [] => []
  | (name, x) :: xs => (name, plain x) :: plainColumns xs

end

mutual

/-- A tagged JSON value is the wire form of what a reader gets. -/
theorem taggedJson_eq : ∀ j : Json, taggedJson j = (plainJson j).toJson
  | .null | .bool _ | .num _ | .str _ => by simp [taggedJson, plainJson, RawResult.toJson]
  | .arr items => by
    simp [taggedJson, plainJson, RawResult.toJson, taggedJsonItems_eq items]
  | .obj entries => by
    simp [taggedJson, plainJson, RawResult.toJson, taggedJsonEntries_eq entries]

/-- Tagged JSON items are the wire forms of what a reader gets. -/
theorem taggedJsonItems_eq :
    ∀ items : List Json, taggedJsonItems items = RawResult.toItems (plainJsonItems items)
  | [] => rfl
  | x :: xs => by
    simp [taggedJsonItems, plainJsonItems, RawResult.toItems, taggedJson_eq x,
      taggedJsonItems_eq xs]

/-- Tagged JSON entries are the wire forms of what a reader gets. -/
theorem taggedJsonEntries_eq : ∀ entries : List (String × Json),
    taggedJsonEntries entries = RawResult.toEntries (plainJsonEntries entries)
  | [] => rfl
  | (_, x) :: xs => by
    simp [taggedJsonEntries, plainJsonEntries, RawResult.toEntries, taggedJson_eq x,
      taggedJsonEntries_eq xs]

end

/-- A whole number as JSON is that of its number. -/
theorem ofInt_eq (n : Int) : Json.ofInt n = (Number.ofInt? n).elim .null .num := by
  unfold Json.ofInt
  cases Number.ofInt? n <;> rfl

/-- A double as JSON is that of its number. -/
theorem double_toJson_eq (d : AnyDouble) : d.toJson = d.number?.elim .null .num := by
  cases d <;> rfl

mutual

/-- **The tagged value is the wire form of what a reader gets.** -/
theorem tagged_eq : ∀ v : RawValue, v.tagged = v.plain.toJson
  | .null | .bool _ | .bigInt _ | .decimal _ | .string _ | .instant _ => by
    simp [tagged, plain, RawResult.toJson]
  | .int n => by simp [tagged, plain, RawResult.toJson, ofInt_eq]
  | .double d => by simp [tagged, plain, RawResult.toJson, double_toJson_eq]
  | .json value => by simp [tagged, plain, taggedJson_eq]
  | .list items => by simp [tagged, plain, RawResult.toJson, taggedItems_eq items]
  | .object columns => by simp [tagged, plain, RawResult.toJson, taggedColumns_eq columns]

/-- Tagged items are the wire forms of what a reader gets. -/
theorem taggedItems_eq :
    ∀ items : List RawValue, taggedItems items = RawResult.toItems (plainItems items)
  | [] => rfl
  | x :: xs => by
    simp [taggedItems, plainItems, RawResult.toItems, tagged_eq x, taggedItems_eq xs]

/-- Tagged columns are the wire forms of what a reader gets. -/
theorem taggedColumns_eq : ∀ columns : List (String × RawValue),
    taggedColumns columns = RawResult.toEntries (plainColumns columns)
  | [] => rfl
  | (_, x) :: xs => by
    simp [taggedColumns, plainColumns, RawResult.toEntries, tagged_eq x, taggedColumns_eq xs]

end

/-! ## Which values are read as the same -/

/-- Two values that only differ in what the reader does not tell apart: a JSON column and the
scalars, lists and rows it is made of, the doubles that are not finite, the instants of one text. -/
inductive Alike : RawValue → RawValue → Prop
  | refl (v : RawValue) : Alike v v
  | symm {v w : RawValue} : Alike v w → Alike w v
  | trans {u v w : RawValue} : Alike u v → Alike v w → Alike u w
  | jsonNull : Alike (.json .null) .null
  | jsonBool (b : Bool) : Alike (.json (.bool b)) (.bool b)
  | jsonInt (n : Int) (fits : IsWord n) : Alike (.json (.num (.int n fits))) (.int n)
  | jsonDouble (d : Double) : Alike (.json (.num (.double d))) (.double (.finite d))
  | jsonStr (s : String) : Alike (.json (.str s)) (.string s)
  | jsonArr (items : List Json) : Alike (.json (.arr items)) (.list (items.map .json))
  | jsonObj (entries : List (String × Json)) :
      Alike (.json (.obj entries)) (.object (entries.map fun e => (e.1, .json e.2)))
  | notFinite {x y : AnyDouble} (left : x.number? = none) (right : y.number? = none) :
      Alike (.double x) (.double y)
  | instant {i j : Time.Instant} (text_eq : i.text = j.text) : Alike (.instant i) (.instant j)
  | item (before : List RawValue) {v w : RawValue} (after : List RawValue) :
      Alike v w → Alike (.list (before ++ v :: after)) (.list (before ++ w :: after))
  | column (before : List (String × RawValue)) (name : String) {v w : RawValue}
      (after : List (String × RawValue)) : Alike v w →
      Alike (.object (before ++ (name, v) :: after)) (.object (before ++ (name, w) :: after))

mutual

/-- Whether every whole number in the value is a signed 64-bit one, as those of a driver are. -/
def Bounded : RawValue → Prop
  | .int n => IsInt64 n
  | .list items => BoundedItems items
  | .object columns => BoundedColumns columns
  | _ => True

/-- Whether the whole numbers in the items are signed 64-bit ones. -/
def BoundedItems : List RawValue → Prop
  | [] => True
  | x :: xs => Bounded x ∧ BoundedItems xs

/-- Whether the whole numbers in the columns are signed 64-bit ones. -/
def BoundedColumns : List (String × RawValue) → Prop
  | [] => True
  | (_, x) :: xs => Bounded x ∧ BoundedColumns xs

end

theorem plainItems_eq_map (items : List RawValue) : plainItems items = items.map plain := by
  induction items with
  | nil => rfl
  | cons x xs ih => rw [plainItems, ih, List.map_cons]

theorem plainColumns_eq_map (columns : List (String × RawValue)) :
    plainColumns columns = columns.map fun c => (c.1, c.2.plain) := by
  induction columns with
  | nil => rfl
  | cons c rest ih => rw [plainColumns, ih, List.map_cons]

theorem plainJsonItems_eq_map (items : List Json) : plainJsonItems items = items.map plainJson := by
  induction items with
  | nil => rfl
  | cons x xs ih => rw [plainJsonItems, ih, List.map_cons]

theorem plainJsonEntries_eq_map (entries : List (String × Json)) :
    plainJsonEntries entries = entries.map fun e => (e.1, plainJson e.2) := by
  induction entries with
  | nil => rfl
  | cons e rest ih => rw [plainJsonEntries, ih, List.map_cons]

/-- A whole number that 64 bits hold is a number. -/
theorem ofInt?_of_isWord {n : Int} (h : IsWord n) : Number.ofInt? n = some (.int n h) :=
  dif_pos h

/-- **Values that are alike are read as the same.** -/
theorem Alike.plain_eq {v w : RawValue} (h : v.Alike w) : v.plain = w.plain := by
  induction h with
  | refl => rfl
  | symm _ ih => exact ih.symm
  | trans _ _ ih ih' => exact ih.trans ih'
  | jsonNull | jsonBool | jsonStr | jsonDouble => rfl
  | jsonInt n fits => simp only [plain, plainJson, ofInt?_of_isWord fits]
  | jsonArr items =>
    simp only [plain, plainJson, plainJsonItems_eq_map, plainItems_eq_map, List.map_map]
    rfl
  | jsonObj entries =>
    simp only [plain, plainJson, plainJsonEntries_eq_map, plainColumns_eq_map, List.map_map]
    rfl
  | notFinite left right => simp only [plain, left, right]
  | instant text_eq => simp only [plain, text_eq]
  | item before after _ ih =>
    simp only [plain, plainItems_eq_map, List.map_append, List.map_cons, ih]
  | column before name after _ ih =>
    simp only [plain, plainColumns_eq_map, List.map_append, List.map_cons, ih]

/-- Lists of alike items are alike. -/
theorem Alike.list {xs ys : List RawValue} (h : List.Forall₂ Alike xs ys) :
    ∀ before, Alike (.list (before ++ xs)) (.list (before ++ ys)) := by
  induction h with
  | nil => exact fun before => .refl _
  | @cons x y xs ys hxy _ ih =>
    intro before
    have hrest : Alike (.list (before ++ y :: xs)) (.list (before ++ y :: ys)) := by
      simpa using ih (before ++ [y])
    exact (Alike.item before xs hxy).trans hrest

/-- Rows of alike columns of the same names are alike. -/
theorem Alike.object {xs ys : List (String × RawValue)}
    (h : List.Forall₂ (fun x y => x.1 = y.1 ∧ Alike x.2 y.2) xs ys) :
    ∀ before, Alike (.object (before ++ xs)) (.object (before ++ ys)) := by
  induction h with
  | nil => exact fun before => .refl _
  | @cons x y xs ys hxy _ ih =>
    obtain ⟨name, v⟩ := x
    obtain ⟨other, w⟩ := y
    obtain ⟨rfl, hvw⟩ := hxy
    intro before
    have hrest :
        Alike (.object (before ++ (name, w) :: xs)) (.object (before ++ (name, w) :: ys)) := by
      simpa using ih (before ++ [(name, w)])
    exact (Alike.column before name xs hvw).trans hrest

/-- The value that a scalar stands for, if there is one for all that read as it. -/
def ofScalar? : RawResult → Option RawValue
  | .null => some .null
  | .bool b => some (.bool b)
  | .number none => some (.double .nan)
  | .number (some (.int n _)) => some (.int n)
  | .number (some (.double d)) => some (.double (.finite d))
  | .bigInt n => some (.bigInt n)
  | .decimal text => some (.decimal text)
  | .string s => some (.string s)
  | .datetime _ | .list _ | .object _ => none

/-- A value that reads as a scalar is alike to the value that the scalar stands for. -/
theorem alike_of_ofScalar? {v w : RawValue} (hb : v.Bounded) (h : ofScalar? v.plain = some w) :
    v.Alike w := by
  cases v with
  | null | bool | bigInt | decimal | string =>
    cases h
    exact .refl _
  | int n =>
    have hword : IsWord n := by
      simp only [Bounded, IsInt64] at hb
      unfold IsWord
      omega
    simp only [plain, ofInt?_of_isWord hword] at h
    cases h
    exact .refl _
  | double d =>
    cases d with
    | finite d =>
      cases h
      exact .refl _
    | nan | infinite =>
      cases h
      exact .notFinite rfl rfl
  | json j =>
    cases j with
    | null =>
      cases h
      exact .jsonNull
    | bool b =>
      cases h
      exact .jsonBool b
    | str s =>
      cases h
      exact .jsonStr s
    | num n =>
      cases n with
      | int n fits =>
        cases h
        exact .jsonInt n fits
      | double d =>
        cases h
        exact .jsonDouble d
    | arr | obj => cases h
  | instant | list | object => cases h

/-- A value that reads as a point in time is an instant of its text. -/
theorem instant_of_plain_eq {v : RawValue} {text : String} (h : v.plain = .datetime text) :
    ∃ i, v = .instant i ∧ i.text = text := by
  cases v with
  | instant i => exact ⟨i, rfl, by simpa only [plain, RawResult.datetime.injEq] using h⟩
  | json j => cases j <;> cases h
  | _ => cases h

/-- JSON items as items are bounded. -/
theorem boundedItems_map_json (items : List Json) : BoundedItems (items.map .json) := by
  induction items with
  | nil => trivial
  | cons x xs ih => exact ⟨trivial, ih⟩

/-- JSON entries as columns are bounded. -/
theorem boundedColumns_map_json (entries : List (String × Json)) :
    BoundedColumns (entries.map fun e => (e.1, .json e.2)) := by
  induction entries with
  | nil => trivial
  | cons e rest ih => exact ⟨trivial, ih⟩

/-- A value that reads as a list is alike to a list. -/
theorem list_of_plain_eq {v : RawValue} {rs : List RawResult} (hb : v.Bounded)
    (h : v.plain = .list rs) :
    ∃ items, v.Alike (.list items) ∧ BoundedItems items ∧ plainItems items = rs := by
  have hread {items : List RawValue} (halike : v.Alike (.list items)) : plainItems items = rs := by
    simpa only [halike.plain_eq, plain, RawResult.list.injEq] using h
  cases v with
  | list items => exact ⟨items, .refl _, hb, hread (.refl _)⟩
  | json j =>
    cases j with
    | arr items => exact ⟨_, .jsonArr items, boundedItems_map_json items, hread (.jsonArr items)⟩
    | _ => cases h
  | _ => cases h

/-- A value that reads as a row is alike to a row. -/
theorem object_of_plain_eq {v : RawValue} {rs : List (String × RawResult)} (hb : v.Bounded)
    (h : v.plain = .object rs) :
    ∃ columns, v.Alike (.object columns) ∧ BoundedColumns columns ∧ plainColumns columns = rs := by
  have hread {columns : List (String × RawValue)} (halike : v.Alike (.object columns)) :
      plainColumns columns = rs := by
    simpa only [halike.plain_eq, plain, RawResult.object.injEq] using h
  cases v with
  | object columns => exact ⟨columns, .refl _, hb, hread (.refl _)⟩
  | json j =>
    cases j with
    | obj entries =>
      exact ⟨_, .jsonObj entries, boundedColumns_map_json entries, hread (.jsonObj entries)⟩
    | _ => cases h
  | _ => cases h

mutual

/-- Values that read as the same are alike. -/
theorem alike_of_plain_eq : ∀ (r : RawResult) {v w : RawValue}, v.Bounded → w.Bounded →
    v.plain = r → w.plain = r → v.Alike w
  -- a text does not say of which instant it is, so both sides are taken apart
  | .datetime text, v, w, _, _, hv, hw => by
    obtain ⟨i, rfl, hi⟩ := instant_of_plain_eq hv
    obtain ⟨j, rfl, hj⟩ := instant_of_plain_eq hw
    exact .instant (hi.trans hj.symm)
  -- either side may be a JSON column; its items are alike to a list of JSON columns
  | .list rs, v, w, hbv, hbw, hv, hw => by
    obtain ⟨xs, hvx, hbx, hx⟩ := list_of_plain_eq hbv hv
    obtain ⟨ys, hwy, hby, hy⟩ := list_of_plain_eq hbw hw
    have hxy : Alike (.list xs) (.list ys) :=
      Alike.list (forall₂_alike_of_plainItems_eq rs hbx hby hx hy) []
    exact (hvx.trans hxy).trans hwy.symm
  | .object rs, v, w, hbv, hbw, hv, hw => by
    obtain ⟨xs, hvx, hbx, hx⟩ := object_of_plain_eq hbv hv
    obtain ⟨ys, hwy, hby, hy⟩ := object_of_plain_eq hbw hw
    have hxy : Alike (.object xs) (.object ys) :=
      Alike.object (forall₂_alike_of_plainColumns_eq rs hbx hby hx hy) []
    exact (hvx.trans hxy).trans hwy.symm
  | .null, v, w, hbv, hbw, hv, hw | .bool _, v, w, hbv, hbw, hv, hw
  | .number none, v, w, hbv, hbw, hv, hw | .number (some (.int _ _)), v, w, hbv, hbw, hv, hw
  | .number (some (.double _)), v, w, hbv, hbw, hv, hw | .bigInt _, v, w, hbv, hbw, hv, hw
  | .decimal _, v, w, hbv, hbw, hv, hw | .string _, v, w, hbv, hbw, hv, hw => by
    have hvs := alike_of_ofScalar? hbv (by rw [hv]; rfl)
    have hws := alike_of_ofScalar? hbw (by rw [hw]; rfl)
    exact hvs.trans hws.symm

/-- Items that read as the same are alike, place by place. -/
theorem forall₂_alike_of_plainItems_eq : ∀ (rs : List RawResult) {xs ys : List RawValue},
    BoundedItems xs → BoundedItems ys → plainItems xs = rs → plainItems ys = rs →
    List.Forall₂ Alike xs ys
  | [], [], [], _, _, _, _ => .nil
  | r :: rs, x :: xs, y :: ys, hbx, hby, hx, hy => by
    obtain ⟨hxr, hxs⟩ := List.cons.inj hx
    obtain ⟨hyr, hys⟩ := List.cons.inj hy
    exact .cons (alike_of_plain_eq r hbx.1 hby.1 hxr hyr)
      (forall₂_alike_of_plainItems_eq rs hbx.2 hby.2 hxs hys)

/-- Columns that read as the same are alike, place by place. -/
theorem forall₂_alike_of_plainColumns_eq :
    ∀ (rs : List (String × RawResult)) {xs ys : List (String × RawValue)},
    BoundedColumns xs → BoundedColumns ys → plainColumns xs = rs → plainColumns ys = rs →
    List.Forall₂ (fun x y => x.1 = y.1 ∧ Alike x.2 y.2) xs ys
  | [], [], [], _, _, _, _ => .nil
  | (name, r) :: rs, (n, x) :: xs, (m, y) :: ys, hbx, hby, hx, hy => by
    obtain ⟨hcx, hxs⟩ := List.cons.inj hx
    obtain ⟨hcy, hys⟩ := List.cons.inj hy
    obtain ⟨rfl, hxr⟩ := Prod.mk.inj hcx
    obtain ⟨rfl, hyr⟩ := Prod.mk.inj hcy
    exact .cons ⟨rfl, alike_of_plain_eq r hbx.1 hby.1 hxr hyr⟩
      (forall₂_alike_of_plainColumns_eq rs hbx.2 hby.2 hxs hys)

end

/-- **Two values are read as the same exactly if they are alike.** -/
theorem plain_eq_iff {v w : RawValue} (hv : v.Bounded) (hw : w.Bounded) :
    v.plain = w.plain ↔ v.Alike w :=
  ⟨fun h => alike_of_plain_eq w.plain hv hw h rfl, Alike.plain_eq⟩

/-- **A raw result is decodable.** What the reader gets of a tagged value is the value up to
`Alike`: two values give the same answer exactly if they are alike. Every scalar of the answer
stands in exactly one envelope. -/
theorem tagged_decodable {v w : RawValue} (hv : v.Bounded) (hw : w.Bounded) :
    RawResult.ofJson? v.tagged = some v.plain ∧
      RawResult.envelopes? v.tagged = some v.plain.leaves ∧
      (v.tagged = w.tagged ↔ v.Alike w) ∧ (v.plain = w.plain ↔ v.Alike w) := by
  have hread (u : RawValue) : RawResult.ofJson? u.tagged = some u.plain := by
    rw [tagged_eq, RawResult.ofJson?_toJson]
  refine ⟨hread v, ?_, ⟨fun h => ?_, fun h => ?_⟩, plain_eq_iff hv hw⟩
  · rw [tagged_eq, RawResult.envelopes?_toJson]
  · refine (plain_eq_iff hv hw).mp (Option.some.inj ?_)
    rw [← hread v, ← hread w, h]
  · rw [tagged_eq, tagged_eq, h.plain_eq]

/-- A row whose columns are named as the members of an envelope, next to a number that is none. -/
def imitation : RawValue :=
  .list [.object [("prisma__type", .string "bigint"), ("prisma__value", .string "-70")],
    .double .nan]

/-- The same with the row in a JSON column. -/
def imitationJson : RawValue :=
  .list [.json (.obj [("prisma__type", .str "bigint"), ("prisma__value", .str "-70")]),
    .double .nan]

/-- The imitated envelope is read as a row of two texts, from a JSON column as well, and holds two
of the three envelopes. -/
theorem imitation_decodable :
    (imitation.Bounded ∧ imitationJson.Bounded) ∧
      RawResult.ofJson? imitation.tagged = some (.list [
        .object [("prisma__type", .string "bigint"), ("prisma__value", .string "-70")],
        .number none]) ∧
      RawResult.envelopes? imitation.tagged = some 3 ∧ imitation.Alike imitationJson := by
  have hv : imitation.Bounded := ⟨⟨trivial, trivial, trivial⟩, trivial, trivial⟩
  have hw : imitationJson.Bounded := ⟨trivial, trivial, trivial⟩
  obtain ⟨hread, hcount, -, halike⟩ := tagged_decodable hv hw
  exact ⟨⟨hv, hw⟩, hread, hcount, halike.mp rfl⟩

end RawValue

end ModelGateway
