import ModelGateway.Proofs.Query.Reader
import ModelGateway.Proofs.Query.Token
import ModelGateway.Proofs.Schema.Catalog
import ModelGateway.Schema.Definition

/-!
# Reading definition texts back

The definition text of a catalog determines its types. `DeclaredTypes.read?` reads such a text with
the tokens and the productions of request texts; it does not know in which order the declarations
stand.

* **Tokens** (`lexes_definition`): the tokens of the text, part by part. They are what is left of it
  without line breaks, indentation and commas.
* **Productions** (`reads_field`, `reads_enum`, `reads_object`): each declaration is read from its
  own tokens, whatever comes after it.
* **Texts** (`TypeCatalog.read?_definition`): a catalog in which all names are names is read back.
  In the catalog of a document the names of the fields' types are, if those of the declared types
  are (`TypeCatalog.readable_of_named`).
* **Catalogs** (`TypeCatalog.definition_determines`): two catalogs have one text exactly if they
  have the same enums and, the kinds of types apart, the same object types.
-/

namespace ModelGateway

open Query (Step Token TypeRef isName Lexes Reads NameFirst nameFirst_cons delimiters)

/-! ## What a definition text says -/

/-- A field as a definition text has it. -/
structure FieldDeclaration where
  name : String
  /-- The names of the arguments. -/
  arguments : List String
  typeName : String
  isList : Bool
  isNullable : Bool
deriving DecidableEq

/-- An object type as a definition text has it. -/
structure ObjectDeclaration where
  name : String
  fields : List FieldDeclaration
deriving DecidableEq

/-- One declaration of a definition text. -/
inductive TypeDeclaration where
  | scalar (name : String)
  | enum (type : EnumType)
  | object (type : ObjectDeclaration)
deriving DecidableEq

/-- The types that a definition text declares, each kind in order. -/
structure DeclaredTypes where
  scalars : List String
  enums : List EnumType
  objects : List ObjectDeclaration
deriving DecidableEq

/-! ## The reader -/

namespace FieldDeclaration

/-- The name in a type, whether it is a list and whether it is nullable; other types than those of
fields have none. -/
def shape? : TypeRef → Option (String × Bool × Bool)
  | .named name => some (name, false, true)
  | .list (.named name) => some (name, true, true)
  | .nonNull (.named name) => some (name, false, false)
  | .nonNull (.list (.named name)) => some (name, true, false)
  | _ => none

/-- An argument, of which the type is always the same. -/
def argument : Step String := do
  let name ← Step.name
  Step.punctuation ':'
  Step.word TypeCatalog.anyScalar
  return name

/-- Arguments in parentheses, none if there are no parentheses. -/
def argumentList (limit : Nat) : Step (List String) := do
  if ← Step.accept '(' then Step.itemsUntil ')' argument limit else return []

/-- The field of a type. -/
def ofType (name : String) (arguments : List String) (type : TypeRef) : Step FieldDeclaration :=
  match shape? type with
  | some (typeName, isList, isNullable) =>
    return { name, arguments, typeName, isList, isNullable }
  | none => failure

/-- A field. -/
def step (limit : Nat) : Step FieldDeclaration := do
  let name ← Step.name
  let arguments ← argumentList limit
  Step.punctuation ':'
  let type ← Step.typeRef limit
  ofType name arguments type

end FieldDeclaration

namespace TypeDeclaration

/-- Members in braces. -/
def members {α : Type} (member : Step α) (limit : Nat) : Step (List α) := do
  Step.punctuation Step.openBrace
  Step.itemsUntil Step.closeBrace member limit

/-- What follows the first word of a declaration. -/
def ofWord (limit : Nat) (keyword : String) : Step TypeDeclaration := do
  let name ← Step.name
  match keyword with
  | "scalar" => return .scalar name
  | "enum" => return .enum ⟨name, ← members Step.name limit⟩
  | "type" => return .object ⟨name, ← members (FieldDeclaration.step limit) limit⟩
  | _ => failure

/-- A declaration. -/
def step (limit : Nat) : Step TypeDeclaration := do
  let keyword ← Step.name
  ofWord limit keyword

/-- All declarations, at most `count` of them. -/
def all (limit : Nat) : Nat → Step (List TypeDeclaration)
  | 0 => failure
  | count + 1 => do
    if (← get).isEmpty then return []
    let declaration ← step limit
    return declaration :: (← all limit count)

/-- The name of a scalar. -/
def scalar? : TypeDeclaration → Option String
  | .scalar name => some name
  | _ => none

/-- The enum, if this is one. -/
def enum? : TypeDeclaration → Option EnumType
  | .enum type => some type
  | _ => none

/-- The object type, if this is one. -/
def object? : TypeDeclaration → Option ObjectDeclaration
  | .object type => some type
  | _ => none

end TypeDeclaration

namespace DeclaredTypes

/-- The types of some declarations. -/
def ofDeclarations (declarations : List TypeDeclaration) : DeclaredTypes where
  scalars := declarations.filterMap (·.scalar?)
  enums := declarations.filterMap (·.enum?)
  objects := declarations.filterMap (·.object?)

/-- Reads a definition text. -/
def read? (text : String) : Option DeclaredTypes := do
  let tokens ← Query.tokensOf? text
  let limit := tokens.length + 1
  let (declarations, _) ← (TypeDeclaration.all limit limit).run tokens
  return ofDeclarations declarations

end DeclaredTypes

/-! ## The tokens of a definition text -/

/-- The tokens of a written type. -/
def Query.TypeRef.tokens : TypeRef → List Token
  | .named name => [.name name]
  | .list item => .punctuation '[' :: (item.tokens ++ [.punctuation ']'])
  | .nonNull inner => inner.tokens ++ [.punctuation '!']

namespace CatalogField

/-- The names of the field, of its arguments and of its type are names. -/
structure Named (f : CatalogField) : Prop where
  name : isName f.name = true
  arguments : ∀ a ∈ f.arguments, isName a = true
  typeName : isName f.typeName = true

/-- The field as a definition text has it. -/
def declaration (f : CatalogField) : FieldDeclaration :=
  { name := f.name, arguments := f.arguments, typeName := f.typeName, isList := f.isList
    isNullable := f.isNullable }

/-- An argument as it is written. -/
def argumentText (name : String) : String :=
  name ++ ": " ++ TypeCatalog.anyScalar

/-- The arguments as they are written. -/
def argumentListText (names : List String) : String :=
  if names.isEmpty then "" else "(" ++ String.intercalate ", " (names.map argumentText) ++ ")"

/-- The tokens of an argument. -/
def argumentTokens (name : String) : List Token :=
  [.name name, .punctuation ':', .name TypeCatalog.anyScalar]

/-- The tokens of the arguments. -/
def argumentListTokens (names : List String) : List Token :=
  if names.isEmpty then []
  else .punctuation '(' :: (names.flatMap argumentTokens ++ [.punctuation ')'])

/-- The tokens of a field. -/
def tokens (f : CatalogField) : List Token :=
  .name f.name :: (argumentListTokens f.arguments ++ .punctuation ':' :: f.typeRef.tokens)

/-- A field is written as its name, its arguments and its type. -/
theorem definition_eq (f : CatalogField) :
    f.definition = f.name ++ argumentListText f.arguments ++ ": " ++ f.typeRef.text :=
  rfl

end CatalogField

/-- The tokens of a named block. -/
def TypeCatalog.blockTokens (keyword name : String) (members : List Token) : List Token :=
  .name keyword :: .name name :: .punctuation Step.openBrace ::
    (members ++ [.punctuation Step.closeBrace])

/-- The tokens of an enum. -/
def EnumType.tokens (e : EnumType) : List Token :=
  TypeCatalog.blockTokens "enum" e.name (e.values.map .name)

namespace CatalogObject

/-- The object type as a definition text has it. -/
def declaration (o : CatalogObject) : ObjectDeclaration :=
  { name := o.name, fields := o.fields.map (·.declaration) }

/-- The tokens of an object type. -/
def tokens (o : CatalogObject) : List Token :=
  TypeCatalog.blockTokens "type" o.name (o.fields.flatMap CatalogField.tokens)

end CatalogObject

namespace TypeCatalog

/-- Everything that is written as a name is one, the types of the fields included. -/
structure Readable (c : TypeCatalog) : Prop where
  enums : ∀ e ∈ c.enums, isName e.name = true ∧ ∀ v ∈ e.values, isName v = true
  objects : ∀ o ∈ c.objects, isName o.name = true ∧ ∀ f ∈ o.fields, f.Named

/-- The declarations of a catalog with their tokens. -/
def parts (c : TypeCatalog) : List (List Token × TypeDeclaration) :=
  customScalars.map (fun s => ([.name "scalar", .name s.1], .scalar s.1))
    ++ c.enums.map (fun e => (e.tokens, .enum e))
    ++ c.objects.map fun o => (o.tokens, .object o.declaration)

end TypeCatalog

/-! ## From the text to the tokens -/

section lexes

variable {cs : List Char} {ts : List Token} {c : Char}

/-- A written type and what follows it. -/
theorem lexes_typeRef {t : TypeRef} (ht : isName t.typeName = true) (hc : c ∈ delimiters)
    (h : Lexes (c :: cs) ts) : Lexes (t.text.toList ++ c :: cs) (t.tokens ++ ts) := by
  induction t generalizing c cs ts with
  | named name => exact .name ht hc h
  | list item ih =>
    have hitem := ih ht (c := ']') (by decide) (h.after_punctuation (by decide))
    simpa [TypeRef.text, TypeRef.tokens] using
      hitem.after_punctuation (c := '[') (by decide)
  | nonNull inner ih =>
    have hinner := ih ht (c := '!') (by decide) (h.after_punctuation (by decide))
    simpa [TypeRef.text, TypeRef.tokens] using hinner

/-- An argument and what follows it. -/
theorem lexes_argument {a : String} (ha : isName a = true) (hc : c ∈ delimiters)
    (h : Lexes (c :: cs) ts) :
    Lexes ((CatalogField.argumentText a).toList ++ c :: cs)
      (CatalogField.argumentTokens a ++ ts) := by
  have hany := Lexes.name (s := TypeCatalog.anyScalar) (by decide) hc h
  have hcolon := (hany.after_separator (c := ' ') (by decide)).after_punctuation (c := ':')
    (by decide)
  simpa [CatalogField.argumentText, CatalogField.argumentTokens] using
    Lexes.name ha (by decide) hcolon

/-- Arguments with commas between them, and the closing parenthesis. -/
theorem lexes_argumentList {names : List String} (hnames : ∀ a ∈ names, isName a = true)
    (hsome : names ≠ []) (h : Lexes cs ts) :
    Lexes ((String.intercalate ", " (names.map CatalogField.argumentText)).toList ++ ')' :: cs)
      (names.flatMap CatalogField.argumentTokens ++ .punctuation ')' :: ts) := by
  induction names with
  | nil => exact absurd rfl hsome
  | cons a names ih =>
    obtain ⟨ha, hnames⟩ := List.forall_mem_cons.mp hnames
    cases names with
    | nil =>
      simpa using lexes_argument ha (c := ')') (by decide)
        (h.after_punctuation (by decide))
    | cons b names =>
      have hmore := (ih hnames (by simp)).after_separator (c := ' ') (by decide)
      have hcomma := hmore.after_separator (c := ',') (by decide)
      simpa using lexes_argument ha (by decide) hcomma

/-- A name, arguments if there are any, and a colon. -/
theorem lexes_signature {name : String} {names : List String} (hname : isName name = true)
    (hnames : ∀ a ∈ names, isName a = true) (h : Lexes cs ts) :
    Lexes (name.toList ++ (CatalogField.argumentListText names).toList ++ ':' :: cs)
      (.name name :: (CatalogField.argumentListTokens names ++ .punctuation ':' :: ts)) := by
  have hcolon := h.after_punctuation (c := ':') (by decide)
  cases names with
  | nil =>
    simpa [CatalogField.argumentListText, CatalogField.argumentListTokens] using
      Lexes.name hname (by decide) hcolon
  | cons a names =>
    have hlist := (lexes_argumentList hnames (by simp) hcolon).after_punctuation (c := '(')
      (by decide)
    simpa [CatalogField.argumentListText, CatalogField.argumentListTokens] using
      Lexes.name hname (by decide) hlist

/-- The line of a field. -/
theorem lexes_field {f : CatalogField} (hf : f.Named) :
    Lexes (f.definition.toList ++ ['\n']) f.tokens := by
  have hend : Lexes ['\n'] [] := .separator (by decide)
  have htype : Lexes (f.typeRef.text.toList ++ ['\n']) (f.typeRef.tokens ++ []) := by
    refine lexes_typeRef ?_ (by decide) hend
    obtain ⟨name, arguments, typeName, kind, isList, isNullable⟩ := f
    cases isList <;> cases isNullable <;> exact hf.typeName
  simpa [CatalogField.definition_eq, CatalogField.tokens] using
    lexes_signature hf.name hf.arguments (htype.after_separator (c := ' ') (by decide))

/-- A block with one line for each member. -/
theorem lexes_block {α : Type} {keyword name : String} {text : α → String}
    {tokens : α → List Token} {xs : List α} (hkeyword : isName keyword = true)
    (hname : isName name = true)
    (hxs : ∀ x ∈ xs, Lexes ((text x).toList ++ ['\n']) (tokens x)) :
    Lexes (TypeCatalog.block keyword name (xs.map text)).toList
      (TypeCatalog.blockTokens keyword name (xs.flatMap tokens)) := by
  -- the parts of the text from its end to its beginning
  have hend : Lexes ['\x7d', '\n'] [.punctuation Step.closeBrace] :=
    (Lexes.separator (by decide)).after_punctuation (by decide)
  have hmembers := Lexes.flatMap fun x hx =>
    ((hxs x hx).after_separator (c := ' ') (by decide)).after_separator (c := ' ') (by decide)
  have hbody := (hmembers.append hend).after_separator (c := '\n') (by decide)
  have hbrace := hbody.after_punctuation (c := Step.openBrace) (by decide)
  have hopen := hbrace.after_separator (c := ' ') (by decide)
  have hhead := (Lexes.name hname (by decide) hopen).after_separator (c := ' ') (by decide)
  have hall := (Lexes.name hkeyword (by decide) hhead).after_separator (c := '\n') (by decide)
  simpa [TypeCatalog.block, TypeCatalog.blockTokens, Step.openBrace, List.flatMap_map] using hall

/-- The line of a scalar. -/
theorem lexes_scalar {name : String} (hname : isName name = true) :
    Lexes ("scalar " ++ name ++ "\n").toList [.name "scalar", .name name] := by
  have hline := Lexes.name hname (c := '\n') (by decide) (.separator (by decide))
  have hword := Lexes.name (s := "scalar") (by decide) (by decide)
    (hline.after_separator (c := ' ') (by decide))
  simpa using hword

/-- The block of an enum, which may be empty. -/
theorem lexes_enum {e : EnumType} (hname : isName e.name = true)
    (hvalues : ∀ v ∈ e.values, isName v = true) :
    Lexes (TypeCatalog.block "enum" e.name e.values).toList e.tokens := by
  have hlines : ∀ v ∈ e.values, Lexes ((id v).toList ++ ['\n']) [.name v] := fun v hv =>
    .name (hvalues v hv) (by decide) (.separator (by decide))
  have hblock : Lexes (TypeCatalog.block "enum" e.name (e.values.map id)).toList
      (TypeCatalog.blockTokens "enum" e.name (e.values.flatMap fun v => [.name v])) :=
    lexes_block (by decide) hname hlines
  rwa [List.map_id, ← List.map_eq_flatMap] at hblock

/-- The block of an object type. -/
theorem lexes_object {o : CatalogObject} (hname : isName o.name = true)
    (hfields : ∀ f ∈ o.fields, f.Named) :
    Lexes (TypeCatalog.block "type" o.name (o.fields.map (·.definition))).toList o.tokens :=
  lexes_block (by decide) hname fun f hf => lexes_field (hfields f hf)

/-- The text of a catalog. -/
theorem lexes_definition {catalog : TypeCatalog} (h : catalog.Readable) :
    Lexes catalog.definition.toList (catalog.parts.flatMap (·.1)) := by
  have hscalars : Lexes
      (TypeCatalog.customScalars.flatMap fun s => ("scalar " ++ s.1 ++ "\n").toList)
      (TypeCatalog.customScalars.flatMap fun s => [Token.name "scalar", Token.name s.1]) :=
    Lexes.flatMap fun s hs => lexes_scalar (by revert s; decide)
  have henums := Lexes.flatMap fun e he => lexes_enum (h.enums e he).1 (h.enums e he).2
  have hobjects := Lexes.flatMap fun o ho => lexes_object (h.objects o ho).1 (h.objects o ho).2
  simpa only [TypeCatalog.definition, TypeCatalog.parts, String.toList_append, String.toList_join,
    List.flatMap_append, List.flatMap_map] using (hscalars.append henums).append hobjects

end lexes

/-! ## From the tokens to the types -/

section reads

variable {α β : Type} {ts : List Token} {b : β}

theorem reads_argument (name : String) :
    Reads FieldDeclaration.argument (CatalogField.argumentTokens name) name :=
  .name_bind (.punctuation_bind (.word_bind (.pure name)))

/-- The arguments of a field, if there are any, before a production that reads the colon. -/
theorem reads_argumentList {f : List String → Step β} {names : List String} {limit : Nat}
    (hlimit : names.length < limit) (h : Reads (f names) (.punctuation ':' :: ts) b) :
    Reads (FieldDeclaration.argumentList limit >>= f)
      (CatalogField.argumentListTokens names ++ .punctuation ':' :: ts) b := by
  rw [FieldDeclaration.argumentList, bind_assoc]
  cases names with
  -- without arguments the colon is the token that is not the opening parenthesis
  | nil => exact .accept_bind_of_ne (by simp) h
  | cons a names =>
    have hitems : Reads (Step.itemsUntil ')' FieldDeclaration.argument limit)
        ((a :: names).flatMap CatalogField.argumentTokens ++ [.punctuation ')'])
        ((a :: names).map id) :=
      .itemsUntil (fun name _ => reads_argument name) (fun name _ => nameFirst_cons name _) hlimit
        (by decide)
    rw [List.map_id] at hitems
    exact .accept_bind (hitems.bind h (by simp))

/-- The type of a field. -/
theorem reads_typeRef (f : CatalogField) (limit : Nat) :
    Reads (Step.typeRef (limit + 2)) f.typeRef.tokens f.typeRef := by
  obtain ⟨name, arguments, typeName, kind, isList, isNullable⟩ := f
  cases isList <;> cases isNullable
  · exact Reads.typeRef_named _ (Reads.required_nonNull _)
  · exact Reads.typeRef_named _ (Reads.required_nullable _)
  · exact Reads.typeRef_list _ (Reads.required_nonNull _)
  · exact Reads.typeRef_list _ (Reads.required_nullable _)

/-- A field is found again from its type. -/
theorem shape?_typeRef (f : CatalogField) :
    FieldDeclaration.shape? f.typeRef = some (f.typeName, f.isList, f.isNullable) := by
  obtain ⟨name, arguments, typeName, kind, isList, isNullable⟩ := f
  cases isList <;> cases isNullable <;> rfl

/-- Every argument has tokens. -/
theorem length_le_argumentListTokens (names : List String) :
    names.length ≤ (CatalogField.argumentListTokens names).length := by
  cases names with
  | nil => exact Nat.le_refl 0
  | cons a names =>
    have hle : (a :: names).length ≤
        ((a :: names).flatMap CatalogField.argumentTokens).length :=
      Query.length_le_flatMap fun name _ => nameFirst_cons name _
    show (a :: names).length ≤ ((a :: names).flatMap CatalogField.argumentTokens ++ _).length + 1
    rw [List.length_append]
    omega

/-- A field is read from its tokens. -/
theorem reads_field {f : CatalogField} {limit : Nat} (hlimit : f.tokens.length < limit) :
    Reads (FieldDeclaration.step limit) f.tokens f.declaration := by
  have harguments := length_le_argumentListTokens f.arguments
  simp only [CatalogField.tokens, List.length_cons, List.length_append] at hlimit
  obtain ⟨bound, rfl⟩ : ∃ bound, limit = bound + 2 := ⟨limit - 2, by omega⟩
  have hdone : Reads (FieldDeclaration.ofType f.name f.arguments f.typeRef) [] f.declaration := by
    rw [FieldDeclaration.ofType, shape?_typeRef]
    exact .pure f.declaration
  have htype := (reads_typeRef f bound).bind hdone (by simp)
  rw [List.append_nil] at htype
  exact .name_bind (reads_argumentList (by omega) (.punctuation_bind htype))

/-- Members in braces are read from the tokens of each. -/
theorem reads_members {member : Step β} {tokens : α → List Token} {value : α → β} {xs : List α}
    {limit : Nat} (hmember : ∀ x ∈ xs, Reads member (tokens x) (value x))
    (hname : ∀ x ∈ xs, NameFirst (tokens x)) (hlimit : xs.length < limit) :
    Reads (TypeDeclaration.members member limit)
      (.punctuation Step.openBrace :: (xs.flatMap tokens ++ [.punctuation Step.closeBrace]))
      (xs.map value) :=
  .punctuation_bind (.itemsUntil hmember hname hlimit (by decide))

/-- An enum is read from its tokens. -/
theorem reads_enum {e : EnumType} {limit : Nat} (hlimit : e.tokens.length < limit) :
    Reads (TypeDeclaration.step limit) e.tokens (.enum e) := by
  have hmembers : Reads (TypeDeclaration.members Step.name limit)
      (.punctuation Step.openBrace ::
        (e.values.flatMap (fun v => [.name v]) ++ [.punctuation Step.closeBrace]))
      (e.values.map id) := by
    refine reads_members (fun v _ => .name) (fun v _ => nameFirst_cons v []) ?_
    simp only [EnumType.tokens, TypeCatalog.blockTokens, List.length_cons, List.length_append,
      List.length_map] at hlimit
    omega
  rw [List.map_id, ← List.map_eq_flatMap] at hmembers
  exact .name_bind (.name_bind (hmembers.map fun values => TypeDeclaration.enum ⟨e.name, values⟩))

/-- An object type is read from its tokens. -/
theorem reads_object {o : CatalogObject} {limit : Nat} (hlimit : o.tokens.length < limit) :
    Reads (TypeDeclaration.step limit) o.tokens (.object o.declaration) := by
  have hname : ∀ f ∈ o.fields, NameFirst (CatalogField.tokens f) := fun f _ =>
    nameFirst_cons f.name _
  have hcount := Query.length_le_flatMap hname
  simp only [CatalogObject.tokens, TypeCatalog.blockTokens, List.length_cons,
    List.length_append] at hlimit
  have hfields : ∀ f ∈ o.fields, Reads (FieldDeclaration.step limit) f.tokens f.declaration := by
    intro f hf
    have hlength : f.tokens.length ≤ (o.fields.flatMap CatalogField.tokens).length :=
      Query.length_tokens_le hf
    exact reads_field (by omega)
  have hlength : o.fields.length < limit := by omega
  have hmembers := reads_members hfields hname hlength
  exact .name_bind (.name_bind (hmembers.map fun fields => TypeDeclaration.object ⟨o.name, fields⟩))

/-- A scalar is read from its tokens. -/
theorem reads_scalar (name : String) (limit : Nat) :
    Reads (TypeDeclaration.step limit) [.name "scalar", .name name] (.scalar name) :=
  .name_bind (.name_bind (.pure (TypeDeclaration.scalar name)))

/-- Every declaration of a catalog begins with a name and is read from its tokens. -/
theorem reads_part {catalog : TypeCatalog} {p : List Token × TypeDeclaration}
    (hp : p ∈ catalog.parts) :
    NameFirst p.1 ∧ ∀ limit, p.1.length < limit → Reads (TypeDeclaration.step limit) p.1 p.2 := by
  rcases List.mem_append.mp hp with hp | hp
  · rcases List.mem_append.mp hp with hp | hp
    · obtain ⟨s, -, rfl⟩ := List.mem_map.mp hp
      exact ⟨nameFirst_cons _ _, fun limit _ => reads_scalar s.1 limit⟩
    · obtain ⟨e, -, rfl⟩ := List.mem_map.mp hp
      exact ⟨nameFirst_cons _ _, fun _ => reads_enum⟩
  · obtain ⟨o, -, rfl⟩ := List.mem_map.mp hp
    exact ⟨nameFirst_cons _ _, fun _ => reads_object⟩

/-- All declarations are read from the tokens of each. -/
theorem run_all {parts : List (List Token × TypeDeclaration)} {limit count : Nat}
    (hparts : ∀ p ∈ parts, Reads (TypeDeclaration.step limit) p.1 p.2)
    (hname : ∀ p ∈ parts, NameFirst p.1) (hcount : parts.length < count)
    {placed : List Query.Placed} (hplaced : placed.map (·.token) = parts.flatMap (·.1)) :
    (TypeDeclaration.all limit count).run placed = some (parts.map (·.2), []) := by
  induction parts generalizing count placed with
  | nil =>
    obtain ⟨count, rfl⟩ := Nat.exists_eq_succ_of_ne_zero (Nat.ne_zero_of_lt hcount)
    rw [List.map_eq_nil_iff.mp hplaced, TypeDeclaration.all]
    rfl
  | cons p parts ih =>
    obtain ⟨count, rfl⟩ := Nat.exists_eq_succ_of_ne_zero (Nat.ne_zero_of_lt hcount)
    obtain ⟨hp, hparts⟩ := List.forall_mem_cons.mp hparts
    obtain ⟨⟨first, rest, hfirst⟩, hnames⟩ := List.forall_mem_cons.mp hname
    rw [List.flatMap_cons] at hplaced
    obtain ⟨front, back, rfl, hfront, hback⟩ := List.map_eq_append_iff.mp hplaced
    have hrest := ih hparts hnames (Nat.lt_of_succ_lt_succ hcount) hback
    have hstep := hp front back hfront (Query.settled_of_nameFirst hnames hback)
    rw [hfirst] at hfront
    obtain ⟨t, tail, rfl, -⟩ := List.map_eq_cons_iff.mp hfront
    rw [List.cons_append] at hstep ⊢
    simp [TypeDeclaration.all, StateT.run_bind, hstep, hrest]

end reads

/-! ## From the text to the types -/

/-- The field of a declaration; the text does not say what its type is declared as. -/
def FieldDeclaration.toField (f : FieldDeclaration) : CatalogField :=
  { name := f.name, arguments := f.arguments, typeName := f.typeName, kind := .scalar
    isList := f.isList, isNullable := f.isNullable }

namespace TypeCatalog

variable {d d' : Document} {c c' : TypeCatalog}

/-- What the definition text of the catalog declares. -/
def declared (c : TypeCatalog) : DeclaredTypes where
  scalars := customScalars.map (·.1)
  enums := c.enums
  objects := c.objects.map (·.declaration)

/-- The declarations of a catalog, taken apart by kind. -/
theorem ofDeclarations_parts (c : TypeCatalog) :
    DeclaredTypes.ofDeclarations (c.parts.map (·.2)) = c.declared := by
  have hnone {α β : Type} (xs : List α) : xs.filterMap (fun _ => (none : Option β)) = [] := by
    simp
  have hsome {α β : Type} (f : α → β) (xs : List α) :
      xs.filterMap (fun x => some (f x)) = xs.map f :=
    congrFun List.filterMap_eq_map xs
  simp [DeclaredTypes.ofDeclarations, parts, declared, Function.comp_def,
    TypeDeclaration.scalar?, TypeDeclaration.enum?, TypeDeclaration.object?, hnone, hsome]

/-- A definition text is read back: its scalars, its enums with their values and its object types
with their fields. -/
theorem read?_definition (h : c.Readable) :
    DeclaredTypes.read? c.definition = some c.declared := by
  obtain ⟨placed, hplaced, htokens⟩ := (lexes_definition h).tokensOf?
  have hlength : placed.length = (c.parts.flatMap (·.1)).length := by
    rw [← hplaced, List.length_map]
  have hname : ∀ p ∈ c.parts, NameFirst p.1 := fun p hp => (reads_part hp).1
  have hread : ∀ p ∈ c.parts, Reads (TypeDeclaration.step (placed.length + 1)) p.1 p.2 := by
    intro p hp
    have hle : p.1.length ≤ (c.parts.flatMap (·.1)).length := Query.length_tokens_le hp
    exact (reads_part hp).2 _ (by omega)
  have hcount : c.parts.length < placed.length + 1 := by
    rw [hlength]
    exact Nat.lt_succ_of_le (Query.length_le_flatMap hname)
  have hall := run_all hread hname hcount hplaced
  simp [DeclaredTypes.read?, htokens, hall, ofDeclarations_parts]

/-- The definition text is that of what it declares. -/
theorem definition_eq (c : TypeCatalog) :
    c.definition = String.join (c.declared.scalars.map fun s => "scalar " ++ s ++ "\n")
      ++ String.join (c.declared.enums.map fun e => block "enum" e.name e.values)
      ++ String.join (c.declared.objects.map fun o =>
          block "type" o.name (o.fields.map (·.toField.definition))) := by
  have hfield (f : CatalogField) : f.declaration.toField.definition = f.definition := rfl
  simp only [definition, declared, CatalogObject.declaration, List.map_map, Function.comp_def,
    hfield]

/-- The names that a catalog declares are names: those of types, values, fields and arguments. -/
structure Named (c : TypeCatalog) : Prop where
  enums : ∀ e ∈ c.enums, isName e.name = true ∧ ∀ v ∈ e.values, isName v = true
  objects : ∀ o ∈ c.objects, isName o.name = true ∧
    ∀ f ∈ o.fields, isName f.name = true ∧ ∀ a ∈ f.arguments, isName a = true

/-- In the catalog of a document the types of fields are declared, so their names are names, too. -/
theorem readable_of_named (h : ofDocument d = .ok c) (hc : c.Named) : c.Readable := by
  have htype {name : String} {kind : TypeKind} (hname : d.Declares name kind) :
      isName name = true := by
    cases hname with
    | scalar hin => revert name; decide
    | enum he hname =>
      rw [← (ofDocument_eq_ok_iff.mp h).2.1] at he
      exact hname ▸ (hc.enums _ he).1
    | object ht hname =>
      have hin := List.mem_map_of_mem (f := ObjectType.name) ht
      rw [← names_objects h] at hin
      obtain ⟨o, ho, honame⟩ := List.mem_map.mp hin
      exact hname ▸ honame ▸ (hc.objects o ho).1
  refine ⟨hc.enums, fun o ho => ⟨(hc.objects o ho).1, fun f hf => ?_⟩⟩
  obtain ⟨hname, harguments⟩ := (hc.objects o ho).2 f hf
  exact ⟨hname, harguments, htype (declares_typeName h ho hf)⟩

/-- **The definition text determines the types.** Reading it gives the enums with their values and
the object types with their fields, all in order, and two catalogs with one text agree on all of
these. -/
theorem definition_determines (h : ofDocument d = .ok c) (h' : ofDocument d' = .ok c')
    (hc : c.Named) (hc' : c'.Named) :
    DeclaredTypes.read? c.definition = some c.declared ∧
      (c.definition = c'.definition ↔
        c.enums = c'.enums ∧ c.objects.map (·.declaration) = c'.objects.map (·.declaration)) := by
  have hread := read?_definition (readable_of_named h hc)
  have hread' := read?_definition (readable_of_named h' hc')
  refine ⟨hread, fun htext => ?_, fun ⟨henums, hobjects⟩ => ?_⟩
  · have hdeclared : c.declared = c'.declared := by
      rw [htext, hread'] at hread
      exact (Option.some.inj hread).symm
    exact ⟨congrArg DeclaredTypes.enums hdeclared, congrArg DeclaredTypes.objects hdeclared⟩
  · have hdeclared : c.declared = c'.declared := by
      rw [declared, declared, henums, hobjects]
    rw [definition_eq, definition_eq, hdeclared]

/-! ## Menus -/

namespace Menus

/-- A document with an enum that has no values, and a list of dishes that may be null or not. -/
def document (nullable : Bool) : Document where
  models := []
  outputs := ⟨[{
    name := "Query"
    fields := [
      { name := "version", arguments := [], isNullable := false
        type := ⟨"String", none, .scalar, false⟩ },
      { name := "dishes", arguments := ["course", "take"], isNullable := nullable
        type := ⟨"Dish", none, .outputObjectTypes, true⟩ }] }], [{
    name := "Dish"
    fields := [
      { name := "course", arguments := [], isNullable := true
        type := ⟨"Course", none, .enumTypes, false⟩ }] }]⟩
  enums := ⟨[⟨"Allergen", []⟩], [⟨"Course", ["starter", "main"]⟩]⟩
  mappings := []
  otherReads := []
  otherWrites := []

/-- The catalog of the document. -/
def types (nullable : Bool) : TypeCatalog where
  enums := [⟨"Allergen", []⟩, ⟨"Course", ["starter", "main"]⟩]
  objects := [
    { name := "Query", isModel := false
      fields := [
        ⟨"version", [], "String", .scalar, false, false⟩,
        ⟨"dishes", ["course", "take"], "Dish", .object, true, nullable⟩] },
    { name := "Dish", isModel := false
      fields := [⟨"course", [], "Course", .enum, false, true⟩] }]

end Menus

/-- Whether the list of dishes may be null shows in the text and is read back from it. -/
theorem menus_definitions :
    (∀ nullable, ofDocument (Menus.document nullable) = .ok (Menus.types nullable) ∧
      (Menus.types nullable).Named ∧
      DeclaredTypes.read? (Menus.types nullable).definition = some {
        scalars := ["Any", "DateTime", "Json", "BigInt", "Decimal", "Bytes"]
        enums := [⟨"Allergen", []⟩, ⟨"Course", ["starter", "main"]⟩]
        objects := [
          ⟨"Query", [⟨"version", [], "String", false, false⟩,
            ⟨"dishes", ["course", "take"], "Dish", true, nullable⟩]⟩,
          ⟨"Dish", [⟨"course", [], "Course", false, true⟩]⟩] }) ∧
      (Menus.types true).definition ≠ (Menus.types false).definition := by
  have htypes : ∀ nullable, ofDocument (Menus.document nullable) = .ok (Menus.types nullable) :=
    fun _ => rfl
  have hnamed : ∀ nullable, (Menus.types nullable).Named := fun nullable => by
    cases nullable <;> exact ⟨by decide, by decide⟩
  refine ⟨fun nullable => ⟨htypes nullable, hnamed nullable, ?_⟩, fun heq => ?_⟩
  · exact (definition_determines (htypes nullable) (htypes nullable) (hnamed nullable)
      (hnamed nullable)).1
  · have hobjects := ((definition_determines (htypes true) (htypes false) (hnamed true)
      (hnamed false)).2.mp heq).2
    revert hobjects
    decide

end TypeCatalog

end ModelGateway
