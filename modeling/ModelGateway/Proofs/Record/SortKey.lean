import ModelGateway.Proofs.Except
import ModelGateway.Record.Sort

/-!
# Reading sort keys

An ordering is an object, or a list of objects, that gives fields a direction or options. Reading
honours every ordering that has the form of one (`SortKey.Orders`), but it also accepts options that
have no meaning (`SortKey.Lax`): a `sort` that is missing or no text is taken for `asc`, a `nulls`
that is no text is passed over, and every text for it but `first` is taken for `last`.

* **Entries** (`SortKey.denotes_iff`): an entry denotes a key exactly if it is read as this key and
  its options are not lax.
* **Orderings** (`SortKey.ofArgument_exact_iff`): an ordering is read exactly as the keys that it
  denotes if it is refused or none of its options are lax. `ordering_reads_lax_options` is one that
  is not.
-/

namespace ModelGateway.SortKey

/-! ## What an ordering denotes -/

/-- The text of a direction. -/
def directionText (descending : Bool) : String :=
  if descending then "desc" else "asc"

/-- The text of the place where nulls come. -/
def placeText (first : Bool) : String :=
  if first then "first" else "last"

/-- What is given for a field denotes a sort key: a direction, alone or as the option `sort`. The
option `nulls` says where nulls come. Without it they come first in a descending order and last in
an ascending one. -/
inductive Denotes (field : String) : Json → SortKey → Prop
  | direction (descending : Bool) :
      Denotes field (.str (directionText descending)) ⟨field, descending, descending⟩
  | options {options : Entries Json} {descending : Bool}
      (sort : options.get? "sort" = some (.str (directionText descending)))
      (nulls : options.get? "nulls" = none) :
      Denotes field (.obj options) ⟨field, descending, descending⟩
  | placed {options : Entries Json} {descending first : Bool}
      (sort : options.get? "sort" = some (.str (directionText descending)))
      (nulls : options.get? "nulls" = some (.str (placeText first))) :
      Denotes field (.obj options) ⟨field, descending, first⟩

/-- The form of an ordering: absent, null, an object or a list of objects. -/
def Formed : Option Json → Prop
  | none | some .null | some (.obj _) => True
  | some (.arr items) => ∀ item ∈ items, item.isObject = true
  | some _ => False

/-- The fields of an ordering with what is given for them, in the order of the objects and of their
names. -/
def entries : Option Json → Entries Json
  | some (.obj fields) => fields
  | some (.arr items) => items.flatMap fun item => item.asEntries?.getD []
  | _ => []

/-- An ordering denotes the keys that its entries denote, one for each of them. -/
structure Orders (ordering : Option Json) (keys : List SortKey) : Prop where
  formed : Formed ordering
  denotes : List.Forall₂ (fun e key => Denotes e.1 e.2 key) (entries ordering) keys

/-- Options without a meaning: `sort` is missing or no text, or `nulls` is given and
names no place. -/
def Lax (spec : Json) : Prop :=
  ∃ options, spec = .obj options ∧
    ((∀ text, Entries.get? options "sort" ≠ some (.str text)) ∨
      ∃ value, Entries.get? options "nulls" = some value ∧
        ∀ first, value ≠ .str (placeText first))

/-! ## Entries -/

variable {field : String} {spec : Json} {key : SortKey} {ordering : Option Json}
  {keys : List SortKey}

/-- An entry is read if its direction is known. -/
theorem ofEntry_eq_ok_iff :
    ofEntry field spec = .ok key ↔
      ∃ descending, (SortKey.spec spec).1 = directionText descending ∧
        key = ⟨field, descending, ((SortKey.spec spec).2.map (· == "first")).getD descending⟩ := by
  rw [ofEntry]
  rcases SortKey.spec spec with ⟨direction, nulls⟩
  dsimp only
  constructor
  · intro h
    split at h
    · cases h
      exact ⟨false, rfl, rfl⟩
    · cases h
      exact ⟨true, rfl, rfl⟩
    · cases h
  · rintro ⟨_ | _, rfl, rfl⟩ <;> rfl

/-- An entry that denotes a key is read as this key, and its options are not lax. -/
theorem Denotes.ofEntry_eq (h : Denotes field spec key) :
    ofEntry field spec = .ok key ∧ ¬ Lax spec := by
  rw [ofEntry_eq_ok_iff]
  cases h with
  | direction descending =>
    refine ⟨⟨descending, rfl, rfl⟩, ?_⟩
    rintro ⟨options, hspec, -⟩
    cases hspec
  | @options options descending sort nulls =>
    refine ⟨⟨descending, by simp [SortKey.spec, sort, Json.asString?], ?_⟩, ?_⟩
    · simp [SortKey.spec, nulls]
    · rintro ⟨_, hspec, hsort | ⟨value, hnulls, -⟩⟩
      · cases hspec
        exact hsort _ sort
      · cases hspec
        cases nulls.symm.trans hnulls
  | @placed options descending first sort nulls =>
    refine ⟨⟨descending, by simp [SortKey.spec, sort, Json.asString?], ?_⟩, ?_⟩
    · cases first <;> simp [SortKey.spec, nulls, Json.asString?, placeText]
    · rintro ⟨_, hspec, hsort | ⟨value, hnulls, hvalue⟩⟩
      · cases hspec
        exact hsort _ sort
      · cases hspec
        cases nulls.symm.trans hnulls
        exact hvalue first rfl

/-- An entry that is read and whose options are not lax denotes the key that is read. -/
theorem denotes_of_ofEntry (h : ofEntry field spec = .ok key) (hlax : ¬ Lax spec) :
    Denotes field spec key := by
  obtain ⟨descending, hdirection, rfl⟩ := ofEntry_eq_ok_iff.mp h
  cases spec with
  | str text =>
    have htext : text = directionText descending := hdirection
    subst htext
    exact .direction descending
  | obj options =>
    obtain ⟨text, hsort⟩ : ∃ text, Entries.get? options "sort" = some (.str text) := by
      by_contra hnone
      exact hlax ⟨options, rfl, .inl fun text htext => hnone ⟨text, htext⟩⟩
    have htext : text = directionText descending := by
      simpa [SortKey.spec, hsort, Json.asString?] using hdirection
    subst htext
    cases hnulls : Entries.get? options "nulls" with
    | none =>
      simpa [SortKey.spec, hnulls] using Denotes.options hsort hnulls
    | some value =>
      obtain ⟨first, rfl⟩ : ∃ first, value = .str (placeText first) := by
        by_contra hnone
        exact hlax ⟨options, rfl, .inr ⟨value, hnulls, fun first hf => hnone ⟨first, hf⟩⟩⟩
      have hplaced : Denotes field (.obj options) ⟨field, descending, first⟩ := .placed hsort hnulls
      cases first <;> simpa [SortKey.spec, hnulls, Json.asString?, placeText] using hplaced
  | _ =>
    -- what is neither a text nor an object has no direction
    cases descending <;> simp [SortKey.spec, directionText] at hdirection

/-- An entry denotes a key exactly if it is read as this key and its options are not lax. -/
theorem denotes_iff : Denotes field spec key ↔ ofEntry field spec = .ok key ∧ ¬ Lax spec :=
  ⟨Denotes.ofEntry_eq, fun h => denotes_of_ofEntry h.1 h.2⟩

/-! ## Orderings -/

/-- Objects are read one entry after another. -/
theorem mapM_ofObject {items : List Json} (h : ∀ item ∈ items, item.isObject = true) :
    (do return (← items.mapM ofObject).flatten) =
      (items.flatMap fun item => item.asEntries?.getD []).mapM fun e => ofEntry e.1 e.2 := by
  induction items with
  | nil => rfl
  | cons item rest ih =>
    obtain ⟨hitem, hrest⟩ := List.forall_mem_cons.mp h
    cases item with
    | obj fields =>
      rw [List.flatMap_cons, List.mapM_append, ← ih hrest, List.mapM_cons]
      simp [ofObject, Json.asEntries?]
    | _ => cases hitem

/-- An ordering is read if it has the form of one, and then entry by entry. -/
theorem ofArgument_eq_ok_iff :
    ofArgument ordering = .ok keys ↔
      Formed ordering ∧
        List.Forall₂ (fun e key => ofEntry e.1 e.2 = .ok key) (entries ordering) keys := by
  rw [← Except.mapM_eq_ok_iff]
  match ordering with
  | none | some .null => simp [ofArgument, Formed, entries, pure, Except.pure]
  | some (.obj fields) =>
    rw [and_iff_right (by trivial)]
    rfl
  | some (.arr items) =>
    by_cases hformed : ∀ item ∈ items, item.isObject = true
    · have hform : Formed (some (.arr items)) := hformed
      rw [and_iff_right hform, entries, ← mapM_ofObject hformed, ofArgument]
    · refine iff_of_false ?_ fun h => hformed h.1
      rw [ofArgument]
      intro h
      obtain ⟨read, hread, -⟩ := Except.bind_eq_ok_iff.mp h
      apply hformed
      intro item hitem
      obtain ⟨_, hobject⟩ := Except.exists_mapM_eq_ok_iff.mp ⟨read, hread⟩ item hitem
      cases item with
      | obj fields => rfl
      | _ => cases hobject
  | some (.bool _) | some (.num _) | some (.str _) => simp [ofArgument, ofObject, Formed]

/-- An ordering denotes keys exactly if it is read as these keys and none of its options are lax. -/
theorem orders_iff :
    Orders ordering keys ↔ ofArgument ordering = .ok keys ∧ ∀ e ∈ entries ordering, ¬ Lax e.2 := by
  rw [ofArgument_eq_ok_iff, and_assoc]
  constructor
  · intro ⟨hformed, hdenotes⟩
    refine ⟨hformed, hdenotes.imp fun e key h => h.ofEntry_eq.1, ?_⟩
    intro e he
    obtain ⟨i, hi, rfl⟩ := List.getElem_of_mem he
    exact (hdenotes.get hi (hdenotes.length_eq ▸ hi)).ofEntry_eq.2
  · intro ⟨hformed, hread, hlax⟩
    refine ⟨hformed, List.forall₂_iff_get.mpr ⟨hread.length_eq, fun i hi hi' => ?_⟩⟩
    exact denotes_of_ofEntry (hread.get hi hi') (hlax _ (List.getElem_mem hi))

/-- An ordering is accepted exactly if it denotes keys, and then is read as these, unless it is
accepted although some of its options are lax. -/
theorem ofArgument_exact_iff (ordering : Option Json) :
    (∀ keys, ofArgument ordering = .ok keys ↔ Orders ordering keys) ↔
      (∃ fault, ofArgument ordering = .error fault) ∨ ∀ e ∈ entries ordering, ¬ Lax e.2 := by
  simp only [orders_iff]
  cases hread : ofArgument ordering with
  | error fault => simp
  | ok keys => simp

/-- An ordering whose directions are a number and the count of a relation, and whose place of nulls
is none of the two, is accepted: as two ascending keys, and a descending one with nulls last. -/
theorem ordering_reads_lax_options :
    let options (name : String) (value : Json) := Json.obj [(name, value)]
    let ordering := some (Json.arr [
      options "age" (options "sort" (.ofNat 5)),
      options "posts" (options "_count" (.str "desc")),
      options "name" (.obj [("sort", .str "desc"), ("nulls", .str "middle")])])
    ofArgument ordering =
        .ok [⟨"age", false, false⟩, ⟨"posts", false, false⟩, ⟨"name", true, false⟩] ∧
      ¬ ∀ keys, ofArgument ordering = .ok keys ↔ Orders ordering keys := by
  intro options ordering
  have hread : ofArgument ordering =
      .ok [⟨"age", false, false⟩, ⟨"posts", false, false⟩, ⟨"name", true, false⟩] := rfl
  refine ⟨hread, fun hexact => ?_⟩
  have hlax : Lax (options "sort" (.ofNat 5)) :=
    ⟨_, rfl, .inl fun text htext => by cases htext⟩
  exact (orders_iff.mp ((hexact _).mp hread)).2 _ List.mem_cons_self hlax

end ModelGateway.SortKey
