import ModelGateway.Proofs.Json.Entries
import ModelGateway.Schema.AggregateSelection

/-!
# Which aggregates are requested

An aggregate is requested if fields of the selection set, each among the selections of the one
before, spell its path (`AggregateSelection.Requested`). A selection set may name one field several
times; then only the selections of the last field of that name are taken.

* **Paths** (`AggregateSelection.isSome_at?_ofSelections`): the paths of the extracted arguments are
  those that the last fields of their names spell.
* **Exactness** (`AggregateSelection.ofSelections_exact_iff`): the extracted arguments say what is
  requested, and `true` for what has no further parts, exactly if the last fields of their names
  request everything that is requested.
-/

namespace ModelGateway

open Query (Selection)

/-! ## Paths of values -/

namespace Json

/-- What stands at a path of names in nested objects. -/
def at? : Json → List String → Option Json
  | value, [] => some value
  | value, name :: rest => (value.get? name).bind (at? · rest)

/-- A path goes on from where its first part leads. -/
theorem at?_append (value : Json) (path longer : List String) :
    value.at? (path ++ longer) = (value.at? path).bind (at? · longer) := by
  induction path generalizing value with
  | nil => rfl
  | cons name rest ih => cases h : value.get? name <;> simp [at?, h, ih]

end Json

namespace AggregateSelection

variable {selections before after below : List Selection} {root : Bool} {name : String}
  {path : List String}

/-! ## Fields of selection sets -/

/-- A field called `name` is one of the selections, and has its own selections below it. -/
def Occurs (selections : List Selection) (name : String) (below : List Selection) : Prop :=
  ∃ label arguments directives position,
    Selection.field label name arguments directives below position ∈ selections

/-- The same of the last field called `name`. -/
def OccursLast (selections : List Selection) (name : String) (below : List Selection) : Prop :=
  ∃ label arguments directives position before after,
    selections = before ++ .field label name arguments directives below position :: after ∧
      ∀ other, ¬ Occurs after name other

/-- Fields of some kind, each among the selections of the one before, spell a path. -/
inductive Spells (kind : List Selection → String → List Selection → Prop) :
    List Selection → List String → Prop
  | field {selections below : List Selection} {name : String} (here : kind selections name below) :
      Spells kind selections [name]
  | under {selections below : List Selection} {name : String} {path : List String}
      (here : kind selections name below) (there : Spells kind below path) :
      Spells kind selections (name :: path)

/-- Fields of some kind request the aggregate at a path: they spell it, its first name begins with
`_`, and no name begins with `__`. -/
structure Requested (kind : List Selection → String → List Selection → Prop)
    (selections : List Selection) (path : List String) : Prop where
  spelled : Spells kind selections path
  group : ∀ first ∈ path.head?, Text.startsWith first "_" = true
  data : ∀ name ∈ path, Text.startsWith name "__" = false

/-- The name of a field. -/
def fieldName? : Selection → Option String
  | .field _ name _ _ _ _ => some name
  | .spread _ _ | .inline _ _ _ => none

/-- The last field of a name is a field. -/
theorem OccursLast.occurs (h : OccursLast selections name below) :
    Occurs selections name below := by
  obtain ⟨label, arguments, directives, position, before, after, rfl, -⟩ := h
  exact ⟨label, arguments, directives, position, by simp⟩

/-- Where there is a field of a name, there is a last one. -/
theorem Occurs.exists_occursLast (h : Occurs selections name below) :
    ∃ last, OccursLast selections name last := by
  induction selections generalizing below with
  | nil => simp [Occurs] at h
  | cons selection rest ih =>
    by_cases hrest : ∃ other, Occurs rest name other
    · obtain ⟨other, hother⟩ := hrest
      obtain ⟨last, label, arguments, directives, position, before, after, rfl, hafter⟩ := ih hother
      exact ⟨last, label, arguments, directives, position, selection :: before, after, rfl, hafter⟩
    · obtain ⟨label, arguments, directives, position, hmem⟩ := h
      rcases List.mem_cons.mp hmem with rfl | hmem
      · exact ⟨below, label, arguments, directives, position, [], rest, rfl,
          fun other hother => hrest ⟨other, hother⟩⟩
      · exact absurd ⟨below, label, arguments, directives, position, hmem⟩ hrest

/-- What some fields spell, more fields spell. -/
theorem Spells.mono {kind more : List Selection → String → List Selection → Prop}
    (hkind : ∀ {selections name below}, kind selections name below → more selections name below)
    (h : Spells kind selections path) : Spells more selections path := by
  induction h with
  | field here => exact .field (hkind here)
  | under here _ ih => exact .under (hkind here) ih

/-- A path is spelled by a field of its first name and by fields below for the rest. -/
theorem spells_cons_iff {kind : List Selection → String → List Selection → Prop} :
    Spells kind selections (name :: path) ↔
      ∃ below, kind selections name below ∧ (path = [] ∨ Spells kind below path) := by
  constructor
  · rintro (here | ⟨here, there⟩)
    · exact ⟨_, here, .inl rfl⟩
    · exact ⟨_, here, .inr there⟩
  · rintro ⟨below, here, rfl | there⟩
    · exact .field here
    · exact .under here there

/-- No fields spell the empty path. -/
theorem not_spells_nil {kind : List Selection → String → List Selection → Prop} :
    ¬ Spells kind selections [] := by
  rintro ⟨⟩

/-- When a path is requested, by its first name and the others. -/
theorem requested_cons_iff {kind : List Selection → String → List Selection → Prop} :
    Requested kind selections (name :: path) ↔
      Spells kind selections (name :: path) ∧ isRequested true name = true ∧
        ∀ other ∈ path, isRequested false other = true := by
  constructor
  · rintro ⟨spelled, group, data⟩
    have hgroup : Text.startsWith name "_" = true := group name rfl
    rw [List.forall_mem_cons] at data
    exact ⟨spelled, by simp [isRequested, isMeta, hgroup, data.1],
      fun other hother => by simp [isRequested, isMeta, data.2 other hother]⟩
  · rintro ⟨spelled, hname, hpath⟩
    simp only [isRequested, isMeta, Bool.not_true, Bool.false_or, Bool.and_eq_true,
      Bool.not_eq_true'] at hname
    refine ⟨spelled, by simp [hname.2], List.forall_mem_cons.mpr ⟨hname.1, fun other hother => ?_⟩⟩
    simpa [isRequested, isMeta] using hpath other hother

/-! ## Extraction -/

/-- The requests of two parts of a selection set, one after the other. -/
theorem collect_append (root : Bool) (before after : List Selection) (out : Entries Json) :
    collect root (before ++ after) out = collect root after (collect root before out) := by
  induction before generalizing out with
  | nil => simp [collect]
  | cons selection rest ih =>
    cases selection with
    | field =>
      simp only [List.cons_append, collect]
      split_ifs <;> exact ih _
    | spread | inline =>
      simp only [List.cons_append, collect]
      exact ih _

/-- A name that does not count, or has no field, leaves what was requested under it before. -/
theorem get?_collect_of_not_occurs
    (h : isRequested root name = true → ∀ other, ¬ Occurs selections name other)
    (out : Entries Json) : (collect root selections out).get? name = out.get? name := by
  induction selections generalizing out with
  | nil => simp [collect]
  | cons selection rest ih =>
    have hrest : isRequested root name = true → ∀ other, ¬ Occurs rest name other := by
      rintro hname other ⟨label, arguments, directives, position, hmem⟩
      exact h hname other ⟨label, arguments, directives, position, List.mem_cons_of_mem _ hmem⟩
    cases selection with
    | field label field arguments directives below position =>
      rw [collect]
      split_ifs with hfield
      · have hne : name ≠ field := by
          rintro rfl
          exact h hfield below ⟨label, arguments, directives, position, List.mem_cons_self⟩
        rw [ih hrest, Entries.get?_insert_of_ne _ _ hne]
      · exact ih hrest out
    | spread | inline =>
      rw [collect]
      exact ih hrest out

/-- Under a name that counts stands what the last field of that name requests. -/
theorem get?_collect_of_occursLast (h : OccursLast selections name below)
    (hname : isRequested root name = true) (out : Entries Json) :
    (collect root selections out).get? name = some (request (collect false below [])) := by
  obtain ⟨label, arguments, directives, position, before, after, rfl, hafter⟩ := h
  rw [collect_append, collect, if_pos hname, get?_collect_of_not_occurs fun _ => hafter,
    Entries.get?_insert_self]

/-- What stands under a name of a selection set: for a name that counts and has a field, what the
last field of that name requests. -/
theorem get?_collect_eq_some_iff {value : Json} :
    (collect root selections []).get? name = some value ↔
      isRequested root name = true ∧
        ∃ below, OccursLast selections name below ∧ value = request (collect false below []) := by
  constructor
  · intro h
    have hoccurs : isRequested root name = true ∧ ∃ other, Occurs selections name other := by
      by_contra hnot
      rw [get?_collect_of_not_occurs fun hname other hother => hnot ⟨hname, other, hother⟩] at h
      simp at h
    obtain ⟨hname, other, hother⟩ := hoccurs
    obtain ⟨below, hlast⟩ := hother.exists_occursLast
    rw [get?_collect_of_occursLast hlast hname, Option.some.injEq] at h
    exact ⟨hname, below, hlast, h.symm⟩
  · rintro ⟨hname, below, hlast, rfl⟩
    exact get?_collect_of_occursLast hlast hname []

/-- Below a field stands what its own selections request. -/
theorem at?_request (nested : Entries Json) (h : path ≠ []) :
    (request nested).at? path = (Json.obj nested).at? path := by
  obtain ⟨first, rest, rfl⟩ := List.exists_cons_of_ne_nil h
  cases nested <;> simp [request, Json.at?, Json.get?]

/-- A path leads somewhere in the requests of a selection set if its first name counts and the rest
leads somewhere in what the last field of that name requests. -/
theorem isSome_at?_collect_cons :
    ((Json.obj (collect root selections [])).at? (name :: path)).isSome ↔
      isRequested root name = true ∧ ∃ below, OccursLast selections name below ∧
        (path = [] ∨ ((Json.obj (collect false below [])).at? path).isSome) := by
  rw [Json.at?, Json.get?, Option.isSome_iff_exists]
  constructor
  · rintro ⟨value, hvalue⟩
    obtain ⟨part, hpart, hvalue⟩ := Option.bind_eq_some_iff.mp hvalue
    obtain ⟨hname, below, hlast, rfl⟩ := get?_collect_eq_some_iff.mp hpart
    refine ⟨hname, below, hlast, or_iff_not_imp_left.mpr fun hpath => ?_⟩
    rw [← at?_request _ hpath, hvalue]
    rfl
  · rintro ⟨hname, below, hlast, hpath⟩
    rw [get?_collect_of_occursLast hlast hname, Option.bind_some]
    by_cases hnil : path = []
    · exact ⟨_, by rw [hnil, Json.at?]⟩
    · rw [at?_request _ hnil]
      exact Option.isSome_iff_exists.mp (hpath.resolve_left hnil)

/-- The paths of the requests of a selection set are those that the last fields of their names
spell, as far as the names count. -/
theorem isSome_at?_collect :
    ((Json.obj (collect root selections [])).at? (name :: path)).isSome ↔
      Spells OccursLast selections (name :: path) ∧ isRequested root name = true ∧
        ∀ other ∈ path, isRequested false other = true := by
  induction path generalizing root selections name with
  | nil => simp [isSome_at?_collect_cons, spells_cons_iff, and_comm]
  | cons second rest ih =>
    rw [isSome_at?_collect_cons, spells_cons_iff, List.forall_mem_cons]
    simp only [reduceCtorEq, false_or, ih]
    constructor
    · rintro ⟨hname, below, hlast, spelled, hrest⟩
      exact ⟨⟨below, hlast, spelled⟩, hname, hrest⟩
    · rintro ⟨⟨below, hlast, spelled⟩, hname, hrest⟩
      exact ⟨hname, below, hlast, spelled, hrest⟩

/-- What stands at a path of requests is what some selections request. -/
theorem exists_request_of_at?_collect {value : Json} (hpath : path ≠ [])
    (h : (Json.obj (collect root selections [])).at? path = some value) :
    ∃ below, value = request (collect false below []) := by
  induction path generalizing root selections with
  | nil => exact absurd rfl hpath
  | cons name rest ih =>
    obtain ⟨part, hpart, hvalue⟩ := Option.bind_eq_some_iff.mp h
    obtain ⟨-, below, -, rfl⟩ := get?_collect_eq_some_iff.mp hpart
    by_cases hrest : rest = []
    · subst hrest
      exact ⟨below, (Option.some.inj hvalue).symm⟩
    · rw [at?_request _ hrest] at hvalue
      exact ih hrest hvalue

/-- A request is `true` exactly if no path goes on from it. -/
theorem request_eq_true_iff (nested : Entries Json) :
    request nested = .bool true ↔ ∀ longer ≠ [], (request nested).at? longer = none := by
  cases nested with
  | nil =>
    refine iff_of_true rfl fun longer hlonger => ?_
    obtain ⟨first, rest, rfl⟩ := List.exists_cons_of_ne_nil hlonger
    rfl
  | cons e rest =>
    refine iff_of_false (by simp [request]) fun hnone => ?_
    have hfirst := hnone [e.1] (by simp)
    simp [request, Json.at?, Json.get?, Entries.get?] at hfirst

/-- The path of a request is `true` exactly if no longer path is requested. -/
theorem at?_collect_eq_true_iff :
    (Json.obj (collect root selections [])).at? path = some (.bool true) ↔
      path ≠ [] ∧ ((Json.obj (collect root selections [])).at? path).isSome ∧
        ∀ longer ≠ [], (Json.obj (collect root selections [])).at? (path ++ longer) = none := by
  by_cases hpath : path = []
  · simp [hpath, Json.at?]
  cases hat : (Json.obj (collect root selections [])).at? path with
  | none => simp
  | some value =>
    obtain ⟨below, rfl⟩ := exists_request_of_at?_collect hpath hat
    simp only [Json.at?_append, hat, Option.bind_some, Option.some.injEq, request_eq_true_iff]
    simp [hpath]

/-! ## Exactness -/

/-- The paths of the extracted arguments are those that the last fields of their names request. -/
theorem isSome_at?_ofSelections (selections : List Selection) (hpath : path ≠ []) :
    ((Json.obj (ofSelections selections)).at? path).isSome ↔
      Requested OccursLast selections path := by
  obtain ⟨name, rest, rfl⟩ := List.exists_cons_of_ne_nil hpath
  rw [ofSelections, isSome_at?_collect, requested_cons_iff]

/-- The extracted arguments say what is requested: their paths are the requested ones, and a path
maps to `true` if no longer one is requested. -/
structure Exact (selections : List Selection) : Prop where
  paths : ∀ path ≠ [], ((Json.obj (ofSelections selections)).at? path).isSome ↔
    Requested Occurs selections path
  leaves : ∀ path, (Json.obj (ofSelections selections)).at? path = some (.bool true) ↔
    Requested Occurs selections path ∧
      ∀ longer ≠ [], ¬ Requested Occurs selections (path ++ longer)

/-- No selection set of the tree has two fields of one name. -/
inductive Distinct : List Selection → Prop
  | intro {selections : List Selection} (names_nodup : (selections.filterMap fieldName?).Nodup)
      (nested : ∀ {name below}, Occurs selections name below → Distinct below) : Distinct selections

/-- Where the names differ, every field is the last of its name. -/
theorem Occurs.occursLast (h : Occurs selections name below)
    (hn : (selections.filterMap fieldName?).Nodup) : OccursLast selections name below := by
  obtain ⟨label, arguments, directives, position, hmem⟩ := h
  obtain ⟨before, after, rfl⟩ := List.append_of_mem hmem
  refine ⟨label, arguments, directives, position, before, after, rfl, ?_⟩
  rintro other ⟨label', arguments', directives', position', hafter⟩
  have hnot : name ∉ after.filterMap fieldName? := by
    rw [List.filterMap_append, List.nodup_append] at hn
    exact (List.nodup_cons.mp hn.2.1).1
  exact hnot (List.mem_filterMap.mpr ⟨_, hafter, rfl⟩)

/-- Where the names differ at every level, the last fields of their names spell every path. -/
theorem Distinct.spells_occursLast (hd : Distinct selections) (h : Spells Occurs selections path) :
    Spells OccursLast selections path := by
  induction h with
  | field here =>
    obtain ⟨hn, -⟩ := hd
    exact .field (here.occursLast hn)
  | under here _ ih =>
    obtain ⟨hn, nested⟩ := hd
    exact .under (here.occursLast hn) (ih (nested here))

/-- No group is requested without a name. -/
theorem Requested.ne_nil {kind : List Selection → String → List Selection → Prop}
    (h : Requested kind selections path) : path ≠ [] := by
  rintro rfl
  exact not_spells_nil h.spelled

/-- What the last fields of their names request is requested. -/
theorem Requested.of_occursLast (h : Requested OccursLast selections path) :
    Requested Occurs selections path :=
  ⟨h.spelled.mono OccursLast.occurs, h.group, h.data⟩

/-- Extracted arguments with the requested paths are exact: `true` stands where no longer path
is. -/
theorem Exact.of_paths (hpaths : ∀ path ≠ [],
      ((Json.obj (ofSelections selections)).at? path).isSome ↔ Requested Occurs selections path) :
    Exact selections := by
  refine ⟨hpaths, fun path => ?_⟩
  rw [ofSelections, at?_collect_eq_true_iff, ← ofSelections]
  constructor
  · rintro ⟨hpath, hsome, hnone⟩
    refine ⟨(hpaths path hpath).mp hsome, fun longer hlonger hrequested => ?_⟩
    have hsome := (hpaths _ hrequested.ne_nil).mpr hrequested
    simp [hnone longer hlonger] at hsome
  · rintro ⟨hrequested, hlongest⟩
    refine ⟨hrequested.ne_nil, (hpaths path hrequested.ne_nil).mpr hrequested, ?_⟩
    intro longer hlonger
    rw [← Option.not_isSome_iff_eq_none, hpaths _ (by simp [hlonger])]
    exact hlongest longer hlonger

/-- The extracted arguments are exact exactly if the last fields of their names request everything
that is requested. So they are if no selection set has two fields of one name. -/
theorem ofSelections_exact_iff (selections : List Selection) :
    (Exact selections ↔
      ∀ path, Requested Occurs selections path → Requested OccursLast selections path) ∧
    (Distinct selections → Exact selections) := by
  have hiff : Exact selections ↔
      ∀ path, Requested Occurs selections path → Requested OccursLast selections path := by
    constructor
    · intro hexact path hpath
      have hsome := (hexact.paths path hpath.ne_nil).mpr hpath
      exact (isSome_at?_ofSelections selections hpath.ne_nil).mp hsome
    · intro hlast
      apply Exact.of_paths
      intro path hpath
      rw [isSome_at?_ofSelections selections hpath]
      exact ⟨Requested.of_occursLast, hlast path⟩
  refine ⟨hiff, fun hd => hiff.mpr fun path h => ?_⟩
  exact ⟨hd.spells_occursLast h.spelled, h.group, h.data⟩

/-- Two groups with one field each are extracted exactly. -/
theorem ofSelections_exact_two_groups :
    let group := fun outer inner =>
      Selection.field none outer [] [] [.field none inner [] [] [] ⟨1, 2⟩] ⟨1, 1⟩
    let selections := [group "_count" "_all", group "_avg" "age"]
    Distinct selections ∧ Exact selections := by
  intro group selections
  have hleaf : ∀ inner, Distinct [.field none inner [] [] [] ⟨1, 2⟩] := by
    intro inner
    refine .intro (List.nodup_singleton inner) fun {name below} h => ?_
    obtain ⟨label, arguments, directives, position, hmem⟩ := h
    cases List.mem_singleton.mp hmem
    exact .intro List.nodup_nil fun h => by simp [Occurs] at h
  have hd : Distinct selections := by
    refine .intro (by simp [selections, group, fieldName?]) fun {name below} h => ?_
    obtain ⟨label, arguments, directives, position, hmem⟩ := h
    rcases List.mem_cons.mp hmem with heq | hmem
    · cases heq
      exact hleaf "_all"
    · cases List.mem_singleton.mp hmem
      exact hleaf "age"
  exact ⟨hd, (ofSelections_exact_iff selections).2 hd⟩

/-- Of two groups of one name the first is lost, though both are requested. -/
theorem ofSelections_drops_first_group :
    let group := fun name =>
      Selection.field none "_count" [] [] [.field none name [] [] [] ⟨1, 2⟩] ⟨1, 1⟩
    let selections := [group "_all", group "id"]
    ofSelections selections = [("_count", .obj [("id", .bool true)])] ∧
      Requested Occurs selections ["_count", "_all"] ∧
      Requested Occurs selections ["_count", "id"] ∧
      (Json.obj (ofSelections selections)).at? ["_count", "_all"] = none ∧
      ¬ Exact selections := by
  intro group selections
  have hrequested : ∀ name, group name ∈ selections → Text.startsWith name "__" = false →
      Requested Occurs selections ["_count", name] := by
    intro name hmem hname
    have hgroup : Occurs selections "_count" [.field none name [] [] [] ⟨1, 2⟩] :=
      ⟨none, [], [], ⟨1, 1⟩, hmem⟩
    have hfield : Occurs [.field none name [] [] [] ⟨1, 2⟩] name [] :=
      ⟨none, [], [], ⟨1, 2⟩, List.mem_singleton_self _⟩
    refine ⟨.under hgroup (.field hfield), by simp [Text.startsWith], ?_⟩
    simpa [hname] using (by decide : Text.startsWith "_count" "__" = false)
  have hall := hrequested "_all" (by simp [selections]) (by decide)
  have hof : ofSelections selections = [("_count", .obj [("id", .bool true)])] := by
    have hstarts : isRequested true "_count" = true ∧ isRequested false "_all" = true ∧
        isRequested false "id" = true := by decide
    simp [ofSelections, selections, group, collect, hstarts, request, Entries.insert]
  have hnone : (Json.obj (ofSelections selections)).at? ["_count", "_all"] = none := by
    rw [hof]
    decide
  refine ⟨hof, hall, hrequested "id" (by simp [selections]) (by decide), hnone, fun hexact => ?_⟩
  have hsome := (hexact.paths _ hall.ne_nil).mpr hall
  simp [hnone] at hsome

end AggregateSelection

end ModelGateway
