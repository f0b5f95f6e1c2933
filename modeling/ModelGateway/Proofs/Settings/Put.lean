import Mathlib.Tactic.SplitIfs
import ModelGateway.Proofs.Json.Entries
import ModelGateway.Service.Load

/-!
# What putting settings into a tree does

A configuration is gathered by putting settings into a tree, one after another
(`Config.gather?_eq`): those of the file, those of variables, those of variables with names of their
own.

* **One setting** (`SettingPath.under?_put`): it changes what is under its root alone.
* **Several** (`SettingPath.under?_putAll`): what is under a name is what the settings with that
  root have made of it.
* **Places** (`SettingPath.Holds`): a setting under a name of a table at the top stays there while
  none is put over it (`SettingPath.Holds.putAll`).
-/

namespace ModelGateway

namespace Setting

/-- What a table has under a name. -/
def under? (s : Setting) (name : String) : Option Setting :=
  Entries.get? s.entries name

/-- A setting is a table. -/
def IsTable (s : Setting) : Prop :=
  ∃ entries, s = .table entries

/-- What is under a name after one was changed. -/
theorem under?_atKey (name other : String) (change : Setting → Setting) (s : Setting) :
    (s.atKey name change).under? other =
      if other = name then some (change ((s.under? name).getD .null)) else s.under? other :=
  Entries.get?_insert _ _ _ _

end Setting

namespace SettingPath

/-! ## One setting -/

/-- Putting a setting changes what is under its root alone. -/
theorem under?_put (p : SettingPath) (incoming tree : Setting) (name : String) :
    (p.put incoming tree).under? name =
      if name = p.root then
        some (Setting.along p.steps (·.merge incoming) ((tree.under? p.root).getD .null))
      else tree.under? name :=
  Setting.under?_atKey _ _ _ _

/-- A tree into which a setting is put is a table. -/
theorem isTable_put (p : SettingPath) (incoming tree : Setting) :
    (p.put incoming tree).IsTable :=
  ⟨_, rfl⟩

/-! ## Several settings -/

/-- Puts settings into a tree one after another. -/
def putAll (puts : List (SettingPath × Setting)) (tree : Setting) : Setting :=
  puts.foldl (fun tree e => e.1.put e.2 tree) tree

variable {puts : List (SettingPath × Setting)} {tree tree' : Setting}

/-- Settings put one part after the other. -/
theorem putAll_append (puts others : List (SettingPath × Setting)) (tree : Setting) :
    putAll (puts ++ others) tree = putAll others (putAll puts tree) :=
  List.foldl_append

/-- Settings put into a table make a table. -/
theorem isTable_putAll (puts : List (SettingPath × Setting)) (h : tree.IsTable) :
    (putAll puts tree).IsTable := by
  induction puts generalizing tree with
  | nil => exact h
  | cons e rest ih => exact ih (isTable_put e.1 e.2 tree)

/-- What is under a name after settings were put depends on what was there and on the settings with
that root. -/
theorem under?_putAll_congr {name : String} (h : tree.under? name = tree'.under? name) :
    (putAll puts tree).under? name =
      (putAll (puts.filter fun e => e.1.root = name) tree').under? name := by
  induction puts generalizing tree tree' with
  | nil => exact h
  | cons e rest ih =>
    by_cases hroot : e.1.root = name
    · rw [List.filter_cons_of_pos (by simpa using hroot)]
      refine ih ?_
      rw [under?_put, under?_put, if_pos hroot.symm, if_pos hroot.symm, hroot, h]
    · rw [List.filter_cons_of_neg (by simpa using hroot)]
      refine ih ?_
      rw [under?_put, if_neg (Ne.symm hroot), h]

/-- Two lists of settings with the same ones of a root leave the same under that name. -/
theorem under?_putAll {puts' : List (SettingPath × Setting)} {name : String}
    (h : puts.filter (fun e => e.1.root = name) = puts'.filter fun e => e.1.root = name)
    (tree : Setting) : (putAll puts tree).under? name = (putAll puts' tree).under? name := by
  rw [under?_putAll_congr rfl, h, ← under?_putAll_congr rfl]

/-! ## Places -/

/-- A tree has a setting under a name of a table that is at the top under another. -/
def Holds (root name : String) (value tree : Setting) : Prop :=
  ∃ part, tree.under? root = some part ∧ part.IsTable ∧ part.under? name = some value

/-- A path leads past the place under a name of a table at the top: to another root, or to another
name of the table. -/
def Spares (root name : String) (p : SettingPath) : Prop :=
  p.root = root → ∃ other rest, p.steps = .key other :: rest ∧ other ≠ name

variable {root name : String} {value incoming : Setting} {p : SettingPath}

/-- A setting that is put at a place is there, if it merges as itself. -/
theorem holds_put (hmerge : ∀ present : Setting, present.merge value = value) (tree : Setting) :
    Holds root name value ((⟨root, [.key name]⟩ : SettingPath).put value tree) := by
  unfold Holds
  rw [under?_put, if_pos rfl]
  refine ⟨_, rfl, ⟨_, rfl⟩, ?_⟩
  rw [Setting.along, Setting.under?_atKey, if_pos rfl, Setting.along, hmerge]

/-- A setting that is put past a place leaves what is there. -/
theorem Holds.put (h : Holds root name value tree) (hp : p.Spares root name) (incoming : Setting) :
    Holds root name value (p.put incoming tree) := by
  obtain ⟨part, hunder, htable, hvalue⟩ := h
  unfold Holds
  by_cases hroot : root = p.root
  · obtain ⟨other, rest, hsteps, hne⟩ := hp hroot.symm
    rw [under?_put, if_pos hroot, ← hroot, hunder, hsteps]
    refine ⟨_, rfl, ⟨_, rfl⟩, ?_⟩
    rw [Setting.along, Setting.under?_atKey, if_neg (Ne.symm hne)]
    exact hvalue
  · rw [under?_put, if_neg hroot]
    exact ⟨part, hunder, htable, hvalue⟩

/-- Settings that are put past a place leave what is there. -/
theorem Holds.putAll (h : Holds root name value tree)
    (hputs : ∀ e ∈ puts, e.1.Spares root name) :
    Holds root name value (putAll puts tree) := by
  induction puts generalizing tree with
  | nil => exact h
  | cons e rest ih =>
    obtain ⟨hfirst, hrest⟩ := List.forall_mem_cons.mp hputs
    exact ih (h.put hfirst e.2) hrest

end SettingPath

/-! ## Variables -/

namespace Environment

/-- The settings that variables are. -/
def settings (env : Environment) : List (SettingPath × Setting) :=
  env.filterMap fun e => (path? e.1).map fun path => (path, .ofVariable e.2)

/-- The setting that a variable with a name of its own stands for, unless it is empty. -/
def alias? (env : Environment) (e : String × SettingPath) : Option (SettingPath × Setting) :=
  ((env.get? e.1).filter (· ≠ "")).map fun value => (e.2, .text value)

/-- The settings that variables with names of their own stand for. -/
def aliased (env : Environment) : List (SettingPath × Setting) :=
  aliases.filterMap env.alias?

/-- Variables that are settings are put one after another. -/
theorem putSettings_eq (env : Environment) (tree : Setting) :
    env.putSettings tree = SettingPath.putAll env.settings tree := by
  unfold putSettings SettingPath.putAll settings
  rw [List.foldl_filterMap]
  congr 1
  funext tree e
  obtain ⟨name, value⟩ := e
  dsimp only
  cases path? name with
  | none => rfl
  | some path => rfl

/-- Variables with names of their own are put one after another. -/
theorem putAliases_eq (env : Environment) (tree : Setting) :
    env.putAliases tree = SettingPath.putAll env.aliased tree := by
  unfold putAliases SettingPath.putAll aliased
  rw [List.foldl_filterMap]
  congr 1
  funext tree e
  obtain ⟨name, path⟩ := e
  unfold alias?
  dsimp only
  split
  · rename_i hnone
    rw [hnone]
    rfl
  · rename_i hempty
    rw [hempty]
    rfl
  · rename_i value hne hvalue
    rw [hvalue, Option.filter_some_pos (by simpa using hne)]
    rfl

end Environment

namespace Config

/-- The tree of a file, if there is one; no file has no settings. -/
def treeOf? : Option String → Option Setting
  | some text => Toml.read? text
  | none => some (.table [])

/-- The settings at the top of a tree. -/
def tops (tree : Setting) : List (SettingPath × Setting) :=
  tree.entries.map fun e => (SettingPath.ofText e.1, e.2)

/-- A configuration is gathered by putting the settings of the file, those of variables and those of
variables with names of their own into a table. -/
theorem gather?_eq (file : Option String) (env : Environment) :
    gather? file env = (treeOf? file).map fun tree =>
      SettingPath.putAll (tops tree ++ (env.settings ++ env.aliased)) (.table []) := by
  have hplaced : ∀ tree : Setting,
      env.putAliases (env.putSettings (tree.entries.foldl
        (fun placed e => (SettingPath.ofText e.1).put e.2 placed) (.table []))) =
      SettingPath.putAll (tops tree ++ (env.settings ++ env.aliased)) (.table []) := by
    intro tree
    rw [Environment.putSettings_eq, Environment.putAliases_eq, SettingPath.putAll_append,
      SettingPath.putAll_append]
    congr 2
    unfold SettingPath.putAll tops
    rw [List.foldl_map]
  unfold gather? treeOf?
  cases file with
  | none => exact congrArg some (hplaced (.table []))
  | some text =>
    dsimp only
    cases Toml.read? text with
    | none => rfl
    | some tree => exact congrArg some (hplaced tree)

end Config

end ModelGateway
