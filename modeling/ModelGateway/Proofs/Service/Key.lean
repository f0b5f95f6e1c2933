import ModelGateway.Proofs.Settings.Put
import ModelGateway.Proofs.Settings.Variable

/-!
# The key in the variables

Two variables give the key that callers present. One of them is a setting, whose text is read as a
truth value or a number where it can be; the other one has a name of its own and is a text.

* **One place** (`Config.holds_keyVariable`, `Config.holds_keyAlias`): both put the key at its place
  in the tree, and leave the same under every other name (`Config.under?_gathered`).
* **One configuration** (`Config.load_key_iff`): both load the same configuration but for the key,
  which the second one keeps, and the first one exactly if the text stays when it is read
  (`Setting.Stays`).
* **Digits** (`Config.key_loses_zeros`): a key of digits loses the zeros before it.
-/

namespace ModelGateway

/-! ## Variables -/

namespace Environment

/-- The variable that is a setting, the key. -/
def keyVariable : String := "DATAPROXY__AUTH__API_KEY"

/-- The variable with a name of its own that stands for the key. -/
def keyAlias : String := "DATA_PROXY_API_KEY"

/-- The path of the key. -/
def keyPath : SettingPath := ⟨"auth", [.key "api_key"]⟩

/-- No variable but one of those for the key is put at the place of the key. -/
def SparesKey (env : Environment) : Prop :=
  ∀ e ∈ env, e.1 ≠ keyAlias ∧ ∀ path, path? e.1 = some path → path.Spares "auth" "api_key"

variable {before after : Environment} {s : String}

/-- Looking past a variable of another name. -/
theorem get?_of_ne {name other : String} (h : other ≠ name) :
    get? (before ++ (other, s) :: after) name = get? (before ++ after) name := by
  unfold get?
  rw [List.find?_append, List.find?_append, List.find?_cons_of_neg (by simpa using h)]

/-- The settings that variables are, around the one that is the key. -/
theorem settings_keyVariable :
    settings (before ++ (keyVariable, s) :: after) =
      settings before ++ (keyPath, .ofVariable s) :: settings after := by
  have hpath : path? keyVariable = some keyPath := rfl
  unfold settings
  rw [List.filterMap_append, List.filterMap_cons_some (by rw [hpath]; rfl)]

/-- The settings that variables are, around one with a name of its own. -/
theorem settings_keyAlias :
    settings (before ++ (keyAlias, s) :: after) = settings (before ++ after) := by
  have hpath : path? keyAlias = none := rfl
  unfold settings
  rw [List.filterMap_append, List.filterMap_append, List.filterMap_cons_none (by rw [hpath]; rfl)]

/-- A setting has no name of its own. -/
theorem aliased_keyVariable :
    aliased (before ++ (keyVariable, s) :: after) = aliased (before ++ after) := by
  have hnames : ∀ e ∈ aliases, keyVariable ≠ e.1 := by decide
  refine List.filterMap_congr ?_
  intro e he
  unfold alias?
  rw [get?_of_ne (hnames e he)]

/-- Variables that spare the key lack the one with a name of its own. -/
theorem SparesKey.alias?_eq_none {env : Environment} (h : SparesKey env) :
    alias? env (keyAlias, keyPath) = none := by
  have hget : get? env keyAlias = none := by
    unfold get?
    rw [Option.map_eq_none_iff, List.find?_eq_none]
    intro e he
    simpa using (h e he).1
  unfold alias?
  rw [hget]
  rfl

/-- Variables that spare the key are settings past it. -/
theorem SparesKey.settings {env : Environment} (h : SparesKey env) :
    ∀ e ∈ env.settings, e.1.Spares "auth" "api_key" := by
  intro e he
  obtain ⟨entry, hentry, hsetting⟩ := List.mem_filterMap.mp he
  obtain ⟨path, hpath, rfl⟩ := Option.map_eq_some_iff.mp hsetting
  exact (h entry hentry).2 path hpath

/-- Variables that spare the key stand for settings past it. -/
theorem SparesKey.aliased {env : Environment} (h : SparesKey env) :
    ∀ e ∈ env.aliased, e.1.Spares "auth" "api_key" := by
  have hroots : ∀ e ∈ aliases.tail, e.2.root ≠ "auth" := by decide
  intro e he
  obtain ⟨entry, hentry, hsetting⟩ := List.mem_filterMap.mp he
  obtain rfl | htail : entry = (keyAlias, keyPath) ∨ entry ∈ aliases.tail := List.mem_cons.mp hentry
  · rw [h.alias?_eq_none] at hsetting
    cases hsetting
  · obtain ⟨value, -, rfl⟩ := Option.map_eq_some_iff.mp hsetting
    exact fun hroot => absurd hroot (hroots entry htail)

/-- The variable with a name of its own, where no other variable gives the key. -/
theorem get?_keyAlias (h : SparesKey (before ++ after)) :
    get? (before ++ (keyAlias, s) :: after) keyAlias = some s := by
  have hbefore : before.find? (fun entry => entry.1 == keyAlias) = none := by
    refine List.find?_eq_none.mpr ?_
    intro e he
    simpa using (h e (List.mem_append_left _ he)).1
  unfold get?
  rw [List.find?_append, hbefore, Option.none_or, List.find?_cons_of_pos (by simp)]
  rfl

/-- The variable with a name of its own is put first of these. -/
theorem aliased_keyAlias (hs : s ≠ "") (h : SparesKey (before ++ after)) :
    aliased (before ++ (keyAlias, s) :: after) =
      (keyPath, .text s) :: aliased (before ++ after) := by
  have hnames : ∀ e ∈ aliases.tail, keyAlias ≠ e.1 := by decide
  have hsplit : aliases = (keyAlias, keyPath) :: aliases.tail := rfl
  have hfirst : alias? (before ++ (keyAlias, s) :: after) (keyAlias, keyPath) =
      some (keyPath, .text s) := by
    unfold alias?
    rw [get?_keyAlias h, Option.filter_some_pos (by simpa using hs)]
    rfl
  have hothers : aliases.tail.filterMap (alias? (before ++ (keyAlias, s) :: after)) =
      aliases.tail.filterMap (alias? (before ++ after)) := by
    refine List.filterMap_congr ?_
    intro e he
    unfold alias?
    rw [get?_of_ne (hnames e he)]
  unfold aliased
  rw [hsplit, List.filterMap_cons_some hfirst, hothers,
    List.filterMap_cons_none (h.alias?_eq_none)]

end Environment

/-! ## Reading -/

namespace Config

variable {tree tree' : Setting}

/-- A configuration is read from what is under the names of the sections. -/
theorem read?_of_isTable (h : tree.IsTable) :
    read? Setting.format tree = (do
      return {
        server := ← Shape.optional? .standard (server? Setting.format) (tree.under? "server")
        apiKey := ← Shape.optional? none (key? Setting.format) (tree.under? "auth")
        source := ← Shape.optional? .standard (source? Setting.format) (tree.under? "introspection")
        client := ← Shape.optional? .standard (client? Setting.format) (tree.under? "client")
        limits := ← Shape.optional? .standard (SchemaLimits.readFrom? Setting.format)
          (tree.under? "graphql")
        logLevel := ← Shape.optional? standardLevel (level? Setting.format) (tree.under? "logging")
        metrics := ← Shape.optional? .standard (metrics? Setting.format)
          (tree.under? "metrics") }) := by
  obtain ⟨entries, rfl⟩ := h
  rfl

/-- The key is read from its place. -/
theorem key?_of_holds {value : Setting} {key : String}
    (h : SettingPath.Holds "auth" "api_key" value tree) (htext : value.toText? = some key) :
    Shape.optional? none (key? Setting.format) (tree.under? "auth") = some (some key) := by
  obtain ⟨part, hunder, ⟨entries, rfl⟩, hvalue⟩ := h
  have hnull : value.isNull = false := (Setting.merge_of_toText? htext).1
  have hpart : Shape.optional? none (key? Setting.format) (some (.table entries)) =
      Shape.optional? none (text? Setting.format) (Setting.under? (.table entries) "api_key") := rfl
  have hread : Shape.optional? none (text? Setting.format) (some value) =
      if value.isNull = true then some none else value.toText?.map some := rfl
  rw [hunder, hpart, hvalue, hread, hnull, if_neg Bool.false_ne_true, htext]
  rfl

/-- A configuration with another key. -/
def withKey (key : String) (c : Config) : Config :=
  { c with apiKey := some key }

/-- Trees that differ in the key alone are read as configurations that do. -/
theorem read?_withKey {key key' : String} (htable : tree.IsTable) (htable' : tree'.IsTable)
    (hkey : Shape.optional? none (key? Setting.format) (tree.under? "auth") = some (some key))
    (hkey' : Shape.optional? none (key? Setting.format) (tree'.under? "auth") = some (some key'))
    (hothers : ∀ name, name ≠ "auth" → tree.under? name = tree'.under? name) :
    read? Setting.format tree = (read? Setting.format tree').map (withKey key) := by
  rw [read?_of_isTable htable, read?_of_isTable htable', hkey, hkey']
  rw [hothers "server" (by decide), hothers "introspection" (by decide),
    hothers "client" (by decide), hothers "graphql" (by decide), hothers "logging" (by decide),
    hothers "metrics" (by decide)]
  simp only [Option.bind_eq_bind, Option.map_bind, Function.comp_def, Option.bind_some,
    Option.pure_def, Option.map_some, withKey]

/-! ## Loading -/

/-- All settings of a file, of which the tree is given, and of the variables. -/
def gathered (tree : Setting) (env : Environment) : Setting :=
  SettingPath.putAll (tops tree ++ (env.settings ++ env.aliased)) (.table [])

/-- A configuration for production, if the process says so. -/
def inMode (production : Bool) (c : Config) : Config :=
  if production then { c with server := { c.server with production := true } } else c

/-- Lets a configuration pass with which nothing is wrong. -/
def checked (c : Config) : Except LoadError Config :=
  match c.fault? with
  | some fault => .error (.invalid fault)
  | none => .ok c

/-- A configuration is read from all settings and then checked. -/
theorem load_eq (file : Option String) (env : Environment) :
    load file env =
      match treeOf? file with
      | none => .error .unreadable
      | some tree =>
        match read? Setting.format (gathered tree env) with
        | none => .error .unfit
        | some c => checked (inMode env.isProduction c) := by
  unfold load
  rw [gather?_eq]
  cases treeOf? file with
  | none => rfl
  | some tree => rfl

/-- What is wrong with a configuration does not depend on the key that it has. -/
theorem fault?_withKey {key : String} (hkey : key ≠ "") {c : Config}
    (hc : c.apiKey.getD "" ≠ "") : (withKey key c).fault? = c.fault? := by
  have hgiven : ∀ text : String, text ≠ "" → ¬text.isEmpty = true := by
    intro text hne hempty
    exact hne (String.isEmpty_iff.mp hempty)
  have hwith : (withKey key c).apiKey.getD "" = key := rfl
  unfold fault?
  rw [hwith, if_neg (hgiven _ hc), if_neg (hgiven _ hkey)]
  rfl

/-- A configuration passes the check with any key that is not empty. -/
theorem checked_withKey {key : String} (hkey : key ≠ "") {c : Config}
    (hc : c.apiKey.getD "" ≠ "") : checked (withKey key c) = (checked c).map (withKey key) := by
  unfold checked
  rw [fault?_withKey hkey hc]
  cases c.fault? with
  | none => rfl
  | some fault => rfl

/-- The mode of a configuration does not touch the key. -/
theorem inMode_withKey (production : Bool) (key : String) (c : Config) :
    inMode production (withKey key c) = withKey key (inMode production c) := by
  cases production <;> rfl

/-- The mode of a configuration has no part in its key. -/
theorem apiKey_inMode (production : Bool) (c : Config) :
    (inMode production c).apiKey = c.apiKey := by
  cases production <;> rfl

/-- A configuration that passes the check is the one that was checked. -/
theorem eq_of_checked {c d : Config} (h : checked c = .ok d) : d = c := by
  unfold checked at h
  split at h
  · cases h
  · cases h
    rfl

end Config

/-! ## One key in two variables -/

namespace Config

open Environment (keyVariable keyAlias keyPath SparesKey)

variable {before after : Environment} {s : String}

/-- Settings of which the key is put with none over it hold the key. -/
theorem holds_gathered {tree value : Setting} {env : Environment}
    (earlier : List (SettingPath × Setting)) {later : List (SettingPath × Setting)}
    (hmerge : ∀ present : Setting, present.merge value = value)
    (hlater : ∀ e ∈ later, e.1.Spares "auth" "api_key")
    (hputs : env.settings ++ env.aliased = earlier ++ (keyPath, value) :: later) :
    SettingPath.Holds "auth" "api_key" value (gathered tree env) := by
  unfold gathered
  rw [hputs, ← List.append_assoc, SettingPath.putAll_append]
  exact (SettingPath.holds_put hmerge _).putAll hlater

/-- The variable that is a setting puts its setting at the place of the key. -/
theorem holds_keyVariable (hs : s ≠ "") (h : SparesKey (before ++ after)) (tree : Setting) :
    SettingPath.Holds "auth" "api_key" (.ofVariable s)
      (gathered tree (before ++ (keyVariable, s) :: after)) := by
  have hafter : SparesKey after := fun e he => h e (List.mem_append_right _ he)
  refine holds_gathered (Environment.settings before)
    (Setting.merge_of_toText? (Setting.toText?_ofVariable hs)).2
    (List.forall_mem_append.mpr ⟨hafter.settings, h.aliased⟩) ?_
  rw [Environment.settings_keyVariable, Environment.aliased_keyVariable, List.append_assoc,
    List.cons_append]

/-- The variable with a name of its own puts its text at the place of the key. -/
theorem holds_keyAlias (hs : s ≠ "") (h : SparesKey (before ++ after)) (tree : Setting) :
    SettingPath.Holds "auth" "api_key" (.text s)
      (gathered tree (before ++ (keyAlias, s) :: after)) := by
  refine holds_gathered (Environment.settings (before ++ after))
    (Setting.merge_of_toText? rfl).2 h.aliased ?_
  rw [Environment.settings_keyAlias, Environment.aliased_keyAlias hs h]

/-- The two variables make the same of everything but the section of the key. -/
theorem under?_gathered (hs : s ≠ "") (h : SparesKey (before ++ after)) (tree : Setting)
    {name : String} (hname : name ≠ "auth") :
    (gathered tree (before ++ (keyVariable, s) :: after)).under? name =
      (gathered tree (before ++ (keyAlias, s) :: after)).under? name := by
  have hroot : ¬keyPath.root = name := Ne.symm hname
  have hsettings : Environment.settings (before ++ after) =
      Environment.settings before ++ Environment.settings after := List.filterMap_append
  refine SettingPath.under?_putAll ?_ _
  rw [Environment.settings_keyVariable, Environment.aliased_keyVariable,
    Environment.settings_keyAlias, Environment.aliased_keyAlias hs h, hsettings]
  simp only [List.filter_append, List.filter_cons, hroot, decide_false, Bool.false_eq_true,
    if_false, List.append_assoc]

/-- The variable that is a setting has the configuration read with what its text becomes, where the
one with a name of its own has it read with the text. -/
theorem read?_gathered (hs : s ≠ "") (h : SparesKey (before ++ after)) (tree : Setting) :
    read? Setting.format (gathered tree (before ++ (keyVariable, s) :: after)) =
      (read? Setting.format (gathered tree (before ++ (keyAlias, s) :: after))).map
        (withKey (Setting.reread s)) :=
  read?_withKey (SettingPath.isTable_putAll _ ⟨[], rfl⟩) (SettingPath.isTable_putAll _ ⟨[], rfl⟩)
    (key?_of_holds (holds_keyVariable hs h tree) (Setting.toText?_ofVariable hs))
    (key?_of_holds (holds_keyAlias hs h tree) rfl) fun _ => under?_gathered hs h tree

/-- A configuration read with the variable that has a name of its own has the text for a key. -/
theorem apiKey_of_read? (hs : s ≠ "") (h : SparesKey (before ++ after)) {tree : Setting}
    {c : Config}
    (hread : read? Setting.format (gathered tree (before ++ (keyAlias, s) :: after)) = some c) :
    c.apiKey = some s := by
  have hsame := read?_withKey (SettingPath.isTable_putAll _ ⟨[], rfl⟩)
    (SettingPath.isTable_putAll _ ⟨[], rfl⟩) (key?_of_holds (holds_keyAlias hs h tree) rfl)
    (key?_of_holds (holds_keyAlias hs h tree) rfl) fun _ _ => rfl
  unfold gathered at hread
  rw [hread, Option.map_some, Option.some_inj] at hsame
  rw [hsame]
  rfl

/-- The two variables load the same configuration but for the key. -/
theorem load_keyVariable (file : Option String) (hs : s ≠ "") (h : SparesKey (before ++ after)) :
    load file (before ++ (keyVariable, s) :: after) =
      (load file (before ++ (keyAlias, s) :: after)).map (withKey (Setting.reread s)) := by
  have hmode : Environment.isProduction (before ++ (keyVariable, s) :: after) =
      Environment.isProduction (before ++ (keyAlias, s) :: after) := by
    unfold Environment.isProduction
    rw [Environment.get?_of_ne (by decide), Environment.get?_of_ne (by decide)]
  rw [load_eq, load_eq]
  cases treeOf? file with
  | none => rfl
  | some tree =>
    dsimp only
    rw [read?_gathered hs h, hmode]
    cases hread : read? Setting.format (gathered tree (before ++ (keyAlias, s) :: after)) with
    | none => rfl
    | some c =>
      have hkey : (inMode (Environment.isProduction (before ++ (keyAlias, s) :: after))
          c).apiKey.getD "" ≠ "" := by
        rwa [apiKey_inMode, apiKey_of_read? hs h hread, Option.getD_some]
      dsimp only [Option.map_some]
      rw [inMode_withKey, checked_withKey (Setting.reread_ne_empty hs) hkey]

/-- The variable with a name of its own gives the key that is loaded. -/
theorem apiKey_of_load (hs : s ≠ "") (h : SparesKey (before ++ after)) {file : Option String}
    {c : Config} (hload : load file (before ++ (keyAlias, s) :: after) = .ok c) :
    c.apiKey = some s := by
  rw [load_eq] at hload
  split at hload
  · cases hload
  · split at hload
    · cases hload
    · rename_i d hread
      rw [eq_of_checked hload, apiKey_inMode, apiKey_of_read? hs h hread]

/-- **The key in two variables.** Whatever the file is, and the other variables that spare the key,
the variable with a name of its own gives the key as it is; the one that is a setting does so
exactly if the text stays when it is read, and loads the same configuration but for the key. -/
theorem load_key_iff (file : Option String) (hs : s ≠ "") (h : SparesKey (before ++ after)) :
    (∀ c, load file (before ++ (keyAlias, s) :: after) = .ok c → c.apiKey = some s) ∧
      (∀ c, load file (before ++ (keyVariable, s) :: after) = .ok c →
        (c.apiKey = some s ↔ Setting.Stays s)) ∧
      load file (before ++ (keyVariable, s) :: after) =
        (load file (before ++ (keyAlias, s) :: after)).map (withKey (Setting.reread s)) := by
  refine ⟨fun c hc => apiKey_of_load hs h hc, ?_, load_keyVariable file hs h⟩
  intro c hc
  rw [load_keyVariable file hs h] at hc
  cases hplain : load file (before ++ (keyAlias, s) :: after) with
  | error e =>
    rw [hplain] at hc
    cases hc
  | ok d =>
    rw [hplain] at hc
    cases hc
    rw [← Setting.reread_eq_iff hs]
    exact Option.some_inj

/-- The key `secret` beside a variable that says where the document is. -/
theorem secret_loads :
    ("secret" ≠ "" ∧ SparesKey [("DATAPROXY__INTROSPECTION__PATH", "doc.json")] ∧
      (load none [(keyVariable, "secret"),
        ("DATAPROXY__INTROSPECTION__PATH", "doc.json")]).map Config.apiKey = .ok (some "secret")) ∧
    (∀ c, load none [(keyAlias, "secret"),
        ("DATAPROXY__INTROSPECTION__PATH", "doc.json")] = .ok c → c.apiKey = some "secret") ∧
      (∀ c, load none [(keyVariable, "secret"),
        ("DATAPROXY__INTROSPECTION__PATH", "doc.json")] = .ok c →
          (c.apiKey = some "secret" ↔ Setting.Stays "secret")) ∧
      load none [(keyVariable, "secret"),
        ("DATAPROXY__INTROSPECTION__PATH", "doc.json")] =
        (load none [(keyAlias, "secret"),
          ("DATAPROXY__INTROSPECTION__PATH", "doc.json")]).map
            (withKey (Setting.reread "secret")) := by
  have hne : "secret" ≠ "" := by decide
  have hspares : SparesKey [("DATAPROXY__INTROSPECTION__PATH", "doc.json")] := by
    have hpath : Environment.path? "DATAPROXY__INTROSPECTION__PATH" =
        some ⟨"introspection", [.key "path"]⟩ := rfl
    intro e he
    obtain rfl := List.mem_singleton.mp he
    refine ⟨by decide, ?_⟩
    intro path hsome hroot
    rw [hpath] at hsome
    cases hsome
    exact absurd hroot (by decide)
  exact ⟨⟨hne, hspares, by decide +kernel⟩,
    @load_key_iff [] [("DATAPROXY__INTROSPECTION__PATH", "doc.json")] "secret" none hne hspares⟩

/-- A key of digits loses the zeros before it, if the variable is the one that is a setting. -/
theorem key_loses_zeros :
    (load none [("DATAPROXY__INTROSPECTION__PATH", "doc.json"),
        (keyVariable, "007")]).map Config.apiKey = .ok (some "7") ∧
      (load none [("DATAPROXY__INTROSPECTION__PATH", "doc.json"),
        (keyAlias, "007")]).map Config.apiKey = .ok (some "007") := by
  decide +kernel

end Config

end ModelGateway
