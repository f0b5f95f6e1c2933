import Mathlib.Data.List.Forall2
import Mathlib.Data.List.Induction
import Mathlib.Data.List.Nodup
import ModelGateway.Json.Entries

/-!
# What the operations on entries keep

`Entries.insert` and what is built from it (`extend`, `ofList`) seen through lookup and through
membership, and the entries whose names are pairwise different: insertion keeps them so
(`nodup_names_insert`, `nodup_names_ofList`), and in them lookup is membership
(`get?_eq_some_iff_mem`).
-/

namespace ModelGateway.Entries

variable {α : Type}

/-! ## Lookup -/

/-- Lookup after an insertion. -/
theorem get?_insert (entries : Entries α) (name other : String) (value : α) :
    (entries.insert name value).get? other =
      if other = name then some value else entries.get? other := by
  by_cases h : other = name
  · subst h
    rw [if_pos rfl]
    exact get?_insert_self entries other value
  · rw [if_neg h]
    exact get?_insert_of_ne entries value h

/-- What lookup finds is an entry. -/
theorem mem_of_get?_eq_some {entries : Entries α} {name : String} {value : α}
    (h : entries.get? name = some value) : (name, value) ∈ entries := by
  induction entries with
  | nil => simp [get?] at h
  | cons e rest ih =>
    obtain ⟨k, v⟩ := e
    by_cases hk : k = name
    · subst hk
      simp only [get?, if_true, Option.some.injEq] at h
      exact List.mem_cons.mpr (.inl (by rw [h]))
    · simp only [get?, if_neg hk] at h
      exact List.mem_cons_of_mem _ (ih h)

/-- The name of an entry is one of the names. -/
theorem name_mem_names {entries : Entries α} {e : String × α} (h : e ∈ entries) :
    e.1 ∈ entries.names :=
  List.mem_map_of_mem h

/-- Where no name repeats, lookup is membership. -/
theorem get?_eq_some_iff_mem {entries : Entries α} (hn : entries.names.Nodup) {name : String}
    {value : α} : entries.get? name = some value ↔ (name, value) ∈ entries := by
  refine ⟨mem_of_get?_eq_some, ?_⟩
  intro h
  induction entries with
  | nil => simp at h
  | cons e rest ih =>
    obtain ⟨k, v⟩ := e
    have hn' : k ∉ names rest ∧ (names rest).Nodup := List.nodup_cons.mp hn
    rcases List.mem_cons.mp h with he | hr
    · cases he
      simp [get?]
    · have hk : k ≠ name := by
        intro hk
        exact hn'.1 (hk ▸ name_mem_names hr)
      rw [get?, if_neg hk]
      exact ih hn'.2 hr

/-- Lookup fails for the names that no entry has. -/
theorem get?_eq_none_iff {entries : Entries α} {name : String} :
    entries.get? name = none ↔ name ∉ entries.names := by
  induction entries with
  | nil => simp [names]
  | cons e rest ih =>
    obtain ⟨k, v⟩ := e
    have hnames : names ((k, v) :: rest) = k :: names rest := rfl
    rw [hnames, List.mem_cons, get?]
    by_cases hk : k = name
    · simp [hk]
    · rw [if_neg hk, ih]
      simp [Ne.symm hk]

/-! ## Insertion -/

/-- A new name goes to the end. -/
theorem insert_of_not_mem {entries : Entries α} {name : String} (h : name ∉ entries.names)
    (value : α) : entries.insert name value = entries ++ [(name, value)] := by
  induction entries with
  | nil => rfl
  | cons e rest ih =>
    obtain ⟨k, v⟩ := e
    have hk : k ≠ name := (List.ne_of_not_mem_cons h).symm
    have hrest : name ∉ names rest := List.not_mem_of_not_mem_cons h
    rw [insert, if_neg hk, ih hrest, List.cons_append]

/-- An entry after an insertion is the inserted one or an old one. -/
theorem mem_insert {entries : Entries α} {name : String} {value : α} {e : String × α}
    (h : e ∈ entries.insert name value) : e = (name, value) ∨ e ∈ entries := by
  induction entries with
  | nil =>
    left
    simpa [insert] using h
  | cons e' rest ih =>
    obtain ⟨k, v⟩ := e'
    by_cases hk : k = name
    · simp only [insert, if_pos hk, List.mem_cons] at h
      rcases h with he | hr
      · exact .inl (by rw [he, hk])
      · exact .inr (List.mem_cons_of_mem _ hr)
    · simp only [insert, if_neg hk, List.mem_cons] at h
      rcases h with he | hr
      · exact .inr (he ▸ List.mem_cons_self)
      · exact (ih hr).imp_right (List.mem_cons_of_mem _)

/-- Inserting loses no name. -/
theorem names_subset_insert (entries : Entries α) (name : String) (value : α) :
    entries.names ⊆ (entries.insert name value).names := by
  rw [names_insert]
  split_ifs
  · exact List.Subset.refl _
  · exact List.subset_append_left _ _

/-- Insertion keeps the names pairwise different. -/
theorem nodup_names_insert {entries : Entries α} (hn : entries.names.Nodup) (name : String)
    (value : α) : (entries.insert name value).names.Nodup := by
  rw [names_insert]
  split_ifs with hm
  · exact hn
  · refine List.nodup_append.mpr ⟨hn, List.nodup_singleton _, ?_⟩
    intro other ho added ha heq
    rw [List.mem_singleton.mp ha] at heq
    exact hm (heq ▸ ho)

/-- Of two insertions under one name the second counts. -/
theorem insert_insert_self (entries : Entries α) (name : String) (v w : α) :
    (entries.insert name v).insert name w = entries.insert name w := by
  induction entries with
  | nil => simp [insert]
  | cons e rest ih =>
    obtain ⟨k, u⟩ := e
    by_cases hk : k = name
    · simp [insert, hk]
    · simp [insert, hk, ih]

/-- Two insertions under different names may be exchanged if one of the names is there. -/
theorem insert_comm {entries : Entries α} {name other : String} (hne : name ≠ other)
    (h : name ∈ entries.names) (v w : α) :
    (entries.insert name v).insert other w = (entries.insert other w).insert name v := by
  induction entries with
  | nil => exact absurd h List.not_mem_nil
  | cons e rest ih =>
    obtain ⟨k, u⟩ := e
    by_cases hk : k = name
    · subst hk
      simp [insert, hne]
    · have hrest : name ∈ names rest := (List.mem_cons.mp h).resolve_left (Ne.symm hk)
      by_cases ho : k = other
      · subst ho
        simp [insert, hk]
      · simp [insert, hk, ho, ih hrest]

/-- Inserting what is there changes nothing. -/
theorem insert_of_get? {entries : Entries α} {name : String} {value : α}
    (h : entries.get? name = some value) : entries.insert name value = entries := by
  induction entries with
  | nil => simp [get?] at h
  | cons e rest ih =>
    obtain ⟨k, v⟩ := e
    by_cases hk : k = name
    · simp only [get?, if_pos hk, Option.some.injEq] at h
      simp [insert, hk, h]
    · simp only [get?, if_neg hk] at h
      simp [insert, hk, ih h]

/-- Inserting under a name that is there replaces its value. -/
theorem insert_of_mem {entries : Entries α} (hn : entries.names.Nodup) {name : String}
    (h : name ∈ entries.names) (value : α) :
    entries.insert name value =
      entries.map fun e => (e.1, if e.1 = name then value else e.2) := by
  induction entries with
  | nil => exact absurd h List.not_mem_nil
  | cons e rest ih =>
    obtain ⟨k, v⟩ := e
    obtain ⟨hk, hn⟩ := List.nodup_cons.mp hn
    by_cases hname : k = name
    · subst hname
      have hrest : ∀ e ∈ rest, (e.1, if e.1 = k then value else e.2) = e := by
        intro e he
        rw [if_neg]
        intro heq
        have hmem := name_mem_names he
        rw [heq] at hmem
        exact hk hmem
      rw [insert, if_pos rfl, List.map_cons, List.map_congr_left hrest, List.map_id', if_pos rfl]
    · have hrest : name ∈ names rest := (List.mem_cons.mp h).resolve_left (Ne.symm hname)
      rw [insert, if_neg hname, ih hn hrest, List.map_cons, if_neg hname]

/-! ## Lists of pairs -/

/-- Lookup in two lists of entries: the first one counts. -/
theorem get?_append (xs ys : Entries α) (name : String) :
    get? (xs ++ ys) name = (get? xs name).or (get? ys name) := by
  induction xs with
  | nil => simp
  | cons e rest ih =>
    obtain ⟨k, v⟩ := e
    by_cases hk : k = name
    · simp [get?, hk]
    · simp [get?, hk, ih]

/-- Lookup among the pairs that are made of the items of a list. -/
theorem get?_map {β : Type} (key : β → String) (value : β → α) (items : List β) (name : String) :
    get? (items.map fun x => (key x, value x)) name =
      (items.find? fun x => key x == name).map value := by
  induction items with
  | nil => rfl
  | cons x rest ih =>
    by_cases hk : key x = name
    · simp [get?, hk]
    · simp [get?, hk, ih]

/-- Lookup among the entries whose values pass a test, where the first one of the name does. -/
theorem get?_filter {entries : Entries α} {test : α → Bool} {name : String} {value : α}
    (h : entries.get? name = some value) (hpass : test value = true) :
    get? (entries.filter (test ·.2)) name = some value := by
  induction entries with
  | nil => cases h
  | cons e rest ih =>
    obtain ⟨k, v⟩ := e
    by_cases hk : k = name
    · rw [get?, if_pos hk, Option.some.injEq] at h
      rw [List.filter_cons_of_pos (by rwa [h]), get?, if_pos hk, h]
    · rw [get?, if_neg hk] at h
      rw [List.filter_cons]
      split_ifs
      · rw [get?, if_neg hk, ih h]
      · exact ih h

/-- Lookup among entries that are related to others of the same names, one by one. -/
theorem get?_of_forall₂ {β : Type} {R : String → α → β → Prop} {xs : Entries α} {ys : Entries β}
    (hall : List.Forall₂ (fun x y => x.1 = y.1 ∧ R x.1 x.2 y.2) xs ys) {name : String} {value : α}
    (h : xs.get? name = some value) : ∃ other, ys.get? name = some other ∧ R name value other := by
  induction hall with
  | nil => cases h
  | @cons x y xs ys hxy _ ih =>
    obtain ⟨k, v⟩ := x
    obtain ⟨k', w⟩ := y
    obtain ⟨rfl, hvw⟩ : k = k' ∧ R k v w := hxy
    by_cases hk : k = name
    · rw [get?, if_pos hk, Option.some.injEq] at h
      exact ⟨w, by rw [get?, if_pos hk], hk ▸ h ▸ hvw⟩
    · rw [get?, if_neg hk] at h
      rw [get?, if_neg hk]
      exact ih h

/-! ## Several insertions -/

/-- Lookup after several insertions: the last one of a name counts. -/
theorem get?_extend (entries more : Entries α) (name : String) :
    (entries.extend more).get? name = (get? more.reverse name).or (entries.get? name) := by
  induction more generalizing entries with
  | nil => simp [extend]
  | cons e rest ih =>
    obtain ⟨k, v⟩ := e
    have hstep : (entries.extend ((k, v) :: rest)).get? name =
        ((entries.insert k v).extend rest).get? name := rfl
    rw [hstep, ih, get?_insert, List.reverse_cons, get?_append]
    by_cases hk : k = name
    · cases get? rest.reverse name <;> simp [get?, hk]
    · cases get? rest.reverse name <;> simp [get?, hk, Ne.symm hk]

/-- Lookup among entries made from a list of pairs: the last pair of a name counts. -/
theorem get?_ofList (pairs : List (String × α)) (name : String) :
    (ofList pairs).get? name = get? pairs.reverse name := by
  simp [ofList, get?_extend]

/-- An entry after several insertions is one of the inserted ones or an old one. -/
theorem mem_extend {entries more : Entries α} {e : String × α} (h : e ∈ entries.extend more) :
    e ∈ more ∨ e ∈ entries := by
  induction more generalizing entries with
  | nil => exact .inr h
  | cons e' rest ih =>
    have h : e ∈ (entries.insert e'.1 e'.2).extend rest := h
    rcases ih h with hr | hi
    · exact .inl (List.mem_cons_of_mem _ hr)
    · rcases mem_insert hi with he | ho
      · exact .inl (by rw [he]; exact List.mem_cons_self)
      · exact .inr ho

/-- Several insertions lose no name. -/
theorem names_subset_extend (entries more : Entries α) :
    entries.names ⊆ (entries.extend more).names := by
  induction more generalizing entries with
  | nil => exact List.Subset.refl _
  | cons e rest ih =>
    show entries.names ⊆ ((entries.insert e.1 e.2).extend rest).names
    exact List.Subset.trans (names_subset_insert entries e.1 e.2) (ih _)

/-- Several insertions under names that are there leave the names and their order. -/
theorem names_extend_of_subset {entries more : Entries α} (h : more.names ⊆ entries.names) :
    (entries.extend more).names = entries.names := by
  induction more generalizing entries with
  | nil => rfl
  | cons e rest ih =>
    have hstep : entries.extend (e :: rest) = (entries.insert e.1 e.2).extend rest := rfl
    have hinserted : (entries.insert e.1 e.2).names = entries.names := by
      rw [names_insert, if_pos (h List.mem_cons_self)]
    have hrest : names rest ⊆ (entries.insert e.1 e.2).names := by
      rw [hinserted]
      exact List.Subset.trans (List.subset_cons_self e.1 _) h
    rw [hstep, ih hrest, hinserted]

/-- Several insertions keep the names pairwise different. -/
theorem nodup_names_extend {entries : Entries α} (hn : entries.names.Nodup) (more : Entries α) :
    (entries.extend more).names.Nodup := by
  induction more generalizing entries with
  | nil => exact hn
  | cons e rest ih => exact ih (nodup_names_insert hn e.1 e.2)

/-- Lookup among entries that give each of some names its value. -/
theorem get?_ofList_map (value : String → α) (keys : List String) (name : String) :
    (ofList (keys.map fun key => (key, value key))).get? name =
      if name ∈ keys then some (value name) else none := by
  rw [get?_ofList, ← List.map_reverse, get?_map (fun key => key)]
  cases hfind : keys.reverse.find? fun key => key == name with
  | none =>
    have hnot : name ∉ keys := by
      intro h
      simpa using List.find?_eq_none.mp hfind name (List.mem_reverse.mpr h)
    rw [if_neg hnot, Option.map_none]
  | some key =>
    have hkey : key = name := by simpa using List.find?_some hfind
    subst hkey
    rw [if_pos (List.mem_reverse.mp (List.mem_of_find?_eq_some hfind)), Option.map_some]

/-- Entries that give each of some names its value: each name is where it comes first. -/
theorem ofList_map (value : String → α) (keys : List String) :
    ofList (keys.map fun key => (key, value key)) =
      keys.eraseDups.map fun key => (key, value key) := by
  induction keys using List.reverseRecOn with
  | nil => rfl
  | append_singleton rest key ih =>
    have hstep : ofList ((rest ++ [key]).map fun key => (key, value key)) =
        (ofList (rest.map fun key => (key, value key))).insert key (value key) := by
      simp [ofList, extend]
    rw [hstep, List.eraseDups_append]
    by_cases hmem : key ∈ rest
    · have hget := get?_ofList_map value rest key
      rw [if_pos hmem] at hget
      rw [insert_of_get? hget, ih]
      simp [List.removeAll, hmem]
    · have hnames : key ∉ names (ofList (rest.map fun key => (key, value key))) := by
        rw [← get?_eq_none_iff, get?_ofList_map, if_neg hmem]
      rw [insert_of_not_mem hnames, ih]
      simp [List.removeAll, hmem, List.eraseDups_cons]

/-- An entry made from a list of pairs is one of them. -/
theorem mem_ofList {pairs : List (String × α)} {e : String × α} (h : e ∈ ofList pairs) :
    e ∈ pairs :=
  (mem_extend h).resolve_right List.not_mem_nil

/-- Entries made from a list of pairs have pairwise different names. -/
theorem nodup_names_ofList (pairs : List (String × α)) : (ofList pairs).names.Nodup := by
  have hempty : (names ([] : Entries α)).Nodup := List.nodup_nil
  exact nodup_names_extend hempty pairs

/-- Several insertions of different names: those that are there get their new values, the others
follow in their order. -/
theorem extend_eq {entries more : Entries α} (hn : entries.names.Nodup) (hm : more.names.Nodup) :
    entries.extend more =
      (entries.map fun e => (e.1, (more.get? e.1).getD e.2)) ++
        more.filter fun e => e.1 ∉ entries.names := by
  induction more generalizing entries with
  | nil => simp [extend]
  | cons e rest ih =>
    obtain ⟨k, v⟩ := e
    obtain ⟨hk, hm⟩ := List.nodup_cons.mp hm
    have hget : get? rest k = none := get?_eq_none_iff.mpr hk
    have hstep : entries.extend ((k, v) :: rest) = (entries.insert k v).extend rest := rfl
    rw [hstep, ih (nodup_names_insert hn k v) hm, names_insert]
    by_cases hmem : k ∈ entries.names
    · rw [if_pos hmem, insert_of_mem hn hmem, List.map_map, List.filter_cons_of_neg (by simpa)]
      congr 1
      refine List.map_congr_left fun e _ => ?_
      by_cases hek : e.1 = k
      · simp [get?, hek, hget]
      · simp [get?, hek, Ne.symm hek]
    · rw [if_neg hmem, insert_of_not_mem hmem, List.map_append, List.filter_cons_of_pos (by simpa)]
      have hold : (entries.map fun e => (e.1, (get? rest e.1).getD e.2)) =
          entries.map fun e => (e.1, (get? ((k, v) :: rest) e.1).getD e.2) := by
        refine List.map_congr_left fun e he => ?_
        have hek : k ≠ e.1 := fun heq => hmem (heq ▸ name_mem_names he)
        rw [get?, if_neg hek]
      have hnew : (rest.filter fun e => e.1 ∉ entries.names ++ [k]) =
          rest.filter fun e => e.1 ∉ entries.names := by
        refine List.filter_congr fun e he => ?_
        have hek : e.1 ≠ k := by
          intro heq
          have hmem := name_mem_names he
          rw [heq] at hmem
          exact hk hmem
        simp [hek]
      rw [hold, hnew, List.map_singleton, hget, Option.getD_none, List.append_assoc,
        List.singleton_append]

/-- Pairs with pairwise different names are entries as they stand. -/
theorem ofList_of_nodup {pairs : List (String × α)} (h : (names pairs).Nodup) :
    ofList pairs = pairs := by
  have hempty : (names ([] : Entries α)).Nodup := List.nodup_nil
  rw [ofList, extend_eq hempty h]
  simp [names]

end ModelGateway.Entries
