import Mathlib.Data.List.Perm.Basic
import ModelGateway.Proofs.Store.Frame
import ModelGateway.Proofs.Store.Join

/-!
# The order of the entries of an update

An update applies the entries of its data one after another. Which value an entry gives to a column
depends on the record only through the value that the column has (`Store.Gives`), so the order of
the entries matters for a column only if several of them write it: the column itself and relations
whose foreign key it belongs to.

* **One order to another** (`Store.exists_applyData_of_undisputed`): the order does not matter if
  each of several entries that write a column is accepted on the value that the row has, and keeps
  the value that is stored (`Store.Undisputed`). Along the entries of the other order, a column has
  the value of the row until its first writer, and from then on the stored one, unless its own entry
  came first and a relation follows.
* **All orders** (`Store.undisputed_of_forall_perm`): and only then, since each of two writers of a
  column comes first in some order, and right after the other one at the end of some order.
* **Updates** (`Store.Reachable.update_unordered_iff`): whether the updates by some entries in any
  two orders both fail or store the same record. `desk_update_depends_on_order` is a pair of updates
  that do not.
-/

namespace ModelGateway

namespace Store

/-! ## Entries and values -/

/-- An entry of an update turns a value of a column into another one. The argument of a relation
gives a column of the foreign key a value, whatever it had; an entry of the column's own name
updates it. -/
inductive Gives (s : Store) (m : Model) (column : String) (current : Json) :
    String × Json → Json → Prop
  | linked {f : Field} {name : String} {argument next : Json} {columns : List (String × Json)}
      (found : m.field? name = some f) (relation : f.isRelation = true)
      (accepted : s.foreignKey f argument = .ok columns)
      (given : Entries.get? columns.reverse column = some next) :
      Gives s m column current (name, argument) next
  | updated {f : Field} {value next : Json} (found : m.field? column = some f)
      (scalar : f.isRelation = false) (accepted : f.updated current value = .ok next) :
      Gives s m column current (column, value) next

variable {s : Store} {m : Model} {column : String} {data data' : Entries Json}
variable {r r' row : Record} {entry : String × Json} {current value next : Json}

/-- An entry turns a value into one other value. -/
theorem Gives.unique (h : s.Gives m column current entry next)
    (h' : s.Gives m column current entry value) : next = value := by
  cases h with
  | linked found relation accepted given =>
    cases h' with
    | linked found' _ accepted' given' =>
      cases found.symm.trans found'
      cases accepted.symm.trans accepted'
      exact Option.some.inj (given.symm.trans given')
    | updated found' scalar =>
      cases found.symm.trans found'
      cases relation.symm.trans scalar
  | updated found scalar accepted =>
    cases h' with
    | linked found' relation =>
      cases found.symm.trans found'
      cases relation.symm.trans scalar
    | updated found' _ accepted' =>
      cases found.symm.trans found'
      exact Except.ok.inj (accepted.symm.trans accepted')

/-- What an entry of another name gives to a column does not depend on the value that it had. -/
theorem Gives.of_ne (h : s.Gives m column current entry next) (hne : entry.1 ≠ column)
    (other : Json) : s.Gives m column other entry next := by
  cases h with
  | linked found relation accepted given => exact .linked found relation accepted given
  | updated => exact absurd rfl hne

/-- An accepted entry gives a column that it writes a value, and leaves this value in it. -/
theorem exists_gives_of_applyEntry (h : s.applyEntry m r entry = .ok r')
    (hw : m.Writes column entry) :
    ∃ next, s.Gives m column (Record.value r column) entry next ∧
      Entries.get? r' column = some next := by
  obtain ⟨f, hfound, hwrites⟩ := hw
  cases applied_of_applyEntry h with
  | @relation g columns found relation set =>
    obtain rfl : g = f := Option.some.inj (found.symm.trans hfound)
    rw [if_pos relation] at hwrites
    obtain ⟨next, hnext⟩ := Option.ne_none_iff_exists'.mp fun hnone =>
      (get?_foreignKey set column).1.mp hnone hwrites
    refine ⟨next, .linked found relation set hnext, ?_⟩
    rw [Entries.get?_extend, hnext, Option.some_or]
  | @column g next found scalar updated =>
    obtain rfl : g = f := Option.some.inj (found.symm.trans hfound)
    rw [if_neg (by simp [scalar])] at hwrites
    subst hwrites
    exact ⟨next, .updated found scalar updated, Entries.get?_insert_self _ _ _⟩

/-- An entry that some record accepts is accepted by each record whose column of its name it can
update. -/
theorem exists_applyEntry (h : s.applyEntry m r entry = .ok r')
    (hown : m.Writes entry.1 entry →
      ∃ next, s.Gives m entry.1 (Record.value row entry.1) entry next) :
    ∃ row', s.applyEntry m row entry = .ok row' := by
  obtain ⟨name, value⟩ := entry
  rw [applyEntry] at h ⊢
  cases hfound : m.field? name with
  | none =>
    rw [hfound] at h
    cases h
  | some f =>
    rw [hfound] at h
    dsimp only at h ⊢
    by_cases hrelation : f.isRelation = true
    · rw [if_pos hrelation] at h ⊢
      obtain ⟨columns, hcolumns, -⟩ := Except.map_eq_ok_iff.mp h
      exact ⟨_, Except.map_eq_ok_iff.mpr ⟨columns, hcolumns, rfl⟩⟩
    · rw [if_neg hrelation]
      obtain ⟨next, hgives⟩ := hown ⟨f, hfound, by rw [if_neg hrelation]⟩
      cases hgives with
      | linked found' relation =>
        cases hfound.symm.trans found'
        exact absurd relation hrelation
      | updated found' _ accepted =>
        cases hfound.symm.trans found'
        exact ⟨_, Except.map_eq_ok_iff.mpr ⟨next, accepted, rfl⟩⟩

/-! ## The clock -/

/-- Two records have the same columns, apart from those that the clock writes in an update. -/
def Agree (m : Model) (data : Entries Json) (r r' : Record) : Prop :=
  ∀ column, ¬ m.Clocked data column → Entries.get? r column = Entries.get? r' column

/-- A column that the data names is not written by the clock. -/
theorem not_clocked_of_mem (he : entry ∈ data) : ¬ m.Clocked data entry.1 := by
  rintro ⟨habsent, -⟩
  have hsome : (Entries.get? data entry.1).isSome = false := habsent
  rw [Option.isSome_eq_false_iff, Option.isNone_iff_eq_none, Entries.get?_eq_none_iff] at hsome
  exact hsome (Entries.name_mem_names he)

/-- Data in another order names the same columns. -/
theorem contains_perm (h : data'.Perm data) (name : String) :
    data'.contains name = data.contains name := by
  have hmem : name ∉ Entries.names data' ↔ name ∉ Entries.names data :=
    not_congr (h.map _).mem_iff
  rw [← Entries.get?_eq_none_iff, ← Entries.get?_eq_none_iff] at hmem
  rw [Bool.eq_iff_iff, ← not_iff_not]
  simpa [Entries.contains] using hmem

/-- The clock writes the same columns if the data is in another order. -/
theorem clocked_perm (h : data'.Perm data) : m.Clocked data' column ↔ m.Clocked data column := by
  rw [Model.Clocked, Model.Clocked, contains_perm h]

/-- Records agree for data in another order. -/
theorem Agree.perm (h : Agree m data r r') (hperm : data'.Perm data) : Agree m data' r r' :=
  fun column hclock => h column fun hclocked => hclock ((clocked_perm hperm).mpr hclocked)

/-- Stamping the time of an update leaves a record that agrees with the one before. -/
theorem agree_stampUpdated (supply : Supply) (drawn : Nat) :
    Agree m data (stampUpdated supply data m.fields r drawn).2 r :=
  fun _ hclock => get?_stampUpdated supply hclock

/-- The same instants are stamped into two records, if the data names the same columns. -/
theorem get?_stampUpdated_congr {supply supply' : Supply}
    (hinstant : supply.instant = supply'.instant)
    (hnames : ∀ name, data.contains name = data'.contains name) {fields : List Field} {drawn : Nat}
    (h : Entries.get? r column = Entries.get? r' column ∨
      data.contains column = false ∧ ∃ f ∈ fields, f.isUpdatedAt = true ∧ f.name = column) :
    Entries.get? (stampUpdated supply data fields r drawn).2 column =
      Entries.get? (stampUpdated supply' data' fields r' drawn).2 column := by
  induction fields generalizing r r' drawn with
  | nil =>
    rcases h with hget | ⟨-, f, hf, -⟩
    · exact hget
    · exact absurd hf List.not_mem_nil
  | cons f rest ih =>
    rw [stampUpdated, stampUpdated, ← hnames f.name, ← hinstant]
    split_ifs with hstamps
    · apply ih
      by_cases hname : column = f.name
      · exact .inl (by rw [hname, Entries.get?_insert_self, Entries.get?_insert_self])
      · rw [Entries.get?_insert_of_ne _ _ hname, Entries.get?_insert_of_ne _ _ hname]
        refine h.imp_right ?_
        rintro ⟨habsent, g, hg, hupdated, rfl⟩
        rcases List.mem_cons.mp hg with rfl | hg
        · exact absurd rfl hname
        · exact ⟨habsent, g, hg, hupdated, rfl⟩
    · apply ih
      refine h.imp_right ?_
      rintro ⟨habsent, g, hg, hupdated, rfl⟩
      rcases List.mem_cons.mp hg with rfl | hg
      · simp [hupdated, habsent] at hstamps
      · exact ⟨habsent, g, hg, hupdated, rfl⟩

/-! ## Undisputed columns -/

/-- Where several entries of an update write a column that the clock does not write, each of them is
accepted on the value that the row has, and keeps the value that is stored. -/
def Undisputed (s : Store) (m : Model) (data : Entries Json) (row r : Record) : Prop :=
  ∀ column, ¬ m.Clocked data column → ∀ entry ∈ data, ∀ other ∈ data, entry ≠ other →
    m.Writes column entry → m.Writes column other →
    (∃ next, s.Gives m column (Record.value row column) entry next) ∧
      ∃ kept, Entries.get? r column = some kept ∧ s.Gives m column kept entry kept

/-- The only entry that writes a column gives it the value that is stored. -/
theorem exists_gives_of_sole (h : s.applyData m data row = .ok r) (hnodup : data.names.Nodup)
    (he : entry ∈ data) (hw : m.Writes column entry)
    (hsole : ∀ other ∈ data, entry ≠ other → ¬ m.Writes column other) :
    ∃ next, s.Gives m column (Record.value row column) entry next ∧
      Entries.get? r column = some next := by
  obtain ⟨before, after, q, q', rfl, hq, hq', hr⟩ := exists_applyEntry_of_mem h he
  obtain ⟨-, hafter, hbefore⟩ := List.nodup_append.mp (hnodup.of_map)
  have hnew := (List.nodup_cons.mp hafter).1
  have hkept : ∀ other ∈ before, ¬ m.Writes column other := fun other ho =>
    hsole other (List.mem_append_left _ ho) fun heq =>
      hbefore other ho entry List.mem_cons_self heq.symm
  have hlater : ∀ other ∈ after, ¬ m.Writes column other := by
    intro other ho
    refine hsole other (List.mem_append_right _ (List.mem_cons_of_mem _ ho)) ?_
    rintro rfl
    exact hnew ho
  obtain ⟨next, hgives, hget⟩ := exists_gives_of_applyEntry hq' hw
  rw [Record.value, get?_applyData hq hkept] at hgives
  exact ⟨next, hgives, by rw [get?_applyData hr hlater, hget]⟩

namespace Undisputed

variable (hund : s.Undisputed m data row r) (h : s.applyData m data row = .ok r)
  (hnodup : data.names.Nodup) (he : entry ∈ data) (hclock : ¬ m.Clocked data column)
  (hw : m.Writes column entry)

include hund h hnodup he hclock hw

/-- Every entry that writes a column is accepted on the value that the row has. -/
theorem exists_gives :
    ∃ next, s.Gives m column (Record.value row column) entry next := by
  by_cases hshared : ∃ other ∈ data, entry ≠ other ∧ m.Writes column other
  · obtain ⟨other, ho, hne, hother⟩ := hshared
    exact (hund column hclock entry he other ho hne hw hother).1
  · push Not at hshared
    obtain ⟨next, hgives, -⟩ := exists_gives_of_sole h hnodup he hw hshared
    exact ⟨next, hgives⟩

/-- A relation gives a column of its foreign key the value that is stored. -/
theorem get?_eq_of_ne (hne : entry.1 ≠ column) (hgives : s.Gives m column current entry next) :
    Entries.get? r column = some next := by
  by_cases hshared : ∃ other ∈ data, entry ≠ other ∧ m.Writes column other
  · obtain ⟨other, ho, hneq, hother⟩ := hshared
    obtain ⟨-, kept, hkept, hkeeps⟩ := hund column hclock entry he other ho hneq hw hother
    rw [hkept, (hgives.of_ne hne kept).unique hkeeps]
  · push Not at hshared
    obtain ⟨stored, hstored, hget⟩ := exists_gives_of_sole h hnodup he hw hshared
    rw [hget, (hgives.of_ne hne _).unique hstored]

end Undisputed

/-! ## One order to another -/

/-- What holds of a record while entries of the data are still to be applied: a column that none of
them writes has the value that is stored. A column that one of them names has the value of the row,
and no other entry has written it, or it has the value that is stored, and some other entry has. -/
structure Awaits (m : Model) (data : Entries Json) (row r : Record) (rest : Entries Json)
    (q : Record) : Prop where
  settled : ∀ column, ¬ m.Clocked data column → (∀ entry ∈ rest, ¬ m.Writes column entry) →
    Entries.get? q column = Entries.get? r column
  named : ∀ column ∈ rest.names,
    (Entries.get? q column = Entries.get? row column ∧
        ∀ entry ∈ data, m.Writes column entry → entry ∈ rest) ∨
      (Entries.get? q column = Entries.get? r column ∧
        ∃ entry ∈ data, entry ∉ rest ∧ m.Writes column entry)

section Orders

variable {rest : Entries Json} {q q' : Record}

/-- If an entry of a column is not among the remaining ones, the next entry that writes the column
keeps the value that is stored. -/
theorem Undisputed.exists_kept (hund : s.Undisputed m data row r)
    (hclock : ¬ m.Clocked data column) (he : entry ∈ data) (hw : m.Writes column entry)
    (hearlier : ∃ other ∈ data, other ∉ entry :: rest ∧ m.Writes column other) :
    ∃ kept, Entries.get? r column = some kept ∧ s.Gives m column kept entry kept := by
  obtain ⟨other, ho, hmem, hother⟩ := hearlier
  have hne : entry ≠ other := fun heq => hmem (heq ▸ List.mem_cons_self)
  exact (hund column hclock entry he other ho hne hw hother).2

/-- The next entry is accepted. -/
theorem Awaits.exists_applyEntry (hq : Awaits m data row r (entry :: rest) q)
    (h : s.applyData m data row = .ok r) (hund : s.Undisputed m data row r)
    (hnodup : data.names.Nodup) (he : entry ∈ data) :
    ∃ q', s.applyEntry m q entry = .ok q' := by
  obtain ⟨-, -, _, _, -, -, happlied, -⟩ := exists_applyEntry_of_mem h he
  apply Store.exists_applyEntry happlied
  intro hw
  have hclock : ¬ m.Clocked data entry.1 := not_clocked_of_mem he
  rcases hq.named entry.1 List.mem_cons_self with ⟨hget, -⟩ | ⟨hget, hearlier⟩
  · rw [Record.value, hget]
    exact hund.exists_gives h hnodup he hclock hw
  · obtain ⟨kept, hkept, hkeeps⟩ := hund.exists_kept hclock he hw hearlier
    refine ⟨kept, ?_⟩
    rwa [Record.value, hget, hkept]

/-- The next entry leaves in a column what is stored, unless it is the column's own entry and others
that write the column follow. -/
theorem Awaits.get?_eq_of_writes (hq : Awaits m data row r (entry :: rest) q)
    (h : s.applyData m data row = .ok r) (hund : s.Undisputed m data row r)
    (hnodup : data.names.Nodup) (he : entry ∈ data) (happlied : s.applyEntry m q entry = .ok q')
    (hclock : ¬ m.Clocked data column) (hw : m.Writes column entry)
    (hlast : entry.1 = column → ∀ other ∈ rest, ¬ m.Writes column other) :
    Entries.get? q' column = Entries.get? r column := by
  obtain ⟨next, hgives, hnext⟩ := exists_gives_of_applyEntry happlied hw
  rw [hnext]
  by_cases hname : entry.1 = column
  · subst hname
    rcases hq.named entry.1 List.mem_cons_self with ⟨hget, hall⟩ | ⟨hget, hearlier⟩
    · have hsole : ∀ other ∈ data, entry ≠ other → ¬ m.Writes entry.1 other := by
        intro other ho hne hother
        rcases List.mem_cons.mp (hall other ho hother) with rfl | hmem
        · exact hne rfl
        · exact hlast rfl other hmem hother
      obtain ⟨stored, hstored, hr⟩ := exists_gives_of_sole h hnodup he hw hsole
      rw [Record.value, hget] at hgives
      rw [hr, hgives.unique hstored]
    · obtain ⟨kept, hkept, hkeeps⟩ := hund.exists_kept hclock he hw hearlier
      rw [Record.value, hget, hkept] at hgives
      rw [hkept, hgives.unique hkeeps]
  · exact (hund.get?_eq_of_ne h hnodup he hclock hw hname hgives).symm

/-- Applying the next entry leaves a record that awaits the other ones. -/
theorem Awaits.applyEntry (hq : Awaits m data row r (entry :: rest) q)
    (h : s.applyData m data row = .ok r) (hund : s.Undisputed m data row r)
    (hnodup : data.names.Nodup) (hsub : entry :: rest ⊆ data)
    (hrest : (Entries.names (entry :: rest)).Nodup) (happlied : s.applyEntry m q entry = .ok q') :
    Awaits m data row r rest q' := by
  obtain ⟨he, hsub⟩ := List.cons_subset.mp hsub
  have hnew : entry.1 ∉ Entries.names rest := (List.nodup_cons.mp hrest).1
  refine ⟨fun column hclock hnone => ?_, fun column hcolumn => ?_⟩
  · by_cases hw : m.Writes column entry
    · exact hq.get?_eq_of_writes h hund hnodup he happlied hclock hw fun _ => hnone
    · rw [get?_applyEntry happlied hw]
      exact hq.settled column hclock (List.forall_mem_cons.mpr ⟨hw, hnone⟩)
  · have hname : entry.1 ≠ column := fun heq => hnew (heq ▸ hcolumn)
    have hclock : ¬ m.Clocked data column := by
      obtain ⟨other, ho, rfl⟩ := List.mem_map.mp hcolumn
      exact not_clocked_of_mem (hsub ho)
    by_cases hw : m.Writes column entry
    · refine .inr ⟨?_, entry, he, fun hmem => hnew (Entries.name_mem_names hmem), hw⟩
      exact hq.get?_eq_of_writes h hund hnodup he happlied hclock hw fun heq => absurd heq hname
    · rw [get?_applyEntry happlied hw]
      refine (hq.named column (List.mem_cons_of_mem _ hcolumn)).imp ?_ ?_
      · rintro ⟨hget, hall⟩
        refine ⟨hget, fun other ho hother => ?_⟩
        exact (List.mem_cons.mp (hall other ho hother)).resolve_left fun heq => hw (heq ▸ hother)
      · rintro ⟨hget, other, ho, hlater, hother⟩
        exact ⟨hget, other, ho, fun hmem => hlater (List.mem_cons_of_mem _ hmem), hother⟩

/-- The remaining entries are accepted, and leave what is stored. -/
theorem Awaits.exists_applyData (hq : Awaits m data row r rest q)
    (h : s.applyData m data row = .ok r) (hund : s.Undisputed m data row r)
    (hnodup : data.names.Nodup) (hsub : rest ⊆ data) (hrest : rest.names.Nodup) :
    ∃ r', s.applyData m rest q = .ok r' ∧ Agree m data r' r := by
  induction rest generalizing q with
  | nil =>
    refine ⟨q, rfl, fun column hclock => hq.settled column hclock ?_⟩
    exact fun entry he => absurd he List.not_mem_nil
  | cons entry rest ih =>
    obtain ⟨q', happlied⟩ := hq.exists_applyEntry h hund hnodup (hsub List.mem_cons_self)
    have hq' := hq.applyEntry h hund hnodup hsub hrest happlied
    obtain ⟨r', hr', hagree⟩ :=
      ih hq' (List.subset_of_cons_subset hsub) (List.nodup_cons.mp hrest).2
    refine ⟨r', ?_, hagree⟩
    rw [applyData_cons, happlied]
    exact hr'

end Orders

/-- If the columns are undisputed, the entries in any other order are accepted as well, and leave
the same record apart from what the clock writes. -/
theorem exists_applyData_of_undisputed (h : s.applyData m data row = .ok r)
    (hund : s.Undisputed m data row r) (hnodup : data.names.Nodup) (hperm : data'.Perm data) :
    ∃ r', s.applyData m data' row = .ok r' ∧ Agree m data r' r := by
  have hstart : Awaits m data row r data' row := by
    refine ⟨fun column _ hnone => ?_, fun column _ => .inl ⟨rfl, fun entry he _ => ?_⟩⟩
    · exact (get?_applyData h fun entry he => hnone entry (hperm.mem_iff.mpr he)).symm
    · exact hperm.mem_iff.mpr he
  exact hstart.exists_applyData h hund hnodup hperm.subset ((hperm.map _).nodup_iff.mpr hnodup)

/-! ## All orders -/

/-- The last two entries of an update, both of which write a column. -/
theorem exists_gives_of_last_two {rest : Entries Json} {first last : String × Json}
    (h : s.applyData m (rest ++ [first, last]) row = .ok r) (hfirst : m.Writes column first)
    (hlast : m.Writes column last) :
    ∃ before between stored, s.Gives m column before first between ∧
      s.Gives m column between last stored ∧ Entries.get? r column = some stored := by
  rw [applyData_append] at h
  obtain ⟨q, -, h⟩ := Except.bind_eq_ok_iff.mp h
  rw [applyData_cons] at h
  obtain ⟨q₁, hq₁, h⟩ := Except.bind_eq_ok_iff.mp h
  rw [applyData_cons] at h
  obtain ⟨q₂, hq₂, h⟩ := Except.bind_eq_ok_iff.mp h
  cases h
  obtain ⟨between, hbetween, hget⟩ := exists_gives_of_applyEntry hq₁ hfirst
  obtain ⟨stored, hstored, hr⟩ := exists_gives_of_applyEntry hq₂ hlast
  rw [Record.value, hget, Option.getD_some] at hstored
  exact ⟨_, between, stored, hbetween, hstored, hr⟩

/-- If the entries leave the same record in every order, apart from what the clock writes, then the
columns are undisputed. -/
theorem undisputed_of_forall_perm (hnodup : data.names.Nodup)
    (hall : ∀ data' : Entries Json, data'.Perm data →
      ∃ r', s.applyData m data' row = .ok r' ∧ Agree m data r' r) :
    s.Undisputed m data row r := by
  intro column hclock entry he other ho hne hw hother
  obtain ⟨rest, hperm⟩ : ∃ rest, (entry :: other :: rest).Perm data := by
    obtain ⟨before, after, rfl⟩ := List.append_of_mem he
    have hmem : other ∈ before ++ after :=
      (List.mem_cons.mp (List.perm_middle.mem_iff.mp ho)).resolve_left hne.symm
    obtain ⟨before', after', hrest⟩ := List.append_of_mem hmem
    refine ⟨before' ++ after', .trans (.cons _ ?_) List.perm_middle.symm⟩
    rw [hrest]
    exact List.perm_middle.symm
  have hlast : ∀ first last, m.Writes column first → m.Writes column last →
      ([first, last] ++ rest).Perm data → ∃ before between stored,
        s.Gives m column before first between ∧ s.Gives m column between last stored ∧
          Entries.get? r column = some stored := by
    intro first last hwfirst hwlast hp
    obtain ⟨r', hr', hagree⟩ := hall _ (List.perm_append_comm.trans hp)
    rw [← hagree column hclock]
    exact exists_gives_of_last_two hr' hwfirst hwlast
  constructor
  · obtain ⟨r', hr', -⟩ := hall _ hperm
    rw [applyData_cons] at hr'
    obtain ⟨q, hq, -⟩ := Except.bind_eq_ok_iff.mp hr'
    obtain ⟨next, hgives, -⟩ := exists_gives_of_applyEntry hq hw
    exact ⟨next, hgives⟩
  · obtain ⟨_, between, kept, hfirst, hsecond, hkept⟩ := hlast entry other hw hother hperm
    obtain ⟨_, value, stored, hfirst', hsecond', hstored⟩ :=
      hlast other entry hother hw ((List.Perm.swap _ _ _).trans hperm)
    cases hkept.symm.trans hstored
    refine ⟨kept, hkept, ?_⟩
    -- at most one of the two has the name of the column
    by_cases hname : other.1 = column
    · refine hsecond'.of_ne ?_ kept
      intro hentry
      exact hne (List.inj_on_of_nodup_map hnodup he ho (hentry.trans hname.symm))
    · rwa [(hfirst'.of_ne hname between).unique hsecond] at hsecond'

/-! ## Updates -/

/-- Arguments of an update that give a condition, and some entries in any order. -/
structure UpdatesBy (condition : Option Json) (data : Entries Json) (args : Json) : Prop where
  condition : args.get? "where" = condition
  data : ∃ data', argument args "data" = .obj data' ∧ data'.Perm data

/-- The clock has no say in whether two updates clash: it shows them the same instants, or writes no
column of a unique group. -/
def SameClock (m : Model) (data : Entries Json) (supply supply' : Supply) : Prop :=
  (∃ group, m.UniqueGroup group ∧ ∃ column ∈ group, m.Clocked data column) →
    supply.instant = supply'.instant

/-- Two updates of a row both fail, or they store the same record, apart from the columns that the
clock writes. -/
def UpdatesAlike (s : Store) (t : Table) (row : Row) (data : Entries Json)
    (supply supply' : Supply) (args args' : Json) : Prop :=
  ((∀ r, ¬ s.Writes supply t args .update (some row) r) ∧
      ∀ r, ¬ s.Writes supply' t args' .update (some row) r) ∨
    ∃ r r', s.Writes supply t args .update (some row) r ∧
      s.Writes supply' t args' .update (some row) r' ∧ Agree t.model data r r'

section Updates

variable {d : Document} {t : Table} {supply supply' : Supply} {args args' : Json}
  {condition : Option Json} {key : RowKey} {old : Row}

/-- What an update of the row that a condition finds stores: the stamped result of its entries, if
it clashes with no other row. -/
theorem writes_update_iff (found : s.tableOf t.model.name = .ok t)
    (hrow : t.findRow (args.get? "where") = .ok (some (key, old)))
    (hdata : argument args "data" = .obj data) :
    s.Writes supply t args .update (some old) r ↔
      ∃ applied, s.applyData t.model data old.data = .ok applied ∧
        (stampUpdated supply data t.model.fields applied 0).2 = r ∧
        t.clashingGroup? r (some key) = none := by
  constructor
  · intro hw
    obtain ⟨key', hrow', hr, -⟩ := hw.exists_update
    cases hrow.symm.trans hrow'
    obtain ⟨t', entries, drawn, hobject, hrewriting, hstored, -⟩ :=
      Progress.exists_stored_of_update found hr
    cases hobject.symm.trans hdata
    obtain ⟨applied, happlied, hstamped⟩ := hrewriting.rewritten
    exact ⟨applied, happlied, congrArg Prod.snd hstamped, (Table.store_eq_ok_iff.mp hstored).1⟩
  · rintro ⟨applied, happlied, rfl, hclash⟩
    refine .update hrow ?_
    rw [hdata, Progress.update, found]
    dsimp only [Progress.updateFrom]
    rw [happlied]
    dsimp only
    rw [Table.store_eq_ok_iff.mpr ⟨hclash, rfl⟩]

/-- Undisputed columns are so for data in another order, and for a record that agrees. -/
theorem Undisputed.congr (h : s.Undisputed m data row r) (hperm : data'.Perm data)
    (hagree : Agree m data r r') : s.Undisputed m data' row r' := by
  intro column hclock entry he other ho hne hw hother
  rw [clocked_perm hperm] at hclock
  rw [← hagree column hclock]
  exact h column hclock entry (hperm.subset he) other (hperm.subset ho) hne hw hother

/-- If the columns are undisputed, an update by the same entries in another order stores the same
record, apart from what the clock writes. -/
theorem exists_writes_of_undisputed (found : s.tableOf t.model.name = .ok t)
    (hrow : t.findRow condition = .ok (some (key, old))) (hnodup : data.names.Nodup)
    (hclock : SameClock t.model data supply supply') (hargs : UpdatesBy condition data args)
    (hargs' : UpdatesBy condition data args')
    (hw : s.Writes supply t args .update (some old) r)
    (hund : s.Undisputed t.model data old.data r) :
    ∃ r', s.Writes supply' t args' .update (some old) r' ∧ Agree t.model data r r' := by
  obtain ⟨rfl, data₁, hdata₁, hperm₁⟩ := hargs
  obtain ⟨hcondition, data₂, hdata₂, hperm₂⟩ := hargs'
  obtain ⟨applied, happlied, rfl, hclash⟩ := (writes_update_iff found hrow hdata₁).mp hw
  have hstamped : Agree t.model data (stampUpdated supply data₁ t.model.fields applied 0).2
      applied := (agree_stampUpdated supply 0).perm hperm₁.symm
  obtain ⟨applied', happlied', hagree⟩ := exists_applyData_of_undisputed happlied
    (hund.congr hperm₁ hstamped) ((hperm₁.map _).nodup_iff.mpr hnodup) (hperm₂.trans hperm₁.symm)
  have hstamped' : Agree t.model data (stampUpdated supply' data₂ t.model.fields applied' 0).2
      applied' := (agree_stampUpdated supply' 0).perm hperm₂.symm
  have hsame : Agree t.model data (stampUpdated supply data₁ t.model.fields applied 0).2
      (stampUpdated supply' data₂ t.model.fields applied' 0).2 := by
    intro column hunclocked
    rw [hstamped column hunclocked, hstamped' column hunclocked]
    exact (hagree.perm hperm₁.symm column hunclocked).symm
  refine ⟨_, (writes_update_iff found (hcondition ▸ hrow) hdata₂).mpr
    ⟨applied', happlied', rfl, ?_⟩, hsame⟩
  rw [Table.clashingGroup?_eq_none_iff] at hclash ⊢
  intro e he hother group hgroup hclashes
  refine hclash e he hother group hgroup fun column hc => ?_
  have hget : Entries.get? (stampUpdated supply data₁ t.model.fields applied 0).2 column =
      Entries.get? (stampUpdated supply' data₂ t.model.fields applied' 0).2 column := by
    by_cases hclocked : t.model.Clocked data column
    · refine get?_stampUpdated_congr (hclock ⟨group, hgroup, column, hc, hclocked⟩)
        (contains_perm (hperm₁.trans hperm₂.symm)) (.inr ?_)
      exact (clocked_perm hperm₁).mpr hclocked
    · exact hsame column hclocked
  rw [Record.value, hget]
  exact hclashes column hc

/-- If the columns are undisputed in every update that succeeds, then the updates by the entries in
any two orders both fail or store the same record. -/
theorem updatesAlike_of_undisputed (found : s.tableOf t.model.name = .ok t)
    (hrow : t.findRow condition = .ok (some (key, old))) (hnodup : data.names.Nodup)
    (hund : ∀ supply args r, UpdatesBy condition data args →
      s.Writes supply t args .update (some old) r → s.Undisputed t.model data old.data r)
    (hclock : SameClock t.model data supply supply') (hargs : UpdatesBy condition data args)
    (hargs' : UpdatesBy condition data args') :
    s.UpdatesAlike t old data supply supply' args args' := by
  by_cases hw : ∃ r, s.Writes supply t args .update (some old) r
  · obtain ⟨r, hw⟩ := hw
    obtain ⟨r', hw', hagree⟩ := exists_writes_of_undisputed found hrow hnodup hclock hargs hargs'
      hw (hund supply args r hargs hw)
    exact .inr ⟨r, r', hw, hw', hagree⟩
  · refine .inl ⟨fun r hr => hw ⟨r, hr⟩, fun r' hw' => ?_⟩
    have hclock' : SameClock t.model data supply' supply := fun hgroup => (hclock hgroup).symm
    obtain ⟨r, hr, -⟩ := exists_writes_of_undisputed found hrow hnodup hclock' hargs' hargs
      hw' (hund supply' args' r' hargs' hw')
    exact hw ⟨r, hr⟩

/-- The order of the entries does not matter if no two of them write one column. -/
theorem updatesAlike_of_disjoint (found : s.tableOf t.model.name = .ok t)
    (hrow : t.findRow condition = .ok (some (key, old))) (hnodup : data.names.Nodup)
    (hdisjoint : data.Pairwise fun entry other =>
      ∀ column, t.model.Writes column entry → ¬ t.model.Writes column other)
    (hclock : SameClock t.model data supply supply') (hargs : UpdatesBy condition data args)
    (hargs' : UpdatesBy condition data args') :
    s.UpdatesAlike t old data supply supply' args args' := by
  refine updatesAlike_of_undisputed found hrow hnodup ?_ hclock hargs hargs'
  intro _ _ _ _ _ column _ entry he other ho hne hw hother
  have hsymm : Std.Symm fun entry other : String × Json =>
      ∀ column, t.model.Writes column entry → ¬ t.model.Writes column other :=
    ⟨fun _ _ hxy column hy hx => hxy column hx hy⟩
  exact absurd hother (hdisjoint.forall he ho hne column hw)

/-- The updates of a row by some entries in any two orders both fail, or store the same record apart
from what the clock writes, exactly if the columns that several entries write are undisputed in
every update that succeeds. -/
theorem Reachable.update_unordered_iff (hd : d.WellFormed) (h : Reachable d s) {delegate : String}
    (ht : s.tableFor delegate = .ok t) (hrow : t.findRow condition = .ok (some (key, old)))
    (hnodup : data.names.Nodup) :
    (∀ supply supply' args args', SameClock t.model data supply supply' →
        UpdatesBy condition data args → UpdatesBy condition data args' →
        s.UpdatesAlike t old data supply supply' args args') ↔
      ∀ supply args r, UpdatesBy condition data args →
        s.Writes supply t args .update (some old) r → s.Undisputed t.model data old.data r := by
  have found := (h.sound hd).named.tableOf_of_tableFor ht
  constructor
  · intro hall supply args r hargs hw
    obtain ⟨data₁, hdata₁, hperm₁⟩ := hargs.data
    obtain ⟨applied, happlied, hr, -⟩ :=
      (writes_update_iff found (hargs.condition ▸ hrow) hdata₁).mp hw
    have hstamped : Agree t.model data r applied :=
      hr ▸ (agree_stampUpdated supply 0).perm hperm₁.symm
    refine undisputed_of_forall_perm hnodup fun data₂ hperm₂ => ?_
    let args₂ := Json.obj (condition.toList.map (("where", ·)) ++ [("data", .obj data₂)])
    have hdata₂ : argument args₂ "data" = .obj data₂ := by cases condition <;> rfl
    have hargs₂ : UpdatesBy condition data args₂ :=
      ⟨by cases condition <;> rfl, data₂, hdata₂, hperm₂⟩
    obtain ⟨hnone, -⟩ | ⟨r₁, r₂, hw₁, hw₂, hagree⟩ :=
      hall supply supply args _ (fun _ => rfl) hargs hargs₂
    · exact absurd hw (hnone r)
    obtain ⟨applied₁, happlied₁, hr₁, -⟩ :=
      (writes_update_iff found (hargs.condition ▸ hrow) hdata₁).mp hw₁
    cases happlied.symm.trans happlied₁
    cases hr.symm.trans hr₁
    obtain ⟨applied₂, happlied₂, hr₂, -⟩ :=
      (writes_update_iff found (hargs₂.condition ▸ hrow) hdata₂).mp hw₂
    have hstamped₂ : Agree t.model data r₂ applied₂ :=
      hr₂ ▸ (agree_stampUpdated supply 0).perm hperm₂.symm
    refine ⟨applied₂, happlied₂, fun column hclock => ?_⟩
    rw [← hstamped₂ column hclock, ← hagree column hclock]
  · intro hund supply supply' args args' hclock hargs hargs'
    exact updatesAlike_of_undisputed found hrow hnodup hund hclock hargs hargs'

end Updates

/-- The desk 2 of the first row, its connection to the desk that it has to its left and the number
of that desk. -/
theorem desk_update_unordered :
    let s := Desks.office
    let t : Table := { Table.empty Desks.model with rows := Desks.rows, nextSequence := 5 }
    let place := Json.obj [("row", .ofNat 1), ("number", .ofNat 2)]
    let neighbour := Json.obj [("row", .ofNat 1), ("number", .ofNat 1)]
    let data := [("left", Json.obj [("connect", neighbour)]), ("leftNumber", Json.ofNat 1)]
    let row : Row := ⟨2, [("row", .ofNat 1), ("number", .ofNat 2), ("leftRow", .ofNat 1),
      ("leftNumber", .ofNat 1)]⟩
    Desks.document.WellFormed ∧ Reachable Desks.document s ∧ s.tableFor "desk" = .ok t ∧
      t.findRow (some place) = .ok (some (.values [.ofNat 1, .ofNat 2], row)) ∧
      (Entries.names data).Nodup ∧
      s.Writes Seats.supply t (.obj [("where", place), ("data", .obj data)]) .update (some row)
        row.data ∧
      ((∀ supply supply' args args', SameClock t.model data supply supply' →
          UpdatesBy (some place) data args → UpdatesBy (some place) data args' →
          s.UpdatesAlike t row data supply supply' args args') ↔
        ∀ supply args r, UpdatesBy (some place) data args →
          s.Writes supply t args .update (some row) r →
          s.Undisputed t.model data row.data r) := by
  intro s t place neighbour data row
  have ht : s.tableFor "desk" = .ok t := rfl
  have hrow : t.findRow (some place) = .ok (some (.values [.ofNat 1, .ofNat 2], row)) := rfl
  have hnodup : (Entries.names data).Nodup := by decide
  have hwritten : (Progress.update Seats.supply ⟨s, 0⟩ t.model.name
      (.values [.ofNat 1, .ofNat 2]) row (.obj data)).2 = .ok row.data := by decide +kernel
  exact ⟨Desks.document_wellFormed, Desks.reachable_office, ht, hrow, hnodup,
    .update hrow hwritten, Desks.reachable_office.update_unordered_iff Desks.document_wellFormed ht
      hrow hnodup⟩

/-- A desk that is taken from the one to its left and given another number for it: the number stays
if it comes last, and else goes with the connection. -/
theorem desk_update_depends_on_order :
    let s := Desks.office
    let t : Table := { Table.empty Desks.model with rows := Desks.rows, nextSequence := 5 }
    let place := Json.obj [("row", .ofNat 1), ("number", .ofNat 2)]
    let data := [("left", Json.obj [("disconnect", .bool true)]), ("leftNumber", Json.ofNat 2)]
    let args (data : Entries Json) := Json.obj [("where", place), ("data", .obj data)]
    let row : Row := ⟨2, [("row", .ofNat 1), ("number", .ofNat 2), ("leftRow", .ofNat 1),
      ("leftNumber", .ofNat 1)]⟩
    let r (leftNumber : Json) : Record := [("row", .ofNat 1), ("number", .ofNat 2),
      ("leftRow", .null), ("leftNumber", leftNumber)]
    Reachable Desks.document s ∧ s.tableFor "desk" = .ok t ∧
      UpdatesBy (some place) data (args data) ∧ UpdatesBy (some place) data (args data.reverse) ∧
      s.Writes Seats.supply t (args data) .update (some row) (r (.ofNat 2)) ∧
      s.Writes Seats.supply t (args data.reverse) .update (some row) (r .null) ∧
      ¬ s.UpdatesAlike t row data Seats.supply Seats.supply (args data) (args data.reverse) := by
  intro s t place data args row r
  have found : s.tableOf t.model.name = .ok t := rfl
  have hrow : t.findRow (some place) = .ok (some (.values [.ofNat 1, .ofNat 2], row)) := rfl
  have hfirst : (Progress.update Seats.supply ⟨s, 0⟩ t.model.name (.values [.ofNat 1, .ofNat 2])
      row (.obj data)).2 = .ok (r (.ofNat 2)) := by decide +kernel
  have hsecond : (Progress.update Seats.supply ⟨s, 0⟩ t.model.name (.values [.ofNat 1, .ofNat 2])
      row (.obj data.reverse)).2 = .ok (r .null) := by decide +kernel
  have hw : s.Writes Seats.supply t (args data) .update (some row) (r (.ofNat 2)) :=
    .update hrow hfirst
  have hw' : s.Writes Seats.supply t (args data.reverse) .update (some row) (r .null) :=
    .update hrow hsecond
  refine ⟨Desks.reachable_office, rfl, ⟨rfl, data, rfl, .refl _⟩,
    ⟨rfl, data.reverse, rfl, data.reverse_perm⟩, hw, hw', ?_⟩
  rintro (⟨hnone, -⟩ | ⟨r₁, r₂, hw₁, hw₂, hagree⟩)
  · exact hnone _ hw
  · obtain ⟨_, hrow₁, hr₁, -⟩ := hw₁.exists_update
    obtain ⟨_, hrow₂, hr₂, -⟩ := hw₂.exists_update
    cases hrow.symm.trans hrow₁
    cases hrow.symm.trans hrow₂
    cases hfirst.symm.trans hr₁
    cases hsecond.symm.trans hr₂
    have hnumber : ("leftNumber", Json.ofNat 2) ∈ data :=
      List.mem_cons_of_mem _ List.mem_cons_self
    exact absurd (hagree "leftNumber" (not_clocked_of_mem hnumber)) (by decide)

end Store

end ModelGateway
