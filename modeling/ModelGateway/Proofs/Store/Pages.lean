import ModelGateway.Proofs.Record.Paging
import ModelGateway.Proofs.Store.Address
import ModelGateway.Proofs.Store.Counts

/-!
# Reading all records page by page

The records that `findMany` answers to a `where` and an `orderBy` can be read page by page
(`Store.Pages`). Two ways to ask for the next page are exact: to skip as many records as the pages
before hold, and to start from the last record that was answered.

* **Questions** (`Store.Asks`): the arguments of a page select with the same filter and the same
  sort keys as those without a page.
* **Offsets** (`Asks.pages_offset`): the pages give all records, in their order, as far as 64-bit
  numbers can skip.
* **Cursors** (`Asks.pages_cursor`): so do they if each row is found by its key (`Store.Keyed`),
  since the key of an answered record starts the next page right there. The order may have ties.
* **Both** (`Store.Reachable.pages_tile`): in every reachable store.
-/

namespace ModelGateway

namespace Store

/-! ## Pages -/

/-- No argument asks for a page of the records or for a part of their values. -/
def Plain (args : Entries Json) : Prop :=
  ∀ name ∈ ["select", "include", "cursor", "distinct", "skip", "take"], args.get? name = none

/-- The rows that `findMany` answers to one question after another. The next question is made of the
one before and the rows that were answered to it. The first empty page ends it, and so does a page
after which there is no next question. -/
inductive Pages {σ : Type} (supply : Supply) (s : Store) (delegate : String)
    (question : σ → Entries Json) (next : σ → List Json → Option σ) :
    Option σ → List Json → Prop
  | done : Pages supply s delegate question next none []
  | empty {q : σ}
      (answered : (s.execute supply delegate .findMany (.obj (question q))).2 = .ok (.arr [])) :
      Pages supply s delegate question next (some q) []
  | page {q : σ} {page rest : List Json}
      (answered : (s.execute supply delegate .findMany (.obj (question q))).2 = .ok (.arr page))
      (nonempty : page ≠ []) (further : Pages supply s delegate question next (next q page) rest) :
      Pages supply s delegate question next (some q) (page ++ rest)

/-- The arguments for the page with the given number, of `n` rows. -/
def offsetPage (args : Entries Json) (n page : Nat) : Entries Json :=
  args ++ [("skip", .ofInt (page * n : Nat)), ("take", .ofInt n)]

/-- The number of the next page, if a 64-bit number tells how many rows to skip for it. -/
def offsetNext (n page : Nat) (_ : List Json) : Option Nat :=
  if (page + 1) * n ≤ 9223372036854775807 then some (page + 1) else none

/-- The arguments for the page of `n` rows after the one at a cursor, or for the first page. -/
def cursorPage (args : Entries Json) (n : Nat) : Option Json → Entries Json
  | none => args ++ [("take", .ofInt n)]
  | some cursor => args ++ [("cursor", cursor), ("skip", .ofInt 1), ("take", .ofInt n)]

/-- The cursor for the next page: the key of the last row of a page. -/
def cursorNext (key : RecordKey) (_ : Option Json) (page : List Json) : Option (Option Json) :=
  page.getLast?.map fun row => some (key.filter (row.asEntries?.getD []))

variable {supply : Supply} {s : Store} {t : Table} {delegate : String} {args : Entries Json}
variable {n : Nat}

/-- A sequence of questions has one answer. -/
theorem Pages.eq {σ : Type} {question : σ → Entries Json} {next : σ → List Json → Option σ}
    {q : Option σ} {rows rows' : List Json} (h : Pages supply s delegate question next q rows)
    (h' : Pages supply s delegate question next q rows') : rows = rows' := by
  induction h generalizing rows' with
  | done =>
    cases h'
    rfl
  | empty answered =>
    cases h' with
    | empty => rfl
    | page answered' nonempty =>
      rw [answered] at answered'
      cases answered'
      exact absurd rfl nonempty
  | page answered nonempty _ ih =>
    cases h' with
    | empty answered' =>
      rw [answered] at answered'
      cases answered'
      exact absurd rfl nonempty
    | page answered' _ further' =>
      rw [answered] at answered'
      cases answered'
      rw [ih further']

/-! ## Questions -/

/-- Arguments without a cursor and without distinct records select a page of the records that pass
their `where`, sorted. -/
theorem select_eq_paginate {args : Json} {filter : Filter} {keys : List SortKey}
    (hfilter : Filter.ofArgument t.model (args.get? "where") = .ok filter)
    (hkeys : SortKey.ofArgument (args.get? "orderBy") = .ok keys)
    (hcursor : args.get? "cursor" = none) (hdistinct : args.get? "distinct" = none) :
    t.select args none =
      paginate (sortRecords keys (t.records.filter filter.matches)) args := by
  unfold Table.select
  rw [hfilter, hkeys, hcursor, hdistinct]
  rfl

/-- With a cursor they start at the first record that passes its filter. -/
theorem select_eq_paginate_from {args cursor : Json} {filter start : Filter} {keys : List SortKey}
    (hfilter : Filter.ofArgument t.model (args.get? "where") = .ok filter)
    (hkeys : SortKey.ofArgument (args.get? "orderBy") = .ok keys)
    (hcursor : args.get? "cursor" = some cursor) (hnull : cursor ≠ .null)
    (hstart : Filter.ofArgument t.model (some cursor) = .ok start)
    (hdistinct : args.get? "distinct" = none) :
    t.select args none =
      paginate ((sortRecords keys (t.records.filter filter.matches)).dropWhile
        fun r => !start.matches r) args := by
  have hread : Filter.ofJson t.model cursor = .ok start := hstart
  unfold Table.select
  rw [hfilter, hkeys, hcursor, hdistinct]
  cases cursor with
  | null => exact absurd rfl hnull
  | _ =>
    simp only [bind, Except.bind, hread]
    rfl

/-- A record as it is answered: all its columns. -/
def row (t : Table) (r : Record) : Json :=
  .obj (t.columns r)

/-- Plain arguments are read with a filter and with sort keys. -/
structure Asks (t : Table) (args : Entries Json) (filter : Filter) (keys : List SortKey) : Prop where
  plain : Plain args
  filter_eq : Filter.ofArgument t.model (args.get? "where") = .ok filter
  keys_eq : SortKey.ofArgument (args.get? "orderBy") = .ok keys

/-- The records that pass a filter, sorted. -/
def listed (t : Table) (filter : Filter) (keys : List SortKey) : List Record :=
  sortRecords keys (t.records.filter filter.matches)

variable {filter : Filter} {keys : List SortKey}

namespace Asks

/-- What the further arguments of a page do not give, the plain arguments do not give either. -/
theorem get?_append (h : Asks t args filter keys) (more : Entries Json) {name : String}
    (hname : name ∈ ["select", "include", "cursor", "distinct", "skip", "take"]) :
    (Json.obj (args ++ more)).get? name = Entries.get? more name := by
  have habsent : Entries.get? args name = none := h.plain name hname
  refine (Entries.get?_append args more name).trans ?_
  rw [habsent, Option.none_or]

/-- Further arguments change neither the filter nor the sort keys. -/
theorem read (h : Asks t args filter keys) (more : Entries Json)
    (hwhere : more.get? "where" = none) (horder : more.get? "orderBy" = none) :
    Filter.ofArgument t.model ((Json.obj (args ++ more)).get? "where") = .ok filter ∧
      SortKey.ofArgument ((Json.obj (args ++ more)).get? "orderBy") = .ok keys := by
  have hget : ∀ name, Entries.get? more name = none →
      (Json.obj (args ++ more)).get? name = Entries.get? args name := by
    intro name hnone
    refine (Entries.get?_append args more name).trans ?_
    rw [hnone, Option.or_none]
  rw [hget "where" hwhere, hget "orderBy" horder]
  exact ⟨h.filter_eq, h.keys_eq⟩

/-- The records that are selected are answered whole. -/
theorem answered (h : Asks t args filter keys) (ht : s.tableFor delegate = .ok t)
    (supply : Supply) {more : Entries Json} (hselect : more.get? "select" = none)
    (hinclude : more.get? "include" = none) {records : List Record}
    (hrecords : t.select (.obj (args ++ more)) none = .ok records) :
    (s.execute supply delegate .findMany (.obj (args ++ more))).2 =
      .ok (.arr (records.map (row t))) := by
  have hselect : (Json.obj (args ++ more)).get? "select" = none :=
    (h.get?_append more (by simp)).trans hselect
  have hinclude : (Json.obj (args ++ more)).get? "include" = none :=
    (h.get?_append more (by simp)).trans hinclude
  rw [execute_of_tableFor ht, executeOn, answer, findMany, hrecords]
  exact projectAll_whole s t records hselect hinclude

end Asks

/-- What `findMany` answers to plain arguments is a filter and a list of sort keys, applied. -/
theorem exists_asks (hplain : Plain args) (ht : s.tableFor delegate = .ok t) {answer : List Json}
    (h : (s.execute supply delegate .findMany (.obj args)).2 = .ok (.arr answer)) :
    ∃ filter keys, Asks t args filter keys ∧ answer = (listed t filter keys).map (row t) := by
  have habsent : ∀ name ∈ ["select", "include", "cursor", "distinct", "skip", "take"],
      (Json.obj args).get? name = none := hplain
  rw [execute_of_tableFor ht, executeOn, Store.answer, findMany] at h
  obtain ⟨records, hrecords, hanswer⟩ := Except.bind_eq_ok_iff.mp h
  have hread := hrecords
  unfold Table.select at hread
  obtain ⟨filter, hfilter, hread⟩ := Except.bind_eq_ok_iff.mp hread
  obtain ⟨keys, hkeys, -⟩ := Except.bind_eq_ok_iff.mp hread
  refine ⟨filter, keys, ⟨hplain, hfilter, hkeys⟩, ?_⟩
  rw [select_eq_paginate hfilter hkeys (habsent "cursor" (by simp)) (habsent "distinct" (by simp)),
    paginate, integerArgument_absent (habsent "skip" (by simp)),
    integerArgument_absent (habsent "take" (by simp))] at hrecords
  cases hrecords
  rw [projectAll_whole s t _ (habsent "select" (by simp)) (habsent "include" (by simp))] at hanswer
  cases hanswer
  rfl

/-! ## Offsets -/

/-- A page by offset is the window that its number says. -/
theorem Asks.answered_offset (h : Asks t args filter keys) (ht : s.tableFor delegate = .ok t)
    (supply : Supply) {page : Nat} (hn : n ≤ 9223372036854775807)
    (hskip : page * n ≤ 9223372036854775807) :
    (s.execute supply delegate .findMany (.obj (offsetPage args n page))).2 =
      .ok (.arr ((((listed t filter keys).drop (page * n)).take n).map (row t))) := by
  obtain ⟨hfilter, hkeys⟩ := h.read (offsetPage [] n page) rfl rfl
  have hskipped : integerArgument (.obj (offsetPage args n page)) "skip" =
      .ok (some (page * n : Nat)) :=
    integerArgument_ofInt (by unfold IsInt64; omega) (h.get?_append _ (by simp))
  have htaken : integerArgument (.obj (offsetPage args n page)) "take" = .ok (some n) :=
    integerArgument_ofInt (by unfold IsInt64; omega) (h.get?_append _ (by simp))
  refine h.answered ht supply rfl rfl ?_
  exact (select_eq_paginate hfilter hkeys (h.get?_append _ (by simp))
    (h.get?_append _ (by simp))).trans (paginate_window hskipped htaken (Int.natCast_nonneg n) _)

/-- The number of rows that pages of `n` rows reach: the last page is the last one whose rows to
skip a 64-bit number tells. -/
def reach (n : Nat) : Nat :=
  (9223372036854775807 / n + 1) * n

/-- Pages reach all rows that 64 bits count. -/
theorem lt_reach (hpos : 1 ≤ n) : 9223372036854775807 < reach n := by
  unfold reach
  rw [Nat.mul_comm]
  exact Nat.lt_mul_div_succ 9223372036854775807 hpos

/-- From any page on, the pages by offset give the records that are left, as far as they reach. -/
theorem Asks.pages_offset (h : Asks t args filter keys) (ht : s.tableFor delegate = .ok t)
    (supply : Supply) (hpos : 1 ≤ n) (hn : n ≤ 9223372036854775807) {page : Nat}
    (hskip : page * n ≤ 9223372036854775807) :
    Pages supply s delegate (offsetPage args n) (offsetNext n) (some page)
      ((((listed t filter keys).drop (page * n)).take (reach n - page * n)).map (row t)) := by
  -- the records that are left get fewer with each page
  induction hleft : (listed t filter keys).length - page * n using Nat.strongRecOn
    generalizing page with
  | _ left ih =>
    have hanswered := h.answered_offset ht supply hn hskip
    by_cases hrest : (listed t filter keys).drop (page * n) = []
    · rw [hrest, List.take_nil] at hanswered
      rw [hrest, List.take_nil]
      exact .empty hanswered
    · have hsome : page * n < (listed t filter keys).length := by
        by_contra hnone
        exact hrest (List.drop_eq_nil_of_le (Nat.le_of_not_lt hnone))
      have hsucc : (page + 1) * n = page * n + n := Nat.succ_mul page n
      have hnonempty : ((listed t filter keys).drop (page * n)).take n ≠ [] := by
        intro hnil
        rcases List.take_eq_nil_iff.mp hnil with hzero | hnil
        · omega
        · exact hrest hnil
      have hreach : (page + 1) * n ≤ reach n :=
        Nat.mul_le_mul_right n (Nat.succ_le_succ ((Nat.le_div_iff_mul_le hpos).mpr hskip))
      have hfurther : Pages supply s delegate (offsetPage args n) (offsetNext n)
          (offsetNext n page ((((listed t filter keys).drop (page * n)).take n).map (row t)))
          ((((listed t filter keys).drop ((page + 1) * n)).take (reach n - (page + 1) * n)).map
            (row t)) := by
        unfold offsetNext
        split_ifs with hfits
        · exact ih _ (by omega) hfits rfl
        · have hlast : reach n ≤ (page + 1) * n :=
            Nat.mul_le_mul_right n ((Nat.div_lt_iff_lt_mul hpos).mpr (Nat.lt_of_not_le hfits))
          rw [Nat.sub_eq_zero_of_le hlast, List.take_zero]
          exact .done
      have hpages := Pages.page hanswered (by simpa using hnonempty) hfurther
      have hsplit : reach n - page * n = n + (reach n - (page + 1) * n) := by omega
      rw [hsplit, List.take_add, List.drop_drop, List.map_append, ← hsucc]
      exact hpages

/-! ## Cursors -/

/-- The rows of the table are found by their keys: the model has a key, and every row gives all of
it. -/
structure Keyed (t : Table) (key : RecordKey) : Prop where
  sound : t.Sound
  unique : t.Unique
  addressable : t.model.Addressable
  key_eq : RecordKey.ofModel? t.model = some key
  given : ∀ e ∈ t.rows, t.model.KeyGiven e.2.data

/-- Of the records that are listed, the filter of one's key is passed by this one alone. -/
theorem Keyed.exists_cursor {key : RecordKey} (h : Keyed t key) {r : Record}
    (hr : r ∈ listed t filter keys) :
    ∃ cursor, Filter.ofArgument t.model (some (key.filter (t.columns r))) = .ok cursor ∧
      (listed t filter keys).filter cursor.matches = [r] := by
  have hperm : (listed t filter keys).Perm (t.records.filter filter.matches) :=
    sortRecords_perm keys _
  obtain ⟨hrecord, hmatches⟩ := List.mem_filter.mp (hperm.mem_iff.mp hr)
  obtain ⟨e, he, rfl⟩ := List.mem_map.mp hrecord
  obtain ⟨key', cursor, hkey, hcursor, honly⟩ :=
    h.unique.filter_key h.sound h.addressable he (h.given e he)
  cases h.key_eq.symm.trans hkey
  have hrecords : t.records.filter cursor.matches = [e.2.data] := by
    rw [Table.records, List.filter_map]
    exact congrArg (List.map (·.2.data)) honly
  refine ⟨cursor, by rwa [RecordKey.filter_columns h.addressable h.key_eq], ?_⟩
  have hpassed := hperm.filter cursor.matches
  rw [List.filter_comm, hrecords, List.filter_cons_of_pos hmatches] at hpassed
  exact List.perm_singleton.mp hpassed

/-- The page after a record is the window behind it. -/
theorem Asks.answered_cursor (h : Asks t args filter keys) (ht : s.tableFor delegate = .ok t)
    {key : RecordKey} (hkeyed : Keyed t key) (supply : Supply) (hn : n ≤ 9223372036854775807)
    {before after : List Record} {r : Record}
    (hlisted : listed t filter keys = before ++ r :: after) :
    (s.execute supply delegate .findMany
      (.obj (cursorPage args n (some (key.filter (t.columns r)))))).2 =
      .ok (.arr ((after.take n).map (row t))) := by
  have hr : r ∈ listed t filter keys := by
    rw [hlisted]
    exact List.mem_append_right before List.mem_cons_self
  obtain ⟨cursor, hcursor, honly⟩ := hkeyed.exists_cursor hr
  have hnull : key.filter (t.columns r) ≠ .null := by
    cases key <;> exact Json.noConfusion
  obtain ⟨hfilter, hkeys⟩ := h.read (cursorPage [] n (some (key.filter (t.columns r)))) rfl rfl
  have hskipped : integerArgument
      (.obj (cursorPage args n (some (key.filter (t.columns r))))) "skip" = .ok (some 1) :=
    integerArgument_ofInt (by unfold IsInt64; omega) (h.get?_append _ (by simp))
  have htaken : integerArgument
      (.obj (cursorPage args n (some (key.filter (t.columns r))))) "take" = .ok (some n) :=
    integerArgument_ofInt (by unfold IsInt64; omega) (h.get?_append _ (by simp))
  refine h.answered ht supply rfl rfl ?_
  refine (select_eq_paginate_from hfilter hkeys (h.get?_append _ (by simp)) hnull hcursor
    (h.get?_append _ (by simp))).trans ?_
  rw [← listed, hlisted]
  rw [hlisted] at honly
  rw [dropWhile_of_filter_singleton honly]
  exact paginate_window hskipped htaken (Int.natCast_nonneg n) _

/-- From any record on, the pages by cursor give the records that are left. -/
theorem Asks.pages_cursor (h : Asks t args filter keys) (ht : s.tableFor delegate = .ok t)
    {key : RecordKey} (hkeyed : Keyed t key) (supply : Supply) (hpos : 1 ≤ n)
    (hn : n ≤ 9223372036854775807) {q : Option Json} {before after : List Record}
    (hlisted : listed t filter keys = before ++ after)
    (hanswered : (s.execute supply delegate .findMany (.obj (cursorPage args n q))).2 =
      .ok (.arr ((after.take n).map (row t)))) :
    Pages supply s delegate (cursorPage args n) (cursorNext key) (some q) (after.map (row t)) := by
  -- the records that are left get fewer with each page
  induction hleft : after.length using Nat.strongRecOn generalizing q before after with
  | _ left ih =>
    by_cases hrest : after = []
    · subst hrest
      rw [List.take_nil] at hanswered
      exact .empty hanswered
    · have hnonempty : after.take n ≠ [] := by
        intro hnil
        rcases List.take_eq_nil_iff.mp hnil with hzero | hnil
        · omega
        · exact hrest hnil
      obtain ⟨seen, last, hpage⟩ : ∃ seen last, after.take n = seen ++ [last] :=
        ⟨_, _, (List.dropLast_append_getLast hnonempty).symm⟩
      have hafter : after = seen ++ last :: after.drop n := by
        have happend := (List.take_append_drop n after).symm
        rwa [hpage, List.append_assoc] at happend
      have hsplit : listed t filter keys = (before ++ seen) ++ last :: after.drop n := by
        rw [List.append_assoc, ← hafter, hlisted]
      have hnext : cursorNext key q ((after.take n).map (row t)) =
          some (some (key.filter (t.columns last))) := by
        rw [hpage]
        simp [cursorNext, row, Json.asEntries?]
      have hfewer : (after.drop n).length < left := by
        have hlength := List.length_pos_of_ne_nil hrest
        rw [List.length_drop]
        omega
      have hlater : listed t filter keys = (before ++ seen ++ [last]) ++ after.drop n := by
        rw [hsplit, List.append_assoc, List.append_assoc, List.singleton_append, List.append_assoc]
      have hfurther := ih _ hfewer hlater (h.answered_cursor ht hkeyed supply hn hsplit) rfl
      rw [← hnext] at hfurther
      have hpages := Pages.page hanswered (by simpa using hnonempty) hfurther
      rwa [← List.map_append, List.take_append_drop] at hpages

/-- The first page is the start of the list. -/
theorem Asks.answered_first (h : Asks t args filter keys) (ht : s.tableFor delegate = .ok t)
    (supply : Supply) (hn : n ≤ 9223372036854775807) :
    (s.execute supply delegate .findMany (.obj (cursorPage args n none))).2 =
      .ok (.arr (((listed t filter keys).take n).map (row t))) := by
  obtain ⟨hfilter, hkeys⟩ := h.read (cursorPage [] n none) rfl rfl
  have hskipped : integerArgument (.obj (cursorPage args n none)) "skip" = .ok none :=
    integerArgument_absent (h.get?_append _ (by simp))
  have htaken : integerArgument (.obj (cursorPage args n none)) "take" = .ok (some n) :=
    integerArgument_ofInt (by unfold IsInt64; omega) (h.get?_append _ (by simp))
  refine h.answered ht supply rfl rfl ?_
  exact (select_eq_paginate hfilter hkeys (h.get?_append _ (by simp))
    (h.get?_append _ (by simp))).trans (paginate_window hskipped htaken (Int.natCast_nonneg n) _)

/-! ## Reachable stores -/

/-- Where rows are found by their keys, no two of them are answered in the same way. -/
theorem Keyed.nodup_rows {key : RecordKey} (h : Keyed t key) (test : RowKey × Row → Bool) :
    ((t.rows.filter test).map fun e => row t e.2.data).Nodup := by
  have hinj : ∀ a ∈ t.rows.filter test, ∀ b ∈ t.rows.filter test,
      row t a.2.data = row t b.2.data → a = b := by
    intro a ha b hb heq
    have ha := (List.mem_filter.mp ha).1
    have hb := (List.mem_filter.mp hb).1
    have hcolumns : t.columns a.2.data = t.columns b.2.data := Json.obj.inj heq
    refine h.unique.eq_of_valuesEqual h.sound hb ha ((h.given b hb).identified h.addressable) ?_
    intro f hf
    have hmem := Model.mem_fields_of_mem_identifyingFields hf
    have hscalar := h.addressable.columns f hf
    rw [← Table.value_columns hmem hscalar, hcolumns, Table.value_columns hmem hscalar]
    exact valuesEqual_refl ((h.sound.wellFormed b hb).value f.name)
  exact (h.sound.keys_nodup.of_map.filter test).map_on hinj

variable {d : Document}

/-- In a reachable store, the pages by offset of a `where` and an `orderBy` give the rows that they
find without a page, in their order, as far as 64-bit numbers can skip. The pages by cursor give all
of them, each once, if the model has a key and all rows give it. -/
theorem Reachable.pages_tile (hd : d.WellFormed) (h : Reachable d s) (hplain : Plain args)
    {rows : List Json}
    (hrows : (s.execute supply delegate .findMany (.obj args)).2 = .ok (.arr rows))
    (hpos : 1 ≤ n) (hn : n ≤ 9223372036854775807) :
    (∀ read, Pages supply s delegate (offsetPage args n) (offsetNext n) (some 0) read ↔
      read = rows.take (reach n)) ∧
    (rows.length ≤ 9223372036854775808 → rows.take (reach n) = rows) ∧
    ∀ t, s.tableFor delegate = .ok t → t.model.Addressable →
      (∀ e ∈ t.rows, t.model.KeyGiven e.2.data) →
      ∃ key filter, RecordKey.ofModel? t.model = some key ∧
        Filter.ofArgument t.model (args.get? "where") = .ok filter ∧
        (∀ read, Pages supply s delegate (cursorPage args n) (cursorNext key) (some none) read ↔
          read = rows) ∧
        rows.Nodup ∧
        rows.Perm ((t.rows.filter fun e => filter.matches e.2.data).map fun e =>
          .obj (t.columns e.2.data)) := by
  obtain ⟨t, ht⟩ : ∃ t, s.tableFor delegate = .ok t := by
    unfold execute at hrows
    cases ht : s.tableFor delegate with
    | error fault =>
      rw [ht] at hrows
      cases hrows
    | ok t => exact ⟨t, rfl⟩
  obtain ⟨filter, keys, hasks, rfl⟩ := exists_asks hplain ht hrows
  refine ⟨?_, ?_, ?_⟩
  · have hstart : 0 * n ≤ 9223372036854775807 := by omega
    have hpages := hasks.pages_offset ht supply hpos hn hstart
    rw [Nat.zero_mul, List.drop_zero, Nat.sub_zero, List.map_take] at hpages
    intro read
    constructor
    · exact fun hread => hread.eq hpages
    · rintro rfl
      exact hpages
  · intro hlength
    have hreach := lt_reach hpos
    exact List.take_of_length_le (by omega)
  · intro t' ht' hm hgiven
    obtain rfl : t = t' := Except.ok.inj (ht.symm.trans ht')
    have hs := h.sound hd
    have found := hs.named.tableOf_of_tableFor ht
    obtain ⟨key, hkey⟩ : ∃ key, RecordKey.ofModel? t.model = some key := by
      refine Option.ne_none_iff_exists'.mp fun hnone => ?_
      exact hm.identified (RecordKey.ofModel?_eq_none_iff.mp hnone)
    have hkeyed : Keyed t key :=
      { sound := hs.table _ t found
        unique := h.unique hd _ t found
        addressable := hm
        key_eq := hkey
        given := hgiven }
    have hpages := hasks.pages_cursor ht hkeyed supply hpos hn (List.nil_append _).symm
      (hasks.answered_first ht supply hn)
    have hperm : ((listed t filter keys).map (row t)).Perm
        ((t.rows.filter fun e => filter.matches e.2.data).map fun e => row t e.2.data) := by
      have hrecords : (t.records.filter filter.matches).map (row t) =
          (t.rows.filter fun e => filter.matches e.2.data).map fun e => row t e.2.data := by
        rw [Table.records, List.filter_map, List.map_map]
        rfl
      rw [← hrecords]
      exact (sortRecords_perm keys _).map (row t)
    refine ⟨key, filter, hkey, hasks.filter_eq, ?_, ?_, hperm⟩
    · intro read
      constructor
      · exact fun hread => hread.eq hpages
      · rintro rfl
        exact hpages
    · exact hperm.nodup_iff.mpr (hkeyed.nodup_rows _)

/-- The two seats of a row, from the last one, are read in two pages of one seat. -/
theorem seats_pages_tile :
    let s := Seats.made [
      .execute "seat" .create (.obj [("data", Seats.seat (.ofNat 1) (.ofNat 1) .null)]),
      .execute "seat" .create (.obj [("data", Seats.seat (.ofNat 1) (.ofNat 2) .null)])]
    let args : Entries Json :=
      [("where", .obj [("row", .ofNat 1)]), ("orderBy", .obj [("number", .str "desc")])]
    let key := RecordKey.compound "row_number" ["row", "number"]
    let rows := [Seats.seat (.ofNat 1) (.ofNat 2) .null, Seats.seat (.ofNat 1) (.ofNat 1) .null]
    Seats.document.WellFormed ∧ Reachable Seats.document s ∧ Plain args ∧
      (s.execute Seats.supply "seat" .findMany (.obj args)).2 = .ok (.arr rows) ∧
      (∀ read, Pages Seats.supply s "seat" (offsetPage args 1) (offsetNext 1) (some 0) read ↔
        read = rows) ∧
      (∀ read, Pages Seats.supply s "seat" (cursorPage args 1) (cursorNext key) (some none) read ↔
        read = rows) ∧
      rows.Nodup := by
  intro s args key rows
  have hs : Reachable Seats.document s :=
    Seats.reachable_made (by simp [Call.WellFormed, Entries.names])
  have hplain : Plain args := by
    unfold Plain
    decide
  have hrows : (s.execute Seats.supply "seat" .findMany (.obj args)).2 = .ok (.arr rows) := rfl
  obtain ⟨hoffset, hreach, hcursor⟩ :=
    hs.pages_tile (n := 1) Seats.document_wellFormed hplain hrows (by omega) (by omega)
  have hlength : rows.length = 2 := rfl
  rw [hreach (by omega)] at hoffset
  obtain ⟨key', filter, hkey, -, hcursor, hnodup, -⟩ :=
    hcursor (s.current (Table.empty Seats.model)) rfl Seats.addressable (by decide)
  have hkey' : RecordKey.ofModel? Seats.model = some key := rfl
  cases hkey'.symm.trans hkey
  exact ⟨Seats.document_wellFormed, hs, hplain, hrows, hoffset, hcursor, hnodup⟩

end Store

end ModelGateway
