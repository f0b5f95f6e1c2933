import Mathlib.Data.List.Pairwise
import ModelGateway.Proofs.Record.Equality
import ModelGateway.Proofs.Record.Groups
import ModelGateway.Record.Page

/-!
# Distinct records and groups

Both `distinct` and grouping keep the first record of each combination of values. They differ in
what they take for a repetition: `distinct` wants the values to be the same (`Record.SameIn`),
grouping wants them to be equal (`Record.EqualIn`), so that `1` and `1.0` are one value and so are
two texts of one instant.

* **First records** (`firstsFrom`): the items that repeat no earlier one, for any notion of
  repetition. A coarser notion keeps fewer of them (`firstsFrom_sublist`).
* **Both as first records** (`distinct_eq_firsts`, `groupBy_eq_firsts`).
* **Agreement** (`firsts_sublist_distinct`, `firsts_eq_distinct_iff`): the first records of the
  groups are distinct records, in their order. They are all of these exactly if equal records are
  the same (`CoherentIn`), and already if there are as many groups (`length_firsts_eq_iff`).
-/

namespace ModelGateway

/-! ## First records -/

section Firsts

variable {α : Type} {same equal : α → α → Bool} {seen seen' : List α}

/-- The items that repeat none of those that were seen and no earlier one. -/
def firstsFrom (repeats : α → α → Bool) (seen : List α) : List α → List α
  | [] => []
  | x :: rest =>
    if seen.any (repeats · x) then firstsFrom repeats seen rest
    else x :: firstsFrom repeats (x :: seen) rest

/-- First items are items. -/
theorem firstsFrom_subset (repeats : α → α → Bool) (seen items : List α) :
    firstsFrom repeats seen items ⊆ items := by
  induction items generalizing seen with
  | nil => exact List.Subset.refl _
  | cons x rest ih =>
    rw [firstsFrom]
    split_ifs
    · exact List.subset_cons_of_subset x (ih seen)
    · exact List.cons_subset_cons x (ih (x :: seen))

/-- No first item repeats one that was seen, or an earlier one. -/
theorem firstsFrom_pairwise (repeats : α → α → Bool) (seen items : List α) :
    (∀ x ∈ firstsFrom repeats seen items, ∀ y ∈ seen, repeats y x = false) ∧
      (firstsFrom repeats seen items).Pairwise fun y x => repeats y x = false := by
  induction items generalizing seen with
  | nil => exact ⟨fun x hx => absurd hx List.not_mem_nil, .nil⟩
  | cons x rest ih =>
    rw [firstsFrom]
    split_ifs with hseen
    · exact ih seen
    · obtain ⟨hnew, hpairwise⟩ := ih (x :: seen)
      have hx : ∀ y ∈ seen, repeats y x = false := by simpa using hseen
      refine ⟨?_, List.pairwise_cons.mpr ⟨fun z hz => hnew z hz x List.mem_cons_self, hpairwise⟩⟩
      intro z hz y hy
      rcases List.mem_cons.mp hz with rfl | hz
      · exact hx y hy
      · exact hnew z hz y (List.mem_cons_of_mem _ hy)

/-- First items that repeat each other are one. -/
theorem eq_of_mem_firstsFrom {repeats : α → α → Bool} {items : List α} {x y : α}
    (hx : x ∈ firstsFrom repeats seen items) (hy : y ∈ firstsFrom repeats seen items)
    (hxy : repeats x y = true) (hyx : repeats y x = true) : x = y := by
  have : Std.Symm fun a b => ¬(repeats a b = true ∧ repeats b a = true) :=
    ⟨fun a b hnot hboth => hnot hboth.symm⟩
  have hpairwise : (firstsFrom repeats seen items).Pairwise fun a b =>
      ¬(repeats a b = true ∧ repeats b a = true) := by
    apply (firstsFrom_pairwise repeats seen items).2.imp
    intro a b hfirst hboth
    rw [hfirst] at hboth
    exact absurd hboth.1 (by simp)
  by_contra hne
  exact hpairwise.forall hx hy hne ⟨hxy, hyx⟩

/-- Every item repeats a first one, or one that was seen. -/
theorem exists_repeats_of_mem {repeats : α → α → Bool} {items : List α} (seen : List α)
    (hrefl : ∀ x ∈ items, repeats x x = true) {x : α} (hx : x ∈ items) :
    ∃ y ∈ seen ++ firstsFrom repeats seen items, repeats y x = true := by
  induction items generalizing seen with
  | nil => exact absurd hx List.not_mem_nil
  | cons first rest ih =>
    obtain ⟨hfirst, hrest⟩ := List.forall_mem_cons.mp hrefl
    rw [firstsFrom]
    split_ifs with hseen
    · rcases List.mem_cons.mp hx with rfl | hx
      · obtain ⟨y, hy, hyx⟩ := List.any_eq_true.mp hseen
        exact ⟨y, List.mem_append_left _ hy, hyx⟩
      · exact ih seen hrest hx
    · rcases List.mem_cons.mp hx with rfl | hx
      · exact ⟨x, List.mem_append_right _ List.mem_cons_self, hfirst⟩
      · obtain ⟨y, hy, hyx⟩ := ih (first :: seen) hrest hx
        refine ⟨y, ?_, hyx⟩
        simp only [List.cons_append, List.mem_cons, List.mem_append] at hy ⊢
        tauto

/-- Notions of repetition that agree on all items keep the same ones. -/
theorem firstsFrom_congr {items : List α}
    (h : ∀ x ∈ seen ++ items, ∀ y ∈ seen ++ items, same x y = equal x y) :
    firstsFrom same seen items = firstsFrom equal seen items := by
  induction items generalizing seen with
  | nil => rfl
  | cons x rest ih =>
    have hany : seen.any (same · x) = seen.any (equal · x) := by
      rw [Bool.eq_iff_iff, List.any_eq_true, List.any_eq_true]
      refine exists_congr fun y => and_congr_right fun hy => ?_
      rw [h y (List.mem_append_left _ hy) x (List.mem_append_right _ List.mem_cons_self)]
    have hsub' : (x :: seen) ++ rest ⊆ seen ++ x :: rest := by
      intro y hy
      simp only [List.cons_append, List.mem_cons, List.mem_append] at hy ⊢
      tauto
    have hsub : seen ++ rest ⊆ seen ++ x :: rest :=
      fun y hy => hsub' (List.mem_cons_of_mem _ hy)
    rw [firstsFrom, firstsFrom, hany, ih fun y hy z hz => h y (hsub hy) z (hsub hz),
      ih fun y hy z hz => h y (hsub' hy) z (hsub' hz)]

/-- What is the same counts as equal, and what equals something equals all that is the same as
that. -/
structure Coarsens (equal same : α → α → Bool) (items : List α) : Prop where
  equal_refl : ∀ x ∈ items, equal x x = true
  equal_trans_same : ∀ x ∈ items, ∀ y ∈ items, ∀ z ∈ items,
    equal x y = true → same y z = true → equal x z = true

/-- The items that repeat none under a coarser notion repeat none under the finer one. What carries
the induction is that each item kept under the finer notion repeats one kept under the coarser. -/
theorem firstsFrom_sublist {all items : List α} (hc : Coarsens equal same all)
    (hitems : items ⊆ all) (hseen : seen ⊆ all) (hseen' : seen' ⊆ all)
    (hkept : ∀ y ∈ seen, ∃ g ∈ seen', equal g y = true) :
    (firstsFrom equal seen' items).Sublist (firstsFrom same seen items) := by
  induction items generalizing seen seen' with
  | nil => exact .refl _
  | cons x rest ih =>
    obtain ⟨hx, hrest⟩ := List.cons_subset.mp hitems
    rw [firstsFrom, firstsFrom]
    by_cases hsame : seen.any (same · x) = true
    · -- an earlier item is the same, so an earlier one is equal
      obtain ⟨y, hy, hyx⟩ := List.any_eq_true.mp hsame
      obtain ⟨g, hg, hgy⟩ := hkept y hy
      have hequal : seen'.any (equal · x) = true := by
        rw [List.any_eq_true]
        exact ⟨g, hg, hc.equal_trans_same g (hseen' hg) y (hseen hy) x hx hgy hyx⟩
      rw [if_pos hsame, if_pos hequal]
      exact ih hrest hseen hseen' hkept
    · rw [if_neg hsame]
      have hseenx : x :: seen ⊆ all := List.cons_subset.mpr ⟨hx, hseen⟩
      by_cases hequal : seen'.any (equal · x) = true
      · rw [if_pos hequal]
        obtain ⟨g, hg, hgx⟩ := List.any_eq_true.mp hequal
        apply List.Sublist.cons
        exact ih hrest hseenx hseen' (List.forall_mem_cons.mpr ⟨⟨g, hg, hgx⟩, hkept⟩)
      · rw [if_neg hequal]
        apply List.Sublist.cons_cons
        apply ih hrest hseenx (List.cons_subset.mpr ⟨hx, hseen'⟩)
        intro y hy
        rcases List.mem_cons.mp hy with rfl | hy
        · exact ⟨y, List.mem_cons_self, hc.equal_refl y hx⟩
        · obtain ⟨g, hg, hgy⟩ := hkept y hy
          exact ⟨g, List.mem_cons_of_mem _ hg, hgy⟩

end Firsts

/-! ## Values of columns -/

namespace Record

variable {columns : List String} {a b c : Record}

/-- Two records have the same values in some columns, up to the order of names. -/
def SameIn (columns : List String) (a b : Record) : Prop :=
  ∀ column ∈ columns, (Record.value a column).same (Record.value b column) = true

/-- Two records have equal values in some columns. -/
def EqualIn (columns : List String) (a b : Record) : Prop :=
  ∀ column ∈ columns, valuesEqual (Record.value a column) (Record.value b column) = true

/-- The test for the same values. -/
theorem sameItems_valuesOf :
    Json.sameItems (a.valuesOf columns) (b.valuesOf columns) = true ↔ SameIn columns a b := by
  rw [Json.sameItems_iff, valuesOf, valuesOf, List.forall₂_map_left_iff,
    List.forall₂_map_right_iff, List.forall₂_same]
  rfl

/-- The test for equal values. -/
theorem allValuesEqual_valuesOf :
    allValuesEqual (a.valuesOf columns) (b.valuesOf columns) = true ↔ EqualIn columns a b := by
  unfold valuesOf EqualIn
  induction columns with
  | nil => simp [allValuesEqual]
  | cons column rest ih => simp [allValuesEqual, ih]

/-- A well-formed record has the same values as itself. -/
theorem SameIn.refl (ha : WellFormed a) : SameIn columns a a :=
  fun column _ => Json.same_refl (ha.value column)

/-- Having the same values does not depend on the order of the records. -/
theorem SameIn.symm (h : SameIn columns a b) (ha : WellFormed a) (hb : WellFormed b) :
    SameIn columns b a :=
  fun column hc => Json.same_symm (ha.value column) (hb.value column) (h column hc)

/-- Having the same values is transitive. -/
theorem SameIn.trans (hab : SameIn columns a b) (hbc : SameIn columns b c) (ha : WellFormed a) :
    SameIn columns a c :=
  fun column hc => Json.same_trans (ha.value column) (hab column hc) (hbc column hc)

/-- A well-formed record has values equal to its own. -/
theorem EqualIn.refl (ha : WellFormed a) : EqualIn columns a a :=
  fun column _ => valuesEqual_refl (ha.value column)

/-- Having equal values does not depend on the order of the records. -/
theorem EqualIn.symm (h : EqualIn columns a b) (ha : WellFormed a) (hb : WellFormed b) :
    EqualIn columns b a :=
  fun column hc => valuesEqual_symm (ha.value column) (hb.value column) (h column hc)

/-- Equal values are equal to what is the same. -/
theorem EqualIn.trans_same (hab : EqualIn columns a b) (hbc : SameIn columns b c)
    (ha : WellFormed a) : EqualIn columns a c :=
  fun column hc => valuesEqual_trans_same (ha.value column) (hab column hc) (hbc column hc)

end Record

/-! ## Distinct records and groups as first records -/

variable {columns : List String} {records : List Record}

/-- A record repeats an earlier one for `distinct`. -/
def sameRepeats (columns : List String) (earlier r : Record) : Bool :=
  Json.sameItems (r.valuesOf columns) (earlier.valuesOf columns)

/-- A record repeats an earlier one for grouping. -/
def equalRepeats (columns : List String) (earlier r : Record) : Bool :=
  allValuesEqual (earlier.valuesOf columns) (r.valuesOf columns)

/-- Distinct records are the first ones that are not the same as an earlier one. -/
theorem distinct_eq_firsts (h : columns ≠ []) (records : List Record) :
    distinct columns records = firstsFrom (sameRepeats columns) [] records := by
  have hfrom : ∀ seen : List Record, distinctFrom columns (seen.map (·.valuesOf columns)) records =
      firstsFrom (sameRepeats columns) seen records := by
    induction records with
    | nil => exact fun _ => rfl
    | cons r rest ih =>
      intro seen
      have hany : (seen.map (·.valuesOf columns)).any (Json.sameItems (r.valuesOf columns)) =
          seen.any (sameRepeats columns · r) := List.any_map
      have hadded := ih (r :: seen)
      rw [List.map_cons] at hadded
      rw [distinctFrom, firstsFrom, hany, ih seen, hadded]
  rw [distinct, if_neg (by simpa using h)]
  exact hfrom []

/-- Distinct records are records. -/
theorem distinct_subset (columns : List String) (records : List Record) :
    distinct columns records ⊆ records := by
  by_cases h : columns = []
  · subst h
    exact List.Subset.refl _
  · rw [distinct_eq_firsts h]
    exact firstsFrom_subset _ _ _

/-- Adding a record adds its values to the keys of the groups, unless a group has an equal key. -/
theorem keys_addToGroups (key : List Json) (r : Record) (groups : List RecordGroup) :
    (addToGroups key r groups).map (·.key) =
      if (groups.map (·.key)).any (allValuesEqual · key) then groups.map (·.key)
      else groups.map (·.key) ++ [key] := by
  induction groups with
  | nil => rfl
  | cons g rest ih =>
    rw [addToGroups, List.map_cons, List.any_cons]
    by_cases hg : allValuesEqual g.key key = true
    · simp [hg]
    · rw [if_neg hg, List.map_cons, ih]
      by_cases hrest : (rest.map (·.key)).any (allValuesEqual · key) = true
      · simp [hg, hrest]
      · simp only [hg, hrest]
        rfl

/-- The keys of the groups are the values of the first records that equal no earlier one. -/
theorem keys_groupRecords (columns : List String) (records : List Record) :
    (groupRecords columns records).map (·.key) =
      (firstsFrom (equalRepeats columns) [] records).map (·.valuesOf columns) := by
  have hfold : ∀ (groups : List RecordGroup) (seen : List Record),
      groups.map (·.key) = seen.reverse.map (·.valuesOf columns) →
      (records.foldl (fun groups r =>
        addToGroups (columns.map (Record.value r)) r groups) groups).map (·.key) =
      groups.map (·.key) ++
        (firstsFrom (equalRepeats columns) seen records).map (·.valuesOf columns) := by
    induction records with
    | nil => simp [firstsFrom]
    | cons r rest ih =>
      intro groups seen hkeys
      have hany : (groups.map (·.key)).any (allValuesEqual · (r.valuesOf columns)) =
          seen.any (equalRepeats columns · r) := by
        rw [hkeys, List.any_map, List.any_reverse]
        rfl
      have hadd := keys_addToGroups (r.valuesOf columns) r groups
      rw [hany] at hadd
      rw [List.foldl_cons, firstsFrom, ← Record.valuesOf]
      split_ifs at hadd ⊢ with hseen
      · rw [ih _ seen (hadd.trans hkeys)]
        exact congrArg (· ++ _) hadd
      · have hnext : (addToGroups (r.valuesOf columns) r groups).map (·.key) =
            (r :: seen).reverse.map (·.valuesOf columns) := by
          rw [hadd, hkeys, List.reverse_cons, List.map_append]
          rfl
        rw [ih _ (r :: seen) hnext, List.map_cons, List.append_cons]
        exact congrArg (· ++ _) hadd
  exact hfold [] [] rfl

/-- Without aggregates the rows of the groups show the columns of the first records that equal no
earlier one. -/
theorem groupBy_eq_firsts {args : Json} (h : aggregateRequests args = []) (hcolumns : columns ≠ [])
    (records : List Record) :
    groupBy columns records args =
      .ok ((firstsFrom (equalRepeats columns) [] records).map fun r =>
        Entries.ofList (columns.map fun column => (column, Record.value r column))) := by
  have hrows := congrArg (List.map fun key => Entries.ofList (columns.zip key))
    (keys_groupRecords columns records)
  rw [List.map_map, List.map_map] at hrows
  rw [groupBy_keys h hcolumns]
  refine congrArg Except.ok (hrows.trans (List.map_congr_left fun r _ => ?_))
  rw [Function.comp_apply, Record.valuesOf, ← List.map_prod_left_eq_zip]

/-! ## Agreement -/

/-- Records that have equal values in some columns have the same values there. -/
def CoherentIn (columns : List String) (records : List Record) : Prop :=
  ∀ a ∈ records, ∀ b ∈ records, Record.EqualIn columns a b → Record.SameIn columns a b

instance (columns : List String) (records : List Record) : Decidable (CoherentIn columns records) :=
  inferInstanceAs (Decidable (∀ a ∈ records, ∀ b ∈ records,
    (∀ column ∈ columns, valuesEqual (Record.value a column) (Record.value b column) = true) →
      ∀ column ∈ columns, (Record.value a column).same (Record.value b column) = true))

/-- Equality of values is coarser than sameness. -/
theorem coarsens_equalRepeats (hr : ∀ r ∈ records, Record.WellFormed r) (columns : List String) :
    Coarsens (equalRepeats columns) (sameRepeats columns) records where
  equal_refl x hx := Record.allValuesEqual_valuesOf.mpr (.refl (hr x hx))
  equal_trans_same x hx y hy z hz hxy hyz := by
    have hsame : Record.SameIn columns y z :=
      (Record.sameItems_valuesOf.mp hyz).symm (hr z hz) (hr y hy)
    exact Record.allValuesEqual_valuesOf.mpr
      ((Record.allValuesEqual_valuesOf.mp hxy).trans_same hsame (hr x hx))

/-- The first records of the groups are distinct records, in their order. -/
theorem firsts_sublist_distinct (hcolumns : columns ≠ [])
    (hr : ∀ r ∈ records, Record.WellFormed r) :
    (firstsFrom (equalRepeats columns) [] records).Sublist (distinct columns records) := by
  rw [distinct_eq_firsts hcolumns]
  apply firstsFrom_sublist (coarsens_equalRepeats hr columns) (List.Subset.refl _)
  all_goals simp

/-- If the first records of the groups are all distinct records, then equal records are the same. -/
theorem coherentIn_of_firsts_eq (hr : ∀ r ∈ records, Record.WellFormed r)
    (heq : firstsFrom (equalRepeats columns) [] records =
      firstsFrom (sameRepeats columns) [] records) : CoherentIn columns records := by
  intro a ha b hb hab
  have hrefl : ∀ r ∈ records, sameRepeats columns r r = true :=
    fun r hmem => Record.sameItems_valuesOf.mpr (.refl (hr r hmem))
  -- each of the two records is the same as a first one
  obtain ⟨k, hk, hka⟩ := exists_repeats_of_mem [] hrefl ha
  obtain ⟨l, hl, hlb⟩ := exists_repeats_of_mem [] hrefl hb
  rw [List.nil_append] at hk hl
  have hwk := hr k (firstsFrom_subset _ _ _ hk)
  have hwl := hr l (firstsFrom_subset _ _ _ hl)
  have hak : Record.SameIn columns a k := Record.sameItems_valuesOf.mp hka
  have hbl : Record.SameIn columns b l := Record.sameItems_valuesOf.mp hlb
  -- these two are equal, so they are one
  have hal : Record.EqualIn columns a l := hab.trans_same hbl (hr a ha)
  have hlk : Record.EqualIn columns l k := (hal.symm (hr a ha) hwl).trans_same hak hwl
  rw [← heq] at hk hl
  obtain rfl : k = l := by
    apply eq_of_mem_firstsFrom hk hl
    · exact Record.allValuesEqual_valuesOf.mpr (hlk.symm hwl hwk)
    · exact Record.allValuesEqual_valuesOf.mpr hlk
  exact hak.trans (hbl.symm (hr b hb) hwl) (hr a ha)

/-- Where equal records are the same, both notions of repetition agree. -/
theorem equalRepeats_eq_sameRepeats (hr : ∀ r ∈ records, Record.WellFormed r)
    (h : CoherentIn columns records) {x y : Record} (hx : x ∈ records) (hy : y ∈ records) :
    equalRepeats columns x y = sameRepeats columns x y := by
  rw [Bool.eq_iff_iff, equalRepeats, sameRepeats, Record.allValuesEqual_valuesOf,
    Record.sameItems_valuesOf]
  constructor
  · intro hequal
    exact (h x hx y hy hequal).symm (hr x hx) (hr y hy)
  · intro hsame
    have hself : Record.EqualIn columns x x := .refl (hr x hx)
    exact hself.trans_same (hsame.symm (hr y hy) (hr x hx)) (hr x hx)

/-- The first records of the groups are the distinct records exactly if equal records are the
same. -/
theorem firsts_eq_distinct_iff (hcolumns : columns ≠ [])
    (hr : ∀ r ∈ records, Record.WellFormed r) :
    firstsFrom (equalRepeats columns) [] records = distinct columns records ↔
      CoherentIn columns records := by
  rw [distinct_eq_firsts hcolumns]
  refine ⟨coherentIn_of_firsts_eq hr, fun h => firstsFrom_congr ?_⟩
  intro x hx y hy
  exact equalRepeats_eq_sameRepeats hr h hx hy

/-- There are as many groups as distinct records exactly if equal records are the same. -/
theorem length_firsts_eq_iff (hcolumns : columns ≠ [])
    (hr : ∀ r ∈ records, Record.WellFormed r) :
    (firstsFrom (equalRepeats columns) [] records).length = (distinct columns records).length ↔
      CoherentIn columns records := by
  rw [← firsts_eq_distinct_iff hcolumns hr]
  constructor
  · exact (firsts_sublist_distinct hcolumns hr).eq_of_length
  · intro heq
    rw [heq]

end ModelGateway
