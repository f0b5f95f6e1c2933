import Mathlib.Data.List.Zip
import ModelGateway.Proofs.Store.Select
import ModelGateway.Proofs.Store.Sound

/-!
# The two sides of a relation

One model of a relation holds its foreign key, in a single field; a list field of the other model is
the other side (`Model.Sides`).

* **Joins** (`Table.joined`): following a relation from a record leads to the rows that it is joined
  to by pairs of columns (`Store.related_eq_joined`), and the same pairs the other way round join
  them back (`Record.joins_swap`).
* **Pairs** (`Model.Sides.joinPairs_many`): from the list side the foreign key is found, also if
  both sides are fields of one model.
* **Reachable stores** (`Store.Reachable.related_inverse`): a row leads to another from one side
  exactly if that one leads to it from the other. On the single side this takes that no two rows
  agree on the columns that the key refers to, since only the first counts there.
-/

namespace ModelGateway

/-! ## Joins -/

namespace Record

/-- Whether a record has the values of another one, none of them null, where pairs say: the column
of the record, then that of the other. -/
def joins (pairs : List (String × String)) (r other : Record) : Bool :=
  pairs.all fun p =>
    !(value other p.2).isNull && valuesEqual (value r p.1) (value other p.2)

variable {pairs : List (String × String)} {r other : Record}

/-- The columns in which joined records are equal. -/
theorem joins_iff : joins pairs r other = true ↔
    ∀ p ∈ pairs, value other p.2 ≠ .null ∧ valuesEqual (value r p.1) (value other p.2) = true := by
  simp [joins, ← Json.isNull_iff]

/-- A record is joined to another if that is joined to it by the same pairs the other way round. -/
theorem joins_of_swap (hr : WellFormed r) (ho : WellFormed other)
    (h : joins (pairs.map Prod.swap) other r = true) : joins pairs r other = true := by
  refine joins_iff.mpr fun p hp => ?_
  obtain ⟨hne, heq⟩ := joins_iff.mp h p.swap (List.mem_map_of_mem hp)
  rw [Prod.fst_swap, Prod.snd_swap] at heq
  rw [Prod.snd_swap] at hne
  have hback := valuesEqual_symm (ho.value p.2) (hr.value p.1) heq
  refine ⟨fun hnull => hne ?_, hback⟩
  rw [hnull] at hback
  exact eq_null_of_valuesEqual_null hback

/-- Two records are joined by the same pairs the other way round if they are joined. -/
theorem joins_swap (hr : WellFormed r) (ho : WellFormed other) :
    joins (pairs.map Prod.swap) other r = joins pairs r other := by
  rw [Bool.eq_iff_iff]
  refine ⟨joins_of_swap hr ho, fun h => joins_of_swap ho hr ?_⟩
  rwa [List.map_map, Prod.swap_swap_eq, List.map_id]

/-- Records that are joined to one record by the same columns are equal in them, if their values
are plain. -/
theorem valuesEqual_of_joins {columns sources : List String} {r' : Record}
    (hlength : columns.length ≤ sources.length) (hr' : WellFormed r') (ho : WellFormed other)
    (hplain : ∀ column ∈ columns, (value r column).isPlain ∧ (value r' column).isPlain)
    (hsource : ∀ column ∈ sources, (value other column).isPlain)
    (h : joins (columns.zip sources) r other = true)
    (h' : joins (columns.zip sources) r' other = true) :
    ∀ column ∈ columns, valuesEqual (value r column) (value r' column) = true := by
  intro column hc
  obtain ⟨⟨_, source⟩, hp, rfl⟩ : ∃ p ∈ columns.zip sources, p.1 = column := by
    rwa [← List.map_fst_zip hlength, List.mem_map] at hc
  have heq := (joins_iff.mp h _ hp).2
  have heq' := valuesEqual_symm (hr'.value _) (ho.value _) (joins_iff.mp h' _ hp).2
  obtain ⟨hplain, hplain'⟩ := hplain _ hc
  exact valuesEqual_trans hplain (hsource source (List.of_mem_zip hp).2) hplain' heq heq'

end Record

/-- The rows of a table that pairs of columns join to a record. -/
def Table.joined (t : Table) (pairs : List (String × String)) (r : Record) : List (RowKey × Row) :=
  t.rows.filter fun e => Record.joins pairs e.2.data r

namespace Store

variable {s : Store} {t target : Table} {r other : Record} {field : Field} {args : Json}
  {pairs : List (String × String)}

/-- A record passes the filter that a join makes of another one if it is joined to it; there is no
filter if a value is null. -/
theorem joinValues?_any (r other : Record) (pairs : List (String × String)) :
    ((joinValues? other pairs).any fun values => (Filter.allEqual values).matches r) =
      Record.joins pairs r other := by
  induction pairs with
  | nil => rfl
  | cons p rest ih =>
    obtain ⟨column, source⟩ := p
    have hrest : Record.joins ((column, source) :: rest) r other =
        (!(Record.value other source).isNull &&
          valuesEqual (Record.value r column) (Record.value other source) &&
            Record.joins rest r other) := rfl
    rw [hrest, ← ih, joinValues?]
    split
    · rename_i hnull
      simp [hnull, Json.isNull]
    · rename_i value hnull
      have hgiven : (Record.value other source).isNull = false := by
        rwa [← Bool.not_eq_true, Json.isNull_iff]
      cases joinValues? other rest with
      | none => simp
      | some values =>
        simp [hgiven, Filter.allEqual, Filter.matches, Filter.matchesAll, Filter.matches_equals]

/-- The records that have the values that another one is joined to are those of the joined rows. -/
theorem records_filter_joinValues? (target : Table) (r : Record) (pairs : List (String × String)) :
    target.records.filter (fun r' =>
      (joinValues? r pairs).any fun values => (Filter.allEqual values).matches r') =
      (target.joined pairs r).map (·.2.data) := by
  rw [Table.joined, Table.records, List.filter_map]
  exact congrArg _ (List.filter_congr fun e _ => joinValues?_any e.2.data r pairs)

/-- A list relation leads to the rows that its pairs join, of these to the ones that pass the filter
of the `where`, if the arguments ask for no order and no page. -/
theorem related_list (ht : s.tableOf field.typeName = .ok target)
    (hp : joinPairs t.model field target.model = .ok pairs) (hlist : field.isList = true)
    (ha : args.Unpaged) {filter : Filter}
    (hw : Filter.ofArgument target.model (args.get? "where") = .ok filter) :
    s.related t r field args =
      .ok (.many target (((target.joined pairs r).map (·.2.data)).filter filter.matches)) := by
  rw [← records_filter_joinValues?, related, ht]
  simp only [bind, Except.bind, hp, hlist, if_true]
  cases joinValues? r pairs with
  | none => simp [pure, Except.pure]
  | some values =>
    simp only [Table.select_eq_filter ha, hw, Except.map, pure, Except.pure, Option.any_some,
      Option.all_some, List.filter_filter]
    simp only [Bool.and_comm]

/-- A single relation leads to the first row that its pairs join, whatever the arguments. -/
theorem related_single (ht : s.tableOf field.typeName = .ok target)
    (hp : joinPairs t.model field target.model = .ok pairs) (hsingle : field.isList = false)
    (args : Json) :
    s.related t r field args =
      .ok (.one target ((target.joined pairs r).head?.map (·.2.data))) := by
  have ha : Json.null.Unpaged := fun _ _ => rfl
  rw [← List.head?_map, ← records_filter_joinValues?, related, ht]
  simp only [bind, Except.bind, hp, hsingle, Bool.false_eq_true, if_false]
  cases joinValues? r pairs with
  | none => simp [pure, Except.pure]
  | some values =>
    have hwhere : Filter.ofArgument target.model (Json.null.get? "where") = .ok .all := rfl
    simp [Table.select_eq_filter ha, hwhere, Except.map, pure, Except.pure, Filter.matches]

/-- Without arguments a list relation leads to the rows that its pairs join, and a single one to the
first of them. -/
theorem related_eq_joined (ht : s.tableOf field.typeName = .ok target)
    (hp : joinPairs t.model field target.model = .ok pairs) (ha : ∀ name, args.get? name = none) :
    s.related t r field args = .ok (
      if field.isList then .many target ((target.joined pairs r).map (·.2.data))
      else .one target ((target.joined pairs r).head?.map (·.2.data))) := by
  have hw : Filter.ofArgument target.model (args.get? "where") = .ok .all := by
    rw [ha]
    rfl
  have hall : Filter.all.matches = fun _ => true := by
    funext r
    rw [Filter.matches]
  cases hlist : field.isList
  · exact related_single ht hp hlist args
  · rw [related_list ht hp hlist (fun name _ => ha name) hw, hall, List.filter_true]
    rfl

end Store

/-! ## Pairs -/

/-- A field with a foreign key joins the columns that the key refers to. -/
theorem Store.joinPairs_holder {field : Field} (h : field.fromFields ≠ []) (source target : Model) :
    joinPairs source field target = .ok (field.toFields.zip field.fromFields) := by
  rw [joinPairs, if_neg (by simpa using h)]

namespace Model

/-- A relation of which `one` is the single side, with the foreign key, and `many` the list side:
fields of the models `holder` and `target`. No other field of the holder has a foreign key for the
relation. -/
structure Sides (holder target : Model) (one many : Field) : Prop where
  one_mem : one ∈ holder.fields
  many_mem : many ∈ target.fields
  names_nodup : (holder.fields.map (·.name)).Nodup
  one_type : one.typeName = target.name
  many_type : many.typeName = holder.name
  one_single : one.isList = false
  many_list : many.isList = true
  same_relation : one.relationName = many.relationName
  from_given : one.fromFields ≠ []
  lengths : one.fromFields.length = one.toFields.length
  many_from : many.fromFields = []
  only : ∀ f ∈ holder.fields, f.typeName = target.name → f.relationName = one.relationName →
    f.fromFields ≠ [] → f = one

namespace Sides

variable {holder target : Model} {one many : Field}

/-- The single side joins the columns that its key refers to. -/
theorem joinPairs_one (h : Sides holder target one many) :
    Store.joinPairs holder one target = .ok (one.toFields.zip one.fromFields) :=
  Store.joinPairs_holder h.from_given holder target

/-- The list side finds the foreign key and joins by it the other way round, also if both sides
are fields of one model. -/
theorem joinPairs_many (h : Sides holder target one many)
    (hsame : holder.name = target.name → holder = target) :
    Store.joinPairs target many holder = .ok (one.fromFields.zip one.toFields) := by
  -- the list side itself has no foreign key, so it is another field than the single side
  have hother : ¬(holder.name = target.name ∧ one.name = many.name) := by
    rintro ⟨hmodel, hname⟩
    obtain rfl := hsame hmodel
    have heq : one = many :=
      List.inj_on_of_nodup_map h.names_nodup h.one_mem h.many_mem hname
    exact h.from_given (heq ▸ h.many_from)
  have howning : Store.isOwningSide target many holder one = true := by
    simpa [Store.isOwningSide, h.same_relation, h.one_type, h.from_given] using not_and_or.mp hother
  have hfind : holder.fields.find? (Store.isOwningSide target many holder) = some one := by
    obtain ⟨f, hf⟩ := Option.isSome_iff_exists.mp
      (List.find?_isSome.mpr ⟨one, h.one_mem, howning⟩)
    have hside := List.find?_some hf
    simp only [Store.isOwningSide, Bool.and_eq_true, beq_iff_eq, Bool.not_eq_true',
      List.isEmpty_eq_false_iff] at hside
    obtain ⟨⟨⟨hrelation, htype⟩, hfrom⟩, -⟩ := hside
    rw [hf, h.only f (List.mem_of_find?_eq_some hf) htype (hrelation.trans h.same_relation.symm)
      hfrom]
  rw [Store.joinPairs, if_pos (by simp [h.many_from]), hfind]

end Sides

end Model

/-! ## Reachable stores -/

namespace Store

variable {d : Document} {s : Store} {holder target : Table} {holderName targetName : String}
  {one many : Field} {args : Json}

/-- Following the two sides of a relation leads to rows, and a row leads to another from one side
exactly if that one leads to it from the other. -/
structure Inverse (s : Store) (holder target : Table) (one many : Field) (args : Json) : Prop where
  single : ∀ a ∈ holder.rows, s.related holder a.2.data one args =
    .ok (.one target
      ((target.joined (one.toFields.zip one.fromFields) a.2.data).head?.map (·.2.data)))
  list : ∀ b ∈ target.rows, s.related target b.2.data many args =
    .ok (.many holder
      ((holder.joined (one.fromFields.zip one.toFields) b.2.data).map (·.2.data)))
  inverse : ∀ a ∈ holder.rows, ∀ b ∈ target.rows,
    (target.joined (one.toFields.zip one.fromFields) a.2.data).head? = some b ↔
      a ∈ holder.joined (one.fromFields.zip one.toFields) b.2.data

/-- In a reachable store the two sides of a relation are inverse, if the columns that it joins hold
nulls, texts and 64-bit whole numbers and those that the key refers to tell rows apart. -/
theorem Reachable.related_inverse (hd : d.WellFormed) (h : Reachable d s)
    (hholder : s.tableOf holderName = .ok holder) (htarget : s.tableOf targetName = .ok target)
    (sides : Model.Sides holder.model target.model one many)
    (hfrom : ∀ a ∈ holder.rows, ∀ column ∈ one.fromFields, (Record.value a.2.data column).isPlain)
    (hto : ∀ b ∈ target.rows, ∀ column ∈ one.toFields, (Record.value b.2.data column).isPlain)
    (hapart : target.rows.Pairwise fun b b' => ¬ ∀ column ∈ one.toFields,
      valuesEqual (Record.value b.2.data column) (Record.value b'.2.data column) = true)
    (ha : ∀ name, args.get? name = none) : s.Inverse holder target one many args := by
  have hs := h.sound hd
  obtain rfl : holder.model.name = holderName := hs.named holderName holder hholder
  obtain rfl : target.model.name = targetName := hs.named targetName target htarget
  have hsame : holder.model.name = target.model.name → holder.model = target.model := by
    intro hname
    rw [hname, htarget] at hholder
    exact congrArg Table.model (Except.ok.inj hholder).symm
  refine ⟨fun a _ => ?_, fun b _ => ?_, fun a ha b hb => ?_⟩
  · rw [related_eq_joined (sides.one_type ▸ htarget) sides.joinPairs_one ha, sides.one_single,
      if_neg Bool.false_ne_true]
  · rw [related_eq_joined (sides.many_type ▸ hholder) (sides.joinPairs_many hsame) ha,
      sides.many_list, if_pos rfl]
  -- the two rows are joined from the one side exactly if they are from the other
  have hswap : ∀ b ∈ target.rows,
      Record.joins (one.fromFields.zip one.toFields) a.2.data b.2.data =
        Record.joins (one.toFields.zip one.fromFields) b.2.data a.2.data := by
    intro b hb
    rw [← List.zip_swap one.toFields one.fromFields]
    exact Record.joins_swap ((hs.table _ target htarget).wellFormed b hb)
      ((hs.table _ holder hholder).wellFormed a ha)
  constructor
  · intro hhead
    have hjoined := (List.mem_filter.mp (List.mem_of_head? hhead)).2
    exact List.mem_filter.mpr ⟨ha, by rw [hswap b hb, hjoined]⟩
  · intro hmem
    have hb' : b ∈ target.joined (one.toFields.zip one.fromFields) a.2.data :=
      List.mem_filter.mpr ⟨hb, by rw [← hswap b hb]; exact (List.mem_filter.mp hmem).2⟩
    -- another first row would agree with `b` on what the key refers to
    cases hfirst : target.joined (one.toFields.zip one.fromFields) a.2.data with
    | nil => exact absurd (hfirst ▸ hb') List.not_mem_nil
    | cons first rest =>
      have hsub : (first :: rest).Sublist target.rows := hfirst ▸ List.filter_sublist
      obtain ⟨hf, hjoins⟩ := List.mem_filter.mp (hfirst ▸ List.mem_cons_self)
      rcases List.mem_cons.mp (hfirst ▸ hb') with rfl | hrest
      · rfl
      refine absurd ?_ ((List.pairwise_cons.mp (hapart.sublist hsub)).1 b hrest)
      exact Record.valuesEqual_of_joins (Nat.le_of_eq sides.lengths.symm)
        ((hs.table _ target htarget).wellFormed b hb) ((hs.table _ holder hholder).wellFormed a ha)
        (fun column hc => ⟨hto first hf column hc, hto b hb column hc⟩) (hfrom a ha) hjoins
        (List.mem_filter.mp hb').2

/-! ## Desks -/

namespace Desks

/-- A relation between desks. -/
def relation (name : String) (isList : Bool) : Field :=
  { Seats.column name false with
    kind := .object
    typeName := "Desk"
    isList := isList
    relationName := some "Neighbours" }

/-- The desk to the left, by its row and its number. -/
def left : Field :=
  { relation "left" false with
    fromFields := ["leftRow", "leftNumber"]
    toFields := ["row", "number"] }

/-- The desks that have a desk to their left. -/
def right : Field :=
  relation "right" true

/-- A desk is identified by its row and its number in the row. -/
def model : Model where
  name := "Desk"
  fields := [
    Seats.column "row" true, Seats.column "number" true, Seats.column "leftRow" false,
    Seats.column "leftNumber" false, right, left]
  primaryKey := some { name := none, fields := ["row", "number"] }

/-- The document with desks alone. -/
def document : Document :=
  { Seats.document with models := [model] }

/-- The creation of a desk. -/
def creation (row number leftRow leftNumber : Json) : Call :=
  .execute "desk" .create (.obj [("data", .obj [("row", row), ("number", number),
    ("leftRow", leftRow), ("leftNumber", leftNumber)])])

/-- A desk with two others to its right, and one of whose left half of the key is known. -/
def office : Store :=
  [creation (.ofNat 1) (.ofNat 1) .null .null,
    creation (.ofNat 1) (.ofNat 2) (.ofNat 1) (.ofNat 1),
    creation (.ofNat 1) (.ofNat 3) (.ofNat 1) .null,
    creation (.ofNat 2) (.ofNat 1) (.ofNat 1) (.ofNat 1)].foldl
      (fun s c => s.after Seats.supply c) (ofModels document.models)

/-- The desks of the office. -/
def rows : List (RowKey × Row) := [
  (.values [.ofNat 1, .ofNat 1], ⟨1, [("row", .ofNat 1), ("number", .ofNat 1),
    ("leftRow", .null), ("leftNumber", .null)]⟩),
  (.values [.ofNat 1, .ofNat 2], ⟨2, [("row", .ofNat 1), ("number", .ofNat 2),
    ("leftRow", .ofNat 1), ("leftNumber", .ofNat 1)]⟩),
  (.values [.ofNat 1, .ofNat 3], ⟨3, [("row", .ofNat 1), ("number", .ofNat 3),
    ("leftRow", .ofNat 1), ("leftNumber", .null)]⟩),
  (.values [.ofNat 2, .ofNat 1], ⟨4, [("row", .ofNat 2), ("number", .ofNat 1),
    ("leftRow", .ofNat 1), ("leftNumber", .ofNat 1)]⟩)]

/-- The columns of desks have no defaults. -/
theorem document_wellFormed : document.WellFormed := by
  simp [Document.WellFormed, Model.WellFormed, Field.WellFormed, document, model, left, right,
    relation, Seats.column]

/-- The office is reached by creating its desks. -/
theorem reachable_office : Reachable document office :=
  Reachable.start.foldl Seats.supply (by simp [creation, Call.WellFormed, Entries.names])

/-- The left of a desk and its right are the sides of one relation. -/
theorem sides : Model.Sides model model left right where
  one_mem := by decide
  many_mem := by decide
  names_nodup := by decide
  one_type := rfl
  many_type := rfl
  one_single := rfl
  many_list := rfl
  same_relation := rfl
  from_given := by decide
  lengths := rfl
  many_from := rfl
  only := by decide

end Desks

/-- Two desks have the first one to their left, and it has these two to its right. -/
theorem desks_related_inverse :
    let s := Desks.office
    let t : Table := { Table.empty Desks.model with rows := Desks.rows, nextSequence := 5 }
    Desks.document.WellFormed ∧ Reachable Desks.document s ∧ s.tableOf "Desk" = .ok t ∧
      Model.Sides t.model t.model Desks.left Desks.right ∧
      (∀ a ∈ t.rows, ∀ column ∈ Desks.left.fromFields,
        (Record.value a.2.data column).isPlain) ∧
      (∀ b ∈ t.rows, ∀ column ∈ Desks.left.toFields, (Record.value b.2.data column).isPlain) ∧
      (t.rows.Pairwise fun b b' => ¬ ∀ column ∈ Desks.left.toFields,
        valuesEqual (Record.value b.2.data column) (Record.value b'.2.data column) = true) ∧
      (t.rows.map fun b => (t.joined (Desks.left.fromFields.zip Desks.left.toFields)
        b.2.data).map (·.2.sequence)) = [[2, 4], [], [], []] ∧
      s.Inverse t t Desks.left Desks.right (.obj []) := by
  intro s t
  have hs : Reachable Desks.document s := Desks.reachable_office
  have ht : s.tableOf "Desk" = .ok t := rfl
  have hfrom : ∀ a ∈ t.rows, ∀ column ∈ Desks.left.fromFields,
      (Record.value a.2.data column).isPlain := by decide
  have hto : ∀ b ∈ t.rows, ∀ column ∈ Desks.left.toFields,
      (Record.value b.2.data column).isPlain := by decide
  have hapart : t.rows.Pairwise fun b b' => ¬ ∀ column ∈ Desks.left.toFields,
      valuesEqual (Record.value b.2.data column) (Record.value b'.2.data column) = true := by
    decide
  exact ⟨Desks.document_wellFormed, hs, ht, Desks.sides, hfrom, hto, hapart, rfl,
    hs.related_inverse Desks.document_wellFormed ht ht Desks.sides hfrom hto hapart fun _ => rfl⟩

end Store

end ModelGateway
