import Mathlib.Data.List.Forall2
import Mathlib.Data.List.Perm.Subperm
import ModelGateway.Proofs.Json.Entries
import ModelGateway.Json.Source

/-!
# Well-formed values

A JSON value is well formed (`Json.WellFormed`) if no object in it repeats a name. Every value that
is read from a text is (`Source.wellFormed_of_toJson?`). On well-formed values equality up to the
order of names is reflexive (`Json.same_refl`), symmetric (`Json.same_symm`) and transitive
(`Json.same_trans`); where names repeat it is neither reflexive nor symmetric, since a lookup sees
the first entry of a name alone.
-/

namespace ModelGateway

namespace Json

/-- No object in the value repeats a name. -/
inductive WellFormed : Json → Prop
  | null : WellFormed .null
  | bool (b : Bool) : WellFormed (.bool b)
  | num (n : Number) : WellFormed (.num n)
  | str (s : String) : WellFormed (.str s)
  | arr {items : List Json} (items_wellFormed : ∀ x ∈ items, WellFormed x) : WellFormed (.arr items)
  | obj {entries : List (String × Json)} (names_nodup : (Entries.names entries).Nodup)
      (values_wellFormed : ∀ e ∈ entries, WellFormed e.2) : WellFormed (.obj entries)

attribute [simp] WellFormed.null WellFormed.bool WellFormed.num WellFormed.str

/-- A list is well formed if its items are. -/
@[simp] theorem wellFormed_arr {items : List Json} :
    (Json.arr items).WellFormed ↔ ∀ x ∈ items, x.WellFormed :=
  ⟨fun | .arr h => h, .arr⟩

/-- An object is well formed if its names differ and its values are well formed. -/
@[simp] theorem wellFormed_obj {entries : List (String × Json)} :
    (Json.obj entries).WellFormed ↔
      (Entries.names entries).Nodup ∧ ∀ e ∈ entries, e.2.WellFormed :=
  ⟨fun | .obj hn hv => ⟨hn, hv⟩, fun h => .obj h.1 h.2⟩

/-- What an object holds is well formed. -/
theorem WellFormed.of_get? {value part : Json} {name : String} (h : value.WellFormed)
    (hp : value.get? name = some part) : part.WellFormed := by
  cases h with
  | obj _ hv => exact hv _ (Entries.mem_of_get?_eq_some hp)
  | _ => simp [get?] at hp

/-- A natural number as a value is well formed. -/
@[simp] theorem wellFormed_ofNat (n : Nat) : (Json.ofNat n).WellFormed :=
  .num _

/-- A whole number as a value is well formed. -/
theorem wellFormed_ofInt (n : Int) : (Json.ofInt n).WellFormed := by
  unfold ofInt
  split
  · exact .num _
  · exact .null

/-- A 64-bit whole number as a value. -/
theorem exists_ofInt {n : Int} (hn : IsInt64 n) :
    ∃ x, Json.ofInt n = .num x ∧ x.toInt64? = some n := by
  have hword : IsWord n := by
    unfold IsInt64 at hn
    unfold IsWord
    omega
  refine ⟨.int n hword, ?_, int64?_eq_some_iff.mpr ⟨hn, rfl⟩⟩
  unfold Json.ofInt Number.ofInt?
  rw [dif_pos hword]

/-- A 64-bit whole number as a value is not null. -/
theorem ofInt_ne_null {n : Int} (hn : IsInt64 n) : Json.ofInt n ≠ .null := by
  obtain ⟨x, hx, -⟩ := exists_ofInt hn
  rw [hx]
  exact Json.noConfusion

/-- A double as a value is well formed. -/
theorem wellFormed_ofDouble? (d : Option Double) : (Json.ofDouble? d).WellFormed := by
  cases d with
  | some d => exact .num _
  | none => exact .null

/-! ## Equality up to order -/

/-- Two lists are equal up to order if their items are, place by place. -/
theorem sameItems_iff {xs ys : List Json} :
    sameItems xs ys = true ↔ List.Forall₂ (fun x y => x.same y = true) xs ys := by
  induction xs generalizing ys with
  | nil => cases ys <;> simp [sameItems]
  | cons x xs ih => cases ys <;> simp [sameItems, ih]

/-- Two lists of entries agree if each entry of the first has an equal value in the second. -/
theorem sameEntries_iff {xs ys : List (String × Json)} :
    sameEntries xs ys = true ↔ ∀ e ∈ xs, ∃ y, Entries.get? ys e.1 = some y ∧ e.2.same y := by
  induction xs with
  | nil => simp [sameEntries]
  | cons e rest ih =>
    obtain ⟨k, x⟩ := e
    rw [sameEntries, Bool.and_eq_true, ih, List.forall_mem_cons]
    cases h : Entries.get? ys k <;> simp

/-- A well-formed value is equal to itself. -/
theorem same_refl {a : Json} (h : a.WellFormed) : a.same a = true := by
  induction h with
  | null => rfl
  | bool b => simp [same]
  | num n => cases n <;> simp [same, Number.same, Double.sameValue]
  | str s => simp [same]
  | arr _ ih =>
    rw [same, sameItems_iff, List.forall₂_same]
    exact ih
  | obj hn _ ih =>
    rw [same, beq_self_eq_true, Bool.true_and, sameEntries_iff]
    intro e he
    exact ⟨e.2, (Entries.get?_eq_some_iff_mem hn).mpr he, ih e he⟩

/-- Equality of numbers of one kind does not depend on their order. -/
theorem number_same_comm (x y : Number) : x.same y = y.same x := by
  cases x <;> cases y <;> simp only [Number.same, Double.sameValue] <;> exact Bool.beq_comm

/-- If every name of some entries with different names is a name of as many others, then the two
have the same names. -/
theorem mem_names_of_subset {xs ys : List (String × Json)} (hn : (Entries.names xs).Nodup)
    (hsub : Entries.names xs ⊆ Entries.names ys) (hlen : xs.length = ys.length) {name : String}
    (h : name ∈ Entries.names ys) : name ∈ Entries.names xs := by
  have hle : (Entries.names ys).length ≤ (Entries.names xs).length := by
    simp [Entries.names, hlen]
  exact ((List.subperm_of_subset hn hsub).perm_of_length_le hle).mem_iff.mpr h

/-- Lists are equal the other way round if their items are. -/
theorem forall₂_same_symm {xs ys : List Json}
    (hsymm : ∀ x ∈ xs, ∀ y ∈ ys, x.same y = true → y.same x = true)
    (h : List.Forall₂ (fun x y => x.same y = true) xs ys) :
    List.Forall₂ (fun y x => y.same x = true) ys xs := by
  induction h with
  | nil => exact .nil
  | cons hxy _ ih =>
    refine .cons (hsymm _ List.mem_cons_self _ List.mem_cons_self hxy) (ih ?_)
    intro x hx y hy
    exact hsymm x (List.mem_cons_of_mem _ hx) y (List.mem_cons_of_mem _ hy)

/-- Equality of well-formed values is symmetric. -/
theorem same_symm {a b : Json} (ha : a.WellFormed) (hb : b.WellFormed) (h : a.same b = true) :
    b.same a = true := by
  induction ha generalizing b with
  | null => cases b <;> simp_all [same]
  | bool x => cases b <;> simp_all [same]
  | num x =>
    cases b with
    | num y =>
      rw [same] at h ⊢
      rw [number_same_comm, h]
    | _ => simp [same] at h
  | str x => cases b <;> simp_all [same]
  | @arr xs _ ih =>
    cases b with
    | arr ys =>
      rw [same, sameItems_iff] at h ⊢
      rw [wellFormed_arr] at hb
      exact forall₂_same_symm (fun x hx y hy => ih x hx (hb y hy)) h
    | _ => simp [same] at h
  | @obj xs hn _ ih =>
    cases b with
    | obj ys =>
      rw [same, Bool.and_eq_true, beq_iff_eq, sameEntries_iff] at h ⊢
      rw [wellFormed_obj] at hb
      refine ⟨h.1.symm, ?_⟩
      intro e he
      have hsub : Entries.names xs ⊆ Entries.names ys := by
        intro name hname
        obtain ⟨x, hx, rfl⟩ := List.mem_map.mp hname
        obtain ⟨y, hy, -⟩ := h.2 x hx
        exact Entries.name_mem_names (e := (x.1, y)) (Entries.mem_of_get?_eq_some hy)
      obtain ⟨x, hx, hname⟩ := List.mem_map.mp
        (mem_names_of_subset hn hsub h.1 (Entries.name_mem_names he))
      obtain ⟨y, hy, hxy⟩ := h.2 x hx
      have hye : e.2 = y := by
        have := (Entries.get?_eq_some_iff_mem hb.1).mpr (show (x.1, e.2) ∈ ys from hname ▸ he)
        exact Option.some.inj (this.symm.trans hy)
      refine ⟨x.2, (Entries.get?_eq_some_iff_mem hn).mpr (hname ▸ hx), ?_⟩
      exact ih x hx (hb.2 e he) (hye ▸ hxy)
    | _ => simp [same] at h

/-- Equality of numbers of one kind is transitive. -/
theorem number_same_trans {x y z : Number} (hxy : x.same y = true) (hyz : y.same z = true) :
    x.same z = true := by
  cases y <;> cases x <;> cases z <;>
    simp_all [Number.same, Double.sameValue]

/-- Lists are equal to what lists equal to them are, if their items are. -/
theorem forall₂_same_trans {xs ys zs : List Json}
    (htrans : ∀ x ∈ xs, ∀ y z, x.same y = true → y.same z = true → x.same z = true)
    (hxy : List.Forall₂ (fun x y => x.same y = true) xs ys)
    (hyz : List.Forall₂ (fun y z => y.same z = true) ys zs) :
    List.Forall₂ (fun x z => x.same z = true) xs zs := by
  induction hxy generalizing zs with
  | nil =>
    cases hyz
    exact .nil
  | @cons x y xs ys hxy _ ih =>
    obtain ⟨hx, hxs⟩ := List.forall_mem_cons.mp htrans
    obtain ⟨z, zs, hz, hrest, rfl⟩ := List.forall₂_cons_left_iff.mp hyz
    exact .cons (hx y z hxy hz) (ih hxs hrest)

/-- Equality of well-formed values is transitive. -/
theorem same_trans {a b c : Json} (ha : a.WellFormed) (hab : a.same b = true)
    (hbc : b.same c = true) : a.same c = true := by
  induction ha generalizing b c with
  | null | bool | str => cases b <;> cases c <;> simp_all [same]
  | num x =>
    cases b with
    | num y =>
      cases c with
      | num z => exact number_same_trans hab hbc
      | _ => simp [same] at hbc
    | _ => simp [same] at hab
  | @arr xs _ ih =>
    cases b with
    | arr ys =>
      cases c with
      | arr zs =>
        rw [same, sameItems_iff] at hab hbc ⊢
        exact forall₂_same_trans (fun x hx y z => ih x hx) hab hbc
      | _ => simp [same] at hbc
    | _ => simp [same] at hab
  | @obj xs _ _ ih =>
    cases b with
    | obj ys =>
      cases c with
      | obj zs =>
        rw [same, Bool.and_eq_true, beq_iff_eq, sameEntries_iff] at hab hbc ⊢
        refine ⟨hab.1.trans hbc.1, ?_⟩
        intro e he
        obtain ⟨y, hy, hey⟩ := hab.2 e he
        obtain ⟨z, hz, hyz⟩ := hbc.2 (e.1, y) (Entries.mem_of_get?_eq_some hy)
        exact ⟨z, hz, ih e he hey hyz⟩
      | _ => simp [same] at hbc
    | _ => simp [same] at hab

end Json

/-! ## Values that are read -/

namespace Source

mutual

/-- The value of a tree is well formed: of a repeated name only one entry stays. -/
theorem wellFormed_of_toJson? : {tree : Source} → {value : Json} → tree.toJson? = some value →
    value.WellFormed
  | .null, _, h => by
    cases h
    exact .null
  | .bool b, _, h => by
    cases h
    exact .bool b
  | .num n, _, h => by
    obtain ⟨n, -, rfl⟩ := Option.map_eq_some_iff.mp h
    exact .num n
  | .str s, _, h => by
    obtain ⟨s, -, rfl⟩ := Option.map_eq_some_iff.mp h
    exact .str s
  | .arr level items, _, h => by
    rw [toJson?] at h
    split_ifs at h
    obtain ⟨values, hv, rfl⟩ := Option.map_eq_some_iff.mp h
    exact .arr (wellFormed_of_toJsonItems? hv)
  | .obj level entries, _, h => by
    rw [toJson?] at h
    split_ifs at h
    obtain ⟨pairs, hp, rfl⟩ := Option.map_eq_some_iff.mp h
    refine .obj (Entries.nodup_names_ofList pairs) ?_
    intro e he
    exact wellFormed_of_toJsonEntries? hp e (Entries.mem_ofList he)

/-- The values of items are well formed. -/
theorem wellFormed_of_toJsonItems? : {items : List Source} → {values : List Json} →
    toJsonItems? items = some values → ∀ x ∈ values, x.WellFormed
  | [], _, h => by
    cases h
    exact fun x hx => absurd hx List.not_mem_nil
  | tree :: rest, _, h => by
    simp only [toJsonItems?, Option.pure_def, Option.bind_eq_bind, Option.bind_eq_some_iff,
      Option.some.injEq] at h
    obtain ⟨value, hv, values, hvs, rfl⟩ := h
    exact List.forall_mem_cons.mpr ⟨wellFormed_of_toJson? hv, wellFormed_of_toJsonItems? hvs⟩

/-- The values of entries are well formed. -/
theorem wellFormed_of_toJsonEntries? : {entries : List (Option String × Source)} →
    {pairs : List (String × Json)} → toJsonEntries? entries = some pairs →
    ∀ e ∈ pairs, e.2.WellFormed
  | [], _, h => by
    cases h
    exact fun e he => absurd he List.not_mem_nil
  | (name, tree) :: rest, _, h => by
    simp only [toJsonEntries?, Option.pure_def, Option.bind_eq_bind, Option.bind_eq_some_iff,
      Option.some.injEq] at h
    obtain ⟨name, -, value, hv, pairs, hps, rfl⟩ := h
    exact List.forall_mem_cons.mpr ⟨wellFormed_of_toJson? hv, wellFormed_of_toJsonEntries? hps⟩

end

end Source

end ModelGateway
