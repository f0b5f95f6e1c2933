import ModelGateway.Query.Reader

/-!
# Productions on known tokens

What the productions of the grammar make of tokens that are known. A production that `Reads` certain
tokens takes all of them and gives one value, wherever the tokens stand and whatever follows them,
a `!` apart: that would still belong to a type. Productions one after the other read their tokens
one after the other (`Reads.bind`), and a list is read from the tokens of its items
(`Reads.itemsUntil`).

Lists end at a bound on the number of their items. The number of tokens is always enough for items
that begin with names (`length_le_flatMap`).
-/

namespace ModelGateway.Query

variable {α β : Type} {ts others : List Token} {t : Token} {c : Char} {s : String} {a : α} {b : β}

/-- Whether no `!` comes first. -/
def Settled (rest : List Placed) : Prop :=
  ∀ p ∈ rest.head?, p.token ≠ .punctuation '!'

/-- From certain tokens a production takes all of them and gives a value. -/
def Reads (step : Step α) (ts : List Token) (a : α) : Prop :=
  ∀ (placed : List Placed) rest, placed.map Placed.token = ts → Settled rest →
    step.run (placed ++ rest) = some (a, rest)

/-- Whether the first token is a name. -/
def NameFirst (ts : List Token) : Prop :=
  ∃ first rest, ts = .name first :: rest

theorem nameFirst_cons (s : String) (ts : List Token) : NameFirst (.name s :: ts) :=
  ⟨s, ts, rfl⟩

section items

variable {tokens : α → List Token} {xs : List α} {x : α}

/-- The tokens of items that begin with names begin with no `!`. -/
theorem settled_of_nameFirst {placed : List Placed} (hname : ∀ x ∈ xs, NameFirst (tokens x))
    (hplaced : placed.map Placed.token = xs.flatMap tokens) : Settled placed := by
  cases xs with
  | nil =>
    rw [List.map_eq_nil_iff.mp hplaced]
    simp [Settled]
  | cons x xs =>
    obtain ⟨first, rest, hx⟩ := hname x List.mem_cons_self
    rw [List.flatMap_cons, hx, List.cons_append] at hplaced
    obtain ⟨t, tail, rfl, ht, -⟩ := List.map_eq_cons_iff.mp hplaced
    intro u hu
    cases hu
    simp [ht]

/-- An item has no more tokens than the list it is in. -/
theorem length_tokens_le (hx : x ∈ xs) : (tokens x).length ≤ (xs.flatMap tokens).length := by
  obtain ⟨before, after, rfl⟩ := List.append_of_mem hx
  simp only [List.flatMap_append, List.flatMap_cons, List.length_append]
  omega

/-- A list has no more items than tokens, if every item begins with a name. -/
theorem length_le_flatMap (hname : ∀ x ∈ xs, NameFirst (tokens x)) :
    xs.length ≤ (xs.flatMap tokens).length := by
  induction xs with
  | nil => exact Nat.le_refl 0
  | cons x xs ih =>
    obtain ⟨⟨first, rest, hx⟩, hxs⟩ := List.forall_mem_cons.mp hname
    have hmore := ih hxs
    rw [List.flatMap_cons, List.length_append, hx, List.length_cons, List.length_cons]
    omega

end items

namespace Reads

/-! ## Sequences -/

theorem pure (a : α) : Reads (Pure.pure a) [] a := by
  intro placed rest hplaced _
  rw [List.map_eq_nil_iff.mp hplaced]
  rfl

/-- Two productions read the tokens of both, if those of the second begin with no `!`. -/
theorem bind {step : Step α} {f : α → Step β} (h : Reads step ts a)
    (h' : Reads (f a) others b) (hfirst : others.head? ≠ some (.punctuation '!')) :
    Reads (step >>= f) (ts ++ others) b := by
  intro placed rest hplaced hrest
  obtain ⟨front, back, rfl, hfront, hback⟩ := List.map_eq_append_iff.mp hplaced
  -- what follows the first production begins with the tokens of the second, if it has any
  have hsettled : Settled (back ++ rest) := by
    cases back with
    | nil => exact hrest
    | cons p back =>
      intro q hq heq
      cases hq
      rw [← hback] at hfirst
      exact hfirst (congrArg some heq)
  rw [StateT.run_bind, List.append_assoc, h front (back ++ rest) hfront hsettled]
  exact h' back rest hback hrest

/-- A production of which the last step takes nothing. -/
theorem map {step : Step α} (h : Reads step ts a) (f : α → β) :
    Reads (step >>= fun x => Pure.pure (f x)) ts (f a) := by
  have hboth := h.bind (f := fun x => Pure.pure (f x)) (pure (f a)) (by simp)
  rwa [List.append_nil] at hboth

/-! ## Single tokens -/

/-- A step that takes one token, before productions that read the others. -/
theorem cons_bind {step : Step α} {f : α → Step β}
    (hstep : ∀ position rest, step.run (⟨t, position⟩ :: rest) = some (a, rest))
    (h : Reads (f a) ts b) : Reads (step >>= f) (t :: ts) b := by
  intro placed rest hplaced hrest
  obtain ⟨⟨u, position⟩, tail, rfl, hu, htail⟩ := List.map_eq_cons_iff.mp hplaced
  cases hu
  rw [StateT.run_bind, List.cons_append, hstep]
  exact h tail rest htail hrest

theorem name_bind {f : String → Step β} (h : Reads (f s) ts b) :
    Reads (Step.name >>= f) (.name s :: ts) b :=
  cons_bind (fun _ _ => rfl) h

theorem name : Reads Step.name [.name s] s := by
  rw [← bind_pure Step.name]
  exact name_bind (pure s)

theorem word_bind {f : Unit → Step β} (h : Reads (f ()) ts b) :
    Reads (Step.word s >>= f) (.name s :: ts) b :=
  cons_bind (fun position rest => by simp [Step.word, StateT.run_bind, Step.name, Step.next]) h

theorem punctuation_bind {f : Unit → Step β} (h : Reads (f ()) ts b) :
    Reads (Step.punctuation c >>= f) (.punctuation c :: ts) b :=
  cons_bind (fun position rest => by
    simp [Step.punctuation, Step.next, Step.isPunctuation, StateT.run_bind]) h

/-- A punctuation that comes next is taken. -/
theorem accept_bind {f : Bool → Step β} (h : Reads (f true) ts b) :
    Reads (Step.accept c >>= f) (.punctuation c :: ts) b :=
  cons_bind (fun position rest => by
    simp [Step.accept, Step.isNext, Step.peek?, Step.punctuation, Step.next, Step.isPunctuation,
      StateT.run_bind]) h

/-- A punctuation that does not come next is not taken. -/
theorem run_accept_of_ne {placed : List Placed}
    (h : ∀ p ∈ placed.head?, p.token ≠ .punctuation c) :
    (Step.accept c).run placed = some (false, placed) := by
  have hfirst : (placed.head?.map (Step.isPunctuation c)).getD false = false := by
    cases placed with
    | nil => rfl
    | cons p rest =>
      have hp := h p rfl
      simp only [List.head?_cons, Option.map_some, Option.getD_some, Step.isPunctuation]
      split
      · rename_i d hd
        refine beq_eq_false_iff_ne.mpr fun heq => hp ?_
        rw [hd, heq]
      · rfl
  simp [Step.accept, Step.isNext, Step.peek?, StateT.run_bind, hfirst]

/-- At another token than the punctuation a production goes on without it. -/
theorem accept_bind_of_ne {f : Bool → Step β} (ht : t ≠ .punctuation c)
    (h : Reads (f false) (t :: ts) b) : Reads (Step.accept c >>= f) (t :: ts) b := by
  intro placed rest hplaced hrest
  have hfirst : ∀ p ∈ (placed ++ rest).head?, p.token ≠ .punctuation c := by
    obtain ⟨q, tail, rfl, hq, -⟩ := List.map_eq_cons_iff.mp hplaced
    intro p hp
    cases hp
    rw [hq]
    exact ht
  rw [StateT.run_bind, run_accept_of_ne hfirst]
  exact h placed rest hplaced hrest

/-! ## Lists -/

/-- Items up to a closing punctuation are read from the tokens of each, if every item begins with a
name. -/
theorem itemsUntil {item : Step β} {tokens : α → List Token} {value : α → β} {xs : List α}
    {limit : Nat} (hitem : ∀ x ∈ xs, Reads item (tokens x) (value x))
    (hname : ∀ x ∈ xs, NameFirst (tokens x)) (hlimit : xs.length < limit) (hc : c ≠ '!') :
    Reads (Step.itemsUntil c item limit) (xs.flatMap tokens ++ [.punctuation c])
      (xs.map value) := by
  induction xs generalizing limit with
  | nil =>
    obtain ⟨limit, rfl⟩ := Nat.exists_eq_succ_of_ne_zero (Nat.ne_of_gt hlimit)
    rw [Step.itemsUntil]
    exact accept_bind (pure [])
  | cons x xs ih =>
    obtain ⟨limit, rfl⟩ := Nat.exists_eq_succ_of_ne_zero (Nat.ne_zero_of_lt hlimit)
    obtain ⟨hx, hxs⟩ := List.forall_mem_cons.mp hitem
    obtain ⟨⟨first, rest, hfirst⟩, hnames⟩ := List.forall_mem_cons.mp hname
    have hmore := ih hxs hnames (Nat.lt_of_succ_lt_succ hlimit)
    -- an item that ends in a type is followed by a name or by the closing punctuation
    have hhead : (xs.flatMap tokens ++ [Token.punctuation c]).head? ≠
        some (Token.punctuation '!') := by
      cases xs with
      | nil => simpa using hc
      | cons y ys =>
        obtain ⟨first, rest, hy⟩ := hnames y List.mem_cons_self
        simp [hy]
    have hboth := hx.bind (f := fun x => do return x :: (← Step.itemsUntil c item limit))
      (hmore.map (value x :: ·)) hhead
    rw [Step.itemsUntil, List.flatMap_cons, List.append_assoc, List.map_cons]
    rw [hfirst] at hboth ⊢
    exact accept_bind_of_ne (by simp) hboth

/-! ## Types -/

/-- A `!` after a type. -/
theorem required_nonNull (type : TypeRef) :
    Reads (Step.required type) [.punctuation '!'] (.nonNull type) :=
  accept_bind (pure type.nonNull)

/-- No `!` after a type. -/
theorem required_nullable (type : TypeRef) : Reads (Step.required type) [] type := by
  intro placed rest hplaced hrest
  rw [List.map_eq_nil_iff.mp hplaced, Step.required, StateT.run_bind, List.nil_append,
    run_accept_of_ne hrest]
  rfl

/-- A name, and perhaps a `!`. -/
theorem typeRef_named {type : TypeRef} (limit : Nat)
    (h : Reads (Step.required (.named s)) ts type) :
    Reads (Step.typeRef (limit + 1)) (.name s :: ts) type := by
  rw [Step.typeRef]
  exact accept_bind_of_ne (by simp) (name_bind h)

/-- A name in brackets, and perhaps a `!`. -/
theorem typeRef_list {type : TypeRef} (limit : Nat)
    (h : Reads (Step.required (.list (.named s))) ts type) :
    Reads (Step.typeRef (limit + 2)) (.punctuation '[' :: .name s :: .punctuation ']' :: ts)
      type := by
  have hitem : Reads (Step.typeRef (limit + 1)) [.name s] (.named s) :=
    typeRef_named limit (required_nullable _)
  rw [Step.typeRef]
  exact accept_bind (hitem.bind (punctuation_bind h) (by simp))

end Reads

end ModelGateway.Query
