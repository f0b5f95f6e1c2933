import ModelGateway.Proofs.Store.CounterLog

/-!
# Numbers that are drawn in ascending order

The numbers that are drawn from a counter ascend, past all numbers that are given before, exactly as
long as none is to be drawn after the last 64-bit number (`Counting.ascends_iff`,
`Store.log_ascends_iff`). A creation may give that number, and then the next one to draw a number
panics (`Store.counter_panics`).
-/

namespace ModelGateway

/-! ## Ascending -/

/-- The greatest number of a log, or zero if it has none that is positive. -/
def greatestNumber (log : List CounterEvent) : Int :=
  (log.filterMap CounterEvent.number?).foldr max 0

/-- The numbers that are drawn ascend, past all numbers that are given before, and each is the
successor of the greatest one before it. There is a number for every draw. -/
structure Ascends (log : List CounterEvent) : Prop where
  greater : ∀ before n after, log = before ++ .drawn n :: after →
    ∀ e ∈ before, ∀ m, e.number? = some m → m < n
  successor : ∀ before n after, log = before ++ .drawn n :: after → n = greatestNumber before + 1
  unfailing : .exhausted ∉ log

variable {log before after : List CounterEvent} {e : CounterEvent} {bound counter later n : Int}

/-- The greatest number of a log with one more event. -/
theorem greatestNumber_concat (log : List CounterEvent) (e : CounterEvent) :
    greatestNumber (log ++ [e]) = (e.number?.elim id max) (greatestNumber log) := by
  unfold greatestNumber
  rw [List.filterMap_append, List.foldr_append]
  have hfold : ∀ (numbers : List Int) (start m : Int),
      numbers.foldr max (max m start) = max m (numbers.foldr max start) := by
    intro numbers start m
    induction numbers with
    | nil => rfl
    | cons n rest ih => rw [List.foldr_cons, ih, List.foldr_cons, max_left_comm]
  cases e with
  | given n | drawn n => exact hfold _ 0 n
  | exhausted => rfl

/-- No number of a log is greater than the greatest one. -/
theorem le_greatestNumber (he : e ∈ log) (hn : e.number? = some n) : n ≤ greatestNumber log := by
  induction log with
  | nil => exact absurd he List.not_mem_nil
  | cons first rest ih =>
    unfold greatestNumber at ih ⊢
    rcases List.mem_cons.mp he with rfl | hmem
    · rw [List.filterMap_cons_some hn]
      exact le_max_left _ _
    · refine (ih hmem).trans ?_
      cases hfirst : first.number? with
      | none => rw [List.filterMap_cons_none hfirst]
      | some m =>
        rw [List.filterMap_cons_some hfirst]
        exact le_max_right _ _

/-- The greatest number of a log is not negative. -/
theorem greatestNumber_nonneg (log : List CounterEvent) : 0 ≤ greatestNumber log := by
  unfold greatestNumber
  induction log.filterMap CounterEvent.number? with
  | nil => exact Int.le_refl 0
  | cons n rest ih => exact ih.trans (le_max_right _ _)

/-- The greatest number is below a positive bound if all numbers are. -/
theorem greatestNumber_lt (hbound : 0 < bound)
    (h : ∀ e ∈ log, ∀ n, e.number? = some n → n < bound) : greatestNumber log < bound := by
  have hnumbers : ∀ n ∈ log.filterMap CounterEvent.number?, n < bound := by
    intro n hn
    obtain ⟨e, he, hn⟩ := List.mem_filterMap.mp hn
    exact h e he n hn
  unfold greatestNumber
  generalize log.filterMap CounterEvent.number? = numbers at hnumbers
  induction numbers with
  | nil => exact hbound
  | cons n rest ih =>
    obtain ⟨hfirst, hothers⟩ := List.forall_mem_cons.mp hnumbers
    exact max_lt hfirst (ih hothers)

/-- A log ascends if each draw gives the successor of the greatest number before it. -/
theorem ascends_of_draws (h : ∀ before e after, log = before ++ e :: after → e.isDraw = true →
    e = .drawn (greatestNumber before + 1)) : Ascends log := by
  have hsuccessor : ∀ before n after, log = before ++ .drawn n :: after →
      n = greatestNumber before + 1 := by
    intro before n after hsplit
    cases h before (.drawn n) after hsplit rfl
    rfl
  refine ⟨?_, hsuccessor, ?_⟩
  · intro before n after hsplit e he m hm
    rw [hsuccessor before n after hsplit]
    exact Int.lt_add_one_of_le (le_greatestNumber he hm)
  · intro hmem
    obtain ⟨before, after, hsplit⟩ := List.append_of_mem hmem
    cases h before .exhausted after hsplit rfl

/-- A draw of a log that ascends gives the successor of the greatest number before it. -/
theorem Ascends.draw_eq (h : Ascends log) (hsplit : log = before ++ e :: after)
    (hdraw : e.isDraw = true) : e = .drawn (greatestNumber before + 1) := by
  cases e with
  | given n => cases hdraw
  | drawn n => rw [h.successor before n after hsplit]
  | exhausted => exact absurd (by simp [hsplit]) h.unfailing

/-- The first part of a log ascends if the log does. -/
theorem Ascends.of_append (h : Ascends (before ++ after)) : Ascends before := by
  refine ascends_of_draws ?_
  intro first e others hsplit hdraw
  have hwhole : before ++ after = first ++ e :: (others ++ after) := by
    rw [hsplit, List.append_assoc, List.cons_append]
  exact h.draw_eq hwhole hdraw

/-- A log ascends with one more event, unless that is a draw that does not give the successor of the
greatest number. -/
theorem Ascends.concat (h : Ascends log)
    (hlast : e.isDraw = true → e = .drawn (greatestNumber log + 1)) : Ascends (log ++ [e]) := by
  refine ascends_of_draws ?_
  intro before e' after hsplit hdraw
  rcases List.eq_nil_or_concat after with rfl | ⟨others, last, rfl⟩
  · -- the draw is the last event
    obtain ⟨rfl, heq⟩ := List.append_inj' hsplit rfl
    obtain rfl := (List.cons.inj heq).1
    exact hlast hdraw
  · rw [List.concat_eq_append, ← List.cons_append, ← List.append_assoc] at hsplit
    have hfirst : log = before ++ e' :: others := (List.append_inj' hsplit rfl).1
    exact h.draw_eq hfirst hdraw

/-! ## Counting in ascending order -/

namespace Counting

/-- After a log that ascends the counter, which starts at zero, is the greatest number. -/
theorem counter_eq_greatestNumber (h : Counting 0 log later) (hascends : Ascends log) :
    later = greatestNumber log := by
  induction log using List.reverseRecOn generalizing later with
  | nil =>
    cases h
    rfl
  | append_singleton rest e ih =>
    obtain ⟨between, hrest, hlast⟩ := h.exists_between
    have hbetween := ih hrest hascends.of_append
    rw [greatestNumber_concat, ← hbetween]
    cases hlast with
    | given _ hafter =>
      cases hafter
      exact max_comm _ _
    | drawn _ hafter =>
      cases hafter
      exact (max_eq_left (Int.le_add_one (Int.le_refl between))).symm
    | exhausted => exact absurd (by simp) hascends.unfailing

/-- A draw after a log that ascends gives the successor of the greatest number, if there is one. -/
theorem draw_eq (h : Counting 0 (before ++ e :: after) later) (hascends : Ascends before)
    (hdraw : e.isDraw = true) :
    e = if IsInt64 (greatestNumber before + 1) then .drawn (greatestNumber before + 1)
      else .exhausted := by
  obtain ⟨between, hbefore, hrest⟩ := h.exists_between
  rw [← hbefore.counter_eq_greatestNumber hascends]
  cases hrest with
  | given => cases hdraw
  | drawn int64 => rw [if_pos int64]
  | exhausted beyond => rw [if_neg beyond]

/-- The greatest number of a log is a 64-bit number. -/
theorem greatestNumber_lt_max (h : Counting 0 log later) :
    greatestNumber log < 9223372036854775808 := by
  refine greatestNumber_lt (by decide) ?_
  intro e he n hn
  exact (h.isInt64_number e he n hn).2

/-- A log ascends exactly if nothing is to be drawn after the last 64-bit number. -/
theorem ascends_iff (h : Counting 0 log later) :
    Ascends log ↔ ∀ before e after, log = before ++ e :: after → e.isDraw = true →
      ∀ e' ∈ before, e'.number? ≠ some 9223372036854775807 := by
  constructor
  · intro hascends before e after hsplit hdraw e' he' hlast
    have hdrawn := hascends.draw_eq hsplit hdraw
    have hint : IsInt64 (greatestNumber before + 1) :=
      h.isInt64_number e (by simp [hsplit]) _ (by rw [hdrawn]; rfl)
    have hle := le_greatestNumber he' hlast
    unfold IsInt64 at hint
    omega
  · intro hbelow
    -- the parts of the log before its draws ascend, one after the other
    induction log using List.reverseRecOn generalizing later with
    | nil =>
      refine ascends_of_draws ?_
      intro before e after hsplit
      simp at hsplit
    | append_singleton rest e ih =>
      obtain ⟨between, hrest, -⟩ := h.exists_between
      have hascends : Ascends rest := by
        refine ih hrest ?_
        intro before e' after hsplit
        refine hbelow before e' (after ++ [e]) ?_
        rw [hsplit, List.append_assoc, List.cons_append]
      refine hascends.concat ?_
      intro hdraw
      have hnumbers := hbelow rest e [] rfl hdraw
      have hlt : greatestNumber rest < 9223372036854775807 := by
        refine greatestNumber_lt (by decide) ?_
        intro e' he' n hn
        have hint := hrest.isInt64_number e' he' n hn
        have hne : n ≠ 9223372036854775807 := fun heq => hnumbers e' he' (heq ▸ hn)
        unfold IsInt64 at hint
        omega
      have hnonneg := greatestNumber_nonneg rest
      have hint : IsInt64 (greatestNumber rest + 1) := by
        unfold IsInt64
        omega
      exact (h.draw_eq hascends hdraw).trans (if_pos hint)

/-- The first draw after the last 64-bit number finds no number. -/
theorem draw_eq_exhausted (h : Counting 0 (before ++ e :: after) later) (hascends : Ascends before)
    (hdraw : e.isDraw = true) (hlast : ∃ e' ∈ before, e'.number? = some 9223372036854775807) :
    e = .exhausted := by
  obtain ⟨e', he', hlast⟩ := hlast
  obtain ⟨between, hbefore, -⟩ := h.exists_between
  have hle := le_greatestNumber he' hlast
  have hlt := hbefore.greatestNumber_lt_max
  have hbeyond : ¬IsInt64 (greatestNumber before + 1) := by
    unfold IsInt64
    omega
  exact (h.draw_eq hascends hdraw).trans (if_neg hbeyond)

end Counting

namespace Store

/-- In a run of calls the numbers that are drawn for a model ascend, past all that are given before,
and there is one for every draw, exactly if none is to be drawn after the last 64-bit number was
given or drawn. The first draw after it finds no number, and a creation that finds none for a column
is one in which the program panics. -/
theorem log_ascends_iff (d : Document) (model : String) (calls : List (Supply × Call)) :
    let log := (ofModels d.models).log model calls
    (Ascends log ↔ ∀ before e after, log = before ++ e :: after → e.isDraw = true →
      ∀ e' ∈ before, e'.number? ≠ some 9223372036854775807) ∧
    (∀ before e after, log = before ++ e :: after → e.isDraw = true → Ascends before →
      (∃ e' ∈ before, e'.number? = some 9223372036854775807) → e = .exhausted) ∧
    ∀ (supply : Supply) (p : Progress) (data : Json),
      .exhausted ∈ p.log supply model data ↔
        (p.create supply model data).2 = .error .counterOverflow := by
  intro log
  obtain ⟨-, hcounting⟩ := moves_log model (ofModels d.models) calls (named_ofModels d.models)
  rw [counterOf_ofModels] at hcounting
  change Counting 0 log _ at hcounting
  refine ⟨hcounting.ascends_iff, ?_, fun supply p data =>
    (p.create_panics_iff supply model data).symm⟩
  intro before e after hsplit hdraw hascends hlast
  rw [hsplit] at hcounting
  exact hcounting.draw_eq_exhausted hascends hdraw hlast

/-- A ticket with the last number is created, and the program panics when the next one is to get a
number. -/
theorem counter_panics :
    let first := Call.execute "ticket" .create
      (.obj [("data", .obj [("id", .ofInt 9223372036854775807)])])
    let second := Call.execute "ticket" .create (.obj [("data", .obj [])])
    let log := (ofModels Tickets.document.models).log "Ticket"
      [(Seats.supply, first), (Seats.supply, second)]
    log = [.given 9223372036854775807, .exhausted] ∧ ¬Ascends log ∧
      ((Tickets.made [first]).execute Seats.supply "ticket" .create
        (.obj [("data", .obj [])])).2 = .error .counterOverflow := by
  intro first second log
  have hlog : log = [.given 9223372036854775807, .exhausted] := rfl
  refine ⟨hlog, ?_, rfl⟩
  intro hascends
  exact hascends.unfailing (by simp [hlog])

end Store

end ModelGateway
