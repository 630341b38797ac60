import Aixinwu.Lib.Interleaving
import Aixinwu.Payment.EventReportRuns

/-!
# Reports at the same time

A payment app reports over several connections. `TransactionEventReport.perform_mutation` is cut
here at its reads and writes, under `READ COMMITTED`: an inserted event has its primary key at once
and is seen by others when its transaction commits; the lookup locks the event it finds, waits
while another report has it locked, and locks nothing if it finds none.

Nothing happens between the lookup that finds no event and the insert, so two reports can both find
none; and the amounts are computed from events read in a statement of its own and written in
another, so they can be those of a moment that is over. A run in which neither happens keeps the
events unique and the amounts up to date (`reports_consistent`): as long as some report has
committed its event and not yet written the amounts, they may lag behind, and that is all.

## Main definitions

* `Shared`, `Thread`, `advance`
* `Consistent` — what should hold when all have finished
* `Unraced` — an insert and a write find what was read

## Main results

* `alone_report` — a report that is not interrupted is the one of `performMutation`
* `reports_consistent`
-/

namespace Aixinwu

namespace EventReports

open Payment Runs Interleaving

/-- A row of the events, which may be not committed yet. -/
structure Row where
  pk : ℕ
  event : TransactionEvent
  committed : Bool := true
deriving DecidableEq, Repr

/-- The transaction, its events by primary key, and the keys of the locked ones. -/
structure Shared where
  transaction : TransactionItem := {}
  rows : List Row := []
  locked : List ℕ := []

/-- What a statement sees of the events. -/
def Shared.visible (s : Shared) : List TransactionEvent :=
  (s.rows.filter (·.committed)).map (·.event)

/-- `get_already_existing_event`, the row. -/
def Shared.lookup (s : Shared) (event : TransactionEvent) : Option Row :=
  if RecordOnly event.type then none
  else (s.rows.filter (·.committed)).find? fun row => key row.event = key event

/-- Insert an event; the key comes from a sequence. -/
def Shared.insert (s : Shared) (event : TransactionEvent) (committed : Bool) : Shared :=
  { s with rows := s.rows ++ [{ pk := s.rows.length, event, committed }] }

/-- Commit the insert of a row. -/
def Shared.commit (s : Shared) (pk : ℕ) : Shared :=
  { s with
    rows := s.rows.map fun row => if row.pk = pk then { row with committed := true } else row }

/-- A report and what it has in memory. -/
inductive Thread where
  /-- Nothing is read. -/
  | called (r : Report)
  /-- The transaction is read, the report is let in; next comes the lookup. -/
  | entered (r : Report) (t : TransactionItem)
  /-- The lookup has found and locked a row. -/
  | found (r : Report) (t : TransactionItem) (row : Row)
  /-- The lookup has found nothing. -/
  | notFound (r : Report) (t : TransactionItem)
  /-- The event is going to be inserted. -/
  | inserting (r : Report) (t : TransactionItem)
  | inserted (r : Report) (t : TransactionItem) (pk : ℕ)
  /-- The event is committed. -/
  | stored (r : Report) (t : TransactionItem)
  /-- The events are read, for the amounts. -/
  | reread (r : Report) (t : TransactionItem) (events : List TransactionEvent)
  /-- The event has been processed before. -/
  | processed (r : Report) (t : TransactionItem) (event : TransactionEvent)
  /-- The report is rejected; next comes the failure record. -/
  | rejected (r : Report) (failure : Failure)
  | done (outcome : Except Failure Response)

variable (fullClean : Report → List (String × String))

/-- The next read or write of a report. -/
def advance (s : Shared) : Thread → Shared × Thread × Option TransactionEvent
  | .called r =>
    if !checkIfRequestorHasAccess s.transaction r.user r.app then
      (s, .done (.error .permissionDenied), none)
    else if fullClean r ≠ [] then (s, .done (.error (.fullClean (fullClean r))), none)
    else (s, .entered r s.transaction, none)
  | .entered r t =>
    match s.lookup r.event with
    | none => (s, .notFound r t, none)
    | some row =>
      if row.pk ∈ s.locked then (s, .entered r t, none)
      else ({ s with locked := row.pk :: s.locked }, .found r t row, none)
  | .found r t row =>
    let s := { s with locked := s.locked.erase row.pk }
    if row.event.amountValue ≠ r.amount then (s, .rejected r incorrectDetails, none)
    else (s, .processed r t row.event, none)
  | .notFound r t =>
    if r.type = .authorizationSuccess ∧ authorizationSuccessAlreadyExists s.visible then
      (s, .rejected r authorizationAlreadyReported, none)
    else (s, .inserting r t, none)
  | .inserting r t => (s.insert r.event false, .inserted r t s.rows.length, none)
  | .inserted r t pk => (s.commit pk, .stored r t, some r.event)
  | .stored r t => (s, .reread r t s.visible, none)
  | .reread r t events =>
    ({ s with
        transaction :=
          updateTransaction t s.transaction events r.event (r.availableActions.map List.dedup)
            r.app },
      .done (.ok ⟨false, r.event⟩), none)
  | .processed r t event =>
    ({ s with
        transaction :=
          updateAvailableActions t s.transaction (r.availableActions.map List.dedup) },
      .done (.ok ⟨true, event⟩), none)
  | .rejected r failure =>
    (s.insert (createFailedTransactionEvent r.now r.event) true, .done (.error failure), none)
  | .done outcome => (s, .done outcome, none)

/-- Two events that matter differ in their psp reference or type. -/
def Unique (rows : List Row) : Prop :=
  rows.Pairwise fun a b => Matters a.event → Matters b.event → key a.event ≠ key b.event

instance (rows : List Row) : Decidable (Unique rows) := inferInstanceAs (Decidable (rows.Pairwise _))

/-- At most one event that matters of every psp reference and type is stored, and the stored
amounts are those of the stored events. -/
structure Consistent (s : Shared) : Prop where
  unique : Unique s.rows
  synced : s.transaction.amounts = recalculateTransactionAmounts s.visible

/-- When an event is inserted, none with its psp reference and type has been since the lookup; when
the amounts are written, no event that matters has been committed since the events were read. -/
def Unraced (s : Shared) : Thread → Prop
  | .inserting r _ =>
    Matters r.event → ∀ row ∈ s.rows, Matters row.event → key row.event ≠ key r.event
  | .reread _ _ events => s.visible.filter Matters = events.filter Matters
  | _ => True

instance (s : Shared) (t : Thread) : Decidable (Unraced s t) := by
  cases t with
  | inserting r _ => exact inferInstanceAs (Decidable (_ → ∀ row ∈ s.rows, _))
  | reread _ _ events => exact inferInstanceAs (Decidable (_ = _))
  | _ => exact inferInstanceAs (Decidable True)

/-- The report has committed its event and not yet written the amounts. -/
def Thread.Pending : Thread → Prop
  | .stored _ _ => True
  | .reread _ _ _ => True
  | _ => False

/-- The report is over. -/
def Thread.Finished : Thread → Prop
  | .done _ => True
  | _ => False

/-! ### Insert and commit -/

variable {fullClean} {s : Shared}

theorem visible_insert_false (s : Shared) (event : TransactionEvent) :
    (s.insert event false).visible = s.visible := by
  simp [Shared.visible, Shared.insert]

theorem visible_insert_true (s : Shared) (event : TransactionEvent) :
    (s.insert event true).visible = s.visible ++ [event] := by
  simp [Shared.visible, Shared.insert]

theorem unique_insert {event : TransactionEvent} (committed : Bool) (h : Unique s.rows)
    (hnew : Matters event → ∀ row ∈ s.rows, Matters row.event → key row.event ≠ key event) :
    Unique (s.insert event committed).rows := by
  refine List.pairwise_append.mpr ⟨h, List.pairwise_singleton .., ?_⟩
  intro a ha b hb hma hmb
  rw [List.mem_singleton] at hb
  subst hb
  exact hnew hmb a ha hma

theorem unique_commit (pk : ℕ) (h : Unique s.rows) : Unique (s.commit pk).rows := by
  have hevent : ∀ row : Row,
      (if row.pk = pk then { row with committed := true } else row).event = row.event := by
    intro row
    split <;> rfl
  refine List.pairwise_map.mpr (h.imp ?_)
  intro a b hab
  rw [hevent, hevent]
  exact hab

theorem not_matters_failed (r : Report) :
    Matters (createFailedTransactionEvent r.now r.event) = false := by
  simp [Matters, createFailedTransactionEvent]

/-! ### A report by itself -/

/-- The tables as others see them. -/
def Shared.toStore (s : Shared) : Store where
  transaction := s.transaction
  events := s.visible

/-- Nobody is at work: everything is committed and nothing locked. -/
structure Quiet (s : Shared) : Prop where
  committed : ∀ row ∈ s.rows, row.committed
  locked : s.locked = []

theorem getAlreadyExistingEvent_visible (s : Shared) (event : TransactionEvent) :
    getAlreadyExistingEvent s.visible event = (s.lookup event).map (·.event) := by
  rw [getAlreadyExistingEvent, Shared.lookup]
  split
  · rfl
  · rw [Shared.visible, List.find?_map]
    rfl

/-- When nobody else is at work, committing an insert is all it takes to see it. -/
theorem visible_commit_insert (h : Quiet s) (event : TransactionEvent) (pk : ℕ)
    (hpk : pk = s.rows.length) :
    ((s.insert event false).commit pk).visible = s.visible ++ [event] := by
  have hrows : ∀ row ∈ s.rows,
      (if row.pk = pk then { row with committed := true } else row) = row := by
    intro row hrow
    have hcommitted := h.committed row hrow
    split
    · cases row
      simpa using hcommitted.symm
    · rfl
  have hmap : s.rows.map (fun row => if row.pk = pk then { row with committed := true } else row)
      = s.rows := by
    rw [List.map_congr_left hrows, List.map_id']
  rw [Shared.visible, Shared.commit, Shared.insert]
  simp only [List.map_append, hmap, List.map_cons, List.map_nil, if_pos hpk.symm,
    List.filter_append]
  rfl

theorem alone_done (n : ℕ) (s : Shared) (outcome : Except Failure Response) :
    alone (advance fullClean) n s (.done outcome) = (s, .done outcome) := by
  induction n with
  | zero => rfl
  | succ n ih => rw [alone_succ (rfl : advance fullClean s (.done outcome) = _), ih]

/-- **A report that is not interrupted** is the one of `performMutation`. -/
theorem alone_report (h : Quiet s) (r : Report) :
    (alone (advance fullClean) 7 s (.called r)).1.toStore
        = (performMutation fullClean s.toStore r).2 ∧
      (alone (advance fullClean) 7 s (.called r)).2
        = .done (performMutation fullClean s.toStore r).1 := by
  by_cases haccess : checkIfRequestorHasAccess s.transaction r.user r.app
  case neg =>
    have hstep : advance fullClean s (.called r) = (s, .done (.error .permissionDenied), none) := by
      simp [advance, haccess]
    have hmutation : performMutation fullClean s.toStore r
        = (.error .permissionDenied, s.toStore) := by
      simp [performMutation, Shared.toStore, haccess]
    rw [alone_succ hstep, alone_done, hmutation]
    exact ⟨rfl, rfl⟩
  by_cases hclean : fullClean r = []
  case neg =>
    have hstep : advance fullClean s (.called r)
        = (s, .done (.error (.fullClean (fullClean r))), none) := by
      simp [advance, haccess, hclean]
    have hmutation : performMutation fullClean s.toStore r
        = (.error (.fullClean (fullClean r)), s.toStore) := by
      simp [performMutation, Shared.toStore, haccess, hclean]
    rw [alone_succ hstep, alone_done, hmutation]
    exact ⟨rfl, rfl⟩
  have hstep : advance fullClean s (.called r) = (s, .entered r s.transaction, none) := by
    simp [advance, haccess, hclean]
  have hvisible := getAlreadyExistingEvent_visible s r.event
  rw [alone_succ hstep]
  rcases hlookup : s.lookup r.event with _ | row
  · rw [hlookup] at hvisible
    have hstep : advance fullClean s (.entered r s.transaction)
        = (s, .notFound r s.transaction, none) := by
      simp only [advance, hlookup]
    rw [alone_succ hstep]
    rcases performMutation_cases (s := s.toStore) (r := r) ⟨haccess, hclean⟩ with
      ⟨e, hfind, -⟩ | ⟨e, hfind, -⟩ | ⟨-, htype, hexists, heq⟩ | ⟨-, hsecond, heq⟩
    · exact absurd (hvisible.symm.trans hfind) (by simp)
    · exact absurd (hvisible.symm.trans hfind) (by simp)
    · have hstep : advance fullClean s (.notFound r s.transaction)
          = (s, .rejected r authorizationAlreadyReported, none) :=
        if_pos ⟨htype, hexists⟩
      rw [alone_succ hstep, heq, alone_succ (rfl : advance fullClean s (.rejected r _) = _),
        alone_done]
      refine ⟨?_, rfl⟩
      rw [Shared.toStore, visible_insert_true]
      rfl
    · have hstep : advance fullClean s (.notFound r s.transaction)
          = (s, .inserting r s.transaction, none) :=
        if_neg hsecond
      have hcommitted := visible_commit_insert h r.event s.rows.length rfl
      rw [alone_succ hstep, heq, alone_succ (rfl : advance fullClean s (.inserting r _) = _),
        alone_succ (rfl : advance fullClean _ (.inserted r _ _) = _),
        alone_succ (rfl : advance fullClean _ (.stored r _) = _),
        alone_succ (rfl : advance fullClean _ (.reread r _ _) = _), alone_done]
      refine ⟨?_, rfl⟩
      show Store.mk (updateTransaction s.transaction s.transaction
          ((s.insert r.event false).commit s.rows.length).visible r.event _ r.app)
        ((s.insert r.event false).commit s.rows.length).visible = _
      rw [hcommitted]
      rfl
  · rw [hlookup] at hvisible
    have hstep : advance fullClean s (.entered r s.transaction)
        = ({ s with locked := [row.pk] }, .found r s.transaction row, none) := by
      simp [advance, hlookup, h.locked]
    rw [alone_succ hstep]
    rcases performMutation_cases (s := s.toStore) (r := r) ⟨haccess, hclean⟩ with
      ⟨e, hfind, hamount, heq⟩ | ⟨e, hfind, hamount, heq⟩ | ⟨hnone, -⟩ | ⟨hnone, -⟩
    · obtain rfl := Option.some.inj (hvisible.symm.trans hfind)
      have hstep : advance fullClean { s with locked := [row.pk] } (.found r s.transaction row)
          = ({ s with locked := [row.pk].erase row.pk }, .processed r s.transaction row.event,
            none) :=
        if_neg (not_not.mpr hamount)
      rw [alone_succ hstep, heq, alone_succ (rfl : advance fullClean _ (.processed r _ _) = _),
        alone_done]
      exact ⟨rfl, rfl⟩
    · obtain rfl := Option.some.inj (hvisible.symm.trans hfind)
      have hstep : advance fullClean { s with locked := [row.pk] } (.found r s.transaction row)
          = ({ s with locked := [row.pk].erase row.pk }, .rejected r incorrectDetails, none) :=
        if_pos hamount
      rw [alone_succ hstep, heq, alone_succ (rfl : advance fullClean _ (.rejected r _) = _),
        alone_done]
      refine ⟨?_, rfl⟩
      rw [Shared.toStore, visible_insert_true]
      rfl
    · exact absurd (hvisible.symm.trans hnone) (by simp)
    · exact absurd (hvisible.symm.trans hnone) (by simp)

/-! ### One step -/

/-- No step makes two events of one psp reference and type, unless its insert comes too late. -/
theorem unique_advance {t : Thread} (h : Unique s.rows) (hok : Unraced s t) :
    Unique (advance fullClean s t).1.rows := by
  cases t with
  | called r =>
    rw [advance]
    split
    · exact h
    · split <;> exact h
  | entered r t =>
    rw [advance]
    split
    · exact h
    · split <;> exact h
  | found r t row =>
    rw [advance]
    split <;> exact h
  | notFound r t =>
    rw [advance]
    split <;> exact h
  | inserting r t => exact unique_insert false h hok
  | inserted r t pk => exact unique_commit pk h
  | stored r t => exact h
  | reread r t events => exact h
  | processed r t event => exact h
  | rejected r failure =>
    refine unique_insert true h ?_
    intro hmatters
    rw [not_matters_failed] at hmatters
    cases hmatters
  | done outcome => exact h

/-- The stored amounts are those of the events that can be seen. -/
def Synced (s : Shared) : Prop :=
  s.transaction.amounts = recalculateTransactionAmounts s.visible

/-- A write of the amounts that does not come too late brings them up to date. -/
theorem synced_of_write {r : Report} {t : TransactionItem} {events : List TransactionEvent}
    (hok : Unraced s (.reread r t events)) :
    Synced (advance fullClean s (.reread r t events)).1 := by
  have hok : s.visible.filter Matters = events.filter Matters := hok
  show recalculateTransactionAmounts events = recalculateTransactionAmounts s.visible
  rw [← recalculate_filter_matters, ← hok, recalculate_filter_matters]

/-- Amounts that are up to date stay so, unless the report has just committed its event. -/
theorem synced_advance {t : Thread} (h : Synced s) (hok : Unraced s t)
    (hpending : ¬ (advance fullClean s t).2.1.Pending) : Synced (advance fullClean s t).1 := by
  cases t with
  | called r =>
    rw [advance]
    split
    · exact h
    · split <;> exact h
  | entered r t =>
    rw [advance]
    split
    · exact h
    · split <;> exact h
  | found r t row =>
    rw [advance]
    split <;> exact h
  | notFound r t =>
    rw [advance]
    split <;> exact h
  | inserting r t =>
    show s.transaction.amounts = recalculateTransactionAmounts (s.insert r.event false).visible
    rw [visible_insert_false]
    exact h
  | inserted r t pk => exact absurd trivial hpending
  | stored r t => exact absurd trivial hpending
  | reread r t events => exact synced_of_write hok
  | processed r t event =>
    show (updateAvailableActions t s.transaction (r.availableActions.map List.dedup)).amounts
      = recalculateTransactionAmounts s.visible
    rw [updateAvailableActions_amounts]
    exact h
  | rejected r failure =>
    show s.transaction.amounts = recalculateTransactionAmounts
      (s.insert (createFailedTransactionEvent r.now r.event) true).visible
    rw [visible_insert_true, recalculate_append_of_not_matters _ (not_matters_failed r)]
    exact h
  | done outcome => exact h

/-- A report that was pending and is not any more has just written the amounts. -/
theorem synced_of_pending {t : Thread} (ht : t.Pending) (hok : Unraced s t)
    (hpending : ¬ (advance fullClean s t).2.1.Pending) : Synced (advance fullClean s t).1 := by
  cases t with
  | stored r t => exact absurd trivial hpending
  | reread r t events => exact synced_of_write hok
  | _ => cases ht

/-! ### Every interleaving -/

variable {ι : Type*} [DecidableEq ι]

/-- The invariant: the events are unique, and the amounts are up to date unless some report is
about to write them. -/
structure Kept (c : Config ι Shared Thread TransactionEvent) : Prop where
  unique : Unique c.shared.rows
  synced : Synced c.shared ∨ ∃ i, (c.threads i).Pending

theorem kept_step {c : Config ι Shared Thread TransactionEvent} (i : ι) (h : Kept c)
    (hok : Allowed Unraced c i) : Kept (Interleaving.step (advance fullClean) c i) := by
  refine ⟨unique_advance h.unique hok, ?_⟩
  by_cases hpending : (advance fullClean c.shared (c.threads i)).2.1.Pending
  · refine Or.inr ⟨i, ?_⟩
    simpa [Interleaving.step] using hpending
  · rcases h.synced with hsynced | ⟨j, hj⟩
    · exact Or.inl (synced_advance hsynced hok hpending)
    · by_cases hji : j = i
      · subst hji
        exact Or.inl (synced_of_pending hj hok hpending)
      · refine Or.inr ⟨j, ?_⟩
        simpa [Interleaving.step, hji] using hj

/-- **Every interleaving** of reports whose inserts and writes find what was read: once all have
finished, no psp reference and type was stored twice and the amounts are those of the events. -/
theorem reports_consistent (fullClean : Report → List (String × String))
    {c c' : Config ι Shared Thread TransactionEvent} {schedule : List ι}
    (hstart : Consistent c.shared)
    (h : EachStep (Interleaving.step (advance fullClean)) (Allowed Unraced) c schedule)
    (hreached : Reached (Interleaving.step (advance fullClean)) c schedule c')
    (hfinished : ∀ i, (c'.threads i).Finished) : Consistent c'.shared := by
  have hkept : Kept c' :=
    h.inv_reached (fun c i => kept_step i) ⟨hstart.unique, Or.inl hstart.synced⟩ hreached
  refine ⟨hkept.unique, hkept.synced.resolve_right ?_⟩
  rintro ⟨i, hi⟩
  have hdone := hfinished i
  rcases hthread : c'.threads i with _ | _ | _ | _ | _ | _ | _ | _ | _ | _ | _ <;>
    rw [hthread] at hi hdone
  all_goals first | exact hi | exact hdone

/-- Two charges of a new transaction, reported at the same time. -/
def twoCharges (psp psp' : String) : Config Bool Shared Thread TransactionEvent where
  shared := {}
  threads b := if b then .called { pspReference := psp, type := .chargeSuccess, amount := 10000 }
    else .called { pspReference := psp', type := .chargeSuccess, amount := 10000 }
  log := []

theorem consistent_empty : Consistent {} := ⟨.nil, orderly_empty.synced⟩

/-- Two charges with different references: each is looked up before the other is inserted, and
committed before the other's amounts are computed. -/
theorem reports_consistent_twoCharges : Consistent (run (Interleaving.step (advance fun _ => []))
    (twoCharges "p" "q")
    [true, true, false, false, true, true, true, false, false, false, true, true, false,
      false]).shared := by
  refine reports_consistent (fun _ => []) consistent_empty ?_ (reached_run _ _) ?_
  · simp only [eachStep_cons, eachStep_nil, and_true, Allowed]
    decide +kernel
  · intro b
    cases b
    all_goals exact trivial

/-- One charge reported twice is stored twice if both reports look for it before either inserts it;
of two charges with different references one is lost if the events are read before it is committed
and the amounts written afterwards. -/
theorem reports_not_consistent :
    (∃ schedule : List Bool,
      let c' := run (Interleaving.step (advance fun _ => [])) (twoCharges "p" "p") schedule
      (∀ i, (c'.threads i).Finished) ∧ ¬ Unique c'.shared.rows) ∧
    (∃ schedule : List Bool,
      let c' := run (Interleaving.step (advance fun _ => [])) (twoCharges "p" "q") schedule
      (∀ i, (c'.threads i).Finished) ∧ ¬ Synced c'.shared) := by
  constructor
  · refine ⟨[true, true, false, false, true, true, true, true, true, false, false, false, false,
      false], ?_, ?_⟩
    · intro b
      cases b
      all_goals exact trivial
    · decide +kernel
  · refine ⟨[true, true, true, true, true, true, false, false, false, false, false, false, false,
      true], ?_, ?_⟩
    · intro b
      cases b
      all_goals exact trivial
    · intro hsynced
      have hcharged := congrFun hsynced .chargedValue
      revert hcharged
      decide +kernel

end EventReports

end Aixinwu
