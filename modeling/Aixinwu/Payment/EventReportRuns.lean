import Aixinwu.Lib.Runs
import Aixinwu.Payment.EventReport

/-!
# Reports applied once

A payment app repeats its reports, sends them late and in any order, and now and then sends a wrong
one. What is wanted of any sequence of them is told by a history that knows nothing of the tables:
a report is *genuine* if its psp reference and type have not been reported before and it is not a
second authorization, and the amounts are those of the genuine reports.

The code keeps no history; it looks reports up among the stored events. `Orderly` is what makes that
good enough: no event that counts comes after an event with its psp reference and type, so the
oldest such event decides. Every call keeps it. But the failure records of rejected reports are
found by the lookup as well, and then a genuine report of the failure is taken for one that has been
processed, or for a wrong one. The lookup must find an event that counts; `appliedOnce_iff` says
that this is all that can go wrong.

## Main definitions

* `History`, `Genuine`, `step`
* `AppliedOnce` — what is wanted of one call
* `Orderly` — the invariant of the stored events
* `Recognised` — the lookup finds no failure record

## Main results

* `appliedOnce_iff`
-/

namespace Aixinwu

namespace EventReports

open Payment Runs

/-! ### The history -/

/-- What has been reported, and what of it was accepted. -/
structure History where
  reported : List (Option String × TransactionEventType) := []
  accepted : List TransactionEvent := []

/-- The report is the first of its psp reference and type, and not a second authorization. -/
def Genuine (h : History) (r : Report) : Prop :=
  key r.event ∉ h.reported ∧
    (r.type = .authorizationSuccess → ∀ e ∈ h.accepted, e.type ≠ .authorizationSuccess)

instance (h : History) (r : Report) : Decidable (Genuine h r) :=
  inferInstanceAs (Decidable (_ ∧ _))

/-- One more report. -/
def History.report (h : History) (r : Report) : History where
  reported := h.reported ++ [key r.event]
  accepted := if Genuine h r then h.accepted ++ [r.event] else h.accepted

/-- The tables, and the history of what was reported. -/
structure State where
  store : Store := {}
  history : History := {}

/-- A transaction that reports are going to be made of; what counts already has been reported. -/
def start (s : Store) : State where
  store := s
  history :=
    { reported := (s.events.filter (·.includeInCalculations)).map key
      accepted := s.events.filter (·.includeInCalculations) }

variable (fullClean : Report → List (String × String))

/-- One call. Reports that are not let in are not reported. -/
def step (s : State) (r : Report) : State where
  store := (performMutation fullClean s.store r).2
  history := if Admitted fullClean s.store.transaction r then s.history.report r else s.history

/-- What is wanted of a call: afterwards the amounts are those of the accepted reports, a genuine
report has been stored, a repeated one has changed nothing but the available actions it names, and
one that was answered with an error has changed no amount. A repeated report that only records
something may be recorded again. -/
structure AppliedOnce (s : State) (r : Report) : Prop where
  amounts : (step fullClean s r).store.transaction.amounts
    = recalculateTransactionAmounts (step fullClean s r).history.accepted
  genuine : Admitted fullClean s.store.transaction r → Genuine s.history r →
    (step fullClean s r).store.events = s.store.events ++ [r.event]
  repeated : Admitted fullClean s.store.transaction r →
    (∃ e ∈ s.history.accepted, key e = key r.event ∧ e.amountValue = r.amount) →
      (step fullClean s r).store.transaction.amounts = s.store.transaction.amounts ∧
      (¬ RecordOnly r.type →
        (r.availableActions = none → (step fullClean s r).store = s.store) ∧
        ∃ actions, (step fullClean s r).store =
          { s.store with transaction := { s.store.transaction with availableActions := actions } })
  rejected : ∀ f, (performMutation fullClean s.store r).1 = .error f →
    (step fullClean s r).store.transaction.amounts = s.store.transaction.amounts

/-- The event that the lookup finds, if it finds one, is not a failure record. -/
def Recognised (s : State) (r : Report) : Prop :=
  Admitted fullClean s.store.transaction r →
    ∀ e, getAlreadyExistingEvent s.store.events r.event = some e → e.includeInCalculations

/-! ### The stored events -/

/-- The stored amounts are those of the stored events; an event that counts comes after no event
with its psp reference and type, unless it is just a record; and an authorization success
counts. -/
structure Orderly (s : Store) : Prop where
  synced : s.transaction.amounts = recalculateTransactionAmounts s.events
  first : s.events.Pairwise fun a b => Matters b → key a ≠ key b
  authorization : ∀ e ∈ s.events, e.type = .authorizationSuccess → e.includeInCalculations

/-- A new transaction is orderly. -/
theorem orderly_empty : Orderly {} where
  synced := by
    funext f
    cases f <;> rfl
  first := .nil
  authorization := by simp

namespace Orderly

variable {s : Store}

/-- Another event that does not count, or that has no predecessor. -/
theorem append (h : Orderly s) {e : TransactionEvent} {t : TransactionItem}
    (hamounts : t.amounts = recalculateTransactionAmounts (s.events ++ [e]))
    (hfirst : Matters e → ∀ a ∈ s.events, key a ≠ key e)
    (hauth : e.type = .authorizationSuccess → e.includeInCalculations) :
    Orderly { transaction := t, events := s.events ++ [e] } where
  synced := hamounts
  first := by
    refine List.pairwise_append.mpr ⟨h.first, List.pairwise_singleton .., ?_⟩
    intro a ha b hb hmatters
    rw [List.mem_singleton] at hb
    subst hb
    exact hfirst hmatters a ha
  authorization := by
    intro a ha
    rcases List.mem_append.mp ha with ha | ha
    · exact h.authorization a ha
    · rw [List.mem_singleton] at ha
      subst ha
      exact hauth

theorem addFailed (h : Orderly s) (r : Report) : Orderly (s.addFailed r) := by
  have hmatters : Matters (createFailedTransactionEvent r.now r.event) = false := by
    simp [Matters, createFailedTransactionEvent]
  refine h.append ?_ ?_ ?_
  · rw [recalculate_append_of_not_matters _ hmatters]
    exact h.synced
  · intro htrue
    rw [hmatters] at htrue
    cases htrue
  · intro htype
    exact absurd htype (getFailedTypeBasedOnEvent_ne r.event.type)

/-- An event that matters is what the lookup finds for its psp reference and type. -/
theorem eq_of_found (h : Orderly s) {event e b : TransactionEvent}
    (hfind : getAlreadyExistingEvent s.events event = some e) (hb : b ∈ s.events)
    (hmatters : Matters b) (hkey : key b = key event) : b = e := by
  rw [getAlreadyExistingEvent] at hfind
  split at hfind
  · cases hfind
  · obtain ⟨hfound, l₁, l₂, hsplit, hnone⟩ := List.find?_eq_some_iff_append.mp hfind
    have hfound : key e = key event := by simpa using hfound
    have hfirst := h.first
    rw [hsplit] at hb hfirst
    rcases List.mem_append.mp hb with hb | hb
    · have : key b ≠ key event := by simpa using hnone b hb
      exact absurd hkey this
    · rcases List.mem_cons.mp hb with rfl | hb
      · rfl
      · have hlater := (List.pairwise_cons.mp (List.pairwise_append.mp hfirst).2.1).1 b hb hmatters
        exact absurd (hfound.trans hkey.symm) hlater

variable {fullClean} {r : Report}

/-- **Every call keeps the events orderly.** -/
theorem performMutation (h : Orderly s) (r : Report) :
    Orderly (performMutation fullClean s r).2 := by
  by_cases hadmitted : Admitted fullClean s.transaction r
  · rcases performMutation_cases hadmitted with ⟨e, -, -, heq⟩ | ⟨e, -, -, heq⟩ | ⟨-, -, -, heq⟩ |
      ⟨hnone, hsecond, heq⟩
    · rw [heq]
      exact ⟨by simpa using h.synced, h.first, h.authorization⟩
    · rw [heq]
      exact h.addFailed r
    · rw [heq]
      exact h.addFailed r
    · rw [heq]
      refine h.append rfl ?_ ?_
      · intro hmatters
        exact getAlreadyExistingEvent_eq_none hnone (not_recordOnly_of_matters hmatters)
      · intro _
        rfl
  · obtain ⟨f, heq⟩ := performMutation_of_not_admitted hadmitted
    rw [heq]
    exact h

end Orderly

/-! ### The history and the stored events -/

/-- The history and the tables tell the same: the events that matter are the accepted ones, what
has been accepted has been reported, and what has been reported has been accepted unless it was a
second authorization. -/
structure Agrees (s : State) : Prop where
  matters : s.history.accepted.filter Matters = s.store.events.filter Matters
  counted : ∀ e ∈ s.history.accepted, e.includeInCalculations
  reported : ∀ e ∈ s.history.accepted, key e ∈ s.history.reported
  accepted : ∀ k ∈ s.history.reported, RecordOnly k.2 ∨ (∃ e ∈ s.history.accepted, key e = k) ∨
    (k.2 = .authorizationSuccess ∧ ∃ e ∈ s.history.accepted, e.type = .authorizationSuccess)

theorem agrees_start (s : Store) : Agrees (start s) where
  matters := by
    rw [start, List.filter_filter]
    refine List.filter_congr fun e _ => ?_
    cases hinclude : e.includeInCalculations <;> simp [Matters, hinclude]
  counted := by
    intro e he
    exact List.of_mem_filter he
  reported := by
    intro e he
    exact List.mem_map_of_mem he
  accepted := by
    intro k hk
    obtain ⟨e, he, rfl⟩ := List.mem_map.mp hk
    exact Or.inr (Or.inl ⟨e, he, rfl⟩)

namespace Agrees

variable {s : State} {r : Report}

/-- The events that matter are the accepted ones. -/
theorem mem_iff (h : Agrees s) {e : TransactionEvent} (hrecord : ¬ RecordOnly e.type) :
    e ∈ s.history.accepted ↔ e ∈ s.store.events ∧ e.includeInCalculations := by
  constructor
  · intro he
    have hmem : e ∈ s.history.accepted.filter Matters :=
      List.mem_filter.mpr ⟨he, by simp [Matters, h.counted e he, hrecord]⟩
    rw [h.matters] at hmem
    exact ⟨List.mem_of_mem_filter hmem, h.counted e he⟩
  · rintro ⟨he, hinclude⟩
    have hmem : e ∈ s.store.events.filter Matters :=
      List.mem_filter.mpr ⟨he, by simp [Matters, hinclude, hrecord]⟩
    rw [← h.matters] at hmem
    exact List.mem_of_mem_filter hmem

/-- The amounts of the accepted events are those of the stored ones. -/
theorem recalculate_eq (h : Agrees s) :
    recalculateTransactionAmounts s.history.accepted
      = recalculateTransactionAmounts s.store.events := by
  rw [← recalculate_filter_matters, h.matters, recalculate_filter_matters]

/-- A second authorization is one in the tables and in the history alike. -/
theorem second_iff (h : Agrees s) (horderly : Orderly s.store) :
    authorizationSuccessAlreadyExists s.store.events
      ↔ ∃ e ∈ s.history.accepted, e.type = .authorizationSuccess := by
  have hrecord : ∀ e : TransactionEvent, e.type = .authorizationSuccess → ¬ RecordOnly e.type := by
    intro e he
    rw [he]
    decide
  rw [authorizationSuccessAlreadyExists, List.any_eq_true]
  constructor
  · rintro ⟨e, he, htype⟩
    have htype : e.type = .authorizationSuccess := by simpa using htype
    exact ⟨e, (h.mem_iff (hrecord e htype)).mpr ⟨he, horderly.authorization e he htype⟩, htype⟩
  · rintro ⟨e, he, htype⟩
    exact ⟨e, ((h.mem_iff (hrecord e htype)).mp he).1, by simpa using htype⟩

/-- A report that is not genuine has been accepted, or is a second authorization. -/
theorem of_not_genuine (h : Agrees s) (hnot : ¬ Genuine s.history r)
    (hrecord : ¬ RecordOnly r.type) :
    (∃ e ∈ s.history.accepted, key e = key r.event) ∨
      (r.type = .authorizationSuccess ∧
        ∃ e ∈ s.history.accepted, e.type = .authorizationSuccess) := by
  by_cases hreported : key r.event ∈ s.history.reported
  · exact (h.accepted _ hreported).resolve_left hrecord
  · refine Or.inr ?_
    simpa [Genuine, hreported] using hnot

/-- A report that is not genuine changes nothing in what was accepted. -/
theorem report_of_not_genuine (h : Agrees s) {t : Store} (hnot : ¬ Genuine s.history r)
    (hmatters : t.events.filter Matters = s.store.events.filter Matters) :
    Agrees { store := t, history := s.history.report r } where
  matters := by
    rw [hmatters, History.report, if_neg hnot]
    exact h.matters
  counted := by
    rw [History.report, if_neg hnot]
    exact h.counted
  reported := by
    rw [History.report, if_neg hnot]
    intro e he
    exact List.mem_append_left _ (h.reported e he)
  accepted := by
    rw [History.report, if_neg hnot]
    intro k hk
    rcases List.mem_append.mp hk with hk | hk
    · exact h.accepted k hk
    · rw [List.mem_singleton] at hk
      subst hk
      by_cases hrecord : RecordOnly r.type
      · exact Or.inl hrecord
      · exact Or.inr (h.of_not_genuine hnot hrecord)

/-- A genuine report that is stored. -/
theorem report_of_genuine (h : Agrees s) {t : Store} (hgenuine : Genuine s.history r)
    (hevents : t.events = s.store.events ++ [r.event]) :
    Agrees { store := t, history := s.history.report r } where
  matters := by
    rw [hevents, History.report, if_pos hgenuine, List.filter_append, List.filter_append, h.matters]
  counted := by
    rw [History.report, if_pos hgenuine]
    intro e he
    rcases List.mem_append.mp he with he | he
    · exact h.counted e he
    · rw [List.mem_singleton] at he
      subst he
      rfl
  reported := by
    rw [History.report, if_pos hgenuine]
    intro e he
    rcases List.mem_append.mp he with he | he
    · exact List.mem_append_left _ (h.reported e he)
    · rw [List.mem_singleton] at he
      subst he
      exact List.mem_append_right _ (List.mem_singleton.mpr rfl)
  accepted := by
    rw [History.report, if_pos hgenuine]
    intro k hk
    rcases List.mem_append.mp hk with hk | hk
    · rcases h.accepted k hk with hrecord | ⟨e, he, hkey⟩ | ⟨htype, e, he, hauth⟩
      · exact Or.inl hrecord
      · exact Or.inr (Or.inl ⟨e, List.mem_append_left _ he, hkey⟩)
      · exact Or.inr (Or.inr ⟨htype, e, List.mem_append_left _ he, hauth⟩)
    · rw [List.mem_singleton] at hk
      exact Or.inr (Or.inl ⟨r.event, List.mem_append_right _ (List.mem_singleton.mpr rfl), hk.symm⟩)

end Agrees

/-! ### One call -/

variable {fullClean} {s : State} {r : Report}

/-- The invariant: the tables are orderly and agree with the history. -/
structure Inv (s : State) : Prop where
  orderly : Orderly s.store
  agrees : Agrees s

theorem inv_start {s : Store} (h : Orderly s) : Inv (start s) := ⟨h, agrees_start s⟩

theorem step_of_not_admitted (h : ¬ Admitted fullClean s.store.transaction r) :
    step fullClean s r = s := by
  obtain ⟨f, heq⟩ := performMutation_of_not_admitted h
  simp only [step, heq, if_neg h]

/-- A report that the lookup finds among the events that count is not genuine. -/
theorem not_genuine_of_found (h : Inv s) {e : TransactionEvent}
    (hfind : getAlreadyExistingEvent s.store.events r.event = some e)
    (hinclude : e.includeInCalculations) : ¬ Genuine s.history r := by
  obtain ⟨hrecord, he, hkey⟩ := getAlreadyExistingEvent_eq_some hfind
  have hrecord : ¬ RecordOnly e.type := not_recordOnly_of_key_eq hrecord hkey
  intro hgenuine
  refine hgenuine.1 ?_
  rw [← hkey]
  exact h.agrees.reported e ((h.agrees.mem_iff hrecord).mpr ⟨he, hinclude⟩)

/-- A report that the lookup does not find is genuine, unless it is just a record or a second
authorization. -/
theorem genuine_of_not_found (h : Inv s)
    (hnone : getAlreadyExistingEvent s.store.events r.event = none)
    (hrecord : ¬ RecordOnly r.type)
    (hsecond : ¬ (r.type = .authorizationSuccess
      ∧ authorizationSuccessAlreadyExists s.store.events)) : Genuine s.history r := by
  by_contra hnot
  rcases h.agrees.of_not_genuine hnot hrecord with ⟨e, he, hkey⟩ | ⟨htype, hexists⟩
  · have hrecord' : ¬ RecordOnly e.type := not_recordOnly_of_key_eq hrecord hkey
    exact getAlreadyExistingEvent_eq_none hnone hrecord e
      ((h.agrees.mem_iff hrecord').mp he).1 hkey
  · exact hsecond ⟨htype, (h.agrees.second_iff h.orderly).mpr hexists⟩

/-- What was accepted is found with its amount. -/
theorem amount_of_found (h : Inv s) {e b : TransactionEvent}
    (hfind : getAlreadyExistingEvent s.store.events r.event = some e)
    (hb : b ∈ s.history.accepted) (hkey : key b = key r.event) : b = e := by
  obtain ⟨hrecord, -, -⟩ := getAlreadyExistingEvent_eq_some hfind
  have hrecord : ¬ RecordOnly b.type := not_recordOnly_of_key_eq hrecord hkey
  obtain ⟨hmem, hinclude⟩ := (h.agrees.mem_iff hrecord).mp hb
  exact h.orderly.eq_of_found hfind hmem (by simp [Matters, hinclude, hrecord]) hkey

/-- **Every recognised call keeps the invariant.** -/
theorem inv_step (h : Inv s) (hok : Recognised fullClean s r) : Inv (step fullClean s r) := by
  refine ⟨h.orderly.performMutation r, ?_⟩
  by_cases hadmitted : Admitted fullClean s.store.transaction r
  · have hfailed : (s.store.addFailed r).events.filter Matters = s.store.events.filter Matters := by
      simp [Store.addFailed, Matters, createFailedTransactionEvent]
    rw [step, if_pos hadmitted]
    rcases performMutation_cases hadmitted with ⟨e, hfind, -, heq⟩ | ⟨e, hfind, -, heq⟩ |
      ⟨-, htype, hexists, heq⟩ | ⟨hnone, hsecond, heq⟩
    · rw [heq]
      exact h.agrees.report_of_not_genuine
        (not_genuine_of_found h hfind (hok hadmitted e hfind)) rfl
    · rw [heq]
      exact h.agrees.report_of_not_genuine
        (not_genuine_of_found h hfind (hok hadmitted e hfind)) hfailed
    · rw [heq]
      refine h.agrees.report_of_not_genuine ?_ hfailed
      intro hgenuine
      obtain ⟨e, he, hauth⟩ := (h.agrees.second_iff h.orderly).mp hexists
      exact hgenuine.2 htype e he hauth
    · rw [heq]
      by_cases hgenuine : Genuine s.history r
      · exact h.agrees.report_of_genuine hgenuine rfl
      · -- only a record is stored again
        have hrecord : RecordOnly r.type := by
          by_contra hrecord
          exact hgenuine (genuine_of_not_found h hnone hrecord hsecond)
        refine h.agrees.report_of_not_genuine hgenuine ?_
        rw [List.filter_append, List.filter_cons_of_neg, List.filter_nil, List.append_nil]
        simp [Matters, Report.event, hrecord]
  · rw [step_of_not_admitted hadmitted]
    exact h.agrees

/-- A call that stores the event or leaves the amounts alone, and what it leaves alone otherwise. -/
theorem amounts_step (h : Inv s) (hok : Recognised fullClean s r) :
    (step fullClean s r).store.transaction.amounts
      = recalculateTransactionAmounts (step fullClean s r).history.accepted := by
  have hinv := inv_step h hok
  rw [hinv.agrees.recalculate_eq]
  exact hinv.orderly.synced

/-- An error changes no amount. -/
theorem amounts_of_error {f : Failure}
    (hf : (performMutation fullClean s.store r).1 = .error f) :
    (step fullClean s r).store.transaction.amounts = s.store.transaction.amounts := by
  by_cases hadmitted : Admitted fullClean s.store.transaction r
  · rcases performMutation_cases hadmitted with ⟨e, -, -, heq⟩ | ⟨e, -, -, heq⟩ | ⟨-, -, -, heq⟩ |
      ⟨-, -, heq⟩
    · rw [heq] at hf
      cases hf
    · rw [step, heq]
      rfl
    · rw [step, heq]
      rfl
    · rw [heq] at hf
      cases hf
  · rw [step_of_not_admitted hadmitted]

/-- A repeated report. -/
theorem repeated_step (h : Inv s) (hok : Recognised fullClean s r)
    (hadmitted : Admitted fullClean s.store.transaction r)
    (hrepeated : ∃ e ∈ s.history.accepted, key e = key r.event ∧ e.amountValue = r.amount) :
    (step fullClean s r).store.transaction.amounts = s.store.transaction.amounts ∧
    (¬ RecordOnly r.type →
      (r.availableActions = none → (step fullClean s r).store = s.store) ∧
      ∃ actions, (step fullClean s r).store =
        { s.store with
          transaction := { s.store.transaction with availableActions := actions } }) := by
  obtain ⟨b, hb, hkey, hamount⟩ := hrepeated
  have hnot : ¬ Genuine s.history r := by
    intro hgenuine
    refine hgenuine.1 ?_
    rw [← hkey]
    exact h.agrees.reported b hb
  have hamounts : (step fullClean s r).store.transaction.amounts
      = s.store.transaction.amounts := by
    rw [amounts_step h hok, step, if_pos hadmitted, History.report, if_neg hnot,
      h.agrees.recalculate_eq]
    exact h.orderly.synced.symm
  refine ⟨hamounts, ?_⟩
  intro hrecord
  rcases hfind : getAlreadyExistingEvent s.store.events r.event with _ | e
  · have hrecord' : ¬ RecordOnly b.type := not_recordOnly_of_key_eq hrecord hkey
    exact absurd hkey (getAlreadyExistingEvent_eq_none hfind hrecord b
      ((h.agrees.mem_iff hrecord').mp hb).1)
  · obtain rfl := amount_of_found h hfind hb hkey
    have hresult : (performMutation fullClean s.store r).2
        = ⟨updateAvailableActions s.store.transaction s.store.transaction
            (r.availableActions.map List.dedup), s.store.events⟩ := by
      rcases performMutation_cases hadmitted with ⟨e, -, -, heq⟩ | ⟨e, hfind', hne, -⟩ |
        ⟨hnone, -⟩ | ⟨hnone, -⟩
      · rw [heq]
      · rw [hfind] at hfind'
        obtain rfl := Option.some.inj hfind'
        exact absurd hamount hne
      · rw [hfind] at hnone
        cases hnone
      · rw [hfind] at hnone
        cases hnone
    rw [step, hresult]
    constructor
    · intro hactions
      rw [hactions]
      rfl
    · obtain ⟨actions, heq⟩ := updateAvailableActions_eq s.store.transaction s.store.transaction
        (r.availableActions.map List.dedup)
      exact ⟨actions, by rw [heq]⟩

/-- A genuine report is stored. -/
theorem genuine_step (h : Inv s) (hok : Recognised fullClean s r)
    (hadmitted : Admitted fullClean s.store.transaction r) (hgenuine : Genuine s.history r) :
    (step fullClean s r).store.events = s.store.events ++ [r.event] := by
  rcases performMutation_cases hadmitted with ⟨e, hfind, -⟩ | ⟨e, hfind, -⟩ |
    ⟨-, htype, hexists, -⟩ | ⟨-, -, heq⟩
  · exact absurd hgenuine (not_genuine_of_found h hfind (hok hadmitted e hfind))
  · exact absurd hgenuine (not_genuine_of_found h hfind (hok hadmitted e hfind))
  · obtain ⟨e, he, hauth⟩ := (h.agrees.second_iff h.orderly).mp hexists
    exact absurd hauth (hgenuine.2 htype e he)
  · rw [step, heq]

/-- A report that is taken for a failure record would have been genuine. -/
theorem genuine_of_failure_record (h : Inv s) {e : TransactionEvent}
    (hfind : getAlreadyExistingEvent s.store.events r.event = some e)
    (hnot : ¬ e.includeInCalculations) : Genuine s.history r := by
  obtain ⟨hrecord, he, hkey⟩ := getAlreadyExistingEvent_eq_some hfind
  by_contra hgenuine
  rcases h.agrees.of_not_genuine hgenuine hrecord with ⟨b, hb, hkey'⟩ | ⟨htype, -⟩
  · obtain rfl := amount_of_found h hfind hb hkey'
    exact hnot (h.agrees.counted b hb)
  · have htype : e.type = .authorizationSuccess :=
      (congrArg Prod.snd hkey : e.type = r.event.type).trans htype
    exact hnot (h.orderly.authorization e he htype)

/-- **One call does what is wanted exactly when its lookup finds no failure record.** -/
theorem appliedOnce_iff_recognised (h : Inv s) :
    AppliedOnce fullClean s r ↔ Recognised fullClean s r := by
  constructor
  · intro happlied hadmitted e hfind
    by_contra hnot
    have hstored := happlied.genuine hadmitted (genuine_of_failure_record h hfind hnot)
    rcases performMutation_cases hadmitted with ⟨e, -, -, heq⟩ | ⟨e, -, -, heq⟩ | ⟨hnone, -⟩ |
      ⟨hnone, -⟩
    · rw [step, heq] at hstored
      simp at hstored
    · rw [step, heq] at hstored
      have hlast := List.append_cancel_left hstored
      simp [createFailedTransactionEvent, Report.event] at hlast
    · rw [hfind] at hnone
      cases hnone
    · rw [hfind] at hnone
      cases hnone
  · intro hok
    exact ⟨amounts_step h hok, genuine_step h hok, repeated_step h hok, fun f => amounts_of_error⟩

/-! ### Sequences of calls -/

/-- **A sequence of reports is applied once, every one of them, exactly when no lookup finds a
failure record.** -/
theorem appliedOnce_iff (fullClean : Report → List (String × String)) (store : Store)
    (h : Orderly store) (rs : List Report) :
    EachStep (step fullClean) (AppliedOnce fullClean) (start store) rs
      ↔ EachStep (step fullClean) (Recognised fullClean) (start store) rs := by
  suffices hrun : ∀ s : State, Inv s → (EachStep (step fullClean) (AppliedOnce fullClean) s rs
      ↔ EachStep (step fullClean) (Recognised fullClean) s rs) from hrun _ (inv_start h)
  induction rs with
  | nil =>
    intro s _
    exact Iff.rfl
  | cons r rs ih =>
    intro s hinv
    rw [eachStep_cons, eachStep_cons, appliedOnce_iff_recognised hinv]
    refine and_congr_right fun hok => ?_
    exact ih _ (inv_step hinv hok)

/-- A charge of 10.000, the same report again, and one with another amount. -/
def chargeReports : List Report :=
  [{ pspReference := "p", type := .chargeSuccess, amount := 10000, now := 1 },
    { pspReference := "p", type := .chargeSuccess, amount := 10000, now := 2 },
    { pspReference := "p", type := .chargeSuccess, amount := 20000, now := 3 }]

theorem appliedOnce_chargeReports :
    EachStep (step fun _ => []) (AppliedOnce fun _ => []) (start {}) chargeReports := by
  refine (appliedOnce_iff (fun _ => []) {} orderly_empty chargeReports).mpr ?_
  simp only [chargeReports, eachStep_cons, eachStep_nil, and_true]
  refine ⟨?_, ?_, ?_⟩
  all_goals
    intro _
    decide +kernel

/-- The report with another amount is rejected; when the charge fails after all, that is ignored. -/
theorem not_appliedOnce_failure :
    ¬ EachStep (step fun _ => []) (AppliedOnce fun _ => []) (start {})
      (chargeReports
        ++ [{ pspReference := "p", type := .chargeFailure, amount := 20000, now := 4 }]) := by
  intro h
  rw [eachStep_append] at h
  have hstored := h.2.1.genuine (by decide +kernel) (by decide +kernel)
  revert hstored
  decide +kernel

end EventReports

end Aixinwu
