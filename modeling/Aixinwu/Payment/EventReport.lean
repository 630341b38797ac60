import Aixinwu.Payment.TransactionAmounts
import Mathlib.Data.Finset.Defs
import Mathlib.Data.Finset.Dedup

/-!
# Reporting a payment event

`TransactionEventReport.perform_mutation` of
`saleor/graphql/payment/mutations/transaction/transaction_event_report.py`, with what it uses of
`saleor/payment/utils.py`. A report becomes an event of the transaction, and the amounts are
recalculated, unless an event with its psp reference and type is stored already: with the same
amount the report has been processed before, with another amount it is an error. A second
authorization success is an error too. For each of these errors a failure record is stored, with
the psp reference of the report and the failure type of its action; it is excluded from the
calculation. Reports that only record something are not looked up at all.

What `full_clean` of the new event finds wrong is a parameter. Of an event the columns the
calculation and the lookup read are kept, and what follows for the order or the checkout of the
transaction is left out. The events are in the order of their primary keys.

## Main definitions

* `TransactionItem`, `Store`, `Report`
* `getFailedTypeBasedOnEvent`, `getAlreadyExistingEvent`, `updateTransaction`
* `performMutation`
* `Matters` — the events that can change an amount

## Main results

* `performMutation_cases` — everything a report can do
* `recalculate_filter_matters`
-/

namespace Aixinwu

namespace EventReports

open Payment

/-! ### The tables -/

/-- `TransactionAction`. -/
inductive TransactionAction where
  | charge
  | refund
  | cancel
deriving DecidableEq, Repr

/-- The columns of an `app.models.App` that are read. -/
structure App where
  id : ℕ
  identifier : Option String := none
deriving DecidableEq, Repr

/-- `payment.models.TransactionItem`. -/
structure TransactionItem where
  amounts : Amounts := 0
  pspReference : Option String := none
  availableActions : List TransactionAction := []
  user : Option ℕ := none
  app : Option ℕ := none
  appIdentifier : Option String := none

/-- A transaction and its events. -/
structure Store where
  transaction : TransactionItem := {}
  events : List TransactionEvent := []

/-- The arguments of `transactionEventReport`, who sends it, and the clock. -/
structure Report where
  pspReference : String
  type : TransactionEventType
  amount : Amount
  time : Option Time := none
  externalUrl : Option String := none
  message : Option String := none
  availableActions : Option (List TransactionAction) := none
  user : Option ℕ := none
  app : Option App := none
  now : Time := 0
deriving DecidableEq, Repr

/-- The event of a report. -/
def Report.event (r : Report) : TransactionEvent where
  createdAt := r.time.getD r.now
  type := r.type
  amountValue := r.amount
  pspReference := some r.pspReference
  includeInCalculations := true

/-- What the lookup compares: the psp reference and the type. -/
def key (e : TransactionEvent) : Option String × TransactionEventType := (e.pspReference, e.type)

/-- An empty text is none. -/
def truthy (s : Option String) : Bool := s.any (· ≠ "")

/-! ### The functions of the mutation -/

/-- `check_if_requestor_has_access`. -/
def checkIfRequestorHasAccess (t : TransactionItem) (user : Option ℕ) (app : Option App) : Bool :=
  (t.user.isNone && !truthy t.appIdentifier && t.app.isNone)
    || (user.isSome && t.user.isSome)
    || app.any fun a =>
      t.app = some a.id || (truthy t.appIdentifier && t.appIdentifier = a.identifier)

/-- `get_failed_transaction_event_type_for_request_event`. -/
def getFailedTransactionEventTypeForRequestEvent :
    TransactionEventType → Option TransactionEventType
  | .authorizationRequest => some .authorizationFailure
  | .chargeRequest => some .chargeFailure
  | .refundRequest => some .refundFailure
  | .cancelRequest => some .cancelFailure
  | _ => none

/-- `get_failed_type_based_on_event`. -/
def getFailedTypeBasedOnEvent (type : TransactionEventType) : TransactionEventType :=
  match getFailedTransactionEventTypeForRequestEvent type with
  | some eventType => eventType
  | none =>
    match type with
    | .authorizationSuccess => .authorizationFailure
    | .authorizationAdjustment => .authorizationFailure
    | .chargeBack => .chargeFailure
    | .chargeSuccess => .chargeFailure
    | .refundReverse => .refundFailure
    | .refundSuccess => .refundFailure
    | .cancelSuccess => .cancelFailure
    | type => type

/-- `create_failed_transaction_event`, the row. -/
def createFailedTransactionEvent (now : Time) (event : TransactionEvent) : TransactionEvent where
  createdAt := now
  type := getFailedTypeBasedOnEvent event.type
  amountValue := event.amountValue
  pspReference := event.pspReference
  includeInCalculations := false

/-- `authorization_success_already_exists`. -/
def authorizationSuccessAlreadyExists (events : List TransactionEvent) : Bool :=
  events.any (·.type = .authorizationSuccess)

/-- The types that are only a record of something. -/
def RecordOnly (type : TransactionEventType) : Prop :=
  type ∈ [.authorizationActionRequired, .chargeActionRequired, .info]

instance (type : TransactionEventType) : Decidable (RecordOnly type) :=
  inferInstanceAs (Decidable (type ∈ _))

/-- `get_already_existing_event`: the oldest event with the psp reference and the type. -/
def getAlreadyExistingEvent (events : List TransactionEvent) (event : TransactionEvent) :
    Option TransactionEvent :=
  if RecordOnly event.type then none else events.find? fun e => key e = key event

/-- The event gives the transaction its psp reference. -/
def SetsPspReference (transaction : TransactionItem) (event : TransactionEvent) : Prop :=
  event.type ∈ [.authorizationRequest, .authorizationSuccess, .chargeRequest, .chargeSuccess] ∧
    !truthy transaction.pspReference

instance (transaction : TransactionItem) (event : TransactionEvent) :
    Decidable (SetsPspReference transaction event) :=
  inferInstanceAs (Decidable (_ ∧ _))

/-- The app that becomes the owner of the transaction. -/
def assignedApp (transaction : TransactionItem) (app : Option App) : Option App :=
  if transaction.user.isNone ∧ ¬ (transaction.app.isSome ∨ truthy transaction.appIdentifier) then
    app
  else none

/-- `update_transaction` of the instance `transaction`, with the events that are read then, and its
save to `row`: of the columns only those in `fields_to_update` are written. -/
def updateTransaction (transaction row : TransactionItem) (events : List TransactionEvent)
    (event : TransactionEvent) (availableActions : Option (List TransactionAction))
    (app : Option App) : TransactionItem :=
  { row with
    pspReference :=
      if SetsPspReference transaction event then event.pspReference else row.pspReference
    availableActions := availableActions.getD row.availableActions
    amounts := recalculateTransactionAmounts events
    app :=
      match assignedApp transaction app with
      | some a => some a.id
      | none => row.app
    appIdentifier :=
      match assignedApp transaction app with
      | some a => a.identifier
      | none => row.appIdentifier }

/-! ### The mutation -/

/-- `TransactionEventReportErrorCode`. -/
inductive TransactionEventReportErrorCode where
  | invalid
  | graphqlError
  | notFound
  | incorrectDetails
  | alreadyExists
deriving DecidableEq, Repr

/-- How a report fails. -/
inductive Failure where
  /-- `PermissionDenied`. -/
  | permissionDenied
  /-- What `full_clean` finds, by field. -/
  | fullClean (errors : List (String × String))
  | validationError (field message : String) (code : TransactionEventReportErrorCode)
deriving DecidableEq, Repr

/-- The response. -/
structure Response where
  alreadyProcessed : Bool
  transactionEvent : TransactionEvent
deriving DecidableEq, Repr

/-- The error of a report whose psp reference and type are known with another amount. -/
def incorrectDetails : Failure :=
  .validationError "pspReference"
    "The transaction with provided `pspReference` and `type` already exists with different amount."
    .incorrectDetails

/-- The error of a second authorization success. -/
def authorizationAlreadyReported : Failure :=
  .validationError "type"
    ("Event with `AUTHORIZATION_SUCCESS` already reported for the transaction. Use "
      ++ "`AUTHORIZATION_ADJUSTMENT` to change the authorization amount.")
    .alreadyExists

variable (fullClean : Report → List (String × String))

/-- The report is let in: its requestor has access and its event is valid. -/
def Admitted (t : TransactionItem) (r : Report) : Prop :=
  checkIfRequestorHasAccess t r.user r.app ∧ fullClean r = []

instance (t : TransactionItem) (r : Report) : Decidable (Admitted fullClean t r) :=
  inferInstanceAs (Decidable (_ ∧ _))

/-- What a report that was processed before saves: the available actions, if it has others. -/
def updateAvailableActions (transaction row : TransactionItem)
    (availableActions : Option (List TransactionAction)) : TransactionItem :=
  match availableActions with
  | some actions =>
    if transaction.availableActions.toFinset ≠ actions.toFinset then
      { row with availableActions := actions }
    else row
  | none => row

/-- `TransactionEventReport.perform_mutation`, and the tables after it. -/
def performMutation (s : Store) (r : Report) : Except Failure Response × Store :=
  if !checkIfRequestorHasAccess s.transaction r.user r.app then (.error .permissionDenied, s)
  else if fullClean r ≠ [] then (.error (.fullClean (fullClean r)), s)
  else
    let event := r.event
    let availableActions := r.availableActions.map List.dedup
    let failed := { s with events := s.events ++ [createFailedTransactionEvent r.now event] }
    match getAlreadyExistingEvent s.events event with
    | some existing =>
      if existing.amountValue ≠ event.amountValue then (.error incorrectDetails, failed)
      else
        (.ok { alreadyProcessed := true, transactionEvent := existing },
          { s with
            transaction := updateAvailableActions s.transaction s.transaction availableActions })
    | none =>
      if event.type = .authorizationSuccess ∧ authorizationSuccessAlreadyExists s.events then
        (.error authorizationAlreadyReported, failed)
      else
        let events := s.events ++ [event]
        (.ok { alreadyProcessed := false, transactionEvent := event },
          { events,
            transaction :=
              updateTransaction s.transaction s.transaction events event availableActions r.app })

/-! ### What a report can do -/

variable {fullClean} {s : Store} {r : Report}

/-- A report that is not let in does nothing. -/
theorem performMutation_of_not_admitted (h : ¬ Admitted fullClean s.transaction r) :
    ∃ f, performMutation fullClean s r = (.error f, s) := by
  by_cases haccess : checkIfRequestorHasAccess s.transaction r.user r.app
  · have hclean : fullClean r ≠ [] := fun hclean => h ⟨haccess, hclean⟩
    exact ⟨.fullClean (fullClean r), by simp [performMutation, haccess, hclean]⟩
  · exact ⟨.permissionDenied, by simp [performMutation, haccess]⟩

/-- The failure record of a report, added to the events. -/
def Store.addFailed (s : Store) (r : Report) : Store :=
  { s with events := s.events ++ [createFailedTransactionEvent r.now r.event] }

/-- **Everything a report that is let in can do.** It is known with its amount, known with another
amount, a second authorization, or accepted. -/
theorem performMutation_cases (h : Admitted fullClean s.transaction r) :
    (∃ e, getAlreadyExistingEvent s.events r.event = some e ∧ e.amountValue = r.amount ∧
      performMutation fullClean s r = (.ok ⟨true, e⟩,
        { s with
          transaction :=
            updateAvailableActions s.transaction s.transaction
              (r.availableActions.map List.dedup) })) ∨
    (∃ e, getAlreadyExistingEvent s.events r.event = some e ∧ e.amountValue ≠ r.amount ∧
      performMutation fullClean s r = (.error incorrectDetails, s.addFailed r)) ∨
    (getAlreadyExistingEvent s.events r.event = none ∧ r.type = .authorizationSuccess ∧
      authorizationSuccessAlreadyExists s.events ∧
      performMutation fullClean s r = (.error authorizationAlreadyReported, s.addFailed r)) ∨
    (getAlreadyExistingEvent s.events r.event = none ∧
      ¬ (r.type = .authorizationSuccess ∧ authorizationSuccessAlreadyExists s.events) ∧
      performMutation fullClean s r = (.ok ⟨false, r.event⟩,
        { events := s.events ++ [r.event],
          transaction := updateTransaction s.transaction s.transaction (s.events ++ [r.event])
            r.event (r.availableActions.map List.dedup) r.app })) := by
  obtain ⟨haccess, hclean⟩ := h
  rcases hfind : getAlreadyExistingEvent s.events r.event with _ | e
  · by_cases hsecond : r.type = .authorizationSuccess ∧ authorizationSuccessAlreadyExists s.events
    · refine Or.inr (Or.inr (Or.inl ⟨rfl, hsecond.1, hsecond.2, ?_⟩))
      have hsecond : r.event.type = .authorizationSuccess
          ∧ authorizationSuccessAlreadyExists s.events := hsecond
      simp only [performMutation, haccess, hclean, hfind, if_pos hsecond]
      rfl
    · refine Or.inr (Or.inr (Or.inr ⟨rfl, hsecond, ?_⟩))
      have hsecond : ¬ (r.event.type = .authorizationSuccess
          ∧ authorizationSuccessAlreadyExists s.events) := hsecond
      simp only [performMutation, haccess, hclean, hfind, if_neg hsecond]
      rfl
  · by_cases hamount : e.amountValue = r.amount
    · refine Or.inl ⟨e, rfl, hamount, ?_⟩
      have hamount : ¬ (e.amountValue ≠ r.event.amountValue) := not_not.mpr hamount
      simp only [performMutation, haccess, hclean, hfind, if_neg hamount]
      rfl
    · refine Or.inr (Or.inl ⟨e, rfl, hamount, ?_⟩)
      have hamount : e.amountValue ≠ r.event.amountValue := hamount
      simp only [performMutation, haccess, hclean, hfind, if_pos hamount]
      rfl

theorem getAlreadyExistingEvent_eq_some {events : List TransactionEvent} {event e : TransactionEvent}
    (h : getAlreadyExistingEvent events event = some e) :
    ¬ RecordOnly event.type ∧ e ∈ events ∧ key e = key event := by
  rw [getAlreadyExistingEvent] at h
  split at h
  · cases h
  · exact ⟨‹_›, List.mem_of_find?_eq_some h, by simpa using List.find?_some h⟩

/-- Only the type tells whether an event is just a record, and the key has the type. -/
theorem not_recordOnly_of_key_eq {e e' : TransactionEvent} (h : ¬ RecordOnly e'.type)
    (hkey : key e = key e') : ¬ RecordOnly e.type := by
  rw [show e.type = e'.type from congrArg Prod.snd hkey]
  exact h

theorem getAlreadyExistingEvent_eq_none {events : List TransactionEvent}
    {event : TransactionEvent} (h : getAlreadyExistingEvent events event = none)
    (hrecord : ¬ RecordOnly event.type) : ∀ e ∈ events, key e ≠ key event := by
  rw [getAlreadyExistingEvent, if_neg hrecord, List.find?_eq_none] at h
  intro e he
  simpa using h e he

/-- A failure record is of a failure type, or of the type of the report. -/
theorem getFailedTypeBasedOnEvent_ne (type : TransactionEventType) :
    getFailedTypeBasedOnEvent type ≠ .authorizationSuccess := by
  cases type <;> decide

/-- Only the available actions are touched. -/
theorem updateAvailableActions_eq (t row : TransactionItem)
    (actions : Option (List TransactionAction)) :
    ∃ actions', updateAvailableActions t row actions = { row with availableActions := actions' } := by
  rcases actions with _ | actions
  · exact ⟨row.availableActions, rfl⟩
  · rw [updateAvailableActions]
    split
    · exact ⟨actions, rfl⟩
    · exact ⟨row.availableActions, rfl⟩

@[simp] theorem updateAvailableActions_amounts (t row : TransactionItem)
    (actions : Option (List TransactionAction)) :
    (updateAvailableActions t row actions).amounts = row.amounts := by
  obtain ⟨actions', h⟩ := updateAvailableActions_eq t row actions
  rw [h]

/-! ### The events that matter -/

/-- An event that can change an amount: it is included in the calculation and not just a record. -/
def Matters (e : TransactionEvent) : Bool := e.includeInCalculations && !RecordOnly e.type

theorem not_recordOnly_of_matters {e : TransactionEvent} (h : Matters e) : ¬ RecordOnly e.type := by
  rw [Matters, Bool.and_eq_true, Bool.not_eq_true'] at h
  exact of_decide_eq_false h.2

theorem handleEvent_recordOnly {e : TransactionEvent} (h : RecordOnly e.type) (t : Amounts) :
    handleEventWithoutPspReference t e = t := by
  rw [RecordOnly] at h
  cases htype : e.type <;> simp_all [handleEventWithoutPspReference]

theorem addOther_recordOnly {e : TransactionEvent} (h : RecordOnly e.type) (m : ActionEventMap) :
    (m.addOther e).SameOther m := by
  rw [ActionEventMap.addOther]
  split
  · exact ⟨rfl, rfl, rfl⟩
  · rw [RecordOnly] at h
    cases htype : e.type <;> simp_all [ActionEventMap.SameOther]

/-- The events that only record something add nothing to the rest. -/
theorem otherAmounts_filter (l : List TransactionEvent) :
    otherAmounts (l.filter (!RecordOnly ·.type)) = otherAmounts l := by
  have hmap : ((l.filter (!RecordOnly ·.type)).foldl ActionEventMap.addOther {}).SameOther
      (l.foldl ActionEventMap.addOther {}) := by
    generalize ({} : ActionEventMap) = m
    induction l generalizing m with
    | nil => exact ⟨rfl, rfl, rfl⟩
    | cons e l ih =>
      by_cases he : RecordOnly e.type
      · rw [List.filter_cons_of_neg (by simpa using he), List.foldl_cons]
        obtain ⟨hcharge, hrefund, hcancel⟩ := ih m
        obtain ⟨h₁, h₂, h₃⟩ := (addOther_recordOnly he m).foldl l
        exact ⟨hcharge.trans h₁.symm, hrefund.trans h₂.symm, hcancel.trans h₃.symm⟩
      · rw [List.filter_cons_of_pos (by simpa using he), List.foldl_cons, List.foldl_cons]
        exact ih (m.addOther e)
  have hnone : ((l.filter (!RecordOnly ·.type)).filter (·.psp.isNone)).foldl
        handleEventWithoutPspReference 0
      = (l.filter (·.psp.isNone)).foldl handleEventWithoutPspReference 0 := by
    rw [List.filter_comm]
    generalize l.filter (·.psp.isNone) = l
    generalize (0 : Amounts) = t
    induction l generalizing t with
    | nil => rfl
    | cons e l ih =>
      by_cases he : RecordOnly e.type
      · rw [List.filter_cons_of_neg (by simpa using he), List.foldl_cons,
          handleEvent_recordOnly he, ih]
      · rw [List.filter_cons_of_pos (by simpa using he), List.foldl_cons, List.foldl_cons, ih]
  rw [otherAmounts, otherAmounts, hmap.recalculateOther, hnone]

theorem not_recordOnly_of_isAuthorization {e : TransactionEvent} (h : e.isAuthorization) :
    ¬ RecordOnly e.type := by
  intro hrecord
  rw [RecordOnly] at hrecord
  cases htype : e.type <;>
    simp_all [TransactionEvent.isAuthorization, AUTHORIZATION_EVENTS]

/-- **Only the events that matter count.** -/
theorem recalculate_filter_matters (events : List TransactionEvent) :
    recalculateTransactionAmounts (events.filter Matters)
      = recalculateTransactionAmounts events := by
  have hcounted : countedEvents (events.filter Matters)
      = (countedEvents events).filter (!RecordOnly ·.type) := by
    rw [countedEvents, countedEvents, ← orderBy_filter, List.filter_filter, List.filter_filter]
    congr 1
    refine List.filter_congr fun e _ => ?_
    cases hinclude : e.includeInCalculations <;> simp [Matters, hinclude]
  rw [recalculateTransactionAmounts, recalculateTransactionAmounts, hcounted]
  generalize countedEvents events = l
  have hauth : getAuthorizeEvents (l.filter (!RecordOnly ·.type)) = getAuthorizeEvents l := by
    have hfilter : (l.filter (!RecordOnly ·.type)).filter (·.isAuthorization)
        = l.filter (·.isAuthorization) := by
      rw [List.filter_filter]
      refine List.filter_congr fun e _ => ?_
      by_cases he : e.isAuthorization
      · simp [he, not_recordOnly_of_isAuthorization he]
      · simp [he]
    rw [getAuthorizeEvents, getAuthorizeEvents, hfilter]
  rw [calculate_eq, calculate_eq, hauth, List.filter_comm, otherAmounts_filter]

/-- Events that do not matter can be added. -/
theorem recalculate_append_of_not_matters (events : List TransactionEvent) {e : TransactionEvent}
    (h : Matters e = false) :
    recalculateTransactionAmounts (events ++ [e]) = recalculateTransactionAmounts events := by
  rw [← recalculate_filter_matters, List.filter_append, List.filter_cons_of_neg (by simp [h]),
    List.filter_nil, List.append_nil, recalculate_filter_matters]

end EventReports

end Aixinwu
