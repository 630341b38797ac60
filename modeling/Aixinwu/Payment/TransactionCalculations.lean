import Aixinwu.Account.Models
import Aixinwu.Lib.OrderBy
import Mathlib.Algebra.Group.Pi.Basic

/-!
# The amounts of a transaction

`saleor/payment/transaction_item_calculations.py`: the eight amounts of a transaction are a fold
over its events. Events without a psp reference are taken one by one; the others are grouped by
action and psp reference, the last event of each kind in a group counts, and each group moves
amounts between the fields. The newest authorization adjustment hides the older authorization
events and overwrites what is authorized.

The amounts are a function from field names, which is how the code reads and writes them
(`getattr`, `setattr`). Of an event the columns the calculation reads are kept.

## Main definitions

* `TransactionEvent`, `AmountField`, `Amounts`
* `initilizeActionMap` — the grouping
* `recalculateTransactionAmounts`
-/

namespace Aixinwu

namespace Payment

/-- `TransactionEventType`. -/
inductive TransactionEventType where
  | authorizationSuccess
  | authorizationFailure
  | authorizationAdjustment
  | authorizationRequest
  | authorizationActionRequired
  | chargeSuccess
  | chargeFailure
  | chargeBack
  | chargeActionRequired
  | chargeRequest
  | refundSuccess
  | refundFailure
  | refundReverse
  | refundRequest
  | cancelSuccess
  | cancelFailure
  | cancelRequest
  | info
deriving DecidableEq, Repr

/-- `payment.models.TransactionEvent`. -/
structure TransactionEvent where
  createdAt : Time
  type : TransactionEventType
  amountValue : Amount
  pspReference : Option String := none
  includeInCalculations : Bool := true
deriving DecidableEq, Repr

/-- The psp reference, an empty one being none. -/
def TransactionEvent.psp (e : TransactionEvent) : Option String :=
  if e.pspReference = some "" then none else e.pspReference

/-- The amount columns of a `TransactionItem`. -/
inductive AmountField where
  | authorizedValue
  | chargedValue
  | refundedValue
  | canceledValue
  | authorizePendingValue
  | chargePendingValue
  | refundPendingValue
  | cancelPendingValue
deriving DecidableEq, Repr

/-- The amounts of a transaction. -/
abbrev Amounts := AmountField → Amount

/-- `setattr(transaction, field, getattr(transaction, field) + x)`. -/
def increase (t : Amounts) (field : AmountField) (x : Amount) : Amounts :=
  Function.update t field (t field + x)

/-! ### Grouping the events -/

/-- `BaseEvent` with the extra slots of its subclasses: `adjustment` of the authorization events,
`back` of the charge events, `reverse` of the refund events. -/
structure ActionEvents where
  request : Option TransactionEvent := none
  success : Option TransactionEvent := none
  failure : Option TransactionEvent := none
  adjustment : Option TransactionEvent := none
  back : Option TransactionEvent := none
  reverse : Option TransactionEvent := none
deriving DecidableEq, Repr

/-- A `defaultdict` in insertion order: change the entry of `psp`, after adding an empty one if it
is missing. -/
def upsert (psp : String) (f : ActionEvents → ActionEvents) :
    List (String × ActionEvents) → List (String × ActionEvents)
  | [] => [(psp, f {})]
  | (p, g) :: rest => if p = psp then (p, f g) :: rest else (p, g) :: upsert psp f rest

/-- `ActionEventMap`. -/
structure ActionEventMap where
  withoutPspReference : List TransactionEvent := []
  authorization : List (String × ActionEvents) := []
  charge : List (String × ActionEvents) := []
  refund : List (String × ActionEvents) := []
  cancel : List (String × ActionEvents) := []
deriving DecidableEq, Repr

/-- `AUTHORIZATION_EVENTS`. -/
def AUTHORIZATION_EVENTS : List TransactionEventType :=
  [.authorizationSuccess, .authorizationFailure, .authorizationAdjustment, .authorizationRequest]

/-- `event.type in AUTHORIZATION_EVENTS`. -/
def TransactionEvent.isAuthorization (e : TransactionEvent) : Bool :=
  e.type ∈ AUTHORIZATION_EVENTS

/-- Whether an event is an authorization adjustment. -/
def TransactionEvent.isAdjustment (e : TransactionEvent) : Bool :=
  e.type = .authorizationAdjustment

/-- `_get_authorize_events`: from the newest adjustment on, all of them without one. -/
def getAuthorizeEvents (events : List TransactionEvent) : List TransactionEvent :=
  let authorizeEvents := events.filter (·.isAuthorization)
  match authorizeEvents.reverse.findIdx? (·.isAdjustment) with
  | some i => authorizeEvents.drop (authorizeEvents.length - 1 - i)
  | none => authorizeEvents

/-- One pass of the first loop of `_initilize_action_map`. -/
def ActionEventMap.addAuthorize (m : ActionEventMap) (event : TransactionEvent) : ActionEventMap :=
  match event.psp with
  | none => { m with withoutPspReference := m.withoutPspReference ++ [event] }
  | some psp =>
    match event.type with
    | .authorizationRequest =>
      { m with
        authorization := upsert psp (fun g => { g with request := event }) m.authorization }
    | .authorizationSuccess =>
      { m with
        authorization := upsert psp (fun g => { g with success := event }) m.authorization }
    | .authorizationFailure =>
      { m with
        authorization := upsert psp (fun g => { g with failure := event }) m.authorization }
    | .authorizationAdjustment =>
      { m with
        authorization := upsert psp (fun g => { g with adjustment := event }) m.authorization }
    | _ => m

/-- One pass of the second loop of `_initilize_action_map`. -/
def ActionEventMap.addOther (m : ActionEventMap) (event : TransactionEvent) : ActionEventMap :=
  match event.psp with
  | none => { m with withoutPspReference := m.withoutPspReference ++ [event] }
  | some psp =>
    match event.type with
    | .chargeRequest =>
      { m with charge := upsert psp (fun g => { g with request := event }) m.charge }
    | .chargeSuccess =>
      { m with charge := upsert psp (fun g => { g with success := event }) m.charge }
    | .chargeFailure =>
      { m with charge := upsert psp (fun g => { g with failure := event }) m.charge }
    | .chargeBack =>
      { m with charge := upsert psp (fun g => { g with back := event }) m.charge }
    | .refundRequest =>
      { m with refund := upsert psp (fun g => { g with request := event }) m.refund }
    | .refundFailure =>
      { m with refund := upsert psp (fun g => { g with failure := event }) m.refund }
    | .refundSuccess =>
      { m with refund := upsert psp (fun g => { g with success := event }) m.refund }
    | .refundReverse =>
      { m with refund := upsert psp (fun g => { g with reverse := event }) m.refund }
    | .cancelRequest =>
      { m with cancel := upsert psp (fun g => { g with request := event }) m.cancel }
    | .cancelSuccess =>
      { m with cancel := upsert psp (fun g => { g with success := event }) m.cancel }
    | .cancelFailure =>
      { m with cancel := upsert psp (fun g => { g with failure := event }) m.cancel }
    | _ => m

/-- `_initilize_action_map`. -/
def initilizeActionMap (events : List TransactionEvent) : ActionEventMap :=
  let m := (getAuthorizeEvents events).foldl ActionEventMap.addAuthorize {}
  (events.filter (!·.isAuthorization)).foldl ActionEventMap.addOther m

/-! ### Moving the amounts -/

/-- `_should_increase_pending_amount`. -/
def shouldIncreasePendingAmount (request success failure : Option TransactionEvent) : Bool :=
  request.isSome && (failure.isNone && success.isNone)

/-- `_should_increse_amount`: a success counts unless a failure of the same reference is as new. -/
def shouldIncreseAmount (success failure : Option TransactionEvent) : Bool :=
  match success, failure with
  | some s, some f => s.createdAt > f.createdAt
  | some _, none => true
  | none, _ => false

/-- Add an amount to one field and, if there is a field it comes from, take it from there. -/
def move (t : Amounts) (event : Option TransactionEvent) (field : AmountField)
    (previous : Option AmountField) : Amounts :=
  match event with
  | none => t
  | some e =>
    let t := increase t field e.amountValue
    match previous with
    | none => t
    | some p => increase t p (-e.amountValue)

/-- `_recalculate_base_amounts`. -/
def recalculateBaseAmounts (t : Amounts) (g : ActionEvents) (pendingAmountFieldName : AmountField)
    (amountFieldName : AmountField) (previousAmountFieldName : Option AmountField) : Amounts :=
  let t :=
    if shouldIncreasePendingAmount g.request g.success g.failure then
      move t g.request pendingAmountFieldName previousAmountFieldName
    else t
  if shouldIncreseAmount g.success g.failure then
    move t g.success amountFieldName previousAmountFieldName
  else t

/-- `_recalculate_authorization_amounts`. -/
def recalculateAuthorizationAmounts (t : Amounts) (g : ActionEvents) : Amounts :=
  let t :=
    match g.adjustment with
    | some adjustment => Function.update t .authorizedValue adjustment.amountValue
    | none => t
  recalculateBaseAmounts t g .authorizePendingValue .authorizedValue none

/-- `_recalculate_charge_amounts`. -/
def recalculateChargeAmounts (t : Amounts) (g : ActionEvents) : Amounts :=
  let t :=
    match g.back with
    | some back => increase t .chargedValue (-back.amountValue)
    | none => t
  recalculateBaseAmounts t g .chargePendingValue .chargedValue (some .authorizedValue)

/-- `_recalculate_refund_amounts`. -/
def recalculateRefundAmounts (t : Amounts) (g : ActionEvents) : Amounts :=
  let t :=
    match g.reverse with
    | some reverse =>
      increase (increase t .chargedValue reverse.amountValue) .refundedValue (-reverse.amountValue)
    | none => t
  recalculateBaseAmounts t g .refundPendingValue .refundedValue (some .chargedValue)

/-- `_recalculate_cancel_amounts`. -/
def recalculateCancelAmounts (t : Amounts) (g : ActionEvents) : Amounts :=
  recalculateBaseAmounts t g .cancelPendingValue .canceledValue (some .authorizedValue)

/-- One pass of `_handle_events_without_psp_reference`. -/
def handleEventWithoutPspReference (t : Amounts) (event : TransactionEvent) : Amounts :=
  match event.type with
  | .authorizationSuccess => increase t .authorizedValue event.amountValue
  | .authorizationAdjustment => Function.update t .authorizedValue event.amountValue
  | .chargeSuccess => increase t .chargedValue event.amountValue
  | .chargeBack => increase t .chargedValue (-event.amountValue)
  | .refundSuccess => increase t .refundedValue event.amountValue
  | .refundReverse => increase t .chargedValue event.amountValue
  | .cancelSuccess => increase t .canceledValue event.amountValue
  | _ => t

/-- `calculate_transaction_amount_based_on_events`, of the events in the order of the query. -/
def calculateTransactionAmountBasedOnEvents (events : List TransactionEvent) : Amounts :=
  let m := initilizeActionMap events
  let t : Amounts := 0
  let t := m.withoutPspReference.foldl handleEventWithoutPspReference t
  let t := (m.authorization.map (·.2)).foldl recalculateAuthorizationAmounts t
  let t := (m.charge.map (·.2)).foldl recalculateChargeAmounts t
  let t := (m.refund.map (·.2)).foldl recalculateRefundAmounts t
  (m.cancel.map (·.2)).foldl recalculateCancelAmounts t

/-- The query of the events of a transaction: those that count, by `created_at`. -/
def countedEvents (events : List TransactionEvent) : List TransactionEvent :=
  orderBy (·.createdAt) (events.filter (·.includeInCalculations))

/-- `max(value, 0)` on one field. -/
def clamp (t : Amounts) (field : AmountField) : Amounts := Function.update t field (max (t field) 0)

/-- `recalculate_transaction_amounts`, of all events of a transaction. -/
def recalculateTransactionAmounts (events : List TransactionEvent) : Amounts :=
  clamp (clamp (calculateTransactionAmountBasedOnEvents (countedEvents events)) .authorizedValue)
    .authorizePendingValue

end Payment

end Aixinwu
