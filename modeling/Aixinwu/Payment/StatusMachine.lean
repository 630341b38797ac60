import Aixinwu.Lib.Runs
import Aixinwu.Order.ChargeStatus
import Mathlib

/-!
# The status of a payment

`gateway_postprocess` of `saleor/payment/utils.py` over a whole life of a payment: transactions of
any kind come in any order, each any number of times, and in between the payment may be read from
the database again. The instance in memory and the row are two things here. A payment is saved by
its changed fields, and an amount is rounded when it is saved.

Two columns make the machine work. `already_processed` of a transaction is set with the changes of
the payment and never reset, so a transaction counts once. `captured_amount` is what the status is
computed from, so that the status after a charge or a refund agrees with it, whatever the status was
before.

A refund is cut off at zero. A failed capture is not: it takes its whole amount from what is
captured, also where a part of that was refunded before, and then the amount is negative.
**`statusMachine_iff`** says that nothing else goes wrong in any run.

## Main definitions

* `PaymentObject`, `savedFields`, `updatePaymentChargeStatus`
* `State`, `gatewayPostprocess`, `Step`, `step`
* `StatusMachine`, `NotOverdrawn`

## Main results

* `countSteps_changesCaptured_le_one` — a transaction counts once
* `statusMachine_iff` — every run
-/

namespace Aixinwu

namespace PaymentStatus

open Charges

/-! ### The model -/

/-- The fields of a payment that are saved here. -/
inductive PaymentField where
  | toConfirm
  | isActive
  | capturedAmount
  | chargeStatus
  | modifiedAt
deriving DecidableEq, Repr

/-- `payment.models.Payment` in memory. -/
structure PaymentObject where
  isActive : Bool
  toConfirm : Bool
  total : Amount
  capturedAmount : ℚ
  chargeStatus : ChargeStatus
deriving DecidableEq, Repr

/-- The instance that is read from a row. -/
def PaymentObject.ofRow (row : Payment) : PaymentObject where
  isActive := row.isActive
  toConfirm := row.toConfirm
  total := row.total
  capturedAmount := row.capturedAmount
  chargeStatus := row.chargeStatus

/-- `Payment.get_charge_amount`. -/
def PaymentObject.getChargeAmount (payment : PaymentObject) : ℚ :=
  payment.total - payment.capturedAmount

/-- `payment.save(update_fields=…)`. -/
def savedFields (row : Payment) (payment : PaymentObject) (fields : List PaymentField) : Payment :=
  { row with
    isActive := if .isActive ∈ fields then payment.isActive else row.isActive
    toConfirm := if .toConfirm ∈ fields then payment.toConfirm else row.toConfirm
    capturedAmount :=
      if .capturedAmount ∈ fields then toColumn payment.capturedAmount else row.capturedAmount
    chargeStatus :=
      if .chargeStatus ∈ fields then payment.chargeStatus else row.chargeStatus }

/-- `update_payment_charge_status`, up to the saving: the payment and the changed fields. -/
def updatePaymentChargeStatus (payment : PaymentObject) (transaction : GatewayTransaction)
    (changedFields : List PaymentField) : PaymentObject × List PaymentField :=
  match transaction.kind with
  | .capture | .refundReversed =>
    let payment :=
      { payment with
        capturedAmount := payment.capturedAmount + transaction.amount
        isActive := true
        chargeStatus := .partiallyCharged }
    let payment :=
      if payment.getChargeAmount ≤ 0 then { payment with chargeStatus := .fullyCharged }
      else payment
    (payment, changedFields ++ [.chargeStatus, .capturedAmount, .modifiedAt])
  | .void => ({ payment with isActive := false }, changedFields ++ [.isActive, .modifiedAt])
  | .refund =>
    let payment :=
      { payment with
        capturedAmount := payment.capturedAmount - transaction.amount
        chargeStatus := .partiallyRefunded }
    let payment :=
      if payment.capturedAmount ≤ 0 then
        { payment with capturedAmount := 0, chargeStatus := .fullyRefunded, isActive := false }
      else payment
    (payment, changedFields ++ [.capturedAmount, .modifiedAt] ++ [.chargeStatus, .isActive])
  | .pending => ({ payment with chargeStatus := .pending }, changedFields ++ [.chargeStatus])
  | .cancel =>
    ({ payment with chargeStatus := .cancelled, isActive := false },
      changedFields ++ [.chargeStatus, .isActive])
  | .captureFailed =>
    if payment.chargeStatus ∈ [ChargeStatus.partiallyCharged, .fullyCharged] then
      let payment :=
        { payment with
          capturedAmount := payment.capturedAmount - transaction.amount
          chargeStatus := .partiallyCharged }
      let payment :=
        if payment.capturedAmount ≤ 0 then { payment with chargeStatus := .notCharged }
        else payment
      (payment, changedFields ++ [.chargeStatus, .capturedAmount, .modifiedAt])
    else (payment, changedFields)
  | _ => (payment, changedFields)

/-- The payment in memory, its row, and the transactions by their key. -/
structure State where
  payment : PaymentObject
  row : Payment
  transactions : ℕ → GatewayTransaction

/-- The payment has just been read. -/
def start (row : Payment) (transactions : ℕ → GatewayTransaction) : State :=
  ⟨.ofRow row, row, transactions⟩

/-- The payment after `to_confirm` is taken back, and whether that is to be saved. -/
def confirmed (payment : PaymentObject) : PaymentObject × List PaymentField :=
  if payment.toConfirm then ({ payment with toConfirm := false }, [.toConfirm]) else (payment, [])

/-- `gateway_postprocess` of the transaction with the given key, without the update of the order. -/
def gatewayPostprocess (s : State) (pk : ℕ) : State :=
  let transaction := s.transactions pk
  if !transaction.isSuccess || transaction.alreadyProcessed then s
  else if transaction.actionRequired then
    let payment := { s.payment with toConfirm := true }
    { s with payment, row := savedFields s.row payment [.toConfirm] }
  else
    let updated := updatePaymentChargeStatus (confirmed s.payment).1 transaction
      (confirmed s.payment).2
    { payment := updated.1
      row := savedFields s.row updated.1 updated.2
      transactions :=
        Function.update s.transactions pk { transaction with alreadyProcessed := true } }

/-- What happens to a payment: a transaction is passed on, or the payment is read again. -/
inductive Step where
  | postprocess (pk : ℕ)
  | refresh
deriving DecidableEq, Repr

def step (s : State) : Step → State
  | .postprocess pk => gatewayPostprocess s pk
  | .refresh => { s with payment := .ofRow s.row }

/-! ### The statement -/

/-- The transaction is not passed over: it is successful, new, and needs no action. -/
def Processed (s : State) (pk : ℕ) : Prop :=
  (s.transactions pk).isSuccess ∧ ¬ (s.transactions pk).alreadyProcessed ∧
    ¬ (s.transactions pk).actionRequired

instance (s : State) (pk : ℕ) : Decidable (Processed s pk) :=
  inferInstanceAs (Decidable (_ ∧ _ ∧ _))

/-- A step that passes the transaction on and changes the captured amount. -/
def changesCaptured (pk : ℕ) (s : State) (a : Step) : Bool :=
  a = .postprocess pk && (step s a).payment.capturedAmount ≠ s.payment.capturedAmount

/-- What a step may do to the payment in memory. -/
structure StepRight (s : State) (a : Step) : Prop where
  /-- The captured amount does not become negative. -/
  notNegative : 0 ≤ s.payment.capturedAmount → 0 ≤ (step s a).payment.capturedAmount
  charged : ∀ pk, a = .postprocess pk → Processed s pk →
    (s.transactions pk).kind ∈ [TransactionKind.capture, .refundReversed] →
      ((step s a).payment.chargeStatus = .fullyCharged ↔
        (step s a).payment.total ≤ (step s a).payment.capturedAmount)
  refunded : ∀ pk, a = .postprocess pk → Processed s pk →
    (s.transactions pk).kind = .refund →
      ((step s a).payment.chargeStatus = .fullyRefunded ∧ (step s a).payment.isActive = false ↔
        (step s a).payment.capturedAmount = 0)

/-- A run as it should be: a transaction counts once, and every step is right. -/
structure StatusMachine (s : State) (as : List Step) : Prop where
  once : ∀ pk, Runs.countSteps step (changesCaptured pk) s as ≤ 1
  steps : Runs.EachStep step StepRight s as

/-- A capture that fails is not larger than what is captured. -/
def NotOverdrawn (s : State) (a : Step) : Prop :=
  ∀ pk, a = .postprocess pk → Processed s pk → (s.transactions pk).kind = .captureFailed →
    s.payment.chargeStatus ∈ [ChargeStatus.partiallyCharged, .fullyCharged] →
      0 ≤ s.payment.capturedAmount → (s.transactions pk).amount ≤ s.payment.capturedAmount

/-! ### One transaction -/

theorem confirmed_fst (payment : PaymentObject) :
    (confirmed payment).1 = { payment with toConfirm := false } := by
  rw [confirmed]
  split
  · rfl
  · rename_i h
    rw [Bool.not_eq_true] at h
    rw [← h]

variable {s : State} {pk : ℕ}

/-- A transaction that is processed updates the payment, and is marked. -/
theorem gatewayPostprocess_of_processed (h : Processed s pk) :
    gatewayPostprocess s pk =
      let updated := updatePaymentChargeStatus (confirmed s.payment).1 (s.transactions pk)
        (confirmed s.payment).2
      { payment := updated.1
        row := savedFields s.row updated.1 updated.2
        transactions := Function.update s.transactions pk
          { s.transactions pk with alreadyProcessed := true } } := by
  obtain ⟨h₁, h₂, h₃⟩ := h
  rw [Bool.not_eq_true] at h₂ h₃
  dsimp only [gatewayPostprocess]
  rw [h₁, h₂, h₃]
  rfl

/-- A transaction that is passed over leaves everything but the flag of the payment. -/
theorem gatewayPostprocess_of_not_processed (h : ¬ Processed s pk) :
    ∃ toConfirm rowToConfirm, gatewayPostprocess s pk =
      { payment := { s.payment with toConfirm }
        row := { s.row with toConfirm := rowToConfirm }
        transactions := s.transactions } := by
  dsimp only [gatewayPostprocess]
  split
  · exact ⟨s.payment.toConfirm, s.row.toConfirm, rfl⟩
  split
  · exact ⟨true, true, rfl⟩
  · rename_i h₁ h₂
    simp only [Bool.or_eq_true, Bool.not_eq_true', not_or, Bool.not_eq_false] at h₁
    exact absurd ⟨h₁.1, h₁.2, h₂⟩ h

/-- The captured amount after a transaction. -/
def capturedAfter (payment : PaymentObject) (transaction : GatewayTransaction) : ℚ :=
  match transaction.kind with
  | .capture | .refundReversed => payment.capturedAmount + transaction.amount
  | .refund => max (payment.capturedAmount - transaction.amount) 0
  | .captureFailed =>
    if payment.chargeStatus ∈ [ChargeStatus.partiallyCharged, .fullyCharged] then
      payment.capturedAmount - transaction.amount
    else payment.capturedAmount
  | _ => payment.capturedAmount

theorem capturedAmount_updatePaymentChargeStatus (payment : PaymentObject)
    (transaction : GatewayTransaction) (changedFields : List PaymentField) :
    (updatePaymentChargeStatus payment transaction changedFields).1.capturedAmount =
      capturedAfter payment transaction := by
  rw [updatePaymentChargeStatus, capturedAfter]
  cases transaction.kind with
  | capture | refundReversed =>
    dsimp only
    split <;> rfl
  | refund =>
    dsimp only
    split
    · rename_i h
      exact (max_eq_right h).symm
    · rename_i h
      exact (max_eq_left (not_le.mp h).le).symm
  | captureFailed =>
    dsimp only
    split
    · dsimp only
      split <;> rfl
    · rfl
  | _ => rfl

/-- A charge leaves a payment that is fully charged exactly if that is what the amount says. -/
theorem chargeStatus_of_charge {payment : PaymentObject} {transaction : GatewayTransaction}
    {changedFields : List PaymentField}
    (h : transaction.kind ∈ [TransactionKind.capture, .refundReversed]) :
    let payment' := (updatePaymentChargeStatus payment transaction changedFields).1
    payment'.chargeStatus = .fullyCharged ↔ payment'.total ≤ payment'.capturedAmount := by
  intro payment'
  have hpayment' : payment' =
      if (payment.total : ℚ) - (payment.capturedAmount + transaction.amount) ≤ 0 then
        { payment with
          capturedAmount := payment.capturedAmount + transaction.amount
          isActive := true
          chargeStatus := .fullyCharged }
      else
        { payment with
          capturedAmount := payment.capturedAmount + transaction.amount
          isActive := true
          chargeStatus := .partiallyCharged } := by
    simp only [List.mem_cons, List.not_mem_nil, or_false] at h
    rcases h with h | h <;> simp only [payment', updatePaymentChargeStatus, h] <;> rfl
  rw [hpayment']
  split
  · rename_i hle
    exact iff_of_true rfl (sub_nonpos.mp hle)
  · rename_i hlt
    exact iff_of_false (fun h => by cases h) fun hle => hlt (sub_nonpos.mpr hle)

/-- A refund leaves a payment that is fully refunded and inactive exactly if nothing is left. -/
theorem chargeStatus_of_refund {payment : PaymentObject} {transaction : GatewayTransaction}
    {changedFields : List PaymentField} (h : transaction.kind = .refund) :
    let payment' := (updatePaymentChargeStatus payment transaction changedFields).1
    payment'.chargeStatus = .fullyRefunded ∧ payment'.isActive = false ↔
      payment'.capturedAmount = 0 := by
  intro payment'
  have hpayment' : payment' =
      if payment.capturedAmount - transaction.amount ≤ 0 then
        { payment with capturedAmount := 0, chargeStatus := .fullyRefunded, isActive := false }
      else
        { payment with
          capturedAmount := payment.capturedAmount - transaction.amount
          chargeStatus := .partiallyRefunded } := by
    simp only [payment', updatePaymentChargeStatus, h]
  rw [hpayment']
  split
  · exact iff_of_true ⟨rfl, rfl⟩ rfl
  · rename_i hlt
    exact iff_of_false (fun h => by cases h.1) fun h => hlt h.le

/-- What is captured stays at zero or above, but for a capture that fails. -/
theorem capturedAfter_nonneg {payment : PaymentObject} {transaction : GatewayTransaction}
    (hamount : 0 ≤ transaction.amount) (hpayment : 0 ≤ payment.capturedAmount)
    (hfailed : transaction.kind = .captureFailed →
      payment.chargeStatus ∈ [ChargeStatus.partiallyCharged, .fullyCharged] →
        transaction.amount ≤ payment.capturedAmount) :
    0 ≤ capturedAfter payment transaction := by
  rw [capturedAfter]
  cases hkind : transaction.kind with
  | capture | refundReversed => exact add_nonneg hpayment hamount
  | refund => exact le_max_right _ _
  | captureFailed =>
    dsimp only
    split
    · rename_i hcharged
      exact sub_nonneg.mpr (hfailed hkind hcharged)
    · exact hpayment
  | _ => exact hpayment

/-! ### Every run -/

/-- What holds in every state: the row has the captured amount of the payment, and no transaction
has a negative amount. -/
structure Kept (s : State) : Prop where
  saved : s.row.capturedAmount = toColumn s.payment.capturedAmount
  amounts : ∀ pk, 0 ≤ (s.transactions pk).amount

/-- Where the captured amount changes, it is saved. -/
theorem capturedAmount_mem_of_ne (payment : PaymentObject) (transaction : GatewayTransaction)
    (changedFields : List PaymentField)
    (h : capturedAfter payment transaction ≠ payment.capturedAmount) :
    .capturedAmount ∈ (updatePaymentChargeStatus payment transaction changedFields).2 := by
  rw [capturedAfter] at h
  rw [updatePaymentChargeStatus]
  cases hkind : transaction.kind with
  | capture | refundReversed | refund => simp
  | captureFailed =>
    rw [hkind] at h
    by_cases hcharged : payment.chargeStatus ∈ [ChargeStatus.partiallyCharged, .fullyCharged]
    · simp only [if_pos hcharged]
      simp
    · exact absurd (if_neg hcharged) h
  | _ =>
    rw [hkind] at h
    exact absurd rfl h

theorem kept_step {s : State} (a : Step) (h : Kept s) : Kept (step s a) := by
  cases a with
  | refresh =>
    refine ⟨?_, h.amounts⟩
    exact (toColumn_intCast s.row.capturedAmount).symm
  | postprocess pk =>
    by_cases hp : Processed s pk
    · have hcaptured : (confirmed s.payment).1.capturedAmount = s.payment.capturedAmount := by
        rw [confirmed_fst]
      rw [step, gatewayPostprocess_of_processed hp]
      refine ⟨?_, fun pk' => ?_⟩
      · dsimp only [savedFields]
        split
        · rfl
        · rename_i hmem
          have heq := not_imp_comm.mp (capturedAmount_mem_of_ne (confirmed s.payment).1
            (s.transactions pk) (confirmed s.payment).2) hmem
          rw [capturedAmount_updatePaymentChargeStatus, heq, hcaptured]
          exact h.saved
      · dsimp only
        rw [Function.update_apply]
        split
        · exact h.amounts pk
        · exact h.amounts pk'
    · obtain ⟨c, c', heq⟩ := gatewayPostprocess_of_not_processed hp
      rw [step, heq]
      exact ⟨h.saved, h.amounts⟩

/-- A transaction that has changed the captured amount is marked, and then changes nothing. -/
theorem countSteps_changesCaptured_le_one (s : State) (as : List Step) (pk : ℕ) :
    Runs.countSteps step (changesCaptured pk) s as ≤ 1 := by
  refine Runs.countSteps_le_one (fun s => (s.transactions pk).alreadyProcessed = true)
    ?_ ?_ ?_ as s
  · intro s a hdone
    cases a with
    | refresh => exact hdone
    | postprocess pk' =>
      by_cases hp : Processed s pk'
      · rw [step, gatewayPostprocess_of_processed hp]
        dsimp only
        rw [Function.update_apply]
        split
        · rfl
        · exact hdone
      · obtain ⟨c, c', heq⟩ := gatewayPostprocess_of_not_processed hp
        rw [step, heq]
        exact hdone
  · intro s a hdone
    by_cases ha : a = .postprocess pk
    · subst ha
      have hp : ¬ Processed s pk := fun hp => hp.2.1 hdone
      obtain ⟨c, c', heq⟩ := gatewayPostprocess_of_not_processed hp
      simp [changesCaptured, step, heq]
    · simp [changesCaptured, ha]
  · intro s a hchanged
    simp only [changesCaptured, Bool.and_eq_true, decide_eq_true_eq] at hchanged
    obtain ⟨rfl, hne⟩ := hchanged
    by_cases hp : Processed s pk
    · rw [step, gatewayPostprocess_of_processed hp]
      dsimp only
      rw [Function.update_self]
    · obtain ⟨c, c', heq⟩ := gatewayPostprocess_of_not_processed hp
      rw [step, heq] at hne
      exact absurd rfl hne

/-- The captured amount after a step that processes a transaction. -/
theorem capturedAmount_step (h : Processed s pk) :
    (step s (.postprocess pk)).payment.capturedAmount =
      capturedAfter s.payment (s.transactions pk) := by
  rw [step, gatewayPostprocess_of_processed h]
  dsimp only
  rw [capturedAmount_updatePaymentChargeStatus, confirmed_fst]
  rfl

/-- One step: it is right unless a capture that fails is larger than what is captured. -/
theorem stepRight_iff {s : State} (a : Step) (h : Kept s) : StepRight s a ↔ NotOverdrawn s a := by
  constructor
  · intro hright pk ha hp hfailed hcharged hnonneg
    subst ha
    have hafter := hright.notNegative hnonneg
    rw [capturedAmount_step hp, capturedAfter, hfailed] at hafter
    dsimp only at hafter
    rw [if_pos hcharged] at hafter
    exact sub_nonneg.mp hafter
  · intro hok
    refine ⟨fun hnonneg => ?_, fun pk ha hp hkind => ?_, fun pk ha hp hkind => ?_⟩
    · cases a with
      | refresh =>
        show (0 : ℚ) ≤ (s.row.capturedAmount : ℚ)
        rw [h.saved]
        exact_mod_cast Decimals.roundHalfAway_nonneg hnonneg
      | postprocess pk =>
        by_cases hp : Processed s pk
        · rw [capturedAmount_step hp]
          exact capturedAfter_nonneg (h.amounts pk) hnonneg
            fun hfailed hcharged => hok pk rfl hp hfailed hcharged hnonneg
        · obtain ⟨c, c', heq⟩ := gatewayPostprocess_of_not_processed hp
          rw [step, heq]
          exact hnonneg
    · subst ha
      rw [step, gatewayPostprocess_of_processed hp]
      exact chargeStatus_of_charge hkind
    · subst ha
      rw [step, gatewayPostprocess_of_processed hp]
      exact chargeStatus_of_refund hkind

theorem kept_start {row : Payment} {transactions : ℕ → GatewayTransaction}
    (h : ∀ pk, 0 ≤ (transactions pk).amount) : Kept (start row transactions) :=
  ⟨(toColumn_intCast row.capturedAmount).symm, h⟩

/-- **Every run of a payment**: a transaction counts once and every step is right, exactly when no
capture that fails is larger than what is captured. -/
theorem statusMachine_iff (row : Payment) (transactions : ℕ → GatewayTransaction)
    (hamounts : ∀ pk, 0 ≤ (transactions pk).amount) (as : List Step) :
    StatusMachine (start row transactions) as ↔
      Runs.EachStep step NotOverdrawn (start row transactions) as := by
  have hkept : ∀ s a, Kept s → Kept (step s a) := fun s a => kept_step a
  constructor
  · intro h
    exact Runs.EachStep.inv_mono (fun s a hs _ => hkept s a hs)
      (fun s a hs => (stepRight_iff a hs).mp) h.steps (kept_start hamounts)
  · intro h
    refine ⟨countSteps_changesCaptured_le_one _ as, ?_⟩
    exact Runs.EachStep.inv_mono (fun s a hs _ => hkept s a hs)
      (fun s a hs => (stepRight_iff a hs).mpr) h (kept_start hamounts)

/-- A payment of ten, of which nothing is captured. -/
def tenToCapture : Payment := { pk := 1, order := none, gateway := "adyen", total := 10000 }

/-- Ten are captured, and that fails. -/
def failedWhole (pk : ℕ) : GatewayTransaction where
  kind := if pk = 1 then .capture else .captureFailed
  isSuccess := true
  amount := 10000

/-- A capture, its failure, and the capture once more. -/
theorem statusMachine_failedWhole :
    StatusMachine (start tenToCapture failedWhole)
      [.postprocess 1, .refresh, .postprocess 2, .postprocess 1] := by
  refine (statusMachine_iff tenToCapture failedWhole (fun pk => by norm_num [failedWhole]) _).mpr
    ⟨?_, ?_, ?_, ?_, trivial⟩
  · rintro pk ⟨rfl⟩ - hfailed
    cases hfailed
  · rintro pk ⟨⟩
  · rintro pk ⟨rfl⟩ - - - -
    decide +kernel
  · rintro pk ⟨rfl⟩ hp
    exact absurd hp (by decide)

/-- Ten are captured, six of them refunded, two captured again, and the capture of the ten fails. -/
def failedAfterRefund (pk : ℕ) : GatewayTransaction where
  kind := if pk = 2 then .refund else if pk = 4 then .captureFailed else .capture
  isSuccess := true
  amount := if pk = 2 then 6000 else if pk = 3 then 2000 else 10000

/-- The failure of the first capture takes ten from six. -/
theorem not_statusMachine_failedAfterRefund :
    (∀ pk, (failedAfterRefund pk).isSuccess ∧ 0 ≤ (failedAfterRefund pk).amount) ∧
      ¬ StatusMachine (start tenToCapture failedAfterRefund)
        [.postprocess 1, .postprocess 2, .postprocess 3, .postprocess 4] ∧
      (Runs.run step (start tenToCapture failedAfterRefund)
        [.postprocess 1, .postprocess 2, .postprocess 3, .postprocess 4]).row.capturedAmount =
          -4000 := by
  refine ⟨fun pk => ⟨rfl, ?_⟩, ?_, by decide +kernel⟩
  · rw [failedAfterRefund]
    dsimp only
    split_ifs <;> norm_num
  · rintro ⟨-, -, -, -, hlast, -⟩
    have hafter := hlast.notNegative (by decide +kernel)
    exact absurd hafter (by decide +kernel)

end PaymentStatus

end Aixinwu
