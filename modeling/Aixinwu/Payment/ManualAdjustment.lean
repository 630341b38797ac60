import Aixinwu.Payment.TransactionAmounts

/-!
# Adjusting a transaction by hand

`create_manual_adjustment_events` of `saleor/payment/utils.py`: for every amount that should have
another value, an event with the difference, so that recalculating the amounts gives the values
asked for. For the charged, refunded and canceled amounts it does, since an event without a psp
reference adds its amount. The authorized amount is another matter. The difference is taken from
the stored amount, which has been cut off at zero; once there is an authorization success the
event is an adjustment with the whole amount, which hides every older authorization event and is
itself reduced by what charges and cancels with a psp reference take; and an adjustment that is
newer, or has a psp reference, overrides it. `adjusted_reaches_iff` says exactly when all requested
amounts are reached and all others are left alone.

A requested value is a decimal of any precision; the amount of an event is a column.

## Main definitions

* `createManualAdjustmentEvents`, `adjusted`
* `ReachesTarget`, `AuthorizationReaches`

## Main results

* `rawAmounts_snoc_success`, `rawAmounts_snoc_adjustment`, `rawAmounts_snoc_of_exists` — what the
  authorization event does
* `adjusted_reaches_iff`
-/

namespace Aixinwu

namespace Payment

/-- `payment.models.TransactionItem`, its amounts and its events. -/
structure TransactionItem where
  amounts : Amounts
  events : List TransactionEvent

/-- The `money_data` of an update: the fields that are present, with the values asked for, in
thousandths. -/
structure MoneyData where
  authorizedValue : Option ℚ := none
  chargedValue : Option ℚ := none
  refundedValue : Option ℚ := none
  canceledValue : Option ℚ := none
deriving DecidableEq, Repr

/-- The value asked for in a field. -/
def MoneyData.get (m : MoneyData) : AmountField → Option ℚ
  | .authorizedValue => m.authorizedValue
  | .chargedValue => m.chargedValue
  | .refundedValue => m.refundedValue
  | .canceledValue => m.canceledValue
  | _ => none

/-- `_prepare_manual_event`, as the row that is saved. -/
def manualEvent (now : Time) (transactionAmount inputAmount : ℚ) (type : TransactionEventType) :
    TransactionEvent where
  createdAt := now
  type := type
  amountValue := toColumn (inputAmount - transactionAmount)
  includeInCalculations := true

/-- `prepare_manual_event`: the event, unless the field is absent or has the value already. -/
def prepareManualEvent (now : Time) (transactionAmount : Amount) (amountValue : Option ℚ)
    (type : TransactionEventType) : List TransactionEvent :=
  match amountValue with
  | none => []
  | some v =>
    if (transactionAmount : ℚ) ≠ v then [manualEvent now transactionAmount v type] else []

/-- The first part of `create_manual_adjustment_events`: with an authorization success among the
events, of any age and counted or not, the event is an adjustment with the whole amount. -/
def authorizationEvents (item : TransactionItem) (moneyData : MoneyData) (now : Time) :
    List TransactionEvent :=
  match moneyData.authorizedValue with
  | none => []
  | some v =>
    if (item.amounts .authorizedValue : ℚ) ≠ v then
      if item.events.any (·.type = .authorizationSuccess) then
        [manualEvent now 0 v .authorizationAdjustment]
      else [manualEvent now (item.amounts .authorizedValue) v .authorizationSuccess]
    else []

/-- `create_manual_adjustment_events`; `now` is the clock when the event of a field is made. -/
def createManualAdjustmentEvents (item : TransactionItem) (moneyData : MoneyData)
    (now : AmountField → Time) : List TransactionEvent :=
  authorizationEvents item moneyData (now .authorizedValue)
    ++ prepareManualEvent (now .chargedValue) (item.amounts .chargedValue) moneyData.chargedValue
      .chargeSuccess
    ++ prepareManualEvent (now .refundedValue) (item.amounts .refundedValue)
      moneyData.refundedValue .refundSuccess
    ++ prepareManualEvent (now .canceledValue) (item.amounts .canceledValue)
      moneyData.canceledValue .cancelSuccess

/-- The transaction after the events are saved and the amounts recalculated. -/
def adjusted (item : TransactionItem) (moneyData : MoneyData) (now : AmountField → Time) :
    TransactionItem :=
  let events := item.events ++ createManualAdjustmentEvents item moneyData now
  { amounts := recalculateTransactionAmounts events, events }

/-- The amounts asked for are there, the others are as they were. -/
def ReachesTarget (before after : Amounts) (moneyData : MoneyData) : Prop :=
  ∀ f, match moneyData.get f with
    | some q => (after f : ℚ) = q
    | none => after f = before f

/-- The counted events that are newer than `now`. -/
def laterEvents (events : List TransactionEvent) (now : Time) : List TransactionEvent :=
  (countedEvents events).filter (now < ·.createdAt)

/-- When an authorization event made at `now` brings the authorized amount to `target`. No
adjustment may be newer. Where the event is an adjustment, what newer authorizations add has to be
what charges and cancels with a psp reference take, or less if nothing is to be authorized, and
the pending authorizations it hides must not matter. Where it is a success, the amount stored must
not have been cut off, and no adjustment with a psp reference may be in force. -/
def AuthorizationReaches (events : List TransactionEvent) (now : Time) (target : Amount) : Prop :=
  let counted := countedEvents events
  let later := laterEvents events now
  (∀ e ∈ later, ¬ e.isAdjustment) ∧
    if events.any (·.type = .authorizationSuccess) then
      let newer := calculateTransactionAmountBasedOnEvents (later.filter (·.isAuthorization))
      let others := calculateTransactionAmountBasedOnEvents (counted.filter (!·.isAuthorization))
      let beside := newer .authorizedValue + others .authorizedValue
      (beside = 0 ∨ target = 0 ∧ beside ≤ 0) ∧
        max (newer .authorizePendingValue) 0
          = max (calculateTransactionAmountBasedOnEvents counted .authorizePendingValue) 0
    else
      0 ≤ calculateTransactionAmountBasedOnEvents counted .authorizedValue ∧
        ∀ e ∈ getAuthorizeEvents counted, e.isAdjustment → e.psp = none

instance (events : List TransactionEvent) (now : Time) (target : Amount) :
    Decidable (AuthorizationReaches events now target) :=
  inferInstanceAs (Decidable (_ ∧ ite _ _ _))

/-! ### Events that are not about authorization -/

/-- What the events of a transaction add up to, before it is cut off at zero. -/
def rawAmounts (events : List TransactionEvent) : Amounts :=
  calculateTransactionAmountBasedOnEvents (countedEvents events)

/-- The two amounts that are cut off at zero. -/
def AmountField.isAuthorization : AmountField → Bool
  | .authorizedValue => true
  | .authorizePendingValue => true
  | _ => false

theorem recalculateTransactionAmounts_apply (events : List TransactionEvent) (f : AmountField) :
    recalculateTransactionAmounts events f
      = if f.isAuthorization then max (rawAmounts events f) 0 else rawAmounts events f := by
  rw [recalculateTransactionAmounts, rawAmounts]
  cases f <;> simp [clamp, AmountField.isAuthorization]

section OneEvent

variable {events : List TransactionEvent} {e : TransactionEvent}

/-- The counted events that are not. -/
def earlierEvents (events : List TransactionEvent) (now : Time) : List TransactionEvent :=
  (countedEvents events).filter (·.createdAt ≤ now)

theorem earlierEvents_append_laterEvents (events : List TransactionEvent) (now : Time) :
    earlierEvents events now ++ laterEvents events now = countedEvents events :=
  filter_le_append_filter_lt _ _ _

theorem countedEvents_snoc (events : List TransactionEvent) (h : e.includeInCalculations) :
    countedEvents (events ++ [e])
      = earlierEvents events e.createdAt ++ e :: laterEvents events e.createdAt := by
  rw [countedEvents, List.filter_append, List.filter_singleton, h]
  exact orderBy_snoc _ _ _

theorem rawAmounts_snoc_other (events : List TransactionEvent) (h : e.includeInCalculations)
    (he : ¬ e.isAuthorization) (hpsp : e.psp = none) :
    rawAmounts (events ++ [e]) = rawAmounts events + handleEventWithoutPspReference 0 e := by
  rw [rawAmounts, countedEvents_snoc events h, calculate_insert_other _ _ he hpsp,
    earlierEvents_append_laterEvents, rawAmounts]

/-- The difference an event of a field carries. -/
def manualDelta (transactionAmount : Amount) (amountValue : Option ℚ) : Amount :=
  match amountValue with
  | none => 0
  | some v => toColumn (v - transactionAmount)

/-- The event of a charged, refunded or canceled amount adds the difference to its field. -/
theorem rawAmounts_prepareManualEvent (events : List TransactionEvent) (now : Time) (a : Amount)
    (v : Option ℚ) {type : TransactionEventType} {field : AmountField}
    (htype : type ∉ AUTHORIZATION_EVENTS)
    (hhandle : ∀ e : TransactionEvent, e.type = type →
      handleEventWithoutPspReference 0 e = increase 0 field e.amountValue) :
    rawAmounts (events ++ prepareManualEvent now a v type)
      = rawAmounts events + Pi.single field (manualDelta a v) := by
  rcases v with _ | v
  · simp [prepareManualEvent, manualDelta]
  · rw [prepareManualEvent, manualDelta]
    by_cases h : (a : ℚ) = v
    · rw [if_neg (not_not.mpr h), ← h, sub_self, ← Int.cast_zero, toColumn_intCast]
      simp
    · have hauth : ¬ (manualEvent now a v type).isAuthorization := by
        rw [TransactionEvent.isAuthorization, decide_eq_true_iff]
        exact htype
      rw [if_pos h, rawAmounts_snoc_other events rfl hauth rfl, hhandle _ rfl, increase_eq, zero_add]
      rfl

/-- An amount and the difference to a decimal make the decimal when it has three digits. -/
theorem add_manualDelta_eq_iff (a : Amount) (q : ℚ) :
    ((a + manualDelta a (some q) : ℤ) : ℚ) = q ↔ ∃ n : ℤ, q = n := by
  rw [manualDelta]
  constructor
  · intro h
    exact ⟨_, h.symm⟩
  · rintro ⟨n, rfl⟩
    rw [← Int.cast_sub, toColumn_intCast]
    simp

/-! ### The authorization event -/

/-- Authorization events touch the authorized and the pending amount only. -/
theorem handleEvent_apply_of_not_isAuthorization {f : AmountField} (hf : ¬ f.isAuthorization)
    (he : e.isAuthorization) (t : Amounts) : handleEventWithoutPspReference t e f = t f := by
  have hne : f ≠ .authorizedValue := by
    rintro rfl
    exact hf rfl
  have hmem : e.type ∈ AUTHORIZATION_EVENTS := by simpa [TransactionEvent.isAuthorization] using he
  simp only [AUTHORIZATION_EVENTS, List.mem_cons, List.not_mem_nil, or_false] at hmem
  rcases hmem with h | h | h | h <;> simp [handleEventWithoutPspReference, h, increase, hne]

theorem move_apply (t : Amounts) (event : Option TransactionEvent) {f field : AmountField}
    {previous : Option AmountField} (hfield : f ≠ field) (hprevious : previous ≠ some f) :
    move t event field previous f = t f := by
  rcases event with _ | e
  · rfl
  · rcases previous with _ | p
    · simp [move, increase, hfield]
    · have hp : f ≠ p := by
        rintro rfl
        exact hprevious rfl
      simp [move, increase, hfield, hp]

theorem recalculateBaseAmounts_apply (t : Amounts) (g : ActionEvents)
    {f pending field : AmountField} {previous : Option AmountField} (hpending : f ≠ pending)
    (hfield : f ≠ field) (hprevious : previous ≠ some f) :
    recalculateBaseAmounts t g pending field previous f = t f := by
  rw [recalculateBaseAmounts]
  split <;> split <;>
    simp only [move_apply _ _ hpending hprevious, move_apply _ _ hfield hprevious]

/-- A fold whose steps leave a field alone leaves it alone. -/
theorem foldl_apply {α : Type*} {F : Amounts → α → Amounts} {f : AmountField} {l : List α}
    (hF : ∀ a ∈ l, ∀ t, F t a f = t f) (t : Amounts) : l.foldl F t f = t f := by
  induction l generalizing t with
  | nil => rfl
  | cons a l ih =>
    rw [List.foldl_cons, ih fun b hb => hF b (List.mem_cons_of_mem _ hb), hF a List.mem_cons_self]

theorem recalculateAuthorizationAmounts_apply {f : AmountField} (hf : ¬ f.isAuthorization)
    (t : Amounts) (g : ActionEvents) : recalculateAuthorizationAmounts t g f = t f := by
  have hvalue : f ≠ .authorizedValue := by
    rintro rfl
    exact hf rfl
  have hpending : f ≠ .authorizePendingValue := by
    rintro rfl
    exact hf rfl
  rw [recalculateAuthorizationAmounts, recalculateBaseAmounts_apply _ _ hpending hvalue (by simp)]
  rcases g.adjustment with _ | adjustment
  · rfl
  · exact Function.update_of_ne hvalue _ _

theorem authorizeAmounts_apply {l : List TransactionEvent} (hl : ∀ a ∈ l, a.isAuthorization)
    {f : AmountField} (hf : ¬ f.isAuthorization) : authorizeAmounts l f = 0 := by
  rw [authorizeAmounts, foldl_apply fun g _ t => recalculateAuthorizationAmounts_apply hf t g,
    foldl_apply fun a ha t =>
      handleEvent_apply_of_not_isAuthorization hf (hl a (List.mem_of_mem_filter ha)) t]
  rfl

/-- The other events never touch the pending authorizations. -/
theorem otherAmounts_authorizePendingValue (l : List TransactionEvent) :
    otherAmounts l .authorizePendingValue = 0 := by
  have hevent (t : Amounts) (a : TransactionEvent) :
      handleEventWithoutPspReference t a .authorizePendingValue = t .authorizePendingValue := by
    rw [handleEventWithoutPspReference]
    cases a.type <;> simp [increase]
  have hcharge (t : Amounts) (g : ActionEvents) :
      recalculateChargeAmounts t g .authorizePendingValue = t .authorizePendingValue := by
    rw [recalculateChargeAmounts, recalculateBaseAmounts_apply _ _ (by decide) (by decide) (by decide)]
    cases g.back <;> simp [increase]
  have hrefund (t : Amounts) (g : ActionEvents) :
      recalculateRefundAmounts t g .authorizePendingValue = t .authorizePendingValue := by
    rw [recalculateRefundAmounts, recalculateBaseAmounts_apply _ _ (by decide) (by decide) (by decide)]
    cases g.reverse <;> simp [increase]
  have hcancel (t : Amounts) (g : ActionEvents) :
      recalculateCancelAmounts t g .authorizePendingValue = t .authorizePendingValue :=
    recalculateBaseAmounts_apply _ _ (by decide) (by decide) (by decide)
  rw [otherAmounts, ActionEventMap.recalculateOther, foldl_apply fun g _ t => hcancel t g,
    foldl_apply fun g _ t => hrefund t g, foldl_apply fun g _ t => hcharge t g,
    foldl_apply fun a _ t => hevent t a]
  rfl

theorem isAuthorization_of_mem_getAuthorizeEvents {l : List TransactionEvent}
    (h : e ∈ getAuthorizeEvents l) : e.isAuthorization := by
  simp only [getAuthorizeEvents] at h
  split at h
  · exact List.of_mem_filter (List.mem_of_mem_drop h)
  · exact List.of_mem_filter h

/-- A newer adjustment overrides the event. -/
theorem getAuthorizeEvents_insert_of_exists {l₁ l₂ : List TransactionEvent}
    (h : ∃ a ∈ l₂, a.isAdjustment) :
    getAuthorizeEvents (l₁ ++ e :: l₂) = getAuthorizeEvents (l₁ ++ l₂) := by
  obtain ⟨a, ha, hadj⟩ := h
  rcases exists_newest_adjustment l₂ with hnone | ⟨m₁, b, m₂, rfl, hb, hm₂⟩
  · exact absurd hadj (hnone a ha)
  · rw [show l₁ ++ e :: (m₁ ++ b :: m₂) = (l₁ ++ e :: m₁) ++ b :: m₂ by simp, ← List.append_assoc,
      getAuthorizeEvents_split hb hm₂, getAuthorizeEvents_split hb hm₂]

/-- An authorization event that is not an adjustment and has none after it stands among the events
that count. -/
theorem getAuthorizeEvents_insert {l₁ l₂ : List TransactionEvent} (he : e.isAuthorization)
    (hadj : ¬ e.isAdjustment) (hl₂ : ∀ a ∈ l₂, ¬ a.isAdjustment) :
    ∃ w₁ w₂, getAuthorizeEvents (l₁ ++ l₂) = w₁ ++ w₂ ∧
      getAuthorizeEvents (l₁ ++ e :: l₂) = w₁ ++ e :: w₂ ∧ ∀ a ∈ w₂, ¬ a.isAdjustment := by
  have hw₂ : ∀ a ∈ l₂.filter (·.isAuthorization), ¬ a.isAdjustment :=
    fun a ha => hl₂ a (List.mem_of_mem_filter ha)
  rcases exists_newest_adjustment l₁ with hnone | ⟨m₁, b, m₂, rfl, hb, hm₂⟩
  · refine ⟨l₁.filter (·.isAuthorization), l₂.filter (·.isAuthorization), ?_, ?_, hw₂⟩
    · rw [getAuthorizeEvents_of_forall, List.filter_append]
      exact List.forall_mem_append.mpr ⟨hnone, hl₂⟩
    · rw [getAuthorizeEvents_of_forall, List.filter_append, List.filter_cons_of_pos he]
      exact List.forall_mem_append.mpr ⟨hnone, List.forall_mem_cons.mpr ⟨hadj, hl₂⟩⟩
  · refine ⟨b :: m₂.filter (·.isAuthorization), l₂.filter (·.isAuthorization), ?_, ?_, hw₂⟩
    · rw [List.append_assoc, List.cons_append, getAuthorizeEvents_split hb, List.filter_append,
        List.cons_append]
      exact List.forall_mem_append.mpr ⟨hm₂, hl₂⟩
    · rw [List.append_assoc, List.cons_append, getAuthorizeEvents_split hb, List.filter_append,
        List.filter_cons_of_pos he, List.cons_append]
      exact List.forall_mem_append.mpr ⟨hm₂, List.forall_mem_cons.mpr ⟨hadj, hl₂⟩⟩

theorem filter_not_isAuthorization_snoc (h : e.includeInCalculations) (he : e.isAuthorization) :
    (countedEvents (events ++ [e])).filter (!·.isAuthorization)
      = (countedEvents events).filter (!·.isAuthorization) := by
  rw [countedEvents_snoc events h, List.filter_append, List.filter_cons_of_neg (by simp [he]),
    ← List.filter_append, earlierEvents_append_laterEvents]

theorem rawAmounts_snoc_of_exists (h : e.includeInCalculations) (he : e.isAuthorization)
    (hlater : ∃ a ∈ laterEvents events e.createdAt, a.isAdjustment) :
    rawAmounts (events ++ [e]) = rawAmounts events := by
  rw [rawAmounts, rawAmounts, calculate_eq, calculate_eq, filter_not_isAuthorization_snoc h he,
    countedEvents_snoc events h, getAuthorizeEvents_insert_of_exists hlater,
    earlierEvents_append_laterEvents]

theorem rawAmounts_snoc_success (h : e.includeInCalculations)
    (htype : e.type = .authorizationSuccess) (hpsp : e.psp = none)
    (hlater : ∀ a ∈ laterEvents events e.createdAt, ¬ a.isAdjustment) :
    rawAmounts (events ++ [e])
      = rawAmounts events
        + if ∃ a ∈ getAuthorizeEvents (countedEvents events), a.isAdjustment ∧ a.psp.isSome then 0
          else Pi.single .authorizedValue e.amountValue := by
  have he : e.isAuthorization := by
    simp [TransactionEvent.isAuthorization, AUTHORIZATION_EVENTS, htype]
  have hadj : ¬ e.isAdjustment := by simp [TransactionEvent.isAdjustment, htype]
  obtain ⟨w₁, w₂, hbefore, hafter, hw₂⟩ := getAuthorizeEvents_insert he hadj hlater
  rw [earlierEvents_append_laterEvents] at hbefore
  rw [rawAmounts, rawAmounts, calculate_eq, calculate_eq, filter_not_isAuthorization_snoc h he,
    countedEvents_snoc events h, hafter, authorizeAmounts_insert hw₂ htype hpsp, hbefore,
    add_right_comm]

theorem rawAmounts_snoc_adjustment (h : e.includeInCalculations)
    (htype : e.type = .authorizationAdjustment) (hpsp : e.psp = none)
    (hlater : ∀ a ∈ laterEvents events e.createdAt, ¬ a.isAdjustment) :
    rawAmounts (events ++ [e])
      = authorizeAmounts ((laterEvents events e.createdAt).filter (·.isAuthorization))
        + otherAmounts ((countedEvents events).filter (!·.isAuthorization))
        + Pi.single .authorizedValue e.amountValue := by
  have he : e.isAuthorization := by
    simp [TransactionEvent.isAuthorization, AUTHORIZATION_EVENTS, htype]
  have hadj : e.isAdjustment := by simp [TransactionEvent.isAdjustment, htype]
  rw [rawAmounts, calculate_eq, filter_not_isAuthorization_snoc h he, countedEvents_snoc events h,
    getAuthorizeEvents_split hadj hlater,
    authorizeAmounts_adjustment (fun a ha => hlater a (List.mem_of_mem_filter ha)) htype hpsp,
    add_right_comm]

end OneEvent

/-- Alone, authorization events without an adjustment all count. -/
theorem calculate_filter_isAuthorization {l : List TransactionEvent}
    (hl : ∀ a ∈ l, ¬ a.isAdjustment) :
    calculateTransactionAmountBasedOnEvents (l.filter (·.isAuthorization))
      = authorizeAmounts (l.filter (·.isAuthorization)) := by
  rw [calculate_eq, getAuthorizeEvents_of_forall fun a ha => hl a (List.mem_of_mem_filter ha),
    List.filter_filter, List.filter_filter]
  simp [otherAmounts, ActionEventMap.recalculateOther]

theorem calculate_filter_not_isAuthorization (l : List TransactionEvent) :
    calculateTransactionAmountBasedOnEvents (l.filter (!·.isAuthorization))
      = otherAmounts (l.filter (!·.isAuthorization)) := by
  have hnone : ∀ a ∈ l.filter (!·.isAuthorization), ¬ a.isAdjustment := fun a ha =>
    not_isAdjustment_of_not_isAuthorization (by simpa using List.of_mem_filter ha)
  rw [calculate_eq, getAuthorizeEvents_of_forall hnone, List.filter_filter, List.filter_filter]
  simp [authorizeAmounts, authorizationGroups]

/-! ### Reaching the target -/

section Target

variable {item : TransactionItem} {moneyData : MoneyData} {now : AmountField → Time}

/-- What an authorization event does to the amounts that are not about authorization: nothing. -/
theorem rawAmounts_authorizationEvents_apply {f : AmountField} (hf : ¬ f.isAuthorization)
    (item : TransactionItem) (moneyData : MoneyData) (now : Time) :
    rawAmounts (item.events ++ authorizationEvents item moneyData now) f
      = rawAmounts item.events f := by
  have hevent (e : TransactionEvent) (h : e.includeInCalculations) (he : e.isAuthorization) :
      rawAmounts (item.events ++ [e]) f = rawAmounts item.events f := by
    rw [rawAmounts, rawAmounts, calculate_eq, calculate_eq, filter_not_isAuthorization_snoc h he,
      Pi.add_apply, Pi.add_apply,
      authorizeAmounts_apply (fun a => isAuthorization_of_mem_getAuthorizeEvents) hf,
      authorizeAmounts_apply (fun a => isAuthorization_of_mem_getAuthorizeEvents) hf]
  rw [authorizationEvents]
  split
  · rw [List.append_nil]
  · split
    · split <;> exact hevent _ rfl rfl
    · rw [List.append_nil]

/-- The other three events add their differences. -/
theorem rawAmounts_createManualAdjustmentEvents (item : TransactionItem) (moneyData : MoneyData)
    (now : AmountField → Time) :
    rawAmounts (item.events ++ createManualAdjustmentEvents item moneyData now)
      = rawAmounts (item.events ++ authorizationEvents item moneyData (now .authorizedValue))
        + Pi.single .chargedValue
          (manualDelta (item.amounts .chargedValue) moneyData.chargedValue)
        + Pi.single .refundedValue
          (manualDelta (item.amounts .refundedValue) moneyData.refundedValue)
        + Pi.single .canceledValue
          (manualDelta (item.amounts .canceledValue) moneyData.canceledValue) := by
  rw [createManualAdjustmentEvents]
  simp only [← List.append_assoc]
  rw [rawAmounts_prepareManualEvent _ _ _ _ (by decide), rawAmounts_prepareManualEvent _ _ _ _
    (by decide), rawAmounts_prepareManualEvent _ _ _ _ (by decide)]
  all_goals
    intro e htype
    rw [handleEventWithoutPspReference, htype]

theorem adjusted_amounts :
    (adjusted item moneyData now).amounts
      = recalculateTransactionAmounts
        (item.events ++ createManualAdjustmentEvents item moneyData now) := rfl

theorem adjusted_apply_of_not_isAuthorization
    (hstored : item.amounts = recalculateTransactionAmounts item.events) {f : AmountField}
    (hf : ¬ f.isAuthorization) :
    (adjusted item moneyData now).amounts f
      = item.amounts f + manualDelta (item.amounts f) (moneyData.get f) := by
  have hraw : item.amounts f = rawAmounts item.events f := by
    rw [hstored, recalculateTransactionAmounts_apply, if_neg hf]
  rw [adjusted_amounts, recalculateTransactionAmounts_apply, if_neg hf,
    rawAmounts_createManualAdjustmentEvents]
  simp only [Pi.add_apply, rawAmounts_authorizationEvents_apply hf, ← hraw]
  cases f <;> simp [MoneyData.get, manualDelta, AmountField.isAuthorization] at hf ⊢

theorem adjusted_apply_of_isAuthorization {f : AmountField} (hf : f.isAuthorization) :
    (adjusted item moneyData now).amounts f
      = max (rawAmounts
        (item.events ++ authorizationEvents item moneyData (now .authorizedValue)) f) 0 := by
  rw [adjusted_amounts, recalculateTransactionAmounts_apply, if_pos hf,
    rawAmounts_createManualAdjustmentEvents]
  cases f <;> simp [AmountField.isAuthorization] at hf ⊢

theorem stored_apply_of_isAuthorization
    (hstored : item.amounts = recalculateTransactionAmounts item.events) {f : AmountField}
    (hf : f.isAuthorization) : item.amounts f = max (rawAmounts item.events f) 0 := by
  rw [hstored, recalculateTransactionAmounts_apply, if_pos hf]

theorem max_add_eq_iff {n a b : ℤ} (hn : 0 ≤ n) :
    max (a + b + n) 0 = n ↔ a + b = 0 ∨ n = 0 ∧ a + b ≤ 0 := by
  omega

theorem max_add_sub_eq_iff {n a b : ℤ} (hn : 0 ≤ n) (hb : b = max a 0) (hne : n ≠ b) :
    max (a + (n - b)) 0 = n ↔ 0 ≤ a := by
  omega

/-- An authorized amount that has to change: the event is a success with the difference, or an
adjustment with the whole amount, and exactly under `AuthorizationReaches` it has its effect. -/
theorem authorization_reached_iff
    (hstored : item.amounts = recalculateTransactionAmounts item.events) {n : Amount} (hn : 0 ≤ n)
    (htarget : moneyData.authorizedValue = some (n : ℚ)) (hne : n ≠ item.amounts .authorizedValue) :
    ((adjusted item moneyData now).amounts .authorizedValue = n ∧
      (adjusted item moneyData now).amounts .authorizePendingValue
        = item.amounts .authorizePendingValue)
      ↔ AuthorizationReaches item.events (now .authorizedValue) n := by
  have hvalue : item.amounts .authorizedValue = max (rawAmounts item.events .authorizedValue) 0 :=
    stored_apply_of_isAuthorization hstored rfl
  have hpending : item.amounts .authorizePendingValue
      = max (rawAmounts item.events .authorizePendingValue) 0 :=
    stored_apply_of_isAuthorization hstored rfl
  have hcast : (item.amounts .authorizedValue : ℚ) ≠ n := fun h => hne (by exact_mod_cast h.symm)
  rw [adjusted_apply_of_isAuthorization rfl, adjusted_apply_of_isAuthorization rfl, hpending,
    authorizationEvents, htarget, AuthorizationReaches]
  simp only [if_pos hcast]
  by_cases hlater : ∀ a ∈ laterEvents item.events (now .authorizedValue), ¬ a.isAdjustment
  swap
  · -- overridden: the amount stays what it was
    have hexists : ∃ a ∈ laterEvents item.events (now .authorizedValue), a.isAdjustment := by
      by_contra hnone
      exact hlater fun a ha hadj => hnone ⟨a, ha, hadj⟩
    have hsame (type : TransactionEventType) (a : ℚ) (htype : type ∈ AUTHORIZATION_EVENTS) :
        rawAmounts (item.events ++ [manualEvent (now .authorizedValue) a n type])
          = rawAmounts item.events :=
      rawAmounts_snoc_of_exists rfl (by simpa [TransactionEvent.isAuthorization]) hexists
    refine iff_of_false (fun h => hne ?_) fun h => hlater h.1
    split at h <;> rw [hsame _ _ (by decide), ← hvalue] at h <;> exact h.1.symm
  · rw [and_iff_right hlater]
    by_cases hany : item.events.any (·.type = .authorizationSuccess)
    · have hothers := otherAmounts_authorizePendingValue
        ((countedEvents item.events).filter (!·.isAuthorization))
      have hamount : (manualEvent (now .authorizedValue) 0 n .authorizationAdjustment).amountValue
          = n := by
        rw [manualEvent, sub_zero, toColumn_intCast]
      rw [if_pos hany, if_pos hany, rawAmounts_snoc_adjustment rfl rfl rfl hlater,
        calculate_filter_isAuthorization hlater, calculate_filter_not_isAuthorization, hamount,
        rawAmounts]
      simp only [Pi.add_apply, Pi.single_eq_same, hothers, add_zero, ne_eq, reduceCtorEq,
        not_false_eq_true, Pi.single_eq_of_ne, manualEvent]
      exact and_congr_left fun _ => max_add_eq_iff hn
    · have hamount : (manualEvent (now .authorizedValue) (item.amounts .authorizedValue) n
          .authorizationSuccess).amountValue = n - item.amounts .authorizedValue := by
        rw [manualEvent, ← Int.cast_sub, toColumn_intCast]
      rw [if_neg hany, if_neg hany, rawAmounts_snoc_success rfl rfl rfl hlater, hamount]
      by_cases hpsp : ∃ a ∈ getAuthorizeEvents (countedEvents item.events),
        a.isAdjustment ∧ a.psp.isSome
      · rw [if_pos hpsp, add_zero, ← hvalue]
        obtain ⟨a, ha, hadj, hsome⟩ := hpsp
        refine iff_of_false (fun h => hne h.1.symm) fun h => ?_
        rw [h.2 a ha hadj] at hsome
        exact Bool.noConfusion hsome
      · have hnone : ∀ a ∈ getAuthorizeEvents (countedEvents item.events),
            a.isAdjustment → a.psp = none := by
          intro a ha hadj
          by_contra hne
          exact hpsp ⟨a, ha, hadj, Option.isSome_iff_ne_none.mpr hne⟩
        rw [if_neg hpsp, and_iff_left hnone, rawAmounts]
        simp only [Pi.add_apply, Pi.single_eq_same, ne_eq, reduceCtorEq, not_false_eq_true,
          Pi.single_eq_of_ne, add_zero, and_true]
        exact max_add_sub_eq_iff hn hvalue hne

/-- Without an authorization event both authorization amounts are what they were. -/
theorem adjusted_apply_of_authorizationEvents_eq_nil
    (hstored : item.amounts = recalculateTransactionAmounts item.events) {f : AmountField}
    (hf : f.isAuthorization)
    (h : authorizationEvents item moneyData (now .authorizedValue) = []) :
    (adjusted item moneyData now).amounts f = item.amounts f := by
  rw [adjusted_apply_of_isAuthorization hf, h, List.append_nil,
    stored_apply_of_isAuthorization hstored hf]

/-- What becomes of the two authorization amounts under the condition. -/
theorem authorization_fields
    (hstored : item.amounts = recalculateTransactionAmounts item.events)
    (hnonneg : ∀ n : ℤ, moneyData.authorizedValue = some (n : ℚ) → 0 ≤ n)
    (hint : ∀ q, moneyData.authorizedValue = some q → ∃ n : ℤ, q = n)
    (hreach : ∀ n : ℤ, moneyData.authorizedValue = some (n : ℚ) →
      n ≠ item.amounts .authorizedValue →
        AuthorizationReaches item.events (now .authorizedValue) n) :
    (∀ q, moneyData.authorizedValue = some q →
      ((adjusted item moneyData now).amounts .authorizedValue : ℚ) = q) ∧
    (moneyData.authorizedValue = none →
      (adjusted item moneyData now).amounts .authorizedValue = item.amounts .authorizedValue) ∧
    (adjusted item moneyData now).amounts .authorizePendingValue
      = item.amounts .authorizePendingValue := by
  rcases hq : moneyData.authorizedValue with _ | q
  · have hnil : authorizationEvents item moneyData (now .authorizedValue) = [] := by
      rw [authorizationEvents, hq]
    exact ⟨nofun, fun _ => adjusted_apply_of_authorizationEvents_eq_nil hstored rfl hnil,
      adjusted_apply_of_authorizationEvents_eq_nil hstored rfl hnil⟩
  · obtain ⟨n, rfl⟩ := hint q hq
    by_cases hne : n = item.amounts .authorizedValue
    · have hnil : authorizationEvents item moneyData (now .authorizedValue) = [] := by
        rw [authorizationEvents, hq, hne]
        simp only [ne_eq, not_true_eq_false, if_false]
      refine ⟨?_, nofun, adjusted_apply_of_authorizationEvents_eq_nil hstored rfl hnil⟩
      rintro q ⟨⟩
      rw [adjusted_apply_of_authorizationEvents_eq_nil hstored rfl hnil, hne]
    · obtain ⟨hvalue, hpending⟩ :=
        (authorization_reached_iff hstored (hnonneg n hq) hq hne).mpr (hreach n hq hne)
      refine ⟨?_, nofun, hpending⟩
      rintro q ⟨⟩
      rw [hvalue]

/-- **A manual adjustment reaches its target** exactly when every requested value has three digits
and a changed authorized amount meets `AuthorizationReaches`. -/
theorem adjusted_reaches_iff (item : TransactionItem) (moneyData : MoneyData)
    (now : AmountField → Time)
    (hstored : item.amounts = recalculateTransactionAmounts item.events)
    (hnonneg : ∀ f q, moneyData.get f = some q → 0 ≤ q) :
    ReachesTarget item.amounts (adjusted item moneyData now).amounts moneyData
      ↔ (∀ f q, moneyData.get f = some q → ∃ n : ℤ, q = n) ∧
        ∀ n : ℤ, moneyData.authorizedValue = some (n : ℚ) → n ≠ item.amounts .authorizedValue →
          AuthorizationReaches item.events (now .authorizedValue) n := by
  have hnonneg' (n : ℤ) (h : moneyData.authorizedValue = some (n : ℚ)) : 0 ≤ n := by
    exact_mod_cast hnonneg .authorizedValue n h
  constructor
  · intro h
    refine ⟨fun f q hq => ?_, fun n hn hne => ?_⟩
    · have hf := h f
      rw [hq] at hf
      exact ⟨_, hf.symm⟩
    · refine (authorization_reached_iff hstored (hnonneg' n hn) hn hne).mp ⟨?_, ?_⟩
      · have hvalue := h .authorizedValue
        rw [show moneyData.get .authorizedValue = some (n : ℚ) from hn] at hvalue
        exact Int.cast_injective hvalue
      · exact h .authorizePendingValue
  · rintro ⟨hint, hreach⟩ f
    by_cases hf : f.isAuthorization
    · obtain ⟨hvalue, hnone, hpending⟩ := authorization_fields hstored hnonneg'
        (fun q hq => hint .authorizedValue q hq) hreach
      cases f
      case authorizedValue =>
        rcases hq : moneyData.get .authorizedValue with _ | q
        · exact hnone hq
        · exact hvalue q hq
      case authorizePendingValue => exact hpending
      all_goals exact Bool.noConfusion hf
    · have happly : (adjusted item moneyData now).amounts f
          = item.amounts f + manualDelta (item.amounts f) (moneyData.get f) :=
        adjusted_apply_of_not_isAuthorization hstored hf
      rcases hq : moneyData.get f with _ | q
      · rw [happly, hq]
        exact add_zero _
      · rw [happly, hq]
        exact (add_manualDelta_eq_iff _ _).mpr (hint f q hq)

end Target

/-- An authorization of 100 with a psp reference, as the payment app reports it. -/
def authorizedHundred : TransactionItem where
  amounts := Function.update 0 .authorizedValue 100000
  events := [{ createdAt := 1, type := .authorizationSuccess, amountValue := 100000,
               pspReference := some "authorization" }]

/-- Authorizing 80 instead and charging 30 by hand. -/
theorem adjusted_reaches_authorizedHundred :
    ReachesTarget authorizedHundred.amounts
      (adjusted authorizedHundred
        { authorizedValue := some 80000, chargedValue := some 30000 } fun _ => 2).amounts
      { authorizedValue := some 80000, chargedValue := some 30000 } := by
  refine (adjusted_reaches_iff _ _ _ ?_ ?_).mpr ⟨?_, ?_⟩
  · funext f
    cases f <;> decide
  · intro f q hq
    cases f <;> simp_all [MoneyData.get] <;> norm_num [← hq]
  · intro f q hq
    cases f <;> simp_all [MoneyData.get]
    · exact ⟨80000, by rw [← hq]; rfl⟩
    · exact ⟨30000, by rw [← hq]; rfl⟩
  · intro n hn _
    obtain rfl : n = 80000 := by
      have : (80000 : ℚ) = n := Option.some.inj hn
      exact_mod_cast this.symm
    decide

/-- The same authorization after a charge of 40, again with a psp reference. -/
def chargedForty : TransactionItem where
  amounts := Function.update (Function.update 0 .authorizedValue 60000) .chargedValue 40000
  events := [{ createdAt := 1, type := .authorizationSuccess, amountValue := 100000,
               pspReference := some "authorization" },
             { createdAt := 2, type := .chargeSuccess, amountValue := 40000,
               pspReference := some "charge" }]

/-- Authorizing 80 by hand leaves 40: the adjustment is the whole amount and the charge still
takes its 40 from it. -/
theorem adjusted_misses_chargedForty :
    ¬ ∀ (item : TransactionItem) (moneyData : MoneyData) (now : AmountField → Time),
      item.amounts = recalculateTransactionAmounts item.events →
      (∀ f q, moneyData.get f = some q → 0 ≤ q) →
      ReachesTarget item.amounts (adjusted item moneyData now).amounts moneyData := by
  intro h
  have hstored : chargedForty.amounts = recalculateTransactionAmounts chargedForty.events := by
    funext f
    cases f <;> decide
  have hnonneg : ∀ f q, MoneyData.get { authorizedValue := some 80000 } f = some q → 0 ≤ q := by
    intro f q hq
    cases f <;> simp_all [MoneyData.get]
    norm_num [← hq]
  have hreach : ((adjusted chargedForty { authorizedValue := some 80000 } fun _ => 3).amounts
      .authorizedValue : ℚ) = 80000 :=
    h chargedForty { authorizedValue := some 80000 } (fun _ => 3) hstored hnonneg .authorizedValue
  have hforty : (adjusted chargedForty { authorizedValue := some 80000 } fun _ => 3).amounts
      .authorizedValue = 40000 := by decide +kernel
  rw [hforty] at hreach
  norm_num at hreach

end Payment

end Aixinwu
