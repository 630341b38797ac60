import Aixinwu.Payment.TransactionCalculations
import Mathlib.Algebra.Group.Pi.Lemmas
import Mathlib.Tactic.Abel

/-!
# The calculation as a sum

Almost every step of the calculation *adds* a vector of amounts that does not depend on the
amounts so far; the one exception is the authorization adjustment, which overwrites what is
authorized. `Additive` names the rule, it is closed under everything the calculation does, and
`calculate_eq` splits the calculation into what the authorization events make and an additive
rest.

From there an event without a psp reference that is added to a transaction is understood: if it is
not about authorization it adds its amount (`calculate_insert_other`); an authorization success
adds its amount unless an adjustment with a psp reference comes after all of them
(`authorizeAmounts_insert`); an adjustment hides what is older (`authorizeAmounts_adjustment`).

## Main definitions

* `Additive`
* `authorizeAmounts`, `otherAmounts`

## Main results

* `calculate_eq`
* `calculate_insert_other`, `authorizeAmounts_insert`, `authorizeAmounts_adjustment`
* `getAuthorizeEvents_split` — which authorization events count
-/

namespace Aixinwu

namespace Payment

theorem increase_eq (t : Amounts) (field : AmountField) (x : Amount) :
    increase t field x = t + Pi.single field x := by
  funext f
  by_cases h : f = field
  · subst h; simp [increase]
  · simp [increase, h]

/-! ### Steps that add -/

/-- The step adds the same to any amounts. -/
def Additive (F : Amounts → Amounts) : Prop := ∀ t v, F (t + v) = F t + v

namespace Additive

variable {F G : Amounts → Amounts}

theorem id : Additive fun t => t := fun _ _ => rfl

theorem comp (hG : Additive G) (hF : Additive F) : Additive fun t => G (F t) :=
  fun t v => (congrArg G (hF t v)).trans (hG (F t) v)

theorem ite (c : Prop) [Decidable c] (hF : Additive F) (hG : Additive G) :
    Additive fun t => if c then F t else G t := by
  intro t v
  by_cases h : c
  · simp only [h, if_true]; exact hF t v
  · simp only [h, if_false]; exact hG t v

theorem increase (field : AmountField) (x : Amount) : Additive fun t => increase t field x := by
  intro t v
  change Payment.increase (t + v) field x = Payment.increase t field x + v
  rw [increase_eq, increase_eq]
  abel

theorem move (event : Option TransactionEvent) (field : AmountField)
    (previous : Option AmountField) : Additive fun t => move t event field previous := by
  cases event with
  | none => exact id
  | some e =>
    cases previous with
    | none => exact increase field e.amountValue
    | some p => exact (increase p (-e.amountValue)).comp (increase field e.amountValue)

theorem recalculateBaseAmounts (g : ActionEvents) (pending field : AmountField)
    (previous : Option AmountField) :
    Additive fun t => recalculateBaseAmounts t g pending field previous :=
  .comp (.ite _ (move _ _ _) id) (.ite _ (move _ _ _) id)

theorem foldl {α : Type*} {f : Amounts → α → Amounts} {l : List α}
    (h : ∀ a ∈ l, Additive fun t => f t a) : Additive fun t => l.foldl f t := by
  induction l with
  | nil => exact id
  | cons a l ih =>
    exact comp (ih fun b hb => h b (List.mem_cons_of_mem _ hb)) (h a List.mem_cons_self)

/-- What an additive step makes of a sum, the other way round. -/
theorem apply_add (hF : Additive F) (t v : Amounts) : F (t + v) = t + F v := by
  rw [add_comm, hF, add_comm]

end Additive

theorem additive_recalculateChargeAmounts (g : ActionEvents) :
    Additive fun t => recalculateChargeAmounts t g := by
  refine .comp (.recalculateBaseAmounts g _ _ _) ?_
  cases g.back with
  | none => exact .id
  | some back => exact .increase _ _

theorem additive_recalculateRefundAmounts (g : ActionEvents) :
    Additive fun t => recalculateRefundAmounts t g := by
  refine .comp (.recalculateBaseAmounts g _ _ _) ?_
  cases g.reverse with
  | none => exact .id
  | some reverse => exact .comp (.increase _ _) (.increase _ _)

theorem additive_recalculateCancelAmounts (g : ActionEvents) :
    Additive fun t => recalculateCancelAmounts t g :=
  .recalculateBaseAmounts g _ _ _

/-- An authorization group without an adjustment adds. -/
theorem additive_recalculateAuthorizationAmounts {g : ActionEvents} (h : g.adjustment = none) :
    Additive fun t => recalculateAuthorizationAmounts t g := by
  refine .comp (.recalculateBaseAmounts g _ _ _) ?_
  rw [h]
  exact .id

/-- An event without a psp reference adds, unless it is an adjustment. -/
theorem additive_handleEvent {e : TransactionEvent} (h : ¬ e.isAdjustment) :
    Additive fun t => handleEventWithoutPspReference t e := by
  have hne : e.type ≠ .authorizationAdjustment := by simpa [TransactionEvent.isAdjustment] using h
  intro t v
  simp only [handleEventWithoutPspReference]
  split
  case h_2 htype => exact absurd htype hne
  all_goals first | exact Additive.increase _ _ t v | rfl

/-! ### Adjustments -/

/-- With an adjustment it does not matter what was authorized before. -/
theorem recalculateAuthorizationAmounts_single {g : ActionEvents} (h : g.adjustment.isSome)
    (t : Amounts) (x : Amount) :
    recalculateAuthorizationAmounts (t + Pi.single .authorizedValue x) g
      = recalculateAuthorizationAmounts t g := by
  obtain ⟨a, ha⟩ := Option.isSome_iff_exists.mp h
  have hupdate : Function.update (t + Pi.single AmountField.authorizedValue x) .authorizedValue
      a.amountValue = Function.update t .authorizedValue a.amountValue := by
    funext f
    by_cases hf : f = .authorizedValue
    · subst hf; simp
    · simp [hf]
  simp only [recalculateAuthorizationAmounts, ha, hupdate]

/-- Any authorization group adds what is not about the authorized amount. -/
theorem recalculateAuthorizationAmounts_add (g : ActionEvents) (t : Amounts) {v : Amounts}
    (hv : v .authorizedValue = 0) :
    recalculateAuthorizationAmounts (t + v) g = recalculateAuthorizationAmounts t g + v := by
  rcases ha : g.adjustment with _ | a
  · exact additive_recalculateAuthorizationAmounts ha t v
  · have hupdate : Function.update (t + v) .authorizedValue a.amountValue
        = Function.update t .authorizedValue a.amountValue + v := by
      funext f
      by_cases hf : f = .authorizedValue
      · subst hf; simp [hv]
      · simp [hf]
    simp only [recalculateAuthorizationAmounts, ha, hupdate]
    exact Additive.recalculateBaseAmounts g _ _ _ _ v

theorem foldl_recalculateAuthorizationAmounts_add (gs : List ActionEvents) (t : Amounts)
    {v : Amounts} (hv : v .authorizedValue = 0) :
    gs.foldl recalculateAuthorizationAmounts (t + v)
      = gs.foldl recalculateAuthorizationAmounts t + v := by
  induction gs generalizing t with
  | nil => rfl
  | cons g gs ih =>
    rw [List.foldl_cons, List.foldl_cons, recalculateAuthorizationAmounts_add g t hv, ih]

/-- Groups without an adjustment add; with one, what was authorized before is lost. -/
theorem foldl_recalculateAuthorizationAmounts_single (gs : List ActionEvents) (t : Amounts)
    (x : Amount) :
    gs.foldl recalculateAuthorizationAmounts (t + Pi.single .authorizedValue x)
      = gs.foldl recalculateAuthorizationAmounts t
        + if gs.any (·.adjustment.isSome) then 0 else Pi.single .authorizedValue x := by
  induction gs generalizing t with
  | nil => simp
  | cons g gs ih =>
    rw [List.foldl_cons, List.foldl_cons, List.any_cons]
    rcases hg : g.adjustment with _ | a
    · have hadd : recalculateAuthorizationAmounts (t + Pi.single .authorizedValue x) g
          = recalculateAuthorizationAmounts t g + Pi.single .authorizedValue x :=
        additive_recalculateAuthorizationAmounts hg t _
      rw [hadd, ih]
      simp
    · rw [recalculateAuthorizationAmounts_single (by simp [hg])]
      simp

/-! ### The map of the groups -/

/-- Two maps group the events that are not about authorization the same way. -/
def ActionEventMap.SameOther (m m' : ActionEventMap) : Prop :=
  m.charge = m'.charge ∧ m.refund = m'.refund ∧ m.cancel = m'.cancel

theorem ActionEventMap.SameOther.addOther {m m' : ActionEventMap} (h : m.SameOther m')
    (e : TransactionEvent) : (m.addOther e).SameOther (m'.addOther e) := by
  obtain ⟨hcharge, hrefund, hcancel⟩ := h
  simp only [SameOther, ActionEventMap.addOther]
  split
  · exact ⟨hcharge, hrefund, hcancel⟩
  · split <;> simp [hcharge, hrefund, hcancel]

theorem ActionEventMap.SameOther.foldl {m m' : ActionEventMap} (h : m.SameOther m')
    (l : List TransactionEvent) :
    (l.foldl ActionEventMap.addOther m).SameOther (l.foldl ActionEventMap.addOther m') := by
  induction l generalizing m m' with
  | nil => exact h
  | cons e l ih => exact ih (h.addOther e)

theorem addOther_of_psp_eq_none {m : ActionEventMap} {e : TransactionEvent} (h : e.psp = none) :
    m.addOther e = { m with withoutPspReference := m.withoutPspReference ++ [e] } := by
  rw [ActionEventMap.addOther, h]

theorem addAuthorize_of_psp_eq_none {m : ActionEventMap} {e : TransactionEvent}
    (h : e.psp = none) :
    m.addAuthorize e = { m with withoutPspReference := m.withoutPspReference ++ [e] } := by
  rw [ActionEventMap.addAuthorize, h]

/-- The second loop leaves the authorization groups alone. -/
theorem authorization_foldl_addOther (l : List TransactionEvent) (m : ActionEventMap) :
    (l.foldl ActionEventMap.addOther m).authorization = m.authorization := by
  induction l generalizing m with
  | nil => rfl
  | cons e l ih =>
    rw [List.foldl_cons, ih, ActionEventMap.addOther]
    split
    · rfl
    · split <;> rfl

/-- And the first loop the others. -/
theorem sameOther_foldl_addAuthorize (l : List TransactionEvent) (m : ActionEventMap) :
    (l.foldl ActionEventMap.addAuthorize m).SameOther m := by
  induction l generalizing m with
  | nil => exact ⟨rfl, rfl, rfl⟩
  | cons e l ih =>
    obtain ⟨hcharge, hrefund, hcancel⟩ := ih (m.addAuthorize e)
    have he : (m.addAuthorize e).SameOther m := by
      rw [ActionEventMap.addAuthorize]
      split
      · exact ⟨rfl, rfl, rfl⟩
      · split <;> exact ⟨rfl, rfl, rfl⟩
    exact ⟨hcharge.trans he.1, hrefund.trans he.2.1, hcancel.trans he.2.2⟩

theorem withoutPspReference_foldl_addOther (l : List TransactionEvent) (m : ActionEventMap) :
    (l.foldl ActionEventMap.addOther m).withoutPspReference
      = m.withoutPspReference ++ l.filter (·.psp.isNone) := by
  induction l generalizing m with
  | nil => simp
  | cons e l ih =>
    rw [List.foldl_cons, ih]
    rcases hpsp : e.psp with _ | psp
    · rw [addOther_of_psp_eq_none hpsp]
      simp [hpsp]
    · have hsame : (m.addOther e).withoutPspReference = m.withoutPspReference := by
        rw [ActionEventMap.addOther, hpsp]
        simp only
        split <;> rfl
      simp [hsame, hpsp]

theorem withoutPspReference_foldl_addAuthorize (l : List TransactionEvent) (m : ActionEventMap) :
    (l.foldl ActionEventMap.addAuthorize m).withoutPspReference
      = m.withoutPspReference ++ l.filter (·.psp.isNone) := by
  induction l generalizing m with
  | nil => simp
  | cons e l ih =>
    rw [List.foldl_cons, ih]
    rcases hpsp : e.psp with _ | psp
    · rw [addAuthorize_of_psp_eq_none hpsp]
      simp [hpsp]
    · have hsame : (m.addAuthorize e).withoutPspReference = m.withoutPspReference := by
        rw [ActionEventMap.addAuthorize, hpsp]
        simp only
        split <;> rfl
      simp [hsame, hpsp]

/-- The authorization groups of the events that count. -/
def authorizationGroups (events : List TransactionEvent) : List ActionEvents :=
  (events.foldl ActionEventMap.addAuthorize {}).authorization.map (·.2)

/-- They do not depend on the events without a psp reference in the map. -/
theorem authorization_foldl_addAuthorize_congr (l : List TransactionEvent) {m m' : ActionEventMap}
    (h : m.authorization = m'.authorization) :
    (l.foldl ActionEventMap.addAuthorize m).authorization
      = (l.foldl ActionEventMap.addAuthorize m').authorization := by
  induction l generalizing m m' with
  | nil => exact h
  | cons e l ih =>
    refine ih ?_
    simp only [ActionEventMap.addAuthorize]
    split
    · exact h
    · split <;> simp [h]

theorem authorizationGroups_insert (l₁ l₂ : List TransactionEvent) {e : TransactionEvent}
    (he : e.psp = none) :
    authorizationGroups (l₁ ++ e :: l₂) = authorizationGroups (l₁ ++ l₂) := by
  rw [authorizationGroups, authorizationGroups, List.foldl_append, List.foldl_append,
    List.foldl_cons, addAuthorize_of_psp_eq_none he]
  refine congrArg (List.map (·.2)) (authorization_foldl_addAuthorize_congr l₂ ?_)
  rfl

/-- Some group of a map has an adjustment. -/
def ActionEventMap.HasAdjustment (m : ActionEventMap) : Prop :=
  (m.authorization.map (·.2)).any (·.adjustment.isSome)

theorem any_adjustment_upsert (psp : String) (f : ActionEvents → ActionEvents)
    (m : List (String × ActionEvents)) (hf : ∀ g, (f g).adjustment = g.adjustment) :
    ((upsert psp f m).map (·.2)).any (·.adjustment.isSome)
      = (m.map (·.2)).any (·.adjustment.isSome) := by
  induction m with
  | nil => simp [upsert, hf]
  | cons e m ih =>
    obtain ⟨p, g⟩ := e
    rw [upsert]
    split
    · simp [hf]
    · simp only [List.map_cons, List.any_cons, ih]

theorem any_adjustment_upsert_adjustment (psp : String) (event : TransactionEvent)
    (m : List (String × ActionEvents)) :
    ((upsert psp (fun g => { g with adjustment := event }) m).map (·.2)).any
      (·.adjustment.isSome) := by
  induction m with
  | nil => simp [upsert]
  | cons e m ih =>
    obtain ⟨p, g⟩ := e
    rw [upsert]
    split
    · simp
    · rw [List.map_cons, List.any_cons, ih, Bool.or_true]

/-- A group has an adjustment exactly when an adjustment with a psp reference was put in. -/
theorem hasAdjustment_foldl (l : List TransactionEvent) (m : ActionEventMap) :
    (l.foldl ActionEventMap.addAuthorize m).HasAdjustment
      ↔ m.HasAdjustment ∨ ∃ e ∈ l, e.isAdjustment ∧ e.psp.isSome := by
  induction l generalizing m with
  | nil => simp
  | cons e l ih =>
    rw [List.foldl_cons, ih]
    have he : (m.addAuthorize e).HasAdjustment
        ↔ m.HasAdjustment ∨ (e.isAdjustment ∧ e.psp.isSome) := by
      rw [ActionEventMap.addAuthorize]
      rcases hpsp : e.psp with _ | psp
      · simp [ActionEventMap.HasAdjustment]
      · simp only [ActionEventMap.HasAdjustment]
        split
        case h_4 htype =>
          have hadj : e.isAdjustment = true := by simp [TransactionEvent.isAdjustment, htype]
          simp only [any_adjustment_upsert_adjustment, hadj, Option.isSome_some, and_self, or_true]
        case h_5 h₁ h₂ h₃ h₄ =>
          have hadj : e.isAdjustment = false := by
            simpa [TransactionEvent.isAdjustment] using h₄
          simp [hadj]
        all_goals
          rename_i htype
          have hadj : e.isAdjustment = false := by simp [TransactionEvent.isAdjustment, htype]
          rw [any_adjustment_upsert]
          · simp [hadj]
          · exact fun _ => rfl
    rw [he, List.exists_mem_cons_iff, or_assoc]

/-! ### The calculation as a sum -/

/-- What the authorization events make of nothing. -/
def authorizeAmounts (authorizeEvents : List TransactionEvent) : Amounts :=
  (authorizationGroups authorizeEvents).foldl recalculateAuthorizationAmounts
    ((authorizeEvents.filter (·.psp.isNone)).foldl handleEventWithoutPspReference 0)

/-- The charge, refund and cancel groups of a map, applied to amounts. -/
def ActionEventMap.recalculateOther (m : ActionEventMap) (t : Amounts) : Amounts :=
  let t := (m.charge.map (·.2)).foldl recalculateChargeAmounts t
  let t := (m.refund.map (·.2)).foldl recalculateRefundAmounts t
  (m.cancel.map (·.2)).foldl recalculateCancelAmounts t

theorem additive_recalculateOther (m : ActionEventMap) : Additive m.recalculateOther := by
  have hcharge : Additive fun t => (m.charge.map (·.2)).foldl recalculateChargeAmounts t :=
    .foldl fun g _ => additive_recalculateChargeAmounts g
  have hrefund : Additive fun t => (m.refund.map (·.2)).foldl recalculateRefundAmounts t :=
    .foldl fun g _ => additive_recalculateRefundAmounts g
  have hcancel : Additive fun t => (m.cancel.map (·.2)).foldl recalculateCancelAmounts t :=
    .foldl fun g _ => additive_recalculateCancelAmounts g
  exact hcancel.comp (hrefund.comp hcharge)

theorem ActionEventMap.SameOther.recalculateOther {m m' : ActionEventMap} (h : m.SameOther m')
    (t : Amounts) : m.recalculateOther t = m'.recalculateOther t := by
  rw [ActionEventMap.recalculateOther, ActionEventMap.recalculateOther, h.1, h.2.1, h.2.2]

/-- What the events that are not about authorization make of nothing. -/
def otherAmounts (others : List TransactionEvent) : Amounts :=
  (others.foldl ActionEventMap.addOther {}).recalculateOther
    ((others.filter (·.psp.isNone)).foldl handleEventWithoutPspReference 0)

theorem not_isAdjustment_of_not_isAuthorization {e : TransactionEvent}
    (h : ¬ e.isAuthorization) : ¬ e.isAdjustment := by
  intro hadj
  have : e.type = .authorizationAdjustment := by simpa [TransactionEvent.isAdjustment] using hadj
  exact h (by simp [TransactionEvent.isAuthorization, AUTHORIZATION_EVENTS, this])

/-- Without a psp reference only authorization events touch the authorized amount. -/
theorem handleEvent_authorizedValue {e : TransactionEvent} (h : ¬ e.isAuthorization)
    (t : Amounts) :
    handleEventWithoutPspReference t e .authorizedValue = t .authorizedValue := by
  have hne : e.type ∉ AUTHORIZATION_EVENTS := by simpa [TransactionEvent.isAuthorization] using h
  rw [AUTHORIZATION_EVENTS] at hne
  cases htype : e.type <;> simp_all [handleEventWithoutPspReference, increase]

theorem foldl_handleEvent_authorizedValue {l : List TransactionEvent}
    (h : ∀ e ∈ l, ¬ e.isAuthorization) (t : Amounts) :
    l.foldl handleEventWithoutPspReference t .authorizedValue = t .authorizedValue := by
  induction l generalizing t with
  | nil => rfl
  | cons e l ih =>
    rw [List.foldl_cons, ih fun a ha => h a (List.mem_cons_of_mem _ ha),
      handleEvent_authorizedValue (h e List.mem_cons_self)]

theorem additive_foldl_handleEvent {l : List TransactionEvent} (h : ∀ e ∈ l, ¬ e.isAdjustment) :
    Additive fun t => l.foldl handleEventWithoutPspReference t :=
  .foldl fun e he => additive_handleEvent (h e he)

/-- **The calculation is a sum** of what the authorization events that count make and what the
other events make. -/
theorem calculate_eq (events : List TransactionEvent) :
    calculateTransactionAmountBasedOnEvents events
      = authorizeAmounts (getAuthorizeEvents events)
        + otherAmounts (events.filter (!·.isAuthorization)) := by
  have hothers : ∀ e ∈ (events.filter (!·.isAuthorization)).filter (·.psp.isNone),
      ¬ e.isAuthorization := by
    intro e he
    simpa using List.of_mem_filter (List.mem_of_mem_filter he)
  rw [calculateTransactionAmountBasedOnEvents, initilizeActionMap]
  generalize getAuthorizeEvents events = window
  generalize events.filter (!·.isAuthorization) = others at hothers
  simp only [withoutPspReference_foldl_addOther, withoutPspReference_foldl_addAuthorize,
    authorization_foldl_addOther, List.nil_append, List.foldl_append]
  -- what the others add without a psp reference passes through the authorization groups
  have hadd : (others.filter (·.psp.isNone)).foldl handleEventWithoutPspReference
        ((window.filter (·.psp.isNone)).foldl handleEventWithoutPspReference 0)
      = (window.filter (·.psp.isNone)).foldl handleEventWithoutPspReference 0
        + (others.filter (·.psp.isNone)).foldl handleEventWithoutPspReference 0 := by
    have := (additive_foldl_handleEvent fun e he =>
      not_isAdjustment_of_not_isAuthorization (hothers e he)).apply_add
        ((window.filter (·.psp.isNone)).foldl handleEventWithoutPspReference 0) 0
    rwa [add_zero] at this
  have hzero : (others.filter (·.psp.isNone)).foldl handleEventWithoutPspReference 0
      .authorizedValue = 0 := foldl_handleEvent_authorizedValue hothers 0
  rw [hadd]
  have hauth := foldl_recalculateAuthorizationAmounts_add (authorizationGroups window)
    ((window.filter (·.psp.isNone)).foldl handleEventWithoutPspReference 0) hzero
  have hsame : (others.foldl ActionEventMap.addOther
      (window.foldl ActionEventMap.addAuthorize {})).SameOther
      (others.foldl ActionEventMap.addOther {}) :=
    (sameOther_foldl_addAuthorize window {}).foldl others
  refine (congrArg (others.foldl ActionEventMap.addOther
    (window.foldl ActionEventMap.addAuthorize {})).recalculateOther hauth).trans ?_
  rw [hsame.recalculateOther]
  exact (additive_recalculateOther _).apply_add _ _

/-! ### One more event without a psp reference -/

variable {e : TransactionEvent}

theorem foldl_handleEvent_insert {l₁ l₂ : List TransactionEvent} (hl₂ : ∀ a ∈ l₂, ¬ a.isAdjustment)
    (he : ¬ e.isAdjustment) (t : Amounts) :
    (l₁ ++ e :: l₂).foldl handleEventWithoutPspReference t
      = (l₁ ++ l₂).foldl handleEventWithoutPspReference t + handleEventWithoutPspReference 0 e := by
  rw [List.foldl_append, List.foldl_append, List.foldl_cons]
  have hstep : handleEventWithoutPspReference (l₁.foldl handleEventWithoutPspReference t) e
      = l₁.foldl handleEventWithoutPspReference t + handleEventWithoutPspReference 0 e := by
    have := (additive_handleEvent he).apply_add (l₁.foldl handleEventWithoutPspReference t) 0
    rwa [add_zero] at this
  rw [hstep]
  exact additive_foldl_handleEvent hl₂ _ _

/-- An event that is not about authorization adds its amount to the rest. -/
theorem otherAmounts_insert {l₁ l₂ : List TransactionEvent}
    (hl : ∀ a ∈ l₁ ++ l₂, ¬ a.isAuthorization) (he : ¬ e.isAuthorization) (hpsp : e.psp = none) :
    otherAmounts (l₁ ++ e :: l₂) = otherAmounts (l₁ ++ l₂) + handleEventWithoutPspReference 0 e := by
  have hsame : ((l₁ ++ e :: l₂).foldl ActionEventMap.addOther {}).SameOther
      ((l₁ ++ l₂).foldl ActionEventMap.addOther {}) := by
    rw [List.foldl_append, List.foldl_append, List.foldl_cons]
    refine ActionEventMap.SameOther.foldl ?_ l₂
    rw [addOther_of_psp_eq_none hpsp]
    exact ⟨rfl, rfl, rfl⟩
  have hfilter : (l₁ ++ e :: l₂).filter (·.psp.isNone)
      = l₁.filter (·.psp.isNone) ++ e :: l₂.filter (·.psp.isNone) := by
    simp [hpsp]
  have hl₂ : ∀ a ∈ l₂.filter (·.psp.isNone), ¬ a.isAdjustment := fun a ha =>
    not_isAdjustment_of_not_isAuthorization
      (hl a (List.mem_append_right _ (List.mem_of_mem_filter ha)))
  rw [otherAmounts, otherAmounts, hsame.recalculateOther, hfilter,
    foldl_handleEvent_insert hl₂ (not_isAdjustment_of_not_isAuthorization he), List.filter_append]
  exact additive_recalculateOther _ _ _

/-- An event that is not about authorization adds its amount, wherever it stands. -/
theorem calculate_insert_other (l₁ l₂ : List TransactionEvent) (he : ¬ e.isAuthorization)
    (hpsp : e.psp = none) :
    calculateTransactionAmountBasedOnEvents (l₁ ++ e :: l₂)
      = calculateTransactionAmountBasedOnEvents (l₁ ++ l₂)
        + handleEventWithoutPspReference 0 e := by
  have hauth : getAuthorizeEvents (l₁ ++ e :: l₂) = getAuthorizeEvents (l₁ ++ l₂) := by
    simp [getAuthorizeEvents, he]
  have hother : (l₁ ++ e :: l₂).filter (!·.isAuthorization)
      = l₁.filter (!·.isAuthorization) ++ e :: l₂.filter (!·.isAuthorization) := by
    simp [he]
  rw [calculate_eq, calculate_eq, hauth, hother, otherAmounts_insert _ he hpsp, List.filter_append,
    add_assoc]
  intro a ha
  rw [← List.filter_append] at ha
  simpa using List.of_mem_filter ha

/-- An authorization success adds its amount, unless some group has an adjustment. -/
theorem authorizeAmounts_insert {l₁ l₂ : List TransactionEvent}
    (hl₂ : ∀ a ∈ l₂, ¬ a.isAdjustment) (htype : e.type = .authorizationSuccess)
    (hpsp : e.psp = none) :
    authorizeAmounts (l₁ ++ e :: l₂)
      = authorizeAmounts (l₁ ++ l₂)
        + if ∃ a ∈ l₁ ++ l₂, a.isAdjustment ∧ a.psp.isSome then 0
          else Pi.single .authorizedValue e.amountValue := by
  have hfilter : (l₁ ++ e :: l₂).filter (·.psp.isNone)
      = l₁.filter (·.psp.isNone) ++ e :: l₂.filter (·.psp.isNone) := by
    simp [hpsp]
  have he : ¬ e.isAdjustment := by simp [TransactionEvent.isAdjustment, htype]
  have hsingle : handleEventWithoutPspReference 0 e
      = Pi.single .authorizedValue e.amountValue := by
    rw [handleEventWithoutPspReference, htype]
    simp only
    rw [increase_eq, zero_add]
  rw [authorizeAmounts, authorizeAmounts, authorizationGroups_insert l₁ l₂ hpsp, hfilter,
    foldl_handleEvent_insert (fun a ha => hl₂ a (List.mem_of_mem_filter ha)) he, hsingle,
    foldl_recalculateAuthorizationAmounts_single, List.filter_append]
  congr 1
  refine if_congr ?_ rfl rfl
  have hgroups := hasAdjustment_foldl (l₁ ++ l₂) {}
  simpa [ActionEventMap.HasAdjustment, authorizationGroups] using hgroups

/-- An adjustment without a psp reference sets the authorized amount, and what is newer adds. -/
theorem authorizeAmounts_adjustment {l : List TransactionEvent} (hl : ∀ a ∈ l, ¬ a.isAdjustment)
    (htype : e.type = .authorizationAdjustment) (hpsp : e.psp = none) :
    authorizeAmounts (e :: l)
      = authorizeAmounts l + Pi.single .authorizedValue e.amountValue := by
  have hgroups : authorizationGroups (e :: l) = authorizationGroups l :=
    authorizationGroups_insert [] l hpsp
  have hnone : ¬ (authorizationGroups l).any (·.adjustment.isSome) := by
    have h := hasAdjustment_foldl l {}
    intro hany
    obtain ⟨a, ha, hadj, -⟩ := (h.mp hany).resolve_left (by simp [ActionEventMap.HasAdjustment])
    exact hl a ha hadj
  have hsingle : handleEventWithoutPspReference 0 e
      = 0 + Pi.single .authorizedValue e.amountValue := by
    rw [handleEventWithoutPspReference, htype]
    funext f
    by_cases hf : f = .authorizedValue
    · subst hf; simp
    · simp [hf]
  rw [authorizeAmounts, authorizeAmounts, hgroups, List.filter_cons_of_pos (by simp [hpsp]),
    List.foldl_cons, hsingle]
  have hadd : (l.filter (·.psp.isNone)).foldl handleEventWithoutPspReference
        (0 + Pi.single .authorizedValue e.amountValue)
      = (l.filter (·.psp.isNone)).foldl handleEventWithoutPspReference 0
        + Pi.single .authorizedValue e.amountValue :=
    additive_foldl_handleEvent (fun a ha => hl a (List.mem_of_mem_filter ha)) _ _
  rw [hadd, foldl_recalculateAuthorizationAmounts_single, if_neg hnone]

/-! ### Which authorization events count -/

theorem getAuthorizeEvents_of_forall {l : List TransactionEvent}
    (h : ∀ a ∈ l, ¬ a.isAdjustment) : getAuthorizeEvents l = l.filter (·.isAuthorization) := by
  have hnone : (l.filter (·.isAuthorization)).reverse.findIdx? (·.isAdjustment) = none := by
    rw [List.findIdx?_eq_none_iff]
    intro a ha
    simpa using h a (List.mem_of_mem_filter (List.mem_reverse.mp ha))
  simp only [getAuthorizeEvents, hnone]

/-- From the newest adjustment on. -/
theorem getAuthorizeEvents_split {l₁ l₂ : List TransactionEvent} (he : e.isAdjustment)
    (hl₂ : ∀ a ∈ l₂, ¬ a.isAdjustment) :
    getAuthorizeEvents (l₁ ++ e :: l₂) = e :: l₂.filter (·.isAuthorization) := by
  have hauth : e.isAuthorization := by
    by_contra h
    exact not_isAdjustment_of_not_isAuthorization h he
  have hfilter : (l₁ ++ e :: l₂).filter (·.isAuthorization)
      = l₁.filter (·.isAuthorization) ++ e :: l₂.filter (·.isAuthorization) := by
    simp [hauth]
  generalize hw : l₂.filter (·.isAuthorization) = w at hfilter
  have hidx : (l₁.filter (·.isAuthorization) ++ e :: w).reverse.findIdx? (·.isAdjustment)
      = some w.length := by
    have hnone : w.reverse.findIdx? (·.isAdjustment) = none := by
      rw [List.findIdx?_eq_none_iff]
      intro a ha
      rw [List.mem_reverse, ← hw] at ha
      simpa using hl₂ a (List.mem_of_mem_filter ha)
    rw [List.reverse_append, List.reverse_cons, List.append_assoc, List.findIdx?_append, hnone]
    simp [List.findIdx?_cons, he]
  simp only [getAuthorizeEvents, hfilter, hidx]
  rw [List.length_append, List.length_cons,
    show (l₁.filter (·.isAuthorization)).length + (w.length + 1) - 1 - w.length
      = (l₁.filter (·.isAuthorization)).length by omega, List.drop_left]

/-- Either there is no adjustment or there is a newest one. -/
theorem exists_newest_adjustment (l : List TransactionEvent) :
    (∀ a ∈ l, ¬ a.isAdjustment) ∨
      ∃ l₁ a l₂, l = l₁ ++ a :: l₂ ∧ a.isAdjustment ∧ ∀ b ∈ l₂, ¬ b.isAdjustment := by
  induction l using List.reverseRecOn with
  | nil => exact Or.inl (by simp)
  | append_singleton l a ih =>
    by_cases ha : a.isAdjustment
    · exact Or.inr ⟨l, a, [], rfl, ha, by simp⟩
    · rcases ih with h | ⟨l₁, b, l₂, rfl, hb, hl₂⟩
      · refine Or.inl fun c hc => ?_
        rcases List.mem_append.mp hc with hc | hc
        · exact h c hc
        · rw [List.mem_singleton.mp hc]
          exact ha
      · refine Or.inr ⟨l₁, b, l₂ ++ [a], by simp, hb, fun c hc => ?_⟩
        rcases List.mem_append.mp hc with hc | hc
        · exact hl₂ c hc
        · rw [List.mem_singleton.mp hc]
          exact ha

end Payment

end Aixinwu
