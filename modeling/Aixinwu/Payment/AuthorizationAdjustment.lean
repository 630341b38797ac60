import Aixinwu.Payment.MoneyConservation
import Mathlib.Tactic.Ring

/-!
# Adjustments of an authorization

What is authorized when there are only successes and adjustments. The newest adjustment should stand
for all that was reported before it, and what is reported later should be added.

The events without a psp reference are taken first and the groups of the others after them. So if the
newest adjustment has a psp reference it overwrites the later successes that have none. With
**`authorizedValue_eq_reported_iff`** the amount is the reported one iff there is nothing to lose.

## Main definitions

* `reported`, `overwritten`

## Main results

* `calculate_authorizedValue`
* `authorizedValue_eq_reported_iff`
-/

namespace Aixinwu

namespace Payment

/-- The amount of the newest adjustment, and those of the events after it. -/
def reported (events : List TransactionEvent) : Amount :=
  ((newestAdjustment events).elim 0 (·.amountValue)) +
    ((sinceAdjustment events).map (·.amountValue)).sum

/-- What an adjustment with a psp reference overwrites: the amounts of the later events without
one. -/
def overwritten (events : List TransactionEvent) : Amount :=
  if (newestAdjustment events).any (·.psp.isSome) then
    (((sinceAdjustment events).filter (·.psp.isNone)).map (·.amountValue)).sum
  else 0

/-! ### One more success with a psp reference -/

/-- A success is put in its group. -/
def putSuccess (event : TransactionEvent) (psp : String) (m : List (String × ActionEvents)) :
    List (String × ActionEvents) :=
  upsert psp (fun g => { g with success := event }) m

/-- What the groups of a window of successes have: nothing but successes, with references that have
been seen, and an adjustment in the first at most. -/
structure Groups (seen : List String) (m : List (String × ActionEvents)) : Prop where
  request : ∀ x ∈ m, x.2.request = none
  failure : ∀ x ∈ m, x.2.failure = none
  success : ∀ x ∈ m, x.2.success.isSome = true → x.1 ∈ seen
  adjustment : ∀ x ∈ m.tail, x.2.adjustment = none

section Groups

variable {m : List (String × ActionEvents)} {seen : List String} {event : TransactionEvent}
  {psp : String}

theorem mem_putSuccess {x : String × ActionEvents} (h : x ∈ putSuccess event psp m) :
    x ∈ m ∨ x = (psp, { success := event }) ∨
      ∃ g, (psp, g) ∈ m ∧ x = (psp, { g with success := event }) := by
  induction m with
  | nil => exact Or.inr (Or.inl (List.mem_singleton.mp h))
  | cons y m ih =>
    obtain ⟨p, g⟩ := y
    rw [putSuccess, upsert] at h
    split at h
    · rename_i hp
      subst hp
      rcases List.mem_cons.mp h with rfl | hx
      · exact Or.inr (Or.inr ⟨g, List.mem_cons_self, rfl⟩)
      · exact Or.inl (List.mem_cons_of_mem _ hx)
    · rcases List.mem_cons.mp h with rfl | hx
      · exact Or.inl List.mem_cons_self
      · rcases ih hx with hm | hnew | ⟨g', hg', hx'⟩
        · exact Or.inl (List.mem_cons_of_mem _ hm)
        · exact Or.inr (Or.inl hnew)
        · exact Or.inr (Or.inr ⟨g', List.mem_cons_of_mem _ hg', hx'⟩)

theorem groups_putSuccess (h : Groups seen m) (event : TransactionEvent) (psp : String) :
    Groups (seen ++ [psp]) (putSuccess event psp m) := by
  refine ⟨fun x hx => ?_, fun x hx => ?_, fun x hx hsuccess => ?_, ?_⟩
  · rcases mem_putSuccess hx with hm | rfl | ⟨g, hg, rfl⟩
    · exact h.request x hm
    · rfl
    · exact h.request (psp, g) hg
  · rcases mem_putSuccess hx with hm | rfl | ⟨g, hg, rfl⟩
    · exact h.failure x hm
    · rfl
    · exact h.failure (psp, g) hg
  · rcases mem_putSuccess hx with hm | rfl | ⟨g, hg, rfl⟩
    · exact List.mem_append_left _ (h.success x hm hsuccess)
    · exact List.mem_append_right _ (List.mem_singleton.mpr rfl)
    · exact List.mem_append_right _ (List.mem_singleton.mpr rfl)
  · cases m with
    | nil => exact fun x hx => (List.not_mem_nil hx).elim
    | cons y m =>
      obtain ⟨p, g⟩ := y
      have hadjustment := h.adjustment
      rw [putSuccess, upsert]
      split
      · exact hadjustment
      · intro x hx
        rcases mem_putSuccess hx with hm | rfl | ⟨g', hg', rfl⟩
        · exact hadjustment x hm
        · rfl
        · exact hadjustment (psp, g') hg'

/-- A success adds its amount to its group. -/
theorem recalculateAuthorizationAmounts_success {g : ActionEvents} (hrequest : g.request = none)
    (hfailure : g.failure = none) (hsuccess : g.success = none) (t : Amounts) :
    recalculateAuthorizationAmounts t { g with success := event }
      = recalculateAuthorizationAmounts t g + Pi.single .authorizedValue event.amountValue := by
  have hsome : ∀ t, recalculateBaseAmounts t { g with success := event } .authorizePendingValue
      .authorizedValue none = increase t .authorizedValue event.amountValue := by
    intro t
    simp [recalculateBaseAmounts, shouldIncreasePendingAmount, hrequest, hfailure,
      shouldIncreseAmount, move]
  have hnone : ∀ t, recalculateBaseAmounts t g .authorizePendingValue .authorizedValue none = t := by
    intro t
    simp [recalculateBaseAmounts, shouldIncreasePendingAmount, hrequest, hsuccess,
      shouldIncreseAmount]
  simp only [recalculateAuthorizationAmounts, hsome, hnone]
  exact increase_eq _ _ _

/-- **A success with a new reference** adds its amount. -/
theorem foldl_putSuccess (h : Groups seen m) (hpsp : psp ∉ seen) (t : Amounts) :
    ((putSuccess event psp m).map (·.2)).foldl recalculateAuthorizationAmounts t
      = (m.map (·.2)).foldl recalculateAuthorizationAmounts t +
        Pi.single .authorizedValue event.amountValue := by
  induction m generalizing t with
  | nil => exact recalculateAuthorizationAmounts_success (g := {}) rfl rfl rfl t
  | cons y m ih =>
    obtain ⟨p, g⟩ := y
    have hrest : ¬ (m.map (·.2)).any (·.adjustment.isSome) = true := by
      intro hany
      obtain ⟨g', hg', hsome⟩ := List.any_eq_true.mp hany
      obtain ⟨x, hx, rfl⟩ := List.mem_map.mp hg'
      rw [h.adjustment x hx] at hsome
      cases hsome
    rw [putSuccess, upsert]
    split
    · rename_i hp
      subst hp
      have hsuccess : g.success = none := by
        rw [← Option.not_isSome_iff_eq_none]
        exact fun hsome => hpsp (h.success (p, g) List.mem_cons_self hsome)
      rw [List.map_cons, List.foldl_cons, List.map_cons, List.foldl_cons,
        recalculateAuthorizationAmounts_success (h.request (p, g) List.mem_cons_self)
          (h.failure (p, g) List.mem_cons_self) hsuccess,
        foldl_recalculateAuthorizationAmounts_single, if_neg hrest]
    · have htail : Groups seen m :=
        ⟨fun x hx => h.request x (List.mem_cons_of_mem _ hx),
          fun x hx => h.failure x (List.mem_cons_of_mem _ hx),
          fun x hx => h.success x (List.mem_cons_of_mem _ hx),
          fun x hx => h.adjustment x (List.mem_of_mem_tail hx)⟩
      exact ih htail (recalculateAuthorizationAmounts t g)

end Groups

/-! ### Windows of successes -/

section Window

variable {window successes : List TransactionEvent} {event : TransactionEvent} {psp : String}

/-- Nothing, or one adjustment. -/
def AtMostAdjustment (window : List TransactionEvent) : Prop :=
  window = [] ∨ ∃ adjustment, window = [adjustment] ∧ adjustment.type = .authorizationAdjustment

theorem addAuthorize_success (htype : event.type = .authorizationSuccess)
    (hpsp : event.psp = some psp) (m : ActionEventMap) :
    (m.addAuthorize event).authorization = putSuccess event psp m.authorization := by
  simp only [ActionEventMap.addAuthorize, hpsp, htype]
  rfl

theorem groups_of_window (hwindow : AtMostAdjustment window)
    (hsuccesses : ∀ e ∈ successes, e.type = .authorizationSuccess) :
    Groups (successes.filterMap (·.psp))
      ((window ++ successes).foldl ActionEventMap.addAuthorize {}).authorization := by
  induction successes using List.reverseRecOn with
  | nil =>
    rcases hwindow with rfl | ⟨adjustment, rfl, htype⟩
    · exact ⟨fun x hx => (List.not_mem_nil hx).elim, fun x hx => (List.not_mem_nil hx).elim,
        fun x hx => (List.not_mem_nil hx).elim, fun x hx => (List.not_mem_nil hx).elim⟩
    · have hgroups : ([adjustment].foldl ActionEventMap.addAuthorize {}).authorization
          = adjustment.psp.toList.map fun psp => (psp, { adjustment := adjustment }) := by
        rw [List.foldl_cons, List.foldl_nil, ActionEventMap.addAuthorize]
        cases adjustment.psp with
        | none => rfl
        | some psp =>
          simp only [htype]
          rfl
      have hmem : ∀ x ∈ adjustment.psp.toList.map fun psp =>
          (psp, ({ adjustment := adjustment } : ActionEvents)), x.2 = { adjustment := adjustment } := by
        intro x hx
        obtain ⟨psp, -, rfl⟩ := List.mem_map.mp hx
        rfl
      rw [List.append_nil, hgroups]
      refine ⟨fun x hx => ?_, fun x hx => ?_, fun x hx hsome => ?_, fun x hx => ?_⟩
      · rw [hmem x hx]
      · rw [hmem x hx]
      · rw [hmem x hx] at hsome
        cases hsome
      · have htail : (adjustment.psp.toList.map fun psp =>
            (psp, ({ adjustment := adjustment } : ActionEvents))).tail = [] := by
          cases adjustment.psp <;> rfl
        rw [htail] at hx
        cases hx
  | append_singleton successes e ih =>
    have hprefix := ih fun e' he' => hsuccesses e' (List.mem_append_left _ he')
    have htype := hsuccesses e (List.mem_append_right _ (List.mem_singleton.mpr rfl))
    rw [← List.append_assoc, List.foldl_append, List.foldl_cons, List.foldl_nil,
      List.filterMap_append]
    cases hpsp : e.psp with
    | none =>
      rw [addAuthorize_of_psp_eq_none hpsp]
      simpa [hpsp] using hprefix
    | some psp =>
      rw [addAuthorize_success htype hpsp]
      simpa [hpsp] using groups_putSuccess hprefix e psp

/-- A success with a new reference adds its amount. -/
theorem authorizeAmounts_concat (hwindow : AtMostAdjustment window)
    (hsuccesses : ∀ e ∈ successes, e.type = .authorizationSuccess)
    (htype : event.type = .authorizationSuccess) (hpsp : event.psp = some psp)
    (hnew : psp ∉ successes.filterMap (·.psp)) :
    authorizeAmounts (window ++ successes ++ [event])
      = authorizeAmounts (window ++ successes) + Pi.single .authorizedValue event.amountValue := by
  have hgroups : authorizationGroups (window ++ successes ++ [event])
      = (putSuccess event psp ((window ++ successes).foldl ActionEventMap.addAuthorize
          {}).authorization).map (·.2) := by
    rw [authorizationGroups, List.foldl_append, List.foldl_cons, List.foldl_nil,
      addAuthorize_success htype hpsp]
  have hfilter : (window ++ successes ++ [event]).filter (·.psp.isNone)
      = (window ++ successes).filter (·.psp.isNone) := by
    simp [hpsp]
  rw [authorizeAmounts, authorizeAmounts, hgroups, hfilter,
    foldl_putSuccess (groups_of_window hwindow hsuccesses) hnew]
  rfl

/-- Only the first event of a window adjusts. -/
theorem exists_adjustment_iff (hwindow : AtMostAdjustment window)
    (hsuccesses : ∀ e ∈ successes, e.type = .authorizationSuccess) :
    (∃ e ∈ window ++ successes ++ [], e.isAdjustment = true ∧ e.psp.isSome = true) ↔
      window.any (·.psp.isSome) = true := by
  rw [List.append_nil, List.any_eq_true]
  constructor
  · rintro ⟨e, he, hadjustment, hpsp⟩
    rcases List.mem_append.mp he with he | he
    · exact ⟨e, he, hpsp⟩
    · rw [TransactionEvent.isAdjustment, hsuccesses e he] at hadjustment
      cases hadjustment
  · rintro ⟨e, he, hpsp⟩
    refine ⟨e, List.mem_append_left _ he, ?_, hpsp⟩
    rcases hwindow with rfl | ⟨adjustment, rfl, htype⟩
    · cases he
    · rw [List.mem_singleton.mp he, TransactionEvent.isAdjustment, htype]
      rfl

/-- **What a window comes to**: an adjustment with a psp reference overwrites the successes without
one. -/
theorem authorizeAmounts_window (hwindow : AtMostAdjustment window)
    (hsuccesses : ∀ e ∈ successes, e.type = .authorizationSuccess)
    (hpsp : (successes.filterMap (·.psp)).Nodup) :
    authorizeAmounts (window ++ successes) .authorizedValue
      = authorizeAmounts window .authorizedValue + (successes.map (·.amountValue)).sum -
        if window.any (·.psp.isSome) then
          ((successes.filter (·.psp.isNone)).map (·.amountValue)).sum else 0 := by
  induction successes using List.reverseRecOn with
  | nil => simp
  | append_singleton successes e ih =>
    have hprefix : ∀ e' ∈ successes, e'.type = .authorizationSuccess :=
      fun e' he' => hsuccesses e' (List.mem_append_left _ he')
    have htype := hsuccesses e (List.mem_append_right _ (List.mem_singleton.mpr rfl))
    rw [List.filterMap_append] at hpsp
    have ih' := ih hprefix (List.nodup_append.mp hpsp).1
    rw [← List.append_assoc]
    cases he : e.psp with
    | none =>
      have hinsert : authorizeAmounts (window ++ successes ++ [e])
          = authorizeAmounts (window ++ successes ++ []) +
            if ∃ a ∈ window ++ successes ++ [], a.isAdjustment = true ∧ a.psp.isSome = true then 0
            else Pi.single .authorizedValue e.amountValue :=
        authorizeAmounts_insert (fun a ha => (List.not_mem_nil ha).elim) htype he
      rw [hinsert, if_congr (exists_adjustment_iff hwindow hprefix) rfl rfl, List.append_nil,
        Pi.add_apply, ih']
      split
      · simp [he]
        ring
      · simp
        ring
    | some psp =>
      have hnew : psp ∉ successes.filterMap (·.psp) := fun hmem =>
        (List.nodup_append.mp hpsp).2.2 psp hmem psp (by simp [he]) rfl
      rw [authorizeAmounts_concat hwindow hprefix htype he hnew, Pi.add_apply, Pi.single_eq_same, ih']
      simp [he]
      ring

theorem authorizeAmounts_singleton {adjustment : TransactionEvent}
    (htype : adjustment.type = .authorizationAdjustment) :
    authorizeAmounts [adjustment] .authorizedValue = adjustment.amountValue := by
  cases hpsp : adjustment.psp with
  | none => simp [authorizeAmounts, authorizationGroups, ActionEventMap.addAuthorize, hpsp,
      handleEventWithoutPspReference, htype]
  | some psp => simp [authorizeAmounts, authorizationGroups, ActionEventMap.addAuthorize, hpsp,
      htype, upsert, recalculateAuthorizationAmounts, recalculateBaseAmounts,
      shouldIncreasePendingAmount, shouldIncreseAmount]

end Window

/-! ### Adjustments and later successes -/

section Reported

variable {events : List TransactionEvent}

/-- **What is authorized** before it is kept from being negative: what is reported, less what an
adjustment overwrites. -/
theorem calculate_authorizedValue
    (htype : ∀ e ∈ events, e.type = .authorizationSuccess ∨ e.type = .authorizationAdjustment)
    (hpsp : ((sinceAdjustment events).filterMap (·.psp)).Nodup) :
    calculateTransactionAmountBasedOnEvents events .authorizedValue
      = reported events - overwritten events := by
  have hauthorization : ∀ e ∈ events, e.isAuthorization = true := fun e he => by
    rcases htype e he with h | h <;> simp [TransactionEvent.isAuthorization, AUTHORIZATION_EVENTS, h]
  have hothers : events.filter (!·.isAuthorization) = [] :=
    List.filter_eq_nil_iff.mpr fun e he => by simp [hauthorization e he]
  rw [calculate_eq, hothers, Pi.add_apply]
  have hzero : otherAmounts [] .authorizedValue = 0 := rfl
  rw [hzero, add_zero]
  rcases exists_newest_adjustment events with hnone | ⟨before, adjustment, later, rfl, hadj, hlater⟩
  · have hsuccesses : ∀ e ∈ events, e.type = .authorizationSuccess := fun e he =>
      (htype e he).resolve_right fun h => hnone e he (by simp [TransactionEvent.isAdjustment, h])
    obtain ⟨hnewest, hlater⟩ := sinceAdjustment_of_forall hnone
    rw [hlater] at hpsp
    have hwindow := authorizeAmounts_window (Or.inl rfl) hsuccesses hpsp
    rw [List.nil_append] at hwindow
    rw [getAuthorizeEvents_of_forall hnone, List.filter_eq_self.mpr hauthorization, hwindow, reported,
      overwritten, hnewest, hlater]
    rfl
  · have hadjustment : adjustment.type = .authorizationAdjustment := by
      simpa [TransactionEvent.isAdjustment] using hadj
    have hsuccesses : ∀ e ∈ later, e.type = .authorizationSuccess := fun e he =>
      (htype e (List.mem_append_right _ (List.mem_cons_of_mem _ he))).resolve_right fun h =>
        hlater e he (by simp [TransactionEvent.isAdjustment, h])
    obtain ⟨hnewest, hlater'⟩ := newestAdjustment_split hadj hlater
    rw [hlater'] at hpsp
    have hwindow := authorizeAmounts_window (Or.inr ⟨adjustment, rfl, hadjustment⟩) hsuccesses hpsp
    have hfilter : later.filter (·.isAuthorization) = later :=
      List.filter_eq_self.mpr fun e he =>
        hauthorization e (List.mem_append_right _ (List.mem_cons_of_mem _ he))
    rw [getAuthorizeEvents_split hadj hlater, hfilter]
    rw [List.singleton_append, authorizeAmounts_singleton hadjustment, List.any_cons, List.any_nil,
      Bool.or_false] at hwindow
    rw [hwindow, reported, overwritten, hnewest, hlater']
    rfl

/-- **Adjustments of an authorization.** What is authorized is what is reported, unless that is
negative or the newest adjustment overwrites something of it; with nothing reported what is overwritten
may also be above zero, as the amount is kept from being negative. -/
theorem authorizedValue_eq_reported_iff {events : List TransactionEvent}
    (htype : ∀ e ∈ countedEvents events,
      e.type = .authorizationSuccess ∨ e.type = .authorizationAdjustment)
    (hpsp : ((sinceAdjustment (countedEvents events)).filterMap (·.psp)).Nodup) :
    recalculateTransactionAmounts events .authorizedValue = reported (countedEvents events) ↔
      0 ≤ reported (countedEvents events) ∧ (overwritten (countedEvents events) = 0 ∨
        (reported (countedEvents events) = 0 ∧ 0 < overwritten (countedEvents events))) := by
  have hvalue : recalculateTransactionAmounts events .authorizedValue
      = max (reported (countedEvents events) - overwritten (countedEvents events)) 0 := by
    rw [← calculate_authorizedValue htype hpsp]
    simp [recalculateTransactionAmounts, clamp]
  rw [hvalue]
  generalize reported (countedEvents events) = x
  generalize overwritten (countedEvents events) = y
  constructor
  · intro h
    rcases max_choice (x - y) 0 with hmax | hmax
    · rw [hmax] at h
      have hy : y = 0 := by linarith
      refine ⟨?_, Or.inl hy⟩
      rw [← h, ← hmax]
      exact le_max_right _ _
    · rw [hmax] at h
      have hle := max_eq_right_iff.mp hmax
      rcases (show 0 ≤ y by linarith).eq_or_lt with hy | hy
      · exact ⟨h.le, Or.inl hy.symm⟩
      · exact ⟨h.le, Or.inr ⟨h.symm, hy⟩⟩
  · rintro ⟨hx, hy | ⟨hx0, hy⟩⟩
    · rw [hy, sub_zero]
      exact max_eq_left hx
    · rw [hx0, zero_sub]
      exact max_eq_right (by linarith)

/-- An authorization of 50 is adjusted, and 20 are authorized later. -/
def adjustedEvents : List TransactionEvent :=
  [{ createdAt := 1, type := .authorizationAdjustment, amountValue := 50, pspReference := "psp" },
    { createdAt := 2, type := .authorizationSuccess, amountValue := 20 }]

/-- The later authorization is lost: what is authorized is 50 and not 70. -/
theorem later_success_lost :
    recalculateTransactionAmounts adjustedEvents .authorizedValue ≠ reported adjustedEvents := by
  decide

/-- Without a psp reference of the adjustment nothing is lost. -/
theorem authorizedValue_eq_reported_adjusted :
    recalculateTransactionAmounts [⟨1, .authorizationAdjustment, 50, none, true⟩] .authorizedValue
        = reported (countedEvents [⟨1, .authorizationAdjustment, 50, none, true⟩]) ↔
      0 ≤ reported (countedEvents [⟨1, .authorizationAdjustment, 50, none, true⟩]) ∧
        (overwritten (countedEvents [⟨1, .authorizationAdjustment, 50, none, true⟩]) = 0 ∨
          (reported (countedEvents [⟨1, .authorizationAdjustment, 50, none, true⟩]) = 0 ∧
            0 < overwritten (countedEvents [⟨1, .authorizationAdjustment, 50, none, true⟩]))) :=
  authorizedValue_eq_reported_iff (by decide) (by decide)

end Reported

end Payment

end Aixinwu
