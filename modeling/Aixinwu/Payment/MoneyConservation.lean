import Aixinwu.Payment.TransactionAmounts
import Mathlib.Algebra.BigOperators.Group.Finset.Basic
import Mathlib.Algebra.BigOperators.Group.Finset.Piecewise

/-!
# What the amounts of a transaction add up to

Apart from what is only requested to be authorized, a transaction's amounts say where its money is:
still authorized, on its way or charged, on its way back or refunded, on its way to be canceled or
canceled. Charges, refunds and cancellations move money between these; it comes in with the newest
adjustment and the authorizations after it, and goes out with a charge back.

Nothing here depends on how the code groups the events: `newest` is the last event of a type with a
psp reference, and the groups are shown to hold exactly these.

## Main definitions

* `money` — the sum of the seven amounts
* `newest`, `sinceAdjustment`, `newestAdjustment`
* `effectiveAuthorization`

## Main results

* `groupAt_foldl_addAuthorize`, `back_foldl_addOther` — what the groups hold
* `money_calculate` — the sum
-/

namespace Aixinwu

namespace Payment

open Finset

/-- The sum of the amounts, without what is waiting to be authorized. -/
def money (t : Amounts) : Amount :=
  t .authorizedValue + t .chargePendingValue + t .chargedValue + t .refundPendingValue
    + t .refundedValue + t .cancelPendingValue + t .canceledValue

theorem money_add (t v : Amounts) : money (t + v) = money t + money v := by
  simp only [money, Pi.add_apply]
  abel

/-- An amount counts once, wherever it is put. -/
theorem money_increase {field : AmountField} (hfield : field ≠ .authorizePendingValue)
    (t : Amounts) (x : Amount) : money (increase t field x) = money t + x := by
  rw [increase_eq, money_add]
  refine congrArg _ ?_
  cases field <;> simp_all [money]

theorem money_increase_pending (t : Amounts) (x : Amount) :
    money (increase t .authorizePendingValue x) = money t := by
  rw [increase_eq, money_add]
  simp [money]

/-- Moving an event's amount from one counted field to another. -/
theorem money_move {field previous : AmountField} (hfield : field ≠ .authorizePendingValue)
    (hprevious : previous ≠ .authorizePendingValue) (t : Amounts)
    (event : Option TransactionEvent) : money (move t event field (some previous)) = money t := by
  rcases event with _ | e
  · rfl
  · rw [move, money_increase hprevious, money_increase hfield, add_neg_cancel_right]

theorem money_recalculateBaseAmounts {pending field previous : AmountField}
    (hpending : pending ≠ .authorizePendingValue) (hfield : field ≠ .authorizePendingValue)
    (hprevious : previous ≠ .authorizePendingValue) (t : Amounts) (g : ActionEvents) :
    money (recalculateBaseAmounts t g pending field (some previous)) = money t := by
  rw [recalculateBaseAmounts]
  have hrequest : money (if shouldIncreasePendingAmount g.request g.success g.failure then
      move t g.request pending (some previous) else t) = money t := by
    split
    · exact money_move hpending hprevious t _
    · rfl
  split
  · rw [money_move hfield hprevious, hrequest]
  · exact hrequest

/-- The amount of an event that may be missing. -/
def amountOf (event : Option TransactionEvent) : Amount := (event.map (·.amountValue)).getD 0

/-- Money that comes in. -/
theorem money_move_none (t : Amounts) (event : Option TransactionEvent) :
    money (move t event .authorizedValue none) = money t + amountOf event := by
  rcases event with _ | e
  · exact (add_zero _).symm
  · exact money_increase (by decide) t _

/-! ### One group -/

theorem money_recalculateChargeAmounts (t : Amounts) (g : ActionEvents) :
    money (recalculateChargeAmounts t g) = money t - amountOf g.back := by
  rw [recalculateChargeAmounts, money_recalculateBaseAmounts (by decide) (by decide) (by decide)]
  rcases g.back with _ | back
  · simp [amountOf]
  · exact money_increase (by decide) t _

theorem money_recalculateRefundAmounts (t : Amounts) (g : ActionEvents) :
    money (recalculateRefundAmounts t g) = money t := by
  rw [recalculateRefundAmounts, money_recalculateBaseAmounts (by decide) (by decide) (by decide)]
  rcases g.reverse with _ | reverse
  · rfl
  · dsimp only
    rw [money_increase (by decide), money_increase (by decide), add_neg_cancel_right]

theorem money_recalculateCancelAmounts (t : Amounts) (g : ActionEvents) :
    money (recalculateCancelAmounts t g) = money t :=
  money_recalculateBaseAmounts (by decide) (by decide) (by decide) t g

/-- What an authorization success is worth: nothing, when a failure of the same reference is as
new. -/
def effectiveAmount (success failure : Option TransactionEvent) : Amount :=
  match success with
  | none => 0
  | some s => if ∀ f ∈ failure, f.createdAt < s.createdAt then s.amountValue else 0

theorem effectiveAmount_eq (success failure : Option TransactionEvent) :
    effectiveAmount success failure
      = if shouldIncreseAmount success failure then amountOf success else 0 := by
  rcases success with _ | s <;> rcases failure with _ | f <;>
    simp [effectiveAmount, shouldIncreseAmount, amountOf]

theorem money_recalculateAuthorizationAmounts {g : ActionEvents} (t : Amounts)
    (h : g.adjustment = none ∨ t .authorizedValue = 0) :
    money (recalculateAuthorizationAmounts t g)
      = money t + (amountOf g.adjustment + effectiveAmount g.success g.failure) := by
  have hbase : ∀ t : Amounts, money (recalculateBaseAmounts t g .authorizePendingValue
      .authorizedValue none) = money t + effectiveAmount g.success g.failure := by
    intro t
    rw [recalculateBaseAmounts, effectiveAmount_eq]
    have hrequest : money (if shouldIncreasePendingAmount g.request g.success g.failure then
        move t g.request .authorizePendingValue none else t) = money t := by
      split
      · rcases g.request with _ | request
        · rfl
        · exact money_increase_pending t _
      · rfl
    split
    · rw [money_move_none, hrequest]
    · rw [hrequest, add_zero]
  rw [recalculateAuthorizationAmounts, hbase, ← add_assoc]
  refine congrArg (· + _) ?_
  rcases hadj : g.adjustment with _ | a
  · exact (add_zero _).symm
  · have hzero : t .authorizedValue = 0 := h.resolve_left (by simp [hadj])
    have hupdate : Function.update t .authorizedValue a.amountValue
        = increase t .authorizedValue a.amountValue := by
      rw [increase, hzero, zero_add]
    dsimp only
    rw [hupdate]
    exact money_increase (by decide) t _

/-! ### Folding groups -/

/-- Steps that each add something to the sum. -/
theorem money_foldl {f : Amounts → ActionEvents → Amounts} {d : ActionEvents → Amount}
    {gs : List ActionEvents} (h : ∀ g ∈ gs, ∀ t, money (f t g) = money t + d g) (t : Amounts) :
    money (gs.foldl f t) = money t + (gs.map d).sum := by
  induction gs generalizing t with
  | nil => simp
  | cons g gs ih =>
    rw [List.foldl_cons, ih fun g' hg' => h g' (List.mem_cons_of_mem _ hg'),
      h g List.mem_cons_self, List.map_cons, List.sum_cons, add_assoc]

/-- Steps that keep the sum. -/
theorem money_foldl_of_eq {f : Amounts → ActionEvents → Amounts}
    (h : ∀ t g, money (f t g) = money t) (gs : List ActionEvents) (t : Amounts) :
    money (gs.foldl f t) = money t := by
  induction gs generalizing t with
  | nil => rfl
  | cons g gs ih => rw [List.foldl_cons, ih, h]

theorem money_recalculateOther (m : ActionEventMap) (t : Amounts) :
    money (m.recalculateOther t)
      = money t + (m.charge.map fun e => -amountOf e.2.back).sum := by
  rw [ActionEventMap.recalculateOther, money_foldl_of_eq money_recalculateCancelAmounts,
    money_foldl_of_eq money_recalculateRefundAmounts,
    money_foldl fun g _ t => (money_recalculateChargeAmounts t g).trans (sub_eq_add_neg _ _),
    List.map_map]
  rfl

/-- Authorization groups of which only the first has an adjustment. -/
theorem money_foldl_authorization {m : List (String × ActionEvents)}
    (hm : ∀ e ∈ m.tail, e.2.adjustment = none) :
    money ((m.map (·.2)).foldl recalculateAuthorizationAmounts 0)
      = (m.map fun e => amountOf e.2.adjustment + effectiveAmount e.2.success e.2.failure).sum := by
  rcases m with _ | ⟨⟨p, g⟩, m⟩
  · rfl
  · have hrest : ∀ g' ∈ m.map (·.2), ∀ t, money (recalculateAuthorizationAmounts t g')
        = money t + (amountOf g'.adjustment + effectiveAmount g'.success g'.failure) := by
      intro g' hg' t
      obtain ⟨e, he, rfl⟩ := List.mem_map.mp hg'
      exact money_recalculateAuthorizationAmounts t (Or.inl (hm e he))
    rw [List.map_cons, List.foldl_cons, money_foldl hrest,
      money_recalculateAuthorizationAmounts 0 (Or.inr rfl), List.map_cons, List.sum_cons,
      List.map_map]
    exact congrArg (· + _) (zero_add _)

/-! ### What the groups hold -/

/-- The group of a psp reference, an empty one if there is none. -/
def groupAt (psp : String) (m : List (String × ActionEvents)) : ActionEvents :=
  ((m.find? (·.1 = psp)).map (·.2)).getD {}

theorem groupAt_upsert (p q : String) (f : ActionEvents → ActionEvents)
    (m : List (String × ActionEvents)) :
    groupAt q (upsert p f m) = if q = p then f (groupAt q m) else groupAt q m := by
  induction m with
  | nil =>
    by_cases h : q = p
    · simp [upsert, groupAt, h]
    · simp [upsert, groupAt, h, Ne.symm h]
  | cons e m ih =>
    obtain ⟨r, g⟩ := e
    rw [upsert]
    by_cases hr : r = p
    · subst hr
      by_cases hq : q = r
      · simp [groupAt, hq]
      · simp [groupAt, hq, Ne.symm hq]
    · rw [if_neg hr]
      by_cases hq : r = q
      · subst hq
        simp [groupAt, hr]
      · simpa [groupAt, hq] using ih

theorem keys_upsert (p : String) (f : ActionEvents → ActionEvents)
    (m : List (String × ActionEvents)) :
    (upsert p f m).map (·.1)
      = if p ∈ m.map (·.1) then m.map (·.1) else m.map (·.1) ++ [p] := by
  induction m with
  | nil => rfl
  | cons e m ih =>
    obtain ⟨r, g⟩ := e
    rw [upsert]
    by_cases hr : r = p
    · simp [hr]
    · rw [if_neg hr, List.map_cons, ih]
      by_cases hp : p ∈ m.map (·.1)
      · simp [hp]
      · simp [hp, Ne.symm hr]

theorem nodup_keys_upsert (p : String) (f : ActionEvents → ActionEvents)
    {m : List (String × ActionEvents)} (h : (m.map (·.1)).Nodup) :
    ((upsert p f m).map (·.1)).Nodup := by
  rw [keys_upsert]
  split
  · exact h
  · rename_i hp
    exact h.append (List.nodup_singleton p) (List.disjoint_singleton.mpr hp)

/-- A sum over the groups, by psp reference. -/
theorem sum_groups {d : ActionEvents → Amount} (hd : d {} = 0) {m : List (String × ActionEvents)}
    (hm : (m.map (·.1)).Nodup) {psps : Finset String} (hpsps : ∀ p ∈ m.map (·.1), p ∈ psps) :
    (m.map fun e => d e.2).sum = ∑ p ∈ psps, d (groupAt p m) := by
  induction m generalizing psps with
  | nil => exact (Finset.sum_eq_zero fun p _ => hd).symm
  | cons e m ih =>
    obtain ⟨p, g⟩ := e
    rw [List.map_cons, List.nodup_cons] at hm
    have hrest : ∀ q ∈ m.map (·.1), q ∈ psps.erase p := by
      intro q hq
      refine Finset.mem_erase.mpr ⟨fun h => hm.1 (h ▸ hq), hpsps q ?_⟩
      rw [List.map_cons]
      exact List.mem_cons_of_mem _ hq
    rw [List.map_cons, List.sum_cons, ih hm.2 hrest,
      ← Finset.add_sum_erase psps _ (hpsps p (by simp))]
    refine congrArg₂ (· + ·) (by simp [groupAt]) (Finset.sum_congr rfl fun q hq => ?_)
    have hne : p ≠ q := (Finset.ne_of_mem_erase hq).symm
    simp [groupAt, hne]

/-- The last event of a type with a psp reference. -/
def newest (type : TransactionEventType) (psp : String) (events : List TransactionEvent) :
    Option TransactionEvent :=
  events.reverse.find? fun e => e.type = type ∧ e.psp = some psp

@[simp] theorem newest_append_singleton (type : TransactionEventType) (psp : String)
    (l : List TransactionEvent) (e : TransactionEvent) :
    newest type psp (l ++ [e])
      = if e.type = type ∧ e.psp = some psp then some e else newest type psp l := by
  rw [newest, List.reverse_append, List.reverse_singleton, List.singleton_append, List.find?_cons]
  by_cases h : e.type = type ∧ e.psp = some psp <;> simp [h, newest]

/-- What one step of the first loop does to the groups: it changes one, the event's, if at all. -/
theorem addAuthorize_authorization (m : ActionEventMap) (e : TransactionEvent) :
    (m.addAuthorize e).authorization = m.authorization ∨
      ∃ p f, e.psp = some p ∧ (m.addAuthorize e).authorization = upsert p f m.authorization ∧
        (¬ e.isAdjustment → ∀ g, (f g).adjustment = g.adjustment) := by
  rw [ActionEventMap.addAuthorize]
  rcases hpsp : e.psp with _ | p
  · exact Or.inl rfl
  dsimp only
  split
  case h_4 htype =>
    refine Or.inr ⟨p, _, rfl, rfl, fun hadj => absurd ?_ hadj⟩
    simp [TransactionEvent.isAdjustment, htype]
  case h_5 => exact Or.inl rfl
  all_goals exact Or.inr ⟨p, _, rfl, rfl, fun _ _ => rfl⟩

theorem addOther_charge (m : ActionEventMap) (e : TransactionEvent) :
    (m.addOther e).charge = m.charge ∨
      ∃ p f, e.psp = some p ∧ (m.addOther e).charge = upsert p f m.charge := by
  rw [ActionEventMap.addOther]
  rcases hpsp : e.psp with _ | p
  · exact Or.inl rfl
  dsimp only
  split <;> first | exact Or.inl rfl | exact Or.inr ⟨p, _, rfl, rfl⟩

/-- Groups keyed by psp references of the events, each once. -/
def KeyedBy (l : List TransactionEvent) (m : List (String × ActionEvents)) : Prop :=
  (m.map (·.1)).Nodup ∧ ∀ p ∈ m.map (·.1), ∃ e ∈ l, e.psp = some p

theorem KeyedBy.upsert {l : List TransactionEvent} {m : List (String × ActionEvents)}
    (h : KeyedBy l m) {e : TransactionEvent} {p : String} (hp : e.psp = some p)
    (f : ActionEvents → ActionEvents) : KeyedBy (l ++ [e]) (upsert p f m) := by
  refine ⟨nodup_keys_upsert p f h.1, fun q hq => ?_⟩
  rw [keys_upsert] at hq
  have hmem : q ∈ m.map (·.1) ∨ q = p := by
    split at hq
    · exact Or.inl hq
    · exact (List.mem_append.mp hq).imp_right List.mem_singleton.mp
  rcases hmem with hq | rfl
  · obtain ⟨e', he', hpsp⟩ := h.2 q hq
    exact ⟨e', List.mem_append_left _ he', hpsp⟩
  · exact ⟨e, List.mem_append_right _ (List.mem_singleton_self e), hp⟩

theorem KeyedBy.append {l : List TransactionEvent} {m : List (String × ActionEvents)}
    (h : KeyedBy l m) (e : TransactionEvent) : KeyedBy (l ++ [e]) m := by
  refine ⟨h.1, fun q hq => ?_⟩
  obtain ⟨e', he', hpsp⟩ := h.2 q hq
  exact ⟨e', List.mem_append_left _ he', hpsp⟩

theorem keyedBy_authorization (l : List TransactionEvent) :
    KeyedBy l (l.foldl ActionEventMap.addAuthorize {}).authorization := by
  induction l using List.reverseRecOn with
  | nil => exact ⟨List.nodup_nil, fun p hp => nomatch hp⟩
  | append_singleton l e ih =>
    rw [List.foldl_append, List.foldl_cons, List.foldl_nil]
    rcases addAuthorize_authorization (l.foldl ActionEventMap.addAuthorize {}) e with
      hsame | ⟨p, f, hp, hupsert, -⟩
    · rw [hsame]
      exact ih.append e
    · rw [hupsert]
      exact ih.upsert hp f

theorem keyedBy_charge (l : List TransactionEvent) :
    KeyedBy l (l.foldl ActionEventMap.addOther {}).charge := by
  induction l using List.reverseRecOn with
  | nil => exact ⟨List.nodup_nil, fun p hp => nomatch hp⟩
  | append_singleton l e ih =>
    rw [List.foldl_append, List.foldl_cons, List.foldl_nil]
    rcases addOther_charge (l.foldl ActionEventMap.addOther {}) e with hsame | ⟨p, f, hp, hupsert⟩
    · rw [hsame]
      exact ih.append e
    · rw [hupsert]
      exact ih.upsert hp f

theorem groupAt_addAuthorize (p : String) (m : ActionEventMap) (e : TransactionEvent) :
    let g := groupAt p m.authorization
    let g' := groupAt p (m.addAuthorize e).authorization
    g'.success = (if e.type = .authorizationSuccess ∧ e.psp = some p then some e else g.success) ∧
      g'.failure
        = (if e.type = .authorizationFailure ∧ e.psp = some p then some e else g.failure) ∧
      g'.adjustment
        = if e.type = .authorizationAdjustment ∧ e.psp = some p then some e else g.adjustment := by
  rw [ActionEventMap.addAuthorize]
  rcases hpsp : e.psp with _ | q
  · simp
  · dsimp only
    by_cases hq : p = q
    · cases htype : e.type <;> simp [groupAt_upsert, hq]
    · cases htype : e.type <;> simp [groupAt_upsert, hq, Ne.symm hq]

/-- **An authorization group** holds the last success, failure and adjustment of its reference. -/
theorem groupAt_authorization (p : String) (l : List TransactionEvent) :
    let g := groupAt p (l.foldl ActionEventMap.addAuthorize {}).authorization
    g.success = newest .authorizationSuccess p l ∧ g.failure = newest .authorizationFailure p l ∧
      g.adjustment = newest .authorizationAdjustment p l := by
  induction l using List.reverseRecOn with
  | nil => exact ⟨rfl, rfl, rfl⟩
  | append_singleton l e ih =>
    obtain ⟨hsuccess, hfailure, hadjustment⟩ := ih
    rw [List.foldl_append, List.foldl_cons, List.foldl_nil]
    simp only [newest_append_singleton, ← hsuccess, ← hfailure, ← hadjustment]
    exact groupAt_addAuthorize p _ e

/-- A charge group holds the last charge back of its reference. -/
theorem groupAt_charge (p : String) (l : List TransactionEvent) :
    (groupAt p (l.foldl ActionEventMap.addOther {}).charge).back = newest .chargeBack p l := by
  induction l using List.reverseRecOn with
  | nil => rfl
  | append_singleton l e ih =>
    rw [List.foldl_append, List.foldl_cons, List.foldl_nil, newest_append_singleton, ← ih]
    generalize l.foldl ActionEventMap.addOther {} = m
    rw [ActionEventMap.addOther]
    rcases hpsp : e.psp with _ | q
    · simp
    · dsimp only
      by_cases hq : p = q
      · cases htype : e.type <;> simp [groupAt_upsert, hq]
      · cases htype : e.type <;> simp [groupAt_upsert, hq, Ne.symm hq]

/-- Only the first authorization group can have an adjustment, when no event after the first is
one. -/
theorem tail_adjustment (l : List TransactionEvent) (m : ActionEventMap)
    (hm : ∀ e ∈ m.authorization.tail, e.2.adjustment = none) (hl : ∀ e ∈ l, ¬ e.isAdjustment) :
    ∀ e ∈ (l.foldl ActionEventMap.addAuthorize m).authorization.tail, e.2.adjustment = none := by
  have hupsert : ∀ (p : String) (f : ActionEvents → ActionEvents)
      (gs : List (String × ActionEvents)), (∀ g, (f g).adjustment = g.adjustment) →
      (∀ e ∈ gs, e.2.adjustment = none) → ∀ e ∈ upsert p f gs, e.2.adjustment = none := by
    intro p f gs hf
    induction gs with
    | nil =>
      rintro - e he
      rw [List.mem_singleton.mp he, hf]
    | cons g gs ih =>
      intro hgs e he
      rw [upsert] at he
      split at he
      · rcases List.mem_cons.mp he with rfl | he
        · exact (hf _).trans (hgs _ List.mem_cons_self)
        · exact hgs e (List.mem_cons_of_mem _ he)
      · rcases List.mem_cons.mp he with rfl | he
        · exact hgs _ List.mem_cons_self
        · exact ih (fun e he => hgs e (List.mem_cons_of_mem _ he)) e he
  induction l generalizing m with
  | nil => exact hm
  | cons a l ih =>
    refine ih (m.addAuthorize a) ?_ fun e he => hl e (List.mem_cons_of_mem _ he)
    rcases addAuthorize_authorization m a with hsame | ⟨p, f, -, heq, hf⟩
    · rwa [hsame]
    · rw [heq]
      have hf := hf (hl a List.mem_cons_self)
      rcases hgs : m.authorization with _ | ⟨⟨q, g⟩, gs⟩
      · intro e he
        cases he
      · rw [hgs] at hm
        rw [upsert]
        split
        · exact hm
        · exact hupsert p f gs hf hm

/-! ### The sum -/

/-- The psp references of the events. -/
def pspReferences (events : List TransactionEvent) : Finset String :=
  (events.filterMap (·.psp)).toFinset

theorem mem_pspReferences {events : List TransactionEvent} {p : String} :
    p ∈ pspReferences events ↔ ∃ e ∈ events, e.psp = some p := by
  simp [pspReferences]

/-- The authorization events of a window that starts with its only adjustment, if it has one. -/
theorem money_authorizeAmounts {a : List TransactionEvent} {l : List TransactionEvent}
    {psps : Finset String} (ha : a.length ≤ 1) (hl : ∀ e ∈ l, ¬ e.isAdjustment)
    (hpsp : ∀ e ∈ a ++ l, e.psp.isSome) (hpsps : ∀ e ∈ a ++ l, ∀ p, e.psp = some p → p ∈ psps) :
    money (authorizeAmounts (a ++ l))
      = ∑ p ∈ psps, (amountOf (newest .authorizationAdjustment p (a ++ l))
          + effectiveAmount (newest .authorizationSuccess p (a ++ l))
              (newest .authorizationFailure p (a ++ l))) := by
  have hnone : (a ++ l).filter (·.psp.isNone) = [] := by
    refine List.filter_eq_nil_iff.mpr fun e he => ?_
    simpa [Option.isSome_iff_ne_none] using hpsp e he
  have htail : ∀ e ∈ ((a ++ l).foldl ActionEventMap.addAuthorize {}).authorization.tail,
      e.2.adjustment = none := by
    rw [List.foldl_append]
    refine tail_adjustment l _ ?_ hl
    rcases a with _ | ⟨b, _ | ⟨c, a⟩⟩
    · exact fun e he => nomatch he
    · rw [List.foldl_cons, List.foldl_nil]
      rcases addAuthorize_authorization {} b with hsame | ⟨p, f, -, heq, -⟩
      · rw [hsame]
        exact fun e he => nomatch he
      · rw [heq]
        exact fun e he => nomatch he
    · exact absurd ha (by simp)
  obtain ⟨hnodup, hkeys⟩ := keyedBy_authorization (a ++ l)
  have hmem : ∀ p ∈ ((a ++ l).foldl ActionEventMap.addAuthorize {}).authorization.map (·.1),
      p ∈ psps := by
    intro p hp
    obtain ⟨e, he, hep⟩ := hkeys p hp
    exact hpsps e he p hep
  rw [authorizeAmounts, hnone, authorizationGroups, List.foldl_nil, money_foldl_authorization htail,
    sum_groups (d := fun g => amountOf g.adjustment + effectiveAmount g.success g.failure) rfl
      hnodup hmem]
  refine Finset.sum_congr rfl fun p _ => ?_
  obtain ⟨hsuccess, hfailure, hadjustment⟩ := groupAt_authorization p (a ++ l)
  rw [hsuccess, hfailure, hadjustment]

theorem money_otherAmounts {l : List TransactionEvent} {psps : Finset String}
    (hpsp : ∀ e ∈ l, e.psp.isSome) (hpsps : ∀ e ∈ l, ∀ p, e.psp = some p → p ∈ psps) :
    money (otherAmounts l) = -∑ p ∈ psps, amountOf (newest .chargeBack p l) := by
  have hnone : l.filter (·.psp.isNone) = [] := by
    refine List.filter_eq_nil_iff.mpr fun e he => ?_
    simpa [Option.isSome_iff_ne_none] using hpsp e he
  obtain ⟨hnodup, hkeys⟩ := keyedBy_charge l
  have hmem : ∀ p ∈ (l.foldl ActionEventMap.addOther {}).charge.map (·.1), p ∈ psps := by
    intro p hp
    obtain ⟨e, he, hep⟩ := hkeys p hp
    exact hpsps e he p hep
  rw [otherAmounts, hnone, List.foldl_nil, money_recalculateOther,
    sum_groups (d := fun g => -amountOf g.back) rfl hnodup hmem, ← Finset.sum_neg_distrib]
  refine (zero_add _).trans (Finset.sum_congr rfl fun p _ => ?_)
  rw [groupAt_charge]

/-- The newest adjustment. -/
def newestAdjustment (events : List TransactionEvent) : Option TransactionEvent :=
  events.reverse.find? (·.isAdjustment)

/-- The events that are newer than every adjustment. -/
def sinceAdjustment (events : List TransactionEvent) : List TransactionEvent :=
  (events.reverse.takeWhile (!·.isAdjustment)).reverse

/-- The authorization of a psp reference that counts: the last success, unless a failure is as
new. -/
def effectiveAuthorization (psp : String) (events : List TransactionEvent) : Amount :=
  effectiveAmount (newest .authorizationSuccess psp events)
    (newest .authorizationFailure psp events)

theorem newest_filter {q : TransactionEvent → Bool} {type : TransactionEventType}
    (hq : ∀ e : TransactionEvent, e.type = type → q e) (p : String) (l : List TransactionEvent) :
    newest type p (l.filter q) = newest type p l := by
  rw [newest, ← List.filter_reverse, List.find?_filter, newest]
  refine congrArg (List.find? · l.reverse) (funext fun e => ?_)
  by_cases htype : e.type = type
  · simp [hq e htype]
  · simp [htype]

theorem newest_cons_of_ne {type : TransactionEventType} {a : TransactionEvent} (h : a.type ≠ type)
    (p : String) (l : List TransactionEvent) : newest type p (a :: l) = newest type p l := by
  rw [newest, List.reverse_cons, List.find?_append, newest]
  simp [h]

/-- Without adjustments there is nothing to find. -/
theorem newest_adjustment_of_forall {l : List TransactionEvent} (h : ∀ e ∈ l, ¬ e.isAdjustment)
    (p : String) : newest .authorizationAdjustment p l = none := by
  refine List.find?_eq_none.mpr fun e he => ?_
  have hne := h e (List.mem_reverse.mp he)
  rw [TransactionEvent.isAdjustment, decide_eq_true_iff] at hne
  simp [hne]

theorem newestAdjustment_split {l₁ l₂ : List TransactionEvent} {a : TransactionEvent}
    (ha : a.isAdjustment) (hl₂ : ∀ e ∈ l₂, ¬ e.isAdjustment) :
    newestAdjustment (l₁ ++ a :: l₂) = some a ∧ sinceAdjustment (l₁ ++ a :: l₂) = l₂ := by
  have hreverse : (l₁ ++ a :: l₂).reverse = l₂.reverse ++ a :: l₁.reverse := by simp
  have hl₂' : ∀ e ∈ l₂.reverse, ¬ e.isAdjustment := fun e he => hl₂ e (List.mem_reverse.mp he)
  constructor
  · rw [newestAdjustment, hreverse, List.find?_append, List.find?_eq_none.mpr hl₂',
      Option.none_or, List.find?_cons_of_pos ha]
  · rw [sinceAdjustment, hreverse, List.takeWhile_append_of_pos (by simpa using hl₂'),
      List.takeWhile_cons_of_neg (by simpa using ha), List.append_nil, List.reverse_reverse]

theorem sinceAdjustment_of_forall {l : List TransactionEvent} (h : ∀ e ∈ l, ¬ e.isAdjustment) :
    newestAdjustment l = none ∧ sinceAdjustment l = l := by
  have hl : ∀ e ∈ l.reverse, ¬ e.isAdjustment := fun e he => h e (List.mem_reverse.mp he)
  refine ⟨List.find?_eq_none.mpr hl, ?_⟩
  rw [sinceAdjustment, List.takeWhile_eq_self_iff.mpr (by simpa using hl), List.reverse_reverse]

/-- What the authorization events put in. -/
theorem money_getAuthorizeEvents {events : List TransactionEvent}
    (hpsp : ∀ e ∈ events, e.psp.isSome) :
    money (authorizeAmounts (getAuthorizeEvents events))
      = amountOf (newestAdjustment events)
        + ∑ p ∈ pspReferences events, effectiveAuthorization p (sinceAdjustment events) := by
  have hsuccess : ∀ e : TransactionEvent, e.type = .authorizationSuccess → e.isAuthorization := by
    intro e he
    simp [TransactionEvent.isAuthorization, AUTHORIZATION_EVENTS, he]
  have hfailure : ∀ e : TransactionEvent, e.type = .authorizationFailure → e.isAuthorization := by
    intro e he
    simp [TransactionEvent.isAuthorization, AUTHORIZATION_EVENTS, he]
  have hmem : ∀ e ∈ events, ∀ p, e.psp = some p → p ∈ pspReferences events :=
    fun e he p hp => mem_pspReferences.mpr ⟨e, he, hp⟩
  rcases exists_newest_adjustment events with hnone | ⟨l₁, a, l₂, rfl, ha, hl₂⟩
  · obtain ⟨hadj, hsince⟩ := sinceAdjustment_of_forall hnone
    have hfilter : ∀ e ∈ events.filter (·.isAuthorization), e ∈ events :=
      fun e he => List.mem_of_mem_filter he
    have hsum := money_authorizeAmounts (a := []) (Nat.zero_le 1)
      (fun e he => hnone e (hfilter e he)) (fun e he => hpsp e (hfilter e he))
      fun e he => hmem e (hfilter e he)
    rw [List.nil_append] at hsum
    rw [getAuthorizeEvents_of_forall hnone, hsum, hadj, hsince]
    refine Eq.trans (Finset.sum_congr rfl fun p _ => ?_) (zero_add _).symm
    rw [newest_adjustment_of_forall (fun e he => hnone e (hfilter e he)), newest_filter hsuccess,
      newest_filter hfailure]
    exact zero_add _
  · obtain ⟨hadj, hsince⟩ : newestAdjustment (l₁ ++ a :: l₂) = some a ∧
        sinceAdjustment (l₁ ++ a :: l₂) = l₂ := newestAdjustment_split ha hl₂
    have hfilter : ∀ e ∈ l₂.filter (·.isAuthorization), ¬ e.isAdjustment :=
      fun e he => hl₂ e (List.mem_of_mem_filter he)
    have hsub : ∀ e ∈ [a] ++ l₂.filter (·.isAuthorization), e ∈ l₁ ++ a :: l₂ := by
      intro e he
      rcases List.mem_cons.mp he with rfl | he
      · simp
      · exact List.mem_append_right _ (List.mem_cons_of_mem _ (List.mem_of_mem_filter he))
    have htype : a.type = .authorizationAdjustment := by
      simpa [TransactionEvent.isAdjustment] using ha
    obtain ⟨q, hq⟩ := Option.isSome_iff_exists.mp (hpsp a (by simp))
    have hfirst : ∀ p, newest .authorizationAdjustment p (a :: l₂.filter (·.isAuthorization))
        = if q = p then some a else none := by
      intro p
      have hrest := newest_adjustment_of_forall hfilter p
      rw [newest] at hrest
      rw [newest, List.reverse_cons, List.find?_append, hrest]
      by_cases hp : q = p <;> simp [htype, hq, hp]
    have hsum := money_authorizeAmounts (a := [a]) le_rfl hfilter (fun e he => hpsp e (hsub e he))
      fun e he => hmem e (hsub e he)
    rw [List.singleton_append] at hsum
    rw [getAuthorizeEvents_split ha hl₂, hsum, hadj, hsince, Finset.sum_add_distrib]
    refine congrArg₂ (· + ·) ?_ (Finset.sum_congr rfl fun p _ => ?_)
    · have hpoint : ∀ p, amountOf (newest .authorizationAdjustment p
          (a :: l₂.filter (·.isAuthorization))) = if q = p then a.amountValue else 0 := by
        intro p
        rw [hfirst]
        split <;> rfl
      rw [Finset.sum_congr rfl fun p _ => hpoint p, Finset.sum_ite_eq,
        if_pos (hmem a (by simp) q hq)]
      rfl
    · rw [newest_cons_of_ne (by simp [htype]), newest_cons_of_ne (by simp [htype]),
        newest_filter hsuccess, newest_filter hfailure, effectiveAuthorization]

/-- **What the amounts add up to**, of events that all carry a psp reference: the newest adjustment
and the authorizations since, less what was charged back. -/
theorem money_calculate {events : List TransactionEvent} (hpsp : ∀ e ∈ events, e.psp.isSome) :
    money (calculateTransactionAmountBasedOnEvents events)
      = amountOf (newestAdjustment events)
        + ∑ p ∈ pspReferences events, effectiveAuthorization p (sinceAdjustment events)
        - ∑ p ∈ pspReferences events, amountOf (newest .chargeBack p events) := by
  have hback : ∀ e : TransactionEvent, e.type = .chargeBack → !e.isAuthorization := by
    intro e he
    simp [TransactionEvent.isAuthorization, AUTHORIZATION_EVENTS, he]
  have hother := money_otherAmounts (l := events.filter (!·.isAuthorization))
    (fun e he => hpsp e (List.mem_of_mem_filter he))
    fun e he p hp => mem_pspReferences.mpr ⟨e, List.mem_of_mem_filter he, hp⟩
  rw [calculate_eq, money_add, money_getAuthorizeEvents hpsp, hother, sub_eq_add_neg]
  refine congrArg (_ + ·) (congrArg Neg.neg (Finset.sum_congr rfl fun p _ => ?_))
  rw [newest_filter hback]

/-- An adjustment to 100, a success of 30 that failed later, a charge of 40 that was charged back,
and a refund on its way. -/
theorem money_calculate_chargedBack :
    let events : List TransactionEvent :=
      [⟨1, .authorizationSuccess, 20000, some "a", true⟩,
        ⟨2, .authorizationAdjustment, 100000, some "b", true⟩,
        ⟨3, .authorizationSuccess, 30000, some "c", true⟩,
        ⟨4, .authorizationFailure, 30000, some "c", true⟩,
        ⟨5, .chargeSuccess, 40000, some "d", true⟩, ⟨6, .chargeBack, 40000, some "d", true⟩,
        ⟨7, .refundRequest, 10000, some "e", true⟩]
    money (calculateTransactionAmountBasedOnEvents events)
      = amountOf (newestAdjustment events)
        + ∑ p ∈ pspReferences events, effectiveAuthorization p (sinceAdjustment events)
        - ∑ p ∈ pspReferences events, amountOf (newest .chargeBack p events) :=
  money_calculate (by decide)

end Payment

end Aixinwu
