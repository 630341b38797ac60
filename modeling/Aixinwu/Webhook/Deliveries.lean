import Aixinwu.Lib.Runs
import Aixinwu.Lib.Table
import Mathlib

/-!
# Deliveries of webhook events

An event is delivered to webhooks by tasks, one for each delivery. A task reads its delivery, sends
the payload and writes down how that went; where the request failed and may be made again, the task
goes back to the queue. A delivery that succeeds is deleted, and then its payload, if no other
delivery has it. Webhooks without a subscription query share one payload.

Tasks of different deliveries run at the same time, in several workers, so that their statements may
come in any order: a step of a run is one statement of one task. What decides is that a payload is
only deleted by a statement that finds no delivery with it, after that of the task is deleted. So no
payload is taken from a delivery that needs it, and none is left without one (`consistent_run`).

## What is a parameter

The answers of the receivers, whether an event can be subscribed to and what a subscription query
makes of it. The rows of attempts are left out: nothing reads them.

## Main definitions

* `Work.step`, `triggerWebhooksAsync` — what tasks do, and what starts them
* `Progress` — how far a delivery is, with what has been sent
* `Consistent` — the invariant

## Main results

* `consistent_run`, `settled_run` — for every order of the statements
* `delivered_of_le` — every delivery comes to an end
-/

namespace Aixinwu

namespace Deliveries

open Runs

/-! ### Rows -/

/-- `EventDeliveryStatus`. -/
inductive EventDeliveryStatus where
  | pending
  | success
  | failed
deriving DecidableEq, Repr

/-- `webhook.models.Webhook`. -/
structure Webhook where
  pk : ℕ
  isActive : Bool := true
  subscriptionQuery : Option String := none
deriving DecidableEq, Repr

instance : HasPk Webhook ℕ := ⟨Webhook.pk⟩

/-- `core.models.EventPayload`. -/
structure EventPayload where
  pk : ℕ
  payload : String
deriving DecidableEq, Repr

instance : HasPk EventPayload ℕ := ⟨EventPayload.pk⟩

@[simp] theorem pk_eventPayload (p : EventPayload) : HasPk.pk p = p.pk := rfl

/-- `core.models.EventDelivery`. -/
structure EventDelivery where
  pk : ℕ
  status : EventDeliveryStatus := .pending
  eventType : String
  payload : Option ℕ
  webhook : ℕ
deriving DecidableEq, Repr

instance : HasPk EventDelivery ℕ := ⟨EventDelivery.pk⟩

@[simp] theorem pk_eventDelivery (d : EventDelivery) : HasPk.pk d = d.pk := rfl

/-! ### Tasks -/

/-- What sending comes to: a response, a `ValueError`, or another exception. -/
inductive Response where
  | success
  | failed (responseStatusCode : Option ℕ)
  | valueError
  | raised
deriving DecidableEq, Repr

/-- Where `send_webhook_request_async` is, with the delivery it has read and its data. -/
inductive Stage where
  | queued
  | disabled
  | fetched (delivery : EventDelivery) (data : Option String)
  | answered (delivery : EventDelivery) (response : Response)
  | updated (delivery : EventDelivery)
  | deleted (payload : Option ℕ)
deriving DecidableEq, Repr

/-- A task, with `request.retries`. -/
structure Task where
  retries : ℕ := 0
  stage : Stage := .queued
deriving DecidableEq, Repr

/-- A request that is made, and what it comes to. -/
structure Send where
  delivery : ℕ
  webhook : ℕ
  eventType : String
  data : String
  response : Response
deriving DecidableEq, Repr

/-- The tables, the tasks by their deliveries, the next keys, and what has happened: the deliveries
as they were created, with their data, and the requests. -/
structure State where
  webhooks : Table Webhook
  payloads : Table EventPayload := .empty
  deliveries : Table EventDelivery := .empty
  tasks : ℕ → Option Task := fun _ => none
  nextPayload : ℕ := 0
  nextDelivery : ℕ := 0
  made : List (EventDelivery × String) := []
  sends : List Send := []

/-- `max_retries`. -/
def maxRetries : ℕ := 5

/-- A request with this status code may be made again. -/
def retryable (responseStatusCode : Option ℕ) : Bool :=
  !responseStatusCode.any fun code => decide (300 ≤ code ∧ code < 500)

namespace State

variable (s : State)

/-- The task of a delivery is at a stage, or done. -/
def setTask (d : ℕ) (t : Option Task) : State := { s with tasks := Function.update s.tasks d t }

/-- `delivery_update`. -/
def deliveryUpdate (d : ℕ) (status : EventDeliveryStatus) : State :=
  { s with deliveries := s.deliveries.modify d (fun row => { row with status }) fun _ => rfl }

/-- A request is made, by the task of a delivery. -/
def send (d : ℕ) (delivery : EventDelivery) (data : String) (response : Response) : State :=
  { s with sends := s.sends ++ [⟨d, delivery.webhook, delivery.eventType, data, response⟩] }

/-- `delivery.delete()`. -/
def deleteDelivery (d : ℕ) : State :=
  { s with deliveries := s.deliveries.delete fun row => decide (row.pk = d) }

/-- `EventPayload.objects.filter(pk=payload_id, deliveries__isnull=True).delete()`. -/
def deletePayload (p : ℕ) : State :=
  { s with payloads := s.payloads.delete fun row =>
      decide (row.pk = p) && s.deliveries.rows.all fun d => decide (d.payload ≠ some p) }

/-- The next statement of `send_webhook_request_async` for a delivery, with what sending comes to.
-/
def work (d : ℕ) (response : Response) : State :=
  match s.tasks d with
  | none => s
  | some ⟨retries, .queued⟩ =>
    -- get_delivery_for_webhook
    match s.deliveries.find? d with
    | none => s.setTask d none
    | some delivery =>
      if (s.webhooks.find? delivery.webhook).any (·.isActive) then
        s.setTask d (some ⟨retries,
          .fetched delivery ((delivery.payload.bind s.payloads.find?).map (·.payload))⟩)
      else s.setTask d (some ⟨retries, .disabled⟩)
  | some ⟨_, .disabled⟩ => (s.deliveryUpdate d .failed).setTask d none
  | some ⟨retries, .fetched delivery none⟩ =>
    s.setTask d (some ⟨retries, .answered delivery .valueError⟩)
  | some ⟨retries, .fetched delivery (some data)⟩ =>
    -- an exception other than a `ValueError` ends the task
    if response = .raised then (s.send d delivery data response).setTask d none
    else (s.send d delivery data response).setTask d (some ⟨retries, .answered delivery response⟩)
  | some ⟨retries, .answered delivery .success⟩ =>
    (s.deliveryUpdate d .success).setTask d (some ⟨retries, .updated delivery⟩)
  | some ⟨retries, .answered _ (.failed code)⟩ =>
    -- handle_webhook_retry
    if retryable code && decide (retries < maxRetries) then
      s.setTask d (some ⟨retries + 1, .queued⟩)
    else (s.deliveryUpdate d .failed).setTask d none
  | some ⟨_, .answered _ _⟩ => (s.deliveryUpdate d .failed).setTask d none
  | some ⟨retries, .updated delivery⟩ =>
    -- clear_successful_delivery
    (s.deleteDelivery d).setTask d (some ⟨retries, .deleted delivery.payload⟩)
  | some ⟨_, .deleted none⟩ => s.setTask d none
  | some ⟨_, .deleted (some p)⟩ => (s.deletePayload p).setTask d none

/-! ### What starts them -/

/-- `EventPayload.objects.create(payload=text)`. -/
def createPayload (text : String) : State :=
  { s with payloads := (s.payloads.insert ⟨s.nextPayload, text⟩).getD s.payloads
           nextPayload := s.nextPayload + 1 }

/-- A delivery of a payload, with its task. -/
def createDelivery (eventType : String) (p : EventPayload) (webhook : Webhook) : State :=
  let delivery : EventDelivery := { pk := s.nextDelivery, eventType, payload := some p.pk
                                    webhook := webhook.pk }
  { s with deliveries := (s.deliveries.insert delivery).getD s.deliveries
           tasks := Function.update s.tasks s.nextDelivery (some {})
           nextDelivery := s.nextDelivery + 1
           made := s.made ++ [(delivery, p.payload)] }

/-- A payload, and deliveries of it. -/
def createAll (eventType text : String) (webhooks : List Webhook) : State :=
  webhooks.foldl (fun s' w => s'.createDelivery eventType ⟨s.nextPayload, text⟩ w)
    (s.createPayload text)

end State

/-- The arguments of `trigger_webhooks_async`. `data` are those of the generator, if there is one;
`generate` is `generate_payload_from_subscription`. -/
structure Trigger where
  eventType : String
  data : Option String
  webhooks : List ℕ
  subscribable : Bool
  generate : Webhook → Option String

/-- A webhook has a subscription query. -/
def Webhook.hasSubscription (w : Webhook) : Bool := w.subscriptionQuery.any (· ≠ "")

/-- `trigger_webhooks_async`, with the deliveries of both kinds of webhooks. -/
def triggerWebhooksAsync (s : State) (t : Trigger) : State :=
  let webhooks := t.webhooks.filterMap s.webhooks.find?
  let subscriptions := if t.subscribable then webhooks.filter (·.hasSubscription) else []
  let createSubscriptions (s : State) : State := subscriptions.foldl (fun s w =>
    match t.generate w with
    | none => s
    | some text => s.createAll t.eventType text [w]) s
  match webhooks.filter (!·.hasSubscription), t.data with
  | [], _ => createSubscriptions s
  | _ :: _, none => s
  | w :: ws, some text => createSubscriptions (s.createAll t.eventType text (w :: ws))

/-! ### Runs -/

/-- What happens: an event is triggered, a webhook is switched on or off, or a task goes on. -/
inductive Event where
  | trigger (t : Trigger)
  | setActive (webhook : ℕ) (isActive : Bool)
  | work (delivery : ℕ) (response : Response)

/-- One step. -/
def step (s : State) : Event → State
  | .trigger t => triggerWebhooksAsync s t
  | .setActive w isActive =>
    { s with webhooks := s.webhooks.modify w (fun row => { row with isActive }) fun _ => rfl }
  | .work d response => s.work d response

/-- The webhooks, and nothing else. -/
def start (webhooks : Table Webhook) : State := { webhooks }

/-- A response after which the request is made again. -/
def Response.retried : Response → Bool
  | .failed code => retryable code
  | _ => false

/-- The request for a delivery. -/
def sendOf (m : EventDelivery × String) (response : Response) : Send :=
  ⟨m.1.pk, m.1.webhook, m.1.eventType, m.2, response⟩

/-- **How far a delivery is**: its task, its row and the responses so far. All but the last of them
are responses after which the request is made again. -/
inductive Progress (m : EventDelivery × String) :
    Option Task → Option EventDelivery → List Response → Prop
  | queued (rs : List Response) (hrs : ∀ r ∈ rs, r.retried) (hlength : rs.length ≤ maxRetries) :
    Progress m (some ⟨rs.length, .queued⟩) (some m.1) rs
  | disabled (rs : List Response) (hrs : ∀ r ∈ rs, r.retried) (hlength : rs.length ≤ maxRetries) :
    Progress m (some ⟨rs.length, .disabled⟩) (some m.1) rs
  | fetched (rs : List Response) (hrs : ∀ r ∈ rs, r.retried) (hlength : rs.length ≤ maxRetries) :
    Progress m (some ⟨rs.length, .fetched m.1 (some m.2)⟩) (some m.1) rs
  | answered (rs : List Response) (r : Response) (hrs : ∀ r ∈ rs, r.retried)
    (hlength : rs.length ≤ maxRetries) :
    Progress m (some ⟨rs.length, .answered m.1 r⟩) (some m.1) (rs ++ [r])
  | updated (rs : List Response) (hrs : ∀ r ∈ rs, r.retried) (hlength : rs.length ≤ maxRetries) :
    Progress m (some ⟨rs.length, .updated m.1⟩) (some { m.1 with status := .success })
      (rs ++ [.success])
  | deleted (rs : List Response) (hrs : ∀ r ∈ rs, r.retried) (hlength : rs.length ≤ maxRetries) :
    Progress m (some ⟨rs.length, .deleted m.1.payload⟩) none (rs ++ [.success])
  | delivered (rs : List Response) (hrs : ∀ r ∈ rs, r.retried) (hlength : rs.length ≤ maxRetries) :
    Progress m none none (rs ++ [.success])
  | switchedOff (rs : List Response) (hrs : ∀ r ∈ rs, r.retried)
    (hlength : rs.length ≤ maxRetries) :
    Progress m none (some { m.1 with status := .failed }) rs
  | failed (rs : List Response) (r : Response) (hrs : ∀ r ∈ rs, r.retried)
    (hlength : rs.length ≤ maxRetries) (hsuccess : r ≠ .success)
    (hlast : r.retried → rs.length = maxRetries) :
    Progress m none (some { m.1 with status := .failed }) (rs ++ [r])
  | abandoned (rs : List Response) (hrs : ∀ r ∈ rs, r.retried) (hlength : rs.length ≤ maxRetries) :
    Progress m none (some m.1) (rs ++ [.raised])

/-- The requests for a delivery. -/
def State.sendsOf (s : State) (d : ℕ) : List Send := s.sends.filter (·.delivery = d)

/-- **The invariant.** Each delivery is where its requests say; its payload is there as long as it
is; and a payload has a delivery, or a task is about to look for one, but for a payload that is new.
-/
structure Consistent (new : Option ℕ) (s : State) : Prop where
  progress : ∀ m ∈ s.made, ∃ rs, s.sendsOf m.1.pk = rs.map (sendOf m) ∧
    Progress m (s.tasks m.1.pk) (s.deliveries.find? m.1.pk) rs
  kept : ∀ m ∈ s.made, (s.deliveries.find? m.1.pk).isSome →
    ∃ p, m.1.payload = some p ∧ s.payloads.find? p = some ⟨p, m.2⟩
  wanted : ∀ p ∈ s.payloads, new ≠ some p.pk → ∃ m ∈ s.made, m.1.payload = some p.pk ∧
    ((s.deliveries.find? m.1.pk).isSome ∨
      ∃ retries, s.tasks m.1.pk = some ⟨retries, .deleted (some p.pk)⟩)
  known : ∀ d, (s.tasks d).isSome ∨ (s.deliveries.find? d).isSome ∨ s.sendsOf d ≠ [] →
    ∃ m ∈ s.made, m.1.pk = d
  nodup : (s.made.map (·.1.pk)).Nodup
  lt_nextDelivery : ∀ m ∈ s.made, m.1.pk < s.nextDelivery
  pending : ∀ m ∈ s.made, m.1.status = .pending
  lt_nextPayload : ∀ p ∈ s.payloads, p.pk < s.nextPayload

/-! ### One statement of a task -/

section Work

variable {s s' s'' : State} {d k : ℕ}

/-- Only one delivery is touched. -/
structure Alone (d : ℕ) (s s' : State) : Prop where
  tasks : ∀ k ≠ d, s'.tasks k = s.tasks k
  rows : ∀ k ≠ d, s'.deliveries.find? k = s.deliveries.find? k
  sends : ∀ k ≠ d, s'.sendsOf k = s.sendsOf k
  rows_of : ∀ k, (s'.deliveries.find? k).isSome → (s.deliveries.find? k).isSome
  made : s'.made = s.made
  nextDelivery : s'.nextDelivery = s.nextDelivery
  nextPayload : s'.nextPayload = s.nextPayload

namespace Alone

theorem refl : Alone d s s :=
  ⟨fun _ _ => rfl, fun _ _ => rfl, fun _ _ => rfl, fun _ h => h, rfl, rfl, rfl⟩

theorem setTask (h : Alone d s s') (t : Option Task) : Alone d s (s'.setTask d t) where
  tasks k hk := (Function.update_of_ne hk _ _).trans (h.tasks k hk)
  rows := h.rows
  sends := h.sends
  rows_of := h.rows_of
  made := h.made
  nextDelivery := h.nextDelivery
  nextPayload := h.nextPayload

theorem deliveryUpdate (status : EventDeliveryStatus) : Alone d s (s.deliveryUpdate d status) where
  tasks _ _ := rfl
  rows k hk := by rw [State.deliveryUpdate, Table.find?_modify, if_neg hk]
  sends _ _ := rfl
  rows_of k hsome := by
    rw [State.deliveryUpdate, Table.find?_modify] at hsome
    split at hsome
    · rwa [Option.isSome_map] at hsome
    · exact hsome
  made := rfl
  nextDelivery := rfl
  nextPayload := rfl

theorem send (delivery : EventDelivery) (data : String) (response : Response) :
    Alone d s (s.send d delivery data response) where
  tasks _ _ := rfl
  rows _ _ := rfl
  sends k hk := by
    rw [State.sendsOf, State.send, List.filter_append, State.sendsOf,
      List.filter_cons_of_neg (by simpa using hk.symm), List.filter_nil, List.append_nil]
  rows_of _ hsome := hsome
  made := rfl
  nextDelivery := rfl
  nextPayload := rfl

end Alone

theorem find?_deleteDelivery (s : State) (d k : ℕ) :
    (s.deleteDelivery d).deliveries.find? k = if k = d then none else s.deliveries.find? k := by
  by_cases hk : k = d
  · subst hk
    rw [if_pos rfl, Table.find?_eq_none]
    intro row hrow hpk
    have hkept := (Table.mem_delete.mp hrow).2
    exact of_decide_eq_false hkept hpk
  · rw [if_neg hk]
    cases hfind : s.deliveries.find? k with
    | none =>
      rw [Table.find?_eq_none] at hfind ⊢
      exact fun row hrow => hfind row (Table.mem_delete.mp hrow).1
    | some row =>
      obtain ⟨hrow, hpk⟩ := Table.find?_eq_some.mp hfind
      refine Table.find?_eq_some.mpr ⟨Table.mem_delete.mpr ⟨hrow, decide_eq_false ?_⟩, hpk⟩
      exact fun heq => hk (hpk.symm.trans heq)

theorem Alone.deleteDelivery : Alone d s (s.deleteDelivery d) where
  tasks _ _ := rfl
  rows k hk := by rw [find?_deleteDelivery, if_neg hk]
  sends _ _ := rfl
  rows_of k hsome := by
    rw [find?_deleteDelivery] at hsome
    split at hsome
    · cases hsome
    · exact hsome
  made := rfl
  nextDelivery := rfl
  nextPayload := rfl

theorem Alone.deletePayload (p : ℕ) : Alone d s (s.deletePayload p) :=
  ⟨fun _ _ => rfl, fun _ _ => rfl, fun _ _ => rfl, fun _ h => h, rfl, rfl, rfl⟩

/-- **A statement of a task** touches its own delivery only. -/
theorem alone_work (s : State) (d : ℕ) (r : Response) : Alone d s (s.work d r) := by
  rw [State.work]
  split
  · exact .refl
  · split
    · exact Alone.refl.setTask _
    · split <;> exact Alone.refl.setTask _
  · exact (Alone.deliveryUpdate _).setTask _
  · exact Alone.refl.setTask _
  · split <;> exact (Alone.send _ _ _).setTask _
  · exact (Alone.deliveryUpdate _).setTask _
  · split
    · exact Alone.refl.setTask _
    · exact (Alone.deliveryUpdate _).setTask _
  · exact (Alone.deliveryUpdate _).setTask _
  · exact Alone.deleteDelivery.setTask _
  · exact Alone.refl.setTask _
  · exact (Alone.deletePayload _).setTask _

/-- A payload goes by one statement only. -/
theorem payloads_work (s : State) (d : ℕ) (r : Response) : (s.work d r).payloads = s.payloads ∨
    ∃ retries p, s.tasks d = some ⟨retries, .deleted (some p)⟩ ∧
      s.work d r = (s.deletePayload p).setTask d none := by
  rw [State.work]
  split
  case h_11 retries p htask => exact .inr ⟨retries, p, htask, rfl⟩
  all_goals left
  all_goals (try split) <;> (try split) <;> rfl

@[simp] theorem tasks_setTask (t : Option Task) : (s.setTask d t).tasks d = t :=
  Function.update_self ..

@[simp] theorem find?_setTask (t : Option Task) :
    (s.setTask d t).deliveries.find? k = s.deliveries.find? k := rfl

@[simp] theorem sendsOf_setTask (t : Option Task) : (s.setTask d t).sendsOf k = s.sendsOf k := rfl

@[simp] theorem sendsOf_deliveryUpdate (status : EventDeliveryStatus) :
    (s.deliveryUpdate d status).sendsOf k = s.sendsOf k := rfl

@[simp] theorem sendsOf_deleteDelivery : (s.deleteDelivery d).sendsOf k = s.sendsOf k := rfl

@[simp] theorem sendsOf_deletePayload (p : ℕ) : (s.deletePayload p).sendsOf k = s.sendsOf k := rfl

@[simp] theorem find?_deletePayload (p : ℕ) :
    (s.deletePayload p).deliveries.find? k = s.deliveries.find? k := rfl

@[simp] theorem find?_send (delivery : EventDelivery) (data : String) (response : Response) :
    (s.send d delivery data response).deliveries.find? k = s.deliveries.find? k := rfl

theorem find?_deliveryUpdate (status : EventDeliveryStatus) {row : EventDelivery}
    (h : s.deliveries.find? d = some row) :
    (s.deliveryUpdate d status).deliveries.find? d = some { row with status } := by
  rw [State.deliveryUpdate, Table.find?_modify, if_pos rfl, h, Option.map_some]

theorem sendsOf_send {m : EventDelivery × String} {rs : List Response}
    (h : s.sendsOf m.1.pk = rs.map (sendOf m)) (r : Response) :
    (s.send m.1.pk m.1 m.2 r).sendsOf m.1.pk = (rs ++ [r]).map (sendOf m) := by
  rw [State.sendsOf] at h
  rw [State.sendsOf, State.send, List.filter_append, h, List.map_append, List.filter_cons,
    if_pos (decide_eq_true rfl)]
  rfl

variable {m : EventDelivery × String} {rs : List Response}

/-- **What a statement does to its delivery.** -/
theorem progress_work (hsends : s.sendsOf m.1.pk = rs.map (sendOf m))
    (h : Progress m (s.tasks m.1.pk) (s.deliveries.find? m.1.pk) rs)
    (hkept : (s.deliveries.find? m.1.pk).isSome →
      ∃ p, m.1.payload = some p ∧ s.payloads.find? p = some ⟨p, m.2⟩) (r : Response) :
    (∃ rs', (s.work m.1.pk r).sendsOf m.1.pk = rs'.map (sendOf m) ∧
      Progress m ((s.work m.1.pk r).tasks m.1.pk) ((s.work m.1.pk r).deliveries.find? m.1.pk) rs') ∧
    ((s.deliveries.find? m.1.pk).isSome → ((s.work m.1.pk r).deliveries.find? m.1.pk).isSome ∨
      ∃ retries, (s.work m.1.pk r).tasks m.1.pk = some ⟨retries, .deleted m.1.payload⟩) := by
  generalize htask : s.tasks m.1.pk = task at h
  generalize hrow : s.deliveries.find? m.1.pk = row at h hkept
  cases h with
  | queued rs hrs hlength =>
    obtain ⟨p, hp, hfind⟩ := hkept rfl
    rw [State.work, htask]
    dsimp only
    rw [hrow]
    dsimp only
    split
    · refine ⟨⟨rs, hsends, ?_⟩, fun _ => .inl (by simp [hrow])⟩
      rw [tasks_setTask, find?_setTask, hrow, hp, Option.bind_some, hfind, Option.map_some]
      exact .fetched rs hrs hlength
    · refine ⟨⟨rs, hsends, ?_⟩, fun _ => .inl (by simp [hrow])⟩
      rw [tasks_setTask, find?_setTask, hrow]
      exact .disabled rs hrs hlength
  | disabled rs hrs hlength =>
    have hupdate := find?_deliveryUpdate .failed hrow
    rw [State.work, htask]
    dsimp only
    refine ⟨⟨rs, hsends, ?_⟩, fun _ => .inl (by simp [hupdate])⟩
    rw [tasks_setTask, find?_setTask, hupdate]
    exact .switchedOff rs hrs hlength
  | fetched rs hrs hlength =>
    rw [State.work, htask]
    dsimp only
    split
    · rename_i hraised
      subst hraised
      refine ⟨⟨rs ++ [Response.raised], sendsOf_send hsends _, ?_⟩, fun _ => .inl (by simp [hrow])⟩
      rw [tasks_setTask, find?_setTask, find?_send, hrow]
      exact .abandoned rs hrs hlength
    · refine ⟨⟨rs ++ [r], sendsOf_send hsends _, ?_⟩, fun _ => .inl (by simp [hrow])⟩
      rw [tasks_setTask, find?_setTask, find?_send, hrow]
      exact .answered rs r hrs hlength
  | answered rs r hrs hlength =>
    have hfailed := find?_deliveryUpdate .failed hrow
    have hsuccess := find?_deliveryUpdate .success hrow
    rw [State.work, htask]
    cases r with
    | success =>
      refine ⟨⟨rs ++ [Response.success], hsends, ?_⟩, fun _ => .inl (by simp [hsuccess])⟩
      rw [tasks_setTask, find?_setTask, hsuccess]
      exact .updated rs hrs hlength
    | failed code =>
      dsimp only
      by_cases hagain : (retryable code && decide (rs.length < maxRetries)) = true
      · obtain ⟨hretried, hlt⟩ := Bool.and_eq_true_iff.mp hagain
        rw [if_pos hagain]
        refine ⟨⟨rs ++ [Response.failed code], hsends, ?_⟩, fun _ => .inl (by simp [hrow])⟩
        rw [tasks_setTask, find?_setTask, hrow]
        have hall : ∀ r ∈ rs ++ [Response.failed code], r.retried := by
          intro r hr
          rcases List.mem_append.mp hr with hr | hr
          · exact hrs r hr
          · rw [List.mem_singleton.mp hr]
            exact hretried
        have hlength' : (rs ++ [Response.failed code]).length = rs.length + 1 := List.length_append
        rw [← hlength']
        exact .queued _ hall (hlength' ▸ of_decide_eq_true hlt)
      · rw [if_neg hagain]
        refine ⟨⟨rs ++ [Response.failed code], hsends, ?_⟩, fun _ => .inl (by simp [hfailed])⟩
        rw [tasks_setTask, find?_setTask, hfailed]
        refine .failed rs _ hrs hlength (by intro h; cases h) fun hretried => ?_
        have hnot : ¬ rs.length < maxRetries := fun hlt =>
          hagain (Bool.and_eq_true_iff.mpr ⟨hretried, decide_eq_true hlt⟩)
        exact le_antisymm hlength (not_lt.mp hnot)
    | valueError =>
      refine ⟨⟨rs ++ [Response.valueError], hsends, ?_⟩, fun _ => .inl (by simp [hfailed])⟩
      rw [tasks_setTask, find?_setTask, hfailed]
      exact .failed rs _ hrs hlength (by intro h; cases h) fun h => absurd h Bool.false_ne_true
    | raised =>
      refine ⟨⟨rs ++ [Response.raised], hsends, ?_⟩, fun _ => .inl (by simp [hfailed])⟩
      rw [tasks_setTask, find?_setTask, hfailed]
      exact .failed rs _ hrs hlength (by intro h; cases h) fun h => absurd h Bool.false_ne_true
  | updated rs hrs hlength =>
    rw [State.work, htask]
    dsimp only
    refine ⟨⟨rs ++ [Response.success], hsends, ?_⟩, fun _ => .inr ⟨rs.length, tasks_setTask _⟩⟩
    rw [tasks_setTask, find?_setTask, find?_deleteDelivery, if_pos rfl]
    exact .deleted rs hrs hlength
  | deleted rs hrs hlength =>
    have hdone : Progress m none (s.deliveries.find? m.1.pk) (rs ++ [.success]) := by
      rw [hrow]
      exact .delivered rs hrs hlength
    rw [State.work, htask]
    cases hpayload : m.1.payload with
    | none =>
      refine ⟨⟨rs ++ [Response.success], hsends, ?_⟩, fun h => absurd h Bool.false_ne_true⟩
      rwa [tasks_setTask, find?_setTask]
    | some p =>
      refine ⟨⟨rs ++ [Response.success], hsends, ?_⟩, fun h => absurd h Bool.false_ne_true⟩
      rwa [tasks_setTask, find?_setTask, find?_deletePayload]
  | delivered rs hrs hlength =>
    rw [State.work, htask]
    dsimp only
    refine ⟨⟨_, hsends, ?_⟩, fun h => absurd h Bool.false_ne_true⟩
    rw [htask, hrow]
    exact .delivered rs hrs hlength
  | switchedOff rs hrs hlength =>
    rw [State.work, htask]
    dsimp only
    refine ⟨⟨_, hsends, ?_⟩, fun _ => .inl (by simp [hrow])⟩
    rw [htask, hrow]
    exact .switchedOff rs hrs hlength
  | failed rs r hrs hlength hsuccess hlast =>
    rw [State.work, htask]
    dsimp only
    refine ⟨⟨_, hsends, ?_⟩, fun _ => .inl (by simp [hrow])⟩
    rw [htask, hrow]
    exact .failed rs r hrs hlength hsuccess hlast
  | abandoned rs hrs hlength =>
    rw [State.work, htask]
    dsimp only
    refine ⟨⟨_, hsends, ?_⟩, fun _ => .inl (by simp [hrow])⟩
    rw [htask, hrow]
    exact .abandoned rs hrs hlength

/-- A row of a delivery has what the delivery was created with. -/
theorem Progress.row_eq {task : Option Task} {row : EventDelivery}
    (h : Progress m task (some row) rs) : ∃ status, row = { m.1 with status } := by
  generalize hsome : some row = r at h
  cases h with
  | queued | disabled | fetched | answered | abandoned =>
    exact ⟨m.1.status, Option.some.inj hsome⟩
  | updated | switchedOff | failed => exact ⟨_, Option.some.inj hsome⟩
  | deleted | delivered => cases hsome

/-- The row is gone when the payload is looked at. -/
theorem Progress.row_of_deleted {retries : ℕ} {payload : Option ℕ} {row : Option EventDelivery}
    (h : Progress m (some ⟨retries, .deleted payload⟩) row rs) : row = none := by
  generalize htask : some (⟨retries, .deleted payload⟩ : Task) = task at h
  cases h with
  | deleted => rfl
  | _ => cases htask

theorem mem_deletePayload {p : ℕ} {row : EventPayload} : row ∈ (s.deletePayload p).payloads ↔
    row ∈ s.payloads ∧ (row.pk = p → ∃ d ∈ s.deliveries, d.payload = some p) := by
  refine Table.mem_delete.trans (and_congr_right fun _ => ?_)
  rw [Bool.and_eq_false_iff, decide_eq_false_iff_not, ← imp_iff_not_or, List.all_eq_false]
  refine imp_congr_right fun _ => exists_congr fun d => and_congr_right fun _ => ?_
  rw [decide_eq_true_iff, not_not]

namespace Consistent

variable {new : Option ℕ}

/-- The delivery with a key. -/
theorem eq_of_pk_eq (h : Consistent new s) {m m' : EventDelivery × String} (hm : m ∈ s.made)
    (hm' : m' ∈ s.made) (hpk : m.1.pk = m'.1.pk) : m = m' :=
  List.inj_on_of_nodup_map h.nodup hm hm' hpk

/-- A row is that of a delivery that was made, with its payload. -/
theorem exists_of_row (h : Consistent new s) {row : EventDelivery} (hrow : row ∈ s.deliveries) :
    ∃ m ∈ s.made, m.1.pk = row.pk ∧ row.payload = m.1.payload ∧
      s.deliveries.find? m.1.pk = some row := by
  have hfind : s.deliveries.find? row.pk = some row := Table.find?_eq_some.mpr ⟨hrow, rfl⟩
  obtain ⟨m, hm, hpk⟩ := h.known row.pk (.inr (.inl (hfind ▸ rfl)))
  obtain ⟨rs, -, hprogress⟩ := h.progress m hm
  rw [hpk, hfind] at hprogress
  obtain ⟨status, heq⟩ := hprogress.row_eq
  exact ⟨m, hm, hpk, heq ▸ rfl, hpk ▸ hfind⟩

/-- A payload that is wanted is not deleted. -/
theorem find?_work (h : Consistent new s) (r : Response) {m : EventDelivery × String}
    (hm : m ∈ s.made) (hold : (s.deliveries.find? m.1.pk).isSome) :
    ∃ p, m.1.payload = some p ∧ (s.work d r).payloads.find? p = some ⟨p, m.2⟩ := by
  obtain ⟨p, hp, hfind⟩ := h.kept m hm hold
  refine ⟨p, hp, ?_⟩
  rcases payloads_work s d r with heq | ⟨retries, p', -, heq⟩
  · rw [heq, hfind]
  · obtain ⟨hmem, -⟩ := Table.find?_eq_some.mp hfind
    rw [heq]
    refine Table.find?_eq_some.mpr ⟨mem_deletePayload.mpr ⟨hmem, fun hpk => ?_⟩, rfl⟩
    obtain ⟨row, hrow⟩ := Option.isSome_iff_exists.mp hold
    obtain ⟨hin, hpk'⟩ := Table.find?_eq_some.mp hrow
    obtain ⟨m', hm', hpk'', hpayload, -⟩ := h.exists_of_row hin
    obtain rfl := h.eq_of_pk_eq hm' hm (hpk''.trans hpk')
    exact ⟨row, hin, hpayload.trans (hp.trans (congrArg some hpk))⟩

/-- **A statement of a task** keeps the invariant. -/
theorem work (h : Consistent none s) (d : ℕ) (r : Response) : Consistent none (s.work d r) := by
  by_cases hnone : s.tasks d = none
  · rw [State.work, hnone]
    exact h
  obtain ⟨m, hm, rfl⟩ := h.known d (.inl (Option.isSome_iff_ne_none.mpr hnone))
  have halone := alone_work s m.1.pk r
  obtain ⟨rs, hsends, hprogress⟩ := h.progress m hm
  obtain ⟨hown, hrow⟩ := progress_work hsends hprogress (h.kept m hm) r
  exact {
    progress := by
      intro m' hm'
      rw [halone.made] at hm'
      by_cases heq : m'.1.pk = m.1.pk
      · obtain rfl := h.eq_of_pk_eq hm' hm heq
        exact hown
      · rw [halone.tasks _ heq, halone.rows _ heq, halone.sends _ heq]
        exact h.progress m' hm'
    kept := by
      intro m' hm' hsome
      rw [halone.made] at hm'
      exact h.find?_work r hm' (halone.rows_of _ hsome)
    wanted := by
      intro p hp _
      have hbefore : p ∈ s.payloads := by
        rcases payloads_work s m.1.pk r with heq | ⟨retries, p', -, heq⟩
        · exact heq ▸ hp
        · rw [heq] at hp
          exact (mem_deletePayload.mp hp).1
      rw [halone.made]
      obtain ⟨m', hm', hpayload, hsome | ⟨retries, htask⟩⟩ := h.wanted p hbefore nofun
      · refine ⟨m', hm', hpayload, ?_⟩
        by_cases heq : m'.1.pk = m.1.pk
        · obtain rfl := h.eq_of_pk_eq hm' hm heq
          exact (hrow hsome).imp_right fun ⟨retries, htask⟩ => ⟨retries, hpayload ▸ htask⟩
        · rw [halone.tasks _ heq, halone.rows _ heq]
          exact .inl hsome
      · by_cases heq : m'.1.pk = m.1.pk
        · obtain rfl := h.eq_of_pk_eq hm' hm heq
          -- the payload is still there, so that another delivery has it
          rw [State.work, htask] at hp
          obtain ⟨row, hin, hrowPayload⟩ := (mem_deletePayload.mp hp).2 rfl
          obtain ⟨m'', hm'', -, hpayload', hfind⟩ := h.exists_of_row hin
          rw [htask] at hprogress
          have hne : m''.1.pk ≠ m'.1.pk := by
            intro heq
            rw [← heq, hfind] at hprogress
            cases hprogress.row_of_deleted
          refine ⟨m'', hm'', hpayload'.symm.trans hrowPayload, .inl ?_⟩
          rw [halone.rows _ hne, hfind]
          rfl
        · refine ⟨m', hm', hpayload, .inr ⟨retries, ?_⟩⟩
          rw [halone.tasks _ heq, htask]
    known := by
      intro k hk
      rw [halone.made]
      by_cases heq : k = m.1.pk
      · exact ⟨m, hm, heq.symm⟩
      · rw [halone.tasks _ heq, halone.rows _ heq, halone.sends _ heq] at hk
        exact h.known k hk
    nodup := by
      rw [halone.made]
      exact h.nodup
    lt_nextDelivery := by
      rw [halone.made, halone.nextDelivery]
      exact h.lt_nextDelivery
    pending := by
      rw [halone.made]
      exact h.pending
    lt_nextPayload := by
      intro p hp
      rw [halone.nextPayload]
      rcases payloads_work s m.1.pk r with heq | ⟨retries, p', -, heq⟩
      · rw [heq] at hp
        exact h.lt_nextPayload p hp
      · rw [heq] at hp
        exact h.lt_nextPayload p (mem_deletePayload.mp hp).1 }

/-! ### New deliveries -/

theorem insert_createPayload (h : Consistent none s) (text : String) :
    (s.createPayload text).payloads.rows = s.payloads.rows ++ [⟨s.nextPayload, text⟩] := by
  have hfresh : ∀ p ∈ s.payloads.rows,
      HasPk.pk p ≠ HasPk.pk (⟨s.nextPayload, text⟩ : EventPayload) :=
    fun p hp => (h.lt_nextPayload p hp).ne
  rw [State.createPayload, Table.insert, dif_pos hfresh]
  rfl

/-- A payload is created, for which there are no deliveries yet. -/
theorem createPayload (h : Consistent none s) (text : String) :
    Consistent (some s.nextPayload) (s.createPayload text) where
  progress := h.progress
  kept m hm hsome := by
    obtain ⟨p, hp, hfind⟩ := h.kept m hm hsome
    refine ⟨p, hp, Table.find?_eq_some.mpr ⟨?_, rfl⟩⟩
    rw [Table.mem_def, insert_createPayload h]
    exact List.mem_append_left _ (Table.find?_eq_some.mp hfind).1
  wanted p hp hnew := by
    rw [Table.mem_def, insert_createPayload h] at hp
    rcases List.mem_append.mp hp with hp | hp
    · exact h.wanted p hp nofun
    · rw [List.mem_singleton.mp hp] at hnew
      exact absurd rfl hnew
  known := h.known
  nodup := h.nodup
  lt_nextDelivery := h.lt_nextDelivery
  pending := h.pending
  lt_nextPayload p hp := by
    rw [Table.mem_def, insert_createPayload h] at hp
    rcases List.mem_append.mp hp with hp | hp
    · exact (h.lt_nextPayload p hp).trans (Nat.lt_succ_self _)
    · rw [List.mem_singleton.mp hp]
      exact Nat.lt_succ_self _

/-- The next key of deliveries is new. -/
theorem fresh (h : Consistent new s) : s.tasks s.nextDelivery = none ∧
    s.deliveries.find? s.nextDelivery = none ∧ s.sendsOf s.nextDelivery = [] := by
  have hnot : ¬ ∃ m ∈ s.made, m.1.pk = s.nextDelivery := by
    rintro ⟨m, hm, hpk⟩
    exact (h.lt_nextDelivery m hm).ne hpk
  refine ⟨?_, ?_, ?_⟩ <;> by_contra hsome
  · exact hnot (h.known _ (.inl (Option.isSome_iff_ne_none.mpr hsome)))
  · exact hnot (h.known _ (.inr (.inl (Option.isSome_iff_ne_none.mpr hsome))))
  · exact hnot (h.known _ (.inr (.inr hsome)))

/-- **A delivery is created**, of a payload that is there. -/
theorem createDelivery {p : EventPayload} (hnew : new = none ∨ new = some p.pk)
    (h : Consistent new s) (hp : p ∈ s.payloads) (eventType : String) (w : Webhook) :
    Consistent none (s.createDelivery eventType p w) := by
  obtain ⟨htask, hrow, hsends⟩ := h.fresh
  let delivery : EventDelivery := { pk := s.nextDelivery, eventType, payload := some p.pk
                                    webhook := w.pk }
  have hfind : ∀ k, (s.createDelivery eventType p w).deliveries.find? k
      = if k = s.nextDelivery then some delivery else s.deliveries.find? k := by
    intro k
    have hfresh : ∀ row ∈ s.deliveries.rows, HasPk.pk row ≠ HasPk.pk delivery :=
      Table.find?_eq_none.mp hrow
    have hinsert : s.deliveries.insert delivery
        = some ((s.deliveries.insert delivery).getD s.deliveries) := by
      rw [Table.insert, dif_pos hfresh]
      rfl
    exact Table.find?_insert hinsert k
  have htasks : ∀ k, (s.createDelivery eventType p w).tasks k
      = if k = s.nextDelivery then some {} else s.tasks k := by
    exact fun k => Function.update_apply ..
  have hne : ∀ m ∈ s.made, m.1.pk ≠ s.nextDelivery := fun m hm => (h.lt_nextDelivery m hm).ne
  have hmade : (s.createDelivery eventType p w).made = s.made ++ [(delivery, p.payload)] := rfl
  have hmem : ∀ m, m ∈ (s.createDelivery eventType p w).made ↔
      m ∈ s.made ∨ m = (delivery, p.payload) := by
    intro m
    rw [hmade, List.mem_append, List.mem_singleton]
  exact {
    progress := by
      intro m hm
      rcases (hmem m).mp hm with hm | rfl
      · rw [htasks, hfind, if_neg (hne m hm), if_neg (hne m hm)]
        exact h.progress m hm
      · refine ⟨[], hsends, ?_⟩
        rw [htasks, hfind, if_pos rfl, if_pos rfl]
        exact .queued [] (fun _ h => absurd h List.not_mem_nil) (Nat.zero_le _)
    kept := by
      intro m hm hsome
      rcases (hmem m).mp hm with hm | rfl
      · rw [hfind, if_neg (hne m hm)] at hsome
        exact h.kept m hm hsome
      · exact ⟨p.pk, rfl, Table.find?_eq_some.mpr ⟨hp, rfl⟩⟩
    wanted := by
      intro p' hp' _
      by_cases hpk : p'.pk = p.pk
      · refine ⟨(delivery, p.payload), (hmem _).mpr (.inr rfl), congrArg some hpk.symm, .inl ?_⟩
        rw [hfind, if_pos rfl]
        rfl
      · have hold : new ≠ some p'.pk := by
          rcases hnew with rfl | rfl
          · exact (Option.some_ne_none _).symm
          · exact fun heq => hpk (Option.some.inj heq).symm
        obtain ⟨m, hm, hpayload, hwant⟩ := h.wanted p' hp' hold
        refine ⟨m, (hmem m).mpr (.inl hm), hpayload, ?_⟩
        rw [htasks, hfind, if_neg (hne m hm), if_neg (hne m hm)]
        exact hwant
    known := by
      intro k hk
      by_cases heq : k = s.nextDelivery
      · exact ⟨(delivery, p.payload), (hmem _).mpr (.inr rfl), heq.symm⟩
      · rw [htasks, hfind, if_neg heq, if_neg heq] at hk
        obtain ⟨m, hm, hpk⟩ := h.known k hk
        exact ⟨m, (hmem m).mpr (.inl hm), hpk⟩
    nodup := by
      rw [hmade, List.map_append]
      refine List.nodup_append'.mpr ⟨h.nodup, List.nodup_singleton _, ?_⟩
      refine List.disjoint_singleton.mpr fun hin => ?_
      obtain ⟨m, hm, hpk⟩ := List.mem_map.mp hin
      exact hne m hm hpk
    lt_nextDelivery := by
      intro m hm
      rcases (hmem m).mp hm with hm | rfl
      · exact (h.lt_nextDelivery m hm).trans (Nat.lt_succ_self _)
      · exact Nat.lt_succ_self _
    pending := by
      intro m hm
      rcases (hmem m).mp hm with hm | rfl
      · exact h.pending m hm
      · rfl
    lt_nextPayload := h.lt_nextPayload }

/-- **A payload with its deliveries** keeps the invariant. -/
theorem createAll (h : Consistent none s) (eventType text : String) (w : Webhook)
    (ws : List Webhook) : Consistent none (s.createAll eventType text (w :: ws)) := by
  have hp : (⟨s.nextPayload, text⟩ : EventPayload) ∈ (s.createPayload text).payloads := by
    rw [Table.mem_def, insert_createPayload h]
    exact List.mem_append_right _ (List.mem_singleton_self _)
  have hfirst := createDelivery (.inr rfl) (h.createPayload text) hp eventType w
  have hrest : ∀ (ws : List Webhook) (s' : State), Consistent none s' →
      (⟨s.nextPayload, text⟩ : EventPayload) ∈ s'.payloads →
      Consistent none (ws.foldl
        (fun s' w => s'.createDelivery eventType ⟨s.nextPayload, text⟩ w) s') := by
    intro ws
    induction ws with
    | nil => exact fun s' hs' _ => hs'
    | cons w ws ih => exact fun s' hs' hp => ih _ (createDelivery (.inl rfl) hs' hp eventType w) hp
  exact hrest ws _ hfirst hp

end Consistent

end Work

/-! ### Runs -/

theorem consistent_trigger {s : State} (h : Consistent none s) (t : Trigger) :
    Consistent none (triggerWebhooksAsync s t) := by
  have hsubscriptions : ∀ (ws : List Webhook) (s : State), Consistent none s →
      Consistent none (ws.foldl (fun s w => match t.generate w with
        | none => s
        | some text => s.createAll t.eventType text [w]) s) := by
    intro ws s hs
    refine List.foldlRecOn (motive := Consistent none) ws _ hs fun s' hs' w _ => ?_
    cases t.generate w with
    | none => exact hs'
    | some text => exact hs'.createAll t.eventType text w []
  rw [triggerWebhooksAsync]
  dsimp only
  split
  · exact hsubscriptions _ _ h
  · exact h
  · exact hsubscriptions _ _ (h.createAll t.eventType _ _ _)

theorem consistent_setActive {s : State} (h : Consistent none s) (webhooks : Table Webhook) :
    Consistent none { s with webhooks } :=
  ⟨h.progress, h.kept, h.wanted, h.known, h.nodup, h.lt_nextDelivery, h.pending, h.lt_nextPayload⟩

theorem consistent_start (webhooks : Table Webhook) : Consistent none (start webhooks) where
  progress := nofun
  kept := nofun
  wanted := nofun
  known d h := by
    rcases h with h | h | h
    · cases h
    · cases h
    · exact absurd rfl h
  nodup := List.nodup_nil
  lt_nextDelivery := nofun
  pending := nofun
  lt_nextPayload := nofun

/-- **The invariant holds** after every run. -/
theorem consistent_run (webhooks : Table Webhook) (events : List Event) :
    Consistent none (run step (start webhooks) events) := by
  refine EachStep.inv (fun s e hs _ => ?_) (eachStep_true _ events) (consistent_start webhooks)
  cases e with
  | trigger t => exact consistent_trigger hs t
  | setActive w isActive => exact consistent_setActive hs _
  | work d r => exact hs.work d r

/-! ### What the invariant comes to -/

section Outcomes

variable {m : EventDelivery × String} {task : Option Task} {row : Option EventDelivery}
  {rs : List Response}

theorem success_not_mem (hrs : ∀ r ∈ rs, r.retried) : Response.success ∉ rs := by
  intro hin
  cases hrs _ hin

/-- A request is made again only after a response that asks for it, and five times at most. -/
theorem Progress.responses (h : Progress m task row rs) :
    rs.length ≤ maxRetries + 1 ∧ ∀ r ∈ rs.dropLast, r.retried := by
  cases h with
  | queued _ hrs hlength | disabled _ hrs hlength | fetched _ hrs hlength
  | switchedOff _ hrs hlength =>
    exact ⟨hlength.trans (Nat.le_succ _), fun r hr => hrs r (List.dropLast_subset _ hr)⟩
  | answered rs _ hrs hlength | updated rs hrs hlength | deleted rs hrs hlength
  | delivered rs hrs hlength | failed rs _ hrs hlength | abandoned rs hrs hlength =>
    rw [List.dropLast_concat, List.length_append]
    exact ⟨Nat.succ_le_succ hlength, hrs⟩

/-- A row is deleted after a success. -/
theorem Progress.success_mem (h : Progress m task none rs) : Response.success ∈ rs := by
  generalize hrow : (none : Option EventDelivery) = row at h
  cases h with
  | deleted rs | delivered rs => exact List.mem_append_right _ (List.mem_singleton_self _)
  | _ => cases hrow

/-- How a task ends. -/
theorem Progress.outcome (h : Progress m none row rs) :
    (row = none ∧ rs.getLast? = some .success) ∨
    (row = some { m.1 with status := .failed } ∧ .success ∉ rs) ∨
    (row = some m.1 ∧ rs.getLast? = some .raised) := by
  generalize htask : (none : Option Task) = task at h
  cases h with
  | delivered rs => exact .inl ⟨rfl, List.getLast?_concat⟩
  | switchedOff rs hrs => exact .inr (.inl ⟨rfl, success_not_mem hrs⟩)
  | failed rs r hrs hlength hsuccess =>
    refine .inr (.inl ⟨rfl, fun hin => ?_⟩)
    rcases List.mem_append.mp hin with hin | hin
    · exact success_not_mem hrs hin
    · exact hsuccess (List.mem_singleton.mp hin).symm
  | abandoned rs => exact .inr (.inr ⟨rfl, List.getLast?_concat⟩)
  | _ => cases htask

end Outcomes

/-- **Deliveries after every run**, in whatever order the statements of the tasks come. The requests
for a delivery are its own, six at most, each after one that may be repeated; its payload is there
until the row is deleted, and that is after a success. When no task is left, nor is a payload
without a delivery. -/
theorem settled_run (webhooks : Table Webhook) (events : List Event) :
    let s := run step (start webhooks) events
    (∀ m ∈ s.made, ∃ rs : List Response, s.sendsOf m.1.pk = rs.map (sendOf m) ∧
      rs.length ≤ maxRetries + 1 ∧ (∀ r ∈ rs.dropLast, r.retried) ∧
      ((s.deliveries.find? m.1.pk).isSome →
        ∃ p, m.1.payload = some p ∧ s.payloads.find? p = some ⟨p, m.2⟩) ∧
      (s.deliveries.find? m.1.pk = none → .success ∈ rs)) ∧
    (∀ q ∈ s.sends, ∃ m ∈ s.made, m.1.pk = q.delivery) ∧
    ((∀ d, s.tasks d = none) → ∀ p ∈ s.payloads, ∃ d ∈ s.deliveries, d.payload = some p.pk) := by
  intro s
  have hs : Consistent none s := consistent_run webhooks events
  refine ⟨fun m hm => ?_, fun q hq => ?_, fun hrest p hp => ?_⟩
  · obtain ⟨rs, hsends, hprogress⟩ := hs.progress m hm
    obtain ⟨hlength, hretried⟩ := hprogress.responses
    refine ⟨rs, hsends, hlength, hretried, hs.kept m hm, fun hnone => ?_⟩
    rw [hnone] at hprogress
    exact hprogress.success_mem
  · refine hs.known q.delivery (.inr (.inr (List.ne_nil_of_mem (a := q) ?_)))
    exact List.mem_filter.mpr ⟨hq, decide_eq_true rfl⟩
  · obtain ⟨m, hm, hpayload, hsome | ⟨retries, htask⟩⟩ := hs.wanted p hp nofun
    · obtain ⟨row, hrow⟩ := Option.isSome_iff_exists.mp hsome
      obtain ⟨rs, -, hprogress⟩ := hs.progress m hm
      rw [hrow] at hprogress
      obtain ⟨status, rfl⟩ := hprogress.row_eq
      exact ⟨_, (Table.find?_eq_some.mp hrow).1, hpayload⟩
    · rw [hrest] at htask
      cases htask

/-! ### Every delivery comes to an end -/

/-- How many statements there are from a stage to the end of a request. -/
def Stage.remaining : Stage → ℕ
  | .queued => 5
  | .fetched _ _ => 4
  | .answered _ _ => 3
  | .updated _ => 2
  | .disabled | .deleted _ => 1

/-- How many statements there are to the end of a task. A request that fails takes three. -/
def Task.remaining (t : Task) : ℕ := (maxRetries - t.retries) * 3 + t.stage.remaining

/-- How many statements there are to the end of a delivery. -/
def State.remaining (s : State) (d : ℕ) : ℕ := (s.tasks d).elim 0 Task.remaining

/-- The statements of a task. -/
def Event.isWork (d : ℕ) : Event → Bool
  | .work k _ => decide (k = d)
  | _ => false

/-- How many statements a task may take. -/
def maxStatements : ℕ := maxRetries * 3 + 5

theorem remaining_le (s : State) (d : ℕ) : s.remaining d ≤ maxStatements := by
  rw [State.remaining]
  cases s.tasks d with
  | none => exact Nat.zero_le _
  | some t =>
    obtain ⟨retries, stage⟩ := t
    have hstage : stage.remaining ≤ 5 := by
      cases stage <;> simp only [Stage.remaining, Nat.reduceLeDiff, le_refl]
    have hretries : (maxRetries - retries) * 3 ≤ maxRetries * 3 :=
      Nat.mul_le_mul_right 3 (Nat.sub_le _ _)
    exact Nat.add_le_add hretries hstage

@[simp] theorem remaining_setTask (s : State) (d : ℕ) (t : Option Task) :
    (s.setTask d t).remaining d = t.elim 0 Task.remaining := by
  rw [State.remaining, tasks_setTask]

/-- Each statement is a step towards the end. -/
theorem remaining_work (s : State) (d : ℕ) (r : Response) :
    (s.work d r).remaining d ≤ s.remaining d - 1 := by
  generalize htask : s.tasks d = task
  have hleft : s.remaining d = task.elim 0 Task.remaining := by
    rw [State.remaining, htask]
  rw [hleft]
  obtain _ | ⟨retries, stage⟩ := task
  · rw [State.work, htask]
    exact hleft.trans_le (Nat.zero_le _)
  · cases stage with
    | queued =>
      rw [State.work, htask]
      dsimp only
      split
      · rw [remaining_setTask]
        exact Nat.zero_le _
      · split
        · rw [remaining_setTask]
          exact Nat.le_refl _
        · rw [remaining_setTask]
          exact Nat.add_le_add_left (Nat.le_of_ble_eq_true rfl) _
    | disabled =>
      rw [State.work, htask]
      dsimp only
      rw [remaining_setTask]
      exact Nat.zero_le _
    | fetched delivery data =>
      rw [State.work, htask]
      cases data with
      | none => exact (remaining_setTask _ _ _).le
      | some data =>
        dsimp only
        split
        · rw [remaining_setTask]
          exact Nat.zero_le _
        · rw [remaining_setTask]
          exact Nat.le_refl _
    | answered delivery response =>
      rw [State.work, htask]
      cases response with
      | success => exact (remaining_setTask _ _ _).le
      | failed code =>
        dsimp only
        split
        · rename_i hagain
          -- the request is made again, which takes one of the retries
          have hlt : retries < maxRetries :=
            of_decide_eq_true (Bool.and_eq_true_iff.mp hagain).2
          rw [remaining_setTask]
          simp only [Option.elim_some, Task.remaining, Stage.remaining]
          omega
        · rw [remaining_setTask]
          exact Nat.zero_le _
      | valueError | raised =>
        dsimp only
        rw [remaining_setTask]
        exact Nat.zero_le _
    | updated delivery =>
      rw [State.work, htask]
      exact (remaining_setTask _ _ _).le
    | deleted payload =>
      rw [State.work, htask]
      cases payload with
      | none | some p =>
        dsimp only
        rw [remaining_setTask]
        exact Nat.zero_le _

/-- What the creation of deliveries leaves alone. -/
structure Older (d : ℕ) (s s' : State) : Prop where
  tasks : s'.tasks d = s.tasks d
  lt : d < s'.nextDelivery
  made : s.made ⊆ s'.made

theorem Older.createDelivery {s s' : State} {d : ℕ} (h : Older d s s') (eventType : String)
    (p : EventPayload) (w : Webhook) : Older d s (s'.createDelivery eventType p w) where
  tasks := (Function.update_of_ne h.lt.ne _ _).trans h.tasks
  lt := h.lt.trans (Nat.lt_succ_self _)
  made := List.Subset.trans h.made (List.subset_append_left _ _)

theorem Older.createAll {s s' : State} {d : ℕ} (h : Older d s s') (eventType text : String)
    (ws : List Webhook) : Older d s (s'.createAll eventType text ws) :=
  List.foldlRecOn (motive := Older d s) ws _ ⟨h.tasks, h.lt, h.made⟩
    fun _ hs w _ => hs.createDelivery eventType _ w

theorem older_trigger {s : State} {d : ℕ} (hd : d < s.nextDelivery) (t : Trigger) :
    Older d s (triggerWebhooksAsync s t) := by
  have hrefl : Older d s s := ⟨rfl, hd, List.Subset.refl _⟩
  have hsubscriptions : ∀ (ws : List Webhook) (s' : State), Older d s s' →
      Older d s (ws.foldl (fun s w => match t.generate w with
        | none => s
        | some text => s.createAll t.eventType text [w]) s') := by
    intro ws s' hs'
    refine List.foldlRecOn (motive := Older d s) ws _ hs' fun s'' hs'' w _ => ?_
    cases t.generate w with
    | none => exact hs''
    | some text => exact hs''.createAll t.eventType text [w]
  rw [triggerWebhooksAsync]
  dsimp only
  split
  · exact hsubscriptions _ _ hrefl
  · exact hrefl
  · exact hsubscriptions _ _ (hrefl.createAll t.eventType _ _)

theorem lt_nextDelivery_step {s : State} {d : ℕ} (hd : d < s.nextDelivery) (e : Event) :
    d < (step s e).nextDelivery := by
  cases e with
  | trigger t => exact (older_trigger hd t).lt
  | setActive w isActive => exact hd
  | work k r => exact (alone_work s k r).nextDelivery.symm ▸ hd

theorem made_step {s : State} {d : ℕ} (hd : d < s.nextDelivery) (e : Event) :
    s.made ⊆ (step s e).made := by
  cases e with
  | trigger t => exact (older_trigger hd t).made
  | setActive w isActive => exact List.Subset.refl _
  | work k r => exact (alone_work s k r).made.symm ▸ List.Subset.refl _

theorem remaining_step {s : State} {d : ℕ} (hd : d < s.nextDelivery) (e : Event) :
    (step s e).remaining d ≤ s.remaining d - if e.isWork d then 1 else 0 := by
  cases e with
  | trigger t =>
    rw [step, State.remaining, (older_trigger hd t).tasks]
    exact Nat.le_refl _
  | setActive w isActive => exact Nat.le_refl _
  | work k r =>
    by_cases hk : k = d
    · subst hk
      rw [Event.isWork, if_pos (decide_eq_true rfl)]
      exact remaining_work s k r
    · rw [Event.isWork, if_neg (by simpa using hk), step, State.remaining,
        (alone_work s k r).tasks d (Ne.symm hk)]
      exact Nat.le_refl _

/-- A task that takes so many statements is done. -/
theorem tasks_eq_none_of_le {s : State} {d : ℕ} (hd : d < s.nextDelivery) (later : List Event)
    (h : maxStatements ≤ later.countP (·.isWork d)) : (run step s later).tasks d = none := by
  have hrun : (run step s later).remaining d ≤ s.remaining d - later.countP (·.isWork d) :=
    measure_run_le (m := fun s : State => s.remaining d)
      (fun s e (hs : d < s.nextDelivery) => lt_nextDelivery_step hs e)
      (fun _ e hs => remaining_step hs e) later hd
  have hzero : (run step s later).remaining d = 0 := by
    have hle := remaining_le s d
    omega
  rw [State.remaining] at hzero
  cases htask : (run step s later).tasks d with
  | none => rfl
  | some t =>
    rw [htask] at hzero
    have hstage : 0 < t.stage.remaining := by
      cases t.stage <;> exact Nat.succ_pos _
    exact absurd (Nat.eq_zero_of_add_eq_zero_left hzero) hstage.ne'

/-- **Every delivery comes to an end**, whatever the other tasks do meanwhile: after twenty
statements of its task at most, it has succeeded and is deleted, or it stays as one that failed or
whose last request raised. -/
theorem delivered_of_le (webhooks : Table Webhook) (events later : List Event)
    {m : EventDelivery × String} (hm : m ∈ (run step (start webhooks) events).made)
    (h : maxStatements ≤ later.countP (·.isWork m.1.pk)) :
    let s := run step (start webhooks) (events ++ later)
    s.tasks m.1.pk = none ∧ ∃ rs : List Response, s.sendsOf m.1.pk = rs.map (sendOf m) ∧
      ((s.deliveries.find? m.1.pk = none ∧ rs.getLast? = some .success) ∨
        (s.deliveries.find? m.1.pk = some { m.1 with status := .failed } ∧ .success ∉ rs) ∨
        (s.deliveries.find? m.1.pk = some m.1 ∧ rs.getLast? = some .raised)) := by
  intro s
  have hbefore := consistent_run webhooks events
  have hs : Consistent none s := consistent_run webhooks (events ++ later)
  have htask : s.tasks m.1.pk = none := by
    have hnone := tasks_eq_none_of_le (hbefore.lt_nextDelivery m hm) later h
    rwa [← run_append] at hnone
  have hmade : m ∈ s.made := by
    have hstep : ∀ (t : State) (e : Event), m.1.pk < t.nextDelivery ∧ m ∈ t.made → True →
        m.1.pk < (step t e).nextDelivery ∧ m ∈ (step t e).made :=
      fun t e ht _ => ⟨lt_nextDelivery_step ht.1 e, made_step ht.1 e ht.2⟩
    have hlater := EachStep.inv hstep (eachStep_true _ later)
      ⟨hbefore.lt_nextDelivery m hm, hm⟩
    rw [← run_append] at hlater
    exact hlater.2
  obtain ⟨rs, hsends, hprogress⟩ := hs.progress m hmade
  rw [htask] at hprogress
  exact ⟨htask, rs, hsends, hprogress.outcome⟩

/-- A webhook that answers at once. -/
theorem delivered_of_le_order :
    let webhooks : Table Webhook := (Table.empty.insert { pk := 1 }).getD .empty
    let event : Event := .trigger
      { eventType := "order_created", data := some "[]", webhooks := [1], subscribable := true
        generate := fun _ => none }
    let later : List Event := List.replicate 20 (.work 0 .success)
    let m : EventDelivery × String :=
      ({ pk := 0, eventType := "order_created", payload := some 0, webhook := 1 }, "[]")
    m ∈ (run step (start webhooks) [event]).made ∧ maxStatements ≤ later.countP (·.isWork 0) ∧
      (run step (start webhooks) ([event] ++ later)).tasks m.1.pk = none := by
  intro webhooks event later m
  have hmade : m ∈ (run step (start webhooks) [event]).made := List.mem_singleton_self _
  have hlater : maxStatements ≤ later.countP (·.isWork 0) := by decide
  exact ⟨hmade, hlater, (delivered_of_le webhooks [event] later hmade hlater).1⟩

end Deliveries

end Aixinwu
