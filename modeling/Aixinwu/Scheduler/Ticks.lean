import Aixinwu.Lib.Runs
import Mathlib.Algebra.Order.Group.Defs
import Mathlib.Algebra.Order.Group.Int
import Mathlib.Data.List.Induction
import Mathlib.Data.List.Perm.Basic

/-!
# The ticks of the scheduler

A scheduler keeps a list of events: entries of its schedule, each with the time when it is to be
looked at. `BaseScheduler.tick` goes through the list from the last position to the first. An event
whose time has not come is passed over. Of any other it asks whether the entry is due, and if it is,
the event is taken out of the list, the entry applied, and an event for its reserved successor put
at the end.

So the list changes while it is walked. Before a position is looked at, the events in front of it
and at it are those that stood there in the beginning, and the events behind it have all been looked
at or are new; taking one out and putting one at the end keeps this. Hence each event is examined
once, and what is left are the events that were not applied and the successors of those that were.

The tick returns how long to wait. This is at most the time left of every event that was passed over
and the time that was reported of every other, so none of them is due while the scheduler waits.

## What is a parameter

The methods of Celery's scheduler that the tick calls. They may answer by everything that they were
called for before, which is recorded in `calls`; they do not touch the list.

## Main definitions

* `Methods`, `BaseScheduler`, `tick`
* `Visit`, `Fit` — what the examination of an event comes to
* `LosesNothing` — what a tick is to do

## Main results

* `tickLoop_eq` — the loop, by its visits
* `losesNothing_of_undisturbed`
* `ticks_lose_nothing` — over any sequence of ticks
-/

namespace Aixinwu

namespace Schedulers

open Runs

/-- `HeapEventType`. -/
structure HeapEventType (τ ε : Type*) where
  time : τ
  priority : ℤ
  entry : ε
deriving DecidableEq

/-- What a tick calls the rest of the scheduler for. -/
inductive Call (ε : Type*) where
  | isDue (entry : ε)
  | reserve (entry : ε)
  | applyEntry (entry : ε)
deriving DecidableEq

/-- The attributes of the scheduler and its methods, with the calls before them. What `adjust` makes
of a wait may not be a number. -/
structure Methods (τ ε σ : Type*) where
  maxInterval : τ
  schedulesEqual : Option σ → σ → Bool
  populateHeap : σ → List (HeapEventType τ ε)
  isDue : List (Call ε) → ε → Bool × τ
  reserve : List (Call ε) → ε → ε
  when : List (Call ε) → ε → τ → τ
  adjust : τ → Option τ

/-- `BaseScheduler`, and the calls that it made. -/
structure BaseScheduler (τ ε σ : Type*) where
  oldSchedulers : Option σ
  schedule : σ
  heap : Option (List (HeapEventType τ ε))
  calls : List (Call ε)

/-- The local variables of the loop. -/
structure Progress (τ ε : Type*) where
  heap : List (HeapEventType τ ε)
  nextTick : τ
  calls : List (Call ε)

section Tick

variable {τ ε σ : Type*} [AddCommGroup τ] [LinearOrder τ] (m : Methods τ ε σ) (now : τ)

/-- A round of the loop, nothing where there is no event at the position. -/
def examine (heapPos : ℕ) (p : Progress τ ε) : Option (Progress τ ε) :=
  p.heap[heapPos]?.map fun event =>
    let nextTimeToRun := event.time - now
    if 0 < nextTimeToRun then
      { p with nextTick := if nextTimeToRun < p.nextTick then nextTimeToRun else p.nextTick }
    else
      let (isDue, nextTimeToRun) := m.isDue p.calls event.entry
      let calls := p.calls ++ [.isDue event.entry]
      let nextTick := if nextTimeToRun < p.nextTick then nextTimeToRun else p.nextTick
      if isDue then
        let heap := p.heap.eraseIdx heapPos
        let nextEntry := m.reserve calls event.entry
        let calls := calls ++ [.reserve event.entry, .applyEntry event.entry]
        { heap := heap ++ [⟨m.when calls nextEntry nextTimeToRun, event.priority, nextEntry⟩]
          nextTick := nextTick
          calls := calls }
      else { p with nextTick := nextTick, calls := calls }

/-- The loop over the positions below `n`, downwards. -/
def tickLoop : ℕ → Progress τ ε → Option (Progress τ ε)
  | 0, p => some p
  | heapPos + 1, p => (examine m now heapPos p).bind (tickLoop heapPos)

/-- `tick`: the time to wait, and the scheduler afterwards. -/
def tick (s : BaseScheduler τ ε σ) : Option (τ × BaseScheduler τ ε σ) :=
  let s :=
    if s.heap.isNone || !m.schedulesEqual s.oldSchedulers s.schedule then
      { s with oldSchedulers := some s.schedule, heap := some (m.populateHeap s.schedule) }
    else s
  match s.heap with
  | none | some [] => some (m.maxInterval, s)
  | some H => (tickLoop m now H.length ⟨H, m.maxInterval, s.calls⟩).map fun p =>
      (min ((m.adjust p.nextTick).getD m.maxInterval) m.maxInterval,
        { s with heap := some p.heap, calls := p.calls })

end Tick

/-! ### What a tick is to do -/

/-- What the examination of an event comes to: its time has not come, or it has and the entry is not
due, or it has and the entry is applied and leaves a successor. -/
inductive Visit (τ ε : Type*) where
  | early (event : HeapEventType τ ε)
  | notDue (event : HeapEventType τ ε) (reported : τ)
  | applied (event : HeapEventType τ ε) (reported : τ) (successor : HeapEventType τ ε)

namespace Visit

variable {τ ε σ : Type*}

/-- The event that is examined. -/
def event : Visit τ ε → HeapEventType τ ε
  | early event => event
  | notDue event _ => event
  | applied event _ _ => event

/-- The event that is in the list afterwards. -/
def left : Visit τ ε → HeapEventType τ ε
  | early event => event
  | notDue event _ => event
  | applied _ _ successor => successor

/-- The calls that are made. -/
def calls : Visit τ ε → List (Call ε)
  | early _ => []
  | notDue event _ => [.isDue event.entry]
  | applied event _ _ => [.isDue event.entry, .reserve event.entry, .applyEntry event.entry]

variable [AddCommGroup τ] [LinearOrder τ]

/-- How long the scheduler may wait for the event. -/
def patience (now : τ) : Visit τ ε → τ
  | early event => event.time - now
  | notDue _ reported => reported
  | applied _ reported _ => reported

/-- The visit is what the time and the methods say, after some calls. -/
def Fits (m : Methods τ ε σ) (now : τ) (before : List (Call ε)) : Visit τ ε → Prop
  | early event => now < event.time
  | notDue event reported => event.time ≤ now ∧ m.isDue before event.entry = (false, reported)
  | applied event reported successor =>
    event.time ≤ now ∧ m.isDue before event.entry = (true, reported) ∧
      successor.entry = m.reserve (before ++ [.isDue event.entry]) event.entry ∧
      successor.priority = event.priority ∧
      successor.time = m.when
        (before ++ [.isDue event.entry, .reserve event.entry, .applyEntry event.entry])
        successor.entry reported

end Visit

section Spec

variable {τ ε σ : Type*} [AddCommGroup τ] [LinearOrder τ]

/-- One visit after the other is what the time and the methods say. -/
def Fit (m : Methods τ ε σ) (now : τ) : List (Call ε) → List (Visit τ ε) → Prop
  | _, [] => True
  | before, v :: vs => v.Fits m now before ∧ Fit m now (before ++ v.calls) vs

/-- A tick: what the methods answer to it, and the time when it starts. -/
structure Tick (τ ε σ : Type*) where
  methods : Methods τ ε σ
  now : τ

/-- What a tick makes of the events `H`: each is examined once, as the time and the methods say, and
nothing else is called for; each event that was applied is replaced by its successor, and no other
changes; and the wait is at most what any of them allows. -/
structure Keeps (t : Tick τ ε σ) (s s' : BaseScheduler τ ε σ) (H H' : List (HeapEventType τ ε))
    (vs : List (Visit τ ε)) (wait : τ) : Prop where
  examined : vs.map Visit.event = H.reverse
  fit : Fit t.methods t.now s.calls vs
  calls : s'.calls = s.calls ++ vs.flatMap Visit.calls
  left : H'.Perm (vs.map Visit.left)
  wait_le_maxInterval : wait ≤ t.methods.maxInterval
  wait_le_patience : ∀ v ∈ vs, wait ≤ v.patience t.now
  schedule : s'.schedule = s.schedule ∧ s'.oldSchedulers = s.oldSchedulers

/-- **A tick loses nothing.** -/
def LosesNothing (s : BaseScheduler τ ε σ) (t : Tick τ ε σ) : Prop :=
  ∃ H H' vs wait s', s.heap = some H ∧ tick t.methods t.now s = some (wait, s') ∧
    s'.heap = some H' ∧ Keeps t s s' H H' vs wait

/-- The schedule has not changed, and `adjust` makes no wait longer. -/
structure Undisturbed (s : BaseScheduler τ ε σ) (t : Tick τ ε σ) : Prop where
  schedulesEqual : t.methods.schedulesEqual s.oldSchedulers s.schedule = true
  adjust : ∀ wait, ∃ adjusted ≤ wait, t.methods.adjust wait = some adjusted

/-- The tick applies the event. -/
def Applies (e : HeapEventType τ ε) (s : BaseScheduler τ ε σ) (t : Tick τ ε σ) : Prop :=
  ∃ H vs, s.heap = some H ∧ vs.map Visit.event = H.reverse ∧
    Fit t.methods t.now s.calls vs ∧ ∃ reported successor, .applied e reported successor ∈ vs

/-- One tick after another. -/
def step (s : BaseScheduler τ ε σ) (t : Tick τ ε σ) : BaseScheduler τ ε σ :=
  ((tick t.methods t.now s).map (·.2)).getD s

end Spec

/-! ### The loop -/

section Loop

variable {τ ε σ : Type*} [AddCommGroup τ] [LinearOrder τ] [IsOrderedAddMonoid τ] {m : Methods τ ε σ}
  {now : τ}

/-- **A round of the loop**, where the events up to the position are those of the beginning: a visit
of the last of them. -/
theorem examine_eq (l rest : List (HeapEventType τ ε)) (e : HeapEventType τ ε) (nextTick : τ)
    (calls : List (Call ε)) :
    ∃ (v : Visit τ ε) (rest' : List (HeapEventType τ ε)), v.event = e ∧ v.Fits m now calls ∧
      rest'.Perm (v.left :: rest) ∧
      examine m now l.length ⟨l ++ e :: rest, nextTick, calls⟩
        = some ⟨l ++ rest', min (v.patience now) nextTick, calls ++ v.calls⟩ := by
  have hget : (l ++ e :: rest)[l.length]? = some e := by simp
  have herase : (l ++ e :: rest).eraseIdx l.length = l ++ rest := by
    rw [List.eraseIdx_append_of_length_le le_rfl, Nat.sub_self]
    rfl
  rw [examine, hget, Option.map_some]
  by_cases hearly : 0 < e.time - now
  · refine ⟨.early e, e :: rest, rfl, sub_pos.mp hearly, List.Perm.refl _, ?_⟩
    simp only [if_pos hearly, Visit.calls, List.append_nil, Visit.patience, min_def_lt]
  · have htime : e.time ≤ now := sub_nonpos.mp (not_lt.mp hearly)
    rcases hdue : m.isDue calls e.entry with ⟨isDue, reported⟩
    cases isDue with
    | false =>
      refine ⟨.notDue e reported, e :: rest, rfl, ⟨htime, hdue⟩, List.Perm.refl _, ?_⟩
      simp only [if_neg hearly, Visit.calls, Visit.patience, min_def_lt]
      rfl
    | true =>
      let successor : HeapEventType τ ε :=
        { time := m.when (calls ++ [.isDue e.entry, .reserve e.entry, .applyEntry e.entry])
            (m.reserve (calls ++ [.isDue e.entry]) e.entry) reported
          priority := e.priority
          entry := m.reserve (calls ++ [.isDue e.entry]) e.entry }
      refine ⟨.applied e reported successor, rest ++ [successor], rfl, ⟨htime, hdue, rfl, rfl, rfl⟩,
        List.perm_append_singleton _ _, ?_⟩
      simp only [if_neg hearly, if_true, herase, Visit.calls, Visit.patience, min_def_lt,
        List.append_assoc]
      rfl

/-- **The loop**, from a position on: the events in front of it are visited from the last to the
first, and every other stays. -/
theorem tickLoop_eq (l rest : List (HeapEventType τ ε)) (nextTick : τ) (calls : List (Call ε)) :
    ∃ vs p, tickLoop m now l.length ⟨l ++ rest, nextTick, calls⟩ = some p ∧
      vs.map Visit.event = l.reverse ∧ Fit m now calls vs ∧
      p.calls = calls ++ vs.flatMap Visit.calls ∧ p.heap.Perm (vs.map Visit.left ++ rest) ∧
      p.nextTick ≤ nextTick ∧ ∀ v ∈ vs, p.nextTick ≤ v.patience now := by
  induction l using List.reverseRecOn generalizing rest nextTick calls with
  | nil =>
    refine ⟨[], _, rfl, rfl, trivial, (List.append_nil calls).symm, List.Perm.refl _, le_rfl, ?_⟩
    intro v hv
    exact absurd hv List.not_mem_nil
  | append_singleton l e ih =>
    obtain ⟨v, rest', hevent, hfits, hleft, hround⟩ :=
      @examine_eq τ ε σ _ _ _ m now l rest e nextTick calls
    obtain ⟨vs, p, hloop, hexamined, hfit, hcalls, hheap, hnext, hpatience⟩ :=
      ih rest' (min (v.patience now) nextTick) (calls ++ v.calls)
    refine ⟨v :: vs, p, ?_, ?_, ⟨hfits, hfit⟩, ?_, ?_, hnext.trans (min_le_right _ _), ?_⟩
    · rw [List.length_append, List.length_singleton, tickLoop, List.append_assoc,
        List.singleton_append, hround, Option.bind_some, hloop]
    · rw [List.map_cons, hevent, hexamined, List.reverse_append, List.reverse_singleton,
        List.singleton_append]
    · rw [hcalls, List.flatMap_cons, List.append_assoc]
    · refine hheap.trans ((hleft.append_left _).trans ?_)
      rw [List.map_cons, List.cons_append]
      exact List.perm_middle
    · intro u hu
      rcases List.mem_cons.mp hu with rfl | hu
      · exact hnext.trans (min_le_left _ _)
      · exact hpatience u hu

end Loop

/-! ### The ticks -/

section Ticks

variable {τ ε σ : Type*} [AddCommGroup τ] [LinearOrder τ] {s : BaseScheduler τ ε σ}
  {t : Tick τ ε σ} {H : List (HeapEventType τ ε)}

/-- A tick over an unchanged schedule, with events. -/
theorem tick_of_schedulesEqual {m : Methods τ ε σ} {now : τ} (hheap : s.heap = some H)
    (hequal : m.schedulesEqual s.oldSchedulers s.schedule = true) :
    tick m now s = if H = [] then some (m.maxInterval, s)
      else (tickLoop m now H.length ⟨H, m.maxInterval, s.calls⟩).map fun p =>
        (min ((m.adjust p.nextTick).getD m.maxInterval) m.maxInterval,
          { s with heap := some p.heap, calls := p.calls }) := by
  have hkeep : (s.heap.isNone || !m.schedulesEqual s.oldSchedulers s.schedule) = false := by
    rw [hheap, hequal]
    rfl
  rw [tick, hkeep]
  simp only [Bool.false_eq_true, if_false, hheap]
  cases H with
  | nil => rfl
  | cons e H => rfl

theorem step_of_tick {wait : τ} {s' : BaseScheduler τ ε σ}
    (h : tick t.methods t.now s = some (wait, s')) : step s t = s' := by
  rw [step, h, Option.map_some, Option.getD_some]

/-- An event that a tick does not apply is still there. -/
theorem mem_of_not_applies {H' : List (HeapEventType τ ε)} {vs : List (Visit τ ε)} {wait : τ}
    {s' : BaseScheduler τ ε σ} (hheap : s.heap = some H) (h : Keeps t s s' H H' vs wait)
    {e : HeapEventType τ ε} (he : e ∈ H) (hnot : ¬ Applies e s t) : e ∈ H' := by
  have hvisited : e ∈ vs.map Visit.event := by
    rw [h.examined]
    exact List.mem_reverse.mpr he
  obtain ⟨v, hv, hevent⟩ := List.mem_map.mp hvisited
  refine h.left.mem_iff.mpr (List.mem_map.mpr ⟨v, hv, ?_⟩)
  cases v with
  | early event => exact hevent
  | notDue event reported => exact hevent
  | applied event reported successor =>
    have heq : event = e := hevent
    subst heq
    exact absurd ⟨H, vs, hheap, h.examined, h.fit, reported, successor, hv⟩ hnot

variable [IsOrderedAddMonoid τ]

/-- **A tick that is not disturbed** loses nothing. -/
theorem losesNothing_of_undisturbed (hheap : s.heap = some H) (h : Undisturbed s t) :
    LosesNothing s t := by
  have htick := @tick_of_schedulesEqual τ ε σ _ _ s H t.methods t.now hheap
    h.schedulesEqual
  by_cases hempty : H = []
  · rw [if_pos hempty] at htick
    subst hempty
    refine ⟨[], [], [], t.methods.maxInterval, s, hheap, htick, hheap, rfl, trivial, ?_,
      List.Perm.refl _, le_rfl, ?_, rfl, rfl⟩
    · exact (List.append_nil _).symm
    · intro v hv
      exact absurd hv List.not_mem_nil
  · obtain ⟨vs, p, hloop, hexamined, hfit, hcalls, hperm, hnext, hpatience⟩ :=
      @tickLoop_eq τ ε σ _ _ _ t.methods t.now H [] t.methods.maxInterval s.calls
    rw [List.append_nil] at hloop hperm
    obtain ⟨adjusted, hle, hadjusted⟩ := h.adjust p.nextTick
    rw [if_neg hempty, hloop, Option.map_some, hadjusted, Option.getD_some] at htick
    refine ⟨H, p.heap, vs, min adjusted t.methods.maxInterval,
      { s with heap := some p.heap, calls := p.calls }, hheap, htick, rfl, hexamined, hfit, hcalls,
      hperm, min_le_right _ _, ?_, rfl, rfl⟩
    intro v hv
    exact (min_le_left _ _).trans (hle.trans (hpatience v hv))

/-- **Over any sequence of ticks** nothing is lost: each tick examines every event once, applies
those that are due, replaces them by their successors, and waits no longer than any event allows;
there are always as many events; and an event that no tick applied is still there. -/
theorem ticks_lose_nothing {ticks : List (Tick τ ε σ)} (hheap : s.heap = some H)
    (h : EachStep step Undisturbed s ticks) :
    EachStep step LosesNothing s ticks ∧
      ∃ H', (run step s ticks).heap = some H' ∧ H'.length = H.length ∧
        ∀ e ∈ H, EachStep step (fun s t => ¬ Applies e s t) s ticks → e ∈ H' := by
  induction ticks generalizing s H with
  | nil => exact ⟨trivial, H, hheap, rfl, fun e he _ => he⟩
  | cons t ticks ih =>
    have hloses := losesNothing_of_undisturbed hheap h.1
    obtain ⟨H₀, H₁, vs, wait, s', hheap₀, htick, hheap', hkeeps⟩ := hloses
    obtain rfl : H₀ = H := Option.some.inj (hheap₀.symm.trans hheap)
    have hstep : step s t = s' := step_of_tick htick
    have hlength : H₁.length = H₀.length := by
      have hexamined := congrArg List.length hkeeps.examined
      rw [List.length_map, List.length_reverse] at hexamined
      rw [hkeeps.left.length_eq, List.length_map, hexamined]
    rw [eachStep_cons, hstep] at h
    obtain ⟨hrest, H', hend, hlength', hmem⟩ := ih hheap' h.2
    rw [eachStep_cons, run_cons, hstep]
    refine ⟨⟨losesNothing_of_undisturbed hheap h.1, hrest⟩, H', hend, hlength'.trans hlength, ?_⟩
    intro e he hnot
    rw [eachStep_cons, hstep] at hnot
    exact hmem e (mem_of_not_applies hheap hkeeps he hnot.1) hnot.2

end Ticks

/-! ### An example -/

/-- Entries that are due at once, and then every minute; a wait is made one shorter. -/
def everyMinute : Methods ℤ String Unit where
  maxInterval := 300
  schedulesEqual _ _ := true
  populateHeap _ := []
  isDue _ entry := (entry != "report", 60)
  reserve _ entry := entry
  when _ _ reported := 1000 + reported
  adjust wait := some (wait - 1)

/-- Two entries whose time has come, and one that is looked at in 20 seconds. -/
def threeEvents : BaseScheduler ℤ String Unit where
  oldSchedulers := some ()
  schedule := ()
  heap := some [⟨990, 5, "expire"⟩, ⟨1020, 5, "delete"⟩, ⟨1000, 5, "report"⟩]
  calls := []

/-- Two ticks: the first applies one of the entries, the second none. -/
theorem ticks_lose_nothing_threeEvents :
    EachStep step LosesNothing threeEvents [⟨everyMinute, 1000⟩, ⟨everyMinute, 1019⟩] := by
  have hadjust : ∀ wait, ∃ adjusted ≤ wait, everyMinute.adjust wait = some adjusted :=
    fun wait => ⟨wait - 1, by omega, rfl⟩
  have hrun : EachStep step Undisturbed threeEvents [⟨everyMinute, 1000⟩, ⟨everyMinute, 1019⟩] := by
    rw [eachStep_cons, eachStep_cons]
    exact ⟨⟨rfl, hadjust⟩, ⟨rfl, hadjust⟩, eachStep_nil _⟩
  exact (ticks_lose_nothing rfl hrun).1

end Schedulers

end Aixinwu
