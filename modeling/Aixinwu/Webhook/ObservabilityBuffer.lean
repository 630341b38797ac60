import Aixinwu.Lib.BoundedQueue
import Mathlib.Algebra.BigOperators.Group.List.Basic
import Mathlib.Algebra.Order.Ring.Int
import Mathlib.Logic.Function.Basic

/-!
# The observability buffer

`RedisBuffer` keeps the events of a key in a list of Redis. Events are pushed at its head and popped
from its tail, and after every push the list is trimmed to `max_size`. Drops are counted in two
places: the events of one call that are more than `max_size` are not sent at all, and the length that
the push answers says how many the trimming will cut.

Together they are a queue that keeps the newest events (`run_eq`). Every event that was put is stored
still, was popped, or is one of those that the puts have reported as dropped; that is a field of the
queue and needs no proof here.

## Model

A Redis list is a list, and a key without one has an empty list. A pipeline is a list of commands that
are executed one after another, and an error of one of them is raised when all have been. Nothing
expires: `expire` answers and does no more. Events are encoded and decoded by a `Codec`.

## Main definitions

* `Command.run`, `execute` — Redis
* `RedisBuffer.putEvents`, `RedisBuffer.putMultiKeyEvents`, `RedisBuffer.popEventsGetSize`
* `Call`, `serve`, `Call.onQueues` — a call, as the buffer serves it and on queues

## Main results

* `serve_eq` — one call
* `run_eq` — a sequence of calls
* `history_run` — the history of the queues is that of the calls
* `run_isQueue`
-/

namespace Aixinwu

namespace Buffers

open BoundedQueue

variable {κ α β : Type}

/-! ### Redis -/

/-- The lists, by their keys. -/
abbrev Lists (κ β : Type) := κ → List β

/-- The commands that the buffer sends. -/
inductive Command (κ β : Type) where
  | lpush (key : κ) (values : List β)
  | ltrim (key : κ) (start stop : ℕ)
  | expire (key : κ) (timeout : ℤ)
  | llen (key : κ)
  | rpop (key : κ)

/-- What a command answers. -/
inductive Reply (β : Type) where
  | integer (n : ℤ)
  | ok
  | value (v : Option β)
  | error

/-- How serving a call can fail. -/
inductive Failure where
  | responseError
  | typeError
deriving DecidableEq, Repr

section Redis

variable [DecidableEq κ]

/-- A command on the lists. -/
def Command.run (lists : Lists κ β) : Command κ β → Lists κ β × Reply β
  | .lpush _ [] => (lists, .error)
  | .lpush key values =>
    let list := values.foldl (fun list v => v :: list) (lists key)
    (Function.update lists key list, .integer list.length)
  | .ltrim key start stop =>
    (Function.update lists key (((lists key).take (stop + 1)).drop start), .ok)
  | .expire _ _ => (lists, .integer 1)
  | .llen key => (lists, .integer (lists key).length)
  | .rpop key => (Function.update lists key (lists key).dropLast, .value (lists key).getLast?)

/-- Commands one after another, and their answers. -/
def runAll (lists : Lists κ β) : List (Command κ β) → Lists κ β × List (Reply β)
  | [] => (lists, [])
  | command :: commands =>
    let (lists, reply) := command.run lists
    let (lists, replies) := runAll lists commands
    (lists, reply :: replies)

/-- The answer is an error. -/
def Reply.isError : Reply β → Bool
  | .error => true
  | _ => false

/-- `pipe.execute()`. -/
def execute (lists : Lists κ β) (commands : List (Command κ β)) :
    Lists κ β × Except Failure (List (Reply β)) :=
  let (lists, replies) := runAll lists commands
  (lists, if replies.any (·.isError) then .error .responseError else .ok replies)

end Redis

/-! ### The buffer -/

/-- `encode` and `decode`. -/
structure Codec (α β : Type) where
  encode : α → β
  decode : β → α
  decode_encode : ∀ event, decode (encode event) = event

/-- `RedisBuffer`, but for its key, which a call names. -/
structure RedisBuffer (α β : Type) extends Codec α β where
  maxSize : ℕ
  batchSize : ℤ
  timeout : ℤ := 60

namespace RedisBuffer

variable (b : RedisBuffer α β)

/-- `events[-self.max_size:]`. -/
def eventsFromStart (events : List α) : List α :=
  if b.maxSize = 0 then events else events.drop (events.length - b.maxSize)

/-- `_put_events`: what is sent through the pipeline, and what it returns. -/
def pipePutEvents (key : κ) (events : List α) : List (Command κ β) × ℤ :=
  ([.lpush key ((b.eventsFromStart events).map b.encode), .ltrim key 0 (b.maxSize - 1),
      .expire key b.timeout],
    max 0 (events.length - b.maxSize))

/-- `trimmed[key] += max(0, buffer_len - self.max_size)`, for the keys one after another. -/
def countTrimmed : List (κ × ℤ) → List (Reply β) → Except Failure (List (κ × ℤ))
  | [], _ => .ok []
  | (key, dropped) :: trimmed, .integer bufferLen :: _ :: _ :: result =>
    (countTrimmed trimmed result).map ((key, dropped + max 0 (bufferLen - b.maxSize)) :: ·)
  | _, _ => .error .typeError

/-- The events up to the first answer without one. -/
def decodeAll : List (Reply β) → List α
  | .value (some elem) :: result => b.decode elem :: decodeAll result
  | _ => []

variable [DecidableEq κ]

/-- `put_events`. -/
def putEvents (lists : Lists κ β) (key : κ) (events : List α) : Lists κ β × Except Failure ℤ :=
  let (commands, dropped) := b.pipePutEvents key events
  match execute lists commands with
  | (lists, .error e) => (lists, .error e)
  | (lists, .ok (.integer n :: _)) => (lists, .ok (dropped + max 0 (n - b.maxSize)))
  | (lists, .ok _) => (lists, .error .typeError)

/-- `put_multi_key_events`. -/
def putMultiKeyEvents (lists : Lists κ β) (eventsDict : List (κ × List α)) :
    Lists κ β × Except Failure (List (κ × ℤ)) :=
  if eventsDict = [] then (lists, .ok [])
  else
    match execute lists (eventsDict.flatMap fun e => (b.pipePutEvents e.1 e.2).1) with
    | (lists, .error e) => (lists, .error e)
    | (lists, .ok result) =>
      (lists, b.countTrimmed (eventsDict.map fun e => (e.1, (b.pipePutEvents (β := β) e.1 e.2).2)) result)

/-- `_pop_events`. -/
def popEvents (lists : Lists κ β) (key : κ) (batchSize : ℤ) :
    Lists κ β × Except Failure (List α × ℤ) :=
  match execute lists (.llen key :: List.replicate (max 1 batchSize).toNat (.rpop key)) with
  | (lists, .error e) => (lists, .error e)
  | (lists, .ok (.integer size :: result)) =>
    let events := b.decodeAll result
    (lists, .ok (events, size - events.length))
  | (lists, .ok _) => (lists, .error .typeError)

/-- `pop_events_get_size`. -/
def popEventsGetSize (lists : Lists κ β) (key : κ) : Lists κ β × Except Failure (List α × ℤ) :=
  b.popEvents lists key b.batchSize

end RedisBuffer

/-! ### Calls -/

/-- A call of a method of the buffer with a key. -/
inductive Call (κ α : Type) where
  | putEvents (key : κ) (events : List α)
  | putMultiKeyEvents (eventsDict : List (κ × List α))
  | popEventsGetSize (key : κ)

/-- What a call returns. -/
inductive Outcome (κ α : Type) where
  | dropped (n : ℤ)
  | trimmed (trimmed : List (κ × ℤ))
  | popped (events : List α) (size : ℤ)

/-- The lists of events are not empty, and a dictionary has a key once. -/
def Call.Valid : Call κ α → Prop
  | .putEvents _ events => events ≠ []
  | .putMultiKeyEvents eventsDict => (eventsDict.map (·.1)).Nodup ∧ ∀ e ∈ eventsDict, e.2 ≠ []
  | .popEventsGetSize _ => True

section Serve

variable [DecidableEq κ] (b : RedisBuffer α β)

/-- A call, served by the buffer. -/
def serve (lists : Lists κ β) : Call κ α → Lists κ β × Except Failure (Outcome κ α)
  | .putEvents key events =>
    let (lists, result) := b.putEvents lists key events
    (lists, result.map .dropped)
  | .putMultiKeyEvents eventsDict =>
    let (lists, result) := b.putMultiKeyEvents lists eventsDict
    (lists, result.map .trimmed)
  | .popEventsGetSize key =>
    let (lists, result) := b.popEventsGetSize lists key
    (lists, result.map fun r => .popped r.1 r.2)

/-- Calls, served one after another. -/
def run (lists : Lists κ β) : List (Call κ α) → Lists κ β × List (Except Failure (Outcome κ α))
  | [] => (lists, [])
  | call :: calls =>
    let (lists, outcome) := serve b lists call
    let (lists, outcomes) := run lists calls
    (lists, outcome :: outcomes)

/-! ### Queues -/

/-- A queue for each key. -/
abbrev Queues (size : ℕ) (κ α : Type) := κ → Queue size α

variable {size : ℕ}

/-- Events are put into the queue of a key. -/
def Queues.add (queues : Queues size κ α) (key : κ) (events : List α) : Queues size κ α :=
  Function.update queues key ((queues key).add events)

/-- **What a call does to the queues.** A batch has at least one event. -/
def Call.onQueues (batchSize : ℤ) (queues : Queues size κ α) :
    Call κ α → Queues size κ α × Outcome κ α
  | .putEvents key events => (queues.add key events, .dropped ((queues key).overflow events))
  | .putMultiKeyEvents eventsDict =>
    (eventsDict.foldl (fun queues e => queues.add e.1 e.2) queues,
      .trimmed (eventsDict.map fun e => (e.1, ((queues e.1).overflow e.2 : ℤ))))
  | .popEventsGetSize key =>
    let n := (max 1 batchSize).toNat
    (Function.update queues key ((queues key).take n),
      .popped ((queues key).stored.take n) ((queues key).take n).stored.length)

/-- Calls, one after another, on queues. -/
def runOnQueues (batchSize : ℤ) (queues : Queues size κ α) :
    List (Call κ α) → Queues size κ α × List (Outcome κ α)
  | [] => (queues, [])
  | call :: calls =>
    let (queues, outcome) := call.onQueues batchSize queues
    let (queues, outcomes) := runOnQueues batchSize queues calls
    (queues, outcome :: outcomes)

/-- The lists hold the events of the queues, the oldest at the tail. -/
def Holds (lists : Lists κ β) (queues : Queues b.maxSize κ α) : Prop :=
  ∀ key, lists key = ((queues key).stored.map b.encode).reverse

/-! ### Putting -/

variable {b} {lists : Lists κ β} {queues : Queues b.maxSize κ α}

/-- Values are pushed one after another at the head. -/
theorem foldl_push (values list : List β) :
    values.foldl (fun list v => v :: list) list = values.reverse ++ list := by
  induction values generalizing list with
  | nil => rfl
  | cons v values ih => rw [List.foldl_cons, ih, List.reverse_cons, List.append_assoc]; rfl

theorem runAll_append (commands commands' : List (Command κ β)) (lists : Lists κ β) :
    runAll lists (commands ++ commands') =
      ((runAll (runAll lists commands).1 commands').1,
        (runAll lists commands).2 ++ (runAll (runAll lists commands).1 commands').2) := by
  induction commands generalizing lists with
  | nil => rfl
  | cons command commands ih => simp only [List.cons_append, runAll, ih]

/-- A pipeline without an error. -/
theorem execute_of_runAll {commands : List (Command κ β)} {lists' : Lists κ β} {replies : List (Reply β)}
    (hrun : runAll lists commands = (lists', replies)) (herror : replies.any (·.isError) = false) :
    execute lists commands = (lists', .ok replies) := by
  rw [execute, hrun]
  simp only [herror, Bool.false_eq_true, if_false]

theorem Holds.update (h : Holds b lists queues) {key : κ} {list : List β} {q : Queue b.maxSize α}
    (hlist : list = (q.stored.map b.encode).reverse) :
    Holds b (Function.update lists key list) (Function.update queues key q) := by
  intro k
  by_cases hk : k = key
  · subst hk
    rw [Function.update_self, Function.update_self, hlist]
  · rw [Function.update_of_ne hk, Function.update_of_ne hk, h k]

theorem eventsFromStart_eq (hsize : 1 ≤ b.maxSize) (events : List α) :
    b.eventsFromStart events = newest b.maxSize events := by
  rw [RedisBuffer.eventsFromStart, if_neg (by omega), newest]

/-- **Putting events into a list** puts them into its queue, and what is not sent and what the length
after the push is too large by are together what the queue drops. -/
theorem runAll_pipePutEvents (hsize : 1 ≤ b.maxSize) (h : Holds b lists queues) (key : κ)
    {events : List α} (hevents : events ≠ []) :
    ∃ lists' n, runAll lists (b.pipePutEvents key events).1 = (lists', [.integer n, .ok, .integer 1]) ∧
      Holds b lists' (queues.add key events) ∧
      (b.pipePutEvents (β := β) key events).2 + max 0 (n - b.maxSize)
        = ((queues key).overflow events : ℤ) := by
  have hne : (newest b.maxSize events).map b.encode ≠ [] := by
    intro hnil
    have hlength := congrArg List.length hnil
    rw [List.length_map, length_newest, List.length_nil] at hlength
    have hpos := List.length_pos_of_ne_nil hevents
    omega
  obtain ⟨v, values, hvalues⟩ := List.exists_cons_of_ne_nil hne
  have hlength := congrArg List.length hvalues
  rw [List.length_map, length_newest, List.length_cons] at hlength
  -- the list after the push, and after it is trimmed
  have hpushed : (((newest b.maxSize events).map b.encode).reverse
      ++ ((queues key).stored.map b.encode).reverse).take b.maxSize
      = (((queues key).add events).stored.map b.encode).reverse := by
    rw [← List.reverse_append, ← List.map_append, ← reverse_newest, newest_map,
      newest_append_newest]
    rfl
  have hstored := (queues key).bounded
  refine ⟨_, (((queues key).stored.length + (newest b.maxSize events).length : ℕ) : ℤ), ?_,
    h.update hpushed, ?_⟩
  · simp only [RedisBuffer.pipePutEvents, eventsFromStart_eq hsize, hvalues, runAll, Command.run,
      foldl_push, Function.update_self, Function.update_idem, List.drop_zero, Nat.sub_add_cancel hsize]
    rw [h key]
    simp
    omega
  · rw [RedisBuffer.pipePutEvents, Queue.overflow, length_newest]
    push_cast
    omega

/-- The answers of pushes are no errors, and their numbers are in their places. -/
theorem runAll_flatMap_pipePutEvents (hsize : 1 ≤ b.maxSize) {eventsDict : List (κ × List α)}
    (hkeys : (eventsDict.map (·.1)).Nodup) (hevents : ∀ e ∈ eventsDict, e.2 ≠ [])
    (h : Holds b lists queues) :
    ∃ lists' replies,
      runAll lists (eventsDict.flatMap fun e => (b.pipePutEvents e.1 e.2).1) = (lists', replies) ∧
      replies.any (·.isError) = false ∧
      Holds b lists' (eventsDict.foldl (fun queues e => queues.add e.1 e.2) queues) ∧
      b.countTrimmed (eventsDict.map fun e => (e.1, (b.pipePutEvents (β := β) e.1 e.2).2)) replies
        = .ok (eventsDict.map fun e => (e.1, ((queues e.1).overflow e.2 : ℤ))) := by
  induction eventsDict generalizing lists queues with
  | nil => exact ⟨lists, [], rfl, rfl, h, rfl⟩
  | cons e eventsDict ih =>
    obtain ⟨hnew, hkeys⟩ := List.nodup_cons.mp hkeys
    have hfresh : e.1 ∉ eventsDict.map (·.1) := hnew
    obtain ⟨hfirst, hrest⟩ := List.forall_mem_cons.mp hevents
    obtain ⟨lists₁, n, hrun, hholds, hdropped⟩ := runAll_pipePutEvents hsize h e.1 hfirst
    obtain ⟨lists', replies, hrun', herror, hholds', hcount⟩ := ih hkeys hrest hholds
    refine ⟨lists', [.integer n, .ok, .integer 1] ++ replies, ?_, ?_, hholds', ?_⟩
    · rw [List.flatMap_cons, runAll_append, hrun, hrun']
    · rw [List.any_append, herror]
      rfl
    · rw [List.map_cons, List.map_cons]
      simp only [List.cons_append, List.nil_append, RedisBuffer.countTrimmed, hcount, hdropped]
      -- the other keys have the queues they had
      refine congrArg Except.ok (congrArg₂ List.cons rfl (List.map_congr_left fun e' he' => ?_))
      have hne : e'.1 ≠ e.1 := fun heq => hfresh (heq ▸ List.mem_map_of_mem he')
      rw [Queues.add, Function.update_of_ne hne]

/-! ### Popping -/

/-- **Popping** takes the oldest events, in their order. -/
theorem runAll_replicate_rpop (key : κ) (n : ℕ) {stored : List α}
    (h : lists key = (stored.map b.encode).reverse) :
    ∃ replies, runAll lists (List.replicate n (.rpop key))
        = (Function.update lists key ((stored.drop n).map b.encode).reverse, replies) ∧
      replies.any (·.isError) = false ∧ b.decodeAll replies = stored.take n := by
  induction n generalizing lists stored with
  | zero =>
    refine ⟨[], ?_, rfl, rfl⟩
    rw [List.drop_zero, ← h, Function.update_eq_self]
    rfl
  | succ n ih =>
    have hnext : (Function.update lists key (lists key).dropLast) key
        = ((stored.drop 1).map b.encode).reverse := by
      rw [Function.update_self, h]
      cases stored <;> simp
    obtain ⟨replies, hrun, herror, hdecode⟩ := ih hnext
    have hdrop : (stored.drop 1).drop n = stored.drop (n + 1) := by
      rw [List.drop_drop, Nat.add_comm]
    refine ⟨.value (lists key).getLast? :: replies, ?_, ?_, ?_⟩
    · simp only [List.replicate_succ, runAll, Command.run, hrun, hdrop, Function.update_idem]
    · rw [List.any_cons, herror]
      rfl
    · rw [h]
      cases stored with
      | nil => rfl
      | cons event stored =>
        simp only [List.map_cons, List.reverse_cons, List.getLast?_concat, RedisBuffer.decodeAll,
          b.decode_encode, hdecode]
        rfl

/-! ### Calls and queues -/

/-- **A call** does to the lists what it does to the queues, and returns the same. -/
theorem serve_eq (hsize : 1 ≤ b.maxSize) (h : Holds b lists queues) {call : Call κ α}
    (hcall : call.Valid) : ∃ lists', serve b lists call
        = (lists', .ok (call.onQueues b.batchSize queues).2) ∧
      Holds b lists' (call.onQueues b.batchSize queues).1 := by
  cases call with
  | putEvents key events =>
    obtain ⟨lists', n, hrun, hholds, hdropped⟩ := runAll_pipePutEvents hsize h key hcall
    refine ⟨lists', ?_, hholds⟩
    rw [serve, RedisBuffer.putEvents]
    simp only [execute_of_runAll hrun rfl, hdropped]
    rfl
  | putMultiKeyEvents eventsDict =>
    obtain ⟨lists', replies, hrun, herror, hholds, hcount⟩ :=
      runAll_flatMap_pipePutEvents hsize hcall.1 hcall.2 h
    refine ⟨lists', ?_, hholds⟩
    rw [serve, RedisBuffer.putMultiKeyEvents]
    by_cases hempty : eventsDict = []
    · subst hempty
      obtain ⟨rfl, -⟩ := Prod.mk.inj hrun
      rfl
    · rw [if_neg hempty]
      simp only [execute_of_runAll hrun herror, hcount]
      rfl
  | popEventsGetSize key =>
    obtain ⟨replies, hrun, herror, hdecode⟩ :=
      runAll_replicate_rpop (b := b) key (max 1 b.batchSize).toNat (h key)
    refine ⟨_, ?_, h.update rfl⟩
    have hlength : ((lists key).length : ℤ) - ((queues key).stored.take (max 1 b.batchSize).toNat).length
        = (((queues key).take (max 1 b.batchSize).toNat).stored.length : ℤ) := by
      rw [h key, Queue.take]
      simp
      omega
    have hwhole : runAll lists (.llen key :: List.replicate (max 1 b.batchSize).toNat (.rpop key))
        = (Function.update lists key
            (((queues key).stored.drop (max 1 b.batchSize).toNat).map b.encode).reverse,
          .integer (lists key).length :: replies) := by
      rw [runAll, Command.run]
      simp only [hrun]
    rw [serve, RedisBuffer.popEventsGetSize, RedisBuffer.popEvents]
    simp only [execute_of_runAll hwhole herror, hdecode, hlength]
    rfl

/-- **A sequence of calls**, from any queues. -/
theorem run_eq (hsize : 1 ≤ b.maxSize) (h : Holds b lists queues) {calls : List (Call κ α)}
    (hcalls : ∀ call ∈ calls, call.Valid) : ∃ lists', run b lists calls
        = (lists', (runOnQueues b.batchSize queues calls).2.map .ok) ∧
      Holds b lists' (runOnQueues b.batchSize queues calls).1 := by
  induction calls generalizing lists queues with
  | nil => exact ⟨lists, rfl, h⟩
  | cons call calls ih =>
    obtain ⟨hcall, hcalls⟩ := List.forall_mem_cons.mp hcalls
    obtain ⟨lists₁, hserve, hholds⟩ := serve_eq hsize h hcall
    obtain ⟨lists', hrun, hholds'⟩ := ih hholds hcalls
    refine ⟨lists', ?_, hholds'⟩
    rw [run, hserve, runOnQueues]
    simp only [hrun, List.map_cons]

/-! ### The history -/

/-- The events that a call puts under a key. -/
def Call.putUnder (key : κ) : Call κ α → List α
  | .putEvents k events => if k = key then events else []
  | .putMultiKeyEvents eventsDict => (eventsDict.filter (·.1 = key)).flatMap (·.2)
  | .popEventsGetSize _ => []

/-- The events of a key that a call returns. -/
def poppedFrom (key : κ) : Call κ α × Outcome κ α → List α
  | (.popEventsGetSize k, .popped events _) => if k = key then events else []
  | _ => []

/-- How many events a call reports as dropped, of a key. -/
def droppedFrom (key : κ) : Call κ α × Outcome κ α → ℤ
  | (.putEvents k _, .dropped n) => if k = key then n else 0
  | (.putMultiKeyEvents _, .trimmed trimmed) => ((trimmed.filter (·.1 = key)).map (·.2)).sum
  | _ => 0

section History

variable {size : ℕ} {queues : Queues size κ α} {batchSize : ℤ} (key : κ)

theorem Queues.add_self (events : List α) : queues.add key events key = (queues key).add events :=
  Function.update_self ..

theorem Queues.add_of_ne {k : κ} (h : key ≠ k) (events : List α) :
    queues.add k events key = queues key := Function.update_of_ne h ..

/-- What putting events under several keys does to the queue of one. -/
theorem foldl_add (eventsDict : List (κ × List α)) :
    (eventsDict.foldl (fun queues e => queues.add e.1 e.2) queues key).put
      = (queues key).put ++ (eventsDict.filter (·.1 = key)).flatMap (·.2) ∧
    (eventsDict.foldl (fun queues e => queues.add e.1 e.2) queues key).taken = (queues key).taken := by
  induction eventsDict generalizing queues with
  | nil => simp
  | cons e eventsDict ih =>
    rw [List.foldl_cons]
    obtain ⟨hput, htaken⟩ := @ih (queues.add e.1 e.2)
    rw [hput, htaken]
    by_cases he : e.1 = key
    · subst he
      rw [Queues.add_self, List.filter_cons_of_pos (by simp)]
      simp [Queue.add]
    · rw [Queues.add_of_ne key (Ne.symm he), List.filter_cons_of_neg (by simpa using he)]
      exact ⟨rfl, rfl⟩

/-- What they report as dropped is what the queue drops, if a key comes once. -/
theorem dropped_foldl_add {eventsDict : List (κ × List α)} (hkeys : (eventsDict.map (·.1)).Nodup) :
    ((eventsDict.foldl (fun queues e => queues.add e.1 e.2) queues key).dropped : ℤ)
      = (queues key).dropped + (((eventsDict.map fun e =>
          (e.1, ((queues e.1).overflow e.2 : ℤ))).filter (·.1 = key)).map (·.2)).sum := by
  induction eventsDict generalizing queues with
  | nil => simp
  | cons e eventsDict ih =>
    obtain ⟨hnew, hkeys⟩ := List.nodup_cons.mp hkeys
    have hfresh : e.1 ∉ eventsDict.map (·.1) := hnew
    have hothers : (eventsDict.map fun e' => (e'.1, ((queues.add e.1 e.2 e'.1).overflow e'.2 : ℤ)))
        = eventsDict.map fun e' => (e'.1, ((queues e'.1).overflow e'.2 : ℤ)) := by
      refine List.map_congr_left fun e' he' => ?_
      have hne : e'.1 ≠ e.1 := fun heq => hfresh (heq ▸ List.mem_map_of_mem he')
      rw [Queues.add_of_ne _ hne]
    rw [List.foldl_cons, ih hkeys, hothers, List.map_cons]
    by_cases he : e.1 = key
    · subst he
      rw [Queues.add_self, List.filter_cons_of_pos (by simp)]
      simp [Queue.add, add_assoc]
    · rw [Queues.add_of_ne key (Ne.symm he), List.filter_cons_of_neg (by simpa using he)]

/-- **A call goes into the history** of the queue of each key. -/
theorem history_onQueues {call : Call κ α} (hcall : call.Valid) :
    ((call.onQueues batchSize queues).1 key).put = (queues key).put ++ call.putUnder key ∧
    ((call.onQueues batchSize queues).1 key).taken
      = (queues key).taken ++ poppedFrom key (call, (call.onQueues batchSize queues).2) ∧
    (((call.onQueues batchSize queues).1 key).dropped : ℤ)
      = (queues key).dropped + droppedFrom key (call, (call.onQueues batchSize queues).2) := by
  cases call with
  | putEvents k events =>
    simp only [Call.onQueues, Call.putUnder, poppedFrom, droppedFrom]
    by_cases hk : k = key
    · subst hk
      simp [Queues.add_self, Queue.add]
    · simp [Queues.add_of_ne key (Ne.symm hk), hk]
  | putMultiKeyEvents eventsDict =>
    obtain ⟨hput, htaken⟩ := @foldl_add _ _ _ _ queues key eventsDict
    exact ⟨hput, htaken.trans (List.append_nil _).symm, dropped_foldl_add key hcall.1⟩
  | popEventsGetSize k =>
    simp only [Call.onQueues, Call.putUnder, poppedFrom, droppedFrom]
    by_cases hk : k = key
    · subst hk
      simp [Queue.take]
    · simp [Function.update_of_ne (Ne.symm hk), hk]

/-- The history after a sequence of calls. -/
theorem history_run {calls : List (Call κ α)} (hcalls : ∀ call ∈ calls, call.Valid) :
    ((runOnQueues batchSize queues calls).1 key).put
      = (queues key).put ++ calls.flatMap (·.putUnder key) ∧
    ((runOnQueues batchSize queues calls).1 key).taken = (queues key).taken
      ++ (calls.zip (runOnQueues batchSize queues calls).2).flatMap (poppedFrom key) ∧
    (((runOnQueues batchSize queues calls).1 key).dropped : ℤ) = (queues key).dropped
      + ((calls.zip (runOnQueues batchSize queues calls).2).map (droppedFrom key)).sum := by
  induction calls generalizing queues with
  | nil => simp [runOnQueues]
  | cons call calls ih =>
    obtain ⟨hcall, hcalls⟩ := List.forall_mem_cons.mp hcalls
    obtain ⟨hput, htaken, hdropped⟩ := @history_onQueues _ _ _ _ queues batchSize key _ hcall
    obtain ⟨hput', htaken', hdropped'⟩ := @ih (call.onQueues batchSize queues).1 hcalls
    rw [runOnQueues]
    refine ⟨?_, ?_, ?_⟩
    · rw [hput', hput, List.flatMap_cons, List.append_assoc]
    · rw [htaken', htaken, List.zip_cons_cons, List.flatMap_cons, List.append_assoc]
    · rw [hdropped', hdropped, List.zip_cons_cons, List.map_cons, List.sum_cons, add_assoc]

end History

/-- **The buffer is a queue that keeps the newest events.** It returns what the queues return; and of
each key, what was put is what is gone and after it what is stored, at most `max_size`; of what is gone
some events have been popped, in their order, and the others reported as dropped. -/
theorem run_isQueue (b : RedisBuffer α β) (hsize : 1 ≤ b.maxSize) (calls : List (Call κ α))
    (hcalls : ∀ call ∈ calls, call.Valid) : ∃ lists outcomes,
      run b (fun _ => []) calls = (lists, outcomes.map .ok) ∧
      outcomes = (runOnQueues b.batchSize (fun _ => (.empty : Queue b.maxSize α)) calls).2 ∧
      ∀ key, ∃ gone stored, lists key = (stored.map b.encode).reverse ∧
        stored.length ≤ b.maxSize ∧ calls.flatMap (·.putUnder key) = gone ++ stored ∧
        ((calls.zip outcomes).flatMap (poppedFrom key)).Sublist gone ∧
        (gone.length : ℤ) = ((calls.zip outcomes).flatMap (poppedFrom key)).length
          + ((calls.zip outcomes).map (droppedFrom key)).sum := by
  have hempty : Holds b (fun _ : κ => []) (fun _ => .empty) := fun _ => rfl
  obtain ⟨lists, hrun, hholds⟩ := run_eq hsize hempty hcalls
  refine ⟨lists, _, hrun, rfl, fun key => ?_⟩
  obtain ⟨hput, htaken, hdropped⟩ := @history_run _ _ _ _ (fun _ => .empty) b.batchSize key _ hcalls
  obtain ⟨gone, hgone, hsublist, hlength⟩ :=
    ((runOnQueues b.batchSize (fun _ => (.empty : Queue b.maxSize α)) calls).1 key).accounts
  rw [hput] at hgone
  rw [htaken] at hsublist hlength
  refine ⟨gone, _, hholds key, Queue.bounded _, hgone, hsublist, ?_⟩
  rw [hlength, Int.natCast_add, hdropped]
  simp [Queue.empty]

end Serve

/-- A buffer for two events of each key, popped one by one. -/
def roomForTwo : RedisBuffer ℕ ℕ where
  encode := id
  decode := id
  decode_encode _ := rfl
  maxSize := 2
  batchSize := 1

/-- Three events, one more of the same key and one of another, and then an event is popped. -/
def fivePuts : List (Call String ℕ) :=
  [.putEvents "api" [1, 2, 3], .putMultiKeyEvents [("api", [4]), ("web", [5])],
    .popEventsGetSize "api"]

/-- Of the key with four events at most two are stored, the others are popped or dropped. -/
theorem run_isQueue_fivePuts : ∃ lists outcomes,
    run roomForTwo (fun _ => []) fivePuts = (lists, outcomes.map .ok) ∧
    ∃ gone stored, lists "api" = (stored.map roomForTwo.encode).reverse ∧ stored.length ≤ 2 ∧
      [1, 2, 3, 4] = gone ++ stored ∧
      ((fivePuts.zip outcomes).flatMap (poppedFrom "api")).Sublist gone := by
  have hcalls : ∀ call ∈ fivePuts, call.Valid := by
    refine List.forall_mem_cons.mpr ⟨List.cons_ne_nil _ _, List.forall_mem_cons.mpr ⟨?_, ?_⟩⟩
    · exact ⟨by decide, by decide⟩
    · simp [Call.Valid]
  obtain ⟨lists, outcomes, hrun, -, hkeys⟩ := run_isQueue roomForTwo (by decide) fivePuts hcalls
  obtain ⟨gone, stored, hlist, hbounded, hput, hpopped, -⟩ := hkeys "api"
  exact ⟨lists, outcomes, hrun, gone, stored, hlist, hbounded, hput, hpopped⟩

end Buffers

end Aixinwu
