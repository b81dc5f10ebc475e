/-
`Consumer/World.lean` -- the world the consumer runs in.

Redis as far as the consumer uses it (one stream with this consumer's pending list, the
status hashes, the cancel keys), the attributes of the `RedisConsumer` object, the asyncio
tasks it has created, the executor's running calls, and a log of what happened. The log is
the model's own record: no code reads it.

`performs` and `fails` say how an awaited operation can end. The only other party that acts
is the cloud, with the clock (`Drift`).
-/
import CodaNode.Consumer.Types
import CodaNode.Coroutine.Logic
import Mathlib.Tactic.Simps.Basic

set_option autoImplicit false

namespace CodaNode

/-! ## Awaited operations -/

/-- An operation the consumer awaits. -/
inductive Call (Ir : Type) where
  | xgroup_create
  | xpending_range (count : Nat)
  | xrange (message_id : String)
  | xreadgroup (count : Nat)
  | hget (key field : String)
  | hset (key : String) (mapping : List (String × String))
  | get (key : String)
  | xack (message_id : String)
  /-- `asyncio.wait({run_task}, timeout=...)` on run `k`: timed out, or found it done. -/
  | wait (k : Nat) (timed_out : Bool)
  | cancel_current_job
  /-- `await run_task` on run `k` after it was cancelled. -/
  | unwind (k : Nat)
  | batch_run (k : Nat) (jobs : List (Ir × Int))
  | send_result (callback_url : String) (payload : WebhookPayload)
  | send_error (callback_url job_id error : String)
  /-- A task that has been created and waits for its first turn. -/
  | begin
  /-- `asyncio.gather` of the tasks. -/
  | gather (tasks : List Nat)
  /-- `await task`. -/
  | join (task : Nat)
  | sleep (secs : Nat)

/-- What an operation returns. -/
@[reducible] def Call.Reply {Ir : Type} : Call Ir → Type
  | .xpending_range _ => List String
  | .xrange _ => List Message
  | .xreadgroup _ => List (String × List Message)
  | .hget _ _ => Option String
  | .get _ => Option String
  | .batch_run _ _ => List ExecutionResult
  | _ => Unit

/-- An operation together with the message in whose handling it is made. -/
structure Req (Ir : Type) where
  msg : Option Message
  call : Call Ir

/-- What the operation of a request returns. -/
@[reducible] def Req.Reply {Ir : Type} (q : Req Ir) : Type := q.call.Reply

namespace Call

variable {Ir : Type}

/-- The operation is a Redis command. -/
def is_redis : Call Ir → Bool
  | xgroup_create | xpending_range _ | xrange _ | xreadgroup _ => true
  | hget _ _ | hset _ _ | get _ | xack _ => true
  | _ => false

/-- The operation is a webhook call. -/
def is_webhook : Call Ir → Bool
  | send_result _ _ | send_error _ _ _ => true
  | _ => false

/-- A terminal webhook for the job. -/
def reports (job_id : String) : Call Ir → Bool
  | send_result _ payload => payload.job_id == job_id
  | send_error _ j _ => j == job_id
  | _ => false

end Call

/-! ## The log -/

/-- Where `_process_message` is, relative to its `try` statement. -/
inductive Region where
  /-- Outside: before the statement, or in no handler at all. -/
  | outside
  /-- In the `try` block. -/
  | body
  /-- In an `except` clause. -/
  | handler
  /-- In the `finally` clause. -/
  | cleanup
  deriving DecidableEq

/-- What begins: the `k`-th call of `runner.run` or of `runner.batch_run`, or a
`recover_pending` pass. -/
inductive Start where
  | run (k : Nat)
  | batch (k : Nat)
  | recovery
  deriving DecidableEq

/-- A point of the consumer's code that the log marks. -/
inductive Mark where
  /-- `_process_message` is entered. -/
  | handling (m : Message)
  /-- `_process_batch` is entered. -/
  | batching (ms : List Message)
  /-- An executor call or a recovery begins while these runs and these tasks are not over. -/
  | starting (s : Start) (runs tasks : List Nat)
  /-- "Skipping malformed message in batch". -/
  | skipped (m : Message)
  /-- "falling back to single-job processing". -/
  | falling_back (ms : List Message)
  /-- "Redis connection lost (attempt ..), retrying in ..s". -/
  | lost (attempt delay : Nat)
  deriving DecidableEq

/-- One line of the log. -/
inductive Event (Ir : Type) where
  /-- A webhook call begins. -/
  | started (q : Req Ir)
  /-- An operation ends. `took` tells whether it took effect. -/
  | ended (q : Req Ir) (took : Bool) (r : Except Exn q.Reply)
  | mark (x : Mark)

/-- A line of the log, with the string keys of Redis and the handler's region at that
moment. -/
structure Entry (Ir : Type) where
  event : Event Ir
  values : String → Option String
  region : Region

/-! ## The state -/

/-- What a task created by the consumer runs. -/
structure Parsed (Ir : Type) where
  msg : Message
  job_id : String
  callback_url : String
  ir : Ir
  shots : Int

/-- A coroutine that the consumer hands to `asyncio.create_task`. -/
inductive TaskSpec (Ir : Type) where
  | deliver_batch_results (parsed : List (Parsed Ir)) (results : List ExecutionResult)
  | deliver_single_batch_result (msg : Message) (job_id callback_url : String)
      (result : ExecutionResult) (completed_at : String)

/-- The attributes of the `RedisConsumer`. -/
structure Attributes where
  running : Bool := false
  /-- `_idle_event.is_set()`. -/
  idle : Bool := true
  pending_batch_delivery : Option Nat := none
  current_job_id : Option String := none
  last_job_at : Option String := none
  redis_healthy : Bool := true
  deriving DecidableEq

/-- The local variables of `consume_loop` that its `except` clauses see. -/
structure Frame where
  consecutive_failures : Nat := 0
  last_pending_check : Nat := 0
  deriving DecidableEq

/-- The executor's calls. -/
structure Exec where
  runs : Nat := 0
  batches : Nat := 0
  /-- Runs that have started and are not known to be over. -/
  active : List Nat := []
  /-- Runs whose task was cancelled while it was active. -/
  aborted : List Nat := []

/-- The world of one consumer. -/
structure World (Ir : Type) where
  group : Bool
  hashes : String → String → Option String
  values : String → Option String
  stream : List Message
  undelivered : List Message
  /-- This consumer's pending entries, in id order. -/
  pending : List String
  self : Attributes
  frame : Frame
  region : Region
  tasks : List (TaskSpec Ir × Option (Except Exn Unit))
  exec : Exec
  /-- `datetime.now(UTC).isoformat()`. -/
  now : String
  /-- `time.monotonic()`, in seconds. -/
  monotonic : Nat
  log : List (Entry Ir)

/-- A consumer program. -/
abbrev Prog (Ir α : Type) : Type := Coroutine.Co (World Ir) (@Req.Reply Ir) Exn α

namespace World

variable {Ir : Type}

/-- The `state` field of the job's status hash. -/
def state (w : World Ir) (job_id : String) : Option String :=
  w.hashes (status_key job_id) "state"

/-- The job's cancel key is set. -/
def cancel_set (w : World Ir) (job_id : String) : Prop := w.values (cancel_key job_id) ≠ none

/-- The task's outcome, once it has one. -/
def outcome (w : World Ir) (task : Nat) : Option (Except Exn Unit) :=
  (w.tasks[task]?).bind Prod.snd

@[simps] def record (w : World Ir) (e : Event Ir) : World Ir :=
  { w with log := ⟨e, w.values, w.region⟩ :: w.log }

/-- The tasks that have not ended. -/
def unfinished (w : World Ir) : List Nat :=
  (List.range w.tasks.length).filter fun i => (w.outcome i).isNone

/-- Records that `s` begins, with what is not over. -/
def starts (w : World Ir) (s : Start) : World Ir :=
  w.record (.mark (.starting s w.exec.active w.unfinished))

@[simps] def hset (w : World Ir) (key : String) (mapping : List (String × String)) :
    World Ir :=
  { w with hashes := fun k f =>
      if k = key then (mapping.reverse.lookup f).or (w.hashes k f) else w.hashes k f }

@[simps] def ack (w : World Ir) (message_id : String) : World Ir :=
  { w with pending := w.pending.filter (· ≠ message_id) }

/-- `XREADGROUP` hands the first `n` undelivered entries to this consumer. -/
@[simps] def deliver (w : World Ir) (n : Nat) : World Ir :=
  { w with
    undelivered := w.undelivered.drop n
    pending := w.pending ++ (w.undelivered.take n).map Message.id }

@[simps] def set_self (w : World Ir) (f : Attributes → Attributes) : World Ir :=
  { w with self := f w.self }

@[simps] def set_frame (w : World Ir) (f : Frame → Frame) : World Ir :=
  { w with frame := f w.frame }

@[simps] def enter (w : World Ir) (r : Region) : World Ir := { w with region := r }

@[simps] def set_exec (w : World Ir) (f : Exec → Exec) : World Ir :=
  { w with exec := f w.exec }

@[simps] def create_task (w : World Ir) (t : TaskSpec Ir) : World Ir :=
  { w with tasks := w.tasks ++ [(t, none)] }

/-- The task has ended; a task ends once. -/
@[simps] def finish_task (w : World Ir) (task : Nat) (r : Except Exn Unit) : World Ir :=
  { w with tasks := w.tasks.modify task fun t => (t.1, t.2.or (some r)) }

/-- What a task has ended in, it has ended in for good. -/
theorem outcome_finish_task {w : World Ir} {task i : Nat} {r r' : Except Exn Unit}
    (h : w.outcome i = some r) : (w.finish_task task r').outcome i = some r := by
  simp only [outcome, finish_task_tasks, List.getElem?_modify] at h ⊢
  cases ht : w.tasks[i]? with
  | none => rw [ht] at h; cases h
  | some t =>
      rw [ht] at h
      simp only [Option.bind_some] at h
      split <;> simp [h]

/-- Creating a task ends none. -/
theorem outcome_create_task {w : World Ir} {i : Nat} {r : Except Exn Unit} (t : TaskSpec Ir)
    (h : w.outcome i = some r) : (w.create_task t).outcome i = some r := by
  have hlt : i < w.tasks.length := by
    by_contra hge
    rw [outcome, List.getElem?_eq_none (by omega)] at h
    cases h
  rw [outcome, create_task_tasks, List.getElem?_append_left hlt]
  exact h

/-- What leaves the tasks alone creates none. -/
theorem specs_of_tasks {w w' : World Ir} (h : w'.tasks = w.tasks) :
    w.tasks.map Prod.fst <+: w'.tasks.map Prod.fst := h ▸ List.prefix_refl _

/-- The end of a task changes no task's code. -/
theorem finish_task_specs (w : World Ir) (task : Nat) (r : Except Exn Unit) :
    (w.finish_task task r).tasks.map Prod.fst = w.tasks.map Prod.fst := by
  refine List.ext_getElem? fun n => ?_
  simp only [finish_task_tasks, List.getElem?_map, List.getElem?_modify]
  split
  · cases w.tasks[n]? <;> rfl
  · simp

theorem finish_task_grows (w : World Ir) (task : Nat) (r : Except Exn Unit) :
    w.tasks.map Prod.fst <+: (w.finish_task task r).tasks.map Prod.fst :=
  (w.finish_task_specs task r).symm ▸ List.prefix_refl _

end World

namespace Exec

@[simps] def start_run (x : Exec) : Exec :=
  { x with runs := x.runs + 1, active := x.runs :: x.active }

@[simps] def finish_run (x : Exec) (k : Nat) : Exec :=
  { x with active := x.active.filter (· ≠ k) }

/-- `if not run_task.done(): run_task.cancel()`. -/
@[simps] def cancel_run (x : Exec) (k : Nat) : Exec :=
  { x with aborted := if k ∈ x.active then k :: x.aborted else x.aborted }

end Exec

/-! ## How operations end -/

section Answers

variable {Ir : Type} (node : Node Ir)

/-- The operation succeeds in `w`, returning `v` and leaving `w'`. -/
def performs : (c : Call Ir) → World Ir → c.Reply → World Ir → Prop
  | .xgroup_create, w, _, w' => w.group = false ∧ w' = { w with group := true }
  | .xpending_range count, w, v, w' => v = w.pending.take count ∧ w' = w
  | .xrange message_id, w, v, w' => v = w.stream.filter (·.id = message_id) ∧ w' = w
  | .xreadgroup count, w, v, w' => ∃ n, n ≤ count ∧ w' = w.deliver n ∧
      v = if w.undelivered.take n = [] then [] else [(node.stream, w.undelivered.take n)]
  | .hget key field, w, v, w' => v = w.hashes key field ∧ w' = w
  | .hset key mapping, w, _, w' => w' = w.hset key mapping
  | .get key, w, v, w' => v = w.values key ∧ w' = w
  | .xack message_id, w, _, w' => w' = w.ack message_id
  | .wait k timed_out, w, _, w' =>
      w' = if timed_out then w else w.set_exec (·.finish_run k)
  | .cancel_current_job, w, _, w' => w' = w
  | .unwind k, w, _, w' => w' = w.set_exec (·.finish_run k)
  | .batch_run k jobs, w, v, w' => (∃ f, node.batch_run = some f ∧ f k jobs = .ok v) ∧ w' = w
  | .send_result _ _, w, _, w' => w' = w
  | .send_error _ _ _, w, _, w' => w' = w
  | .begin, w, _, w' => w' = w
  | .gather tasks, w, _, w' => (∀ t ∈ tasks, w.outcome t = some (.ok ())) ∧ w' = w
  | .join task, w, _, w' => w.outcome task = some (.ok ()) ∧ w' = w
  | .sleep _, w, _, w' => w' = w

/-- The operation can raise `e` in `w`. A suspended operation that is none of Redis', the
webhook's or the executor's is only ever interrupted by a cancellation. -/
def fails : Call Ir → World Ir → Exn → Prop
  | .wait _ _, _, e => e = .cancelled
  | .begin, _, e => e = .cancelled
  | .sleep _, _, e => e = .cancelled
  | .batch_run k jobs, _, e =>
      e = .cancelled ∨ ∃ f, node.batch_run = some f ∧ f k jobs = .error e
  | .gather tasks, w, e => e = .cancelled ∨ ∃ t ∈ tasks, w.outcome t = some (.error e)
  | .join task, w, e => e = .cancelled ∨ w.outcome task = some (.error e)
  | _, _, e => e ≠ .job_cancelled

/-- The operation can take effect although its reply is lost. -/
def Call.may_take : Call Ir → Bool
  | .unwind _ => true
  | c => c.is_redis

/-- The exception is the run's own: a cancelled run that raises has ended, and only its
`CancelledError` could also be that of the await. -/
def Call.shows_end : Call Ir → Exn → Bool
  | .unwind _, e => e != .cancelled
  | _, _ => false

/-- How the request `q` may be answered in `w`: it succeeds, it fails without effect, or it
takes effect and raises all the same. -/
def answers (q : Req Ir) (w : World Ir) (r : Except Exn q.Reply) (w' : World Ir) : Prop :=
  (∃ v w₁, performs node q.call w v w₁ ∧ r = .ok v ∧ w' = w₁.record (.ended q true r)) ∨
  (∃ e, fails node q.call w e ∧ q.call.shows_end e = false ∧ r = .error e ∧
    w' = w.record (.ended q false r)) ∨
  (∃ e v w₁, q.call.may_take = true ∧ fails node q.call w e ∧ performs node q.call w v w₁ ∧
    r = .error e ∧ w' = w₁.record (.ended q true r))

end Answers

/-! ## The cloud and the clock -/

/-- What happens to the world between two steps of the consumer. `cloud` says what the
cloud does to the string keys. Only this consumer writes status hashes. -/
structure Drift {Ir : Type} (cloud : (String → Option String) → (String → Option String) → Prop)
    (w w' : World Ir) : Prop where
  values : cloud w.values w'.values
  arrivals : ∃ new, w'.undelivered = w.undelivered ++ new ∧
    ∀ m ∈ w'.stream, m ∈ w.stream ∨ m ∈ new
  group : w'.group = w.group
  hashes : w'.hashes = w.hashes
  pending : w'.pending = w.pending
  /-- `stop()` may be called. -/
  self : w'.self = { w.self with running := w'.self.running }
  frame : w'.frame = w.frame
  region : w'.region = w.region
  tasks : w'.tasks = w.tasks
  /-- A run whose task was cancelled ends when it has unwound. -/
  exec : w'.exec = { w.exec with active := w'.exec.active } ∧
    w'.exec.active ⊆ w.exec.active ∧
    ∀ k ∈ w.exec.active, k ∉ w'.exec.active → k ∈ w.exec.aborted
  log : w'.log = w.log

namespace Drift

variable {Ir : Type} {cloud : (String → Option String) → (String → Option String) → Prop}

theorem refl (hrefl : ∀ v, cloud v v) (w : World Ir) : Drift cloud w w where
  values := hrefl _
  arrivals := ⟨[], by simp, fun _ h => .inl h⟩
  group := rfl
  hashes := rfl
  pending := rfl
  self := rfl
  frame := rfl
  region := rfl
  tasks := rfl
  exec := ⟨rfl, List.Subset.refl _, fun _ h h' => absurd h h'⟩
  log := rfl

theorem trans (htrans : ∀ u v x, cloud u v → cloud v x → cloud u x) {w₁ w₂ w₃ : World Ir}
    (h : Drift cloud w₁ w₂) (h' : Drift cloud w₂ w₃) : Drift cloud w₁ w₃ where
  values := htrans _ _ _ h.values h'.values
  arrivals := by
    obtain ⟨new, hu, hs⟩ := h.arrivals
    obtain ⟨new', hu', hs'⟩ := h'.arrivals
    refine ⟨new ++ new', by rw [hu', hu, List.append_assoc], fun m hm => ?_⟩
    rcases hs' m hm with hm | hm
    · exact (hs m hm).imp id (List.mem_append_left _)
    · exact .inr (List.mem_append_right _ hm)
  group := h'.group.trans h.group
  hashes := h'.hashes.trans h.hashes
  pending := h'.pending.trans h.pending
  self := by rw [h'.self, h.self]
  frame := h'.frame.trans h.frame
  region := h'.region.trans h.region
  tasks := h'.tasks.trans h.tasks
  exec := by
    obtain ⟨he, hsub, hab⟩ := h.exec
    obtain ⟨he', hsub', hab'⟩ := h'.exec
    refine ⟨by rw [he', he], fun k hk => hsub (hsub' hk), fun k hk hk' => ?_⟩
    by_cases hmid : k ∈ w₂.exec.active
    · have := hab' k hmid hk'
      rwa [he] at this
    · exact hab k hk hmid
  log := h'.log.trans h.log

/-- Status hashes do not drift. -/
theorem state {w w' : World Ir} (h : Drift cloud w w') (job_id : String) :
    w'.state job_id = w.state job_id := by
  rw [World.state, World.state, h.hashes]

end Drift

/-- The cloud sets a key. -/
def World.set_value {Ir : Type} (w : World Ir) (key value : String) : World Ir :=
  { w with values := fun k => if k = key then some value else w.values k }

@[simp] theorem World.set_value_self {Ir : Type} (w : World Ir) (key value : String) :
    (w.set_value key value).values key = some value := if_pos rfl

/-- The cloud sets keys and never clears one. -/
def sets_only (v v' : String → Option String) : Prop := ∀ k, v k ≠ none → v' k ≠ none

theorem sets_only_refl (v : String → Option String) : sets_only v v := fun _ h => h

theorem sets_only_trans (u v x : String → Option String) (h : sets_only u v)
    (h' : sets_only v x) : sets_only u x := fun k hk => h' k (h k hk)

/-- Setting a key is something the cloud may do. -/
theorem Drift.set_value {Ir : Type} (w : World Ir) (key value : String) :
    Drift sets_only w (w.set_value key value) where
  values k hk := by
    simp only [World.set_value]
    split
    · exact Option.some_ne_none value
    · exact hk
  arrivals := ⟨[], (List.append_nil _).symm, fun _ h => .inl h⟩
  group := rfl
  hashes := rfl
  pending := rfl
  self := rfl
  frame := rfl
  region := rfl
  tasks := rfl
  exec := ⟨rfl, List.Subset.refl _, fun _ h h' => absurd h h'⟩
  log := rfl

end CodaNode
