/-
`Consumer/Batch.lean` -- several jobs in one hardware batch.

`RedisConsumer._process_batch` and the two coroutines it defines: the messages are examined
one by one, the accepted jobs run in one `batch_run`, and a background task delivers their
results, each in a task of its own.
-/
import CodaNode.Consumer.Handler

set_option autoImplicit false

open Coroutine

namespace CodaNode

variable {Ir : Type} (node : Node Ir)

/-- The record `_process_batch` writes for each accepted job. -/
def batch_executing_record (now : String) : List (String × String) :=
  [("state", "executing"), ("started_at", now), ("qpu_id", node.qpu_id)]

@[simp] theorem record_state_batch_executing (now : String) :
    record_state (batch_executing_record node now) = some "executing" := rfl

/-- `asyncio.create_task`; the task's index. -/
def create_task (t : TaskSpec Ir) : Prog Ir Nat :=
  .sync (·.create_task t) fun w => .ret w.tasks.length

/-! ## Examining the messages -/

/-- The body of the first loop of `_process_batch`: the job, if the message is accepted. -/
def examine (m : Message) : Prog Ir (Option (Parsed Ir)) :=
  match decode_fields m.fields with
  | .error e => .raise e
  | .ok _ =>
    match m.header with
    | .error _ => do
      let _ ← safe_xack m
      pure none
    | .ok (decoded, job_id, callback_url) => do
      let status ← get_job_status m job_id
      if terminal status then
        let _ ← safe_xack m
        pure none
      else if ← has_cancel_signal m job_id then
        mark_job_cancelled node m job_id
        let _ ← safe_xack m
        pure none
      else
        match node.parse_job decoded with
        | .error _ =>
          mark (.skipped m)
          let _ ← safe_xack m
          pure none
        | .ok (ir, shots) => pure (some ⟨m, job_id, callback_url, ir, shots⟩)

/-- The accepted jobs, in order. -/
def examine_all : List Message → Prog Ir (List (Parsed Ir))
  | [] => pure []
  | m :: rest => do
    let job ← examine node m
    let jobs ← examine_all rest
    pure (job.toList ++ jobs)

/-- Marks the accepted jobs as executing. -/
def mark_executing : List (Parsed Ir) → Prog Ir Unit
  | [] => pure ()
  | job :: rest => do
    let started_at ← now
    let _ ← safe_hset job.msg (status_key job.job_id) (batch_executing_record node started_at)
    mark_executing rest

/-- `_process_message` on each message in turn. -/
def process_each : List Message → Prog Ir Unit
  | [] => pure ()
  | m :: rest => do
    process_message node m
    process_each rest

/-- The fallback of `_process_batch`: each message by itself, and no delivery. -/
def fall_back (stream_messages : List Message) : Prog Ir (Option Nat) := do
  mark (.falling_back stream_messages)
  process_each node stream_messages
  pure none

/-- `results = await batch_run(jobs)`. -/
def run_batch (jobs : List (Parsed Ir)) : Prog Ir (List ExecutionResult) := do
  let k ← Co.look fun w => w.exec.batches
  begin_call (.batch k)
  Co.update (·.set_exec fun x => { x with batches := x.batches + 1 })
  alone (.batch_run k (jobs.map fun job => (job.ir, job.shots)))

/-- `RedisConsumer._process_batch`; the delivery task, if there is one. -/
def process_batch (stream_messages : List Message) : Prog Ir (Option Nat) := do
  mark (.batching stream_messages)
  let parsed ← examine_all node stream_messages
  if parsed.isEmpty then
    pure none
  else
    Co.update (·.set_self ({ · with idle := false }))
    mark_executing node parsed
    match node.batch_run with
    | none => fall_back node stream_messages
    | some _ => do
      let results ← Co.attempt (run_batch parsed)
      match results with
      | .error .cancelled => .raise .cancelled
      | .error _ => fall_back node stream_messages
      | .ok results => do
        let t ← create_task (.deliver_batch_results parsed results)
        pure (some t)

/-! ## Delivering the results -/

/-- `_deliver_single_batch_result`. -/
def deliver_single_batch_result (m : Message) (job_id callback_url : String)
    (result : ExecutionResult) (completed_at : String) : Prog Ir Unit := do
  if ← has_cancel_signal m job_id then
    mark_job_cancelled node m job_id
    let _ ← safe_xack m
  else
    let _ ← safe_hset m (status_key job_id) (completed_record completed_at)
    if ← has_cancel_signal m job_id then
      mark_job_cancelled node m job_id
      let _ ← safe_xack m
    else
      Co.try_except (send_result m callback_url (completed_payload job_id result))
        (fun e => if e = .cancelled then .raise e else pure ())
      let _ ← safe_xack m

/-- Creates one delivery task for each job with its result. -/
def spawn_deliveries (now_iso : String) :
    List (Parsed Ir × ExecutionResult) → Prog Ir (List Nat)
  | [] => pure []
  | (job, result) :: rest => do
    let t ← create_task
      (.deliver_single_batch_result job.msg job.job_id job.callback_url result now_iso)
    let ts ← spawn_deliveries now_iso rest
    pure (t :: ts)

/-- `_deliver_batch_results`. A strict `zip` of unequal lengths raises before any delivery
has begun. -/
def deliver_batch_results (parsed : List (Parsed Ir)) (results : List ExecutionResult) :
    Prog Ir Unit := do
  let now_iso ← now
  Co.try_finally
    (do
      if parsed.length = results.length then
        let tasks ← spawn_deliveries now_iso (parsed.zip results)
        alone (.gather tasks)
        Co.update (·.set_self ({ · with last_job_at := some now_iso }))
      else
        .raise (.other "zip() arguments have unequal lengths"))
    (Co.update (·.set_self ({ · with idle := true })))

/-- What a created task runs, from its first turn on. -/
def task_body : TaskSpec Ir → Prog Ir Unit
  | .deliver_batch_results parsed results => do
    alone .begin
    deliver_batch_results parsed results
  | .deliver_single_batch_result m job_id callback_url result completed_at => do
    alone .begin
    deliver_single_batch_result node m job_id callback_url result completed_at

end CodaNode
