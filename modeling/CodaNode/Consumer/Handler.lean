/-
`Consumer/Handler.lean` -- one job, from its stream message to its webhook.

`RedisConsumer._process_message` and the methods it calls, in the order and under the names
of `server/consumer.py`. Each definition awaits exactly the operations the source awaits;
log lines are left out, except where the log marks them (`Mark`).
-/
import CodaNode.Consumer.World

set_option autoImplicit false

open Coroutine

namespace CodaNode

section Records

variable {Ir : Type} (node : Node Ir)

/-! ## What is written to the status hash -/

/-- The record of `_mark_job_cancelled`. -/
def cancelled_record (m : Message) (now : String) : List (String × String) :=
  [("state", "cancelled"), ("cancelled_at", now), ("message_id", m.id),
    ("qpu_id", node.qpu_id)]

/-- The record `_process_message` writes when it begins a job. -/
def executing_record (m : Message) (now : String) : List (String × String) :=
  [("state", "executing"), ("started_at", now), ("message_id", m.id), ("qpu_id", node.qpu_id)]

/-- The record of a completed job. -/
def completed_record (now : String) : List (String × String) :=
  [("state", "completed"), ("completed_at", now)]

/-- The record of a failed job. -/
def failed_record (e : Exn) (now : String) : List (String × String) :=
  [("state", "failed"), ("error", e.text), ("failed_at", now)]

/-- The state a record carries. -/
def record_state (mapping : List (String × String)) : Option String :=
  mapping.reverse.lookup "state"

@[simp] theorem record_state_cancelled (m : Message) (now : String) :
    record_state (cancelled_record node m now) = some "cancelled" := rfl

@[simp] theorem record_state_executing (m : Message) (now : String) :
    record_state (executing_record node m now) = some "executing" := rfl

@[simp] theorem record_state_completed (now : String) :
    record_state (completed_record now) = some "completed" := rfl

@[simp] theorem record_state_failed (e : Exn) (now : String) :
    record_state (failed_record e now) = some "failed" := rfl

/-- Writing one job's hash leaves the state of every other job alone. -/
theorem World.state_hset (w : World Ir) (job_id j : String) (mapping : List (String × String)) :
    (w.hset (status_key job_id) mapping).state j =
      if j = job_id then (record_state mapping).or (w.state j) else w.state j := by
  simp only [World.state, World.hset_hashes, status_key_inj, record_state]

end Records

/-! ## Single operations -/

section Operations

variable {Ir : Type} (node : Node Ir)

/-- Awaits `c` while handling `m`. -/
def on (m : Message) (c : Call Ir) : Prog Ir c.Reply := Co.call (⟨some m, c⟩ : Req Ir)

/-- Awaits `c` outside the handling of any message. -/
def alone (c : Call Ir) : Prog Ir c.Reply := Co.call (⟨none, c⟩ : Req Ir)

def mark (x : Mark) : Prog Ir Unit := Co.update (·.record (.mark x))

def begin_call (s : Start) : Prog Ir Unit := Co.update (·.starts s)

def enter (r : Region) : Prog Ir Unit := Co.update (·.enter r)

/-- `datetime.now(UTC).isoformat()`. -/
def now : Prog Ir String := Co.look World.now

/-- `RedisConsumer._safe_hset`. -/
def safe_hset (m : Message) (key : String) (mapping : List (String × String)) :
    Prog Ir Bool :=
  Co.try_except
    (do on m (.hset key mapping); pure true)
    (fun e => if e.is_connection then pure false else .raise e)

/-- `RedisConsumer._safe_xack`. -/
def safe_xack (m : Message) : Prog Ir Bool :=
  Co.try_except
    (do on m (.xack m.id); pure true)
    (fun e => if e.is_connection then pure false else .raise e)

/-- `RedisConsumer._has_cancel_signal`. -/
def has_cancel_signal (m : Message) (job_id : String) : Prog Ir Bool := do
  let cancel_raw ← on m (.get (cancel_key job_id))
  pure cancel_raw.isSome

/-- `RedisConsumer._get_job_status`. -/
def get_job_status (m : Message) (job_id : String) : Prog Ir (Option String) :=
  on m (.hget (status_key job_id) "state")

/-- `RedisConsumer._mark_job_cancelled`. -/
def mark_job_cancelled (m : Message) (job_id : String) : Prog Ir Unit := do
  let cancelled_at ← now
  let _ ← safe_hset m (status_key job_id) (cancelled_record node m cancelled_at)

/-- `RedisConsumer._request_runner_cancel`. -/
def request_runner_cancel (m : Message) : Prog Ir Unit :=
  if node.cancel_hook then
    Co.try_except (on m .cancel_current_job)
      (fun e => if e = .cancelled then .raise e else pure ())
  else pure ()

/-- `self._webhook.send_result(...)`. -/
def send_result (m : Message) (callback_url : String) (payload : WebhookPayload) :
    Prog Ir Unit := do
  Co.update (·.record (.started ⟨some m, .send_result callback_url payload⟩))
  on m (.send_result callback_url payload)

/-- `self._webhook.send_error(...)`. -/
def send_error (m : Message) (callback_url job_id error : String) : Prog Ir Unit := do
  Co.update (·.record (.started ⟨some m, .send_error callback_url job_id error⟩))
  on m (.send_error callback_url job_id error)

end Operations

/-! ## Running a job -/

section Running

variable {Ir : Type} (node : Node Ir)

/-- `run_task.cancel()`, which does nothing to a task that is done. -/
def cancel_run (k : Nat) : Prog Ir Unit := Co.update (·.set_exec (·.cancel_run k))

/-- The `while True` of `_run_job_with_cancellation` on run `k`, whose task is still running
at the end of `polls` more intervals and then done with `out`. An executor that never ends
is every number of intervals long as far as a finite run can tell. -/
def poll (m : Message) (job_id : String) (k : Nat) (out : Except Exn ExecutionResult) :
    Nat → Prog Ir ExecutionResult
  | 0 => do
    on m (.wait k false)
    let result ← Co.of_except out
    if ← has_cancel_signal m job_id then
      .raise .job_cancelled
    else
      pure result
  | polls + 1 => do
    on m (.wait k true)
    if ← has_cancel_signal m job_id then
      request_runner_cancel node m
      cancel_run k
      -- `except asyncio.CancelledError: pass` and `except Exception: logger.info(...)`
      let _ ← Co.attempt (on m (.unwind k))
      .raise .job_cancelled
    else
      poll m job_id k out polls

/-- `RedisConsumer._run_job_with_cancellation`. -/
def run_job_with_cancellation (m : Message) (job_id : String) (ir : Ir) (shots : Int) :
    Prog Ir ExecutionResult := do
  let k ← Co.look fun w => w.exec.runs
  begin_call (.run k)
  match node.run k ir shots with
  | .refuses e =>
    Co.update (·.set_exec fun x => { x with runs := x.runs + 1 })
    .raise e
  | .runs polls out =>
    Co.update (·.set_exec Exec.start_run)
    Co.try_finally (poll node m job_id k out polls) (cancel_run k)

end Running

/-! ## Handling a message -/

section Handling

variable {Ir : Type} (node : Node Ir)

/-- The `try` block of `_process_message`. -/
def execute (m : Message) (decoded : List (String × String)) (job_id callback_url : String) :
    Prog Ir Unit := do
  let job ← Co.of_except (node.parse_job decoded)
  let result ← run_job_with_cancellation node m job_id job.1 job.2
  if ← has_cancel_signal m job_id then
    .raise .job_cancelled
  else
    let completed_at ← now
    let _ ← safe_hset m (status_key job_id) (completed_record completed_at)
    if ← has_cancel_signal m job_id then
      .raise .job_cancelled
    else
      send_result m callback_url (completed_payload job_id result)
      let last_job_at ← now
      Co.update (·.set_self ({ · with last_job_at := some last_job_at }))

/-- `except Exception as exc` of `_process_message`. -/
def report_failure (m : Message) (job_id callback_url : String) (e : Exn) : Prog Ir Unit := do
  if ← has_cancel_signal m job_id then
    mark_job_cancelled node m job_id
  else
    let failed_at ← now
    let _ ← safe_hset m (status_key job_id) (failed_record e failed_at)
    Co.try_except (send_error m callback_url job_id e.text)
      (fun e' => if e' = .cancelled then .raise e' else pure ())

/-- The `except` clauses of `_process_message`. -/
def on_exception (m : Message) (job_id callback_url : String) (e : Exn) : Prog Ir Unit :=
  match e with
  | .cancelled => .raise .cancelled
  | .job_cancelled => do
    enter .handler
    mark_job_cancelled node m job_id
  | e => do
    enter .handler
    report_failure node m job_id callback_url e

/-- The `finally` clause of `_process_message`. -/
def release (m : Message) : Prog Ir Unit := do
  enter .cleanup
  let _ ← safe_xack m
  Co.update (·.set_self ({ · with current_job_id := none, idle := true }))
  enter .outside

/-- The part of `_process_message` that takes the job on. -/
def take_on (m : Message) (decoded : List (String × String)) (job_id callback_url : String) :
    Prog Ir Unit := do
  Co.update (·.set_self ({ · with idle := false, current_job_id := some job_id }))
  let started_at ← now
  let _ ← safe_hset m (status_key job_id) (executing_record node m started_at)
  enter .body
  Co.try_finally
    (Co.try_except (execute node m decoded job_id callback_url)
      (on_exception node m job_id callback_url))
    (release m)

/-- The status after which a job is skipped. -/
def terminal (status : Option String) : Bool :=
  status == some "completed" || status == some "cancelled"

/-- `RedisConsumer._process_message`. A message that does not decode raises; one without
`job_id` or `callback_url` is ACK-ed and skipped. -/
def process_message (m : Message) : Prog Ir Unit := do
  enter .outside
  mark (.handling m)
  match decode_fields m.fields with
  | .error e => .raise e
  | .ok _ =>
    match m.header with
    | .error _ =>
      let _ ← safe_xack m
    | .ok (decoded, job_id, callback_url) =>
      let status ← get_job_status m job_id
      if terminal status then
        let _ ← safe_xack m
      else if ← has_cancel_signal m job_id then
        mark_job_cancelled node m job_id
        let _ ← safe_xack m
      else
        take_on node m decoded job_id callback_url

end Handling

end CodaNode
