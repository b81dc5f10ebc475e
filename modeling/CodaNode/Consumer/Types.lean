/-
`Consumer/Types.lean` -- the data that passes through the Redis consumer.

Exceptions, stream messages, execution results and webhook payloads, as
`server/consumer.py`, `server/executor.py` and `server/webhook.py` have them, and the
parts of a node that are not the consumer's own code: the IR parser, `int`, and the
executor, which are fields of `Node`.
-/
import Mathlib.Algebra.Group.Nat.Defs
import Mathlib.Data.List.Infix

set_option autoImplicit false

namespace CodaNode

/-! ## Exceptions -/

/-- What Python code can raise here, as far as the `except` clauses tell it apart. -/
inductive Exn where
  /-- `ConnectionError`, `OSError` or `aioredis.ConnectionError`. -/
  | connection (msg : String)
  /-- `aioredis.ResponseError`. -/
  | response (msg : String)
  /-- `_JobCancelledWhileExecuting`. -/
  | job_cancelled
  /-- `asyncio.CancelledError`, which is not an `Exception`. -/
  | cancelled
  /-- Any other `Exception`. -/
  | other (msg : String)
  deriving DecidableEq, Repr

namespace Exn

/-- Caught by `except (ConnectionError, OSError, aioredis.ConnectionError)`. -/
def is_connection : Exn → Bool
  | connection _ => true
  | _ => false

/-- An exception that code other than the consumer raises: an `Exception`, and not the
consumer's private `_JobCancelledWhileExecuting`. -/
def ordinary : Exn → Bool
  | job_cancelled => false
  | cancelled => false
  | _ => true

/-- `str(exc)`. -/
def str : Exn → String
  | connection msg => msg
  | response msg => msg
  | job_cancelled => ""
  | cancelled => ""
  | other msg => msg

/-- `str(exc)[:500]`. -/
def text (e : Exn) : String := String.ofList (e.str.toList.take 500)

@[simp] theorem is_connection_connection (msg : String) :
    (connection msg).is_connection = true := rfl

theorem is_connection_iff {e : Exn} : e.is_connection = true ↔ ∃ msg, e = connection msg := by
  cases e <;> simp [is_connection]

/-- A connection error is an ordinary exception. -/
theorem ordinary_of_is_connection {e : Exn} (h : e.is_connection = true) :
    e.ordinary = true := by
  obtain ⟨msg, rfl⟩ := is_connection_iff.1 h
  rfl

theorem ordinary_iff {e : Exn} : e.ordinary = true ↔ e ≠ job_cancelled ∧ e ≠ cancelled := by
  cases e <;> simp [ordinary]

end Exn

/-! ## Stream messages -/

/-- A key or a value of a stream entry: text, or bytes when `decode_responses` is off. -/
inductive Raw where
  | str (s : String)
  | bytes (b : List UInt8)
  deriving DecidableEq, Repr

/-- `k.decode() if isinstance(k, bytes) else str(k)`. -/
def Raw.decode : Raw → Except Exn String
  | .str s => .ok s
  | .bytes b =>
    match String.fromUTF8? ⟨b.toArray⟩ with
    | some s => .ok s
    | none => .error (.other "'utf-8' codec can't decode bytes")

/-- A stream entry: its id and its fields. -/
structure Message where
  id : String
  fields : List (Raw × Raw)
  deriving DecidableEq, Repr

/-- `RedisConsumer._decode_fields`. -/
def decode_fields (fields : List (Raw × Raw)) : Except Exn (List (String × String)) :=
  fields.mapM fun kv => do
    let k ← kv.1.decode
    let v ← kv.2.decode
    pure (k, v)

/-- An exception of a loop is one of its rounds'. -/
theorem exists_of_mapM_error {α β : Type} {f : α → Except Exn β} {l : List α} {e : Exn}
    (h : l.mapM f = .error e) : ∃ x ∈ l, f x = .error e := by
  induction l with
  | nil => cases h
  | cons x rest ih =>
      rw [List.mapM_cons] at h
      cases hx : f x with
      | error e' =>
          simp only [hx, bind, Except.bind] at h
          cases h
          exact ⟨x, List.mem_cons_self, hx⟩
      | ok y =>
          cases hr : rest.mapM f with
          | error e' =>
              simp only [hx, hr, bind, Except.bind] at h
              cases h
              obtain ⟨x', hx', hfx⟩ := ih hr
              exact ⟨x', List.mem_cons_of_mem x hx', hfx⟩
          | ok ys =>
              simp only [hx, hr, bind, Except.bind] at h
              cases h

/-- Bytes that are not UTF-8 raise an ordinary exception. -/
theorem Raw.decode_ordinary {x : Raw} {e : Exn} (h : x.decode = .error e) :
    e.ordinary = true := by
  cases x with
  | str s => cases h
  | bytes b =>
      simp only [Raw.decode] at h
      split at h
      · cases h
      · cases h
        rfl

theorem decode_fields_ordinary {fields : List (Raw × Raw)} {e : Exn}
    (h : decode_fields fields = .error e) : e.ordinary = true := by
  obtain ⟨⟨k, v⟩, -, hkv⟩ := exists_of_mapM_error h
  cases hk : k.decode with
  | error e' =>
      simp only [hk, bind, Except.bind] at hkv
      cases hkv
      exact Raw.decode_ordinary hk
  | ok k' =>
      cases hv : v.decode with
      | error e' =>
          simp only [hk, hv, bind, Except.bind] at hkv
          cases hkv
          exact Raw.decode_ordinary hv
      | ok v' =>
          simp only [hk, hv, bind, Except.bind] at hkv
          cases hkv

/-- `d[name]`: of two equal keys the later one is in the dict; a missing one is a `KeyError`. -/
def get_item (d : List (String × String)) (name : String) : Except Exn String :=
  match d.reverse.lookup name with
  | some v => .ok v
  | none => .error (.other ("'" ++ name ++ "'"))

/-- The job id and the callback URL that both handlers take from a message first. -/
def Message.header (m : Message) : Except Exn (List (String × String) × String × String) := do
  let decoded ← decode_fields m.fields
  let job_id ← get_item decoded "job_id"
  let callback_url ← get_item decoded "callback_url"
  pure (decoded, job_id, callback_url)

theorem Message.decode_fields_of_header {m : Message} {decoded : List (String × String)}
    {job_id callback_url : String} (h : m.header = .ok (decoded, job_id, callback_url)) :
    decode_fields m.fields = .ok decoded := by
  unfold Message.header at h
  cases hd : decode_fields m.fields with
  | error e => simp [hd, bind, Except.bind] at h
  | ok fields =>
      simp only [hd, bind, Except.bind] at h
      split at h <;> [cases h; skip]
      split at h <;> cases h
      rfl

/-- The message carries `job_id` and `callback_url`. -/
def Message.Carries (m : Message) (job_id callback_url : String) : Prop :=
  ∃ decoded, m.header = .ok (decoded, job_id, callback_url)

/-! ## Results and webhooks -/

/-- `executor.ExecutionResult`. A Python float is kept as its 64 bits. -/
structure ExecutionResult where
  counts : List (String × Int)
  execution_time_ms : UInt64
  shots_completed : Int
  deriving DecidableEq, Repr

/-- `webhook.WebhookPayload`. -/
structure WebhookPayload where
  job_id : String
  status : String
  counts : Option (List (String × Int)) := none
  execution_time_ms : Option UInt64 := none
  shots_completed : Option Int := none
  error : Option String := none
  deriving DecidableEq, Repr

/-- The payload both paths build from a result. -/
def completed_payload (job_id : String) (result : ExecutionResult) : WebhookPayload where
  job_id := job_id
  status := "completed"
  counts := some result.counts
  execution_time_ms := some result.execution_time_ms
  shots_completed := some result.shots_completed

/-! ## The executor -/

/-- What one call of `runner.run` does. -/
inductive RunPlan where
  /-- The call itself raises, before there is a coroutine to run as a task. -/
  | refuses (e : Exn)
  /-- The task is still running at the end of `polls` poll intervals and is seen done at
  the next one, having returned or raised. -/
  | runs (polls : Nat) (out : Except Exn ExecutionResult)

/-- The outcome of a run that is left to finish. -/
def RunPlan.out : RunPlan → Except Exn ExecutionResult
  | refuses e => .error e
  | runs _ out => out

/-- A node: its configuration and the code it calls that is not the consumer's. The IR is
opaque to the consumer. -/
structure Node (Ir : Type) where
  qpu_id : String
  /-- `callable(getattr(runner, "batch_run", None))` when the consumer was built. -/
  can_batch : Bool
  /-- `NativeGateIR.from_json`; the text of its `ValidationError` otherwise. -/
  from_json : String → Except String Ir
  /-- `int(s)`; the text of its `ValueError` otherwise. -/
  to_int : String → Except String Int
  /-- The `k`-th call of `runner.run`. -/
  run : Nat → Ir → Int → RunPlan
  /-- The `k`-th call of `runner.batch_run`, if the executor has it at dispatch time. -/
  batch_run : Option (Nat → List (Ir × Int) → Except Exn (List ExecutionResult))
  /-- The executor has a callable `cancel_current_job`. -/
  cancel_hook : Bool

namespace Node

variable {Ir : Type} (node : Node Ir)

/-- The executor raises ordinary exceptions only. -/
structure Ordinary : Prop where
  run : ∀ k ir shots e, (node.run k ir shots).out = .error e → e.ordinary = true
  batch_run : ∀ f, node.batch_run = some f → ∀ k jobs e, f k jobs = .error e →
    e.ordinary = true

/-- `ir = NativeGateIR.from_json(decoded["ir_json"])`, `shots = int(decoded["shots"])`. -/
def parse_job (decoded : List (String × String)) : Except Exn (Ir × Int) := do
  let ir_json ← get_item decoded "ir_json"
  let ir ← (node.from_json ir_json).mapError Exn.other
  let shots_text ← get_item decoded "shots"
  let shots ← (node.to_int shots_text).mapError Exn.other
  pure (ir, shots)

/-- Everything that makes a job unparsable is an ordinary exception. -/
theorem parse_job_ordinary {decoded : List (String × String)} {e : Exn}
    (h : node.parse_job decoded = .error e) : e.ordinary = true := by
  have hitem : ∀ name e', get_item decoded name = .error e' → e'.ordinary = true := by
    intro name e' he
    unfold get_item at he
    split at he
    · cases he
    · cases he; rfl
  unfold parse_job at h
  cases hj : get_item decoded "ir_json" with
  | error e' => simp [hj, bind, Except.bind] at h; exact h ▸ hitem _ _ hj
  | ok j =>
      cases hir : node.from_json j with
      | error t => simp [hj, hir, bind, Except.bind, Except.mapError] at h; exact h ▸ rfl
      | ok ir =>
          cases hs : get_item decoded "shots" with
          | error e' =>
              simp [hj, hir, hs, bind, Except.bind, Except.mapError] at h
              exact h ▸ hitem _ _ hs
          | ok s =>
              cases hn : node.to_int s with
              | error t =>
                  simp [hj, hir, hs, hn, bind, Except.bind, Except.mapError] at h
                  exact h ▸ rfl
              | ok n =>
                  simp [hj, hir, hs, hn, bind, Except.bind, Except.mapError, pure,
                    Except.pure] at h

/-- `qpu:<qpu_id>:jobs`. -/
def stream : String := "qpu:" ++ node.qpu_id ++ ":jobs"

end Node

/-- `qpu:job:<job_id>:status`. -/
def status_key (job_id : String) : String := "qpu:job:" ++ job_id ++ ":status"

/-- `qpu:job:cancelled:<job_id>`. -/
def cancel_key (job_id : String) : String := "qpu:job:cancelled:" ++ job_id

theorem status_key_inj {a b : String} : status_key a = status_key b ↔ a = b := by
  constructor
  · intro h
    have h' := congrArg String.toList h
    exact String.toList_inj.1 (by simpa [status_key] using h')
  · exact congrArg status_key

end CodaNode
