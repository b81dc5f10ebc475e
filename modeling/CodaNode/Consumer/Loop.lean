/-
`Consumer/Loop.lean` -- the consume loop and the running consumer.

`RedisConsumer.setup`, `recover_pending` and `consume_loop`. The `while self._running` of
the loop is the pool's `again`: one `iteration` is the body of the loop, and the next one
starts when it returns and `_running` is still set.
-/
import CodaNode.Consumer.Batch
import CodaNode.Coroutine.Pool

set_option autoImplicit false

open Coroutine

namespace CodaNode

variable {Ir : Type} (node : Node Ir)

/-! ## Constants -/

def pending_recheck_secs : Nat := 60

def batch_read_count : Nat := 100

/-- `min(_BACKOFF_BASE * _BACKOFF_FACTOR ** (n - 1), _BACKOFF_MAX)` in whole seconds:
`2.0 ** k` is exact up to `k = 1023` and overflows from there on. -/
def backoff (consecutive_failures : Nat) : Except Exn Nat :=
  if consecutive_failures - 1 ≤ 1023 then
    .ok (min (2 ^ (consecutive_failures - 1)) 60)
  else
    .error (.other "(34, 'Numerical result out of range')")

/-! ## Startup -/

/-- `"BUSYGROUP" in str(exc)`. -/
def busygroup (msg : String) : Bool := decide ("BUSYGROUP".toList <:+: msg.toList)

/-- `RedisConsumer.setup`. -/
def setup : Prog Ir Unit :=
  Co.try_except (alone .xgroup_create) fun e =>
    match e with
    | .response msg => if busygroup msg then pure () else .raise e
    | e => .raise e

/-- The loop of `recover_pending` over the pending entries; the number of messages it
reprocesses. -/
def recover_each : List String → Prog Ir Nat
  | [] => pure 0
  | message_id :: rest => do
    let messages ← alone (.xrange message_id)
    match messages with
    | [] => recover_each rest
    | m :: _ => do
      process_message node ⟨message_id, m.fields⟩
      let recovered ← recover_each rest
      pure (recovered + 1)

/-- `RedisConsumer.recover_pending`. -/
def recover_pending : Prog Ir Nat := do
  begin_call .recovery
  let pending ← alone (.xpending_range 100)
  recover_each node pending

/-- `consume_loop` up to its `while`. -/
def startup : Prog Ir Unit := do
  Co.update (·.set_self ({ · with running := true }))
  setup
  let _ ← recover_pending node
  let monotonic ← Co.look World.monotonic
  Co.update (·.set_frame fun _ =>
    { consecutive_failures := 0, last_pending_check := monotonic })

/-! ## One iteration -/

/-- The `for` over the streams of a reply. -/
def dispatch : List (String × List Message) → Prog Ir Unit
  | [] => pure ()
  | (_, stream_messages) :: rest => do
    if node.can_batch && 1 < stream_messages.length then
      let delivery ← process_batch node stream_messages
      match delivery with
      | some t => Co.update (·.set_self ({ · with pending_batch_delivery := some t }))
      | none => pure ()
    else
      process_each node stream_messages
    dispatch rest

/-- `await self._pending_batch_delivery`, if there is one. -/
def await_delivery : Prog Ir Unit := do
  match ← Co.look fun w => w.self.pending_batch_delivery with
  | none => pure ()
  | some t => do
    alone (.join t)
    Co.update (·.set_self ({ · with pending_batch_delivery := none }))

/-- The `if not messages` branch. -/
def recheck_pending : Prog Ir Unit := do
  let now ← Co.look World.monotonic
  let last ← Co.look fun w => w.frame.last_pending_check
  if pending_recheck_secs ≤ now - last then
    let _ ← recover_pending node
    Co.update (·.set_frame ({ · with last_pending_check := now }))
  else
    pure ()

/-- The `try` block of the loop. -/
def read_and_dispatch : Prog Ir Unit := do
  let messages ← alone (.xreadgroup (if node.can_batch then batch_read_count else 1))
  Co.update (·.set_self ({ · with redis_healthy := true }))
  Co.update (·.set_frame ({ · with consecutive_failures := 0 }))
  await_delivery
  if messages.isEmpty then
    recheck_pending node
  else
    dispatch node messages

/-- The `except` clauses of the loop. -/
def back_off (e : Exn) : Prog Ir Unit :=
  if e.is_connection then do
    Co.update (·.set_self ({ · with redis_healthy := false }))
    Co.update (·.set_frame fun f =>
      { f with consecutive_failures := f.consecutive_failures + 1 })
    let failures ← Co.look fun w => w.frame.consecutive_failures
    let delay ← Co.of_except (backoff failures)
    mark (.lost failures delay)
    alone (.sleep delay)
  else if e = .cancelled then
    .raise e
  else
    alone (.sleep 1)

/-- One round of `while self._running`. -/
def iteration : Prog Ir Unit := Co.try_except (read_and_dispatch node) back_off

/-! ## The running consumer -/

/-- The world a consumer is started in: everything Redis holds is arbitrary, the consumer
object is new. -/
structure Fresh (w : World Ir) : Prop where
  self : w.self = {}
  frame : w.frame = {}
  region : w.region = .outside
  tasks : w.tasks = []
  exec : w.exec = {}
  log : w.log = []

/-- The consumer with the tasks it creates, when `cloud` is what the cloud may do and
`allow` which answers are possible. -/
def consumer (cloud : (String → Option String) → (String → Option String) → Prop)
    (allow : (q : Req Ir) → World Ir → Except Exn q.Reply → Prop) :
    Kernel (World Ir) (@Req.Reply Ir) Exn (TaskSpec Ir) where
  answer q w r w' := answers node q w r w' ∧ allow q w r
  drift := Drift cloud
  spawned w := w.tasks.map Prod.fst
  body := task_body node
  finish i r w := w.finish_task i r
  again w := if w.self.running then some (iteration node) else none

section Consumer

variable {node}
variable {cloud : (String → Option String) → (String → Option String) → Prop}
variable {allow : (q : Req Ir) → World Ir → Except Exn q.Reply → Prop}

/-- A new consumer has created no task. -/
theorem Fresh.spawned {w : World Ir} (h : Fresh w) :
    (consumer node cloud allow).spawned w = [] := by
  show w.tasks.map Prod.fst = []
  rw [h.tasks]
  rfl

/-- The next round is an iteration of the loop. -/
theorem eq_iteration_of_again {w : World Ir} {p : Prog Ir Unit}
    (h : (consumer node cloud allow).again w = some p) : p = iteration node := by
  have hif : (if w.self.running then some (iteration node) else none) = some p := h
  split at hif
  · exact (Option.some.inj hif).symm
  · cases hif

end Consumer

/-- The pools a consumer can reach from the world `w`. -/
def Reaches (cloud : (String → Option String) → (String → Option String) → Prop)
    (allow : (q : Req Ir) → World Ir → Except Exn q.Reply → Prop) (w : World Ir)
    (x : Pool (World Ir) (@Req.Reply Ir) Exn) : Prop :=
  (consumer node cloud allow).Run ((consumer node cloud allow).start w (startup node)) x

end CodaNode
