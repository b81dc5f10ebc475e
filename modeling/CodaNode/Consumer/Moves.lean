/-
`Consumer/Moves.lean` -- what one step of a handler can do while Redis answers.

`Move` lists the steps of the code that handles a message, each with what the code has
made sure of before it takes that step: which evidence is in the log before an `XACK`,
when a webhook may start, what a status record is written for. A `Setting` is a contract
together with what a proof wants to carry along; the rules at the end are the methods
of `Consumer/Handler.lean`, one rule each, for every setting that `Suits` the message.
-/
import CodaNode.Consumer.Trace

set_option autoImplicit false

open Coroutine

namespace CodaNode

variable {Ir : Type}

/-! ## What is known of a job -/

/-- What Redis and the log say about a message and its job. -/
structure Tally (Ir : Type) where
  state : Option String
  posts : List (Call Ir)
  returned : List (Call Ir)
  acks : Nat

/-- What the attributes say about the job in hand, and how many runs have begun. -/
structure Desk where
  idle : Bool
  current_job_id : Option String
  runs : Nat

namespace World

def tally (w : World Ir) (m : Message) (job_id : String) : Tally Ir where
  state := w.state job_id
  posts := w.posts job_id
  returned := w.returned job_id
  acks := w.count (Event.takes (Call.acks m.id))

def desk (w : World Ir) : Desk where
  idle := w.self.idle
  current_job_id := w.self.current_job_id
  runs := w.exec.runs

/-! ## Evidence in the log -/

/-- While `m` was handled, its job was found in a state in which it is skipped. -/
def found_terminal (w : World Ir) (m : Message) (job_id : String) : Prop :=
  ∃ st, terminal st = true ∧
    w.logged (.ended ⟨some m, .hget (status_key job_id) "state"⟩ true (.ok st))

/-- While `m` was handled, the cancel key of its job was seen. -/
def signalled (w : World Ir) (m : Message) (job_id : String) : Prop :=
  ∃ v, w.logged (.ended ⟨some m, .get (cancel_key job_id)⟩ true (.ok (some v)))

/-- While `m` was handled, its job was recorded as cancelled. -/
def wrote_cancelled (w : World Ir) (m : Message) (job_id : String) : Prop :=
  ∃ mapping, record_state mapping = some "cancelled" ∧
    w.logged (.ended ⟨some m, .hset (status_key job_id) mapping⟩ true (.ok ()))

/-- While `m` was handled, a terminal webhook for its job was begun. -/
def reported_by (w : World Ir) (m : Message) (job_id : String) : Prop :=
  ∃ c : Call Ir, c.reports job_id = true ∧ w.logged (.started ⟨some m, c⟩)

/-- The three ways in which a message may be done with. -/
def settled (w : World Ir) (m : Message) (job_id : String) : Prop :=
  w.found_terminal m job_id ∨ (w.signalled m job_id ∧ w.wrote_cancelled m job_id) ∨
    w.reported_by m job_id

/-- The message was skipped by a batch as malformed. -/
def skipped (w : World Ir) (m : Message) : Prop := w.logged (.mark (.skipped m))

section Mono

variable {w w' : World Ir} {m : Message} {job_id : String} (hlog : w.log <:+ w'.log)
include hlog

theorem found_terminal.mono (h : w.found_terminal m job_id) : w'.found_terminal m job_id := by
  obtain ⟨st, hst, h⟩ := h
  exact ⟨st, hst, h.mono hlog⟩

theorem signalled.mono (h : w.signalled m job_id) : w'.signalled m job_id := by
  obtain ⟨v, h⟩ := h
  exact ⟨v, h.mono hlog⟩

theorem wrote_cancelled.mono (h : w.wrote_cancelled m job_id) :
    w'.wrote_cancelled m job_id := by
  obtain ⟨mapping, hst, h⟩ := h
  exact ⟨mapping, hst, h.mono hlog⟩

theorem reported_by.mono (h : w.reported_by m job_id) : w'.reported_by m job_id := by
  obtain ⟨c, hc, h⟩ := h
  exact ⟨c, hc, h.mono hlog⟩

theorem settled.mono (h : w.settled m job_id) : w'.settled m job_id := by
  rcases h with h | ⟨h, h'⟩ | h
  · exact .inl (h.mono hlog)
  · exact .inr (.inl ⟨h.mono hlog, h'.mono hlog⟩)
  · exact .inr (.inr (h.mono hlog))

end Mono

end World

/-- The job of the message does not parse, or its run raises. -/
def job_fails (node : Node Ir) (decoded : List (String × String)) (e : Exn) : Prop :=
  node.parse_job decoded = .error e ∨
    ∃ k ir shots, node.parse_job decoded = .ok (ir, shots) ∧
      (node.run k ir shots).out = .error e

/-- Why handling the message could fail: its job did, or posting the result raised. -/
def Failing (node : Node Ir) (m : Message) (w : World Ir) (e : Exn) : Prop :=
  (∃ decoded job_id url, m.header = .ok (decoded, job_id, url) ∧ job_fails node decoded e) ∨
  ∃ url payload, w.logged (.ended ⟨some m, .send_result url payload⟩ false (.error e))

theorem Failing.mono {node : Node Ir} {m : Message} {w w' : World Ir} {e : Exn}
    (h : Failing node m w e) (hlog : w.log <:+ w'.log) : Failing node m w' e := by
  rcases h with h | ⟨url, payload, h⟩
  · exact .inl h
  · exact .inr ⟨url, payload, h.mono hlog⟩

/-! ## Steps -/

namespace Call

/-- The operations of a handler that leave Redis as it is. -/
def reads : Call Ir → Bool
  | hget _ _ | get _ | wait _ _ | cancel_current_job | unwind _ => true
  | send_result _ _ | send_error _ _ _ => true
  | _ => false

/-- The operations of a handler; each can be answered normally at any time. -/
def prompt : Call Ir → Bool
  | hset _ _ | xack _ => true
  | c => c.reads

@[simp] theorem prompt_of_reads {c : Call Ir} (h : c.reads = true) : c.prompt = true := by
  cases c <;> first | exact h | rfl

end Call

/-- A synchronous step of the code that handles `m` which no job can see. -/
structure Quiet (m : Message) (w w' : World Ir) : Prop where
  hashes : w'.hashes = w.hashes
  values : w'.values = w.values
  tasks : w'.tasks = w.tasks
  frame : w'.frame = w.frame
  shared : w'.self.running = w.self.running ∧ w'.self.redis_healthy = w.self.redis_healthy ∧
    w'.self.pending_batch_delivery = w.self.pending_batch_delivery
  log : w'.log = w.log ∨
    ∃ x, (x = .handling m ∨ x = .skipped m ∨ ∃ s runs tasks, x = .starting s runs tasks) ∧
      w'.log = ⟨.mark x, w.values, w.region⟩ :: w.log

/-- An operation of the code that handles `m`, other than a write to Redis, was answered. -/
structure Heard (m : Message) (c : Call Ir) (r : Except Exn c.Reply) (w w' : World Ir) : Prop
    extends Answered ⟨some m, c⟩ r w w' where
  hashes : w'.hashes = w.hashes
  runs : w'.exec.runs = w.exec.runs

theorem Heard.of_answers {node : Node Ir} {m : Message} {c : Call Ir}
    {r : Except Exn c.Reply} {w w' : World Ir} (hc : c.reads = true)
    (h : answers node ⟨some m, c⟩ w r w') : Heard m c r w w' := by
  have hperf : ∀ {v : c.Reply} {w₁ : World Ir}, performs node c w v w₁ →
      w₁.hashes = w.hashes ∧ w₁.exec.runs = w.exec.runs := by
    intro v w₁ hp
    cases c with
    | hget key field => obtain ⟨-, rfl⟩ := hp; exact ⟨rfl, rfl⟩
    | get key => obtain ⟨-, rfl⟩ := hp; exact ⟨rfl, rfl⟩
    | wait k timed_out => cases timed_out <;> cases hp <;> exact ⟨rfl, rfl⟩
    | cancel_current_job => cases hp; exact ⟨rfl, rfl⟩
    | unwind k => cases hp; exact ⟨rfl, rfl⟩
    | send_result url payload => cases hp; exact ⟨rfl, rfl⟩
    | send_error url j text => cases hp; exact ⟨rfl, rfl⟩
    | _ => cases hc
  refine ⟨.of_answers h, ?_, ?_⟩ <;>
    rcases h with ⟨v, w₁, hp, -, rfl⟩ | ⟨e, -, -, -, rfl⟩ | ⟨e, v, w₁, -, -, hp, -, rfl⟩
  · exact (hperf hp).1
  · rfl
  · exact (hperf hp).1
  · exact (hperf hp).2
  · rfl
  · exact (hperf hp).2

/-- A contract and what a proof about it carries along. -/
structure Setting (Ir : Type) where
  contract : Contract (World Ir) (@Req.Reply Ir) Exn
  /-- Holds at every step. -/
  inv : World Ir → Prop
  /-- The others leave the job alone. -/
  tracked : Prop
  /-- The others leave the desk alone. -/
  solo : Prop
  /-- What the webhooks of a job that is not terminal are known to be. -/
  fresh : List (Call Ir) → Prop

/-- The steps of the code that handles the message `m` of the job `job_id`. -/
inductive Move (node : Node Ir) (T : Setting Ir) (m : Message) (job_id url : String) :
    World Ir → World Ir → Prop
  | quiet {w w' : World Ir} (h : Quiet m w w') : Move node T m job_id url w w'
  | heard {w w' : World Ir} {c : Call Ir} {r : Except Exn c.Reply} (hc : c.reads = true)
      (h : T.contract.answer ⟨some m, c⟩ w r w') : Move node T m job_id url w w'
  /-- A status record: the job has not been reported, unless handling it has failed. -/
  | write {w w' : World Ir} {mapping : List (String × String)} {st : String}
      (hm : m.Carries job_id url) (hst : record_state mapping = some st)
      (h : T.contract.answer ⟨some m, .hset (status_key job_id) mapping⟩ w (.ok ()) w')
      (duty : (T.tracked → T.fresh (w.posts job_id)) ∨ ∃ e, Failing node m w e) :
      Move node T m job_id url w w'
  /-- The result is posted: no cancel key, and the job is recorded as completed. -/
  | post_result {w : World Ir} (result : ExecutionResult) (hm : m.Carries job_id url)
      (hkey : w.values (cancel_key job_id) = none)
      (duty : T.tracked → T.fresh (w.posts job_id) ∧ w.state job_id = some "completed") :
      Move node T m job_id url w
        (w.record (.started ⟨some m, .send_result url (completed_payload job_id result)⟩))
  /-- The error is posted, right after the job was recorded as failed. -/
  | post_error {w₀ w : World Ir} {e : Exn} {failed_at : String} (hm : m.Carries job_id url)
      (h : T.contract.answer ⟨some m, .hset (status_key job_id) (failed_record e failed_at)⟩ w₀
        (.ok ()) w)
      (cause : Failing node m w e) :
      Move node T m job_id url w
        (w.record (.started ⟨some m, .send_error url job_id e.text⟩))
  /-- The message is ACK-ed: it is malformed, or done with, or skipped. -/
  | ack {w w' : World Ir}
      (why : (∀ j u, ¬ m.Carries j u) ∨ m.Carries job_id url ∧
        (w.settled m job_id ∨ w.skipped m))
      (h : T.contract.answer ⟨some m, .xack m.id⟩ w (.ok ()) w') :
      Move node T m job_id url w w'

/-- What a setting has to provide for the message `m` of the job `job_id`. -/
structure Setting.Suits (T : Setting Ir) (node : Node Ir) (m : Message) (job_id url : String) :
    Prop where
  executor : node.Ordinary
  pre : ∀ c w, c.prompt = true → T.contract.pre ⟨some m, c⟩ w
  answer : ∀ c w r w', T.contract.answer ⟨some m, c⟩ w r w' →
    answers node ⟨some m, c⟩ w r w' ∧ redis_up ⟨some m, c⟩ w r ∧ not_cancelled ⟨some m, c⟩ w r
  rely_inv : ∀ w w', T.inv w → T.contract.rely w w' → T.inv w'
  rely_log : ∀ w w', T.contract.rely w w' → w.log <:+ w'.log
  rely_tally : ∀ w w', T.tracked → T.inv w → T.contract.rely w w' →
    w'.tally m job_id = w.tally m job_id
  rely_desk : ∀ w w', T.solo → T.inv w → T.contract.rely w w' → w'.desk = w.desk
  fresh : ∀ w, T.tracked → T.inv w → terminal (w.state job_id) = false →
    T.fresh (w.posts job_id)
  step : ∀ w w', T.inv w → Move node T m job_id url w w' → T.contract.keep w w' ∧ T.inv w'

/-- Some world that a step or the others left satisfied `P`. -/
def Setting.Ever (T : Setting Ir) (P : World Ir → Prop) : Prop := ∃ w, T.inv w ∧ P w

/-! ## What steps do to a tally -/

/-- The tally after the operation `c` of the handler was answered. -/
def Tally.heard (t : Tally Ir) (job_id : String) (c : Call Ir) (r : Except Exn c.Reply) :
    Tally Ir :=
  match r with
  | .ok _ => if c.reports job_id then { t with returned := c :: t.returned } else t
  | .error _ => t

theorem Tally.heard_of_not {t : Tally Ir} {job_id : String} {c : Call Ir}
    (hc : c.reports job_id = false) (r : Except Exn c.Reply) : t.heard job_id c r = t := by
  cases r <;> simp [Tally.heard, hc]

theorem Quiet.refl (m : Message) (w : World Ir) : Quiet m w w :=
  ⟨rfl, rfl, rfl, rfl, ⟨rfl, rfl, rfl⟩, .inl rfl⟩

theorem Quiet.grows {m : Message} {w w' : World Ir} (h : Quiet m w w') : w.log <:+ w'.log := by
  rcases h.log with h | ⟨x, -, h⟩
  · exact ⟨[], h.symm⟩
  · exact ⟨[_], h.symm⟩

theorem Quiet.tally {m : Message} {w w' : World Ir} (h : Quiet m w w') (m' : Message)
    (job_id : String) : w'.tally m' job_id = w.tally m' job_id := by
  rcases h.log with hl | ⟨x, -, hl⟩ <;>
    simp [World.tally, World.state, World.posts, World.returned, World.count, hl, h.hashes]

namespace Heard

variable {m : Message} {c : Call Ir} {r : Except Exn c.Reply} {w w' : World Ir}

theorem logged (h : Heard m c r w w') : ∃ took, w'.logged (.ended ⟨some m, c⟩ took r) := by
  obtain ⟨took, hl⟩ := h.log
  exact ⟨took, ⟨_, by rw [hl]; exact List.mem_cons_self, rfl⟩⟩

theorem desk (h : Heard m c r w w') : w'.desk = w.desk := by
  simp only [World.desk, h.self, h.runs]

theorem tally (h : Heard m c r w w') (hc : c.reads = true) (m' : Message) (job_id : String) :
    w'.tally m' job_id = (w.tally m' job_id).heard job_id c r := by
  obtain ⟨took, hl⟩ := h.log
  have hack : Call.acks m'.id c = false := by cases c <;> first | rfl | cases hc
  cases r with
  | error e =>
      simp [World.tally, World.state, World.posts, World.returned, World.count, hl, h.hashes,
        Tally.heard, hack]
  | ok v =>
      cases hr : c.reports job_id <;>
        simp [World.tally, World.state, World.posts, World.returned, World.count, hl, h.hashes,
          Tally.heard, hack, hr]

end Heard

end CodaNode
