/-
`Consumer/Lifecycle.lean` -- the life of one job, as Redis and the webhooks see it.

The states that are written for a job and the webhooks that are called for it follow one
machine: a job is taken on, completed and reported, or it fails and its failure is reported, or
it is cancelled. The machine is stated here on its own; that the consumer follows it is the
subject of `Consumer/LifecycleJobs.lean`.
-/
import CodaNode.Consumer.Trace
import CodaNode.Coroutine.Machine

set_option autoImplicit false

open Coroutine

namespace CodaNode

variable {Ir : Type} {node : Node Ir} {w w' : World Ir} {job_id : String}

/-! ## The machine -/

/-- What happens to a job. -/
inductive JobEvent where
  /-- A status record with this state was written. -/
  | wrote (state : String)
  | result_begun (url : String) (payload : WebhookPayload)
  | result_ended (ok : Bool)
  | error_begun (url text : String)
  | error_ended (ok : Bool)
  deriving DecidableEq

/-- The state that the event writes. -/
def JobEvent.state : JobEvent → Option String
  | .wrote st => some st
  | _ => none

/-- Where a job is. -/
inductive Phase where
  /-- Nobody has it in hand, and it is not terminal. -/
  | waiting
  /-- It is recorded as executing. -/
  | executing
  /-- It is recorded as completed, and the result is not being posted yet. -/
  | completed
  | sending
  /-- It is recorded as completed, and posting the result has raised. -/
  | unreported
  /-- It is recorded as completed, and nothing is left to do. -/
  | done
  /-- It is recorded as failed, and the error is not being posted yet. -/
  | failed
  | erroring
  | cancelled
  deriving DecidableEq

namespace Phase

/-- Nobody has the job in hand. -/
def settled : Phase → Bool
  | waiting | executing | unreported | done | cancelled => true
  | _ => false

/-- The job would be taken on. -/
def free : Phase → Bool
  | waiting | executing => true
  | _ => false

/-- The state that Redis shows. -/
def shows : Phase → Option String → Prop
  | waiting, st => terminal st = false
  | executing, st => st = some "executing"
  | failed, st | erroring, st => st = some "failed"
  | cancelled, st => st = some "cancelled"
  | _, st => st = some "completed"

/-- The phase of a job that this consumer has not touched. -/
def found (st : Option String) : Phase :=
  if st = some "completed" then done else if st = some "cancelled" then cancelled else waiting

theorem found_shows (st : Option String) : (found st).shows st := by
  unfold found
  split
  · next h => exact h
  · next h =>
      split
      · next h' => exact h'
      · next h' =>
          show (st == some "completed" || st == some "cancelled") = false
          rw [beq_false_of_ne h, beq_false_of_ne h']
          rfl

theorem found_settled (st : Option String) : (found st).settled = true := by
  unfold found
  split <;> try split
  all_goals rfl

/-- A settled job that does not show a terminal state would be taken on. -/
theorem free_of_settled {p : Phase} {st : Option String} (hp : p.settled = true)
    (hshows : p.shows st) (hst : terminal st = false) : p.free = true := by
  cases p with
  | waiting | executing => rfl
  | completed | sending | failed | erroring => cases hp
  | unreported | done | cancelled =>
      have h : st = _ := hshows
      rw [h] at hst
      cases hst

theorem settled_of_free {p : Phase} (hp : p.free = true) : p.settled = true := by
  cases p <;> first | rfl | cases hp

end Phase

/-- **The life of a job.** -/
def lifecycle : Machine Phase JobEvent where
  step
    | .waiting, .wrote "executing" => some .executing
    | .waiting, .wrote "cancelled" => some .cancelled
    | .executing, .wrote "executing" => some .executing
    | .executing, .wrote "completed" => some .completed
    | .executing, .wrote "failed" => some .failed
    | .executing, .wrote "cancelled" => some .cancelled
    | .completed, .wrote "cancelled" => some .cancelled
    | .completed, .result_begun _ _ => some .sending
    | .sending, .result_ended true => some .done
    | .sending, .result_ended false => some .unreported
    | .unreported, .wrote "failed" => some .failed
    | .unreported, .wrote "cancelled" => some .cancelled
    | .failed, .error_begun _ _ => some .erroring
    | .erroring, .error_ended _ => some .waiting
    | _, _ => none

namespace Phase

/-- A job that is done with or cancelled stays so. -/
theorem final_done : lifecycle.Final done := fun e => by cases e <;> rfl

theorem final_cancelled : lifecycle.Final cancelled := fun e => by cases e <;> rfl

/-- The result is posted at most once: only then is a job done. -/
theorem done_of_result {p q : Phase} (h : lifecycle.step p (.result_ended true) = some q) :
    lifecycle.Final q := by
  cases p with
  | sending =>
      cases h
      exact final_done
  | _ => cases h

/-- Only a cancelled job shows the state of one. -/
theorem eq_cancelled {p : Phase} (h : p.shows (some "cancelled")) : p = .cancelled := by
  cases p <;> first
    | rfl
    | simp [shows, terminal] at h

/-- The phase of a job that is over tells its state. -/
theorem shows_unique {p : Phase} {st st' : Option String} (hp : lifecycle.Final p)
    (h : p.shows st) (h' : p.shows st') : st = st' := by
  cases p with
  | waiting => cases hp (.wrote "executing")
  | _ => exact Eq.trans (b := _) h (Eq.symm h')

/-- What an event does to the state that Redis shows. -/
theorem shows_step {p q : Phase} {e : JobEvent} {st : Option String}
    (h : lifecycle.step p e = some q) (hp : p.shows st) : q.shows (e.state.or st) := by
  simp only [lifecycle] at h
  split at h <;> cases h <;> first
    | rfl
    | exact hp
    | (have hst : st = some "failed" := hp
       rw [hst]
       rfl)

end Phase

/-! ## The course of a job -/

/-- What the beginning of a webhook is for the job. -/
def Call.opens (job_id : String) : Call Ir → Option JobEvent
  | .send_result url payload =>
      if payload.job_id = job_id then some (.result_begun url payload) else none
  | .send_error url j text => if j = job_id then some (.error_begun url text) else none
  | _ => none

/-- What the end of an operation is for the job. -/
def Call.closes (job_id : String) (took ok : Bool) : Call Ir → Option JobEvent
  | .hset key mapping =>
      if took ∧ key = status_key job_id then (record_state mapping).map .wrote else none
  | .send_result _ payload => if payload.job_id = job_id then some (.result_ended ok) else none
  | .send_error _ j _ => if j = job_id then some (.error_ended ok) else none
  | _ => none

/-- The answer is no exception. -/
def answered_ok {α : Type} : Except Exn α → Bool
  | .ok _ => true
  | .error _ => false

/-- What a line of the log is for the job. -/
def Event.of_job (job_id : String) : Event Ir → Option JobEvent
  | .started q => q.call.opens job_id
  | .ended q took r => q.call.closes job_id took (answered_ok r)
  | .mark _ => none

namespace World

/-- What has happened to the job, newest first. -/
def course (w : World Ir) (job_id : String) : List JobEvent :=
  w.log.filterMap fun e => e.event.of_job job_id

theorem course_cons {x : Entry Ir} (hlog : w'.log = x :: w.log) :
    w'.course job_id = (x.event.of_job job_id).toList ++ w.course job_id := by
  rw [course, hlog, List.filterMap_cons]
  cases x.event.of_job job_id <;> rfl

theorem course_of_log (hlog : w'.log = w.log) : w'.course job_id = w.course job_id := by
  rw [course, hlog, course]

/-- A log that goes on makes a course that goes on. -/
theorem course_mono (hlog : w.log <:+ w'.log) :
    ∃ new, w'.course job_id = new ++ w.course job_id := by
  obtain ⟨new, hnew⟩ := hlog
  exact ⟨new.filterMap fun e => e.event.of_job job_id, by
    rw [course, ← hnew, List.filterMap_append, course]⟩

end World

/-! ## Files -/

/-- What Redis shows of a job, and what has happened to it. -/
structure File where
  state : Option String
  course : List JobEvent

def World.file (w : World Ir) (job_id : String) : File := ⟨w.state job_id, w.course job_id⟩

/-- A job that was found in the state `st` has come to `p`. -/
structure File.At (st : Option String) (p : Phase) (f : File) : Prop where
  after : lifecycle.after (Phase.found st) f.course = some p
  shows : p.shows f.state

namespace File

variable {st : Option String} {p q : Phase} {f : File} {e : JobEvent}

theorem At.start (st : Option String) : File.At st (Phase.found st) ⟨st, []⟩ :=
  ⟨rfl, Phase.found_shows st⟩

/-- An event that may follow. -/
theorem At.step (h : f.At st p) (hstep : lifecycle.step p e = some q) :
    File.At st q ⟨e.state.or f.state, e :: f.course⟩ :=
  ⟨(Machine.after_cons_of h.after).trans hstep, Phase.shows_step hstep h.shows⟩

theorem At.unique (h : f.At st p) (h' : f.At st q) : p = q :=
  Option.some.inj (h.after.symm.trans h'.after)

/-- The result of a job has been posted at most once, and then nothing is left to do. -/
theorem At.once (h : f.At st p) :
    f.course.count (.result_ended true) = 0 ∨
      f.course.count (.result_ended true) = 1 ∧ lifecycle.Final p :=
  Machine.once_of_final (fun _ _ => Phase.done_of_result) h.after

/-- A job that is over stays as it is. -/
theorem At.over {f' : File} (h : f.At st p) (hp : lifecycle.Final p) (h' : f'.At st q)
    {new : List JobEvent} (hnew : f'.course = new ++ f.course) : new = [] ∧ q = p := by
  have hnil : new = [] := Machine.eq_of_final hp h.after (by
    rw [← hnew, h'.after]
    exact Option.some_ne_none q)
  subst hnil
  refine ⟨rfl, Option.some.inj ?_⟩
  rw [← h'.after, hnew, List.nil_append, h.after]

end File

end CodaNode
