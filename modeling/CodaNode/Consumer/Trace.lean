/-
`Consumer/Trace.lean` -- reading the log, and what an answer leaves behind.

The properties of the consumer speak of operations that began, returned or took effect.
They are counts over the log; the lemmas below say how each update of the world changes
them, so that later proofs never unfold the log.
-/
import CodaNode.Consumer.Loop

set_option autoImplicit false

open Coroutine

namespace CodaNode

variable {Ir : Type}

/-! ## Kinds of events -/

namespace Call

/-- `send_result` for the job. -/
def posts_result (job_id : String) : Call Ir → Bool
  | send_result _ payload => payload.job_id == job_id
  | _ => false

/-- `send_error` for the job. -/
def posts_error (job_id : String) : Call Ir → Bool
  | send_error _ j _ => j == job_id
  | _ => false

/-- `XACK` of the message. -/
def acks (message_id : String) : Call Ir → Bool
  | xack id => id == message_id
  | _ => false

/-- `XREADGROUP`. -/
def reads_group : Call Ir → Bool
  | xreadgroup _ => true
  | _ => false

end Call

namespace Event

/-- A call of this kind begins. -/
def starts (p : Call Ir → Bool) : Event Ir → Bool
  | started q => p q.call
  | _ => false

/-- A call of this kind returns normally. -/
def returns (p : Call Ir → Bool) : Event Ir → Bool
  | ended q _ (.ok _) => p q.call
  | _ => false

/-- A call of this kind raises. -/
def raises (p : Call Ir → Bool) : Event Ir → Bool
  | ended q _ (.error _) => p q.call
  | _ => false

/-- A call of this kind ends. -/
def ends (p : Call Ir → Bool) : Event Ir → Bool
  | ended q _ _ => p q.call
  | _ => false

/-- A call of this kind takes effect. -/
def takes (p : Call Ir → Bool) : Event Ir → Bool
  | ended q took _ => took && p q.call
  | _ => false

/-- An executor call or a recovery begins. -/
def begins : Event Ir → Bool
  | .mark (.starting _ _ _) => true
  | _ => false

variable (p : Call Ir → Bool) (q : Req Ir) (b : Bool) (x : Mark)

@[simp] theorem starts_started : starts p (started q) = p q.call := rfl
@[simp] theorem starts_ended (r : Except Exn q.Reply) : starts p (ended q b r) = false := rfl
@[simp] theorem starts_mark : starts p (.mark x : Event Ir) = false := rfl
@[simp] theorem returns_started : returns p (started q) = false := rfl
@[simp] theorem returns_ok (v : q.Reply) : returns p (ended q b (.ok v)) = p q.call := rfl
@[simp] theorem returns_error (e : Exn) : returns p (ended q b (.error e)) = false := rfl
@[simp] theorem returns_mark : returns p (.mark x : Event Ir) = false := rfl
@[simp] theorem raises_started : raises p (started q) = false := rfl
@[simp] theorem raises_ok (v : q.Reply) : raises p (ended q b (.ok v)) = false := rfl
@[simp] theorem raises_error (e : Exn) : raises p (ended q b (.error e)) = p q.call := rfl
@[simp] theorem raises_mark : raises p (.mark x : Event Ir) = false := rfl
@[simp] theorem ends_started : ends p (started q) = false := rfl
@[simp] theorem ends_ended (r : Except Exn q.Reply) : ends p (ended q b r) = p q.call := rfl
@[simp] theorem ends_mark : ends p (.mark x : Event Ir) = false := rfl
@[simp] theorem takes_started : takes p (started q) = false := rfl
@[simp] theorem takes_ended (r : Except Exn q.Reply) :
    takes p (ended q b r) = (b && p q.call) := rfl
@[simp] theorem takes_mark : takes p (.mark x : Event Ir) = false := rfl

end Event

/-! ## Counting -/

namespace World

/-- How many events of the log satisfy `p`. -/
def count (w : World Ir) (p : Event Ir → Bool) : Nat := w.log.countP fun e => p e.event

variable (w : World Ir) (p : Event Ir → Bool)

@[simp] theorem count_record (e : Event Ir) :
    (w.record e).count p = w.count p + if p e = true then 1 else 0 := by
  simp only [count, record_log, List.countP_cons]

@[simp] theorem count_hset (k : String) (mapping : List (String × String)) :
    (w.hset k mapping).count p = w.count p := rfl
@[simp] theorem count_ack (id : String) : (w.ack id).count p = w.count p := rfl
@[simp] theorem count_deliver (n : Nat) : (w.deliver n).count p = w.count p := rfl
@[simp] theorem count_set_self (f : Attributes → Attributes) :
    (w.set_self f).count p = w.count p := rfl
@[simp] theorem count_set_frame (f : Frame → Frame) : (w.set_frame f).count p = w.count p := rfl
@[simp] theorem count_enter (r : Region) : (w.enter r).count p = w.count p := rfl
@[simp] theorem count_set_exec (f : Exec → Exec) : (w.set_exec f).count p = w.count p := rfl
@[simp] theorem count_create_task (t : TaskSpec Ir) :
    (w.create_task t).count p = w.count p := rfl
@[simp] theorem count_finish_task (i : Nat) (r : Except Exn Unit) :
    (w.finish_task i r).count p = w.count p := rfl

theorem count_drift {cloud : (String → Option String) → (String → Option String) → Prop}
    {w w' : World Ir} (h : Drift cloud w w') (p : Event Ir → Bool) :
    w'.count p = w.count p := by
  rw [count, count, h.log]

/-! ## The webhooks of a job, newest first -/

/-- The terminal webhooks begun for the job. -/
def posts (job_id : String) : List (Call Ir) :=
  w.log.filterMap fun e => match e.event with
    | .started q => if q.call.reports job_id then some q.call else none
    | _ => none

/-- The terminal webhooks for the job that returned normally. -/
def returned (job_id : String) : List (Call Ir) :=
  w.log.filterMap fun e => match e.event with
    | .ended q _ (.ok _) => if q.call.reports job_id then some q.call else none
    | _ => none

variable (job_id : String) (q : Req Ir) (b : Bool)

@[simp] theorem posts_started : (w.record (.started q)).posts job_id =
    if q.call.reports job_id then q.call :: w.posts job_id else w.posts job_id := by
  simp only [posts, record_log, List.filterMap_cons]
  cases q.call.reports job_id <;> rfl

@[simp] theorem posts_ended (r : Except Exn q.Reply) :
    (w.record (.ended q b r)).posts job_id = w.posts job_id := rfl

@[simp] theorem posts_mark (x : Mark) : (w.record (.mark x)).posts job_id = w.posts job_id :=
  rfl

@[simp] theorem returned_started :
    (w.record (.started q)).returned job_id = w.returned job_id := rfl

@[simp] theorem returned_ok (v : q.Reply) : (w.record (.ended q b (.ok v))).returned job_id =
    if q.call.reports job_id then q.call :: w.returned job_id else w.returned job_id := by
  simp only [returned, record_log, List.filterMap_cons]
  cases q.call.reports job_id <;> rfl

@[simp] theorem returned_error (e : Exn) :
    (w.record (.ended q b (.error e))).returned job_id = w.returned job_id := rfl

@[simp] theorem returned_mark (x : Mark) :
    (w.record (.mark x)).returned job_id = w.returned job_id := rfl

@[simp] theorem posts_ack (id : String) : (w.ack id).posts job_id = w.posts job_id := rfl

@[simp] theorem returned_ack (id : String) : (w.ack id).returned job_id = w.returned job_id :=
  rfl

/-- The log holds this event. -/
def logged (e : Event Ir) : Prop := ∃ x ∈ w.log, x.event = e

theorem logged_record (e : Event Ir) : (w.record e).logged e :=
  ⟨⟨e, w.values, w.region⟩, List.mem_cons_self, rfl⟩

variable {w} in
theorem logged.mono {w' : World Ir} {e : Event Ir} (h : w.logged e) (hlog : w.log <:+ w'.log) :
    w'.logged e := by
  obtain ⟨x, hx, he⟩ := h
  exact ⟨x, hlog.subset hx, he⟩

/-! ## The state of a job -/

@[simp] theorem state_record (e : Event Ir) : (w.record e).state job_id = w.state job_id := rfl
@[simp] theorem state_ack (id : String) : (w.ack id).state job_id = w.state job_id := rfl
@[simp] theorem state_set_self (f : Attributes → Attributes) :
    (w.set_self f).state job_id = w.state job_id := rfl
@[simp] theorem state_set_exec (f : Exec → Exec) :
    (w.set_exec f).state job_id = w.state job_id := rfl
@[simp] theorem state_enter (r : Region) : (w.enter r).state job_id = w.state job_id := rfl

/-- Writing a record with a state sets the job's state. -/
theorem state_write {mapping : List (String × String)} {st : String}
    (h : record_state mapping = some st) :
    (w.hset (status_key job_id) mapping).state job_id = some st := by
  rw [state_hset, if_pos rfl, h]; rfl

end World

/-! ## Answers -/

section Answers

variable {node : Node Ir} {q : Req Ir} {w w' : World Ir}

/-- A normal answer: the operation was performed and logged. -/
@[simp] theorem answers_ok {v : q.Reply} : answers node q w (.ok v) w' ↔
    ∃ w₁, performs node q.call w v w₁ ∧ w' = w₁.record (.ended q true (.ok v)) := by
  constructor
  · rintro (⟨v', w₁, hp, hv, rfl⟩ | ⟨e, -, -, he, -⟩ | ⟨e, v', w₁, -, -, -, he, -⟩)
    · cases hv; exact ⟨w₁, hp, rfl⟩
    · cases he
    · cases he
  · rintro ⟨w₁, hp, rfl⟩
    exact .inl ⟨v, w₁, hp, rfl, rfl⟩

/-- An exception: the operation may or may not have taken effect. -/
@[simp] theorem answers_error {e : Exn} : answers node q w (.error e) w' ↔
    fails node q.call w e ∧ (q.call.shows_end e = false ∧
      w' = w.record (.ended q false (.error e)) ∨ q.call.may_take = true ∧
        ∃ v w₁, performs node q.call w v w₁ ∧ w' = w₁.record (.ended q true (.error e))) := by
  constructor
  · rintro (⟨v', w₁, -, hv, -⟩ | ⟨e', hf, hend, he, rfl⟩ | ⟨e', v', w₁, hm, hf, hp, he, rfl⟩)
    · cases hv
    · cases he; exact ⟨hf, .inl ⟨hend, rfl⟩⟩
    · cases he; exact ⟨hf, .inr ⟨hm, v', w₁, hp, rfl⟩⟩
  · rintro ⟨hf, ⟨hend, rfl⟩ | ⟨hm, v, w₁, hp, rfl⟩⟩
    · exact .inr (.inl ⟨e, hf, hend, rfl, rfl⟩)
    · exact .inr (.inr ⟨e, v, w₁, hm, hf, hp, rfl, rfl⟩)

/-- What every answer leaves alone, and the line it writes. -/
structure Answered (q : Req Ir) (r : Except Exn q.Reply) (w w' : World Ir) : Prop where
  values : w'.values = w.values
  region : w'.region = w.region
  self : w'.self = w.self
  frame : w'.frame = w.frame
  tasks : w'.tasks = w.tasks
  log : ∃ took, w'.log = ⟨.ended q took r, w.values, w.region⟩ :: w.log

theorem Answered.of_answers {r : Except Exn q.Reply} (h : answers node q w r w') :
    Answered q r w w' := by
  have hrec : ∀ {w₁ : World Ir} {took : Bool}, w₁.values = w.values ∧ w₁.region = w.region ∧
      w₁.self = w.self ∧ w₁.frame = w.frame ∧ w₁.tasks = w.tasks ∧ w₁.log = w.log →
      Answered q r w (w₁.record (.ended q took r)) := by
    rintro w₁ took ⟨h₁, h₂, h₃, h₄, h₅, h₆⟩
    exact ⟨h₁, h₂, h₃, h₄, h₅, took, by rw [World.record_log, h₁, h₂, h₆]⟩
  have hperf : ∀ {v : q.Reply} {w₁ : World Ir}, performs node q.call w v w₁ →
      w₁.values = w.values ∧ w₁.region = w.region ∧ w₁.self = w.self ∧ w₁.frame = w.frame ∧
      w₁.tasks = w.tasks ∧ w₁.log = w.log := by
    obtain ⟨msg, c⟩ := q
    intro v w₁ hp
    cases c with
    | xgroup_create => obtain ⟨-, rfl⟩ := hp; exact ⟨rfl, rfl, rfl, rfl, rfl, rfl⟩
    | xreadgroup count => obtain ⟨n, -, rfl, -⟩ := hp; exact ⟨rfl, rfl, rfl, rfl, rfl, rfl⟩
    | hset key mapping => cases hp; exact ⟨rfl, rfl, rfl, rfl, rfl, rfl⟩
    | xack id => cases hp; exact ⟨rfl, rfl, rfl, rfl, rfl, rfl⟩
    | wait k timed_out =>
        cases timed_out <;> cases hp <;> exact ⟨rfl, rfl, rfl, rfl, rfl, rfl⟩
    | unwind k => cases hp; exact ⟨rfl, rfl, rfl, rfl, rfl, rfl⟩
    | cancel_current_job => cases hp; exact ⟨rfl, rfl, rfl, rfl, rfl, rfl⟩
    | send_result url payload => cases hp; exact ⟨rfl, rfl, rfl, rfl, rfl, rfl⟩
    | send_error url j text => cases hp; exact ⟨rfl, rfl, rfl, rfl, rfl, rfl⟩
    | begin => cases hp; exact ⟨rfl, rfl, rfl, rfl, rfl, rfl⟩
    | sleep secs => cases hp; exact ⟨rfl, rfl, rfl, rfl, rfl, rfl⟩
    | _ => obtain ⟨-, rfl⟩ := hp; exact ⟨rfl, rfl, rfl, rfl, rfl, rfl⟩
  rcases h with ⟨v, w₁, hp, rfl, rfl⟩ | ⟨e, -, -, rfl, rfl⟩ | ⟨e, v, w₁, -, -, hp, rfl, rfl⟩
  · exact hrec (hperf hp)
  · exact hrec ⟨rfl, rfl, rfl, rfl, rfl, rfl⟩
  · exact hrec (hperf hp)

theorem Answered.grows {r : Except Exn q.Reply} (h : Answered q r w w') : w.log <:+ w'.log := by
  obtain ⟨took, hl⟩ := h.log
  exact ⟨[_], hl.symm⟩

end Answers

/-! ## What a run may be restricted to -/

/-- Redis answers every command; of a group that exists already it says so. -/
def redis_up (q : Req Ir) (w : World Ir) (r : Except Exn q.Reply) : Prop :=
  q.call.is_redis = true → (∃ v, r = .ok v) ∨ (q.call = .xgroup_create ∧ w.group = true ∧
    ∃ msg, busygroup msg = true ∧ r = .error (.response msg))

theorem redis_up_ok (q : Req Ir) (w : World Ir) (v : q.Reply) : redis_up q w (.ok v) :=
  fun _ => .inl ⟨v, rfl⟩

theorem redis_up.ok {q : Req Ir} {w : World Ir} {r : Except Exn q.Reply} (h : redis_up q w r)
    (hq : q.call.is_redis = true) (hne : q.call ≠ .xgroup_create) : ∃ v, r = .ok v :=
  (h hq).resolve_right fun hbusy => hne hbusy.1

/-- Nobody cancels the consumer's tasks. The `CancelledError` of a run that the consumer
itself has cancelled is not meant. -/
def not_cancelled (q : Req Ir) (_ : World Ir) (r : Except Exn q.Reply) : Prop :=
  r = .error .cancelled → ∃ k, q.call = .unwind k

end CodaNode
