/-
`Consumer/LedgerSteps.lean` -- what the operations of a handler do to the ledger.

While Redis and the webhooks answer, nobody is cancelled and the cloud leaves its keys alone,
the code that has a job in hand can say after each of its operations what the ledger is, as far
as the job goes. `Books` is what its contract has to allow for that; there is one rule for each
operation. A coroutine with nobody else about knows the whole ledger (`Solitary`).
-/
import CodaNode.Consumer.Ledger
import CodaNode.Consumer.LifecycleJobs
import CodaNode.Consumer.Single

set_option autoImplicit false

open Coroutine

namespace CodaNode

variable {Ir : Type} {node : Node Ir} {w w' : World Ir} {m : Message} {job_id url : String}
variable {s : World Ir} {b b' : Ledger Ir}

/-! ## The ledger of a world -/

namespace World

/-- What the world shows of a job. -/
def account (w : World Ir) (job_id : String) : Account Ir := ⟨w.state job_id, w.posts job_id⟩

def ledger (w : World Ir) : Ledger Ir where
  account := w.account
  acked := {id | 0 < w.count (Event.takes (Call.acks id))}

theorem ledger_of_log (hhashes : w'.hashes = w.hashes) (hlog : w'.log = w.log) :
    w'.ledger = w.ledger := by
  refine Ledger.ext (funext fun j => ?_) (Set.ext fun id => ?_)
  · simp only [ledger, account, state, posts, hhashes, hlog]
  · simp only [ledger, count, hlog]

@[simp] theorem ledger_mark (w : World Ir) (x : Mark) : (w.record (.mark x)).ledger = w.ledger := by
  refine Ledger.ext rfl (Set.ext fun id => ?_)
  simp [ledger]

/-- An operation that is no `XACK` ends. -/
theorem ledger_ended {q : Req Ir} {took : Bool} {r : Except Exn q.Reply}
    (hq : ∀ id, q.call.acks id = false) : (w.record (.ended q took r)).ledger = w.ledger := by
  refine Ledger.ext rfl (Set.ext fun id => ?_)
  simp [ledger, hq id]

/-- A webhook call for the job begins. -/
theorem ledger_started {q : Req Ir} (hq : ∀ j, q.call.reports j = (j == job_id)) :
    (w.record (.started q)).ledger = w.ledger.post job_id q.call := by
  refine Ledger.ext (funext fun j => ?_) (Set.ext fun id => ?_)
  · simp only [ledger, account, state_record, posts_started, hq j, Ledger.post,
      Function.update_apply]
    by_cases hj : j = job_id
    · simp [hj]
    · simp [hj]
  · simp [ledger, Ledger.post]

/-- A status record is written. -/
theorem ledger_hset {mapping : List (String × String)} {st : String}
    (hst : record_state mapping = some st) :
    (w.hset (status_key job_id) mapping).ledger = w.ledger.write job_id st := by
  refine Ledger.ext (funext fun j => ?_) rfl
  simp only [ledger, account, state_hset, Ledger.write, Function.update_apply, hst, posts, hset_log]
  by_cases hj : j = job_id
  · simp [hj]
  · simp [hj]

/-- A message is ACK-ed. -/
theorem ledger_acked {msg : Option Message} {id : String} {r : Except Exn Unit} :
    ((w.ack id).record (.ended (⟨msg, .xack id⟩ : Req Ir) true r)).ledger = w.ledger.ack id := by
  refine Ledger.ext rfl (Set.ext fun id' => ?_)
  simp only [ledger, Ledger.ack, Set.mem_ofPred_eq, Set.mem_insert_iff, count_record, count_ack,
    Event.takes_ended, Call.acks, Bool.true_and, beq_iff_eq, eq_comm (a := id)]
  split <;> simp_all

end World

/-! ## What a run is restricted to -/

/-- The cloud leaves its keys alone. -/
def fixed (v v' : String → Option String) : Prop := v' = v

theorem fixed_refl (v : String → Option String) : fixed v v := rfl

theorem fixed_trans (v₁ v₂ v₃ : String → Option String) (h : fixed v₁ v₂) (h' : fixed v₂ v₃) :
    fixed v₁ v₃ := h'.trans h

/-- Redis and the webhooks answer, and nobody cancels a task. -/
def faultless (q : Req Ir) (w : World Ir) (r : Except Exn q.Reply) : Prop :=
  undisturbed q w r ∧ (q.call.is_webhook = true → ∃ v, r = .ok v)

theorem faultless_ok (q : Req Ir) (w : World Ir) (v : q.Reply) : faultless q w (.ok v) :=
  ⟨undisturbed_ok q w v, fun _ => ⟨v, rfl⟩⟩

/-- The operations of a handler whose job is not cancelled while it runs. -/
def Call.certain : Call Ir → Bool
  | .hget _ _ | .hset _ _ | .get _ | .xack _ | .wait _ _ => true
  | c => c.is_webhook

theorem Call.prompt_of_certain {c : Call Ir} (hc : c.certain = true) : c.prompt = true := by
  cases c <;> first | rfl | cases hc

/-- They are answered normally. -/
theorem faultless.ok {q : Req Ir} {r : Except Exn q.Reply} (h : faultless q w r)
    (hq : q.call.certain = true) (ha : answers node q w r w') : ∃ v, r = .ok v := by
  obtain ⟨msg, c⟩ := q
  cases r with
  | ok v => exact ⟨v, rfl⟩
  | error e =>
      cases c with
      | wait k timed_out =>
          -- only a cancellation could interrupt it
          obtain ⟨he, -⟩ := answers_error.1 ha
          obtain ⟨k', hk'⟩ := h.1.2 (congrArg Except.error he)
          cases hk'
      | hget key field => exact h.1.1.ok rfl (by simp)
      | hset key mapping => exact h.1.1.ok rfl (by simp)
      | get key => exact h.1.1.ok rfl (by simp)
      | xack id => exact h.1.1.ok rfl (by simp)
      | send_result url payload => exact h.2 rfl
      | send_error url j text => exact h.2 rfl
      | _ => cases hq

/-! ## The code that has a job in hand -/

/-- The cancel keys that are set. -/
def World.cancels (w : World Ir) (job_id : String) : Bool := (w.values (cancel_key job_id)).isSome

/-- What a step in the handling of the message and its job does to the ledger. -/
inductive Booking (m : Message) (job_id : String) : (Ledger Ir → Ledger Ir) → Prop
  | still : Booking m job_id id
  | write (st : String) : Booking m job_id (·.write job_id st)
  | post (c : Call Ir) : Booking m job_id (·.post job_id c)
  | ack : Booking m job_id (·.ack m.id)

/-- What a proof needs to keep the books of a job: `I b` says that the ledger is `b`, as far as
the job and its message go. -/
structure Books (K : Contract (World Ir) (@Req.Reply Ir) Exn) (node : Node Ir) (s : World Ir)
    (m : Message) (job_id : String) (I : Ledger Ir → World Ir → Prop) : Prop where
  pre : ∀ c b w, Call.certain c = true → I b w → K.pre ⟨some m, c⟩ w
  answer : ∀ q w r w', K.answer q w r w' → answers node q w r w' ∧ faultless q w r
  rely : ∀ b w w', I b w → K.rely w w' → I b w'
  values : ∀ b w, I b w → w.values = s.values
  account : ∀ b w, I b w → w.ledger.account job_id = b.account job_id
  move : ∀ f e b w w', Booking m job_id f → I b w → Turn job_id e w w' → w'.ledger = f w.ledger →
    K.keep w w' ∧ I (f b) w'

namespace Books

variable {K : Contract (World Ir) (@Req.Reply Ir) Exn} {I : Ledger Ir → World Ir → Prop}
variable (hI : Books K node s m job_id I)
include hI

theorem wp_look {α : Type} (g : World Ir → α) (h : I b w) :
    K.wp (Co.look g : Prog Ir α) (fun r w' => (∃ a, r = .ok a) ∧ I b w') w :=
  (Contract.wp_look _ _ _).2 ⟨(hI.move _ _ b w w .still h (.refl _ w) rfl).1, ⟨_, rfl⟩, h⟩

/-- An operation, with what it does to the ledger. -/
theorem wp_on {f : Ledger Ir → Ledger Ir} (hf : Booking m job_id f) {c : Call Ir}
    (hc : c.certain = true) (hj : c.about job_id) (h : I b w) {P : c.Reply → Prop}
    (hP : ∀ w₁ v w₂, I b w₁ → performs node c w₁ v w₂ →
      P v ∧ (w₂.record (.ended ⟨some m, c⟩ true (.ok v))).ledger = f w₁.ledger) :
    K.wp (on m c) (fun r w' => (∃ v, r = .ok v ∧ P v) ∧ I (f b) w') w := by
  refine (Contract.wp_call _ _ _).2 ⟨hI.pre c b w hc h, fun w₁ hr r w₂ ha => ?_⟩
  have h₁ := hI.rely b w w₁ h hr
  obtain ⟨hans, hfault⟩ := hI.answer _ _ _ _ ha
  obtain ⟨v, rfl⟩ := hfault.ok hc hans
  obtain ⟨took, -, hturn⟩ := Turn.of_answers (Call.prompt_of_certain hc) hj hans
  obtain ⟨w₃, hperf, rfl⟩ := answers_ok.1 hans
  obtain ⟨hv, hledger⟩ := hP w₁ v w₃ h₁ hperf
  obtain ⟨hk, h₂⟩ := hI.move f _ b w₁ _ hf h₁ hturn hledger
  exact ⟨hk, ⟨v, rfl, hv⟩, h₂⟩

/-- An operation that the ledger does not show. -/
theorem wp_quiet {c : Call Ir} (hc : c.certain = true) (hj : c.about job_id)
    (hacks : ∀ id, c.acks id = false) (h : I b w) {P : c.Reply → Prop}
    (hP : ∀ w₁ v w₂, I b w₁ → performs node c w₁ v w₂ → P v ∧ w₂.ledger = w₁.ledger) :
    K.wp (on m c) (fun r w' => (∃ v, r = .ok v ∧ P v) ∧ I b w') w :=
  hI.wp_on .still hc hj h fun w₁ v w₂ h₁ hperf =>
    (hP w₁ v w₂ h₁ hperf).imp_right fun hledger => (World.ledger_ended hacks).trans hledger

theorem wp_has_cancel_signal (h : I b w) :
    K.wp (has_cancel_signal m job_id : Prog Ir Bool)
      (fun r w' => r = .ok (s.cancels job_id) ∧ I b w') w := by
  refine (Contract.wp_bind _ _ _ _).2 (Contract.wp_mono
    (hI.wp_quiet (c := .get (cancel_key job_id)) (P := fun v => v = s.values (cancel_key job_id))
      rfl trivial (fun _ => rfl) h ?_) ?_)
  · rintro w₁ v w₂ h₁ ⟨rfl, rfl⟩
    exact ⟨by rw [hI.values b w₂ h₁], rfl⟩
  · rintro r w' ⟨⟨v, rfl, rfl⟩, h'⟩
    exact ⟨rfl, h'⟩

theorem wp_get_job_status (h : I b w) :
    K.wp (get_job_status m job_id : Prog Ir (Option String))
      (fun r w' => r = .ok (b.account job_id).state ∧ I b w') w := by
  refine Contract.wp_mono (hI.wp_quiet (c := .hget (status_key job_id) "state")
    (P := fun v => v = (b.account job_id).state) rfl trivial (fun _ => rfl) h ?_) ?_
  · rintro w₁ v w₂ h₁ ⟨rfl, rfl⟩
    exact ⟨congrArg Account.state (hI.account b w₂ h₁), rfl⟩
  · rintro r w' ⟨⟨v, rfl, rfl⟩, h'⟩
    exact ⟨rfl, h'⟩

theorem wp_safe_hset {mapping : List (String × String)} {st : String}
    (hst : record_state mapping = some st) (h : I b w) :
    K.wp (safe_hset m (status_key job_id) mapping : Prog Ir Bool)
      (fun r w' => r = .ok true ∧ I (b.write job_id st) w') w := by
  refine (Contract.wp_try_except _ _ _ _).2 ((Contract.wp_bind _ _ _ _).2 (Contract.wp_mono
    (hI.wp_on (.write st) (c := .hset (status_key job_id) mapping) (P := fun _ => True)
      rfl rfl h ?_) ?_))
  · rintro w₁ v w₂ h₁ rfl
    exact ⟨trivial, (World.ledger_ended fun _ => rfl).trans (World.ledger_hset hst)⟩
  · rintro r w' ⟨⟨v, rfl, -⟩, h'⟩
    exact ⟨rfl, h'⟩

theorem wp_safe_xack (h : I b w) :
    K.wp (safe_xack m : Prog Ir Bool) (fun r w' => r = .ok true ∧ I (b.ack m.id) w') w := by
  refine (Contract.wp_try_except _ _ _ _).2 ((Contract.wp_bind _ _ _ _).2 (Contract.wp_mono
    (hI.wp_on .ack (c := .xack m.id) (P := fun _ => True) rfl trivial h ?_) ?_))
  · rintro w₁ v w₂ h₁ rfl
    exact ⟨trivial, World.ledger_acked⟩
  · rintro r w' ⟨⟨v, rfl, -⟩, h'⟩
    exact ⟨rfl, h'⟩

theorem wp_mark_job_cancelled (h : I b w) :
    K.wp (mark_job_cancelled node m job_id)
      (fun r w' => r = .ok () ∧ I (b.write job_id "cancelled") w') w := by
  refine (Contract.wp_bind _ _ _ _).2 (Contract.wp_mono (hI.wp_look _ h) ?_)
  rintro r w₁ ⟨⟨cancelled_at, rfl⟩, h₁⟩
  refine (Contract.wp_bind _ _ _ _).2 (Contract.wp_mono
    (hI.wp_safe_hset (record_state_cancelled node m cancelled_at) h₁) ?_)
  rintro r w₂ ⟨rfl, h₂⟩
  exact ⟨rfl, h₂⟩

/-- A webhook for the job. -/
theorem wp_post {c : Call Ir} (hc : c.is_webhook = true) (hj : c.about job_id) (h : I b w) :
    K.wp (do Co.update (·.record (.started ⟨some m, c⟩)); on m c : Prog Ir c.Reply)
      (fun r w' => (∃ v, r = .ok v) ∧ I (b.post job_id c) w') w := by
  have hcertain : c.certain = true := by
    cases c <;> first | rfl | cases hc
  have hacks : ∀ id, c.acks id = false := by
    cases c <;> first | exact fun _ => rfl | cases hc
  have hreports : ∀ j, c.reports j = (j == job_id) := by
    intro j
    cases c with
    | send_result url payload =>
        have hpayload : payload.job_id = job_id := hj
        rw [← hpayload]
        exact Bool.beq_comm
    | send_error url j' text =>
        have hj' : j' = job_id := hj
        rw [← hj']
        exact Bool.beq_comm
    | _ => cases hc
  obtain ⟨hk, h'⟩ := hI.move _ _ b w _ (.post c) h (Turn.of_started hj w)
    (World.ledger_started hreports)
  refine (Contract.wp_bind _ _ _ _).2 ((Contract.wp_update _ _ _).2 ⟨hk, ?_⟩)
  refine Contract.wp_mono (hI.wp_quiet (P := fun _ => True) hcertain hj hacks h' ?_) ?_
  · intro w₁ v w₂ h₁ hperf
    have hw : w₂ = w₁ := by
      cases c <;> first | exact hperf | cases hc
    exact ⟨trivial, hw ▸ rfl⟩
  · rintro r w' ⟨⟨v, rfl, -⟩, h'⟩
    exact ⟨⟨v, rfl⟩, h'⟩

end Books

/-! ## A coroutine by itself -/

/-- The keys and the tasks are those of `s`, and this is the ledger. -/
structure Sits (s : World Ir) (b : Ledger Ir) (w : World Ir) : Prop where
  values : w.values = s.values
  tasks : w.tasks = s.tasks
  pending : w.self.pending_batch_delivery = s.self.pending_batch_delivery
  ledger : w.ledger = b

/-- The contract leaves the ledger to the coroutine. -/
structure Solitary (K : Contract (World Ir) (@Req.Reply Ir) Exn) (node : Node Ir)
    (s : World Ir) : Prop where
  pre : ∀ m c b w, Call.certain c = true → Sits s b w → K.pre ⟨some m, c⟩ w
  answer : ∀ q w r w', K.answer q w r w' → answers node q w r w' ∧ faultless q w r
  rely : ∀ b w w', Sits s b w → K.rely w w' → Sits s b w'
  keep : ∀ b b' w w', Sits s b w → Sits s b' w' → w.log <:+ w'.log → K.keep w w'

theorem Sits.of_log (h : Sits s b w) (hvalues : w'.values = w.values) (htasks : w'.tasks = w.tasks)
    (hpending : w'.self.pending_batch_delivery = w.self.pending_batch_delivery)
    (hhashes : w'.hashes = w.hashes) (hlog : w'.log = w.log) : Sits s b w' :=
  ⟨hvalues.trans h.values, htasks.trans h.tasks, hpending.trans h.pending,
    (World.ledger_of_log hhashes hlog).trans h.ledger⟩

/-- The updates that the ledger does not show. -/
inductive Unlisted : (World Ir → World Ir) → Prop
  | mark (x : Mark) : Unlisted (·.record (.mark x))
  | begin_call (s : Start) : Unlisted (·.starts s)
  | enter (r : Region) : Unlisted (·.enter r)
  | self (f : Attributes → Attributes)
      (hf : ∀ a, (f a).pending_batch_delivery = a.pending_batch_delivery) : Unlisted (·.set_self f)
  | exec (f : Exec → Exec) : Unlisted (·.set_exec f)

theorem Unlisted.sits {f : World Ir → World Ir} (hf : Unlisted f) (h : Sits s b w) :
    Sits s b (f w) := by
  have hmark : ∀ x, Sits s b (w.record (.mark x)) := fun x =>
    ⟨h.values, h.tasks, h.pending, (w.ledger_mark x).trans h.ledger⟩
  cases hf with
  | mark x => exact hmark x
  | begin_call s => exact hmark _
  | enter r => exact h.of_log rfl rfl rfl rfl rfl
  | self f hf => exact h.of_log rfl rfl (hf w.self) rfl rfl
  | exec f => exact h.of_log rfl rfl rfl rfl rfl

theorem Unlisted.log {f : World Ir → World Ir} (hf : Unlisted f) (w : World Ir) :
    w.log <:+ (f w).log := by
  cases hf <;> first | exact List.suffix_refl _ | exact ⟨[_], rfl⟩

namespace Solitary

variable {K : Contract (World Ir) (@Req.Reply Ir) Exn}
variable (hK : Solitary K node s)
include hK

/-- It keeps the books of every job. -/
theorem books (m : Message) (job_id : String) : Books K node s m job_id (Sits s) where
  pre := hK.pre m
  answer := hK.answer
  rely := hK.rely
  values _ _ h := h.values
  account _ _ h := by rw [h.ledger]
  move f e b w w' _ h ht hledger := by
    have h' : Sits s (f b) w' :=
      ⟨ht.values.trans h.values, ht.tasks.trans h.tasks, ht.pending.trans h.pending,
        by rw [hledger, h.ledger]⟩
    exact ⟨hK.keep _ _ _ _ h h' ht.log, h'⟩

theorem wp_unlisted {f : World Ir → World Ir} (hf : Unlisted f) (h : Sits s b w) :
    K.wp (Co.update f : Prog Ir Unit) (fun r w' => r = .ok () ∧ Sits s b w') w :=
  (Contract.wp_update _ _ _).2 ⟨hK.keep _ _ _ _ h (hf.sits h) (hf.log w), rfl, hf.sits h⟩

end Solitary

end CodaNode
