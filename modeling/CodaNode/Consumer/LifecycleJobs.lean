/-
`Consumer/LifecycleJobs.lean` -- the code that has a job in hand follows the job's life.

A `Turn` is a step that brings at most one event for one job. `Hands` is what a proof needs of
a contract to carry a phase through such steps; the rules below are the methods of
`Consumer/Handler.lean`, each from the phase it starts in to the phase it ends in.
-/
import CodaNode.Consumer.Crew

set_option autoImplicit false

open Coroutine

namespace CodaNode

variable {Ir : Type} {node : Node Ir} {w w' : World Ir} {m : Message} {job_id url : String}
variable {α : Type} {e : Option JobEvent} {p q : Phase}

/-! ## Turns -/

/-- A step that brings at most one event for the job, and leaves the rest alone. -/
structure Turn (job_id : String) (e : Option JobEvent) (w w' : World Ir) : Prop where
  course : w'.course job_id = e.toList ++ w.course job_id
  state : w'.state job_id = (e.bind JobEvent.state).or (w.state job_id)
  others : ∀ j, j ≠ job_id → w'.file j = w.file j
  values : w'.values = w.values
  tasks : w'.tasks = w.tasks
  pending : w'.self.pending_batch_delivery = w.self.pending_batch_delivery
  current : w'.self.current_job_id = w.self.current_job_id
  log : w.log <:+ w'.log

/-- The phase after the event, if there is one. -/
def Phase.leads (p : Phase) (e : Option JobEvent) (q : Phase) : Prop :=
  match e with
  | none => q = p
  | some e => lifecycle.step p e = some q

theorem Turn.at {st : Option String} (h : Turn job_id e w w') (hp : (w.file job_id).At st p)
    (hq : p.leads e q) : (w'.file job_id).At st q := by
  have hfile : w'.file job_id =
      ⟨(e.bind JobEvent.state).or (w.state job_id), e.toList ++ w.course job_id⟩ := by
    rw [World.file, h.state, h.course]
  rw [hfile]
  cases e with
  | none =>
      obtain rfl : q = p := hq
      exact hp
  | some e => exact hp.step hq

/-- A step that is about no job. -/
theorem Turn.of_same (hfiles : w.SameFiles w') (hvalues : w'.values = w.values)
    (htasks : w'.tasks = w.tasks)
    (hpending : w'.self.pending_batch_delivery = w.self.pending_batch_delivery)
    (hcurrent : w'.self.current_job_id = w.self.current_job_id) (hlog : w.log <:+ w'.log) :
    Turn job_id none w w' :=
  ⟨congrArg File.course (hfiles job_id), congrArg File.state (hfiles job_id), fun j _ => hfiles j,
    hvalues, htasks, hpending, hcurrent, hlog⟩

theorem Turn.refl (job_id : String) (w : World Ir) : Turn job_id none w w :=
  .of_same (.refl w) rfl rfl rfl rfl (List.suffix_refl _)

/-- A step that is a turn without an event. -/
def Silent (f : World Ir → World Ir) : Prop := ∀ job_id w, Turn job_id none w (f w)

theorem Silent.of_fields {f : World Ir → World Ir} (hhashes : ∀ w, (f w).hashes = w.hashes)
    (hvalues : ∀ w, (f w).values = w.values) (htasks : ∀ w, (f w).tasks = w.tasks)
    (hpending : ∀ w, (f w).self.pending_batch_delivery = w.self.pending_batch_delivery)
    (hcurrent : ∀ w, (f w).self.current_job_id = w.self.current_job_id)
    (hlog : ∀ w, (f w).log = w.log) : Silent f := fun _ w =>
  .of_same (.of_log (hhashes w) (hlog w)) (hvalues w) (htasks w) (hpending w) (hcurrent w)
    ⟨[], (hlog w).symm⟩

theorem Silent.mark (x : Mark) : Silent (fun w : World Ir => w.record (.mark x)) := fun _ _ =>
  .of_same (.of_line rfl rfl fun _ => rfl) rfl rfl rfl rfl ⟨[_], rfl⟩

theorem Silent.starts (s : Start) : Silent (fun w : World Ir => w.starts s) := fun job_id w =>
  Silent.mark (.starting s w.exec.active w.unfinished) job_id w

theorem Silent.set_exec (f : Exec → Exec) : Silent (fun w : World Ir => w.set_exec f) :=
  .of_fields (fun _ => rfl) (fun _ => rfl) (fun _ => rfl) (fun _ => rfl) (fun _ => rfl) fun _ => rfl

theorem Silent.enter (r : Region) : Silent (fun w : World Ir => w.enter r) :=
  .of_fields (fun _ => rfl) (fun _ => rfl) (fun _ => rfl) (fun _ => rfl) (fun _ => rfl) fun _ => rfl

theorem Silent.last_job_at (s : String) :
    Silent (fun w : World Ir => w.set_self ({ · with last_job_at := some s })) :=
  .of_fields (fun _ => rfl) (fun _ => rfl) (fun _ => rfl) (fun _ => rfl) (fun _ => rfl) fun _ => rfl

theorem Silent.runs : Runs (Silent : (World Ir → World Ir) → Prop) where
  look _ w := .refl _ w
  starts := Silent.starts
  exec := Silent.set_exec
  last_job_at := Silent.last_job_at

theorem Silent.files {f : World Ir → World Ir} (hf : Silent f) (w : World Ir) : w.SameFiles (f w) := by
  intro j
  have hturn := hf j w
  rw [World.file, World.file, hturn.course, hturn.state]
  rfl

/-! ## Operations -/

/-- The operation writes or reports no other job. -/
def Call.about (job_id : String) : Call Ir → Prop
  | .hset key _ => key = status_key job_id
  | .send_result _ payload => payload.job_id = job_id
  | .send_error _ j _ => j = job_id
  | _ => True

/-- The operation neither writes nor reports. -/
def Call.plain : Call Ir → Bool
  | .hset _ _ | .send_result _ _ | .send_error _ _ _ => false
  | _ => true

theorem Call.about_of_plain {c : Call Ir} (hc : c.plain = true) : c.about job_id := by
  cases c <;> trivial

theorem Call.closes_of_plain {c : Call Ir} (hc : c.plain = true) (took ok : Bool) :
    c.closes job_id took ok = none := by
  cases c <;> first | rfl | cases hc

/-- The end of the operation is nothing for another job. -/
theorem Call.closes_of_about {c : Call Ir} (hc : c.about job_id) {j : String} (hj : j ≠ job_id)
    (took ok : Bool) : c.closes j took ok = none := by
  cases c with
  | hset key mapping =>
      obtain rfl : key = status_key job_id := hc
      exact if_neg fun h => hj (status_key_inj.1 h.2).symm
  | send_result url payload =>
      obtain rfl : payload.job_id = job_id := hc
      exact if_neg hj.symm
  | send_error url j' text =>
      obtain rfl : j' = job_id := hc
      exact if_neg hj.symm
  | _ => rfl

/-- What an operation of a handler does to the status hashes. -/
theorem hashes_of_answers {c : Call Ir} {r : Except Exn c.Reply} (hc : c.prompt = true)
    (hset : ∀ key mapping, c ≠ .hset key mapping) (h : answers node ⟨some m, c⟩ w r w') :
    w'.hashes = w.hashes := by
  cases c with
  | hset key mapping => exact absurd rfl (hset key mapping)
  | xack id =>
      rcases h with ⟨v, w₁, hp, -, rfl⟩ | ⟨e, -, -, -, rfl⟩ | ⟨e, v, w₁, -, -, hp, -, rfl⟩
      · cases hp; rfl
      · rfl
      · cases hp; rfl
  | _ => first | exact (Heard.of_answers rfl h).hashes | cases hc

/-- What a line says of each state makes the step a turn. -/
theorem Turn.of_line {c : Call Ir} {took : Bool} {r : Except Exn c.Reply} (hc : c.about job_id)
    (ha : Answered ⟨some m, c⟩ r w w')
    (hlog : w'.log = ⟨.ended ⟨some m, c⟩ took r, w.values, w.region⟩ :: w.log)
    (hstate : ∀ j, w'.state j =
      ((c.closes j took (answered_ok r)).bind JobEvent.state).or (w.state j)) :
    Turn job_id (c.closes job_id took (answered_ok r)) w w' where
  course := World.course_cons hlog
  state := hstate job_id
  others j hj := by
    have hnone : c.closes j took (answered_ok r) = none := Call.closes_of_about hc hj _ _
    refine World.file_of_line ?_ hlog hnone
    rw [hstate j, hnone]
    rfl
  values := ha.values
  tasks := ha.tasks
  pending := by rw [ha.self]
  current := by rw [ha.self]
  log := ha.grows

theorem Call.closes_hset {key : String} {mapping : List (String × String)} {took ok : Bool} :
    (Call.hset key mapping : Call Ir).closes job_id took ok =
      if took ∧ key = status_key job_id then (record_state mapping).map .wrote else none := rfl

/-- A write that took effect, or did not. -/
theorem state_of_hset (took ok : Bool) (mapping : List (String × String)) (w : World Ir)
    (j : String) : (if took then w.hset (status_key job_id) mapping else w).state j =
      (((Call.hset (status_key job_id) mapping : Call Ir).closes j took ok).bind
        JobEvent.state).or (w.state j) := by
  rw [Call.closes_hset]
  cases took with
  | false => rfl
  | true =>
      rw [if_pos rfl, World.state_hset]
      by_cases hj : j = job_id
      · subst hj
        rw [if_pos rfl, if_pos ⟨rfl, rfl⟩]
        cases record_state mapping <;> rfl
      · rw [if_neg hj, if_neg fun h => hj (status_key_inj.1 h.2).symm]
        rfl

/-- **An operation of the code that has a job in hand is a turn.** -/
theorem Turn.of_answers {c : Call Ir} {r : Except Exn c.Reply} (hc : c.prompt = true)
    (hj : c.about job_id) (h : answers node ⟨some m, c⟩ w r w') :
    ∃ took, (answered_ok r = true → took = true) ∧
      Turn job_id (c.closes job_id took (answered_ok r)) w w' := by
  have ha := Answered.of_answers h
  by_cases hset : ∃ key mapping, c = .hset key mapping
  · obtain ⟨key, mapping, rfl⟩ := hset
    obtain rfl : key = status_key job_id := hj
    have hj' : (Call.hset (status_key job_id) mapping : Call Ir).about job_id := rfl
    rcases h with ⟨v, w₁, hp, rfl, rfl⟩ | ⟨e, -, -, rfl, rfl⟩ | ⟨e, v, w₁, -, -, hp, rfl, rfl⟩
    · cases hp
      exact ⟨true, fun _ => rfl, .of_line hj' ha rfl (state_of_hset true _ mapping w)⟩
    · exact ⟨false, (fun hok => by cases hok), .of_line hj' ha rfl (state_of_hset false _ mapping w)⟩
    · cases hp
      exact ⟨true, fun _ => rfl, .of_line hj' ha rfl (state_of_hset true _ mapping w)⟩
  · have hhashes := hashes_of_answers hc (fun key mapping he => hset ⟨key, mapping, he⟩) h
    have hstate : ∀ took j, w'.state j =
        ((c.closes j took (answered_ok r)).bind JobEvent.state).or (w.state j) := by
      intro took j
      have hnone : (c.closes j took (answered_ok r)).bind JobEvent.state = none := by
        cases c with
        | hset key mapping => exact absurd ⟨key, mapping, rfl⟩ hset
        | send_result url payload => simp only [Call.closes]; split <;> rfl
        | send_error url j' text => simp only [Call.closes]; split <;> rfl
        | _ => rfl
      rw [hnone, World.state, World.state, hhashes]
      rfl
    obtain ⟨took, hl⟩ := ha.log
    refine ⟨took, fun hok => ?_, .of_line hj ha hl (hstate took)⟩
    cases r with
    | error e => cases hok
    | ok v =>
        obtain ⟨w₁, hp, rfl⟩ := answers_ok.1 h
        have hev := (List.cons.inj hl).1
        rw [Entry.mk.injEq, Event.ended.injEq] at hev
        exact hev.1.2.1.symm

theorem Call.opens_of_about {c : Call Ir} (hc : c.about job_id) {j : String} (hj : j ≠ job_id) :
    c.opens j = none := by
  cases c with
  | send_result url payload =>
      obtain rfl : payload.job_id = job_id := hc
      exact if_neg hj.symm
  | send_error url j' text =>
      obtain rfl : j' = job_id := hc
      exact if_neg hj.symm
  | _ => rfl

/-- So is the beginning of a webhook. -/
theorem Turn.of_started {m : Option Message} {c : Call Ir} (hc : c.about job_id) (w : World Ir) :
    Turn job_id (c.opens job_id) w (w.record (.started ⟨m, c⟩)) where
  course := World.course_cons (w.record_log (.started ⟨m, c⟩))
  state := by
    have hnone : (c.opens job_id).bind JobEvent.state = none := by
      cases c with
      | send_result url payload => simp only [Call.opens]; split <;> rfl
      | send_error url j text => simp only [Call.opens]; split <;> rfl
      | _ => rfl
    rw [hnone]
    rfl
  others _ hj := World.file_of_line rfl rfl (Call.opens_of_about hc hj)
  values := rfl
  tasks := rfl
  pending := rfl
  current := rfl
  log := ⟨[_], rfl⟩

/-! ## A job in hand -/

/-- What a proof needs to carry the phase of a job through the code that has it in hand: `I p`
says that the job is in the phase `p`, and the code may bring it to the phases of `G`. -/
structure Hands (K : Contract (World Ir) (@Req.Reply Ir) Exn) (node : Node Ir) (m : Message)
    (job_id : String) (G : Phase → Bool) (I : Phase → World Ir → Prop) : Prop where
  pre : ∀ c p w, Call.prompt c = true → I p w → K.pre ⟨some m, c⟩ w
  answer : ∀ c w r w', K.answer ⟨some m, c⟩ w r w' →
    answers node ⟨some m, c⟩ w r w' ∧ redis_up ⟨some m, c⟩ w r
  rely : ∀ p w w', I p w → K.rely w w' → I p w'
  shows : ∀ p w, I p w → p.shows (w.state job_id)
  turn : ∀ p e q w w', I p w → Turn job_id e w w' → p.leads e q → G q = true →
    K.keep w w' ∧ I q w'

namespace Hands

variable {K : Contract (World Ir) (@Req.Reply Ir) Exn} {G : Phase → Bool}
variable {I : Phase → World Ir → Prop} (hI : Hands K node m job_id G I)
include hI

/-- An operation that is about the job or about none. -/
theorem wp_on {c : Call Ir} (hc : c.prompt = true) (hj : c.about job_id) (h : I p w)
    {Q : Except Exn c.Reply → World Ir → Prop}
    (hQ : ∀ w₁ r w', I p w₁ → answers node ⟨some m, c⟩ w₁ r w' → redis_up ⟨some m, c⟩ w₁ r →
      ∀ took, (answered_ok r = true → took = true) →
        ∃ q, p.leads (c.closes job_id took (answered_ok r)) q ∧ G q = true ∧ (I q w' → Q r w')) :
    K.wp (on m c) Q w := by
  refine (Contract.wp_call _ _ _).2 ⟨hI.pre c p w hc h, fun w₁ hr r w' ha => ?_⟩
  have h₁ := hI.rely p w w₁ h hr
  obtain ⟨hans, hup⟩ := hI.answer c w₁ r w' ha
  obtain ⟨took, htook, hturn⟩ := Turn.of_answers hc hj hans
  obtain ⟨q, hleads, hG, hQ'⟩ := hQ w₁ r w' h₁ hans hup took htook
  obtain ⟨hk, hq⟩ := hI.turn p _ q w₁ w' h₁ hturn hleads hG
  exact ⟨hk, hQ' hq⟩

/-- An operation that neither writes nor reports. -/
theorem wp_plain {c : Call Ir} (hc : c.prompt = true) (hp : c.plain = true) (hG : G p = true)
    (h : I p w) {Q : Except Exn c.Reply → World Ir → Prop}
    (hQ : ∀ w₁ r w', I p w₁ → answers node ⟨some m, c⟩ w₁ r w' → redis_up ⟨some m, c⟩ w₁ r →
      I p w' → Q r w') : K.wp (on m c) Q w := by
  refine hI.wp_on hc (Call.about_of_plain hp) h fun w₁ r w' h₁ hans hup took _ => ?_
  refine ⟨p, ?_, hG, hQ w₁ r w' h₁ hans hup⟩
  rw [Call.closes_of_plain hp]
  rfl

theorem wp_still {f : World Ir → World Ir} (hf : Silent f) (hG : G p = true) (h : I p w) :
    K.wp (Co.update f : Prog Ir Unit) (fun r w' => r = .ok () ∧ I p w') w := by
  obtain ⟨hk, h'⟩ := hI.turn p none p w (f w) h (hf job_id w) rfl hG
  exact ⟨hk, rfl, h'⟩

theorem wp_look {g : World Ir → α} (hG : G p = true) (h : I p w) :
    K.wp (Co.look g : Prog Ir α) (fun r w' => (∃ a, r = .ok a) ∧ I p w') w :=
  ⟨(hI.turn p none p w w h (.refl _ w) rfl hG).1, ⟨_, rfl⟩, h⟩

theorem wp_check (hG : G p = true) (h : I p w) :
    K.wp (has_cancel_signal m job_id : Prog Ir Bool)
      (fun r w' => (∃ b, r = .ok b) ∧ I p w') w := by
  refine (Contract.wp_bind _ _ _ _).2
    (hI.wp_plain rfl rfl hG h fun w₁ r w' _ _ hup h' => ?_)
  obtain ⟨v, rfl⟩ := hup.ok rfl (by simp)
  exact ⟨⟨_, rfl⟩, h'⟩

theorem wp_status (hG : G p = true) (h : I p w) :
    K.wp (get_job_status m job_id : Prog Ir (Option String))
      (fun r w' => (∃ st, r = .ok st ∧ p.shows st) ∧ I p w') w := by
  refine hI.wp_plain rfl rfl hG h fun w₁ r w' h₁ hans hup h' => ?_
  obtain ⟨st, rfl⟩ := hup.ok rfl (by simp)
  obtain ⟨w₂, ⟨hst, rfl⟩, -⟩ := answers_ok.1 hans
  refine ⟨⟨st, rfl, ?_⟩, h'⟩
  rw [hst]
  exact hI.shows p _ h₁

theorem wp_xack (hG : G p = true) (h : I p w) :
    K.wp (safe_xack m : Prog Ir Bool) (fun r w' => (∃ b, r = .ok b) ∧ I p w') w := by
  refine (Contract.wp_try_except _ _ _ _).2 ((Contract.wp_bind _ _ _ _).2
    (hI.wp_plain rfl rfl hG h fun w₁ r w' _ _ hup h' => ?_))
  obtain ⟨v, rfl⟩ := hup.ok rfl (by simp)
  exact ⟨⟨true, rfl⟩, h'⟩

/-- A status record is written. -/
theorem wp_write {mapping : List (String × String)} {st : String}
    (hst : record_state mapping = some st) (hstep : lifecycle.step p (.wrote st) = some q)
    (hG : G q = true) (h : I p w) :
    K.wp (safe_hset m (status_key job_id) mapping : Prog Ir Bool)
      (fun r w' => (∃ b, r = .ok b) ∧ I q w') w := by
  have hj : (Call.hset (status_key job_id) mapping : Call Ir).about job_id := rfl
  refine (Contract.wp_try_except _ _ _ _).2 ((Contract.wp_bind _ _ _ _).2
    (hI.wp_on rfl hj h fun w₁ r w' _ _ hup took htook => ?_))
  obtain ⟨v, rfl⟩ := hup.ok rfl (by simp)
  refine ⟨q, ?_, hG, fun h' => ⟨⟨true, rfl⟩, h'⟩⟩
  rw [htook rfl, Call.closes_hset, if_pos ⟨rfl, rfl⟩, hst]
  exact hstep

theorem wp_mark_job_cancelled (hstep : lifecycle.step p (.wrote "cancelled") = some .cancelled)
    (hp : G p = true) (hG : G .cancelled = true) (h : I p w) :
    K.wp (mark_job_cancelled node m job_id)
      (fun r w' => r = .ok () ∧ I .cancelled w') w := by
  refine (Contract.wp_bind _ _ _ _).2 (Contract.wp_mono (hI.wp_look hp h) ?_)
  rintro r w₁ ⟨⟨now, rfl⟩, h₁⟩
  refine (Contract.wp_bind _ _ _ _).2
    (Contract.wp_mono (hI.wp_write (record_state_cancelled node m now) hstep hG h₁) ?_)
  rintro r w₂ ⟨⟨b, rfl⟩, h₂⟩
  exact ⟨rfl, h₂⟩

/-- The result of a completed job is posted. -/
theorem wp_send_result {payload : WebhookPayload} (hjob : payload.job_id = job_id)
    (hsending : G .sending = true) (hdone : G .done = true) (hunreported : G .unreported = true)
    (h : I .completed w) :
    K.wp (send_result m url payload : Prog Ir Unit) (fun r w' => match r with
      | .ok _ => I .done w'
      | .error _ => I .unreported w') w := by
  have hj : (Call.send_result url payload : Call Ir).about job_id := hjob
  have hopens : (Call.send_result url payload : Call Ir).opens job_id = some (.result_begun url payload) :=
    if_pos hjob
  obtain ⟨hk, h₁⟩ := hI.turn .completed _ .sending w _ h (Turn.of_started (m := some m) hj w)
    (by rw [hopens]; rfl) hsending
  refine (Contract.wp_bind _ _ _ _).2 ⟨hk, ?_⟩
  refine hI.wp_on rfl hj h₁ fun w₂ r w' _ _ _ took _ => ?_
  have hcloses : (Call.send_result url payload : Call Ir).closes job_id took (answered_ok r) =
      some (.result_ended (answered_ok r)) := if_pos hjob
  rw [hcloses]
  cases r with
  | ok v => exact ⟨.done, rfl, hdone, fun h' => h'⟩
  | error e => exact ⟨.unreported, rfl, hunreported, fun h' => h'⟩

/-- The error of a failed job is posted. -/
theorem wp_send_error {text : String} (herroring : G .erroring = true)
    (hwaiting : G .waiting = true) (h : I .failed w) :
    K.wp (send_error m url job_id text : Prog Ir Unit) (fun _ w' => I .waiting w') w := by
  have hj : (Call.send_error url job_id text : Call Ir).about job_id := rfl
  have hopens : (Call.send_error url job_id text : Call Ir).opens job_id = some (.error_begun url text) :=
    if_pos rfl
  obtain ⟨hk, h₁⟩ := hI.turn .failed _ .erroring w _ h (Turn.of_started (m := some m) hj w)
    (by rw [hopens]; rfl) herroring
  refine (Contract.wp_bind _ _ _ _).2 ⟨hk, ?_⟩
  refine hI.wp_on rfl hj h₁ fun w₂ r w' _ _ _ took _ => ?_
  have hcloses : (Call.send_error url job_id text : Call Ir).closes job_id took (answered_ok r) =
      some (.error_ended (answered_ok r)) := if_pos rfl
  rw [hcloses]
  exact ⟨.waiting, rfl, hwaiting, fun h' => h'⟩

/-- While the job runs, nothing happens to it. -/
theorem keeps_run_job {ir : Ir} {shots : Int} (hG : G p = true) :
    K.Keeps (I p) (run_job_with_cancellation node m job_id ir shots) := by
  intro w h
  refine Within.wp (fun q w₁ hq h₁ => ?_) (hI.rely p) (fun f w₁ hf h₁ => ?_)
    (fun q w₁ r w₂ hq h₁ ha => ?_) (polls_run_job (m := m) Silent.runs) h
  · obtain ⟨msg, c⟩ := q
    obtain ⟨rfl, hpolls⟩ := hq
    exact hI.pre c p w₁ (Polls.before ⟨rfl, hpolls⟩).1.2.1 h₁
  · exact hI.turn p none p w₁ (f w₁) h₁ (hf job_id w₁) rfl hG
  · obtain ⟨msg, c⟩ := q
    obtain ⟨rfl, hpolls⟩ := hq
    have hplain : c.plain = true := by cases c <;> first | rfl | cases hpolls
    obtain ⟨took, -, hturn⟩ := Turn.of_answers (Polls.before ⟨rfl, hpolls⟩).1.2.1
      (Call.about_of_plain hplain) (hI.answer c w₁ r w₂ ha).1
    rw [Call.closes_of_plain hplain] at hturn
    exact hI.turn p none p w₁ w₂ h₁ hturn rfl hG

end Hands

/-! ## The handler -/

/-- Where an exception finds the job: only a cancellation of the job finds it completed. -/
def Phase.caught (p : Phase) (e : Exn) : Prop :=
  p = .executing ∨ p = .unreported ∨ p = .completed ∧ e = .job_cancelled

/-- A job in hand may be brought to any phase. -/
abbrev anywhere (_ : Phase) : Bool := true

section Handler

variable {K : Contract (World Ir) (@Req.Reply Ir) Exn} {I : Phase → World Ir → Prop}
variable (hI : Hands K node m job_id anywhere I)
include hI

theorem Hands.wp_execute {decoded : List (String × String)} (h : I .executing w) :
    K.wp (execute node m decoded job_id url) (fun r w' => match r with
      | .ok _ => I .done w'
      | .error e => ∃ p, p.caught e ∧ I p w') w := by
  refine (Contract.wp_bind _ _ _ _).2 ((Contract.wp_of_except _ _ _).2 ?_)
  cases node.parse_job decoded with
  | error e => exact ⟨_, .inl rfl, h⟩
  | ok job =>
      refine (hI.keeps_run_job rfl).wp_bind h (fun e w₁ h₁ => ⟨_, .inl rfl, h₁⟩)
        fun result w₁ h₁ => ?_
      refine (Contract.wp_bind _ _ _ _).2 (Contract.wp_mono (hI.wp_check rfl h₁) ?_)
      rintro r w₂ ⟨⟨b, rfl⟩, h₂⟩
      cases b with
      | true => exact ⟨_, .inl rfl, h₂⟩
      | false =>
          refine (Contract.wp_bind _ _ _ _).2 (Contract.wp_mono (hI.wp_look rfl h₂) ?_)
          rintro r w₃ ⟨⟨completed_at, rfl⟩, h₃⟩
          refine (Contract.wp_bind _ _ _ _).2 (Contract.wp_mono
            (hI.wp_write (record_state_completed completed_at) rfl rfl h₃) ?_)
          rintro r w₄ ⟨⟨b, rfl⟩, h₄⟩
          refine (Contract.wp_bind _ _ _ _).2 (Contract.wp_mono (hI.wp_check rfl h₄) ?_)
          rintro r w₅ ⟨⟨b, rfl⟩, h₅⟩
          cases b with
          | true => exact ⟨_, .inr (.inr ⟨rfl, rfl⟩), h₅⟩
          | false =>
              refine (Contract.wp_bind _ _ _ _).2
                (Contract.wp_mono (hI.wp_send_result rfl rfl rfl rfl h₅) fun r w₆ h₆ => ?_)
              cases r with
              | error e => exact ⟨_, .inr (.inl rfl), h₆⟩
              | ok u =>
                  refine (Contract.wp_bind _ _ _ _).2 (Contract.wp_mono (hI.wp_look rfl h₆) ?_)
                  rintro r w₇ ⟨⟨last_job_at, rfl⟩, h₇⟩
                  refine Contract.wp_mono (hI.wp_still (Silent.last_job_at last_job_at) rfl h₇) ?_
                  rintro r w₈ ⟨rfl, h₈⟩
                  exact h₈

theorem Hands.wp_report_failure {e : Exn} (hp : p = .executing ∨ p = .unreported) (h : I p w) :
    K.wp (report_failure node m job_id url e) (fun _ w' => ∃ q, q.settled = true ∧ I q w') w := by
  have hcancels : lifecycle.step p (.wrote "cancelled") = some .cancelled := by
    rcases hp with rfl | rfl <;> rfl
  have hfails : lifecycle.step p (.wrote "failed") = some .failed := by
    rcases hp with rfl | rfl <;> rfl
  refine (Contract.wp_bind _ _ _ _).2 (Contract.wp_mono (hI.wp_check rfl h) ?_)
  rintro r w₁ ⟨⟨b, rfl⟩, h₁⟩
  cases b with
  | true =>
      refine Contract.wp_mono (hI.wp_mark_job_cancelled hcancels rfl rfl h₁) ?_
      rintro r w₂ ⟨-, h₂⟩
      exact ⟨_, rfl, h₂⟩
  | false =>
      refine (Contract.wp_bind _ _ _ _).2 (Contract.wp_mono (hI.wp_look rfl h₁) ?_)
      rintro r w₂ ⟨⟨failed_at, rfl⟩, h₂⟩
      refine (Contract.wp_bind _ _ _ _).2 (Contract.wp_mono
        (hI.wp_write (record_state_failed e failed_at) hfails rfl h₂) ?_)
      rintro r w₃ ⟨⟨b, rfl⟩, h₃⟩
      refine (Contract.wp_try_except _ _ _ _).2
        (Contract.wp_mono (hI.wp_send_error rfl rfl h₃) fun r w₄ h₄ => ?_)
      cases r with
      | ok u => exact ⟨_, rfl, h₄⟩
      | error e' =>
          -- the exception is swallowed or handed on
          show K.wp (if e' = .cancelled then .raise e' else pure ()) _ w₄
          split <;> exact ⟨_, rfl, h₄⟩

theorem Hands.wp_on_exception {e : Exn} (hp : p.caught e) (h : I p w) :
    K.wp (on_exception node m job_id url e) (fun _ w' => ∃ q, q.settled = true ∧ I q w') w := by
  have hother : e ≠ .job_cancelled → p = .executing ∨ p = .unreported := fun he =>
    hp.imp_right fun h => h.resolve_right fun h => he h.2
  have hfails : ∀ e, (p = .executing ∨ p = .unreported) → K.wp (do
      enter .handler
      report_failure node m job_id url e) (fun _ w' => ∃ q, q.settled = true ∧ I q w') w := by
    intro e hp
    refine (Contract.wp_bind _ _ _ _).2
      (Contract.wp_mono (hI.wp_still (Silent.enter .handler) rfl h) ?_)
    rintro r w₁ ⟨rfl, h₁⟩
    exact hI.wp_report_failure hp h₁
  cases e with
  | cancelled =>
      refine ⟨p, ?_, h⟩
      rcases hother (by simp) with rfl | rfl <;> rfl
  | job_cancelled =>
      have hcancels : lifecycle.step p (.wrote "cancelled") = some .cancelled := by
        rcases hp with rfl | rfl | ⟨rfl, -⟩ <;> rfl
      refine (Contract.wp_bind _ _ _ _).2
        (Contract.wp_mono (hI.wp_still (Silent.enter .handler) rfl h) ?_)
      rintro r w₁ ⟨rfl, h₁⟩
      refine Contract.wp_mono (hI.wp_mark_job_cancelled hcancels rfl rfl h₁) ?_
      rintro r w₂ ⟨-, h₂⟩
      exact ⟨_, rfl, h₂⟩
  | _ => exact hfails _ (hother (by simp))

/-- The `try` statement of `_process_message` leaves the job settled. -/
theorem Hands.wp_handle {decoded : List (String × String)} (h : I .executing w) :
    K.wp (Co.try_except (execute node m decoded job_id url) (on_exception node m job_id url))
      (fun _ w' => ∃ q, q.settled = true ∧ I q w') w := by
  refine (Contract.wp_try_except _ _ _ _).2
    (Contract.wp_mono (hI.wp_execute h) fun r w₁ h₁ => ?_)
  cases r with
  | ok u => exact ⟨_, rfl, h₁⟩
  | error e =>
      obtain ⟨p, hp, h₁⟩ := h₁
      exact hI.wp_on_exception hp h₁

/-- The delivery of one job of a batch leaves it settled. -/
theorem Hands.wp_deliver_single {result : ExecutionResult} {completed_at : String}
    (h : I .executing w) :
    K.wp (deliver_single_batch_result node m job_id url result completed_at)
      (fun _ w' => ∃ q, q.settled = true ∧ I q w') w := by
  have hcancel : ∀ {p : Phase} {w : World Ir},
      lifecycle.step p (.wrote "cancelled") = some .cancelled → I p w →
      K.wp (do
        mark_job_cancelled node m job_id
        let _ ← safe_xack m : Prog Ir Unit) (fun _ w' => ∃ q, q.settled = true ∧ I q w') w := by
    intro p w hstep h
    refine (Contract.wp_bind _ _ _ _).2
      (Contract.wp_mono (hI.wp_mark_job_cancelled hstep rfl rfl h) ?_)
    rintro r w₁ ⟨rfl, h₁⟩
    refine (Contract.wp_bind _ _ _ _).2 (Contract.wp_mono (hI.wp_xack rfl h₁) ?_)
    rintro r w₂ ⟨⟨b, rfl⟩, h₂⟩
    exact ⟨_, rfl, h₂⟩
  refine (Contract.wp_bind _ _ _ _).2 (Contract.wp_mono (hI.wp_check rfl h) ?_)
  rintro r w₁ ⟨⟨b, rfl⟩, h₁⟩
  cases b with
  | true => exact hcancel rfl h₁
  | false =>
      refine (Contract.wp_bind _ _ _ _).2 (Contract.wp_mono
        (hI.wp_write (record_state_completed completed_at) rfl rfl h₁) ?_)
      rintro r w₂ ⟨⟨b, rfl⟩, h₂⟩
      refine (Contract.wp_bind _ _ _ _).2 (Contract.wp_mono (hI.wp_check rfl h₂) ?_)
      rintro r w₃ ⟨⟨b, rfl⟩, h₃⟩
      cases b with
      | true => exact hcancel rfl h₃
      | false =>
          have hsend : K.wp (Co.try_except
              (send_result m url (completed_payload job_id result))
              (fun e => if e = .cancelled then .raise e else pure ()) : Prog Ir Unit)
              (fun _ w' => ∃ q, q.settled = true ∧ I q w') w₃ := by
            refine (Contract.wp_try_except _ _ _ _).2
              (Contract.wp_mono (hI.wp_send_result rfl rfl rfl rfl h₃) fun r w₄ h₄ => ?_)
            cases r with
            | ok u => exact ⟨_, rfl, h₄⟩
            | error e =>
                show K.wp (if e = .cancelled then .raise e else pure ()) _ w₄
                split <;> exact ⟨_, rfl, h₄⟩
          refine (Contract.wp_bind _ _ _ _).2 (Contract.wp_mono hsend ?_)
          rintro r w₄ ⟨q, hq, h₄⟩
          cases r with
          | error e => exact ⟨q, hq, h₄⟩
          | ok u =>
              refine (Contract.wp_bind _ _ _ _).2 (Contract.wp_mono (hI.wp_xack rfl h₄) ?_)
              rintro r w₅ ⟨⟨b, rfl⟩, h₅⟩
              exact ⟨q, hq, h₅⟩

end Handler

end CodaNode
