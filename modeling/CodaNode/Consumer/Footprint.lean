/-
`Consumer/Footprint.lean` -- what the consumer's code touches, whatever the answers.

The synchronous steps of the handlers are `Plain`: they leave Redis, the tasks and the
attributes of the loop alone and write at most one line of the log. Their calls are the
prompt ones, all made for the message in hand. One walk over the code serves every set of
steps that `Permits` what the code does, so that a proof chooses how much it wants to know.
These facts hold at every point of every run, with any faults, because they hold of the
code.
-/
import CodaNode.Consumer.Moves

set_option autoImplicit false

open Coroutine

namespace CodaNode

variable {Ir : Type} {node : Node Ir} {m : Message} {job_id url : String} {α : Type}

/-! ## Steps -/

/-- Every mark but the loop's own. -/
def Mark.local : Mark → Bool
  | lost _ _ => false
  | _ => true

/-- The marks of the code for one message, executor calls apart. -/
def Mark.silent : Mark → Bool
  | handling _ | skipped _ => true
  | _ => false

theorem Mark.local_of_silent {x : Mark} (h : x.silent = true) : x.local = true := by
  cases x <;> first | rfl | cases h

/-- The lines that handlers write without awaiting anything. -/
def Event.minor : Event Ir → Prop
  | .started _ => True
  | .ended _ _ _ => False
  | .mark x => x.local = true

/-- The lines that handlers write without awaiting anything, webhooks apart. -/
def Event.mute : Event Ir → Prop
  | .mark x => x.local = true
  | _ => False

/-- A step that leaves Redis, the tasks and the loop's attributes alone, writes only lines
of `L` and moves between regions by `G`. -/
structure Plain (L : Event Ir → Prop) (G : Region → Region → Prop)
    (f : World Ir → World Ir) : Prop where
  hashes : ∀ w, (f w).hashes = w.hashes
  values : ∀ w, (f w).values = w.values
  pending : ∀ w, (f w).pending = w.pending
  tasks : ∀ w, (f w).tasks = w.tasks
  frame : ∀ w, (f w).frame = w.frame
  shared : ∀ w, (f w).self.running = w.self.running ∧
    (f w).self.redis_healthy = w.self.redis_healthy ∧
    (f w).self.pending_batch_delivery = w.self.pending_batch_delivery
  region : ∀ w, G w.region (f w).region
  log : ∀ w, (f w).log = w.log ∨ ∃ e, L e ∧ (f w).log = ⟨e, w.values, w.region⟩ :: w.log

/-- A plain step, to any region. -/
abbrev Roaming : (World Ir → World Ir) → Prop := Plain Event.minor fun _ _ => True

/-- A plain step that stays where it is, or moves to the `except` clauses. -/
abbrev Staying : (World Ir → World Ir) → Prop :=
  Plain Event.minor fun r r' => r' = r ∨ r' = .handler

/-- A plain step that stays where it is. -/
abbrev Resting : (World Ir → World Ir) → Prop := Plain Event.minor fun r r' => r' = r

/-- A plain step that starts no webhook. -/
abbrev Mute : (World Ir → World Ir) → Prop := Plain Event.mute fun _ _ => True

/-- Attributes that the loop does not read stay apart from those it does. -/
def Sideways (f : Attributes → Attributes) : Prop :=
  ∀ a, (f a).running = a.running ∧ (f a).redis_healthy = a.redis_healthy ∧
    (f a).pending_batch_delivery = a.pending_batch_delivery

namespace Plain

variable {L : Event Ir → Prop} {G : Region → Region → Prop}

theorem id (hG : ∀ r, G r r) : Plain L G (id : World Ir → World Ir) where
  hashes _ := rfl
  values _ := rfl
  pending _ := rfl
  tasks _ := rfl
  frame _ := rfl
  shared _ := ⟨rfl, rfl, rfl⟩
  region w := hG w.region
  log _ := .inl rfl

theorem record (hG : ∀ r, G r r) {e : Event Ir} (he : L e) :
    Plain L G (fun w : World Ir => w.record e) where
  hashes _ := rfl
  values _ := rfl
  pending _ := rfl
  tasks _ := rfl
  frame _ := rfl
  shared _ := ⟨rfl, rfl, rfl⟩
  region w := hG w.region
  log _ := .inr ⟨e, he, rfl⟩

theorem starts (hG : ∀ r, G r r) {s : Start}
    (hL : ∀ s runs tasks, L (.mark (.starting s runs tasks))) :
    Plain L G (fun w : World Ir => w.starts s) where
  hashes _ := rfl
  values _ := rfl
  pending _ := rfl
  tasks _ := rfl
  frame _ := rfl
  shared _ := ⟨rfl, rfl, rfl⟩
  region w := hG w.region
  log _ := .inr ⟨_, hL s _ _, rfl⟩

theorem set_exec (hG : ∀ r, G r r) (f : Exec → Exec) :
    Plain L G (fun w : World Ir => w.set_exec f) where
  hashes _ := rfl
  values _ := rfl
  pending _ := rfl
  tasks _ := rfl
  frame _ := rfl
  shared _ := ⟨rfl, rfl, rfl⟩
  region w := hG w.region
  log _ := .inl rfl

theorem set_self (hG : ∀ r, G r r) {f : Attributes → Attributes} (hf : Sideways f) :
    Plain L G (fun w : World Ir => w.set_self f) where
  hashes _ := rfl
  values _ := rfl
  pending _ := rfl
  tasks _ := rfl
  frame _ := rfl
  shared w := hf w.self
  region w := hG w.region
  log _ := .inl rfl

theorem enter {r : Region} (hG : ∀ r', G r' r) : Plain L G (fun w : World Ir => w.enter r) where
  hashes _ := rfl
  values _ := rfl
  pending _ := rfl
  tasks _ := rfl
  frame _ := rfl
  shared _ := ⟨rfl, rfl, rfl⟩
  region w := hG w.region
  log _ := .inl rfl

theorem mono {L' : Event Ir → Prop} {G' : Region → Region → Prop} {f : World Ir → World Ir}
    (hL : ∀ e, L e → L' e) (hG : ∀ r r', G r r' → G' r r') (h : Plain L G f) :
    Plain L' G' f where
  hashes := h.hashes
  values := h.values
  pending := h.pending
  tasks := h.tasks
  frame := h.frame
  shared := h.shared
  region w := hG _ _ (h.region w)
  log w := (h.log w).imp_right fun ⟨e, he, hl⟩ => ⟨e, hL e he, hl⟩

theorem grows {f : World Ir → World Ir} (h : Plain L G f) (w : World Ir) :
    w.log <:+ (f w).log := by
  rcases h.log w with hl | ⟨e, -, hl⟩
  · exact ⟨[], hl.symm⟩
  · exact ⟨[_], hl.symm⟩

end Plain

/-- A step that leaves the executor and the job in hand alone. -/
def HandsOff (f : World Ir → World Ir) : Prop :=
  ∀ w, (f w).exec = w.exec ∧ (f w).self.current_job_id = w.self.current_job_id

/-- What a delivery does between two awaits, its tasks apart, with lines of `L`. -/
structure Apart (L : Event Ir → Prop) (f : World Ir → World Ir) : Prop where
  plain : Plain L (fun r r' => r' = r) f
  hands_off : HandsOff f

/-- What a task does between two awaits, with lines of `L`. -/
def Delivering (L : Event Ir → Prop) (f : World Ir → World Ir) : Prop :=
  Apart L f ∨ ∃ t, f = fun w => w.create_task t

/-- A set of steps that has room for what a delivery does between two awaits, its webhooks
and its tasks apart. -/
structure Allows (U : (World Ir → World Ir) → Prop) : Prop where
  look : U id
  flags : ∀ f, Sideways f → (∀ a, (f a).current_job_id = a.current_job_id) → U (·.set_self f)

/-- A set of steps that has room for what a handler that has been entered does between two
awaits, its webhooks and its moves between regions apart. -/
structure Manages (U : (World Ir → World Ir) → Prop) : Prop extends Allows U where
  starts : ∀ s, U (·.starts s)
  exec : ∀ f, U (·.set_exec f)
  self : ∀ f, Sideways f → U (·.set_self f)

/-- A set of steps that has room for what a job does that runs. -/
structure Runs (U : (World Ir → World Ir) → Prop) : Prop where
  look : U id
  starts : ∀ s, U (·.starts s)
  exec : ∀ f, U (·.set_exec f)
  last_job_at : ∀ s, U (·.set_self ({ · with last_job_at := some s }))

theorem Manages.runs {U : (World Ir → World Ir) → Prop} (hU : Manages U) : Runs U :=
  ⟨hU.look, hU.starts, hU.exec, fun _ => hU.self _ fun _ => ⟨rfl, rfl, rfl⟩⟩

/-- A set of steps that has room for the marks of a handler as well. -/
structure Permits (U : (World Ir → World Ir) → Prop) : Prop extends Manages U where
  mark : ∀ x, x.silent = true → U (·.record (.mark x))

theorem Plain.permits {L : Event Ir → Prop} {G : Region → Region → Prop}
    (hL : ∀ x, x.local = true → L (.mark x)) (hG : ∀ r, G r r) : Permits (Plain L G) where
  look := .id hG
  mark x hx := .record hG (hL x (Mark.local_of_silent hx))
  starts _ := .starts hG fun _ _ _ => hL _ rfl
  exec f := .set_exec hG f
  flags _ hf _ := .set_self hG hf
  self _ hf := .set_self hG hf

theorem Roaming.permits : Permits (Roaming : (World Ir → World Ir) → Prop) :=
  Plain.permits (fun _ hx => hx) fun _ => trivial

theorem Roaming.enter (r : Region) : Roaming (fun w : World Ir => w.enter r) :=
  Plain.enter fun _ => trivial

theorem Roaming.post (q : Req Ir) : Roaming (fun w : World Ir => w.record (.started q)) :=
  Plain.record (fun _ => trivial) trivial

theorem Staying.permits : Permits (Staying : (World Ir → World Ir) → Prop) :=
  Plain.permits (fun _ hx => hx) fun _ => .inl rfl

theorem Staying.post (q : Req Ir) : Staying (fun w : World Ir => w.record (.started q)) :=
  Plain.record (fun _ => .inl rfl) trivial

theorem Resting.permits : Permits (Resting : (World Ir → World Ir) → Prop) :=
  Plain.permits (G := fun r r' => r' = r) (fun _ hx => hx) fun _ => rfl

theorem Resting.post (q : Req Ir) : Resting (fun w : World Ir => w.record (.started q)) :=
  Plain.record (G := fun r r' => r' = r) (fun _ => rfl) trivial

theorem Mute.permits : Permits (Mute : (World Ir → World Ir) → Prop) :=
  Plain.permits (fun _ hx => hx) fun _ => trivial

theorem Plain.mark {L : Event Ir → Prop} {G : Region → Region → Prop}
    (hL : ∀ x, x.local = true → L (.mark x)) (hG : ∀ r, G r r) (x : Mark) (hx : x.local = true) :
    Plain L G (fun w : World Ir => w.record (.mark x)) := .record hG (hL x hx)

theorem Roaming.mark (x : Mark) (hx : x.local = true) :
    Roaming (fun w : World Ir => w.record (.mark x)) :=
  Plain.mark (fun _ h => h) (fun _ => trivial) x hx

theorem Mute.enter (r : Region) : Mute (fun w : World Ir => w.enter r) :=
  Plain.enter fun _ => trivial

theorem Apart.allows (L : Event Ir → Prop) :
    Allows (Apart L : (World Ir → World Ir) → Prop) where
  look := ⟨Plain.id fun _ => rfl, fun _ => ⟨rfl, rfl⟩⟩
  flags _ hf hcur :=
    ⟨Plain.set_self (G := fun r r' => r' = r) (fun _ => rfl) hf, fun w => ⟨rfl, hcur w.self⟩⟩

theorem Apart.post {L : Event Ir → Prop} (hL : ∀ q, L (.started q)) (q : Req Ir) :
    Apart L (fun w : World Ir => w.record (.started q)) :=
  ⟨Plain.record (G := fun r r' => r' = r) (fun _ => rfl) (hL q), fun _ => ⟨rfl, rfl⟩⟩

theorem Delivering.allows (L : Event Ir → Prop) :
    Allows (Delivering L : (World Ir → World Ir) → Prop) where
  look := .inl (Apart.allows L).look
  flags f hf hcur := .inl ((Apart.allows L).flags f hf hcur)

theorem Delivering.post {L : Event Ir → Prop} (hL : ∀ q, L (.started q)) (q : Req Ir) :
    Delivering L (fun w : World Ir => w.record (.started q)) := .inl (.post hL q)

theorem Delivering.grows {L : Event Ir → Prop} {f : World Ir → World Ir}
    (hf : Delivering L f) (w : World Ir) : w.tasks <+: (f w).tasks := by
  rcases hf with hf | ⟨t, rfl⟩
  · exact (hf.plain.tasks w).symm ▸ List.prefix_refl _
  · exact ⟨[(t, none)], rfl⟩

/-! ## Calls -/

/-- A call made for `m`; it ACKs no other message. -/
def For (m : Message) (q : Req Ir) : Prop :=
  q.msg = some m ∧ q.call.prompt = true ∧ ∀ id, q.call = .xack id → id = m.id

/-- A call made for `m` that is no `XACK`. -/
def Before (m : Message) (q : Req Ir) : Prop := For m q ∧ ∀ id, q.call ≠ .xack id

/-- The operations made while a job runs. -/
def Call.polls : Call Ir → Bool
  | .get _ | .wait _ _ | .cancel_current_job | .unwind _ => true
  | _ => false

/-- A call made for `m` while its job runs. -/
def Polls (m : Message) (q : Req Ir) : Prop := q.msg = some m ∧ q.call.polls = true

theorem Polls.before {q : Req Ir} (h : Polls m q) : Before m q := by
  obtain ⟨hm, hpolls⟩ := h
  have hxack : ∀ id, q.call ≠ .xack id := by
    intro id hid
    rw [hid] at hpolls
    cases hpolls
  refine ⟨⟨hm, ?_, fun id hid => absurd hid (hxack id)⟩, hxack⟩
  cases hc : q.call <;> rw [hc] at hpolls <;> first | rfl | cases hpolls

/-! ## The code before the `finally` clause -/

section Inner

variable {U : (World Ir → World Ir) → Prop}

theorem inner_on {c : Call Ir} (hc : c.prompt = true) (hx : ∀ id, c ≠ .xack id) :
    Within U (Before m) (on m c) :=
  Within.call ⟨⟨rfl, hc, fun id h => absurd h (hx id)⟩, hx⟩

theorem inner_status : Within U (Before m) (get_job_status m job_id : Prog Ir (Option String)) :=
  inner_on rfl (by simp)

/-- What is made while the job runs is made before the `XACK`. -/
theorem Polls.within {p : Prog Ir α} (h : Within U (Polls m) p) : Within U (Before m) p :=
  h.mono (fun _ hf => hf) fun _ hq => hq.before

theorem polls_on {c : Call Ir} (hc : c.polls = true) : Within U (Polls m) (on m c) :=
  Within.call ⟨rfl, hc⟩

theorem polls_check : Within U (Polls m) (has_cancel_signal m job_id : Prog Ir Bool) :=
  (polls_on rfl).bind fun _ => trivial

theorem inner_check : Within U (Before m) (has_cancel_signal m job_id : Prog Ir Bool) :=
  Polls.within polls_check

theorem inner_hset {key : String} {mapping : List (String × String)} :
    Within U (Before m) (safe_hset m key mapping : Prog Ir Bool) := by
  refine Within.try_except ((inner_on rfl (by simp)).bind fun _ => trivial) fun e => ?_
  cases e.is_connection <;> trivial

theorem polls_request_runner_cancel : Within U (Polls m) (request_runner_cancel node m) := by
  unfold request_runner_cancel
  split
  · refine Within.try_except (polls_on rfl) fun e => ?_
    split <;> trivial
  · trivial

theorem inner_look (hlook : U id) {g : World Ir → α} :
    Within U (Before m) (Co.look g : Prog Ir α) := Within.look hlook

theorem inner_mark_job_cancelled (hlook : U id) :
    Within U (Before m) (mark_job_cancelled node m job_id) :=
  (inner_look hlook).bind fun _ => inner_hset.bind fun _ => trivial

theorem inner_send_result (hpost : ∀ q, U (·.record (.started q))) {payload : WebhookPayload} :
    Within U (Before m) (send_result m url payload : Prog Ir Unit) :=
  (Within.update (hpost _)).bind fun _ => inner_on rfl (by simp)

theorem inner_send_error (hpost : ∀ q, U (·.record (.started q))) {text : String} :
    Within U (Before m) (send_error m url job_id text : Prog Ir Unit) :=
  (Within.update (hpost _)).bind fun _ => inner_on rfl (by simp)

section Running

variable (hU : Runs U)
include hU

theorem polls_cancel_run (k : Nat) : Within U (Polls m) (cancel_run k : Prog Ir Unit) :=
  Within.update (hU.exec _)

theorem polls_poll {k : Nat} {out : Except Exn ExecutionResult} (polls : Nat) :
    Within U (Polls m) (poll node m job_id k out polls) := by
  induction polls with
  | zero =>
      refine (polls_on rfl).bind fun _ => (Within.of_except out).bind fun result => ?_
      refine polls_check.bind fun b => ?_
      cases b <;> trivial
  | succ polls ih =>
      refine (polls_on rfl).bind fun _ => polls_check.bind fun b => ?_
      cases b with
      | false => exact ih
      | true =>
          refine polls_request_runner_cancel.bind fun _ => ?_
          refine (polls_cancel_run hU k).bind fun _ => ?_
          exact (polls_on rfl).attempt.bind fun _ => trivial

theorem polls_run_job {ir : Ir} {shots : Int} :
    Within U (Polls m) (run_job_with_cancellation node m job_id ir shots) := by
  refine (Within.look hU.look).bind fun k => (Within.update (hU.starts _)).bind fun _ => ?_
  cases node.run k ir shots with
  | refuses e => exact (Within.update (hU.exec _)).bind fun _ => trivial
  | runs polls out =>
      exact (Within.update (hU.exec _)).bind fun _ =>
        (polls_poll hU polls).try_finally (polls_cancel_run hU k)

variable (hpost : ∀ q, U (·.record (.started q)))
include hpost

theorem inner_execute {decoded : List (String × String)} :
    Within U (Before m) (execute node m decoded job_id url) := by
  refine (Within.of_except _).bind fun job => (Polls.within (polls_run_job hU)).bind fun result => ?_
  refine inner_check.bind fun b => ?_
  cases b with
  | true => trivial
  | false =>
      refine (inner_look hU.look).bind fun _ => inner_hset.bind fun _ => ?_
      refine inner_check.bind fun b' => ?_
      cases b' with
      | true => trivial
      | false =>
          exact (inner_send_result hpost).bind fun _ => (inner_look hU.look).bind fun _ =>
            Within.update (hU.last_job_at _)

theorem inner_report_failure {e : Exn} :
    Within U (Before m) (report_failure node m job_id url e) := by
  refine inner_check.bind fun b => ?_
  cases b with
  | true => exact inner_mark_job_cancelled hU.look
  | false =>
      refine (inner_look hU.look).bind fun _ => inner_hset.bind fun _ => ?_
      refine Within.try_except (inner_send_error hpost) fun e' => ?_
      split <;> trivial

theorem inner_on_exception (hhandler : U (·.enter .handler)) (e : Exn) :
    Within U (Before m) (on_exception node m job_id url e) := by
  have henter : Within U (Before m) (enter .handler : Prog Ir Unit) := Within.update hhandler
  cases e with
  | cancelled => trivial
  | job_cancelled => exact henter.bind fun _ => inner_mark_job_cancelled hU.look
  | _ => exact henter.bind fun _ => inner_report_failure hU hpost

end Running

end Inner

/-! ## Messages that are not taken on -/

/-- A status write that begins a job. -/
def Call.begins_job : Call Ir → Bool
  | .hset _ mapping => record_state mapping == some "executing"
  | _ => false

/-- A call made for `m` that begins no job. -/
def Skips (m : Message) (q : Req Ir) : Prop := For m q ∧ q.call.begins_job = false

section Skipping

variable {U : (World Ir → World Ir) → Prop}

theorem skips_on {c : Call Ir} (hc : c.prompt = true) (hx : ∀ id, c = .xack id → id = m.id)
    (hb : c.begins_job = false) : Within U (Skips m) (on m c) :=
  Within.call ⟨⟨rfl, hc, hx⟩, hb⟩

theorem skips_status : Within U (Skips m) (get_job_status m job_id : Prog Ir (Option String)) :=
  skips_on rfl (by simp) rfl

theorem skips_check : Within U (Skips m) (has_cancel_signal m job_id : Prog Ir Bool) :=
  (skips_on rfl (by simp) rfl).bind fun _ => trivial

theorem skips_mark_job_cancelled (hlook : U id) :
    Within U (Skips m) (mark_job_cancelled node m job_id) := by
  refine (Within.look hlook).bind fun cancelled_at => Within.bind ?_ fun _ => trivial
  refine Within.try_except ((skips_on rfl (by simp) ?_).bind fun _ => trivial) fun e => ?_
  · simp only [Call.begins_job, record_state_cancelled]
    decide
  · cases e.is_connection <;> trivial

theorem skips_xack : Within U (Skips m) (safe_xack m : Prog Ir Bool) := by
  refine Within.try_except
    ((skips_on rfl (fun id h => by cases h; rfl) rfl).bind fun _ => trivial) fun e => ?_
  cases e.is_connection <;> trivial

/-- An early return. -/
theorem skips_skip : Within U (Skips m) (do let _ ← safe_xack m : Prog Ir Unit) :=
  skips_xack.bind fun _ => trivial

/-- What is made for a message that is not taken on is made for it. -/
theorem Skips.within {p : Prog Ir α} (h : Within U (Skips m) p) : Within U (For m) p :=
  h.mono (fun _ hf => hf) fun _ hq => hq.1

/-- Examining a message begins no job. -/
theorem skips_examine (hlook : U id) (hmark : U (·.record (.mark (.skipped m)))) :
    Within U (Skips m) (examine node m) := by
  have hskip : Within U (Skips m)
      (do let _ ← safe_xack m; pure none : Prog Ir (Option (Parsed Ir))) :=
    skips_xack.bind fun _ => trivial
  unfold examine
  cases decode_fields m.fields with
  | error e => trivial
  | ok fields =>
      cases m.header with
      | error e => exact hskip
      | ok header =>
          obtain ⟨decoded, job_id, url⟩ := header
          refine skips_status.bind fun st => ?_
          split
          · exact hskip
          · refine skips_check.bind fun b => ?_
            cases b with
            | true => exact (skips_mark_job_cancelled hlook).bind fun _ => hskip
            | false =>
                simp only [Bool.false_eq_true, if_false]
                cases node.parse_job decoded with
                | error e => exact (Within.update hmark).bind fun _ => hskip
                | ok job => trivial

end Skipping

/-! ## The whole handler -/

section Handling

variable {U : (World Ir → World Ir) → Prop}

/-- What is made before the `XACK` is made for the message. -/
theorem Before.within {p : Prog Ir α} (h : Within U (Before m) p) : Within U (For m) p :=
  h.mono (fun _ hf => hf) fun _ hq => hq.1

theorem handling_xack : Within U (For m) (safe_xack m : Prog Ir Bool) := Skips.within skips_xack

/-- An early return. -/
theorem handling_skip : Within U (For m) (do let _ ← safe_xack m : Prog Ir Unit) :=
  Skips.within skips_skip

section Managed

variable (hU : Manages U) (henter : ∀ r, U (·.enter r))
include hU henter

theorem handling_release : Within U (For m) (release m : Prog Ir Unit) := by
  have hset : Within U (For m) (Co.update (·.set_self
      ({ · with current_job_id := none, idle := true })) : Prog Ir Unit) :=
    Within.update (hU.self _ fun _ => ⟨rfl, rfl, rfl⟩)
  have hmove : ∀ r, Within U (For m) (enter r : Prog Ir Unit) := fun r =>
    Within.update (henter r)
  exact (hmove _).bind fun _ => handling_xack.bind fun _ => hset.bind fun _ => hmove _

variable (hpost : ∀ q, U (·.record (.started q)))
include hpost

theorem handling_take_on {decoded : List (String × String)} :
    Within U (For m) (take_on node m decoded job_id url) := by
  have hset : Within U (For m) (Co.update (·.set_self
      ({ · with idle := false, current_job_id := some job_id })) : Prog Ir Unit) :=
    Within.update (hU.self _ fun _ => ⟨rfl, rfl, rfl⟩)
  refine hset.bind fun _ => ?_
  refine (Before.within (inner_look hU.look)).bind fun _ => (Before.within inner_hset).bind fun _ => ?_
  refine (Within.update (henter .body)).bind fun _ => ?_
  refine Within.try_finally ?_ (handling_release hU henter)
  exact (Before.within (inner_execute hU.runs hpost)).try_except fun e =>
    Before.within (inner_on_exception hU.runs hpost (henter _) e)

end Managed

/-- Every call of `_process_message` is made for its message, between steps of `U`. -/
theorem handling_process_message (hU : Permits U) (henter : ∀ r, U (·.enter r))
    (hpost : ∀ q, U (·.record (.started q))) : Within U (For m) (process_message node m) := by
  refine (Within.update (henter .outside)).bind fun _ => ?_
  refine (Within.update (hU.mark _ rfl)).bind fun _ => ?_
  cases decode_fields m.fields with
  | error e => trivial
  | ok fields =>
      cases m.header with
      | error e => exact handling_skip
      | ok header =>
          obtain ⟨decoded, job_id, url⟩ := header
          refine (Before.within inner_status).bind fun st => ?_
          split
          · exact handling_skip
          · refine (Before.within inner_check).bind fun b => ?_
            cases b with
            | false => exact handling_take_on hU.toManages henter hpost
            | true =>
                exact (Before.within (inner_mark_job_cancelled hU.look)).bind fun _ => handling_skip

end Handling

/-! ## Batches and their deliveries -/

/-- The operations of a delivery. -/
def Call.delivers : Call Ir → Bool
  | .hset _ mapping => !(record_state mapping == some "executing")
  | .get _ | .xack _ | .send_result _ _ | .begin | .gather _ => true
  | _ => false

theorem Call.not_begins_of_delivers {c : Call Ir} (h : c.delivers = true) :
    c.begins_job = false := by
  cases c with
  | hset key mapping => simpa [Call.delivers, Call.begins_job] using h
  | _ => rfl

/-- A call of the delivery of `m`. -/
def Delivers (m : Message) (q : Req Ir) : Prop := For m q ∧ q.call.delivers = true

/-- The operations of handlers, batches and deliveries; the others are the loop's. -/
def Call.inner : Call Ir → Bool
  | .batch_run _ _ | .begin | .gather _ => true
  | c => c.prompt

theorem Call.inner_of_delivers {c : Call Ir} (h : c.delivers = true) : c.inner = true := by
  cases c <;> first | rfl | cases h

theorem Call.inner_of_prompt {c : Call Ir} (h : c.prompt = true) : c.inner = true := by
  cases c <;> first | rfl | exact h

theorem Call.not_read_of_prompt {c : Call Ir} (h : c.prompt = true) : c.reads_group = false := by
  cases c <;> first | rfl | cases h

section Batches

variable {U : (World Ir → World Ir) → Prop}

/-- What is made for a message is no call of the loop's. -/
theorem For.within {p : Prog Ir α} (h : Within U (For m) p) :
    Within U (fun q => q.call.inner = true) p :=
  h.mono (fun _ hf => hf) fun _ hq => Call.inner_of_prompt hq.2.1

theorem within_alone {c : Call Ir} (hc : c.inner = true) :
    Within U (fun q => q.call.inner = true) (alone c) :=
  Within.call hc

theorem handling_examine (hlook : U id) (hmark : U (·.record (.mark (.skipped m)))) :
    Within U (For m) (examine node m) := Skips.within (skips_examine hlook hmark)

theorem within_examine_all (hU : Permits U) (ms : List Message) :
    Within U (fun q => q.call.inner = true) (examine_all node ms) := by
  induction ms with
  | nil => trivial
  | cons m rest ih =>
      exact (For.within (handling_examine hU.look (hU.mark _ rfl))).bind fun _ => ih.bind fun _ => trivial

theorem within_mark_executing (hlook : U id) (jobs : List (Parsed Ir)) :
    Within U (fun q => q.call.inner = true) (mark_executing node jobs) := by
  induction jobs with
  | nil => trivial
  | cons job rest ih =>
      refine (Within.look hlook).bind fun started_at => ?_
      exact (For.within (Before.within inner_hset)).bind fun _ => ih

theorem within_process_each (hU : Permits U) (henter : ∀ r, U (·.enter r))
    (hpost : ∀ q, U (·.record (.started q))) (ms : List Message) :
    Within U (fun q => q.call.inner = true) (process_each node ms) := by
  induction ms with
  | nil => trivial
  | cons m rest ih =>
      exact (For.within (handling_process_message hU henter hpost)).bind fun _ => ih

theorem within_process_batch (hU : Permits U) (henter : ∀ r, U (·.enter r))
    (hpost : ∀ q, U (·.record (.started q))) (hcreate : ∀ t, U (·.create_task t))
    (hmark : ∀ x, x.local = true → U (·.record (.mark x))) (ms : List Message) :
    Within U (fun q => q.call.inner = true) (process_batch node ms) := by
  have hfall : Within U (fun q => q.call.inner = true) (fall_back node ms) :=
    (Within.update (hmark _ rfl)).bind fun _ =>
      (within_process_each hU henter hpost ms).bind fun _ => trivial
  have hbusy : Within U (fun q => q.call.inner = true)
      (Co.update (·.set_self ({ · with idle := false })) : Prog Ir Unit) :=
    Within.update (hU.self _ fun _ => ⟨rfl, rfl, rfl⟩)
  refine (Within.update (hmark _ rfl)).bind fun _ => ?_
  refine (within_examine_all hU ms).bind fun parsed => ?_
  split
  · trivial
  · refine hbusy.bind fun _ => (within_mark_executing hU.look parsed).bind fun _ => ?_
    cases node.batch_run with
    | none => exact hfall
    | some f =>
        have hrun : Within U (fun q => q.call.inner = true) (run_batch parsed) :=
          (Within.look hU.look).bind fun _ => (Within.update (hU.starts _)).bind fun _ =>
            (Within.update (hU.exec _)).bind fun _ => within_alone rfl
        refine hrun.attempt.bind fun results => ?_
        cases results with
        | ok results => exact ⟨hcreate _, fun _ => trivial⟩
        | error e => cases e <;> first | exact hfall | trivial

theorem handling_deliver_single (hlook : U id) (hpost : ∀ q, U (·.record (.started q)))
    {result : ExecutionResult} {completed_at : String} :
    Within U (Delivers m) (deliver_single_batch_result node m job_id url result completed_at) := by
  have hcall : ∀ {c : Call Ir}, c.prompt = true ∧ c.delivers = true →
      (∀ id, c = .xack id → id = m.id) → Within U (Delivers m) (on m c) := fun hc hx =>
    Within.call ⟨⟨rfl, hc.1, hx⟩, hc.2⟩
  have hcheck : Within U (Delivers m) (has_cancel_signal m job_id : Prog Ir Bool) :=
    (hcall ⟨rfl, rfl⟩ (by simp)).bind fun _ => trivial
  have hhset : ∀ mapping, record_state mapping ≠ some "executing" → Within U (Delivers m)
      (safe_hset m (status_key job_id) mapping : Prog Ir Bool) := by
    intro mapping hstate
    have hdelivers : (Call.hset (status_key job_id) mapping : Call Ir).delivers = true := by
      simpa [Call.delivers] using hstate
    refine Within.try_except ((hcall ⟨rfl, hdelivers⟩ (by simp)).bind fun _ => trivial) fun e => ?_
    cases e.is_connection <;> trivial
  have hxack : Within U (Delivers m) (do let _ ← safe_xack m : Prog Ir Unit) := by
    have hack : Within U (Delivers m) (safe_xack m : Prog Ir Bool) := by
      refine Within.try_except ((hcall ⟨rfl, rfl⟩ (by simp)).bind fun _ => trivial) fun e => ?_
      cases e.is_connection <;> trivial
    exact hack.bind fun _ => trivial
  have hcancelled : Within U (Delivers m) (do
      mark_job_cancelled node m job_id
      let _ ← safe_xack m : Prog Ir Unit) := by
    have hmark : Within U (Delivers m) (mark_job_cancelled node m job_id) :=
      (Within.look hlook).bind fun _ =>
        (hhset _ (by rw [record_state_cancelled]; decide)).bind fun _ => trivial
    exact hmark.bind fun _ => hxack
  have hsend : Within U (Delivers m) (Co.try_except
      (send_result m url (completed_payload job_id result))
      (fun e => if e = .cancelled then .raise e else pure ()) : Prog Ir Unit) := by
    refine Within.try_except ((Within.update (hpost _)).bind fun _ => hcall ⟨rfl, rfl⟩ (by simp)) fun e => ?_
    split <;> trivial
  refine hcheck.bind fun b => ?_
  cases b with
  | true => exact hcancelled
  | false =>
      refine (hhset _ (by rw [record_state_completed]; decide)).bind fun _ =>
        hcheck.bind fun b' => ?_
      cases b' with
      | true => exact hcancelled
      | false => exact hsend.bind fun _ => hxack

theorem within_spawn_deliveries {P : Req Ir → Prop} (hcreate : ∀ t, U (·.create_task t))
    (now_iso : String) (jobs : List (Parsed Ir × ExecutionResult)) :
    Within U P (spawn_deliveries now_iso jobs) := by
  induction jobs with
  | nil => trivial
  | cons job rest ih =>
      refine Within.bind ⟨hcreate _, fun _ => trivial⟩ fun _ => ih.bind fun _ => trivial

/-- Every call of a task is a delivery's. -/
theorem within_task_body (hU : Allows U) (hpost : ∀ q, U (·.record (.started q)))
    (hcreate : ∀ t, U (·.create_task t)) (t : TaskSpec Ir) :
    Within U (fun q => q.call.delivers = true) (task_body node t) := by
  have halone : ∀ {c : Call Ir}, c.delivers = true →
      Within U (fun q => q.call.delivers = true) (alone c) := fun hc => Within.call hc
  cases t with
  | deliver_single_batch_result m job_id url result completed_at =>
      exact (halone rfl).bind fun _ =>
        (handling_deliver_single hU.look hpost).mono (fun _ hf => hf) fun _ hq => hq.2
  | deliver_batch_results parsed results =>
      refine (halone rfl).bind fun _ => (Within.look hU.look).bind fun now_iso => ?_
      refine Within.try_finally ?_
        (Within.update (hU.flags _ (fun _ => ⟨rfl, rfl, rfl⟩) fun _ => rfl))
      split
      · exact (within_spawn_deliveries hcreate now_iso _).bind fun _ =>
          (halone rfl).bind fun _ =>
            Within.update (hU.flags _ (fun _ => ⟨rfl, rfl, rfl⟩) fun _ => rfl)
      · trivial

end Batches

/-! ## The loop, once it has read -/

section Loop

variable {U : (World Ir → World Ir) → Prop}

/-- The operations of an iteration besides its read, its await of a delivery and its sleep. -/
def Call.served : Call Ir → Bool
  | .xpending_range _ | .xrange _ => true
  | c => c.inner

theorem Call.served_of_inner {c : Call Ir} (h : c.inner = true) : c.served = true := by
  cases c <;> first | rfl | exact h

theorem Call.not_read_of_served {c : Call Ir} (h : c.served = true) :
    c.reads_group = false := by
  cases c <;> first | rfl | cases h

theorem within_elsewhere {p : Prog Ir α} (h : Within U (fun q => q.call.inner = true) p) :
    Within U (fun q => q.call.served = true) p :=
  h.mono (fun _ hf => hf) fun _ hq => Call.served_of_inner hq

variable (hU : Permits U) (henter : ∀ r, U (·.enter r))
  (hpost : ∀ q, U (·.record (.started q)))
include hU henter hpost

theorem within_recover_each (ids : List String) :
    Within U (fun q => q.call.served = true) (recover_each node ids) := by
  induction ids with
  | nil => trivial
  | cons message_id rest ih =>
      refine Within.bind (Within.call rfl) fun messages => ?_
      cases messages with
      | nil => exact ih
      | cons m _ =>
          exact (within_elsewhere (For.within (handling_process_message hU henter hpost))).bind
            fun _ => ih.bind fun _ => trivial

theorem within_recover_pending :
    Within U (fun q => q.call.served = true) (recover_pending node) :=
  (Within.update (hU.starts _)).bind fun _ => Within.bind (Within.call rfl) fun ids =>
    within_recover_each hU henter hpost ids

theorem within_recheck_pending (hcheck : ∀ t, U (·.set_frame ({ · with last_pending_check := t }))) :
    Within U (fun q => q.call.served = true) (recheck_pending node) := by
  refine (Within.look hU.look).bind fun now => (Within.look hU.look).bind fun last => ?_
  split
  · exact (within_recover_pending hU henter hpost).bind fun _ => Within.update (hcheck now)
  · trivial

theorem within_dispatch (hcreate : ∀ t, U (·.create_task t))
    (hmark : ∀ x, x.local = true → U (·.record (.mark x)))
    (hpending : ∀ t, U (·.set_self ({ · with pending_batch_delivery := t })))
    (streams : List (String × List Message)) :
    Within U (fun q => q.call.served = true) (dispatch node streams) := by
  induction streams with
  | nil => trivial
  | cons s rest ih =>
      obtain ⟨name, ms⟩ := s
      have hbatch : Within U (fun q => q.call.served = true) (process_batch node ms) :=
        within_elsewhere (within_process_batch hU henter hpost hcreate hmark ms)
      have heach : Within U (fun q => q.call.served = true) (process_each node ms) :=
        within_elsewhere (within_process_each hU henter hpost ms)
      unfold dispatch
      split
      · refine hbatch.bind fun delivery => ?_
        cases delivery with
        | none => exact ih
        | some t => exact (Within.update (hpending (some t))).bind fun _ => ih
      · exact heach.bind fun _ => ih

/-- What an iteration does once it has read. -/
theorem within_reading (hcreate : ∀ t, U (·.create_task t))
    (hmark : ∀ x, x.local = true → U (·.record (.mark x)))
    (hpending : ∀ t, U (·.set_self ({ · with pending_batch_delivery := t })))
    (hcheck : ∀ t, U (·.set_frame ({ · with last_pending_check := t })))
    (messages : List (String × List Message)) :
    Within U (fun q => q.call.served = true ∨ ∃ t, q.call = .join t) (do
      await_delivery
      if messages.isEmpty then recheck_pending node else dispatch node messages) := by
  have hserved : ∀ {p : Prog Ir Unit}, Within U (fun q => q.call.served = true) p →
      Within U (fun q => q.call.served = true ∨ ∃ t, q.call = .join t) p := fun hp =>
    hp.mono (fun _ hf => hf) fun _ hq => .inl hq
  have hawait : Within U (fun q => q.call.served = true ∨ ∃ t, q.call = .join t)
      (await_delivery : Prog Ir Unit) := by
    refine (Within.look hU.look).bind fun delivery => ?_
    cases delivery with
    | none => trivial
    | some t =>
        exact Within.bind (Within.call (.inr ⟨t, rfl⟩)) fun _ => Within.update (hpending none)
  refine hawait.bind fun _ => ?_
  split
  · exact hserved (within_recheck_pending hU henter hpost hcheck)
  · exact hserved (within_dispatch hU henter hpost hcreate hmark hpending messages)

end Loop

end CodaNode
