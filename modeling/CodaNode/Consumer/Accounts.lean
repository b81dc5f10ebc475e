/-
`Consumer/Accounts.lean` -- no message is dropped silently, but for a malformed one in a batch.

Each `XACK` of a message stands at the end of a handling that has left a line in the log:
the terminal status it found, the cancel key it heeded, the webhook it began. The handlers
are followed with what has been logged so far; the loops and the schedule add nothing, since
the log only grows. The one branch without a report is that of `_process_batch` that skips
what it cannot parse.
-/
import CodaNode.Consumer.Calm
import CodaNode.Consumer.Rounds
import CodaNode.Consumer.Single

set_option autoImplicit false

open Coroutine

namespace CodaNode

variable {Ir : Type} {node : Node Ir} {m : Message} {job_id url : String} {α : Type}

/-! ## The property -/

/-- The log holds this event. -/
def Noted (log : List (Entry Ir)) (e : Event Ir) : Prop := ∃ x ∈ log, x.event = e

/-- The cancel key was seen while `m` was handled. -/
def Signalled (m : Message) (job_id : String) (log : List (Entry Ir)) : Prop :=
  ∃ v, Noted log (.ended ⟨some m, .get (cancel_key job_id)⟩ true (.ok (some v)))

/-- What became of the job of an ACK-ed message, in the order of the code: it was over
already, it was recorded as cancelled because its key was set, a webhook was begun for it, or
the batch skipped what it could not parse. -/
inductive Accounted (node : Node Ir) (m : Message) (job_id url : String)
    (log : List (Entry Ir)) : Prop
  | over (status : Option String) (hover : terminal status = true)
      (hfound : Noted log (.ended ⟨some m, .hget (status_key job_id) "state"⟩ true (.ok status)))
  | cancelled (cancelled_at : String) (hkey : Signalled m job_id log)
      (hrecord : Noted log (.ended
        ⟨some m, .hset (status_key job_id) (cancelled_record node m cancelled_at)⟩ true (.ok ())))
  | completed (result : ExecutionResult) (hfits : m.Fits node job_id url)
      (hpost : Noted log (.started ⟨some m, .send_result url (completed_payload job_id result)⟩))
  | failed (text : String)
      (hpost : Noted log (.started ⟨some m, .send_error url job_id text⟩))
  | skipped (hfits : ¬ m.Fits node job_id url) (hskipped : Noted log (.mark (.skipped m)))

/-- Whatever job the message carries is accounted for. -/
def Settled (node : Node Ir) (m : Message) (log : List (Entry Ir)) : Prop :=
  ∀ job_id url, m.Carries job_id url → Accounted node m job_id url log

/-- Whenever a message was ACK-ed, its job had been accounted for. -/
def Answerable (node : Node Ir) : List (Entry Ir) → Prop
  | [] => True
  | x :: earlier => Answerable node earlier ∧
      ∀ m took r, x.event = .ended ⟨some m, .xack m.id⟩ took r → Settled node m earlier

/-! ## The log grows -/

variable {log log' : List (Entry Ir)}

theorem Noted.mono {e : Event Ir} (h : Noted log e) (hl : log <:+ log') : Noted log' e := by
  obtain ⟨x, hx, he⟩ := h
  exact ⟨x, hl.subset hx, he⟩

theorem Signalled.mono (h : Signalled m job_id log) (hl : log <:+ log') :
    Signalled m job_id log' := by
  obtain ⟨v, hv⟩ := h
  exact ⟨v, hv.mono hl⟩

theorem Accounted.mono (h : Accounted node m job_id url log) (hl : log <:+ log') :
    Accounted node m job_id url log' := by
  cases h with
  | «over» status hover hfound => exact .over status hover (hfound.mono hl)
  | cancelled cancelled_at hkey hrecord =>
      exact .cancelled cancelled_at (hkey.mono hl) (hrecord.mono hl)
  | completed result hfits hpost => exact .completed result hfits (hpost.mono hl)
  | failed text hpost => exact .failed text (hpost.mono hl)
  | skipped hfits hskipped => exact .skipped hfits (hskipped.mono hl)

/-- What once was in the log stays in it. -/
def Lasting (F : List (Entry Ir) → Prop) : Prop := ∀ log log', log <:+ log' → F log → F log'

theorem Lasting.and {F F' : List (Entry Ir) → Prop} (h : Lasting F) (h' : Lasting F') :
    Lasting fun log => F log ∧ F' log :=
  fun log log' hl hF => ⟨h log log' hl hF.1, h' log log' hl hF.2⟩

theorem lasting_noted (e : Event Ir) : Lasting fun log => Noted log e := fun _ _ hl h => h.mono hl

theorem lasting_signalled (m : Message) (job_id : String) :
    Lasting fun log : List (Entry Ir) => Signalled m job_id log := fun _ _ hl h => h.mono hl

theorem lasting_accounted (node : Node Ir) (m : Message) (job_id url : String) :
    Lasting (Accounted node m job_id url) := fun _ _ hl h => h.mono hl

theorem lasting_settled (node : Node Ir) (m : Message) : Lasting (Settled node m) :=
  fun _ _ hl h job_id url hc => (h job_id url hc).mono hl

theorem lasting_trivial : Lasting fun _ : List (Entry Ir) => True := fun _ _ _ h => h

/-- A message carries one job. -/
theorem settled_of_accounted {decoded : List (String × String)}
    (hm : m.header = .ok (decoded, job_id, url)) (h : Accounted node m job_id url log) :
    Settled node m log := by
  rintro j u ⟨decoded', hm'⟩
  rw [hm] at hm'
  cases hm'
  exact h

/-- A message without a job is settled from the start. -/
theorem settled_of_header {e : Exn} (hm : m.header = .error e) : Settled node m log := by
  rintro j u ⟨decoded', hm'⟩
  rw [hm] at hm'
  cases hm'

/-! ## The code for one message -/

/-- The log is answerable and `F` holds of it. -/
def Sworn (node : Node Ir) (F : List (Entry Ir) → Prop) (w : World Ir) : Prop :=
  Answerable node w.log ∧ F w.log

variable {F : List (Entry Ir) → Prop} {w w' : World Ir}

theorem Answerable.cons {x : Entry Ir} (h : Answerable node log)
    (hx : ∀ m took r, x.event = .ended ⟨some m, .xack m.id⟩ took r → Settled node m log) :
    Answerable node (x :: log) := ⟨h, hx⟩

/-- One more line. -/
theorem Sworn.line (h : Sworn node F w) (hF : Lasting F) {x : Entry Ir} (hlog : w'.log = x :: w.log)
    (hx : ∀ m took r, x.event = .ended ⟨some m, .xack m.id⟩ took r → Settled node m w.log) :
    Sworn node F w' := by
  rw [Sworn, hlog]
  exact ⟨h.1.cons hx, hF _ _ (List.suffix_cons x w.log) h.2⟩

theorem Sworn.mono {F' : List (Entry Ir) → Prop} (h : Sworn node F w) (hF : ∀ log, F log → F' log) :
    Sworn node F' w := ⟨h.1, hF _ h.2⟩

/-- A step of the consumer's own. -/
theorem Sworn.plain {G : Region → Region → Prop} {f : World Ir → World Ir}
    (hf : Plain Event.minor G f) (h : Sworn node F w) (hF : Lasting F) : Sworn node F (f w) := by
  rcases hf.log w with hl | ⟨e, he, hl⟩
  · rw [Sworn, hl]
    exact h
  · refine h.line hF hl fun m took r hx => ?_
    rw [show e = _ from hx] at he
    cases he

/-- An answer to anything but an `XACK` for the message at hand. -/
theorem Sworn.answered {q : Req Ir} {r : Except Exn q.Reply} (h : Sworn node F w) (hF : Lasting F)
    (ha : Answered q r w w')
    (hq : ∀ m, q = ⟨some m, .xack m.id⟩ → Settled node m w.log) : Sworn node F w' := by
  obtain ⟨took, hl⟩ := ha.log
  refine h.line hF hl fun m took' r' hx => hq m ?_
  cases hx
  rfl

/-- The run is over, and it was cut short only if the cancel key was seen. -/
def Ran (node : Node Ir) (m : Message) (job_id : String) (r : Except Exn α) (w : World Ir) : Prop :=
  Sworn node (fun _ => True) w ∧ (r = .error .job_cancelled → Signalled m job_id w.log)

theorem ran_of_signalled {r : Except Exn α}
    (h : Sworn node (fun log => True ∧ Signalled m job_id log) w) : Ran node m job_id r w :=
  ⟨h.mono fun _ _ => trivial, fun _ => h.2.2⟩

section Handlers

variable {K : Contract (World Ir) (@Req.Reply Ir) Exn}

/-- What is owed goes along with what is in the log. -/
theorem Owes.with_log {I : World Ir → Prop}
    {allow : (q : Req Ir) → World Ir → Except Exn q.Reply → Prop}
    (hK : Owes K node allow I) (hF : Lasting F) : Owes K node allow fun w => I w ∧ F w.log where
  pre q w hread h := hK.pre q w hread h.1
  answer := hK.answer
  rely w w' h hr := by
    obtain ⟨h', hl⟩ := hK.rely w w' h.1 hr
    exact ⟨⟨h', hF _ _ hl h.2⟩, hl⟩
  keep w w' h h' hext := hK.keep w w' h.1 h'.1 hext

variable (hK : Owes K node undisturbed (fun w => Answerable node w.log))
include hK

theorem owes_sworn (hF : Lasting F) : Owes K node undisturbed (Sworn node F) := hK.with_log hF

/-- Code that ACKs nothing. -/
theorem sworn_within (hF : Lasting F) {p : Prog Ir α} (hp : Within Roaming (Before m) p) :
    K.Keeps (Sworn node F) p :=
  (owes_sworn hK hF).within
    (fun _ hf w hw => ⟨hw.plain hf hF, .of_tasks (hf.tasks w) (hf.grows w)⟩)
    (fun _ hq => Call.not_read_of_prompt hq.1.2.1)
    (fun q hq _ _ _ hw hans _ => hw.answered hF (Answered.of_answers hans) fun m hm => by
      subst hm
      exact absurd rfl (hq.2 m.id)) hp

/-- A Redis command: it is answered, and the answer is in the log. -/
theorem sworn_redis (hF : Lasting F) {c : Call Ir} (hredis : c.is_redis = true)
    (hgroup : c ≠ .xgroup_create) (hread : c.reads_group = false) (hack : ∀ id, c ≠ .xack id) (h : Sworn node F w)
    {Q : Except Exn c.Reply → World Ir → Prop}
    (hQ : ∀ v w', Sworn node (fun log => F log ∧ Noted log (.ended ⟨some m, c⟩ true (.ok v))) w' →
      Q (.ok v) w') : K.wp (on m c) Q w := by
  have howes := owes_sworn hK hF
  refine (Contract.wp_call _ _ _).2 ⟨howes.pre _ w hread h, fun w₁ hr r w₂ ha => ?_⟩
  obtain ⟨h₁, -⟩ := howes.rely w w₁ h hr
  obtain ⟨hans, hup, -⟩ := howes.answer _ _ _ _ ha
  have h₂ : Sworn node F w₂ := by
    refine h₁.answered hF (Answered.of_answers hans) fun m' hm' => ?_
    cases hm'
    exact absurd rfl (hack _)
  refine ⟨howes.keep w₁ w₂ h₁ h₂ (Answered.of_answers hans).extends, ?_⟩
  obtain ⟨v, rfl⟩ := hup.ok hredis hgroup
  obtain ⟨w₃, -, rfl⟩ := answers_ok.1 hans
  exact hQ v _ ⟨h₂.1, h₂.2, ⟨_, List.mem_cons_self, rfl⟩⟩

/-- The `XACK`, once the job is accounted for. -/
theorem sworn_xack (hF : Lasting F) (hsettled : ∀ log, F log → Settled node m log) :
    K.Keeps (Sworn node F) (safe_xack m : Prog Ir Bool) := by
  have howes := owes_sworn hK hF
  refine Contract.Keeps.try_except (Contract.Keeps.bind (howes.call rfl ?_) fun _ => .ret _) ?_
  · intro w r w' hw hans _
    refine hw.answered hF (Answered.of_answers hans) fun m' hm' => ?_
    cases hm'
    exact hsettled _ hw.2
  · intro e
    cases e.is_connection with
    | true => exact .ret _
    | false => exact .raise _

theorem sworn_skip (hF : Lasting F) (hsettled : ∀ log, F log → Settled node m log) :
    K.Keeps (Sworn node F) (do let _ ← safe_xack m : Prog Ir Unit) :=
  (sworn_xack hK hF hsettled).bind fun _ => .ret _

/-- A check of the cancel key, which is in the log if it is set. -/
theorem sworn_check (hF : Lasting F) (h : Sworn node F w) {Q : Except Exn Bool → World Ir → Prop}
    (hset : ∀ w', Sworn node (fun log => F log ∧ Signalled m job_id log) w' → Q (.ok true) w')
    (hunset : ∀ w', Sworn node F w' → Q (.ok false) w') :
    K.wp (has_cancel_signal m job_id) Q w := by
  refine (Contract.wp_bind _ _ _ _).2 (sworn_redis hK hF rfl (by simp) rfl (by simp) h fun v w' h' => ?_)
  cases v with
  | none => exact hunset w' (h'.mono fun _ hl => hl.1)
  | some v => exact hset w' (h'.mono fun _ hl => ⟨hl.1, v, hl.2⟩)

/-- A status record: it is written, and in the log. -/
theorem sworn_hset (hF : Lasting F) {key : String} {mapping : List (String × String)}
    (h : Sworn node F w) {Q : Except Exn Bool → World Ir → Prop}
    (hQ : ∀ w', Sworn node (fun log => F log ∧
      Noted log (.ended ⟨some m, .hset key mapping⟩ true (.ok ()))) w' → Q (.ok true) w') :
    K.wp (safe_hset m key mapping) Q w := by
  refine (Contract.wp_try_except _ _ _ _).2 ((Contract.wp_bind _ _ _ _).2
    (sworn_redis hK hF rfl (by simp) rfl (by simp) h fun v w' h' => ?_))
  exact hQ w' h'

/-- `_mark_job_cancelled`, once the key has been seen. -/
theorem sworn_mark_job_cancelled (hF : Lasting F)
    (hkey : ∀ log, F log → Signalled m job_id log) (url : String) (h : Sworn node F w) :
    K.wp (mark_job_cancelled node m job_id)
      (fun r w' => r = .ok () ∧ Sworn node (fun log => Accounted node m job_id url log) w') w := by
  refine (Contract.wp_bind _ _ _ _).2 ⟨(owes_sworn hK hF).keep w w h h (.refl w), ?_⟩
  refine (Contract.wp_bind _ _ _ _).2 (sworn_hset hK hF h fun w' h' => ?_)
  exact ⟨rfl, h'.mono fun log hl => .cancelled _ (hkey log hl.1) hl.2⟩

/-- A webhook that is begun is in the log, however it ends. -/
theorem sworn_post (hF : Lasting F) {q : Req Ir} {c : Call Ir} (hc : c.prompt = true)
    (hx : ∀ id, c ≠ .xack id) (h : Sworn node F w) :
    K.wp (do
        Co.update (·.record (.started q))
        on m c : Prog Ir c.Reply)
      (fun _ w' => Sworn node (fun log => F log ∧ Noted log (.started q)) w') w := by
  have hboth := hF.and (lasting_noted (Event.started q))
  have h' : Sworn node (fun log => F log ∧ Noted log (.started q)) (w.record (.started q)) := by
    have hl : Sworn node F (w.record (.started q)) :=
      h.line hF rfl fun m took r hx => by cases hx
    exact ⟨hl.1, hl.2, ⟨_, List.mem_cons_self, rfl⟩⟩
  exact (Contract.wp_bind _ _ _ _).2 ⟨(owes_sworn hK hF).keep _ _ h (h'.mono fun _ hl => hl.1)
    (.of_tasks rfl (List.suffix_cons _ _)), sworn_within hK hboth (inner_on hc hx) _ h'⟩

/-! ### A job that runs -/

/-- An operation of the run itself: it raises no `JobCancelledError`. -/
theorem sworn_wait {k : Nat} {timed_out : Bool} (h : Sworn node (fun _ => True) w) :
    K.wp (on m (.wait k timed_out) : Prog Ir Unit) (fun r w' =>
      Sworn node (fun _ => True) w' ∧ r ≠ .error .job_cancelled) w := by
  have howes := owes_sworn hK lasting_trivial
  refine (Contract.wp_call _ _ _).2 ⟨howes.pre _ w rfl h, fun w₁ hr r w₂ ha => ?_⟩
  obtain ⟨h₁, -⟩ := howes.rely w w₁ h hr
  obtain ⟨hans, -⟩ := howes.answer _ _ _ _ ha
  have h₂ : Sworn node (fun _ => True) w₂ :=
    h₁.answered lasting_trivial (Answered.of_answers hans) fun m' hm' => by cases hm'
  refine ⟨howes.keep w₁ w₂ h₁ h₂ (Answered.of_answers hans).extends, h₂, ?_⟩
  rintro rfl
  obtain ⟨hfails, -⟩ := answers_error.1 hans
  cases hfails

theorem sworn_poll {k : Nat} {out : Except Exn ExecutionResult}
    (hout : out ≠ .error .job_cancelled) (polls : Nat) (h : Sworn node (fun _ => True) w) :
    K.wp (poll node m job_id k out polls) (Ran node m job_id) w := by
  have htrue := @lasting_trivial Ir
  induction polls generalizing w with
  | zero =>
      refine (Contract.wp_bind _ _ _ _).2 (Contract.wp_mono (sworn_wait hK h) fun r w₁ h₁ => ?_)
      cases r with
      | error e => exact ⟨h₁.1, fun he => absurd (by cases he; rfl) h₁.2⟩
      | ok u =>
          refine (Contract.wp_bind _ _ _ _).2 ((Contract.wp_of_except _ _ _).2 ?_)
          cases out with
          | error e => exact ⟨h₁.1, fun he => absurd (by cases he; rfl) hout⟩
          | ok result =>
              refine (Contract.wp_bind _ _ _ _).2 (sworn_check hK htrue h₁.1 (fun w₂ h₂ => ?_)
                fun w₂ h₂ => ?_)
              · exact ran_of_signalled h₂
              · exact ⟨h₂, fun he => by cases he⟩
  | succ polls ih =>
      refine (Contract.wp_bind _ _ _ _).2 (Contract.wp_mono (sworn_wait hK h) fun r w₁ h₁ => ?_)
      cases r with
      | error e => exact ⟨h₁.1, fun he => absurd (by cases he; rfl) h₁.2⟩
      | ok u =>
          refine (Contract.wp_bind _ _ _ _).2 (sworn_check hK htrue h₁.1 (fun w₂ h₂ => ?_)
            fun w₂ h₂ => ih h₂)
          have hstop : Within Roaming (Before m) (do
              request_runner_cancel node m
              cancel_run k
              let _ ← Co.attempt (on m (.unwind k))
              .raise .job_cancelled : Prog Ir ExecutionResult) :=
            (Polls.within polls_request_runner_cancel).bind fun _ =>
              (Polls.within (polls_cancel_run Roaming.permits.toManages.runs k)).bind fun _ =>
                (Within.attempt (inner_on rfl (by simp))).bind fun _ => trivial
          have hlasting := htrue.and (lasting_signalled m job_id)
          exact Contract.wp_mono (sworn_within hK hlasting hstop w₂ h₂) fun _ _ => ran_of_signalled

theorem sworn_run_job (hnode : node.Ordinary) {ir : Ir} {shots : Int}
    (h : Sworn node (fun _ => True) w) :
    K.wp (run_job_with_cancellation node m job_id ir shots) (Ran node m job_id) w := by
  have howes := owes_sworn hK lasting_trivial
  have hstep : ∀ {f : World Ir → World Ir} {w : World Ir}, Roaming f →
      Sworn node (fun _ => True) w → K.keep w (f w) ∧ Sworn node (fun _ => True) (f w) := by
    intro f w hf h
    have h' := h.plain hf lasting_trivial
    exact ⟨howes.keep w (f w) h h' (.of_tasks (hf.tasks w) (hf.grows w)), h'⟩
  have hout : ∀ k, (node.run k ir shots).out ≠ .error .job_cancelled := fun k hc =>
    (Exn.ordinary_iff.1 (hnode.run k ir shots _ hc)).1 rfl
  refine (Contract.wp_bind _ _ _ _).2
    ((Contract.wp_look _ _ _).2 ⟨howes.keep w w h h (.refl w), ?_⟩)
  rw [Contract.and_then_ok]
  obtain ⟨hk, h₁⟩ := hstep (Roaming.permits.starts (.run w.exec.runs)) h
  refine (Contract.wp_bind _ _ _ _).2 ((Contract.wp_update _ _ _).2 ⟨hk, ?_⟩)
  rw [Contract.and_then_ok]
  cases hplan : node.run w.exec.runs ir shots with
  | refuses e =>
      obtain ⟨hk₂, h₂⟩ := hstep (Roaming.permits.exec _) h₁
      refine (Contract.wp_bind _ _ _ _).2 ⟨hk₂, h₂, fun he => ?_⟩
      have := hout w.exec.runs
      rw [hplan] at this
      exact absurd (by cases he; rfl) this
  | runs polls out =>
      have hne : out ≠ .error .job_cancelled := by
        have := hout w.exec.runs
        rwa [hplan] at this
      obtain ⟨hk₂, h₂⟩ := hstep (Roaming.permits.exec _) h₁
      refine (Contract.wp_bind _ _ _ _).2 ⟨hk₂, ?_⟩
      refine (Contract.wp_try_finally _ _ _ _).2 (Contract.wp_mono (sworn_poll hK hne polls h₂)
        fun r w₃ h₃ => ?_)
      obtain ⟨hk₄, h₄⟩ := hstep (Roaming.permits.exec _) h₃.1
      exact ⟨hk₄, h₄, h₃.2⟩

/-- How the `try` block of `_process_message` ends. -/
def Executed (node : Node Ir) (m : Message) (job_id url : String) (r : Except Exn Unit)
    (w : World Ir) : Prop :=
  Sworn node (Accounted node m job_id url) w ∨ ∃ e, r = .error e ∧ Ran node m job_id r w

theorem sworn_execute (hnode : node.Ordinary) {decoded : List (String × String)}
    (hm : m.header = .ok (decoded, job_id, url)) (h : Sworn node (fun _ => True) w) :
    K.wp (execute node m decoded job_id url) (Executed node m job_id url) w := by
  have htrue := @lasting_trivial Ir
  have hcut : ∀ w', Sworn node (fun log => True ∧ Signalled m job_id log) w' →
      Executed node m job_id url (.error .job_cancelled) w' := fun w' h' =>
    .inr ⟨_, rfl, ran_of_signalled h'⟩
  refine (Contract.wp_bind _ _ _ _).2 ((Contract.wp_of_except _ _ _).2 ?_)
  cases hparse : node.parse_job decoded with
  | error e =>
      refine .inr ⟨e, rfl, h, fun he => ?_⟩
      cases he
      exact absurd rfl (Exn.ordinary_iff.1 (node.parse_job_ordinary hparse)).1
  | ok job =>
      refine (Contract.wp_bind _ _ _ _).2 (Contract.wp_mono (sworn_run_job hK hnode h)
        fun r w₁ h₁ => ?_)
      cases r with
      | error e => exact .inr ⟨e, rfl, h₁.1, fun he => h₁.2 (by cases he; rfl)⟩
      | ok result =>
          refine (Contract.wp_bind _ _ _ _).2 (sworn_check hK htrue h₁.1 hcut fun w₂ h₂ => ?_)
          refine (Contract.wp_bind _ _ _ _).2
            ⟨(owes_sworn hK htrue).keep w₂ w₂ h₂ h₂ (.refl w₂), ?_⟩
          refine (Contract.wp_bind _ _ _ _).2 (sworn_hset hK htrue h₂ fun w₃ h₃ => ?_)
          refine (Contract.wp_bind _ _ _ _).2
            (sworn_check hK htrue (h₃.mono fun _ _ => trivial) hcut fun w₄ h₄ => ?_)
          refine (Contract.wp_bind _ _ _ _).2 (Contract.wp_mono
            (sworn_post hK htrue rfl (by simp) h₄) fun r w₅ h₅ => ?_)
          have h₆ : Sworn node (Accounted node m job_id url) w₅ :=
            h₅.mono fun _ hl => .completed result ⟨decoded, job, hm, hparse⟩ hl.2
          cases r with
          | error e => exact .inl h₆
          | ok u =>
              have hlast : Within Roaming (Before m) (do
                  let last_job_at ← now
                  Co.update (·.set_self ({ · with last_job_at := some last_job_at }))
                  : Prog Ir Unit) :=
                (Within.look Roaming.permits.look).bind fun _ =>
                  Within.update (Roaming.permits.self _ fun _ => ⟨rfl, rfl, rfl⟩)
              exact Contract.wp_mono (sworn_within hK (lasting_accounted node m job_id url) hlast
                w₅ h₆) fun _ _ h₇ => .inl h₇

/-- The `except` clauses of `_process_message`. -/
theorem sworn_on_exception {e : Exn} (he : e ≠ .cancelled)
    (h : Executed node m job_id url (.error e) w) :
    K.wp (on_exception node m job_id url e)
      (fun _ w' => Sworn node (Accounted node m job_id url) w') w := by
  have htrue := @lasting_trivial Ir
  have hmark : ∀ w', Sworn node (fun log => True ∧ Signalled m job_id log) w' →
      K.wp (mark_job_cancelled node m job_id)
        (fun _ w' => Sworn node (Accounted node m job_id url) w') w' := fun w' h' =>
    Contract.wp_mono (sworn_mark_job_cancelled hK (htrue.and (lasting_signalled m job_id))
      (fun _ hl => hl.2) url h') fun _ _ h'' => h''.2
  rcases h with h | ⟨_, -, h⟩
  · have hlasting := lasting_accounted node m job_id url
    exact sworn_within hK hlasting
      (inner_on_exception Roaming.permits.toManages.runs Roaming.post (Roaming.enter _) e) w h
  have henter : K.keep w (w.enter .handler) ∧ Sworn node (fun _ => True) (w.enter .handler) :=
    ⟨(owes_sworn hK htrue).keep w _ h.1 ⟨h.1.1, trivial⟩ (.of_tasks rfl (List.suffix_refl _)),
      h.1.1, trivial⟩
  have hreport : K.wp (report_failure node m job_id url e)
      (fun _ w' => Sworn node (Accounted node m job_id url) w') (w.enter .handler) := by
    refine (Contract.wp_bind _ _ _ _).2 (sworn_check hK htrue henter.2 (fun w₁ h₁ => hmark w₁ h₁)
      fun w₁ h₁ => ?_)
    refine (Contract.wp_bind _ _ _ _).2 ⟨(owes_sworn hK htrue).keep w₁ w₁ h₁ h₁ (.refl w₁), ?_⟩
    refine (Contract.wp_bind _ _ _ _).2 (sworn_hset hK htrue h₁ fun w₂ h₂ => ?_)
    refine (Contract.wp_try_except _ _ _ _).2 (Contract.wp_mono
      (sworn_post hK htrue rfl (by simp) (h₂.mono fun _ _ => trivial)) fun r w₃ h₃ => ?_)
    have h₄ : Sworn node (Accounted node m job_id url) w₃ :=
      h₃.mono fun _ hl => .failed _ hl.2
    cases r with
    | ok u => exact h₄
    | error e' =>
        show K.wp (if e' = .cancelled then _ else _) _ w₃
        split
        · exact h₄
        · exact h₄
  cases e with
  | cancelled => exact absurd rfl he
  | job_cancelled =>
      refine (Contract.wp_bind _ _ _ _).2 ⟨henter.1, hmark _ ⟨h.1.1, trivial, ?_⟩⟩
      exact h.2 rfl
  | _ => exact (Contract.wp_bind _ _ _ _).2 ⟨henter.1, hreport⟩

/-- The `finally` clause, once the job is accounted for. -/
theorem sworn_release (hF : Lasting F) (hsettled : ∀ log, F log → Settled node m log) :
    K.Keeps (Sworn node F) (release m : Prog Ir Unit) := by
  have henter : ∀ r, K.Keeps (Sworn node F) (enter r : Prog Ir Unit) := fun r =>
    sworn_within (m := m) hK hF (Within.update (Roaming.enter r))
  have hidle : K.Keeps (Sworn node F) (Co.update (·.set_self
      ({ · with current_job_id := none, idle := true })) : Prog Ir Unit) :=
    sworn_within (m := m) hK hF
      (Within.update (Roaming.permits.self _ fun _ => ⟨rfl, rfl, rfl⟩))
  exact (henter _).bind fun _ => (sworn_xack hK hF hsettled).bind fun _ =>
    hidle.bind fun _ => henter _

theorem sworn_take_on (hanswer : ∀ q w r w', K.answer q w r w' → undisturbed q w r)
    (hnode : node.Ordinary) {decoded : List (String × String)}
    (hm : m.header = .ok (decoded, job_id, url)) :
    K.Keeps (Sworn node fun _ => True) (take_on node m decoded job_id url) := by
  have hlasting := lasting_accounted node m job_id url
  have hjob : ∀ w, Sworn node (fun _ => True) w → K.wp (Co.try_finally
      (Co.try_except (execute node m decoded job_id url) (on_exception node m job_id url))
      (release m)) (fun _ w' => Sworn node (fun _ => True) w') w := by
    intro w h
    have hcalm : Calm (execute node m decoded job_id url) := calm_execute hnode
    refine (Contract.wp_try_finally _ _ _ _).2 (Contract.wp_mono (Q := fun _ w' =>
      Sworn node (Accounted node m job_id url) w') ((Contract.wp_try_except _ _ _ _).2
      (Contract.wp_mono (hcalm.wp (fun q w r w' ha => (hanswer q w r w' ha).2)
        (sworn_execute hK hnode hm h)) fun r w₁ h₁ => ?_)) fun r w₂ h₂ => ?_)
    · cases r with
      | ok u =>
          rcases h₁.1 with h₁ | ⟨e, he, -⟩
          · exact h₁
          · cases he
      | error e => exact sworn_on_exception hK (h₁.2 e rfl) h₁.1
    · refine Contract.wp_mono (sworn_release hK hlasting (fun _ => settled_of_accounted hm) w₂ h₂)
        fun u w₃ h₃ => ?_
      cases u <;> exact h₃.mono fun _ _ => trivial
  have hset : K.Keeps (Sworn node fun _ => True) (Co.update (·.set_self
      ({ · with idle := false, current_job_id := some job_id })) : Prog Ir Unit) :=
    sworn_within (m := m) hK lasting_trivial
      (Within.update (Roaming.permits.self _ fun _ => ⟨rfl, rfl, rfl⟩))
  have hlook : K.Keeps (Sworn node fun _ => True) (now : Prog Ir String) :=
    (owes_sworn hK lasting_trivial).look
  have hwrite : ∀ started_at, K.Keeps (Sworn node fun _ => True)
      (safe_hset m (status_key job_id) (executing_record node m started_at)) := fun _ =>
    sworn_within hK lasting_trivial inner_hset
  have henter : K.Keeps (Sworn node fun _ => True) (enter .body : Prog Ir Unit) :=
    sworn_within (m := m) hK lasting_trivial (Within.update (Roaming.enter _))
  exact hset.bind fun _ => hlook.bind fun started_at => (hwrite started_at).bind fun _ =>
    henter.bind fun _ => hjob

/-- What is skipped for its status, or for its cancel key. -/
theorem sworn_status {decoded : List (String × String)}
    (hm : m.header = .ok (decoded, job_id, url)) {p q : Prog Ir α}
    (hover : ∀ F : List (Entry Ir) → Prop, Lasting F → (∀ log, F log → Settled node m log) →
      K.Keeps (Sworn node F) p)
    (hq : K.Keeps (Sworn node fun _ => True) q) :
    K.Keeps (Sworn node fun _ => True) (do
      let status ← get_job_status m job_id
      if terminal status then p
      else if ← has_cancel_signal m job_id then
        mark_job_cancelled node m job_id
        p
      else q) := by
  have htrue := @lasting_trivial Ir
  have hlasting := lasting_accounted node m job_id url
  have hp := hover _ hlasting fun _ => settled_of_accounted hm
  intro w h
  refine (Contract.wp_bind _ _ _ _).2
    (sworn_redis hK htrue rfl (by simp) rfl (by simp) h fun status w₁ h₁ => ?_)
  rw [Contract.and_then_ok]
  split
  · next hterminal =>
      exact Contract.wp_mono (hp w₁ (h₁.mono fun _ hl => .over status hterminal hl.2))
        fun _ _ h₂ => h₂.mono fun _ _ => trivial
  · refine (Contract.wp_bind _ _ _ _).2 (sworn_check hK htrue (h₁.mono fun _ _ => trivial)
      (fun w₂ h₂ => ?_) fun w₂ h₂ => hq w₂ h₂)
    refine (Contract.wp_bind _ _ _ _).2 (Contract.wp_mono (sworn_mark_job_cancelled hK
      (htrue.and (lasting_signalled m job_id)) (fun _ hl => hl.2) url h₂) fun r w₃ h₃ => ?_)
    obtain ⟨rfl, h₃⟩ := h₃
    exact Contract.wp_mono (hp w₃ h₃) fun _ _ h₄ => h₄.mono fun _ _ => trivial

theorem sworn_process_message (hanswer : ∀ q w r w', K.answer q w r w' → undisturbed q w r)
    (hnode : node.Ordinary) : K.Keeps (Sworn node fun _ => True) (process_message node m) := by
  have htrue := @lasting_trivial Ir
  have hbegin : K.Keeps (Sworn node fun _ => True)
      (do enter .outside; mark (.handling m) : Prog Ir Unit) :=
    sworn_within (m := m) hK htrue ((Within.update (Roaming.enter _)).bind fun _ =>
      Within.update (Roaming.mark _ rfl))
  refine hbegin.bind fun _ => ?_
  cases decode_fields m.fields with
  | error e => exact .raise _
  | ok fields =>
      dsimp only
      cases hm : m.header with
      | error e => exact sworn_skip hK htrue fun _ _ => settled_of_header hm
      | ok header =>
          obtain ⟨decoded, job_id, url⟩ := header
          exact sworn_status hK hm (fun F hF => sworn_skip hK hF)
            (sworn_take_on hK hanswer hnode hm)

theorem sworn_examine : K.Keeps (Sworn node fun _ => True) (examine node m) := by
  have htrue := @lasting_trivial Ir
  have hnone : ∀ F : List (Entry Ir) → Prop, Lasting F → (∀ log, F log → Settled node m log) →
      K.Keeps (Sworn node F) (do let _ ← safe_xack m; pure none : Prog Ir (Option (Parsed Ir))) :=
    fun F hF hsettled => (sworn_xack hK hF hsettled).bind fun _ => .ret _
  unfold examine
  cases decode_fields m.fields with
  | error e => exact .raise _
  | ok fields =>
      dsimp only
      cases hm : m.header with
      | error e => exact hnone _ htrue fun _ _ => settled_of_header hm
      | ok header =>
          obtain ⟨decoded, job_id, url⟩ := header
          refine sworn_status hK hm hnone ?_
          cases hparse : node.parse_job decoded with
          | ok job => exact .ret _
          | error e =>
              have hfits : ¬ m.Fits node job_id url := by
                rintro ⟨decoded', job, hm', hparse'⟩
                rw [hm] at hm'
                cases hm'
                rw [hparse] at hparse'
                cases hparse'
              intro w h
              have h' : Sworn node (fun log => Noted log (.mark (.skipped m)))
                  (w.record (.mark (.skipped m))) := by
                have hline : Sworn node (fun _ => True) (w.record (.mark (.skipped m))) :=
                  h.line htrue rfl fun m' took r hx => by cases hx
                exact ⟨hline.1, _, List.mem_cons_self, rfl⟩
              have hkeep := (owes_sworn hK htrue).keep _ _ h (h'.mono fun _ _ => trivial)
                (.of_tasks rfl (List.suffix_cons _ _))
              refine (Contract.wp_bind _ _ _ _).2 ((Contract.wp_update _ _ _).2 ⟨hkeep, ?_⟩)
              rw [Contract.and_then_ok]
              refine Contract.wp_mono (hnone _ (lasting_noted _)
                (fun log hl => settled_of_accounted hm (.skipped hfits hl)) _ h') ?_
              exact fun _ _ h₂ => h₂.mono fun _ _ => trivial

theorem sworn_deliver_single {result : ExecutionResult} {completed_at : String}
    (hfits : m.Fits node job_id url) : K.Keeps (Sworn node fun _ => True)
      (deliver_single_batch_result node m job_id url result completed_at) := by
  have htrue := @lasting_trivial Ir
  have hlasting := lasting_accounted node m job_id url
  obtain ⟨decoded, job, hm, hparse⟩ := hfits
  have hdone : ∀ w, Sworn node (Accounted node m job_id url) w →
      K.wp (do let _ ← safe_xack m : Prog Ir Unit)
        (fun _ w' => Sworn node (fun _ => True) w') w := fun w h =>
    Contract.wp_mono (sworn_skip hK hlasting (fun _ => settled_of_accounted hm) w h)
      fun _ _ h' => h'.mono fun _ _ => trivial
  have hcancelled : ∀ w, Sworn node (fun log => True ∧ Signalled m job_id log) w → K.wp (do
      mark_job_cancelled node m job_id
      let _ ← safe_xack m) (fun _ w' => Sworn node (fun _ => True) w') w := by
    intro w h
    refine (Contract.wp_bind _ _ _ _).2 (Contract.wp_mono (sworn_mark_job_cancelled hK
      (htrue.and (lasting_signalled m job_id)) (fun _ hl => hl.2) url h) fun r w' h' => ?_)
    obtain ⟨rfl, h'⟩ := h'
    exact hdone w' h'
  intro w h
  refine (Contract.wp_bind _ _ _ _).2 (sworn_check hK htrue h hcancelled fun w₁ h₁ => ?_)
  refine (Contract.wp_bind _ _ _ _).2 (sworn_hset hK htrue h₁ fun w₂ h₂ => ?_)
  refine (Contract.wp_bind _ _ _ _).2
    (sworn_check hK htrue (h₂.mono fun _ _ => trivial) hcancelled fun w₃ h₃ => ?_)
  refine (Contract.wp_bind _ _ _ _).2 ((Contract.wp_try_except _ _ _ _).2 (Contract.wp_mono
    (sworn_post hK htrue rfl (by simp) h₃) fun r w₄ h₄ => ?_))
  have h₅ : Sworn node (Accounted node m job_id url) w₄ :=
    h₄.mono fun _ hl => .completed result ⟨decoded, job, hm, hparse⟩ hl.2
  cases r with
  | ok u => exact hdone w₄ h₅
  | error e =>
      show K.wp (if e = .cancelled then _ else _) _ w₄
      split
      · exact h₅.mono fun _ _ => trivial
      · exact hdone w₄ h₅

/-! ## The consumer -/

/-- The loops around the handlers. -/
theorem sworn_loops (hanswer : ∀ q w r w', K.answer q w r w' → undisturbed q w r)
    (hnode : node.Ordinary)
    (hread : ∀ count w, Answerable node w.log → K.pre ⟨none, .xreadgroup count⟩ w)
    (hcreate : ∀ t w, t.Faithful node → Answerable node (w.create_task t).log →
      K.keep w (w.create_task t)) :
    Everywhere K node undisturbed (fun w => Answerable node w.log)
      fun w => Answerable node w.log := by
  have htrue := @lasting_trivial Ir
  have hlift : ∀ {β : Type} {p : Prog Ir β}, K.Keeps (Sworn node fun _ => True) p →
      K.Keeps (fun w => Answerable node w.log) p := fun hp w h =>
    Contract.wp_mono (hp w ⟨h, trivial⟩) fun _ _ h' => h'.1
  have hcall : ∀ c : Call Ir, ∀ w r w', Answerable node w.log → answers node ⟨none, c⟩ w r w' →
      Answerable node w'.log := fun c w r w' h hans =>
    (Sworn.answered (w := w) ⟨h, trivial⟩ htrue (Answered.of_answers hans)
      fun m hm => by cases hm).1
  have hstep : ∀ f : World Ir → World Ir, Bookkeeping f → ∀ w, Answerable node w.log →
      Answerable node (f w).log := by
    intro f hf w h
    rcases hf.log w with hl | ⟨x, hl⟩
    · rwa [hl]
    · rw [hl]
      exact h.cons fun m took r hx => by cases hx
  exact {
    owes := hK
    call := fun c _ _ w r w' h hans _ => hcall c w r w' h hans
    recovery := hstep _ (.starts _)
    write := fun m job_id mapping => hlift (sworn_within hK htrue inner_hset)
    message := fun m => (hlift (sworn_process_message hK hanswer hnode)).unless
    examine := fun m => hlift (sworn_examine hK)
    step := fun f hf => hstep f hf.bookkeeping
    create := fun t w h ht => ⟨h, hcreate t w ht h⟩
    read := hread
    batch := fun jobs => hK.run_batch (fun _ => hstep _ (.starts _))
      (fun w f => hstep _ (.set_exec f) w)
      fun _ _ w r w' h hans _ => hcall _ w r w' h hans }

end Handlers

/-- The job was found over, was recorded as cancelled, or a webhook was begun for it. -/
def Event.accounts (job_id : String) : Event Ir → Bool
  | .ended ⟨_, .hget key _⟩ _ (.ok status) => key == status_key job_id && terminal status
  | .ended ⟨_, .hset key mapping⟩ _ _ =>
      key == status_key job_id && record_state mapping == some "cancelled"
  | .started q => q.call.reports job_id
  | _ => false

/-- Two messages in one reply, the first of them malformed. -/
def malformed_message : Message := sample_message "1-0" "job-1" "not-json"

def malformed_world : World String :=
  sample_world [malformed_message, sample_message "2-0" "job-2" "not-json"]

def malformed_node : Node String :=
  sample_node (.runs 0 (.ok sample_result))
    (some fun _ jobs => .ok (jobs.map fun _ => sample_result))

set_option maxRecDepth 40000 in
/-- The batch is examined to its end: the message is ACK-ed, and its job is not accounted for. -/
theorem malformed_batch_run :
    ∃ x, Reaches malformed_node sets_only undisturbed malformed_world x ∧
      Noted x.state.log
        (.ended ⟨some malformed_message, .xack malformed_message.id⟩ true (.ok ())) ∧
      (x.state.log.all fun x => !x.event.accounts "job-1") = true := by
  have hok : ∀ (q : Req String) (w : World String) (v : q.Reply), undisturbed q w (.ok v) :=
    undisturbed_ok
  refine Kernel.exists_run_of_main _ (r := .ok ()) rfl
    ⟨answers_ok.2 ⟨_, ⟨rfl, rfl⟩, rfl⟩, hok _ _ _⟩ ?_
  refine Kernel.exists_run_of_main _ (r := .ok []) rfl
    ⟨answers_ok.2 ⟨_, ⟨rfl, rfl⟩, rfl⟩, hok _ _ _⟩ ?_
  refine Kernel.exists_run_of_main _ (r := .ok [(malformed_node.stream, [_, _])]) rfl
    ⟨answers_ok.2 ⟨_, ⟨2, by decide, rfl, rfl⟩, rfl⟩, hok _ _ _⟩ ?_
  -- the first message: no status, no cancel key, and no IR that parses
  refine Kernel.exists_run_of_main _ (r := .ok none) rfl
    ⟨answers_ok.2 ⟨_, ⟨rfl, rfl⟩, rfl⟩, hok _ _ _⟩ ?_
  refine Kernel.exists_run_of_main _ (r := .ok none) rfl
    ⟨answers_ok.2 ⟨_, ⟨rfl, rfl⟩, rfl⟩, hok _ _ _⟩ ?_
  refine Kernel.exists_run_of_main _ (r := .ok ()) rfl
    ⟨answers_ok.2 ⟨_, rfl, rfl⟩, hok _ _ _⟩ ?_
  -- the second message
  refine Kernel.exists_run_of_main _ (r := .ok none) rfl
    ⟨answers_ok.2 ⟨_, ⟨rfl, rfl⟩, rfl⟩, hok _ _ _⟩ ?_
  refine Kernel.exists_run_of_main _ (r := .ok none) rfl
    ⟨answers_ok.2 ⟨_, ⟨rfl, rfl⟩, rfl⟩, hok _ _ _⟩ ?_
  refine Kernel.exists_run_of_main _ (r := .ok ()) rfl
    ⟨answers_ok.2 ⟨_, rfl, rfl⟩, hok _ _ _⟩ ?_
  refine ⟨_, .refl, ?_, rfl⟩
  -- the two checks and the mark of the second message have been logged since
  have hlast : ∀ {x y z u v : Entry String} {log : List (Entry String)},
      Noted (x :: y :: z :: u :: v :: log) v.event := fun {x y z u v log} =>
    ⟨v, by simp, rfl⟩
  exact hlast

end CodaNode
