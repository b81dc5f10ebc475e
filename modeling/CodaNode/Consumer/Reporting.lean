/-
`Consumer/Reporting.lean` -- what becomes of a job whose run returned a result.

`_process_message` records the job as completed and delivers the result, in one `try` with
the execution. A delivery that fails is therefore handled like a job that fails: the
completion is overwritten, and an error is reported for a job that ran.
-/
import CodaNode.Consumer.Footprint
import CodaNode.Consumer.Single
import CodaNode.Webhook.Delivery

set_option autoImplicit false

open Coroutine

namespace CodaNode

open Webhook

variable {Ir : Type} {node : Node Ir} {m : Message} {job_id url : String}

/-! ## What is reported of a job -/

/-- A status write of this state for the job. -/
def Call.records (job_id st : String) : Call Ir → Bool
  | .hset key mapping => key == status_key job_id && record_state mapping == some st
  | _ => false

/-- The delivery of a result of the job. -/
def Call.results (job_id : String) : Call Ir → Bool
  | .send_result _ payload => payload.job_id == job_id
  | _ => false

/-- The delivery of an error of the job. -/
def Call.errors (job_id : String) : Call Ir → Bool
  | .send_error _ j _ => j == job_id
  | _ => false

/-- What has been reported of a job: how often it was recorded as failed, how many errors and
results were sent, how many results were lost, and its state. The runs are those of the
executor. -/
structure Report where
  failed : Nat
  errors : Nat
  sent : Nat
  lost : Nat
  runs : Nat
  state : Option String

def World.report (w : World Ir) (job_id : String) : Report where
  failed := w.count (Event.takes (Call.records job_id "failed"))
  errors := w.count (Event.starts (Call.errors job_id))
  sent := w.count (Event.starts (Call.results job_id))
  lost := w.count (Event.raises (Call.results job_id))
  runs := w.exec.runs
  state := w.state job_id

/-- The job has not been reported as failed, and a result that was lost has left it recorded
as completed. -/
structure Spared (ρ ρ' : Report) : Prop where
  failed : ρ'.failed = ρ.failed
  errors : ρ'.errors = ρ.errors
  completed : ρ.lost < ρ'.lost → ρ'.state = some "completed"

/-! ## The world of a handler -/

/-- Redis answers, and webhooks end as their network has it. -/
def deliveries (max_retries : Int) (net : Call Ir → Network) (q : Req Ir) (w : World Ir)
    (r : Except Exn q.Reply) : Prop :=
  redis_up q w r ∧ (q.call.is_webhook = true → ∀ e, r = .error e ↔
    post_with_retry (net q.call) max_retries = .error e)

/-- A handler by itself, with these networks. -/
abbrev posting (node : Node Ir) (max_retries : Int) (net : Call Ir → Network) :
    Host (World Ir) (@Req.Reply Ir) Exn :=
  lone node (fun _ _ => True) (deliveries max_retries net)

/-- The delivery of the result does not fail; a cancellation is no failure. -/
def Undaunted (max_retries : Int) (net : Network) : Prop :=
  ∀ e, post_with_retry net max_retries = .error e → e = .cancelled

/-! ## One step -/

section Steps

variable {w w' : World Ir}

theorem report_drift (h : Drift (fun _ _ => True) w w') (job_id : String) :
    w'.report job_id = w.report job_id := by
  have hruns : w'.exec.runs = w.exec.runs := by rw [h.exec.1]
  simp only [World.report, World.count_drift h, h.state, hruns]

@[simp] theorem report_enter (r : Region) : (w.enter r).report job_id = w.report job_id := rfl

@[simp] theorem report_set_self (f : Attributes → Attributes) :
    (w.set_self f).report job_id = w.report job_id := rfl

@[simp] theorem report_mark (x : Mark) :
    (w.record (.mark x)).report job_id = w.report job_id := by
  simp [World.report]

@[simp] theorem report_set_exec (f : Exec → Exec) : (w.set_exec f).report job_id =
    { w.report job_id with runs := (f w.exec).runs } := rfl

/-- The operations that no report is changed by. -/
def Call.tacit : Call Ir → Bool
  | .hget _ _ | .xack _ => true
  | c => c.polls

/-- Such an operation leaves the hashes and the number of runs alone. -/
theorem tacit_performs {c : Call Ir} {v : c.Reply} (hc : c.tacit = true)
    (h : performs node c w v w') : w'.hashes = w.hashes ∧ w'.exec.runs = w.exec.runs ∧
      w'.log = w.log := by
  cases c with
  | hget key field => obtain ⟨-, rfl⟩ := h; exact ⟨rfl, rfl, rfl⟩
  | get key => obtain ⟨-, rfl⟩ := h; exact ⟨rfl, rfl, rfl⟩
  | xack id => cases h; exact ⟨rfl, rfl, rfl⟩
  | wait k timed_out => cases timed_out <;> cases h <;> exact ⟨rfl, rfl, rfl⟩
  | cancel_current_job => cases h; exact ⟨rfl, rfl, rfl⟩
  | unwind k => cases h; exact ⟨rfl, rfl, rfl⟩
  | _ => cases hc

/-- A line about an operation that is no write of a failure and no delivery of a result. -/
theorem report_ended {q : Req Ir} (took : Bool) (r : Except Exn q.Reply)
    (hfailed : q.call.records job_id "failed" = false) (hresult : q.call.results job_id = false) :
    (w.record (.ended q took r)).report job_id = w.report job_id := by
  cases r <;> simp [World.report, hfailed, hresult]

theorem report_tacit {q : Req Ir} {r : Except Exn q.Reply} (hq : q.call.tacit = true)
    (h : answers node q w r w') : w'.report job_id = w.report job_id := by
  have hsilent : q.call.records job_id "failed" = false ∧ q.call.results job_id = false := by
    cases hc : q.call <;> rw [hc] at hq <;> first | exact ⟨rfl, rfl⟩ | cases hq
  have hended : ∀ {w₁ : World Ir} (took : Bool), w₁.hashes = w.hashes ∧
      w₁.exec.runs = w.exec.runs ∧ w₁.log = w.log →
      (w₁.record (.ended q took r)).report job_id = w.report job_id := by
    rintro w₁ took ⟨hhashes, hruns, hlog⟩
    rw [report_ended took r hsilent.1 hsilent.2]
    simp only [World.report, World.count, World.state, hhashes, hruns, hlog]
  rcases h with ⟨v, w₁, hp, -, rfl⟩ | ⟨e, -, -, -, rfl⟩ | ⟨e, v, w₁, -, -, hp, -, rfl⟩
  · exact hended true (tacit_performs hq hp)
  · exact hended false ⟨rfl, rfl, rfl⟩
  · exact hended true (tacit_performs hq hp)

/-- A status write that takes effect. -/
theorem report_hset {mapping : List (String × String)} {st : String}
    (hst : record_state mapping = some st) :
    ((w.hset (status_key job_id) mapping).record
      (.ended ⟨some m, .hset (status_key job_id) mapping⟩ true (.ok ()))).report job_id =
      { w.report job_id with
        failed := (w.report job_id).failed + if st = "failed" then 1 else 0
        state := some st } := by
  have hrecords : (Call.hset (status_key job_id) mapping : Call Ir).records job_id "failed" =
      decide (st = "failed") := by
    simp only [Call.records, hst, beq_self_eq_true, Bool.true_and]
    rfl
  simp only [World.report, World.count_record, World.state_record, World.state_write _ _ hst,
    Event.takes_ended, hrecords]
  simp

/-- The delivery of the result begins. -/
theorem report_send_result {q : Req Ir} (hq : q.call.results job_id = true)
    (herror : q.call.errors job_id = false) : (w.record (.started q)).report job_id =
      { w.report job_id with sent := (w.report job_id).sent + 1 } := by
  simp [World.report, hq, herror]

/-- The delivery of an error begins. -/
theorem report_send_error {q : Req Ir} (hq : q.call.errors job_id = true)
    (hresult : q.call.results job_id = false) : (w.record (.started q)).report job_id =
      { w.report job_id with errors := (w.report job_id).errors + 1 } := by
  simp [World.report, hq, hresult]

/-- It returns. -/
theorem report_result_ok {q : Req Ir} (took : Bool) (v : q.Reply)
    (hfailed : q.call.records job_id "failed" = false) :
    (w.record (.ended q took (.ok v))).report job_id = w.report job_id := by
  simp [World.report, hfailed]

/-- It raises. -/
theorem report_result_error {q : Req Ir} (took : Bool) (e : Exn)
    (hq : q.call.results job_id = true) (hfailed : q.call.records job_id "failed" = false) :
    (w.record (.ended q took (.error e))).report job_id =
      { w.report job_id with lost := (w.report job_id).lost + 1 } := by
  simp [World.report, hq, hfailed]

end Steps

/-! ## Rules -/

section Rules

variable {max_retries : Int} {net : Call Ir → Network} {D : Prop} {ρ₀ ρ : Report}
variable {w : World Ir}

/-- If the delivery does not fail once it has begun, the job is spared. -/
def Good (D : Prop) (ρ₀ ρ : Report) : Prop := (ρ₀.sent < ρ.sent → D) → Spared ρ₀ ρ

/-- At the end it is spared only then. -/
def Final (D : Prop) (ρ₀ ρ : Report) : Prop :=
  Good D ρ₀ ρ ∧ (Spared ρ₀ ρ → ρ₀.sent < ρ.sent → D)

/-- The contract of a handler that keeps the job `Good` at every await. -/
def reporting (node : Node Ir) (max_retries : Int) (net : Call Ir → Network) (job_id : String)
    (D : Prop) (ρ₀ : Report) : Contract (World Ir) (@Req.Reply Ir) Exn where
  pre _ w := Good D ρ₀ (w.report job_id)
  rely := Drift fun _ _ => True
  answer := (posting node max_retries net).answer
  keep _ _ := True

/-- A job of which no result has been sent is spared, whatever its state. -/
theorem final_unsent {st : Option String} {runs : Nat} :
    Final D ρ₀ { ρ₀ with state := st, runs := runs } :=
  ⟨fun _ => ⟨rfl, rfl, fun h => absurd h (Nat.lt_irrefl _)⟩,
    fun _ h => absurd h (Nat.lt_irrefl _)⟩


theorem pre_of_report (hw : w.report job_id = ρ) (hg : Good D ρ₀ ρ) {q : Req Ir} :
    (reporting node max_retries net job_id D ρ₀).pre q w := by
  show Good D ρ₀ (w.report job_id)
  rwa [hw]

/-- An operation that changes no report. -/
theorem wp_tacit (hw : w.report job_id = ρ) (hg : Good D ρ₀ ρ) {c : Call Ir}
    (hc : c.tacit = true) {Q : Except Exn c.Reply → World Ir → Prop}
    (hQ : ∀ w₁ r w', (posting node max_retries net).answer ⟨some m, c⟩ w₁ r w' →
      w'.report job_id = ρ → Q r w') :
    (reporting node max_retries net job_id D ρ₀).wp (on m c) Q w := by
  refine (Contract.wp_call _ _ _).2 ⟨pre_of_report hw hg, fun w₁ hd r w' ha => ⟨trivial, ?_⟩⟩
  exact hQ w₁ r w' ha ((report_tacit hc ha.1).trans ((report_drift hd job_id).trans hw))

/-- `GET` of the job's cancel key. -/
theorem wp_signal (hw : w.report job_id = ρ) (hg : Good D ρ₀ ρ)
    {Q : Except Exn Bool → World Ir → Prop}
    (hQ : ∀ b w', w'.report job_id = ρ → Q (.ok b) w') :
    (reporting node max_retries net job_id D ρ₀).wp (has_cancel_signal m job_id) Q w := by
  refine (Contract.wp_bind _ _ _ _).2 (wp_tacit hw hg rfl fun w₁ r w' ha hw' => ?_)
  obtain ⟨v, rfl⟩ := ha.2.1.ok rfl (by simp)
  exact hQ _ w' hw'

/-- A status record. -/
theorem wp_record (hw : w.report job_id = ρ) (hg : Good D ρ₀ ρ)
    {mapping : List (String × String)} {st : String} (hst : record_state mapping = some st)
    {Q : Except Exn Bool → World Ir → Prop}
    (hQ : ∀ w', w'.report job_id = { ρ with
      failed := ρ.failed + if st = "failed" then 1 else 0, state := some st } → Q (.ok true) w') :
    (reporting node max_retries net job_id D ρ₀).wp (safe_hset m (status_key job_id) mapping)
      Q w := by
  refine (Contract.wp_try_except _ _ _ _).2 ((Contract.wp_bind _ _ _ _).2
    ((Contract.wp_call _ _ _).2 ⟨pre_of_report hw hg, fun w₁ hd r w' ha => ⟨trivial, ?_⟩⟩))
  obtain ⟨⟨⟩, rfl⟩ := ha.2.1.ok rfl (by simp)
  obtain ⟨w₂, rfl, rfl⟩ := answers_ok.1 ha.1
  refine hQ _ ?_
  rw [report_hset hst, report_drift hd job_id, hw]

/-- `_mark_job_cancelled`. -/
theorem wp_cancelled (hw : w.report job_id = ρ) (hg : Good D ρ₀ ρ)
    {Q : Except Exn Unit → World Ir → Prop}
    (hQ : ∀ w', w'.report job_id = { ρ with state := some "cancelled" } → Q (.ok ()) w') :
    (reporting node max_retries net job_id D ρ₀).wp (mark_job_cancelled node m job_id) Q w := by
  refine (Contract.wp_bind _ _ _ _).2 ⟨trivial, (Contract.wp_bind _ _ _ _).2 ?_⟩
  exact wp_record hw hg (record_state_cancelled node m _) fun w' hw' => hQ w' (by simpa using hw')

/-- `XACK` of the message. -/
theorem wp_ack (hw : w.report job_id = ρ) (hg : Good D ρ₀ ρ)
    {Q : Except Exn Bool → World Ir → Prop}
    (hQ : ∀ w', w'.report job_id = ρ → Q (.ok true) w') :
    (reporting node max_retries net job_id D ρ₀).wp (safe_xack m) Q w := by
  refine (Contract.wp_try_except _ _ _ _).2 ((Contract.wp_bind _ _ _ _).2
    (wp_tacit hw hg rfl fun w₁ r w' ha hw' => ?_))
  obtain ⟨⟨⟩, rfl⟩ := ha.2.1.ok rfl (by simp)
  exact hQ w' hw'

/-- The `finally` clause keeps the outcome. -/
theorem wp_finally (hw : w.report job_id = ρ) (hg : Final D ρ₀ ρ) (r : Except Exn Unit) :
    (reporting node max_retries net job_id D ρ₀).wp (release m)
      (Contract.and_finally (fun _ w' => Final D ρ₀ (w'.report job_id)) r) w := by
  refine (Contract.wp_bind _ _ _ _).2 ⟨trivial, (Contract.wp_bind _ _ _ _).2 ?_⟩
  refine wp_ack (w := w.enter .cleanup) hw hg.1 fun w₁ hw₁ => ?_
  refine ⟨trivial, trivial, ?_⟩
  show Final D ρ₀ (w₁.report job_id)
  rwa [hw₁]

/-- An early return. -/
theorem wp_return (hw : w.report job_id = ρ) (hg : Final D ρ₀ ρ) :
    (reporting node max_retries net job_id D ρ₀).wp (do let _ ← safe_xack m : Prog Ir Unit)
      (fun _ w' => Final D ρ₀ (w'.report job_id)) w := by
  refine (Contract.wp_bind _ _ _ _).2 (wp_ack hw hg.1 fun w₁ hw₁ => ?_)
  show Final D ρ₀ (w₁.report job_id)
  rwa [hw₁]

/-! ## The run -/

/-- The poll loop of a run that returns `result`: it returns that, or the job is cancelled. -/
theorem wp_polling (hg : Good D ρ₀ ρ) {k : Nat} {result : ExecutionResult} (polls : Nat)
    (hw : w.report job_id = ρ) :
    (reporting node max_retries net job_id D ρ₀).wp (poll node m job_id k (.ok result) polls)
      (fun r w' => w'.report job_id = ρ ∧
        (r = .ok result ∨ r = .error .job_cancelled ∨ r = .error .cancelled)) w := by
  have hwait : ∀ {timed_out : Bool} {w₁ w' : World Ir} {e : Exn},
      (posting node max_retries net).answer ⟨some m, .wait k timed_out⟩ w₁ (.error e) w' →
      e = .cancelled := fun ha => (answers_error.1 ha.1).1
  induction polls generalizing w with
  | zero =>
      refine (Contract.wp_bind _ _ _ _).2 (wp_tacit hw hg rfl fun w₁ r w' ha hw' => ?_)
      cases r with
      | error e => exact ⟨hw', .inr (.inr (by rw [hwait ha]))⟩
      | ok v =>
          show (reporting node max_retries net job_id D ρ₀).wp (has_cancel_signal m job_id >>= _)
            _ w'
          refine (Contract.wp_bind _ _ _ _).2 (wp_signal hw' hg fun b w₂ hw₂ => ?_)
          cases b with
          | true => exact ⟨hw₂, .inr (.inl rfl)⟩
          | false => exact ⟨hw₂, .inl rfl⟩
  | succ polls ih =>
      refine (Contract.wp_bind _ _ _ _).2 (wp_tacit hw hg rfl fun w₁ r w' ha hw' => ?_)
      cases r with
      | error e => exact ⟨hw', .inr (.inr (by rw [hwait ha]))⟩
      | ok v =>
          refine (Contract.wp_bind _ _ _ _).2 (wp_signal hw' hg fun b w₂ hw₂ => ?_)
          cases b with
          | false => exact ih hw₂
          | true =>
              -- the run is cancelled, and its end is awaited
              have htail : ∀ w₃ : World Ir, w₃.report job_id = ρ →
                  (reporting node max_retries net job_id D ρ₀).wp (do
                    cancel_run k
                    let _ ← Co.attempt (on m (.unwind k))
                    (.raise .job_cancelled : Prog Ir ExecutionResult))
                    (fun r w' => w'.report job_id = ρ ∧
                      (r = .ok result ∨ r = .error .job_cancelled ∨ r = .error .cancelled)) w₃ := by
                intro w₃ hw₃
                refine (Contract.wp_bind _ _ _ _).2 ⟨trivial, (Contract.wp_bind _ _ _ _).2
                  ((Contract.wp_attempt _ _ _).2 ?_)⟩
                exact wp_tacit (w := w₃.set_exec (·.cancel_run k)) hw₃ hg rfl
                  fun w₄ r w₅ _ hw₅ => ⟨hw₅, .inr (.inl rfl)⟩
              refine (Contract.wp_bind _ _ _ _).2 ?_
              unfold request_runner_cancel
              split
              · refine (Contract.wp_try_except _ _ _ _).2 (wp_tacit hw₂ hg rfl
                  fun w₃ r w₄ _ hw₄ => ?_)
                cases r with
                | ok v => exact htail w₄ hw₄
                | error e =>
                    show (reporting node max_retries net job_id D ρ₀).wp
                      (if e = .cancelled then _ else _) _ w₄
                    split
                    · next he => exact ⟨hw₄, .inr (.inr (by rw [he]))⟩
                    · exact htail w₄ hw₄
              · exact htail w₂ hw₂

/-- `_run_job_with_cancellation` of such a run. -/
theorem wp_running (hw : w.report job_id = ρ) (hg : ∀ runs, Good D ρ₀ { ρ with runs := runs })
    {ir : Ir} {shots : Int} {result : ExecutionResult}
    (hrun : (node.run ρ.runs ir shots).out = .ok result) :
    (reporting node max_retries net job_id D ρ₀).wp (run_job_with_cancellation node m job_id ir shots)
      (fun r w' => w'.report job_id = { ρ with runs := ρ.runs + 1 } ∧
        (r = .ok result ∨ r = .error .job_cancelled ∨ r = .error .cancelled)) w := by
  have hk : w.exec.runs = ρ.runs := congrArg Report.runs hw
  refine (Contract.wp_bind _ _ _ _).2 ⟨trivial, (Contract.wp_bind _ _ _ _).2 ⟨trivial, ?_⟩⟩
  dsimp only [id]
  rw [hk]
  cases hplan : node.run ρ.runs ir shots with
  | refuses e =>
      rw [hplan] at hrun
      cases hrun
  | runs polls out =>
      rw [hplan] at hrun
      cases hrun
      refine (Contract.wp_bind _ _ _ _).2 ⟨trivial, (Contract.wp_try_finally _ _ _ _).2 ?_⟩
      have hstarted : ((w.starts (.run ρ.runs)).set_exec Exec.start_run).report job_id =
          { ρ with runs := ρ.runs + 1 } := by
        rw [report_set_exec, World.starts, report_mark, hw]
        show { ρ with runs := w.exec.runs + 1 } = _
        rw [hk]
      exact Contract.wp_mono (wp_polling (hg _) polls hstarted) fun r w' h => ⟨trivial, h⟩

/-! ## The delivery -/

/-- What the `try` block has come to. -/
def Tried (D : Prop) (ρ₀ ρ : Report) : Except Exn Unit → Prop
  | .ok _ | .error .cancelled => Final D ρ₀ ρ
  | .error .job_cancelled => ∃ st runs, ρ = { ρ₀ with state := st, runs := runs }
  | .error _ => ¬ D ∧ ∃ runs, ρ = { ρ₀ with
      sent := ρ₀.sent + 1, lost := ρ₀.lost + 1, runs := runs, state := some "completed" }

/-- The job is not spared, and its result was sent in vain. -/
structure Belied (ρ₀ ρ : Report) : Prop where
  sent : ρ₀.sent < ρ.sent
  why : ρ₀.failed < ρ.failed ∨ ρ₀.lost < ρ.lost ∧ ρ.state ≠ some "completed"

theorem Belied.final (h : Belied ρ₀ ρ) (hD : ¬ D) : Final D ρ₀ ρ := by
  refine ⟨fun hgood => absurd (hgood h.sent) hD, fun hspared => ?_⟩
  rcases h.why with hfailed | ⟨hlost, hstate⟩
  · have heq := hspared.failed
    omega
  · exact absurd (hspared.completed hlost) hstate

/-- `send_result`, once the job is recorded as completed. -/
theorem wp_result {runs : Nat} {result : ExecutionResult} {c : Call Ir}
    (hc : c = .send_result url (completed_payload job_id result))
    (hD : D ↔ Undaunted max_retries (net c))
    (hw : w.report job_id = { ρ₀ with runs := runs, state := some "completed" }) :
    (reporting node max_retries net job_id D ρ₀).wp
      (send_result m url (completed_payload job_id result))
      (fun r w' => Tried D ρ₀ (w'.report job_id) r) w := by
  subst hc
  have hresult : (Call.send_result url (completed_payload job_id result) : Call Ir).results
      job_id = true := by
    simp [Call.results, completed_payload]
  have hstarted : (w.record (.started ⟨some m,
      .send_result url (completed_payload job_id result)⟩)).report job_id = { ρ₀ with
        sent := ρ₀.sent + 1, runs := runs, state := some "completed" } := by
    rw [report_send_result hresult rfl, hw]
  have hgood : Good D ρ₀ { ρ₀ with
      sent := ρ₀.sent + 1, runs := runs, state := some "completed" } :=
    fun _ => ⟨rfl, rfl, fun h => absurd h (Nat.lt_irrefl _)⟩
  refine (Contract.wp_bind _ _ _ _).2 ⟨trivial, (Contract.wp_call _ _ _).2
    ⟨pre_of_report hstarted hgood, fun w₁ hd r w' ha => ⟨trivial, ?_⟩⟩⟩
  have hnet := ha.2.2 rfl
  have hdrifted := (report_drift hd job_id).trans hstarted
  cases r with
  | ok v =>
      obtain ⟨w₂, hp, rfl⟩ := answers_ok.1 ha.1
      cases hp
      have hholds : D := by
        refine hD.2 fun e he => ?_
        cases (hnet e).2 he
      show Final D ρ₀ _
      rw [report_result_ok true v rfl, hdrifted]
      exact ⟨hgood, fun _ _ => hholds⟩
  | error e =>
      obtain ⟨hf, ⟨-, rfl⟩ | ⟨hm, -⟩⟩ := answers_error.1 ha.1
      · have hpost := (hnet e).1 rfl
        have hne : e ≠ .job_cancelled := hf
        by_cases hcancelled : e = .cancelled
        · subst hcancelled
          have hholds : D := hD.2 fun e he => by
            rw [hpost] at he
            cases he
            rfl
          show Final D ρ₀ _
          rw [report_result_error false _ hresult rfl, hdrifted]
          exact ⟨fun _ => ⟨rfl, rfl, fun _ => rfl⟩, fun _ _ => hholds⟩
        · have hfails : ¬ D := fun hholds => hcancelled (hD.1 hholds e hpost)
          rw [report_result_error false e hresult rfl, hdrifted]
          cases e <;> first | exact ⟨hfails, runs, rfl⟩ | contradiction
      · cases hm

/-! ## The handler -/

/-- The `try` block of a job whose run returns `result`. -/
theorem wp_tried {decoded : List (String × String)} {ir : Ir} {shots : Int}
    {result : ExecutionResult} {st : Option String} {c : Call Ir}
    (hjob : node.parse_job decoded = .ok (ir, shots))
    (hrun : (node.run ρ₀.runs ir shots).out = .ok result)
    (hc : c = .send_result url (completed_payload job_id result))
    (hD : D ↔ Undaunted max_retries (net c)) (hw : w.report job_id = { ρ₀ with state := st }) :
    (reporting node max_retries net job_id D ρ₀).wp (execute node m decoded job_id url)
      (fun r w' => Tried D ρ₀ (w'.report job_id) r) w := by
  have hcancelled : ∀ {w' : World Ir} {st : Option String} {runs : Nat},
      w'.report job_id = { ρ₀ with state := st, runs := runs } →
      Tried D ρ₀ (w'.report job_id) (.error .job_cancelled) := fun h => ⟨_, _, h⟩
  unfold execute
  rw [hjob]
  show (reporting node max_retries net job_id D ρ₀).wp
    (run_job_with_cancellation node m job_id ir shots >>= _) _ w
  have hclean : ∀ st runs, Final D ρ₀ { ρ₀ with state := st, runs := runs } :=
    fun _ _ => final_unsent
  refine (Contract.wp_bind _ _ _ _).2 (Contract.wp_mono
    (wp_running hw (fun runs => (hclean st runs).1) hrun) fun r w₁ h₁ => ?_)
  obtain ⟨hw₁, rfl | rfl | rfl⟩ := h₁
  · refine (Contract.wp_bind _ _ _ _).2 (wp_signal hw₁ (hclean _ _).1 fun b w₂ hw₂ => ?_)
    cases b with
    | true => exact hcancelled hw₂
    | false =>
        refine (Contract.wp_bind _ _ _ _).2 ⟨trivial, (Contract.wp_bind _ _ _ _).2 ?_⟩
        refine wp_record hw₂ (hclean _ _).1 (record_state_completed _) fun w₃ hw₃ => ?_
        rw [if_neg (by decide), Nat.add_zero] at hw₃
        refine (Contract.wp_bind _ _ _ _).2 (wp_signal hw₃ (hclean _ _).1 fun b w₄ hw₄ => ?_)
        cases b with
        | true => exact hcancelled hw₄
        | false =>
            refine (Contract.wp_bind _ _ _ _).2 (Contract.wp_mono
              (wp_result hc hD hw₄) fun r w₅ h₅ => ?_)
            cases r with
            | error e => exact h₅
            | ok v => exact ⟨trivial, trivial, h₅⟩
  · exact hcancelled hw₁
  · show Final D ρ₀ _
    rw [hw₁]
    exact hclean _ _

/-- The `except` clauses. -/
theorem wp_excepted {e : Exn} (htried : Tried D ρ₀ (w.report job_id) (.error e)) :
    (reporting node max_retries net job_id D ρ₀).wp (on_exception node m job_id url e)
      (fun _ w' => Final D ρ₀ (w'.report job_id)) w := by
  have hfailure : (¬ D ∧ ∃ runs, w.report job_id = { ρ₀ with
      sent := ρ₀.sent + 1, lost := ρ₀.lost + 1, runs := runs, state := some "completed" }) →
      (reporting node max_retries net job_id D ρ₀).wp (do
        enter .handler
        report_failure node m job_id url e)
        (fun _ w' => Final D ρ₀ (w'.report job_id)) w := by
    rintro ⟨hD, runs, hw⟩
    have hgood : ∀ {ρ : Report}, ρ₀.sent < ρ.sent → Good D ρ₀ ρ := fun hsent h =>
      absurd (h hsent) hD
    refine (Contract.wp_bind _ _ _ _).2 ⟨trivial, (Contract.wp_bind _ _ _ _).2 ?_⟩
    refine wp_signal (w := w.enter .handler) hw (hgood (Nat.lt_succ_self _)) fun b w₁ hw₁ => ?_
    cases b with
    | true =>
        -- the cancel key is set, and the completion is overwritten
        refine wp_cancelled hw₁ (hgood (Nat.lt_succ_self _)) fun w₂ hw₂ => ?_
        rw [hw₂]
        refine Belied.final ⟨Nat.lt_succ_self _, .inr ⟨Nat.lt_succ_self _, ?_⟩⟩ hD
        show some "cancelled" ≠ some "completed"
        decide
    | false =>
        refine (Contract.wp_bind _ _ _ _).2 ⟨trivial, (Contract.wp_bind _ _ _ _).2 ?_⟩
        refine wp_record hw₁ (hgood (Nat.lt_succ_self _)) (record_state_failed e _)
          fun w₂ hw₂ => ?_
        rw [if_pos rfl] at hw₂
        have hstarted := (report_send_error (w := w₂)
          (q := ⟨some m, .send_error url job_id e.text⟩) (beq_self_eq_true job_id) rfl).trans
            (congrArg (fun ρ : Report => { ρ with errors := ρ.errors + 1 }) hw₂)
        have hbelied : Belied ρ₀ ((w₂.record (.started ⟨some m,
            .send_error url job_id e.text⟩)).report job_id) := by
          rw [hstarted]
          exact ⟨Nat.lt_succ_self _, .inl (Nat.lt_succ_self _)⟩
        refine (Contract.wp_try_except _ _ _ _).2 ((Contract.wp_bind _ _ _ _).2
          ⟨trivial, (Contract.wp_call _ _ _).2 ⟨hgood hbelied.sent, fun w₃ hd r w₄ ha =>
            ⟨trivial, ?_⟩⟩⟩)
        have hended : Final D ρ₀ (w₄.report job_id) := by
          obtain ⟨w₅, took, hw₅, rfl⟩ : ∃ (w₅ : World Ir) (took : Bool), w₅ = w₃ ∧
              w₄ = w₅.record (.ended ⟨some m, .send_error url job_id e.text⟩ took r) := by
            rcases ha.1 with ⟨v, w₅, hp, -, rfl⟩ | ⟨e', -, -, -, rfl⟩ | ⟨e', v, w₅, hm, -⟩
            · exact ⟨w₅, true, hp, rfl⟩
            · exact ⟨w₃, false, rfl, rfl⟩
            · cases hm
          rw [report_ended took r rfl rfl, hw₅, report_drift hd job_id]
          exact hbelied.final hD
        cases r with
        | ok v => exact hended
        | error e' =>
            show (reporting node max_retries net job_id D ρ₀).wp
              (if e' = .cancelled then _ else _) _ w₄
            split <;> exact hended
  cases e with
  | cancelled => exact htried
  | job_cancelled =>
      obtain ⟨st, runs, hw⟩ := htried
      refine (Contract.wp_bind _ _ _ _).2 ⟨trivial, ?_⟩
      refine wp_cancelled (w := w.enter .handler) hw final_unsent.1 fun w₁ hw₁ => ?_
      rw [hw₁]
      exact final_unsent
  | connection msg => exact hfailure htried
  | response msg => exact hfailure htried
  | other msg => exact hfailure htried

/-- `_process_message`, for a job whose run returns `result`. -/
theorem wp_reported {decoded : List (String × String)} {ir : Ir} {shots : Int}
    {result : ExecutionResult} {c : Call Ir} (hm : m.header = .ok (decoded, job_id, url))
    (hjob : node.parse_job decoded = .ok (ir, shots))
    (hrun : (node.run ρ₀.runs ir shots).out = .ok result)
    (hc : c = .send_result url (completed_payload job_id result))
    (hD : D ↔ Undaunted max_retries (net c)) (hw : w.report job_id = ρ₀) :
    (reporting node max_retries net job_id D ρ₀).wp (process_message node m)
      (fun _ w' => Final D ρ₀ (w'.report job_id)) w := by
  have hclean : ∀ st runs, Final D ρ₀ { ρ₀ with state := st, runs := runs } :=
    fun _ _ => final_unsent
  have hstart : Final D ρ₀ ρ₀ := hclean ρ₀.state ρ₀.runs
  have hentered : ((w.enter .outside).record (.mark (.handling m))).report job_id = ρ₀ := by
    rw [report_mark, report_enter, hw]
  unfold process_message
  refine (Contract.wp_bind _ _ _ _).2 ⟨trivial, (Contract.wp_bind _ _ _ _).2 ⟨trivial, ?_⟩⟩
  simp only [m.decode_fields_of_header hm, hm]
  refine (Contract.wp_bind _ _ _ _).2 (wp_tacit hentered hstart.1 rfl fun w₁ r w₂ ha hw₂ => ?_)
  obtain ⟨status, rfl⟩ := ha.2.1.ok rfl (by simp)
  show (reporting node max_retries net job_id D ρ₀).wp (if terminal status = true then _ else _)
    _ w₂
  split
  · exact wp_return hw₂ hstart
  · refine (Contract.wp_bind _ _ _ _).2 (wp_signal hw₂ hstart.1 fun b w₃ hw₃ => ?_)
    cases b with
    | true =>
        refine (Contract.wp_bind _ _ _ _).2 (wp_cancelled hw₃ hstart.1 fun w₄ hw₄ => ?_)
        exact wp_return hw₄ (hclean _ _)
    | false =>
        refine (Contract.wp_bind _ _ _ _).2 ⟨trivial, (Contract.wp_bind _ _ _ _).2 ⟨trivial,
          (Contract.wp_bind _ _ _ _).2 ?_⟩⟩
        have htaken : (w₃.set_self
            ({ · with idle := false, current_job_id := some job_id })).report job_id = ρ₀ := hw₃
        refine wp_record htaken hstart.1 (record_state_executing node m _) fun w₄ hw₄ => ?_
        rw [if_neg (by decide), Nat.add_zero] at hw₄
        refine (Contract.wp_bind _ _ _ _).2 ⟨trivial, (Contract.wp_try_finally _ _ _ _).2
          ((Contract.wp_try_except _ _ _ _).2 (Contract.wp_mono
            (wp_tried (w := w₄.enter .body) hjob hrun hc hD hw₄) fun r w₅ h₅ => ?_))⟩
        cases r with
        | ok v => exact wp_finally rfl h₅ _
        | error e => exact Contract.wp_mono (wp_excepted h₅) fun r w₆ h₆ => wp_finally rfl h₆ _

end Rules

/-! ## Successful jobs -/

/-- **A job that ran is not reported as failed**, and its completion stands, exactly if the
delivery of its result does not fail once it has begun: if it does not, then at every point
of the handling, and if it does, then not at its end. -/
theorem successful_job_spared_iff (node : Node Ir) (max_retries : Int) (net : Call Ir → Network)
    {decoded : List (String × String)} {ir : Ir} {shots : Int} {result : ExecutionResult}
    {w : World Ir} {x : World Ir × Prog Ir Unit} (hm : m.header = .ok (decoded, job_id, url))
    (hjob : node.parse_job decoded = .ok (ir, shots))
    (hrun : (node.run w.exec.runs ir shots).out = .ok result)
    (hx : (posting node max_retries net).Run (Co.settle w (process_message node m)) x) :
    (((w.report job_id).sent < (x.1.report job_id).sent → Undaunted max_retries
        (net (.send_result url (completed_payload job_id result)))) →
      Spared (w.report job_id) (x.1.report job_id)) ∧
    ∀ r, x.2.outcome = some r → Spared (w.report job_id) (x.1.report job_id) →
      (w.report job_id).sent < (x.1.report job_id).sent → Undaunted max_retries
        (net (.send_result url (completed_payload job_id result))) := by
  have hwp : (reporting node max_retries net job_id (Undaunted max_retries
      (net (.send_result url (completed_payload job_id result)))) (w.report job_id)).wp
      (process_message node m) _ w := wp_reported hm hjob hrun rfl Iff.rfl rfl
  obtain ⟨w₀, hdrift, hend⟩ := Contract.run_sound (H := posting node max_retries net)
    (Drift.refl fun _ => trivial) (fun _ _ _ => Drift.trans fun _ _ _ _ _ => trivial)
    (fun _ _ _ _ h => h) (fun _ _ h => h) hwp hx
  rw [report_drift hdrift job_id]
  cases hp : x.2 with
  | ret u =>
      rw [hp] at hend
      exact ⟨hend.1, fun _ _ => hend.2⟩
  | raise e =>
      rw [hp] at hend
      exact ⟨hend.1, fun _ _ => hend.2⟩
  | sync f k => exact absurd hp (Host.Run.ne_sync _ hx (Host.settle_ne_sync _ _) f k)
  | await q k =>
      rw [hp] at hend
      exact ⟨hend.1, fun r hr => nomatch hr⟩

/-- A node whose executor returns a result at once. -/
def reporting_node : Node String := sample_node (.runs 0 (.ok sample_result)) none

def reporting_message : Message := sample_message "1-0" "job-1" sample_ir

/-- A server that fails once, and then accepts. -/
def recovers : Network where
  attempts attempt :=
    if attempt = 1 then .response 503 "Server error '503 Service Unavailable'"
    else .response 200 ""
  interrupted _ := false

/-- A server that has no such callback. -/
def rejects : Network where
  attempts _ := .response 404 "Client error '404 Not Found'"
  interrupted _ := false

section Samples

variable {net : Call String → Network}

/-- Redis may always answer. -/
theorem deliveries_redis {q : Req String} (hq : q.call.is_webhook = false) (w : World String)
    (v : q.Reply) : deliveries 3 net q w (.ok v) :=
  ⟨redis_up_ok q w v, fun h => absurd (hq.symm.trans h) Bool.false_ne_true⟩

end Samples

set_option maxRecDepth 40000 in
/-- The result is delivered at the second attempt, and the completion stands. -/
theorem result_delivered : ∃ x,
    (posting reporting_node 3 fun _ => recovers).Run
      (Co.settle (sample_world []) (process_message reporting_node reporting_message)) x ∧
    (x.1.report "job-1").sent = 1 ∧
    Spared ((sample_world []).report "job-1") (x.1.report "job-1") := by
  suffices hx : ∃ x, (posting reporting_node 3 fun _ => recovers).Run
      (Co.settle (sample_world []) (process_message reporting_node reporting_message)) x ∧
      (x.1.report "job-1").sent = 1 by
    obtain ⟨x, hrun, hsent⟩ := hx
    refine ⟨x, hrun, hsent, ?_⟩
    exact (successful_job_spared_iff reporting_node 3 (fun _ => recovers)
      (sample_message_header "1-0" "job-1" sample_ir) (sample_node_parse _ none "job-1") rfl
      hrun).1 fun _ e he => nomatch he
  have hok : ∀ {q : Req String} (hq : q.call.is_webhook = false) (w : World String) (v : q.Reply),
      deliveries 3 (fun _ => recovers) q w (.ok v) := deliveries_redis
  refine Host.exists_run_of_answer _ (r := .ok none) rfl
    ⟨answers_ok.2 ⟨_, ⟨rfl, rfl⟩, rfl⟩, hok rfl _ _⟩ ?_
  refine Host.exists_run_of_answer _ (r := .ok none) rfl
    ⟨answers_ok.2 ⟨_, ⟨rfl, rfl⟩, rfl⟩, hok rfl _ _⟩ ?_
  refine Host.exists_run_of_answer _ (r := .ok ()) rfl
    ⟨answers_ok.2 ⟨_, rfl, rfl⟩, hok rfl _ _⟩ ?_
  refine Host.exists_run_of_answer _ (r := .ok ()) rfl
    ⟨answers_ok.2 ⟨_, rfl, rfl⟩, hok rfl _ _⟩ ?_
  refine Host.exists_run_of_answer _ (r := .ok none) rfl
    ⟨answers_ok.2 ⟨_, ⟨rfl, rfl⟩, rfl⟩, hok rfl _ _⟩ ?_
  refine Host.exists_run_of_answer _ (r := .ok none) rfl
    ⟨answers_ok.2 ⟨_, ⟨rfl, rfl⟩, rfl⟩, hok rfl _ _⟩ ?_
  refine Host.exists_run_of_answer _ (r := .ok ()) rfl
    ⟨answers_ok.2 ⟨_, rfl, rfl⟩, hok rfl _ _⟩ ?_
  refine Host.exists_run_of_answer _ (r := .ok none) rfl
    ⟨answers_ok.2 ⟨_, ⟨rfl, rfl⟩, rfl⟩, hok rfl _ _⟩ ?_
  -- the webhook
  refine Host.exists_run_of_answer _ (r := .ok ()) rfl
    ⟨answers_ok.2 ⟨_, rfl, rfl⟩, fun h => (nomatch h), fun _ e => iff_of_false nofun nofun⟩ ?_
  refine Host.exists_run_of_answer _ (r := .ok ()) rfl
    ⟨answers_ok.2 ⟨_, rfl, rfl⟩, hok rfl _ _⟩ ?_
  exact ⟨_, .refl, rfl⟩

set_option maxRecDepth 40000 in
/-- A result that the server has no use for: the job, which has completed, is recorded as
failed. -/
theorem rejected_result_fails_job : ¬ ∀ (node : Node String) (max_retries : Int)
    (net : Call String → Network) (m : Message) (decoded : List (String × String))
    (job_id url : String) (ir : String) (shots : Int) (result : ExecutionResult)
    (w : World String) (x : World String × Prog String Unit),
    m.header = .ok (decoded, job_id, url) → node.parse_job decoded = .ok (ir, shots) →
    (node.run w.exec.runs ir shots).out = .ok result →
    (posting node max_retries net).Run (Co.settle w (process_message node m)) x →
    Spared (w.report job_id) (x.1.report job_id) := by
  intro hclaim
  suffices hx : ∃ x, (posting reporting_node 3 fun _ => rejects).Run
      (Co.settle (sample_world []) (process_message reporting_node reporting_message)) x ∧
      (x.1.report "job-1").failed = 1 by
    obtain ⟨x, hrun, hfailed⟩ := hx
    have hspared := (hclaim reporting_node 3 (fun _ => rejects) reporting_message
      (sample_fields "job-1" sample_ir) "job-1" "https://example.com/hook" sample_ir 1024
      sample_result (sample_world []) x (sample_message_header "1-0" "job-1" sample_ir)
      (sample_node_parse _ none "job-1") rfl hrun).failed
    rw [hfailed] at hspared
    exact absurd hspared (by decide)
  have hok : ∀ {q : Req String} (hq : q.call.is_webhook = false) (w : World String) (v : q.Reply),
      deliveries 3 (fun _ => rejects) q w (.ok v) := deliveries_redis
  refine Host.exists_run_of_answer _ (r := .ok none) rfl
    ⟨answers_ok.2 ⟨_, ⟨rfl, rfl⟩, rfl⟩, hok rfl _ _⟩ ?_
  refine Host.exists_run_of_answer _ (r := .ok none) rfl
    ⟨answers_ok.2 ⟨_, ⟨rfl, rfl⟩, rfl⟩, hok rfl _ _⟩ ?_
  refine Host.exists_run_of_answer _ (r := .ok ()) rfl
    ⟨answers_ok.2 ⟨_, rfl, rfl⟩, hok rfl _ _⟩ ?_
  refine Host.exists_run_of_answer _ (r := .ok ()) rfl
    ⟨answers_ok.2 ⟨_, rfl, rfl⟩, hok rfl _ _⟩ ?_
  refine Host.exists_run_of_answer _ (r := .ok none) rfl
    ⟨answers_ok.2 ⟨_, ⟨rfl, rfl⟩, rfl⟩, hok rfl _ _⟩ ?_
  refine Host.exists_run_of_answer _ (r := .ok none) rfl
    ⟨answers_ok.2 ⟨_, ⟨rfl, rfl⟩, rfl⟩, hok rfl _ _⟩ ?_
  refine Host.exists_run_of_answer _ (r := .ok ()) rfl
    ⟨answers_ok.2 ⟨_, rfl, rfl⟩, hok rfl _ _⟩ ?_
  refine Host.exists_run_of_answer _ (r := .ok none) rfl
    ⟨answers_ok.2 ⟨_, ⟨rfl, rfl⟩, rfl⟩, hok rfl _ _⟩ ?_
  -- the webhook fails, and the cancel key is not set
  refine Host.exists_run_of_answer _ (r := .error (.other "Client error '404 Not Found'")) rfl
    ⟨answers_error.2 ⟨(nomatch ·), .inl ⟨rfl, rfl⟩⟩, fun h => (nomatch h), fun _ e => ?_⟩ ?_
  · have hpost : post_with_retry rejects 3 = .error (.other "Client error '404 Not Found'") := rfl
    rw [hpost]
  refine Host.exists_run_of_answer _ (r := .ok none) rfl
    ⟨answers_ok.2 ⟨_, ⟨rfl, rfl⟩, rfl⟩, hok rfl _ _⟩ ?_
  refine Host.exists_run_of_answer _ (r := .ok ()) rfl
    ⟨answers_ok.2 ⟨_, rfl, rfl⟩, hok rfl _ _⟩ ?_
  exact ⟨_, .refl, rfl⟩

end CodaNode
