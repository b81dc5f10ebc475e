/-
`Consumer/SinglePath.lean` -- the jobs of a reply, handled one after the other.

`process_each` is what the consumer does with a reply when it does not batch, and what it falls
back to. While nothing fails around it, it does what `settle_all` says: each job is settled and
its message ACK-ed, whatever the executor makes of the job.
-/
import CodaNode.Consumer.LedgerSteps
import Mathlib.Data.List.Forall2

set_option autoImplicit false

open Coroutine

namespace CodaNode

variable {Ir : Type} {node : Node Ir} {w w' : World Ir} {m : Message} {job_id url : String}
variable {s : World Ir} {b : Ledger Ir} {job : Parsed Ir} {jobs : List (Parsed Ir)}
variable {out : Ir → Int → Except Exn ExecutionResult} {ir : Ir} {shots : Int}
variable {decoded : List (String × String)}

/-! ## The executor and the messages -/

/-- What the executor makes of a job depends on the job alone. A batch of jobs may fail; one
that does not returns what each of them would have come to. -/
structure Executes (node : Node Ir) (out : Ir → Int → Except Exn ExecutionResult) : Prop where
  run : ∀ k ir shots, (node.run k ir shots).out = out ir shots
  ordinary : ∀ ir shots e, out ir shots = .error e → e.ordinary = true
  batch : ∀ f, node.batch_run = some f → ∀ k jobs,
    (∃ e, f k jobs = .error e ∧ e.ordinary = true) ∨ ∃ results, f k jobs = .ok results ∧
      List.Forall₂ (fun job result => out job.1 job.2 = .ok result) jobs results

/-- The message carries the job. -/
def Parsed.Reads (node : Node Ir) (job : Parsed Ir) : Prop :=
  ∃ decoded, job.msg.header = .ok (decoded, job.job_id, job.callback_url) ∧
    node.parse_job decoded = .ok (job.ir, job.shots)

/-! ## A job that is run -/

namespace Ledger

/-- The outcome of a job is recorded and reported. -/
def conclude (b : Ledger Ir) (job_id url : String) : Except Exn ExecutionResult → Ledger Ir
  | .ok result => (b.write job_id "completed").post job_id
      (.send_result url (completed_payload job_id result))
  | .error e => (b.write job_id "failed").post job_id (.send_error url job_id e.text)

/-- A job that is accepted is settled when its outcome is reported and its message ACK-ed. -/
theorem settle_of_accepts {cancels : String → Bool}
    (h : (b.account job.job_id).accepts cancels job.job_id = true) :
    ((b.write job.job_id "executing").conclude job.job_id job.callback_url
      (out job.ir job.shots)).ack job.msg.id = b.settle out cancels job := by
  refine Ledger.ext (funext fun j => ?_) ?_
  · simp only [settle, Account.settle_run h]
    cases out job.ir job.shots <;>
      · by_cases hj : j = job.job_id <;>
          simp [conclude, ack, post, write, hj]
  · cases out job.ir job.shots <;> rfl

/-- A job that is over is settled when its message is ACK-ed. -/
theorem settle_of_over {cancels : String → Bool}
    (h : terminal (b.account job.job_id).state = true) :
    b.ack job.msg.id = b.settle out cancels job := by
  rw [settle, Account.settle_over h, Function.update_eq_self]
  rfl

/-- So is a cancelled one when that has been recorded. -/
theorem settle_of_cancelled {cancels : String → Bool}
    (h : terminal (b.account job.job_id).state = false) (hcancels : cancels job.job_id = true) :
    (b.write job.job_id "cancelled").ack job.msg.id = b.settle out cancels job := by
  rw [settle, Account.settle_cancelled h hcancels]
  rfl

end Ledger

namespace Solitary

variable {K : Contract (World Ir) (@Req.Reply Ir) Exn}
variable (hK : Solitary K node s)
include hK

theorem wp_poll {k : Nat} {o : Except Exn ExecutionResult} (hcancels : s.cancels job_id = false)
    (polls : Nat) (h : Sits s b w) :
    K.wp (poll node m job_id k o polls) (fun r w' => r = o ∧ Sits s b w') w := by
  have hB := hK.books m job_id
  have hwait : ∀ {timed_out : Bool} {w : World Ir}, Sits s b w →
      K.wp (on m (.wait k timed_out) : Prog Ir Unit)
        (fun r w' => (∃ v, r = .ok v ∧ True) ∧ Sits s b w') w := by
    intro timed_out w h
    refine hB.wp_quiet (c := .wait k timed_out) rfl trivial (fun _ => rfl) h
      fun w₁ v w₂ h₁ hperf => ?_
    cases timed_out <;> cases hperf <;> exact ⟨trivial, World.ledger_of_log rfl rfl⟩
  -- by induction on the intervals that are left: nobody cancels the job in between
  induction polls generalizing w with
  | zero =>
      refine (Contract.wp_bind _ _ _ _).2 (Contract.wp_mono (hwait h) ?_)
      rintro r w₁ ⟨⟨v, rfl, -⟩, h₁⟩
      cases o with
      | error e => exact ⟨rfl, h₁⟩
      | ok result =>
          refine (Contract.wp_bind _ _ _ _).2 ?_
          rw [Contract.wp_of_except, Contract.and_then_ok]
          refine (Contract.wp_bind _ _ _ _).2
            (Contract.wp_mono (hB.wp_has_cancel_signal h₁) ?_)
          rintro r w₂ ⟨rfl, h₂⟩
          rw [hcancels]
          exact ⟨rfl, h₂⟩
  | succ polls ih =>
      refine (Contract.wp_bind _ _ _ _).2 (Contract.wp_mono (hwait h) ?_)
      rintro r w₁ ⟨⟨v, rfl, -⟩, h₁⟩
      refine (Contract.wp_bind _ _ _ _).2
        (Contract.wp_mono (hB.wp_has_cancel_signal h₁) ?_)
      rintro r w₂ ⟨rfl, h₂⟩
      rw [hcancels]
      exact ih h₂

theorem wp_run_job (hnode : Executes node out) (hcancels : s.cancels job_id = false)
    (h : Sits s b w) :
    K.wp (run_job_with_cancellation node m job_id ir shots)
      (fun r w' => r = out ir shots ∧ Sits s b w') w := by
  refine (Contract.wp_bind _ _ _ _).2
    ((Contract.wp_look _ _ _).2 ⟨hK.keep _ _ _ _ h h (List.suffix_refl _), ?_⟩)
  refine (Contract.wp_bind _ _ _ _).2
    (Contract.wp_mono (hK.wp_unlisted (.begin_call (.run w.exec.runs)) h) ?_)
  rintro r w₁ ⟨rfl, h₁⟩
  have hout := hnode.run w.exec.runs ir shots
  rw [Contract.and_then_ok]
  cases hplan : node.run w.exec.runs ir shots with
  | refuses e =>
      rw [hplan] at hout
      refine (Contract.wp_bind _ _ _ _).2 (Contract.wp_mono (hK.wp_unlisted (.exec _) h₁) ?_)
      rintro r w₂ ⟨rfl, h₂⟩
      exact ⟨hout, h₂⟩
  | runs polls o =>
      rw [hplan] at hout
      refine (Contract.wp_bind _ _ _ _).2 (Contract.wp_mono (hK.wp_unlisted (.exec _) h₁) ?_)
      rintro r w₂ ⟨rfl, h₂⟩
      refine (Contract.wp_try_finally _ _ _ _).2
        (Contract.wp_mono (hK.wp_poll hcancels polls h₂) ?_)
      rintro r w₃ ⟨rfl, h₃⟩
      refine Contract.wp_mono (hK.wp_unlisted (.exec _) h₃) ?_
      rintro r' w₄ ⟨rfl, h₄⟩
      exact ⟨hout, h₄⟩

theorem wp_execute (hnode : Executes node out) (hcancels : s.cancels job_id = false)
    (hjob : node.parse_job decoded = .ok (ir, shots)) (h : Sits s b w) :
    K.wp (execute node m decoded job_id url) (fun r w' => match out ir shots with
      | .ok result => r = .ok () ∧ Sits s (b.conclude job_id url (.ok result)) w'
      | .error e => r = .error e ∧ Sits s b w') w := by
  have hB := hK.books m job_id
  unfold execute
  rw [hjob]
  refine (Contract.wp_bind _ _ _ _).2 ?_
  rw [Contract.wp_of_except, Contract.and_then_ok]
  refine (Contract.wp_bind _ _ _ _).2 (Contract.wp_mono (hK.wp_run_job hnode hcancels h) ?_)
  rintro r w₁ ⟨rfl, h₁⟩
  cases hout : out ir shots with
  | error e => exact ⟨rfl, h₁⟩
  | ok result =>
      refine (Contract.wp_bind _ _ _ _).2
        (Contract.wp_mono (hB.wp_has_cancel_signal h₁) ?_)
      rintro r w₂ ⟨rfl, h₂⟩
      rw [hcancels]
      refine (Contract.wp_bind _ _ _ _).2 (Contract.wp_mono (hB.wp_look _ h₂) ?_)
      rintro r w₃ ⟨⟨completed_at, rfl⟩, h₃⟩
      refine (Contract.wp_bind _ _ _ _).2 (Contract.wp_mono
        (hB.wp_safe_hset (record_state_completed completed_at) h₃) ?_)
      rintro r w₄ ⟨rfl, h₄⟩
      refine (Contract.wp_bind _ _ _ _).2
        (Contract.wp_mono (hB.wp_has_cancel_signal h₄) ?_)
      rintro r w₅ ⟨rfl, h₅⟩
      rw [hcancels]
      refine (Contract.wp_bind _ _ _ _).2 (Contract.wp_mono (hB.wp_post
        (c := .send_result url (completed_payload job_id result)) rfl
        rfl h₅) ?_)
      rintro r w₆ ⟨⟨v, rfl⟩, h₆⟩
      refine (Contract.wp_bind _ _ _ _).2 (Contract.wp_mono (hB.wp_look _ h₆) ?_)
      rintro r w₇ ⟨⟨last_job_at, rfl⟩, h₇⟩
      exact hK.wp_unlisted (.self ({ · with last_job_at := some last_job_at }) fun _ => rfl) h₇

theorem wp_on_exception {e : Exn} (he : e.ordinary = true) (hcancels : s.cancels job_id = false)
    (h : Sits s b w) :
    K.wp (on_exception node m job_id url e) (fun r w' => r = .ok () ∧
      Sits s (b.conclude job_id url (.error e)) w') w := by
  have hB := hK.books m job_id
  have hfail : K.wp (do enter .handler; report_failure node m job_id url e) (fun r w' =>
      r = .ok () ∧ Sits s (b.conclude job_id url (.error e)) w') w := by
    refine (Contract.wp_bind _ _ _ _).2 (Contract.wp_mono (hK.wp_unlisted (.enter .handler) h) ?_)
    rintro r w₁ ⟨rfl, h₁⟩
    refine (Contract.wp_bind _ _ _ _).2
      (Contract.wp_mono (hB.wp_has_cancel_signal h₁) ?_)
    rintro r w₂ ⟨rfl, h₂⟩
    rw [hcancels]
    refine (Contract.wp_bind _ _ _ _).2 (Contract.wp_mono (hB.wp_look _ h₂) ?_)
    rintro r w₃ ⟨⟨failed_at, rfl⟩, h₃⟩
    refine (Contract.wp_bind _ _ _ _).2 (Contract.wp_mono
      (hB.wp_safe_hset (record_state_failed e failed_at) h₃) ?_)
    rintro r w₄ ⟨rfl, h₄⟩
    refine (Contract.wp_try_except _ _ _ _).2 (Contract.wp_mono (hB.wp_post
      (c := .send_error url job_id e.text) rfl rfl h₄) ?_)
    rintro r w₅ ⟨⟨v, rfl⟩, h₅⟩
    exact ⟨rfl, h₅⟩
  cases e with
  | cancelled => cases he
  | job_cancelled => cases he
  | connection msg => exact hfail
  | response msg => exact hfail
  | other msg => exact hfail

/-- A job that is taken on is run, and its message ACK-ed. -/
theorem wp_take_on (hnode : Executes node out) (hcancels : s.cancels job_id = false)
    (hjob : node.parse_job decoded = .ok (ir, shots)) (h : Sits s b w) :
    K.wp (take_on node m decoded job_id url) (fun r w' => r = .ok () ∧
      Sits s (((b.write job_id "executing").conclude job_id url (out ir shots)).ack m.id) w')
      w := by
  have hB := hK.books m job_id
  refine (Contract.wp_bind _ _ _ _).2
    (Contract.wp_mono (hK.wp_unlisted (.self _ fun _ => rfl) h) ?_)
  rintro r w₁ ⟨rfl, h₁⟩
  refine (Contract.wp_bind _ _ _ _).2 (Contract.wp_mono (hB.wp_look _ h₁) ?_)
  rintro r w₂ ⟨⟨started_at, rfl⟩, h₂⟩
  refine (Contract.wp_bind _ _ _ _).2 (Contract.wp_mono
    (hB.wp_safe_hset (record_state_executing node m started_at) h₂) ?_)
  rintro r w₃ ⟨rfl, h₃⟩
  refine (Contract.wp_bind _ _ _ _).2 (Contract.wp_mono (hK.wp_unlisted (.enter .body) h₃) ?_)
  rintro r w₄ ⟨rfl, h₄⟩
  have htry : K.wp (Co.try_except (execute node m decoded job_id url)
      (on_exception node m job_id url)) (fun r w' => r = .ok () ∧
        Sits s ((b.write job_id "executing").conclude job_id url (out ir shots)) w') w₄ := by
    refine (Contract.wp_try_except _ _ _ _).2
      (Contract.wp_mono (hK.wp_execute hnode hcancels hjob h₄) fun r w₅ h₅ => ?_)
    cases hout : out ir shots with
    | ok result =>
        rw [hout] at h₅
        obtain ⟨rfl, h₅⟩ := h₅
        exact ⟨rfl, h₅⟩
    | error e =>
        rw [hout] at h₅
        obtain ⟨rfl, h₅⟩ := h₅
        exact hK.wp_on_exception (hnode.ordinary ir shots e hout) hcancels h₅
  refine (Contract.wp_try_finally _ _ _ _).2 (Contract.wp_mono htry ?_)
  rintro r w₅ ⟨rfl, h₅⟩
  refine (Contract.wp_bind _ _ _ _).2 (Contract.wp_mono (hK.wp_unlisted (.enter .cleanup) h₅) ?_)
  rintro r w₆ ⟨rfl, h₆⟩
  refine (Contract.wp_bind _ _ _ _).2 (Contract.wp_mono (hB.wp_safe_xack h₆) ?_)
  rintro r w₇ ⟨rfl, h₇⟩
  refine (Contract.wp_bind _ _ _ _).2
    (Contract.wp_mono (hK.wp_unlisted (.self _ fun _ => rfl) h₇) ?_)
  rintro r w₈ ⟨rfl, h₈⟩
  refine Contract.wp_mono (hK.wp_unlisted (.enter .outside) h₈) ?_
  rintro r w₉ ⟨rfl, h₉⟩
  exact ⟨rfl, h₉⟩

/-- The status and the cancel key of a job are looked up: it is over, or cancelled, or to be run. -/
theorem wp_lookup {α : Type} {skipped cancelled run : Prog Ir α}
    {Q : Except Exn α → World Ir → Prop} (h : Sits s b w)
    (hover : ∀ w, terminal (b.account job_id).state = true → Sits s b w → K.wp skipped Q w)
    (hcancelled : ∀ w, terminal (b.account job_id).state = false → s.cancels job_id = true →
      Sits s b w → K.wp cancelled Q w)
    (hrun : ∀ w, (b.account job_id).accepts s.cancels job_id = true → Sits s b w → K.wp run Q w) :
    K.wp (do
      let status ← get_job_status m job_id
      if terminal status then skipped
      else if ← has_cancel_signal m job_id then cancelled
      else run) Q w := by
  have hB := hK.books m job_id
  refine (Contract.wp_bind _ _ _ _).2
    (Contract.wp_mono (hB.wp_get_job_status h) ?_)
  rintro r w₁ ⟨rfl, h₁⟩
  rw [Contract.and_then_ok]
  cases hstate : terminal (b.account job_id).state with
  | true => exact hover w₁ hstate h₁
  | false =>
      rw [if_neg Bool.false_ne_true]
      refine (Contract.wp_bind _ _ _ _).2
        (Contract.wp_mono (hB.wp_has_cancel_signal h₁) ?_)
      rintro r w₂ ⟨rfl, h₂⟩
      rw [Contract.and_then_ok]
      cases hcancels : s.cancels job_id with
      | true => exact hcancelled w₂ hstate hcancels h₂
      | false => exact hrun w₂ (Account.accepts_iff.2 ⟨hstate, hcancels⟩) h₂

/-- **A message is handled**: its job is settled. -/
theorem wp_process_message (hnode : Executes node out) (hjob : job.Reads node) (h : Sits s b w) :
    K.wp (process_message node job.msg) (fun r w' => r = .ok () ∧
      Sits s (b.settle out s.cancels job) w') w := by
  obtain ⟨decoded, hheader, hparse⟩ := hjob
  have hB := hK.books job.msg job.job_id
  unfold process_message
  rw [job.msg.decode_fields_of_header hheader, hheader]
  refine (Contract.wp_bind _ _ _ _).2 (Contract.wp_mono (hK.wp_unlisted (.enter .outside) h) ?_)
  rintro r w₁ ⟨rfl, h₁⟩
  refine (Contract.wp_bind _ _ _ _).2 (Contract.wp_mono (hK.wp_unlisted (.mark _) h₁) ?_)
  rintro r w₂ ⟨rfl, h₂⟩
  refine hK.wp_lookup h₂ (fun w hover h => ?_) (fun w hopen hcancels h => ?_) fun w hrun h => ?_
  · refine (Contract.wp_bind _ _ _ _).2 (Contract.wp_mono (hB.wp_safe_xack h) ?_)
    rintro r w' ⟨rfl, h'⟩
    exact ⟨rfl, Ledger.settle_of_over hover ▸ h'⟩
  · refine (Contract.wp_bind _ _ _ _).2 (Contract.wp_mono (hB.wp_mark_job_cancelled h) ?_)
    rintro r w' ⟨rfl, h'⟩
    refine (Contract.wp_bind _ _ _ _).2 (Contract.wp_mono (hB.wp_safe_xack h') ?_)
    rintro r w'' ⟨rfl, h''⟩
    exact ⟨rfl, Ledger.settle_of_cancelled hopen hcancels ▸ h''⟩
  · have hcancels : s.cancels job.job_id = false := (Account.accepts_iff.1 hrun).2
    refine Contract.wp_mono (hK.wp_take_on hnode hcancels hparse h) ?_
    rintro r w' ⟨rfl, h'⟩
    exact ⟨rfl, Ledger.settle_of_accepts hrun ▸ h'⟩

/-- **The jobs are handled one after the other.** -/
theorem wp_process_each (hnode : Executes node out) (hjobs : ∀ job ∈ jobs, job.Reads node)
    (h : Sits s b w) :
    K.wp (process_each node (jobs.map Parsed.msg)) (fun r w' => r = .ok () ∧
      Sits s (b.settle_all out s.cancels jobs) w') w := by
  induction jobs generalizing b w with
  | nil => exact ⟨rfl, h⟩
  | cons job rest ih =>
      refine (Contract.wp_bind _ _ _ _).2 (Contract.wp_mono
        (hK.wp_process_message hnode (hjobs job List.mem_cons_self) h) ?_)
      rintro r w₁ ⟨rfl, h₁⟩
      exact ih (fun job hjob => hjobs job (List.mem_cons_of_mem _ hjob)) h₁

end Solitary

/-! ## A reply handled by itself -/

/-- The contract of a coroutine by itself: it awaits the operations of a handler. -/
def unaided (node : Node Ir) : Contract (World Ir) (@Req.Reply Ir) Exn where
  pre q _ := q.call.prompt = true
  rely := Drift fixed
  answer := (lone node fixed faultless).answer
  keep _ _ := True

theorem Drift.sits (h : Sits s b w) (hd : Drift fixed w w') : Sits s b w' :=
  h.of_log hd.values hd.tasks (by rw [Drift.self hd]) hd.hashes hd.log

theorem unaided_solitary : Solitary (unaided node) node s where
  pre _ _ _ _ hc _ := Call.prompt_of_certain hc
  answer _ _ _ _ h := h
  rely _ _ _ h hd := Drift.sits h hd
  keep _ _ _ _ _ _ _ := trivial

/-- **The jobs of a reply, one after the other**: no run gets stuck, and one that has ended has
settled each of them and ACK-ed its message. -/
theorem process_each_settles (hnode : Executes node out) (hjobs : ∀ job ∈ jobs, job.Reads node)
    {x : World Ir × Prog Ir Unit}
    (run : (lone node fixed faultless).Run
      (Co.settle w (process_each node (jobs.map Parsed.msg))) x) :
    ((lone node fixed faultless).Halted x → ∃ r, x.2.outcome = some r) ∧
      ∀ r, x.2.outcome = some r → r = .ok () ∧
        x.1.ledger = w.ledger.settle_all out w.cancels jobs := by
  obtain ⟨w₁, hdrift, hw⟩ := Contract.run_sound (K := unaided node) (Drift.refl fixed_refl)
    (fun _ _ _ => Drift.trans fixed_trans) (fun _ _ _ _ h => h) (fun _ _ h => h)
    (unaided_solitary.wp_process_each hnode hjobs ⟨rfl, rfl, rfl, rfl⟩) run
  refine ⟨fun halted => ?_, fun r hr => ?_⟩
  · cases hp : x.2 with
    | ret u => exact ⟨_, rfl⟩
    | raise e => exact ⟨_, rfl⟩
    | sync f k => exact absurd hp (Host.Run.ne_sync _ run (Host.settle_ne_sync _ _) f k)
    | await q k =>
        -- the operations of a handler can always be answered
        rw [hp] at hw
        obtain ⟨v, w', hv⟩ := exists_answer node hw.1 x.1
        exact absurd ⟨hv, faultless_ok q x.1 v⟩ (halted q k hp (.ok v) w')
  · obtain ⟨rfl, h⟩ := Kernel.Agreement.done_of_wp hw hr
    exact ⟨rfl, (Drift.sits h hdrift).ledger⟩

/-- A job of the sample messages. -/
def sample_job (id job_id : String) : Parsed String :=
  ⟨sample_message id job_id sample_ir, job_id, "https://example.com/hook", sample_ir, 1024⟩

theorem sample_job_reads {plan : RunPlan}
    {batch_run : Option (Nat → List (String × Int) → Except Exn (List ExecutionResult))}
    (id job_id : String) : (sample_job id job_id).Reads (sample_node plan batch_run) :=
  ⟨_, sample_message_header id job_id sample_ir, sample_node_parse plan batch_run job_id⟩

/-- Every job comes to the one result. -/
theorem sample_executes
    {batch_run : Option (Nat → List (String × Int) → Except Exn (List ExecutionResult))}
    (hbatch : ∀ f, batch_run = some f →
      ∀ k jobs, f k jobs = .ok (jobs.map fun _ => sample_result)) :
    Executes (sample_node (.runs 0 (.ok sample_result)) batch_run)
      fun _ _ => .ok sample_result where
  run _ _ _ := rfl
  ordinary _ _ _ h := nomatch h
  batch f hf k jobs := .inr ⟨_, hbatch f hf k jobs,
    List.forall₂_map_right_iff.2 (List.forall₂_same.2 fun _ _ => rfl)⟩

set_option maxRecDepth 20000 in
/-- A job that is run, reported and ACK-ed. -/
theorem process_each_settles_job :
    ∃ x, (lone (sample_node (.runs 0 (.ok sample_result)) none) fixed faultless).Run
        (Co.settle (sample_world []) (process_each (sample_node (.runs 0 (.ok sample_result)) none)
          ([sample_job "1-0" "job-1"].map Parsed.msg))) x ∧
      x.2.outcome = some (.ok ()) ∧
      x.1.ledger = (sample_world []).ledger.settle_all (fun _ _ => .ok sample_result)
        (sample_world []).cancels [sample_job "1-0" "job-1"] := by
  have hstay : ∀ w : World String, Drift fixed w w := Drift.refl fixed_refl
  have hok : ∀ (q : Req String) (w : World String) (v : q.Reply), faultless q w (.ok v) :=
    faultless_ok
  have hcan : (lone (sample_node (.runs 0 (.ok sample_result)) none) fixed faultless).Can
      (process_each (sample_node (.runs 0 (.ok sample_result)) none)
        ([sample_job "1-0" "job-1"].map Parsed.msg)) (fun r _ => r = .ok ()) (sample_world []) := by
    refine ⟨_, hstay _, .ok none, _, ⟨answers_ok.2 ⟨_, ⟨rfl, rfl⟩, rfl⟩, hok _ _ _⟩, ?_⟩
    refine ⟨_, hstay _, .ok none, _, ⟨answers_ok.2 ⟨_, ⟨rfl, rfl⟩, rfl⟩, hok _ _ _⟩, ?_⟩
    refine ⟨_, hstay _, .ok (), _, ⟨answers_ok.2 ⟨_, rfl, rfl⟩, hok _ _ _⟩, ?_⟩
    refine ⟨_, hstay _, .ok (), _, ⟨answers_ok.2 ⟨_, rfl, rfl⟩, hok _ _ _⟩, ?_⟩
    refine ⟨_, hstay _, .ok none, _, ⟨answers_ok.2 ⟨_, ⟨rfl, rfl⟩, rfl⟩, hok _ _ _⟩, ?_⟩
    refine ⟨_, hstay _, .ok none, _, ⟨answers_ok.2 ⟨_, ⟨rfl, rfl⟩, rfl⟩, hok _ _ _⟩, ?_⟩
    refine ⟨_, hstay _, .ok (), _, ⟨answers_ok.2 ⟨_, rfl, rfl⟩, hok _ _ _⟩, ?_⟩
    refine ⟨_, hstay _, .ok none, _, ⟨answers_ok.2 ⟨_, ⟨rfl, rfl⟩, rfl⟩, hok _ _ _⟩, ?_⟩
    refine ⟨_, hstay _, .ok (), _, ⟨answers_ok.2 ⟨_, rfl, rfl⟩, hok _ _ _⟩, ?_⟩
    exact ⟨_, hstay _, .ok (), _, ⟨answers_ok.2 ⟨_, rfl, rfl⟩, hok _ _ _⟩, rfl⟩
  obtain ⟨w', q, r, hrun, hq, rfl⟩ := Host.exists_run_of_can _ hcan
  have hjobs : ∀ job ∈ [sample_job "1-0" "job-1"],
      job.Reads (sample_node (.runs 0 (.ok sample_result)) none) := by
    rintro _ (⟨⟩ | ⟨_, ⟨⟩⟩)
    exact sample_job_reads _ _
  have hexecutes : Executes (sample_node (.runs 0 (.ok sample_result)) none)
      fun _ _ => .ok sample_result := sample_executes fun _ h => nomatch h
  exact ⟨_, hrun, hq, ((process_each_settles hexecutes hjobs hrun).2 _ hq).2⟩

end CodaNode
