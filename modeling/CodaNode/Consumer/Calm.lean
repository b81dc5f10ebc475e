/-
`Consumer/Calm.lean` -- where a `CancelledError` comes from.

`asyncio.CancelledError` is the one exception that passes `except Exception`. The consumer
raises none of its own: as long as no await ends in one, apart from the await of a run that
the consumer itself has cancelled, none leaves a handler, a batch or a delivery.
-/
import CodaNode.Consumer.Footprint

set_option autoImplicit false

open Coroutine

namespace CodaNode

variable {Ir : Type} {node : Node Ir} {m : Message} {job_id url : String} {α : Type}

/-- The answer is no cancellation, unless it is that of a run. -/
def Uncancelled (q : Req Ir) (r : Except Exn q.Reply) : Prop :=
  r = .error .cancelled → ∃ k, q.call = .unwind k

/-- The code raises no `CancelledError` unless it is handed one. -/
abbrev Calm (p : Prog Ir α) : Prop := Raises Uncancelled (· ≠ .cancelled) p

theorem calm_call {q : Req Ir} (hq : ∀ k, q.call ≠ .unwind k) :
    Calm (Co.call q : Prog Ir q.Reply) := by
  refine Raises.call fun e he => ?_
  rintro rfl
  obtain ⟨k, hk⟩ := he rfl
  exact hq k hk

/-- What a connection error is caught for. -/
theorem calm_safe {p : Prog Ir Unit} (hp : Calm p) :
    Calm (Co.try_except (do p; pure true)
      (fun e => if e.is_connection then pure false else .raise e) : Prog Ir Bool) := by
  refine Raises.try_except (hp.bind fun _ => trivial) fun e he => ?_
  cases h : e.is_connection with
  | true => trivial
  | false => exact he

/-- `except Exception: logger...`. -/
theorem calm_logged {p : Prog Ir Unit} (hp : Calm p) :
    Calm (Co.try_except p (fun e => if e = .cancelled then .raise e else pure ())) := by
  refine Raises.try_except hp fun e he => ?_
  rw [if_neg he]
  trivial

theorem calm_hset {key : String} {mapping : List (String × String)} :
    Calm (safe_hset m key mapping : Prog Ir Bool) :=
  calm_safe (calm_call (by simp))

theorem calm_xack : Calm (safe_xack m : Prog Ir Bool) := calm_safe (calm_call (by simp))

theorem calm_check : Calm (has_cancel_signal m job_id : Prog Ir Bool) :=
  (calm_call (by simp)).bind fun _ => trivial

theorem calm_mark_job_cancelled : Calm (mark_job_cancelled node m job_id) :=
  Raises.look.bind fun _ => calm_hset.bind fun _ => trivial

theorem calm_request_runner_cancel : Calm (request_runner_cancel node m) := by
  unfold request_runner_cancel
  split
  · exact calm_logged (calm_call (by simp))
  · trivial

/-- The run's own cancellation ends in the `try` around its await. -/
theorem calm_poll {k : Nat} {out : Except Exn ExecutionResult} (hout : ∀ e, out = .error e →
    e ≠ .cancelled) (polls : Nat) : Calm (poll node m job_id k out polls) := by
  have hraise : Calm (.raise .job_cancelled : Prog Ir ExecutionResult) := by
    show Exn.job_cancelled ≠ Exn.cancelled
    decide
  induction polls with
  | zero =>
      refine (calm_call (by simp)).bind fun _ => (Raises.of_except hout).bind fun result => ?_
      refine calm_check.bind fun b => ?_
      cases b with
      | true => exact hraise
      | false => trivial
  | succ polls ih =>
      refine (calm_call (by simp)).bind fun _ => calm_check.bind fun b => ?_
      cases b with
      | false => exact ih
      | true =>
          refine calm_request_runner_cancel.bind fun _ => Raises.update.bind fun _ => ?_
          have hany : Raises Uncancelled (fun _ => True) (on m (.unwind k) : Prog Ir Unit) :=
            Raises.call fun _ _ => trivial
          exact hany.attempt_bind (fun _ => hraise) fun _ _ => hraise

theorem calm_run_job (hnode : node.Ordinary) {ir : Ir} {shots : Int} :
    Calm (run_job_with_cancellation node m job_id ir shots) := by
  refine Raises.look.bind fun k => Raises.update.bind fun _ => ?_
  have hout : ∀ e, (node.run k ir shots).out = .error e → e ≠ .cancelled := fun e he =>
    (Exn.ordinary_iff.1 (hnode.run k ir shots e he)).2
  cases hplan : node.run k ir shots with
  | refuses e =>
      rw [hplan] at hout
      exact Raises.update.bind fun _ => hout e rfl
  | runs polls out =>
      rw [hplan] at hout
      exact Raises.update.bind fun _ => (calm_poll hout polls).try_finally Raises.update

theorem calm_send_result {payload : WebhookPayload} :
    Calm (send_result m url payload : Prog Ir Unit) :=
  Raises.update.bind fun _ => calm_call (by simp)

theorem calm_send_error {text : String} :
    Calm (send_error m url job_id text : Prog Ir Unit) :=
  Raises.update.bind fun _ => calm_call (by simp)

theorem calm_execute (hnode : node.Ordinary) {decoded : List (String × String)} :
    Calm (execute node m decoded job_id url) := by
  have hparse : ∀ e, node.parse_job decoded = .error e → e ≠ .cancelled := fun e he =>
    (Exn.ordinary_iff.1 (node.parse_job_ordinary he)).2
  have hraise : Calm (.raise .job_cancelled : Prog Ir Unit) := by
    show Exn.job_cancelled ≠ Exn.cancelled
    decide
  refine (Raises.of_except hparse).bind fun job => (calm_run_job hnode).bind fun result => ?_
  refine calm_check.bind fun b => ?_
  cases b with
  | true => exact hraise
  | false =>
      refine Raises.look.bind fun _ => calm_hset.bind fun _ => calm_check.bind fun b' => ?_
      cases b' with
      | true => exact hraise
      | false =>
          exact calm_send_result.bind fun _ => Raises.look.bind fun _ => Raises.update

theorem calm_report_failure {e : Exn} : Calm (report_failure node m job_id url e) := by
  refine calm_check.bind fun b => ?_
  cases b with
  | true => exact calm_mark_job_cancelled
  | false =>
      exact Raises.look.bind fun _ => calm_hset.bind fun _ => calm_logged calm_send_error

theorem calm_on_exception {e : Exn} (he : e ≠ .cancelled) :
    Calm (on_exception node m job_id url e) := by
  cases e with
  | cancelled => exact absurd rfl he
  | job_cancelled => exact Raises.update.bind fun _ => calm_mark_job_cancelled
  | _ => exact Raises.update.bind fun _ => calm_report_failure

theorem calm_release : Calm (release m : Prog Ir Unit) :=
  Raises.update.bind fun _ => calm_xack.bind fun _ => Raises.update.bind fun _ => Raises.update

theorem calm_take_on (hnode : node.Ordinary) {decoded : List (String × String)} :
    Calm (take_on node m decoded job_id url) := by
  refine Raises.update.bind fun _ => Raises.look.bind fun _ => calm_hset.bind fun _ => ?_
  refine Raises.update.bind fun _ => Raises.try_finally ?_ calm_release
  exact (calm_execute hnode).try_except fun e he => calm_on_exception he

theorem calm_decode {fields : List (Raw × Raw)} {e : Exn} (h : decode_fields fields = .error e) :
    e ≠ .cancelled := (Exn.ordinary_iff.1 (decode_fields_ordinary h)).2

/-- Handling a message raises no `CancelledError` of its own. -/
theorem calm_process_message (hnode : node.Ordinary) : Calm (process_message node m) := by
  have hskip : Calm (do let _ ← safe_xack m : Prog Ir Unit) := calm_xack.bind fun _ => trivial
  refine Raises.update.bind fun _ => Raises.update.bind fun _ => ?_
  cases hd : decode_fields m.fields with
  | error e => exact calm_decode hd
  | ok fields =>
      cases m.header with
      | error e => exact hskip
      | ok header =>
          obtain ⟨decoded, job_id, url⟩ := header
          refine (calm_call (by simp)).bind fun st => ?_
          split
          · exact hskip
          · refine calm_check.bind fun b => ?_
            cases b with
            | false => exact calm_take_on hnode
            | true => exact calm_mark_job_cancelled.bind fun _ => hskip

theorem calm_process_each (hnode : node.Ordinary) (ms : List Message) :
    Calm (process_each node ms) := by
  induction ms with
  | nil => trivial
  | cons m rest ih => exact (calm_process_message hnode).bind fun _ => ih

/-! ## Batches -/

theorem calm_examine : Calm (examine node m) := by
  have hskip : Calm (do let _ ← safe_xack m; pure none : Prog Ir (Option (Parsed Ir))) :=
    calm_xack.bind fun _ => trivial
  unfold examine
  cases hd : decode_fields m.fields with
  | error e => exact calm_decode hd
  | ok fields =>
      cases m.header with
      | error e => exact hskip
      | ok header =>
          obtain ⟨decoded, job_id, url⟩ := header
          refine (calm_call (by simp)).bind fun st => ?_
          split
          · exact hskip
          · refine calm_check.bind fun b => ?_
            cases b with
            | true => exact calm_mark_job_cancelled.bind fun _ => hskip
            | false =>
                simp only [Bool.false_eq_true, if_false]
                cases node.parse_job decoded with
                | error e => exact Raises.update.bind fun _ => hskip
                | ok job => trivial

theorem calm_examine_all (ms : List Message) : Calm (examine_all node ms) := by
  induction ms with
  | nil => trivial
  | cons m rest ih => exact calm_examine.bind fun _ => ih.bind fun _ => trivial

theorem calm_mark_executing (jobs : List (Parsed Ir)) : Calm (mark_executing node jobs) := by
  induction jobs with
  | nil => trivial
  | cons job rest ih => exact Raises.look.bind fun _ => calm_hset.bind fun _ => ih

theorem calm_process_batch (hnode : node.Ordinary) (ms : List Message) :
    Calm (process_batch node ms) := by
  have hfall : Calm (fall_back node ms) :=
    Raises.update.bind fun _ => (calm_process_each hnode ms).bind fun _ => trivial
  refine Raises.update.bind fun _ => (calm_examine_all ms).bind fun parsed => ?_
  split
  · trivial
  · refine Raises.update.bind fun _ => (calm_mark_executing parsed).bind fun _ => ?_
    cases node.batch_run with
    | none => exact hfall
    | some f =>
        have hrun : Calm (run_batch parsed) :=
          Raises.look.bind fun _ => Raises.update.bind fun _ => Raises.update.bind fun _ =>
            calm_call (by simp)
        refine hrun.attempt_bind (fun results => fun _ => trivial) fun e he => ?_
        cases e <;> first | exact hfall | exact absurd rfl he

/-! ## The deliveries -/

theorem calm_deliver_single {result : ExecutionResult} {completed_at : String} :
    Calm (deliver_single_batch_result node m job_id url result completed_at) := by
  have hcancelled : Calm (do
      mark_job_cancelled node m job_id
      let _ ← safe_xack m : Prog Ir Unit) :=
    calm_mark_job_cancelled.bind fun _ => calm_xack.bind fun _ => trivial
  refine calm_check.bind fun b => ?_
  cases b with
  | true => exact hcancelled
  | false =>
      refine calm_hset.bind fun _ => calm_check.bind fun b' => ?_
      cases b' with
      | true => exact hcancelled
      | false => exact (calm_logged calm_send_result).bind fun _ => calm_xack.bind fun _ => trivial

theorem calm_task_body (t : TaskSpec Ir) : Calm (task_body node t) := by
  cases t with
  | deliver_single_batch_result m job_id url result completed_at =>
      exact (calm_call (by simp)).bind fun _ => calm_deliver_single
  | deliver_batch_results parsed results =>
      have hspawn : ∀ now_iso jobs, Calm (spawn_deliveries now_iso jobs : Prog Ir (List Nat)) := by
        intro now_iso jobs
        induction jobs with
        | nil => trivial
        | cons job rest ih => exact Raises.bind (fun _ => trivial) fun _ => ih.bind fun _ => trivial
      refine (calm_call (by simp)).bind fun _ => Raises.look.bind fun now_iso => ?_
      refine Raises.try_finally ?_ Raises.update
      split
      · exact (hspawn now_iso _).bind fun _ => (calm_call (by simp)).bind fun _ => Raises.update
      · exact fun he => by cases he

/-! ## The loop -/

theorem calm_recover_each (hnode : node.Ordinary) (ids : List String) :
    Calm (recover_each node ids) := by
  induction ids with
  | nil => trivial
  | cons message_id rest ih =>
      refine (calm_call (by simp)).bind fun messages => ?_
      cases messages with
      | nil => exact ih
      | cons m _ => exact (calm_process_message hnode).bind fun _ => ih.bind fun _ => trivial

theorem calm_recover_pending (hnode : node.Ordinary) : Calm (recover_pending node) :=
  Raises.update.bind fun _ => (calm_call (by simp)).bind fun ids => calm_recover_each hnode ids

theorem calm_recheck_pending (hnode : node.Ordinary) : Calm (recheck_pending node) := by
  refine Raises.look.bind fun now => Raises.look.bind fun last => ?_
  split
  · exact (calm_recover_pending hnode).bind fun _ => Raises.update
  · trivial

theorem calm_await_delivery : Calm (await_delivery : Prog Ir Unit) := by
  refine Raises.look.bind fun delivery => ?_
  cases delivery with
  | none => trivial
  | some t => exact (calm_call (by simp)).bind fun _ => Raises.update

theorem calm_dispatch (hnode : node.Ordinary) (streams : List (String × List Message)) :
    Calm (dispatch node streams) := by
  induction streams with
  | nil => trivial
  | cons s rest ih =>
      obtain ⟨name, ms⟩ := s
      unfold dispatch
      split
      · refine (calm_process_batch hnode ms).bind fun delivery => ?_
        cases delivery with
        | none => exact ih
        | some t => exact Raises.update.bind fun _ => ih
      · exact (calm_process_each hnode ms).bind fun _ => ih

end CodaNode
