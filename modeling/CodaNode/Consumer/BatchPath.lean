/-
`Consumer/BatchPath.lean` -- a batch of jobs, up to the delivery of its results.

`_process_batch` examines all jobs before it marks any of them, and falls back to the single
path when the executor lets it down. For distinct jobs it comes to the same, or it leaves the
ledger `prepared` for a delivery.
-/
import CodaNode.Consumer.SinglePath
import Mathlib.Data.List.Forall2

set_option autoImplicit false

open Coroutine

namespace CodaNode

variable {Ir : Type} {node : Node Ir} {w w' : World Ir}
variable {s : World Ir} {b : Ledger Ir} {job : Parsed Ir} {jobs rest : List (Parsed Ir)}
variable {out : Ir → Int → Except Exn ExecutionResult} {cancels : String → Bool}

/-! ## Examining a job does not matter to the others -/

namespace Ledger

theorem accepts_settle (hnot : job.job_id ∉ rest.map Parsed.job_id) {x : Parsed Ir}
    (hx : x ∈ rest) : ((b.settle out cancels job).account x.job_id).accepts cancels x.job_id =
      (b.account x.job_id).accepts cancels x.job_id := by
  have hne : x.job_id ≠ job.job_id := fun h => hnot (h ▸ List.mem_map_of_mem hx)
  simp only [settle, Function.update_of_ne hne]

theorem accepted_settle (hnot : job.job_id ∉ rest.map Parsed.job_id) :
    (b.settle out cancels job).accepted cancels rest = b.accepted cancels rest :=
  List.filter_congr fun _ hx => accepts_settle hnot hx

theorem skipped_settle (hnot : job.job_id ∉ rest.map Parsed.job_id) :
    (b.settle out cancels job).skipped cancels rest = b.skipped cancels rest :=
  List.filter_congr fun _ hx => by rw [accepts_settle hnot hx]

theorem accepted_cons : b.accepted cancels (job :: rest) =
    if (b.account job.job_id).accepts cancels job.job_id then job :: b.accepted cancels rest
    else b.accepted cancels rest := List.filter_cons

theorem skipped_cons : b.skipped cancels (job :: rest) =
    if (b.account job.job_id).accepts cancels job.job_id then b.skipped cancels rest
    else job :: b.skipped cancels rest := by
  rw [skipped, List.filter_cons]
  cases (b.account job.job_id).accepts cancels job.job_id <;> rfl

/-- A batch that accepts nothing has settled its jobs. -/
theorem settle_all_of_none (hnodup : (jobs.map Parsed.job_id).Nodup)
    (hnone : b.accepted cancels jobs = []) :
    b.settle_all out cancels (b.skipped cancels jobs) = b.settle_all out cancels jobs := by
  rw [← settle_accepted_prepared hnodup, prepared, hnone]
  rfl

end Ledger

/-! ## The examination -/

namespace Solitary

variable {K : Contract (World Ir) (@Req.Reply Ir) Exn}
variable (hK : Solitary K node s)
include hK

variable (out) in
/-- A message of a batch: its job is settled, or it is to be run. -/
theorem wp_examine (hjob : job.Reads node) (h : Sits s b w) :
    K.wp (examine node job.msg) (fun r w' =>
      if (b.account job.job_id).accepts s.cancels job.job_id then
        r = .ok (some job) ∧ Sits s b w'
      else r = .ok none ∧ Sits s (b.settle out s.cancels job) w') w := by
  obtain ⟨decoded, hheader, hparse⟩ := hjob
  have hB := hK.books job.msg job.job_id
  unfold examine
  rw [job.msg.decode_fields_of_header hheader, hheader]
  refine hK.wp_lookup h (fun w hover h => ?_) (fun w hopen hcancels h => ?_) fun w hrun h => ?_
  · have hno : (b.account job.job_id).accepts s.cancels job.job_id = false := by
      simp [Account.accepts, hover]
    simp only [hno, if_neg Bool.false_ne_true]
    refine (Contract.wp_bind _ _ _ _).2 (Contract.wp_mono (hB.wp_safe_xack h) ?_)
    rintro r w' ⟨rfl, h'⟩
    exact ⟨rfl, Ledger.settle_of_over hover ▸ h'⟩
  · have hno : (b.account job.job_id).accepts s.cancels job.job_id = false := by
      simp [Account.accepts, hcancels]
    simp only [hno, if_neg Bool.false_ne_true]
    refine (Contract.wp_bind _ _ _ _).2 (Contract.wp_mono (hB.wp_mark_job_cancelled h) ?_)
    rintro r w' ⟨rfl, h'⟩
    refine (Contract.wp_bind _ _ _ _).2 (Contract.wp_mono (hB.wp_safe_xack h') ?_)
    rintro r w'' ⟨rfl, h''⟩
    exact ⟨rfl, Ledger.settle_of_cancelled hopen hcancels ▸ h''⟩
  · simp only [hrun, if_true]
    rw [hparse]
    exact ⟨rfl, h⟩

variable (out) in
/-- **The examination**: the jobs that are not to be run are settled. -/
theorem wp_examine_all (hjobs : ∀ job ∈ jobs, job.Reads node)
    (hnodup : (jobs.map Parsed.job_id).Nodup) (h : Sits s b w) :
    K.wp (examine_all node (jobs.map Parsed.msg)) (fun r w' =>
      r = .ok (b.accepted s.cancels jobs) ∧
        Sits s (b.settle_all out s.cancels (b.skipped s.cancels jobs)) w') w := by
  -- by induction on the messages: what becomes of one job is nothing to the others
  induction jobs generalizing b w with
  | nil => exact ⟨rfl, h⟩
  | cons job rest ih =>
      rw [List.map_cons, List.nodup_cons] at hnodup
      have hrest : ∀ job ∈ rest, job.Reads node := fun x hx => hjobs x (List.mem_cons_of_mem _ hx)
      refine (Contract.wp_bind _ _ _ _).2 (Contract.wp_mono
        (hK.wp_examine out (hjobs job List.mem_cons_self) h) fun r w₁ h₁ => ?_)
      rw [Ledger.accepted_cons, Ledger.skipped_cons]
      split at h₁
      · obtain ⟨rfl, h₁⟩ := h₁
        refine (Contract.wp_bind _ _ _ _).2 (Contract.wp_mono (ih hrest hnodup.2 h₁) ?_)
        rintro r w₂ ⟨rfl, h₂⟩
        next hyes =>
          rw [if_pos hyes, if_pos hyes]
          exact ⟨rfl, h₂⟩
      · obtain ⟨rfl, h₁⟩ := h₁
        refine (Contract.wp_bind _ _ _ _).2 (Contract.wp_mono (ih hrest hnodup.2 h₁) ?_)
        rintro r w₂ ⟨rfl, h₂⟩
        next hno =>
          rw [Ledger.accepted_settle hnodup.1, Ledger.skipped_settle hnodup.1] at *
          rw [if_neg hno, if_neg hno]
          exact ⟨rfl, h₂⟩

theorem wp_mark_executing (h : Sits s b w) :
    K.wp (mark_executing node jobs) (fun r w' => r = .ok () ∧ Sits s (b.mark_all jobs) w') w := by
  induction jobs generalizing b w with
  | nil => exact ⟨rfl, h⟩
  | cons job rest ih =>
      have hB := hK.books job.msg job.job_id
      refine (Contract.wp_bind _ _ _ _).2 (Contract.wp_mono (hB.wp_look _ h) ?_)
      rintro r w₁ ⟨⟨started_at, rfl⟩, h₁⟩
      refine (Contract.wp_bind _ _ _ _).2 (Contract.wp_mono
        (hB.wp_safe_hset (record_state_batch_executing node started_at) h₁) ?_)
      rintro r w₂ ⟨rfl, h₂⟩
      exact ih h₂

/-! ## The batch call -/

/-- The batch call fails, or it returns what each job would have come to. -/
theorem wp_run_batch (hnode : Executes node out)
    (hpre : ∀ k batch w, Sits s b w → K.pre ⟨none, .batch_run k batch⟩ w) (h : Sits s b w) :
    K.wp (run_batch jobs) (fun r w' => ((∃ e, r = .error e ∧ e.ordinary = true) ∨
      ∃ results, r = .ok results ∧
        List.Forall₂ (fun job result => out job.ir job.shots = .ok result) jobs results) ∧
      Sits s b w') w := by
  refine (Contract.wp_bind _ _ _ _).2
    ((Contract.wp_look _ _ _).2 ⟨hK.keep _ _ _ _ h h (List.suffix_refl _), ?_⟩)
  refine (Contract.wp_bind _ _ _ _).2
    (Contract.wp_mono (hK.wp_unlisted (.begin_call (.batch w.exec.batches)) h) ?_)
  rintro r w₁ ⟨rfl, h₁⟩
  refine (Contract.wp_bind _ _ _ _).2 (Contract.wp_mono (hK.wp_unlisted (.exec _) h₁) ?_)
  rintro r w₂ ⟨rfl, h₂⟩
  refine (Contract.wp_call _ _ _).2 ⟨hpre _ _ _ h₂, fun w₃ hr r w₄ ha => ?_⟩
  have h₃ := hK.rely _ _ _ h₂ hr
  obtain ⟨hans, hfault⟩ := hK.answer _ _ _ _ ha
  have hended : ∀ {took : Bool}, Sits s b (w₃.record (.ended ⟨none, .batch_run w.exec.batches
      (jobs.map fun job => (job.ir, job.shots))⟩ took r)) := fun {took} =>
    ⟨h₃.values, h₃.tasks, h₃.pending, (World.ledger_ended fun _ => rfl).trans h₃.ledger⟩
  cases r with
  | error e =>
      obtain ⟨hfails, ⟨-, rfl⟩ | ⟨htake, -⟩⟩ := answers_error.1 hans
      · refine ⟨hK.keep _ _ _ _ h₃ hended ⟨[_], rfl⟩, .inl ⟨e, rfl, ?_⟩, hended⟩
        rcases hfails with rfl | ⟨f, hf, hout⟩
        · obtain ⟨k, hk⟩ := hfault.1.2 rfl
          cases hk
        · rcases hnode.batch f hf w.exec.batches (jobs.map fun job => (job.ir, job.shots)) with
            ⟨e', he', hord⟩ | ⟨results, hok, -⟩
          · rw [hout] at he'
            cases he'
            exact hord
          · rw [hout] at hok
            cases hok
      · cases htake
  | ok results =>
      obtain ⟨w₅, ⟨⟨f, hf, hout⟩, rfl⟩, rfl⟩ := answers_ok.1 hans
      refine ⟨hK.keep _ _ _ _ h₃ hended ⟨[_], rfl⟩, .inr ⟨results, rfl, ?_⟩, hended⟩
      rcases hnode.batch f hf w.exec.batches (jobs.map fun job => (job.ir, job.shots)) with
        ⟨e', he', -⟩ | ⟨results', hok, hall⟩
      · rw [hout] at he'
        cases he'
      · rw [hout] at hok
        cases hok
        exact List.forall₂_map_left_iff.1 hall

/-- **A batch up to its delivery**: its jobs are settled, or the ledger is prepared for the
delivery of the results. -/
theorem wp_process_batch (hnode : Executes node out) (hjobs : ∀ job ∈ jobs, job.Reads node)
    (hnodup : (jobs.map Parsed.job_id).Nodup)
    (hpre : ∀ b k batch w, Sits s b w → K.pre ⟨none, .batch_run k batch⟩ w)
    {Q : Except Exn (Option Nat) → World Ir → Prop}
    (hsettled : ∀ w, Sits s (b.settle_all out s.cancels jobs) w → Q (.ok none) w)
    (hdelivery : ∀ results w, Sits s (b.prepared out s.cancels jobs) w →
      List.Forall₂ (fun job result => out job.ir job.shots = .ok result)
        (b.accepted s.cancels jobs) results →
      K.wp (create_task (.deliver_batch_results (b.accepted s.cancels jobs) results))
        (fun r w' => Q (r.map some) w') w) (h : Sits s b w) :
    K.wp (process_batch node (jobs.map Parsed.msg)) Q w := by
  refine (Contract.wp_bind _ _ _ _).2 (Contract.wp_mono (hK.wp_unlisted (.mark _) h) ?_)
  rintro r w₁ ⟨rfl, h₁⟩
  refine (Contract.wp_bind _ _ _ _).2
    (Contract.wp_mono (hK.wp_examine_all out hjobs hnodup h₁) ?_)
  rintro r w₂ ⟨rfl, h₂⟩
  rw [Contract.and_then_ok]
  split
  · next hempty =>
      rw [Ledger.settle_all_of_none hnodup (List.isEmpty_iff.1 hempty)] at h₂
      exact hsettled w₂ h₂
  · have hfall : ∀ {w : World Ir}, Sits s (b.prepared out s.cancels jobs) w →
        K.wp (fall_back node (jobs.map Parsed.msg)) Q w := by
      intro w h
      refine (Contract.wp_bind _ _ _ _).2 (Contract.wp_mono (hK.wp_unlisted (.mark _) h) ?_)
      rintro r w₃ ⟨rfl, h₃⟩
      refine (Contract.wp_bind _ _ _ _).2
        (Contract.wp_mono (hK.wp_process_each hnode hjobs h₃) ?_)
      rintro r w₄ ⟨rfl, h₄⟩
      rw [Ledger.settle_all_prepared hnodup] at h₄
      exact hsettled w₄ h₄
    refine (Contract.wp_bind _ _ _ _).2
      (Contract.wp_mono (hK.wp_unlisted (.self _ fun _ => rfl) h₂) ?_)
    rintro r w₃ ⟨rfl, h₃⟩
    refine (Contract.wp_bind _ _ _ _).2 (Contract.wp_mono (hK.wp_mark_executing h₃) ?_)
    rintro r w₄ ⟨rfl, h₄⟩
    rw [Contract.and_then_ok]
    cases node.batch_run with
    | none => exact hfall h₄
    | some f =>
        refine (Contract.wp_bind _ _ _ _).2 ((Contract.wp_attempt _ _ _).2
          (Contract.wp_mono (hK.wp_run_batch hnode (hpre _) h₄) ?_))
        rintro r w₅ ⟨⟨e, rfl, he⟩ | ⟨results, rfl, hresults⟩, h₅⟩
        · cases e with
          | cancelled => cases he
          | job_cancelled => cases he
          | connection msg => exact hfall h₅
          | response msg => exact hfall h₅
          | other msg => exact hfall h₅
        · refine (Contract.wp_bind _ _ _ _).2
            (Contract.wp_mono (hdelivery results w₅ h₅ hresults) fun r w₆ h₆ => ?_)
          cases r with
          | error e => exact h₆
          | ok t => exact h₆

end Solitary

end CodaNode
