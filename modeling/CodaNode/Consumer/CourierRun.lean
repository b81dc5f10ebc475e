/-
`Consumer/CourierRun.lean` -- a reply comes to the same, whether it is batched or not.

The code of the deliveries keeps to the agreement of `Consumer/Courier.lean`, and so does the
loop around them. Whatever the order in which the tasks take their turns, a reply that has been
dispatched and delivered leaves the ledger of its jobs handled one after the other.
-/
import CodaNode.Consumer.Courier
import CodaNode.Consumer.Delivery

set_option autoImplicit false

open Coroutine

namespace CodaNode

namespace Courier

variable {Ir : Type} {node : Node Ir} {w w' s : World Ir} {i : Nat} {t : TaskSpec Ir}
variable {out : Ir → Int → Except Exn ExecutionResult} {b c : Ledger Ir}
variable {job : Parsed Ir} {todo jobs : List (Parsed Ir)} {result : ExecutionResult}

/-! ## The delivery of one job -/

/-- The task of the job knows the ledger `c`, as far as its job goes. -/
structure Carrying (s : World Ir) (out : Ir → Int → Except Exn ExecutionResult) (b : Ledger Ir)
    (todo : List (Parsed Ir)) (i : Nat) (t : TaskSpec Ir) (job : Parsed Ir) (c : Ledger Ir)
    (w : World Ir) : Prop extends (couriers s out b todo).Afloat i t w where
  account : w.ledger.account job.job_id = c.account job.job_id
  acked : job.msg.id ∈ c.acked → job.msg.id ∈ w.ledger.acked

section Single

variable (hnodup : (todo.map Parsed.job_id).Nodup) (hjob : job ∈ todo)
variable (hj : t.job = some job.job_id)
include hnodup hjob hj

/-- A step of the task. -/
theorem Carrying.move {e : Option JobEvent} {f : Ledger Ir → Ledger Ir}
    (hf : Booking job.msg job.job_id f) (h : Carrying s out b todo i t job c w)
    (ht : Turn job.job_id e w w') (hledger : w'.ledger = f w.ledger) :
    ((couriers s out b todo).task node fixed faultless i t).keep w w' ∧
      Carrying s out b todo i t job (f c) w' := by
  have hfine : (couriers s out b todo).fine w' :=
    ⟨ht.values.trans h.good.fine.1, fun _ => (underway_of_live h.good h.live).move hnodup h.live
      hjob hj hf ht.tasks hledger⟩
  obtain ⟨hk, h'⟩ := h.toAfloat.turn hj ht hfine
  refine ⟨hk, h', ?_, fun hin => ?_⟩
  · rw [hledger]
    exact hf.account_congr h.account
  · rw [hledger]
    exact hf.acked_congr h.acked hin

theorem books_carrying : Books ((couriers s out b todo).task node fixed faultless i t) node s
    job.msg job.job_id (Carrying s out b todo i t job) where
  pre _ _ _ _ _ := trivial
  answer _ _ _ _ h := h
  rely c w w' h hr := by
    obtain ⟨h', -, hs⟩ := h.toAfloat.rely hr
    exact ⟨h', (World.account_of_file (hs.own job.job_id hj)).trans h.account,
      fun hin => World.acked_mono hs.log (h.acked hin)⟩
  values _ _ h := h.good.fine.1
  account _ _ h := h.account
  move _ _ _ _ _ hf h ht hledger := h.move hnodup hjob hj hf ht hledger

/-- A result is recorded, posted and ACK-ed. -/
theorem wp_deliver (hcancels : s.cancels job.job_id = false) {completed_at : String}
    (h : Carrying s out b todo i t job c w) :
    ((couriers s out b todo).task node fixed faultless i t).wp (deliver_single_batch_result node
        job.msg job.job_id job.callback_url result completed_at) (fun r w' => r = .ok () ∧
      Carrying s out b todo i t job
        ((c.conclude job.job_id job.callback_url (.ok result)).ack job.msg.id) w') w := by
  have hB : Books ((couriers s out b todo).task node fixed faultless i t) node s job.msg job.job_id
      (Carrying s out b todo i t job) := books_carrying hnodup hjob hj
  refine (Contract.wp_bind _ _ _ _).2 (Contract.wp_mono (hB.wp_has_cancel_signal h) ?_)
  rintro r w₁ ⟨rfl, h₁⟩
  rw [hcancels]
  refine (Contract.wp_bind _ _ _ _).2
    (Contract.wp_mono (hB.wp_safe_hset (record_state_completed completed_at) h₁) ?_)
  rintro r w₂ ⟨rfl, h₂⟩
  refine (Contract.wp_bind _ _ _ _).2 (Contract.wp_mono (hB.wp_has_cancel_signal h₂) ?_)
  rintro r w₃ ⟨rfl, h₃⟩
  rw [hcancels]
  refine (Contract.wp_bind _ _ _ _).2 ((Contract.wp_try_except _ _ _ _).2 (Contract.wp_mono
    (hB.wp_post (c := .send_result job.callback_url (completed_payload job.job_id result)) rfl rfl
      h₃) ?_))
  rintro r w₄ ⟨⟨v, rfl⟩, h₄⟩
  refine (Contract.wp_bind _ _ _ _).2 (Contract.wp_mono (hB.wp_safe_xack h₄) ?_)
  rintro r w₅ ⟨rfl, h₅⟩
  exact ⟨rfl, h₅⟩

/-- **The task of a job settles it.** -/
theorem body_single (hopen : (b.account job.job_id).accepts s.cancels job.job_id = true)
    (hout : out job.ir job.shots = .ok result) {completed_at : String}
    (ht : t = .deliver_single_batch_result job.msg job.job_id job.callback_url result completed_at)
    (h : (couriers s out b todo).Afloat i t w)
    (haccount : w.ledger.account job.job_id = b.account job.job_id) :
    ((couriers s out b todo).task node fixed faultless i t).wp (task_body node t)
      ((couriers s out b todo).Lands i t) w := by
  have hB : Books ((couriers s out b todo).task node fixed faultless i t) node s job.msg job.job_id
      (Carrying s out b todo i t job) := books_carrying hnodup hjob hj
  have h₀ : Carrying s out b todo i t job b w :=
    ⟨h, haccount, (underway_of_live h.good h.live).kept _⟩
  have hnot : t.is_batch = false := by rw [ht]; rfl
  have hbody : ((couriers s out b todo).task node fixed faultless i t).wp (task_body node t)
      (fun r w' => r = .ok () ∧ Carrying s out b todo i t job
        ((b.conclude job.job_id job.callback_url (.ok result)).ack job.msg.id) w') w := by
    conv => arg 2; rw [ht]
    refine (Contract.wp_bind _ _ _ _).2
      ((Contract.wp_call _ _ _).2 ⟨trivial, fun w₁ hr r w₂ ha => ?_⟩)
    have h₁ := hB.rely _ _ _ h₀ hr
    obtain ⟨hk, h₂⟩ := hB.move id none b w₁ w₂ .still h₁ (.of_inner rfl ha.1)
      (World.ledger_of_inner rfl ha.1)
    refine ⟨hk, ?_⟩
    cases r with
    | error e =>
        obtain ⟨he, -⟩ := answers_error.1 ha.1
        obtain ⟨k, hk'⟩ := ha.2.1.2 (congrArg Except.error he)
        cases hk'
    | ok v => exact wp_deliver hnodup hjob hj (Account.accepts_iff.1 hopen).2 h₂
  refine Contract.wp_mono hbody ?_
  rintro r w' ⟨rfl, h'⟩
  refine ⟨h'.good, ⟨⟨trivial, h'.good.order⟩, h'.live, ?_, ?_, ?_, trivial⟩, rfl, ?_, ?_⟩
  · exact fun hb => absurd (hnot.symm.trans hb) Bool.false_ne_true
  · exact fun hb => absurd (hnot.symm.trans hb) Bool.false_ne_true
  · exact fun hb => absurd (hnot.symm.trans hb) Bool.false_ne_true
  · exact fun hnone => by rw [hj] at hnone; cases hnone
  · intro job' hjob' hj'
    have hid : job'.job_id = job.job_id := Option.some.inj (hj'.symm.trans hj)
    obtain rfl : job' = job := List.inj_on_of_nodup_map hnodup hjob' hjob hid
    refine ⟨?_, h'.acked (Set.mem_insert _ _)⟩
    rw [h'.account, Account.settle_run hopen, hout]
    simp [Ledger.conclude, Ledger.ack, Ledger.post, Ledger.write]

end Single

/-! ## The delivery of a batch -/

/-- The delivery has created the tasks of `done`; those of `rest` are left. -/
structure Loading (s : World Ir) (out : Ir → Int → Except Exn ExecutionResult) (b : Ledger Ir)
    (todo : List (Parsed Ir)) (t : TaskSpec Ir) (done rest : List (Parsed Ir))
    (w : World Ir) : Prop extends (couriers s out b todo).Afloat 0 t w where
  split : todo = done ++ rest
  length : w.tasks.length = done.length + 1
  marked : ∀ job ∈ rest, w.ledger.account job.job_id = b.account job.job_id

/-- What the delivery awaits is nothing for the agreement. -/
theorem fine_inner {c : Call Ir} (hc : c.prompt = false) {w w' : World Ir} {r : Except Exn c.Reply}
    (h : (couriers s out b todo).fine w) (ha : answers node ⟨none, c⟩ w r w') :
    (couriers s out b todo).fine w' := by
  have hn := Crew.Neutral.of_answered hc ha
  refine ⟨hn.values.trans h.1, fun hne => ?_⟩
  rw [hn.tasks] at hne
  exact (h.2 hne).same hn.tasks (World.ledger_of_inner hc ha)

/-- Nobody cancels what is awaited for no message. -/
theorem ne_cancelled {c : Call Ir} {e : Exn} (h : faultless ⟨none, c⟩ w (.error e))
    (hc : ∀ k, c ≠ .unwind k) : e ≠ .cancelled := by
  rintro rfl
  obtain ⟨k, hk⟩ := h.1.2 rfl
  exact hc k hk

/-- A task that has ended has returned. -/
theorem outcome_ok (h : (couriers s out b todo).Good w) {e : Exn} :
    w.outcome i ≠ some (.error e) := by
  intro hout
  cases hi : w.tasks[i]? with
  | none => rw [World.outcome, hi] at hout; cases hout
  | some x =>
      obtain ⟨t, o⟩ := x
      rw [World.outcome, hi] at hout
      obtain rfl : o = some (.error e) := hout
      have hne : w.tasks ≠ [] := fun hnil => by rw [hnil] at hi; cases hi
      cases (h.fine.2 hne).well i t _ hi

theorem wp_spawn {now_iso : String} {done : List (Parsed Ir)}
    (hnodup : (todo.map Parsed.job_id).Nodup) (ready : List (Parsed Ir × ExecutionResult))
    (hout : ∀ x ∈ ready, out x.1.ir x.1.shots = .ok x.2)
    (h : Loading s out b todo t done (ready.map Prod.fst) w) :
    ((couriers s out b todo).filing node fixed faultless 0 t).wp (spawn_deliveries now_iso ready)
      (fun r w' => (∃ ts, r = .ok ts) ∧ (couriers s out b todo).Afloat 0 t w' ∧
        w'.tasks.length = todo.length + 1) w := by
  -- by induction on the jobs that are left: each has no task yet
  induction ready generalizing done w with
  | nil =>
      have hdone : todo = done := h.split.trans (List.append_nil done)
      exact ⟨⟨_, rfl⟩, h.toAfloat, by rw [h.length, hdone]⟩
  | cons x rest ih =>
      obtain ⟨job, result⟩ := x
      let u : TaskSpec Ir :=
        .deliver_single_batch_result job.msg job.job_id job.callback_url result now_iso
      have hsplit : todo = done ++ job :: rest.map Prod.fst := h.split
      have hunder := underway_of_live h.good h.live
      have hmem : job ∈ todo := hsplit ▸ List.mem_append_right _ List.mem_cons_self
      have hledger : (w.create_task u).ledger = w.ledger := World.ledger_of_log rfl rfl
      have hfree : ∀ k v a, w.Live k v → v.job = some a → u.job ≠ some a := by
        intro k v a hk hv hu
        obtain rfl : job.job_id = a := Option.some.inj hu
        exact hunder.not_taken hnodup hsplit h.length hk hv
      have hready : (couriers s out b todo).ready u (w.create_task u) :=
        ⟨job, hmem, rfl, rfl, rfl, hout _ List.mem_cons_self, by
          rw [hledger]; exact h.marked job List.mem_cons_self⟩
      obtain ⟨hkeep, h'⟩ : ((couriers s out b todo).filing node fixed faultless 0 t).keep w
          (w.create_task u) ∧ (couriers s out b todo).Afloat 0 t (w.create_task u) :=
        h.toAfloat.spawn rfl hfree
          ⟨h.good.fine.1, fun _ => hunder.create h.live hsplit h.length rfl⟩ hready
      have hnext : Loading s out b todo t (done ++ [job]) (rest.map Prod.fst)
          (w.create_task u) := by
        refine ⟨h', by rw [hsplit, List.append_assoc]; rfl, ?_, fun job' hjob' => ?_⟩
        · rw [World.create_task_tasks, List.length_append, h.length, List.length_append]
          rfl
        · rw [hledger]
          exact h.marked job' (List.mem_cons_of_mem _ hjob')
      refine (Contract.wp_bind _ _ _ _).2 ⟨hkeep, ?_⟩
      refine (Contract.wp_bind _ _ _ _).2 (Contract.wp_mono
        (ih (fun x hx => hout x (List.mem_cons_of_mem _ hx)) hnext) ?_)
      rintro r w' ⟨⟨ts, rfl⟩, h'⟩
      exact ⟨⟨_, rfl⟩, h'⟩

/-- **The delivery of a batch creates the tasks of its jobs and sees them end.** -/
theorem wp_batch {results : List ExecutionResult} (hnodup : (todo.map Parsed.job_id).Nodup)
    (hresults : List.Forall₂ (fun job result => out job.ir job.shots = .ok result) todo results)
    (hmarked : ∀ job ∈ todo, w.ledger.account job.job_id = b.account job.job_id)
    (hlen : w.tasks.length = 1)
    (h : (couriers s out b todo).Afloat 0 (.deliver_batch_results todo results) w) :
    ((couriers s out b todo).filing node fixed faultless 0 (.deliver_batch_results todo results)).wp
      (task_body node (.deliver_batch_results todo results)) (fun r w' => r = .ok () ∧
        (couriers s out b todo).Afloat 0 (.deliver_batch_results todo results) w' ∧
        w'.tasks.length = todo.length + 1) w := by
  have hstill : ∀ (f : Attributes → Attributes) {w : World Ir},
      (couriers s out b todo).Afloat 0 (.deliver_batch_results todo results) w →
      ((couriers s out b todo).filing node fixed faultless 0
        (.deliver_batch_results todo results)).keep w (w.set_self f) ∧
        (couriers s out b todo).Afloat 0 (.deliver_batch_results todo results) (w.set_self f) :=
    fun _ _ h => h.still (.of_log rfl rfl) rfl ⟨h.good.fine.1, fun _ =>
      (underway_of_live h.good h.live).same rfl (World.ledger_of_log rfl rfl)⟩
  obtain ⟨hlength, hzip⟩ := List.forall₂_iff_zip.1 hresults
  refine (Contract.wp_bind _ _ _ _).2
    (h.wp_alone rfl (fun _ _ _ => fine_inner rfl) fun w₁ r w₂ h₁ hb hs hans hallow hn h₂ => ?_)
  cases r with
  | error e => exact absurd (answers_error.1 hans).1 (ne_cancelled hallow (by simp))
  | ok v =>
      have hfiles : w.SameFiles w₂ := (hs.all rfl hlen).trans hn.files
      have hloading : Loading s out b todo (.deliver_batch_results todo results) []
          ((todo.zip results).map Prod.fst) w₂ := by
        rw [List.map_fst_zip hlength.le]
        refine ⟨h₂, rfl, ?_, fun job hjob => ?_⟩
        · rw [hn.tasks, hb.length rfl, hlen]
          rfl
        · exact (World.account_of_file (hfiles job.job_id)).trans (hmarked job hjob)
      refine (Contract.wp_bind _ _ _ _).2 ⟨(h₂.still (.refl w₂) rfl h₂.good.fine).1, ?_⟩
      refine (Contract.wp_try_finally _ _ _ _).2 (Contract.wp_mono (Q := fun r w' => r = .ok () ∧
        (couriers s out b todo).Afloat 0 (.deliver_batch_results todo results) w' ∧
          w'.tasks.length = todo.length + 1) ?_ ?_)
      · rw [if_pos hlength]
        refine (Contract.wp_bind _ _ _ _).2 (Contract.wp_mono
          (wp_spawn hnodup _ (fun x hx => hzip hx) hloading) ?_)
        rintro r w₃ ⟨⟨ts, rfl⟩, h₃, hlen₃⟩
        refine (Contract.wp_bind _ _ _ _).2 (h₃.wp_alone rfl (fun _ _ _ => fine_inner rfl)
          fun w₄ r w₅ h₄ hb₄ _ hans₄ hallow₄ hn₅ h₅ => ?_)
        cases r with
        | error e =>
            rcases (answers_error.1 hans₄).1 with he | ⟨k, -, hk⟩
            · exact absurd he (ne_cancelled hallow₄ (by simp))
            · exact absurd hk (outcome_ok h₄.good)
        | ok v =>
            obtain ⟨hk, h₆⟩ := hstill ({ · with last_job_at := some w₂.now }) h₅
            refine ⟨hk, rfl, h₆, ?_⟩
            rw [World.set_self_tasks, hn₅.tasks, hb₄.length rfl, hlen₃]
      · rintro r w₃ ⟨rfl, h₃, hlen₃⟩
        obtain ⟨hk, h₄⟩ := hstill ({ · with idle := true }) h₃
        exact ⟨hk, rfl, h₄, hlen₃⟩

/-- **Every task keeps to the agreement.** -/
theorem body (hnodup : (todo.map Parsed.job_id).Nodup)
    (hopen : ∀ job ∈ todo, (b.account job.job_id).accepts s.cancels job.job_id = true)
    (h : (couriers s out b todo).Afloat i t w) (hlen : t.is_batch = true → w.tasks.length = i + 1)
    (hready : (couriers s out b todo).ready t w) :
    ((couriers s out b todo).task node fixed faultless i t).wp (task_body node t)
      ((couriers s out b todo).Lands i t) w := by
  cases t with
  | deliver_batch_results parsed results =>
      obtain ⟨rfl, hresults, hmarked⟩ := hready
      obtain rfl : i = 0 := (underway_of_live h.good h.live).eq_zero h.live rfl
      refine Contract.wp_mono (Crew.wp_task_of_filing h (hlen rfl)
        (wp_batch hnodup hresults hmarked (hlen rfl) h)) ?_
      rintro r w' ⟨hlands, rfl, h', hlen'⟩
      exact ⟨h'.good, hlands, rfl, fun _ => hlen', fun job _ hj => by cases hj⟩
  | deliver_single_batch_result m job_id url result completed_at =>
      obtain ⟨job, hjob, rfl, rfl, rfl, hout, haccount⟩ := hready
      exact body_single hnodup hjob rfl (hopen job hjob) hout rfl h haccount

/-! ## The loop around the delivery -/

/-- The delivery has been created. -/
structure Away (s : World Ir) (out : Ir → Int → Except Exn ExecutionResult) (b : Ledger Ir)
    (todo : List (Parsed Ir)) (pending : Option Nat) (w : World Ir) : Prop where
  good : (couriers s out b todo).Good w
  created : w.tasks ≠ []
  pending : w.self.pending_batch_delivery = pending

/-- Nothing is left to do. -/
structure Settled (s : World Ir) (out : Ir → Int → Except Exn ExecutionResult) (b : Ledger Ir)
    (todo : List (Parsed Ir)) (goal : Ledger Ir) (w : World Ir) : Prop where
  good : (couriers s out b todo).Good w
  ended : w.Over
  ledger : w.ledger = goal

/-- A step of the loop that the agreement does not see. -/
theorem Away.step {p q : Option Nat} (h : Away s out b todo p w) (htasks : w'.tasks = w.tasks)
    (hvalues : w'.values = w.values) (hfiles : w.SameFiles w') (hledger : w'.ledger = w.ledger)
    (hlog : w.log <:+ w'.log) (hq : w'.self.pending_batch_delivery = q) :
    ((couriers s out b todo).main node fixed faultless).keep w w' ∧ Away s out b todo q w' := by
  have hgood : (couriers s out b todo).Good w' := h.good.of_tasks
    ⟨hvalues.trans h.good.fine.1, fun _ => (h.good.fine.2 h.created).same htasks hledger⟩ htasks
  exact ⟨⟨hgood, .inl htasks, .inr hfiles, Crew.provides_of_tasks htasks, hlog⟩, hgood,
    htasks ▸ h.created, hq⟩

/-- The delivery is created when the jobs are marked. -/
theorem wp_create {results : List ExecutionResult} (hs : s.tasks = [])
    (hresults : List.Forall₂ (fun job result => out job.ir job.shots = .ok result) todo results)
    (h : Sits s b w) :
    ((couriers s out b todo).main node fixed faultless).wp
      (create_task (.deliver_batch_results todo results)) (fun r w' => r = .ok 0 ∧
        Away s out b todo s.self.pending_batch_delivery w') w := by
  have hnil : w.tasks = [] := h.tasks.trans hs
  have hover : w.Over := fun i t hi => by
    rw [World.Live, hnil] at hi
    cases hi
  have hledger : (w.create_task (.deliver_batch_results todo results)).ledger = b :=
    (World.ledger_of_log rfl rfl).trans h.ledger
  have htasks : (w.create_task (.deliver_batch_results todo results)).tasks =
      [(.deliver_batch_results todo results, none)] := by
    rw [World.create_task_tasks, hnil]
    rfl
  have hnone : ∀ i t r, ¬ (w.create_task (.deliver_batch_results todo results)).Ended i t r := by
    intro i t r hi
    rw [World.Ended, htasks, List.getElem?_singleton] at hi
    split at hi <;> cases hi
  have hunder : Underway s out b todo (w.create_task (.deliver_batch_results todo results)) := by
    refine ⟨?_, fun j _ => by rw [hledger], fun id hid => .inl (hledger ▸ hid),
      fun id hid => hledger ▸ hid, fun i t r hi => absurd hi (hnone i t r),
      fun i t r hi => absurd hi (hnone i t r), fun i t r hi => absurd hi (hnone i t r)⟩
    rw [htasks]
    exact ⟨todo.map fun job => some job.job_id, rfl⟩
  have hgood : (couriers s out b todo).Good
      (w.create_task (.deliver_batch_results todo results)) :=
    ⟨(World.InOrder.launch hover rfl rfl).1, .launch hover rfl, h.values, fun _ => hunder⟩
  have hprovides : (couriers s out b todo).Provides w
      (w.create_task (.deliver_batch_results todo results)) := by
    intro k u _ hk
    rw [World.Live, htasks, List.getElem?_singleton] at hk
    split at hk
    · cases hk
      exact ⟨rfl, hresults, fun job _ => by rw [hledger]⟩
    · cases hk
  refine ⟨⟨hgood, .inr ⟨hover, _, rfl, rfl⟩, .inl hover, hprovides, List.suffix_refl _⟩, ?_, hgood,
    ?_, h.pending⟩
  · rw [hnil]
    rfl
  · rw [htasks]
    exact List.cons_ne_nil _ _

/-- **The loop awaits the delivery, and finds the jobs of the batch settled.** -/
theorem wp_await (hnodup : (todo.map Parsed.job_id).Nodup) (h : Away s out b todo (some 0) w) :
    ((couriers s out b todo).main node fixed faultless).wp await_delivery (fun r w' => r = .ok () ∧
      Settled s out b todo (b.settle_all out s.cancels todo) w') w := by
  refine (Contract.wp_bind _ _ _ _).2 ((Contract.wp_look _ _ _).2
    ⟨(h.step rfl rfl (.refl w) rfl (List.suffix_refl _) h.pending).1, ?_⟩)
  rw [Contract.and_then_ok, h.pending]
  refine (Contract.wp_bind _ _ _ _).2
    ((Contract.wp_call _ _ _).2 ⟨trivial, fun w₁ hr r w₂ ha => ?_⟩)
  obtain ⟨hg, haside⟩ := hr h.good
  have h₁ : Away s out b todo (some 0) w₁ := by
    refine ⟨hg, fun hnil => h.created ?_, haside.pending.trans h.pending⟩
    have hspecs := haside.specs
    rw [hnil, List.map_nil, List.prefix_nil] at hspecs
    exact List.map_eq_nil_iff.1 hspecs
  have hn := Crew.Neutral.of_answered rfl ha.1
  obtain ⟨hk, h₂⟩ : ((couriers s out b todo).main node fixed faultless).keep w₁ w₂ ∧
      Away s out b todo (some 0) w₂ :=
    h₁.step hn.tasks hn.values hn.files (World.ledger_of_inner rfl ha.1) hn.log (by
      rw [(Answered.of_answers ha.1).self, h₁.pending])
  refine ⟨hk, ?_⟩
  cases r with
  | error e =>
      rcases (answers_error.1 ha.1).1 with he | hout
      · exact absurd he (ne_cancelled ha.2 (by simp))
      · exact absurd hout (outcome_ok hg)
  | ok v =>
      obtain ⟨w₃, ⟨hout, rfl⟩, rfl⟩ := answers_ok.1 ha.1
      have hunder := h₂.good.fine.2 h₂.created
      obtain ⟨t, ht⟩ : ∃ t, (w₃.record (.ended ⟨none, .join 0⟩ true (.ok v))).Ended 0 t (.ok ()) := by
        rw [World.outcome] at hout
        obtain ⟨⟨t, o⟩, hget, rfl⟩ := Option.bind_eq_some_iff.1 hout
        exact ⟨t, hget⟩
      have hbatch : t.job = none := by
        have hat := hunder.at_index ht
        exact (Option.some.inj hat).symm
      -- the batch is the last one, and it is over
      have hlatest : (w₃.record (.ended ⟨none, .join 0⟩ true (.ok v))).Latest 0 := by
        refine ⟨⟨_, ht, TaskSpec.is_batch_iff.2 hbatch⟩, fun k u hlt hu => ?_⟩
        by_contra hb
        have hzero := hunder.eq_zero hu (TaskSpec.is_batch_iff.1 (by simpa using hb))
        omega
      have hover := h₂.good.order.quiet hlatest (by rwa [World.outcome])
      have hledger := hunder.settled hnodup hover (hunder.full 0 t _ ht hbatch)
      obtain ⟨hk', h₃⟩ : ((couriers s out b todo).main node fixed faultless).keep
            (w₃.record (.ended ⟨none, .join 0⟩ true (.ok v)))
            ((w₃.record (.ended ⟨none, .join 0⟩ true (.ok v))).set_self
              ({ · with pending_batch_delivery := none })) ∧ Away s out b todo none
            ((w₃.record (.ended ⟨none, .join 0⟩ true (.ok v))).set_self
              ({ · with pending_batch_delivery := none })) :=
        h₂.step rfl rfl (.of_log rfl rfl) (World.ledger_of_log rfl rfl) (List.suffix_refl _) rfl
      exact ⟨hk', rfl, h₃.good, hover.of_tasks rfl, hledger⟩

end Courier

/-! ## A reply -/

section Reply

variable {Ir : Type} {node : Node Ir} {w s : World Ir} {jobs : List (Parsed Ir)}
variable {out : Ir → Int → Except Exn ExecutionResult}

/-- What the loop does with a reply: it dispatches the messages, and before it goes on it awaits
the delivery of the batch, if there is one. -/
def serve (node : Node Ir) (ms : List Message) : Prog Ir Unit := do
  dispatch node [(node.stream, ms)]
  await_delivery

/-- The consumer with its tasks, when it has one reply to serve. -/
def serving (node : Node Ir) : Kernel (World Ir) (@Req.Reply Ir) Exn (TaskSpec Ir) :=
  Crew.kernel node fixed faultless fun _ => none

/-- The agreement on a reply. -/
def replying (s : World Ir) (out : Ir → Int → Except Exn ExecutionResult)
    (jobs : List (Parsed Ir)) : Crew Ir :=
  Courier.couriers s out (s.ledger.prepared out s.cancels jobs) (s.ledger.accepted s.cancels jobs)

theorem wp_dispatch_reply (hnode : Executes node out) (hjobs : ∀ job ∈ jobs, job.Reads node)
    (hnodup : (jobs.map Parsed.job_id).Nodup) (hs : s.tasks = []) :
    ((replying s out jobs).main node fixed faultless).wp
      (dispatch node [(node.stream, jobs.map Parsed.msg)]) (fun r w => r = .ok () ∧
        (Sits s (s.ledger.settle_all out s.cancels jobs) w ∨
          Courier.Away s out (s.ledger.prepared out s.cancels jobs)
            (s.ledger.accepted s.cancels jobs) (some 0) w)) s := by
  have hK : Solitary ((replying s out jobs).main node fixed faultless) node s := Courier.solitary hs
  have h : Sits s s.ledger s := ⟨rfl, rfl, rfl, rfl⟩
  unfold dispatch
  split
  · refine (Contract.wp_bind _ _ _ _).2 (hK.wp_process_batch hnode hjobs hnodup
      (fun _ _ _ _ _ => trivial) (fun w hw => ⟨rfl, .inl hw⟩) (fun results w hw hresults => ?_) h)
    refine Contract.wp_mono (Courier.wp_create hs hresults hw) ?_
    rintro r w' ⟨rfl, h'⟩
    obtain ⟨hk, h''⟩ : ((replying s out jobs).main node fixed faultless).keep w'
          (w'.set_self ({ · with pending_batch_delivery := some 0 })) ∧
        Courier.Away s out (s.ledger.prepared out s.cancels jobs)
          (s.ledger.accepted s.cancels jobs) (some 0)
          (w'.set_self ({ · with pending_batch_delivery := some 0 })) :=
      h'.step rfl rfl (.of_log rfl rfl) (World.ledger_of_log rfl rfl) (List.suffix_refl _) rfl
    exact ⟨hk, rfl, .inr h''⟩
  · refine (Contract.wp_bind _ _ _ _).2
      (Contract.wp_mono (hK.wp_process_each hnode hjobs h) ?_)
    rintro r w' ⟨rfl, h'⟩
    exact ⟨rfl, .inl h'⟩

theorem wp_serve (hnode : Executes node out) (hjobs : ∀ job ∈ jobs, job.Reads node)
    (hnodup : (jobs.map Parsed.job_id).Nodup) (hs : s.tasks = [])
    (hpending : s.self.pending_batch_delivery = none) :
    ((replying s out jobs).main node fixed faultless).wp (serve node (jobs.map Parsed.msg))
      (fun r w => r = .ok () ∧ Courier.Settled s out (s.ledger.prepared out s.cancels jobs)
        (s.ledger.accepted s.cancels jobs) (s.ledger.settle_all out s.cancels jobs) w) s := by
  refine (Contract.wp_bind _ _ _ _).2
    (Contract.wp_mono (wp_dispatch_reply hnode hjobs hnodup hs) ?_)
  rintro r w ⟨rfl, h | h⟩
  · -- nothing has been left to a delivery
    have htasks := h.tasks.trans hs
    have hgood : (replying s out jobs).Good w :=
      .of_no_tasks htasks ⟨h.values, fun hne => absurd htasks hne⟩
    refine (Contract.wp_bind _ _ _ _).2 ((Contract.wp_look _ _ _).2
      ⟨(Courier.solitary hs).keep _ _ _ _ h h (List.suffix_refl _), ?_⟩)
    rw [Contract.and_then_ok, h.pending, hpending]
    refine ⟨rfl, hgood, fun i t hi => ?_, h.ledger⟩
    rw [World.Live, htasks] at hi
    cases hi
  · have hsettled : (s.ledger.prepared out s.cancels jobs).settle_all out s.cancels
        (s.ledger.accepted s.cancels jobs) = s.ledger.settle_all out s.cancels jobs :=
      Ledger.settle_accepted_prepared hnodup
    rw [← hsettled]
    exact Courier.wp_await (Ledger.accepted_nodup hnodup) h

/-- The deliveries of a reply keep to the agreement. -/
theorem replying_sound (hnodup : (jobs.map Parsed.job_id).Nodup)
    {round : Except Exn Unit → World Ir → Prop} :
    (replying s out jobs).Sound node fixed faultless (fun _ => none) round where
  steady := Courier.couriers_steady
  body _ _ _ hgood hlive hlen hready := by
    refine Courier.body (Ledger.accepted_nodup hnodup) (fun job hjob => ?_) ⟨hgood, hlive⟩ hlen
      hready
    rw [Ledger.prepared_of_accepted hnodup hjob]
    exact Account.accepts_iff.2 ⟨rfl, (Account.accepts_iff.1 (List.mem_filter.1 hjob).2).2⟩
  round _ _ _ h := nomatch h

/-- **A reply comes to the same, whether it is batched or not**: every run that has served it,
in whatever order the tasks have taken their turns, leaves the ledger of its jobs handled one
after the other. -/
theorem serve_settles (hnode : Executes node out) (hjobs : ∀ job ∈ jobs, job.Reads node)
    (hnodup : (jobs.map Parsed.job_id).Nodup) (hw : w.tasks = [])
    (hpending : w.self.pending_batch_delivery = none)
    {x : Pool (World Ir) (@Req.Reply Ir) Exn}
    (run : (serving node).Run ((serving node).start w (serve node (jobs.map Parsed.msg))) x)
    {r : Except Exn Unit} (hr : x.main.outcome = some r) :
    r = .ok () ∧ x.state.ledger = w.ledger.settle_all out w.cancels jobs := by
  have hfine : (replying w out jobs).fine w := ⟨rfl, fun hne => absurd hw hne⟩
  obtain ⟨-, w₁, hrely, hwp⟩ := (replying_sound hnodup).run hw hfine
    (wp_serve hnode hjobs hnodup hw hpending) run
  obtain ⟨rfl, hgood, hover, hledger⟩ := Kernel.Agreement.done_of_wp hwp hr
  obtain ⟨-, haside⟩ := hrely hgood
  obtain ⟨-, hhashes, hlog⟩ := haside.away.quiet hover
  exact ⟨rfl, (World.ledger_of_log hhashes hlog).trans hledger⟩

/-- `asyncio.gather` of tasks that have returned. -/
theorem gathered (tasks : List Nat) (h : ∀ t ∈ tasks, w.outcome t = some (.ok ())) :
    answers node ⟨none, .gather tasks⟩ w (.ok ())
      (w.record (.ended ⟨none, .gather tasks⟩ true (.ok ()))) :=
  answers_ok.2 ⟨w, ⟨h, rfl⟩, rfl⟩

/-- Two jobs in one reply. -/
def delivery_jobs : List (Parsed String) := [sample_job "1-0" "job-1", sample_job "2-0" "job-2"]

set_option maxRecDepth 40000 in
/-- They are run in one batch, and each is delivered by a task of its own. -/
theorem serve_settles_batch :
    ∃ x, (serving delivery_node).Run ((serving delivery_node).start delivery_world
        (serve delivery_node (delivery_jobs.map Parsed.msg))) x ∧
      x.main.outcome = some (.ok ()) ∧ x.state.tasks.length = 3 ∧
      x.state.ledger = delivery_world.ledger.settle_all (fun _ _ => .ok sample_result)
        delivery_world.cancels delivery_jobs := by
  have hexecutes : Executes delivery_node fun _ _ => .ok sample_result :=
    sample_executes fun f hf _ _ => by cases hf; rfl
  have hreads : ∀ job ∈ delivery_jobs, job.Reads delivery_node := by
    intro job hjob
    rcases List.mem_pair.1 hjob with rfl | rfl
    · exact sample_job_reads _ _
    · exact sample_job_reads _ _
  suffices hx : ∃ x, (serving delivery_node).Run ((serving delivery_node).start delivery_world
      (serve delivery_node (delivery_jobs.map Parsed.msg))) x ∧
        x.main.outcome = some (.ok ()) ∧ x.state.tasks.length = 3 by
    obtain ⟨x, hrun, hr, htasks⟩ := hx
    exact ⟨x, hrun, hr, htasks,
      (serve_settles hexecutes hreads (by decide) rfl rfl hrun hr).2⟩
  have hok : ∀ (q : Req String) (w : World String) (v : q.Reply), faultless q w (.ok v) :=
    faultless_ok
  refine Kernel.exists_run_of_main _ (r := .ok none) rfl
    ⟨answers_ok.2 ⟨_, ⟨rfl, rfl⟩, rfl⟩, hok _ _ _⟩ ?_
  refine Kernel.exists_run_of_main _ (r := .ok none) rfl
    ⟨answers_ok.2 ⟨_, ⟨rfl, rfl⟩, rfl⟩, hok _ _ _⟩ ?_
  refine Kernel.exists_run_of_main _ (r := .ok none) rfl
    ⟨answers_ok.2 ⟨_, ⟨rfl, rfl⟩, rfl⟩, hok _ _ _⟩ ?_
  refine Kernel.exists_run_of_main _ (r := .ok none) rfl
    ⟨answers_ok.2 ⟨_, ⟨rfl, rfl⟩, rfl⟩, hok _ _ _⟩ ?_
  refine Kernel.exists_run_of_main _ (r := .ok ()) rfl
    ⟨answers_ok.2 ⟨_, rfl, rfl⟩, hok _ _ _⟩ ?_
  refine Kernel.exists_run_of_main _ (r := .ok ()) rfl
    ⟨answers_ok.2 ⟨_, rfl, rfl⟩, hok _ _ _⟩ ?_
  refine Kernel.exists_run_of_main _ (r := .ok [sample_result, sample_result]) rfl
    ⟨answers_ok.2 ⟨_, ⟨⟨_, rfl, rfl⟩, rfl⟩, rfl⟩, hok _ _ _⟩ ?_
  -- the delivery of the batch, and then those of its jobs
  refine Kernel.exists_run_of_task _ 0 (r := .ok ()) rfl
    ⟨answers_ok.2 ⟨_, rfl, rfl⟩, hok _ _ _⟩ ?_
  refine Kernel.exists_run_of_task _ 1 (r := .ok ()) rfl
    ⟨answers_ok.2 ⟨_, rfl, rfl⟩, hok _ _ _⟩ ?_
  refine Kernel.exists_run_of_task _ 1 (r := .ok none) rfl
    ⟨answers_ok.2 ⟨_, ⟨rfl, rfl⟩, rfl⟩, hok _ _ _⟩ ?_
  refine Kernel.exists_run_of_task _ 1 (r := .ok ()) rfl
    ⟨answers_ok.2 ⟨_, rfl, rfl⟩, hok _ _ _⟩ ?_
  refine Kernel.exists_run_of_task _ 1 (r := .ok none) rfl
    ⟨answers_ok.2 ⟨_, ⟨rfl, rfl⟩, rfl⟩, hok _ _ _⟩ ?_
  refine Kernel.exists_run_of_task _ 1 (r := .ok ()) rfl
    ⟨answers_ok.2 ⟨_, rfl, rfl⟩, hok _ _ _⟩ ?_
  refine Kernel.exists_run_of_task _ 1 (r := .ok ()) rfl
    ⟨answers_ok.2 ⟨_, rfl, rfl⟩, hok _ _ _⟩ ?_
  refine Kernel.exists_run_of_task _ 2 (r := .ok ()) rfl
    ⟨answers_ok.2 ⟨_, rfl, rfl⟩, hok _ _ _⟩ ?_
  refine Kernel.exists_run_of_task _ 2 (r := .ok none) rfl
    ⟨answers_ok.2 ⟨_, ⟨rfl, rfl⟩, rfl⟩, hok _ _ _⟩ ?_
  refine Kernel.exists_run_of_task _ 2 (r := .ok ()) rfl
    ⟨answers_ok.2 ⟨_, rfl, rfl⟩, hok _ _ _⟩ ?_
  refine Kernel.exists_run_of_task _ 2 (r := .ok none) rfl
    ⟨answers_ok.2 ⟨_, ⟨rfl, rfl⟩, rfl⟩, hok _ _ _⟩ ?_
  refine Kernel.exists_run_of_task _ 2 (r := .ok ()) rfl
    ⟨answers_ok.2 ⟨_, rfl, rfl⟩, hok _ _ _⟩ ?_
  refine Kernel.exists_run_of_task _ 2 (r := .ok ()) rfl
    ⟨answers_ok.2 ⟨_, rfl, rfl⟩, hok _ _ _⟩ ?_
  refine Kernel.exists_run_of_task _ 0 (r := .ok ()) rfl
    ⟨gathered [1, 2] (List.forall_mem_cons.2 ⟨rfl, List.forall_mem_cons.2 ⟨rfl, nofun⟩⟩),
      hok _ _ _⟩ ?_
  refine Kernel.exists_run_of_main _ (r := .ok ()) rfl
    ⟨answers_ok.2 ⟨_, ⟨rfl, rfl⟩, rfl⟩, hok _ _ _⟩ ?_
  exact ⟨_, .refl, rfl, rfl⟩

end Reply

end CodaNode
