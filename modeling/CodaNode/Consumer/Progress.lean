/-
`Consumer/Progress.lean` -- the consumer cannot deadlock.

The loop awaits the delivery of a batch, which awaits the deliveries of its jobs, and these await
Redis and the webhooks alone. Whatever has happened before, as long as the loop has not ended
there is something among what is awaited that can be answered there and then, without a fault
of Redis and without a cancellation.
-/
import CodaNode.Consumer.Calm
import CodaNode.Consumer.Delivery
import CodaNode.Consumer.Rounds
import CodaNode.Consumer.Single
import CodaNode.Consumer.Tasks

set_option autoImplicit false

open Coroutine

namespace CodaNode

variable {Ir : Type} {node : Node Ir} {w w' : World Ir} {m : Message} {i : Nat} {t : TaskSpec Ir}
variable {cloud : (String → Option String) → (String → Option String) → Prop}

/-! ## What is awaited -/

/-- The operation depends neither on a task nor on the executor's batches. -/
def Call.free : Call Ir → Bool
  | .join _ | .gather _ | .batch_run _ _ => false
  | _ => true

theorem Call.free_of_prompt {c : Call Ir} (hc : c.prompt = true) : c.free = true := by
  cases c <;> first | rfl | cases hc

/-- What the loop, or a task, awaits is there: the loop joins a task that has been created, and
only the delivery of a batch gathers tasks, each the delivery of a job. -/
def Attends (node : Node Ir) (a : Option (Nat × TaskSpec Ir)) (q : Req Ir) (w : World Ir) : Prop :=
  match q.call with
  | .join k => a = none ∧ k < w.tasks.length
  | .gather ks => (∃ i t, a = some (i, t) ∧ t.is_batch = true) ∧
      ∀ k ∈ ks, ∃ u, (w.tasks.map Prod.fst)[k]? = some u ∧ u.is_batch = false
  | .batch_run _ _ => node.batch_run.isSome = true
  | _ => True

theorem attends_of_free {a : Option (Nat × TaskSpec Ir)} {q : Req Ir} (hq : q.call.free = true) :
    Attends node a q w := by
  obtain ⟨msg, c⟩ := q
  cases c <;> trivial

/-- Tasks are only added, an end that has been recorded is recorded for good, and no task is
cancelled. -/
structure World.Later (w w' : World Ir) : Prop where
  specs : w.tasks.map Prod.fst <+: w'.tasks.map Prod.fst
  outcome : ∀ i r, w.outcome i = some r → w'.outcome i = some r
  calm : ∀ i, w'.outcome i = some (.error .cancelled) → w.outcome i = some (.error .cancelled)

theorem World.Later.of_tasks (h : w'.tasks = w.tasks) : w.Later w' :=
  ⟨World.specs_of_tasks h, fun i r hi => by rwa [World.outcome, h],
    fun i hi => by rwa [World.outcome, ← h]⟩

theorem World.Later.trans {w'' : World Ir} (h : w.Later w') (h' : w'.Later w'') : w.Later w'' :=
  ⟨h.specs.trans h'.specs, fun i r hi => h'.outcome i r (h.outcome i r hi),
    fun i hi => h.calm i (h'.calm i hi)⟩

theorem World.Later.create (w : World Ir) (t : TaskSpec Ir) : w.Later (w.create_task t) := by
  refine ⟨(World.Spawns.create t).specs, fun _ _ => World.outcome_create_task t, fun i hi => ?_⟩
  rw [World.outcome, World.create_task_tasks] at hi
  rcases Nat.lt_or_ge i w.tasks.length with hlt | hge
  · rwa [List.getElem?_append_left hlt] at hi
  · rw [List.getElem?_append_right hge, List.getElem?_singleton] at hi
    split at hi <;> cases hi

theorem World.Later.finish {r : Except Exn Unit} (hr : r ≠ .error .cancelled) :
    w.Later (w.finish_task i r) := by
  refine ⟨w.finish_task_grows i r, fun _ _ => World.outcome_finish_task, fun j hj => ?_⟩
  rw [World.outcome, finish_task_get] at hj
  rw [World.outcome]
  cases hx : w.tasks[j]? with
  | none => rw [hx] at hj; cases hj
  | some x =>
      obtain ⟨u, o⟩ := x
      rw [hx] at hj
      simp only [Option.map_some, Option.bind_some] at hj ⊢
      split at hj
      · cases o with
        | none => exact absurd (Option.some.inj hj) hr
        | some o => exact hj
      · exact hj

/-- No task has ended by being cancelled. -/
def World.NoneCancelled (w : World Ir) : Prop := ∀ i, w.outcome i ≠ some (.error .cancelled)

theorem World.none_cancelled_of_no_tasks (h : w.tasks = []) : w.NoneCancelled := by
  intro i hi
  rw [World.outcome, h] at hi
  cases hi

theorem World.Later.none_cancelled (hl : w.Later w') (h : w.NoneCancelled) :
    w'.NoneCancelled := fun i hi => h i (hl.calm i hi)

/-- A task ends when its end is recorded. -/
theorem World.exists_outcome_finish {r : Except Exn Unit}
    (hi : (w.tasks.map Prod.fst)[i]? = some t) : ∃ r', (w.finish_task i r).outcome i = some r' := by
  rw [List.getElem?_map] at hi
  obtain ⟨x, hx, -⟩ := Option.map_eq_some_iff.1 hi
  rw [World.outcome, finish_task_get, hx]
  cases ho : x.2 with
  | none => exact ⟨r, by simp [ho]⟩
  | some o => exact ⟨o, by simp [ho]⟩

/-- A task that is not live has ended. -/
theorem World.exists_outcome (hi : (w.tasks.map Prod.fst)[i]? = some t) (h : ¬ w.Live i t) :
    ∃ r, w.outcome i = some r := by
  rw [List.getElem?_map] at hi
  obtain ⟨⟨u, o⟩, hx, rfl⟩ := Option.map_eq_some_iff.1 hi
  cases o with
  | none => exact absurd hx h
  | some r => exact ⟨r, by rw [World.outcome, hx]; rfl⟩

theorem World.Later.length_le (h : w.Later w') : w.tasks.length ≤ w'.tasks.length := by
  have hle := h.specs.length_le
  rwa [List.length_map, List.length_map] at hle

theorem Attends.later {a : Option (Nat × TaskSpec Ir)} {q : Req Ir} (h : Attends node a q w)
    (hl : w.Later w') : Attends node a q w' := by
  obtain ⟨msg, c⟩ := q
  cases c with
  | join k => exact ⟨h.1, Nat.lt_of_lt_of_le h.2 hl.length_le⟩
  | gather ks =>
      refine ⟨h.1, fun k hk => ?_⟩
      obtain ⟨u, hu, hsingle⟩ := h.2 k hk
      exact ⟨u, (Kernel.get_of_le hl.specs (List.getElem?_eq_some_iff.1 hu).1).trans hu, hsingle⟩
  | _ => exact h

/-! ## The contract -/

/-- The contract of the loop, or of a task: only the loop changes the pending delivery. -/
def attentive (node : Node Ir)
    (cloud : (String → Option String) → (String → Option String) → Prop)
    (a : Option (Nat × TaskSpec Ir)) : Contract (World Ir) (@Req.Reply Ir) Exn where
  pre := Attends node a
  rely w w' := w.Later w' ∧
    (a = none → w'.self.pending_batch_delivery = w.self.pending_batch_delivery)
  answer := (consumer node cloud not_cancelled).answer
  keep w w' := w.Later w' ∧
    (a ≠ none → w'.self.pending_batch_delivery = w.self.pending_batch_delivery)

/-- The delivery that the loop has yet to join has been created. -/
def Due (a : Option (Nat × TaskSpec Ir)) (w : World Ir) : Prop :=
  a = none → ∀ k, w.self.pending_batch_delivery = some k → k < w.tasks.length

theorem Due.later {a : Option (Nat × TaskSpec Ir)} (h : Due a w) (hl : w.Later w')
    (hp : a = none → w'.self.pending_batch_delivery = w.self.pending_batch_delivery) :
    Due a w' := fun ha k hk =>
  Nat.lt_of_lt_of_le (h ha k ((hp ha).symm.trans hk)) hl.length_le

/-- A step that leaves the tasks and the pending delivery alone. -/
def Aloof (f : World Ir → World Ir) : Prop := ∀ w, (f w).tasks = w.tasks ∧
  (f w).self.pending_batch_delivery = w.self.pending_batch_delivery

theorem aloof_permits : Permits (Aloof : (World Ir → World Ir) → Prop) where
  look _ := ⟨rfl, rfl⟩
  flags _ hf _ w := ⟨rfl, (hf w.self).2.2⟩
  starts _ _ := ⟨rfl, rfl⟩
  exec _ _ := ⟨rfl, rfl⟩
  self _ hf w := ⟨rfl, (hf w.self).2.2⟩
  mark _ _ _ := ⟨rfl, rfl⟩

section Code

variable {a : Option (Nat × TaskSpec Ir)} {α : Type}

/-- An answer leaves the tasks and the pending delivery alone. -/
theorem answered_keep {q : Req Ir} {r : Except Exn q.Reply} (h : Due a w)
    (ha : answers node q w r w') : (attentive node cloud a).keep w w' ∧ Due a w' := by
  have hans := Answered.of_answers ha
  have hl : w.Later w' := .of_tasks hans.tasks
  exact ⟨⟨hl, fun _ => by rw [hans.self]⟩, h.later hl fun _ => by rw [hans.self]⟩

theorem Due.rely (h : Due a w) (hr : (attentive node cloud a).rely w w') : Due a w' :=
  h.later hr.1 hr.2

theorem Aloof.keep {f : World Ir → World Ir} (hf : Aloof f) (h : Due a w) :
    (attentive node cloud a).keep w (f w) ∧ Due a (f w) := by
  have hl : w.Later (f w) := .of_tasks (hf w).1
  exact ⟨⟨hl, fun _ => (hf w).2⟩, h.later hl fun _ => (hf w).2⟩

/-- Code that awaits nothing but free operations. -/
theorem keeps_free {p : Prog Ir α} (hp : Within Aloof (fun q => q.call.free = true) p) :
    (attentive node cloud a).Keeps (Due a) p := fun _ hw =>
  Within.wp (I := Due a) (fun _ _ hq _ => attends_of_free hq) (fun _ _ h hr => h.rely hr)
    (fun _ _ hf h => hf.keep h) (fun _ _ _ _ _ h ha => answered_keep h ha.1) hp hw

theorem free_alone {c : Call Ir} (hc : c.free = true) :
    Within Aloof (fun q => q.call.free = true) (alone c : Prog Ir c.Reply) := Within.call hc

theorem free_mark (x : Mark) :
    Within Aloof (fun q => q.call.free = true) (mark x : Prog Ir Unit) :=
  Within.update fun _ => ⟨rfl, rfl⟩

theorem free_process_message :
    Within Aloof (fun q => q.call.free = true) (process_message node m) :=
  (handling_process_message aloof_permits (fun _ _ => ⟨rfl, rfl⟩) fun _ _ => ⟨rfl, rfl⟩).mono
    (fun _ hf => hf) fun _ hq => Call.free_of_prompt hq.2.1

theorem free_process_each (ms : List Message) :
    Within Aloof (fun q => q.call.free = true) (process_each node ms) := by
  induction ms with
  | nil => trivial
  | cons m rest ih => exact free_process_message.bind fun _ => ih

theorem free_recover_each (ids : List String) :
    Within Aloof (fun q => q.call.free = true) (recover_each node ids) := by
  induction ids with
  | nil => trivial
  | cons message_id rest ih =>
      refine (free_alone rfl).bind fun messages => ?_
      cases messages with
      | nil => exact ih
      | cons m _ => exact free_process_message.bind fun _ => ih.bind fun _ => trivial

theorem free_recover_pending :
    Within Aloof (fun q => q.call.free = true) (recover_pending node) :=
  (Within.update fun _ => ⟨rfl, rfl⟩).bind fun _ => (free_alone rfl).bind fun ids =>
    free_recover_each ids

theorem free_startup : Within Aloof (fun q => q.call.free = true) (startup node) := by
  have hset : ∀ {f : World Ir → World Ir}, (∀ w, (f w).tasks = w.tasks ∧
      (f w).self.pending_batch_delivery = w.self.pending_batch_delivery) →
      Within Aloof (fun q => q.call.free = true) (Co.update f : Prog Ir Unit) :=
    fun hf => Within.update hf
  refine (hset fun _ => ⟨rfl, rfl⟩).bind fun _ => ?_
  refine Within.bind (Within.try_except (free_alone rfl) fun e => ?_) fun _ => ?_
  · cases e with
    | response msg =>
        dsimp only
        split
        · trivial
        · trivial
    | _ => trivial
  · exact free_recover_pending.bind fun _ => (Within.look aloof_permits.look).bind fun _ =>
      hset fun _ => ⟨rfl, rfl⟩

theorem free_recheck_pending :
    Within Aloof (fun q => q.call.free = true) (recheck_pending node) := by
  refine (Within.look aloof_permits.look).bind fun now =>
    (Within.look aloof_permits.look).bind fun last => ?_
  split
  · exact free_recover_pending.bind fun _ => Within.update fun _ => ⟨rfl, rfl⟩
  · trivial

theorem free_back_off (e : Exn) :
    Within Aloof (fun q => q.call.free = true) (back_off e : Prog Ir Unit) := by
  unfold back_off
  split
  · exact (Within.update fun _ => ⟨rfl, rfl⟩).bind fun _ =>
      (Within.update fun _ => ⟨rfl, rfl⟩).bind fun _ =>
        (Within.look aloof_permits.look).bind fun _ => (Within.of_except _).bind fun _ =>
          (Within.update fun _ => ⟨rfl, rfl⟩).bind fun _ => free_alone rfl
  · split
    · trivial
    · exact free_alone rfl

theorem free_examine_all (ms : List Message) :
    Within Aloof (fun q => q.call.free = true) (examine_all node ms) := by
  induction ms with
  | nil => trivial
  | cons m rest ih =>
      refine Within.bind ((handling_examine aloof_permits.look
        (aloof_permits.mark _ rfl)).mono (fun _ hf => hf) fun _ hq => Call.free_of_prompt hq.2.1)
        fun _ => ih.bind fun _ => trivial

theorem free_mark_executing (jobs : List (Parsed Ir)) :
    Within Aloof (fun q => q.call.free = true) (mark_executing node jobs) := by
  induction jobs with
  | nil => trivial
  | cons job rest ih =>
      refine (Within.look aloof_permits.look).bind fun started_at => ?_
      have hwrite : Within Aloof (For job.msg) (safe_hset job.msg (status_key job.job_id)
          (batch_executing_record node started_at) : Prog Ir Bool) := Before.within inner_hset
      exact (hwrite.mono (fun _ hf => hf) fun _ hq => Call.free_of_prompt hq.2.1).bind fun _ => ih

/-! ## The loop -/

/-- A batch leaves no delivery to be joined, or one that it has just created. -/
theorem wp_process_batch_due (ms : List Message) (h : Due none w) :
    (attentive node cloud none).wp (process_batch node ms) (fun r w' => Due none w' ∧
      ∀ k, r = .ok (some k) → k < w'.tasks.length) w := by
  have hnone : ∀ {p : Prog Ir (Option Nat)} {w : World Ir},
      (attentive node cloud none).wp p (fun r w' => Due none w' ∧ ∀ k, r ≠ .ok (some k)) w →
      (attentive node cloud none).wp p (fun r w' => Due none w' ∧
        ∀ k, r = .ok (some k) → k < w'.tasks.length) w := fun hp =>
    Contract.wp_mono hp fun _ _ h => ⟨h.1, fun k hk => absurd hk (h.2 k)⟩
  have hfall : ∀ {w : World Ir}, Due none w → (attentive node cloud none).wp (fall_back node ms)
      (fun r w' => Due none w' ∧ ∀ k, r = .ok (some k) → k < w'.tasks.length) w := fun h => by
    refine hnone ((keeps_free (free_mark _)).wp_bind h
      (fun _ _ h => ⟨h, nofun⟩) fun _ w₁ h₁ => ?_)
    exact (keeps_free (free_process_each ms)).wp_bind h₁ (fun _ _ h => ⟨h, nofun⟩)
      fun _ w₂ h₂ => ⟨h₂, nofun⟩
  refine (keeps_free (free_mark _)).wp_bind h (fun _ _ h => ⟨h, nofun⟩) fun _ w₁ h₁ => ?_
  refine (keeps_free (free_examine_all ms)).wp_bind h₁ (fun _ _ h => ⟨h, nofun⟩)
    fun parsed w₂ h₂ => ?_
  split
  · exact ⟨h₂, nofun⟩
  · have hbusy : (attentive node cloud none).Keeps (Due none)
        (Co.update (·.set_self ({ · with idle := false })) : Prog Ir Unit) :=
      keeps_free (Within.update fun _ => ⟨rfl, rfl⟩)
    refine hbusy.wp_bind h₂ (fun _ _ h => ⟨h, nofun⟩) fun _ w₃ h₃ => ?_
    refine (keeps_free (free_mark_executing parsed)).wp_bind h₃ (fun _ _ h => ⟨h, nofun⟩)
      fun _ w₄ h₄ => ?_
    cases hbatch : node.batch_run with
    | none => exact hfall h₄
    | some f =>
        have hrun : (attentive node cloud none).Keeps (Due none) (run_batch parsed) := by
          refine Contract.Keeps.bind (keeps_free (Within.look aloof_permits.look)) fun k =>
            Contract.Keeps.bind (keeps_free (Within.update fun _ => ⟨rfl, rfl⟩)) fun _ =>
              Contract.Keeps.bind (keeps_free (Within.update fun _ => ⟨rfl, rfl⟩)) fun _ =>
                fun w h => (Contract.wp_call _ _ _).2 ⟨?_, fun w₁ hr r w₂ ha => ?_⟩
          · show node.batch_run.isSome = true
            rw [hbatch]
            rfl
          · exact answered_keep (h.rely hr) ha.1
        refine hrun.attempt.wp_bind h₄ (fun _ _ h => ⟨h, nofun⟩) fun results w₅ h₅ => ?_
        cases results with
        | error e => cases e <;> first | exact hfall h₅ | exact ⟨h₅, nofun⟩
        | ok results =>
            have hl := World.Later.create w₅ (.deliver_batch_results parsed results)
            refine ⟨⟨hl, fun _ => rfl⟩, h₅.later hl fun _ => rfl, fun k hk => ?_⟩
            cases hk
            rw [World.create_task_tasks, List.length_append]
            exact Nat.lt_succ_self _

theorem keeps_dispatch (streams : List (String × List Message)) :
    (attentive node cloud none).Keeps (Due none) (dispatch node streams) := by
  induction streams with
  | nil => exact .ret _
  | cons stream rest ih =>
      intro w h
      unfold dispatch
      split
      · refine (Contract.wp_bind _ _ _ _).2 (Contract.wp_mono (wp_process_batch_due _ h) ?_)
        rintro (e | delivery) w₁ ⟨h₁, hk⟩
        · exact h₁
        · cases delivery with
          | none => exact ih w₁ h₁
          | some k =>
              have hl : w₁.Later (w₁.set_self ({ · with pending_batch_delivery := some k })) :=
                .of_tasks rfl
              refine (Contract.wp_bind _ _ _ _).2
                ⟨⟨hl, fun ha => absurd rfl ha⟩, ih _ fun _ k' hk' => ?_⟩
              cases hk'
              exact hk k rfl
      · exact (keeps_free (free_process_each _)).wp_bind h (fun _ _ h => h) fun _ w₁ h₁ => ih w₁ h₁

theorem keeps_await_delivery :
    (attentive node cloud none).Keeps (Due none) (await_delivery : Prog Ir Unit) := by
  intro w h
  refine (Contract.wp_bind _ _ _ _).2
    ((Contract.wp_look _ _ _).2 ⟨(aloof_permits.look.keep h).1, ?_⟩)
  rw [Contract.and_then_ok]
  cases hp : w.self.pending_batch_delivery with
  | none => exact h
  | some k =>
      refine (Contract.wp_bind _ _ _ _).2
        ((Contract.wp_call _ _ _).2 ⟨⟨rfl, h rfl k hp⟩, fun w₁ hr r w₂ ha => ?_⟩)
      obtain ⟨hk, h₂⟩ : (attentive node cloud none).keep w₁ w₂ ∧ Due none w₂ :=
        answered_keep (h.rely hr) ha.1
      refine ⟨hk, ?_⟩
      cases r with
      | error e => exact h₂
      | ok v => exact ⟨⟨.of_tasks rfl, fun ha => absurd rfl ha⟩, fun _ _ hk' => nomatch hk'⟩

/-- **A round of the loop joins only deliveries that have been created.** -/
theorem keeps_iteration : (attentive node cloud none).Keeps (Due none) (iteration node) := by
  refine Contract.Keeps.try_except ?_ fun e => keeps_free (free_back_off e)
  refine Contract.Keeps.bind (keeps_free (free_alone rfl)) fun messages =>
    Contract.Keeps.bind (keeps_free (Within.update fun _ => ⟨rfl, rfl⟩)) fun _ =>
      Contract.Keeps.bind (keeps_free (Within.update fun _ => ⟨rfl, rfl⟩)) fun _ =>
        Contract.Keeps.bind keeps_await_delivery fun _ => ?_
  split
  · exact keeps_free free_recheck_pending
  · exact keeps_dispatch messages

/-! ## The tasks -/

/-- The tasks that the delivery of a batch gathers have been created. -/
theorem wp_spawn_single {a : Nat × TaskSpec Ir} (now_iso : String)
    (jobs : List (Parsed Ir × ExecutionResult)) :
    (attentive node cloud (some a)).wp (spawn_deliveries now_iso jobs) (fun r w' => w.Later w' ∧
      ∀ ks, r = .ok ks → ∀ k ∈ ks, ∃ u, (w'.tasks.map Prod.fst)[k]? = some u ∧ u.is_batch = false)
      w := by
  induction jobs generalizing w with
  | nil =>
      refine ⟨.of_tasks rfl, fun ks hks k hk => ?_⟩
      cases hks
      cases hk
  | cons x rest ih =>
      obtain ⟨job, result⟩ := x
      let u : TaskSpec Ir :=
        .deliver_single_batch_result job.msg job.job_id job.callback_url result now_iso
      have hl : w.Later (w.create_task u) := .create w u
      refine (Contract.wp_bind _ _ _ _).2 ⟨⟨hl, fun _ => rfl⟩, ?_⟩
      refine (Contract.wp_bind _ _ _ _).2 (Contract.wp_mono ih ?_)
      rintro (e | ks) w' ⟨hl', hks⟩
      · exact ⟨hl.trans hl', nofun⟩
      · refine ⟨hl.trans hl', fun ks' hks' k hk => ?_⟩
        cases hks'
        rcases List.mem_cons.1 hk with rfl | hk
        · refine ⟨u, ?_, rfl⟩
          have hu : ((w.create_task u).tasks.map Prod.fst)[w.tasks.length]? = some u := by
            simp [World.create_task_tasks]
          exact (Kernel.get_of_le hl'.specs (List.getElem?_eq_some_iff.1 hu).1).trans hu
        · exact hks ks rfl k hk

/-- **A task awaits free operations, or the tasks that it has created.** -/
theorem wp_task_body (i : Nat) (t : TaskSpec Ir) (w : World Ir) :
    (attentive node cloud (some (i, t))).wp (task_body node t) (fun r _ => r ≠ .error .cancelled)
      w := by
  have hdue : ∀ w, Due (some (i, t)) w := fun w => nofun
  suffices h : (attentive node cloud (some (i, t))).wp (task_body node t) (fun _ _ => True) w by
    refine Contract.wp_mono ((calm_task_body t).wp (K := attentive node cloud (some (i, t)))
      (fun _ _ _ _ ha => ha.2) h) ?_
    rintro r w' ⟨-, hcalm⟩ he
    exact hcalm _ he rfl
  cases t with
  | deliver_single_batch_result m job_id url result completed_at =>
      refine Contract.wp_mono (keeps_free (Within.bind (free_alone rfl) fun _ =>
        (handling_deliver_single aloof_permits.look fun _ _ => ⟨rfl, rfl⟩).mono (fun _ hf => hf)
          fun _ hq => Call.free_of_prompt hq.1.2.1) w (hdue w)) fun _ _ _ => trivial
  | deliver_batch_results parsed results =>
      refine (keeps_free (free_alone rfl)).wp_bind (hdue w) (fun _ _ _ => trivial) fun _ w₁ h₁ => ?_
      refine (keeps_free (Within.look aloof_permits.look)).wp_bind h₁ (fun _ _ _ => trivial)
        fun now_iso w₂ h₂ => ?_
      refine (Contract.wp_try_finally _ _ _ _).2 (Contract.wp_mono (Q := fun _ _ => True) ?_
        fun r w' _ => ⟨⟨.of_tasks rfl, fun _ => rfl⟩, trivial⟩)
      split
      · refine (Contract.wp_bind _ _ _ _).2 (Contract.wp_mono (wp_spawn_single now_iso _) ?_)
        rintro (e | ks) w₃ ⟨-, hks⟩
        · trivial
        · refine (Contract.wp_bind _ _ _ _).2 ((Contract.wp_call _ _ _).2
            ⟨⟨⟨i, _, rfl, rfl⟩, hks ks rfl⟩, fun w₄ hr r w₅ ha => ?_⟩)
          refine ⟨(answered_keep (hdue w₄) ha.1).1, ?_⟩
          cases r with
          | error e => trivial
          | ok v => exact ⟨⟨.of_tasks rfl, fun _ => rfl⟩, trivial⟩
      · trivial

end Code

/-! ## The agreement -/

/-- The loop and the tasks agree. -/
def attention (node : Node Ir)
    (cloud : (String → Option String) → (String → Option String) → Prop) :
    (consumer node cloud not_cancelled).Agreement where
  contract := attentive node cloud
  round _ w := Due none w
  done _ _ r _ := r ≠ .error .cancelled
  refl _ _ := ⟨.of_tasks rfl, fun _ => rfl⟩
  trans _ _ _ _ h h' := ⟨h.1.trans h'.1, fun ha => (h'.2 ha).trans (h.2 ha)⟩
  answer _ _ _ _ _ h := h
  drift _ _ _ hd := ⟨.of_tasks (Drift.tasks hd), fun _ => by rw [Drift.self hd]⟩
  drift_spawned w w' hd := by
    show w'.tasks.map Prod.fst = w.tasks.map Prod.fst
    rw [Drift.tasks hd]
  interfere a b _ _ hab _ _ hk := ⟨hk.1, fun hb => hk.2 fun ha => hab (ha.trans hb.symm)⟩
  grows _ _ _ _ hk := hk.1.specs
  begins _ _ w' _ _ j u _ _ := wp_task_body j u w'
  finish_spawned i r w := w.finish_task_specs i r
  finish _ _ _ _ _ _ _ _ h := ⟨.finish h, fun _ => rfl⟩
  next_round w q h hq := by
    rw [eq_iteration_of_again hq]
    exact keeps_iteration w h

/-! ## Nobody waits for ever -/

theorem undisturbed_error {q : Req Ir} {e : Exn} (hq : q.call.is_redis = false)
    (he : e ≠ .cancelled) : undisturbed q w (.error e) :=
  ⟨fun h => (by rw [hq] at h; cases h), fun h => absurd (Except.error.inj h) he⟩

/-- A task that has ended can be joined. -/
theorem exists_join {q : Req Ir} {k : Nat} {r : Except Exn Unit} (hq : q.call = .join k)
    (hk : w.outcome k = some r) (hr : r ≠ .error .cancelled) :
    ∃ r w', answers node q w r w' ∧ undisturbed q w r := by
  obtain ⟨msg, c⟩ := q
  obtain rfl : c = .join k := hq
  cases r with
  | ok v => exact ⟨.ok (), _, answers_ok.2 ⟨w, ⟨hk, rfl⟩, rfl⟩, undisturbed_ok _ _ _⟩
  | error e =>
      exact ⟨.error e, _, answers_error.2 ⟨.inr hk, .inl ⟨rfl, rfl⟩⟩,
        undisturbed_error rfl fun he => hr (he ▸ rfl)⟩

/-- Tasks that have ended can be gathered. -/
theorem exists_gather {q : Req Ir} {ks : List Nat} (hq : q.call = .gather ks)
    (hks : ∀ k ∈ ks, ∃ r, w.outcome k = some r ∧ r ≠ .error .cancelled) :
    ∃ r w', answers node q w r w' ∧ undisturbed q w r := by
  obtain ⟨msg, c⟩ := q
  obtain rfl : c = .gather ks := hq
  by_cases hall : ∀ k ∈ ks, w.outcome k = some (.ok ())
  · exact ⟨.ok (), _, answers_ok.2 ⟨w, ⟨hall, rfl⟩, rfl⟩, undisturbed_ok _ _ _⟩
  · -- one of them has failed
    push Not at hall
    obtain ⟨k, hk, hne⟩ := hall
    obtain ⟨r, hr, hcalm⟩ := hks k hk
    cases r with
    | ok v => exact absurd hr hne
    | error e =>
        exact ⟨.error e, _, answers_error.2 ⟨.inr ⟨k, hk, hr⟩, .inl ⟨rfl, rfl⟩⟩,
          undisturbed_error rfl fun he => hcalm (he ▸ rfl)⟩

/-- Whatever is awaited can be answered, if the tasks that it depends on have ended. -/
theorem Attends.exists_answer (hnode : node.Ordinary) {a : Option (Nat × TaskSpec Ir)} {q : Req Ir}
    (h : Attends node a q w) (hcalm : w.NoneCancelled)
    (hjoin : a = none → ∀ k < w.tasks.length, ∃ r, w.outcome k = some r)
    (hgather : ∀ k u, (∃ i t, a = some (i, t) ∧ t.is_batch = true) →
      (w.tasks.map Prod.fst)[k]? = some u → u.is_batch = false → ∃ r, w.outcome k = some r) :
    ∃ r w', answers node q w r w' ∧ undisturbed q w r := by
  cases hprompt : q.call.prompt with
  | true =>
      obtain ⟨v, w', hv⟩ := CodaNode.exists_answer node hprompt w
      exact ⟨_, _, hv, undisturbed_ok _ _ _⟩
  | false =>
      obtain ⟨msg, c⟩ := q
      cases c with
      | join k =>
          obtain ⟨r, hr⟩ := hjoin h.1 k h.2
          exact exists_join rfl hr fun he => hcalm k (he ▸ hr)
      | gather ks =>
          refine exists_gather rfl fun k hk => ?_
          obtain ⟨u, hu, hsingle⟩ := h.2 k hk
          obtain ⟨r, hr⟩ := hgather k u h.1 hu hsingle
          exact ⟨r, hr, fun he => hcalm k (he ▸ hr)⟩
      | batch_run k jobs =>
          obtain ⟨f, hf⟩ := Option.isSome_iff_exists.1 h
          cases hrun : f k jobs with
          | ok results =>
              exact ⟨.ok results, _, answers_ok.2 ⟨w, ⟨⟨f, hf, hrun⟩, rfl⟩, rfl⟩,
                undisturbed_ok _ _ _⟩
          | error e =>
              exact ⟨.error e, _, answers_error.2 ⟨.inr ⟨f, hf, hrun⟩, .inl ⟨rfl, rfl⟩⟩,
                undisturbed_error rfl (Exn.ordinary_iff.1 (hnode.batch_run f hf k jobs e hrun)).2⟩
      | xgroup_create =>
          cases hgroup : w.group with
          | false => exact ⟨.ok (), _, answers_ok.2 ⟨_, ⟨hgroup, rfl⟩, rfl⟩, undisturbed_ok _ _ _⟩
          | true =>
              refine ⟨.error (.response "BUSYGROUP"), _,
                answers_error.2 ⟨by simp [fails], .inl ⟨rfl, rfl⟩⟩, fun _ => ?_, fun he => ?_⟩
              · exact .inr ⟨rfl, hgroup, _, by decide, rfl⟩
              · cases he
      | xpending_range count =>
          exact ⟨.ok _, _, answers_ok.2 ⟨w, ⟨rfl, rfl⟩, rfl⟩, undisturbed_ok _ _ _⟩
      | xrange message_id =>
          exact ⟨.ok _, _, answers_ok.2 ⟨w, ⟨rfl, rfl⟩, rfl⟩, undisturbed_ok _ _ _⟩
      | xreadgroup count =>
          exact ⟨.ok _, _, answers_ok.2 ⟨_, ⟨0, Nat.zero_le _, rfl, rfl⟩, rfl⟩,
            undisturbed_ok _ _ _⟩
      | begin => exact ⟨.ok (), _, answers_ok.2 ⟨w, rfl, rfl⟩, undisturbed_ok _ _ _⟩
      | sleep secs => exact ⟨.ok (), _, answers_ok.2 ⟨w, rfl, rfl⟩, undisturbed_ok _ _ _⟩
      | _ => cases hprompt

/-! ## What a run has reached -/

section Run

variable {x : Pool (World Ir) (@Req.Reply Ir) Exn}

theorem attentive_startup (hw : Fresh w) :
    (attentive node cloud none).wp (startup node) (fun _ => Due none) w :=
  keeps_free free_startup w fun _ k hk => by rw [hw.self] at hk; cases hk

/-- Everybody who is suspended awaits what is there. -/
theorem attention_holds (hw : Fresh w) (hx : Reaches node cloud not_cancelled w x) :
    (attention node cloud).Holds x :=
  Kernel.Agreement.holds_run (Kernel.Agreement.holds_start hw.spawned (attentive_startup hw)) hx

theorem Reaches.none_cancelled (hw : Fresh w) (hx : Reaches node cloud not_cancelled w x) :
    x.state.NoneCancelled := by
  have hkeep : ∀ a s s', (consumer node cloud not_cancelled).Present s a → s.NoneCancelled →
      ((attention node cloud).contract a).keep s s' → s'.NoneCancelled :=
    fun a s s' _ h hk => hk.1.none_cancelled h
  have hfirst : ((consumer node cloud not_cancelled).start w (startup node)).state.NoneCancelled :=
    Kernel.Agreement.kept_inv (hkeep none) trivial (World.none_cancelled_of_no_tasks hw.tasks)
      (Kernel.Agreement.advance_wp (A := attention node cloud) (attentive_startup hw)).1
  exact Kernel.Agreement.state_run (A := attention node cloud)
    (fun s s' h hd => (World.Later.of_tasks (Drift.tasks hd)).none_cancelled h) hkeep
    (fun i t r s _ h hdone => (World.Later.finish hdone).none_cancelled h)
    (Kernel.Agreement.holds_start hw.spawned (attentive_startup hw)) hfirst hx

/-- A task that has not ended awaits something. -/
theorem Reaches.awaits_or_ended (hw : Fresh w) (hx : Reaches node cloud not_cancelled w x) :
    ∀ i p, x.tasks[i]? = some p → (∃ c k, p = .await c k) ∨ ∃ r, x.state.outcome i = some r := by
  have hbody : ∀ u : TaskSpec Ir,
      ∃ c k, (consumer node cloud not_cancelled).body u = .await c k := by
    intro u
    cases u <;> exact ⟨_, _, rfl⟩
  exact Kernel.Agreement.tasks_run (A := attention node cloud)
    (E := fun i s => ∃ r, s.outcome i = some r) hbody
    (fun i s s' h hd => h.imp fun r hr => (World.Later.of_tasks (Drift.tasks hd)).outcome i r hr)
    (fun i a s s' _ h hk => h.imp fun r hr => hk.1.outcome i r hr)
    (fun i t r s ht => World.exists_outcome_finish ht)
    (fun i j r s h => h.imp fun _ hr => World.outcome_finish_task hr)
    (Kernel.Agreement.holds_start hw.spawned (attentive_startup hw))
    (Kernel.Agreement.tasks_start (E := fun i s => ∃ r, s.outcome i = some r) hbody) hx

/-- What a live task awaits is there. -/
theorem Reaches.live_attends (hw : Fresh w) (hx : Reaches node cloud not_cancelled w x)
    (hi : x.state.Live i t) : ∃ c k, x.tasks[i]? = some (.await c k) ∧
      Attends node (some (i, t)) c x.state := by
  have hholds := attention_holds hw hx
  have hlt : i < x.tasks.length := by
    rw [hholds.length]
    exact (List.length_map Prod.fst).symm ▸ hi.lt
  have hget : x.tasks[i]? = some x.tasks[i] := List.getElem?_eq_getElem hlt
  rcases hx.awaits_or_ended hw i _ hget with ⟨c, k, hp⟩ | ⟨r, hr⟩
  · obtain ⟨s₀, hrely, hwp⟩ := hholds.task i t _ hi.spec hget (by rw [hp]; rfl)
    rw [hp] at hget hwp
    exact ⟨c, k, hget, hwp.1.later hrely.1⟩
  · rw [hi.outcome] at hr
    cases hr

/-- In a state in which nothing can be answered, no task is left: the delivery of a job awaits no
task, and that of a batch only those of its jobs. -/
theorem Reaches.over_of_halted (hnode : node.Ordinary) (hw : Fresh w)
    (hx : Reaches node cloud not_cancelled w x)
    (hhalted : (consumer node cloud undisturbed).Halted x) : x.state.Over := by
  have hcalm := hx.none_cancelled hw
  have hsingle : ∀ i t, t.is_batch = false → ¬ x.state.Live i t := by
    intro i t ht hi
    obtain ⟨c, k, hp, hattends⟩ := hx.live_attends hw hi
    obtain ⟨r, s', ha⟩ := hattends.exists_answer hnode hcalm nofun fun _ _ ⟨_, _, he, hb⟩ => by
      cases he
      rw [ht] at hb
      cases hb
    exact hhalted.task i c k hp r s' ha
  intro i t hi
  obtain ⟨c, k, hp, hattends⟩ := hx.live_attends hw hi
  obtain ⟨r, s', ha⟩ := hattends.exists_answer hnode hcalm nofun fun j u _ hu hb =>
    World.exists_outcome hu (hsingle j u hb)
  exact hhalted.task i c k hp r s' ha

/-- **The consumer cannot deadlock**: in every state that it reaches while nobody cancels its
tasks, whatever has failed so far, something that is awaited can be answered without a fault, or
the loop has ended. -/
theorem never_deadlocks (hnode : node.Ordinary) (hw : Fresh w)
    (hx : Reaches node cloud not_cancelled w x) (hmain : x.main.outcome = none) :
    ¬ (consumer node cloud undisturbed).Halted x := by
  intro hhalted
  have hover := hx.over_of_halted hnode hw hhalted
  obtain ⟨s, main, tasks⟩ := x
  cases main with
  | ret u => cases hmain
  | raise e => cases hmain
  | sync f k => exact absurd rfl (Kernel.Run.main_ne_sync hx f k)
  | await c k =>
      obtain ⟨s₀, hrely, hwp⟩ := (attention_holds hw hx).main
      -- every task that the loop may join has ended
      have hended : ∀ j < s.tasks.length, ∃ r, s.outcome j = some r := fun j hj =>
        World.exists_outcome
          (List.getElem?_eq_getElem ((List.length_map Prod.fst).symm ▸ hj)) (hover j _)
      obtain ⟨r, s', ha⟩ := (Attends.later hwp.1 hrely.1).exists_answer hnode
        (hx.none_cancelled hw) (fun _ => hended) fun _ _ ⟨_, _, he, _⟩ => nomatch he
      exact hhalted.main c k rfl r s' ha

end Run

/-! ## A batch under way -/

set_option maxRecDepth 40000 in
/-- The delivery of a batch waits for those of its two jobs, and the loop reads on. -/
theorem never_deadlocks_batch :
    ∃ x, Reaches delivery_node sets_only not_cancelled delivery_world x ∧
      x.state.unfinished = [0, 1, 2] ∧
      ¬ (consumer delivery_node sets_only undisturbed).Halted x := by
  suffices hx : ∃ x, Reaches delivery_node sets_only not_cancelled delivery_world x ∧
      x.state.unfinished = [0, 1, 2] ∧ x.main.outcome = none by
    obtain ⟨x, hrun, htasks, hmain⟩ := hx
    have hnode : delivery_node.Ordinary := by
      refine sample_node_ordinary (fun e he => by cases he) fun f hf k jobs e he => ?_
      cases hf
      cases he
    exact ⟨x, hrun, htasks, never_deadlocks hnode (sample_world_fresh _) hrun hmain⟩
  have hok : ∀ (q : Req String) (w : World String) (v : q.Reply), not_cancelled q w (.ok v) :=
    fun q w v he => by cases he
  refine Kernel.exists_run_of_main _ (r := .ok ()) rfl
    ⟨answers_ok.2 ⟨_, ⟨rfl, rfl⟩, rfl⟩, hok _ _ _⟩ ?_
  refine Kernel.exists_run_of_main _ (r := .ok []) rfl
    ⟨answers_ok.2 ⟨_, ⟨rfl, rfl⟩, rfl⟩, hok _ _ _⟩ ?_
  refine Kernel.exists_run_of_main _ (r := .ok [(delivery_node.stream, [_, _])]) rfl
    ⟨answers_ok.2 ⟨_, ⟨2, by decide, rfl, rfl⟩, rfl⟩, hok _ _ _⟩ ?_
  refine Kernel.exists_run_of_main _ (r := .ok none) rfl
    ⟨answers_ok.2 ⟨_, ⟨rfl, rfl⟩, rfl⟩, hok _ _ _⟩ ?_
  refine Kernel.exists_run_of_main _ (r := .ok none) rfl
    ⟨answers_ok.2 ⟨_, ⟨rfl, rfl⟩, rfl⟩, hok _ _ _⟩ ?_
  refine Kernel.exists_run_of_main _ (r := .ok none) rfl
    ⟨answers_ok.2 ⟨_, ⟨rfl, rfl⟩, rfl⟩, hok _ _ _⟩ ?_
  refine Kernel.exists_run_of_main _ (r := .ok none) rfl
    ⟨answers_ok.2 ⟨_, ⟨rfl, rfl⟩, rfl⟩, hok _ _ _⟩ ?_
  refine Kernel.exists_run_of_main _ (r := .ok ()) rfl
    ⟨answers_ok.2 ⟨_, rfl, rfl⟩, hok _ _ _⟩ ?_
  refine Kernel.exists_run_of_main _ (r := .ok ()) rfl
    ⟨answers_ok.2 ⟨_, rfl, rfl⟩, hok _ _ _⟩ ?_
  refine Kernel.exists_run_of_main _ (r := .ok [sample_result, sample_result]) rfl
    ⟨answers_ok.2 ⟨_, ⟨⟨_, rfl, rfl⟩, rfl⟩, rfl⟩, hok _ _ _⟩ ?_
  -- the delivery takes its first turn
  refine Kernel.exists_run_of_task _ 0 (r := .ok ()) rfl
    ⟨answers_ok.2 ⟨_, rfl, rfl⟩, hok _ _ _⟩ ?_
  exact ⟨_, .refl, rfl, rfl⟩

end CodaNode
