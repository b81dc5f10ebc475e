/-
`Consumer/IdleEvent.lean` -- the idle event and `drain`.

`_process_batch` clears the idle event and its delivery sets it again. When the batch call
fails the messages go through the single path instead, which sets the event at the end of
each job that it takes on; when it takes on none, because all have been cancelled or
completed meanwhile, the event stays cleared. `idle_when_waiting` says that nothing else can
leave it so.
-/
import CodaNode.Consumer.FleetJobs

set_option autoImplicit false

open Coroutine

namespace CodaNode

variable {Ir : Type} {node : Node Ir} {w w' : World Ir} {m : Message} {job_id url : String}
variable {α : Type}
variable {cloud : (String → Option String) → (String → Option String) → Prop}

/-! ## What is claimed -/

/-- `drain`, if it need not wait for the idle event or for a delivery. -/
def drain_at_once (w : World Ir) : Option (Except Exn Bool) :=
  if w.self.idle then
    match w.self.pending_batch_delivery with
    | none => some (.ok true)
    | some t => (w.outcome t).map fun r => r.map fun _ => true
  else none

/-- Since the last fallback no job has been begun: all its messages were skipped. -/
def stalled : List (Entry Ir) → Bool
  | [] => false
  | x :: earlier => x.event.falls_back || (!x.event.begins_job && stalled earlier)

/-! ## Stalling -/

section Stalled

variable {log : List (Entry Ir)} {x : Entry Ir}

theorem stalled_cons (hf : x.event.falls_back = false) (hb : x.event.begins_job = false) :
    stalled (x :: log) = stalled log := by
  rw [stalled, hf, hb]
  simp

theorem not_stalled_cons (hf : x.event.falls_back = false) (h : stalled log = false) :
    stalled (x :: log) = false := by
  rw [stalled, hf, h]
  simp

theorem stalled_answered {q : Req Ir} {r : Except Exn q.Reply} (hq : q.call.begins_job = false)
    (ha : Answered q r w w') : stalled w'.log = stalled w.log := by
  obtain ⟨took, hl⟩ := ha.log
  rw [hl]
  refine stalled_cons rfl ?_
  cases r with
  | ok v => exact hq
  | error e => rfl

theorem not_stalled_answered {q : Req Ir} {r : Except Exn q.Reply}
    (h : stalled w.log = false) (ha : Answered q r w w') : stalled w'.log = false := by
  obtain ⟨took, hl⟩ := ha.log
  rw [hl]
  exact not_stalled_cons rfl h

theorem stalled_quiet {log' : List (Entry Ir)} (h : log' = log ∨ ∃ x : Entry Ir,
    x.event.falls_back = false ∧ x.event.begins_job = false ∧ log' = x :: log) :
    stalled log' = stalled log := by
  rcases h with hl | ⟨x, hf, hb, hl⟩
  · rw [hl]
  · rw [hl]
    exact stalled_cons hf hb

end Stalled

/-! ## The agreement -/

/-- What the deliveries leave to the loop: the delivery of a batch sets the idle event. -/
structure Leaves (w w' : World Ir) : Prop where
  current : w'.self.current_job_id = w.self.current_job_id
  log : stalled w'.log = stalled w.log
  off : ¬ w.Delivering → w'.self.idle = w.self.idle ∧ ¬ w'.Delivering
  on : w.Delivering → w'.Delivering ∨ w'.self.idle = true

theorem Leaves.trans {w₁ w₂ w₃ : World Ir} (h : Leaves w₁ w₂) (h' : Leaves w₂ w₃) :
    Leaves w₁ w₃ where
  current := h'.current.trans h.current
  log := h'.log.trans h.log
  off hw := by
    obtain ⟨hi, hd⟩ := h.off hw
    obtain ⟨hi', hd'⟩ := h'.off hd
    exact ⟨hi'.trans hi, hd'⟩
  on hw := by
    by_cases hd : w₂.Delivering
    · exact h'.on hd
    · refine .inr ?_
      rw [(h'.off hd).1]
      exact (h.on hw).resolve_left hd

/-- What neither touches the tasks nor the idle event. -/
theorem Leaves.of_tasks (hcurrent : w'.self.current_job_id = w.self.current_job_id)
    (hstalled : stalled w'.log = stalled w.log) (hidle : w'.self.idle = w.self.idle)
    (htasks : w'.tasks = w.tasks) : Leaves w w' where
  current := hcurrent
  log := hstalled
  off hw := ⟨hidle, fun hd => hw ((World.Delivering.of_tasks htasks).1 hd)⟩
  on hw := .inl ((World.Delivering.of_tasks htasks).2 hw)

/-- The idle event is set unless the loop is stalled, or a delivery will set it. -/
def keeper (Ir : Type) : Fleet Ir where
  inv := Succeeded
  away := Leaves
  ended t r _ := r ≠ .error .cancelled ∧ (t.is_batch = false → r = .ok ())
  rest w := w.self.current_job_id = none ∧ w.self.idle = !stalled w.log
  busy w := w.self.current_job_id = none ∧ stalled w.log = false ∧
    (w.Delivering ∨ w.self.idle = true)

theorem keeper_patient : (keeper Ir).Patient where
  inv _ _ hp h := h.of_tasks hp.tasks
  step_rest _ _ hp h := ⟨hp.current.trans h.1, by rw [hp.idle, (stalled_quiet hp.quiet)]; exact h.2⟩
  step_busy w w' hp h := by
    refine ⟨hp.current.trans h.1, (stalled_quiet hp.quiet).trans h.2.1, ?_⟩
    rw [World.Delivering.of_tasks hp.tasks, hp.idle]
    exact h.2.2
  rest_aside w w' ha hover h := by
    obtain ⟨hidle, -⟩ := ha.away.off hover.not_delivering
    refine ⟨ha.away.current.trans h.1, ?_⟩
    rw [hidle, ha.away.log]
    exact h.2
  busy_aside w w' ha h := by
    refine ⟨ha.away.current.trans h.1, ha.away.log.trans h.2.1, ?_⟩
    by_cases hd : w.Delivering
    · exact ha.away.on hd
    · refine .inr ?_
      rw [(ha.away.off hd).1]
      exact h.2.2.resolve_left hd
  settled w _ hover h := by
    refine ⟨h.1, ?_⟩
    rw [h.2.1]
    exact h.2.2.resolve_left hover.not_delivering

/-- Since the last fallback a job has been begun. -/
def Stirred (w : World Ir) : Prop := stalled w.log = false

/-- The event is cleared and no job is in hand. -/
def Cleared (w : World Ir) : Prop := w.self.current_job_id = none ∧ w.self.idle = false

/-- What the keeper knows while jobs are in hand. -/
def keeper_stages (Ir : Type) : Stages Ir where
  taken _ _ := True
  begun _ := Stirred
  marking _ todo w := Cleared w ∧ (todo ≠ [] ∨ Stirred w)

theorem Leaves.cleared (h : Leaves w w') (hidle : w'.self.idle = w.self.idle)
    (hw : Cleared w) : Cleared w' := ⟨h.current.trans hw.1, hidle.trans hw.2⟩

theorem stirred_begin {mapping : List (String × String)}
    (hstate : record_state mapping = some "executing")
    (ha : Answered ⟨some m, .hset (status_key job_id) mapping⟩ (.ok ()) w w') : Stirred w' := by
  obtain ⟨took, hl⟩ := ha.log
  show stalled w'.log = false
  rw [hl, stalled]
  simp [Event.falls_back, Event.begins_job, Call.begins_job, hstate]

theorem keeper_staged : (keeper Ir).Staged (keeper_stages Ir) where
  patient := keeper_patient
  rest_mild w w' hm h := by
    refine ⟨h.good.inv.of_tasks hm.tasks, hm.current.trans h.holds.1, ?_⟩
    rw [hm.idle, (stalled_quiet hm.log)]
    exact h.holds.2
  take _ _ _ h := ⟨h.good.inv, trivial⟩
  taken_aside _ _ _ _ _ _ := trivial
  begin_job m job_id mapping w w' hstate h ha :=
    ⟨h.good.inv.of_tasks ha.tasks, stirred_begin hstate ha⟩
  begun_aside _ _ _ ha _ h := ha.away.log.trans h
  begun_mild _ _ _ hm h := ⟨h.good.inv.of_tasks hm.tasks, (stalled_quiet hm.log).trans h.holds⟩
  begun_answer _ _ _ _ _ _ ha h :=
    ⟨h.good.inv.of_tasks ha.tasks, not_stalled_answered h.holds ha⟩
  release m w w' h ha := by
    have hno : stalled w'.log = false := not_stalled_answered h.holds ha
    refine ⟨h.good.inv.of_tasks ha.tasks, rfl, ?_⟩
    rw [World.set_self_log, hno]
    rfl
  clear _ _ hne h := ⟨h.good.inv, ⟨h.holds.1, rfl⟩, .inl hne⟩
  marking_aside parsed todo w w' ha hover h := by
    refine ⟨ha.away.cleared (ha.away.off hover.not_delivering).1 h.1, h.2.imp_right fun hs => ?_⟩
    exact ha.away.log.trans hs
  mark parsed job todo mapping w w' _ hstate h ha := by
    refine ⟨h.good.inv.of_tasks ha.tasks, ?_, .inr (stirred_begin hstate ha)⟩
    rw [Cleared, ha.self]
    exact h.holds.1
  marking_mild parsed w w' hm h := by
    refine ⟨h.good.inv.of_tasks hm.tasks, ⟨hm.current.trans h.holds.1.1,
      hm.idle.trans h.holds.1.2⟩, .inr ?_⟩
    exact (stalled_quiet hm.log).trans (h.holds.2.resolve_left fun hne => hne rfl)
  fall_back _ _ _ h := ⟨h.good.inv, h.holds.1⟩
  launch parsed results w hlen h := by
    have hmatched : (TaskSpec.deliver_batch_results parsed results).matched = true := by
      simp [TaskSpec.matched, hlen]
    exact ⟨h.good.inv.create hmatched, h.holds.1.1, h.holds.2.resolve_left fun hne => hne rfl,
      .inl (World.delivering_launch rfl)⟩

/-! ## The deliveries -/

theorem keeper_carries : (keeper Ir).Carries node undisturbed where
  refl _ := .of_tasks rfl rfl rfl rfl
  post q i t w h := ⟨h.1.inv, .of_tasks rfl (stalled_cons rfl rfl) rfl rfl⟩
  create u i t w hu h := by
    refine ⟨h.1.inv.create (TaskSpec.matched_of_single hu), rfl, rfl, fun hd => ⟨rfl, ?_⟩,
      fun hd => .inl ?_⟩
    · rwa [World.delivering_create hu]
    · rwa [World.delivering_create hu]
  last_job_at s i t w h := ⟨h.1.inv, .of_tasks rfl rfl rfl rfl⟩
  idle i parsed results r w h _ :=
    ⟨h.1.inv, rfl, rfl, fun hnot => absurd ⟨i, _, h.2, rfl⟩ hnot, fun hd => .inl hd⟩
  call q i t w r w' h hq hans _ := by
    have ha := Answered.of_answers hans
    exact ⟨h.1.inv.of_tasks ha.tasks, .of_tasks (by rw [ha.self])
      (stalled_answered (Call.not_begins_of_delivers hq) ha) (by rw [ha.self]) ha.tasks⟩

/-- A task ends, and it has succeeded. -/
theorem keeper_finish {i : Nat} {t : TaskSpec Ir} {r : Except Exn Unit}
    (h : (keeper Ir).Lands i t r w) :
    Succeeded (w.finish_task i r) ∧ Leaves w (w.finish_task i r) := by
  have hok : r = .ok () := h.ok h.good.inv h.ended.1 h.ended.2
  refine ⟨hok ▸ Succeeded.finish h.good.inv i, rfl, rfl, fun hnot => ⟨rfl, ?_⟩, fun hd => ?_⟩
  · rintro ⟨j, u, hj, hu⟩
    exact hnot ⟨j, u, hj.of_finish.1, hu⟩
  · obtain ⟨j, u, hj, hu⟩ := hd
    by_cases hji : j = i
    · subst hji
      have htu : (t, (none : Option (Except Exn Unit))) = (u, none) :=
        Option.some.inj (h.live.symm.trans hj)
      cases htu
      exact .inr (h.idle hu h.ended.1)
    · exact .inl ⟨j, u, hj.finish hji, hu⟩

theorem keeper_sound (hnode : OnePerJob node) :
    (keeper Ir).Sound node cloud undisturbed where
  refl _ := .of_tasks rfl rfl rfl rfl
  trans _ _ _ := .trans
  drift w w' h hd := by
    refine ⟨h.of_tasks (Drift.tasks hd), .of_tasks ?_ ?_ ?_ (Drift.tasks hd)⟩
    · rw [Drift.self hd]
    · rw [Drift.log hd]
    · rw [Drift.self hd]
  finish i t r w h := keeper_finish h
  body i t w hg hl hlen := Fleet.Carries.body keeper_carries
    (fun _ _ _ _ _ _ hwp => Fleet.task_ends hwp) hg hl hlen
  round w h := keeper_staged.round hnode h

/-! ## The consumer -/

/-- **No false busy**: whenever the loop waits for messages and no batch is being delivered,
the idle event is set, no job is in hand and `drain` returns at once, unless the last batch
that fell back has been skipped altogether. -/
theorem idle_when_waiting (hnode : OnePerJob node) {w : World Ir} (hw : Fresh w)
    {x : Pool (World Ir) (@Req.Reply Ir) Exn} (hx : Reaches node cloud undisturbed w x)
    {q : Req Ir} {k : Except Exn q.Reply → Prog Ir Unit} (hq : x.main = .await q k)
    (hread : q.call.reads_group = true) (hnone : ¬ x.state.Delivering) :
    (x.state.self.idle = true ∧ x.state.self.current_job_id = none ∧
        drain_at_once x.state = some (.ok true)) ↔
      stalled x.state.log = false := by
  have hshows : (keeper Ir).Shows x := by
    refine (keeper_sound hnode).run hw hw.succeeded (fun hgood => keeper_staged.start hnode ?_) hx
    refine ⟨hgood, fun j u hj => ?_, by rw [hw.self], by rw [hw.self], ?_⟩
    · rw [World.Live, hw.tasks] at hj
      cases hj
    · rw [hw.self, hw.log]
      rfl
  obtain ⟨w₀, -, htop, haside⟩ := hshows.reads q k hq hread
  have h := htop.aside keeper_patient hshows.good haside
  cases hp : x.state.self.pending_batch_delivery with
  | none =>
      obtain ⟨hcurrent, hidle⟩ := (h.free hp).2
      rw [hidle, hcurrent, drain_at_once, hidle, hp]
      cases stalled x.state.log <;> simp
  | some t =>
      obtain ⟨⟨⟨u, hu, hb⟩, -⟩, hcurrent, hstalled, hidle⟩ := h.taken t hp
      have hidle : x.state.self.idle = true := hidle.resolve_left hnone
      -- the delivery has ended, and it has succeeded
      have hdone : x.state.outcome t = some (.ok ()) := by
        obtain ⟨spec, o⟩ := u
        cases o with
        | none => exact absurd ⟨t, spec, hu, hb⟩ hnone
        | some r =>
            rw [World.outcome, hu, (hshows.good.inv _ (List.mem_of_getElem? hu)).2 r rfl]
            rfl
      rw [hstalled, hcurrent, drain_at_once, hidle, hp]
      simp [hdone, Except.map]

/-- Two jobs for one batch, which fails. -/
def idle_world : World String :=
  sample_world [sample_message "1-0" "job-1" sample_ir, sample_message "2-0" "job-2" sample_ir]

def idle_node : Node String :=
  sample_node (.runs 0 (.ok sample_result)) (some fun _ _ => .error (.other "backend offline"))

theorem idle_node_results : OnePerJob idle_node := by
  intro f k jobs results hf hres
  cases hf
  cases hres

set_option maxRecDepth 40000 in
/-- Both jobs are cancelled while the batch runs. It fails, the fallback skips both, and the
loop waits for messages with the idle event cleared. -/
theorem idle_event_left_cleared :
    ¬ ∀ x : Pool (World String) (@Req.Reply String) Exn,
      Reaches idle_node sets_only undisturbed idle_world x →
      ∀ (q : Req String) (k : Except Exn q.Reply → Prog String Unit), x.main = .await q k →
        q.call.reads_group = true → ¬ x.state.Delivering →
        x.state.self.idle = true ∧ x.state.self.current_job_id = none ∧
          drain_at_once x.state = some (.ok true) := by
  intro h
  suffices hx : ∃ x, Reaches idle_node sets_only undisturbed idle_world x ∧
      (∃ msg count k, x.main = .await ⟨msg, .xreadgroup count⟩ k) ∧ x.state.tasks = [] ∧
      x.state.self.idle = false by
    obtain ⟨x, hrun, ⟨msg, count, k, hmain⟩, htasks, hidle⟩ := hx
    have hnone : ¬ x.state.Delivering := by
      rintro ⟨j, u, hlive, -⟩
      rw [World.Live, htasks] at hlive
      cases hlive
    rw [(h x hrun _ k hmain rfl hnone).1] at hidle
    cases hidle
  have hok : ∀ (q : Req String) (w : World String) (v : q.Reply), undisturbed q w (.ok v) :=
    undisturbed_ok
  refine Kernel.exists_run_of_main _ (r := .ok ()) rfl
    ⟨answers_ok.2 ⟨_, ⟨rfl, rfl⟩, rfl⟩, hok _ _ _⟩ ?_
  refine Kernel.exists_run_of_main _ (r := .ok []) rfl
    ⟨answers_ok.2 ⟨_, ⟨rfl, rfl⟩, rfl⟩, hok _ _ _⟩ ?_
  refine Kernel.exists_run_of_main _ (r := .ok [(idle_node.stream, [_, _])]) rfl
    ⟨answers_ok.2 ⟨_, ⟨2, by decide, rfl, rfl⟩, rfl⟩, hok _ _ _⟩ ?_
  refine Kernel.exists_run_of_main _ (r := .ok none) rfl
    ⟨answers_ok.2 ⟨_, ⟨rfl, rfl⟩, rfl⟩, hok _ _ _⟩ ?_
  refine Kernel.exists_run_of_main _ (r := .ok none) rfl
    ⟨answers_ok.2 ⟨_, ⟨rfl, rfl⟩, rfl⟩, hok _ _ _⟩ ?_
  refine Kernel.exists_run_of_main _ (r := .ok none) rfl
    ⟨answers_ok.2 ⟨_, ⟨rfl, rfl⟩, rfl⟩, hok _ _ _⟩ ?_
  refine Kernel.exists_run_of_main _ (r := .ok none) rfl
    ⟨answers_ok.2 ⟨_, ⟨rfl, rfl⟩, rfl⟩, hok _ _ _⟩ ?_
  refine Kernel.exists_run_of_main _ (r := .ok ()) rfl
    ⟨answers_ok.2 ⟨_, rfl, rfl⟩, hok _ _ _⟩ ?_
  refine Kernel.exists_run_of_main _ (r := .ok ()) rfl
    ⟨answers_ok.2 ⟨_, rfl, rfl⟩, hok _ _ _⟩ ?_
  -- both keys are set, and then the batch fails
  refine Kernel.exists_run_of_drift _ (Drift.set_value _ (cancel_key "job-1") "1") ?_
  refine Kernel.exists_run_of_drift _ (Drift.set_value _ (cancel_key "job-2") "1") ?_
  refine Kernel.exists_run_of_main _ (r := .error (.other "backend offline")) rfl
    ⟨answers_error.2 ⟨.inr ⟨_, rfl, rfl⟩, .inl ⟨rfl, rfl⟩⟩, (fun hr => by cases hr),
      (fun hc => by cases hc)⟩ ?_
  refine Kernel.exists_run_of_main _ (r := .ok (some "executing")) rfl
    ⟨answers_ok.2 ⟨_, ⟨rfl, rfl⟩, rfl⟩, hok _ _ _⟩ ?_
  refine Kernel.exists_run_of_main _ (r := .ok (some "1")) rfl
    ⟨answers_ok.2 ⟨_, ⟨rfl, rfl⟩, rfl⟩, hok _ _ _⟩ ?_
  refine Kernel.exists_run_of_main _ (r := .ok ()) rfl
    ⟨answers_ok.2 ⟨_, rfl, rfl⟩, hok _ _ _⟩ ?_
  refine Kernel.exists_run_of_main _ (r := .ok ()) rfl
    ⟨answers_ok.2 ⟨_, rfl, rfl⟩, hok _ _ _⟩ ?_
  refine Kernel.exists_run_of_main _ (r := .ok (some "executing")) rfl
    ⟨answers_ok.2 ⟨_, ⟨rfl, rfl⟩, rfl⟩, hok _ _ _⟩ ?_
  refine Kernel.exists_run_of_main _ (r := .ok (some "1")) rfl
    ⟨answers_ok.2 ⟨_, ⟨rfl, rfl⟩, rfl⟩, hok _ _ _⟩ ?_
  refine Kernel.exists_run_of_main _ (r := .ok ()) rfl
    ⟨answers_ok.2 ⟨_, rfl, rfl⟩, hok _ _ _⟩ ?_
  refine Kernel.exists_run_of_main _ (r := .ok ()) rfl
    ⟨answers_ok.2 ⟨_, rfl, rfl⟩, hok _ _ _⟩ ?_
  exact ⟨_, .refl, ⟨_, _, _, rfl⟩, rfl, rfl⟩

set_option maxRecDepth 40000 in
/-- The first wait for messages. -/
theorem idle_at_startup :
    ∃ x, Reaches idle_node sets_only undisturbed idle_world x ∧
      (x.state.self.idle = true ∧ x.state.self.current_job_id = none ∧
        drain_at_once x.state = some (.ok true)) := by
  suffices hx : ∃ x, Reaches idle_node sets_only undisturbed idle_world x ∧
      (∃ msg count k, x.main = .await ⟨msg, .xreadgroup count⟩ k) ∧ x.state.tasks = [] ∧
      stalled x.state.log = false by
    obtain ⟨x, hrun, ⟨msg, count, k, hmain⟩, htasks, hlog⟩ := hx
    have hnone : ¬ x.state.Delivering := by
      rintro ⟨j, u, hlive, -⟩
      rw [World.Live, htasks] at hlive
      cases hlive
    exact ⟨x, hrun, (idle_when_waiting idle_node_results (sample_world_fresh _) hrun hmain rfl
      hnone).2 hlog⟩
  have hok : ∀ (q : Req String) (w : World String) (v : q.Reply), undisturbed q w (.ok v) :=
    undisturbed_ok
  refine Kernel.exists_run_of_main _ (r := .ok ()) rfl
    ⟨answers_ok.2 ⟨_, ⟨rfl, rfl⟩, rfl⟩, hok _ _ _⟩ ?_
  refine Kernel.exists_run_of_main _ (r := .ok []) rfl
    ⟨answers_ok.2 ⟨_, ⟨rfl, rfl⟩, rfl⟩, hok _ _ _⟩ ?_
  exact ⟨_, .refl, ⟨_, _, _, rfl⟩, rfl, rfl⟩

end CodaNode
