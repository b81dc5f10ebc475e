/-
`Consumer/Fleet.lean` -- the loop and the deliveries of one batch at a time.

The loop creates the delivery of a batch when no task is left over, and joins it before it
goes on; the delivery creates a task for each job and gathers them. A `Fleet` is the
agreement between the loop and these tasks: `InOrder` holds in every reachable state, next
to whatever else is to be kept.
-/
import CodaNode.Consumer.Tasks

set_option autoImplicit false

open Coroutine

namespace CodaNode

variable {Ir : Type} {node : Node Ir} {w w' : World Ir} {i : Nat} {t : TaskSpec Ir} {m : Message}
variable {cloud : (String → Option String) → (String → Option String) → Prop}
variable {allow : (q : Req Ir) → World Ir → Except Exn q.Reply → Prop}

/-- What is kept besides the order of the deliveries: `inv` by everybody, `away` by the tasks
towards the loop and `ended` at the end of each task; `rest` holds in the loop while no task
is left over, and `busy` between two rounds while a delivery is pending. -/
structure Fleet (Ir : Type) where
  inv : World Ir → Prop
  away : World Ir → World Ir → Prop
  ended : TaskSpec Ir → Except Exn Unit → World Ir → Prop
  rest : World Ir → Prop
  busy : World Ir → Prop

namespace Fleet

variable (F : Fleet Ir)

structure Good (w : World Ir) : Prop where
  inv : F.inv w
  order : w.InOrder

/-- No task is left over, and `Q` holds. -/
structure Held (Q : World Ir → Prop) (w : World Ir) : Prop where
  good : F.Good w
  quiet : w.Over
  pending : w.self.pending_batch_delivery = none
  holds : Q w

/-- The loop between two messages. -/
abbrev Alone (w : World Ir) : Prop := F.Held F.rest w

/-- Between two rounds of the loop. -/
structure Between (w : World Ir) : Prop where
  good : F.Good w
  free : w.self.pending_batch_delivery = none → w.Over ∧ F.rest w
  taken : ∀ t, w.self.pending_batch_delivery = some t → w.Latest t ∧ F.busy w

/-- What the loop may rely on. -/
structure Aside (w w' : World Ir) : Prop where
  specs : w.tasks.map Prod.fst <+: w'.tasks.map Prod.fst
  quiet : w.Over → w'.tasks = w.tasks
  latest : ∀ k, w.Latest k → w'.Latest k
  pending : w'.self.pending_batch_delivery = w.self.pending_batch_delivery
  log : w.log <:+ w'.log
  away : F.away w w'

/-- What task `i` may rely on while it is live. -/
structure Beside (i : Nat) (t : TaskSpec Ir) (w w' : World Ir) : Prop where
  live : w'.Live i t
  specs : w.tasks.map Prod.fst <+: w'.tasks.map Prod.fst
  outcome : ∀ j r, w.outcome j = some r → w'.outcome j = some r
  length : t.is_batch = true → w'.tasks.length = w.tasks.length

/-- The loop's own steps: a task is created only when every other one is over. -/
def Launches (w w' : World Ir) : Prop :=
  w'.tasks = w.tasks ∨
    w.Over ∧ ∃ u : TaskSpec Ir, u.is_batch = true ∧ w'.tasks = w.tasks ++ [(u, none)]

/-- A task's own steps. -/
structure Sails (i : Nat) (t : TaskSpec Ir) (w w' : World Ir) : Prop where
  live : w.Live i t
  spawns : ∃ new : List (TaskSpec Ir), (∀ u ∈ new, u.is_batch = false) ∧
    (t.is_batch = false → new = []) ∧ w'.tasks = w.tasks ++ new.map fun u => (u, none)
  pending : w'.self.pending_batch_delivery = w.self.pending_batch_delivery
  log : w.log <:+ w'.log
  away : F.away w w'

/-- How a task ends: a delivery that has not been cancelled has set the idle event, one that
succeeds has seen its tasks end, and one that fails has seen one of them fail, unless the
executor is to blame. -/
structure Lands (i : Nat) (t : TaskSpec Ir) (r : Except Exn Unit) (w : World Ir) : Prop where
  good : F.Good w
  live : w.Live i t
  alone : t.is_batch = true → r = .ok () → ∀ j u, w.Live j u → j = i
  idle : t.is_batch = true → r ≠ .error .cancelled → w.self.idle = true
  fails : t.is_batch = true → ∀ e, r = .error e →
    e = .cancelled ∨ t.matched = false ∨ ∃ j, w.outcome j = some (.error e)
  ended : F.ended t r w

variable (node cloud allow)

/-- The contract of the loop. -/
def main : Contract (World Ir) (@Req.Reply Ir) Exn where
  pre q w := F.Good w ∧ (q.call.reads_group = true → F.Between w)
  rely w w' := F.Good w → F.Good w' ∧ F.Aside w w'
  answer := (consumer node cloud allow).answer
  keep w w' := F.Good w' ∧ Launches w w'

/-- The contract of task `i`. -/
def task (i : Nat) (t : TaskSpec Ir) : Contract (World Ir) (@Req.Reply Ir) Exn where
  pre _ _ := True
  rely w w' := F.Good w → w.Live i t → F.Good w' ∧ Beside i t w w'
  answer := (consumer node cloud allow).answer
  keep w w' := F.Good w' ∧ F.Sails i t w w'

/-- The code and the world keep to the agreement. -/
structure Sound : Prop where
  refl : ∀ w, F.away w w
  trans : ∀ w₁ w₂ w₃, F.away w₁ w₂ → F.away w₂ w₃ → F.away w₁ w₃
  drift : ∀ w w', F.inv w → Drift cloud w w' → F.inv w' ∧ F.away w w'
  finish : ∀ i t r w, F.Lands i t r w →
    F.inv (w.finish_task i r) ∧ F.away w (w.finish_task i r)
  body : ∀ i t w, F.Good w → w.Live i t → (t.is_batch = true → w.tasks.length = i + 1) →
    (F.task node cloud allow i t).wp (task_body node t) (F.Lands i t) w
  round : ∀ w, F.Between w → (F.main node cloud allow).wp (iteration node)
    (fun r w' => r = .ok () → F.Between w') w

variable {F node cloud allow}

/-! ## Why the parts fit together -/

theorem Aside.trans {w₁ w₂ w₃ : World Ir} (htrans : F.away w₁ w₃) (h : F.Aside w₁ w₂)
    (h' : F.Aside w₂ w₃) : F.Aside w₁ w₃ where
  specs := h.specs.trans h'.specs
  quiet hover := by
    have hover' : w₂.Over := fun i t hl => hover i t (by rwa [World.Live, h.quiet hover] at hl)
    exact (h'.quiet hover').trans (h.quiet hover)
  latest k hk := h'.latest k (h.latest k hk)
  pending := h'.pending.trans h.pending
  log := h.log.trans h'.log
  away := htrans

theorem Beside.trans {w₁ w₂ w₃ : World Ir} (h : Beside i t w₁ w₂) (h' : Beside i t w₂ w₃) :
    Beside i t w₁ w₃ where
  live := h'.live
  specs := h.specs.trans h'.specs
  outcome j r hj := h'.outcome j r (h.outcome j r hj)
  length ht := (h'.length ht).trans (h.length ht)

/-- Nothing happens to the tasks. -/
theorem Aside.of_tasks (htasks : w'.tasks = w.tasks)
    (hpending : w'.self.pending_batch_delivery = w.self.pending_batch_delivery)
    (hlog : w.log <:+ w'.log) (haway : F.away w w') : F.Aside w w' where
  specs := htasks ▸ List.prefix_refl _
  quiet _ := htasks
  latest k hk := by rwa [World.Latest, htasks]
  pending := hpending
  log := hlog
  away := haway

theorem Beside.of_tasks (htasks : w'.tasks = w.tasks) (hlive : w.Live i t) :
    Beside i t w w' where
  live := by rwa [World.Live, htasks]
  specs := World.specs_of_tasks htasks
  outcome j r hj := by rwa [World.outcome, htasks]
  length _ := by rw [htasks]

theorem Good.of_tasks (h : F.Good w) (hinv : F.inv w') (htasks : w'.tasks = w.tasks) :
    F.Good w' := ⟨hinv, h.order.of_tasks htasks⟩

/-- What a task does, as the loop sees it. -/
theorem Sails.aside (h : F.Sails i t w w') : F.Aside w w' := by
  obtain ⟨new, hsingle, -, hnew⟩ := h.spawns
  refine ⟨World.Spawns.specs ⟨new, hnew⟩, fun hover => absurd h.live (hover i t), fun k hk => ?_,
    h.pending, h.log, h.away⟩
  exact (World.latest_of_singles hnew hsingle).2 hk

/-- What a task does, as another one sees it: only one delivery of a batch is live. -/
theorem Sails.beside {j : Nat} {u : TaskSpec Ir} (hne : i ≠ j) (hgood : w.InOrder)
    (h : F.Sails i t w w') (hlive : w.Live j u) : Beside j u w w' := by
  obtain ⟨new, -, hnone, hnew⟩ := h.spawns
  refine ⟨World.Spawns.live ⟨new, hnew⟩ hlive, World.Spawns.specs ⟨new, hnew⟩,
    fun k r => World.Spawns.outcome ⟨new, hnew⟩, fun hu => ?_⟩
  have ht : t.is_batch = false := by
    by_contra ht
    exact hne ((hgood.latest h.live (by simpa using ht)).unique (hgood.latest hlive hu))
  rw [hnew, hnone ht, List.map_nil, List.append_nil]

theorem Launches.spawns (h : Launches w w') : w.Spawns w' := by
  rcases h with h | ⟨-, u, -, h⟩
  · exact .of_tasks h
  · exact ⟨[u], h⟩

/-- What the loop does, as a live task sees it. -/
theorem Launches.beside (h : Launches w w') (hlive : w.Live i t) : Beside i t w w' := by
  rcases h with h | ⟨hover, -⟩
  · exact .of_tasks h hlive
  · exact absurd hlive (hover i t)

/-- A task that has just been created is live. -/
theorem live_of_new {new : List (TaskSpec Ir)} {j : Nat} {u : TaskSpec Ir}
    (hnew : w'.tasks = w.tasks ++ new.map fun u => (u, none)) (hj : w.tasks.length ≤ j)
    (hu : (w'.tasks.map Prod.fst)[j]? = some u) : w'.Live j u ∧ u ∈ new := by
  rw [List.getElem?_map] at hu
  obtain ⟨v, hv, rfl⟩ := Option.map_eq_some_iff.1 hu
  obtain ⟨hin, hnone⟩ := new_of_spawned hnew hj hv
  exact ⟨by rw [World.Live, hv, ← hnone], hin⟩

/-- The end of a task, as the others see it. -/
theorem Lands.finish {r : Except Exn Unit} (h : F.Lands i t r w)
    (hfinish : F.inv (w.finish_task i r) ∧ F.away w (w.finish_task i r)) :
    F.Good (w.finish_task i r) ∧ F.Aside w (w.finish_task i r) ∧
      ∀ j u, j ≠ i → w.Live j u → Beside j u w (w.finish_task i r) := by
  refine ⟨⟨hfinish.1, h.good.order.finish h.live h.alone⟩, ?_, fun j u hne hlive => ?_⟩
  · exact ⟨w.finish_task_grows i r, fun hover => absurd h.live (hover i t),
      fun k => World.latest_finish.2, rfl, List.suffix_refl _, hfinish.2⟩
  · refine ⟨hlive.finish hne, w.finish_task_grows i r, fun k r' => World.outcome_finish_task,
      fun _ => ?_⟩
    rw [World.finish_task_tasks, List.length_modify]

/-- The loop and the tasks agree. -/
def Sound.agreement (hF : F.Sound node cloud allow) :
    (consumer node cloud allow).Agreement where
  contract
    | none => F.main node cloud allow
    | some (i, t) => F.task node cloud allow i t
  round r w := r = .ok () → F.Between w
  done i t r w := F.Lands i t r w
  refl a w := by
    cases a with
    | none =>
        exact fun h => ⟨h, .of_tasks rfl rfl (List.suffix_refl _) (hF.refl w)⟩
    | some it => exact fun h hl => ⟨h, .of_tasks rfl hl⟩
  trans a w₁ w₂ w₃ h h' := by
    cases a with
    | none =>
        intro h₁
        obtain ⟨h₂, ha⟩ := h h₁
        obtain ⟨h₃, ha'⟩ := h' h₂
        exact ⟨h₃, ha.trans (hF.trans _ _ _ ha.away ha'.away) ha'⟩
    | some it =>
        intro h₁ hl
        obtain ⟨h₂, hb⟩ := h h₁ hl
        obtain ⟨h₃, hb'⟩ := h' h₂ hb.live
        exact ⟨h₃, hb.trans hb'⟩
  answer a q w r w' h := by cases a <;> exact h
  drift a w w' hd := by
    have htasks : w'.tasks = w.tasks := Drift.tasks hd
    have hlog : w.log <:+ w'.log := ⟨[], (Drift.log hd).symm⟩
    have hpending : w'.self.pending_batch_delivery = w.self.pending_batch_delivery := by
      rw [Drift.self hd]
    cases a with
    | none =>
        intro h
        obtain ⟨hi, ha⟩ := hF.drift w w' h.inv hd
        exact ⟨h.of_tasks hi htasks, .of_tasks htasks hpending hlog ha⟩
    | some it =>
        exact fun h hl => ⟨h.of_tasks (hF.drift w w' h.inv hd).1 htasks, .of_tasks htasks hl⟩
  drift_spawned w w' hd := by
    show w'.tasks.map Prod.fst = w.tasks.map Prod.fst
    rw [Drift.tasks hd]
  interfere a b w w' hab _ _ hk := by
    cases a with
    | none =>
        cases b with
        | none => exact absurd rfl hab
        | some jt => exact fun _ hl => ⟨hk.1, hk.2.beside hl⟩
    | some it =>
        obtain ⟨i, t⟩ := it
        cases b with
        | none => exact fun _ => ⟨hk.1, hk.2.aside⟩
        | some ju =>
            obtain ⟨j, u⟩ := ju
            intro h hl
            refine ⟨hk.1, hk.2.beside ?_ h.order hl⟩
            rintro rfl
            have htu : (t, (none : Option (Except Exn Unit))) = (u, none) :=
              Option.some.inj (hk.2.live.symm.trans hl)
            cases htu
            exact hab rfl
  grows a w w' _ hk := by
    cases a with
    | none => exact hk.2.spawns.specs
    | some it => exact hk.2.aside.specs
  begins a w w' _ hk j u hj hu := by
    have hj' : w.tasks.length ≤ j := by
      have hj'' : (w.tasks.map Prod.fst).length ≤ j := hj
      rwa [List.length_map] at hj''
    cases a with
    | none =>
        rcases hk.2 with h | ⟨-, v, -, h⟩
        · have hu' : (w'.tasks.map Prod.fst)[j]? = some u := hu
          rw [h, List.getElem?_eq_none (by rwa [List.length_map])] at hu'
          cases hu'
        · have hnew : w'.tasks = w.tasks ++ [v].map fun u => (u, none) := h
          obtain ⟨hlive, -⟩ := live_of_new hnew hj' hu
          refine hF.body j u w' hk.1 hlive fun _ => ?_
          have hlt := hlive.lt
          rw [h, List.length_append, List.length_singleton] at hlt ⊢
          omega
    | some it =>
        obtain ⟨new, hsingle, -, hnew⟩ := hk.2.spawns
        obtain ⟨hlive, hin⟩ := live_of_new hnew hj' hu
        refine hF.body j u w' hk.1 hlive fun hb => ?_
        rw [hsingle u hin] at hb
        cases hb
  finish_spawned i r w := w.finish_task_specs i r
  finish i t r w b _ _ hne h := by
    obtain ⟨hg, ha, hb⟩ := h.finish (hF.finish i t r w h)
    cases b with
    | none => exact fun _ => ⟨hg, ha⟩
    | some ju =>
        obtain ⟨j, u⟩ := ju
        refine fun _ hl => ⟨hg, hb j u ?_ hl⟩
        rintro rfl
        have htu : (t, (none : Option (Except Exn Unit))) = (u, none) :=
          Option.some.inj (h.live.symm.trans hl)
        cases htu
        exact hne rfl
  next_round w q h hq := by
    have hiter := eq_iteration_of_again hq
    subst hiter
    exact hF.round w (h rfl)

/-- What a run shows: the invariants, and what the awaited read of the stream was made
under. -/
structure Shows (F : Fleet Ir) (x : Pool (World Ir) (@Req.Reply Ir) Exn) : Prop where
  good : F.Good x.state
  reads : ∀ q k, x.main = .await q k → q.call.reads_group = true →
    ∃ w, F.Good w ∧ F.Between w ∧ F.Aside w x.state

/-- **The rule for the loop and its deliveries.** -/
theorem Sound.run (hF : F.Sound node cloud allow) (hw : Fresh w) (hinv : F.inv w)
    (hstart : F.Good w → (F.main node cloud allow).wp (startup node)
      (fun r w' => r = .ok () → F.Between w') w)
    {x : Pool (World Ir) (@Req.Reply Ir) Exn} (hx : Reaches node cloud allow w x) :
    F.Shows x := by
  have hgood : F.Good w := by
    refine ⟨hinv, ⟨fun {k j t} hk hj => ?_, fun {k} hk hout j t hj => ?_⟩⟩
    · rw [World.Live, hw.tasks] at hj
      cases hj
    · rw [World.Live, hw.tasks] at hj
      cases hj
  have hholds : hF.agreement.Holds ((consumer node cloud allow).start w (startup node)) :=
    Kernel.Agreement.holds_start hw.spawned (hstart hgood)
  have hkeep : ∀ a s s', (consumer node cloud allow).Present s a → F.Good s →
      (hF.agreement.contract a).keep s s' → F.Good s' := by
    intro a s s' _ _ hk
    cases a with
    | none => exact hk.1
    | some it => exact hk.1
  have hfirst : F.Good ((consumer node cloud allow).start w (startup node)).state :=
    Kernel.Agreement.kept_inv (hkeep none) trivial hgood
      (Kernel.Agreement.advance_wp (A := hF.agreement) (hstart hgood)).1
  refine ⟨?_, fun q k hq hread => ?_⟩
  · refine Kernel.Agreement.state_run (A := hF.agreement)
      (fun s s' h hd => h.of_tasks (hF.drift s s' h.inv hd).1 (Drift.tasks hd)) hkeep
      (fun i t r s _ h hdone => (Lands.finish hdone (hF.finish i t r s hdone)).1) hholds hfirst hx
  · obtain ⟨s₀, hrely, hwp⟩ := (Kernel.Agreement.holds_run hholds hx).main
    rw [hq] at hwp
    obtain ⟨⟨hg, htop⟩, -⟩ := hwp
    exact ⟨s₀, hg, htop hread, (hrely hg).2⟩

/-! ## The deliveries -/

/-- Its own live task, in a good world. -/
def Sailing (F : Fleet Ir) (i : Nat) (t : TaskSpec Ir) (w : World Ir) : Prop :=
  F.Good w ∧ w.Live i t

variable (allow) in
/-- What the delivery of a batch has seen when it comes to its `finally` clause with `r`: the
ends of the tasks of its jobs, or what has kept it from them. -/
structure Reaped (i : Nat) (parsed : List (Parsed Ir)) (results : List ExecutionResult)
    (r : Except Exn Unit) (w : World Ir) : Prop where
  succeeds : r = .ok () → ∀ job ∈ parsed, ∃ j result completed_at, i < j ∧
    w.tasks[j]? = some (.deliver_single_batch_result job.msg job.job_id job.callback_url result
      completed_at, some (.ok ()))
  fails : ∀ e, r = .error e → (e = .cancelled ∧
    ∃ ts w₀, allow (⟨none, .gather ts⟩ : Req Ir) w₀ (.error .cancelled)) ∨
    parsed.length ≠ results.length ∨ ∃ j, w.outcome j = some (.error e)

variable (F node allow) in
/-- What has to be shown of a delivery's steps and operations. -/
structure Carries : Prop where
  refl : ∀ w, F.away w w
  post : ∀ (q : Req Ir) i t w, F.Sailing i t w →
    F.inv (w.record (.started q)) ∧ F.away w (w.record (.started q))
  create : ∀ u i t w, u.is_batch = false → F.Sailing i t w →
    F.inv (w.create_task u) ∧ F.away w (w.create_task u)
  last_job_at : ∀ s i t w, F.Sailing i t w →
    F.inv (w.set_self ({ · with last_job_at := some s })) ∧
      F.away w (w.set_self ({ · with last_job_at := some s }))
  idle : ∀ i parsed results r w, F.Sailing i (.deliver_batch_results parsed results) w →
    Reaped allow i parsed results r w → F.inv (w.set_self ({ · with idle := true })) ∧
      F.away w (w.set_self ({ · with idle := true }))
  call : ∀ (q : Req Ir) i t w r w', F.Sailing i t w → q.call.delivers = true →
    answers node q w r w' → allow q w r → F.inv w' ∧ F.away w w'

/-- A step that creates no task. -/
theorem Sailing.step (h : F.Sailing i t w) (htasks : w'.tasks = w.tasks)
    (hpending : w'.self.pending_batch_delivery = w.self.pending_batch_delivery)
    (hlog : w.log <:+ w'.log) (hinv : F.inv w' ∧ F.away w w') :
    (F.task node cloud allow i t).keep w w' ∧ F.Sailing i t w' := by
  have hgood : F.Good w' := h.1.of_tasks hinv.1 htasks
  refine ⟨⟨hgood, h.2, ⟨[], by simp, fun _ => rfl, ?_⟩, hpending, hlog, hinv.2⟩, hgood, ?_⟩
  · rw [htasks, List.map_nil, List.append_nil]
  · rw [World.Live, htasks]
    exact h.2

theorem Sailing.rely (h : F.Sailing i t w) (hr : (F.task node cloud allow i t).rely w w') :
    F.Sailing i t w' ∧ Beside i t w w' := by
  obtain ⟨hg, hb⟩ := hr h.1 h.2
  exact ⟨⟨hg, hb.live⟩, hb⟩

/-- What a task runs, it runs to its end. -/
theorem Beside.spec {j : Nat} {u : TaskSpec Ir} (h : Beside i t w w')
    (hj : (w.tasks.map Prod.fst)[j]? = some u) : (w'.tasks.map Prod.fst)[j]? = some u := by
  have hlt := (List.getElem?_eq_some_iff.1 hj).1
  rw [Kernel.get_of_le h.specs hlt]
  exact hj

variable (hF : F.Carries node allow)
include hF

/-- An operation of a delivery. -/
theorem sailing_call {q : Req Ir} (hq : q.call.delivers = true) (h : F.Sailing i t w)
    {Q : Except Exn q.Reply → World Ir → Prop}
    (hQ : ∀ w₁ r w', F.Sailing i t w₁ → Beside i t w w₁ → answers node q w₁ r w' →
      allow q w₁ r → F.Sailing i t w' → w'.tasks = w₁.tasks → Q r w') :
    (F.task node cloud allow i t).wp (Co.call q) Q w := by
  refine (Contract.wp_call _ _ _).2 ⟨trivial, fun w₁ hr r w' ha => ?_⟩
  obtain ⟨h₁, hb⟩ := h.rely hr
  have hans := Answered.of_answers ha.1
  have hstep : (F.task node cloud allow i t).keep w₁ w' ∧ F.Sailing i t w' :=
    h₁.step hans.tasks (by rw [hans.self]) hans.grows (hF.call q i t w₁ r w' h₁ hq ha.1 ha.2)
  obtain ⟨hk, h'⟩ := hstep
  exact ⟨hk, hQ w₁ r w' h₁ hb ha.1 ha.2 h' hans.tasks⟩

/-- The delivery of one job. -/
theorem single_body {job_id url completed_at : String} {result : ExecutionResult}
    (h : F.Sailing i t w) :
    (F.task node cloud allow i t).wp (do
        alone .begin
        deliver_single_batch_result node m job_id url result completed_at : Prog Ir Unit)
      (fun _ w' => F.Sailing i t w') w := by
  have hbody : Within (fun f : World Ir → World Ir => f = id ∨ ∃ q, f = (·.record (.started q)))
      (fun q => q.call.delivers = true) (do
        alone .begin
        deliver_single_batch_result node m job_id url result completed_at : Prog Ir Unit) :=
    Within.bind (Within.call rfl) fun _ =>
      (handling_deliver_single (.inl rfl) fun q => .inr ⟨q, rfl⟩).mono (fun _ hf => hf)
        fun _ hq => hq.2
  refine Within.wp (I := F.Sailing i t) (fun _ _ _ _ => trivial)
    (fun w₁ w₂ h₁ hr => (h₁.rely hr).1) (fun f w₁ hf h₁ => ?_) (fun q w₁ r w₂ hq h₁ ha => ?_)
    hbody h
  · rcases hf with rfl | ⟨q, rfl⟩
    · exact h₁.step rfl rfl (List.suffix_refl _) ⟨h₁.1.inv, hF.refl w₁⟩
    · exact h₁.step rfl rfl (List.suffix_cons _ _) (hF.post q i t w₁ h₁)
  · have hans := Answered.of_answers ha.1
    exact h₁.step hans.tasks (by rw [hans.self]) hans.grows
      (hF.call q i t w₁ r w₂ h₁ hq ha.1 ha.2)

/-- The tasks of the jobs are all the tasks that come after. -/
theorem spawn_body {now_iso : String} {jobs : List (Parsed Ir × ExecutionResult)}
    (ht : t.is_batch = true) (h : F.Sailing i t w) :
    (F.task node cloud allow i t).wp (spawn_deliveries now_iso jobs) (fun r w' =>
      ∃ ts, r = .ok ts ∧ F.Sailing i t w' ∧
        (∀ j, w.tasks.length ≤ j → j < w'.tasks.length → j ∈ ts) ∧
        w'.tasks = w.tasks ++ (jobs.map fun job => TaskSpec.deliver_single_batch_result job.1.msg
          job.1.job_id job.1.callback_url job.2 now_iso).map fun u => (u, none)) w := by
  -- by induction on the jobs
  induction jobs generalizing w with
  | nil => exact ⟨[], rfl, h, fun j hj hj' => absurd hj' (by omega), by simp⟩
  | cons job rest ih =>
      obtain ⟨job, result⟩ := job
      let u : TaskSpec Ir :=
        .deliver_single_batch_result job.msg job.job_id job.callback_url result now_iso
      have hnew : (w.create_task u).tasks = w.tasks ++ [u].map fun u => (u, none) := rfl
      obtain ⟨hinv, haway⟩ := hF.create u i t w rfl h
      have hsingle : ∀ v ∈ [u], v.is_batch = false := fun v hv => by
        rw [List.mem_singleton.1 hv]
        rfl
      have hgood : F.Good (w.create_task u) := ⟨hinv, h.1.order.spawn hnew hsingle h.2⟩
      have hlive : F.Sailing i t (w.create_task u) := ⟨hgood, World.Spawns.live ⟨_, hnew⟩ h.2⟩
      refine (Contract.wp_bind _ _ _ _).2 ⟨⟨hgood, h.2, ⟨_, hsingle, fun hf => ?_, hnew⟩, rfl,
        List.suffix_refl _, haway⟩, ?_⟩
      · rw [ht] at hf
        cases hf
      · refine (Contract.wp_bind _ _ _ _).2 (Contract.wp_mono (ih hlive) ?_)
        rintro r w' ⟨ts, rfl, h', hall, htasks⟩
        refine ⟨w.tasks.length :: ts, rfl, h', fun j hj hj' => ?_, ?_⟩
        · rcases Nat.lt_or_eq_of_le hj with hlt | rfl
          · refine List.mem_cons_of_mem _ (hall j ?_ hj')
            rw [hnew, List.length_append, List.length_map, List.length_singleton]
            omega
          · exact List.mem_cons_self
        · rw [htasks, hnew, List.append_assoc, ← List.map_append]
          rfl

/-- A gathering that succeeds has seen its tasks end. -/
theorem gather_body {ts : List Nat} (h : F.Sailing i t w) :
    (F.task node cloud allow i t).wp (alone (.gather ts)) (fun r w' => F.Sailing i t w' ∧
      Beside i t w w' ∧ (r = .ok () → ∀ j ∈ ts, w'.outcome j = some (.ok ())) ∧
      ∀ e, r = .error e →
        (e = .cancelled ∧ ∃ w₀, allow (⟨none, .gather ts⟩ : Req Ir) w₀ (.error .cancelled)) ∨
        ∃ j, w'.outcome j = some (.error e)) w := by
  refine sailing_call hF rfl h fun w₁ r w' h₁ hb hans hallow h' htasks =>
    ⟨h', hb.trans (.of_tasks htasks h₁.2), fun hr j hj => ?_, fun e hr => ?_⟩
  · subst hr
    obtain ⟨w₂, ⟨hdone, rfl⟩, -⟩ := answers_ok.1 hans
    rw [World.outcome, htasks]
    exact hdone j hj
  · subst hr
    rcases hans with ⟨v, w₂, -, hok, -⟩ | ⟨e', hf, -, he, -⟩ | ⟨e', v, w₂, htake, -⟩
    · cases hok
    · cases he
      rcases hf with rfl | ⟨j, -, hj⟩
      · exact .inl ⟨rfl, w₁, hallow⟩
      · refine .inr ⟨j, ?_⟩
        rwa [World.outcome, htasks]
    · cases htake

/-- The tasks of a batch and their delivery, up to the `finally` clause. -/
theorem gathering_body {parsed : List (Parsed Ir)} {results : List ExecutionResult}
    (hlen : w.tasks.length = i + 1) (hmatched : parsed.length = results.length)
    (h : F.Sailing i (.deliver_batch_results parsed results) w) {now_iso : String} :
    (F.task node cloud allow i (.deliver_batch_results parsed results)).wp (do
        let tasks ← spawn_deliveries now_iso (parsed.zip results)
        alone (.gather tasks)
        Co.update (·.set_self ({ · with last_job_at := some now_iso })) : Prog Ir Unit)
      (fun r w' => F.Sailing i (.deliver_batch_results parsed results) w' ∧
        (r = .ok () → ∀ j u, w'.Live j u → j = i) ∧ Reaped allow i parsed results r w') w := by
  refine (Contract.wp_bind _ _ _ _).2 (Contract.wp_mono (spawn_body hF rfl h) ?_)
  rintro r w₁ ⟨ts, rfl, h₁, hall, hnew⟩
  refine (Contract.wp_bind _ _ _ _).2
    (Contract.wp_mono (gather_body hF h₁) fun r w₂ h₂ => ?_)
  obtain ⟨h₂, hb, hok, herr⟩ := h₂
  have hgathered : ∀ j, i < j → j < w₁.tasks.length → j ∈ ts := fun j hj hj' =>
    hall j (by omega) hj'
  cases r with
  | error e =>
      refine ⟨h₂, (fun he => by cases he), (fun he => by cases he), fun e' he => ?_⟩
      cases he
      exact (herr e rfl).imp (fun ⟨hc, w₀, hw₀⟩ => ⟨hc, ts, w₀, hw₀⟩) .inr
  | ok v =>
      obtain ⟨hk, h₃⟩ := h₂.step (rfl : (w₂.set_self ({ · with last_job_at := some now_iso })).tasks = w₂.tasks)
        rfl (List.suffix_refl _) (hF.last_job_at now_iso i _ w₂ h₂)
      refine ⟨hk, h₃, fun _ j u hj => ?_, fun _ job hjob => ?_, fun e he => by cases he⟩
      · -- a task that is not among the gathered ones is the delivery itself
        have hle : i ≤ j := h₂.1.order.older (h₂.1.order.latest h₂.2 rfl) hj
        by_contra hne
        have hlt : j < w₁.tasks.length := by
          rw [← hb.length rfl]
          exact World.Live.lt (w := w₂) hj
        have hout := hok rfl j (hgathered j (by omega) hlt)
        rw [World.Live.outcome (w := w₂) hj] at hout
        cases hout
      · obtain ⟨k, hk⟩ := List.mem_iff_getElem?.1 hjob
        obtain ⟨result, hresult⟩ : ∃ result, results[k]? = some result := by
          refine ⟨_, List.getElem?_eq_getElem ?_⟩
          rw [← hmatched]
          exact (List.getElem?_eq_some_iff.1 hk).1
        have hspec : (w₁.tasks.map Prod.fst)[i + 1 + k]? =
            some (.deliver_single_batch_result job.msg job.job_id job.callback_url result now_iso) := by
          rw [hnew, List.map_append, List.getElem?_append_right (by rw [List.length_map]; omega),
            List.length_map, hlen, Nat.add_sub_cancel_left]
          simp [List.zip, List.getElem?_zipWith, hk, hresult]
        have hlt : i + 1 + k < w₁.tasks.length := by
          have := (List.getElem?_eq_some_iff.1 hspec).1
          rwa [List.length_map] at this
        have hout := hok rfl _ (hgathered (i + 1 + k) (by omega) hlt)
        have hspec' := hb.spec hspec
        rw [List.getElem?_map] at hspec'
        obtain ⟨⟨u, o⟩, hu, rfl⟩ := Option.map_eq_some_iff.1 hspec'
        rw [World.outcome, hu] at hout
        refine ⟨i + 1 + k, result, now_iso, by omega, ?_⟩
        have ho : o = some (.ok ()) := hout
        rw [← ho]
        exact hu

/-- The delivery of a batch. -/
theorem batch_body {parsed : List (Parsed Ir)} {results : List ExecutionResult}
    (hlen : w.tasks.length = i + 1)
    (h : F.Sailing i (.deliver_batch_results parsed results) w) :
    (F.task node cloud allow i (.deliver_batch_results parsed results)).wp (do
        alone .begin
        deliver_batch_results parsed results : Prog Ir Unit)
      (fun r w' => F.Sailing i (.deliver_batch_results parsed results) w' ∧
        (r = .ok () → ∀ j u, w'.Live j u → j = i) ∧
        (r ≠ .error .cancelled → w'.self.idle = true) ∧
        ∀ e, r = .error e → e = .cancelled ∨ parsed.length ≠ results.length ∨
          ∃ j, w'.outcome j = some (.error e)) w := by
  refine (Contract.wp_bind _ _ _ _).2 (sailing_call hF rfl h
    fun w₁ r w₂ h₁ hb hans _ h₂ htasks => ?_)
  cases r with
  | error e =>
      -- only a cancellation keeps a task from its first turn
      have hcancelled : e = .cancelled := by
        rcases hans with ⟨v, w₃, -, hr, -⟩ | ⟨e', hf, -, hr, -⟩ | ⟨e', v, w₃, htake, -⟩
        · cases hr
        · cases hr
          exact hf
        · cases htake
      refine ⟨h₂, (fun he => by cases he), fun he => ?_, fun e' he => ?_⟩
      · exact absurd (congrArg Except.error hcancelled) he
      · cases he
        exact .inl hcancelled
  | ok v =>
      have hlen₂ : w₂.tasks.length = i + 1 := by
        rw [htasks, hb.length rfl, hlen]
      refine (Contract.wp_bind _ _ _ _).2 ⟨(h₂.step rfl rfl (List.suffix_refl _)
        ⟨h₂.1.inv, hF.refl w₂⟩).1, ?_⟩
      refine (Contract.wp_try_finally _ _ _ _).2 (Contract.wp_mono (Q := fun r w' =>
        F.Sailing i (.deliver_batch_results parsed results) w' ∧
          (r = .ok () → ∀ j u, w'.Live j u → j = i) ∧ Reaped allow i parsed results r w')
        ?_ fun r w₃ h₃ => ?_)
      · split
        · next hmatched => exact gathering_body hF hlen₂ hmatched h₂
        · next hne =>
            exact ⟨h₂, (fun he => by cases he), (fun he => by cases he),
              fun e he => .inr (.inl hne)⟩
      · obtain ⟨h₃, halone, hreaped⟩ := h₃
        obtain ⟨hk, h₄⟩ := h₃.step (rfl : (w₃.set_self ({ · with idle := true })).tasks = w₃.tasks) rfl
          (List.suffix_refl _) (hF.idle i parsed results r w₃ h₃ hreaped)
        refine ⟨hk, ?_⟩
        cases r with
        | ok u => exact ⟨h₄, fun _ => halone rfl, fun _ => rfl, fun e he => by cases he⟩
        | error e =>
            refine ⟨h₄, (fun he => by cases he), fun _ => rfl, fun e' he => ?_⟩
            exact (hreaped.fails e' he).imp_left And.left

/-- **The tasks keep to the agreement.** -/
theorem Carries.body (hends : ∀ i t w, F.Good w → w.Live i t → ∀ Q,
      (F.task node cloud allow i t).wp (task_body node t) Q w →
      (F.task node cloud allow i t).wp (task_body node t)
        (fun r w' => Q r w' ∧ F.ended t r w') w)
    (hgood : F.Good w) (hlive : w.Live i t)
    (hlen : t.is_batch = true → w.tasks.length = i + 1) :
    (F.task node cloud allow i t).wp (task_body node t) (F.Lands i t) w := by
  cases t with
  | deliver_single_batch_result m job_id url result completed_at =>
      refine Contract.wp_mono (hends i _ w hgood hlive _
        (single_body hF ⟨hgood, hlive⟩)) fun r w' h => ?_
      exact ⟨h.1.1, h.1.2, (fun ht => by cases ht), (fun ht => by cases ht),
        (fun ht => by cases ht), h.2⟩
  | deliver_batch_results parsed results =>
      refine Contract.wp_mono (hends i _ w hgood hlive _
        (batch_body hF (hlen rfl) ⟨hgood, hlive⟩)) fun r w' h => ?_
      obtain ⟨⟨⟨hg, hl⟩, halone, hidle, hfails⟩, hended⟩ := h
      refine ⟨hg, hl, fun _ => halone, fun _ => hidle, fun _ e he => ?_, hended⟩
      refine (hfails e he).imp_right fun h => h.imp_left fun hne => ?_
      simpa [TaskSpec.matched] using hne

end Fleet

end CodaNode
