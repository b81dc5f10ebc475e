/-
`Consumer/Crew.lean` -- the loop and its deliveries, each with the jobs of its own.

While a batch is delivered, each of its jobs belongs to one task: nobody else writes the
job's hash or posts anything for it. A `Crew` is the agreement between the loop and its tasks
that says so. It is finer than that of a `Fleet`: a task may rely on the file of its own job
as it left it, and what a task starts from is handed over by the one who creates it.
-/
import CodaNode.Consumer.FleetJobs
import CodaNode.Consumer.Lifecycle

set_option autoImplicit false

open Coroutine

namespace CodaNode

variable {Ir : Type} {node : Node Ir} {w w' : World Ir} {i : Nat} {t : TaskSpec Ir} {m : Message}
variable {job_id : String}
variable {cloud : (String → Option String) → (String → Option String) → Prop}
variable {allow : (q : Req Ir) → World Ir → Except Exn q.Reply → Prop}
variable {again : World Ir → Option (Prog Ir Unit)}

/-! ## Files -/

/-- Every file is as it was. -/
def World.SameFiles (w w' : World Ir) : Prop := ∀ j, w'.file j = w.file j

theorem World.SameFiles.refl (w : World Ir) : w.SameFiles w := fun _ => rfl

theorem World.SameFiles.trans {w'' : World Ir} (h : w.SameFiles w') (h' : w'.SameFiles w'') :
    w.SameFiles w'' := fun j => (h' j).trans (h j)

theorem World.file_of_log (hhashes : w'.hashes = w.hashes) (hlog : w'.log = w.log) :
    w'.file job_id = w.file job_id := by
  rw [World.file, World.file, World.course_of_log hlog, World.state, World.state, hhashes]

theorem World.SameFiles.of_log (hhashes : w'.hashes = w.hashes) (hlog : w'.log = w.log) :
    w.SameFiles w' := fun _ => World.file_of_log hhashes hlog

/-- A line that is not about the job. -/
theorem World.file_of_line {x : Entry Ir} (hstate : w'.state job_id = w.state job_id)
    (hlog : w'.log = x :: w.log) (hx : x.event.of_job job_id = none) :
    w'.file job_id = w.file job_id := by
  rw [World.file, World.file, World.course_cons hlog, hx, hstate]
  rfl

/-- A line that is about no job. -/
theorem World.SameFiles.of_line {x : Entry Ir} (hhashes : w'.hashes = w.hashes)
    (hlog : w'.log = x :: w.log) (hx : ∀ j, x.event.of_job j = none) : w.SameFiles w' := fun j =>
  World.file_of_line (by rw [World.state, World.state, hhashes]) hlog (hx j)

/-! ## The jobs of a task -/

/-- The jobs that the task sees delivered. -/
def TaskSpec.jobs : TaskSpec Ir → List String
  | .deliver_batch_results parsed _ => parsed.map Parsed.job_id
  | .deliver_single_batch_result _ job_id _ _ _ => [job_id]

/-- The job whose file the task writes. The delivery of a batch leaves that to its tasks. -/
def TaskSpec.job : TaskSpec Ir → Option String
  | .deliver_batch_results _ _ => none
  | .deliver_single_batch_result _ job_id _ _ _ => some job_id

/-- No two live tasks write one file. -/
def World.Separate (w : World Ir) : Prop :=
  ∀ i j t u a, w.Live i t → w.Live j u → t.job = some a → u.job = some a → i = j

theorem World.Separate.of_tasks (h : w.Separate) (htasks : w'.tasks = w.tasks) : w'.Separate := by
  intro i j t u a hi hj
  rw [World.Live, htasks] at hi hj
  exact h i j t u a hi hj

theorem World.Separate.finish (h : w.Separate) {r : Except Exn Unit} :
    (w.finish_task i r).Separate := fun j k t u a hj hk =>
  h j k t u a hj.of_finish.1 hk.of_finish.1

/-- The delivery of a batch is created: it writes no file. -/
theorem World.Separate.launch (hover : w.Over) (ht : t.is_batch = true) :
    (w.create_task t).Separate := by
  have hnew : (w.create_task t).tasks = w.tasks ++ [t].map fun t => (t, none) := rfl
  have hnone : ∀ j u a, (w.create_task t).Live j u → u.job ≠ some a := by
    intro j u a hj hu
    rcases Nat.lt_or_ge j w.tasks.length with hlt | hge
    · rw [World.Live, get_of_spawned hnew hlt] at hj
      exact hover j u hj
    · obtain rfl := List.mem_singleton.1 (new_of_spawned hnew hge hj).1
      cases u with
      | deliver_batch_results _ _ => cases hu
      | deliver_single_batch_result _ _ _ _ _ => cases ht
  exact fun j _ t' _ a hj _ ht' => absurd ht' (hnone j t' a hj)

/-- A task is created whose job no live task has. -/
theorem World.Separate.create (h : w.Separate)
    (hfree : ∀ j u a, w.Live j u → u.job = some a → t.job ≠ some a) :
    (w.create_task t).Separate := by
  have hnew : (w.create_task t).tasks = w.tasks ++ [t].map fun t => (t, none) := rfl
  have hcases : ∀ j u, (w.create_task t).Live j u →
      w.Live j u ∨ j = w.tasks.length ∧ u = t := by
    intro j u hj
    rcases Nat.lt_or_ge j w.tasks.length with hlt | hge
    · rw [World.Live, get_of_spawned hnew hlt] at hj
      exact .inl hj
    · have hlt := hj.lt
      rw [hnew, List.length_append, List.length_map, List.length_singleton] at hlt
      exact .inr ⟨by omega, List.mem_singleton.1 (new_of_spawned hnew hge hj).1⟩
  intro j k t' u a hj hk ht' hu
  rcases hcases j t' hj with hold | ⟨hj', hnew'⟩ <;>
    rcases hcases k u hk with hold' | ⟨hk', hnew''⟩
  · exact h j k t' u a hold hold' ht' hu
  · exact absurd (hnew'' ▸ hu) (hfree j t' a hold ht')
  · exact absurd (hnew' ▸ ht') (hfree k u a hold' hu)
  · exact hj'.trans hk'.symm

/-! ## The agreement -/

/-- The tasks leave the job in hand alone, and while none is left over, they do nothing. -/
structure World.Idly (w w' : World Ir) : Prop where
  quiet : w.Over → w'.tasks = w.tasks ∧ w'.hashes = w.hashes ∧ w'.log = w.log
  current : w'.self.current_job_id = w.self.current_job_id

theorem World.Idly.refl (w : World Ir) : w.Idly w := ⟨fun _ => ⟨rfl, rfl, rfl⟩, rfl⟩

theorem World.Idly.trans {w'' : World Ir} (h : w.Idly w') (h' : w'.Idly w'') : w.Idly w'' := by
  refine ⟨fun hover => ?_, h'.current.trans h.current⟩
  obtain ⟨htasks, hhashes, hlog⟩ := h.quiet hover
  obtain ⟨htasks', hhashes', hlog'⟩ := h'.quiet (hover.of_tasks htasks)
  exact ⟨htasks'.trans htasks, hhashes'.trans hhashes, hlog'.trans hlog⟩

/-- The order of the deliveries, and nothing else. -/
def orderly (Ir : Type) : Fleet Ir where
  inv _ := True
  away := World.Idly
  ended _ _ _ := True
  rest _ := True
  busy _ := True

/-- No file has changed, nor who has which in hand. -/
structure World.Alike (w w' : World Ir) : Prop where
  files : w.SameFiles w'
  values : w'.values = w.values
  live : ∀ i t, w.Live i t → w'.Live i t
  current : w'.self.current_job_id = w.self.current_job_id

/-- What everybody keeps, and what a task starts from and ends in. -/
structure Crew (Ir : Type) where
  fine : World Ir → Prop
  ready : TaskSpec Ir → World Ir → Prop
  done : TaskSpec Ir → Except Exn Unit → World Ir → Prop

namespace Crew

variable (C : Crew Ir)

structure Good (w : World Ir) : Prop where
  order : w.InOrder
  separate : w.Separate
  fine : C.fine w

/-- Whoever creates a task leaves it something to start from. -/
def Provides (w w' : World Ir) : Prop :=
  ∀ k u, w.tasks.length ≤ k → w'.Live k u → C.ready u w'

/-- What a live task may rely on: its own file, and before it has created the tasks of its
jobs, the delivery of a batch may rely on every file. The log only grows. -/
structure Spared (i : Nat) (t : TaskSpec Ir) (w w' : World Ir) : Prop where
  own : ∀ j, t.job = some j → w'.file j = w.file j
  all : t.is_batch = true → w.tasks.length = i + 1 → w.SameFiles w'
  log : w.log <:+ w'.log

variable (node cloud allow)

/-- The contract of the loop: while a delivery is under way, it writes no file. -/
def main : Contract (World Ir) (@Req.Reply Ir) Exn where
  pre _ _ := True
  rely w w' := C.Good w → C.Good w' ∧ (orderly Ir).Aside w w'
  answer := (consumer node cloud allow).answer
  keep w w' := C.Good w' ∧ Fleet.Launches w w' ∧ (w.Over ∨ w.SameFiles w') ∧ C.Provides w w' ∧
    w.log <:+ w'.log

/-- The contract of task `i`: it writes no file but its own. -/
def task (i : Nat) (t : TaskSpec Ir) : Contract (World Ir) (@Req.Reply Ir) Exn where
  pre _ _ := True
  rely w w' := C.Good w → w.Live i t → C.Good w' ∧ Fleet.Beside i t w w' ∧ Spared i t w w'
  answer := (consumer node cloud allow).answer
  keep w w' := C.Good w' ∧ (orderly Ir).Sails i t w w' ∧
    (∀ j, t.job ≠ some j → w'.file j = w.file j) ∧ C.Provides w w'

/-- A task ends. -/
structure Lands (i : Nat) (t : TaskSpec Ir) (r : Except Exn Unit) (w : World Ir) : Prop where
  good : C.Good w
  lands : (orderly Ir).Lands i t r w
  done : C.done t r w

/-- The world leaves what everybody keeps, and so does the end of a task. -/
structure Steady (cloud : (String → Option String) → (String → Option String) → Prop) : Prop where
  drift : ∀ w w', Drift cloud w w' → C.fine w → C.fine w'
  finish : ∀ i t r w, C.Lands i t r w → C.fine (w.finish_task i r)

/-- The consumer's kernel with other rounds. -/
def kernel (again : World Ir → Option (Prog Ir Unit)) :
    Kernel (World Ir) (@Req.Reply Ir) Exn (TaskSpec Ir) :=
  { consumer node cloud allow with again := again }

/-- The code keeps to the agreement. -/
structure Sound (again : World Ir → Option (Prog Ir Unit)) (round : Except Exn Unit → World Ir → Prop) :
    Prop where
  steady : C.Steady cloud
  body : ∀ i t w, C.Good w → w.Live i t → (t.is_batch = true → w.tasks.length = i + 1) →
    C.ready t w → (C.task node cloud allow i t).wp (task_body node t) (C.Lands i t) w
  round : ∀ w q, round (.ok ()) w → again w = some q →
    (C.main node cloud allow).wp q round w

variable {C node cloud allow}

/-! ## Why the parts fit together -/

theorem Good.of_tasks (h : C.Good w) (hfine : C.fine w') (htasks : w'.tasks = w.tasks) :
    C.Good w' := ⟨h.order.of_tasks htasks, h.separate.of_tasks htasks, hfine⟩

theorem provides_of_tasks (htasks : w'.tasks = w.tasks) : C.Provides w w' := by
  intro k u hk hlive
  have hlt := hlive.lt
  rw [htasks] at hlt
  omega

theorem Spared.refl (i : Nat) (t : TaskSpec Ir) (w : World Ir) : Spared i t w w :=
  ⟨fun _ _ => rfl, fun _ _ => .refl w, List.suffix_refl _⟩

theorem Spared.of_same (h : w.SameFiles w') (hlog : w.log <:+ w'.log) : Spared i t w w' :=
  ⟨fun j _ => h j, fun _ _ => h, hlog⟩

theorem Spared.trans {w'' : World Ir} (h : Spared i t w w')
    (hlen : t.is_batch = true → w'.tasks.length = w.tasks.length) (h' : Spared i t w' w'') :
    Spared i t w w'' where
  own j hj := (h'.own j hj).trans (h.own j hj)
  all ht hw := (h.all ht hw).trans (h'.all ht ((hlen ht).trans hw))
  log := h.log.trans h'.log

/-- Everything that a step of the world leaves as it is. -/
theorem Aside.of_drift (hd : Drift cloud w w') : (orderly Ir).Aside w w' :=
  .of_tasks (Drift.tasks hd) (by rw [Drift.self hd]) ⟨[], (Drift.log hd).symm⟩
    ⟨fun _ => ⟨Drift.tasks hd, Drift.hashes hd, Drift.log hd⟩, by rw [Drift.self hd]⟩

theorem SameFiles.of_drift (hd : Drift cloud w w') : w.SameFiles w' :=
  .of_log (Drift.hashes hd) (Drift.log hd)

/-- What the loop does spares a live task. -/
theorem spared_of_main (hlive : w.Live i t) (h : w.Over ∨ w.SameFiles w')
    (hlog : w.log <:+ w'.log) : Spared i t w w' := by
  rcases h with hover | hsame
  · exact absurd hlive (hover i t)
  · exact .of_same hsame hlog

/-- What a task does spares another one. -/
theorem spared_of_task {j : Nat} {u : TaskSpec Ir} (hgood : C.Good w) (hne : i ≠ j)
    (hi : w.Live i t) (hj : w.Live j u)
    (h : ∀ a, t.job ≠ some a → w'.file a = w.file a) (hlog : w.log <:+ w'.log) :
    Spared j u w w' where
  own a ha := h a fun ht => hne (hgood.separate i j t u a hi hj ht ha)
  all hu hlen := by
    -- the delivery of a batch is the last task, and no older one is left over
    have hle := hgood.order.older (hgood.order.latest hj hu) hi
    have hlt := hi.lt
    omega
  log := hlog

theorem Lands.finish {r : Except Exn Unit} (hC : C.Steady cloud) (h : C.Lands i t r w) :
    C.Good (w.finish_task i r) ∧ (orderly Ir).Aside w (w.finish_task i r) ∧
      ∀ j u, j ≠ i → w.Live j u → Fleet.Beside j u w (w.finish_task i r) := by
  obtain ⟨hgood, haside, hbeside⟩ := h.lands.finish
    ⟨trivial, fun hover => absurd h.lands.live (hover i t), rfl⟩
  have hfine := hC.finish i t r w h
  exact ⟨⟨hgood.order, h.good.separate.finish, hfine⟩, haside, hbeside⟩

/-- Two live tasks at one place are one. -/
theorem live_unique {t u : TaskSpec Ir} (h : w.Live i t) (h' : w.Live i u) : t = u := by
  have htu : (t, (none : Option (Except Exn Unit))) = (u, none) := Option.some.inj (h.symm.trans h')
  cases htu
  rfl

variable {round : Except Exn Unit → World Ir → Prop}

/-- The loop and the tasks agree. -/
def Sound.agreement (hC : C.Sound node cloud allow again round) :
    (kernel node cloud allow again).Agreement where
  contract a := a.elim (C.main node cloud allow) fun it => C.task node cloud allow it.1 it.2
  round := round
  done i t r w := C.Lands i t r w
  refl a w := by
    cases a with
    | none =>
        exact fun h => ⟨h, .of_tasks rfl rfl (List.suffix_refl _) (.refl w)⟩
    | some it => exact fun h hl => ⟨h, .of_tasks rfl hl, .refl _ _ _⟩
  trans a w₁ w₂ w₃ h h' := by
    cases a with
    | none =>
        intro h₁
        obtain ⟨h₂, ha⟩ := h h₁
        obtain ⟨h₃, ha'⟩ := h' h₂
        exact ⟨h₃, Fleet.Aside.trans (ha.away.trans ha'.away) ha ha'⟩
    | some it =>
        intro h₁ hl
        obtain ⟨h₂, hb, hs⟩ := h h₁ hl
        obtain ⟨h₃, hb', hs'⟩ := h' h₂ hb.live
        exact ⟨h₃, hb.trans hb', hs.trans hb.length hs'⟩
  answer a q w r w' h := by cases a <;> exact h
  drift a w w' hd := by
    have hsame : w.SameFiles w' := SameFiles.of_drift hd
    have hgood : C.Good w → C.Good w' := fun h =>
      h.of_tasks (hC.steady.drift w w' hd h.fine) (Drift.tasks hd)
    cases a with
    | none => exact fun h => ⟨hgood h, Aside.of_drift hd⟩
    | some it => exact fun h hl => ⟨hgood h, .of_tasks (Drift.tasks hd) hl,
        .of_same hsame ⟨[], (Drift.log hd).symm⟩⟩
  drift_spawned w w' hd := by
    show w'.tasks.map Prod.fst = w.tasks.map Prod.fst
    rw [Drift.tasks hd]
  interfere a b w w' hab _ _ hk := by
    cases a with
    | none =>
        cases b with
        | none => exact absurd rfl hab
        | some jt => exact fun _ hl => ⟨hk.1, hk.2.1.beside hl, spared_of_main hl hk.2.2.1 hk.2.2.2.2⟩
    | some it =>
        obtain ⟨i, t⟩ := it
        cases b with
        | none => exact fun _ => ⟨hk.1, hk.2.1.aside⟩
        | some ju =>
            obtain ⟨j, u⟩ := ju
            intro h hl
            have hne : i ≠ j := by
              rintro rfl
              obtain rfl := live_unique hk.2.1.live hl
              exact hab rfl
            exact ⟨hk.1, hk.2.1.beside hne h.order hl,
              spared_of_task h hne hk.2.1.live hl hk.2.2.1 hk.2.1.log⟩
  grows a w w' _ hk := by
    cases a with
    | none => exact hk.2.1.spawns.specs
    | some it => exact hk.2.1.aside.specs
  begins a w w' _ hk j u hj hu := by
    have hj' : w.tasks.length ≤ j := by
      have hj'' : (w.tasks.map Prod.fst).length ≤ j := hj
      rwa [List.length_map] at hj''
    cases a with
    | none =>
        rcases hk.2.1 with h | ⟨-, v, -, h⟩
        · have hu' : (w'.tasks.map Prod.fst)[j]? = some u := hu
          rw [h, List.getElem?_eq_none (by rwa [List.length_map])] at hu'
          cases hu'
        · have hnew : w'.tasks = w.tasks ++ [v].map fun u => (u, none) := h
          obtain ⟨hlive, -⟩ := Fleet.live_of_new hnew hj' hu
          refine hC.body j u w' hk.1 hlive (fun _ => ?_) (hk.2.2.2.1 j u hj' hlive)
          have hlt := hlive.lt
          rw [h, List.length_append, List.length_singleton] at hlt ⊢
          omega
    | some it =>
        obtain ⟨new, hsingle, -, hnew⟩ := hk.2.1.spawns
        obtain ⟨hlive, hin⟩ := Fleet.live_of_new hnew hj' hu
        refine hC.body j u w' hk.1 hlive (fun hb => ?_) (hk.2.2.2 j u hj' hlive)
        rw [hsingle u hin] at hb
        cases hb
  finish_spawned i r w := w.finish_task_specs i r
  finish i t r w b _ _ hne h := by
    obtain ⟨hg, ha, hb⟩ := h.finish hC.steady
    cases b with
    | none => exact fun _ => ⟨hg, ha⟩
    | some ju =>
        obtain ⟨j, u⟩ := ju
        refine fun _ hl => ⟨hg, hb j u ?_ hl, .of_same (.of_log rfl rfl) (List.suffix_refl _)⟩
        rintro rfl
        obtain rfl := live_unique h.lands.live hl
        exact hne rfl
  next_round w q h hq := hC.round w q h hq

theorem Good.of_no_tasks (htasks : w.tasks = []) (hfine : C.fine w) : C.Good w := by
  have hnone : ∀ j t, ¬ w.Live j t := by
    intro j t hj
    rw [World.Live, htasks] at hj
    cases hj
  exact ⟨⟨fun _ hj => absurd hj (hnone _ _), fun _ _ j t => hnone j t⟩,
    fun j _ t _ _ hj => absurd hj (hnone j t), hfine⟩

/-- **The rule for a crew**: what everybody keeps holds in every state that a run reaches, and
the main coroutine is suspended as promised. -/
theorem Sound.run (hC : C.Sound node cloud allow again round) (htasks : w.tasks = [])
    (hfine : C.fine w) {p : Prog Ir Unit} (hp : (C.main node cloud allow).wp p round w)
    {x : Pool (World Ir) (@Req.Reply Ir) Exn}
    (hx : (kernel node cloud allow again).Run ((kernel node cloud allow again).start w p) x) :
    C.Good x.state ∧ (C.main node cloud allow).Suspended x.main round x.state := by
  have hspawned : (kernel node cloud allow again).spawned w = [] := by
    show w.tasks.map Prod.fst = []
    rw [htasks]
    rfl
  have hgood : C.Good w := .of_no_tasks htasks hfine
  have hholds : hC.agreement.Holds ((kernel node cloud allow again).start w p) :=
    Kernel.Agreement.holds_start hspawned hp
  have hkeep : ∀ a s s', (kernel node cloud allow again).Present s a → C.Good s →
      (hC.agreement.contract a).keep s s' → C.Good s' := by
    intro a s s' _ _ hk
    cases a with
    | none => exact hk.1
    | some it => exact hk.1
  have hfirst : C.Good ((kernel node cloud allow again).start w p).state :=
    Kernel.Agreement.kept_inv (hkeep none) trivial hgood
      (Kernel.Agreement.advance_wp (A := hC.agreement) hp).1
  refine ⟨?_, (Kernel.Agreement.holds_run hholds hx).main⟩
  exact Kernel.Agreement.state_run (A := hC.agreement)
    (fun s s' h hd => h.of_tasks (hC.steady.drift s s' hd h.fine) (Drift.tasks hd)) hkeep
    (fun i t r s _ h hdone => (Lands.finish hC.steady hdone).1) hholds hfirst hx

end Crew

end CodaNode
