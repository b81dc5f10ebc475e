/-
`Consumer/CrewTasks.lean` -- the tasks of a crew, step by step.

A task that delivers one job writes the file of that job and no other; the delivery of a batch
writes none, and only creates the tasks of its jobs. What a step of either owes to the crew is
said here once, so that a crew has to say only what it keeps.
-/
import CodaNode.Consumer.CrewLoop
import CodaNode.Consumer.LifecycleJobs

set_option autoImplicit false

open Coroutine

namespace CodaNode

variable {Ir : Type} {node : Node Ir} {w w' : World Ir} {i : Nat} {t : TaskSpec Ir}
variable {j : String} {e : Option JobEvent}
variable {cloud : (String → Option String) → (String → Option String) → Prop}
variable {allow : (q : Req Ir) → World Ir → Except Exn q.Reply → Prop}

/-- What a task awaits for no message is no event of a job. -/
theorem Turn.of_inner {c : Call Ir} {r : Except Exn c.Reply} (hc : c.prompt = false)
    (h : answers node ⟨none, c⟩ w r w') : Turn j none w w' := by
  have hn := Crew.Neutral.of_answered hc h
  have ha := Answered.of_answers h
  exact .of_same hn.files hn.values hn.tasks (by rw [ha.self]) hn.current ha.grows

namespace Crew

variable (C : Crew Ir)

/-- What everybody keeps, while the task is live. -/
structure Afloat (i : Nat) (t : TaskSpec Ir) (w : World Ir) : Prop where
  good : C.Good w
  live : w.Live i t

variable (node cloud allow) in
/-- What the delivery of a batch owes for the files. -/
def filing (i : Nat) (t : TaskSpec Ir) : Contract (World Ir) (@Req.Reply Ir) Exn where
  pre _ w := C.Afloat i t w
  rely := (C.task node cloud allow i t).rely
  answer := (consumer node cloud allow).answer
  keep w w' := C.Good w' ∧ w.SameFiles w' ∧ C.Provides w w'

variable {C}

theorem Afloat.rely (h : C.Afloat i t w)
    (hr : C.Good w → w.Live i t → C.Good w' ∧ Fleet.Beside i t w w' ∧ Spared i t w w') :
    C.Afloat i t w' ∧ Fleet.Beside i t w w' ∧ Spared i t w w' := by
  obtain ⟨hg, hb, hs⟩ := hr h.good h.live
  exact ⟨⟨hg, hb.live⟩, hb, hs⟩

/-- A turn of a task that has the job in hand. -/
theorem Afloat.turn (h : C.Afloat i t w) (hj : t.job = some j) (ht : Turn j e w w')
    (hfine : C.fine w') : (C.task node cloud allow i t).keep w w' ∧ C.Afloat i t w' := by
  have hlive : w'.Live i t := by
    rw [World.Live, ht.tasks]
    exact h.live
  have hgood := h.good.of_tasks hfine ht.tasks
  have hidly : w.Idly w' := ⟨fun hover => absurd h.live (hover i t), ht.current⟩
  have hnone : w'.tasks = w.tasks ++ ([] : List (TaskSpec Ir)).map fun u => (u, none) := by
    rw [ht.tasks, List.map_nil, List.append_nil]
  refine ⟨⟨hgood, ?_, fun k hk => ht.others k fun he => hk (he ▸ hj), provides_of_tasks ht.tasks⟩,
    hgood, hlive⟩
  exact ⟨h.live, ⟨[], (fun _ hu => by cases hu), fun _ => rfl, hnone⟩, ht.pending, ht.log, hidly⟩

/-! ## The delivery of a batch -/

/-- A step of the delivery that creates no task. -/
theorem Afloat.still (h : C.Afloat i t w) (hfiles : w.SameFiles w') (htasks : w'.tasks = w.tasks)
    (hfine : C.fine w') : (C.filing node cloud allow i t).keep w w' ∧ C.Afloat i t w' := by
  have hlive : w'.Live i t := by
    rw [World.Live, htasks]
    exact h.live
  have hgood := h.good.of_tasks hfine htasks
  exact ⟨⟨hgood, hfiles, provides_of_tasks htasks⟩, hgood, hlive⟩

/-- An operation of the delivery. -/
theorem Afloat.wp_alone {c : Call Ir} (hc : c.prompt = false) (h : C.Afloat i t w)
    (hfine : ∀ w r w', C.fine w → answers node ⟨none, c⟩ w r w' → C.fine w')
    {Q : Except Exn c.Reply → World Ir → Prop}
    (hQ : ∀ w₁ r w', C.Afloat i t w₁ → Fleet.Beside i t w w₁ → Spared i t w w₁ →
      answers node ⟨none, c⟩ w₁ r w' → allow ⟨none, c⟩ w₁ r → Neutral w₁ w' →
      C.Afloat i t w' → Q r w') :
    (C.filing node cloud allow i t).wp (alone c) Q w := by
  refine (Contract.wp_call _ _ _).2 ⟨h, fun w₁ hr r w' ha => ?_⟩
  obtain ⟨h₁, hb, hs⟩ := h.rely hr
  have hn := Neutral.of_answered hc ha.1
  obtain ⟨hk, h'⟩ := h₁.still hn.files hn.tasks (hfine w₁ r w' h₁.good.fine ha.1)
  exact ⟨hk, hQ w₁ r w' h₁ hb hs ha.1 ha.2 hn h'⟩

/-- The delivery creates the task of a job that no live task has in hand. -/
theorem Afloat.spawn {u : TaskSpec Ir} (h : C.Afloat i t w) (hu : u.is_batch = false)
    (hfree : ∀ k v a, w.Live k v → v.job = some a → u.job ≠ some a)
    (hfine : C.fine (w.create_task u)) (hready : C.ready u (w.create_task u)) :
    (C.filing node cloud allow i t).keep w (w.create_task u) ∧ C.Afloat i t (w.create_task u) := by
  have hnew : (w.create_task u).tasks = w.tasks ++ [u].map fun u => (u, none) := rfl
  have hsingle : ∀ v ∈ [u], v.is_batch = false := fun v hv => by
    rw [List.mem_singleton.1 hv]
    exact hu
  have hgood : C.Good (w.create_task u) :=
    ⟨h.good.order.spawn hnew hsingle h.live, h.good.separate.create hfree, hfine⟩
  refine ⟨⟨hgood, .of_log rfl rfl, fun k v hk hv => ?_⟩, hgood, World.Spawns.live ⟨_, hnew⟩ h.live⟩
  have hvu : v = u := List.mem_singleton.1 (new_of_spawned hnew hk hv).1
  rw [hvu]
  exact hready

/-- When the delivery of a batch has begun, no task has a job in hand. -/
theorem Afloat.alone (h : C.Afloat i t w) (ht : t.is_batch = true) (hnone : t.job = none)
    (hlen : w.tasks.length = i + 1) {k : Nat} {u : TaskSpec Ir} {a : String} (hk : w.Live k u) :
    u.job ≠ some a := by
  have hle := h.good.order.older (h.good.order.latest h.live ht) hk
  have hlt := hk.lt
  obtain rfl : k = i := by omega
  rw [live_unique hk h.live, hnone]
  exact Option.some_ne_none a ∘ Eq.symm

/-! ## The order of the deliveries -/

/-- The order of the deliveries does not depend on what the steps of a task do. -/
theorem orderly_carries : (orderly Ir).Carries node allow where
  refl := World.Idly.refl
  post _ i t _ h := ⟨trivial, fun hover => absurd h.2 (hover i t), rfl⟩
  create _ i t _ _ h := ⟨trivial, fun hover => absurd h.2 (hover i t), rfl⟩
  last_job_at _ i t _ h := ⟨trivial, fun hover => absurd h.2 (hover i t), rfl⟩
  idle i parsed results _ _ h _ := ⟨trivial, fun hover => absurd h.2 (hover i _), rfl⟩
  call q i t w r w' h _ hans _ :=
    ⟨trivial, fun hover => absurd h.2 (hover i t), by rw [(Answered.of_answers hans).self]⟩

/-- **The delivery of a batch keeps to the agreement** if it does so for the files. -/
theorem wp_task_of_filing (h : C.Afloat i t w)
    (hlen : w.tasks.length = i + 1) {Q : Except Exn Unit → World Ir → Prop}
    (hfiles : (C.filing node cloud allow i t).wp (task_body node t) Q w) :
    (C.task node cloud allow i t).wp (task_body node t)
      (fun r w' => (orderly Ir).Lands i t r w' ∧ Q r w') w := by
  have horder : ((orderly Ir).task node cloud allow i t).wp (task_body node t)
      ((orderly Ir).Lands i t) w :=
    Fleet.Carries.body orderly_carries
      (fun _ _ _ _ _ _ hq => Contract.wp_mono hq fun _ _ h => ⟨h, trivial⟩)
      ⟨trivial, h.good.order⟩ h.live fun _ => hlen
  refine Contract.wp_meet ?_ ?_ ?_ ?_ horder hfiles
  · exact fun _ _ _ _ ha => ⟨ha, ha⟩
  · exact fun _ _ _ _ => trivial
  · intro q w w' _ hw hr
    obtain ⟨hw', hb, -⟩ := Afloat.rely hw hr
    exact ⟨fun _ _ => ⟨⟨trivial, hw'.good.order⟩, hb⟩, hr⟩
  · exact fun w w' h₁ h₂ => ⟨h₂.1, h₁.2, fun j _ => h₂.2.1 j, h₂.2.2⟩

end Crew

end CodaNode
