/-
`Consumer/Tasks.lean` -- the tasks that deliver batches.

A batch is delivered by one task, which creates a task for each job. `InOrder` says that at
most the last batch has tasks left over, and none once it has been delivered; the lemmas
follow it through everything that can happen to the tasks.
-/
import CodaNode.Consumer.Rounds

set_option autoImplicit false

namespace CodaNode

variable {Ir : Type} {w w' : World Ir} {i : Nat} {t : TaskSpec Ir}

/-! ## The tasks of a world -/

/-- The task delivers a whole batch. -/
def TaskSpec.is_batch : TaskSpec Ir → Bool
  | .deliver_batch_results _ _ => true
  | .deliver_single_batch_result _ _ _ _ _ => false

/-- The executor has returned a result for each job. -/
def TaskSpec.matched : TaskSpec Ir → Bool
  | .deliver_batch_results parsed results => parsed.length == results.length
  | .deliver_single_batch_result _ _ _ _ _ => true

/-- Task `i` runs `t` and has not ended. -/
def World.Live (w : World Ir) (i : Nat) (t : TaskSpec Ir) : Prop := w.tasks[i]? = some (t, none)

/-- Every task has ended. -/
def World.Over (w : World Ir) : Prop := ∀ i t, ¬ w.Live i t

/-- The delivery of a batch is under way. -/
def World.Delivering (w : World Ir) : Prop := ∃ i t, w.Live i t ∧ t.is_batch = true

/-- Task `i` delivers the last batch. -/
def World.Latest (w : World Ir) (i : Nat) : Prop :=
  (∃ u, w.tasks[i]? = some u ∧ u.1.is_batch = true) ∧
    ∀ j u, i < j → w.tasks[j]? = some u → u.1.is_batch = false

/-- No task of an earlier batch is left over, and none at all when the last batch has been
delivered. -/
structure World.InOrder (w : World Ir) : Prop where
  older : ∀ {i j t}, w.Latest i → w.Live j t → i ≤ j
  quiet : ∀ {i}, w.Latest i → w.outcome i = some (.ok ()) → w.Over

theorem World.Live.outcome (h : w.Live i t) : w.outcome i = none := by
  rw [World.outcome, h]
  rfl

theorem World.Live.spec (h : w.Live i t) : (w.tasks.map Prod.fst)[i]? = some t := by
  rw [List.getElem?_map, h]
  rfl

theorem World.Live.lt (h : w.Live i t) : i < w.tasks.length := (List.getElem?_eq_some_iff.1 h).1

theorem World.Over.not_delivering (h : w.Over) : ¬ w.Delivering :=
  fun ⟨i, t, hlive, _⟩ => h i t hlive

theorem World.Over.of_tasks (h : w.Over) (htasks : w'.tasks = w.tasks) : w'.Over := by
  intro i t hlive
  rw [World.Live, htasks] at hlive
  exact h i t hlive

theorem World.Delivering.of_tasks (htasks : w'.tasks = w.tasks) :
    w'.Delivering ↔ w.Delivering := by
  unfold World.Delivering World.Live
  rw [htasks]

theorem World.Over.unfinished (h : w.Over) : w.unfinished = [] := by
  refine List.filter_eq_nil_iff.2 fun i hi hnone => ?_
  have hlt := List.mem_range.1 hi
  obtain ⟨t, o, hget⟩ : ∃ t o, w.tasks[i]? = some (t, o) :=
    ⟨_, _, List.getElem?_eq_getElem hlt⟩
  rw [World.outcome, hget] at hnone
  have ho : o = none := by simpa using hnone
  exact h i t (by rw [World.Live, hget, ho])

/-- If there has been a batch, there is a last one. -/
theorem World.exists_latest {u : TaskSpec Ir × Option (Except Exn Unit)}
    (h : w.tasks[i]? = some u) (hu : u.1.is_batch = true) : ∃ k, i ≤ k ∧ w.Latest k := by
  -- by induction on the number of tasks after `i`
  induction hn : w.tasks.length - i using Nat.strongRecOn generalizing i u with
  | ind n ih =>
    by_cases hlast : ∀ j u, i < j → w.tasks[j]? = some u → u.1.is_batch = false
    · exact ⟨i, Nat.le_refl i, ⟨u, h, hu⟩, hlast⟩
    · push_neg at hlast
      obtain ⟨j, u', hij, hj, hu'⟩ := hlast
      have hlt := (List.getElem?_eq_some_iff.1 hj).1
      obtain ⟨k, hk, hlatest⟩ := ih (w.tasks.length - j) (by omega) hj (by simpa using hu') rfl
      exact ⟨k, by omega, hlatest⟩

theorem World.Latest.unique {k : Nat} (h : w.Latest i) (hk : w.Latest k) : i = k := by
  obtain ⟨⟨u, hu, hb⟩, hlast⟩ := h
  obtain ⟨⟨u', hu', hb'⟩, hlast'⟩ := hk
  rcases Nat.lt_trichotomy i k with hlt | heq | hgt
  · rw [hlast k u' hlt hu'] at hb'
    cases hb'
  · exact heq
  · rw [hlast' i u hgt hu] at hb
    cases hb

namespace World.InOrder

/-- A batch that is being delivered is the last one. -/
theorem latest (h : w.InOrder) (hlive : w.Live i t) (ht : t.is_batch = true) : w.Latest i := by
  obtain ⟨k, hik, hk⟩ := World.exists_latest hlive ht
  have hki := h.older hk hlive
  obtain rfl : i = k := Nat.le_antisymm hik hki
  exact hk

theorem of_tasks (h : w.InOrder) (htasks : w'.tasks = w.tasks) : w'.InOrder := by
  constructor
  · intro i j t hi hj
    rw [World.Latest, htasks] at hi
    rw [World.Live, htasks] at hj
    exact h.older hi hj
  · intro i hi hout k u hk
    rw [World.Latest, htasks] at hi
    rw [World.outcome, htasks] at hout
    rw [World.Live, htasks] at hk
    exact h.quiet hi hout k u hk

end World.InOrder

/-! ## New tasks -/

/-- Tasks are only added, and those are yet to begin. -/
def World.Spawns (w w' : World Ir) : Prop :=
  ∃ new : List (TaskSpec Ir), w'.tasks = w.tasks ++ new.map fun t => (t, none)

theorem World.Spawns.of_tasks {w w' : World Ir} (h : w'.tasks = w.tasks) : w.Spawns w' :=
  ⟨[], by rw [h, List.map_nil, List.append_nil]⟩

theorem World.Spawns.create {w : World Ir} (t : TaskSpec Ir) : w.Spawns (w.create_task t) :=
  ⟨[t], rfl⟩

theorem World.Spawns.specs {w w' : World Ir} (h : w.Spawns w') :
    w.tasks.map Prod.fst <+: w'.tasks.map Prod.fst := by
  obtain ⟨new, hnew⟩ := h
  rw [hnew, List.map_append]
  exact List.prefix_append _ _

/-- An old task, after more tasks have been created. -/
theorem get_of_spawned {new : List (TaskSpec Ir)}
    (hnew : w'.tasks = w.tasks ++ new.map fun t => (t, none)) {j : Nat} (hj : j < w.tasks.length) :
    w'.tasks[j]? = w.tasks[j]? := by
  rw [hnew, List.getElem?_append_left hj]

/-- A new task runs one of the new specs. -/
theorem new_of_spawned {new : List (TaskSpec Ir)}
    (hnew : w'.tasks = w.tasks ++ new.map fun t => (t, none)) {j : Nat}
    {u : TaskSpec Ir × Option (Except Exn Unit)} (hj : w.tasks.length ≤ j)
    (hu : w'.tasks[j]? = some u) : u.1 ∈ new ∧ u.2 = none := by
  rw [hnew, List.getElem?_append_right hj, List.getElem?_map] at hu
  obtain ⟨s, hs, rfl⟩ := Option.map_eq_some_iff.1 hu
  exact ⟨List.mem_of_getElem? hs, rfl⟩

theorem World.Spawns.outcome (h : w.Spawns w') {j : Nat} {r : Except Exn Unit}
    (hj : w.outcome j = some r) : w'.outcome j = some r := by
  obtain ⟨new, hnew⟩ := h
  have hlt : j < w.tasks.length := by
    by_contra hge
    rw [World.outcome, List.getElem?_eq_none (by omega)] at hj
    cases hj
  rw [World.outcome, get_of_spawned hnew hlt]
  exact hj

theorem World.Spawns.live (h : w.Spawns w') (hlive : w.Live i t) : w'.Live i t := by
  obtain ⟨new, hnew⟩ := h
  rw [World.Live, get_of_spawned hnew hlive.lt]
  exact hlive

section Spawned

variable {new : List (TaskSpec Ir)}

/-- Singles come and go without a new batch. -/
theorem World.latest_of_singles (hnew : w'.tasks = w.tasks ++ new.map fun t => (t, none))
    (hsingle : ∀ u ∈ new, u.is_batch = false) {k : Nat} : w'.Latest k ↔ w.Latest k := by
  have hold : ∀ {j : Nat} {u : TaskSpec Ir × Option (Except Exn Unit)}, w'.tasks[j]? = some u → u.1.is_batch = true → w.tasks[j]? = some u := by
    intro j u hu hb
    rcases Nat.lt_or_ge j w.tasks.length with hlt | hge
    · rwa [get_of_spawned hnew hlt] at hu
    · rw [hsingle _ (new_of_spawned hnew hge hu).1] at hb
      cases hb
  have hsame : ∀ {j : Nat} {u : TaskSpec Ir × Option (Except Exn Unit)}, w.tasks[j]? = some u → w'.tasks[j]? = some u := by
    intro j u hu
    rw [get_of_spawned hnew (List.getElem?_eq_some_iff.1 hu).1]
    exact hu
  constructor
  · rintro ⟨⟨u, hu, hb⟩, hlast⟩
    exact ⟨⟨u, hold hu hb, hb⟩, fun j u' hj hu' => hlast j u' hj (hsame hu')⟩
  · rintro ⟨⟨u, hu, hb⟩, hlast⟩
    refine ⟨⟨u, hsame hu, hb⟩, fun j u' hj hu' => ?_⟩
    by_contra hb'
    have hb'' : u'.1.is_batch = true := by simpa using hb'
    rw [hlast j u' hj (hold hu' hb'')] at hb''
    cases hb''

/-- A delivery under way may create the tasks of its jobs. -/
theorem World.InOrder.spawn (h : w.InOrder)
    (hnew : w'.tasks = w.tasks ++ new.map fun t => (t, none))
    (hsingle : ∀ u ∈ new, u.is_batch = false) (hlive : w.Live i t) : w'.InOrder := by
  constructor
  · intro k j u hk hj
    have hk' := (World.latest_of_singles hnew hsingle).1 hk
    rcases Nat.lt_or_ge j w.tasks.length with hlt | hge
    · rw [World.Live, get_of_spawned hnew hlt] at hj
      exact h.older hk' hj
    · obtain ⟨⟨v, hv, -⟩, -⟩ := hk'
      have hlt := (List.getElem?_eq_some_iff.1 hv).1
      omega
  · intro k hk hout
    have hk' := (World.latest_of_singles hnew hsingle).1 hk
    have hlt : k < w.tasks.length := by
      obtain ⟨⟨v, hv, -⟩, -⟩ := hk'
      exact (List.getElem?_eq_some_iff.1 hv).1
    rw [World.outcome, get_of_spawned hnew hlt] at hout
    exact absurd hlive (h.quiet hk' hout i t)

/-- With every task over, a new batch may be delivered. -/
theorem World.InOrder.launch (hover : w.Over) (ht : t.is_batch = true)
    (hnew : w'.tasks = w.tasks ++ [(t, none)]) : w'.InOrder ∧ w'.Latest w.tasks.length := by
  have hnew' : w'.tasks = w.tasks ++ [t].map fun t => (t, none) := hnew
  have hlast : w'.tasks[w.tasks.length]? = some (t, none) := by
    rw [hnew, List.getElem?_append_right (Nat.le_refl _), Nat.sub_self]
    rfl
  have hlatest : w'.Latest w.tasks.length := by
    refine ⟨⟨_, hlast, ht⟩, fun j u hj hu => ?_⟩
    have hlt := (List.getElem?_eq_some_iff.1 hu).1
    rw [hnew, List.length_append, List.length_singleton] at hlt
    omega
  refine ⟨⟨fun {k j u} hk hj => ?_, fun {k} hk hout => ?_⟩, hlatest⟩
  · rw [hk.unique hlatest]
    by_contra hlt
    rw [World.Live, get_of_spawned hnew' (by omega)] at hj
    exact hover j u hj
  · rw [hk.unique hlatest, World.outcome, hlast] at hout
    cases hout

end Spawned

/-! ## Ends of tasks -/

theorem finish_task_get (w : World Ir) (i j : Nat) (r : Except Exn Unit) :
    (w.finish_task i r).tasks[j]? =
      (w.tasks[j]?).map fun u => if i = j then (u.1, u.2.or (some r)) else u := by
  rw [World.finish_task_tasks, List.getElem?_modify]
  cases w.tasks[j]? <;> rfl

/-- What is live when a task has ended was live before, and is another task. -/
theorem World.Live.of_finish {j : Nat} {u : TaskSpec Ir} {r : Except Exn Unit}
    (h : (w.finish_task i r).Live j u) : w.Live j u ∧ j ≠ i := by
  rw [World.Live, finish_task_get] at h
  obtain ⟨v, hv, he⟩ := Option.map_eq_some_iff.1 h
  split at he
  · obtain ⟨-, ho⟩ := Prod.mk.injEq .. ▸ he
    cases hv' : v.2 <;> simp [hv'] at ho
  · next hne => exact ⟨by rw [World.Live, hv, he], fun he => hne he.symm⟩

theorem World.Live.finish {j : Nat} {u : TaskSpec Ir} {r : Except Exn Unit} (h : w.Live j u)
    (hne : j ≠ i) : (w.finish_task i r).Live j u := by
  rw [World.Live, finish_task_get, h]
  simp [hne.symm]

theorem World.latest_finish {k : Nat} {r : Except Exn Unit} :
    (w.finish_task i r).Latest k ↔ w.Latest k := by
  have hspec : ∀ j : Nat, ((w.finish_task i r).tasks[j]?).map (fun u => u.1.is_batch) =
      (w.tasks[j]?).map fun u => u.1.is_batch := by
    intro j
    rw [finish_task_get, Option.map_map]
    refine congrArg (fun f => Option.map f w.tasks[j]?) (funext fun u => ?_)
    simp only [Function.comp_apply]
    split <;> rfl
  have hkind : ∀ (w : World Ir) (j : Nat) (b : Bool),
      (∃ u, w.tasks[j]? = some u ∧ u.1.is_batch = b) ↔
        (w.tasks[j]?).map (fun u => u.1.is_batch) = some b := by
    intro w j b
    rw [Option.map_eq_some_iff]
  have hother : ∀ (w : World Ir) (j : Nat),
      (∀ u, w.tasks[j]? = some u → u.1.is_batch = false) ↔
        (w.tasks[j]?).map (fun u => u.1.is_batch) ≠ some true := by
    intro w j
    cases w.tasks[j]? <;> simp
  unfold World.Latest
  rw [hkind, hspec, ← hkind]
  refine and_congr_right fun _ => forall_congr' fun j => ?_
  constructor
  · intro h u hj
    exact (hother w j).2 (by rw [← hspec]; exact (hother _ j).1 fun u => h u hj) u
  · intro h u hj
    exact (hother _ j).2 (by rw [hspec]; exact (hother w j).1 fun u => h u hj) u

/-- A task ends, the delivery of a batch only when its tasks have. -/
theorem World.InOrder.finish (h : w.InOrder) (hlive : w.Live i t) {r : Except Exn Unit}
    (halone : t.is_batch = true → r = .ok () → ∀ j u, w.Live j u → j = i) :
    (w.finish_task i r).InOrder := by
  constructor
  · intro k j u hk hj
    exact h.older (World.latest_finish.1 hk) hj.of_finish.1
  · intro k hk hout j u hj
    have hk' := World.latest_finish.1 hk
    obtain ⟨hj', hne⟩ := hj.of_finish
    by_cases hki : k = i
    · rw [hki] at hk' hout
      have hr : r = .ok () := by
        rw [World.outcome, finish_task_get, hlive] at hout
        simpa using hout
      obtain ⟨⟨v, hv, hb⟩, -⟩ := hk'
      rw [hlive] at hv
      cases hv
      exact hne (halone hb hr j u hj')
    · have hout' : w.outcome k = some (.ok ()) := by
        rw [World.outcome, finish_task_get] at hout
        rw [World.outcome]
        cases hv : w.tasks[k]? with
        | none => rw [hv] at hout; cases hout
        | some v => simpa [hv, Ne.symm hki] using hout
      exact h.quiet hk' hout' j u hj'

end CodaNode
