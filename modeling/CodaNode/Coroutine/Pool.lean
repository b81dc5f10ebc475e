/-
`Coroutine/Pool.lean` -- a main coroutine and the tasks it creates, under any schedule.

A `Pool` is the shared state, a main coroutine that its owner starts again whenever it
returns, and the tasks created so far. At each step the world drifts or one coroutine is
resumed; which one is not determined. Creating a task is a write to the shared state
(`Kernel.spawned`), so creating and awaiting tasks needs no rule of its own.

`holds_run` is the rely-guarantee rule: if every coroutine meets its contract, and what
each one keeps is what the others rely on, then every coroutine is suspended as promised
in every pool that a run reaches.
-/
import CodaNode.Coroutine.Logic
import Mathlib.Data.List.Basic

set_option autoImplicit false

namespace Coroutine

variable {S C : Type} {R : C → Type} {ε T : Type}

/-- How a pool of coroutines runs. -/
structure Kernel (S : Type) {C : Type} (R : C → Type) (ε T : Type) extends Host S R ε where
  /-- The tasks created so far, in order. -/
  spawned : S → List T
  /-- What a task runs; it awaits something first. -/
  body : T → Co S R ε Unit
  /-- Records how a task has ended. -/
  finish : Nat → Except ε Unit → S → S
  /-- The next round of the main coroutine, if there is one. -/
  again : S → Option (Co S R ε Unit)

/-- The shared state and the coroutines. -/
structure Pool (S : Type) {C : Type} (R : C → Type) (ε : Type) where
  state : S
  main : Co S R ε Unit
  tasks : List (Co S R ε Unit)

namespace Kernel

variable (K : Kernel S R ε T)

/-- Runs the main coroutine to its next suspension, starting the next round if it returns. -/
def advance (s : S) (p : Co S R ε Unit) : S × Co S R ε Unit :=
  match Co.settle s p with
  | (s', .ret _) =>
    match K.again s' with
    | some q => Co.settle s' q
    | none => (s', .ret ())
  | x => x

/-- Runs a task to its next suspension, recording its end. -/
def turn (i : Nat) (s : S) (p : Co S R ε Unit) : S × Co S R ε Unit :=
  match (Co.settle s p).2.outcome with
  | some r => (K.finish i r (Co.settle s p).1, (Co.settle s p).2)
  | none => Co.settle s p

/-- The pool with the tasks that have been created since. -/
def enlist (s : S) (main : Co S R ε Unit) (tasks : List (Co S R ε Unit)) : Pool S R ε :=
  ⟨s, main, tasks ++ ((K.spawned s).drop tasks.length).map K.body⟩

/-- The pool in which the main coroutine starts as `p`. -/
def start (s : S) (p : Co S R ε Unit) : Pool S R ε :=
  K.enlist (K.advance s p).1 (K.advance s p).2 []

/-- One step of a pool. -/
inductive Step : Pool S R ε → Pool S R ε → Prop
  | drift {s s' : S} {main : Co S R ε Unit} {tasks : List (Co S R ε Unit)}
      (h : K.drift s s') : Step ⟨s, main, tasks⟩ ⟨s', main, tasks⟩
  | main {s s' : S} {c : C} {k : Except ε (R c) → Co S R ε Unit} {r : Except ε (R c)}
      {tasks : List (Co S R ε Unit)} (h : K.answer c s r s') :
      Step ⟨s, .await c k, tasks⟩
        (K.enlist (K.advance s' (k r)).1 (K.advance s' (k r)).2 tasks)
  | task {s s' : S} {c : C} {k : Except ε (R c) → Co S R ε Unit} {r : Except ε (R c)}
      {main : Co S R ε Unit} {tasks : List (Co S R ε Unit)} {i : Nat}
      (hi : tasks[i]? = some (.await c k)) (h : K.answer c s r s') :
      Step ⟨s, main, tasks⟩
        (K.enlist (K.turn i s' (k r)).1 main (tasks.set i (K.turn i s' (k r)).2))

/-- Any number of steps. -/
abbrev Run (x y : Pool S R ε) : Prop := Relation.ReflTransGen K.Step x y

/-- Nothing that is awaited can be answered: only drift is left. -/
structure Halted (x : Pool S R ε) : Prop where
  main : ∀ (c : C) (k : Except ε (R c) → Co S R ε Unit), x.main = .await c k →
    ∀ r s', ¬ K.answer c x.state r s'
  task : ∀ (i : Nat) (c : C) (k : Except ε (R c) → Co S R ε Unit),
    x.tasks[i]? = some (.await c k) → ∀ r s', ¬ K.answer c x.state r s'

variable {K} in
/-- The main coroutine never rests in front of synchronous code. -/
theorem Run.main_ne_sync {s : S} {p : Co S R ε Unit} {x : Pool S R ε}
    (h : K.Run (K.start s p) x) : ∀ f k, x.main ≠ .sync f k := by
  have hadvance : ∀ s q f k, (K.advance s q).2 ≠ .sync f k := by
    intro s q f k
    have hset := Host.settle_ne_sync s q
    unfold advance
    split
    · split
      · exact Host.settle_ne_sync _ _ f k
      · exact fun h => nomatch h
    · exact hset f k
  induction h with
  | refl => exact hadvance s p
  | tail _ hstep ih =>
      cases hstep with
      | drift => exact ih
      | main => exact hadvance _ _
      | task => exact ih

/-! ## The rely-guarantee rule -/

/-- The entries of a prefix stand at the same places in the whole list. -/
theorem get_of_le {α : Type} {l l' : List α} (h : l <+: l') {i : Nat}
    (hi : i < l.length) : l'[i]? = l[i]? := by
  obtain ⟨t, rfl⟩ := h
  exact List.getElem?_append_left hi

/-- A coroutine of a pool: `none` is the main one, `some (i, t)` the `i`-th task. -/
abbrev Actor (T : Type) : Type := Option (Nat × T)

/-- The actor is there. -/
def Present (s : S) : Actor T → Prop
  | none => True
  | some (i, t) => (K.spawned s)[i]? = some t

/-- The contracts of a pool's coroutines, and why they fit together. -/
structure Agreement where
  contract : Actor T → Contract S R ε
  /-- How a round of the main coroutine ends. -/
  round : Except ε Unit → S → Prop
  /-- How a task ends. -/
  done : Nat → T → Except ε Unit → S → Prop
  refl : ∀ a s, (contract a).rely s s
  trans : ∀ a s₁ s₂ s₃, (contract a).rely s₁ s₂ → (contract a).rely s₂ s₃ →
    (contract a).rely s₁ s₃
  answer : ∀ a c s r s', K.answer c s r s' → (contract a).answer c s r s'
  drift : ∀ a s s', K.drift s s' → (contract a).rely s s'
  drift_spawned : ∀ s s', K.drift s s' → K.spawned s' = K.spawned s
  /-- What one coroutine keeps is what every other relies on. -/
  interfere : ∀ a b s s', a ≠ b → K.Present s a → K.Present s b → (contract a).keep s s' →
    (contract b).rely s s'
  /-- Tasks are only ever added. -/
  grows : ∀ a s s', K.Present s a → (contract a).keep s s' → K.spawned s <+: K.spawned s'
  /-- A new task can begin. -/
  begins : ∀ a s s', K.Present s a → (contract a).keep s s' → ∀ j u,
    (K.spawned s).length ≤ j → (K.spawned s')[j]? = some u →
    (contract (some (j, u))).wp (K.body u) (done j u) s'
  finish_spawned : ∀ i r s, K.spawned (K.finish i r s) = K.spawned s
  /-- Recording the end of a task disturbs none of the others. -/
  finish : ∀ i t r s b, K.Present s (some (i, t)) → K.Present s b → some (i, t) ≠ b →
    done i t r s → (contract b).rely s (K.finish i r s)
  next_round : ∀ s q, round (.ok ()) s → K.again s = some q →
    (contract none).wp q round s

namespace Agreement

variable {K} (A : K.Agreement)

/-- Every coroutine of the pool is suspended as promised; a task that has ended owes
nothing any more. -/
structure Holds (x : Pool S R ε) : Prop where
  main : (A.contract none).Suspended x.main A.round x.state
  length : x.tasks.length = (K.spawned x.state).length
  task : ∀ i t p, (K.spawned x.state)[i]? = some t → x.tasks[i]? = some p →
    p.outcome = none → (A.contract (some (i, t))).Suspended p (A.done i t) x.state

variable {A}

/-- What the steps of one coroutine mean to all the others: those that were there may rely
on them, and the tasks they create can begin. -/
theorem kept {a : Actor T} {s s' : S} (ha : K.Present s a)
    (h : (A.contract a).Kept s s') :
    K.spawned s <+: K.spawned s' ∧
    (∀ b, a ≠ b → K.Present s b → (A.contract b).rely s s') ∧
    ∀ j u, (K.spawned s).length ≤ j → (K.spawned s')[j]? = some u →
      (A.contract (some (j, u))).Suspended (K.body u) (A.done j u) s' := by
  induction h with
  | refl =>
      refine ⟨List.prefix_refl _, fun b _ _ => A.refl b s, fun j u hj hu => ?_⟩
      rw [List.getElem?_eq_none hj] at hu
      cases hu
  | @tail s₁ s₂ _ hk ih =>
      obtain ⟨hpre, hrely, hnew⟩ := ih
      have still : ∀ b, K.Present s b → K.Present s₁ b := by
        rintro (_ | ⟨i, t⟩) hb
        · trivial
        · exact (get_of_le hpre (List.getElem?_eq_some_iff.1 hb).1).trans hb
      have hgrow := A.grows a s₁ s₂ (still a ha) hk
      refine ⟨hpre.trans hgrow, fun b hab hb => ?_, fun j u hj hu => ?_⟩
      · exact A.trans b _ _ _ (hrely b hab hb)
          (A.interfere a b _ _ hab (still a ha) (still b hb) hk)
      · rcases Nat.lt_or_ge j (K.spawned s₁).length with hlt | hge
        · -- the task was created earlier in the same turn
          have hu₁ : (K.spawned s₁)[j]? = some u := by
            rwa [get_of_le hgrow hlt] at hu
          refine (hnew j u hj hu₁).rely (A.trans _) (A.interfere a _ _ _ ?_ (still a ha) hu₁ hk)
          rintro rfl
          have : j < (K.spawned s).length := (List.getElem?_eq_some_iff.1 ha).1
          omega
        · exact ⟨s₂, A.refl _ _, A.begins a s₁ s₂ (still a ha) hk j u hge hu⟩

/-- What every step of a coroutine keeps, all its steps keep. -/
theorem kept_inv {I : S → Prop} {a : Actor T}
    (hkeep : ∀ s s', K.Present s a → I s → (A.contract a).keep s s' → I s') {s s' : S}
    (ha : K.Present s a) (hI : I s) (h : (A.contract a).Kept s s') : I s' := by
  suffices hboth : K.Present s' a ∧ I s' from hboth.2
  induction h with
  | refl => exact ⟨ha, hI⟩
  | @tail s₁ s₂ _ hk ih =>
      have hgrow := A.grows a s₁ s₂ ih.1 hk
      refine ⟨?_, hkeep s₁ s₂ ih.1 ih.2 hk⟩
      cases a with
      | none => trivial
      | some it =>
          obtain ⟨i, t⟩ := it
          exact (get_of_le hgrow (List.getElem?_eq_some_iff.1 ih.1).1).trans ih.1

/-- The tasks of a pool after a turn, given those that were there before. -/
theorem enlist_holds {s s' : S} {main : Co S R ε Unit} {tasks : List (Co S R ε Unit)}
    (hlen : tasks.length = (K.spawned s).length) (hpre : K.spawned s <+: K.spawned s')
    (hmain : (A.contract none).Suspended main A.round s')
    (hold : ∀ i t p, (K.spawned s)[i]? = some t → tasks[i]? = some p → p.outcome = none →
      (A.contract (some (i, t))).Suspended p (A.done i t) s')
    (hnew : ∀ j u, (K.spawned s).length ≤ j → (K.spawned s')[j]? = some u →
      (A.contract (some (j, u))).Suspended (K.body u) (A.done j u) s') :
    A.Holds (K.enlist s' main tasks) := by
  refine ⟨hmain, ?_, fun i t p ht hp hout => ?_⟩
  · have := hpre.length_le
    simp only [enlist, List.length_append, List.length_map, List.length_drop]
    omega
  · simp only [enlist] at ht hp
    rcases Nat.lt_or_ge i tasks.length with hlt | hge
    · rw [List.getElem?_append_left hlt] at hp
      have ht' : (K.spawned s)[i]? = some t := by
        rwa [get_of_le hpre (by omega)] at ht
      exact hold i t p ht' hp hout
    · rw [List.getElem?_append_right hge, List.getElem?_map, List.getElem?_drop,
        Nat.add_sub_cancel' hge, ht] at hp
      cases hp
      exact hnew i t (by omega) ht

theorem advance_wp {s : S} {p : Co S R ε Unit} (h : (A.contract none).wp p A.round s) :
    (A.contract none).Kept s (K.advance s p).1 ∧
      (A.contract none).wp (K.advance s p).2 A.round (K.advance s p).1 := by
  obtain ⟨hk, hw⟩ := (A.contract none).wp_settle h
  unfold advance
  cases hset : Co.settle s p with
  | mk s' q =>
      rw [hset] at hk hw
      cases q with
      | ret u =>
          cases hagain : K.again s' with
          | none => simpa only [hagain] using ⟨hk, hw⟩
          | some q' =>
              obtain ⟨hk', hw'⟩ :=
                (A.contract none).wp_settle (A.next_round s' q' hw hagain)
              simpa only [hagain] using ⟨hk.trans hk', hw'⟩
      | raise e => exact ⟨hk, hw⟩
      | sync f k => exact ⟨hk, hw⟩
      | await c k => exact ⟨hk, hw⟩

/-- What has ended has ended as promised. -/
theorem done_of_wp {K' : Contract S R ε} {Q : Except ε Unit → S → Prop} {q : Co S R ε Unit}
    {s : S} {r : Except ε Unit} (h : K'.wp q Q s) (hout : q.outcome = some r) : Q r s := by
  cases q with
  | ret u => cases hout; exact h
  | raise e => cases hout; exact h
  | sync f k => cases hout
  | await c k => cases hout

/-- The main coroutine, resumed. -/
theorem Holds.resume_main {s s' : S} {c : C} {k : Except ε (R c) → Co S R ε Unit}
    {r : Except ε (R c)} {tasks : List (Co S R ε Unit)} (h : A.Holds ⟨s, .await c k, tasks⟩)
    (ha : K.answer c s r s') :
    (A.contract none).Kept s (K.advance s' (k r)).1 ∧
      (A.contract none).wp (K.advance s' (k r)).2 A.round (K.advance s' (k r)).1 := by
  obtain ⟨s₀, h₀, -, hw⟩ := h.main
  obtain ⟨hk, hw⟩ := hw s h₀ r s' (A.answer none _ _ _ _ ha)
  obtain ⟨hk', hw'⟩ := advance_wp hw
  exact ⟨hk'.head hk, hw'⟩

/-- A task, resumed: it has been created, and it keeps its contract. -/
theorem Holds.resume_task {s s' : S} {main : Co S R ε Unit} {c : C}
    {k : Except ε (R c) → Co S R ε Unit} {r : Except ε (R c)} {tasks : List (Co S R ε Unit)}
    {i : Nat} (h : A.Holds ⟨s, main, tasks⟩) (hi : tasks[i]? = some (.await c k))
    (ha : K.answer c s r s') : ∃ t, (K.spawned s)[i]? = some t ∧
      (A.contract (some (i, t))).Kept s (Co.settle s' (k r)).1 ∧
      (A.contract (some (i, t))).wp (Co.settle s' (k r)).2 (A.done i t)
        (Co.settle s' (k r)).1 := by
  have hlt : i < (K.spawned s).length := by
    have := (List.getElem?_eq_some_iff.1 hi).1
    have := h.length
    simp only at this
    omega
  have ht : (K.spawned s)[i]? = some (K.spawned s)[i] := List.getElem?_eq_getElem hlt
  obtain ⟨s₀, h₀, -, hw⟩ := h.task i _ _ ht hi rfl
  obtain ⟨hk, hw⟩ := hw s h₀ r s' (A.answer _ _ _ _ _ ha)
  obtain ⟨hk', hw'⟩ := (A.contract (some (i, (K.spawned s)[i]))).wp_settle hw
  exact ⟨_, ht, hk'.head hk, hw'⟩

/-- One step keeps every promise. -/
theorem holds_step {x y : Pool S R ε} (h : A.Holds x) (hstep : K.Step x y) : A.Holds y := by
  cases hstep with
  | @drift s s' main tasks hd =>
      have hsp := A.drift_spawned s s' hd
      refine ⟨h.main.rely (A.trans none) (A.drift none _ _ hd), ?_, fun i t p ht hp hout => ?_⟩
      · exact h.length.trans (by rw [hsp])
      · rw [hsp] at ht
        exact (h.task i t p ht hp hout).rely (A.trans _) (A.drift _ _ _ hd)
  | @main s s' c k r tasks ha =>
      obtain ⟨hk, hw'⟩ := h.resume_main ha
      obtain ⟨hpre, hrely, hnew⟩ := kept (a := none) trivial hk
      exact enlist_holds h.length hpre ⟨_, A.refl _ _, hw'⟩
        (fun i t p ht hp hout => (h.task i t p ht hp hout).rely (A.trans _)
          (hrely (some (i, t)) (by simp) ht)) hnew
  | @task s s' c k r main tasks i hi ha =>
      obtain ⟨t, ht, hk, hw'⟩ := h.resume_task hi ha
      have hlt : i < (K.spawned s).length := (List.getElem?_eq_some_iff.1 ht).1
      obtain ⟨hpre, hrely, hnew⟩ := kept (a := some (i, t)) ht hk
      set s₂ := (Co.settle s' (k r)).1 with hs₂
      set q := (Co.settle s' (k r)).2 with hq
      have hsp : K.spawned (K.turn i s' (k r)).1 = K.spawned s₂ := by
        unfold turn
        split
        · exact A.finish_spawned _ _ _
        · rfl
      have ht₂ : K.Present s₂ (some (i, t)) := (get_of_le hpre hlt).trans ht
      -- recording the end of the task, if it has ended
      obtain ⟨hturn, hfin⟩ : (K.turn i s' (k r)).2 = q ∧
          ∀ b, K.Present s₂ b → some (i, t) ≠ b →
            (A.contract b).rely s₂ (K.turn i s' (k r)).1 := by
        unfold turn
        cases hout : (Co.settle s' (k r)).2.outcome with
        | none => exact ⟨hq.symm, fun b _ _ => A.refl b _⟩
        | some o =>
            rw [← hq] at hout
            exact ⟨rfl, fun b hb hne => A.finish i t o s₂ b ht₂ hb hne (done_of_wp hw' hout)⟩
      refine enlist_holds (s := s) (by rw [List.length_set]; exact h.length)
        (by rw [hsp]; exact hpre) ?_ (fun j u p hu hp hout => ?_) (fun j u hj hu => ?_)
      · exact (h.main.rely (A.trans _) (hrely none (by simp) trivial)).rely (A.trans _)
          (hfin none trivial (by simp))
      · rcases eq_or_ne i j with rfl | hne
        · have hut : u = t := by
            rw [ht] at hu; exact (Option.some.inj hu).symm
          have hpq : p = q := by
            rw [List.getElem?_set_self (by have := h.length; simp only at this; omega),
              hturn] at hp
            exact (Option.some.inj hp).symm
          subst hut hpq
          -- it has not ended, so nothing was recorded
          have hsame : (K.turn i s' (k r)).1 = s₂ := by
            unfold turn
            rw [← hq, hout]
          rw [hsame]
          exact ⟨_, A.refl _ _, hw'⟩
        · rw [List.getElem?_set_ne hne] at hp
          have hb : K.Present s₂ (some (j, u)) :=
            (get_of_le hpre (List.getElem?_eq_some_iff.1 hu).1).trans hu
          exact ((h.task j u p hu hp hout).rely (A.trans _)
            (hrely (some (j, u)) (by simp [hne]) hu)).rely (A.trans _)
            (hfin _ hb (by simp [hne]))
      · rw [hsp] at hu
        have hne : i ≠ j := by omega
        exact (hnew j u hj hu).rely (A.trans _) (hfin _ hu (by simp [hne]))

/-- **The rely-guarantee rule.** -/
theorem holds_run {x y : Pool S R ε} (h : A.Holds x) (run : K.Run x y) : A.Holds y := by
  induction run with
  | refl => exact h
  | tail _ hstep ih => exact holds_step ih hstep

/-- The pool in which nothing has happened yet. -/
theorem holds_start {s : S} {p : Co S R ε Unit} (hs : K.spawned s = [])
    (h : (A.contract none).wp p A.round s) : A.Holds (K.start s p) := by
  obtain ⟨hk, hw⟩ := advance_wp h
  obtain ⟨hpre, -, hnew⟩ := kept (a := none) trivial hk
  refine enlist_holds (s := s) (by rw [hs]; rfl) hpre ⟨_, A.refl _ _, hw⟩
    (fun i t p ht _ _ => ?_) hnew
  rw [hs] at ht
  cases ht

/-- What holds of the state, and survives drift, the steps of every coroutine and the record
of every end, holds of every state that a run reaches. -/
theorem state_run {I : S → Prop} (hdrift : ∀ s s', I s → K.drift s s' → I s')
    (hkeep : ∀ a s s', K.Present s a → I s → (A.contract a).keep s s' → I s')
    (hfinish : ∀ i t r s, K.Present s (some (i, t)) → I s → A.done i t r s →
      I (K.finish i r s)) {x y : Pool S R ε} (h : A.Holds x) (hI : I x.state)
    (run : K.Run x y) : I y.state := by
  induction run with
  | refl => exact hI
  | @tail y z hxy hstep ih =>
      have hkept : ∀ a s s', K.Present s a → I s → (A.contract a).Kept s s' → I s' :=
        fun a _ _ ha hI h => kept_inv (hkeep a) ha hI h
      have hy : A.Holds y := holds_run h hxy
      cases hstep with
      | drift hd => exact hdrift _ _ ih hd
      | main ha => exact hkept none _ _ trivial ih (hy.resume_main ha).1
      | @task s s' c k r main tasks i hi ha =>
          obtain ⟨t, ht, hk, hw'⟩ := hy.resume_task hi ha
          have hlt : i < (K.spawned s).length := (List.getElem?_eq_some_iff.1 ht).1
          have hI' := hkept (some (i, t)) _ _ ht ih hk
          have hpre := (kept (a := some (i, t)) ht hk).1
          simp only [enlist, turn]
          split
          · next o hout =>
              exact hfinish i t o _ ((get_of_le hpre hlt).trans ht) hI' (done_of_wp hw' hout)
          · exact hI'

/-- A task of the pool awaits something, or its end has been recorded: `E i` says so of the
`i`-th one. -/
theorem tasks_run {E : Nat → S → Prop} (hbody : ∀ u, ∃ c k, K.body u = .await c k)
    (hdrift : ∀ i s s', E i s → K.drift s s' → E i s')
    (hkeep : ∀ i a s s', K.Present s a → E i s → (A.contract a).keep s s' → E i s')
    (hfinish : ∀ i t r s, K.Present s (some (i, t)) → E i (K.finish i r s))
    (hothers : ∀ i j r s, E j s → E j (K.finish i r s)) {x y : Pool S R ε} (h : A.Holds x)
    (hx : ∀ i p, x.tasks[i]? = some p → (∃ c k, p = .await c k) ∨ E i x.state)
    (run : K.Run x y) :
    ∀ i p, y.tasks[i]? = some p → (∃ c k, p = .await c k) ∨ E i y.state := by
  have hnew : ∀ {s : S} {main : Co S R ε Unit} {tasks : List (Co S R ε Unit)},
      (∀ i p, tasks[i]? = some p → (∃ c k, p = .await c k) ∨ E i s) →
      ∀ i p, (K.enlist s main tasks).tasks[i]? = some p → (∃ c k, p = .await c k) ∨ E i s := by
    intro s main tasks hold i p hp
    simp only [enlist] at hp
    rcases Nat.lt_or_ge i tasks.length with hlt | hge
    · rw [List.getElem?_append_left hlt] at hp
      exact hold i p hp
    · rw [List.getElem?_append_right hge, List.getElem?_map] at hp
      obtain ⟨u, -, rfl⟩ := Option.map_eq_some_iff.1 hp
      exact .inl (hbody u)
  induction run with
  | refl => exact hx
  | @tail y z hxy hstep ih =>
      have hy : A.Holds y := holds_run h hxy
      cases hstep with
      | drift hd => exact fun i p hp => (ih i p hp).imp_right fun he => hdrift i _ _ he hd
      | main ha =>
          exact hnew fun i p hp => (ih i p hp).imp_right fun he =>
            kept_inv (hkeep i none) trivial he (hy.resume_main ha).1
      | @task s s' c k r main tasks i hi ha =>
          obtain ⟨t, ht, hkept, -⟩ := hy.resume_task hi ha
          have hlt : i < (K.spawned s).length := (List.getElem?_eq_some_iff.1 ht).1
          have ht' : K.Present (Co.settle s' (k r)).1 (some (i, t)) :=
            (get_of_le (kept (a := some (i, t)) ht hkept).1 hlt).trans ht
          refine hnew fun j p hp => ?_
          rcases eq_or_ne i j with rfl | hne
          · rw [List.getElem?_set_self (List.getElem?_eq_some_iff.1 hi).1] at hp
            obtain rfl := Option.some.inj hp
            unfold turn
            split
            · exact .inr (hfinish i t _ _ ht')
            · next hout =>
                -- it has come to its next suspension
                refine .inl ?_
                cases hq : (Co.settle s' (k r)).2 with
                | ret u => rw [hq] at hout; cases hout
                | raise e => rw [hq] at hout; cases hout
                | sync f k' => exact absurd hq (Host.settle_ne_sync _ _ f k')
                | await c' k' => exact ⟨c', k', rfl⟩
          · rw [List.getElem?_set_ne hne] at hp
            refine (ih j p hp).imp_right fun he => ?_
            have he' := kept_inv (hkeep j (some (i, t))) ht he hkept
            unfold turn
            split
            · exact hothers i j _ _ he'
            · exact he'

/-- In the pool in which nothing has happened yet, every task is yet to begin. -/
theorem tasks_start {s : S} {p : Co S R ε Unit} {E : Nat → S → Prop}
    (hbody : ∀ u, ∃ c k, K.body u = .await c k) :
    ∀ i q, (K.start s p).tasks[i]? = some q →
      (∃ c k, q = .await c k) ∨ E i (K.start s p).state := by
  intro i q hq
  simp only [start, enlist, List.nil_append, List.getElem?_map] at hq
  obtain ⟨u, -, rfl⟩ := Option.map_eq_some_iff.1 hq
  exact .inl (hbody u)

end Agreement

/-! ## Regimes -/

/-- What all coroutines of a pool keep (`inv`), what each of their steps does (`grows`), what
the tasks leave to the main coroutine (`frame`), when the main coroutine makes which call
(`pre`), how tasks end, and how a round of the main coroutine ends. -/
structure Regime (S C ε : Type) where
  inv : S → Prop
  grows : S → S → Prop
  frame : S → S → Prop
  pre : C → S → Prop
  ended : Except ε Unit → Prop
  round : Except ε Unit → S → Prop

namespace Regime

/-- The contract of the main coroutine. -/
def main (G : Regime S C ε) : Contract S R ε where
  pre c s := G.inv s ∧ G.pre c s
  rely s s' := G.inv s → G.inv s' ∧ G.frame s s'
  answer := K.answer
  keep s s' := G.inv s' ∧ G.grows s s'

/-- The contract of a task. -/
def task (G : Regime S C ε) : Contract S R ε where
  pre _ _ := True
  rely s s' := G.inv s → G.inv s' ∧ G.grows s s'
  answer := K.answer
  keep s s' := G.inv s' ∧ G.frame s s' ∧ G.grows s s'

/-- The code of the pool and its world keep to the regime. -/
structure Sound (G : Regime S C ε) : Prop where
  refl : ∀ s, G.frame s s
  trans : ∀ s₁ s₂ s₃, G.frame s₁ s₂ → G.frame s₂ s₃ → G.frame s₁ s₃
  grows_refl : ∀ s, G.grows s s
  grows_trans : ∀ s₁ s₂ s₃, G.grows s₁ s₂ → G.grows s₂ s₃ → G.grows s₁ s₃
  spawned : ∀ s s', G.grows s s' → K.spawned s <+: K.spawned s'
  drift : ∀ s s', K.drift s s' → K.spawned s' = K.spawned s ∧
    (G.inv s → G.inv s' ∧ G.frame s s' ∧ G.grows s s')
  finish : ∀ i r s, K.spawned (K.finish i r s) = K.spawned s ∧
    (G.inv s → G.ended r → G.inv (K.finish i r s) ∧ G.frame s (K.finish i r s) ∧
      G.grows s (K.finish i r s))
  body : ∀ s s' j t, G.grows s s' → G.inv s' → (K.spawned s).length ≤ j →
    (K.spawned s')[j]? = some t →
    (task K G).wp (K.body t) (fun r s'' => G.inv s'' ∧ G.ended r) s'
  again : ∀ s q, G.inv s → G.round (.ok ()) s → K.again s = some q →
    (main K G).wp q (fun r s' => G.inv s' ∧ G.round r s') s

variable {K} {G : Regime S C ε}

/-- Coroutines that keep to a regime fit together. -/
def Sound.agreement (hG : Sound K G) : K.Agreement where
  contract
    | none => main K G
    | some _ => task K G
  round r s := G.inv s ∧ G.round r s
  done _ _ r s := G.inv s ∧ G.ended r
  refl a s := by
    cases a with
    | none => exact fun h => ⟨h, hG.refl s⟩
    | some _ => exact fun h => ⟨h, hG.grows_refl s⟩
  trans a s₁ s₂ s₃ h h' := by
    cases a with
    | none =>
        intro h₁
        obtain ⟨h₂, hf⟩ := h h₁
        obtain ⟨h₃, hf'⟩ := h' h₂
        exact ⟨h₃, hG.trans _ _ _ hf hf'⟩
    | some _ =>
        intro h₁
        obtain ⟨h₂, hg⟩ := h h₁
        obtain ⟨h₃, hg'⟩ := h' h₂
        exact ⟨h₃, hG.grows_trans _ _ _ hg hg'⟩
  answer a c s r s' h := by cases a <;> exact h
  drift a s s' h := by
    cases a with
    | none =>
        intro hi
        obtain ⟨h', hf, -⟩ := (hG.drift s s' h).2 hi
        exact ⟨h', hf⟩
    | some _ =>
        intro hi
        obtain ⟨h', -, hg⟩ := (hG.drift s s' h).2 hi
        exact ⟨h', hg⟩
  drift_spawned s s' h := (hG.drift s s' h).1
  interfere a b s s' hab _ _ hk := by
    cases a with
    | none =>
        cases b with
        | none => exact absurd rfl hab
        | some _ => exact fun _ => hk
    | some _ =>
        cases b with
        | none => exact fun _ => ⟨hk.1, hk.2.1⟩
        | some _ => exact fun _ => ⟨hk.1, hk.2.2⟩
  grows a s s' _ hk := by
    cases a with
    | none => exact hG.spawned s s' hk.2
    | some _ => exact hG.spawned s s' hk.2.2
  begins a s s' _ hk j u hj hu := by
    cases a with
    | none => exact hG.body s s' j u hk.2 hk.1 hj hu
    | some _ => exact hG.body s s' j u hk.2.2 hk.1 hj hu
  finish_spawned i r s := (hG.finish i r s).1
  finish i t r s b _ _ _ h := by
    obtain ⟨hi, hf, hg⟩ := (hG.finish i r s).2 h.1 h.2
    cases b with
    | none => exact fun _ => ⟨hi, hf⟩
    | some _ => exact fun _ => ⟨hi, hg⟩
  next_round s q h hq := hG.again s q h.1 h.2 hq

/-- What a run of a pool that keeps to a regime shows: the invariant, what the awaited call
of the main coroutine was made under, and how its last round ended. -/
structure Shows (G : Regime S C ε) (x : Pool S R ε) : Prop where
  inv : G.inv x.state
  awaits : ∀ c k, x.main = .await c k → ∃ s, G.inv s ∧ G.frame s x.state ∧ G.pre c s
  ends : ∀ r, x.main.outcome = some r → ∃ s, G.inv s ∧ G.frame s x.state ∧ G.round r s

/-- **The rule for regimes**: what the code of each coroutine keeps, every run shows. -/
theorem Sound.run (hG : Sound K G) {s : S} {p : Co S R ε Unit} (hs : K.spawned s = [])
    (hi : G.inv s) (hp : (main K G).wp p (fun r s' => G.inv s' ∧ G.round r s') s)
    {x : Pool S R ε} (run : K.Run (K.start s p) x) : Shows G x := by
  have hstart : hG.agreement.Holds (K.start s p) := Agreement.holds_start hs hp
  have hkeep : ∀ a s s', K.Present s a → G.inv s → (hG.agreement.contract a).keep s s' →
      G.inv s' := by
    intro a s s' _ _ hk
    cases a with
    | none => exact hk.1
    | some _ => exact hk.1
  have hfirst : G.inv (K.start s p).state :=
    Agreement.kept_inv (hkeep none) trivial hi (Agreement.advance_wp (A := hG.agreement) hp).1
  have hlast : G.inv x.state :=
    Agreement.state_run (fun s s' h hd => ((hG.drift s s' hd).2 h).1) hkeep
      (fun i t r s _ h hdone => ((hG.finish i r s).2 h hdone.2).1) hstart hfirst run
  obtain ⟨s₀, hrely, hw⟩ := (Agreement.holds_run hstart run).main
  refine ⟨hlast, fun c k hc => ?_, fun r hr => ?_⟩
  · rw [hc] at hw
    obtain ⟨⟨hi₀, hpre⟩, -⟩ := hw
    exact ⟨s₀, hi₀, (hrely hi₀).2, hpre⟩
  · obtain ⟨hi₀, hround⟩ := Agreement.done_of_wp hw hr
    exact ⟨s₀, hi₀, (hrely hi₀).2, hround⟩

end Regime

/-! ## Runs that exist -/

theorem advance_await {s s' : S} {p : Co S R ε Unit} {c : C}
    {k : Except ε (R c) → Co S R ε Unit} (h : Co.settle s p = (s', .await c k)) :
    K.advance s p = (s', .await c k) := by
  rw [advance, h]

theorem advance_again {s s' : S} {p q : Co S R ε Unit} (h : Co.settle s p = (s', .ret ()))
    (hagain : K.again s' = some q) : K.advance s p = Co.settle s' q := by
  rw [advance, h]
  simp only [hagain]

theorem advance_ret {s s' : S} {p : Co S R ε Unit} (h : Co.settle s p = (s', .ret ()))
    (hagain : K.again s' = none) : K.advance s p = (s', .ret ()) := by
  rw [advance, h]
  simp only [hagain]

theorem advance_raise {s s' : S} {p : Co S R ε Unit} {e : ε}
    (h : Co.settle s p = (s', .raise e)) : K.advance s p = (s', .raise e) := by
  rw [advance, h]

theorem enlist_none {s : S} {main : Co S R ε Unit} (h : K.spawned s = []) :
    K.enlist s main [] = ⟨s, main, []⟩ := by
  rw [enlist, h]
  rfl

/-- A run that begins with this answer to the main coroutine. -/
theorem exists_run_of_main {x : Pool S R ε} {c : C} {k : Except ε (R c) → Co S R ε Unit}
    {r : Except ε (R c)} {s' : S} {P : Pool S R ε → Prop} (hx : x.main = .await c k)
    (ha : K.answer c x.state r s')
    (h : ∃ y, K.Run (K.enlist (K.advance s' (k r)).1 (K.advance s' (k r)).2 x.tasks) y ∧ P y) :
    ∃ y, K.Run x y ∧ P y := by
  obtain ⟨y, hrun, hy⟩ := h
  obtain ⟨s, main, tasks⟩ := x
  subst hx
  exact ⟨y, .head (.main ha) hrun, hy⟩

/-- A run that begins with this answer to a task. -/
theorem exists_run_of_task {x : Pool S R ε} (i : Nat) {c : C}
    {k : Except ε (R c) → Co S R ε Unit} {r : Except ε (R c)} {s' : S} {P : Pool S R ε → Prop}
    (hi : x.tasks[i]? = some (.await c k)) (ha : K.answer c x.state r s')
    (h : ∃ y, K.Run (K.enlist (K.turn i s' (k r)).1 x.main
      (x.tasks.set i (K.turn i s' (k r)).2)) y ∧ P y) : ∃ y, K.Run x y ∧ P y := by
  obtain ⟨y, hrun, hy⟩ := h
  obtain ⟨s, main, tasks⟩ := x
  exact ⟨y, .head (.task hi ha) hrun, hy⟩

/-- A run that begins with drift. -/
theorem exists_run_of_drift {x : Pool S R ε} {s' : S} {P : Pool S R ε → Prop}
    (hd : K.drift x.state s') (h : ∃ y, K.Run ⟨s', x.main, x.tasks⟩ y ∧ P y) :
    ∃ y, K.Run x y ∧ P y := by
  obtain ⟨y, hrun, hy⟩ := h
  obtain ⟨s, main, tasks⟩ := x
  exact ⟨y, .head (.drift hd) hrun, hy⟩

/-- From `s`, when the main coroutine goes on as `p`, some run leads to `P`, whatever the
tasks are. -/
def Leads (P : Pool S R ε → Prop) (p : Co S R ε Unit) (s : S) : Prop :=
  ∀ tasks, ∃ y, K.Run (K.enlist (K.advance s p).1 (K.advance s p).2 tasks) y ∧ P y

namespace Leads

variable {K} {P : Pool S R ε → Prop} {α : Type}

/-- It has led there already. -/
theorem here {p : Co S R ε Unit} {s : S}
    (h : ∀ tasks, P ⟨(K.advance s p).1, (K.advance s p).2, tasks⟩) : K.Leads P p s :=
  fun _ => ⟨_, .refl, h _⟩

/-- The main coroutine runs `p`, which can end so that the rest leads there. -/
theorem bind {p : Co S R ε α} {f : α → Co S R ε Unit} {s : S}
    (h : K.toHost.Can p (fun r s' => match r with
      | .ok a => K.Leads P (f a) s'
      | .error e => K.Leads P (.raise e) s') s) : K.Leads P (p >>= f) s := by
  induction p generalizing s with
  | ret a => exact h
  | raise e => exact h
  | sync u k ih => exact ih s h
  | await c k ih =>
      intro tasks
      obtain ⟨s₁, hd, r, s₂, ha, h⟩ := h
      obtain ⟨y, hrun, hy⟩ := ih r h (tasks ++ ((K.spawned s).drop tasks.length).map K.body)
      exact ⟨y, .head (.drift hd) (.head (.main ha) hrun), hy⟩

/-- What the main coroutine is started as leads there. -/
theorem start {p : Co S R ε Unit} {s : S} (h : K.Leads P p s) :
    ∃ y, K.Run (K.start s p) y ∧ P y := h []

end Leads

end Kernel

end Coroutine
