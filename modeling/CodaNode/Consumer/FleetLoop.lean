/-
`Consumer/FleetLoop.lean` -- the loop between the deliveries.

Between two messages the loop is `Alone`: no task is left over and none is pending. Between
two rounds it is that, or it has a delivery pending, the last one created. The theorems
here follow the loop from the one to the other.
-/
import CodaNode.Consumer.Fleet

set_option autoImplicit false

open Coroutine

namespace CodaNode

variable {Ir : Type} {node : Node Ir} {w w' : World Ir} {i : Nat} {t : TaskSpec Ir} {m : Message}
variable {cloud : (String → Option String) → (String → Option String) → Prop}
variable {allow : (q : Req Ir) → World Ir → Except Exn q.Reply → Prop}

/-- The operations of the loop itself, outside messages and recoveries. -/
def Call.waits : Call Ir → Bool
  | .xreadgroup _ | .join _ | .sleep _ => true
  | _ => false

/-- A line that the loop itself writes. -/
def Event.passing : Event Ir → Bool
  | .ended q _ _ => q.call.waits
  | .mark (.lost _ _) => true
  | _ => false

/-- A step of the loop itself. -/
structure Passes (w w' : World Ir) : Prop where
  tasks : w'.tasks = w.tasks
  idle : w'.self.idle = w.self.idle
  current : w'.self.current_job_id = w.self.current_job_id
  log : w'.log = w.log ∨ ∃ x : Entry Ir, x.event.passing = true ∧ w'.log = x :: w.log

theorem Passes.grows (h : Passes w w') : w.log <:+ w'.log := by
  rcases h.log with hl | ⟨x, -, hl⟩
  · exact ⟨[], hl.symm⟩
  · exact ⟨[x], hl.symm⟩

theorem Errand.passes {f : World Ir → World Ir} (hf : Errand f) (w : World Ir) :
    Passes w (f w) ∧
      (f w).self.pending_batch_delivery = w.self.pending_batch_delivery := by
  cases hf with
  | running => exact ⟨⟨rfl, rfl, rfl, .inl rfl⟩, rfl⟩
  | healthy b => exact ⟨⟨rfl, rfl, rfl, .inl rfl⟩, rfl⟩
  | frame f => exact ⟨⟨rfl, rfl, rfl, .inl rfl⟩, rfl⟩
  | lost attempt delay => exact ⟨⟨rfl, rfl, rfl, .inr ⟨_, rfl, rfl⟩⟩, rfl⟩

theorem passes_pending (w : World Ir) (o : Option Nat) :
    Passes w (w.set_self ({ · with pending_batch_delivery := o })) := ⟨rfl, rfl, rfl, .inl rfl⟩

theorem Answered.passes {q : Req Ir} {r : Except Exn q.Reply} (hq : q.call.waits = true)
    (h : Answered q r w w') : Passes w w' := by
  obtain ⟨took, hl⟩ := h.log
  exact ⟨h.tasks, by rw [h.self], by rw [h.self], .inr ⟨⟨.ended q took r, w.values, w.region⟩, hq, hl⟩⟩

namespace Fleet

variable (F : Fleet Ir)

/-- A delivery has been created. -/
structure Out (t : Nat) (w : World Ir) : Prop where
  good : F.Good w
  latest : w.Latest t
  busy : F.busy w

/-- What is asked of `rest` and `busy`: the loop's own steps and the deliveries keep them, and
`rest` is what `busy` comes to when all is over. -/
structure Patient : Prop where
  inv : ∀ w w', Passes w w' → F.inv w → F.inv w'
  step_rest : ∀ w w', Passes w w' → F.rest w → F.rest w'
  step_busy : ∀ w w', Passes w w' → F.busy w → F.busy w'
  rest_aside : ∀ w w', F.Aside w w' → w.Over → F.rest w → F.rest w'
  busy_aside : ∀ w w', F.Aside w w' → F.busy w → F.busy w'
  settled : ∀ w, F.Good w → w.Over → F.busy w → F.rest w

variable {F}

theorem Aside.quiet' (h : F.Aside w w') (hover : w.Over) : w'.Over :=
  hover.of_tasks (h.quiet hover)

theorem Between.aside (hP : F.Patient) (h : F.Between w)
    (hgood : F.Good w') (ha : F.Aside w w') : F.Between w' := by
  refine ⟨hgood, fun hp => ?_, fun t hp => ?_⟩
  · rw [ha.pending] at hp
    have hp' := h.free hp
    exact ⟨ha.quiet' hp'.1, hP.rest_aside w w' ha hp'.1 hp'.2⟩
  · rw [ha.pending] at hp
    exact ⟨ha.latest t (h.taken t hp).1, hP.busy_aside w w' ha (h.taken t hp).2⟩

theorem Between.passes (hP : F.Patient) (h : F.Between w)
    (hp : Passes w w')
    (hsame : w'.self.pending_batch_delivery = w.self.pending_batch_delivery) :
    F.Between w' := by
  refine ⟨h.good.of_tasks (hP.inv w w' hp h.good.inv) hp.tasks, fun hn => ?_, fun t ht => ?_⟩
  · rw [hsame] at hn
    exact ⟨(h.free hn).1.of_tasks hp.tasks, hP.step_rest w w' hp (h.free hn).2⟩
  · rw [hsame] at ht
    exact ⟨by rw [World.Latest, hp.tasks]; exact (h.taken t ht).1,
      hP.step_busy w w' hp (h.taken t ht).2⟩

theorem Held.between (h : F.Alone w) : F.Between w := by
  refine ⟨h.good, fun _ => ⟨h.quiet, h.holds⟩, fun t ht => ?_⟩
  rw [h.pending] at ht
  cases ht

theorem owes_held {Q : World Ir → Prop}
    (hQ : ∀ w w', F.Aside w w' → w.Over → Q w → Q w') :
    Owes (F.main node cloud allow) node allow (F.Held Q) where
  pre q w hread h := ⟨h.good, fun he => by rw [hread] at he; cases he⟩
  answer _ _ _ _ h := h
  rely w w' h hr := by
    obtain ⟨hg, ha⟩ := hr h.good
    exact ⟨⟨hg, ha.quiet' h.quiet, ha.pending.trans h.pending, hQ w w' ha h.quiet h.holds⟩, ha.log⟩
  keep w w' _ h' hext := ⟨h'.good, .inl hext.tasks⟩

/-- A step that leaves the tasks and the pending delivery alone. -/
theorem Held.step {Q Q' : World Ir → Prop} (h : F.Held Q w) (hinv : F.inv w') (hQ : Q' w')
    (htasks : w'.tasks = w.tasks)
    (hpending : w'.self.pending_batch_delivery = w.self.pending_batch_delivery) :
    F.Held Q' w' :=
  ⟨h.good.of_tasks hinv htasks, h.quiet.of_tasks htasks, hpending.trans h.pending, hQ⟩

theorem owes_between (hP : F.Patient) :
    Owes (F.main node cloud allow) node allow (F.Between) where
  pre q w hread h := ⟨h.good, fun he => by rw [hread] at he; cases he⟩
  answer _ _ _ _ h := h
  rely w w' h hr := by
    obtain ⟨hg, ha⟩ := hr h.good
    exact ⟨h.aside hP hg ha, ha.log⟩
  keep w w' _ h' hext := ⟨h'.good, .inl hext.tasks⟩

/-- A delivery is created while no task is left over. -/
theorem Held.launch {Q : World Ir → Prop} (h : F.Held Q w) (ht : t.is_batch = true)
    (hinv : F.inv (w.create_task t)) (hbusy : F.busy (w.create_task t)) :
    (F.main node cloud allow).keep w (w.create_task t) ∧
      F.Out w.tasks.length (w.create_task t) := by
  have hlaunch : (w.create_task t).InOrder ∧ (w.create_task t).Latest w.tasks.length :=
    World.InOrder.launch h.quiet ht rfl
  obtain ⟨horder, hlatest⟩ := hlaunch
  exact ⟨⟨⟨hinv, horder⟩, .inr ⟨h.quiet, t, ht, rfl⟩⟩, ⟨⟨hinv, horder⟩, hlatest, hbusy⟩⟩

/-- A batch that has been delivered leaves nothing over. -/
theorem Between.join (hP : F.Patient) {k : Nat} (h : F.Between w)
    (hk : w.self.pending_batch_delivery = some k) :
    (F.main node cloud allow).wp (do
        alone (.join k)
        Co.update (·.set_self ({ · with pending_batch_delivery := none })) : Prog Ir Unit)
      (fun r w' => match r with
        | .ok _ => F.Alone w'
        | .error _ => F.Between w') w := by
  refine (Contract.wp_bind _ _ _ _).2 ((Contract.wp_call _ _ _).2
    ⟨⟨h.good, fun he => by cases he⟩, fun w₁ hr r w₂ ha => ?_⟩)
  obtain ⟨hg, haside⟩ := hr h.good
  have h₁ := h.aside hP hg haside
  have hk₁ : w₁.self.pending_batch_delivery = some k := haside.pending.trans hk
  have hans := Answered.of_answers ha.1
  have hself : w₂.self.pending_batch_delivery = w₁.self.pending_batch_delivery := by
    rw [hans.self]
  have hpass : Passes w₁ w₂ := hans.passes rfl
  have h₂ := h₁.passes hP hpass hself
  refine ⟨⟨h₂.good, .inl hans.tasks⟩, ?_⟩
  cases r with
  | error e => exact h₂
  | ok v =>
      obtain ⟨w₃, ⟨hdone, rfl⟩, rfl⟩ := answers_ok.1 ha.1
      obtain ⟨hlatest, hbusy⟩ := h₂.taken k (hself.trans hk₁)
      have hover := h₂.good.order.quiet hlatest hdone
      have hset := passes_pending
        (w₃.record (.ended ⟨none, .join k⟩ true (.ok v))) none
      have hgood := h₂.good.of_tasks (hP.inv _ _ hset h₂.good.inv) hset.tasks
      exact ⟨⟨hgood, .inl rfl⟩, hgood, hover, rfl,
        hP.step_rest _ _ hset (hP.settled _ h₂.good hover hbusy)⟩

/-- The loop around the messages, given what serves a message and a batch. -/
theorem loops (hP : F.Patient) {J : World Ir → Prop}
    (hS : Serves (F.main node cloud allow) node allow (F.Alone) J)
    (hbatch : ∀ ms w, F.Alone w → (F.main node cloud allow).wp (process_batch node ms)
      (fun r w' => match r with
        | .ok none => F.Alone w'
        | .ok (some t) => F.Out t w'
        | .error e => F.Alone w' ∨ Abandoned J e w') w) :
    Loops (F.main node cloud allow) node allow (F.Alone) J (F.Between)
      (F.Out) := {
  hS with
  errand := fun f hf w h => by
    obtain ⟨hp, hsame⟩ := hf.passes w
    exact h.step (hP.inv _ _ hp h.good.inv) (hP.step_rest _ _ hp h.holds) hp.tasks hsame
  batch := fun _ => hbatch
  pending := fun k w h => by
    have hset := passes_pending w (some k)
    have hgood := h.good.of_tasks (hP.inv _ _ hset h.good.inv) hset.tasks
    refine ⟨⟨hgood, .inl rfl⟩, hgood, (fun hn => by cases hn), fun k' hk' => ?_⟩
    cases hk'
    exact ⟨h.latest, hP.step_busy _ _ hset h.busy⟩
  top_of := fun w h => h.between
  top_owes := owes_between hP
  top_errand := fun f hf w h => h.passes hP (hf.passes w).1 (hf.passes w).2
  read := fun count w h => ⟨h.good, fun _ => h⟩
  top_read := fun count w r w' h hans _ => by
    have ha := Answered.of_answers hans
    exact h.passes hP (ha.passes rfl) (by rw [ha.self])
  top_sleep := fun secs w r w' h hans _ => by
    have ha := Answered.of_answers hans
    exact h.passes hP (ha.passes rfl) (by rw [ha.self])
  rest := fun w h hn => ⟨h.good, (h.free hn).1, hn, (h.free hn).2⟩
  join := fun k w h hk => h.join hP hk }

end Fleet

end CodaNode
