/-
`Consumer/Delivery.lean` -- batches are delivered in order.

Whatever begins on the executor or for a recovery begins when no delivery task is left over,
for every node, schedule and fault. A delivery that fails while its siblings are still
running ends the matter differently: the loop never gets past it again.
-/
import CodaNode.Consumer.FleetLoop
import CodaNode.Consumer.Sample

set_option autoImplicit false

open Coroutine

namespace CodaNode

variable {Ir : Type} {node : Node Ir} {w w' : World Ir} {m : Message} {α : Type}
variable {cloud : (String → Option String) → (String → Option String) → Prop}
variable {allow : (q : Req Ir) → World Ir → Except Exn q.Reply → Prop}

/-- Every executor call and every recovery began when all tasks had ended. -/
def Ordered (log : List (Entry Ir)) : Prop :=
  ∀ x ∈ log, ∀ s runs tasks, x.event = .mark (.starting s runs tasks) → tasks = []

theorem Ordered.cons {log : List (Entry Ir)} {x : Entry Ir} (h : Ordered log)
    (hx : x.event.begins = false) : Ordered (x :: log) := by
  intro y hy s runs tasks he
  rcases List.mem_cons.1 hy with rfl | hy
  · rw [he] at hx
    cases hx
  · exact h y hy s runs tasks he

theorem Ordered.starts (h : Ordered w.log) (hover : w.Over) (s : Start) :
    Ordered (w.starts s).log := by
  intro y hy s' runs tasks he
  rcases List.mem_cons.1 hy with rfl | hy
  · cases he
    exact hover.unfinished
  · exact h y hy s' runs tasks he

theorem Ordered.answered (h : Ordered w.log) {q : Req Ir} {r : Except Exn q.Reply}
    (ha : Answered q r w w') : Ordered w'.log := by
  obtain ⟨took, hl⟩ := ha.log
  rw [hl]
  exact h.cons rfl

/-- The deliveries, one batch at a time, and nothing else. -/
def convoy (Ir : Type) : Fleet Ir where
  inv w := Ordered w.log
  away _ _ := True
  ended _ _ _ := True
  rest _ := True
  busy _ := True

/-- The loop between two messages. -/
abbrev Free (w : World Ir) : Prop := (convoy Ir).Alone w

/-- Nothing is asked of a pending delivery. -/
abbrev Launched (t : Nat) (w : World Ir) : Prop := (convoy Ir).Out t w

theorem Passes.ordered (h : Passes w w') (hw : Ordered w.log) : Ordered w'.log := by
  rcases h.log with hl | ⟨x, hx, hl⟩
  · rwa [hl]
  · rw [hl]
    refine hw.cons ?_
    cases hev : x.event with
    | mark y =>
        rw [hev] at hx
        cases y <;> first | rfl | cases hx
    | _ => rfl

theorem convoy_patient : (convoy Ir).Patient where
  inv _ _ hp := hp.ordered
  step_rest _ _ _ _ := trivial
  step_busy _ _ _ _ := trivial
  rest_aside _ _ _ _ _ := trivial
  busy_aside _ _ _ _ := trivial
  settled _ _ _ _ := trivial

/-! ## The loop -/

/-- A step of a handler: something begins, or nothing does. -/
def Conducts (f : World Ir → World Ir) : Prop :=
  (∃ s, f = fun w => w.starts s) ∨ Plain (fun e : Event Ir => e.begins = false) (fun _ _ => True) f

theorem Conducts.permits : Permits (Conducts : (World Ir → World Ir) → Prop) where
  look := .inr (Plain.id fun _ => trivial)
  flags _ hf _ := .inr (Plain.set_self (fun _ => trivial) hf)
  mark x hx := by
    refine .inr (Plain.record (fun _ => trivial) ?_)
    cases x <;> first | rfl | cases hx
  starts s := .inl ⟨s, rfl⟩
  exec f := .inr (Plain.set_exec (fun _ => trivial) f)
  self _ hf := .inr (Plain.set_self (fun _ => trivial) hf)

theorem Conducts.enter (r : Region) : Conducts (fun w : World Ir => w.enter r) :=
  .inr (Plain.enter fun _ => trivial)

theorem Conducts.post (q : Req Ir) : Conducts (fun w : World Ir => w.record (.started q)) :=
  .inr (Plain.record (fun _ => trivial) rfl)

theorem Free.conducts {f : World Ir → World Ir} (hf : Conducts f) (h : Free w) :
    Free (f w) ∧ w.Extends (f w) := by
  rcases hf with ⟨s, rfl⟩ | hf
  · exact ⟨h.step (h.good.inv.starts h.quiet s) trivial rfl rfl, .of_tasks rfl (List.suffix_cons _ _)⟩
  · refine ⟨h.step ?_ trivial (hf.tasks w) (hf.shared w).2.2, .of_tasks (hf.tasks w) (hf.grows w)⟩
    show Ordered (f w).log
    rcases hf.log w with hl | ⟨e, he, hl⟩
    · rw [hl]
      exact h.good.inv
    · rw [hl]
      exact Ordered.cons h.good.inv he

theorem Free.answered (h : Free w) {q : Req Ir} {r : Except Exn q.Reply}
    (ha : Answered q r w w') : Free w' :=
  h.step (h.good.inv.answered ha) trivial ha.tasks (by rw [ha.self])

section Loop

/-- What the loop owes and may rely on. -/
abbrev leading (node : Node Ir)
    (cloud : (String → Option String) → (String → Option String) → Prop)
    (allow : (q : Req Ir) → World Ir → Except Exn q.Reply → Prop) :
    Contract (World Ir) (@Req.Reply Ir) Exn := (convoy Ir).main node cloud allow

theorem owes_free : Owes (leading node cloud allow) node allow Free :=
  Fleet.owes_held fun _ _ _ _ _ => trivial

/-- Code made for a message. -/
theorem free_within {p : Prog Ir α} (hp : Within Conducts (For m) p) :
    (leading node cloud allow).Keeps Free p :=
  owes_free.within (fun _ hf _ h => h.conducts hf) (fun _ hq => Call.not_read_of_prompt hq.2.1)
    (fun _ _ _ _ _ h hans _ => h.answered (Answered.of_answers hans)) hp

theorem free_serves :
    Serves (leading node cloud allow) node allow Free (fun _ => False) where
  owes := owes_free
  call _ _ _ _ _ _ h hans _ := h.answered (Answered.of_answers hans)
  recovery _ h := (h.conducts (.inl ⟨_, rfl⟩)).1
  message _ := Contract.Keeps.unless
    (free_within (handling_process_message Conducts.permits Conducts.enter Conducts.post))

theorem free_batch (ms : List Message) (h : Free w) :
    (leading node cloud allow).wp (process_batch node ms) (fun r w' => match r with
      | .ok none => Free w'
      | .ok (some t) => Launched t w'
      | .error e => Free w' ∨ Abandoned (fun _ => False) e w') w := by
  have hmark : ∀ x, (Event.mark x : Event Ir).begins = false →
      Conducts (fun w : World Ir => w.record (.mark x)) := fun x hx =>
    .inr (Plain.record (fun _ => trivial) hx)
  have hstep : ∀ {f : World Ir → World Ir}, Conducts f →
      (leading node cloud allow).Keeps Free (Co.update f : Prog Ir Unit) := fun hf =>
    owes_free.update fun _ h => h.conducts hf
  have herr : ∀ (e : Exn) (w' : World Ir), Free w' →
      Free w' ∨ Abandoned (fun _ => False) e w' := fun _ _ => .inl
  have hfall : ∀ w₁, Free w₁ → (leading node cloud allow).wp (fall_back node ms)
      (fun r w' => match r with
        | .ok none => Free w'
        | .ok (some t) => Launched t w'
        | .error e => Free w' ∨ Abandoned (fun _ => False) e w') w₁ := by
    intro w₁ h₁
    refine (hstep (hmark _ rfl)).wp_bind h₁ herr fun _ w₂ h₂ => ?_
    refine (Contract.wp_bind _ _ _ _).2
      (Contract.wp_mono (free_serves.process_each ms w₂ h₂) fun r w₃ h₃ => ?_)
    rcases h₃ with h₃ | ⟨e, -, -, hJ⟩
    · cases r with
      | ok u => exact h₃
      | error e => exact .inl h₃
    · exact hJ.elim
  refine (hstep (hmark _ rfl)).wp_bind h herr fun _ w₁ h₁ => ?_
  have hexamine : (leading node cloud allow).Keeps Free (examine_all node ms) :=
    keeps_examine_all (fun _ => free_within
      (handling_examine Conducts.permits.look (Conducts.permits.mark _ rfl))) ms
  refine hexamine.wp_bind h₁ herr fun parsed w₂ h₂ => ?_
  split
  · exact h₂
  · have hbusy : (leading node cloud allow).Keeps Free
        (Co.update (·.set_self ({ · with idle := false })) : Prog Ir Unit) :=
      hstep (Conducts.permits.self _ fun _ => ⟨rfl, rfl, rfl⟩)
    refine hbusy.wp_bind h₂ herr fun _ w₃ h₃ => ?_
    refine (owes_free.mark_executing (fun _ _ _ => free_within (Before.within inner_hset)) parsed).wp_bind h₃ herr fun _ w₄ h₄ => ?_
    cases node.batch_run with
    | none => exact hfall w₄ h₄
    | some f =>
        have hrun : (leading node cloud allow).Keeps Free (run_batch parsed) :=
          owes_free.run_batch (fun k _ h => (h.conducts (.inl ⟨.batch k, rfl⟩)).1)
            (fun _ f h => (h.conducts (Conducts.permits.exec f)).1)
            fun _ _ _ _ _ h hans _ => h.answered (Answered.of_answers hans)
        refine hrun.attempt.wp_bind h₄ herr fun results w₅ h₅ => ?_
        cases results with
        | error e => cases e <;> first | exact hfall w₅ h₅ | exact .inl h₅
        | ok results =>
            exact h₅.launch (t := .deliver_batch_results parsed results) rfl h₅.good.inv trivial

theorem free_loops : Loops (leading node cloud allow) node allow Free (fun _ => False)
    (convoy Ir).Between Launched :=
  Fleet.loops convoy_patient free_serves fun ms _ h => free_batch ms h

end Loop

/-! ## The consumer -/

theorem convoy_carries : (convoy Ir).Carries node allow where
  refl _ := trivial
  post _ _ _ _ h := ⟨h.1.inv.cons rfl, trivial⟩
  create _ _ _ _ _ h := ⟨h.1.inv, trivial⟩
  last_job_at _ _ _ _ h := ⟨h.1.inv, trivial⟩
  idle _ _ _ _ _ h _ := ⟨h.1.inv, trivial⟩
  call _ _ _ _ _ _ h _ hans _ := ⟨h.1.inv.answered (Answered.of_answers hans), trivial⟩

theorem convoy_sound : (convoy Ir).Sound node cloud allow where
  refl _ := trivial
  trans _ _ _ _ _ := trivial
  drift w w' h hd := by
    refine ⟨?_, trivial⟩
    show Ordered w'.log
    rw [Drift.log hd]
    exact h
  finish i t r w h := ⟨h.good.inv, trivial⟩
  body i t w hg hl hlen := Fleet.Carries.body convoy_carries
    (fun _ _ _ _ _ Q hwp => Contract.wp_mono hwp fun _ _ h => ⟨h, trivial⟩) hg hl hlen
  round w h := by
    refine Contract.wp_mono (free_loops.iteration w h) fun r w' h' hr => ?_
    rcases h' with h' | ⟨e, he, -⟩
    · exact h'
    · rw [hr] at he
      cases he

/-- **Batches are delivered in order**: whenever an executor call or a recovery begins, every
delivery has ended, and only the last batch has deliveries left over. -/
theorem batches_delivered_in_order {w : World Ir} (hw : Fresh w)
    {x : Pool (World Ir) (@Req.Reply Ir) Exn} (hx : Reaches node cloud allow w x) :
    Ordered x.state.log ∧ x.state.InOrder := by
  have hempty : Ordered w.log := by
    rw [hw.log]
    exact fun x hx => by cases hx
  have hshows : (convoy Ir).Shows x := by
    refine convoy_sound.run hw hempty (fun hgood => ?_) hx
    have hfree : Free w := by
      refine ⟨hgood, fun j u hj => ?_, by rw [hw.self], trivial⟩
      rw [World.Live, hw.tasks] at hj
      cases hj
    refine Contract.wp_mono (free_loops.startup hfree) fun r w' h hr => ?_
    rcases h with h | ⟨e, he, -⟩
    · exact h
    · rw [hr] at he
      cases he
  exact ⟨hshows.good.inv, hshows.good.order⟩

/-- Two jobs for one batch, which succeeds. -/
def delivery_world : World String :=
  sample_world [sample_message "1-0" "job-1" sample_ir, sample_message "2-0" "job-2" sample_ir]

def delivery_node : Node String :=
  sample_node (.runs 0 (.ok sample_result)) (some fun _ jobs => .ok (jobs.map fun _ => sample_result))

set_option maxRecDepth 40000 in
/-- A batch of two, with both deliveries under way. -/
theorem batch_delivered_in_order :
    ∃ x, Reaches delivery_node sets_only not_cancelled delivery_world x ∧
      (Ordered x.state.log ∧ x.state.InOrder) ∧ x.state.unfinished = [0, 1, 2] ∧
      ∃ y ∈ x.state.log, y.event = .mark (.starting (.batch 0) [] []) := by
  suffices hx : ∃ x, Reaches delivery_node sets_only not_cancelled delivery_world x ∧
      x.state.unfinished = [0, 1, 2] ∧ ∃ y₀ y₁ y earlier, x.state.log = y₀ :: y₁ :: y :: earlier ∧
        y.event = .mark (.starting (.batch 0) [] []) by
    obtain ⟨x, hrun, htasks, y₀, y₁, y, earlier, hlog, hy⟩ := hx
    refine ⟨x, hrun, batches_delivered_in_order (sample_world_fresh _) hrun, htasks, y, ?_, hy⟩
    rw [hlog]
    exact List.mem_cons_of_mem _ (List.mem_cons_of_mem _ List.mem_cons_self)
  have hok : ∀ (q : Req String) (w : World String) (v : q.Reply), not_cancelled q w (.ok v) :=
    fun q w v he => by cases he
  refine Kernel.exists_run_of_main _ (r := .ok ()) rfl
    ⟨answers_ok.2 ⟨_, ⟨rfl, rfl⟩, rfl⟩, hok _ _ _⟩ ?_
  refine Kernel.exists_run_of_main _ (r := .ok []) rfl
    ⟨answers_ok.2 ⟨_, ⟨rfl, rfl⟩, rfl⟩, hok _ _ _⟩ ?_
  refine Kernel.exists_run_of_main _ (r := .ok [(delivery_node.stream, [_, _])]) rfl
    ⟨answers_ok.2 ⟨_, ⟨2, by decide, rfl, rfl⟩, rfl⟩, hok _ _ _⟩ ?_
  refine Kernel.exists_run_of_main _ (r := .ok none) rfl
    ⟨answers_ok.2 ⟨_, ⟨rfl, rfl⟩, rfl⟩, hok _ _ _⟩ ?_
  refine Kernel.exists_run_of_main _ (r := .ok none) rfl
    ⟨answers_ok.2 ⟨_, ⟨rfl, rfl⟩, rfl⟩, hok _ _ _⟩ ?_
  refine Kernel.exists_run_of_main _ (r := .ok none) rfl
    ⟨answers_ok.2 ⟨_, ⟨rfl, rfl⟩, rfl⟩, hok _ _ _⟩ ?_
  refine Kernel.exists_run_of_main _ (r := .ok none) rfl
    ⟨answers_ok.2 ⟨_, ⟨rfl, rfl⟩, rfl⟩, hok _ _ _⟩ ?_
  refine Kernel.exists_run_of_main _ (r := .ok ()) rfl
    ⟨answers_ok.2 ⟨_, rfl, rfl⟩, hok _ _ _⟩ ?_
  refine Kernel.exists_run_of_main _ (r := .ok ()) rfl
    ⟨answers_ok.2 ⟨_, rfl, rfl⟩, hok _ _ _⟩ ?_
  refine Kernel.exists_run_of_main _ (r := .ok [sample_result, sample_result]) rfl
    ⟨answers_ok.2 ⟨_, ⟨⟨_, rfl, rfl⟩, rfl⟩, rfl⟩, hok _ _ _⟩ ?_
  -- the delivery takes its first turn
  refine Kernel.exists_run_of_task _ 0 (r := .ok ()) rfl
    ⟨answers_ok.2 ⟨_, rfl, rfl⟩, hok _ _ _⟩ ?_
  exact ⟨_, .refl, rfl, _, _, _, _, rfl, rfl⟩

end CodaNode
