/-
`Consumer/FleetJobs.lean` -- the jobs of the loop and of its deliveries, undisturbed.

While Redis answers and nobody cancels, a job that the loop takes on goes through the same
stages every time: it is taken on, begun, run and released, or it is marked with its batch and
handed to a delivery. `Staged` lists what a fleet has to show of each stage; what follows for
the loop is shown once here. A delivery that is left alone succeeds.
-/
import CodaNode.Consumer.FleetLoop
import CodaNode.Consumer.Single
import CodaNode.Consumer.Calm

set_option autoImplicit false

open Coroutine

namespace CodaNode

variable {Ir : Type} {node : Node Ir} {w w' : World Ir} {m : Message} {job_id url : String}
variable {α : Type}
variable {cloud : (String → Option String) → (String → Option String) → Prop}

/-- `_process_batch` falls back to the single path. -/
def Event.falls_back : Event Ir → Bool
  | .mark (.falling_back _) => true
  | _ => false

/-- A job is marked as executing: it has passed the checks. -/
def Event.begins_job : Event Ir → Bool
  | .ended q _ (.ok _) => q.call.begins_job
  | _ => false

/-- `batch_run` returns one result for each job. -/
def OnePerJob (node : Node Ir) : Prop :=
  ∀ f k jobs results, node.batch_run = some f → f k jobs = .ok results →
    results.length = jobs.length

/-! ## Steps -/

/-- A step of a handler that is no fallback. -/
abbrev Stirring : (World Ir → World Ir) → Prop :=
  Plain (fun e : Event Ir => e.falls_back = false ∧ e.begins_job = false) fun _ _ => True

/-- A step of a handler that leaves the idle event and the job in hand alone. -/
structure Idling (f : World Ir → World Ir) : Prop where
  plain : Stirring f
  idle : ∀ w, (f w).self.idle = w.self.idle
  current : ∀ w, (f w).self.current_job_id = w.self.current_job_id

/-- Nothing but one line of the log, which neither begins a job nor falls back. -/
structure Mild (w w' : World Ir) : Prop where
  tasks : w'.tasks = w.tasks
  pending : w'.self.pending_batch_delivery = w.self.pending_batch_delivery
  idle : w'.self.idle = w.self.idle
  current : w'.self.current_job_id = w.self.current_job_id
  log : w'.log = w.log ∨ ∃ x : Entry Ir, x.event.falls_back = false ∧
    x.event.begins_job = false ∧ w'.log = x :: w.log

theorem Mild.extends (h : Mild w w') : w.Extends w' := by
  refine .of_tasks h.tasks ?_
  rcases h.log with hl | ⟨x, -, -, hl⟩
  · exact ⟨[], hl.symm⟩
  · exact ⟨[x], hl.symm⟩

theorem Idling.mild {f : World Ir → World Ir} (hf : Idling f) (w : World Ir) : Mild w (f w) where
  tasks := hf.plain.tasks w
  pending := (hf.plain.shared w).2.2
  idle := hf.idle w
  current := hf.current w
  log := (hf.plain.log w).imp_right fun ⟨_, he, hl⟩ => ⟨_, he.1, he.2, hl⟩

theorem Answered.mild {q : Req Ir} {r : Except Exn q.Reply} (hq : q.call.begins_job = false)
    (ha : Answered q r w w') : Mild w w' := by
  obtain ⟨took, hl⟩ := ha.log
  refine ⟨ha.tasks, by rw [ha.self], by rw [ha.self], by rw [ha.self], .inr ⟨_, rfl, ?_, hl⟩⟩
  cases r with
  | ok v => exact hq
  | error e => rfl

/-- The lines that the loop itself writes. -/
theorem Passes.quiet (h : Passes w w') : w'.log = w.log ∨ ∃ x : Entry Ir,
    x.event.falls_back = false ∧ x.event.begins_job = false ∧ w'.log = x :: w.log := by
  refine h.log.imp_right fun ⟨x, hx, hl⟩ => ⟨x, ?_, ?_, hl⟩
  · cases hev : x.event with
    | mark y =>
        rw [hev] at hx
        cases y <;> first | rfl | cases hx
    | _ => rfl
  · cases hev : x.event with
    | ended q took r =>
        rw [hev] at hx
        obtain ⟨msg, c⟩ := q
        cases r with
        | error e => rfl
        | ok v => cases c <;> first | rfl | cases hx
    | _ => rfl

namespace Idling

theorem look : Idling (id : World Ir → World Ir) :=
  ⟨Plain.id fun _ => trivial, fun _ => rfl, fun _ => rfl⟩

theorem enter (r : Region) : Idling (fun w : World Ir => w.enter r) :=
  ⟨Plain.enter fun _ => trivial, fun _ => rfl, fun _ => rfl⟩

theorem mark {x : Mark} (hx : (Event.mark x : Event Ir).falls_back = false) :
    Idling (fun w : World Ir => w.record (.mark x)) :=
  ⟨Plain.record (fun _ => trivial) ⟨hx, rfl⟩, fun _ => rfl, fun _ => rfl⟩

theorem starts (s : Start) : Idling (fun w : World Ir => w.starts s) :=
  ⟨Plain.starts (fun _ => trivial) fun _ _ _ => ⟨rfl, rfl⟩, fun _ => rfl, fun _ => rfl⟩

theorem set_exec (f : Exec → Exec) : Idling (fun w : World Ir => w.set_exec f) :=
  ⟨Plain.set_exec (fun _ => trivial) f, fun _ => rfl, fun _ => rfl⟩

theorem post (q : Req Ir) : Idling (fun w : World Ir => w.record (.started q)) :=
  ⟨Plain.record (fun _ => trivial) ⟨rfl, rfl⟩, fun _ => rfl, fun _ => rfl⟩

theorem runs : Runs (Idling : (World Ir → World Ir) → Prop) where
  look := look
  starts := starts
  exec := set_exec
  last_job_at _ := ⟨Plain.set_self (fun _ => trivial) fun _ => ⟨rfl, rfl, rfl⟩, fun _ => rfl,
    fun _ => rfl⟩

end Idling

theorem Call.not_begins_of_not_prompt {c : Call Ir} (h : c.prompt = false) :
    c.begins_job = false := by
  cases c <;> first | rfl | cases h

/-! ## The stages of a job -/

/-- What is known of the loop while it has jobs in hand: of a message that has been taken on,
of one whose job has been begun, and of a batch with the jobs that are yet to be begun. -/
structure Stages (Ir : Type) where
  taken : Message → World Ir → Prop
  begun : Message → World Ir → Prop
  marking : List (Parsed Ir) → List (Parsed Ir) → World Ir → Prop

namespace Fleet

variable (F : Fleet Ir)

/-- What a fleet has to show of each stage. -/
structure Staged (F : Fleet Ir) (S : Stages Ir) : Prop where
  patient : F.Patient
  rest_mild : ∀ w w', Mild w w' → F.Alone w → F.inv w' ∧ F.rest w'
  -- a message by itself
  take : ∀ m job_id w, F.Alone w →
    F.inv (w.set_self ({ · with idle := false, current_job_id := some job_id })) ∧
      S.taken m (w.set_self ({ · with idle := false, current_job_id := some job_id }))
  taken_aside : ∀ m w w', F.Aside w w' → w.Over → S.taken m w → S.taken m w'
  begin_job : ∀ m job_id mapping w w', record_state mapping = some "executing" →
    F.Held (S.taken m) w → Answered ⟨some m, .hset (status_key job_id) mapping⟩ (.ok ()) w w' →
    F.inv w' ∧ S.begun m w'
  begun_aside : ∀ m w w', F.Aside w w' → w.Over → S.begun m w → S.begun m w'
  begun_mild : ∀ m w w', Mild w w' → F.Held (S.begun m) w → F.inv w' ∧ S.begun m w'
  begun_answer : ∀ m (q : Req Ir) r w w', For m q → Answered q r w w' → F.Held (S.begun m) w →
    F.inv w' ∧ S.begun m w'
  release : ∀ m w w', F.Held (S.begun m) w → Answered ⟨some m, .xack m.id⟩ (.ok ()) w w' →
    F.inv (w'.set_self ({ · with current_job_id := none, idle := true })) ∧
      F.rest (w'.set_self ({ · with current_job_id := none, idle := true }))
  -- a batch
  clear : ∀ parsed w, parsed ≠ [] → F.Alone w → F.inv (w.set_self ({ · with idle := false })) ∧
    S.marking parsed parsed (w.set_self ({ · with idle := false }))
  marking_aside : ∀ parsed todo w w', F.Aside w w' → w.Over → S.marking parsed todo w →
    S.marking parsed todo w'
  mark : ∀ parsed job todo mapping w w', job ∈ parsed → record_state mapping = some "executing" →
    F.Held (S.marking parsed (job :: todo)) w →
    Answered ⟨some job.msg, .hset (status_key job.job_id) mapping⟩ (.ok ()) w w' →
    F.inv w' ∧ S.marking parsed todo w'
  marking_mild : ∀ parsed w w', Mild w w' → F.Held (S.marking parsed []) w →
    F.inv w' ∧ S.marking parsed [] w'
  fall_back : ∀ parsed ms w, F.Held (S.marking parsed []) w →
    F.inv (w.record (.mark (.falling_back ms))) ∧ F.rest (w.record (.mark (.falling_back ms)))
  launch : ∀ parsed results w, results.length = parsed.length →
    F.Held (S.marking parsed []) w →
    F.inv (w.create_task (.deliver_batch_results parsed results)) ∧
      F.busy (w.create_task (.deliver_batch_results parsed results))

namespace Staged

variable {F} {S : Stages Ir} (hS : F.Staged S)
include hS

/-! ## A message -/

theorem owes_rest : Owes (F.main node cloud undisturbed) node undisturbed F.Alone :=
  owes_held hS.patient.rest_aside

theorem owes_begun : Owes (F.main node cloud undisturbed) node undisturbed (F.Held (S.begun m)) :=
  owes_held (hS.begun_aside m)

theorem rest_step (h : F.Alone w) (hm : Mild w w') : F.Alone w' := by
  obtain ⟨hinv, hrest⟩ := hS.rest_mild w w' hm h
  exact h.step hinv hrest hm.tasks hm.pending

theorem begun_step (h : F.Held (S.begun m) w) (hm : Mild w w') : F.Held (S.begun m) w' := by
  obtain ⟨hinv, hbegun⟩ := hS.begun_mild m w w' hm h
  exact h.step hinv hbegun hm.tasks hm.pending

theorem marking_step {parsed : List (Parsed Ir)} (h : F.Held (S.marking parsed []) w)
    (hm : Mild w w') : F.Held (S.marking parsed []) w' := by
  obtain ⟨hinv, hmarking⟩ := hS.marking_mild parsed w w' hm h
  exact h.step hinv hmarking hm.tasks hm.pending

/-- Code for a message that begins no job. -/
theorem rest_within {p : Prog Ir α} (hp : Within Idling (Skips m) p) :
    (F.main node cloud undisturbed).Keeps F.Alone p :=
  hS.owes_rest.within (fun _ hf w h => ⟨hS.rest_step h (hf.mild w), (hf.mild w).extends⟩)
    (fun _ hq => Call.not_read_of_prompt hq.1.2.1)
    (fun _ hq _ _ _ h hans _ => hS.rest_step h ((Answered.of_answers hans).mild hq.2)) hp

/-- Code for a message, once its job has been begun. -/
theorem begun_within {p : Prog Ir α} (hp : Within Idling (For m) p) :
    (F.main node cloud undisturbed).Keeps (F.Held (S.begun m)) p := by
  refine hS.owes_begun.within
    (fun f hf w h => ⟨hS.begun_step h (hf.mild w), (hf.mild w).extends⟩)
    (fun _ hq => Call.not_read_of_prompt hq.2.1) (fun q hq w r w' h hans _ => ?_) hp
  have ha := Answered.of_answers hans
  obtain ⟨hinv, hbegun⟩ := hS.begun_answer m q r w w' hq ha h
  exact h.step hinv hbegun ha.tasks (by rw [ha.self])

omit hS in
/-- The record that begins a job is written. -/
theorem wp_begin {Q Q' : World Ir → Prop} (hQ : ∀ w w', F.Aside w w' → w.Over → Q w → Q w')
    {mapping : List (String × String)} (hnext : ∀ w w', F.Held Q w →
      Answered ⟨some m, .hset (status_key job_id) mapping⟩ (.ok ()) w w' → F.inv w' ∧ Q' w')
    (h : F.Held Q w) {P : Except Exn Bool → World Ir → Prop}
    (hP : ∀ w', F.Held Q' w' → P (.ok true) w') :
    (F.main node cloud undisturbed).wp (safe_hset m (status_key job_id) mapping) P w := by
  have howes : Owes (F.main node cloud undisturbed) node undisturbed (F.Held Q) := owes_held hQ
  refine (Contract.wp_try_except _ _ _ _).2 ((Contract.wp_bind _ _ _ _).2
    ((Contract.wp_call _ _ _).2 ⟨howes.pre _ _ rfl h, fun w₁ hr r w₂ ha => ?_⟩))
  have h₁ := (howes.rely w w₁ h hr).1
  obtain ⟨v, rfl⟩ := ha.2.1.ok rfl (by simp)
  have hans := Answered.of_answers ha.1
  obtain ⟨hinv, hQ'⟩ := hnext w₁ w₂ h₁ hans
  have h₂ : F.Held Q' w₂ := h₁.step hinv hQ' hans.tasks (by rw [hans.self])
  exact ⟨⟨h₂.good, .inl hans.tasks⟩, hP w₂ h₂⟩

/-- The `finally` clause. -/
theorem wp_release (h : F.Held (S.begun m) w) :
    (F.main node cloud undisturbed).wp (CodaNode.release m)
      (fun r w' => r = .ok () ∧ F.Alone w') w := by
  have h₁ : F.Held (S.begun m) (w.enter .cleanup) :=
    hS.begun_step h ((Idling.enter _).mild w)
  refine (Contract.wp_bind _ _ _ _).2 ⟨⟨h₁.good, .inl rfl⟩, ?_⟩
  refine (Contract.wp_bind _ _ _ _).2 ((Contract.wp_try_except _ _ _ _).2
    ((Contract.wp_bind _ _ _ _).2 ((Contract.wp_call _ _ _).2
      ⟨hS.owes_begun.pre _ _ rfl h₁, fun w₂ hr r w₃ ha => ?_⟩)))
  have h₂ := (hS.owes_begun.rely _ w₂ h₁ hr).1
  obtain ⟨v, rfl⟩ := ha.2.1.ok rfl (by simp)
  have hans := Answered.of_answers ha.1
  have h₃ : F.Held (S.begun m) w₃ := by
    obtain ⟨hinv, hbegun⟩ := hS.begun_mild m w₂ w₃ (hans.mild rfl) h₂
    exact h₂.step hinv hbegun hans.tasks (by rw [hans.self])
  refine ⟨⟨h₃.good, .inl hans.tasks⟩, ?_⟩
  obtain ⟨hinv, hrest⟩ := hS.release m w₂ w₃ h₂ hans
  have h₄ : F.Alone (w₃.set_self ({ · with current_job_id := none, idle := true })) :=
    h₃.step hinv hrest rfl rfl
  refine (Contract.wp_bind _ _ _ _).2 ⟨⟨h₄.good, .inl rfl⟩, ?_⟩
  have h₅ := hS.rest_step h₄ ((Idling.enter .outside).mild _)
  exact ⟨⟨h₅.good, .inl rfl⟩, rfl, h₅⟩

theorem keeps_take_on {decoded : List (String × String)} :
    (F.main node cloud undisturbed).Keeps F.Alone (take_on node m decoded job_id url) := by
  intro w hw
  obtain ⟨hinv, htaken⟩ := hS.take m job_id w hw
  have hset : F.Held (S.taken m)
      (w.set_self ({ · with idle := false, current_job_id := some job_id })) :=
    hw.step hinv htaken rfl rfl
  refine (Contract.wp_bind _ _ _ _).2 ⟨⟨hset.good, .inl rfl⟩, ?_⟩
  refine (Contract.wp_bind _ _ _ _).2 ⟨⟨hset.good, .inl rfl⟩, ?_⟩
  refine (Contract.wp_bind _ _ _ _).2 (wp_begin (hS.taken_aside m)
    (fun w w' => hS.begin_job m job_id _ w w' (record_state_executing node m _)) hset
    fun w₁ h₁ => ?_)
  have h₂ := hS.begun_step h₁ ((Idling.enter .body).mild w₁)
  have hjob : (F.main node cloud undisturbed).Keeps (F.Held (S.begun m))
      (Co.try_except (execute node m decoded job_id url) (on_exception node m job_id url)) :=
    hS.begun_within (Before.within ((inner_execute Idling.runs Idling.post).try_except
      fun e => inner_on_exception Idling.runs Idling.post (Idling.enter _) e))
  refine (Contract.wp_bind _ _ _ _).2 ⟨⟨h₂.good, .inl rfl⟩, ?_⟩
  refine (Contract.wp_try_finally _ _ _ _).2 (Contract.wp_mono (hjob _ h₂) fun r w₃ h₃ => ?_)
  refine Contract.wp_mono (hS.wp_release h₃) ?_
  rintro r' w₄ ⟨rfl, h₄⟩
  exact h₄

theorem serves : Serves (F.main node cloud undisturbed) node undisturbed F.Alone
    (fun _ => True) where
  owes := hS.owes_rest
  call _ _ hc _ _ _ h hans _ :=
    hS.rest_step h ((Answered.of_answers hans).mild (Call.not_begins_of_not_prompt hc))
  recovery w h := hS.rest_step h ((Idling.starts _).mild w)
  message _ := keeps_process_message Idling.look (Idling.enter _) (Idling.mark rfl)
    (fun hp => hS.rest_within hp) fun _ _ _ _ => hS.keeps_take_on.unless

/-! ## A batch -/

theorem wp_mark_executing {parsed : List (Parsed Ir)} (todo : List (Parsed Ir))
    (hsub : ∀ job ∈ todo, job ∈ parsed) (h : F.Held (S.marking parsed todo) w) :
    (F.main node cloud undisturbed).wp (mark_executing node todo)
      (fun r w' => r = .ok () ∧ F.Held (S.marking parsed []) w') w := by
  induction todo generalizing w with
  | nil => exact ⟨rfl, h⟩
  | cons job rest ih =>
      refine (Contract.wp_bind _ _ _ _).2 ⟨⟨h.good, .inl rfl⟩, ?_⟩
      refine (Contract.wp_bind _ _ _ _).2 (wp_begin (hS.marking_aside parsed (job :: rest))
        (fun w w' => hS.mark parsed job rest _ w w' (hsub job List.mem_cons_self)
          (record_state_batch_executing node _)) h fun w₁ h₁ => ?_)
      exact ih (fun job' hjob => hsub job' (List.mem_cons_of_mem _ hjob)) h₁

theorem wp_fall_back {parsed : List (Parsed Ir)} (ms : List Message)
    (h : F.Held (S.marking parsed []) w) :
    (F.main node cloud undisturbed).wp (CodaNode.fall_back node ms) (fun r w' => match r with
      | .ok none => F.Alone w'
      | .ok (some t) => F.Out t w'
      | .error e => F.Alone w' ∨ Abandoned (fun _ => True) e w') w := by
  obtain ⟨hinv, hrest⟩ := hS.fall_back parsed ms w h
  have h₁ : F.Alone (w.record (.mark (.falling_back ms))) := h.step hinv hrest rfl rfl
  refine (Contract.wp_bind _ _ _ _).2 ⟨⟨h₁.good, .inl rfl⟩, ?_⟩
  refine (Contract.wp_bind _ _ _ _).2
    (Contract.wp_mono (hS.serves.process_each ms _ h₁) fun r w₂ h₂ => ?_)
  cases r with
  | ok u =>
      rcases h₂ with h₂ | ⟨e, he, -⟩
      · exact h₂
      · cases he
  | error e => exact h₂.imp_right fun ⟨e', he, hJ⟩ => by cases he; exact hJ

theorem wp_run_batch (hnode : OnePerJob node) {parsed : List (Parsed Ir)}
    (h : F.Held (S.marking parsed []) w) :
    (F.main node cloud undisturbed).wp (run_batch parsed) (fun r w' =>
      F.Held (S.marking parsed []) w' ∧
        ∀ results, r = .ok results → results.length = parsed.length) w := by
  have howes : Owes (F.main node cloud undisturbed) node undisturbed
      (F.Held (S.marking parsed [])) := owes_held (hS.marking_aside parsed [])
  have h₁ := hS.marking_step h ((Idling.starts (.batch w.exec.batches)).mild w)
  have h₂ := hS.marking_step h₁
    ((Idling.set_exec fun x => { x with batches := x.batches + 1 }).mild _)
  refine (Contract.wp_bind _ _ _ _).2 ⟨⟨h.good, .inl rfl⟩, ?_⟩
  refine (Contract.wp_bind _ _ _ _).2 ⟨⟨h₁.good, .inl rfl⟩, ?_⟩
  refine (Contract.wp_bind _ _ _ _).2 ⟨⟨h₂.good, .inl rfl⟩, ?_⟩
  refine (Contract.wp_call _ _ _).2 ⟨howes.pre _ _ rfl h₂, fun w₃ hr r w₄ ha => ?_⟩
  have h₃ := (howes.rely _ w₃ h₂ hr).1
  have hans := Answered.of_answers ha.1
  have h₄ := hS.marking_step h₃ (hans.mild rfl)
  refine ⟨⟨h₄.good, .inl hans.tasks⟩, h₄, fun results hr => ?_⟩
  subst hr
  obtain ⟨w₅, ⟨⟨f, hf, hres⟩, -⟩, -⟩ := answers_ok.1 ha.1
  rw [hnode f _ _ _ hf hres, List.length_map]

theorem wp_process_batch (hnode : OnePerJob node) (ms : List Message) (h : F.Alone w) :
    (F.main node cloud undisturbed).wp (process_batch node ms) (fun r w' => match r with
      | .ok none => F.Alone w'
      | .ok (some t) => F.Out t w'
      | .error e => F.Alone w' ∨ Abandoned (fun _ => True) e w') w := by
  have hexamine : (F.main node cloud undisturbed).Keeps F.Alone (examine_all node ms) :=
    keeps_examine_all (fun _ => hS.rest_within (skips_examine Idling.look (Idling.mark rfl))) ms
  have h₁ := hS.rest_step h ((Idling.mark (x := .batching ms) rfl).mild w)
  refine (Contract.wp_bind _ _ _ _).2 ⟨⟨h₁.good, .inl rfl⟩, ?_⟩
  refine hexamine.wp_bind h₁ (fun _ _ => .inl) fun parsed w₂ h₂ => ?_
  split
  · exact h₂
  · next hparsed =>
      have hne : parsed ≠ [] := by simpa using hparsed
      obtain ⟨hinv, hmarking⟩ := hS.clear parsed w₂ hne h₂
      have h₃ : F.Held (S.marking parsed parsed) (w₂.set_self ({ · with idle := false })) :=
        h₂.step hinv hmarking rfl rfl
      refine (Contract.wp_bind _ _ _ _).2 ⟨⟨h₃.good, .inl rfl⟩, ?_⟩
      refine (Contract.wp_bind _ _ _ _).2
        (Contract.wp_mono (hS.wp_mark_executing parsed (fun _ hjob => hjob) h₃) ?_)
      rintro r w₄ ⟨rfl, h₄⟩
      rw [Contract.and_then_ok]
      cases hbatch : node.batch_run with
      | none => exact hS.wp_fall_back ms h₄
      | some f =>
          refine (Contract.wp_bind _ _ _ _).2 ((Contract.wp_attempt _ _ _).2
            (Contract.wp_mono (hS.wp_run_batch hnode h₄) ?_))
          rintro r w₅ ⟨h₅, hlen⟩
          cases r with
          | error e =>
              cases e <;> first
                | exact hS.wp_fall_back ms h₅
                | exact .inr ⟨rfl, trivial⟩
          | ok results =>
              obtain ⟨hinv, hbusy⟩ := hS.launch parsed results w₅ (hlen results rfl) h₅
              exact h₅.launch rfl hinv hbusy

/-- **The loop goes through the stages.** -/
theorem loops (hnode : OnePerJob node) : Loops (F.main node cloud undisturbed) node undisturbed
    F.Alone (fun _ => True) F.Between F.Out :=
  Fleet.loops hS.patient hS.serves fun ms _ h => hS.wp_process_batch hnode ms h

theorem round (hnode : OnePerJob node) (h : F.Between w) :
    (F.main node cloud undisturbed).wp (iteration node)
      (fun r w' => r = .ok () → F.Between w') w := by
  refine Contract.wp_mono ((hS.loops hnode).iteration w h) fun r w' h' hr => ?_
  rcases h' with h' | ⟨e, he, -⟩
  · exact h'
  · rw [hr] at he
    cases he

theorem start (hnode : OnePerJob node) (h : F.Alone w) :
    (F.main node cloud undisturbed).wp (startup node)
      (fun r w' => r = .ok () → F.Between w') w := by
  refine Contract.wp_mono ((hS.loops hnode).startup h) fun r w' h' hr => ?_
  rcases h' with h' | ⟨e, he, -⟩
  · exact h'
  · rw [hr] at he
    cases he

end Staged

end Fleet

/-! ## Deliveries that are left alone -/

/-- Every task that has ended has succeeded. -/
def Succeeded (w : World Ir) : Prop :=
  ∀ u ∈ w.tasks, u.1.matched = true ∧ ∀ r, u.2 = some r → r = .ok ()

theorem Succeeded.of_tasks (h : Succeeded w) (htasks : w'.tasks = w.tasks) : Succeeded w' := by
  rwa [Succeeded, htasks]

theorem Fresh.succeeded (hw : Fresh w) : Succeeded w := by
  rw [Succeeded, hw.tasks]
  exact fun u hu => by cases hu

/-- A task is created. -/
theorem Succeeded.create (h : Succeeded w) {t : TaskSpec Ir} (ht : t.matched = true) :
    Succeeded (w.create_task t) := by
  intro u hu
  rw [World.create_task_tasks] at hu
  rcases List.mem_append.1 hu with hu | hu
  · exact h u hu
  · rw [List.mem_singleton.1 hu]
    exact ⟨ht, fun r hr => by cases hr⟩

/-- A task ends, and it has succeeded. -/
theorem Succeeded.finish (h : Succeeded w) (i : Nat) : Succeeded (w.finish_task i (.ok ())) := by
  intro u hu
  obtain ⟨j, hj⟩ := List.mem_iff_getElem?.1 hu
  rw [finish_task_get] at hj
  obtain ⟨v, hv, rfl⟩ := Option.map_eq_some_iff.1 hj
  obtain ⟨hm, hv'⟩ := h v (List.mem_of_getElem? hv)
  split
  · refine ⟨hm, fun r' hr' => ?_⟩
    cases hv₂ : v.2 with
    | none => simp only [hv₂, Option.none_or, Option.some.injEq] at hr'; rw [← hr']
    | some r₂ => simp only [hv₂, Option.some_or, Option.some.injEq] at hr'; rw [← hr', hv' r₂ hv₂]
  · exact ⟨hm, hv'⟩

theorem Succeeded.not_failed (h : Succeeded w) {j : Nat} {e : Exn}
    (hj : w.outcome j = some (.error e)) : False := by
  obtain ⟨u, hu, hju⟩ := Option.bind_eq_some_iff.1 hj
  cases (h u (List.mem_of_getElem? hu)).2 _ hju

theorem TaskSpec.matched_of_single {t : TaskSpec Ir} (ht : t.is_batch = false) :
    t.matched = true := by
  cases t with
  | deliver_single_batch_result _ _ _ _ _ => rfl
  | deliver_batch_results _ _ => cases ht

theorem World.delivering_create {t : TaskSpec Ir} (ht : t.is_batch = false) :
    (w.create_task t).Delivering ↔ w.Delivering := by
  have hnew : (w.create_task t).tasks = w.tasks ++ [t].map fun t => (t, none) := rfl
  constructor
  · rintro ⟨j, u, hlive, hu⟩
    rcases Nat.lt_or_ge j w.tasks.length with hlt | hge
    · rw [World.Live, get_of_spawned hnew hlt] at hlive
      exact ⟨j, u, hlive, hu⟩
    · have hin : u ∈ [t] := (new_of_spawned hnew hge hlive).1
      rw [List.mem_singleton.1 hin, ht] at hu
      cases hu
  · rintro ⟨j, u, hlive, hu⟩
    exact ⟨j, u, World.Spawns.live ⟨_, hnew⟩ hlive, hu⟩

/-- A delivery that has just been created is under way. -/
theorem World.delivering_launch {t : TaskSpec Ir} (ht : t.is_batch = true) :
    (w.create_task t).Delivering := by
  refine ⟨w.tasks.length, t, ?_, ht⟩
  rw [World.Live, World.create_task_tasks, List.getElem?_append_right (Nat.le_refl _),
    Nat.sub_self]
  rfl

/-- Redis answers, tasks begin, and nobody cancels them. -/
def Sure (q : Req Ir) (r : Except Exn q.Reply) : Prop :=
  (∀ k, q.call ≠ .unwind k) →
    (q.call.is_redis = true ∧ q.call ≠ .xgroup_create ∨ q.call = .begin → ∃ v, r = .ok v) ∧ r ≠ .error .cancelled

theorem sure_call {q : Req Ir}
    (hq : q.call.is_redis = true ∧ q.call ≠ .xgroup_create ∨ q.call = .begin) :
    Raises Sure (fun _ => False) (Co.call q : Prog Ir q.Reply) :=
  Raises.call fun e he => by
    have hunwind : ∀ k, q.call ≠ .unwind k := fun k hk => by
      rcases hq with ⟨hq, -⟩ | hq <;> rw [hk] at hq <;> cases hq
    obtain ⟨v, hv⟩ := (he hunwind).1 hq
    cases hv

/-- The delivery of one job does not fail. -/
theorem sure_deliver_single {result : ExecutionResult} {completed_at : String} :
    Raises Sure (fun _ => False)
      (deliver_single_batch_result node m job_id url result completed_at) := by
  have hsafe : ∀ {p : Prog Ir Unit}, Raises Sure (fun _ => False) p →
      Raises Sure (fun _ => False) (Co.try_except (do p; pure true)
        (fun e => if e.is_connection then pure false else .raise e) : Prog Ir Bool) := fun hp =>
    Raises.try_except (hp.bind fun _ => trivial) fun e he => he.elim
  have hcheck : Raises Sure (fun _ => False) (has_cancel_signal m job_id : Prog Ir Bool) :=
    (sure_call (.inl ⟨rfl, by simp⟩)).bind fun _ => trivial
  have hhset : ∀ mapping, Raises Sure (fun _ => False)
      (safe_hset m (status_key job_id) mapping : Prog Ir Bool) := fun _ =>
    hsafe (sure_call (.inl ⟨rfl, by simp⟩))
  have hxack : Raises Sure (fun _ => False) (do let _ ← safe_xack m : Prog Ir Unit) :=
    Raises.bind (hsafe (sure_call (.inl ⟨rfl, by simp⟩))) fun _ => trivial
  have hcancelled : Raises Sure (fun _ => False) (do
      mark_job_cancelled node m job_id
      let _ ← safe_xack m : Prog Ir Unit) :=
    Raises.bind (Raises.look.bind fun _ => (hhset _).bind fun _ => trivial) fun _ => hxack
  have hsend : Raises Sure (fun _ => False) (Co.try_except
      (send_result m url (completed_payload job_id result))
      (fun e => if e = .cancelled then .raise e else pure ()) : Prog Ir Unit) := by
    have hpost : Raises Sure (· ≠ .cancelled)
        (send_result m url (completed_payload job_id result) : Prog Ir Unit) :=
      Raises.update.bind fun _ => Raises.call fun e he hc =>
        (he fun _ hk => by cases hk).2 (by rw [hc])
    refine Raises.try_except hpost fun e he => ?_
    rw [if_neg he]
    trivial
  refine hcheck.bind fun b => ?_
  cases b with
  | true => exact hcancelled
  | false =>
      refine (hhset _).bind fun _ => hcheck.bind fun b' => ?_
      cases b' with
      | true => exact hcancelled
      | false => exact hsend.bind fun _ => hxack

theorem sure_of_answers {q : Req Ir} {r : Except Exn q.Reply} (hans : answers node q w r w')
    (hall : undisturbed q w r) : Sure q r := by
  intro hq
  have hnot : r ≠ .error .cancelled := by
    intro hr
    obtain ⟨k, hk⟩ := hall.2 hr
    exact hq k hk
  refine ⟨?_, hnot⟩
  rintro (⟨hredis, hgroup⟩ | hbegin)
  · exact hall.1.ok hredis hgroup
  · cases r with
    | ok v => exact ⟨v, rfl⟩
    | error e =>
        -- nothing but a cancellation keeps a task from beginning
        obtain ⟨msg, c⟩ := q
        cases hbegin
        rcases hans with ⟨v, w₁, -, hr, -⟩ | ⟨e', hf, -, hr, -⟩ | ⟨e', v, w₁, htake, -⟩
        · cases hr
        · cases hr
          exact absurd (congrArg Except.error hf) hnot
        · cases htake

/-- How a task of an undisturbed consumer ends. -/
theorem Fleet.task_ends {F : Fleet Ir} {i : Nat} {t : TaskSpec Ir}
    {Q : Except Exn Unit → World Ir → Prop}
    (h : (F.task node cloud undisturbed i t).wp (task_body node t) Q w) :
    (F.task node cloud undisturbed i t).wp (task_body node t) (fun r w' =>
      Q r w' ∧ r ≠ .error .cancelled ∧ (t.is_batch = false → r = .ok ())) w := by
  have hanswer : ∀ q w r w', (F.task node cloud undisturbed i t).answer q w r w' →
      answers node q w r w' ∧ undisturbed q w r := fun _ _ _ _ ha => ha
  have hcalm := (calm_task_body t).wp (fun q w r w' ha => (hanswer q w r w' ha).2.2) h
  cases t with
  | deliver_batch_results parsed results =>
      refine Contract.wp_mono hcalm fun r w' hr => ⟨hr.1, ?_, fun hb => by cases hb⟩
      exact fun hc => hr.2 _ hc rfl
  | deliver_single_batch_result m job_id url result completed_at =>
      have hsure : Raises Sure (fun _ => False)
          (task_body node (.deliver_single_batch_result m job_id url result completed_at)) :=
        (sure_call (.inr rfl)).bind fun _ => sure_deliver_single
      refine Contract.wp_mono (hsure.wp (fun q w r w' ha =>
        sure_of_answers (hanswer q w r w' ha).1 (hanswer q w r w' ha).2) h) ?_
      intro r w' hr
      cases r with
      | error e => exact (hr.2 e rfl).elim
      | ok u => exact ⟨hr.1, (fun hc => by cases hc), fun _ => rfl⟩

/-- A task ends well when those before it have. -/
theorem Fleet.Lands.ok {F : Fleet Ir} {i : Nat} {t : TaskSpec Ir} {r : Except Exn Unit}
    (h : F.Lands i t r w) (hs : Succeeded w) (hcancelled : r ≠ .error .cancelled)
    (hsingle : t.is_batch = false → r = .ok ()) : r = .ok () := by
  cases r with
  | ok u => rfl
  | error e =>
      cases hb : t.is_batch with
      | false => exact hsingle hb
      | true =>
          rcases h.fails hb e rfl with rfl | hno | ⟨j, hj⟩
          · exact absurd rfl hcancelled
          · rw [(hs _ (List.mem_of_getElem? h.live)).1] at hno
            cases hno
          · exact (hs.not_failed hj).elim

end CodaNode
