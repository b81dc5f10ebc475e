/-
`Consumer/Rounds.lean` -- from the handlers to the whole consumer.

An invariant that the code for each single message keeps is kept by the loops around it:
by `_process_batch`, by `recover_pending`, by the consume loop and by the delivery tasks,
under any schedule. The loops' own steps are `Bookkeeping`; the theorems here follow them
once, for every invariant of the world.
-/
import CodaNode.Consumer.Footprint

set_option autoImplicit false

open Coroutine

namespace CodaNode

variable {Ir : Type} {node : Node Ir} {α : Type}
variable {cloud : (String → Option String) → (String → Option String) → Prop}
variable {allow : (q : Req Ir) → World Ir → Except Exn q.Reply → Prop}

/-- A step of the loops' own: attributes, counters and marks. -/
structure Bookkeeping (f : World Ir → World Ir) : Prop where
  hashes : ∀ w, (f w).hashes = w.hashes
  values : ∀ w, (f w).values = w.values
  log : ∀ w, (f w).log = w.log ∨ ∃ x, (f w).log = ⟨.mark x, w.values, w.region⟩ :: w.log
  tasks : ∀ w, (f w).tasks = w.tasks

theorem Bookkeeping.of_silent {f : World Ir → World Ir} (hhashes : ∀ w, (f w).hashes = w.hashes)
    (hvalues : ∀ w, (f w).values = w.values) (hlog : ∀ w, (f w).log = w.log)
    (htasks : ∀ w, (f w).tasks = w.tasks) : Bookkeeping f :=
  ⟨hhashes, hvalues, fun w => .inl (hlog w), htasks⟩

theorem Bookkeeping.set_exec (f : Exec → Exec) :
    Bookkeeping (fun w : World Ir => w.set_exec f) :=
  .of_silent (fun _ => rfl) (fun _ => rfl) (fun _ => rfl) fun _ => rfl

theorem Bookkeeping.starts (s : Start) : Bookkeeping (fun w : World Ir => w.starts s) :=
  ⟨fun _ => rfl, fun _ => rfl, fun _ => .inr ⟨_, rfl⟩, fun _ => rfl⟩

/-- The steps of a batch and its delivery, executor calls apart. -/
inductive Chore : (World Ir → World Ir) → Prop
  | self (f : Attributes → Attributes) : Chore (·.set_self f)
  | frame (f : Frame → Frame) : Chore (·.set_frame f)
  | batching (ms : List Message) : Chore (·.record (.mark (.batching ms)))
  | falling_back (ms : List Message) : Chore (·.record (.mark (.falling_back ms)))
  | lost (attempt delay : Nat) : Chore (·.record (.mark (.lost attempt delay)))

/-- The steps of the loop itself. -/
inductive Errand : (World Ir → World Ir) → Prop
  | running : Errand (·.set_self ({ · with running := true }))
  | healthy (b : Bool) : Errand (·.set_self ({ · with redis_healthy := b }))
  | frame (f : Frame → Frame) : Errand (·.set_frame f)
  | lost (attempt delay : Nat) : Errand (·.record (.mark (.lost attempt delay)))

theorem Errand.chore {f : World Ir → World Ir} (hf : Errand f) : Chore f := by
  cases hf with
  | running => exact .self _
  | healthy b => exact .self _
  | frame f => exact .frame f
  | lost attempt delay => exact .lost attempt delay

theorem Chore.bookkeeping {f : World Ir → World Ir} (hf : Chore f) : Bookkeeping f := by
  have hmark : ∀ x, Bookkeeping fun w : World Ir => w.record (.mark x) := fun x =>
    ⟨fun _ => rfl, fun _ => rfl, fun _ => .inr ⟨x, rfl⟩, fun _ => rfl⟩
  cases hf with
  | self f => exact .of_silent (fun _ => rfl) (fun _ => rfl) (fun _ => rfl) fun _ => rfl
  | frame f => exact .of_silent (fun _ => rfl) (fun _ => rfl) (fun _ => rfl) fun _ => rfl
  | batching ms => exact hmark _
  | falling_back ms => exact hmark _
  | lost attempt delay => exact hmark _

theorem Bookkeeping.grows {f : World Ir → World Ir} (hf : Bookkeeping f) (w : World Ir) :
    w.log <:+ (f w).log := by
  rcases hf.log w with hl | ⟨x, hl⟩
  · exact ⟨[], hl.symm⟩
  · exact ⟨[_], hl.symm⟩

/-! ## The regime of an invariant -/

/-- Tasks and lines of the log are only ever added. -/
structure World.Grows (w w' : World Ir) : Prop where
  tasks : w.tasks.map Prod.fst <+: w'.tasks.map Prod.fst
  log : w.log <:+ w'.log

theorem World.Grows.refl (w : World Ir) : w.Grows w := ⟨List.prefix_refl _, List.suffix_refl _⟩

theorem World.create_task_grows (w : World Ir) (t : TaskSpec Ir) : w.Grows (w.create_task t) := by
  refine ⟨?_, List.suffix_refl _⟩
  rw [World.create_task_tasks, List.map_append]
  exact List.prefix_append _ _

theorem World.Grows.trans {w w' w'' : World Ir} (h : w.Grows w') (h' : w'.Grows w'') :
    w.Grows w'' := ⟨h.tasks.trans h'.tasks, h.log.trans h'.log⟩

/-- The message carries this job, and the job parses. -/
def Message.Fits (node : Node Ir) (m : Message) (job_id url : String) : Prop :=
  ∃ decoded job, m.header = .ok (decoded, job_id, url) ∧ node.parse_job decoded = .ok job

/-- The jobs of a task are those that their messages carry. -/
def TaskSpec.Faithful (node : Node Ir) : TaskSpec Ir → Prop
  | .deliver_batch_results parsed _ =>
      ∀ job ∈ parsed, job.msg.Fits node job.job_id job.callback_url
  | .deliver_single_batch_result m job_id url _ _ => m.Fits node job_id url

/-- Tasks and lines of the log are only ever added, the tasks being faithful. -/
structure World.Enlists (node : Node Ir) (w w' : World Ir) : Prop extends w.Grows w' where
  faithful : ∀ (i : Nat) t, (w.tasks.map Prod.fst).length ≤ i →
    (w'.tasks.map Prod.fst)[i]? = some t → t.Faithful node

theorem World.Enlists.of_same {w w' : World Ir}
    (htasks : w'.tasks.map Prod.fst = w.tasks.map Prod.fst) (hlog : w.log <:+ w'.log) :
    w.Enlists node w' := by
  refine ⟨⟨htasks ▸ List.prefix_refl _, hlog⟩, fun i t hi ht => ?_⟩
  rw [htasks, List.getElem?_eq_none hi] at ht
  cases ht

theorem World.Enlists.trans {w w' w'' : World Ir} (h : w.Enlists node w')
    (h' : w'.Enlists node w'') : w.Enlists node w'' := by
  refine ⟨h.toGrows.trans h'.toGrows, fun i t hi ht => ?_⟩
  rcases Nat.lt_or_ge i (w'.tasks.map Prod.fst).length with hlt | hge
  · -- the first of the two steps created it
    obtain ⟨rest, hrest⟩ := h'.tasks
    rw [← hrest, List.getElem?_append_left hlt] at ht
    exact h.faithful i t hi ht
  · exact h'.faithful i t hge ht

theorem World.create_task_enlists (w : World Ir) {t : TaskSpec Ir} (ht : t.Faithful node) :
    w.Enlists node (w.create_task t) := by
  refine ⟨w.create_task_grows t, fun i u hi hu => ?_⟩
  rw [World.create_task_tasks, List.map_append, List.getElem?_append_right hi] at hu
  obtain rfl : t = u := by
    rw [List.map_singleton, List.getElem?_singleton] at hu
    split at hu <;> cases hu
    rfl
  exact ht

/-- What a step does that creates no task. -/
structure World.Extends (w w' : World Ir) : Prop where
  tasks : w'.tasks = w.tasks
  log : w.log <:+ w'.log

theorem World.Extends.refl (w : World Ir) : w.Extends w := ⟨rfl, List.suffix_refl _⟩

theorem World.Extends.of_tasks {w w' : World Ir} (htasks : w'.tasks = w.tasks)
    (hlog : w.log <:+ w'.log) : w.Extends w' := ⟨htasks, hlog⟩

theorem World.Extends.grows {w w' : World Ir} (h : w.Extends w') : w.Grows w' :=
  ⟨World.specs_of_tasks h.tasks, h.log⟩

theorem World.Extends.enlists {w w' : World Ir} (h : w.Extends w') :
    w.Enlists node w' :=
  .of_same (by rw [h.tasks]) h.log

theorem Bookkeeping.extends {f : World Ir → World Ir} (hf : Bookkeeping f) (w : World Ir) :
    w.Extends (f w) := ⟨hf.tasks w, hf.grows w⟩

theorem Answered.extends {q : Req Ir} {r : Except Exn q.Reply} {w w' : World Ir}
    (h : Answered q r w w') : w.Extends w' := .of_tasks h.tasks h.grows

/-- Everybody keeps `I`, and that is all. -/
def guarded (node : Node Ir) (I : World Ir → Prop) : Kernel.Regime (World Ir) (Req Ir) Exn where
  inv := I
  grows := World.Enlists node
  frame w w' := w.log <:+ w'.log
  pre _ _ := True
  ended _ := True
  round _ _ := True

/-- A contract under which all that is owed is `I`, reads of the stream apart. -/
structure Owes (K : Contract (World Ir) (@Req.Reply Ir) Exn) (node : Node Ir)
    (allow : (q : Req Ir) → World Ir → Except Exn q.Reply → Prop) (I : World Ir → Prop) :
    Prop where
  pre : ∀ q w, q.call.reads_group = false → I w → K.pre q w
  answer : ∀ q w r w', K.answer q w r w' → answers node q w r w' ∧ allow q w r
  rely : ∀ w w', I w → K.rely w w' → I w' ∧ w.log <:+ w'.log
  keep : ∀ w w', I w → I w' → w.Extends w' → K.keep w w'

theorem owes_main (I : World Ir → Prop) :
    Owes (Kernel.Regime.main (consumer node cloud allow) (guarded node I)) node allow I :=
  ⟨fun _ _ _ h => ⟨h, trivial⟩, fun _ _ _ _ h => h, fun _ _ h hr => hr h,
    fun _ _ _ h hg => ⟨h, hg.enlists⟩⟩

theorem owes_task (I : World Ir → Prop) :
    Owes (Kernel.Regime.task (consumer node cloud allow) (guarded node I)) node allow I :=
  ⟨fun _ _ _ _ => trivial, fun _ _ _ _ h => h,
    fun _ _ h hr => ⟨(hr h).1, (hr h).2.log⟩, fun _ _ _ h hg => ⟨h, hg.log, hg.enlists⟩⟩

/-- A message, given what becomes of a job that is taken on. -/
theorem keeps_process_message {K : Contract (World Ir) (@Req.Reply Ir) Exn} {I : World Ir → Prop}
    {L : Exn → World Ir → Prop} {m : Message} {U : (World Ir → World Ir) → Prop} (hlook : U id)
    (henter : U (·.enter .outside)) (hmark : U (·.record (.mark (.handling m))))
    (hquiet : ∀ {β : Type} {p : Prog Ir β}, Within U (Skips m) p → K.Keeps I p)
    (htake : ∀ decoded job_id url, m.header = .ok (decoded, job_id, url) →
      K.KeepsUnless I L (take_on node m decoded job_id url)) :
    K.KeepsUnless I L (process_message node m) := by
  have hskip : K.Keeps I (do let _ ← safe_xack m : Prog Ir Unit) := hquiet skips_skip
  have hbegin : K.Keeps I (do enter .outside; mark (.handling m) : Prog Ir Unit) :=
    hquiet ((Within.update henter).bind fun _ => Within.update hmark)
  refine hbegin.unless.bind fun _ => ?_
  cases decode_fields m.fields with
  | error e => exact .raise _
  | ok fields =>
      dsimp only
      cases hm : m.header with
      | error e => exact hskip.unless
      | ok header =>
          obtain ⟨decoded, job_id, url⟩ := header
          refine (hquiet skips_status).unless.bind fun st => ?_
          split
          · exact hskip.unless
          · refine (hquiet skips_check).unless.bind fun b => ?_
            cases b with
            | false => exact htake decoded job_id url hm
            | true =>
                exact Contract.Keeps.unless
                  ((hquiet (skips_mark_job_cancelled hlook)).bind fun _ => hskip)

namespace Owes

variable {K : Contract (World Ir) (@Req.Reply Ir) Exn} {I : World Ir → Prop}
variable (hK : Owes K node allow I)
include hK

theorem update {f : World Ir → World Ir} (hf : ∀ w, I w → I (f w) ∧ w.Extends (f w)) :
    K.Keeps I (Co.update f : Prog Ir Unit) := by
  refine Contract.Keeps.update fun w hw => ?_
  obtain ⟨hw', hext⟩ := hf w hw
  exact ⟨hK.keep w (f w) hw hw' hext, hw'⟩

theorem look {g : World Ir → α} : K.Keeps I (Co.look g : Prog Ir α) :=
  Contract.Keeps.look fun w hw => hK.keep w w hw hw (.refl w)

theorem call {q : Req Ir} (hread : q.call.reads_group = false)
    (hq : ∀ w r w', I w → answers node q w r w' → allow q w r → I w') :
    K.Keeps I (Co.call q : Prog Ir q.Reply) := by
  refine fun w hw => (Contract.wp_call _ _ _).2 ⟨hK.pre _ w hread hw, fun w₁ hr r w₂ ha => ?_⟩
  have hw₁ := (hK.rely w w₁ hw hr).1
  obtain ⟨hans, hall⟩ := hK.answer _ _ _ _ ha
  have hw₂ := hq w₁ r w₂ hw₁ hans hall
  exact ⟨hK.keep w₁ w₂ hw₁ hw₂ (Answered.of_answers hans).extends, hw₂⟩

/-- Code whose steps and calls keep the invariant. -/
theorem within {U : (World Ir → World Ir) → Prop} {P : Req Ir → Prop}
    (hU : ∀ f, U f → ∀ w, I w → I (f w) ∧ w.Extends (f w))
    (hread : ∀ q, P q → q.call.reads_group = false)
    (hP : ∀ q, P q → ∀ w r w', I w → answers node q w r w' → allow q w r → I w')
    {p : Prog Ir α} (hp : Within U P p) : K.Keeps I p := by
  refine fun w hw => Within.wp (I := I) ?_ ?_ ?_ ?_ hp hw
  · exact fun q w₁ hq h₁ => hK.pre q w₁ (hread q hq) h₁
  · exact fun w₁ w₂ h₁ hr => (hK.rely w₁ w₂ h₁ hr).1
  · intro f w₁ hf h₁
    obtain ⟨h₂, hext⟩ := hU f hf w₁ h₁
    exact ⟨hK.keep w₁ (f w₁) h₁ h₂ hext, h₂⟩
  · intro q w₁ r w₂ hq h₁ ha
    obtain ⟨hans, hall⟩ := hK.answer _ _ _ _ ha
    have h₂ := hP q hq w₁ r w₂ h₁ hans hall
    exact ⟨hK.keep w₁ w₂ h₁ h₂ (Answered.of_answers hans).extends, h₂⟩

/-- A batch call, given what its start and its end mean. -/
theorem run_batch {jobs : List (Parsed Ir)} (hstart : ∀ k w, I w → I (w.starts (.batch k)))
    (hexec : ∀ w f, I w → I (w.set_exec f))
    (hcall : ∀ k (js : List (Ir × Int)) w r w', I w → answers node ⟨none, .batch_run k js⟩ w r w' →
      allow ⟨none, .batch_run k js⟩ w r → I w') : K.Keeps I (run_batch jobs) := by
  refine hK.look.bind fun k => Contract.Keeps.bind (hK.update fun w hw => ?_) fun _ =>
    Contract.Keeps.bind (hK.update fun w hw => ?_) fun _ => hK.call rfl (hcall _ _)
  · exact ⟨hstart k w hw, (Bookkeeping.starts _).extends w⟩
  · exact ⟨hexec w _ hw, (Bookkeeping.set_exec _).extends w⟩

end Owes

/-- The marks of a batch, given what each status write does. -/
theorem Owes.mark_executing {K : Contract (World Ir) (@Req.Reply Ir) Exn} {I : World Ir → Prop}
    (hK : Owes K node allow I) (hwrite : ∀ (m : Message) (job_id : String) mapping,
      K.Keeps I (safe_hset m (status_key job_id) mapping)) (jobs : List (Parsed Ir)) :
    K.Keeps I (mark_executing node jobs) := by
  induction jobs with
  | nil => exact .ret _
  | cons job rest ih => exact hK.look.bind fun _ => (hwrite _ _ _).bind fun _ => ih

/-- A job that is accepted is the one its message carries. -/
theorem examine_carries {K : Contract (World Ir) (@Req.Reply Ir) Exn} (m : Message)
    (w : World Ir) : K.lax.wp (examine node m) (fun r _ => ∀ job, r = .ok (some job) →
      job.msg = m ∧ ∃ decoded, m.header = .ok (decoded, job.job_id, job.callback_url) ∧
        node.parse_job decoded = .ok (job.ir, job.shots)) w := by
  have hnone : ∀ {β : Type} {p : Prog Ir β} {V : Parsed Ir → Prop} (w : World Ir),
      K.lax.wp (do let _ ← p; pure none : Prog Ir (Option (Parsed Ir)))
        (fun r _ => ∀ job, r = .ok (some job) → V job) w := fun w =>
    Contract.lax_bind (fun _ _ job h => by cases h) fun _ _ job h => by cases h
  unfold examine
  cases decode_fields m.fields with
  | error e => exact fun job h => by cases h
  | ok fields =>
      dsimp only
      cases hm : m.header with
      | error e => exact hnone w
      | ok header =>
          obtain ⟨decoded, job_id, url⟩ := header
          refine Contract.lax_bind (fun st w₁ => ?_) fun _ _ job h => by cases h
          split
          · exact hnone w₁
          · refine Contract.lax_bind (fun b w₂ => ?_) fun _ _ job h => by cases h
            cases b with
            | true =>
                exact Contract.lax_bind (fun _ w₃ => hnone w₃) fun _ _ job h => by cases h
            | false =>
                cases hp : node.parse_job decoded with
                | error e =>
                    exact Contract.lax_bind (fun _ w₃ => hnone w₃) fun _ _ job h => by cases h
                | ok parsed =>
                    intro job h
                    cases h
                    exact ⟨rfl, decoded, rfl, hp⟩

theorem examine_all_fits {K : Contract (World Ir) (@Req.Reply Ir) Exn} (ms : List Message)
    (w : World Ir) : K.lax.wp (examine_all node ms) (fun r _ => ∀ jobs, r = .ok jobs →
      ∀ job ∈ jobs, job.msg.Fits node job.job_id job.callback_url) w := by
  induction ms generalizing w with
  | nil => exact fun jobs h job hjob => by cases h; cases hjob
  | cons m rest ih =>
      refine (Contract.wp_bind _ _ _ _).2 (Contract.wp_mono (examine_carries m w) ?_)
      intro r w₁ h
      cases r with
      | error e => exact fun jobs h => by cases h
      | ok found =>
          refine (Contract.wp_bind _ _ _ _).2 (Contract.wp_mono (ih w₁) fun r w₂ hrest => ?_)
          cases r with
          | error e => exact fun jobs h => by cases h
          | ok jobs =>
              rintro _ ⟨⟩ job hjob
              rcases List.mem_append.1 hjob with hjob | hjob
              · obtain ⟨rfl, decoded, hheader, hparse⟩ := h job (by rw [Option.mem_toList.1 hjob])
                exact ⟨decoded, _, hheader, hparse⟩
              · exact hrest jobs rfl job hjob

theorem keeps_examine_all {K : Contract (World Ir) (@Req.Reply Ir) Exn} {I : World Ir → Prop}
    (hexamine : ∀ m, K.Keeps I (examine node m)) (ms : List Message) :
    K.Keeps I (examine_all node ms) := by
  induction ms with
  | nil => exact .ret _
  | cons m rest ih => exact (hexamine m).bind fun _ => ih.bind fun _ => .ret _

/-! ## The loops -/

/-- `batch_run`. -/
def Call.runs_batch : Call Ir → Bool
  | .batch_run _ _ => true
  | _ => false

/-- The consumer's task was cancelled, which left `J`. -/
def Abandoned (J : World Ir → Prop) (e : Exn) (w : World Ir) : Prop := e = .cancelled ∧ J w

/-- What the loops over messages need of an invariant: the code for each message keeps it,
unless it is cancelled and leaves `J`, and so do the calls around it. -/
structure Serves (K : Contract (World Ir) (@Req.Reply Ir) Exn) (node : Node Ir)
    (allow : (q : Req Ir) → World Ir → Except Exn q.Reply → Prop) (I J : World Ir → Prop) :
    Prop where
  owes : Owes K node allow I
  call : ∀ c : Call Ir, c.runs_batch = false → c.prompt = false → ∀ w r w', I w →
    answers node ⟨none, c⟩ w r w' → allow ⟨none, c⟩ w r → I w'
  recovery : ∀ w, I w → I (w.starts .recovery)
  message : ∀ m, K.KeepsUnless I (Abandoned J) (process_message node m)

namespace Serves

variable {K : Contract (World Ir) (@Req.Reply Ir) Exn} {I J : World Ir → Prop}
variable (hS : Serves K node allow I J)
include hS

theorem alone {c : Call Ir} (hc : c.runs_batch = false) (hprompt : c.prompt = false)
    (hread : c.reads_group = false) : K.Keeps I (alone c) :=
  hS.owes.call hread (hS.call c hc hprompt)

theorem process_each (ms : List Message) :
    K.KeepsUnless I (Abandoned J) (process_each node ms) := by
  induction ms with
  | nil => exact .ret _
  | cons m rest ih => exact (hS.message m).bind fun _ => ih

theorem recover_each (ids : List String) :
    K.KeepsUnless I (Abandoned J) (recover_each node ids) := by
  induction ids with
  | nil => exact .ret _
  | cons message_id rest ih =>
      refine (hS.alone rfl rfl rfl).unless.bind fun messages => ?_
      cases messages with
      | nil => exact ih
      | cons m _ => exact (hS.message _).bind fun _ => ih.bind fun _ => .ret _

theorem recover_pending : K.KeepsUnless I (Abandoned J) (recover_pending node) := by
  have hstart : K.Keeps I (begin_call .recovery : Prog Ir Unit) :=
    hS.owes.update fun w hw => ⟨hS.recovery w hw, (Bookkeeping.starts _).extends w⟩
  exact hstart.unless.bind fun _ => (hS.alone rfl rfl rfl).unless.bind fun ids => hS.recover_each ids

end Serves

/-- What the loop needs besides. Between two rounds `top` holds, which is `I` when no
delivery is pending; `out t` holds when the delivery task `t` has just been created. -/
structure Loops (K : Contract (World Ir) (@Req.Reply Ir) Exn) (node : Node Ir)
    (allow : (q : Req Ir) → World Ir → Except Exn q.Reply → Prop) (I J top : World Ir → Prop)
    (out : Nat → World Ir → Prop) : Prop extends Serves K node allow I J where
  errand : ∀ f, Errand f → ∀ w, I w → I (f w)
  batch : node.can_batch = true → ∀ ms w, I w → K.wp (process_batch node ms)
    (fun r w' => match r with
      | .ok none => I w'
      | .ok (some t) => out t w'
      | .error e => I w' ∨ Abandoned J e w') w
  pending : ∀ t w, out t w →
    K.wp (Co.update (·.set_self ({ · with pending_batch_delivery := some t })) : Prog Ir Unit)
      (fun _ w' => top w') w
  top_of : ∀ w, I w → top w
  top_owes : Owes K node allow top
  top_errand : ∀ f, Errand f → ∀ w, top w → top (f w)
  read : ∀ count w, top w → K.pre ⟨none, .xreadgroup count⟩ w
  top_read : ∀ count w r w', top w → answers node ⟨none, .xreadgroup count⟩ w r w' →
    allow ⟨none, .xreadgroup count⟩ w r → top w'
  top_sleep : ∀ secs w r w', top w → answers node ⟨none, .sleep secs⟩ w r w' →
    allow ⟨none, .sleep secs⟩ w r → top w'
  rest : ∀ w, top w → w.self.pending_batch_delivery = none → I w
  join : ∀ t w, top w → w.self.pending_batch_delivery = some t →
    K.wp (do
      alone (.join t)
      Co.update (·.set_self ({ · with pending_batch_delivery := none })) : Prog Ir Unit)
      (fun r w' => match r with
        | .ok _ => I w'
        | .error _ => top w') w

namespace Loops

variable {K : Contract (World Ir) (@Req.Reply Ir) Exn} {I J top : World Ir → Prop}
variable {out : Nat → World Ir → Prop}
variable (hL : Loops K node allow I J top out)
include hL

theorem run_errand {f : World Ir → World Ir} (hf : Errand f) :
    K.Keeps I (Co.update f : Prog Ir Unit) :=
  hL.owes.update fun w hw => ⟨hL.errand f hf w hw, hf.chore.bookkeeping.extends w⟩

theorem run_top_errand {f : World Ir → World Ir} (hf : Errand f) :
    K.Keeps top (Co.update f : Prog Ir Unit) :=
  hL.top_owes.update fun w hw => ⟨hL.top_errand f hf w hw, hf.chore.bookkeeping.extends w⟩

/-- What is kept between two messages holds between two rounds. -/
theorem to_top {p : Prog Ir α} (hp : K.KeepsUnless I (Abandoned J) p) {w : World Ir} (hw : I w) :
    K.wp p (fun r w' => top w' ∨ ∃ e, r = .error e ∧ Abandoned J e w') w :=
  Contract.wp_mono (hp w hw) fun _ w' h => h.imp_left (hL.top_of w')

/-- A reply holds messages of the one stream. -/
theorem dispatch {streams : List (String × List Message)} (hone : streams.length ≤ 1)
    {w : World Ir} (hw : I w) :
    K.wp (dispatch node streams)
      (fun r w' => top w' ∨ ∃ e, r = .error e ∧ Abandoned J e w') w := by
  cases streams with
  | nil => exact .inl (hL.top_of w hw)
  | cons stream rest =>
      have hrest : rest = [] := by
        rw [List.length_cons] at hone
        exact List.length_eq_zero_iff.1 (by omega)
      subst hrest
      obtain ⟨name, ms⟩ := stream
      unfold CodaNode.dispatch
      split
      · next hbatch =>
        have hcan : node.can_batch = true := (Bool.and_eq_true_iff.1 hbatch).1
        refine (Contract.wp_bind _ _ _ _).2
          (Contract.wp_mono (hL.batch hcan ms w hw) fun r w' h => ?_)
        cases r with
        | error e => exact h.imp (hL.top_of w') fun h => ⟨e, rfl, h⟩
        | ok delivery =>
            cases delivery with
            | none => exact .inl (hL.top_of w' h)
            | some t =>
                refine (Contract.wp_bind _ _ _ _).2
                  (Contract.wp_mono (hL.pending t w' h) fun r w'' h' => ?_)
                cases r <;> exact .inl h'
      · exact hL.to_top ((hL.process_each ms).bind fun _ => .ret _) hw

theorem startup {w : World Ir} (hw : I w) :
    K.wp (startup node) (fun r w' => top w' ∨ ∃ e, r = .error e ∧ Abandoned J e w') w := by
  refine hL.to_top ((hL.run_errand .running).unless.bind fun _ => ?_) hw
  refine Contract.KeepsUnless.bind (Contract.Keeps.unless
    (Contract.Keeps.try_except (hL.alone rfl rfl rfl) fun e => ?_)) fun _ => ?_
  · cases e with
    | response msg =>
        dsimp only
        split
        · exact .ret _
        · exact .raise _
    | _ => exact .raise _
  · exact hL.recover_pending.bind fun _ => hL.owes.look.unless.bind fun _ =>
      (hL.run_errand (.frame _)).unless

/-- What follows the read. -/
theorem after_read {messages : List (String × List Message)} (hone : messages.length ≤ 1)
    {w : World Ir} (hw : top w) :
    K.wp (do
        await_delivery
        if messages.isEmpty then
          recheck_pending node
        else
          CodaNode.dispatch node messages : Prog Ir Unit)
      (fun r w' => top w' ∨ ∃ e, r = .error e ∧ Abandoned J e w') w := by
  have hrecheck : K.KeepsUnless I (Abandoned J) (recheck_pending node) := by
    refine hL.owes.look.unless.bind fun now => hL.owes.look.unless.bind fun last => ?_
    split
    · exact hL.recover_pending.bind fun _ => (hL.run_errand (.frame _)).unless
    · exact .ret _
  have hserve : ∀ w', I w' → K.wp (if messages.isEmpty then
        recheck_pending node
      else
        CodaNode.dispatch node messages : Prog Ir Unit)
      (fun r w'' => top w'' ∨ ∃ e, r = .error e ∧ Abandoned J e w'') w' := by
    intro w' hw'
    split
    · exact hL.to_top hrecheck hw'
    · exact hL.dispatch hone hw'
  have hawait : K.wp (await_delivery : Prog Ir Unit)
      (fun r w' => (r = .ok () ∧ I w') ∨ ((∃ e, r = .error e) ∧ top w')) w := by
    refine (Contract.wp_bind _ _ _ _).2
      ((Contract.wp_look _ _ _).2 ⟨hL.top_owes.keep w w hw hw (.refl w), ?_⟩)
    rw [Contract.and_then_ok]
    cases hp : w.self.pending_batch_delivery with
    | none => exact .inl ⟨rfl, hL.rest w hw hp⟩
    | some t =>
        refine Contract.wp_mono (hL.join t w hw hp) fun r w' h => ?_
        cases r with
        | ok u => exact .inl ⟨rfl, h⟩
        | error e => exact .inr ⟨⟨e, rfl⟩, h⟩
  refine (Contract.wp_bind _ _ _ _).2 (Contract.wp_mono hawait fun r w' h => ?_)
  rcases h with ⟨rfl, h⟩ | ⟨⟨e, rfl⟩, h⟩
  · exact hserve w' h
  · exact .inl h

/-- The round ends as it began. -/
theorem iteration : K.KeepsUnless top (Abandoned J) (iteration node) := by
  have hsleep : ∀ secs, K.Keeps top (CodaNode.alone (.sleep secs)) := fun secs =>
    hL.top_owes.call rfl (hL.top_sleep secs)
  have hback : ∀ e, K.Keeps top (back_off e : Prog Ir Unit) := by
    intro e
    unfold back_off
    split
    · refine (hL.run_top_errand (.healthy false)).bind fun _ =>
        (hL.run_top_errand (.frame _)).bind fun _ => ?_
      refine hL.top_owes.look.bind fun failures => (Contract.Keeps.of_except _).bind fun delay => ?_
      exact (hL.run_top_errand (.lost _ _)).bind fun _ => hsleep _
    · split
      · exact .raise _
      · exact hsleep _
  refine Contract.KeepsUnless.try_except ?_ (fun e => (hback e).unless) ?_
  · intro w hw
    refine (Contract.wp_bind _ _ _ _).2 ((Contract.wp_call _ _ _).2
      ⟨hL.read _ w hw, fun w₁ hr r w₂ ha => ?_⟩)
    have h₁ := (hL.top_owes.rely w w₁ hw hr).1
    obtain ⟨hans, hall⟩ := hL.top_owes.answer _ _ _ _ ha
    have h₂ := hL.top_read _ w₁ r w₂ h₁ hans hall
    refine ⟨hL.top_owes.keep w₁ w₂ h₁ h₂ (Answered.of_answers hans).extends, ?_⟩
    cases r with
    | error e => exact .inl h₂
    | ok messages =>
        have hone : messages.length ≤ 1 := by
          obtain ⟨w₃, ⟨n, -, -, hv⟩, -⟩ := answers_ok.1 hans
          rw [hv]
          split <;> simp
        refine (hL.run_top_errand (.healthy true)).wp_bind h₂ (fun _ _ h => .inl h)
          fun _ w₃ h₃ => ?_
        exact (hL.run_top_errand (.frame _)).wp_bind h₃ (fun _ _ h => .inl h)
          fun _ w₄ h₄ => hL.after_read hone h₄
  · -- the loop hands a cancellation on
    rintro e w ⟨rfl, hJ⟩
    exact .inr ⟨_, rfl, rfl, hJ⟩

end Loops

/-! ## One invariant for everything -/

/-- What the loops need of an invariant that holds throughout: their own steps keep it, and
so does the batch call. -/
structure Everywhere (K : Contract (World Ir) (@Req.Reply Ir) Exn) (node : Node Ir)
    (allow : (q : Req Ir) → World Ir → Except Exn q.Reply → Prop) (I J : World Ir → Prop) :
    Prop extends Serves K node allow I J where
  examine : ∀ m, K.Keeps I (examine node m)
  write : ∀ (m : Message) (job_id : String) mapping,
    K.Keeps I (safe_hset m (status_key job_id) mapping)
  step : ∀ f, Chore f → ∀ w, I w → I (f w)
  create : ∀ t w, I w → t.Faithful node → I (w.create_task t) ∧ K.keep w (w.create_task t)
  batch : ∀ jobs, K.Keeps I (run_batch jobs)
  read : ∀ count w, I w → K.pre ⟨none, .xreadgroup count⟩ w

namespace Everywhere

variable {K : Contract (World Ir) (@Req.Reply Ir) Exn} {I J : World Ir → Prop}
variable (hE : Everywhere K node allow I J)
include hE

theorem update {f : World Ir → World Ir} (hf : Chore f) :
    K.Keeps I (Co.update f : Prog Ir Unit) :=
  hE.owes.update fun w hw => ⟨hE.step f hf w hw, hf.bookkeeping.extends w⟩

theorem create_task {t : TaskSpec Ir} (ht : t.Faithful node) : K.Keeps I (create_task t) := by
  intro w hw
  obtain ⟨hw', hkeep⟩ := hE.create t w hw ht
  exact ⟨hkeep, hw'⟩

theorem process_batch (ms : List Message) :
    K.KeepsUnless I (Abandoned J) (process_batch node ms) := by
  have hfall : K.KeepsUnless I (Abandoned J) (fall_back node ms) :=
    (hE.update (.falling_back _)).unless.bind fun _ => (hE.process_each ms).bind fun _ => .ret _
  refine (hE.update (.batching _)).unless.bind fun _ =>
    (keeps_examine_all hE.examine ms).unless.bind_of (examine_all_fits ms) fun parsed hfits => ?_
  have hfaithful : ∀ results, (TaskSpec.deliver_batch_results parsed results).Faithful node :=
    fun _ => hfits
  split
  · exact .ret _
  · refine (hE.update (.self _)).unless.bind fun _ =>
      (hE.owes.mark_executing hE.write parsed).unless.bind fun _ => ?_
    cases node.batch_run with
    | none => exact hfall
    | some f =>
        refine (hE.batch parsed).attempt.unless.bind fun results => ?_
        cases results with
        | ok results => exact (hE.create_task (hfaithful results)).unless.bind fun _ => .ret _
        | error e => cases e <;> first | exact hfall | exact .raise _

/-- The invariant holds between two rounds and when a delivery is created. -/
theorem loops : Loops K node allow I J I fun _ => I := {
  hE with
  errand := fun f hf => hE.step f hf.chore
  batch := fun _ ms w hw => by
    refine Contract.wp_mono (hE.process_batch ms w hw) fun r w' h => ?_
    match r, h with
    | .ok none, .inl h => exact h
    | .ok (some t), .inl h => exact h
    | .error e, .inl h => exact .inl h
    | .error e, .inr ⟨_, he, h⟩ => cases he; exact .inr h
  pending := fun t => hE.update (.self _)
  top_of := fun _ h => h
  top_owes := hE.owes
  top_errand := fun f hf => hE.step f hf.chore
  top_read := fun count => hE.call _ rfl rfl
  top_sleep := fun secs => hE.call _ rfl rfl
  rest := fun _ h _ => h
  join := fun t w hw _ => by
    have hjoin : K.Keeps I (do
        CodaNode.alone (.join t)
        Co.update (·.set_self ({ · with pending_batch_delivery := none })) : Prog Ir Unit) :=
      (hE.alone rfl rfl rfl).bind fun _ => hE.update (.self _)
    refine Contract.wp_mono (hjoin w hw) fun r w' h => ?_
    cases r <;> exact h }

/-- A delivery task, given what each single delivery does. -/
theorem task_body (hsingle : ∀ m job_id url result completed_at, m.Fits node job_id url →
    K.Keeps I (deliver_single_batch_result node m job_id url result completed_at))
    {t : TaskSpec Ir} (ht : t.Faithful node) : K.Keeps I (task_body node t) := by
  cases t with
  | deliver_single_batch_result m job_id url result completed_at =>
      exact (hE.alone rfl rfl rfl).bind fun _ => hsingle m job_id url result completed_at ht
  | deliver_batch_results parsed results =>
      have hspawn : ∀ now_iso (jobs : List (Parsed Ir × ExecutionResult)),
          (∀ x ∈ jobs, x.1.msg.Fits node x.1.job_id x.1.callback_url) →
          K.Keeps I (spawn_deliveries now_iso jobs : Prog Ir (List Nat)) := by
        intro now_iso jobs hjobs
        induction jobs with
        | nil => exact .ret _
        | cons job rest ih =>
            exact Contract.Keeps.bind (hE.create_task (hjobs job List.mem_cons_self)) fun _ =>
              (ih fun x hx => hjobs x (List.mem_cons_of_mem job hx)).bind fun _ => .ret _
      refine (hE.alone rfl rfl rfl).bind fun _ => hE.owes.look.bind fun now_iso => ?_
      refine Contract.Keeps.try_finally ?_ (hE.update (.self _))
      split
      · have hjobs : ∀ x ∈ parsed.zip results, x.1.msg.Fits node x.1.job_id x.1.callback_url :=
          fun x hx => ht x.1 (List.of_mem_zip hx).1
        exact (hspawn now_iso _ hjobs).bind fun _ =>
          (hE.alone rfl rfl rfl).bind fun _ => hE.update (.self _)
      · exact .raise _

end Everywhere

section Guarded

variable {I : World Ir → Prop}
variable
    (hmain : Everywhere (Kernel.Regime.main (consumer node cloud allow) (guarded node I)) node allow I I)
    (htask : Everywhere (Kernel.Regime.task (consumer node cloud allow) (guarded node I)) node allow I I)
    (hsingle : ∀ m job_id url result completed_at, m.Fits node job_id url →
      (Kernel.Regime.task (consumer node cloud allow) (guarded node I)).Keeps I
        (deliver_single_batch_result node m job_id url result completed_at))
    (hdrift : ∀ w w', I w → Drift cloud w w' → I w')
    (hfinish : ∀ i r w, I w → I (w.finish_task i r))

theorem guarded_round {w : World Ir} {p : Prog Ir Unit}
    (hp : (Kernel.Regime.main (consumer node cloud allow) (guarded node I)).KeepsUnless I (Abandoned I) p)
    (hI : I w) : (Kernel.Regime.main (consumer node cloud allow) (guarded node I)).wp p
      (fun r w' => I w' ∧ (guarded node I).round r w') w := by
  refine Contract.wp_mono (hp w hI) fun r w' h => ⟨?_, trivial⟩
  rcases h with h | ⟨e, -, -, h⟩
  · exact h
  · exact h

include hmain htask hsingle hdrift hfinish

/-- Code that keeps an invariant, under any schedule. -/
theorem guarded_sound : Kernel.Regime.Sound (consumer node cloud allow) (guarded node I) where
  refl w := List.suffix_refl _
  trans _ _ _ h h' := h.trans h'
  grows_refl w := .of_same rfl (List.suffix_refl _)
  grows_trans _ _ _ h h' := h.trans h'
  spawned _ _ h := h.tasks
  drift w w' hd := by
    have hlog : w.log <:+ w'.log := ⟨[], (Drift.log hd).symm⟩
    have htasks : w'.tasks.map Prod.fst = w.tasks.map Prod.fst := by rw [Drift.tasks hd]
    exact ⟨htasks, fun hi => ⟨hdrift w w' hi hd, hlog, .of_same htasks hlog⟩⟩
  finish i r w := ⟨w.finish_task_specs i r, fun hi _ =>
    ⟨hfinish i r w hi, List.suffix_refl _, .of_same (w.finish_task_specs i r) (List.suffix_refl _)⟩⟩
  body _ w i t hg hi hle ht := Contract.wp_mono
    (htask.task_body hsingle (hg.faithful i t hle ht) w hi) fun _ _ h => ⟨h, trivial⟩
  again w q hi _ hq := by
    have hiter := eq_iteration_of_again hq
    subst hiter
    exact guarded_round hmain.loops.iteration hi

/-- **From the handlers to the whole consumer**: an invariant that the code for each message
keeps holds in every state that the consumer can reach. -/
theorem guarded_run {w : World Ir} (hw : Fresh w) (hI : I w)
    {x : Pool (World Ir) (@Req.Reply Ir) Exn} (hx : Reaches node cloud allow w x) :
    I x.state :=
  ((guarded_sound hmain htask hsingle hdrift hfinish).run hw.spawned hI
    (guarded_round (fun _ h => hmain.loops.startup h) hI) hx).inv

end Guarded

/-! ## The log only grows -/

/-- Code of the consumer, of which nothing is asked. -/
theorem everywhere_trivial {K : Contract (World Ir) (@Req.Reply Ir) Exn}
    (hK : Owes K node allow fun _ => True)
    (hread : ∀ count w, K.pre ⟨none, .xreadgroup count⟩ w)
    (hcreate : ∀ t w, t.Faithful node → K.keep w (w.create_task t)) :
    Everywhere K node allow (fun _ => True) fun _ => True := by
  have hwithin : ∀ {m : Message} {β : Type} {p : Prog Ir β}, Within Roaming (For m) p →
      K.Keeps (fun _ => True) p := fun hp =>
    hK.within (fun f hf w _ => ⟨trivial, .of_tasks (hf.tasks w) (hf.grows w)⟩)
      (fun _ hq => Call.not_read_of_prompt hq.2.1) (fun _ _ _ _ _ _ _ _ => trivial) hp
  exact {
    owes := hK
    call := fun _ _ _ _ _ _ _ _ _ => trivial
    recovery := fun _ _ => trivial
    message := fun m => Contract.Keeps.unless
      (hwithin (handling_process_message Roaming.permits Roaming.enter Roaming.post))
    examine := fun m =>
      hwithin (handling_examine Roaming.permits.look (Roaming.permits.mark _ rfl))
    write := fun _ _ _ => hwithin (Before.within inner_hset)
    step := fun _ _ _ _ => trivial
    create := fun t w _ ht => ⟨trivial, hcreate t w ht⟩
    batch := fun jobs => hK.run_batch (fun _ _ _ => trivial) (fun _ _ _ => trivial)
      fun _ _ _ _ _ _ _ _ => trivial
    read := fun count w _ => hread count w }

/-- **The log only grows**, whatever happens to a running consumer. -/
theorem log_grows {w : World Ir} (hw : Fresh w) {x y : Pool (World Ir) (@Req.Reply Ir) Exn}
    (hx : Reaches node cloud allow w x) (hxy : (consumer node cloud allow).Run x y) :
    x.state.log <:+ y.state.log := by
  have howes : Owes (Kernel.Regime.task (consumer node cloud allow) (guarded node fun _ => True)) node
      allow fun _ => True := owes_task _
  have howes' : Owes (Kernel.Regime.main (consumer node cloud allow) (guarded node fun _ => True)) node
      allow fun _ => True := owes_main _
  have htask := everywhere_trivial howes (fun _ _ => trivial)
    fun t w ht => ⟨trivial, List.suffix_refl _, w.create_task_enlists ht⟩
  have hmain := everywhere_trivial howes' (fun _ _ => ⟨trivial, trivial⟩)
    fun t w ht => ⟨trivial, w.create_task_enlists ht⟩
  have hsound := guarded_sound hmain htask
    (fun m job_id url result completed_at _ => htask.owes.within
      (fun f hf w _ => ⟨trivial, .of_tasks (hf.tasks w) (hf.grows w)⟩)
      (fun _ hq => Call.not_read_of_prompt hq.1.2.1) (fun _ _ _ _ _ _ _ _ => trivial)
      (handling_deliver_single Roaming.permits.look Roaming.post))
    (fun _ _ _ _ => trivial) fun _ _ _ _ => trivial
  have hstart : hsound.agreement.Holds ((consumer node cloud allow).start w (startup node)) :=
    Kernel.Agreement.holds_start hw.spawned
      (guarded_round (fun _ h => hmain.loops.startup h) trivial)
  refine Kernel.Agreement.state_run (A := hsound.agreement)
    (I := fun s => x.state.log <:+ s.log) (fun s s' h hd => ?_) (fun a s s' _ h hk => ?_)
    (fun i t r s _ h _ => h) (Kernel.Agreement.holds_run hstart hx) (List.suffix_refl _) hxy
  · rw [Drift.log hd]
    exact h
  · cases a with
    | none => exact h.trans hk.2.log
    | some it => exact h.trans hk.2.1

end CodaNode
