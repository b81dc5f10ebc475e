/-
`Consumer/Restart.lean` -- what survives a crash of the single-job consumer.

The handler records a job as completed before it posts the result, and a restarted consumer
skips whatever is recorded as completed. Between the two lies the one gap: a crash there
leaves a job that recovery ACKs and nobody reports. `lives_safe` says that it is the only
one: if every life of the consumer begins with each completed job reported, then no job is
ever ACK-ed unreported, however many lives there are.
-/
import CodaNode.Consumer.Calm
import CodaNode.Consumer.Rounds
import CodaNode.Consumer.Moves
import CodaNode.Consumer.Sample
import CodaNode.Consumer.Single

set_option autoImplicit false

open Coroutine

namespace CodaNode

variable {Ir : Type} {node : Node Ir} {m : Message} {job_id url : String} {α : Type}
variable {cloud : (String → Option String) → (String → Option String) → Prop}
variable {allow : (q : Req Ir) → World Ir → Except Exn q.Reply → Prop}

/-! ## Lives of a consumer -/

namespace World

/-- A terminal webhook for the job has returned normally. -/
def reported (w : World Ir) (job_id : String) : Prop := w.returned job_id ≠ []

/-- The message was ACK-ed. -/
def has_acked (w : World Ir) (m : Message) : Prop :=
  ∃ took r, w.logged (.ended ⟨some m, .xack m.id⟩ took r)

/-- No job was ACK-ed that is neither cancelled nor reported. -/
def Safe (w : World Ir) : Prop :=
  ∀ m job_id url, m.Carries job_id url → w.has_acked m →
    w.state job_id = some "cancelled" ∨ w.reported job_id

/-- If the job is recorded as completed, it was reported. -/
def rested (w : World Ir) (job_id : String) : Prop :=
  w.state job_id = some "completed" → w.reported job_id

/-- Every job that is recorded as completed was reported. -/
def Rested (w : World Ir) : Prop := ∀ job_id, w.rested job_id

end World

/-- The process has died and another one takes over: the consumer object and its tasks are
new, Redis is as it was left, and the webhooks that returned have returned. -/
def Restarted (cloud : (String → Option String) → (String → Option String) → Prop)
    (w w' : World Ir) : Prop :=
  ∃ w₁, Drift cloud w w₁ ∧
    w' = { w₁ with self := {}, frame := {}, region := .outside, tasks := [], exec := {} }

/-- What a consumer reaches that may crash at any time in a state where `crash` holds, any
number of times. -/
inductive Lives (node : Node Ir)
    (cloud : (String → Option String) → (String → Option String) → Prop)
    (allow : (q : Req Ir) → World Ir → Except Exn q.Reply → Prop) (crash : World Ir → Prop)
    (w : World Ir) : Pool (World Ir) (@Req.Reply Ir) Exn → Prop
  | first {x : Pool (World Ir) (@Req.Reply Ir) Exn} (hx : Reaches node cloud allow w x) :
      Lives node cloud allow crash w x
  | again {x y : Pool (World Ir) (@Req.Reply Ir) Exn} {w' : World Ir}
      (hx : Lives node cloud allow crash w x) (hcrash : crash x.state)
      (hr : Restarted cloud x.state w') (hy : Reaches node cloud allow w' y) :
      Lives node cloud allow crash w y

/-- Redis answers, nobody cancels the task, and each `send_error` returns. -/
def errors_arrive (q : Req Ir) (w : World Ir) (r : Except Exn q.Reply) : Prop :=
  undisturbed q w r ∧ ∀ url job_id text, q.call = .send_error url job_id text → ∃ v, r = .ok v

/-! ## What is known of the jobs -/

variable {w w' : World Ir}

theorem World.reported.mono (h : w.reported job_id) (hlog : w.log <:+ w'.log) :
    w'.reported job_id := by
  obtain ⟨new, hnew⟩ := hlog
  intro hnone
  rw [World.returned, ← hnew, List.filterMap_append] at hnone
  exact h (List.append_eq_nil_iff.1 hnone).2

/-- A job that is closed: cancelled or reported. -/
def World.closed (w : World Ir) (job_id : String) : Prop :=
  w.state job_id = some "cancelled" ∨ w.reported job_id

/-- Nothing is owed. -/
structure Square (w : World Ir) : Prop where
  safe : w.Safe
  rested : w.Rested

/-- Nothing is owed for any other job than this one, for which no message was ACK-ed before
it was reported. -/
structure Held (job_id : String) (w : World Ir) : Prop where
  safe : w.Safe
  rested : ∀ j, j ≠ job_id → w.rested j
  acked : ∀ m url, m.Carries job_id url → w.has_acked m → w.reported job_id

/-- The step leaves the hashes alone and ACKs nothing. -/
structure Still (w w' : World Ir) : Prop where
  hashes : w'.hashes = w.hashes
  log : w.log <:+ w'.log
  acked : ∀ m, w'.has_acked m → w.has_acked m

namespace Still

variable (h : Still w w')
include h

theorem state (j : String) : w'.state j = w.state j := by
  rw [World.state, World.state, h.hashes]

theorem reported (hr : w.reported job_id) : w'.reported job_id := hr.mono h.log

theorem closed (ho : w.closed job_id) : w'.closed job_id :=
  ho.imp (fun hs => (h.state job_id).trans hs) h.reported

theorem safe (hs : w.Safe) : w'.Safe := fun m j u hm ha => h.closed (hs m j u hm (h.acked m ha))

theorem rested {j : String} (hr : w.rested j) : w'.rested j := fun hs =>
  h.reported (hr ((h.state j).symm.trans hs))

theorem square (hc : Square w) : Square w' := ⟨h.safe hc.safe, fun j => h.rested (hc.rested j)⟩

theorem held (hh : Held job_id w) : Held job_id w' :=
  ⟨h.safe hh.safe, fun j hj => h.rested (hh.rested j hj),
    fun m u hm ha => h.reported (hh.acked m u hm (h.acked m ha))⟩

end Still

/-- One more line that is no `XACK`. -/
theorem Still.of_line {x : Entry Ir} (hhashes : w'.hashes = w.hashes) (hlog : w'.log = x :: w.log)
    (hx : ∀ m took r, x.event ≠ .ended ⟨some m, .xack m.id⟩ took r) : Still w w' := by
  refine ⟨hhashes, hlog ▸ List.suffix_cons x w.log, ?_⟩
  rintro m ⟨took, r, y, hy, he⟩
  rw [hlog] at hy
  rcases List.mem_cons.1 hy with rfl | hy
  · exact absurd he (hx m took r)
  · exact ⟨took, r, y, hy, he⟩

theorem Still.of_same (hhashes : w'.hashes = w.hashes) (hlog : w'.log = w.log) : Still w w' := by
  refine ⟨hhashes, hlog ▸ List.suffix_refl _, ?_⟩
  rintro m ⟨took, r, y, hy, he⟩
  exact ⟨took, r, y, hlog ▸ hy, he⟩

theorem Plain.still {G : Region → Region → Prop} {f : World Ir → World Ir}
    (hf : Plain Event.minor G f) (w : World Ir) : Still w (f w) := by
  rcases hf.log w with hl | ⟨e, he, hl⟩
  · exact .of_same (hf.hashes w) hl
  · refine .of_line (hf.hashes w) hl fun m took r hx => ?_
    rw [show e = _ from hx] at he
    cases he

/-- An answer that leaves Redis as it was. -/
theorem Heard.still {c : Call Ir} {r : Except Exn c.Reply} (hc : c.reads = true)
    (h : Heard m c r w w') : Still w w' := by
  obtain ⟨took, hl⟩ := h.log
  refine .of_line h.hashes hl fun m' took' r' hx => ?_
  cases hx
  cases hc

/-- A job that was found open is held: what was ACK-ed for it was reported. -/
theorem Square.held (h : Square w) (hopen : terminal (w.state job_id) = false) : Held job_id w := by
  refine ⟨h.safe, fun j _ => h.rested j, fun m u hm ha => ?_⟩
  rcases h.safe m job_id u hm ha with hc | hr
  · rw [hc] at hopen
    cases hopen
  · exact hr

/-- A job that was found in a terminal state is closed. -/
theorem Square.closed (h : Square w) (hterminal : terminal (w.state job_id) = true) :
    w.closed job_id := by
  rw [terminal, Bool.or_eq_true, beq_iff_eq, beq_iff_eq] at hterminal
  rcases hterminal with hs | hs
  · exact .inr (h.rested job_id hs)
  · exact .inl hs

/-- Once the job is closed, nothing is owed. -/
theorem Held.square (h : Held job_id w) (hover : w.closed job_id) : Square w := by
  refine ⟨h.safe, fun j hs => ?_⟩
  by_cases hj : j = job_id
  · subst hj
    rcases hover with hc | hr
    · exact absurd (hc.symm.trans hs) (by decide)
    · exact hr
  · exact h.rested j hj hs

/-- A record of the job itself. -/
theorem Held.write (h : Held job_id w) {q : Req Ir} {took : Bool} {r : Except Exn q.Reply}
    (mapping : List (String × String)) (hq : ∀ id, q.call ≠ .xack id) :
    Held job_id ((w.hset (status_key job_id) mapping).record (.ended q took r)) := by
  have hlog : w.log <:+ ((w.hset (status_key job_id) mapping).record (.ended q took r)).log :=
    List.suffix_cons _ _
  have hack : ∀ m, ((w.hset (status_key job_id) mapping).record (.ended q took r)).has_acked m →
      w.has_acked m := by
    rintro m ⟨took', r', y, hy, he⟩
    rcases List.mem_cons.1 hy with rfl | hy
    · cases he
      exact absurd rfl (hq m.id)
    · exact ⟨took', r', y, hy, he⟩
  have hstate : ∀ j, j ≠ job_id →
      ((w.hset (status_key job_id) mapping).record (.ended q took r)).state j = w.state j := by
    intro j hj
    rw [World.state_record, World.state_hset, if_neg hj]
  refine ⟨fun m j u hm ha => ?_, fun j hj hs => ?_, fun m u hm ha => ?_⟩
  · by_cases hj : j = job_id
    · subst hj
      exact .inr ((h.acked m u hm (hack m ha)).mono hlog)
    · exact (h.safe m j u hm (hack m ha)).imp (fun hs => (hstate j hj).trans hs) (·.mono hlog)
  · exact (h.rested j hj ((hstate j hj).symm.trans hs)).mono hlog
  · exact (h.acked m u hm (hack m ha)).mono hlog

/-- The `XACK` of a message whose job is closed. -/
theorem Square.ack (h : Square w) {took : Bool} {r : Except Exn Unit}
    (hover : ∀ j u, m.Carries j u → w.closed j) :
    Square ((w.ack m.id).record (.ended ⟨some m, .xack m.id⟩ took r)) := by
  have hlog : w.log <:+ ((w.ack m.id).record (.ended ⟨some m, .xack m.id⟩ took r)).log :=
    List.suffix_cons _ _
  have hmono : ∀ j, w.closed j →
      ((w.ack m.id).record (.ended ⟨some m, .xack m.id⟩ took r)).closed j := fun j =>
    Or.imp id (·.mono hlog)
  refine ⟨?_, fun j hs => (h.rested j hs).mono hlog⟩
  rintro m' j u hm ⟨took', r', y, hy, he⟩
  rcases List.mem_cons.1 hy with rfl | hy
  · cases he
    exact hmono j (hover j u hm)
  · exact hmono j (h.safe m' j u hm ⟨took', r', y, hy, he⟩)

/-! ## The handlers -/

/-- The regime of a consumer without tasks: nobody else writes to Redis or to the log. -/
def solitary (Ir : Type) : Kernel.Regime (World Ir) (Req Ir) Exn where
  inv w := w.Safe
  grows w w' := w'.tasks.map Prod.fst = w.tasks.map Prod.fst
  frame w w' := w'.hashes = w.hashes ∧ w'.log = w.log
  pre _ _ := True
  ended _ := True
  round r w := r = .ok () → Square w

/-- The contract of its loop. -/
abbrev leading_alone (node : Node Ir)
    (cloud : (String → Option String) → (String → Option String) → Prop) :
    Contract (World Ir) (@Req.Reply Ir) Exn :=
  Kernel.Regime.main (consumer node cloud errors_arrive) (solitary Ir)

/-- What lasts while Redis is left alone and nothing is ACK-ed. -/
structure Lasts (F : World Ir → Prop) : Prop where
  safe : ∀ w, F w → w.Safe
  still : ∀ w w', Still w w' → F w → F w'

theorem lasts_square : Lasts fun w : World Ir => Square w := ⟨fun _ h => h.safe, fun _ _ h => h.square⟩

theorem lasts_held : Lasts fun w : World Ir => Held job_id w := ⟨fun _ h => h.safe, fun _ _ h => h.held⟩

theorem lasts_closed : Lasts (fun w : World Ir => Held job_id w ∧ w.closed job_id) :=
  ⟨fun _ h => h.1.safe, fun _ _ hs h => ⟨hs.held h.1, hs.closed h.2⟩⟩

theorem owes_lasting {F : World Ir → Prop} (hF : Lasts F) :
    Owes (leading_alone node cloud) node errors_arrive F where
  pre _ w _ h := ⟨hF.safe w h, trivial⟩
  answer _ _ _ _ h := h
  rely w w' h hr := by
    obtain ⟨-, hhashes, hlog⟩ := hr (hF.safe w h)
    exact ⟨hF.still w w' (.of_same hhashes hlog) h, hlog ▸ List.suffix_refl _⟩
  keep w w' _ h' hext := ⟨hF.safe w' h', congrArg (List.map Prod.fst) hext.tasks⟩

/-- A call for `m` that leaves Redis as it is. -/
def Asks (m : Message) (q : Req Ir) : Prop := q.msg = some m ∧ q.call.reads = true

theorem Polls.asks {q : Req Ir} (h : Polls m q) : Asks m q := by
  refine ⟨h.1, ?_⟩
  have hpolls := h.2
  cases hc : q.call <;> rw [hc] at hpolls <;> first | rfl | cases hpolls

theorem lasts_within {F : World Ir → Prop} (hF : Lasts F) {p : Prog Ir α}
    (hp : Within Roaming (Asks m) p) : (leading_alone node cloud).Keeps F p := by
  refine (owes_lasting hF).within (fun f hf w hw => ?_) (fun q hq => ?_)
    (fun q hq w r w' hw hans _ => ?_) hp
  · exact ⟨hF.still w (f w) (hf.still w) hw, .of_tasks (hf.tasks w) (hf.grows w)⟩
  · cases hc : q.call with
    | xreadgroup count =>
        have hreads := hq.2
        rw [hc] at hreads
        cases hreads
    | _ => rfl
  · obtain ⟨msg, c⟩ := q
    obtain ⟨rfl, hreads⟩ := hq
    exact hF.still w w' ((Heard.of_answers hreads hans).still hreads) hw

section Handlers

variable {F : World Ir → Prop}

/-- A read of Redis for `m`, which is answered. -/
theorem lasts_ask (hF : Lasts F) {c : Call Ir} (hc : c.reads = true) (hredis : c.is_redis = true)
    (h : F w) {Q : Except Exn c.Reply → World Ir → Prop}
    (hQ : ∀ v w₁ w', F w' → answers node ⟨some m, c⟩ w₁ (.ok v) w' → Q (.ok v) w') :
    (leading_alone node cloud).wp (on m c) Q w := by
  have howes : Owes (leading_alone node cloud) node errors_arrive F := owes_lasting hF
  have hread : c.reads_group = false := by cases c <;> first | rfl | cases hc
  refine (Contract.wp_call _ _ _).2 ⟨howes.pre _ w hread h, fun w₁ hr r w₂ ha => ?_⟩
  obtain ⟨h₁, -⟩ := howes.rely w w₁ h hr
  obtain ⟨hans, hall⟩ := howes.answer _ _ _ _ ha
  have hgroup : c ≠ .xgroup_create := by
    rintro rfl
    cases hc
  obtain ⟨v, rfl⟩ := hall.1.1.ok hredis hgroup
  have h₂ : F w₂ := hF.still w₁ w₂ ((Heard.of_answers hc hans).still hc) h₁
  exact ⟨howes.keep w₁ w₂ h₁ h₂ (Answered.of_answers hans).extends, hQ v w₁ w₂ h₂ hans⟩

theorem lasts_check (hF : Lasts F) (h : F w) {Q : Except Exn Bool → World Ir → Prop}
    (hQ : ∀ b w', F w' → Q (.ok b) w') :
    (leading_alone node cloud).wp (has_cancel_signal m job_id) Q w :=
  (Contract.wp_bind _ _ _ _).2 (lasts_ask hF rfl rfl h fun v _ w' h' _ => hQ _ w' h')

/-- A step of the handler's own. -/
theorem lasts_update (hF : Lasts F) {f : World Ir → World Ir} (hf : Roaming f) (h : F w)
    {Q : Except Exn Unit → World Ir → Prop} (hQ : F (f w) → Q (.ok ()) (f w)) :
    (leading_alone node cloud).wp (Co.update f) Q w := by
  have h' : F (f w) := hF.still w (f w) (hf.still w) h
  exact ⟨(owes_lasting hF).keep w (f w) h h' (.of_tasks (hf.tasks w) (hf.grows w)), hQ h'⟩

/-- The handler reads the clock. -/
theorem lasts_look (hF : Lasts F) {g : World Ir → α} (h : F w)
    {Q : Except Exn α → World Ir → Prop} (hQ : Q (.ok (g w)) w) :
    (leading_alone node cloud).wp (Co.look g) Q w :=
  ⟨(owes_lasting hF).keep w w h h (.refl w), hQ⟩

/-- A record of the job: it is written, and the job is held as before. -/
theorem held_hset {mapping : List (String × String)} (h : Held job_id w)
    {Q : Except Exn Bool → World Ir → Prop}
    (hQ : ∀ w', Held job_id w' → (∀ st, record_state mapping = some st →
      w'.state job_id = some st) → Q (.ok true) w') :
    (leading_alone node cloud).wp (safe_hset m (status_key job_id) mapping) Q w := by
  have howes : Owes (leading_alone node cloud) node errors_arrive (Held job_id) :=
    owes_lasting lasts_held
  refine (Contract.wp_try_except _ _ _ _).2 ((Contract.wp_bind _ _ _ _).2
    ((Contract.wp_call _ _ _).2 ⟨howes.pre _ w rfl h, fun w₁ hr r w₂ ha => ?_⟩))
  obtain ⟨h₁, -⟩ := howes.rely w w₁ h hr
  obtain ⟨hans, hall⟩ := howes.answer _ _ _ _ ha
  obtain ⟨⟨⟩, rfl⟩ := hall.1.1.ok rfl (by simp)
  have hext := (Answered.of_answers hans).extends
  obtain ⟨w₃, rfl, rfl⟩ := answers_ok.1 hans
  have h₂ : Held job_id ((w₁.hset (status_key job_id) mapping).record
      (.ended ⟨some m, .hset (status_key job_id) mapping⟩ true (.ok ()))) :=
    h₁.write mapping (by simp)
  exact ⟨howes.keep w₁ _ h₁ h₂ hext, hQ _ h₂ fun st hst => World.state_write w₁ job_id hst⟩

/-- `_mark_job_cancelled`: the job is closed. -/
theorem held_mark_job_cancelled (h : Held job_id w) :
    (leading_alone node cloud).wp (mark_job_cancelled node m job_id)
      (fun r w' => r = .ok () ∧ Held job_id w' ∧ w'.closed job_id) w := by
  refine (Contract.wp_bind _ _ _ _).2 (lasts_look lasts_held h ?_)
  refine (Contract.wp_bind _ _ _ _).2 (held_hset h fun w₁ h₁ hst => ?_)
  exact ⟨rfl, h₁, .inl (hst _ (record_state_cancelled node m _))⟩

/-- A webhook that returns has reported the job. -/
theorem held_post {c : Call Ir} (hc : c.reads = true) (hreports : c.reports job_id = true)
    (h : Held job_id w) :
    (leading_alone node cloud).wp (do
        Co.update (·.record (.started ⟨some m, c⟩))
        on m c : Prog Ir c.Reply)
      (fun r w' => Held job_id w' ∧ (∀ v, r = .ok v → w'.reported job_id) ∧
        ∃ w₁, errors_arrive ⟨some m, c⟩ w₁ r) w := by
  have howes : Owes (leading_alone node cloud) node errors_arrive (Held job_id) :=
    owes_lasting lasts_held
  have hread : c.reads_group = false := by cases c <;> first | rfl | cases hc
  have hstill : Still w (w.record (.started ⟨some m, c⟩)) :=
    .of_line rfl rfl fun m' took r he => by cases he
  have hstart := hstill.held h
  refine (Contract.wp_bind _ _ _ _).2
    ⟨howes.keep _ _ h hstart (.of_tasks rfl (List.suffix_cons _ _)), ?_⟩
  refine (Contract.wp_call _ _ _).2 ⟨howes.pre _ _ hread hstart, fun w₁ hr r w₂ ha => ?_⟩
  obtain ⟨h₁, -⟩ := howes.rely _ w₁ hstart hr
  obtain ⟨hans, hall⟩ := howes.answer _ _ _ _ ha
  have hheard := Heard.of_answers hc hans
  have h₂ : Held job_id w₂ := (hheard.still hc).held h₁
  refine ⟨howes.keep w₁ w₂ h₁ h₂ (Answered.of_answers hans).extends, h₂, ?_, w₁, hall⟩
  rintro v rfl
  obtain ⟨w₃, -, rfl⟩ := answers_ok.1 hans
  rw [World.reported, World.returned_ok, if_pos hreports]
  exact List.cons_ne_nil _ _

/-- How the `try` block ends: a job that is not cut short was reported. -/
theorem held_execute {decoded : List (String × String)} (h : Held job_id w) :
    (leading_alone node cloud).wp (execute node m decoded job_id url)
      (fun r w' => Held job_id w' ∧ (r = .ok () → w'.reported job_id)) w := by
  have herr : ∀ (e : Exn) (w' : World Ir), Held job_id w' →
      Held job_id w' ∧ ((.error e : Except Exn Unit) = .ok () → w'.reported job_id) :=
    fun e w' h' => ⟨h', fun he => by cases he⟩
  have hrun : ∀ ir shots, (leading_alone node cloud).Keeps (Held job_id)
      (run_job_with_cancellation node m job_id ir shots) := fun ir shots =>
    lasts_within lasts_held
      ((polls_run_job Roaming.permits.toManages.runs).mono (fun _ hf => hf) fun _ hq => hq.asks)
  refine (Contract.Keeps.of_except _).wp_bind h herr fun job w₁ h₁ => ?_
  refine (hrun _ _).wp_bind h₁ herr fun result w₂ h₂ => ?_
  refine (Contract.wp_bind _ _ _ _).2 (lasts_check lasts_held h₂ fun b w₃ h₃ => ?_)
  cases b with
  | true => exact herr _ w₃ h₃
  | false =>
      refine (Contract.wp_bind _ _ _ _).2 (lasts_look lasts_held h₃ ?_)
      refine (Contract.wp_bind _ _ _ _).2 (held_hset h₃ fun w₄ h₄ _ => ?_)
      refine (Contract.wp_bind _ _ _ _).2 (lasts_check lasts_held h₄ fun b w₅ h₅ => ?_)
      cases b with
      | true => exact herr _ w₅ h₅
      | false =>
          refine (Contract.wp_bind _ _ _ _).2 (Contract.wp_mono
            (held_post rfl (by simp [Call.reports, completed_payload]) h₅) fun r w₆ h₆ => ?_)
          obtain ⟨h₆, hreported, -⟩ := h₆
          cases r with
          | error e => exact herr e w₆ h₆
          | ok u =>
              have hlast : Within Roaming (Asks m) (do
                  let last_job_at ← now
                  Co.update (·.set_self ({ · with last_job_at := some last_job_at }))
                  : Prog Ir Unit) :=
                (Within.look Roaming.permits.look).bind fun _ =>
                  Within.update (Roaming.permits.self _ fun _ => ⟨rfl, rfl, rfl⟩)
              have hdone : Lasts fun w : World Ir => Held job_id w ∧ w.reported job_id :=
                ⟨fun _ h => h.1.safe, fun _ _ hs h => ⟨hs.held h.1, hs.reported h.2⟩⟩
              exact Contract.wp_mono (lasts_within hdone hlast w₆ ⟨h₆, hreported u rfl⟩)
                fun _ _ h₇ => ⟨h₇.1, fun _ => h₇.2⟩

/-- The `except` clauses: the job is cancelled, or its error reported. -/
theorem held_on_exception {e : Exn} (he : e ≠ .cancelled) (h : Held job_id w) :
    (leading_alone node cloud).wp (on_exception node m job_id url e)
      (fun _ w' => Held job_id w' ∧ w'.closed job_id) w := by
  have hmark : ∀ w', Held job_id w' → (leading_alone node cloud).wp (mark_job_cancelled node m job_id)
      (fun _ w'' => Held job_id w'' ∧ w''.closed job_id) w' := fun w' h' =>
    Contract.wp_mono (held_mark_job_cancelled h') fun _ _ h'' => h''.2
  have hstill : Still w (w.enter .handler) := .of_same rfl rfl
  have henter := hstill.held h
  have hkeep : (leading_alone node cloud).keep w (w.enter .handler) :=
    (owes_lasting lasts_held).keep w _ h henter (.of_tasks rfl (List.suffix_refl _))
  have hreport : (leading_alone node cloud).wp (report_failure node m job_id url e)
      (fun _ w' => Held job_id w' ∧ w'.closed job_id) (w.enter .handler) := by
    refine (Contract.wp_bind _ _ _ _).2 (lasts_check lasts_held henter fun b w₁ h₁ => ?_)
    cases b with
    | true => exact hmark w₁ h₁
    | false =>
        refine (Contract.wp_bind _ _ _ _).2 (lasts_look lasts_held h₁ ?_)
        refine (Contract.wp_bind _ _ _ _).2 (held_hset h₁ fun w₂ h₂ _ => ?_)
        refine (Contract.wp_try_except _ _ _ _).2 (Contract.wp_mono
          (held_post rfl (by simp [Call.reports]) h₂) fun r w₃ h₃ => ?_)
        obtain ⟨h₃, hreported, w₄, hall⟩ := h₃
        obtain ⟨v, rfl⟩ := hall.2 _ _ _ rfl
        exact ⟨h₃, .inr (hreported v rfl)⟩
  cases e with
  | cancelled => exact absurd rfl he
  | job_cancelled => exact (Contract.wp_bind _ _ _ _).2 ⟨hkeep, hmark _ henter⟩
  | _ => exact (Contract.wp_bind _ _ _ _).2 ⟨hkeep, hreport⟩

/-- The `XACK` of a message whose job is closed. -/
theorem square_xack (h : Square w) (hover : ∀ j u, m.Carries j u → w.closed j) :
    (leading_alone node cloud).wp (safe_xack m) (fun _ w' => Square w') w := by
  have hF : Lasts fun w : World Ir => Square w ∧ ∀ j u, m.Carries j u → w.closed j :=
    ⟨fun _ h => h.1.safe, fun _ _ hs h => ⟨hs.square h.1, fun j u hm => hs.closed (h.2 j u hm)⟩⟩
  have howes : Owes (leading_alone node cloud) node errors_arrive
      (fun w : World Ir => Square w ∧ ∀ j u, m.Carries j u → w.closed j) := owes_lasting hF
  refine (Contract.wp_try_except _ _ _ _).2 ((Contract.wp_bind _ _ _ _).2
    ((Contract.wp_call _ _ _).2 ⟨howes.pre _ w rfl ⟨h, hover⟩, fun w₁ hr r w₂ ha => ?_⟩))
  obtain ⟨h₁, -⟩ := howes.rely w w₁ ⟨h, hover⟩ hr
  obtain ⟨hans, hall⟩ := howes.answer _ _ _ _ ha
  obtain ⟨⟨⟩, rfl⟩ := hall.1.1.ok rfl (by simp)
  have hext := (Answered.of_answers hans).extends
  obtain ⟨w₃, rfl, rfl⟩ := answers_ok.1 hans
  have h₂ : Square ((w₁.ack m.id).record (.ended ⟨some m, .xack m.id⟩ true (.ok ()))) :=
    h₁.1.ack h₁.2
  exact ⟨(owes_lasting lasts_square).keep w₁ _ h₁.1 h₂ hext, h₂⟩

/-- A message carries one job. -/
theorem closed_of_header {decoded : List (String × String)}
    (hm : m.header = .ok (decoded, job_id, url)) (hover : w.closed job_id) :
    ∀ j u, m.Carries j u → w.closed j := by
  rintro j u ⟨decoded', hm'⟩
  rw [hm] at hm'
  cases hm'
  exact hover

/-- The job is taken on, and when it is let go it is closed. -/
theorem square_take_on (hnode : node.Ordinary) {decoded : List (String × String)}
    (hm : m.header = .ok (decoded, job_id, url)) (h : Held job_id w) :
    (leading_alone node cloud).wp (take_on node m decoded job_id url)
      (fun _ w' => Square w') w := by
  have htake : Roaming (fun w : World Ir =>
      w.set_self ({ · with idle := false, current_job_id := some job_id })) :=
    Roaming.permits.self _ fun _ => ⟨rfl, rfl, rfl⟩
  have hidle : Roaming (fun w : World Ir =>
      w.set_self ({ · with current_job_id := none, idle := true })) :=
    Roaming.permits.self _ fun _ => ⟨rfl, rfl, rfl⟩
  have hrelease : ∀ w, Held job_id w ∧ w.closed job_id →
      (leading_alone node cloud).wp (release m) (fun _ w' => Square w') w := by
    intro w h
    refine (Contract.wp_bind _ _ _ _).2 (lasts_update lasts_closed (Roaming.enter .cleanup) h
      fun h₁ => ?_)
    refine (Contract.wp_bind _ _ _ _).2 (Contract.wp_mono
      (square_xack (h₁.1.square h₁.2) (closed_of_header hm h₁.2)) fun r w₂ h₂ => ?_)
    cases r with
    | error e => exact h₂
    | ok b =>
        refine (Contract.wp_bind _ _ _ _).2 (lasts_update lasts_square hidle h₂ fun h₃ => ?_)
        exact lasts_update lasts_square (Roaming.enter .outside) h₃ fun h₄ => h₄
  refine (Contract.wp_bind _ _ _ _).2 (lasts_update lasts_held htake h fun h₁ => ?_)
  refine (Contract.wp_bind _ _ _ _).2 (lasts_look lasts_held h₁ ?_)
  refine (Contract.wp_bind _ _ _ _).2 (held_hset h₁ fun w₂ h₂ _ => ?_)
  refine (Contract.wp_bind _ _ _ _).2 (lasts_update lasts_held (Roaming.enter .body) h₂
    fun h₃ => ?_)
  have hanswer : ∀ q w r w', (leading_alone node cloud).answer q w r w' →
      errors_arrive q w r := fun _ _ _ _ ha => ha.2
  have hcalm : Calm (execute node m decoded job_id url) := calm_execute hnode
  refine (Contract.wp_try_finally _ _ _ _).2 (Contract.wp_mono
    (Q := fun _ w' => Held job_id w' ∧ w'.closed job_id)
    ((Contract.wp_try_except _ _ _ _).2 (Contract.wp_mono
      (hcalm.wp (fun q w r w' ha => (hanswer q w r w' ha).1.2) (held_execute h₃))
      fun r w₄ h₄ => ?_)) fun r w₅ h₅ => ?_)
  · cases r with
    | ok u => exact ⟨h₄.1.1, .inr (h₄.1.2 rfl)⟩
    | error e => exact held_on_exception (h₄.2 e rfl) h₄.1.1
  · refine Contract.wp_mono (hrelease w₅ h₅) fun u w₆ h₆ => ?_
    cases u <;> exact h₆

/-- **A message**: before and after it, nothing is owed. -/
theorem square_process_message (hnode : node.Ordinary) :
    (leading_alone node cloud).Keeps Square (process_message node m) := by
  intro w h
  refine (Contract.wp_bind _ _ _ _).2 (lasts_update lasts_square (Roaming.enter .outside) h
    fun h₁ => ?_)
  refine (Contract.wp_bind _ _ _ _).2 (lasts_update lasts_square (Roaming.mark _ rfl) h₁
    fun h₂ => ?_)
  have hskip : ∀ w', Square w' → (∀ j u, m.Carries j u → w'.closed j) →
      (leading_alone node cloud).wp (do let _ ← safe_xack m : Prog Ir Unit)
        (fun _ w'' => Square w'') w' := by
    intro w' h' hover
    refine (Contract.wp_bind _ _ _ _).2 (Contract.wp_mono (square_xack h' hover) fun r w'' h'' => ?_)
    cases r <;> exact h''
  rw [Contract.and_then_ok]
  cases decode_fields m.fields with
  | error e => exact h₂
  | ok fields =>
      dsimp only
      cases hm : m.header with
      | error e =>
          refine hskip _ h₂ ?_
          rintro j u ⟨decoded, hm'⟩
          rw [hm] at hm'
          cases hm'
      | ok header =>
          obtain ⟨decoded, job_id, url⟩ := header
          refine (Contract.wp_bind _ _ _ _).2 (lasts_ask lasts_square rfl rfl h₂
            fun st w₃ w₄ h₄ hans => ?_)
          have hst : st = w₄.state job_id := by
            obtain ⟨w₅, ⟨rfl, rfl⟩, rfl⟩ := answers_ok.1 hans
            rfl
          rw [Contract.and_then_ok]
          cases hterminal : terminal st with
          | true =>
              rw [if_pos rfl]
              rw [hst] at hterminal
              exact hskip w₄ h₄ (closed_of_header hm (h₄.closed hterminal))
          | false =>
              rw [if_neg Bool.false_ne_true]
              rw [hst] at hterminal
              have hheld := h₄.held hterminal
              refine (Contract.wp_bind _ _ _ _).2 (lasts_check lasts_held hheld
                fun b w₅ h₅ => ?_)
              cases b with
              | false => exact square_take_on hnode hm h₅
              | true =>
                  refine (Contract.wp_bind _ _ _ _).2
                    (Contract.wp_mono (held_mark_job_cancelled h₅) fun r w₆ h₆ => ?_)
                  obtain ⟨rfl, h₆, hover⟩ := h₆
                  exact hskip w₆ (h₆.square hover) (closed_of_header hm hover)

end Handlers

/-! ## The loop -/

/-- An operation of the loop leaves the hashes alone and ACKs nothing. -/
theorem still_of_answers {q : Req Ir} {r : Except Exn q.Reply} (hq : q.call.prompt = false)
    (h : answers node q w r w') : Still w w' := by
  have hperf : ∀ {v : q.Reply} {w₁ : World Ir}, performs node q.call w v w₁ →
      w₁.hashes = w.hashes := by
    obtain ⟨msg, c⟩ := q
    intro v w₁ hp
    cases c with
    | xgroup_create => obtain ⟨-, rfl⟩ := hp; rfl
    | xreadgroup count => obtain ⟨n, -, rfl, -⟩ := hp; rfl
    | xpending_range count => obtain ⟨-, rfl⟩ := hp; rfl
    | xrange id => obtain ⟨-, rfl⟩ := hp; rfl
    | batch_run k jobs => obtain ⟨-, rfl⟩ := hp; rfl
    | begin => cases hp; rfl
    | gather tasks => obtain ⟨-, rfl⟩ := hp; rfl
    | join task => obtain ⟨-, rfl⟩ := hp; rfl
    | sleep secs => cases hp; rfl
    | _ => cases hq
  have hhashes : w'.hashes = w.hashes := by
    rcases h with ⟨v, w₁, hp, -, rfl⟩ | ⟨e, -, -, -, rfl⟩ | ⟨e, v, w₁, -, -, hp, -, rfl⟩
    · exact (hperf hp : w₁.hashes = w.hashes)
    · rfl
    · exact (hperf hp : w₁.hashes = w.hashes)
  obtain ⟨took, hl⟩ := (Answered.of_answers h).log
  refine .of_line hhashes hl fun m took' r' hx => ?_
  cases hx
  cases hq

theorem Bookkeeping.still {f : World Ir → World Ir} (hf : Bookkeeping f) (w : World Ir) :
    Still w (f w) := by
  rcases hf.log w with hl | ⟨x, hl⟩
  · exact .of_same (hf.hashes w) hl
  · exact .of_line (hf.hashes w) hl fun m took r hx => by cases hx

theorem square_loops (hsingle : node.can_batch = false) (hnode : node.Ordinary) :
    Loops (leading_alone node cloud) node errors_arrive Square (fun _ => False) Square
      fun _ _ => False := by
  have howes : Owes (leading_alone node cloud) node errors_arrive Square := owes_lasting lasts_square
  have hself : ∀ f : Attributes → Attributes, (leading_alone node cloud).Keeps Square
      (Co.update (·.set_self f) : Prog Ir Unit) := fun f =>
    howes.update fun w h => ⟨((Chore.self f).bookkeeping.still w).square h, .of_tasks rfl (List.suffix_refl _)⟩
  have halone : ∀ c : Call Ir, c.prompt = false → c.reads_group = false →
      (leading_alone node cloud).Keeps Square (alone c) := fun c hc hread =>
    howes.call hread fun w r w' h hans _ => (still_of_answers hc hans).square h
  exact {
    owes := howes
    call := fun c _ hc w r w' h hans _ => (still_of_answers hc hans).square h
    recovery := fun w h => ((Bookkeeping.starts .recovery).still w).square h
    message := fun m => (square_process_message hnode).unless
    errand := fun f hf w h => (hf.chore.bookkeeping.still w).square h
    batch := fun hcan => absurd (hsingle.symm.trans hcan) Bool.false_ne_true
    pending := fun _ _ h => h.elim
    top_of := fun _ h => h
    top_owes := howes
    top_errand := fun f hf w h => (hf.chore.bookkeeping.still w).square h
    read := fun _ w h => ⟨h.safe, trivial⟩
    top_read := fun _ w r w' h hans _ => (still_of_answers rfl hans).square h
    top_sleep := fun _ w r w' h hans _ => (still_of_answers rfl hans).square h
    rest := fun _ h _ => h
    join := fun t w h _ => by
      refine Contract.wp_mono (((halone (.join t) rfl rfl).bind fun _ =>
        hself ({ · with pending_batch_delivery := none })) w h) fun r w' h' => ?_
      cases r <;> exact h' }

/-- A round of the single-job consumer. -/
theorem square_round {p : Prog Ir Unit}
    (hp : ∀ w, Square w → (leading_alone node cloud).wp p
      (fun r w' => Square w' ∨ ∃ e, r = .error e ∧ Abandoned (fun _ => False) e w') w)
    (h : Square w) : (leading_alone node cloud).wp p
      (fun r w' => w'.Safe ∧ (solitary Ir).round r w') w := by
  refine Contract.wp_mono (hp w h) fun r w' h' => ?_
  rcases h' with h' | ⟨e, -, -, h'⟩
  · exact ⟨h'.safe, fun _ => h'⟩
  · exact h'.elim

theorem solitary_sound (hsingle : node.can_batch = false) (hnode : node.Ordinary) :
    Kernel.Regime.Sound (consumer node cloud errors_arrive) (solitary Ir) where
  refl _ := ⟨rfl, rfl⟩
  trans _ _ _ h h' := ⟨h'.1.trans h.1, h'.2.trans h.2⟩
  grows_refl _ := rfl
  grows_trans _ _ _ h h' := Eq.trans h' h
  spawned w w' h := by
    have hspecs : w'.tasks.map Prod.fst = w.tasks.map Prod.fst := h
    show w.tasks.map Prod.fst <+: w'.tasks.map Prod.fst
    rw [hspecs]
  drift w w' hd := by
    have htasks : w'.tasks.map Prod.fst = w.tasks.map Prod.fst := by rw [Drift.tasks hd]
    exact ⟨htasks, fun hi => ⟨(Still.of_same (Drift.hashes hd) (Drift.log hd)).safe hi,
      ⟨Drift.hashes hd, Drift.log hd⟩, htasks⟩⟩
  finish i r w := ⟨w.finish_task_specs i r, fun hi _ =>
    ⟨(Still.of_same rfl rfl : Still w (w.finish_task i r)).safe hi, ⟨rfl, rfl⟩,
      w.finish_task_specs i r⟩⟩
  body w w' i t hg _ hle ht := by
    -- no step of the single-job consumer creates a task
    have hspecs : w'.tasks.map Prod.fst = w.tasks.map Prod.fst := hg
    have hnone : (w.tasks.map Prod.fst)[i]? = some t := hspecs ▸ ht
    have hlen : (w.tasks.map Prod.fst).length ≤ i := hle
    rw [List.getElem?_eq_none hlen] at hnone
    cases hnone
  again w q _ hround hq := by
    obtain rfl := eq_iteration_of_again hq
    exact square_round (fun _ h => (square_loops hsingle hnode).iteration _ h) (hround rfl)

/-- One life: where nothing is owed at its start, nothing is ACK-ed unreported. -/
theorem safe_life (hsingle : node.can_batch = false) (hnode : node.Ordinary)
    (htasks : w.tasks = []) (h : Square w) {x : Pool (World Ir) (@Req.Reply Ir) Exn}
    (hx : Reaches node cloud errors_arrive w x) : x.state.Safe := by
  have hspawned : (consumer node cloud errors_arrive).spawned w = [] := by
    show w.tasks.map Prod.fst = []
    rw [htasks]
    rfl
  exact ((solitary_sound hsingle hnode).run hspawned h.safe
    (square_round (fun _ h => (square_loops hsingle hnode).startup h) h) hx).inv

/-- Redis answers here, and what returns normally is no error. -/
theorem errors_arrive_ok (q : Req Ir) (w : World Ir) (v : q.Reply) :
    errors_arrive q w (.ok v) := ⟨undisturbed_ok q w v, fun _ _ _ _ => ⟨v, rfl⟩⟩

/-- The consumer died after it recorded the job as completed; the job's message is the first
that a restarted consumer recovers. -/
structure Unacked (m : Message) (job_id url : String) (w : World Ir) : Prop where
  carries : m.Carries job_id url
  completed : w.state job_id = some "completed"
  group : w.group = true
  pending : ∃ rest, w.pending = m.id :: rest
  stream : ∃ rest, w.stream.filter (·.id = m.id) = m :: rest

/-- A message whose job is recorded as completed can be ACK-ed and skipped. -/
theorem can_skip (hrefl : ∀ v, cloud v v) {decoded : List (String × String)}
    (hm : m.header = .ok (decoded, job_id, url)) (hstate : w.state job_id = some "completed") :
    (consumer node cloud errors_arrive).toHost.Can (process_message node m)
      (fun r w' => r = .ok () ∧ w'.has_acked m ∧ w'.hashes = w.hashes ∧
        w'.returned job_id = w.returned job_id) w := by
  have hfields := m.decode_fields_of_header hm
  have hstay : ∀ w' : World Ir, Drift cloud w' w' := Drift.refl hrefl
  unfold process_message
  simp only [hfields, hm]
  refine ⟨_, hstay _, .ok (some "completed"), _,
    ⟨answers_ok.2 ⟨_, ⟨hstate.symm, rfl⟩, rfl⟩, errors_arrive_ok _ _ _⟩, ?_⟩
  exact ⟨_, hstay _, .ok (), _, ⟨answers_ok.2 ⟨_, rfl, rfl⟩, errors_arrive_ok _ _ _⟩, rfl,
    ⟨true, .ok (), World.logged_record _ _⟩, rfl, rfl⟩

/-- What the recovery of a consumer can do with the first of its pending messages, a run can
show. -/
theorem recovery_leads (hrefl : ∀ v, cloud v v)
    (hok : ∀ (q : Req Ir) (w : World Ir) (v : q.Reply), q.call.reads_group = false →
      allow q w (.ok v))
    (hbusy : ∀ w : World Ir, w.group = true →
      allow ⟨none, .xgroup_create⟩ w (.error (.response "BUSYGROUP")))
    (hgroup : w.group = true) {rest : List String} (hpending : w.pending = m.id :: rest)
    {others : List Message} (hstream : w.stream.filter (·.id = m.id) = m :: others)
    {P : World Ir → Prop} (hP : ∀ w w', w'.hashes = w.hashes → w'.log = w.log → P w → P w')
    (hcan : ∀ w₁, w₁.hashes = w.hashes → w₁.values = w.values →
      (∀ j, w₁.returned j = w.returned j) → (consumer node cloud allow).toHost.Can
        (process_message node m) (fun r w' => r = .ok () ∧ P w') w₁) :
    ∃ x, Reaches node cloud allow w x ∧ P x.state := by
  have hstay : ∀ w' : World Ir, Drift cloud w' w' := Drift.refl hrefl
  refine Kernel.Leads.start (Kernel.Leads.bind ?_)
  show Kernel.Leads _ _ (setup >>= _) _
  -- the group exists already
  refine Kernel.Leads.bind ⟨_, hstay _, .error (.response "BUSYGROUP"), _,
    ⟨answers_error.2 ⟨(nomatch ·), .inl ⟨rfl, rfl⟩⟩, hbusy _ hgroup⟩, ?_⟩
  show Kernel.Leads _ _ (recover_pending node >>= _) _
  rw [recover_pending, Co.bind_assoc]
  refine Kernel.Leads.bind ?_
  show Kernel.Leads _ _ ((alone (.xpending_range 100) >>= recover_each node) >>= _) _
  rw [Co.bind_assoc]
  refine Kernel.Leads.bind ⟨_, hstay _, .ok (m.id :: rest.take 99), _,
    ⟨answers_ok.2 ⟨_, ⟨by rw [← List.take_succ_cons, ← hpending]; rfl, rfl⟩, rfl⟩,
      hok _ _ _ rfl⟩, ?_⟩
  show Kernel.Leads _ _ (recover_each node (m.id :: rest.take 99) >>= _) _
  rw [recover_each, Co.bind_assoc]
  refine Kernel.Leads.bind ⟨_, hstay _, .ok (m :: others), _,
    ⟨answers_ok.2 ⟨_, ⟨hstream.symm, rfl⟩, rfl⟩, hok _ _ _ rfl⟩, ?_⟩
  show Kernel.Leads _ _ ((process_message node m >>= _) >>= _) _
  rw [Co.bind_assoc]
  refine Kernel.Leads.bind (Host.can_mono _ (hcan _ rfl rfl fun _ => rfl) ?_)
  rintro r w' ⟨rfl, hw'⟩
  refine Kernel.Leads.here fun _ => ?_
  cases hrest : rest.take 99 with
  | cons next rest' => exact hP w' _ rfl rfl hw'
  | nil =>
      -- recovery is over; a consumer that was not stopped goes on to read
      cases hrun : w'.self.running with
      | false =>
          rw [Kernel.advance_ret _ rfl (if_neg (by simpa using hrun))]
          exact hP w' _ rfl rfl hw'
      | true =>
          rw [Kernel.advance_again _ rfl (if_pos hrun)]
          exact hP w' _ rfl rfl hw'

/-- The message was ACK-ed, and of its job nothing has changed. -/
def Skipped (m : Message) (job_id : String) (w w' : World Ir) : Prop :=
  w'.has_acked m ∧ w'.state job_id = w.state job_id ∧ w'.returned job_id = w.returned job_id

/-- A restarted consumer can ACK the message of a job that was recorded as completed, without
a report. -/
theorem restart_skips (hrefl : ∀ v, cloud v v) (h : Unacked m job_id url w) :
    ∃ w', Restarted cloud w w' ∧
      ∃ x, Reaches node cloud errors_arrive w' x ∧ Skipped m job_id w x.state := by
  obtain ⟨decoded, hm⟩ := h.carries
  obtain ⟨rest, hpending⟩ := h.pending
  obtain ⟨others, hstream⟩ := h.stream
  let w₀ : World Ir := { w with
    self := {}, frame := {}, region := .outside, tasks := [], exec := {} }
  refine ⟨w₀, ⟨w, Drift.refl hrefl w, rfl⟩, ?_⟩
  refine recovery_leads (w := w₀) hrefl (fun q w v _ => errors_arrive_ok q w v)
    (fun w hgroup => ⟨⟨fun _ => .inr ⟨rfl, hgroup, _, by decide, rfl⟩, (nomatch ·)⟩,
      fun _ _ _ hc => nomatch hc⟩) h.group hpending hstream ?_ ?_
  · rintro w₁ w₂ hhashes hlog ⟨⟨took, r, x, hx, he⟩, hstate, hreturned⟩
    refine ⟨⟨took, r, x, hlog ▸ hx, he⟩, ?_, ?_⟩
    · rw [World.state, hhashes]
      exact hstate
    · rw [World.returned, hlog]
      exact hreturned
  · intro w₁ hhashes _ hreturned
    have hcompleted : w₁.state job_id = some "completed" := by
      rw [World.state, hhashes]
      exact h.completed
    refine Host.can_mono _ (can_skip hrefl hm hcompleted) ?_
    rintro r w₂ ⟨rfl, hack, hhashes₂, hreturned₂⟩
    refine ⟨rfl, hack, ?_, hreturned₂.trans (hreturned job_id)⟩
    rw [World.state, hhashes₂, hhashes]
    rfl

/-- The node of the lives below. -/
def crashing_node : Node String := sample_node (.runs 0 (.ok sample_result)) none

def crashing_message : Message := sample_message "1-0" "job-1" sample_ir

/-- A life of the consumer until it posts the result, and one step further. -/
structure Posting (x y : Pool (World String) (@Req.Reply String) Exn) : Prop where
  reaches : Reaches crashing_node sets_only errors_arrive (sample_world [crashing_message]) x
  before : Unacked crashing_message "job-1" "https://example.com/hook" x.state
  unreported : ¬ x.state.reported "job-1"
  posts : (consumer crashing_node sets_only errors_arrive).Step x y
  after : Unacked crashing_message "job-1" "https://example.com/hook" y.state
  rested : y.state.Rested

set_option maxRecDepth 40000 in
/-- The consumer takes the message, runs the job, and posts the result. -/
theorem posting_run : ∃ x y, Posting x y := by
  have hok : ∀ (q : Req String) (w : World String) (v : q.Reply), errors_arrive q w (.ok v) :=
    errors_arrive_ok
  suffices hx : ∃ x, Reaches crashing_node sets_only errors_arrive
      (sample_world [crashing_message]) x ∧ ∃ y,
      Unacked crashing_message "job-1" "https://example.com/hook" x.state ∧
      ¬ x.state.reported "job-1" ∧ (consumer crashing_node sets_only errors_arrive).Step x y ∧
      Unacked crashing_message "job-1" "https://example.com/hook" y.state ∧
      y.state.Rested by
    obtain ⟨x, hx, y, hbefore, hunreported, hstep, hafter, hrested⟩ := hx
    exact ⟨x, y, hx, hbefore, hunreported, hstep, hafter, hrested⟩
  -- startup and the read
  refine Kernel.exists_run_of_main _ (r := .ok ()) rfl
    ⟨answers_ok.2 ⟨_, ⟨rfl, rfl⟩, rfl⟩, hok _ _ _⟩ ?_
  refine Kernel.exists_run_of_main _ (r := .ok []) rfl
    ⟨answers_ok.2 ⟨_, ⟨rfl, rfl⟩, rfl⟩, hok _ _ _⟩ ?_
  refine Kernel.exists_run_of_main _ (r := .ok [(crashing_node.stream, [_])]) rfl
    ⟨answers_ok.2 ⟨_, ⟨1, by decide, rfl, rfl⟩, rfl⟩, hok _ _ _⟩ ?_
  -- the job, up to its completion
  refine Kernel.exists_run_of_main _ (r := .ok none) rfl
    ⟨answers_ok.2 ⟨_, ⟨rfl, rfl⟩, rfl⟩, hok _ _ _⟩ ?_
  refine Kernel.exists_run_of_main _ (r := .ok none) rfl
    ⟨answers_ok.2 ⟨_, ⟨rfl, rfl⟩, rfl⟩, hok _ _ _⟩ ?_
  refine Kernel.exists_run_of_main _ (r := .ok ()) rfl
    ⟨answers_ok.2 ⟨_, rfl, rfl⟩, hok _ _ _⟩ ?_
  refine Kernel.exists_run_of_main _ (r := .ok ()) rfl
    ⟨answers_ok.2 ⟨_, rfl, rfl⟩, hok _ _ _⟩ ?_
  refine Kernel.exists_run_of_main _ (r := .ok none) rfl
    ⟨answers_ok.2 ⟨_, ⟨rfl, rfl⟩, rfl⟩, hok _ _ _⟩ ?_
  refine Kernel.exists_run_of_main _ (r := .ok none) rfl
    ⟨answers_ok.2 ⟨_, ⟨rfl, rfl⟩, rfl⟩, hok _ _ _⟩ ?_
  refine Kernel.exists_run_of_main _ (r := .ok ()) rfl
    ⟨answers_ok.2 ⟨_, rfl, rfl⟩, hok _ _ _⟩ ?_
  refine Kernel.exists_run_of_main _ (r := .ok none) rfl
    ⟨answers_ok.2 ⟨_, ⟨rfl, rfl⟩, rfl⟩, hok _ _ _⟩ ?_
  -- the webhook
  refine ⟨_, .refl, _, ⟨⟨_, sample_message_header _ _ _⟩, rfl, rfl, ⟨_, rfl⟩, ⟨_, rfl⟩⟩,
    fun h => h rfl, .main (r := .ok ()) ⟨answers_ok.2 ⟨_, rfl, rfl⟩, hok _ _ _⟩,
    ⟨⟨_, sample_message_header _ _ _⟩, rfl, rfl, ⟨_, rfl⟩, ⟨_, rfl⟩⟩, fun j hj => ?_⟩
  by_cases h : j = "job-1"
  · subst h
    exact List.cons_ne_nil _ _
  · -- no other job has a status
    change (if status_key j = status_key "job-1" then _ else
      if status_key j = status_key "job-1" then _ else none) = _ at hj
    have hkey : status_key j ≠ status_key "job-1" := fun hk => h (status_key_inj.1 hk)
    rw [if_neg hkey, if_neg hkey] at hj
    cases hj

end CodaNode
