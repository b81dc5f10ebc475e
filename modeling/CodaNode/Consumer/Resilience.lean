/-
`Consumer/Resilience.lean` -- connection errors, wherever they occur.

Inside the loop every exception but a cancellation is caught, and a connection error leaves
the consumer unhealthy until it has read again. Before the loop nothing catches: whether
`consume_loop` survives depends on where in the startup an error strikes. `Sheltered` says
where it may, and `consume_loop_survives` that nothing else is needed.
-/
import CodaNode.Consumer.Calm
import CodaNode.Consumer.Sample

set_option autoImplicit false

open Coroutine

namespace CodaNode

variable {Ir : Type} {node : Node Ir} {m : Message} {job_id url : String} {α : Type}
variable {cloud : (String → Option String) → (String → Option String) → Prop}

/-! ## What the loop knows of the connection -/

namespace Event

/-- A connection error that reached the loop, or a successful read. -/
def link : Event Ir → Option Bool
  | mark (.lost _ _) => some false
  | ended q _ (.ok _) => if q.call.reads_group then some true else none
  | _ => none

/-- The loop begins to back off, or is done with it. -/
def pause : Event Ir → Option Bool
  | mark (.lost _ _) => some true
  | ended q _ _ => match q.call with
    | .sleep _ => some false
    | _ => none
  | _ => none

/-- The loop learns nothing of the connection from this line. -/
def unheard (e : Event Ir) : Prop :=
  e.link = none ∧ e.pause = none ∧ e.ends Call.reads_group = false

theorem unheard_of_minor {e : Event Ir} (h : e.minor) : e.unheard := by
  cases e with
  | started q => exact ⟨rfl, rfl, rfl⟩
  | ended q took r => exact h.elim
  | mark x => cases x <;> first | exact ⟨rfl, rfl, rfl⟩ | cases h

/-- An operation that is neither the read nor the sleep. -/
theorem unheard_ended {q : Req Ir} (took : Bool) (r : Except Exn q.Reply)
    (hread : q.call.reads_group = false) (hsleep : ∀ secs, q.call ≠ .sleep secs) :
    (ended q took r).unheard := by
  obtain ⟨msg, c⟩ := q
  refine ⟨?_, ?_, hread⟩
  · cases r with
    | ok v => simp [link, hread]
    | error e => rfl
  · cases c with
    | sleep secs => exact absurd rfl (hsleep secs)
    | _ => rfl

end Event

namespace World

/-- The last that the loop learnt of the connection. -/
def link (w : World Ir) : Option Bool := w.log.findSome? fun x => x.event.link

/-- The loop is backing off. -/
def paused (w : World Ir) : Option Bool := w.log.findSome? fun x => x.event.pause

/-- The `XREADGROUP`s so far; none as long as the consumer is starting up. -/
def reads (w : World Ir) : Nat := w.count (Event.ends Call.reads_group)

end World

/-- The loop has learnt nothing of the connection between `w` and `w'`. -/
structure Deaf (w w' : World Ir) : Prop where
  link : w'.link = w.link
  paused : w'.paused = w.paused
  reads : w'.reads = w.reads

namespace Deaf

variable {w w' w'' : World Ir}

theorem of_log (h : w'.log = w.log) : Deaf w w' :=
  ⟨by simp only [World.link, h], by simp only [World.paused, h],
    by simp only [World.reads, World.count, h]⟩

theorem of_cons {x : Entry Ir} (h : w'.log = x :: w.log) (hx : x.event.unheard) : Deaf w w' := by
  obtain ⟨hlink, hpause, hends⟩ := hx
  refine ⟨?_, ?_, ?_⟩
  · simp only [World.link, h, List.findSome?_cons, hlink]
  · simp only [World.paused, h, List.findSome?_cons, hpause]
  · simp only [World.reads, World.count, h, List.countP_cons, hends, Bool.false_eq_true,
      if_false, Nat.add_zero]

theorem trans (h : Deaf w w') (h' : Deaf w' w'') : Deaf w w'' :=
  ⟨h'.link.trans h.link, h'.paused.trans h.paused, h'.reads.trans h.reads⟩

/-- A plain step tells the loop nothing. -/
theorem of_plain {G : Region → Region → Prop} {f : World Ir → World Ir}
    (hf : Plain Event.minor G f) (w : World Ir) : Deaf w (f w) := by
  rcases hf.log w with hl | ⟨e, he, hl⟩
  · exact .of_log hl
  · exact .of_cons hl (Event.unheard_of_minor he)

/-- Nor does an operation of a handler, a batch or a delivery. -/
theorem of_inner {q : Req Ir} {r : Except Exn q.Reply} (hq : q.call.inner = true)
    (h : Answered q r w w') : Deaf w w' := by
  obtain ⟨took, hl⟩ := h.log
  refine .of_cons hl (Event.unheard_ended took r (Call.not_read_of_served (Call.served_of_inner hq)) fun secs hs => ?_)
  rw [hs] at hq
  cases hq

end Deaf

/-! ## The regime -/

/-- The connection error the loop last saw has left the consumer unhealthy. -/
def Honest (w : World Ir) : Prop := w.link = some false → w.self.redis_healthy = false

/-- What the tasks leave to the loop. -/
structure Aside (w w' : World Ir) : Prop extends Deaf w w' where
  frame : w'.frame = w.frame
  region : w'.region = w.region
  healthy : w'.self.redis_healthy = w.self.redis_healthy

namespace Aside

variable {w w' w'' : World Ir}

theorem refl (w : World Ir) : Aside w w := ⟨.of_log rfl, rfl, rfl, rfl⟩

theorem trans (h : Aside w w') (h' : Aside w' w'') : Aside w w'' :=
  ⟨h.toDeaf.trans h'.toDeaf, h'.frame.trans h.frame, h'.region.trans h.region,
    h'.healthy.trans h.healthy⟩

theorem honest (h : Aside w w') (hw : Honest w) : Honest w' := by
  intro hl
  rw [h.healthy]
  exact hw (h.link.symm.trans hl)

theorem of_resting {f : World Ir → World Ir} (hf : Resting f) (w : World Ir) :
    Aside w (f w) :=
  ⟨.of_plain hf w, hf.frame w, hf.region w, (hf.shared w).2.1⟩

theorem of_inner {q : Req Ir} {r : Except Exn q.Reply} (hq : q.call.inner = true)
    (h : Answered q r w w') : Aside w w' :=
  ⟨.of_inner hq h, h.frame, h.region, by rw [h.self]⟩

end Aside

theorem Drift.aside {w w' : World Ir} (h : Drift cloud w w') : Aside w w' :=
  ⟨.of_log h.log, h.frame, h.region, by rw [h.self]⟩

/-- What Redis may answer: the command succeeds or the connection fails; creating a group
that exists is refused. -/
def flaky (q : Req Ir) (_ : World Ir) (r : Except Exn q.Reply) : Prop :=
  q.call.is_redis = true → ∀ e, r = .error e → e.is_connection = true ∨
    q.call = .xgroup_create ∧ ∃ msg, e = .response msg ∧ busygroup msg = true

/-- Where a connection error does not end `consume_loop`: before the loop, at a write to
Redis or in the `try` block of `_process_message`, and the messages that are recovered
there decode; in the loop, everywhere, as long as the backoff can be computed. -/
structure Sheltered (q : Req Ir) (w : World Ir) (r : Except Exn q.Reply) : Prop where
  startup : w.reads = 0 → q.call.reads_group = false → q.call.is_redis = true →
    ∀ e, r = .error e → e.is_connection = true →
      (∃ key mapping, q.call = .hset key mapping) ∨ (∃ id, q.call = .xack id) ∨ w.region = .body
  decodes : w.reads = 0 → ∀ id, q.call = .xrange id → ∀ m ∈ w.stream, m.id = id →
    ∃ fields, decode_fields m.fields = .ok fields
  backoff : q.call.reads_group = true → ∀ e, r = .error e → e.is_connection = true →
    w.frame.consecutive_failures < 1024

/-- Redis is flaky and nobody cancels the consumer. -/
def unsteady (q : Req Ir) (w : World Ir) (r : Except Exn q.Reply) : Prop :=
  flaky q w r ∧ not_cancelled q w r

/-- The same, and connection errors strike only where they are caught. -/
def sheltered (q : Req Ir) (w : World Ir) (r : Except Exn q.Reply) : Prop :=
  unsteady q w r ∧ Sheltered q w r

/-- The regime of a consumer that survives. -/
def surviving (Ir : Type) : Kernel.Regime (World Ir) (Req Ir) Exn where
  inv := Honest
  grows w w' := w.tasks.map Prod.fst <+: w'.tasks.map Prod.fst
  frame := Aside
  pre q w := w.link = some false → w.paused = some true ∧ (∃ secs, q.call = .sleep secs) ∨
    w.paused = some false ∧ q.call.reads_group = true
  ended _ := True
  round r w := r = .ok () ∧ (w.link = some false → w.paused = some false)

/-- The contract of the loop in that regime. -/
abbrev looping (node : Node Ir)
    (cloud : (String → Option String) → (String → Option String) → Prop) :
    Contract (World Ir) (@Req.Reply Ir) Exn :=
  Kernel.Regime.main (consumer node cloud sheltered) (surviving Ir)

/-! ## Startup -/

/-- The consumer is starting up, in region `ρ`. -/
structure Starting (ρ : Region) (w : World Ir) : Prop where
  link : w.link = none
  reads : w.reads = 0
  region : w.region = ρ

variable {ρ : Region} {w w' : World Ir}

theorem Starting.honest (h : Starting ρ w) : Honest w := by
  intro hl
  rw [h.link] at hl
  cases hl

theorem Starting.aside (h : Starting ρ w) (ha : Aside w w') : Starting ρ w' :=
  ⟨ha.link.trans h.link, ha.reads.trans h.reads, ha.region.trans h.region⟩

theorem Starting.deaf (h : Starting ρ w) (hd : Deaf w w') : Starting w'.region w' :=
  ⟨hd.link.trans h.link, hd.reads.trans h.reads, rfl⟩

/-- A synchronous step of the startup. -/
theorem starting_update (h : Starting ρ w) {f : World Ir → World Ir} (hf : Roaming f)
    {Q : Except Exn Unit → World Ir → Prop}
    (hQ : ∀ w', Starting (f w).region w' → Q (.ok ()) w') :
    (looping node cloud).wp (Co.update f) Q w := by
  have h' := h.deaf (.of_plain hf w)
  exact ⟨⟨h'.honest, World.specs_of_tasks (hf.tasks w)⟩, hQ _ h'⟩

/-- Reading the clock. -/
theorem starting_look (h : Starting ρ w) {g : World Ir → α}
    {Q : Except Exn α → World Ir → Prop} (hQ : Q (.ok (g w)) w) :
    (looping node cloud).wp (Co.look g) Q w :=
  ⟨⟨h.honest, List.prefix_refl _⟩, hQ⟩

/-- An operation of the startup other than the read and the sleep. -/
theorem starting_call (h : Starting ρ w) {q : Req Ir} (hread : q.call.reads_group = false)
    (hsleep : ∀ secs, q.call ≠ .sleep secs) {Q : Except Exn q.Reply → World Ir → Prop}
    (hQ : ∀ w₁ r w', Starting ρ w₁ → answers node q w₁ r w' → sheltered q w₁ r →
      Starting ρ w' → Q r w') :
    (looping node cloud).wp (Co.call q) Q w := by
  refine (Contract.wp_call _ _ _).2 ⟨⟨h.honest, fun hl => ?_⟩, fun w₁ hr r w' ha => ?_⟩
  · rw [h.link] at hl
    cases hl
  · have h₁ := h.aside (hr h.honest).2
    have hans := Answered.of_answers ha.1
    obtain ⟨took, hl⟩ := hans.log
    have hd : Deaf w₁ w' := .of_cons hl (Event.unheard_ended took r hread hsleep)
    have h' : Starting ρ w' := ⟨hd.link.trans h₁.link, hd.reads.trans h₁.reads,
      hans.region.trans h₁.region⟩
    exact ⟨⟨h'.honest, World.specs_of_tasks hans.tasks⟩, hQ w₁ r w' h₁ ha.1 ha.2 h'⟩

/-- A Redis command outside the `try` block of `_process_message` succeeds. -/
theorem starting_redis (h : Starting ρ w) (hρ : ρ ≠ .body) {q : Req Ir}
    (hread : q.call.reads_group = false) (hredis : q.call.is_redis = true)
    (hset : ∀ key mapping, q.call ≠ .hset key mapping) (hxack : ∀ id, q.call ≠ .xack id)
    (hgroup : q.call ≠ .xgroup_create) {Q : Except Exn q.Reply → World Ir → Prop}
    (hQ : ∀ w₁ v w', Starting ρ w₁ → answers node q w₁ (.ok v) w' → sheltered q w₁ (.ok v) →
      Starting ρ w' → Q (.ok v) w') :
    (looping node cloud).wp (Co.call q) Q w := by
  have hsleep : ∀ secs, q.call ≠ .sleep secs := by
    intro secs hs
    rw [hs] at hredis
    cases hredis
  refine starting_call h hread hsleep fun w₁ r w' h₁ hans hall h' => ?_
  cases r with
  | ok v => exact hQ w₁ v w' h₁ hans hall h'
  | error e =>
      rcases hall.1.1 hredis e rfl with hcon | ⟨hg, -⟩
      · rcases hall.2.startup h₁.reads hread hredis e rfl hcon with ⟨k, mp, hk⟩ | ⟨i, hi⟩ | hb
        · exact absurd hk (hset k mp)
        · exact absurd hi (hxack i)
        · exact absurd (h₁.region.symm.trans hb) hρ
      · exact absurd hg hgroup

/-- A write to Redis returns, whatever the connection does. -/
theorem starting_safe (h : Starting ρ w) {c : Call Ir} (hread : c.reads_group = false)
    (hredis : c.is_redis = true) (hgroup : c ≠ .xgroup_create)
    {Q : Except Exn Bool → World Ir → Prop} (hQ : ∀ b w', Starting ρ w' → Q (.ok b) w') :
    (looping node cloud).wp (Co.try_except (do let _ ← on m c; pure true)
      (fun e => if e.is_connection then pure false else .raise e)) Q w := by
  have hsleep : ∀ secs, c ≠ .sleep secs := by
    rintro secs rfl
    cases hredis
  refine (Contract.wp_try_except _ _ _ _).2 ((Contract.wp_bind _ _ _ _).2
    (starting_call h hread hsleep fun w₁ r w' h₁ hans hall h' => ?_))
  cases r with
  | ok v => exact hQ true w' h'
  | error e =>
      rcases hall.1.1 hredis e rfl with hcon | ⟨hg, -⟩
      · show (looping node cloud).wp (if e.is_connection = true then _ else _) Q w'
        rw [if_pos hcon]
        exact hQ false w' h'
      · exact absurd hg hgroup

theorem starting_hset (h : Starting ρ w) {key : String} {mapping : List (String × String)}
    {Q : Except Exn Bool → World Ir → Prop} (hQ : ∀ b w', Starting ρ w' → Q (.ok b) w') :
    (looping node cloud).wp (safe_hset m key mapping) Q w :=
  starting_safe h (c := .hset key mapping) rfl rfl (by simp) hQ

theorem starting_xack (h : Starting ρ w) {Q : Except Exn Bool → World Ir → Prop}
    (hQ : ∀ b w', Starting ρ w' → Q (.ok b) w') :
    (looping node cloud).wp (safe_xack m) Q w :=
  starting_safe h (c := .xack m.id) rfl rfl (by simp) hQ

theorem starting_check (h : Starting ρ w) (hρ : ρ ≠ .body)
    {Q : Except Exn Bool → World Ir → Prop} (hQ : ∀ b w', Starting ρ w' → Q (.ok b) w') :
    (looping node cloud).wp (has_cancel_signal m job_id) Q w :=
  (Contract.wp_bind _ _ _ _).2 (starting_redis h hρ rfl rfl (by simp) (by simp) (by simp)
    fun w₁ v w' _ _ _ h' => hQ v.isSome w' h')

theorem starting_mark_job_cancelled (h : Starting ρ w) {Q : Except Exn Unit → World Ir → Prop}
    (hQ : ∀ w', Starting ρ w' → Q (.ok ()) w') :
    (looping node cloud).wp (mark_job_cancelled node m job_id) Q w :=
  (Contract.wp_bind _ _ _ _).2 (starting_look h ((Contract.wp_bind _ _ _ _).2
    (starting_hset h fun _ w' h' => hQ w' h')))

/-- Code that stays in its region, whatever it is answered. -/
theorem starting_resting (h : Starting ρ w) {p : Prog Ir α} (hp : Within Resting (For m) p)
    (hcalm : Calm p) {Q : Except Exn α → World Ir → Prop}
    (hQ : ∀ r w', Starting ρ w' → (∀ e, r = .error e → e ≠ .cancelled) → Q r w') :
    (looping node cloud).wp p Q w := by
  refine Contract.wp_mono (Raises.wp (K := looping node cloud)
    (fun q w₁ r w₂ ha => ha.2.1.2) hcalm (Within.wp
    (I := Starting ρ) ?_ ?_ ?_ ?_ hp h)) fun r w' hr => hQ r w' hr.1 hr.2
  · refine fun q w₁ _ h₁ => ⟨h₁.honest, fun hl => ?_⟩
    rw [h₁.link] at hl
    cases hl
  · exact fun w₁ w₂ h₁ hr => h₁.aside (hr h₁.honest).2
  · intro f w₁ hf h₁
    have h₂ := h₁.aside (.of_resting hf w₁)
    exact ⟨⟨h₂.honest, World.specs_of_tasks (hf.tasks w₁)⟩, h₂⟩
  · intro q w₁ r w₂ hq h₁ ha
    have hans := Answered.of_answers ha.1
    have h₂ := h₁.aside (.of_inner (Call.inner_of_prompt hq.2.1) hans)
    exact ⟨⟨h₂.honest, World.specs_of_tasks hans.tasks⟩, h₂⟩

/-! ## Recovering a message before the loop -/

/-- `except Exception` outside the `try` block returns: its check is made outside. -/
theorem starting_report_failure (h : Starting .handler w) {e : Exn}
    {Q : Except Exn Unit → World Ir → Prop} (hQ : ∀ w', Starting .handler w' → Q (.ok ()) w') :
    (looping node cloud).wp (report_failure node m job_id url e) Q w := by
  refine (Contract.wp_bind _ _ _ _).2 (starting_check h (by decide) fun b w₁ h₁ => ?_)
  cases b with
  | true => exact starting_mark_job_cancelled h₁ hQ
  | false =>
      refine (Contract.wp_bind _ _ _ _).2 (starting_look h₁ ?_)
      refine (Contract.wp_bind _ _ _ _).2 (starting_hset h₁ fun _ w₂ h₂ => ?_)
      have hsend : Within Resting (For m) (send_error m url job_id e.text : Prog Ir Unit) :=
        Before.within (inner_send_error Resting.post)
      refine (Contract.wp_try_except _ _ _ _).2
        (starting_resting h₂ hsend calm_send_error fun r w₃ h₃ hr => ?_)
      cases r with
      | ok u => exact hQ w₃ h₃
      | error e' =>
          show (looping node cloud).wp (if e' = .cancelled then _ else _) Q w₃
          rw [if_neg (hr e' rfl)]
          exact hQ w₃ h₃

theorem starting_release (h : Starting ρ w) {Q : Except Exn Unit → World Ir → Prop}
    (hQ : ∀ w', Starting .outside w' → Q (.ok ()) w') :
    (looping node cloud).wp (release m) Q w := by
  refine (Contract.wp_bind _ _ _ _).2 (starting_update h (.enter .cleanup) fun w₁ h₁ => ?_)
  refine (Contract.wp_bind _ _ _ _).2 (starting_xack h₁ fun _ w₂ h₂ => ?_)
  have hset : Roaming (fun x : World Ir =>
      x.set_self ({ · with current_job_id := none, idle := true })) :=
    Roaming.permits.self _ fun _ => ⟨rfl, rfl, rfl⟩
  refine (Contract.wp_bind _ _ _ _).2 (starting_update h₂ hset fun w₃ h₃ => ?_)
  exact starting_update h₃ (.enter .outside) hQ

/-- The job is taken on: what the `try` block raises is caught there. -/
theorem starting_take_on (hnode : node.Ordinary) (h : Starting ρ w)
    {decoded : List (String × String)} {Q : Except Exn Unit → World Ir → Prop}
    (hQ : ∀ w', Starting .outside w' → Q (.ok ()) w') :
    (looping node cloud).wp (take_on node m decoded job_id url) Q w := by
  have hset : Roaming (fun x : World Ir =>
      x.set_self ({ · with idle := false, current_job_id := some job_id })) :=
    Roaming.permits.self _ fun _ => ⟨rfl, rfl, rfl⟩
  refine (Contract.wp_bind _ _ _ _).2 (starting_update h hset fun w₁ h₁ => ?_)
  refine (Contract.wp_bind _ _ _ _).2 (starting_look h₁ ?_)
  refine (Contract.wp_bind _ _ _ _).2 (starting_hset h₁ fun _ w₂ h₂ => ?_)
  refine (Contract.wp_bind _ _ _ _).2 (starting_update h₂ (.enter .body) fun w₃ h₃ => ?_)
  have hbody : Within Resting (For m) (execute node m decoded job_id url) :=
    Before.within (inner_execute Resting.permits.toManages.runs Resting.post)
  have hfin : ∀ {ρ' : Region} {w' : World Ir}, Starting ρ' w' →
      (looping node cloud).wp (release m) (Contract.and_finally Q (.ok ())) w' :=
    fun h' => starting_release h' hQ
  refine (Contract.wp_try_finally _ _ _ _).2 ((Contract.wp_try_except _ _ _ _).2
    (starting_resting h₃ hbody (calm_execute hnode) fun r w₄ h₄ hr => ?_))
  cases r with
  | ok u => exact hfin h₄
  | error e =>
      show (looping node cloud).wp (on_exception node m job_id url e) _ w₄
      have hne : e ≠ .cancelled := hr e rfl
      cases e with
      | cancelled => exact absurd rfl hne
      | job_cancelled =>
          refine (Contract.wp_bind _ _ _ _).2 (starting_update h₄ (.enter .handler) fun w₅ h₅ => ?_)
          exact starting_mark_job_cancelled h₅ fun w₆ h₆ => hfin h₆
      | _ =>
          refine (Contract.wp_bind _ _ _ _).2 (starting_update h₄ (.enter .handler) fun w₅ h₅ => ?_)
          exact starting_report_failure h₅ fun w₆ h₆ => hfin h₆

/-- A message that decodes is handled without an exception. -/
theorem starting_process_message (hnode : node.Ordinary) (h : Starting ρ w)
    {fields : List (String × String)} (hm : decode_fields m.fields = .ok fields)
    {Q : Except Exn Unit → World Ir → Prop} (hQ : ∀ w', Starting .outside w' → Q (.ok ()) w') :
    (looping node cloud).wp (process_message node m) Q w := by
  have hskip : ∀ {w' : World Ir}, Starting .outside w' →
      (looping node cloud).wp (do let _ ← safe_xack m : Prog Ir Unit) Q w' := fun h' =>
    (Contract.wp_bind _ _ _ _).2 (starting_xack h' fun _ w'' h'' => hQ w'' h'')
  have hmark : Roaming (fun x : World Ir => x.record (.mark (.handling m))) :=
    Roaming.permits.mark _ rfl
  unfold process_message
  refine (Contract.wp_bind _ _ _ _).2 (starting_update h (.enter .outside) fun w₁ h₁ => ?_)
  refine (Contract.wp_bind _ _ _ _).2 (starting_update h₁ hmark fun w₂ h₂ => ?_)
  have h₂' : Starting .outside w₂ := ⟨h₂.link, h₂.reads, h₂.region.trans h₁.region⟩
  simp only [hm]
  cases m.header with
  | error e => exact hskip h₂'
  | ok header =>
      obtain ⟨decoded, job_id, url⟩ := header
      refine (Contract.wp_bind _ _ _ _).2 (starting_redis h₂' (by decide) rfl rfl (by simp)
        (by simp) (by simp) fun w₃ st w₄ _ _ _ h₄ => ?_)
      simp only [Contract.and_then_ok]
      split
      · exact hskip h₄
      · refine (Contract.wp_bind _ _ _ _).2 (starting_check h₄ (by decide) fun b w₅ h₅ => ?_)
        cases b with
        | false => exact starting_take_on hnode h₅ hQ
        | true =>
            exact (Contract.wp_bind _ _ _ _).2 (starting_mark_job_cancelled h₅
              fun w₆ h₆ => hskip h₆)

theorem starting_recover_each (hnode : node.Ordinary) (ids : List String)
    (h : Starting .outside w) {Q : Except Exn Nat → World Ir → Prop}
    (hQ : ∀ n w', Starting .outside w' → Q (.ok n) w') :
    (looping node cloud).wp (recover_each node ids) Q w := by
  induction ids generalizing w Q with
  | nil => exact hQ 0 w h
  | cons message_id rest ih =>
      refine (Contract.wp_bind _ _ _ _).2 (starting_redis h (by decide) rfl rfl (by simp)
        (by simp) (by simp) fun w₁ messages w₂ h₁ hans hall h₂ => ?_)
      simp only [Contract.and_then_ok]
      cases messages with
      | nil => exact ih h₂ hQ
      | cons m more =>
          -- what `XRANGE` returns stands in the stream, so it decodes
          obtain ⟨w₃, ⟨hv, -⟩, -⟩ := answers_ok.1 hans
          have hmem : m ∈ w₁.stream.filter (·.id = message_id) := hv ▸ List.mem_cons_self
          obtain ⟨hin, hid⟩ := List.mem_filter.1 hmem
          obtain ⟨fields, hfields⟩ :=
            hall.2.decodes h₁.reads message_id rfl m hin (of_decide_eq_true hid)
          refine (Contract.wp_bind _ _ _ _).2 (starting_process_message
            (m := ⟨message_id, m.fields⟩) hnode h₂ hfields fun w₄ h₄ => ?_)
          exact (Contract.wp_bind _ _ _ _).2 (ih h₄ fun n w₅ h₅ => hQ (n + 1) w₅ h₅)

/-- **The startup returns.** -/
theorem starting_startup (hnode : node.Ordinary) (h : Starting .outside w) :
    (looping node cloud).wp (startup node) (fun r w' => Honest w' ∧
      r = .ok () ∧ (w'.link = some false → w'.paused = some false)) w := by
  have hstep : ∀ (f : World Ir → World Ir), (∀ w', (f w').log = w'.log) →
      (∀ w', (f w').region = w'.region) → (∀ w', (f w').tasks = w'.tasks) →
      ∀ {w' : World Ir} {Q : Except Exn Unit → World Ir → Prop}, Starting .outside w' →
      (Starting .outside (f w') → Q (.ok ()) (f w')) →
      (looping node cloud).wp (Co.update f) Q w' := by
    intro f hlog hregion htasks w' Q h' hQ
    have hd : Deaf w' (f w') := .of_log (hlog w')
    have h'' : Starting .outside (f w') := ⟨hd.link.trans h'.link, hd.reads.trans h'.reads,
      (hregion w').trans h'.region⟩
    exact ⟨⟨h''.honest, World.specs_of_tasks (htasks w')⟩, hQ h''⟩
  refine (Contract.wp_bind _ _ _ _).2 (hstep (·.set_self ({ · with running := true }))
    (fun _ => rfl) (fun _ => rfl) (fun _ => rfl) h fun h₁ => ?_)
  -- `setup`: the connection holds, and a group that exists is as good
  refine (Contract.wp_bind _ _ _ _).2 ((Contract.wp_try_except _ _ _ _).2
    (starting_call h₁ rfl (by simp) fun w₂ r w₃ h₂ hans hall h₃ => ?_))
  have hrest : ∀ {w' : World Ir}, Starting .outside w' →
      (looping node cloud).wp (do
        let _ ← recover_pending node
        let monotonic ← Co.look World.monotonic
        Co.update (·.set_frame fun _ =>
          { consecutive_failures := 0, last_pending_check := monotonic }))
        (fun r w' => Honest w' ∧
          r = .ok () ∧ (w'.link = some false → w'.paused = some false)) w' := by
    intro w' h'
    have hrecover : (looping node cloud).wp (recover_pending node)
        (fun r w'' => (∃ n, r = .ok n) ∧ Starting .outside w'') w' := by
      refine (Contract.wp_bind _ _ _ _).2 (starting_update h' (Roaming.permits.starts _)
        fun w₃ h₃ => ?_)
      have h₃' : Starting .outside w₃ := ⟨h₃.link, h₃.reads, h₃.region.trans h'.region⟩
      refine (Contract.wp_bind _ _ _ _).2 (starting_redis h₃' (by decide) rfl rfl (by simp)
        (by simp) (by simp) fun w₄ ids w₅ _ _ _ h₅ => ?_)
      exact starting_recover_each hnode ids h₅ fun n w₆ h₆ => ⟨⟨n, rfl⟩, h₆⟩
    refine (Contract.wp_bind _ _ _ _).2 (Contract.wp_mono hrecover ?_)
    rintro r w'' ⟨⟨n, rfl⟩, h''⟩
    refine (Contract.wp_bind _ _ _ _).2 (starting_look h'' ?_)
    refine hstep (·.set_frame fun _ =>
      { consecutive_failures := 0, last_pending_check := w''.monotonic })
      (fun _ => rfl) (fun _ => rfl) (fun _ => rfl) h'' fun h₇ => ⟨h₇.honest, rfl, fun hl => ?_⟩
    rw [h₇.link] at hl
    cases hl
  cases r with
  | ok v => exact hrest h₃
  | error e =>
      rcases hall.1.1 rfl e rfl with hcon | ⟨-, msg, rfl, hbusy⟩
      · rcases hall.2.startup h₂.reads rfl rfl e rfl hcon with ⟨k, mp, hk⟩ | ⟨i, hi⟩ | hb
        · cases hk
        · cases hi
        · exact absurd (h₂.region.symm.trans hb) (by decide)
      · show (looping node cloud).wp (if busygroup msg = true then _ else _) _ w₃
        rw [if_pos hbusy]
        exact hrest h₃

/-! ## The loop -/

/-- The loop has read in this iteration. -/
structure Reading (w : World Ir) : Prop where
  link : w.link = some true
  failures : w.frame.consecutive_failures = 0

theorem Reading.honest (h : Reading w) : Honest w := by
  intro hl
  rw [h.link] at hl
  cases hl

theorem Reading.aside (h : Reading w) (ha : Aside w w') : Reading w' :=
  ⟨ha.link.trans h.link, by rw [ha.frame]; exact h.failures⟩

/-- A step of an iteration that has read. -/
structure Onwards (f : World Ir → World Ir) : Prop where
  log : ∀ w, (f w).log = w.log ∨
    ∃ e, e.minor ∧ (f w).log = ⟨e, w.values, w.region⟩ :: w.log
  failures : ∀ w, (f w).frame.consecutive_failures = w.frame.consecutive_failures
  tasks : ∀ w, w.tasks <+: (f w).tasks

theorem Onwards.of_plain {G : Region → Region → Prop} {f : World Ir → World Ir}
    (hf : Plain Event.minor G f) : Onwards f :=
  ⟨hf.log, fun w => by rw [hf.frame], fun w => (hf.tasks w).symm ▸ List.prefix_refl _⟩

theorem Onwards.of_silent {f : World Ir → World Ir} (hlog : ∀ w, (f w).log = w.log)
    (hfail : ∀ w, (f w).frame.consecutive_failures = w.frame.consecutive_failures)
    (htasks : ∀ w, w.tasks <+: (f w).tasks) : Onwards f :=
  ⟨fun w => .inl (hlog w), hfail, htasks⟩

theorem Onwards.permits : Permits (Onwards : (World Ir → World Ir) → Prop) where
  look := .of_plain Roaming.permits.look
  self f hf := .of_plain (Roaming.permits.self f hf)
  mark x hx := .of_plain (Roaming.permits.mark x hx)
  starts s := .of_plain (Roaming.permits.starts s)
  exec f := .of_plain (Roaming.permits.exec f)
  flags f hf _ := .of_plain (Roaming.permits.self f hf)

theorem Onwards.reading {f : World Ir → World Ir} (hf : Onwards f) (h : Reading w) :
    Reading (f w) := by
  have hd : Deaf w (f w) := by
    rcases hf.log w with hl | ⟨e, he, hl⟩
    · exact .of_log hl
    · exact .of_cons hl (Event.unheard_of_minor he)
  exact ⟨hd.link.trans h.link, (hf.failures w).trans h.failures⟩

/-- The code of an iteration that has read, whatever it is answered: it may raise, but the
failures stay counted from nought, and nothing cancels. -/
theorem wp_onwards (h : Reading w) {p : Prog Ir α}
    (hp : Within Onwards (fun q => q.call.reads_group = false) p) (hcalm : Calm p) :
    (looping node cloud).wp p
      (fun r w' => Reading w' ∧ ∀ e, r = .error e → e ≠ .cancelled) w := by
  refine Raises.wp (K := looping node cloud) (fun q w₁ r w₂ ha => ha.2.1.2) hcalm
    (Within.wp (I := Reading) ?_ ?_ ?_ ?_ hp h)
  · refine fun q w₁ _ h₁ => ⟨h₁.honest, fun hl => ?_⟩
    rw [h₁.link] at hl
    cases hl
  · exact fun w₁ w₂ h₁ hr => h₁.aside (hr h₁.honest).2
  · intro f w₁ hf h₁
    have h₂ := hf.reading h₁
    exact ⟨⟨h₂.honest, (hf.tasks w₁).map Prod.fst⟩, h₂⟩
  · intro q w₁ r w₂ hq h₁ ha
    have hans := Answered.of_answers ha.1
    obtain ⟨took, hl⟩ := hans.log
    have hlink : w₂.link = w₁.link := by
      have hnone : Event.link (.ended q took r) = none := by
        cases r with
        | ok v => simp [Event.link, hq]
        | error e => rfl
      simp only [World.link, hl, List.findSome?_cons, hnone]
    have h₂ : Reading w₂ := ⟨hlink.trans h₁.link, by rw [hans.frame]; exact h₁.failures⟩
    exact ⟨⟨h₂.honest, World.specs_of_tasks hans.tasks⟩, h₂⟩

/-- What an iteration does once it has read leads onwards. -/
theorem within_onwards (messages : List (String × List Message)) :
    Within Onwards (fun q => q.call.served = true ∨ ∃ t, q.call = .join t) (do
      await_delivery
      if messages.isEmpty then recheck_pending node else dispatch node messages) := by
  have henter : ∀ r, Onwards (fun x : World Ir => x.enter r) := fun r =>
    .of_plain (Roaming.enter r)
  have hpost : ∀ q, Onwards (fun x : World Ir => x.record (.started q)) := fun q =>
    .of_plain (Roaming.post q)
  have hcreate : ∀ t, Onwards (fun x : World Ir => x.create_task t) := fun t =>
    .of_silent (fun _ => rfl) (fun _ => rfl) fun x => ⟨[(t, none)], rfl⟩
  have hpending : ∀ t, Onwards (fun x : World Ir =>
      x.set_self ({ · with pending_batch_delivery := t })) := fun t =>
    .of_silent (fun _ => rfl) (fun _ => rfl) fun _ => List.prefix_refl _
  have hcheck : ∀ t, Onwards (fun x : World Ir =>
      x.set_frame ({ · with last_pending_check := t })) := fun t =>
    .of_silent (fun _ => rfl) (fun _ => rfl) fun _ => List.prefix_refl _
  exact within_reading Onwards.permits henter hpost hcreate
    (fun x hx => .of_plain (Roaming.mark x hx)) hpending hcheck messages

/-- Everything that an iteration does once it has read. -/
theorem wp_served (hnode : node.Ordinary) (h : Reading w)
    (messages : List (String × List Message)) :
    (looping node cloud).wp (do
      await_delivery
      if messages.isEmpty then recheck_pending node else dispatch node messages)
      (fun r w' => Reading w' ∧ ∀ e, r = .error e → e ≠ .cancelled) w := by
  refine wp_onwards h ((within_onwards messages).mono (fun _ hf => hf) fun q hq => ?_)
    (calm_await_delivery.bind fun _ => ?_)
  · rcases hq with hq | ⟨t, hq⟩
    · exact Call.not_read_of_served hq
    · rw [hq]
      rfl
  · split
    · exact calm_recheck_pending hnode
    · exact calm_dispatch hnode messages

/-- The delay can be computed up to the 1024th failure in a row. -/
theorem backoff_of_lt {n : Nat} (h : n < 1024) : backoff (n + 1) = .ok (min (2 ^ n) 60) := by
  have hle : n + 1 - 1 ≤ 1023 := by omega
  unfold backoff
  rw [if_pos hle, Nat.add_sub_cancel]

/-- The `except` clauses: a connection error leaves the consumer unhealthy and asleep. -/
theorem wp_back_off (hi : Honest w) {e : Exn} (hne : e ≠ .cancelled)
    (hlink : e.is_connection = true ∨ w.link ≠ some false)
    (hfail : e.is_connection = true → w.frame.consecutive_failures < 1024) :
    (looping node cloud).wp (back_off e : Prog Ir Unit) (fun r w' => Honest w' ∧
      r = .ok () ∧ (w'.link = some false → w'.paused = some false)) w := by
  -- a sleep ends, because nobody cancels it
  have hsleep : ∀ (secs : Nat) {w' : World Ir}, Honest w' →
      (w'.link = some false → w'.paused = some true) →
      (looping node cloud).wp (alone (.sleep secs)) (fun r w' => Honest w' ∧
        r = .ok () ∧ (w'.link = some false → w'.paused = some false)) w' := by
    intro secs w' h' hp
    refine (Contract.wp_call _ _ _).2 ⟨⟨h', fun hl => .inl ⟨hp hl, secs, rfl⟩⟩,
      fun w₁ hr r w₂ ha => ?_⟩
    obtain ⟨h₁, haside⟩ := hr h'
    have hans := Answered.of_answers ha.1
    obtain ⟨took, hl⟩ := hans.log
    have hlink : w₂.link = w₁.link := by
      have hnone : Event.link (.ended (⟨none, .sleep secs⟩ : Req Ir) took r) = none := by
        cases r <;> rfl
      simp only [World.link, hl, List.findSome?_cons, hnone]
    have hpaused : w₂.paused = some false := by
      simp only [World.paused, hl, List.findSome?_cons]
      rfl
    have h₂ : Honest w₂ := by
      intro hw
      rw [hans.self]
      exact h₁ (hlink.symm.trans hw)
    refine ⟨⟨h₂, World.specs_of_tasks hans.tasks⟩, h₂, ?_, fun _ => hpaused⟩
    cases r with
    | ok v => rfl
    | error e' =>
        obtain ⟨hf, -⟩ := answers_error.1 ha.1
        obtain ⟨k, hk⟩ := ha.2.1.2 (congrArg Except.error hf)
        cases hk
  unfold back_off
  by_cases hcon : e.is_connection = true
  · rw [if_pos hcon]
    -- unhealthy first, so that the warning finds it so
    refine (Contract.wp_bind _ _ _ _).2 ⟨⟨fun _ => rfl, List.prefix_refl _⟩, ?_⟩
    refine (Contract.wp_bind _ _ _ _).2 ⟨⟨fun _ => rfl, List.prefix_refl _⟩, ?_⟩
    refine (Contract.wp_bind _ _ _ _).2 ⟨⟨fun _ => rfl, List.prefix_refl _⟩, ?_⟩
    refine (Contract.wp_bind _ _ _ _).2 ((Contract.wp_of_except _ _ _).2 ?_)
    show (looping node cloud).and_then _ _ (backoff (w.frame.consecutive_failures + 1)) _
    rw [backoff_of_lt (hfail hcon)]
    refine (Contract.wp_bind _ _ _ _).2 ⟨⟨fun _ => rfl, List.prefix_refl _⟩, ?_⟩
    exact hsleep _ (fun _ => rfl) fun _ => rfl
  · rw [if_neg hcon, if_neg hne]
    refine hsleep 1 hi fun hl => ?_
    exact absurd hl (hlink.resolve_left hcon)

/-- **One iteration returns**, whatever it meets, and reads again if it has lost the
connection. -/
theorem wp_iteration (hnode : node.Ordinary) (hi : Honest w)
    (hp : w.link = some false → w.paused = some false) :
    (looping node cloud).wp (iteration node) (fun r w' => Honest w' ∧
      r = .ok () ∧ (w'.link = some false → w'.paused = some false)) w := by
  refine (Contract.wp_try_except _ _ _ _).2 ((Contract.wp_bind _ _ _ _).2
    ((Contract.wp_call _ _ _).2 ⟨⟨hi, fun hl => .inr ⟨hp hl, rfl⟩⟩, fun w₁ hr r w₂ ha => ?_⟩))
  obtain ⟨h₁, haside⟩ := hr hi
  have hans := Answered.of_answers ha.1
  obtain ⟨took, hl⟩ := hans.log
  cases r with
  | error e =>
      have hcon : e.is_connection = true :=
        (ha.2.1.1 rfl e rfl).resolve_right fun h => by cases h.1
      have hlink : w₂.link = w₁.link := by
        simp only [World.link, hl, List.findSome?_cons]
        rfl
      have h₂ : Honest w₂ := by
        intro hw
        rw [hans.self]
        exact h₁ (hlink.symm.trans hw)
      refine ⟨⟨h₂, World.specs_of_tasks hans.tasks⟩, ?_⟩
      refine wp_back_off h₂ ?_ (.inl hcon) fun _ => ?_
      · rintro rfl
        cases hcon
      · rw [hans.frame]
        exact ha.2.2.backoff rfl e rfl hcon
  | ok messages =>
      have hlink : w₂.link = some true := by
        simp only [World.link, hl, List.findSome?_cons]
        rfl
      have hhonest : Honest w₂ := by
        intro hw
        rw [hlink] at hw
        cases hw
      refine ⟨⟨hhonest, World.specs_of_tasks hans.tasks⟩, ?_⟩
      -- healthy again, and the failures are counted from nought
      set w₃ : World Ir := w₂.set_self ({ · with redis_healthy := true }) with hw₃
      set w₄ : World Ir := w₃.set_frame ({ · with consecutive_failures := 0 }) with hw₄
      have h₃ : Honest w₃ := by
        intro hw
        rw [show w₃.link = w₂.link from rfl, hlink] at hw
        cases hw
      have h₄ : Reading w₄ := ⟨hlink, rfl⟩
      refine (Contract.wp_bind _ _ _ _).2 ⟨⟨h₃, List.prefix_refl _⟩, ?_⟩
      refine (Contract.wp_bind _ _ _ _).2 ⟨⟨h₄.honest, List.prefix_refl _⟩, ?_⟩
      show (looping node cloud).wp (do
        await_delivery
        if messages.isEmpty then recheck_pending node else dispatch node messages) _ w₄
      refine Contract.wp_mono (wp_served hnode h₄ messages) fun r w₅ hr => ?_
      obtain ⟨h₅, hcalm⟩ := hr
      cases r with
      | ok u =>
          refine ⟨h₅.honest, rfl, fun hl => ?_⟩
          rw [h₅.link] at hl
          cases hl
      | error e =>
          refine wp_back_off h₅.honest (hcalm e rfl) (.inr ?_) fun _ => ?_
          · rw [h₅.link]
            simp
          · rw [h₅.failures]
            omega

/-! ## The consumer -/

theorem Aside.of_delivering {f : World Ir → World Ir} (hf : Delivering Event.minor f)
    (w : World Ir) : Aside w (f w) := by
  rcases hf with hf | ⟨t, rfl⟩
  · exact .of_resting hf.plain w
  · exact ⟨.of_log rfl, rfl, rfl, rfl⟩

/-- The consumer keeps to the regime. -/
theorem surviving_sound (hnode : node.Ordinary) :
    Kernel.Regime.Sound (consumer node cloud sheltered) (surviving Ir) where
  refl := Aside.refl
  trans _ _ _ h h' := h.trans h'
  grows_refl w := List.prefix_refl _
  grows_trans _ _ _ h h' := h.trans h'
  spawned _ _ h := h
  drift w w' hd := by
    have hspawned : w'.tasks.map Prod.fst = w.tasks.map Prod.fst := by rw [Drift.tasks hd]
    exact ⟨hspawned, fun hi => ⟨(Drift.aside hd).honest hi, Drift.aside hd,
      World.specs_of_tasks (Drift.tasks hd)⟩⟩
  finish i r w := by
    have haside : Aside w (w.finish_task i r) := ⟨.of_log rfl, rfl, rfl, rfl⟩
    exact ⟨w.finish_task_specs i r, fun hi _ => ⟨haside.honest hi, haside,
      w.finish_task_grows i r⟩⟩
  body _ w _ t _ hi _ _ := by
    have hcode : Within (Delivering Event.minor) (fun q => q.call.delivers = true)
        (task_body node t) :=
      within_task_body (Delivering.allows Event.minor) (Delivering.post fun _ => trivial)
        (fun t => .inr ⟨t, rfl⟩) t
    refine Contract.wp_mono (Within.wp (I := Honest) (fun _ _ _ _ => trivial)
      (fun w₁ w₂ h₁ (hr : Honest w₁ → Honest w₂ ∧ _) => (hr h₁).1) ?_ ?_ hcode hi) fun r w' h' => ⟨h', trivial⟩
    · intro f w₁ hf h₁
      have haside := Aside.of_delivering hf w₁
      exact ⟨⟨haside.honest h₁, haside, (hf.grows w₁).map Prod.fst⟩, haside.honest h₁⟩
    · intro q w₁ r w₂ hq h₁ ha
      have hans := Answered.of_answers ha.1
      have haside := Aside.of_inner (Call.inner_of_delivers hq) hans
      exact ⟨⟨haside.honest h₁, haside, World.specs_of_tasks hans.tasks⟩, haside.honest h₁⟩
  again w p hi hr hp := by
    have hiter := eq_iteration_of_again hp
    subst hiter
    exact wp_iteration hnode hi hr.2

/-- `consume_loop` has not been ended by an exception; a connection error that reached it has
left the consumer unhealthy until the next successful read, and the loop either sleeps or
is reading again. -/
structure Survives (x : Pool (World Ir) (@Req.Reply Ir) Exn) : Prop where
  running : ∀ e, x.main ≠ .raise e
  unhealthy : x.state.link = some false → x.state.self.redis_healthy = false
  retries : x.state.link = some false → ∀ q k, x.main = .await q k →
    x.state.paused = some true ∧ (∃ secs, q.call = .sleep secs) ∨
      x.state.paused = some false ∧ q.call.reads_group = true

end CodaNode
