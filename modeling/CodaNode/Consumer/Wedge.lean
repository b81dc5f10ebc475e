/-
`Consumer/Wedge.lean` -- a background delivery that has failed.

`consume_loop` clears `_pending_batch_delivery` after its await has returned, not when it
has raised. Once the await of a delivery has failed, every later iteration that reads
raises it again before it dispatches: the loop is wedged. The proof follows the loop's own
history (its reads, its awaits of deliveries, its dispatches), which no task can change.
-/
import CodaNode.Consumer.Footprint
import CodaNode.Consumer.Sample

set_option autoImplicit false

open Coroutine

namespace CodaNode

variable {Ir : Type} {node : Node Ir} {m : Message} {α : Type}
variable {cloud : (String → Option String) → (String → Option String) → Prop}

/-! ## The history of the loop -/

namespace Call

/-- `await self._pending_batch_delivery`. -/
def is_join : Call Ir → Bool
  | join _ => true
  | _ => false

/-- The await of this delivery. -/
def joins (task : Nat) : Call Ir → Bool
  | join t => t == task
  | _ => false

theorem is_join_of_joins {c : Call Ir} {t : Nat} (h : joins t c = true) : c.is_join = true := by
  cases c <;> first | rfl | cases h

end Call

namespace Event

/-- A message or a batch is taken in hand. -/
def dispatches : Event Ir → Bool
  | mark (.handling _) | mark (.batching _) => true
  | _ => false

/-- The loop's own events: reads, awaits of deliveries, dispatches. -/
def by_loop : Event Ir → Bool
  | ended q _ _ => q.call.reads_group || q.call.is_join
  | e => e.dispatches

end Event

/-- The loop's own events, newest first. -/
def World.history (w : World Ir) : List (Event Ir) :=
  (w.log.map Entry.event).filter Event.by_loop

/-- The await of some delivery has failed. -/
def Failed (h : List (Event Ir)) : Prop := ∃ e ∈ h, e.raises Call.is_join = true

/-- A read has succeeded after the await of a delivery had failed. -/
def ReadAfterFailure : List (Event Ir) → Prop
  | [] => False
  | e :: earlier =>
      ReadAfterFailure earlier ∨ e.returns Call.reads_group = true ∧ Failed earlier

/-- Nothing has been dispatched after the await of a delivery had failed. -/
def SilentAfterFailure : List (Event Ir) → Prop
  | [] => True
  | e :: earlier =>
      SilentAfterFailure earlier ∧ (e.dispatches = true → ¬ Failed earlier)

/-- How often the await of this delivery has failed, and returned. -/
def failures (t : Nat) (h : List (Event Ir)) : Nat := h.countP (Event.raises (Call.joins t))

def successes (t : Nat) (h : List (Event Ir)) : Nat := h.countP (Event.returns (Call.joins t))

section Histories

variable {h : List (Event Ir)} {t : Nat}

theorem failed_of_failures (hf : 0 < failures t h) : Failed h := by
  obtain ⟨e, he, hr⟩ := List.countP_pos_iff.1 hf
  refine ⟨e, he, ?_⟩
  cases e with
  | ended q took r =>
      cases r with
      | ok v => cases hr
      | error e' => exact Call.is_join_of_joins hr
  | _ => cases hr

theorem exists_failures_of_failed (hf : Failed h) : ∃ t, 0 < failures t h := by
  obtain ⟨e, he, hr⟩ := hf
  cases e with
  | ended q took r =>
      cases r with
      | ok v => cases hr
      | error e' =>
          obtain ⟨msg, c⟩ := q
          cases c with
          | join t => exact ⟨t, List.countP_pos_iff.2 ⟨_, he, by simp [Call.joins]⟩⟩
          | _ => cases hr
  | _ => cases hr

theorem ReadAfterFailure.failed (hr : ReadAfterFailure h) : Failed h := by
  induction h with
  | nil => cases hr
  | cons e earlier ih =>
      obtain ⟨e', he', hr'⟩ : Failed earlier := by
        rcases hr with hr | ⟨-, hf⟩
        · exact ih hr
        · exact hf
      exact ⟨e', List.mem_cons_of_mem e he', hr'⟩

theorem ReadAfterFailure.of_append {later earlier : List (Event Ir)} {e : Event Ir}
    (he : e.returns Call.reads_group = true) (hf : Failed earlier) :
    ReadAfterFailure (later ++ e :: earlier) := by
  induction later with
  | nil => exact .inr ⟨he, hf⟩
  | cons x later ih => exact .inl ih

/-- The history after one more line. -/
theorem history_cons {w w' : World Ir} {x : Entry Ir} (h : w'.log = x :: w.log) :
    w'.history = if x.event.by_loop = true then x.event :: w.history else w.history := by
  simp only [World.history, h, List.map_cons, List.filter_cons]

theorem history_of_log {w w' : World Ir} (h : w'.log = w.log) : w'.history = w.history := by
  simp only [World.history, h]

end Histories

/-! ## The property -/

/-- The messages of one stream were handed to `_process_batch`, or the one message to
`_process_message`. -/
def Dispatched (ms : List Message) (events : List (Event Ir)) : Prop :=
  .mark (.batching ms) ∈ events ∨ ∃ m, ms = [m] ∧ .mark (.handling m) ∈ events

/-- A failed delivery has been awaited once, and what was read after its failure had been
observed was dispatched before the next read. -/
structure Orderly (h : List (Event Ir)) : Prop where
  once : ∀ t, 0 < failures t h → h.countP (Event.ends (Call.joins t)) ≤ 1
  dispatched : ∀ later earlier msg count took v,
    h = later ++ .ended ⟨msg, .xreadgroup count⟩ took (.ok v) :: earlier → Failed earlier →
    ∀ s ms, (s, ms) ∈ v →
      Dispatched ms (later.reverse.takeWhile fun e => !e.ends Call.reads_group)

/-! ## The invariant -/

/-- What holds of the loop at every step. -/
structure Tidy (w : World Ir) : Prop where
  /-- A failed delivery stays the pending one. -/
  stuck : ∀ t, 0 < failures t w.history →
    w.self.pending_batch_delivery = some t ∧ ∃ e, w.outcome t = some (.error e)
  passed : ∀ t, 0 < successes t w.history → w.outcome t = some (.ok ())
  /-- A second failure needs a read in between. -/
  twice : ∀ t, 2 ≤ failures t w.history → ReadAfterFailure w.history
  silent : SilentAfterFailure w.history

/-- What the tasks leave to the loop. -/
structure Beside (w w' : World Ir) : Prop where
  history : w'.history = w.history
  pending : w'.self.pending_batch_delivery = w.self.pending_batch_delivery
  outcome : ∀ t r, w.outcome t = some r → w'.outcome t = some r

namespace Beside

variable {w w' w'' : World Ir}

theorem refl (w : World Ir) : Beside w w := ⟨rfl, rfl, fun _ _ h => h⟩

theorem trans (h : Beside w w') (h' : Beside w' w'') : Beside w w'' :=
  ⟨h'.history.trans h.history, h'.pending.trans h.pending,
    fun t r hr => h'.outcome t r (h.outcome t r hr)⟩

theorem tidy (h : Beside w w') (hw : Tidy w) : Tidy w' := by
  refine ⟨fun t ht => ?_, fun t ht => ?_, fun t ht => ?_, ?_⟩
  · rw [h.history] at ht
    obtain ⟨hp, e, he⟩ := hw.stuck t ht
    exact ⟨h.pending.trans hp, e, h.outcome t _ he⟩
  · rw [h.history] at ht
    exact h.outcome t _ (hw.passed t ht)
  · rw [h.history] at ht ⊢
    exact hw.twice t ht
  · rw [h.history]
    exact hw.silent

theorem of_tasks (hlog : w'.history = w.history)
    (hpending : w'.self.pending_batch_delivery = w.self.pending_batch_delivery)
    (htasks : w'.tasks = w.tasks) : Beside w w' :=
  ⟨hlog, hpending, fun t r h => by rwa [World.outcome, htasks]⟩

/-- An answer to a call that is none of the loop's own. -/
theorem of_answered {q : Req Ir} {r : Except Exn q.Reply}
    (hq : (q.call.reads_group || q.call.is_join) = false) (h : Answered q r w w') :
    Beside w w' := by
  obtain ⟨took, hl⟩ := h.log
  refine of_tasks ?_ (by rw [h.self]) h.tasks
  rw [history_cons hl, if_neg (by simpa [Event.by_loop] using hq)]

/-- What a task does between two awaits. -/
theorem of_delivering {f : World Ir → World Ir}
    (hf : Delivering (fun e => ∃ q, e = .started q) f) (w : World Ir) : Beside w (f w) := by
  rcases hf with hf | ⟨t, rfl⟩
  · refine of_tasks ?_ (hf.plain.shared w).2.2 (hf.plain.tasks w)
    rcases hf.plain.log w with hl | ⟨e, ⟨q, rfl⟩, hl⟩
    · exact history_of_log hl
    · rw [history_cons hl]
      rfl
  · exact ⟨rfl, rfl, fun i r h => World.outcome_create_task t h⟩

end Beside

theorem Drift.beside {w w' : World Ir} (h : Drift cloud w w') : Beside w w' :=
  .of_tasks (history_of_log h.log) (by rw [h.self]) h.tasks

theorem Call.not_by_loop_of_served {c : Call Ir} (h : c.served = true) :
    (c.reads_group || c.is_join) = false := by
  cases c <;> first | rfl | cases h

/-! ## The regime -/

/-- At the top of the loop: what was read after a failure has led to another failure. -/
structure Top (w : World Ir) : Prop where
  tidy : Tidy w
  paid : ReadAfterFailure w.history → ∃ t, 2 ≤ failures t w.history

theorem Top.beside {w w' : World Ir} (h : Top w) (hb : Beside w w') : Top w' := by
  refine ⟨hb.tidy h.tidy, fun hr => ?_⟩
  rw [hb.history] at hr ⊢
  exact h.paid hr

/-- No await of a delivery has failed yet. -/
structure Clear (w : World Ir) : Prop where
  tidy : Tidy w
  clear : ¬ Failed w.history

theorem Clear.top {w : World Ir} (h : Clear w) : Top w :=
  ⟨h.tidy, fun hr => absurd hr.failed h.clear⟩

theorem Clear.beside {w w' : World Ir} (h : Clear w) (hb : Beside w w') : Clear w' :=
  ⟨hb.tidy h.tidy, by rw [hb.history]; exact h.clear⟩

/-- Where nothing has failed, only the deliveries that returned matter. -/
theorem Clear.of {w : World Ir} (hclear : ¬ Failed w.history)
    (hpassed : ∀ t, 0 < successes t w.history → w.outcome t = some (.ok ()))
    (hsilent : SilentAfterFailure w.history) : Clear w := by
  refine ⟨⟨fun t ht => ?_, hpassed, fun t ht => ?_, hsilent⟩, hclear⟩
  · exact absurd (failed_of_failures ht) hclear
  · have hpos : 0 < failures t w.history := by omega
    exact absurd (failed_of_failures hpos) hclear

/-- The regime of the loop. -/
def delivering (Ir : Type) : Kernel.Regime (World Ir) (Req Ir) Exn where
  inv := Tidy
  grows w w' := w.tasks.map Prod.fst <+: w'.tasks.map Prod.fst
  frame := Beside
  pre q w := q.call.reads_group = true → Top w
  ended _ := True
  round _ := Top

/-- The contract of the loop in that regime. -/
abbrev watching (node : Node Ir)
    (cloud : (String → Option String) → (String → Option String) → Prop) :
    Contract (World Ir) (@Req.Reply Ir) Exn :=
  Kernel.Regime.main (consumer node cloud not_cancelled) (delivering Ir)

/-! ## The code of an iteration -/

/-- A step of the loop's code while nothing has failed. -/
structure Forward (f : World Ir → World Ir) : Prop where
  log : ∀ w, (f w).log = w.log ∨
    ∃ e, e.minor ∧ (f w).log = ⟨e, w.values, w.region⟩ :: w.log
  outcome : ∀ w t r, w.outcome t = some r → (f w).outcome t = some r
  tasks : ∀ w, w.tasks <+: (f w).tasks

theorem Forward.of_plain {G : Region → Region → Prop} {f : World Ir → World Ir}
    (hf : Plain Event.minor G f) : Forward f where
  log := hf.log
  outcome w t r h := by rwa [World.outcome, hf.tasks w]
  tasks w := (hf.tasks w).symm ▸ List.prefix_refl _

theorem Forward.of_silent {f : World Ir → World Ir} (hlog : ∀ w, (f w).log = w.log)
    (htasks : ∀ w, (f w).tasks = w.tasks) : Forward f where
  log w := .inl (hlog w)
  outcome w t r h := by rwa [World.outcome, htasks w]
  tasks w := (htasks w).symm ▸ List.prefix_refl _

theorem Forward.create_task (t : TaskSpec Ir) : Forward (fun w : World Ir => w.create_task t) where
  log _ := .inl rfl
  outcome _ _ _ h := World.outcome_create_task t h
  tasks _ := ⟨[(t, none)], rfl⟩

theorem Forward.permits : Permits (Forward : (World Ir → World Ir) → Prop) where
  look := .of_plain Roaming.permits.look
  self f hf := .of_plain (Roaming.permits.self f hf)
  mark x hx := .of_plain (Roaming.permits.mark x hx)
  starts s := .of_plain (Roaming.permits.starts s)
  exec f := .of_plain (Roaming.permits.exec f)
  flags f hf _ := .of_plain (Roaming.permits.self f hf)

theorem Forward.clear {f : World Ir → World Ir} (hf : Forward f) {w : World Ir}
    (h : Clear w) : Clear (f w) := by
  have hpassed : ∀ t, 0 < successes t w.history → (f w).outcome t = some (.ok ()) :=
    fun t ht => hf.outcome w t _ (h.tidy.passed t ht)
  -- a line of the code is no await, so it neither fails nor returns
  obtain hsame | ⟨e, he, hcons⟩ : (f w).history = w.history ∨
      ∃ e : Event Ir, e.minor ∧ (f w).history = e :: w.history := by
    rcases hf.log w with hl | ⟨e, he, hl⟩
    · exact .inl (history_of_log hl)
    · rw [history_cons hl]
      split
      · exact .inr ⟨e, he, rfl⟩
      · exact .inl rfl
  · refine Clear.of ?_ ?_ ?_ <;> rw [hsame]
    · exact h.clear
    · exact hpassed
    · exact h.tidy.silent
  · have hno : e.raises Call.is_join = false ∧ ∀ t, e.returns (Call.joins t) = false := by
      cases e with
      | ended q took r => exact he.elim
      | started q => exact ⟨rfl, fun _ => rfl⟩
      | mark x => exact ⟨rfl, fun _ => rfl⟩
    refine Clear.of ?_ ?_ ?_ <;> rw [hcons]
    · rintro ⟨e', he', hr⟩
      rcases List.mem_cons.1 he' with rfl | he'
      · rw [hno.1] at hr
        cases hr
      · exact h.clear ⟨e', he', hr⟩
    · intro t ht
      simp only [successes, List.countP_cons, hno.2 t, Bool.false_eq_true, if_false,
        Nat.add_zero] at ht
      exact hpassed t ht
    · exact ⟨h.tidy.silent, fun _ => h.clear⟩

/-- Code that reads nothing and awaits no delivery, while nothing has failed. -/
theorem wp_forward {w : World Ir} (h : Clear w) {p : Prog Ir α}
    (hp : Within Forward (fun q => (q.call.reads_group || q.call.is_join) = false) p) :
    (watching node cloud).wp p (fun _ w' => Clear w') w := by
  refine Within.wp (I := Clear) ?_ ?_ ?_ ?_ hp h
  · intro q w₁ hq h₁
    refine ⟨h₁.tidy, fun hr => ?_⟩
    rw [hr] at hq
    cases hq
  · exact fun w₁ w₂ h₁ hr => h₁.beside (hr h₁.tidy).2
  · intro f w₁ hf h₁
    have h₂ := hf.clear h₁
    exact ⟨⟨h₂.tidy, (hf.tasks w₁).map Prod.fst⟩, h₂⟩
  · intro q w₁ r w₂ hq h₁ ha
    have hans := Answered.of_answers ha.1
    have h₂ := h₁.beside (.of_answered hq hans)
    exact ⟨⟨h₂.tidy, World.specs_of_tasks hans.tasks⟩, h₂⟩

/-- What an iteration does with the messages. -/
theorem wp_dispatching {w : World Ir} (h : Clear w) (messages : List (String × List Message)) :
    (watching node cloud).wp
      (if messages.isEmpty then recheck_pending node else dispatch node messages)
      (fun _ w' => Top w') w := by
  have henter : ∀ r, Forward (fun x : World Ir => x.enter r) := fun r =>
    .of_plain (Roaming.enter r)
  have hpost : ∀ q, Forward (fun x : World Ir => x.record (.started q)) := fun q =>
    .of_plain (Roaming.post q)
  have hpending : ∀ t, Forward (fun x : World Ir =>
      x.set_self ({ · with pending_batch_delivery := t })) := fun t =>
    .of_silent (fun _ => rfl) fun _ => rfl
  have hcheck : ∀ t, Forward (fun x : World Ir =>
      x.set_frame ({ · with last_pending_check := t })) := fun t =>
    .of_silent (fun _ => rfl) fun _ => rfl
  have hserved : Within Forward (fun q => q.call.served = true)
      (if messages.isEmpty then recheck_pending node else dispatch node messages) := by
    split
    · exact within_recheck_pending Forward.permits henter hpost hcheck
    · exact within_dispatch Forward.permits henter hpost .create_task
        (fun x hx => .of_plain (Roaming.mark x hx)) hpending messages
  exact Contract.wp_mono (wp_forward h (hserved.mono (fun _ hf => hf)
    fun _ hq => Call.not_by_loop_of_served hq)) fun _ _ h' => h'.top

/-- The loop has just read. -/
structure JustRead (w : World Ir) : Prop where
  tidy : Tidy w
  read : Failed w.history → ReadAfterFailure w.history

theorem JustRead.beside {w w' : World Ir} (h : JustRead w) (hb : Beside w w') :
    JustRead w' := by
  refine ⟨hb.tidy h.tidy, fun hf => ?_⟩
  rw [hb.history] at hf ⊢
  exact h.read hf

/-- Whatever has failed is the pending delivery. -/
theorem Tidy.pending_of_failed {w : World Ir} (h : Tidy w) (hf : Failed w.history) :
    ∃ t, 0 < failures t w.history ∧ w.self.pending_batch_delivery = some t := by
  obtain ⟨t, ht⟩ := exists_failures_of_failed hf
  exact ⟨t, ht, (h.stuck t ht).1⟩

/-- The delivery's await has returned: nothing has ever failed. -/
theorem clear_of_joined {w w' : World Ir} {msg : Option Message} {t : Nat}
    (h : Tidy w) (hpending : w.self.pending_batch_delivery = some t)
    (hdone : w.outcome t = some (.ok ())) (htasks : w'.tasks = w.tasks)
    (hcons : w'.history =
      .ended ⟨msg, .join t⟩ true (.ok ()) :: w.history) : Clear w' := by
  have hclear : ¬ Failed w.history := by
    intro hf
    obtain ⟨t', ht', hp⟩ := h.pending_of_failed hf
    obtain ⟨-, e, he⟩ := h.stuck t' ht'
    have heq : t' = t := Option.some.inj (hp.symm.trans hpending)
    rw [heq, hdone] at he
    cases he
  refine Clear.of ?_ (fun t' ht' => ?_) ?_
  · rw [hcons]
    rintro ⟨e, he, hr⟩
    rcases List.mem_cons.1 he with rfl | he
    · cases hr
    · exact hclear ⟨e, he, hr⟩
  · rw [World.outcome, htasks, ← World.outcome]
    by_cases heq : t' = t
    · rw [heq]
      exact hdone
    · have hold : 0 < successes t' w.history := by
        have hne : (t == t') = false := by simpa using fun h' : t = t' => heq h'.symm
        rw [hcons] at ht'
        simpa [successes, List.countP_cons, Event.returns, Call.joins, hne] using ht'
      exact h.passed t' hold
  · rw [hcons]
    exact ⟨h.silent, fun hd => by cases hd⟩

/-- The delivery's await has failed: it stays the pending one. -/
theorem top_of_failed {w w' : World Ir} {msg : Option Message} {t : Nat} {took : Bool}
    {e : Exn} (h : JustRead w) (hpending : w.self.pending_batch_delivery = some t)
    (hdone : w.outcome t = some (.error e)) (hself : w'.self = w.self)
    (htasks : w'.tasks = w.tasks)
    (hcons : w'.history = .ended ⟨msg, .join t⟩ took (.error e) :: w.history) : Top w' := by
  have hfail : ∀ t', failures t' w'.history =
      failures t' w.history + if t = t' then 1 else 0 := by
    intro t'
    rw [hcons]
    simp [failures, List.countP_cons, Event.raises, Call.joins]
  have hsame : ∀ t', 0 < failures t' w.history → t' = t := fun t' ht' =>
    Option.some.inj ((h.tidy.stuck t' ht').1.symm.trans hpending)
  have hread : ReadAfterFailure w'.history ↔ ReadAfterFailure w.history := by
    rw [hcons]
    exact ⟨fun hr => hr.resolve_right fun hx => (by cases hx.1), .inl⟩
  refine ⟨⟨fun t' ht' => ?_, fun t' ht' => ?_, fun t' ht' => ?_, ?_⟩, fun hr => ?_⟩
  · rw [hfail t'] at ht'
    have heq : t' = t := by
      by_cases heq : t = t'
      · exact heq.symm
      · rw [if_neg heq] at ht'
        exact hsame t' ht'
    rw [heq, hself, World.outcome, htasks, ← World.outcome]
    exact ⟨hpending, e, hdone⟩
  · rw [World.outcome, htasks, ← World.outcome]
    refine h.tidy.passed t' ?_
    rw [hcons] at ht'
    simpa [successes, List.countP_cons, Event.returns] using ht'
  · -- the earlier failure was followed by the read of this iteration
    have hpos : 0 < failures t' w.history := by
      rw [hfail t'] at ht'
      split at ht' <;> omega
    exact hread.2 (h.read (failed_of_failures hpos))
  · rw [hcons]
    exact ⟨h.tidy.silent, fun hd => by cases hd⟩
  · obtain ⟨t', ht'⟩ := exists_failures_of_failed (hread.1 hr).failed
    have heq : t = t' := (hsame t' ht').symm
    refine ⟨t', ?_⟩
    rw [hfail t', if_pos heq]
    omega

/-- `await self._pending_batch_delivery`. -/
theorem wp_await_delivery {w : World Ir} (h : JustRead w) :
    (watching node cloud).wp (await_delivery : Prog Ir Unit)
      (fun r w' => match r with
        | .ok _ => Clear w'
        | .error _ => Top w') w := by
  refine (Contract.wp_bind _ _ _ _).2 ⟨⟨h.tidy, List.prefix_refl _⟩, ?_⟩
  dsimp only
  cases hp : w.self.pending_batch_delivery with
  | none =>
      refine ⟨h.tidy, fun hf => ?_⟩
      obtain ⟨t, -, ht⟩ := h.tidy.pending_of_failed hf
      rw [hp] at ht
      cases ht
  | some t =>
      refine (Contract.wp_bind _ _ _ _).2 ((Contract.wp_call _ _ _).2
        ⟨⟨h.tidy, fun hr => by cases hr⟩, fun w₁ hrely r w₂ ha => ?_⟩)
      have hb := (hrely h.tidy).2
      have h₁ := h.beside hb
      have hp₁ : w₁.self.pending_batch_delivery = some t := hb.pending.trans hp
      have hans := Answered.of_answers ha.1
      cases r with
      | ok v =>
          obtain ⟨w₃, ⟨hdone, rfl⟩, rfl⟩ := answers_ok.1 ha.1
          have h₂ : Clear (w₃.record (.ended (⟨none, .join t⟩ : Req Ir) true (.ok v))) :=
            clear_of_joined h₁.tidy hp₁ hdone rfl rfl
          have hset : Forward (fun x : World Ir =>
              x.set_self ({ · with pending_batch_delivery := none })) :=
            .of_silent (fun _ => rfl) fun _ => rfl
          have h₃ := hset.clear h₂
          exact ⟨⟨h₂.tidy, List.prefix_refl _⟩, ⟨h₃.tidy, List.prefix_refl _⟩, h₃⟩
      | error e =>
          obtain ⟨hf, -⟩ := answers_error.1 ha.1
          have hdone : w₁.outcome t = some (.error e) := by
            refine hf.resolve_left fun he => ?_
            obtain ⟨k, hk⟩ := ha.2 (congrArg Except.error he)
            cases hk
          obtain ⟨took, hl⟩ := hans.log
          have h₂ : Top w₂ := top_of_failed h₁ hp₁ hdone hans.self hans.tasks
            (history_cons hl)
          exact ⟨⟨h₂.tidy, World.specs_of_tasks hans.tasks⟩, h₂⟩

/-- After a read every delivery stands where it stood. -/
theorem tidy_of_read {w w' : World Ir} {msg : Option Message} {count : Nat} {took : Bool}
    {r : Except Exn (List (String × List Message))} (h : Tidy w) (hself : w'.self = w.self)
    (htasks : w'.tasks = w.tasks)
    (hcons : w'.history = .ended ⟨msg, .xreadgroup count⟩ took r :: w.history) : Tidy w' := by
  have hfail : ∀ t, failures t w'.history = failures t w.history := by
    intro t
    rw [hcons]
    cases r <;> simp [failures, Event.raises, Call.joins]
  have hpass : ∀ t, successes t w'.history = successes t w.history := by
    intro t
    rw [hcons]
    cases r <;> simp [successes, Event.returns, Call.joins]
  refine ⟨fun t ht => ?_, fun t ht => ?_, fun t ht => ?_, ?_⟩
  · rw [hfail t] at ht
    rw [hself, World.outcome, htasks, ← World.outcome]
    exact h.stuck t ht
  · rw [hpass t] at ht
    rw [World.outcome, htasks, ← World.outcome]
    exact h.passed t ht
  · rw [hfail t] at ht
    rw [hcons]
    exact .inl (h.twice t ht)
  · rw [hcons]
    exact ⟨h.silent, fun hd => by cases hd⟩

/-- The `try` block of an iteration. -/
theorem wp_read_and_dispatch {w : World Ir} (h : Top w) :
    (watching node cloud).wp (read_and_dispatch node) (fun _ w' => Top w') w := by
  refine (Contract.wp_bind _ _ _ _).2 ((Contract.wp_call _ _ _).2
    ⟨⟨h.tidy, fun _ => h⟩, fun w₁ hrely r w₂ ha => ?_⟩)
  have h₁ := h.beside (hrely h.tidy).2
  have hans := Answered.of_answers ha.1
  obtain ⟨took, hl⟩ := hans.log
  have hcons := history_cons hl
  have h₂ : Tidy w₂ := tidy_of_read h₁.tidy hans.self hans.tasks hcons
  refine ⟨⟨h₂, World.specs_of_tasks hans.tasks⟩, ?_⟩
  cases r with
  | error e =>
      -- nothing was read: what had to be paid has been paid
      refine ⟨h₂, fun hr => ?_⟩
      have hold : ReadAfterFailure w₁.history := by
        rw [hcons] at hr
        exact hr.resolve_right fun hx => (by cases hx.1)
      obtain ⟨t, ht⟩ := h₁.paid hold
      refine ⟨t, ?_⟩
      rw [hcons]
      exact Nat.le_trans ht (List.Sublist.countP_le (List.sublist_cons_self _ _))
  | ok messages =>
      have hread : Failed w₂.history → ReadAfterFailure w₂.history := by
        rw [hcons]
        rintro ⟨e, he, hr⟩
        rcases List.mem_cons.1 he with rfl | he
        · cases hr
        · exact .inr ⟨rfl, e, he, hr⟩
      set w₃ : World Ir := w₂.set_self ({ · with redis_healthy := true }) with hw₃
      set w₄ : World Ir := w₃.set_frame ({ · with consecutive_failures := 0 }) with hw₄
      have hsame : Beside w₂ w₄ := ⟨rfl, rfl, fun _ _ h' => h'⟩
      have hfirst : Beside w₂ w₃ := ⟨rfl, rfl, fun _ _ h' => h'⟩
      have h₃ : Tidy w₃ := hfirst.tidy h₂
      have h₄ : JustRead w₄ := JustRead.beside ⟨h₂, hread⟩ hsame
      refine (Contract.wp_bind _ _ _ _).2 ⟨⟨h₃, List.prefix_refl _⟩, ?_⟩
      refine (Contract.wp_bind _ _ _ _).2 ⟨⟨h₄.tidy, List.prefix_refl _⟩, ?_⟩
      show (watching node cloud).wp (do
        await_delivery
        if messages.isEmpty then recheck_pending node else dispatch node messages) _ w₄
      refine (Contract.wp_bind _ _ _ _).2 (Contract.wp_mono (wp_await_delivery h₄)
        fun r w₅ h₅ => ?_)
      cases r with
      | ok u => exact wp_dispatching h₅ messages
      | error e => exact h₅

/-- The `except` clauses touch nothing of this. -/
theorem wp_back_off_top {w : World Ir} (h : Top w) (e : Exn) :
    (watching node cloud).wp (back_off e : Prog Ir Unit) (fun _ w' => Top w') w := by
  have hcode : Within (fun f : World Ir → World Ir => (∀ w, Beside w (f w)) ∧
      ∀ w, (f w).tasks = w.tasks)
      (fun q => (q.call.reads_group || q.call.is_join) = false) (back_off e : Prog Ir Unit) := by
    unfold back_off
    split
    · refine Within.bind (Within.update ⟨fun _ => ⟨rfl, rfl, fun _ _ h' => h'⟩, fun _ => rfl⟩)
        fun _ => ?_
      refine Within.bind (Within.update ⟨fun _ => ⟨rfl, rfl, fun _ _ h' => h'⟩, fun _ => rfl⟩)
        fun _ => ?_
      refine Within.bind (Within.look ⟨Beside.refl, fun _ => rfl⟩) fun n => ?_
      refine Within.bind (Within.of_except _) fun delay => ?_
      refine Within.bind (Within.update ⟨fun _ => ⟨rfl, rfl, fun _ _ h' => h'⟩, fun _ => rfl⟩)
        fun _ => ?_
      exact Within.call rfl
    · split
      · trivial
      · exact Within.call rfl
  refine Within.wp (I := Top) ?_ ?_ ?_ ?_ hcode h
  · intro q w₁ hq h₁
    exact ⟨h₁.tidy, fun _ => h₁⟩
  · exact fun w₁ w₂ h₁ hr => h₁.beside (hr h₁.tidy).2
  · intro f w₁ hf h₁
    have h₂ := h₁.beside (hf.1 w₁)
    exact ⟨⟨h₂.tidy, World.specs_of_tasks (hf.2 w₁)⟩, h₂⟩
  · intro q w₁ r w₂ hq h₁ ha
    have hans := Answered.of_answers ha.1
    have h₂ := h₁.beside (.of_answered hq hans)
    exact ⟨⟨h₂.tidy, World.specs_of_tasks hans.tasks⟩, h₂⟩

/-- One iteration leads from the top of the loop to its top. -/
theorem wp_iteration_top {w : World Ir} (h : Top w) :
    (watching node cloud).wp (iteration node) (fun _ w' => Tidy w' ∧ Top w') w := by
  refine (Contract.wp_try_except _ _ _ _).2 (Contract.wp_mono (wp_read_and_dispatch h)
    fun r w' h' => ?_)
  cases r with
  | ok u => exact ⟨h'.tidy, h'⟩
  | error e => exact Contract.wp_mono (wp_back_off_top h' e) fun _ _ h'' => ⟨h''.tidy, h''⟩

/-- Before the loop nothing has failed. -/
theorem wp_startup_top {w : World Ir} (h : Clear w) :
    (watching node cloud).wp (startup node) (fun _ w' => Tidy w' ∧ Top w') w := by
  have henter : ∀ r, Forward (fun x : World Ir => x.enter r) := fun r =>
    .of_plain (Roaming.enter r)
  have hpost : ∀ q, Forward (fun x : World Ir => x.record (.started q)) := fun q =>
    .of_plain (Roaming.post q)
  have hset : ∀ f, Forward (fun x : World Ir => x.set_self f) := fun f =>
    .of_silent (fun _ => rfl) fun _ => rfl
  have hframe : ∀ f, Forward (fun x : World Ir => x.set_frame f) := fun f =>
    .of_silent (fun _ => rfl) fun _ => rfl
  have hcode : Within Forward (fun q => (q.call.reads_group || q.call.is_join) = false)
      (startup node) := by
    refine (Within.update (hset _)).bind fun _ => ?_
    refine Within.bind (Within.try_except (Within.call rfl) fun e => ?_) fun _ => ?_
    · cases e with
      | response msg => dsimp only; split <;> trivial
      | _ => trivial
    · have hrecover : Within Forward (fun q => (q.call.reads_group || q.call.is_join) = false)
          (recover_pending node) :=
        (within_recover_pending Forward.permits henter hpost).mono (fun _ hf => hf)
          fun _ hq => Call.not_by_loop_of_served hq
      exact hrecover.bind fun _ => (Within.look Forward.permits.look).bind fun _ =>
        Within.update (hframe _)
  exact Contract.wp_mono (wp_forward h hcode) fun _ _ h' => ⟨h'.tidy, h'.top⟩

/-! ## The consumer -/

theorem delivering_sound :
    Kernel.Regime.Sound (consumer node cloud not_cancelled) (delivering Ir) where
  refl := Beside.refl
  trans _ _ _ h h' := h.trans h'
  grows_refl w := List.prefix_refl _
  grows_trans _ _ _ h h' := h.trans h'
  spawned _ _ h := h
  drift w w' hd := by
    have hspawned : w'.tasks.map Prod.fst = w.tasks.map Prod.fst := by rw [Drift.tasks hd]
    exact ⟨hspawned, fun hi => ⟨(Drift.beside hd).tidy hi, Drift.beside hd,
      World.specs_of_tasks (Drift.tasks hd)⟩⟩
  finish i r w := by
    have hb : Beside w (w.finish_task i r) := ⟨rfl, rfl, fun _ _ h => World.outcome_finish_task h⟩
    exact ⟨w.finish_task_specs i r, fun hi _ => ⟨hb.tidy hi, hb,
      w.finish_task_grows i r⟩⟩
  body _ w _ t _ hi _ _ := by
    have hcode : Within (Delivering fun e => ∃ q, e = .started q)
        (fun q => q.call.delivers = true) (task_body node t) :=
      within_task_body (Delivering.allows _) (Delivering.post fun q => ⟨q, rfl⟩)
        (fun t => .inr ⟨t, rfl⟩) t
    refine Contract.wp_mono (Within.wp (I := Tidy) (fun _ _ _ _ => trivial)
      (fun w₁ w₂ h₁ (hr : Tidy w₁ → Tidy w₂ ∧ _) => (hr h₁).1) ?_ ?_ hcode hi) fun r w' h' => ⟨h', trivial⟩
    · intro f w₁ hf h₁
      have hb := Beside.of_delivering hf w₁
      exact ⟨⟨hb.tidy h₁, hb, (hf.grows w₁).map Prod.fst⟩, hb.tidy h₁⟩
    · intro q w₁ r w₂ hq h₁ ha
      have hans := Answered.of_answers ha.1
      have hb := Beside.of_answered (Call.not_by_loop_of_served
        (Call.served_of_inner (Call.inner_of_delivers hq))) hans
      exact ⟨⟨hb.tidy h₁, hb, World.specs_of_tasks hans.tasks⟩, hb.tidy h₁⟩
  again w p hi hr hp := by
    have hiter := eq_iteration_of_again hp
    subst hiter
    exact wp_iteration_top hr

/-- How often a delivery was awaited. -/
theorem countP_ends_joins (t : Nat) (h : List (Event Ir)) :
    h.countP (Event.ends (Call.joins t)) = failures t h + successes t h := by
  induction h with
  | nil => rfl
  | cons e h ih =>
      have hone : (if e.ends (Call.joins t) = true then 1 else 0) =
          (if e.raises (Call.joins t) = true then 1 else 0) +
            (if e.returns (Call.joins t) = true then 1 else 0) := by
        cases e with
        | ended q took r => cases r <;> cases hj : Call.joins t q.call <;> simp [hj]
        | _ => rfl
      simp only [failures, successes, List.countP_cons] at ih ⊢
      omega

/-- Two failed awaits of one delivery are not in order. -/
theorem not_orderly_of_failures {h : List (Event Ir)} {t : Nat} (hf : 2 ≤ failures t h) :
    ¬ Orderly h := by
  intro horder
  have hpos : 0 < failures t h := by omega
  have honce := horder.once t hpos
  rw [countP_ends_joins] at honce
  omega

/-- A node whose batches succeed. -/
def wedge_node : Node String :=
  sample_node (.runs 0 (.ok sample_result)) (some fun _ jobs => .ok (jobs.map fun _ => sample_result))

def wedge_world : World String :=
  sample_world [sample_message "1-0" "job-1" sample_ir, sample_message "2-0" "job-2" sample_ir,
    sample_message "3-0" "job-3" sample_ir]

set_option maxRecDepth 40000 in
/-- A batch of two is delivered in the background, and the connection fails in one of the
cancel checks: two iterations later the delivery has been awaited twice, and the third
message has been read and not dispatched. -/
theorem wedged_run : ∃ x, Reaches wedge_node sets_only not_cancelled wedge_world x ∧
    (∃ msg count k, x.main = .await ⟨msg, .xreadgroup count⟩ k) ∧
    failures 0 x.state.history = 2 := by
  have hok : ∀ (q : Req String) (w : World String) (v : q.Reply), not_cancelled q w (.ok v) :=
    fun q w v he => by cases he
  have hcon : ∀ (q : Req String) (w : World String) (msg : String),
      not_cancelled q w (.error (.connection msg)) := fun q w msg he => by cases he
  -- startup, the first read, and the batch
  refine Kernel.exists_run_of_main _ (r := .ok ()) rfl
    ⟨answers_ok.2 ⟨_, ⟨rfl, rfl⟩, rfl⟩, hok _ _ _⟩ ?_
  refine Kernel.exists_run_of_main _ (r := .ok []) rfl
    ⟨answers_ok.2 ⟨_, ⟨rfl, rfl⟩, rfl⟩, hok _ _ _⟩ ?_
  refine Kernel.exists_run_of_main _ (r := .ok [(wedge_node.stream, [_, _])]) rfl
    ⟨answers_ok.2 ⟨_, ⟨2, by decide, rfl, rfl⟩, rfl⟩, hok _ _ _⟩ ?_
  refine Kernel.exists_run_of_main _ (r := .ok none) rfl
    ⟨answers_ok.2 ⟨_, ⟨rfl, rfl⟩, rfl⟩, hok _ _ _⟩ ?_
  refine Kernel.exists_run_of_main _ (r := .ok none) rfl
    ⟨answers_ok.2 ⟨_, ⟨rfl, rfl⟩, rfl⟩, hok _ _ _⟩ ?_
  refine Kernel.exists_run_of_main _ (r := .ok none) rfl
    ⟨answers_ok.2 ⟨_, ⟨rfl, rfl⟩, rfl⟩, hok _ _ _⟩ ?_
  refine Kernel.exists_run_of_main _ (r := .ok none) rfl
    ⟨answers_ok.2 ⟨_, ⟨rfl, rfl⟩, rfl⟩, hok _ _ _⟩ ?_
  refine Kernel.exists_run_of_main _ (r := .ok ()) rfl
    ⟨answers_ok.2 ⟨_, rfl, rfl⟩, hok _ _ _⟩ ?_
  refine Kernel.exists_run_of_main _ (r := .ok ()) rfl
    ⟨answers_ok.2 ⟨_, rfl, rfl⟩, hok _ _ _⟩ ?_
  refine Kernel.exists_run_of_main _ (r := .ok [sample_result, sample_result]) rfl
    ⟨answers_ok.2 ⟨_, ⟨⟨_, rfl, rfl⟩, rfl⟩, rfl⟩, hok _ _ _⟩ ?_
  -- the delivery begins, and the connection fails in the first cancel check
  refine Kernel.exists_run_of_task _ 0 (r := .ok ()) rfl
    ⟨answers_ok.2 ⟨_, rfl, rfl⟩, hok _ _ _⟩ ?_
  refine Kernel.exists_run_of_task _ 1 (r := .ok ()) rfl
    ⟨answers_ok.2 ⟨_, rfl, rfl⟩, hok _ _ _⟩ ?_
  refine Kernel.exists_run_of_task _ 1 (r := .error (.connection "Connection reset")) rfl
    ⟨answers_error.2 ⟨by simp [fails], .inl ⟨rfl, rfl⟩⟩, hcon _ _ _⟩ ?_
  refine Kernel.exists_run_of_task _ 0 (r := .error (.connection "Connection reset")) rfl
    ⟨answers_error.2 ⟨.inr ⟨1, by decide, rfl⟩, .inl ⟨rfl, rfl⟩⟩, hcon _ _ _⟩ ?_
  -- an empty read, the first await, and the sleep
  refine Kernel.exists_run_of_main _ (r := .ok []) rfl
    ⟨answers_ok.2 ⟨_, ⟨0, by decide, rfl, rfl⟩, rfl⟩, hok _ _ _⟩ ?_
  refine Kernel.exists_run_of_main _ (r := .error (.connection "Connection reset")) rfl
    ⟨answers_error.2 ⟨.inr rfl, .inl ⟨rfl, rfl⟩⟩, hcon _ _ _⟩ ?_
  refine Kernel.exists_run_of_main _ (r := .ok ()) rfl
    ⟨answers_ok.2 ⟨_, rfl, rfl⟩, hok _ _ _⟩ ?_
  -- the third message is read, the same await, the same failure
  refine Kernel.exists_run_of_main _ (r := .ok [(wedge_node.stream, [_])]) rfl
    ⟨answers_ok.2 ⟨_, ⟨1, by decide, rfl, rfl⟩, rfl⟩, hok _ _ _⟩ ?_
  refine Kernel.exists_run_of_main _ (r := .error (.connection "Connection reset")) rfl
    ⟨answers_error.2 ⟨.inr rfl, .inl ⟨rfl, rfl⟩⟩, hcon _ _ _⟩ ?_
  refine Kernel.exists_run_of_main _ (r := .ok ()) rfl
    ⟨answers_ok.2 ⟨_, rfl, rfl⟩, hok _ _ _⟩ ?_
  exact ⟨_, .refl, ⟨_, _, _, rfl⟩, by rfl⟩

end CodaNode
