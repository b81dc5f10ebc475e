/-
`Consumer/Backoff.lean` -- how long an outage may last.

The delay is `min(2.0 ** (n - 1), 60)` after the `n`-th connection error in a row, and the
power is computed before the minimum is taken. The loop therefore backs off as it should
for 1024 errors, which is some seventeen hours, and the next one ends it.
-/
import CodaNode.Consumer.Resilience

set_option autoImplicit false

open Coroutine

namespace CodaNode

variable {Ir : Type} {node : Node Ir} {α : Type}
variable {cloud : (String → Option String) → (String → Option String) → Prop}
variable {allow : (q : Req Ir) → World Ir → Except Exn q.Reply → Prop}

/-! ## Outages -/

namespace Event

/-- The connection errors in a row after this line: a failed read is one more, a good one
ends the row, and a loop that backs off has met one, be it elsewhere. -/
def strike (n : Nat) : Event Ir → Nat
  | ended q _ (.ok _) => if q.call.reads_group then 0 else n
  | ended q _ (.error e) => if q.call.reads_group && e.is_connection then n + 1 else n
  | mark (.lost _ _) => max n 1
  | _ => n

/-- The delays since the last good read after this line. -/
def delayed (ds : List Nat) : Event Ir → List Nat
  | ended q _ (.ok _) => if q.call.reads_group then [] else ds
  | mark (.lost _ delay) => ds ++ [delay]
  | _ => ds

theorem strike_unheard {e : Event Ir} (h : e.unheard) (n : Nat) : e.strike n = n := by
  obtain ⟨hlink, -, hends⟩ := h
  cases e with
  | started q => rfl
  | ended q took r =>
      have hread : q.call.reads_group = false := hends
      cases r <;> simp [strike, hread]
  | mark x =>
      cases x with
      | lost attempt delay => cases hlink
      | _ => rfl

theorem delayed_unheard {e : Event Ir} (h : e.unheard) (ds : List Nat) : e.delayed ds = ds := by
  obtain ⟨hlink, -, hends⟩ := h
  cases e with
  | started q => rfl
  | ended q took r =>
      have hread : q.call.reads_group = false := hends
      cases r <;> simp [delayed, hread]
  | mark x =>
      cases x with
      | lost attempt delay => cases hlink
      | _ => rfl

end Event

namespace World

/-- The connection errors that the loop has met since its last good read. -/
def outage (w : World Ir) : Nat := w.log.foldr (fun x n => x.event.strike n) 0

/-- The delays that the loop has computed since then. -/
def delays (w : World Ir) : List Nat := w.log.foldr (fun x ds => x.event.delayed ds) []

variable {w w' : World Ir} {x : Entry Ir}

theorem outage_cons (h : w'.log = x :: w.log) : w'.outage = x.event.strike w.outage := by
  rw [outage, h, List.foldr_cons]
  rfl

theorem delays_cons (h : w'.log = x :: w.log) : w'.delays = x.event.delayed w.delays := by
  rw [delays, h, List.foldr_cons]
  rfl

theorem paused_cons (h : w'.log = x :: w.log) : w'.paused = x.event.pause.or w.paused := by
  rw [paused, h, List.findSome?_cons]
  cases x.event.pause <;> rfl

end World

/-- The delays of the first `n` connection errors in a row. -/
def doubling (n : Nat) : List Nat := (List.range n).map fun k => min (2 ^ k) 60

theorem doubling_succ (n : Nat) : doubling (n + 1) = doubling n ++ [min (2 ^ n) 60] := by
  rw [doubling, List.range_succ, List.map_append]
  rfl

/-! ## The regime -/

/-- What the tasks leave to the loop. -/
structure Unmoved (w w' : World Ir) : Prop where
  outage : w'.outage = w.outage
  delays : w'.delays = w.delays
  paused : w'.paused = w.paused
  failures : w'.frame.consecutive_failures = w.frame.consecutive_failures

namespace Unmoved

variable {w w' w'' : World Ir}

theorem of_log (h : w'.log = w.log)
    (hfail : w'.frame.consecutive_failures = w.frame.consecutive_failures) : Unmoved w w' :=
  ⟨by rw [World.outage, h, World.outage], by rw [World.delays, h, World.delays],
    by rw [World.paused, h, World.paused], hfail⟩

theorem of_cons {x : Entry Ir} (h : w'.log = x :: w.log) (hx : x.event.unheard)
    (hfail : w'.frame.consecutive_failures = w.frame.consecutive_failures) : Unmoved w w' := by
  refine ⟨?_, ?_, ?_, hfail⟩
  · rw [World.outage_cons h, Event.strike_unheard hx]
  · rw [World.delays_cons h, Event.delayed_unheard hx]
  · rw [World.paused_cons h, hx.2.1, Option.none_or]

theorem trans (h : Unmoved w w') (h' : Unmoved w' w'') : Unmoved w w'' :=
  ⟨h'.outage.trans h.outage, h'.delays.trans h.delays, h'.paused.trans h.paused,
    h'.failures.trans h.failures⟩

theorem of_minor {f : World Ir → World Ir} (w : World Ir)
    (hlog : (f w).log = w.log ∨ ∃ e, e.minor ∧ (f w).log = ⟨e, w.values, w.region⟩ :: w.log)
    (hfail : (f w).frame.consecutive_failures = w.frame.consecutive_failures) :
    Unmoved w (f w) := by
  rcases hlog with hl | ⟨e, he, hl⟩
  · exact .of_log hl hfail
  · exact .of_cons hl (Event.unheard_of_minor he) hfail

/-- An operation that is neither the read nor the sleep. -/
theorem of_answers {q : Req Ir} {r : Except Exn q.Reply} (hread : q.call.reads_group = false)
    (hsleep : ∀ secs, q.call ≠ .sleep secs) (h : answers node q w r w') : Unmoved w w' := by
  have hans := Answered.of_answers h
  obtain ⟨took, hl⟩ := hans.log
  exact .of_cons hl (Event.unheard_ended took r hread hsleep) (by rw [hans.frame])

end Unmoved

/-- The loop has counted the errors and backed off after each of them. -/
structure Counted (w : World Ir) : Prop where
  failures : w.frame.consecutive_failures = w.outage
  bound : w.outage ≤ 1024
  delays : w.delays = doubling w.outage

theorem Counted.unmoved {w w' : World Ir} (h : Counted w) (hu : Unmoved w w') : Counted w' :=
  ⟨by rw [hu.failures, hu.outage, h.failures], by rw [hu.outage]; exact h.bound,
    by rw [hu.delays, hu.outage, h.delays]⟩

/-- During an outage the loop sleeps for the delay, sleeps for a second after another error,
or reads. -/
def Waits (q : Req Ir) (w : World Ir) : Prop :=
  w.paused = some true ∧ q.call = .sleep (min (2 ^ (w.outage - 1)) 60) ∨
    w.paused ≠ some true ∧ (q.call = .sleep 1 ∨ q.call.reads_group = true)

/-- The exception of the power. -/
def overflow_error : Exn := .other "(34, 'Numerical result out of range')"

/-- How an iteration may end. -/
def Rounded (r : Except Exn Unit) (w : World Ir) : Prop :=
  match r with
  | .ok _ => Counted w ∧ (0 < w.outage → w.paused ≠ some true)
  | .error e => 0 < w.outage → e = .cancelled ∧ Counted w ∨ e = overflow_error ∧ w.outage = 1025

/-- The regime of the backoff. -/
def retrying (Ir : Type) : Kernel.Regime (World Ir) (Req Ir) Exn where
  inv _ := True
  grows w w' := w.tasks.map Prod.fst <+: w'.tasks.map Prod.fst
  frame := Unmoved
  pre q w := Counted w ∧ (0 < w.outage → Waits q w)
  ended _ := True
  round := Rounded

/-- The contract of the loop in that regime. -/
abbrev counting (node : Node Ir)
    (cloud : (String → Option String) → (String → Option String) → Prop)
    (allow : (q : Req Ir) → World Ir → Except Exn q.Reply → Prop) :
    Contract (World Ir) (@Req.Reply Ir) Exn :=
  Kernel.Regime.main (consumer node cloud allow) (retrying Ir)

variable {w w' : World Ir}

/-! ## Outside an outage -/

/-- Nothing has failed since the last good read, if there was one. -/
structure Untroubled (w : World Ir) : Prop where
  outage : w.outage = 0
  delays : w.delays = []
  failures : w.frame.consecutive_failures = 0

theorem Untroubled.counted (h : Untroubled w) : Counted w := by
  refine ⟨?_, ?_, ?_⟩
  · rw [h.failures, h.outage]
  · rw [h.outage]
    omega
  · rw [h.delays, h.outage]
    rfl

theorem Untroubled.unmoved (h : Untroubled w) (hu : Unmoved w w') : Untroubled w' :=
  ⟨hu.outage.trans h.outage, hu.delays.trans h.delays, hu.failures.trans h.failures⟩

theorem Untroubled.rounded (h : Untroubled w) (r : Except Exn Unit) : Rounded r w := by
  have hnone : ¬ 0 < w.outage := by
    rw [h.outage]
    omega
  cases r with
  | ok u => exact ⟨h.counted, fun hpos => absurd hpos hnone⟩
  | error e => exact fun hpos => absurd hpos hnone

/-- A step of the startup, or of an iteration that has read. -/
structure Unfailing (f : World Ir → World Ir) : Prop where
  log : ∀ w, (f w).log = w.log ∨
    ∃ e, e.minor ∧ (f w).log = ⟨e, w.values, w.region⟩ :: w.log
  failures : ∀ w, w.frame.consecutive_failures = 0 → (f w).frame.consecutive_failures = 0
  tasks : ∀ w, w.tasks <+: (f w).tasks

theorem Unfailing.of_onwards {f : World Ir → World Ir} (hf : Onwards f) : Unfailing f :=
  ⟨hf.log, fun w h => (hf.failures w).trans h, hf.tasks⟩

theorem Unfailing.untroubled {f : World Ir → World Ir} (hf : Unfailing f) (h : Untroubled w) :
    Untroubled (f w) :=
  h.unmoved (.of_minor w (hf.log w) (by rw [hf.failures w h.failures, h.failures]))

/-- The calls of the startup, and of an iteration that has read. -/
def Call.served_or_joins (c : Call Ir) : Prop :=
  c.reads_group = false ∧ ∀ secs, c ≠ .sleep secs

theorem Call.served_or_joins_of_served {c : Call Ir} (h : c.served = true) :
    c.served_or_joins := by
  refine ⟨Call.not_read_of_served h, fun secs hs => ?_⟩
  rw [hs] at h
  cases h

/-- Such code leaves no trace of an outage, whatever it raises. -/
theorem wp_untroubled (h : Untroubled w) {p : Prog Ir α}
    (hp : Within Unfailing (fun q => q.call.served_or_joins) p) :
    (counting node cloud allow).wp p (fun _ w' => Untroubled w') w := by
  refine Within.wp (I := Untroubled) ?_ ?_ ?_ ?_ hp h
  · refine fun q w₁ _ h₁ => ⟨trivial, h₁.counted, fun hpos => ?_⟩
    rw [h₁.outage] at hpos
    omega
  · exact fun w₁ w₂ h₁ hr => h₁.unmoved (hr trivial).2
  · exact fun f w₁ hf h₁ => ⟨⟨trivial, (hf.tasks w₁).map Prod.fst⟩, hf.untroubled h₁⟩
  · intro q w₁ r w₂ hq h₁ ha
    have hans := Answered.of_answers ha.1
    exact ⟨⟨trivial, World.specs_of_tasks hans.tasks⟩,
      h₁.unmoved (.of_answers hq.1 hq.2 ha.1)⟩

/-- An iteration that has read is such code. -/
theorem within_unfailing (messages : List (String × List Message)) :
    Within Unfailing (fun q => q.call.served_or_joins) (do
      await_delivery
      if messages.isEmpty then recheck_pending node else dispatch node messages) := by
  refine (within_onwards messages).mono (fun _ hf => .of_onwards hf) fun q hq => ?_
  rcases hq with hq | ⟨t, hq⟩
  · exact Call.served_or_joins_of_served hq
  · rw [hq]
    exact ⟨rfl, fun secs hs => nomatch hs⟩

/-- So is the startup. -/
theorem within_startup :
    Within Unfailing (fun q => q.call.served_or_joins) (startup node) := by
  have hrunning : Unfailing (fun x : World Ir => x.set_self ({ · with running := true })) :=
    .of_onwards (.of_silent (fun _ => rfl) (fun _ => rfl) fun _ => List.prefix_refl _)
  have hreset : ∀ t, Unfailing (fun x : World Ir => x.set_frame fun _ =>
      { consecutive_failures := 0, last_pending_check := t }) := fun t =>
    ⟨fun _ => .inl rfl, fun _ _ => rfl, fun _ => List.prefix_refl _⟩
  have hlook : Unfailing (id : World Ir → World Ir) := .of_onwards Onwards.permits.look
  have hsetup : Within Unfailing (fun q => q.call.served_or_joins) (setup : Prog Ir Unit) := by
    refine Within.try_except (Within.call ⟨rfl, fun secs hs => nomatch hs⟩) fun e => ?_
    cases e with
    | response msg =>
        by_cases hbusy : busygroup msg = true
        · simp [hbusy]
        · simp [hbusy]
    | _ => trivial
  have hrecover : Within Unfailing (fun q => q.call.served_or_joins) (recover_pending node) := by
    have honwards : Within Onwards (fun q => q.call.served = true) (recover_pending node) :=
      within_recover_pending Onwards.permits (fun r => .of_plain (Roaming.enter r))
        fun q => .of_plain (Roaming.post q)
    exact honwards.mono (fun _ hf => .of_onwards hf) fun _ hq => Call.served_or_joins_of_served hq
  refine (Within.update hrunning).bind fun _ => hsetup.bind fun _ => hrecover.bind fun _ => ?_
  exact (Within.look hlook).bind fun t => Within.update (hreset t)

/-! ## The `except` clauses -/

/-- A connection error has reached the loop, and is not counted yet. -/
structure Struck (w : World Ir) : Prop where
  outage : max w.outage 1 = w.frame.consecutive_failures + 1
  bound : w.frame.consecutive_failures ≤ 1024
  delays : w.delays = doubling w.frame.consecutive_failures

/-- Another error has reached the loop. -/
structure Faltered (w : World Ir) : Prop extends Counted w where
  awake : 0 < w.outage → w.paused ≠ some true

/-- A sleep ends, unless it is cancelled. -/
theorem wp_sleep (h : Counted w) {secs : Nat}
    (hwaits : 0 < w.outage → Waits (⟨none, .sleep secs⟩ : Req Ir) w) :
    (counting node cloud allow).wp (alone (.sleep secs)) Rounded w := by
  refine (Contract.wp_call _ _ _).2 ⟨⟨trivial, h, hwaits⟩, fun w₁ hr r w₂ ha => ?_⟩
  have h₁ : Counted w₁ := h.unmoved (hr trivial).2
  have hans := Answered.of_answers ha.1
  obtain ⟨took, hl⟩ := hans.log
  have hstrike : ∀ n, Event.strike n (.ended (⟨none, .sleep secs⟩ : Req Ir) took r) = n := by
    intro n
    cases r <;> rfl
  have hdelayed : ∀ ds, Event.delayed ds (.ended (⟨none, .sleep secs⟩ : Req Ir) took r) = ds := by
    intro ds
    cases r <;> rfl
  have hout : w₂.outage = w₁.outage := (World.outage_cons hl).trans (hstrike _)
  have h₂ : Counted w₂ := by
    refine ⟨?_, ?_, ?_⟩
    · rw [hans.frame, hout, h₁.failures]
    · rw [hout]
      exact h₁.bound
    · rw [World.delays_cons hl, hdelayed, hout, h₁.delays]
  refine ⟨⟨trivial, World.specs_of_tasks hans.tasks⟩, ?_⟩
  cases r with
  | ok v =>
      refine ⟨h₂, fun _ => ?_⟩
      rw [World.paused_cons hl]
      exact fun hp => nomatch hp
  | error e =>
      obtain ⟨hf, -⟩ := answers_error.1 ha.1
      exact fun _ => .inl ⟨hf, h₂⟩

/-- From the 1025th error in a row on the power overflows. -/
theorem backoff_of_ge {n : Nat} (h : 1024 ≤ n) : backoff (n + 1) = .error overflow_error := by
  have hgt : ¬ n + 1 - 1 ≤ 1023 := by omega
  exact if_neg hgt

/-- A connection error: the loop is asleep, unless the power has overflowed. -/
theorem wp_back_off_struck (h : Struck w) {e : Exn} (hcon : e.is_connection = true) :
    (counting node cloud allow).wp (back_off e : Prog Ir Unit) Rounded w := by
  unfold back_off
  rw [if_pos hcon]
  refine (Contract.wp_bind _ _ _ _).2 ⟨⟨trivial, List.prefix_refl _⟩, ?_⟩
  refine (Contract.wp_bind _ _ _ _).2 ⟨⟨trivial, List.prefix_refl _⟩, ?_⟩
  refine (Contract.wp_bind _ _ _ _).2 ⟨⟨trivial, List.prefix_refl _⟩, ?_⟩
  refine (Contract.wp_bind _ _ _ _).2 ((Contract.wp_of_except _ _ _).2 ?_)
  show (counting node cloud allow).and_then _ _ (backoff (w.frame.consecutive_failures + 1)) _
  by_cases hlt : w.frame.consecutive_failures < 1024
  · rw [backoff_of_lt hlt]
    refine (Contract.wp_bind _ _ _ _).2 ⟨⟨trivial, List.prefix_refl _⟩, ?_⟩
    have hstruck : ∀ w₁ : World Ir, w₁.outage = max w.outage 1 →
        w₁.frame.consecutive_failures = w.frame.consecutive_failures + 1 →
        w₁.delays = w.delays ++ [min (2 ^ w.frame.consecutive_failures) 60] →
        w₁.paused = some true → (counting node cloud allow).wp
          (alone (.sleep (min (2 ^ w.frame.consecutive_failures) 60))) Rounded w₁ := by
      intro w₁ hout hfail hdelays hpaused
      rw [h.outage] at hout
      refine wp_sleep ⟨hfail.trans hout.symm, ?_, ?_⟩ fun _ => .inl ⟨hpaused, ?_⟩
      · omega
      · rw [hdelays, h.delays, hout, doubling_succ]
      · rw [hout, Nat.add_sub_cancel]
    exact hstruck _ rfl rfl rfl rfl
  · -- the mark is not reached: the exception is raised in the `except` clause
    rw [backoff_of_ge (by omega)]
    refine fun hpos => .inr ⟨rfl, ?_⟩
    have hout : w.outage = w.frame.consecutive_failures + 1 := by
      have hmax := h.outage
      have hpos' : 0 < w.outage := hpos
      omega
    have hbound := h.bound
    show w.outage = 1025
    omega

/-- Another error: the loop sleeps for a second, unless it is cancelled. -/
theorem wp_back_off_faltered (h : Faltered w) {e : Exn} (hcon : ¬ e.is_connection = true) :
    (counting node cloud allow).wp (back_off e : Prog Ir Unit) Rounded w := by
  unfold back_off
  rw [if_neg hcon]
  split
  · next hcancel => exact fun _ => .inl ⟨hcancel, h.toCounted⟩
  · exact wp_sleep h.toCounted fun hpos => .inr ⟨h.awake hpos, .inl rfl⟩

/-! ## Rounds -/

/-- One iteration. -/
theorem wp_iteration_counting (h : Faltered w) :
    (counting node cloud allow).wp (iteration node) Rounded w := by
  have hcounted := h.toCounted
  refine (Contract.wp_try_except _ _ _ _).2 ((Contract.wp_bind _ _ _ _).2
    ((Contract.wp_call _ _ _).2 ⟨⟨trivial, hcounted, fun hpos => .inr ⟨h.awake hpos, .inr rfl⟩⟩,
      fun w₁ hr r w₂ ha => ?_⟩))
  have hmoved : Unmoved w w₁ := (hr trivial).2
  have h₁ : Faltered w₁ := by
    refine ⟨hcounted.unmoved hmoved, ?_⟩
    rw [hmoved.outage, hmoved.paused]
    exact h.awake
  have hans := Answered.of_answers ha.1
  obtain ⟨took, hl⟩ := hans.log
  refine ⟨⟨trivial, World.specs_of_tasks hans.tasks⟩, ?_⟩
  have hout := World.outage_cons hl
  have hdelays := World.delays_cons hl
  have hpaused := World.paused_cons hl
  cases r with
  | error e =>
      show (counting node cloud allow).wp (back_off e) Rounded w₂
      by_cases hcon : e.is_connection = true
      · have hcount : w₂.outage = w₁.outage + 1 := by
          rw [hout]
          exact if_pos hcon
        refine wp_back_off_struck ⟨?_, ?_, ?_⟩ hcon
        · rw [hans.frame, h₁.failures, hcount]
          omega
        · rw [hans.frame, h₁.failures]
          exact h₁.bound
        · rw [hans.frame, h₁.failures, hdelays]
          exact h₁.delays
      · have hcount : w₂.outage = w₁.outage := by
          rw [hout]
          exact if_neg hcon
        refine wp_back_off_faltered ⟨⟨?_, ?_, ?_⟩, ?_⟩ hcon
        · rw [hans.frame, hcount, h₁.failures]
        · rw [hcount]
          exact h₁.bound
        · rw [hcount, hdelays]
          exact h₁.delays
        · rw [hcount, hpaused]
          exact h₁.awake
  | ok messages =>
      refine (Contract.wp_bind _ _ _ _).2 ⟨⟨trivial, List.prefix_refl _⟩, ?_⟩
      refine (Contract.wp_bind _ _ _ _).2 ⟨⟨trivial, List.prefix_refl _⟩, ?_⟩
      have hserved : ∀ w₃ : World Ir, Untroubled w₃ → (counting node cloud allow).wp (do
          await_delivery
          if messages.isEmpty then recheck_pending node else dispatch node messages)
          (Contract.or_else (counting node cloud allow) back_off Rounded) w₃ := by
        intro w₃ h₃
        refine Contract.wp_mono (wp_untroubled h₃ (within_unfailing messages)) fun r w₄ h₄ => ?_
        cases r with
        | ok u => exact h₄.rounded (.ok u)
        | error e =>
            show (counting node cloud allow).wp (back_off e) Rounded w₄
            by_cases hcon : e.is_connection = true
            · refine wp_back_off_struck ⟨?_, ?_, ?_⟩ hcon
              · rw [h₄.outage, h₄.failures]
                rfl
              · rw [h₄.failures]
                omega
              · rw [h₄.delays, h₄.failures]
                rfl
            · refine wp_back_off_faltered ⟨h₄.counted, fun hpos => ?_⟩ hcon
              rw [h₄.outage] at hpos
              omega
      exact hserved _ ⟨hout, hdelays, rfl⟩

/-! ## The consumer -/

theorem Unmoved.of_delivering {f : World Ir → World Ir} (hf : Delivering Event.minor f)
    (w : World Ir) : Unmoved w (f w) := by
  rcases hf with hf | ⟨t, rfl⟩
  · exact .of_minor w (hf.plain.log w) (by rw [hf.plain.frame w])
  · exact .of_log rfl rfl

/-- The consumer keeps to the regime. -/
theorem retrying_sound : Kernel.Regime.Sound (consumer node cloud allow) (retrying Ir) where
  refl w := .of_log rfl rfl
  trans _ _ _ h h' := h.trans h'
  grows_refl w := List.prefix_refl _
  grows_trans _ _ _ h h' := h.trans h'
  spawned _ _ h := h
  drift w w' hd := by
    have hspawned : w'.tasks.map Prod.fst = w.tasks.map Prod.fst := by rw [Drift.tasks hd]
    refine ⟨hspawned, fun _ => ⟨trivial, .of_log (Drift.log hd) ?_, World.specs_of_tasks hd.tasks⟩⟩
    rw [Drift.frame hd]
  finish i r w := ⟨w.finish_task_specs i r, fun _ _ =>
    ⟨trivial, .of_log rfl rfl, w.finish_task_grows i r⟩⟩
  body _ w _ t _ _ _ _ := by
    have hcode : Within (Delivering Event.minor) (fun q => q.call.delivers = true)
        (task_body node t) :=
      within_task_body (Delivering.allows Event.minor) (Delivering.post fun _ => trivial)
        (fun t => .inr ⟨t, rfl⟩) t
    refine Contract.wp_mono (Within.wp (I := fun _ => True) (fun _ _ _ _ => trivial)
      (fun _ _ _ _ => trivial) ?_ ?_ hcode trivial) fun r w' _ => ⟨trivial, trivial⟩
    · exact fun f w₁ hf _ =>
        ⟨⟨trivial, .of_delivering hf w₁, (hf.grows w₁).map Prod.fst⟩, trivial⟩
    · intro q w₁ r w₂ hq _ ha
      have hans := Answered.of_answers ha.1
      have hserved := Call.served_or_joins_of_served
        (Call.served_of_inner (Call.inner_of_delivers hq))
      exact ⟨⟨trivial, .of_answers hserved.1 hserved.2 ha.1, World.specs_of_tasks hans.tasks⟩,
        trivial⟩
  again w p _ hr hp := by
    obtain rfl := eq_iteration_of_again hp
    exact Contract.wp_mono (wp_iteration_counting ⟨hr.1, hr.2⟩) fun r w' hr' => ⟨trivial, hr'⟩

/-- The loop has backed off after each of the connection errors in a row as it should, and is
still there: it sleeps for the delay or reads again. -/
structure BacksOff (x : Pool (World Ir) (@Req.Reply Ir) Exn) : Prop where
  delays : x.state.delays = doubling x.state.outage
  running : ∀ e, x.main = .raise e → e = .cancelled
  retries : ∀ q k, x.main = .await q k → Waits q x.state

/-- **The backoff is right for 1024 connection errors in a row, and for no more**, whatever
else the consumer meets. -/
theorem backs_off_iff (node : Node Ir)
    (cloud : (String → Option String) → (String → Option String) → Prop)
    (allow : (q : Req Ir) → World Ir → Except Exn q.Reply → Prop) (w : World Ir)
    (hw : Fresh w) (x : Pool (World Ir) (@Req.Reply Ir) Exn)
    (hx : Reaches node cloud allow w x) (hn : 1 ≤ x.state.outage) :
    BacksOff x ↔ x.state.outage ≤ 1024 := by
  have hstart : Untroubled w := by
    refine ⟨?_, ?_, ?_⟩
    · rw [World.outage, hw.log]
      rfl
    · rw [World.delays, hw.log]
      rfl
    · rw [hw.frame]
  have hbegin : (counting node cloud allow).wp (startup node)
      (fun r w' => True ∧ Rounded r w') w := by
    exact Contract.wp_mono (wp_untroubled hstart within_startup)
      fun r w' h' => ⟨trivial, h'.rounded r⟩
  have hshows := retrying_sound.run hw.spawned trivial hbegin hx
  -- a coroutine at rest has ended or awaits something
  cases hmain : x.main with
  | sync f k => exact absurd hmain (Kernel.Run.main_ne_sync hx f k)
  | await q k =>
      obtain ⟨w₀, -, hmoved, hcounted, hwaits⟩ := hshows.awaits q k hmain
      have hx₀ : Counted x.state := hcounted.unmoved hmoved
      refine iff_of_true ⟨hx₀.delays, fun e he => ?_, fun q' k' hq => ?_⟩ hx₀.bound
      · rw [hmain] at he
        cases he
      · rw [hmain] at hq
        cases hq
        have hpos : 0 < w₀.outage := by
          rw [← hmoved.outage]
          exact hn
        have hwaits₀ := hwaits hpos
        rwa [Waits, ← hmoved.outage, ← hmoved.paused] at hwaits₀
  | ret u =>
      obtain ⟨w₀, -, hmoved, hround⟩ := hshows.ends (.ok u) (by rw [hmain]; rfl)
      have hx₀ : Counted x.state := hround.1.unmoved hmoved
      refine iff_of_true ⟨hx₀.delays, fun e he => ?_, fun q k hq => ?_⟩ hx₀.bound
      · rw [hmain] at he
        cases he
      · rw [hmain] at hq
        cases hq
  | raise e =>
      obtain ⟨w₀, -, hmoved, hround⟩ := hshows.ends (.error e) (by rw [hmain]; rfl)
      have hpos : 0 < w₀.outage := by
        rw [← hmoved.outage]
        exact hn
      rcases hround hpos with ⟨rfl, hcounted⟩ | ⟨rfl, hmany⟩
      · have hx₀ : Counted x.state := hcounted.unmoved hmoved
        refine iff_of_true ⟨hx₀.delays, fun e he => ?_, fun q k hq => ?_⟩ hx₀.bound
        · rw [hmain] at he
          cases he
          rfl
        · rw [hmain] at hq
          cases hq
      · refine iff_of_false (fun h => ?_) ?_
        · exact absurd (h.running _ hmain) (by decide)
        · rw [hmoved.outage, hmany]
          omega

/-! ## An outage of any length -/

/-- The node of the outage. -/
def outage_node : Node String := sample_node (.runs 0 (.ok sample_result)) none

/-- The pools of a consumer to which anything may be answered. -/
abbrev Met (x : Pool (World String) (@Req.Reply String) Exn) : Prop :=
  Reaches outage_node sets_only (fun _ _ _ => True) (sample_world []) x

/-- The consumer is about to read for the next time, after `n` connection errors in a row. -/
structure Rereads (n : Nat) (w : World String) : Prop where
  running : w.self.running = true
  tasks : w.tasks = []
  failures : w.frame.consecutive_failures = n
  outage : w.outage = n

theorem settle_back_off {w : World Ir} {e : Exn} (hcon : e.is_connection = true)
    (h : w.frame.consecutive_failures < 1024) :
    Co.settle w (back_off e : Prog Ir Unit) =
      ((((w.set_self ({ · with redis_healthy := false })).set_frame fun f =>
        { f with consecutive_failures := f.consecutive_failures + 1 }).record
          (.mark (.lost (w.frame.consecutive_failures + 1)
            (min (2 ^ w.frame.consecutive_failures) 60)))),
        alone (.sleep (min (2 ^ w.frame.consecutive_failures) 60))) := by
  unfold back_off
  rw [if_pos hcon]
  show Co.settle _ (Co.of_except (backoff (w.frame.consecutive_failures + 1)) >>= _) = _
  rw [backoff_of_lt h]
  rfl

theorem settle_back_off_overflow {w : World Ir} {e : Exn} (hcon : e.is_connection = true)
    (h : 1024 ≤ w.frame.consecutive_failures) :
    Co.settle w (back_off e : Prog Ir Unit) =
      ((w.set_self ({ · with redis_healthy := false })).set_frame fun f =>
        { f with consecutive_failures := f.consecutive_failures + 1 }, .raise overflow_error) := by
  unfold back_off
  rw [if_pos hcon]
  show Co.settle _ (Co.of_except (backoff (w.frame.consecutive_failures + 1)) >>= _) = _
  rw [backoff_of_ge h]
  rfl

/-- One more error. -/
theorem exists_reread {n : Nat} {w : World String} (hn : n < 1024) (hw : Rereads n w) :
    ∃ w', Rereads (n + 1) w' ∧
      (consumer outage_node sets_only fun _ _ _ => True).Run ⟨w, iteration outage_node, []⟩
        ⟨w', iteration outage_node, []⟩ := by
  set K := consumer outage_node sets_only fun _ _ _ => True with hK
  -- the read fails ...
  set e : Exn := .connection "Connection reset" with he
  set w₁ := w.record (.ended ⟨none, .xreadgroup 1⟩ false (.error e)) with hw₁
  have hlt : w₁.frame.consecutive_failures < 1024 := by
    rw [hw₁, World.record_frame, hw.failures]
    exact hn
  have hread : K.answer ⟨none, .xreadgroup 1⟩ w (.error e) w₁ :=
    ⟨answers_error.2 ⟨by simp [fails, he], .inl ⟨rfl, rfl⟩⟩, trivial⟩
  have hcon : e.is_connection = true := rfl
  have hback := K.advance_await (settle_back_off hcon hlt)
  set w₂ := (((w₁.set_self ({ · with redis_healthy := false })).set_frame fun f =>
        { f with consecutive_failures := f.consecutive_failures + 1 }).record
          (.mark (.lost (w₁.frame.consecutive_failures + 1)
            (min (2 ^ w₁.frame.consecutive_failures) 60)))) with hw₂
  -- ... the loop sleeps, and reads again
  set q : Req String := ⟨none, .sleep (min (2 ^ w₁.frame.consecutive_failures) 60)⟩ with hq
  set w₃ := w₂.record (.ended q true (.ok ())) with hw₃
  have hsleep : K.answer q w₂ (.ok ()) w₃ := ⟨answers_ok.2 ⟨_, rfl, rfl⟩, trivial⟩
  have hagain := K.advance_again (s := w₃) (p := .ret ()) rfl
    (show K.again w₃ = some (iteration outage_node) from if_pos hw.running)
  have hnone : K.spawned w₂ = [] := by
    show w.tasks.map Prod.fst = []
    rw [hw.tasks]
    rfl
  have hfirst : K.Step ⟨w, iteration outage_node, []⟩
      (K.enlist (K.advance w₁ (back_off e)).1 (K.advance w₁ (back_off e)).2 []) := .main hread
  have hsecond : K.Step ⟨w₂, alone q.call, []⟩
      (K.enlist (K.advance w₃ (.ret ())).1 (K.advance w₃ (.ret ())).2 []) := .main hsleep
  rw [hback, K.enlist_none hnone] at hfirst
  rw [hagain] at hsecond
  have hthird : K.enlist (Co.settle w₃ (iteration outage_node)).1
      (Co.settle w₃ (iteration outage_node)).2 [] = ⟨w₃, iteration outage_node, []⟩ :=
    K.enlist_none hnone
  rw [hthird] at hsecond
  refine ⟨w₃, ⟨hw.running, hw.tasks, ?_, ?_⟩, .head hfirst (.single hsecond)⟩
  · exact congrArg (· + 1) hw.failures
  · show max (w.outage + 1) 1 = n + 1
    rw [hw.outage]
    omega

set_option maxRecDepth 20000 in
/-- An outage may last as long as it likes: up to 1024 errors the consumer keeps reading. -/
theorem exists_outage {n : Nat} (hn : n ≤ 1024) :
    ∃ w, Rereads n w ∧ Met ⟨w, iteration outage_node, []⟩ := by
  induction n with
  | zero =>
      suffices hx : ∃ x, Met x ∧ Rereads 0 x.state ∧ x.main = iteration outage_node ∧
          x.tasks = [] by
        obtain ⟨⟨w, main, tasks⟩, hmet, hw, rfl, rfl⟩ := hx
        exact ⟨w, hw, hmet⟩
      refine Kernel.exists_run_of_main _ (r := .ok ()) rfl
        ⟨answers_ok.2 ⟨_, ⟨rfl, rfl⟩, rfl⟩, trivial⟩ ?_
      refine Kernel.exists_run_of_main _ (r := .ok []) rfl
        ⟨answers_ok.2 ⟨_, ⟨rfl, rfl⟩, rfl⟩, trivial⟩ ?_
      exact ⟨_, .refl, ⟨rfl, rfl, rfl, rfl⟩, rfl, rfl⟩
  | succ n ih =>
      obtain ⟨w, hw, hmet⟩ := ih (by omega)
      obtain ⟨w', hw', hrun⟩ := exists_reread (by omega) hw
      exact ⟨w', hw', Relation.ReflTransGen.trans hmet hrun⟩

/-- After 1024 errors in a row the loop still reads. -/
theorem backs_off_1024_times : ∃ x, Met x ∧ x.state.outage = 1024 ∧ BacksOff x := by
  obtain ⟨w, hw, hmet⟩ := exists_outage (n := 1024) (by omega)
  refine ⟨_, hmet, hw.outage, ?_⟩
  refine (backs_off_iff outage_node sets_only (fun _ _ _ => True) (sample_world [])
    (sample_world_fresh []) _ hmet ?_).2 ?_
  · show 1 ≤ w.outage
    rw [hw.outage]
    omega
  · exact Nat.le_of_eq hw.outage

/-- The 1025th ends it. -/
theorem outage_of_1025_errors :
    ¬ ∀ x, Met x → 1 ≤ x.state.outage → BacksOff x := by
  intro hclaim
  obtain ⟨w, hw, hmet⟩ := exists_outage (n := 1024) (by omega)
  set K := consumer outage_node sets_only fun _ _ _ => True with hK
  set e : Exn := .connection "Connection reset" with he
  set w₁ := w.record (.ended ⟨none, .xreadgroup 1⟩ false (.error e)) with hw₁
  have hread : K.answer ⟨none, .xreadgroup 1⟩ w (.error e) w₁ :=
    ⟨answers_error.2 ⟨by simp [fails, he], .inl ⟨rfl, rfl⟩⟩, trivial⟩
  have hstep : K.Step ⟨w, iteration outage_node, []⟩
      (K.enlist (K.advance w₁ (back_off e)).1 (K.advance w₁ (back_off e)).2 []) := .main hread
  have hge : 1024 ≤ w₁.frame.consecutive_failures := Nat.le_of_eq hw.failures.symm
  have hcon : e.is_connection = true := rfl
  rw [K.advance_raise (settle_back_off_overflow hcon hge)] at hstep
  have hends := hclaim _ (hmet.tail hstep) (by
    show 1 ≤ w.outage + 1
    omega)
  exact absurd (hends.running overflow_error rfl) (by decide)

end CodaNode
