/-
`Consumer/Drain.lean` -- `drain` next to the running consumer.

`drain` calls `stop()`, waits for the idle event, then for the delivery of the last batch, and
returns `True`. It runs in a task of its own: anything may happen between the moment the event
is set and the moment `drain` goes on, and again while it awaits the delivery.
-/
import CodaNode.Consumer.Debts
import CodaNode.Consumer.IdleEvent

set_option autoImplicit false

open Coroutine

namespace CodaNode

variable {Ir : Type} {node : Node Ir} {w : World Ir}
variable {cloud : (String → Option String) → (String → Option String) → Prop}
variable {allow : (q : Req Ir) → World Ir → Except Exn q.Reply → Prop}

/-! ## `drain` -/

/-- Where `drain` is. From the moment it has seen the idle event set, `seen` is the log of that
moment; no code reads it. -/
inductive Drain (Ir : Type) where
  /-- Before `self.stop()`. -/
  | called
  /-- `await asyncio.wait_for(self._idle_event.wait(), timeout)`. -/
  | waits
  /-- The event has been set. -/
  | woken (seen : List (Entry Ir))
  /-- `await asyncio.wait_for(self._pending_batch_delivery, timeout)`. -/
  | joins (seen : List (Entry Ir)) (task : Nat)
  | returned (seen : List (Entry Ir)) (r : Except Exn Bool)

/-- What `drain` goes on to in the world `w`, if it need not wait any longer. -/
def Drain.next (w : World Ir) : Drain Ir → Option (Drain Ir)
  | .called => none
  | .waits => if w.self.idle then some (.woken w.log) else none
  | .woken seen =>
    match w.self.pending_batch_delivery with
    | none => some (.returned seen (.ok true))
    | some t => some (.joins seen t)
  | .joins seen t => (w.outcome t).map fun r => .returned seen (r.map fun _ => true)
  | .returned _ _ => none

/-- `drain` is suspended in a `wait_for`, whose timeout may expire. -/
def Drain.times_out : Drain Ir → Bool
  | .waits | .joins _ _ => true
  | _ => false

/-- `drain` has not returned yet. -/
def Drain.runs : Drain Ir → Bool
  | .returned _ _ => false
  | _ => true

/-- One step of the consumer or of `drain`, up to the moment `drain` returns. -/
inductive DrainStep (node : Node Ir)
    (cloud : (String → Option String) → (String → Option String) → Prop)
    (allow : (q : Req Ir) → World Ir → Except Exn q.Reply → Prop) :
    Pool (World Ir) (@Req.Reply Ir) Exn × Drain Ir →
      Pool (World Ir) (@Req.Reply Ir) Exn × Drain Ir → Prop
  | consumer {x y : Pool (World Ir) (@Req.Reply Ir) Exn} {d : Drain Ir} (hd : d.runs = true)
      (h : (consumer node cloud allow).Step x y) : DrainStep node cloud allow (x, d) (y, d)
  /-- `stop()`, which may be called whenever the world drifts. -/
  | stop {x : Pool (World Ir) (@Req.Reply Ir) Exn} {w : World Ir} (h : Drift cloud x.state w)
      (hw : w.self.running = false) :
      DrainStep node cloud allow (x, .called) ({ x with state := w }, .waits)
  | goes_on {x : Pool (World Ir) (@Req.Reply Ir) Exn} {d d' : Drain Ir}
      (h : d.next x.state = some d') : DrainStep node cloud allow (x, d) (x, d')
  /-- `except TimeoutError: return False`. -/
  | expires {x : Pool (World Ir) (@Req.Reply Ir) Exn} {d : Drain Ir} (h : d.times_out = true) :
      DrainStep node cloud allow (x, d) (x, .returned x.state.log (.ok false))

/-- Any interleaving of `drain` with the consumer. -/
abbrev Drains (node : Node Ir)
    (cloud : (String → Option String) → (String → Option String) → Prop)
    (allow : (q : Req Ir) → World Ir → Except Exn q.Reply → Prop)
    (a b : Pool (World Ir) (@Req.Reply Ir) Exn × Drain Ir) : Prop :=
  Relation.ReflTransGen (DrainStep node cloud allow) a b

/-! ## Soundness -/

/-- What is known of `drain` once it has seen the event: the log has only grown, and nothing
was owed then but what the last fallback had left. -/
def Drain.Saw (log : List (Entry Ir)) : Drain Ir → Prop
  | .called | .waits => True
  | .woken seen | .joins seen _ => seen <:+ log ∧ OwedOnly [] seen
  | .returned seen r => r = .ok true → seen <:+ log ∧ OwedOnly [] seen

theorem Drain.Saw.mono {log log' : List (Entry Ir)} {d : Drain Ir} (h : d.Saw log)
    (hlog : log <:+ log') : d.Saw log' := by
  cases d with
  | called => trivial
  | waits => trivial
  | woken seen => exact ⟨h.1.trans hlog, h.2⟩
  | joins seen t => exact ⟨h.1.trans hlog, h.2⟩
  | returned seen r => exact fun hr => ⟨(h hr).1.trans hlog, (h hr).2⟩

/-- One step of `drain` by itself. -/
theorem Drain.Saw.next {d d' : Drain Ir} (h : d.Saw w.log)
    (hidle : w.self.idle = true → OwedOnly [] w.log) (hd : d.next w = some d') : d'.Saw w.log := by
  cases d with
  | called => cases hd
  | waits =>
      by_cases hi : w.self.idle = true
      · rw [Drain.next, if_pos hi] at hd
        cases hd
        exact ⟨List.suffix_refl _, hidle hi⟩
      · rw [Drain.next, if_neg hi] at hd
        cases hd
  | woken seen =>
      unfold Drain.next at hd
      cases hp : w.self.pending_batch_delivery with
      | none =>
          rw [hp] at hd
          cases hd
          exact fun _ => h
      | some t =>
          rw [hp] at hd
          cases hd
          exact h
  | joins seen t =>
      obtain ⟨r, -, rfl⟩ := Option.map_eq_some_iff.1 hd
      exact fun _ => h
  | returned seen r => cases hd

/-- A drain of a running consumer leaves the consumer running. -/
theorem reaches_of_drains (hnode : OnePerJob node) (hw : Fresh w)
    {a b : Pool (World Ir) (@Req.Reply Ir) Exn × Drain Ir}
    (ha : Reaches node cloud undisturbed w a.1) (hsaw : a.2.Saw a.1.state.log)
    (h : Drains node cloud undisturbed a b) :
    Reaches node cloud undisturbed w b.1 ∧ b.2.Saw b.1.state.log := by
  -- by induction on the steps
  induction h with
  | refl => exact ⟨ha, hsaw⟩
  | tail _ hstep ih =>
      obtain ⟨hx, hd⟩ := ih
      cases hstep with
      | consumer _ h => exact ⟨hx.tail h, hd.mono (log_grows hw hx (.single h))⟩
      | stop h _ => exact ⟨hx.tail (.drift h), trivial⟩
      | goes_on h => exact ⟨hx, hd.next (clear_when_idle hnode hw hx) h⟩
      | expires _ => exact ⟨hx, fun hr => by cases hr⟩

/-- `stop()` is one of the things that may happen. -/
theorem Drift.stop (hrefl : ∀ v, cloud v v) (w : World Ir) :
    Drift cloud w (w.set_self ({ · with running := false })) where
  values := hrefl _
  arrivals := ⟨[], by simp, fun _ h => .inl h⟩
  group := rfl
  hashes := rfl
  pending := rfl
  self := rfl
  frame := rfl
  region := rfl
  tasks := rfl
  exec := ⟨rfl, List.Subset.refl _, fun _ h h' => absurd h h'⟩
  log := rfl

/-- `drain` returns at once while the idle event is set and no delivery is pending. -/
theorem drains_at_once (hrefl : ∀ v, cloud v v) {x : Pool (World Ir) (@Req.Reply Ir) Exn}
    (hidle : x.state.self.idle = true) (hpending : x.state.self.pending_batch_delivery = none) :
    Drains node cloud allow (x, .called)
      ({ x with state := x.state.set_self ({ · with running := false }) },
        .returned x.state.log (.ok true)) := by
  let w := x.state.set_self ({ · with running := false })
  have hwoken : Drain.next w .waits = some (.woken x.state.log) := by
    rw [Drain.next, World.set_self_self, if_pos hidle, World.set_self_log]
  have hreturned : Drain.next w (.woken x.state.log) = some (.returned x.state.log (.ok true)) := by
    simp only [Drain.next, w, World.set_self_self, hpending]
  exact .head (.stop (Drift.stop hrefl x.state) rfl)
    (.head (.goes_on hwoken) (.single (.goes_on hreturned)))

set_option maxRecDepth 40000 in
/-- A batch of two fails, and the fallback has handled the first message: the event is set, and
the second job is marked as executing. -/
theorem second_job_owed :
    ∃ x, Reaches idle_node sets_only undisturbed idle_world x ∧ x.state.self.idle = true ∧
      x.state.self.pending_batch_delivery = none ∧ owing x.state.log = ["2-0"] := by
  have hok : ∀ (q : Req String) (w : World String) (v : q.Reply), undisturbed q w (.ok v) :=
    undisturbed_ok
  refine Kernel.exists_run_of_main _ (r := .ok ()) rfl
    ⟨answers_ok.2 ⟨_, ⟨rfl, rfl⟩, rfl⟩, hok _ _ _⟩ ?_
  refine Kernel.exists_run_of_main _ (r := .ok []) rfl
    ⟨answers_ok.2 ⟨_, ⟨rfl, rfl⟩, rfl⟩, hok _ _ _⟩ ?_
  refine Kernel.exists_run_of_main _ (r := .ok [(idle_node.stream, [_, _])]) rfl
    ⟨answers_ok.2 ⟨_, ⟨2, by decide, rfl, rfl⟩, rfl⟩, hok _ _ _⟩ ?_
  -- both jobs pass the checks and are marked
  refine Kernel.exists_run_of_main _ (r := .ok none) rfl
    ⟨answers_ok.2 ⟨_, ⟨rfl, rfl⟩, rfl⟩, hok _ _ _⟩ ?_
  refine Kernel.exists_run_of_main _ (r := .ok none) rfl
    ⟨answers_ok.2 ⟨_, ⟨rfl, rfl⟩, rfl⟩, hok _ _ _⟩ ?_
  refine Kernel.exists_run_of_main _ (r := .ok none) rfl
    ⟨answers_ok.2 ⟨_, ⟨rfl, rfl⟩, rfl⟩, hok _ _ _⟩ ?_
  refine Kernel.exists_run_of_main _ (r := .ok none) rfl
    ⟨answers_ok.2 ⟨_, ⟨rfl, rfl⟩, rfl⟩, hok _ _ _⟩ ?_
  refine Kernel.exists_run_of_main _ (r := .ok ()) rfl
    ⟨answers_ok.2 ⟨_, rfl, rfl⟩, hok _ _ _⟩ ?_
  refine Kernel.exists_run_of_main _ (r := .ok ()) rfl
    ⟨answers_ok.2 ⟨_, rfl, rfl⟩, hok _ _ _⟩ ?_
  refine Kernel.exists_run_of_main _ (r := .error (.other "backend offline")) rfl
    ⟨answers_error.2 ⟨.inr ⟨_, rfl, rfl⟩, .inl ⟨rfl, rfl⟩⟩, (fun hr => by cases hr),
      (fun hc => by cases hc)⟩ ?_
  -- the first message by itself
  refine Kernel.exists_run_of_main _ (r := .ok (some "executing")) rfl
    ⟨answers_ok.2 ⟨_, ⟨rfl, rfl⟩, rfl⟩, hok _ _ _⟩ ?_
  refine Kernel.exists_run_of_main _ (r := .ok none) rfl
    ⟨answers_ok.2 ⟨_, ⟨rfl, rfl⟩, rfl⟩, hok _ _ _⟩ ?_
  refine Kernel.exists_run_of_main _ (r := .ok ()) rfl
    ⟨answers_ok.2 ⟨_, rfl, rfl⟩, hok _ _ _⟩ ?_
  refine Kernel.exists_run_of_main _ (r := .ok ()) rfl
    ⟨answers_ok.2 ⟨_, rfl, rfl⟩, hok _ _ _⟩ ?_
  refine Kernel.exists_run_of_main _ (r := .ok none) rfl
    ⟨answers_ok.2 ⟨_, ⟨rfl, rfl⟩, rfl⟩, hok _ _ _⟩ ?_
  refine Kernel.exists_run_of_main _ (r := .ok none) rfl
    ⟨answers_ok.2 ⟨_, ⟨rfl, rfl⟩, rfl⟩, hok _ _ _⟩ ?_
  refine Kernel.exists_run_of_main _ (r := .ok ()) rfl
    ⟨answers_ok.2 ⟨_, rfl, rfl⟩, hok _ _ _⟩ ?_
  refine Kernel.exists_run_of_main _ (r := .ok none) rfl
    ⟨answers_ok.2 ⟨_, ⟨rfl, rfl⟩, rfl⟩, hok _ _ _⟩ ?_
  refine Kernel.exists_run_of_main _ (r := .ok ()) rfl
    ⟨answers_ok.2 ⟨_, rfl, rfl⟩, hok _ _ _⟩ ?_
  refine Kernel.exists_run_of_main _ (r := .ok ()) rfl
    ⟨answers_ok.2 ⟨_, rfl, rfl⟩, hok _ _ _⟩ ?_
  exact ⟨_, .refl, rfl, rfl, rfl⟩

end CodaNode
