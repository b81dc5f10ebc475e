/-
`Consumer/Shutdown.lean` -- a task cancelled while it handles a message.

`asyncio.CancelledError` passes the `except` clauses of `_process_message`, but not its
`finally`: how many `XACK`s are still to come depends only on where the cancellation
strikes. `Owed` says so of the log, whatever the answers are, and the message survives a
forced shutdown exactly if none is to come, or Redis does not carry it out.
-/
import CodaNode.Consumer.Footprint
import CodaNode.Consumer.Single

set_option autoImplicit false

open Coroutine

namespace CodaNode

variable {Ir : Type} {node : Node Ir} {m : Message} {job_id url : String}
variable {cloud : (String → Option String) → (String → Option String) → Prop}

/-! ## Cancellations and `XACK`s in the log -/

namespace Event

/-- A call of this kind ends without having taken effect. -/
def voids (p : Call Ir → Bool) : Event Ir → Bool
  | ended q took _ => !took && p q.call
  | _ => false

/-- A call is interrupted by the cancellation of its task. -/
def cancels : Event Ir → Bool
  | ended _ _ (.error .cancelled) => true
  | _ => false

end Event

/-- The `XACK`s that are still to come in a region. -/
def due : Region → Nat
  | .body => 1
  | .handler => 1
  | _ => 0

/-- Since `w₀`, every cancellation has been followed by as many `XACK`s as were due where it
struck, but for `n` that are still owed. -/
def Owed (id : String) (n : Nat) (w₀ w : World Ir) : Prop :=
  ∀ later (e : Entry Ir) earlier, w.log = later ++ e :: earlier → w₀.log <:+ earlier →
    e.event.cancels = true →
    later.countP (fun x => x.event.ends (Call.acks id)) + n = due e.region

variable {id : String} {n : Nat} {w₀ w w' : World Ir}

/-- Nothing has been cancelled yet. -/
theorem owed_start (n : Nat) (w : World Ir) : Owed id n w w := by
  intro later e earlier hlog hsuf
  have hlen := congrArg List.length hlog
  have hle := hsuf.length_le
  simp only [List.length_append, List.length_cons] at hlen
  omega

theorem Owed.of_log (h : Owed id n w₀ w) (hlog : w'.log = w.log) : Owed id n w₀ w' := by
  intro later e earlier hl
  rw [hlog] at hl
  exact h later e earlier hl

/-- One more line. If it is a cancellation, what is owed from here on is what is due where
it strikes. -/
theorem Owed.cons (h : Owed id n w₀ w) {x : Entry Ir} {n' : Nat} (hlog : w'.log = x :: w.log)
    (hx : x.event.cancels = true → n' = due x.region)
    (hn : (if x.event.ends (Call.acks id) = true then 1 else 0) + n' = n) :
    Owed id n' w₀ w' := by
  intro later e earlier hl hsuf hcan
  rw [hlog] at hl
  cases later with
  | nil =>
      obtain ⟨rfl, -⟩ := List.cons_eq_cons.1 hl
      rw [List.countP_nil, Nat.zero_add]
      exact hx hcan
  | cons y rest =>
      obtain ⟨rfl, hrest⟩ := List.cons_eq_cons.1 hl
      have hold := h rest e earlier hrest hsuf hcan
      rw [List.countP_cons]
      omega

/-! ## The handler pays what it owes -/

/-- The contract under which anything may be answered. -/
def at_mercy (node : Node Ir)
    (cloud : (String → Option String) → (String → Option String) → Prop) :
    Contract (World Ir) (@Req.Reply Ir) Exn :=
  (lone node cloud fun _ _ _ => True).logic

theorem Drift.owed (hd : Drift cloud w w') (h : Owed id n w₀ w) : Owed id n w₀ w' :=
  h.of_log hd.log

/-- Inside the `try` statement: one `XACK` is due for every cancellation, and none is made. -/
structure Inside (m : Message) (w₀ w : World Ir) : Prop where
  owed : Owed m.id 1 w₀ w
  region : w.region = .body ∨ w.region = .handler

theorem Inside.due (h : Inside m w₀ w) : due w.region = 1 := by
  rcases h.region with h | h <;> rw [h] <;> rfl

/-- The code inside keeps to it, whatever it is answered. -/
theorem inside_of_inner {α : Type} {p : Prog Ir α} (hp : Within Staying (Before m) p) (h : Inside m w₀ w) :
    (at_mercy node cloud).wp p (fun _ w' => Inside m w₀ w') w := by
  refine Within.wp (fun _ _ _ _ => trivial) ?_ ?_ ?_ hp h
  · intro w₁ w₂ h₁ hd
    exact ⟨Drift.owed hd h₁.owed, by rw [Drift.region hd]; exact h₁.region⟩
  · intro f w₁ hf h₁
    refine ⟨trivial, ?_, ?_⟩
    · rcases hf.log w₁ with hl | ⟨e, he, hl⟩
      · exact h₁.owed.of_log hl
      · refine h₁.owed.cons hl (fun _ => h₁.due.symm) ?_
        cases e with
        | ended q took r => exact he.elim
        | started q => rfl
        | mark x => rfl
    · rcases hf.region w₁ with hr | hr
      · rw [hr]; exact h₁.region
      · exact .inr hr
  · intro q w₁ r w₂ hq h₁ ha
    obtain ⟨took, hl⟩ := (Answered.of_answers ha.1).log
    refine ⟨trivial, h₁.owed.cons hl (fun _ => h₁.due.symm) ?_, ?_⟩
    · have hno : Call.acks m.id q.call = false := by
        cases hc : q.call with
        | xack i => exact absurd hc (hq.2 i)
        | _ => rfl
      simp [hno]
    · rw [(Answered.of_answers ha.1).region]
      exact h₁.region

/-- Before the `try` statement: nothing has been cancelled. -/
structure Outside (m : Message) (w₀ w : World Ir) : Prop where
  owed : ∀ n, Owed m.id n w₀ w
  region : w.region = .outside

theorem Outside.silent (h : Outside m w₀ w) (hlog : w'.log = w.log)
    (hregion : w'.region = w.region) : Outside m w₀ w' :=
  ⟨fun n => (h.owed n).of_log hlog, hregion.trans h.region⟩

/-- A call outside the `try` statement: a cancellation leaves nothing owed. -/
theorem outside_on (h : Outside m w₀ w) {c : Call Ir} (hc : Call.acks m.id c = false)
    {Q : Except Exn c.Reply → World Ir → Prop}
    (hQ : ∀ w' r, Outside m w₀ w' → Q r w')
    (hcan : ∀ w', Owed m.id 0 w₀ w' → Q (.error .cancelled) w') :
    (at_mercy node cloud).wp (on m c) Q w := by
  refine (Contract.wp_call _ _ _).2 ⟨trivial, fun w₁ hd r w₂ ha => ⟨trivial, ?_⟩⟩
  have h₁ : Outside m w₀ w₁ := h.silent (Drift.log hd) (Drift.region hd)
  have hans := Answered.of_answers ha.1
  obtain ⟨took, hl⟩ := hans.log
  by_cases hr : r = .error .cancelled
  · -- the one entry that is a cancellation stands where nothing is due
    subst hr
    refine hcan w₂ ((h₁.owed 0).cons hl (fun _ => ?_) ?_)
    · rw [h₁.region]
      rfl
    · simp [Event.ends, hc]
  · refine hQ w₂ r ⟨fun n => (h₁.owed n).cons hl (fun hcan => absurd hcan ?_) ?_,
      hans.region.trans h₁.region⟩
    · cases r with
      | ok v => simp [Event.cancels]
      | error e => cases e <;> first | exact absurd rfl hr | simp [Event.cancels]
    · simp [Event.ends, hc]

/-- The `XACK` pays what is owed; a cancellation that strikes it leaves nothing owed. -/
theorem safe_xack_pays (h : Owed m.id 1 w₀ w) (hregion : due w.region = 0)
    {Q : Except Exn Bool → World Ir → Prop} (hQ : ∀ w' r, Owed m.id 0 w₀ w' → Q r w') :
    (at_mercy node cloud).wp (safe_xack m) Q w := by
  refine (Contract.wp_try_except _ _ _ _).2 ((Contract.wp_bind _ _ _ _).2
    ((Contract.wp_call _ _ _).2 ⟨trivial, fun w₁ hd r w₂ ha => ⟨trivial, ?_⟩⟩))
  obtain ⟨took, hl⟩ := (Answered.of_answers ha.1).log
  have h₂ : Owed m.id 0 w₀ w₂ := by
    refine (Drift.owed hd h).cons hl (fun _ => ?_) ?_
    · rw [Drift.region hd]
      exact hregion.symm
    · simp [Event.ends, Call.acks]
  cases r with
  | ok v => exact hQ w₂ _ h₂
  | error e =>
      show (at_mercy node cloud).wp (if e.is_connection = true then _ else _) Q w₂
      split
      · exact hQ w₂ _ h₂
      · exact hQ w₂ _ h₂

theorem outside_hset (h : Outside m w₀ w) {key : String} {mapping : List (String × String)}
    {Q : Except Exn Bool → World Ir → Prop} (hQ : ∀ w' b, Outside m w₀ w' → Q (.ok b) w')
    (herr : ∀ w' e, Owed m.id 0 w₀ w' → Q (.error e) w') :
    (at_mercy node cloud).wp (safe_hset m key mapping) Q w := by
  refine (Contract.wp_try_except _ _ _ _).2 ((Contract.wp_bind _ _ _ _).2
    (outside_on h rfl ?_ ?_))
  · intro w₁ r h₁
    cases r with
    | ok v => exact hQ w₁ true h₁
    | error e =>
        show (at_mercy node cloud).wp (if e.is_connection = true then _ else _) Q w₁
        split
        · exact hQ w₁ false h₁
        · exact herr w₁ e (h₁.owed 0)
  · intro w₁ h₁
    exact herr w₁ _ h₁

/-- The code from the `executing` record on pays what it owes. -/
theorem take_on_pays (h : Outside m w₀ w) {decoded : List (String × String)} :
    (at_mercy node cloud).wp (take_on node m decoded job_id url)
      (fun _ w' => Owed m.id 0 w₀ w') w := by
  have h₀ : Outside m w₀
      (w.set_self ({ · with idle := false, current_job_id := some job_id })) :=
    h.silent rfl rfl
  refine (Contract.wp_bind _ _ _ _).2 ⟨trivial, ?_⟩
  refine (Contract.wp_bind _ _ _ _).2 ⟨trivial, ?_⟩
  refine (Contract.wp_bind _ _ _ _).2 (outside_hset h₀ ?_ fun w' e h' => h')
  intro w₁ b h₁
  refine (Contract.wp_bind _ _ _ _).2 ⟨trivial, ?_⟩
  have h₂ : Inside m w₀ (w₁.enter .body) := ⟨h₁.owed 1, .inl rfl⟩
  -- `finally`: the one `XACK`, wherever the `try` statement was left
  have hfin : ∀ {w₃ : World Ir} {r : Except Exn Unit}, Inside m w₀ w₃ →
      (at_mercy node cloud).wp (release m)
        (Contract.and_finally (fun _ w' => Owed m.id 0 w₀ w') r) w₃ := by
    intro w₃ r h₃
    refine (Contract.wp_bind _ _ _ _).2 ⟨trivial, ?_⟩
    have h₄ : Owed m.id 1 w₀ (w₃.enter .cleanup) := h₃.owed
    refine (Contract.wp_bind _ _ _ _).2 (safe_xack_pays h₄ rfl fun w₅ r' h₅ => ?_)
    cases r' with
    | ok b => exact ⟨trivial, trivial, h₅⟩
    | error e => exact h₅
  refine (Contract.wp_try_finally _ _ _ _).2 ((Contract.wp_try_except _ _ _ _).2
    (Contract.wp_mono (inside_of_inner (inner_execute Staying.permits.toManages.runs Staying.post) h₂) fun r w₃ h₃ => ?_))
  cases r with
  | ok u => exact hfin h₃
  | error e =>
      exact Contract.wp_mono (inside_of_inner (inner_on_exception Staying.permits.toManages.runs Staying.post
        (Plain.enter fun _ => .inr rfl) e) h₃) fun r w₄ h₄ => hfin h₄

/-- **The handler pays what it owes**: after every cancellation in the run there are as many
`XACK`s as were due where it struck. -/
theorem process_message_pays (w : World Ir) :
    (at_mercy node cloud).wp (process_message node m) (fun _ w' => Owed m.id 0 w w') w := by
  have hskip : ∀ {w₁ : World Ir}, Outside m w w₁ →
      (at_mercy node cloud).wp (do let _ ← safe_xack m : Prog Ir Unit)
        (fun _ w' => Owed m.id 0 w w') w₁ := by
    intro w₁ h₁
    have hdue : due w₁.region = 0 := by rw [h₁.region]; rfl
    refine (Contract.wp_bind _ _ _ _).2 (safe_xack_pays (h₁.owed 1) hdue fun w₂ r h₂ => ?_)
    cases r <;> exact h₂
  have hstart : Outside m w ((w.enter .outside).record (.mark (.handling m))) :=
    ⟨fun n => (owed_start n w).cons (x := ⟨.mark (.handling m), w.values, .outside⟩) rfl
      (by simp [Event.cancels]) (by simp [Event.ends]), rfl⟩
  refine (Contract.wp_bind _ _ _ _).2 ⟨trivial, ?_⟩
  refine (Contract.wp_bind _ _ _ _).2 ⟨trivial, ?_⟩
  show (at_mercy node cloud).wp _ _ ((w.enter .outside).record (.mark (.handling m)))
  cases decode_fields m.fields with
  | error e => exact hstart.owed 0
  | ok fields =>
      cases m.header with
      | error e => exact hskip hstart
      | ok header =>
          obtain ⟨decoded, job_id, url⟩ := header
          refine (Contract.wp_bind _ _ _ _).2 (outside_on hstart rfl ?_ fun w₁ h₁ => h₁)
          intro w₁ r h₁
          cases r with
          | error e => exact h₁.owed 0
          | ok st =>
              simp only [Contract.and_then_ok]
              split
              · exact hskip h₁
              · refine (Contract.wp_bind _ _ _ _).2 ((Contract.wp_bind _ _ _ _).2
                  (outside_on h₁ rfl ?_ fun w₂ h₂ => h₂))
                intro w₂ r₂ h₂
                cases r₂ with
                | error e => exact h₂.owed 0
                | ok v =>
                    cases v with
                    | none => exact take_on_pays h₂
                    | some v =>
                        refine (Contract.wp_bind _ _ _ _).2 ((Contract.wp_bind _ _ _ _).2
                          ⟨trivial, (Contract.wp_bind _ _ _ _).2 (outside_hset h₂ ?_ ?_)⟩)
                        · intro w₃ b h₃
                          exact hskip h₃
                        · intro w₃ e h₃
                          exact h₃

/-! ## What the unwinding does to the message -/

/-- `XACK`s of the message that took effect. -/
def World.acked (w : World Ir) (id : String) : Nat := w.count (Event.takes (Call.acks id))

/-- `XACK`s of the message that ended without effect. -/
def World.refused (w : World Ir) (id : String) : Nat := w.count (Event.voids (Call.acks id))

/-- No terminal webhook for the job has returned, and it is recorded neither as cancelled
nor as completed. -/
def Unreported (job_id : String) (w : World Ir) : Prop :=
  w.returned job_id = [] ∧ terminal (w.state job_id) = false

/-- Between `w` and `w'` the message was not ACK-ed and has stayed in the pending list. -/
def Kept (id : String) (w w' : World Ir) : Prop :=
  w'.acked id = w.acked id ∧ (id ∈ w.pending → id ∈ w'.pending)

/-- Whatever the cloud does and whatever is answered. -/
abbrev wild (node : Node Ir) : Host (World Ir) (@Req.Reply Ir) Exn :=
  lone node (fun _ _ => True) fun _ _ _ => True

theorem countP_ends (p : Call Ir → Bool) (l : List (Entry Ir)) :
    l.countP (fun x => x.event.ends p) =
      l.countP (fun x => x.event.takes p) + l.countP (fun x => x.event.voids p) := by
  have hone : ∀ e : Event Ir, (if e.ends p = true then 1 else 0) =
      (if e.takes p = true then 1 else 0) + (if e.voids p = true then 1 else 0) := by
    intro e
    cases e with
    | started q => rfl
    | mark y => rfl
    | ended q took r =>
        cases took <;> cases h : p q.call <;> simp [Event.ends, Event.takes, Event.voids, h]
  induction l with
  | nil => rfl
  | cons x l ih =>
      have hx := hone x.event
      simp only [List.countP_cons]
      omega

/-- What a handler's code does to the log and to the pending list. -/
structure Onward (id : String) (w w' : World Ir) : Prop where
  log : w.log <:+ w'.log
  pending : w'.acked id = w.acked id → id ∈ w.pending → id ∈ w'.pending

theorem Onward.acked (h : Onward id w w') : w.acked id ≤ w'.acked id :=
  h.log.sublist.countP_le

theorem Onward.trans {w'' : World Ir} (h : Onward id w w') (h' : Onward id w' w'') :
    Onward id w w'' where
  log := h.log.trans h'.log
  pending he hp := by
    have h₁ := h.acked
    have h₂ := h'.acked
    exact h'.pending (by omega) (h.pending (by omega) hp)

/-- Every step of a handler is a step onward. -/
theorem onward_of_run {p : Prog Ir Unit} (hp : Within Roaming (For m) p) {x : World Ir × Prog Ir Unit}
    (run : (wild node).Run (Co.settle w p) x) : Onward m.id w x.1 := by
  have hsync : ∀ (f : World Ir → World Ir) (w₁ : World Ir), Roaming f → Onward m.id w w₁ →
      Onward m.id w (f w₁) := by
    intro f w₁ hf h₁
    refine h₁.trans ⟨?_, fun _ hp => by rw [hf.pending]; exact hp⟩
    rcases hf.log w₁ with hl | ⟨e, -, hl⟩
    · exact ⟨[], hl.symm⟩
    · exact ⟨[_], hl.symm⟩
  have hanswer : ∀ (q : Req Ir) (w₁ : World Ir) (r : Except Exn q.Reply) (w₂ : World Ir),
      For m q → Onward m.id w w₁ → (wild node).answer q w₁ r w₂ → Onward m.id w w₂ := by
    intro q w₁ r w₂ hq h₁ ha
    refine h₁.trans ⟨(Answered.of_answers ha.1).grows, fun heq hmem => ?_⟩
    -- the only call that touches the pending list is the one that is counted
    have hperf : ∀ {v : q.Reply} {w₃ : World Ir}, performs node q.call w₁ v w₃ →
        w₂ = w₃.record (.ended q true r) → m.id ∈ w₂.pending := by
      intro v w₃ hv hw₂
      obtain ⟨took, hl⟩ := (Answered.of_answers ha.1).log
      have hlog : w₃.log = w₁.log := by
        rw [hw₂] at hl
        exact (List.cons_eq_cons.1 hl).2
      have hno : Call.acks m.id q.call = false := by
        cases hc : Call.acks m.id q.call with
        | false => rfl
        | true =>
            rw [hw₂, World.acked, World.acked, World.count_record, World.count, hlog,
              Event.takes_ended, hc] at heq
            simp [World.count] at heq
      rw [hw₂]
      obtain ⟨msg, c⟩ := q
      cases c with
      | hset key mapping => cases hv; exact hmem
      | wait k timed_out => cases timed_out <;> cases hv <;> exact hmem
      | unwind k => cases hv; exact hmem
      | xack i =>
          have hi : i = m.id := hq.2.2 i rfl
          simp [Call.acks, hi] at hno
      | hget key field => obtain ⟨-, rfl⟩ := hv; exact hmem
      | get key => obtain ⟨-, rfl⟩ := hv; exact hmem
      | cancel_current_job => cases hv; exact hmem
      | send_result url payload => cases hv; exact hmem
      | send_error url j text => cases hv; exact hmem
      | _ => exact absurd hq.2.1 (by simp [Call.prompt, Call.reads])
    rcases ha.1 with ⟨v, w₃, hv, -, hw₂⟩ | ⟨e, -, -, -, rfl⟩ | ⟨e, v, w₃, -, -, hv, -, hw₂⟩
    · exact hperf hv hw₂
    · exact hmem
    · exact hperf hv hw₂
  refine Host.Run.invariant _ (fun w₁ w₂ h₁ hd => ?_) hsync hanswer run (hp.settle w) ?_
  · refine h₁.trans ⟨⟨[], (Drift.log hd).symm⟩, fun _ hmem => ?_⟩
    rw [Drift.pending hd]
    exact hmem
  · exact hp.settle_inv hsync ⟨List.suffix_refl _, fun _ hmem => hmem⟩

end CodaNode
