/-
`Coroutine/Logic.lean` -- weakest preconditions for coroutines under interference.

A `Contract` says what a coroutine may count on and what it owes: what the others may
do while it is suspended (`rely`), how a call may be answered (`answer`), what must
hold when it awaits a call (`pre`), and what each of its own steps keeps (`keep`).
`Contract.wp` is the weakest precondition of a coroutine under a contract; one rule
below for each way coroutines are built, so that a proof follows the code.

The second half is the meaning of the rules: `Host` runs one coroutine against a
world that answers its calls and drifts on its own in between, and `run_sound` says
that whatever such a run reaches is what the weakest precondition promised.
-/
import CodaNode.Coroutine.Basic

set_option autoImplicit false

namespace Coroutine

variable {S C : Type} {R : C → Type} {ε α β : Type}

/-- What a coroutine may count on and what it owes. -/
structure Contract (S : Type) {C : Type} (R : C → Type) (ε : Type) where
  /-- What must hold of the state when the call is awaited. -/
  pre : C → S → Prop
  /-- What the others may do while the coroutine is suspended. -/
  rely : S → S → Prop
  /-- How the call may be answered, and the state the answer leaves. -/
  answer : (c : C) → S → Except ε (R c) → S → Prop
  /-- What every step of the coroutine does to the state. -/
  keep : S → S → Prop

namespace Contract

variable (K : Contract S R ε)

/-- The states from which `p` meets its contract and ends in `Q`. -/
def wp : Co S R ε α → (Except ε α → S → Prop) → S → Prop
  | .ret a, Q, s => Q (.ok a) s
  | .raise e, Q, s => Q (.error e) s
  | .sync f k, Q, s => K.keep s (f s) ∧ wp (k s) Q (f s)
  | .await c k, Q, s => K.pre c s ∧
      ∀ s₁, K.rely s s₁ → ∀ r s₂, K.answer c s₁ r s₂ → K.keep s₁ s₂ ∧ wp (k r) Q s₂

/-- The postcondition of the first part of a sequence whose second part is `f`. -/
def and_then (f : α → Co S R ε β) (Q : Except ε β → S → Prop) : Except ε α → S → Prop
  | .ok a, s => K.wp (f a) Q s
  | .error e, s => Q (.error e) s

/-- The postcondition of a `try` block whose handler is `h`. -/
def or_else (h : ε → Co S R ε α) (Q : Except ε α → S → Prop) : Except ε α → S → Prop
  | .ok a, s => Q (.ok a) s
  | .error e, s => K.wp (h e) Q s

/-- The postcondition of a `finally` clause after the outcome `r`. -/
def and_finally (Q : Except ε α → S → Prop) (r : Except ε α) : Except ε Unit → S → Prop
  | .ok _, s => Q r s
  | .error e, s => Q (.error e) s

/-! ## Rules -/

@[simp] theorem wp_ret (a : α) (Q : Except ε α → S → Prop) (s : S) :
    K.wp (.ret a) Q s ↔ Q (.ok a) s := Iff.rfl

@[simp] theorem wp_raise (e : ε) (Q : Except ε α → S → Prop) (s : S) :
    K.wp (.raise e : Co S R ε α) Q s ↔ Q (.error e) s := Iff.rfl

@[simp] theorem wp_sync (f : S → S) (k : S → Co S R ε α) (Q : Except ε α → S → Prop) (s : S) :
    K.wp (.sync f k) Q s ↔ K.keep s (f s) ∧ K.wp (k s) Q (f s) := Iff.rfl

@[simp] theorem and_then_ok (f : α → Co S R ε β) (Q : Except ε β → S → Prop) (a : α) (s : S) :
    K.and_then f Q (.ok a) s ↔ K.wp (f a) Q s := Iff.rfl

@[simp] theorem and_then_error (f : α → Co S R ε β) (Q : Except ε β → S → Prop) (e : ε)
    (s : S) : K.and_then f Q (.error e) s ↔ Q (.error e) s := Iff.rfl

variable {K}

/-- Consequence: a weaker postcondition. -/
theorem wp_mono {p : Co S R ε α} {Q Q' : Except ε α → S → Prop} {s : S} (h : K.wp p Q s)
    (hQ : ∀ r s', Q r s' → Q' r s') : K.wp p Q' s := by
  induction p generalizing s with
  | ret a => exact hQ _ _ h
  | raise e => exact hQ _ _ h
  | sync f k ih => exact ⟨h.1, ih s h.2⟩
  | await c k ih =>
      refine ⟨h.1, fun s₁ hr r s₂ ha => ?_⟩
      obtain ⟨hk, hw⟩ := h.2 s₁ hr r s₂ ha
      exact ⟨hk, ih r hw⟩

theorem wp_bind (p : Co S R ε α) (f : α → Co S R ε β) (Q : Except ε β → S → Prop) (s : S) :
    K.wp (p >>= f) Q s ↔ K.wp p (K.and_then f Q) s := by
  induction p generalizing s with
  | ret a => exact Iff.rfl
  | raise e => exact Iff.rfl
  | sync u k ih => exact and_congr_right fun _ => ih s (u s)
  | await c k ih =>
      refine and_congr_right fun _ => forall_congr' fun s₁ => forall_congr' fun _ =>
        forall_congr' fun r => forall_congr' fun s₂ => forall_congr' fun _ => ?_
      exact and_congr_right fun _ => ih r s₂

theorem wp_attempt (p : Co S R ε α) (Q : Except ε (Except ε α) → S → Prop) (s : S) :
    K.wp p.attempt Q s ↔ K.wp p (fun r s' => Q (.ok r) s') s := by
  induction p generalizing s with
  | ret a => exact Iff.rfl
  | raise e => exact Iff.rfl
  | sync u k ih => exact and_congr_right fun _ => ih s (u s)
  | await c k ih =>
      refine and_congr_right fun _ => forall_congr' fun s₁ => forall_congr' fun _ =>
        forall_congr' fun r => forall_congr' fun s₂ => forall_congr' fun _ => ?_
      exact and_congr_right fun _ => ih r s₂

@[simp] theorem wp_of_except (r : Except ε α) (Q : Except ε α → S → Prop) (s : S) :
    K.wp (Co.of_except r : Co S R ε α) Q s ↔ Q r s := by
  cases r <;> exact Iff.rfl

/-- `try`/`except`: the handler takes over at the exception, in the state it left. -/
theorem wp_try_except (p : Co S R ε α) (h : ε → Co S R ε α) (Q : Except ε α → S → Prop)
    (s : S) : K.wp (Co.try_except p h) Q s ↔ K.wp p (K.or_else h Q) s := by
  rw [Co.try_except, wp_bind, wp_attempt]
  constructor <;> intro hw <;> refine wp_mono hw fun r s' hr => ?_ <;> cases r <;> exact hr

/-- `try`/`finally`: the last part runs either way and keeps the outcome unless it
raises itself. -/
theorem wp_try_finally (p : Co S R ε α) (f : Co S R ε Unit) (Q : Except ε α → S → Prop)
    (s : S) : K.wp (Co.try_finally p f) Q s ↔
      K.wp p (fun r s' => K.wp f (and_finally Q r) s') s := by
  rw [Co.try_finally, wp_bind, wp_attempt]
  constructor <;> intro hw <;> refine wp_mono hw fun r s' hr => ?_
  · simp only [and_then_ok, wp_bind] at hr
    refine wp_mono hr fun u s'' hu => ?_
    cases u with
    | ok a => exact (wp_of_except r Q s'').1 hu
    | error e => exact hu
  · simp only [and_then_ok, wp_bind]
    refine wp_mono hr fun u s'' hu => ?_
    cases u with
    | ok a => exact (wp_of_except r Q s'').2 hu
    | error e => exact hu

@[simp] theorem wp_look (g : S → α) (Q : Except ε α → S → Prop) (s : S) :
    K.wp (Co.look g : Co S R ε α) Q s ↔ K.keep s s ∧ Q (.ok (g s)) s := Iff.rfl

@[simp] theorem wp_update (f : S → S) (Q : Except ε Unit → S → Prop) (s : S) :
    K.wp (Co.update f : Co S R ε Unit) Q s ↔ K.keep s (f s) ∧ Q (.ok ()) (f s) := Iff.rfl

theorem wp_call (c : C) (Q : Except ε (R c) → S → Prop) (s : S) :
    K.wp (Co.call c : Co S R ε (R c)) Q s ↔ K.pre c s ∧
      ∀ s₁, K.rely s s₁ → ∀ r s₂, K.answer c s₁ r s₂ → K.keep s₁ s₂ ∧ Q r s₂ := by
  simp only [Co.call, wp, wp_of_except]

/-- What code meets of two contracts, it meets of one that joins them. -/
theorem wp_meet {K₁ K₂ : Contract S R ε}
    (hanswer : ∀ c s r s', K.answer c s r s' → K₁.answer c s r s' ∧ K₂.answer c s r s')
    (hpre : ∀ c s, K₁.pre c s → K₂.pre c s → K.pre c s)
    (hrely : ∀ c s s', K₁.pre c s → K₂.pre c s → K.rely s s' → K₁.rely s s' ∧ K₂.rely s s')
    (hkeep : ∀ s s', K₁.keep s s' → K₂.keep s s' → K.keep s s')
    {p : Co S R ε α} {Q₁ Q₂ : Except ε α → S → Prop} {s : S} (h₁ : K₁.wp p Q₁ s)
    (h₂ : K₂.wp p Q₂ s) : K.wp p (fun r s' => Q₁ r s' ∧ Q₂ r s') s := by
  induction p generalizing s with
  | ret a => exact ⟨h₁, h₂⟩
  | raise e => exact ⟨h₁, h₂⟩
  | sync f k ih => exact ⟨hkeep _ _ h₁.1 h₂.1, ih s h₁.2 h₂.2⟩
  | await c k ih =>
      refine ⟨hpre c s h₁.1 h₂.1, fun s₁ hr r s₂ ha => ?_⟩
      obtain ⟨hr₁, hr₂⟩ := hrely c s s₁ h₁.1 h₂.1 hr
      obtain ⟨ha₁, ha₂⟩ := hanswer _ _ _ _ ha
      obtain ⟨hk₁, hw₁⟩ := h₁.2 s₁ hr₁ r s₂ ha₁
      obtain ⟨hk₂, hw₂⟩ := h₂.2 s₁ hr₂ r s₂ ha₂
      exact ⟨hkeep _ _ hk₁ hk₂, ih r hw₁ hw₂⟩

/-! ## What the answers alone say -/

variable (K) in
/-- The answers of a contract, and nothing else of it. -/
def lax : Contract S R ε where
  pre _ _ := True
  rely _ _ := True
  answer := K.answer
  keep _ _ := True

/-- What follows from the answers alone holds at the end of code that meets its contract. -/
theorem wp_and_lax {p : Co S R ε α} {Q Q' : Except ε α → S → Prop} {s : S} (h : K.wp p Q s)
    (h' : K.lax.wp p Q' s) : K.wp p (fun r s' => Q r s' ∧ Q' r s') s := by
  induction p generalizing s with
  | ret a => exact ⟨h, h'⟩
  | raise e => exact ⟨h, h'⟩
  | sync f k ih => exact ⟨h.1, ih s h.2 h'.2⟩
  | await c k ih =>
      refine ⟨h.1, fun s₁ hr r s₂ ha => ?_⟩
      obtain ⟨hk, hw⟩ := h.2 s₁ hr r s₂ ha
      exact ⟨hk, ih r hw (h'.2 s₁ trivial r s₂ ha).2⟩

theorem lax_trivial (p : Co S R ε α) (s : S) : K.lax.wp p (fun _ _ => True) s := by
  induction p generalizing s with
  | ret a => trivial
  | raise e => trivial
  | sync f k ih => exact ⟨trivial, ih s (f s)⟩
  | await c k ih => exact ⟨trivial, fun s₁ _ r s₂ _ => ⟨trivial, ih r s₂⟩⟩

/-- A postcondition that only the last part of a sequence is asked for. -/
theorem lax_bind {p : Co S R ε α} {f : α → Co S R ε β} {Q : Except ε β → S → Prop} {s : S}
    (hf : ∀ a s', K.lax.wp (f a) Q s') (he : ∀ e s', Q (.error e) s') :
    K.lax.wp (p >>= f) Q s := by
  refine (wp_bind _ _ _ _).2 (wp_mono (lax_trivial p s) fun r s' _ => ?_)
  cases r with
  | ok a => exact hf a s'
  | error e => exact he e s'

end Contract

/-! ## Invariants of composite code -/

namespace Contract

/-- The code meets its contract wherever `I` holds, and `I` holds again at its end. -/
def Keeps (K : Contract S R ε) (I : S → Prop) (p : Co S R ε α) : Prop :=
  ∀ s, I s → K.wp p (fun _ s' => I s') s

namespace Keeps

variable {K : Contract S R ε} {I : S → Prop}

@[simp] theorem ret (a : α) : K.Keeps I (.ret a : Co S R ε α) := fun _ hs => hs

@[simp] theorem raise (e : ε) : K.Keeps I (.raise e : Co S R ε α) := fun _ hs => hs

theorem bind {p : Co S R ε α} {f : α → Co S R ε β} (hp : K.Keeps I p)
    (hf : ∀ a, K.Keeps I (f a)) : K.Keeps I (p >>= f) := by
  refine fun s hs => (Contract.wp_bind _ _ _ _).2 (wp_mono (hp s hs) fun r s' h => ?_)
  cases r with
  | ok a => exact hf a s' h
  | error e => exact h

/-- Code that keeps `I`, and then code that starts in `I`. -/
theorem wp_bind {p : Co S R ε α} {f : α → Co S R ε β} (hp : K.Keeps I p)
    {Q : Except ε β → S → Prop} {s : S} (hs : I s) (he : ∀ e s', I s' → Q (.error e) s')
    (hf : ∀ a s', I s' → K.wp (f a) Q s') : K.wp (p >>= f) Q s := by
  refine (Contract.wp_bind _ _ _ _).2 (wp_mono (hp s hs) fun r s' h => ?_)
  cases r with
  | ok a => exact hf a s' h
  | error e => exact he e s' h

theorem attempt {p : Co S R ε α} (hp : K.Keeps I p) : K.Keeps I p.attempt :=
  fun s hs => (wp_attempt _ _ _).2 (hp s hs)

theorem of_except (r : Except ε α) : K.Keeps I (Co.of_except r : Co S R ε α) := by
  cases r <;> exact fun _ hs => hs

theorem try_except {p : Co S R ε α} {h : ε → Co S R ε α} (hp : K.Keeps I p)
    (hh : ∀ e, K.Keeps I (h e)) : K.Keeps I (Co.try_except p h) := by
  refine fun s hs => (wp_try_except _ _ _ _).2 (wp_mono (hp s hs) fun r s' h' => ?_)
  cases r with
  | ok a => exact h'
  | error e => exact hh e s' h'

theorem try_finally {p : Co S R ε α} {f : Co S R ε Unit} (hp : K.Keeps I p)
    (hf : K.Keeps I f) : K.Keeps I (Co.try_finally p f) :=
  Keeps.bind hp.attempt fun r => Keeps.bind hf fun _ => of_except r

theorem update {f : S → S} (hf : ∀ s, I s → K.keep s (f s) ∧ I (f s)) :
    K.Keeps I (Co.update f : Co S R ε Unit) := hf

theorem look {g : S → α} (hkeep : ∀ s, I s → K.keep s s) :
    K.Keeps I (Co.look g : Co S R ε α) := fun s hs => ⟨hkeep s hs, hs⟩

end Keeps

/-- The code keeps `I`, unless it raises an exception `e` that leaves `L e` instead. -/
def KeepsUnless (K : Contract S R ε) (I : S → Prop) (L : ε → S → Prop) (p : Co S R ε α) :
    Prop :=
  ∀ s, I s → K.wp p (fun r s' => I s' ∨ ∃ e, r = .error e ∧ L e s') s

theorem Keeps.unless {K : Contract S R ε} {I : S → Prop} {L : ε → S → Prop} {p : Co S R ε α}
    (hp : K.Keeps I p) : K.KeepsUnless I L p := fun s hs => wp_mono (hp s hs) fun _ _ h => .inl h

namespace KeepsUnless

variable {K : Contract S R ε} {I : S → Prop} {L : ε → S → Prop}

theorem ret (a : α) : K.KeepsUnless I L (.ret a : Co S R ε α) := (Keeps.ret a).unless

theorem raise (e : ε) : K.KeepsUnless I L (.raise e : Co S R ε α) := (Keeps.raise e).unless

theorem bind {p : Co S R ε α} {f : α → Co S R ε β} (hp : K.KeepsUnless I L p)
    (hf : ∀ a, K.KeepsUnless I L (f a)) : K.KeepsUnless I L (p >>= f) := by
  refine fun s hs => (wp_bind _ _ _ _).2 (wp_mono (hp s hs) fun r s' h => ?_)
  cases r with
  | error e => exact h.imp_right fun ⟨_, he, hl⟩ => ⟨e, rfl, by cases he; exact hl⟩
  | ok a =>
      rcases h with h | ⟨e, he, -⟩
      · exact hf a s' h
      · cases he

/-- A sequence whose first part returns only values of `V`, whatever it is told. -/
theorem bind_of {p : Co S R ε α} {f : α → Co S R ε β} {V : α → Prop}
    (hp : K.KeepsUnless I L p) (hV : ∀ s, K.lax.wp p (fun r _ => ∀ a, r = .ok a → V a) s)
    (hf : ∀ a, V a → K.KeepsUnless I L (f a)) : K.KeepsUnless I L (p >>= f) := by
  refine fun s hs => (wp_bind _ _ _ _).2
    (wp_mono (wp_and_lax (hp s hs) (hV s)) fun r s' h => ?_)
  obtain ⟨h, ha⟩ := h
  cases r with
  | error e => exact h.imp_right fun ⟨_, he, hl⟩ => ⟨e, rfl, by cases he; exact hl⟩
  | ok a =>
      rcases h with h | ⟨e, he, -⟩
      · exact hf a (ha a rfl) s' h
      · cases he

/-- What the exceptions of `p` leave, the handler has to deal with. -/
theorem try_except {p : Co S R ε α} {h : ε → Co S R ε α} (hp : K.KeepsUnless I L p)
    (hh : ∀ e, K.KeepsUnless I L (h e)) (hl : ∀ e s, L e s →
      K.wp (h e) (fun r s' => I s' ∨ ∃ e', r = .error e' ∧ L e' s') s) :
    K.KeepsUnless I L (Co.try_except p h) := by
  refine fun s hs => (wp_try_except _ _ _ _).2 (wp_mono (hp s hs) fun r s' h' => ?_)
  cases r with
  | ok a => exact h'.imp_right fun ⟨_, he, _⟩ => by cases he
  | error e =>
      rcases h' with hi | ⟨e', he, hle⟩
      · exact hh e s' hi
      · cases he
        exact hl e s' hle

end KeepsUnless

end Contract

/-! ## What a coroutine does wherever it is -/

/-- Every update of the coroutine is in `U` and every call in `A`. -/
def Within (U : (S → S) → Prop) (A : C → Prop) : Co S R ε α → Prop
  | .ret _ => True
  | .raise _ => True
  | .sync f k => U f ∧ ∀ s, Within U A (k s)
  | .await c k => A c ∧ ∀ r, Within U A (k r)

namespace Within

variable {U : (S → S) → Prop} {A : C → Prop}

@[simp] theorem ret (a : α) : Within U A (.ret a : Co S R ε α) := trivial

@[simp] theorem raise (e : ε) : Within U A (.raise e : Co S R ε α) := trivial

theorem mono {U' : (S → S) → Prop} {A' : C → Prop} (hU : ∀ f, U f → U' f)
    (hA : ∀ c, A c → A' c) {p : Co S R ε α} (h : Within U A p) : Within U' A' p := by
  induction p with
  | ret a => trivial
  | raise e => trivial
  | sync f k ih => exact ⟨hU f h.1, fun s => ih s (h.2 s)⟩
  | await c k ih => exact ⟨hA c h.1, fun r => ih r (h.2 r)⟩

theorem bind {p : Co S R ε α} {f : α → Co S R ε β} (hp : Within U A p)
    (hf : ∀ a, Within U A (f a)) : Within U A (p >>= f) := by
  induction p with
  | ret a => exact hf a
  | raise e => trivial
  | sync u k ih => exact ⟨hp.1, fun s => ih s (hp.2 s)⟩
  | await c k ih => exact ⟨hp.1, fun r => ih r (hp.2 r)⟩

theorem attempt {p : Co S R ε α} (hp : Within U A p) : Within U A p.attempt := by
  induction p with
  | ret a => trivial
  | raise e => trivial
  | sync u k ih => exact ⟨hp.1, fun s => ih s (hp.2 s)⟩
  | await c k ih => exact ⟨hp.1, fun r => ih r (hp.2 r)⟩

@[simp] theorem of_except (r : Except ε α) : Within U A (Co.of_except r : Co S R ε α) := by
  cases r <;> trivial

theorem try_except {p : Co S R ε α} {h : ε → Co S R ε α} (hp : Within U A p)
    (hh : ∀ e, Within U A (h e)) : Within U A (Co.try_except p h) := by
  refine bind hp.attempt fun r => ?_
  cases r with
  | ok a => trivial
  | error e => exact hh e

theorem try_finally {p : Co S R ε α} {f : Co S R ε Unit} (hp : Within U A p)
    (hf : Within U A f) : Within U A (Co.try_finally p f) :=
  bind hp.attempt fun r => bind hf fun _ => of_except r

theorem update {f : S → S} (h : U f) : Within U A (Co.update f : Co S R ε Unit) :=
  ⟨h, fun _ => trivial⟩

theorem look {g : S → α} (h : U id) : Within U A (Co.look g : Co S R ε α) :=
  ⟨h, fun _ => trivial⟩

theorem call {c : C} (h : A c) : Within U A (Co.call c : Co S R ε (R c)) :=
  ⟨h, fun r => of_except r⟩

/-- An invariant of every update and every call is one of the whole coroutine. -/
theorem wp {K : Contract S R ε} {I : S → Prop} (hpre : ∀ c s, A c → I s → K.pre c s)
    (hrely : ∀ s s', I s → K.rely s s' → I s')
    (hsync : ∀ f s, U f → I s → K.keep s (f s) ∧ I (f s))
    (hanswer : ∀ c s r s', A c → I s → K.answer c s r s' → K.keep s s' ∧ I s')
    {p : Co S R ε α} (hp : Within U A p) {s : S} (hs : I s) : K.wp p (fun _ s' => I s') s := by
  induction p generalizing s with
  | ret a => exact hs
  | raise e => exact hs
  | sync f k ih =>
      obtain ⟨hk, hi⟩ := hsync f s hp.1 hs
      exact ⟨hk, ih s (hp.2 s) hi⟩
  | await c k ih =>
      refine ⟨hpre c s hp.1 hs, fun s₁ hr r s₂ ha => ?_⟩
      obtain ⟨hk, hi⟩ := hanswer c s₁ r s₂ hp.1 (hrely s s₁ hs hr) ha
      exact ⟨hk, ih r (hp.2 r) hi⟩

theorem settle_inv {I : S → Prop} (hsync : ∀ f s, U f → I s → I (f s)) {p : Co S R ε α}
    (hp : Within U A p) {s : S} (hs : I s) : I (Co.settle s p).1 := by
  induction p generalizing s with
  | ret a => exact hs
  | raise e => exact hs
  | sync f k ih => exact ih s (hp.2 s) (hsync f s hp.1 hs)
  | await c k => exact hs

theorem settle {p : Co S R ε α} (hp : Within U A p) (s : S) :
    Within U A (Co.settle s p).2 := by
  induction p generalizing s with
  | ret a => trivial
  | raise e => trivial
  | sync f k ih => exact ih s (hp.2 s) (f s)
  | await c k => exact hp

end Within

/-! ## What a coroutine can raise -/

/-- If the calls are answered as `N` says, only exceptions of `E` are raised. -/
def Raises (N : (c : C) → Except ε (R c) → Prop) (E : ε → Prop) : Co S R ε α → Prop
  | .ret _ => True
  | .raise e => E e
  | .sync _ k => ∀ s, Raises N E (k s)
  | .await c k => ∀ r, N c r → Raises N E (k r)

namespace Raises

variable {N : (c : C) → Except ε (R c) → Prop} {E E' : ε → Prop}

@[simp] theorem ret (a : α) : Raises N E (.ret a : Co S R ε α) := trivial

theorem bind {p : Co S R ε α} {f : α → Co S R ε β} (hp : Raises N E p)
    (hf : ∀ a, Raises N E (f a)) : Raises N E (p >>= f) := by
  induction p with
  | ret a => exact hf a
  | raise e => exact hp
  | sync u k ih => exact fun s => ih s (hp s)
  | await c k ih => exact fun r hr => ih r (hp r hr)

/-- The exceptions of `p` are handed on as values. -/
theorem attempt_bind {p : Co S R ε α} {f : Except ε α → Co S R ε β} (hp : Raises N E p)
    (hok : ∀ a, Raises N E' (f (.ok a))) (herr : ∀ e, E e → Raises N E' (f (.error e))) :
    Raises N E' (p.attempt >>= f) := by
  induction p with
  | ret a => exact hok a
  | raise e => exact herr e hp
  | sync u k ih => exact fun s => ih s (hp s)
  | await c k ih => exact fun r hr => ih r (hp r hr)

theorem of_except {r : Except ε α} (h : ∀ e, r = .error e → E e) :
    Raises N E (Co.of_except r : Co S R ε α) := by
  cases r with
  | ok a => trivial
  | error e => exact h e rfl

theorem try_except {p : Co S R ε α} {h : ε → Co S R ε α} (hp : Raises N E p)
    (hh : ∀ e, E e → Raises N E' (h e)) : Raises N E' (Co.try_except p h) :=
  attempt_bind hp (fun _ => trivial) hh

theorem try_finally {p : Co S R ε α} {f : Co S R ε Unit} (hp : Raises N E p)
    (hf : Raises N E f) : Raises N E (Co.try_finally p f) :=
  attempt_bind hp (fun a => hf.bind fun _ => ret a) fun e he => hf.bind fun _ => he

theorem update {f : S → S} : Raises N E (Co.update f : Co S R ε Unit) := fun _ => trivial

theorem look {g : S → α} : Raises N E (Co.look g : Co S R ε α) := fun _ => trivial

theorem call {c : C} (h : ∀ e, N c (.error e) → E e) :
    Raises N E (Co.call c : Co S R ε (R c)) :=
  fun r hr => of_except fun e he => h e (he ▸ hr)

/-- What a coroutine ends in, when the contract answers its calls as `N` says. -/
theorem wp {K : Contract S R ε} (hanswer : ∀ c s r s', K.answer c s r s' → N c r)
    {p : Co S R ε α} (hp : Raises N E p) {Q : Except ε α → S → Prop} {s : S}
    (h : K.wp p Q s) : K.wp p (fun r s' => Q r s' ∧ ∀ e, r = .error e → E e) s := by
  induction p generalizing s with
  | ret a => exact ⟨h, fun _ he => nomatch he⟩
  | raise e => exact ⟨h, fun _ he => by cases he; exact hp⟩
  | sync f k ih => exact ⟨h.1, ih s (hp s) h.2⟩
  | await c k ih =>
      refine ⟨h.1, fun s₁ hr r s₂ ha => ?_⟩
      obtain ⟨hk, hw⟩ := h.2 s₁ hr r s₂ ha
      exact ⟨hk, ih r (hp r (hanswer _ _ _ _ ha)) hw⟩

end Raises

/-! ## Running one coroutine -/

/-- The world one coroutine runs in: how it answers calls, and how it drifts. -/
structure Host (S : Type) {C : Type} (R : C → Type) (ε : Type) where
  answer : (c : C) → S → Except ε (R c) → S → Prop
  drift : S → S → Prop

namespace Host

variable (H : Host S R ε)

/-- One step: the world drifts, or the awaited call is answered and the coroutine runs on
to its next suspension. -/
inductive Step : S × Co S R ε α → S × Co S R ε α → Prop
  | drift {s s' : S} {p : Co S R ε α} (h : H.drift s s') : Step (s, p) (s', p)
  | resume {s s' : S} {c : C} {k : Except ε (R c) → Co S R ε α} {r : Except ε (R c)}
      (h : H.answer c s r s') : Step (s, .await c k) (Co.settle s' (k r))

/-- Any number of steps. -/
abbrev Run (x y : S × Co S R ε α) : Prop := Relation.ReflTransGen H.Step x y

/-- The awaited call, if there is one, has no answer: only drift is left. -/
def Halted (x : S × Co S R ε α) : Prop :=
  ∀ c k, x.2 = .await c k → ∀ r s', ¬ H.answer c x.1 r s'

/-- If every call is always answered, what has halted has ended. -/
theorem ended_of_halted (total : ∀ c s, ∃ r s', H.answer c s r s') {s : S} {p : Co S R ε α}
    (hsettled : ∀ f k, p ≠ .sync f k) (h : H.Halted (s, p)) : ∃ r, p.outcome = some r := by
  cases p with
  | ret a => exact ⟨_, rfl⟩
  | raise e => exact ⟨_, rfl⟩
  | sync f k => exact absurd rfl (hsettled f k)
  | await c k =>
      obtain ⟨r, s', ha⟩ := total c s
      exact absurd ha (h c k rfl r s')

theorem settle_ne_sync (s : S) (p : Co S R ε α) (f : S → S) (k : S → Co S R ε α) :
    (Co.settle s p).2 ≠ .sync f k := by
  induction p generalizing s with
  | ret a => simp
  | raise e => simp
  | sync g q ih => exact ih s (g s)
  | await c q => simp

/-- A run never rests in front of synchronous code. -/
theorem Run.ne_sync {x y : S × Co S R ε α} (h : H.Run x y) (hx : ∀ f k, x.2 ≠ .sync f k) :
    ∀ f k, y.2 ≠ .sync f k := by
  induction h with
  | refl => exact hx
  | tail _ hstep ih =>
      cases hstep with
      | drift => exact ih
      | resume => exact settle_ne_sync _ _

/-- What a coroutine does wherever it is, it does after any run. -/
theorem Run.within {U : (S → S) → Prop} {A : C → Prop} {x y : S × Co S R ε α} (h : H.Run x y)
    (hx : Within U A x.2) : Within U A y.2 := by
  induction h with
  | refl => exact hx
  | tail _ hstep ih =>
      cases hstep with
      | drift => exact ih
      | resume => exact (ih.2 _).settle _

/-- What every update, every call and the drift keep, every run keeps. -/
theorem Run.invariant {U : (S → S) → Prop} {A : C → Prop} {I : S → Prop}
    (hdrift : ∀ s s', I s → H.drift s s' → I s') (hsync : ∀ f s, U f → I s → I (f s))
    (hanswer : ∀ c s r s', A c → I s → H.answer c s r s' → I s') {x y : S × Co S R ε α}
    (h : H.Run x y) (hx : Within U A x.2) (hi : I x.1) : I y.1 := by
  induction h with
  | refl => exact hi
  | @tail b c hab hstep ih =>
      have hb : Within U A b.2 := Run.within H hab hx
      cases hstep with
      | drift hd => exact hdrift _ _ ih hd
      | resume ha => exact (hb.2 _).settle_inv hsync (hanswer _ _ _ _ hb.1 ih ha)

/-- Part of a coroutine that an answer can lead to. -/
def Resumes (q p : Co S R ε α) : Prop :=
  ∃ c k r s, p = .await c k ∧ q = (Co.settle s (k r)).2

/-- No coroutine can be resumed for ever. -/
theorem resumes_wf : WellFounded (Resumes : Co S R ε α → Co S R ε α → Prop) := by
  have key : ∀ (p : Co S R ε α) (s : S), Acc Resumes (Co.settle s p).2 := by
    intro p
    induction p with
    | ret a => exact fun s => ⟨_, by rintro q ⟨c, k, r, s', h, -⟩; cases h⟩
    | raise e => exact fun s => ⟨_, by rintro q ⟨c, k, r, s', h, -⟩; cases h⟩
    | sync f k ih => exact fun s => ih s (f s)
    | await c k ih =>
        intro s
        refine ⟨_, ?_⟩
        rintro q ⟨c', k', r, s', h, rfl⟩
        cases h
        exact ih r s'
  refine ⟨fun p => ?_⟩
  cases p with
  | sync f k => exact ⟨_, by rintro q ⟨c, k', r, s', h, -⟩; cases h⟩
  | ret a => exact ⟨_, by rintro q ⟨c, k', r, s', h, -⟩; cases h⟩
  | raise e => exact ⟨_, by rintro q ⟨c, k', r, s', h, -⟩; cases h⟩
  | await c k =>
      refine ⟨_, ?_⟩
      rintro q ⟨c', k', r, s', h, rfl⟩
      exact key (k' r) s'

/-- The contract that asks nothing of the coroutine: its weakest preconditions speak about
every run against the host. -/
def logic : Contract S R ε where
  pre _ _ := True
  rely := H.drift
  answer := H.answer
  keep _ _ := True

theorem logic_call (c : C) (Q : Except ε (R c) → S → Prop) (s : S) :
    H.logic.wp (Co.call c : Co S R ε (R c)) Q s ↔
      ∀ s₁, H.drift s s₁ → ∀ r s₂, H.answer c s₁ r s₂ → Q r s₂ := by
  simp only [Contract.wp_call, logic, true_and]

/-! ## Runs that exist -/

/-- The states from which some run of `p` against the host ends in `Q`. -/
def Can : Co S R ε α → (Except ε α → S → Prop) → S → Prop
  | .ret a, Q, s => Q (.ok a) s
  | .raise e, Q, s => Q (.error e) s
  | .sync f k, Q, s => Can (k s) Q (f s)
  | .await c k, Q, s =>
      ∃ s₁, H.drift s s₁ ∧ ∃ r s₂, H.answer c s₁ r s₂ ∧ Can (k r) Q s₂

theorem can_bind (p : Co S R ε α) (f : α → Co S R ε β) (Q : Except ε β → S → Prop) (s : S) :
    H.Can (p >>= f) Q s ↔ H.Can p (fun r s' => match r with
      | .ok a => H.Can (f a) Q s'
      | .error e => Q (.error e) s') s := by
  induction p generalizing s with
  | ret a => exact Iff.rfl
  | raise e => exact Iff.rfl
  | sync u k ih => exact ih s (u s)
  | await c k ih =>
      refine exists_congr fun s₁ => and_congr_right fun _ => exists_congr fun r =>
        exists_congr fun s₂ => and_congr_right fun _ => ih r s₂

theorem can_attempt (p : Co S R ε α) (Q : Except ε (Except ε α) → S → Prop) (s : S) :
    H.Can p.attempt Q s ↔ H.Can p (fun r s' => Q (.ok r) s') s := by
  induction p generalizing s with
  | ret a => exact Iff.rfl
  | raise e => exact Iff.rfl
  | sync u k ih => exact ih s (u s)
  | await c k ih =>
      refine exists_congr fun s₁ => and_congr_right fun _ => exists_congr fun r =>
        exists_congr fun s₂ => and_congr_right fun _ => ih r s₂

theorem can_mono {p : Co S R ε α} {Q Q' : Except ε α → S → Prop} {s : S} (h : H.Can p Q s)
    (hQ : ∀ r s', Q r s' → Q' r s') : H.Can p Q' s := by
  induction p generalizing s with
  | ret a => exact hQ _ _ h
  | raise e => exact hQ _ _ h
  | sync f k ih => exact ih s h
  | await c k ih =>
      obtain ⟨s₁, hd, r, s₂, ha, h⟩ := h
      exact ⟨s₁, hd, r, s₂, ha, ih r h⟩

/-- Code that can end with a value, and then code that goes on with it. -/
theorem can_bind_ok {p : Co S R ε α} {f : α → Co S R ε β} {Q : Except ε β → S → Prop} {s : S}
    {a : α} {P : S → Prop} (h : H.Can p (fun r s' => r = .ok a ∧ P s') s)
    (hf : ∀ s', P s' → H.Can (f a) Q s') : H.Can (p >>= f) Q s := by
  refine (H.can_bind p f Q s).2 (H.can_mono h ?_)
  rintro r s' ⟨rfl, hs'⟩
  exact hf s' hs'

/-- A `try` block that can end with a value can end so as a whole. -/
theorem can_try_except_ok {p : Co S R ε α} {h : ε → Co S R ε α} {s : S} {a : α} {P : S → Prop}
    (hp : H.Can p (fun r s' => r = .ok a ∧ P s') s) :
    H.Can (Co.try_except p h) (fun r s' => r = .ok a ∧ P s') s := by
  have hattempt : H.Can p.attempt (fun r s' => r = .ok (.ok a) ∧ P s') s := by
    refine (H.can_attempt p _ s).2 (H.can_mono hp ?_)
    rintro r s' ⟨rfl, hs'⟩
    exact ⟨rfl, hs'⟩
  exact H.can_bind_ok hattempt fun s' hs' => ⟨rfl, hs'⟩

/-- So can one with a `finally` clause. -/
theorem can_try_finally_ok {p : Co S R ε α} {f : Co S R ε Unit} {s : S} {a : α} {P P' : S → Prop}
    (hp : H.Can p (fun r s' => r = .ok a ∧ P s') s)
    (hf : ∀ s', P s' → H.Can f (fun r s'' => r = .ok () ∧ P' s'') s') :
    H.Can (Co.try_finally p f) (fun r s' => r = .ok a ∧ P' s') s := by
  have hattempt : H.Can p.attempt (fun r s' => r = .ok (.ok a) ∧ P s') s := by
    refine (H.can_attempt p _ s).2 (H.can_mono hp ?_)
    rintro r s' ⟨rfl, hs'⟩
    exact ⟨rfl, hs'⟩
  exact H.can_bind_ok hattempt fun s' hs' => H.can_bind_ok (hf s' hs') fun s'' hs'' => ⟨rfl, hs''⟩

/-- A run that begins with this answer. -/
theorem exists_run_of_answer {p : Co S R ε α} {s s₁ s₂ : S} {c : C}
    {k : Except ε (R c) → Co S R ε α} {r : Except ε (R c)} {P : S × Co S R ε α → Prop}
    (hs : Co.settle s p = (s₁, .await c k)) (ha : H.answer c s₁ r s₂)
    (h : ∃ x, H.Run (Co.settle s₂ (k r)) x ∧ P x) : ∃ x, H.Run (Co.settle s p) x ∧ P x := by
  obtain ⟨x, hrun, hx⟩ := h
  refine ⟨x, ?_, hx⟩
  rw [hs]
  exact .head (.resume ha) hrun

/-- What can end so does, in a run. -/
theorem exists_run_of_can {p : Co S R ε α} {Q : Except ε α → S → Prop} {s : S}
    (h : H.Can p Q s) :
    ∃ s' q r, H.Run (Co.settle s p) (s', q) ∧ q.outcome = some r ∧ Q r s' := by
  induction p generalizing s with
  | ret a => exact ⟨s, .ret a, .ok a, .refl, rfl, h⟩
  | raise e => exact ⟨s, .raise e, .error e, .refl, rfl, h⟩
  | sync f k ih => exact ih s h
  | await c k ih =>
      obtain ⟨s₁, hd, r, s₂, ha, h⟩ := h
      obtain ⟨s', q, r', hrun, hq, hQ⟩ := ih r h
      exact ⟨s', q, r', .head (.drift hd) (.head (.resume ha) hrun), hq, hQ⟩

end Host

/-! ## The rules are sound -/

namespace Contract

variable (K : Contract S R ε)

/-- The state reached from `s` by the coroutine's own steps. -/
abbrev Kept (s s' : S) : Prop := Relation.ReflTransGen K.keep s s'

/-- Synchronous code run at once: `keep` at each node, the promise at the end. -/
theorem wp_settle {p : Co S R ε α} {Q : Except ε α → S → Prop} {s : S} (h : K.wp p Q s) :
    K.Kept s (Co.settle s p).1 ∧ K.wp (Co.settle s p).2 Q (Co.settle s p).1 := by
  induction p generalizing s with
  | ret a => exact ⟨.refl, h⟩
  | raise e => exact ⟨.refl, h⟩
  | sync f k ih =>
      obtain ⟨hk, hw⟩ := ih s h.2
      exact ⟨.head h.1 hk, hw⟩
  | await c k => exact ⟨.refl, h⟩

/-- What is known of a suspended coroutine: its promise held, and since then only the
others have acted. -/
def Suspended (p : Co S R ε α) (Q : Except ε α → S → Prop) (s : S) : Prop :=
  ∃ s₀, K.rely s₀ s ∧ K.wp p Q s₀

variable {K}

theorem Suspended.rely (htrans : ∀ a b c, K.rely a b → K.rely b c → K.rely a c)
    {p : Co S R ε α} {Q : Except ε α → S → Prop} {s s' : S} (h : K.Suspended p Q s)
    (hr : K.rely s s') : K.Suspended p Q s' := by
  obtain ⟨s₀, h₀, hw⟩ := h
  exact ⟨s₀, htrans _ _ _ h₀ hr, hw⟩

/-- An answer to a suspended coroutine: its own steps lead to its next suspension. -/
theorem Suspended.resume (hrefl : ∀ s, K.rely s s) {c : C} {k : Except ε (R c) → Co S R ε α}
    {Q : Except ε α → S → Prop} {s s' : S} {r : Except ε (R c)}
    (h : K.Suspended (.await c k) Q s) (ha : K.answer c s r s') :
    K.Kept s (Co.settle s' (k r)).1 ∧
      K.Suspended (Co.settle s' (k r)).2 Q (Co.settle s' (k r)).1 := by
  obtain ⟨s₀, h₀, -, hw⟩ := h
  obtain ⟨hk, hw⟩ := hw s h₀ r s' ha
  obtain ⟨hks, hws⟩ := K.wp_settle hw
  exact ⟨.head hk hks, _, hrefl _, hws⟩

/-- **Soundness for one coroutine.** Whatever a run reaches from a state that satisfies
the weakest precondition, the coroutine there is suspended as promised. -/
theorem run_sound {H : Host S R ε} (hrefl : ∀ s, K.rely s s)
    (htrans : ∀ a b c, K.rely a b → K.rely b c → K.rely a c)
    (hanswer : ∀ c s r s', H.answer c s r s' → K.answer c s r s')
    (hdrift : ∀ s s', H.drift s s' → K.rely s s') {p : Co S R ε α}
    {Q : Except ε α → S → Prop} {s : S} (h : K.wp p Q s) {y : S × Co S R ε α}
    (run : H.Run (Co.settle s p) y) : K.Suspended y.2 Q y.1 := by
  induction run with
  | refl => exact ⟨_, hrefl _, (K.wp_settle h).2⟩
  | tail _ hstep ih =>
      cases hstep with
      | drift hd => exact ih.rely htrans (hdrift _ _ hd)
      | resume ha => exact (ih.resume hrefl (hanswer _ _ _ _ ha)).2

end Contract

/-- What a run against the host leaves when the coroutine has ended: the postcondition held
at some point, and the world has only drifted since. -/
theorem Host.run_outcome {H : Host S R ε} (hrefl : ∀ s, H.drift s s)
    (htrans : ∀ a b c, H.drift a b → H.drift b c → H.drift a c) {p : Co S R ε α}
    {Q : Except ε α → S → Prop} {s s' : S} {q : Co S R ε α} {r : Except ε α}
    (h : H.logic.wp p Q s) (run : H.Run (Co.settle s p) (s', q)) (hq : q.outcome = some r) :
    ∃ s₀, H.drift s₀ s' ∧ Q r s₀ := by
  obtain ⟨s₀, h₀, hw⟩ := Contract.run_sound (K := H.logic) (H := H) hrefl htrans
    (fun _ _ _ _ ha => ha) (fun _ _ hd => hd) h run
  refine ⟨s₀, h₀, ?_⟩
  cases q with
  | ret a => cases hq; exact hw
  | raise e => cases hq; exact hw
  | sync f k => cases hq
  | await c k => cases hq

end Coroutine
