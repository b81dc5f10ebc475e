/-
`Coroutine/Machine.lean` -- machines that accept histories, newest event first.

A `Machine` says which events may follow one another. A log is read from its last line back,
so a history is a list whose head is the newest event; `after p es` is where the machine is
when it has started in `p` and `es` has happened.
-/
import Mathlib.Data.List.Basic

set_option autoImplicit false

namespace Coroutine

/-- A deterministic machine with partial steps. -/
structure Machine (P E : Type) where
  step : P → E → Option P

namespace Machine

variable {P E : Type} (M : Machine P E)

/-- Where the machine is after the history `es`, unless it has refused an event. -/
def after (p : P) (es : List E) : Option P := es.foldrM (fun e q => M.step q e) p

/-- No event may follow. -/
def Final (p : P) : Prop := ∀ e, M.step p e = none

@[simp] theorem after_nil (p : P) : M.after p [] = some p := rfl

@[simp] theorem after_cons (p : P) (e : E) (es : List E) :
    M.after p (e :: es) = (M.after p es).bind fun q => M.step q e := by
  rw [after, List.foldrM_cons]
  rfl

variable {M} {p q : P} {e : E} {es new : List E}

theorem after_cons_of (h : M.after p es = some q) : M.after p (e :: es) = M.step q e := by
  rw [after_cons, h, Option.bind_some]

/-- What has been accepted at the end had been accepted before. -/
theorem after_of_append (h : M.after p (new ++ es) = some q) :
    ∃ q', M.after p es = some q' ∧ M.after q' new = some q := by
  induction new generalizing q with
  | nil => exact ⟨q, h, rfl⟩
  | cons e new ih =>
      rw [List.cons_append, after_cons] at h
      obtain ⟨q₁, h₁, hstep⟩ := Option.bind_eq_some_iff.1 h
      obtain ⟨q', h', hnew⟩ := ih h₁
      exact ⟨q', h', (after_cons_of hnew).trans hstep⟩

/-- Nothing follows a final position. -/
theorem nil_of_final (hp : M.Final p) (h : M.after p es = some q) : es = [] := by
  induction es generalizing q with
  | nil => rfl
  | cons e es ih =>
      rw [after_cons] at h
      obtain ⟨q₁, h₁, hstep⟩ := Option.bind_eq_some_iff.1 h
      obtain rfl := ih h₁
      cases h₁
      rw [hp e] at hstep
      cases hstep

/-- A history that goes on from a final position is the same history. -/
theorem eq_of_final (hq : M.Final q) (h : M.after p es = some q)
    (h' : M.after p (new ++ es) ≠ none) : new = [] := by
  obtain ⟨q₁, h₁⟩ := Option.ne_none_iff_exists'.1 h'
  obtain ⟨q', hq', hnew⟩ := after_of_append h₁
  rw [h] at hq'
  cases hq'
  exact nil_of_final hq hnew

/-- An event that leads only to final positions happens at most once, and nothing follows it. -/
theorem once_of_final [DecidableEq E] (he : ∀ p q, M.step p e = some q → M.Final q)
    (h : M.after p es = some q) : es.count e = 0 ∨ es.count e = 1 ∧ M.Final q := by
  induction es generalizing q with
  | nil => exact .inl rfl
  | cons x es ih =>
      rw [after_cons] at h
      obtain ⟨q₁, h₁, hstep⟩ := Option.bind_eq_some_iff.1 h
      rcases ih h₁ with hnone | ⟨-, hfinal⟩
      · by_cases hx : x = e
        · subst hx
          exact .inr ⟨by rw [List.count_cons_self, hnone], he _ _ hstep⟩
        · exact .inl (by rw [List.count_cons_of_ne hx, hnone])
      · rw [hfinal x] at hstep
        cases hstep

end Machine

end Coroutine
