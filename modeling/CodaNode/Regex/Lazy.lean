/-
`Regex/Lazy.lean` -- lazy repetition, and the first success of a sequence.

A matcher lists its successes in the order of backtracking, as `Re.run` does. `r+?` has the
successes of `r+` in another order, the shortest first; which of them a match takes is decided
by what follows.
-/
import CodaNode.Regex.Basic

set_option autoImplicit false

namespace Regex

variable {α : Type}

/-- The successes from the start of a text, the first one first. -/
abbrev Matcher (α : Type) := Caps α → List α → List (Caps α × List α)

namespace Matcher

/-- One matcher after the other. -/
def seq (m k : Matcher α) : Matcher α := fun caps text => (m caps text).flatMap fun x => k x.1 x.2

/-- The text that the matcher takes is captured. -/
def group (n : Nat) (m : Matcher α) : Matcher α := fun caps text =>
  (m caps text).map fun x => ((n, text.take (text.length - x.2.length)) :: x.1, x.2)

/-- At most `fuel` turns of a repetition, the fewest first. -/
def lazy_turns (step : Matcher α) : Nat → Matcher α
  | 0, caps, text => [(caps, text)]
  | fuel + 1, caps, text => (caps, text) ::
      ((step caps text).filter (·.2.length < text.length)).flatMap
        fun x => lazy_turns step fuel x.1 x.2

/-- `r+?`. -/
def lazy_plus (r : Re α) : Matcher α :=
  seq r.run fun caps text => lazy_turns r.run text.length caps text

/-- The captures of the first success. -/
def «match» (m : Matcher α) (text : List α) : Option (Caps α) := (m [] text).head?.map Prod.fst

/-! ## The successes -/

section Successes

variable {m k : Matcher α} {r : Re α} {caps caps' : Caps α} {text rest : List α}
  {x : Caps α × List α}

theorem mem_seq : x ∈ seq m k caps text ↔ ∃ y ∈ m caps text, x ∈ k y.1 y.2 := List.mem_flatMap

/-- Only the order differs from that of the greedy repetition. -/
theorem mem_lazy_turns {step : Matcher α} {fuel : Nat} :
    x ∈ lazy_turns step fuel caps text ↔ x ∈ Re.turns step fuel caps text := by
  induction fuel generalizing caps text with
  | zero => exact Iff.rfl
  | succ fuel ih =>
      rw [lazy_turns, Re.turns, List.mem_cons, List.mem_append, List.mem_singleton,
        List.mem_flatMap, List.mem_flatMap, or_comm]
      simp only [ih]

theorem mem_lazy_plus : x ∈ lazy_plus r caps text ↔ x ∈ (Re.plus r).run caps text := by
  rw [lazy_plus, mem_seq, Re.plus, Re.run, List.mem_flatMap]
  simp only [mem_lazy_turns, Re.run]

/-- A lazy repetition of letters takes a run of them, any that is not empty. -/
theorem mem_lazy_plus_set {p : α → Bool} : (caps', rest) ∈ lazy_plus (.set p) caps text ↔
    ∃ w, text = w ++ rest ∧ Re.Run p w ∧ caps' = caps := by
  rw [mem_lazy_plus, Re.mem_run]
  simp only [Re.accepts_plus_set, Re.Run, and_assoc]

theorem mem_group {n : Nat} : x ∈ group n m caps text ↔
    ∃ y ∈ m caps text, x = ((n, text.take (text.length - y.2.length)) :: y.1, y.2) := by
  rw [group, List.mem_map]
  simp only [eq_comm]

end Successes

/-! ## The first success -/

section First

variable {m k : Matcher α} {caps : Caps α} {text : List α} {x y : Caps α × List α}

/-- A success without alternative is the first. -/
theorem head?_of_unique {β : Type} {a : β} {l : List β} (h : a ∈ l) (hall : ∀ b ∈ l, b = a) :
    l.head? = some a := by
  cases l with
  | nil => cases h
  | cons b rest => rw [List.head?_cons, hall b List.mem_cons_self]

/-- The first success of the first part leads to the first of the sequence, if it leads to any. -/
theorem head?_seq (hm : (m caps text).head? = some x) (hk : (k x.1 x.2).head? = some y) :
    (seq m k caps text).head? = some y := by
  unfold seq
  cases hl : m caps text with
  | nil =>
      rw [hl] at hm
      cases hm
  | cons a rest =>
      rw [hl, List.head?_cons, Option.some.injEq] at hm
      rw [List.flatMap_cons, List.head?_append, hm, hk, Option.some_or]

/-- A text leads nowhere but past itself. -/
theorem head?_lit [DecidableEq α] {a rest : List α} :
    ((Re.lit a).run caps (a ++ rest)).head? = some (caps, rest) := by
  apply head?_of_unique
  · exact Re.mem_run.2 ⟨a, rfl, Re.accepts_lit.2 ⟨rfl, rfl⟩⟩
  · rintro ⟨caps', rest'⟩ hmem
    obtain ⟨w, hw, haccepts⟩ := Re.mem_run.1 hmem
    obtain ⟨rfl, rfl⟩ := Re.accepts_lit.1 haccepts
    rw [List.append_cancel_left hw]

theorem head?_letter [DecidableEq α] {a : α} {rest : List α} :
    ((Re.letter a).run caps (a :: rest)).head? = some (caps, rest) := by
  rw [Re.letter, Re.run, if_pos (decide_eq_true rfl), List.head?_cons]

/-- A greedy repetition of letters takes all that there are. -/
theorem head?_turns_set {p : α → Bool} {u rest : List α} {fuel : Nat} (hfuel : u.length ≤ fuel)
    (hu : ∀ c ∈ u, p c = true) (hrest : ∀ c, rest.head? = some c → p c = false) :
    (Re.turns (Re.set p).run fuel caps (u ++ rest)).head? = some (caps, rest) := by
  induction u generalizing fuel with
  | nil =>
      have hnone : (Re.set p).run caps rest = [] := by
        cases rest with
        | nil => rfl
        | cons c rest => rw [Re.run, hrest c rfl, if_neg Bool.false_ne_true]
      cases fuel with
      | zero => rfl
      | succ fuel =>
          rw [List.nil_append, Re.turns, hnone]
          rfl
  | cons c u ih =>
      rw [List.length_cons] at hfuel
      obtain ⟨fuel, rfl⟩ := Nat.exists_eq_succ_of_ne_zero (show fuel ≠ 0 by omega)
      have hstep : (Re.set p).run caps (c :: (u ++ rest)) = [(caps, u ++ rest)] := by
        rw [Re.run, if_pos (hu c List.mem_cons_self)]
      have hfuel' : u.length ≤ fuel := by omega
      have hnext := ih hfuel' fun d hd => hu d (List.mem_cons_of_mem _ hd)
      rw [List.cons_append, Re.turns, hstep]
      simp [hnext]

theorem head?_star_set {p : α → Bool} {u rest : List α} (hu : ∀ c ∈ u, p c = true)
    (hrest : ∀ c, rest.head? = some c → p c = false) :
    ((Re.star (Re.set p)).run caps (u ++ rest)).head? = some (caps, rest) := by
  rw [Re.run]
  exact head?_turns_set (by simp) hu hrest

end First

end Matcher

end Regex
