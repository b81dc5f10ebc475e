/-
`Regex/Basic.lean` -- regular expressions with groups, matched by backtracking.

`Re.run` lists what a backtracking matcher finds from the start of a text, in the order in
which it finds it: for each success the captures so far and the rest of the text. A match is
the first of them. `Re.Accepts` is the language of an expression, captures included, and
`mem_run` says that the successes are the prefixes in the language.

The letters are of any type.
-/
import Mathlib.Data.List.TakeWhile

set_option autoImplicit false

namespace Regex

variable {α : Type}

/-! ## Expressions -/

/-- What the groups have captured, the last capture first. -/
abbrev Caps (α : Type) := List (Nat × List α)

/-- An expression. Repetition is greedy. -/
inductive Re (α : Type) where
  | eps
  | set (p : α → Bool)
  | seq (r s : Re α)
  | alt (r s : Re α)
  | star (r : Re α)
  | group (n : Nat) (r : Re α)

namespace Re

/-- `r+`. -/
def plus (r : Re α) : Re α := seq r (star r)

/-- `r?`. -/
def opt (r : Re α) : Re α := alt r eps

/-- One letter. -/
def letter [DecidableEq α] (a : α) : Re α := set (fun c => c = a)

/-- A text. -/
def lit [DecidableEq α] : List α → Re α
  | [] => eps
  | a :: rest => seq (letter a) (lit rest)

/-! ## Matching -/

/-- At most `fuel` turns of a repetition, the longest first. A turn that consumes nothing is
not made. -/
def turns (step : Caps α → List α → List (Caps α × List α)) :
    Nat → Caps α → List α → List (Caps α × List α)
  | 0, caps, text => [(caps, text)]
  | fuel + 1, caps, text =>
      ((step caps text).filter (·.2.length < text.length)).flatMap
        (fun m => turns step fuel m.1 m.2) ++ [(caps, text)]

/-- The successes of the matcher. -/
def run : Re α → Caps α → List α → List (Caps α × List α)
  | eps, caps, text => [(caps, text)]
  | set _, _, [] => []
  | set p, caps, c :: rest => if p c then [(caps, rest)] else []
  | seq r s, caps, text => (r.run caps text).flatMap fun m => s.run m.1 m.2
  | alt r s, caps, text => r.run caps text ++ s.run caps text
  | star r, caps, text => turns (fun caps text => r.run caps text) text.length caps text
  | group n r, caps, text =>
      (r.run caps text).map fun m => ((n, text.take (text.length - m.2.length)) :: m.1, m.2)

/-- The first success. -/
def «match» (r : Re α) (text : List α) : Option (Caps α × List α) := (r.run [] text).head?

/-- `findall`, for an expression that does not match the empty text. -/
def findall (r : Re α) : Nat → List α → List (Caps α)
  | 0, _ => []
  | _ + 1, [] => []
  | fuel + 1, c :: rest =>
      match r.match (c :: rest) with
      | some (caps, rest') => caps :: findall r fuel rest'
      | none => findall r fuel rest

/-! ## The language -/

/-- A repetition of turns that are not empty. -/
inductive Turns (step : List α → Caps α → Caps α → Prop) : List α → Caps α → Caps α → Prop where
  | nil (caps : Caps α) : Turns step [] caps caps
  | cons {u v : List α} {caps mid caps' : Caps α} (hne : u ≠ []) (hu : step u caps mid)
      (hv : Turns step v mid caps') : Turns step (u ++ v) caps caps'

/-- The text is in the language, and leads from the first captures to the second. -/
def Accepts : Re α → List α → Caps α → Caps α → Prop
  | eps, w, caps, caps' => w = [] ∧ caps' = caps
  | set p, w, caps, caps' => ∃ c, w = [c] ∧ p c = true ∧ caps' = caps
  | seq r s, w, caps, caps' => ∃ u v mid, w = u ++ v ∧ r.Accepts u caps mid ∧ s.Accepts v mid caps'
  | alt r s, w, caps, caps' => r.Accepts w caps caps' ∨ s.Accepts w caps caps'
  | star r, w, caps, caps' => Turns r.Accepts w caps caps'
  | group n r, w, caps, caps' => ∃ mid, r.Accepts w caps mid ∧ caps' = (n, w) :: mid

/-! ## The matcher finds the language -/

theorem mem_turns {step : Caps α → List α → List (Caps α × List α)}
    {accepts : List α → Caps α → Caps α → Prop}
    (hstep : ∀ caps text caps' rest, (caps', rest) ∈ step caps text ↔
      ∃ w, text = w ++ rest ∧ accepts w caps caps') {fuel : Nat} {caps caps' : Caps α}
    {text rest : List α} (hfuel : text.length ≤ fuel) :
    (caps', rest) ∈ turns step fuel caps text ↔
      ∃ w, text = w ++ rest ∧ Turns accepts w caps caps' := by
  induction fuel generalizing caps text with
  | zero =>
      have hnil : text = [] := List.length_eq_zero_iff.1 (Nat.le_zero.1 hfuel)
      subst hnil
      rw [turns, List.mem_singleton]
      constructor
      · intro h
        cases h
        exact ⟨[], rfl, .nil _⟩
      · rintro ⟨w, hw, hturns⟩
        obtain ⟨rfl, rfl⟩ := List.append_eq_nil_iff.1 hw.symm
        generalize hnil : ([] : List α) = w at hturns
        cases hturns with
        | nil => rfl
        | cons hne hu hv => exact absurd (List.append_eq_nil_iff.1 hnil.symm).1 hne
  | succ fuel ih =>
      rw [turns, List.mem_append, List.mem_flatMap, List.mem_singleton]
      constructor
      · rintro (⟨⟨mid, rest'⟩, hm, hmem⟩ | h)
        · rw [List.mem_filter, hstep, decide_eq_true_eq] at hm
          obtain ⟨⟨u, rfl, hu⟩, hlen⟩ := hm
          rw [List.length_append] at hfuel hlen
          obtain ⟨v, rfl, hv⟩ := (ih (by omega)).1 hmem
          have hne : u ≠ [] := by
            rintro rfl
            simp at hlen
          exact ⟨u ++ v, (List.append_assoc _ _ _).symm, .cons hne hu hv⟩
        · cases h
          exact ⟨[], rfl, .nil _⟩
      · rintro ⟨w, rfl, hturns⟩
        cases hturns with
        | nil => exact .inr rfl
        | @cons u v _ mid _ hne hu hv =>
            have hpos : 0 < u.length := List.length_pos_iff.2 hne
            simp only [List.length_append] at hfuel
            refine .inl ⟨(mid, v ++ rest), ?_, (ih ?_).2 ⟨v, rfl, hv⟩⟩
            · rw [List.mem_filter, hstep, decide_eq_true_eq]
              refine ⟨⟨u, List.append_assoc _ _ _, hu⟩, ?_⟩
              simp only [List.length_append]
              omega
            · simp only [List.length_append]
              omega

/-- The successes are the prefixes in the language. -/
theorem mem_run {r : Re α} {caps caps' : Caps α} {text rest : List α} :
    (caps', rest) ∈ r.run caps text ↔ ∃ w, text = w ++ rest ∧ r.Accepts w caps caps' := by
  induction r generalizing caps caps' text rest with
  | eps =>
      rw [run, List.mem_singleton]
      constructor
      · intro h
        cases h
        exact ⟨[], rfl, rfl, rfl⟩
      · rintro ⟨w, rfl, rfl, rfl⟩
        rfl
  | set p =>
      cases text with
      | nil =>
          rw [run]
          refine iff_of_false List.not_mem_nil ?_
          rintro ⟨w, hw, c, rfl, -⟩
          cases hw
      | cons c text =>
          rw [run]
          by_cases hp : p c = true
          · rw [if_pos hp, List.mem_singleton]
            constructor
            · intro h
              cases h
              exact ⟨[c], rfl, c, rfl, hp, rfl⟩
            · rintro ⟨w, hw, d, rfl, -, rfl⟩
              cases hw
              rfl
          · rw [if_neg hp]
            refine iff_of_false List.not_mem_nil ?_
            rintro ⟨w, hw, d, rfl, hd, -⟩
            cases hw
            exact hp hd
  | seq r s ihr ihs =>
      rw [run, List.mem_flatMap]
      constructor
      · rintro ⟨⟨mid, rest'⟩, hr, hs⟩
        obtain ⟨u, rfl, hu⟩ := ihr.1 hr
        obtain ⟨v, rfl, hv⟩ := ihs.1 hs
        exact ⟨u ++ v, (List.append_assoc _ _ _).symm, u, v, mid, rfl, hu, hv⟩
      · rintro ⟨w, rfl, u, v, mid, rfl, hu, hv⟩
        exact ⟨(mid, v ++ rest), ihr.2 ⟨u, List.append_assoc _ _ _, hu⟩, ihs.2 ⟨v, rfl, hv⟩⟩
  | alt r s ihr ihs =>
      rw [run, List.mem_append, ihr, ihs]
      constructor
      · rintro (⟨w, hw, h⟩ | ⟨w, hw, h⟩)
        · exact ⟨w, hw, .inl h⟩
        · exact ⟨w, hw, .inr h⟩
      · rintro ⟨w, hw, h | h⟩
        · exact .inl ⟨w, hw, h⟩
        · exact .inr ⟨w, hw, h⟩
  | star r ih =>
      rw [run]
      show _ ↔ ∃ w, text = w ++ rest ∧ Turns r.Accepts w caps caps'
      refine mem_turns ?_ (Nat.le_refl _)
      intro caps text caps' rest
      exact ih
  | group n r ih =>
      rw [run, List.mem_map]
      constructor
      · rintro ⟨⟨mid, rest'⟩, hm, h⟩
        obtain ⟨w, rfl, hw⟩ := ih.1 hm
        cases h
        refine ⟨w, rfl, mid, hw, ?_⟩
        rw [List.length_append, Nat.add_sub_cancel, List.take_left]
      · rintro ⟨w, rfl, mid, hw, rfl⟩
        refine ⟨(mid, rest), ih.2 ⟨w, rfl, hw⟩, ?_⟩
        rw [List.length_append, Nat.add_sub_cancel, List.take_left]

theorem match_accepts {r : Re α} {text rest : List α} {caps : Caps α}
    (h : r.match text = some (caps, rest)) : ∃ w, text = w ++ rest ∧ r.Accepts w [] caps :=
  mem_run.1 (List.mem_of_mem_head? h)

/-- There is no match just if no prefix is in the language. -/
theorem match_eq_none {r : Re α} {text : List α} : r.match text = none ↔
    ∀ w rest caps, text = w ++ rest → ¬ r.Accepts w [] caps := by
  rw [«match», List.head?_eq_none_iff, List.eq_nil_iff_forall_not_mem]
  constructor
  · rintro h w rest caps rfl hw
    exact h (caps, rest) (mem_run.2 ⟨w, rfl, hw⟩)
  · rintro h ⟨caps, rest⟩ hm
    obtain ⟨w, rfl, hw⟩ := mem_run.1 hm
    exact h w rest caps rfl hw

/-! ## Texts and sets of letters -/

section Letters

variable {p : α → Bool} {w : List α} {caps caps' : Caps α}

theorem accepts_seq {r s : Re α} : (seq r s).Accepts w caps caps' ↔
    ∃ u v mid, w = u ++ v ∧ r.Accepts u caps mid ∧ s.Accepts v mid caps' := Iff.rfl

theorem accepts_group {n : Nat} {r : Re α} : (group n r).Accepts w caps caps' ↔
    ∃ mid, r.Accepts w caps mid ∧ caps' = (n, w) :: mid := Iff.rfl

theorem accepts_opt {r : Re α} : (opt r).Accepts w caps caps' ↔
    r.Accepts w caps caps' ∨ w = [] ∧ caps' = caps := Iff.rfl

theorem accepts_lit [DecidableEq α] {a : List α} :
    (lit a).Accepts w caps caps' ↔ w = a ∧ caps' = caps := by
  induction a generalizing w with
  | nil => exact Iff.rfl
  | cons c rest ih =>
      rw [lit, accepts_seq]
      constructor
      · rintro ⟨u, v, mid, rfl, ⟨d, rfl, hd, rfl⟩, hv⟩
        obtain ⟨rfl, rfl⟩ := ih.1 hv
        rw [of_decide_eq_true hd]
        exact ⟨rfl, rfl⟩
      · rintro ⟨rfl, rfl⟩
        exact ⟨[c], rest, caps', rfl, ⟨c, rfl, decide_eq_true rfl, rfl⟩, ih.2 ⟨rfl, rfl⟩⟩

theorem accepts_star_set :
    (star (set p)).Accepts w caps caps' ↔ (∀ c ∈ w, p c = true) ∧ caps' = caps := by
  show Turns (set p).Accepts w caps caps' ↔ _
  constructor
  · intro h
    induction h with
    | nil => exact ⟨nofun, rfl⟩
    | cons hne hu _ ih =>
        obtain ⟨c, rfl, hc, rfl⟩ := hu
        exact ⟨List.forall_mem_cons.2 ⟨hc, ih.1⟩, ih.2⟩
  · rintro ⟨hall, rfl⟩
    induction w with
    | nil => exact .nil _
    | cons c w ih =>
        rw [List.forall_mem_cons] at hall
        exact .cons (List.cons_ne_nil c []) ⟨c, rfl, hall.1, rfl⟩ (ih hall.2)

theorem accepts_plus_set : (plus (set p)).Accepts w caps caps' ↔
    w ≠ [] ∧ (∀ c ∈ w, p c = true) ∧ caps' = caps := by
  rw [plus, accepts_seq]
  constructor
  · rintro ⟨u, v, mid, rfl, ⟨c, rfl, hc, rfl⟩, hv⟩
    obtain ⟨hall, rfl⟩ := accepts_star_set.1 hv
    exact ⟨List.cons_ne_nil c v, List.forall_mem_cons.2 ⟨hc, hall⟩, rfl⟩
  · rintro ⟨hne, hall, rfl⟩
    cases w with
    | nil => exact absurd rfl hne
    | cons c v =>
        rw [List.forall_mem_cons] at hall
        exact ⟨[c], v, caps', rfl, ⟨c, rfl, hall.1, rfl⟩, accepts_star_set.2 ⟨hall.2, rfl⟩⟩

/-- Letters of a set, one at least. -/
def Run (p : α → Bool) (w : List α) : Prop := w ≠ [] ∧ ∀ c ∈ w, p c = true

theorem Run.exists_cons (h : Run p w) : ∃ c rest, w = c :: rest ∧ p c = true := by
  obtain ⟨c, rest, rfl⟩ := List.exists_cons_of_ne_nil h.1
  exact ⟨c, rest, rfl, h.2 c List.mem_cons_self⟩

variable {s : Re α}

theorem accepts_lit_seq [DecidableEq α] {a : List α} : (seq (lit a) s).Accepts w caps caps' ↔
    ∃ v, w = a ++ v ∧ s.Accepts v caps caps' := by
  rw [accepts_seq]
  constructor
  · rintro ⟨u, v, mid, rfl, hu, hv⟩
    obtain ⟨rfl, rfl⟩ := accepts_lit.1 hu
    exact ⟨v, rfl, hv⟩
  · rintro ⟨v, rfl, hv⟩
    exact ⟨a, v, caps, rfl, accepts_lit.2 ⟨rfl, rfl⟩, hv⟩

theorem accepts_star_seq : (seq (star (set p)) s).Accepts w caps caps' ↔
    ∃ u v, w = u ++ v ∧ (∀ c ∈ u, p c = true) ∧ s.Accepts v caps caps' := by
  rw [accepts_seq]
  constructor
  · rintro ⟨u, v, mid, rfl, hu, hv⟩
    obtain ⟨hall, rfl⟩ := accepts_star_set.1 hu
    exact ⟨u, v, rfl, hall, hv⟩
  · rintro ⟨u, v, rfl, hu, hv⟩
    exact ⟨u, v, caps, rfl, accepts_star_set.2 ⟨hu, rfl⟩, hv⟩

theorem accepts_plus_seq : (seq (plus (set p)) s).Accepts w caps caps' ↔
    ∃ u v, w = u ++ v ∧ Run p u ∧ s.Accepts v caps caps' := by
  rw [accepts_seq]
  constructor
  · rintro ⟨u, v, mid, rfl, hu, hv⟩
    obtain ⟨hne, hall, rfl⟩ := accepts_plus_set.1 hu
    exact ⟨u, v, rfl, ⟨hne, hall⟩, hv⟩
  · rintro ⟨u, v, rfl, hu, hv⟩
    exact ⟨u, v, caps, rfl, accepts_plus_set.2 ⟨hu.1, hu.2, rfl⟩, hv⟩

theorem accepts_group_seq {n : Nat} {r : Re α} : (seq (group n r) s).Accepts w caps caps' ↔
    ∃ u v mid, w = u ++ v ∧ r.Accepts u caps mid ∧ s.Accepts v ((n, u) :: mid) caps' := by
  rw [accepts_seq]
  constructor
  · rintro ⟨u, v, mid, rfl, ⟨mid', hu, rfl⟩, hv⟩
    exact ⟨u, v, mid', rfl, hu, hv⟩
  · rintro ⟨u, v, mid, rfl, hu, hv⟩
    exact ⟨u, v, _, rfl, ⟨mid, hu, rfl⟩, hv⟩

end Letters

end Re

end Regex
