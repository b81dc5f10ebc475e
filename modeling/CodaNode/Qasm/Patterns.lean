/-
`Qasm/Patterns.lean` -- what the patterns match.

Every pattern of the parser that captures something matches in one way only: after each
repetition comes a letter that the repetition does not take. So a match can be read off any
decomposition of the text (`match_eq`), and the decompositions are written out here.
-/
import CodaNode.Qasm.Parser

set_option autoImplicit false

namespace CodaNode.Qasm

open Regex Regex.Re CodaNode.Ir

variable {py : Python} {w rest : Text} {caps caps' : Caps Char}

/-! ## Letters -/

theorem is_word_ascii {c : Char} (h : c.toNat < 128) :
    py.is_word c = (c.isAlphanum || c == '_') := by
  rw [Python.is_word, py.is_alnum_ascii c h]

theorem is_digit_ascii {c : Char} (h : c.toNat < 128) : py.is_digit c = c.isDigit := by
  rw [Python.is_digit, py.decimal_ascii c h]
  by_cases hd : c.isDigit = true
  · rw [if_pos hd, hd]
    rfl
  · rw [if_neg hd, Bool.eq_false_iff.2 hd]
    rfl

theorem is_word_of_digit {c : Char} (h : py.is_digit c = true) : py.is_word c = true := by
  rw [Python.is_word, py.is_alnum_of_decimal c h, Bool.true_or]

theorem is_word_not_space {c : Char} (h : py.is_word c = true) : is_space c = false := by
  rw [Python.is_word, Bool.or_eq_true] at h
  rcases h with h | h
  · exact py.is_alnum_not_space c h
  · rw [beq_iff_eq.1 h]
    rfl

theorem is_space_not_word {c : Char} (h : is_space c = true) : py.is_word c = false := by
  rw [Bool.eq_false_iff]
  intro hw
  rw [is_word_not_space hw] at h
  cases h

/-- A sign that is neither a letter nor a digit nor an underscore. -/
def IsSign (c : Char) : Prop := c.toNat < 128 ∧ (c.isAlphanum || c == '_') = false

instance (c : Char) : Decidable (IsSign c) := inferInstanceAs (Decidable (_ ∧ _))

theorem IsSign.not_word {c : Char} (h : IsSign c) : py.is_word c = false := by
  rw [is_word_ascii h.1, h.2]

theorem IsSign.not_digit {c : Char} (h : IsSign c) : py.is_digit c = false := by
  rw [Bool.eq_false_iff]
  intro hd
  have hw : py.is_word c = true := is_word_of_digit hd
  rw [h.not_word] at hw
  cases hw

/-! ## One way only -/

theorem starts_text (c : Char) {s : String} {rest : Text} (h : s.toList = c :: rest) :
    Starts (text s) (fun d => d = c) := by
  rw [text, h]
  exact starts_lit

/-- A word or a number before a sign. -/
theorem unambiguous_before {k : Re Char} {p : Char → Bool} {c : Char}
    (hk : Starts k (fun d => d = c)) (hc : p c = false) : Unambiguous (.plus (.set p)) k := by
  apply Unambiguous.plus_set hk
  intro d hd
  rw [of_decide_eq_true hd]
  exact hc

theorem starts_maybe_spaces {k : Re Char} {c : Char} (hk : Starts k (fun d => d = c)) :
    Starts (.seq maybe_spaces k) (fun d => is_space d || d = c) := by
  apply Starts.star_seq
  · apply Starts.imp starts_set
    intro d hd
    rw [hd, Bool.true_or]
  · apply hk.imp
    intro d hd
    rw [hd, Bool.or_true]

theorem starts_terminator : Starts terminator (fun d => is_space d || d = ';') :=
  starts_maybe_spaces (starts_text ';' rfl)

/-- A word before whitespace or a sign. -/
theorem unambiguous_word {k : Re Char} {c : Char} (hk : Starts k (fun d => is_space d || d = c))
    (hc : IsSign c) : Unambiguous (word py) k := by
  apply Unambiguous.plus_set hk
  intro d hd
  rw [Bool.or_eq_true, decide_eq_true_eq] at hd
  rcases hd with hd | rfl
  · exact is_space_not_word hd
  · exact hc.not_word

/-- Whitespace before a word. -/
theorem unambiguous_spaces {k : Re Char} (hk : Starts k py.is_word) : Unambiguous spaces k :=
  Unambiguous.plus_set hk fun _ hd => is_word_not_space hd

/-- Whitespace that may be missing, before a sign. -/
theorem unambiguous_maybe_spaces {k : Re Char} {c : Char} (hk : Starts k (fun d => d = c))
    (hc : is_space c = false) : Unambiguous maybe_spaces k := by
  apply Unambiguous.star_set hk
  intro d hd
  rw [of_decide_eq_true hd]
  exact hc

theorem starts_word : Starts (word py) py.is_word := Starts.seq starts_set

theorem unambiguous_terminator : Unambiguous terminator .eps :=
  .seq (unambiguous_maybe_spaces (Starts.seq (starts_text ';' rfl)) rfl) .lit

theorem unambiguous_register (type : String) : Unambiguous (register_re py type) .eps := by
  apply Unambiguous.seq .lit
  apply Unambiguous.seq .lit
  apply Unambiguous.seq
  · apply Unambiguous.group
    exact unambiguous_before (.seq (.seq (starts_text ']' rfl))) (IsSign.not_digit (by decide))
  apply Unambiguous.seq .lit
  apply Unambiguous.seq (unambiguous_spaces (.seq (.seq starts_word)))
  apply Unambiguous.seq (unambiguous_word (.seq starts_terminator) (by decide))
  exact unambiguous_terminator

/-- `\w+\[(\d+)]`, with or without the group. -/
theorem unambiguous_ref {n : Re Char} {k : Re Char} (hn : ∀ k, Starts k (fun d => d = ']') →
    Unambiguous n k) :
    Unambiguous (.seq (word py) (.seq (text "[") (.seq n (text "]")))) k := by
  apply Unambiguous.seq
  · exact unambiguous_before (.seq (.seq (starts_text '[' rfl))) (IsSign.not_word (by decide))
  apply Unambiguous.seq .lit
  apply Unambiguous.seq
  · exact hn _ (.seq (starts_text ']' rfl))
  · exact .lit

theorem unambiguous_index {k : Re Char} (hk : Starts k (fun d => d = ']')) :
    Unambiguous (digits py) k := unambiguous_before hk (IsSign.not_digit (by decide))

theorem unambiguous_operand {k : Re Char} : Unambiguous (operand py) k :=
  unambiguous_ref fun _ hk => unambiguous_index hk

theorem unambiguous_qubit_ref {k : Re Char} : Unambiguous (qubit_ref_re py) k :=
  unambiguous_ref fun _ hk => .group (unambiguous_index hk)

theorem unambiguous_measure : Unambiguous (measure_re py) .eps := by
  apply Unambiguous.seq
  · exact unambiguous_before (.seq (.seq (starts_text '[' rfl))) (IsSign.not_word (by decide))
  apply Unambiguous.seq .lit
  apply Unambiguous.seq (.group (unambiguous_index (.seq (.seq (starts_text ']' rfl)))))
  apply Unambiguous.seq .lit
  apply Unambiguous.seq (unambiguous_maybe_spaces (.seq (.seq (starts_text '=' rfl))) rfl)
  apply Unambiguous.seq .lit
  apply Unambiguous.seq (unambiguous_maybe_spaces (.seq (.seq (starts_text 'm' rfl))) rfl)
  apply Unambiguous.seq .lit
  apply Unambiguous.seq (unambiguous_spaces (.seq (.seq starts_word)))
  apply Unambiguous.seq
  · exact unambiguous_before (.seq (.seq (starts_text '[' rfl))) (IsSign.not_word (by decide))
  apply Unambiguous.seq .lit
  apply Unambiguous.seq (.group (unambiguous_index (.seq (.seq (starts_text ']' rfl)))))
  apply Unambiguous.seq .lit
  exact unambiguous_terminator

/-- After an operand comes a comma or the end. -/
theorem next_operand_disjoint {k : Re Char} {text : Text}
    (h : (Re.seq (next_operand py) k).Can text) : ¬ (Re.seq terminator .eps).Can text := by
  intro h'
  have hcomma : Starts (Re.seq (.seq (Qasm.text ",") (.seq maybe_spaces (operand py))) k)
      (fun d => d = ',') := .seq (.seq (starts_text ',' rfl))
  have hend : Starts (Re.seq (Qasm.text ";") .eps) (fun d => d = ';') :=
    .seq (starts_text ';' rfl)
  have hspace : ∀ {c : Char}, is_space c = false → ∀ d, decide (d = c) = true →
      is_space d = false := fun hc d hd => by rwa [of_decide_eq_true hd]
  have hcan := (can_star_set hcomma (hspace rfl)).1 (can_assoc.1 h)
  have hcan' := (can_star_set hend (hspace rfl)).1 (can_assoc.1 h')
  refine hcomma.disjoint hend (fun c hc => ?_) hcan hcan'
  rw [of_decide_eq_true hc]
  rfl

theorem starts_spaces : Starts spaces is_space := Starts.seq starts_set

theorem starts_parameters : Starts parameters (fun d => d = '(') := .seq (starts_text '(' rfl)

theorem starts_operand : Starts (operand py) py.is_word := .seq starts_word

/-- The parameters, if there are any, before whitespace. -/
theorem unambiguous_parameters {k : Re Char} (hk : Starts k is_space) :
    Unambiguous (.opt parameters) k := by
  apply Unambiguous.opt
  · apply Unambiguous.seq .lit
    apply Unambiguous.seq
    · apply Unambiguous.group
      apply Unambiguous.star_set (.seq (starts_text ')' rfl))
      intro d hd
      rw [of_decide_eq_true hd]
      rfl
    · exact .lit
  · intro text h hspace
    refine Starts.disjoint hk (.seq starts_parameters) (fun c hc => ?_) hspace h
    rw [decide_eq_false_iff_not]
    rintro rfl
    cases hc

theorem unambiguous_next_operand {k : Re Char} : Unambiguous (next_operand py) k := by
  apply Unambiguous.seq (unambiguous_maybe_spaces (.seq (.seq (starts_text ',' rfl))) rfl)
  apply Unambiguous.seq .lit
  apply Unambiguous.seq
  · exact Unambiguous.star_set (.seq starts_operand) fun _ hd => is_word_not_space hd
  · exact unambiguous_operand

theorem unambiguous_gate : Unambiguous (gate_re py) .eps := by
  apply Unambiguous.seq
  · apply Unambiguous.group
    refine unambiguous_word (c := '(') (.seq (.opt_seq ?_ (.seq ?_))) (by decide)
    · apply starts_parameters.imp
      intro d hd
      rw [hd, Bool.or_true]
    · apply starts_spaces.imp
      intro d hd
      rw [hd, Bool.true_or]
  apply Unambiguous.seq (unambiguous_parameters (.seq (.seq starts_spaces)))
  apply Unambiguous.seq (unambiguous_spaces (.seq (.seq (.group (.seq starts_operand)))))
  apply Unambiguous.seq
  · apply Unambiguous.group
    apply Unambiguous.seq unambiguous_operand
    exact Unambiguous.star unambiguous_next_operand fun text h => next_operand_disjoint h
  · exact unambiguous_terminator

/-! ## What is matched -/

/-- Whitespace, or nothing. -/
def Spaces (w : Text) : Prop := ∀ c ∈ w, is_space c = true

theorem accepts_terminator : terminator.Accepts w caps caps' ↔
    ∃ e, Spaces e ∧ w = e ++ [';'] ∧ caps' = caps := by
  unfold terminator maybe_spaces text
  rw [accepts_star_seq]
  constructor
  · rintro ⟨e, v, rfl, he, hv⟩
    obtain ⟨rfl, rfl⟩ := accepts_lit.1 hv
    exact ⟨e, he, rfl, rfl⟩
  · rintro ⟨e, he, rfl, rfl⟩
    exact ⟨e, _, rfl, he, accepts_lit.2 ⟨rfl, rfl⟩⟩

theorem accepts_header : (header_re py).Accepts w caps caps' ↔
    ∃ s version e, Run is_space s ∧ Run (fun c => py.is_digit c || c == '.') version ∧ Spaces e ∧
      w = "OPENQASM".toList ++ (s ++ (version ++ (e ++ [';']))) ∧ caps' = caps := by
  unfold header_re spaces text
  rw [accepts_lit_seq]
  constructor
  · rintro ⟨v, rfl, h⟩
    obtain ⟨s, v, rfl, hs, h₁⟩ := accepts_plus_seq.1 h
    obtain ⟨version, v, rfl, hversion, h₂⟩ := accepts_plus_seq.1 h₁
    obtain ⟨e, he, rfl, rfl⟩ := accepts_terminator.1 h₂
    exact ⟨s, version, e, hs, hversion, he, rfl, rfl⟩
  · rintro ⟨s, version, e, hs, hversion, he, rfl, rfl⟩
    exact ⟨_, rfl, accepts_plus_seq.2 ⟨s, _, rfl, hs, accepts_plus_seq.2 ⟨version, _, rfl, hversion,
      accepts_terminator.2 ⟨e, he, rfl, rfl⟩⟩⟩⟩

theorem accepts_include : include_re.Accepts w caps caps' ↔
    ∃ s file e, Run is_space s ∧ Run (· != '"') file ∧ Spaces e ∧
      w = "include".toList ++ (s ++ ("\"".toList ++ (file ++ ("\"".toList ++ (e ++ [';']))))) ∧
      caps' = caps := by
  unfold include_re spaces text
  rw [accepts_lit_seq]
  constructor
  · rintro ⟨v, rfl, h⟩
    obtain ⟨s, v, rfl, hs, h₁⟩ := accepts_plus_seq.1 h
    obtain ⟨v, rfl, h₂⟩ := accepts_lit_seq.1 h₁
    obtain ⟨file, v, rfl, hfile, h₃⟩ := accepts_plus_seq.1 h₂
    obtain ⟨v, rfl, h₄⟩ := accepts_lit_seq.1 h₃
    obtain ⟨e, he, rfl, rfl⟩ := accepts_terminator.1 h₄
    exact ⟨s, file, e, hs, hfile, he, rfl, rfl⟩
  · rintro ⟨s, file, e, hs, hfile, he, rfl, rfl⟩
    exact ⟨_, rfl, accepts_plus_seq.2 ⟨s, _, rfl, hs, accepts_lit_seq.2 ⟨_, rfl,
      accepts_plus_seq.2 ⟨file, _, rfl, hfile, accepts_lit_seq.2 ⟨_, rfl,
        accepts_terminator.2 ⟨e, he, rfl, rfl⟩⟩⟩⟩⟩⟩

/-- A captured number. -/
theorem accepts_index {n : Nat} {k : Re Char} :
    (Re.seq (.group n (digits py)) (.seq (text "]") k)).Accepts w caps caps' ↔
      ∃ index v, Run py.is_digit index ∧ w = index ++ ("]".toList ++ v) ∧
        k.Accepts v ((n, index) :: caps) caps' := by
  rw [accepts_group_seq]
  constructor
  · rintro ⟨index, v, mid, rfl, hindex, h⟩
    obtain ⟨hne, hall, rfl⟩ := accepts_plus_set.1 hindex
    obtain ⟨v, rfl, h₁⟩ := accepts_lit_seq.1 h
    exact ⟨index, v, ⟨hne, hall⟩, rfl, h₁⟩
  · rintro ⟨index, v, hindex, rfl, h⟩
    exact ⟨index, _, _, rfl, accepts_plus_set.2 ⟨hindex.1, hindex.2, rfl⟩,
      accepts_lit_seq.2 ⟨v, rfl, h⟩⟩

theorem accepts_register {type : String} : (register_re py type).Accepts w caps caps' ↔
    ∃ count s name e, Run py.is_digit count ∧ Run is_space s ∧ Run py.is_word name ∧ Spaces e ∧
      w = type.toList ++ ("[".toList ++ (count ++ ("]".toList ++ (s ++ (name ++ (e ++ [';'])))))) ∧
      caps' = (1, count) :: caps := by
  unfold register_re spaces word
  rw [text, accepts_lit_seq]
  constructor
  · rintro ⟨v, rfl, h⟩
    obtain ⟨v, rfl, h₁⟩ := accepts_lit_seq.1 h
    obtain ⟨count, v, hcount, rfl, h₂⟩ := accepts_index.1 h₁
    obtain ⟨s, v, rfl, hs, h₃⟩ := accepts_plus_seq.1 h₂
    obtain ⟨name, v, rfl, hname, h₄⟩ := accepts_plus_seq.1 h₃
    obtain ⟨e, he, rfl, rfl⟩ := accepts_terminator.1 h₄
    exact ⟨count, s, name, e, hcount, hs, hname, he, rfl, rfl⟩
  · rintro ⟨count, s, name, e, hcount, hs, hname, he, rfl, rfl⟩
    exact ⟨_, rfl, accepts_lit_seq.2 ⟨_, rfl, accepts_index.2 ⟨count, _, hcount, rfl,
      accepts_plus_seq.2 ⟨s, _, rfl, hs, accepts_plus_seq.2 ⟨name, _, rfl, hname,
        accepts_terminator.2 ⟨e, he, rfl, rfl⟩⟩⟩⟩⟩⟩

/-- A reference to a bit of a register. -/
structure Ref where
  register : Text
  index : Text

def Ref.text (r : Ref) : Text := r.register ++ ("[".toList ++ (r.index ++ "]".toList))

/-- The register is a word and the index a number. -/
def Ref.Valid (py : Python) (r : Ref) : Prop := Run py.is_word r.register ∧ Run py.is_digit r.index

theorem accepts_measure : (measure_re py).Accepts w caps caps' ↔
    ∃ (bit qubit : Ref) (s₁ s₂ s₃ e : Text), bit.Valid py ∧ qubit.Valid py ∧ Spaces s₁ ∧
      Spaces s₂ ∧ Run is_space s₃ ∧ Spaces e ∧
      w = bit.text ++ (s₁ ++ ("=".toList ++ (s₂ ++ ("measure".toList ++ (s₃ ++ (qubit.text ++
        (e ++ [';'])))))))  ∧
      caps' = (2, qubit.index) :: (1, bit.index) :: caps := by
  unfold measure_re spaces maybe_spaces word
  rw [accepts_plus_seq]
  constructor
  · rintro ⟨register, v, rfl, hregister, h⟩
    obtain ⟨v, rfl, h₁⟩ := accepts_lit_seq.1 h
    obtain ⟨index, v, hindex, rfl, h₂⟩ := accepts_index.1 h₁
    obtain ⟨s₁, v, rfl, hs₁, h₃⟩ := accepts_star_seq.1 h₂
    obtain ⟨v, rfl, h₄⟩ := accepts_lit_seq.1 h₃
    obtain ⟨s₂, v, rfl, hs₂, h₅⟩ := accepts_star_seq.1 h₄
    obtain ⟨v, rfl, h₆⟩ := accepts_lit_seq.1 h₅
    obtain ⟨s₃, v, rfl, hs₃, h₇⟩ := accepts_plus_seq.1 h₆
    obtain ⟨register', v, rfl, hregister', h₈⟩ := accepts_plus_seq.1 h₇
    obtain ⟨v, rfl, h₉⟩ := accepts_lit_seq.1 h₈
    obtain ⟨index', v, hindex', rfl, h₁₀⟩ := accepts_index.1 h₉
    obtain ⟨e, he, rfl, rfl⟩ := accepts_terminator.1 h₁₀
    refine ⟨⟨register, index⟩, ⟨register', index'⟩, s₁, s₂, s₃, e, ⟨hregister, hindex⟩,
      ⟨hregister', hindex'⟩, hs₁, hs₂, hs₃, he, ?_, rfl⟩
    simp only [Ref.text, List.append_assoc]
  · rintro ⟨bit, qubit, s₁, s₂, s₃, e, hbit, hqubit, hs₁, hs₂, hs₃, he, rfl, rfl⟩
    simp only [Ref.text, List.append_assoc]
    exact ⟨bit.register, _, rfl, hbit.1, accepts_lit_seq.2 ⟨_, rfl, accepts_index.2 ⟨bit.index, _,
      hbit.2, rfl, accepts_star_seq.2 ⟨s₁, _, rfl, hs₁, accepts_lit_seq.2 ⟨_, rfl,
      accepts_star_seq.2 ⟨s₂, _, rfl, hs₂, accepts_lit_seq.2 ⟨_, rfl, accepts_plus_seq.2 ⟨s₃, _,
      rfl, hs₃, accepts_plus_seq.2 ⟨qubit.register, _, rfl, hqubit.1, accepts_lit_seq.2 ⟨_, rfl,
      accepts_index.2 ⟨qubit.index, _, hqubit.2, rfl,
        accepts_terminator.2 ⟨e, he, rfl, rfl⟩⟩⟩⟩⟩⟩⟩⟩⟩⟩⟩⟩

/-! ## Operands -/

theorem accepts_operand : (operand py).Accepts w caps caps' ↔
    ∃ r : Ref, r.Valid py ∧ w = r.text ∧ caps' = caps := by
  unfold operand word digits text
  rw [accepts_plus_seq]
  constructor
  · rintro ⟨register, v, rfl, hregister, h⟩
    obtain ⟨v, rfl, h₁⟩ := accepts_lit_seq.1 h
    obtain ⟨index, v, rfl, hindex, h₂⟩ := accepts_plus_seq.1 h₁
    obtain ⟨rfl, rfl⟩ := accepts_lit.1 h₂
    exact ⟨⟨register, index⟩, ⟨hregister, hindex⟩, rfl, rfl⟩
  · rintro ⟨r, hr, rfl, rfl⟩
    exact ⟨r.register, _, rfl, hr.1, accepts_lit_seq.2 ⟨_, rfl, accepts_plus_seq.2 ⟨r.index, _, rfl,
      hr.2, accepts_lit.2 ⟨rfl, rfl⟩⟩⟩⟩

theorem accepts_qubit_ref {r : Ref} (hr : r.Valid py) :
    (qubit_ref_re py).Accepts r.text [] [(1, r.index)] := by
  unfold qubit_ref_re word text
  exact accepts_plus_seq.2 ⟨r.register, _, rfl, hr.1, accepts_lit_seq.2 ⟨_, rfl,
    accepts_group_seq.2 ⟨r.index, _, [], rfl, accepts_plus_set.2 ⟨hr.2.1, hr.2.2, rfl⟩,
      accepts_lit.2 ⟨rfl, rfl⟩⟩⟩⟩

/-- Further operands, each after a comma. -/
inductive Tail (py : Python) : Text → List Ref → Prop where
  | nil : Tail py [] []
  | cons {a b t : Text} {r : Ref} {refs : List Ref} (ha : Spaces a) (hb : Spaces b)
      (hr : r.Valid py) (ht : Tail py t refs) :
      Tail py (a ++ (",".toList ++ (b ++ r.text)) ++ t) (r :: refs)

theorem accepts_next_operand : (next_operand py).Accepts w caps caps' ↔
    ∃ (a b : Text) (r : Ref), Spaces a ∧ Spaces b ∧ r.Valid py ∧ w = a ++ (",".toList ++ (b ++ r.text)) ∧
      caps' = caps := by
  unfold next_operand maybe_spaces text
  rw [accepts_star_seq]
  constructor
  · rintro ⟨a, v, rfl, ha, h⟩
    obtain ⟨v, rfl, h₁⟩ := accepts_lit_seq.1 h
    obtain ⟨b, v, rfl, hb, h₂⟩ := accepts_star_seq.1 h₁
    obtain ⟨r, hr, rfl, rfl⟩ := accepts_operand.1 h₂
    exact ⟨a, b, r, ha, hb, hr, rfl, rfl⟩
  · rintro ⟨a, b, r, ha, hb, hr, rfl, rfl⟩
    exact ⟨a, _, rfl, ha, accepts_lit_seq.2 ⟨_, rfl, accepts_star_seq.2 ⟨b, _, rfl, hb,
      accepts_operand.2 ⟨r, hr, rfl, rfl⟩⟩⟩⟩

theorem accepts_tail : (Re.star (next_operand py)).Accepts w caps caps' ↔
    ∃ refs, Tail py w refs ∧ caps' = caps := by
  show Turns (next_operand py).Accepts w caps caps' ↔ _
  constructor
  · intro h
    induction h with
    | nil => exact ⟨[], .nil, rfl⟩
    | cons hne hu _ ih =>
        obtain ⟨a, b, r, ha, hb, hr, rfl, rfl⟩ := accepts_next_operand.1 hu
        obtain ⟨refs, ht, rfl⟩ := ih
        exact ⟨r :: refs, .cons ha hb hr ht, rfl⟩
  · rintro ⟨refs, ht, rfl⟩
    induction ht with
    | nil => exact .nil _
    | cons ha hb hr _ ih =>
        refine .cons ?_ (accepts_next_operand.2 ⟨_, _, _, ha, hb, hr, rfl, rfl⟩) ih
        exact List.append_ne_nil_of_right_ne_nil _ (List.cons_ne_nil _ _)

/-- The operands of a gate: one at least. -/
def Operands (py : Python) (w : Text) (refs : List Ref) : Prop :=
  ∃ (r : Ref) (rest : List Ref) (t : Text), r.Valid py ∧ Tail py t rest ∧ w = r.text ++ t ∧ refs = r :: rest

theorem accepts_operands : (Re.seq (operand py) (.star (next_operand py))).Accepts w caps caps' ↔
    ∃ refs, Operands py w refs ∧ caps' = caps := by
  rw [accepts_seq]
  constructor
  · rintro ⟨u, v, mid, rfl, hu, hv⟩
    obtain ⟨r, hr, rfl, rfl⟩ := accepts_operand.1 hu
    obtain ⟨refs, ht, rfl⟩ := accepts_tail.1 hv
    exact ⟨r :: refs, ⟨r, refs, v, hr, ht, rfl, rfl⟩, rfl⟩
  · rintro ⟨refs, ⟨r, rest, t, hr, ht, rfl, rfl⟩, rfl⟩
    exact ⟨r.text, t, _, rfl, accepts_operand.2 ⟨r, hr, rfl, rfl⟩, accepts_tail.2 ⟨rest, ht, rfl⟩⟩

/-- The parameters, with their parentheses. -/
def paren : Option Text → Text
  | none => []
  | some params => "(".toList ++ (params ++ ")".toList)

theorem accepts_parameters : (Re.opt parameters).Accepts w caps caps' ↔
    ∃ params, (∀ p ∈ params, ∀ c ∈ p, c ≠ ')') ∧ w = paren params ∧
      caps' = (params.map fun p => (2, p)).toList ++ caps := by
  unfold parameters text
  rw [accepts_opt, accepts_lit_seq]
  constructor
  · rintro (⟨v, rfl, h⟩ | ⟨rfl, rfl⟩)
    · obtain ⟨p, v, mid, rfl, hp, h₁⟩ := accepts_group_seq.1 h
      obtain ⟨hall, rfl⟩ := accepts_star_set.1 hp
      obtain ⟨rfl, rfl⟩ := accepts_lit.1 h₁
      refine ⟨some p, fun q hq c hc => ?_, rfl, rfl⟩
      cases hq
      exact bne_iff_ne.1 (hall c hc)
    · exact ⟨none, nofun, rfl, rfl⟩
  · rintro ⟨params, hparams, rfl, rfl⟩
    cases params with
    | none => exact .inr ⟨rfl, rfl⟩
    | some p =>
        exact .inl ⟨_, rfl, accepts_group_seq.2 ⟨p, _, _, rfl,
          accepts_star_set.2 ⟨fun c hc => bne_iff_ne.2 (hparams p rfl c hc), rfl⟩,
          accepts_lit.2 ⟨rfl, rfl⟩⟩⟩

theorem accepts_gate : (gate_re py).Accepts w caps caps' ↔
    ∃ name params s operands refs e, Run py.is_word name ∧ (∀ p ∈ params, ∀ c ∈ p, c ≠ ')') ∧
      Run is_space s ∧ Operands py operands refs ∧ Spaces e ∧
      w = name ++ (paren params ++ (s ++ (operands ++ (e ++ [';'])))) ∧
      caps' = (3, operands) :: ((params.map fun p => (2, p)).toList ++ (1, name) :: caps) := by
  unfold gate_re word spaces
  rw [accepts_group_seq]
  constructor
  · rintro ⟨name, v, mid, rfl, hname, h⟩
    obtain ⟨hne, hall, rfl⟩ := accepts_plus_set.1 hname
    obtain ⟨u, v, mid, rfl, hparams, h₁⟩ := accepts_seq.1 h
    obtain ⟨params, hp, rfl, rfl⟩ := accepts_parameters.1 hparams
    obtain ⟨s, v, rfl, hs, h₂⟩ := accepts_plus_seq.1 h₁
    obtain ⟨operands, v, mid, rfl, hoperands, h₃⟩ := accepts_group_seq.1 h₂
    obtain ⟨refs, hrefs, rfl⟩ := accepts_operands.1 hoperands
    obtain ⟨e, he, rfl, rfl⟩ := accepts_terminator.1 h₃
    exact ⟨name, params, s, operands, refs, e, ⟨hne, hall⟩, hp, hs, hrefs, he, rfl, rfl⟩
  · rintro ⟨name, params, s, operands, refs, e, hname, hp, hs, hrefs, he, rfl, rfl⟩
    exact ⟨name, _, _, rfl, accepts_plus_set.2 ⟨hname.1, hname.2, rfl⟩, accepts_seq.2 ⟨_, _, _, rfl,
      accepts_parameters.2 ⟨params, hp, rfl, rfl⟩, accepts_plus_seq.2 ⟨s, _, rfl, hs,
      accepts_group_seq.2 ⟨operands, _, _, rfl, accepts_operands.2 ⟨refs, hrefs, rfl⟩,
      accepts_terminator.2 ⟨e, he, rfl, rfl⟩⟩⟩⟩⟩

/-! ## The operands that are found -/

theorem Spaces.not_word {a : Text} (ha : Spaces a) : ∀ c ∈ a, py.is_word c = false :=
  fun c hc => is_space_not_word (ha c hc)

theorem Ref.text_ne_nil {r : Ref} : r.text ≠ [] :=
  List.append_ne_nil_of_right_ne_nil _ (List.cons_ne_nil _ _)

theorem starts_qubit_ref : Starts (qubit_ref_re py) py.is_word := .seq starts_word

theorem findall_ref {fuel : Nat} {r : Ref} (hr : r.Valid py) (rest : Text) :
    (qubit_ref_re py).findall (fuel + 1) (r.text ++ rest) =
      [(1, r.index)] :: (qubit_ref_re py).findall fuel rest :=
  findall_match unambiguous_qubit_ref rest Ref.text_ne_nil (accepts_qubit_ref hr)

theorem findall_tail {fuel : Nat} {t : Text} {refs : List Ref} (ht : Tail py t refs)
    (hfuel : t.length ≤ fuel) :
    (qubit_ref_re py).findall fuel t = refs.map fun r => [(1, r.index)] := by
  induction ht generalizing fuel with
  | nil => exact findall_nil
  | @cons a b t r refs ha hb hr _ ih =>
      have hpre : ∀ c ∈ a ++ (",".toList ++ b), py.is_word c = false := by
        intro c hc
        simp only [List.mem_append] at hc
        rcases hc with hc | hc | hc
        · exact ha.not_word c hc
        · rw [List.mem_singleton.1 hc]
          exact IsSign.not_word (by decide)
        · exact hb.not_word c hc
      have hpos : 0 < r.text.length := List.length_pos_iff.2 Ref.text_ne_nil
      have hsplit : a ++ (",".toList ++ (b ++ r.text)) ++ t =
          a ++ (",".toList ++ b) ++ (r.text ++ t) := by
        simp only [List.append_assoc]
      rw [hsplit] at hfuel ⊢
      simp only [List.length_append] at hfuel
      obtain ⟨fuel', rfl⟩ : ∃ fuel', fuel = fuel' + 1 + (a ++ (",".toList ++ b)).length :=
        ⟨fuel - 1 - (a ++ (",".toList ++ b)).length, by simp only [List.length_append]; omega⟩
      rw [findall_skip starts_qubit_ref hpre, findall_ref hr, ih]
      · rfl
      · simp only [List.length_append] at hfuel
        omega

theorem findall_operands {refs : List Ref} (h : Operands py w refs) :
    (qubit_ref_re py).findall w.length w = refs.map fun r => [(1, r.index)] := by
  obtain ⟨r, rest, t, hr, ht, rfl, rfl⟩ := h
  have hpos : 0 < r.text.length := List.length_pos_iff.2 Ref.text_ne_nil
  obtain ⟨fuel, hfuel⟩ : ∃ fuel, (r.text ++ t).length = fuel + 1 :=
    ⟨(r.text ++ t).length - 1, by rw [List.length_append]; omega⟩
  rw [hfuel, findall_ref hr, findall_tail ht]
  · rfl
  · rw [List.length_append] at hfuel
    omega

end CodaNode.Qasm
