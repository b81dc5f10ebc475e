/-
`Qasm/Lines.lean` -- how a line is classified.

A statement begins with a word, and the word and the character after it decide which of the
patterns can match: a bracket stands after the register of a measurement or of a declaration,
a parenthesis or whitespace after the name of a gate (`Leads`).
-/
import CodaNode.Qasm.Patterns

set_option autoImplicit false

namespace CodaNode.Qasm

open Regex Regex.Re CodaNode.Ir

variable {py : Python} {line w rest name : Text} {caps caps' : Caps Char} {c : Char}

/-! ## The leading word -/

/-- The line begins with the word, and `c` follows it. -/
def Leads (py : Python) (line name : Text) (c : Char) : Prop :=
  ∃ rest, line = name ++ c :: rest ∧ Run py.is_word name ∧ py.is_word c = false

theorem takeWhile_word (hname : Run py.is_word name) (hc : py.is_word c = false) (rest : Text) :
    (name ++ c :: rest).takeWhile py.is_word = name := by
  rw [List.takeWhile_append_of_pos hname.2, List.takeWhile_cons_of_neg, List.append_nil]
  rw [hc]
  exact Bool.false_ne_true

theorem Leads.unique {name' : Text} {c' : Char} (h : Leads py line name c)
    (h' : Leads py line name' c') : name = name' ∧ c = c' := by
  obtain ⟨rest, hline, hname, hc⟩ := h
  obtain ⟨rest', hline', hname', hc'⟩ := h'
  have heq : name = name' := by
    rw [← takeWhile_word hname hc rest, ← hline, hline', takeWhile_word hname' hc']
  subst heq
  rw [hline] at hline'
  exact ⟨rfl, (List.cons.inj (List.append_cancel_left hline')).1⟩

theorem Leads.append (h : Leads py w name c) (rest : Text) : Leads py (w ++ rest) name c := by
  obtain ⟨v, rfl, hname, hc⟩ := h
  exact ⟨v ++ rest, by rw [List.append_assoc, List.cons_append], hname, hc⟩

/-- A literal word. -/
theorem run_word {s : String} (hne : s.toList ≠ [])
    (h : s.toList.all (fun c => c.toNat < 128 && (c.isAlphanum || c == '_')) = true) :
    Run py.is_word s.toList := by
  refine ⟨hne, fun c hc => ?_⟩
  have hboth := List.all_eq_true.1 h c hc
  rw [Bool.and_eq_true, decide_eq_true_eq] at hboth
  rw [is_word_ascii hboth.1, hboth.2]

/-- A word and what is not empty behind it. -/
theorem leads_of_head {v : Text} (hname : Run py.is_word name) (hhead : ∃ u, v = c :: u)
    (hc : py.is_word c = false) : Leads py (name ++ v) name c := by
  obtain ⟨u, rfl⟩ := hhead
  exact ⟨u, rfl, hname, hc⟩

theorem leads_spaces {s v : Text} (hname : Run py.is_word name) (hs : Run is_space s) :
    ∃ c, is_space c = true ∧ Leads py (name ++ (s ++ v)) name c := by
  obtain ⟨c, rest, rfl, hc⟩ := hs.exists_cons
  exact ⟨c, hc, rest ++ v, rfl, hname, is_space_not_word hc⟩

theorem leads_header (h : (header_re py).Accepts w caps caps') :
    ∃ c, is_space c = true ∧ Leads py w "OPENQASM".toList c := by
  obtain ⟨s, version, e, hs, -, -, rfl, -⟩ := accepts_header.1 h
  exact leads_spaces (run_word (by decide) (by decide)) hs

theorem leads_include (h : include_re.Accepts w caps caps') :
    ∃ c, is_space c = true ∧ Leads py w "include".toList c := by
  obtain ⟨s, file, e, hs, -, -, rfl, -⟩ := accepts_include.1 h
  exact leads_spaces (run_word (by decide) (by decide)) hs

theorem leads_register {type : String} (htype : Run py.is_word type.toList)
    (h : (register_re py type).Accepts w caps caps') : Leads py w type.toList '[' := by
  obtain ⟨count, s, name, e, -, -, -, -, rfl, -⟩ := accepts_register.1 h
  exact ⟨_, rfl, htype, IsSign.not_word (by decide)⟩

theorem leads_bit (h : (bit_decl_re py).Accepts w caps caps') : Leads py w "bit".toList '[' :=
  leads_register (run_word (by decide) (by decide)) h

theorem leads_qubit (h : (qubit_decl_re py).Accepts w caps caps') : Leads py w "qubit".toList '[' :=
  leads_register (run_word (by decide) (by decide)) h

theorem leads_measure (h : (measure_re py).Accepts w caps caps') : ∃ name, Leads py w name '[' := by
  obtain ⟨bit, qubit, s₁, s₂, s₃, e, hbit, -, -, -, -, -, rfl, -⟩ := accepts_measure.1 h
  rw [Ref.text, List.append_assoc]
  exact ⟨bit.register, _, rfl, hbit.1, IsSign.not_word (by decide)⟩

theorem leads_gate (h : (gate_re py).Accepts w caps caps') :
    ∃ name c, (c = '(' ∨ is_space c = true) ∧ Leads py w name c := by
  obtain ⟨name, params, s, operands, refs, e, hname, -, hs, -, -, rfl, -⟩ := accepts_gate.1 h
  cases params with
  | none =>
      obtain ⟨c, hc, hleads⟩ := leads_spaces hname hs
      exact ⟨name, c, .inr hc, hleads⟩
  | some p => exact ⟨name, '(', .inl rfl, _, rfl, hname, IsSign.not_word (by decide)⟩

/-! ## Patterns that do not match -/

theorem match_none_of_leads {r : Re Char} (h : ∀ w caps, r.Accepts w [] caps →
    ∀ rest, line = w ++ rest → False) : r.match line = none := by
  rw [match_eq_none]
  intro w rest caps hline hw
  exact h w caps hw rest hline

theorem match_header_none (h : Leads py line name c) (hne : name ≠ "OPENQASM".toList) :
    (header_re py).match line = none := by
  apply match_none_of_leads
  rintro w caps hw rest rfl
  obtain ⟨d, -, hd⟩ := leads_header hw
  exact hne (h.unique (hd.append rest)).1

theorem match_include_none (h : Leads py line name c) (hne : name ≠ "include".toList) :
    include_re.match line = none := by
  apply match_none_of_leads
  rintro w caps hw rest rfl
  obtain ⟨d, -, hd⟩ := leads_include hw
  exact hne (h.unique (hd.append rest)).1

theorem match_bit_none (h : Leads py line name c) (hne : c ≠ '[' ∨ name ≠ "bit".toList) :
    (bit_decl_re py).match line = none := by
  apply match_none_of_leads
  rintro w caps hw rest rfl
  obtain ⟨hname, hc⟩ := h.unique ((leads_bit hw).append rest)
  exact hne.elim (fun hne => hne hc) fun hne => hne hname

theorem match_qubit_none (h : Leads py line name c) (hne : c ≠ '[' ∨ name ≠ "qubit".toList) :
    (qubit_decl_re py).match line = none := by
  apply match_none_of_leads
  rintro w caps hw rest rfl
  obtain ⟨hname, hc⟩ := h.unique ((leads_qubit hw).append rest)
  exact hne.elim (fun hne => hne hc) fun hne => hne hname

theorem match_measure_none (h : Leads py line name c) (hne : c ≠ '[') :
    (measure_re py).match line = none := by
  apply match_none_of_leads
  rintro w caps hw rest rfl
  obtain ⟨name', hleads⟩ := leads_measure hw
  exact hne (h.unique (hleads.append rest)).2

/-- A line with a leading word is neither blank nor a comment. -/
theorem Leads.not_comment (h : Leads py line name c) :
    (line.isEmpty || "//".toList.isPrefixOf line) = false := by
  obtain ⟨rest, rfl, hname, -⟩ := h
  obtain ⟨d, name', rfl, hd⟩ := hname.exists_cons
  have hslash : ('/' == d) = false := by
    rw [beq_eq_false_iff_ne]
    rintro rfl
    rw [IsSign.not_word (by decide)] at hd
    cases hd
  show (false || (('/' == d) && _)) = false
  rw [hslash, Bool.false_and, Bool.or_false]

/-! ## The branches -/

theorem not_skipped (h : Leads py line name c)
    (hname : name ≠ "OPENQASM".toList ∧ name ≠ "include".toList)
    (hbit : c ≠ '[' ∨ name ≠ "bit".toList) : is_skipped py line = false := by
  rw [is_skipped, h.not_comment, match_header_none h hname.1, match_include_none h hname.2,
    match_bit_none h hbit]
  rfl

/-- A gate, by its name. -/
theorem read_gate (target : String) (h : Leads py w name c) (hc : c ≠ '[')
    (hname : name ≠ "OPENQASM".toList ∧ name ≠ "include".toList)
    (hw : (gate_re py).Accepts w [] caps) (rest : Text) :
    read_line py target (w ++ rest) = read_gate_line py target caps := by
  have hleads := h.append rest
  rw [read_line, not_skipped hleads hname (.inl hc), if_neg Bool.false_ne_true,
    match_qubit_none hleads (.inl hc), match_measure_none hleads hc, match_eq unambiguous_gate rest hw]

/-- A measurement, by its register. -/
theorem read_measure (target : String) (h : Leads py w name '[')
    (hname : name ≠ "OPENQASM".toList ∧ name ≠ "include".toList)
    (htype : name ≠ "bit".toList ∧ name ≠ "qubit".toList)
    (hw : (measure_re py).Accepts w [] caps) (rest : Text) :
    read_line py target (w ++ rest) = read_measure_line py caps := by
  have hleads := h.append rest
  rw [read_line, not_skipped hleads hname (.inr htype.1), if_neg Bool.false_ne_true,
    match_qubit_none hleads (.inr htype.2), match_eq unambiguous_measure rest hw]

/-- A declaration of qubits. -/
theorem read_qubit (target : String) (hw : (qubit_decl_re py).Accepts w [] caps) (rest : Text) :
    read_line py target (w ++ rest) = .ok (.register (captured caps 1)) := by
  have hleads := (leads_qubit hw).append rest
  have hskip : is_skipped py (w ++ rest) = false :=
    not_skipped hleads ⟨by decide, by decide⟩ (.inr (by decide))
  have hmatch : (qubit_decl_re py).match (w ++ rest) = some (caps, rest) :=
    match_eq (unambiguous_register "qubit") rest hw
  rw [read_line, hskip, if_neg Bool.false_ne_true, hmatch]

/-- What is passed over. -/
theorem read_skipped (target : String) (h : (header_re py).Accepts w [] caps ∨
    include_re.Accepts w [] caps ∨ (bit_decl_re py).Accepts w [] caps) (rest : Text) :
    read_line py target (w ++ rest) = .ok .skip := by
  have hskip : is_skipped py (w ++ rest) = true := by
    rw [is_skipped]
    rcases h with h | h | h
    · rw [match_isSome rest h, Bool.or_true, Bool.true_or, Bool.true_or]
    · rw [match_isSome rest h, Bool.or_true, Bool.true_or]
    · rw [match_isSome rest h, Bool.or_true]
  rw [read_line, hskip, if_pos rfl]

end CodaNode.Qasm
