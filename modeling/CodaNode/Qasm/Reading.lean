/-
`Qasm/Reading.lean` -- what the parser makes of a text with one statement on a line.

A pattern matches the start of a line, and what stands behind the match is not looked at: what the
parser takes is what the lines begin with (`openqasm_to_ir_heads`). Where a line is one statement,
there is nothing behind it but a comment, so that the line says what it begins with. From the lines
follows the program (`openqasm_to_ir_says`): its gates are the operations of the IR, in order, and
its measurements the measured qubits.
-/
import CodaNode.Qasm.Statements

set_option autoImplicit false

namespace CodaNode.Qasm

open Regex Regex.Re CodaNode.Ir

variable {py : Python} {w : Text}

/-! ## Letters -/

theorem is_word_inert {c : Char} (h : py.is_word c = true) : c ≠ '/' ∧ c ≠ '"' ∧ c ≠ ';' := by
  have hsign : ∀ d, IsSign d → c ≠ d := by
    rintro d hd rfl
    rw [hd.not_word] at h
    cases h
  exact ⟨hsign '/' (by decide), hsign '"' (by decide), hsign ';' (by decide)⟩

theorem is_space_inert {c : Char} (h : is_space c = true) : c ≠ '/' ∧ c ≠ '"' ∧ c ≠ ';' := by
  refine ⟨?_, ?_, ?_⟩ <;> rintro rfl <;> cases h

theorem inert_word (h : Run py.is_word w) : Inert w := fun c hc => is_word_inert (h.2 c hc)

theorem inert_digits (h : Run py.is_digit w) : Inert w :=
  fun c hc => is_word_inert (is_word_of_digit (h.2 c hc))

theorem inert_spaces (h : Spaces w) : Inert w := fun c hc => is_space_inert (h c hc)

theorem inert_of_all (h : w.all (fun c => c != '/' && (c != '"' && c != ';')) = true) : Inert w := by
  intro c hc
  simpa using List.all_eq_true.1 h c hc

theorem Ref.Valid.inert {r : Ref} (h : r.Valid py) : Inert r.text :=
  (inert_word h.1).append ((inert_of_all rfl).append ((inert_digits h.2).append (inert_of_all rfl)))

theorem Tail.inert {refs : List Ref} (h : Tail py w refs) : Inert w := by
  induction h with
  | nil => exact nofun
  | cons ha hb hr _ ih =>
      exact ((inert_spaces ha).append ((inert_of_all rfl).append
        ((inert_spaces hb).append hr.inert))).append ih

theorem Operands.inert {refs : List Ref} (h : Operands py w refs) : Inert w := by
  obtain ⟨r, rest, t, hr, ht, rfl, -⟩ := h
  exact hr.inert.append ht.inert

theorem mem_strip {c : Char} (h : c ∈ w) : is_space c = true ∨ c ∈ strip w := by
  by_cases hspace : is_space c = true
  · exact .inl hspace
  rw [Bool.not_eq_true] at hspace
  right
  have hfront : c ∈ w.dropWhile is_space := by
    have hmem : c ∈ w.takeWhile is_space ++ w.dropWhile is_space := by
      rwa [List.takeWhile_append_dropWhile]
    rcases List.mem_append.1 hmem with hmem | hmem
    · have hall := List.mem_takeWhile_imp hmem
      rw [hspace] at hall
      cases hall
    · exact hmem
  have hback : c ∈ (w.dropWhile is_space).reverse.takeWhile is_space ++
      (w.dropWhile is_space).reverse.dropWhile is_space := by
    rw [List.takeWhile_append_dropWhile]
    exact List.mem_reverse.2 hfront
  rcases List.mem_append.1 hback with hmem | hmem
  · have hall := List.mem_takeWhile_imp hmem
    rw [hspace] at hall
    cases hall
  · exact List.mem_reverse.2 hmem

/-- Numbers and the commas between them. -/
theorem Numeric.inert {params : Text} (h : Numeric py params) : Inert params := by
  by_cases hempty : params = []
  · rw [hempty]
    exact nofun
  intro c hc
  have hjoined : c ∈ [','].intercalate (params.splitOn ',') := by
    rwa [List.intercalate_splitOn]
  rcases mem_of_mem_intercalate hjoined with hcomma | ⟨p, hp, hcp⟩
  · rw [List.mem_singleton.1 hcomma]
    decide
  rcases mem_strip hcp with hspace | hstrip
  · exact is_space_inert hspace
  obtain ⟨x, hx⟩ := Option.isSome_iff_exists.1 (h hempty p hp)
  rcases py.parse_chars _ _ hx c hstrip with halnum | hspace | hsign
  · apply is_word_inert
    rw [Python.is_word, halnum, Bool.true_or]
  · exact is_space_inert hspace
  · have hall : "_.+-".toList.all (fun c => c != '/' && (c != '"' && c != ';')) = true := by decide
    simpa using List.all_eq_true.1 hall c hsign

/-! ## Lines -/

/-- A statement of the subset ends at its first semicolon. -/
theorem Statement.Spells.scan_append {s : Statement} (h : s.Spells py w)
    (hparams : ∀ g, s = .gate g → Inert (g.params.getD [])) (rest : Text) :
    scan .code (w ++ rest) = (scan .code rest).close w := by
  have hbody : ∀ {body : Text}, Inert body → w = body ++ [';'] →
      scan .code (w ++ rest) = (scan .code rest).close w := by
    rintro body hinert rfl
    exact scan_statement hinert rest
  have hdeclares : ∀ {type : String} {count register : Text}, Inert type.toList →
      Declares py type count register w → scan .code (w ++ rest) = (scan .code rest).close w := by
    rintro type count register htype ⟨s, e, hcount, hs, hregister, he, hw⟩
    have hinert : Inert (type.toList ++ ("[".toList ++ (count ++ ("]".toList ++ (s ++
        (register ++ e)))))) :=
      htype.append ((inert_of_all rfl).append ((inert_digits hcount).append ((inert_of_all rfl).append
        ((inert_spaces hs.2).append ((inert_word hregister).append (inert_spaces he))))))
    apply hbody hinert
    simpa only [List.append_assoc] using hw
  cases s with
  | header =>
      obtain ⟨s, version, e, hs, hversion, he, hw, -⟩ := accepts_header.1 h
      have hnumber : Inert version := by
        intro c hc
        have hletter := hversion.2 c hc
        simp only [Bool.or_eq_true, beq_iff_eq] at hletter
        rcases hletter with hdigit | rfl
        · exact is_word_inert (is_word_of_digit hdigit)
        · decide
      have hinert : Inert ("OPENQASM".toList ++ (s ++ (version ++ e))) :=
        (inert_of_all (by decide)).append ((inert_spaces hs.2).append
          (hnumber.append (inert_spaces he)))
      apply hbody hinert
      simpa only [List.append_assoc] using hw
  | inclusion =>
      obtain ⟨s, file, e, hs, hfile, he, rfl, -⟩ := accepts_include.1 h
      have hbefore : Inert ("include".toList ++ s) :=
        (inert_of_all (by decide)).append (inert_spaces hs.2)
      have hstring := scan_string hbefore (fun c hc => bne_iff_ne.1 (hfile.2 c hc))
        (inert_spaces he) rest
      simpa only [List.append_assoc] using hstring
  | bits count register => exact hdeclares (inert_of_all (by decide)) h
  | qubits count register => exact hdeclares (inert_of_all (by decide)) h
  | measurement bit qubit =>
      obtain ⟨s₁, s₂, s₃, e, hbit, hqubit, hs₁, hs₂, hs₃, he, hw⟩ := h
      have hinert : Inert (bit.text ++ (s₁ ++ ("=".toList ++ (s₂ ++ ("measure".toList ++ (s₃ ++
          (qubit.text ++ e))))))) :=
        hbit.inert.append ((inert_spaces hs₁).append ((inert_of_all rfl).append
          ((inert_spaces hs₂).append ((inert_of_all (by decide)).append
            ((inert_spaces hs₃.2).append (hqubit.inert.append (inert_spaces he)))))))
      apply hbody hinert
      simpa only [List.append_assoc] using hw
  | gate g =>
      obtain ⟨s, operands, e, hname, -, hs, hoperands, he, hw⟩ := h
      have hparen : Inert (paren g.params) := by
        have hp := hparams g rfl
        cases hcase : g.params with
        | none =>
            intro c hc
            cases hc
        | some p =>
            rw [hcase] at hp
            exact (inert_of_all rfl).append (hp.append (inert_of_all rfl))
      have hinert : Inert (g.name ++ (paren g.params ++ (s ++ (operands ++ e)))) :=
        (inert_word hname).append (hparen.append ((inert_spaces hs.2).append
          (hoperands.inert.append (inert_spaces he))))
      apply hbody hinert
      simpa only [List.append_assoc] using hw

/-- A statement begins with a word. -/
theorem Statement.Spells.exists_leads {s : Statement} (h : s.Spells py w) :
    ∃ name c, Leads py w name c := by
  have hleading := h.leads
  cases s with
  | header =>
      obtain ⟨c, -, hc⟩ := hleading
      exact ⟨_, c, hc⟩
  | inclusion =>
      obtain ⟨c, -, hc⟩ := hleading
      exact ⟨_, c, hc⟩
  | bits count register => exact ⟨_, _, hleading⟩
  | qubits count register => exact ⟨_, _, hleading⟩
  | measurement bit qubit =>
      obtain ⟨name, hname⟩ := hleading
      exact ⟨name, _, hname⟩
  | gate g =>
      obtain ⟨name, c, -, hc⟩ := hleading
      exact ⟨name, c, hc⟩

/-- There is no whitespace around a statement. -/
theorem Statement.Spells.strip_eq {s : Statement} (h : s.Spells py w) : strip w = w := by
  have hlast : ∃ init, w = init ++ [';'] := by
    cases s with
    | header =>
        obtain ⟨s, version, e, -, -, -, rfl, -⟩ := accepts_header.1 h
        exact ⟨"OPENQASM".toList ++ (s ++ (version ++ e)), by simp only [List.append_assoc]⟩
    | inclusion =>
        obtain ⟨s, file, e, -, -, -, rfl, -⟩ := accepts_include.1 h
        exact ⟨"include".toList ++ (s ++ ("\"".toList ++ (file ++ ("\"".toList ++ e)))),
          by simp only [List.append_assoc]⟩
    | bits count register =>
        obtain ⟨s, e, -, -, -, -, rfl⟩ := h
        exact ⟨"bit".toList ++ ("[".toList ++ (count ++ ("]".toList ++ (s ++ (register ++ e))))),
          by simp only [List.append_assoc]⟩
    | qubits count register =>
        obtain ⟨s, e, -, -, -, -, rfl⟩ := h
        exact ⟨"qubit".toList ++ ("[".toList ++ (count ++ ("]".toList ++ (s ++ (register ++ e))))),
          by simp only [List.append_assoc]⟩
    | measurement bit qubit =>
        obtain ⟨s₁, s₂, s₃, e, -, -, -, -, -, -, rfl⟩ := h
        exact ⟨bit.text ++ (s₁ ++ ("=".toList ++ (s₂ ++ ("measure".toList ++ (s₃ ++
          (qubit.text ++ e)))))), by simp only [List.append_assoc]⟩
    | gate g =>
        obtain ⟨s, operands, e, -, -, -, -, -, rfl⟩ := h
        exact ⟨g.name ++ (paren g.params ++ (s ++ (operands ++ e))),
          by simp only [List.append_assoc]⟩
  obtain ⟨name, c, rest, hw, hname, -⟩ := h.exists_leads
  obtain ⟨a, tail, rfl, ha⟩ := hname.exists_cons
  obtain ⟨init, hinit⟩ := hlast
  have hstrip : strip (w ++ []) = w :=
    strip_append ⟨a, tail ++ c :: rest, hw, is_word_not_space ha⟩ ⟨init, ';', hinit, rfl⟩ nofun
  rwa [List.append_nil] at hstrip

/-- A line that begins with a statement and is one statement holds that statement. -/
theorem holds_of_spells {s : Statement} (h : s.Spells py w)
    (hparams : ∀ g, s = .gate g → Inert (g.params.getD [])) {rest : Text}
    (hone : OneStatement (w ++ rest)) : Holds py (w ++ rest) (some s) := by
  obtain ⟨-, hcount, -⟩ := hone
  rw [h.scan_append hparams] at hcount
  have hnone : (scan .code rest).statements = [] := by
    apply List.length_eq_zero_iff.1
    have hlength : ((scan .code rest).close w).statements.length =
        (scan .code rest).statements.length + 1 := List.length_cons
    omega
  refine ⟨w, ?_, ?_⟩
  · rw [h.scan_append hparams]
    show w :: (scan .code rest).statements = [w]
    rw [hnone]
  · rwa [h.strip_eq]

/-! ## What the parser takes -/

/-- The numbers in the parentheses of the gate. -/
def GateStatement.values (py : Python) (g : GateStatement) : List Float64 :=
  param_values py (g.params.getD [])

/-- The indices of the operands of the gate. -/
def GateStatement.qubits (py : Python) (g : GateStatement) : List Int :=
  g.operands.map fun r => (int_value py r.index : Int)

/-- The gate is taken as this operation. -/
structure TakesGate (py : Python) (target : String) (g : GateStatement) (op : GateOp) : Prop where
  numeric : Numeric py (g.params.getD [])
  mapped : mapped py target (String.ofList g.name) (g.values py) = some (op.gate, op.params)
  qubits : op.qubits = g.qubits py

/-- What stands on a line is taken as this item. -/
def Takes (py : Python) (target : String) : Option Statement → Item → Prop
  | some (.qubits count _), .register count' => count' = count
  | some (.measurement _ qubit), .measurement q => q = int_value py qubit.index
  | some (.gate g), .gate op => TakesGate py target g op
  | none, .skip => True
  | some .header, .skip => True
  | some .inclusion, .skip => True
  | some (.bits _ _), .skip => True
  | _, _ => False

/-- A gate that is taken has numbers for parameters, and becomes what its name is mapped to. -/
theorem read_gate_line_ok {target : String} {g : GateStatement} {operands : Text}
    (hoperands : Operands py operands g.operands) {item : Item}
    (h : read_gate_line py target
      ((3, operands) :: ((g.params.map fun p => (2, p)).toList ++ [(1, g.name)])) = .ok item) :
    ∃ op, item = .gate op ∧ TakesGate py target g op := by
  obtain ⟨name, params, refs⟩ := g
  obtain ⟨values, hvalues, h⟩ := bind_ok.1 h
  obtain ⟨qubits, hqubits, h⟩ := bind_ok.1 h
  obtain ⟨op, hop, h⟩ := bind_ok.1 h
  cases h
  have hparams : parse_params py (params.getD []) = .ok values := by
    cases params <;> exact hvalues
  have hname : openqasm_gate_to_ir py (String.ofList name) values qubits target = .ok op := by
    cases params <;> exact hop
  have hrefs : parse_qubits py operands = .ok qubits := hqubits
  rcases parse_params_cases py (params.getD []) with ⟨hnumeric, hok⟩ | ⟨-, message, herror⟩
  swap
  · rw [herror] at hparams
    cases hparams
  rw [hok] at hparams
  cases hparams
  rcases parse_qubits_cases py operands with ⟨-, hok'⟩ | ⟨-, message, herror⟩
  swap
  · rw [herror] at hrefs
    cases hrefs
  rw [hok'] at hrefs
  cases hrefs
  refine ⟨op, rfl, ?_⟩
  rcases gate_to_ir_cases py (String.ofList name) target (param_values py (params.getD []))
    ((indices py operands).map fun i => (int_value py i : Int)) with
    ⟨-, message, herror⟩ | ⟨gate, ps, hmapped, hgate⟩
  · rw [herror] at hname
    cases hname
  rw [hgate] at hname
  obtain ⟨rfl, hindices, rfl⟩ := validate_gate_shape_ok.1 (mapError_ok.1 hname)
  refine ⟨hnumeric, hmapped, ?_⟩
  rw [hindices, indices, findall_operands hoperands, List.map_map, List.map_map]
  rfl

/-- The numbers of a gate are inert. -/
def Statement.Tame (s : Statement) : Prop := ∀ g, s = .gate g → Inert (g.params.getD [])

theorem tame_of_not_gate {s : Statement} (h : ∀ g, s ≠ .gate g) : s.Tame := fun g hg =>
  absurd hg (h g)

/-- What a line begins with: nothing or a comment, or a statement. -/
def Head (py : Python) (line : Text) : Option Statement → Prop
  | none => line = [] ∨ "//".toList <+: line
  | some s => ∃ w rest, line = w ++ rest ∧ s.Spells py w ∧ s.Tame

/-- **What the parser takes from a line is what the line begins with.** -/
theorem exists_head {target : String} {line : Text} {item : Item}
    (hread : read_line py target line = .ok item) :
    ∃ s, Head py line s ∧ Takes py target s item := by
  unfold read_line at hread
  by_cases hskip : is_skipped py line = true
  · rw [if_pos hskip] at hread
    cases hread
    simp only [is_skipped, Bool.or_eq_true] at hskip
    rcases hskip with (((hblank | hcomment) | hheader) | hinclude) | hbits
    · exact ⟨none, .inl (List.isEmpty_iff.1 hblank), trivial⟩
    · exact ⟨none, .inr (List.isPrefixOf_iff_prefix.1 hcomment), trivial⟩
    · obtain ⟨⟨caps, rest⟩, hm⟩ := Option.isSome_iff_exists.1 hheader
      obtain ⟨w, hw, haccepts⟩ := match_accepts hm
      obtain ⟨_, _, _, _, _, _, _, rfl⟩ := accepts_header.1 haccepts
      exact ⟨some .header, ⟨w, rest, hw, haccepts, tame_of_not_gate (by simp)⟩, trivial⟩
    · obtain ⟨⟨caps, rest⟩, hm⟩ := Option.isSome_iff_exists.1 hinclude
      obtain ⟨w, hw, haccepts⟩ := match_accepts hm
      obtain ⟨_, _, _, _, _, _, _, rfl⟩ := accepts_include.1 haccepts
      exact ⟨some .inclusion, ⟨w, rest, hw, haccepts, tame_of_not_gate (by simp)⟩, trivial⟩
    · obtain ⟨⟨caps, rest⟩, hm⟩ := Option.isSome_iff_exists.1 hbits
      obtain ⟨w, hw, haccepts⟩ := match_accepts hm
      obtain ⟨count, s, register, e, hcount, hs, hregister, he, hspell, -⟩ :=
        accepts_register.1 haccepts
      exact ⟨some (.bits count register), ⟨w, rest, hw, ⟨s, e, hcount, hs, hregister, he, hspell⟩,
        tame_of_not_gate (by simp)⟩, trivial⟩
  rw [if_neg hskip] at hread
  cases hqubit : (qubit_decl_re py).match line with
  | some m =>
      rw [hqubit] at hread
      obtain ⟨w, hw, haccepts⟩ := match_accepts hqubit
      obtain ⟨count, s, register, e, hcount, hs, hregister, he, hspell, hcaps⟩ :=
        accepts_register.1 haccepts
      cases hread
      refine ⟨some (.qubits count register), ⟨w, m.2, hw, ⟨s, e, hcount, hs, hregister, he, hspell⟩,
        tame_of_not_gate (by simp)⟩, ?_⟩
      rw [hcaps]
      rfl
  | none =>
      rw [hqubit] at hread
      cases hmeasure : (measure_re py).match line with
      | some m =>
          rw [hmeasure] at hread
          obtain ⟨w, hw, haccepts⟩ := match_accepts hmeasure
          obtain ⟨bit, qubit, s₁, s₂, s₃, e, hbit, hqubit, hs₁, hs₂, hs₃, he, hspell, hcaps⟩ :=
            accepts_measure.1 haccepts
          refine ⟨some (.measurement bit qubit), ⟨w, m.2, hw,
            ⟨s₁, s₂, s₃, e, hbit, hqubit, hs₁, hs₂, hs₃, he, hspell⟩,
            tame_of_not_gate (by simp)⟩, ?_⟩
          obtain ⟨q, hq, hitem⟩ := bind_ok.1 hread
          cases hitem
          rw [hcaps] at hq
          rcases parse_int_cases py qubit.index with ⟨-, hok⟩ | ⟨-, message, herror⟩
          · exact Except.ok.inj (hq.symm.trans hok)
          · have hboth := hq.symm.trans herror
            cases hboth
      | none =>
          rw [hmeasure] at hread
          cases hgate : (gate_re py).match line with
          | none =>
              rw [hgate] at hread
              cases hread
          | some m =>
              rw [hgate] at hread
              obtain ⟨w, hw, haccepts⟩ := match_accepts hgate
              obtain ⟨name, params, s, operands, refs, e, hname, hp, hs, hrefs, he, hspell, hcaps⟩ :=
                accepts_gate.1 haccepts
              change read_gate_line py target m.1 = .ok item at hread
              rw [hcaps] at hread
              obtain ⟨op, rfl, hop⟩ := read_gate_line_ok (g := ⟨name, params, refs⟩) hrefs hread
              refine ⟨some (.gate ⟨name, params, refs⟩), ⟨w, m.2, hw,
                ⟨s, operands, e, hname, hp, hs, hrefs, he, hspell⟩, ?_⟩, hop⟩
              rintro g hg
              cases hg
              exact hop.numeric.inert

/-- What a line begins with is what it says, if it is one statement. -/
theorem Head.holds {line : Text} {s : Option Statement} (h : Head py line s)
    (hbreak : '\n' ∉ line) (hone : OneStatement line) : Holds py line s := by
  cases s with
  | none =>
      rcases h with rfl | ⟨rest, rfl⟩
      · rfl
      · have hrest : '\n' ∉ rest := fun hmem => hbreak (List.mem_append_right _ hmem)
        show (((scan .line_comment rest).prepend []).prepend []).statements = []
        rw [Scan.prepend_nil, Scan.prepend_nil, scan_comment hrest]
  | some s =>
      obtain ⟨w, rest, rfl, hspells, htame⟩ := h
      exact holds_of_spells hspells htame hone

/-! ## Programs -/

/-- The gate that stands on a line. -/
def gate_statement : Option Statement → Option GateStatement
  | some (.gate g) => some g
  | _ => none

/-- The name of the register that is declared on a line. -/
def qubit_register : Option Statement → Option Text
  | some (.qubits _ register) => some register
  | _ => none

/-- The qubit that is measured on a line. -/
def measured_qubit : Option Statement → Option Ref
  | some (.measurement _ qubit) => some qubit
  | _ => none

/-- What the parser has collected after these lines is what it had and what they say. -/
structure Collected (py : Python) (target : String) (parsed : Parsed)
    (program : List (Option Statement)) (parsed' : Parsed) : Prop where
  gates : ∃ ops, parsed'.gates = parsed.gates ++ ops ∧
    List.Forall₂ (TakesGate py target) (program.filterMap gate_statement) ops
  measurements : parsed'.measurements = parsed.measurements ++
    (program.filterMap measured_qubit).map fun r => (int_value py r.index : Int)
  registers : (program.filterMap qubit_register).length + parsed.num_qubits.toList.length =
    parsed'.num_qubits.toList.length

theorem collected_nil (target : String) (parsed : Parsed) :
    Collected py target parsed [] parsed where
  gates := ⟨[], (List.append_nil _).symm, .nil⟩
  measurements := (List.append_nil _).symm
  registers := Nat.zero_add _

/-- What one line adds. -/
theorem collected_line {target : String} {parsed parsed₁ parsed' : Parsed} {s : Option Statement}
    {item : Item} {program : List (Option Statement)} (htakes : Takes py target s item)
    (htake : take_item py parsed item = .ok parsed₁)
    (h : Collected py target parsed₁ program parsed') :
    Collected py target parsed (s :: program) parsed' := by
  obtain ⟨⟨ops, hgates, hops⟩, hmeasurements, hregisters⟩ := h
  have hskip : item = .skip → gate_statement s = none → measured_qubit s = none →
      qubit_register s = none → Collected py target parsed (s :: program) parsed' := by
    rintro rfl hgate hqubit hregister
    cases htake
    refine ⟨⟨ops, hgates, ?_⟩, ?_, ?_⟩
    · rwa [List.filterMap_cons_none hgate]
    · rwa [List.filterMap_cons_none hqubit]
    · rwa [List.filterMap_cons_none hregister]
  match s, item, htakes with
  | none, .skip, _ => exact hskip rfl rfl rfl rfl
  | some .header, .skip, _ => exact hskip rfl rfl rfl rfl
  | some .inclusion, .skip, _ => exact hskip rfl rfl rfl rfl
  | some (.bits _ _), .skip, _ => exact hskip rfl rfl rfl rfl
  | some (.qubits count register), .register count', _ =>
      -- the number is only taken where there was none
      change (if parsed.num_qubits.isSome = true then _ else _) = _ at htake
      by_cases hsome : parsed.num_qubits.isSome = true
      · rw [if_pos hsome] at htake
        cases htake
      rw [if_neg hsome] at htake
      obtain ⟨n, -, htake⟩ := bind_ok.1 htake
      cases htake
      refine ⟨⟨ops, hgates, hops⟩, hmeasurements, ?_⟩
      rw [Option.not_isSome_iff_eq_none] at hsome
      have hlength : (program.filterMap qubit_register).length + 1 =
          parsed'.num_qubits.toList.length := hregisters
      rw [hsome, ← hlength]
      rfl
  | some (.measurement bit qubit), .measurement q, hq =>
      cases htake
      refine ⟨⟨ops, hgates, hops⟩, ?_, hregisters⟩
      rw [hmeasurements, show q = int_value py qubit.index from hq, List.append_assoc]
      rfl
  | some (.gate g), .gate op, hop =>
      cases htake
      refine ⟨⟨op :: ops, ?_, .cons hop hops⟩, hmeasurements, hregisters⟩
      rw [hgates, List.append_assoc]
      rfl

theorem collected_heads {target : String} {lines : List Text} {parsed parsed' : Parsed}
    (h : lines.foldlM (parse_line py target) parsed = .ok parsed') :
    ∃ heads, List.Forall₂ (Head py) (lines.map strip) heads ∧
      Collected py target parsed heads parsed' := by
  induction lines generalizing parsed with
  | nil =>
      cases h
      exact ⟨[], .nil, collected_nil target _⟩
  | cons line lines ih =>
      rw [List.foldlM_cons] at h
      obtain ⟨parsed₁, hline, h⟩ := bind_ok.1 h
      obtain ⟨item, hitem, htake⟩ := bind_ok.1 hline
      obtain ⟨s, hs, htakes⟩ := exists_head hitem
      obtain ⟨heads, hheads, hcollected⟩ := ih h
      exact ⟨s :: heads, .cons hs hheads, collected_line htakes htake hcollected⟩

theorem strip_subset (line : Text) : ∀ c ∈ strip line, c ∈ line := by
  intro c hc
  have hfront : c ∈ line.dropWhile is_space :=
    (List.rdropWhile_prefix is_space (line.dropWhile is_space)).subset hc
  exact (List.dropWhile_suffix is_space).subset hfront

/-- No line break stands in a line. -/
theorem unbroken_lines {text line : Text} (h : line ∈ splitlines text) : '\n' ∉ strip line := by
  have hfree : ∀ c ∈ line, is_linebreak c = false := by
    cases hs : splitlines text with
    | nil =>
        rw [hs] at h
        cases h
    | cons first lines =>
        rw [hs] at h
        rcases List.mem_cons.1 h with rfl | hmem
        · obtain ⟨post, -, hfirst, -⟩ := splitlines_head hs
          exact hfirst
        · have htail : line ∈ (splitlines text).tail := by rwa [hs]
          obtain ⟨pre, c, post, -, -, hlater, -⟩ := mem_splitlines_tail htail
          exact hlater
  intro hc
  have hbreak := hfree '\n' (strip_subset line '\n' hc)
  cases hbreak

/-- What the lines begin with. -/
def Heads (py : Python) (qasm : Text) (heads : List (Option Statement)) : Prop :=
  List.Forall₂ (Head py) (source_lines qasm) heads

/-- **What the parser makes of a text**: the operations of the IR are the gates that lines begin
with, and the measured qubits those of the measurements that lines begin with. -/
theorem openqasm_to_ir_heads {qasm : Text} {target now : String} {metadata : Option IRMetadata}
    {ir : NativeGateIR} (h : openqasm_to_ir py qasm target metadata now = .ok ir) :
    ∃ heads, Heads py qasm heads ∧ ir.target = target ∧
      List.Forall₂ (TakesGate py target) (heads.filterMap gate_statement) ir.gates ∧
      (ir.measurements =
        (heads.filterMap measured_qubit).map fun r => (int_value py r.index : Int)) ∧
      ∃ register, heads.filterMap qubit_register = [register] := by
  obtain ⟨parsed, hparsed, hnum, htarget, hgates, hmeasurements, -⟩ := openqasm_to_ir_ok.1 h
  obtain ⟨heads, hheads, ⟨ops, hops, htakes⟩, hqubits, hregisters⟩ := collected_heads hparsed
  rw [hnum] at hregisters
  refine ⟨heads, hheads, htarget, ?_, ?_, List.length_eq_one_iff.1 hregisters⟩
  · rw [hgates, hops]
    exact htakes
  · rw [hmeasurements, hqubits]
    rfl

/-- **What the parser makes of a text with one statement on a line**: the operations of the IR
are its gates and the measured qubits those of its measurements, and it declares one register of
qubits. -/
theorem openqasm_to_ir_says {qasm : Text} {target now : String} {metadata : Option IRMetadata}
    {ir : NativeGateIR} (hlines : OnePerLine qasm)
    (h : openqasm_to_ir py qasm target metadata now = .ok ir) :
    ∃ program, Says py qasm program ∧ ir.target = target ∧
      List.Forall₂ (TakesGate py target) (program.filterMap gate_statement) ir.gates ∧
      (ir.measurements =
        (program.filterMap measured_qubit).map fun r => (int_value py r.index : Int)) ∧
      ∃ register, program.filterMap qubit_register = [register] := by
  obtain ⟨heads, hheads, htarget, hrest⟩ := openqasm_to_ir_heads h
  refine ⟨heads, ?_, htarget, hrest⟩
  -- the lines are those that the heads are of
  have hall : ∀ line ∈ source_lines qasm, '\n' ∉ line ∧ OneStatement line := by
    intro line hline
    refine ⟨?_, hlines line hline⟩
    obtain ⟨raw, hraw, rfl⟩ := List.mem_map.1 hline
    exact unbroken_lines hraw
  clear hrest
  unfold Says
  unfold Heads at hheads
  generalize source_lines qasm = lines at hheads hall
  induction hheads with
  | nil => exact .nil
  | cons hhead _ ih =>
      rw [List.forall_mem_cons] at hall
      exact .cons (hhead.holds hall.1.1 hall.1.2) (ih hall.2)

end CodaNode.Qasm
