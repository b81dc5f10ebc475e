/-
`Qasm/Errors.lean` -- which texts make the parser raise what.

Only the validation of the whole program stands in the `try` statement of the source. A number
that cannot be read and a gate of the wrong shape are met before it, so that the `ValueError` and
the `ValidationError` they raise escape. `Form` is what the patterns make of a line, and
`Form.Escapes` says which forms raise something else than a `QASMConversionError`.
-/
import CodaNode.Qasm.RoundTrip

set_option autoImplicit false

namespace CodaNode.Qasm

open Regex Regex.Re CodaNode.Ir

variable (py : Python)

/-! ## Forms -/

/-- What a line is, by the patterns it is tried against. -/
inductive Form where
  /-- A blank line, a comment, the header, an include or a declaration of bits. -/
  | skip
  | register (count : Text)
  | measurement (bit qubit : Text)
  | gate (name params operands : Text)
  | unsupported

def form (line : Text) : Form :=
  if is_skipped py line then .skip
  else
    match (qubit_decl_re py).match line with
    | some (caps, _) => .register (captured caps 1)
    | none =>
        match (measure_re py).match line with
        | some (caps, _) => .measurement (captured caps 1) (captured caps 2)
        | none =>
            match (gate_re py).match line with
            | some (caps, _) => .gate (captured caps 1) (captured caps 2) (captured caps 3)
            | none => .unsupported

/-- What is read from a line of this form. -/
def read_form (target : String) (line : Text) : Form → Except QasmError Item
  | .skip => .ok .skip
  | .register count => .ok (.register count)
  | .measurement _ qubit => do
      let qubit ← parse_int py qubit
      pure (.measurement qubit)
  | .gate name params operands => do
      let params ← parse_params py params
      let qubits ← parse_qubits py operands
      let op ← openqasm_gate_to_ir py (String.ofList name) params qubits target
      pure (.gate op)
  | .unsupported => .error (.conversion ("Unsupported QASM line: " ++ py.repr_str line))

theorem read_line_form (target : String) (line : Text) :
    read_line py target line = read_form py target line (form py line) := by
  unfold read_line form
  by_cases hskip : is_skipped py line = true
  · rw [if_pos hskip, if_pos hskip]
    rfl
  · rw [if_neg hskip, if_neg hskip]
    cases (qubit_decl_re py).match line with
    | some m => rfl
    | none =>
        cases (measure_re py).match line with
        | some m => rfl
        | none =>
            cases (gate_re py).match line with
            | some m => rfl
            | none => rfl

/-! ## What is asked of a line -/

/-- The digits are few enough for `int`. -/
def Sized (digits : Text) : Prop := digits.length ≤ 4300

/-- Every parameter is the text of a number. -/
def Numeric (params : Text) : Prop :=
  params ≠ [] → ∀ p ∈ params.splitOn ',', (py.parse (strip p)).isSome = true

/-- The numbers that the parameters are the texts of. -/
def param_values (params : Text) : List Float64 :=
  if params = [] then [] else (params.splitOn ',').filterMap fun p => py.parse (strip p)

/-- The indices of the operands. -/
def indices (operands : Text) : List Text :=
  ((qubit_ref_re py).findall operands.length operands).map fun caps => captured caps 1

/-- What an entry of the tables passes on to `GateOp`. -/
def passed_on (params : List Float64) (entry : NativeGate × Bool) : NativeGate × List Float64 :=
  (entry.1, if entry.1 = .id then [.zero] else if entry.2 then params else [])

/-- The gate of the target, and the parameters it is given. -/
def mapped (target name : String) (params : List Float64) :
    Option (NativeGate × List Float64) :=
  if target = "cz" then (cz_map.lookup name).map (passed_on params)
  else if target = "cnot" then
    match cnot_simple.lookup name, params with
    | some entry, _ => some (passed_on params entry)
    | none, [param] =>
        if name = "ry" ∧ py.is_close param neg_half_pi = true then some (.y_minus_90, []) else none
    | none, _ => none
  else none

/-- So many operands and parameters are what the gate takes. -/
def Fits (gate : NativeGate) (qubits params : Nat) : Prop :=
  ∀ spec, gate_specs.lookup gate.value = some spec → qubits = spec.qubits ∧ params = spec.params

/-- A line of this form is taken, where a register may have been declared before it. -/
def Form.Reads (target : String) (registered : Bool) : Form → Prop
  | .skip => True
  | .register count => registered = false ∧ Sized count
  | .measurement _ qubit => Sized qubit
  | .gate name params operands => Numeric py params ∧ (∀ i ∈ indices py operands, Sized i) ∧
      ∃ gate ps, mapped py target (String.ofList name) (param_values py params) = some (gate, ps) ∧
        Fits gate (indices py operands).length ps.length
  | .unsupported => False

/-- A number in the line cannot be read, or the gate it names does not have its shape. -/
def Form.Escapes (target : String) (registered : Bool) : Form → Prop
  | .skip => False
  | .register count => registered = false ∧ ¬ Sized count
  | .measurement _ qubit => ¬ Sized qubit
  | .gate name params operands => ¬ Numeric py params ∨ (∃ i ∈ indices py operands, ¬ Sized i) ∨
      ∃ gate ps, mapped py target (String.ofList name) (param_values py params) = some (gate, ps) ∧
        ¬ Fits gate (indices py operands).length ps.length
  | .unsupported => False

/-- The line declares the qubits. -/
def Form.declares : Form → Bool
  | .register _ => true
  | _ => false

/-- Every line is taken. -/
def ReadsAll (target : String) : Bool → List Text → Prop
  | _, [] => True
  | registered, line :: rest => (form py line).Reads py target registered ∧
      ReadsAll target (registered || (form py line).declares) rest

/-! ## Numbers -/

theorem parse_int_cases (digits : Text) :
    Sized digits ∧ parse_int py digits = .ok (int_value py digits) ∨
      ¬ Sized digits ∧ ∃ message, parse_int py digits = .error (.value message) := by
  unfold Sized parse_int
  by_cases hsize : 4300 < digits.length
  · rw [if_pos hsize]
    exact .inr ⟨by omega, _, rfl⟩
  · rw [if_neg hsize]
    exact .inl ⟨by omega, rfl⟩

/-- The numbers are read if all of them can be. -/
theorem parse_params_cases (params : Text) :
    Numeric py params ∧ parse_params py params = .ok (param_values py params) ∨
      ¬ Numeric py params ∧ ∃ message, parse_params py params = .error (.value message) := by
  unfold Numeric parse_params param_values
  by_cases hempty : params = []
  · rw [if_pos hempty, if_pos hempty]
    exact .inl ⟨fun h => absurd hempty h, rfl⟩
  rw [if_neg hempty, if_neg hempty]
  generalize params.splitOn ',' = parts
  by_cases hall : ∀ p ∈ parts, (py.parse (strip p)).isSome = true
  · refine .inl ⟨fun _ => hall, mapM_ok.2 ?_⟩
    induction parts with
    | nil => exact .nil
    | cons p rest ih =>
        rw [List.forall_mem_cons] at hall
        obtain ⟨x, hx⟩ := Option.isSome_iff_exists.1 hall.1
        have hmap : (p :: rest).filterMap (fun p => py.parse (strip p)) =
            x :: rest.filterMap fun p => py.parse (strip p) := List.filterMap_cons_some hx
        rw [hmap]
        refine .cons ?_ (ih hall.2)
        rw [parse_float, hx]
  · refine .inr ⟨fun h => hall (h hempty), ?_⟩
    cases hparse : parts.mapM fun p => parse_float py (strip p) with
    | error e =>
        obtain ⟨p, -, hp⟩ := mapM_error hparse
        unfold parse_float at hp
        cases hvalue : py.parse (strip p) with
        | none =>
            rw [hvalue] at hp
            cases hp
            exact ⟨_, rfl⟩
        | some x =>
            rw [hvalue] at hp
            cases hp
    | ok xs =>
        refine absurd ?_ hall
        intro p hp
        obtain ⟨x, -, hx⟩ := exists_mem_left (mapM_ok.1 hparse).flip hp
        unfold parse_float at hx
        cases hvalue : py.parse (strip p) with
        | none =>
            rw [hvalue] at hx
            cases hx
        | some y => rfl

/-- The operands are read if none of the indices is too long. -/
theorem parse_qubits_cases (operands : Text) :
    (∀ i ∈ indices py operands, Sized i) ∧
        parse_qubits py operands = .ok ((indices py operands).map fun i => (int_value py i : Int)) ∨
      (∃ i ∈ indices py operands, ¬ Sized i) ∧
        ∃ message, parse_qubits py operands = .error (.value message) := by
  unfold parse_qubits indices
  generalize (qubit_ref_re py).findall operands.length operands = found
  by_cases hall : ∀ i ∈ found.map fun caps => captured caps 1, Sized i
  · refine .inl ⟨hall, mapM_ok.2 ?_⟩
    rw [List.map_map, List.forall₂_map_right_iff, List.forall₂_same]
    intro caps hcaps
    rcases parse_int_cases py (captured caps 1) with ⟨-, h⟩ | ⟨h, -⟩
    · exact h
    · exact absurd (hall _ (List.mem_map_of_mem hcaps)) h
  · push Not at hall
    refine .inr ⟨hall, ?_⟩
    cases hparse : found.mapM fun caps => parse_int py (captured caps 1) with
    | error e =>
        obtain ⟨caps, -, hcaps⟩ := mapM_error hparse
        rcases parse_int_cases py (captured caps 1) with ⟨-, h⟩ | ⟨-, message, h⟩
        · rw [h] at hcaps
          cases hcaps
        · rw [h] at hcaps
          cases hcaps
          exact ⟨message, rfl⟩
    | ok qubits =>
        obtain ⟨i, hi, hsize⟩ := hall
        obtain ⟨caps, hcaps, rfl⟩ := List.mem_map.1 hi
        obtain ⟨q, -, hq⟩ := exists_mem_left (mapM_ok.1 hparse).flip hcaps
        rcases parse_int_cases py (captured caps 1) with ⟨h, -⟩ | ⟨-, message, h⟩
        · exact absurd h hsize
        · rw [h] at hq
          cases hq

/-! ## Gates -/

/-- A gate is built just if it has its shape. -/
theorem gate_op_cases (gate : NativeGate) (qubits : List Int) (params : List Float64) :
    Fits gate qubits.length params.length ∧ (∃ op, gate_op gate qubits params = .ok op) ∨
      ¬ Fits gate qubits.length params.length ∧
        ∃ error, gate_op gate qubits params = .error (.validation error) := by
  unfold gate_op
  cases hshape : validate_gate_shape gate qubits params with
  | ok op =>
      obtain ⟨rfl, rfl, rfl⟩ := validate_gate_shape_ok.1 hshape
      exact .inl ⟨op.shaped, op, rfl⟩
  | error e =>
      refine .inr ⟨fun hfits => ?_, e, rfl⟩
      have hok : validate_gate_shape gate qubits params = .ok ⟨gate, qubits, params, hfits⟩ :=
        validate_gate_shape_ok.2 ⟨rfl, rfl, rfl⟩
      rw [hshape] at hok
      cases hok

theorem simple_gate_eq (entry : NativeGate × Bool) (params : List Float64) (qubits : List Int) :
    simple_gate entry params qubits =
      gate_op (passed_on params entry).1 qubits (passed_on params entry).2 := by
  unfold simple_gate passed_on
  by_cases hid : entry.1 = .id
  · rw [if_pos hid, if_pos hid]
  · rw [if_neg hid, if_neg hid]

/-- What has no gate of the target is refused; the rest is left to `GateOp`. -/
theorem gate_to_ir_cases (name target : String) (params : List Float64) (qubits : List Int) :
    mapped py target name params = none ∧
        (∃ message, openqasm_gate_to_ir py name params qubits target =
          .error (.conversion message)) ∨
      ∃ gate ps, mapped py target name params = some (gate, ps) ∧
        openqasm_gate_to_ir py name params qubits target = gate_op gate qubits ps := by
  unfold mapped openqasm_gate_to_ir openqasm_gate_to_ir_cz openqasm_gate_to_ir_cnot
  by_cases hcz : target = "cz"
  · rw [if_pos hcz, if_pos hcz]
    cases cz_map.lookup name with
    | none => exact .inl ⟨rfl, _, rfl⟩
    | some entry => exact .inr ⟨_, _, rfl, simple_gate_eq entry params qubits⟩
  rw [if_neg hcz, if_neg hcz]
  by_cases hcnot : target = "cnot"
  · rw [if_pos hcnot, if_pos hcnot]
    cases cnot_simple.lookup name with
    | some entry => exact .inr ⟨_, _, rfl, simple_gate_eq entry params qubits⟩
    | none =>
        match params with
        | [] => exact .inl ⟨rfl, _, rfl⟩
        | _ :: _ :: _ => exact .inl ⟨rfl, _, rfl⟩
        | [param] =>
            dsimp only
            by_cases hry : name = "ry"
            · rw [if_pos hry]
              by_cases hclose : py.is_close param neg_half_pi = true
              · rw [if_pos hclose, if_pos ⟨hry, hclose⟩]
                exact .inr ⟨_, _, rfl, rfl⟩
              · rw [if_neg hclose, if_neg fun h => hclose h.2]
                exact .inl ⟨rfl, _, rfl⟩
            · rw [if_neg hry, if_neg fun h => hry h.1]
              exact .inl ⟨rfl, _, rfl⟩
  · rw [if_neg hcnot, if_neg hcnot]
    exact .inl ⟨rfl, _, rfl⟩

/-! ## Lines -/

/-- What taking a line comes to: it is taken, or something else than a `QASMConversionError` is
raised, or a `QASMConversionError`. -/
def Verdict (reads escapes : Prop) (registered : Bool) (r : Except QasmError Parsed) : Prop :=
  reads ∧ (∃ parsed, r = .ok parsed ∧ parsed.num_qubits.isSome = registered) ∨
    escapes ∧ (∃ error, r = .error error ∧ ∀ message, error ≠ .conversion message) ∨
    (¬ reads ∧ ¬ escapes) ∧ ∃ message, r = .error (.conversion message)

/-- What a form does. -/
def take_form (target : String) (parsed : Parsed) (line : Text) (f : Form) :
    Except QasmError Parsed := do
  let item ← read_form py target line f
  take_item py parsed item

theorem parse_line_form (target : String) (parsed : Parsed) (raw : Text) :
    parse_line py target parsed raw = take_form py target parsed (strip raw) (form py (strip raw)) := by
  unfold parse_line take_form
  rw [read_line_form]

/-- A declaration: the number is only read if it is the first one. -/
theorem take_register (target : String) (parsed : Parsed) (line count : Text) :
    Verdict (parsed.num_qubits.isSome = false ∧ Sized count)
      (parsed.num_qubits.isSome = false ∧ ¬ Sized count) true
      (take_form py target parsed line (.register count)) := by
  show Verdict _ _ _ (if parsed.num_qubits.isSome = true then _ else do
    let num_qubits ← parse_int py count
    pure { parsed with num_qubits := some num_qubits })
  by_cases hregistered : parsed.num_qubits.isSome = true
  · rw [if_pos hregistered, hregistered]
    refine .inr (.inr ⟨⟨?_, ?_⟩, _, rfl⟩)
    · rintro ⟨hfalse, -⟩
      cases hfalse
    · rintro ⟨hfalse, -⟩
      cases hfalse
  · rw [if_neg hregistered]
    rw [Bool.not_eq_true] at hregistered
    rcases parse_int_cases py count with ⟨hsize, h⟩ | ⟨hsize, message, h⟩
    · rw [h]
      exact .inl ⟨⟨hregistered, hsize⟩, _, rfl, rfl⟩
    · rw [h]
      exact .inr (.inl ⟨⟨hregistered, hsize⟩, _, rfl, nofun⟩)

theorem take_measurement (target : String) (parsed : Parsed) (line bit qubit : Text) :
    Verdict (Sized qubit) (¬ Sized qubit) parsed.num_qubits.isSome
      (take_form py target parsed line (.measurement bit qubit)) := by
  show Verdict _ _ _ ((parse_int py qubit >>= fun q => pure (Item.measurement q)) >>=
    take_item py parsed)
  rcases parse_int_cases py qubit with ⟨hsize, h⟩ | ⟨hsize, message, h⟩
  · rw [h]
    exact .inl ⟨hsize, _, rfl, rfl⟩
  · rw [h]
    exact .inr (.inl ⟨hsize, _, rfl, nofun⟩)

/-- A gate: its parameters are read first, then its operands, and then it is looked up. -/
theorem take_gate (target : String) (parsed : Parsed) (line name params operands : Text) :
    Verdict ((Form.gate name params operands).Reads py target parsed.num_qubits.isSome)
      ((Form.gate name params operands).Escapes py target parsed.num_qubits.isSome)
      parsed.num_qubits.isSome (take_form py target parsed line (.gate name params operands)) := by
  show Verdict (Numeric py params ∧ (∀ i ∈ indices py operands, Sized i) ∧ _)
    (¬ Numeric py params ∨ (∃ i ∈ indices py operands, ¬ Sized i) ∨ _) _
    ((parse_params py params >>= fun params => parse_qubits py operands >>= fun qubits =>
      openqasm_gate_to_ir py (String.ofList name) params qubits target >>= fun op =>
        pure (Item.gate op)) >>= take_item py parsed)
  rcases parse_params_cases py params with ⟨hnumeric, h⟩ | ⟨hnumeric, message, h⟩
  swap
  · rw [h]
    exact .inr (.inl ⟨.inl hnumeric, _, rfl, nofun⟩)
  rw [h]
  show Verdict _ _ _ ((parse_qubits py operands >>= fun qubits => _) >>= _)
  rcases parse_qubits_cases py operands with ⟨hsized, h⟩ | ⟨hsized, message, h⟩
  swap
  · rw [h]
    exact .inr (.inl ⟨.inr (.inl hsized), _, rfl, nofun⟩)
  rw [h]
  have hlarge : ¬ ∃ i ∈ indices py operands, ¬ Sized i := by
    rintro ⟨i, hi, hsize⟩
    exact hsize (hsized i hi)
  set qubits := (indices py operands).map fun i => (int_value py i : Int) with hqubits
  have hlength : qubits.length = (indices py operands).length := List.length_map ..
  show Verdict _ _ _ ((openqasm_gate_to_ir py (String.ofList name) (param_values py params) qubits
    target >>= fun op => _) >>= _)
  rcases gate_to_ir_cases py (String.ofList name) target (param_values py params) qubits with
    ⟨hmapped, message, h⟩ | ⟨gate, ps, hmapped, h⟩
  · rw [h, hmapped]
    refine .inr (.inr ⟨⟨?_, ?_⟩, message, rfl⟩)
    · rintro ⟨-, -, gate, ps, hsome, -⟩
      cases hsome
    · rintro (hn | hl | ⟨gate, ps, hsome, -⟩)
      · exact hn hnumeric
      · exact hlarge hl
      · cases hsome
  · rw [h]
    rcases gate_op_cases gate qubits ps with ⟨hfits, op, hop⟩ | ⟨hfits, error, hop⟩
    · rw [hlength] at hfits
      rw [hop]
      exact .inl ⟨⟨hnumeric, hsized, gate, ps, hmapped, hfits⟩, _, rfl, rfl⟩
    · rw [hlength] at hfits
      rw [hop]
      exact .inr (.inl ⟨.inr (.inr ⟨gate, ps, hmapped, hfits⟩), _, rfl, nofun⟩)

/-- What a line does. -/
theorem parse_line_verdict (target : String) (parsed : Parsed) (raw : Text) :
    Verdict ((form py (strip raw)).Reads py target parsed.num_qubits.isSome)
      ((form py (strip raw)).Escapes py target parsed.num_qubits.isSome)
      (parsed.num_qubits.isSome || (form py (strip raw)).declares)
      (parse_line py target parsed raw) := by
  rw [parse_line_form]
  cases form py (strip raw) with
  | skip => exact .inl ⟨trivial, parsed, rfl, (Bool.or_false _).symm⟩
  | register count =>
      rw [Form.declares, Bool.or_true]
      exact take_register py target parsed _ count
  | measurement bit qubit =>
      show Verdict _ _ (_ || false) _
      rw [Bool.or_false]
      exact take_measurement py target parsed _ bit qubit
  | gate name params operands =>
      show Verdict _ _ (_ || false) _
      rw [Bool.or_false]
      exact take_gate py target parsed _ name params operands
  | unsupported => exact .inr (.inr ⟨⟨id, id⟩, _, rfl⟩)

/-- A line that is taken does not escape. -/
theorem Form.Reads.not_escapes {target : String} {registered : Bool} {f : Form}
    (h : f.Reads py target registered) : ¬ f.Escapes py target registered := by
  cases f with
  | skip => exact id
  | register count => exact fun hescapes => hescapes.2 h.2
  | measurement bit qubit => exact fun hescapes => hescapes h
  | gate name params operands =>
      obtain ⟨hnumeric, hsized, gate, ps, hmapped, hfits⟩ := h
      rintro (hn | ⟨i, hi, hsize⟩ | ⟨gate', ps', hmapped', hunfit⟩)
      · exact hn hnumeric
      · exact hsize (hsized i hi)
      · rw [hmapped] at hmapped'
        cases hmapped'
        exact hunfit hfits
  | unsupported => exact id

/-! ## Texts -/

/-- A program that passes the validators, or a `QASMConversionError`. -/
def Disciplined (r : Except QasmError NativeGateIR) : Prop :=
  (∃ ir, r = .ok ir ∧
      validate_ir ir.target ir.num_qubits ir.gates ir.measurements = .ok ()) ∨
    ∃ message, r = .error (.conversion message)

/-- No line that is reached raises anything but a `QASMConversionError`. -/
def Guarded (target : String) (registered : Bool) (lines : List Text) : Prop :=
  ∀ before line after, lines = before ++ line :: after → ReadsAll py target registered before →
    ¬ (form py line).Escapes py target (registered || before.any fun l => (form py l).declares)

variable {py} {target : String} {registered : Bool} {line : Text} {lines : List Text}

theorem guarded_cons : Guarded py target registered (line :: lines) ↔
    ¬ (form py line).Escapes py target registered ∧
      ((form py line).Reads py target registered →
        Guarded py target (registered || (form py line).declares) lines) := by
  constructor
  · intro h
    refine ⟨?_, fun hreads before line' after hlines hall => ?_⟩
    · have hfirst := h [] line lines rfl trivial
      rwa [List.any_nil, Bool.or_false] at hfirst
    · have hlater := h (line :: before) line' after (by rw [hlines]; rfl) ⟨hreads, hall⟩
      rwa [List.any_cons, ← Bool.or_assoc] at hlater
  · rintro ⟨hfirst, hrest⟩ before line' after hlines hall
    cases before with
    | nil =>
        cases hlines
        rwa [List.any_nil, Bool.or_false]
    | cons l before =>
        cases hlines
        rw [List.any_cons, ← Bool.or_assoc]
        exact hrest hall.1 before line' after rfl hall.2

/-- The loop over the lines raises a `QASMConversionError`, if anything. -/
theorem parse_lines_guarded (py : Python) (target : String) (raws : List Text) (parsed : Parsed) :
    ((∃ parsed', raws.foldlM (parse_line py target) parsed = .ok parsed') ∨
        ∃ message, raws.foldlM (parse_line py target) parsed = .error (.conversion message)) ↔
      Guarded py target parsed.num_qubits.isSome (raws.map strip) := by
  induction raws generalizing parsed with
  | nil =>
      refine iff_of_true (.inl ⟨parsed, rfl⟩) ?_
      intro before line after hlines
      cases before <;> cases hlines
  | cons raw raws ih =>
      rw [List.map_cons, guarded_cons, List.foldlM_cons]
      rcases parse_line_verdict py target parsed raw with ⟨hreads, parsed', h, hdeclared⟩ |
        ⟨hescapes, error, h, hother⟩ | ⟨⟨hreads, hescapes⟩, message, h⟩
      · -- the line is taken, so what follows it decides
        have hescapes := Form.Reads.not_escapes py hreads
        rw [h, ← hdeclared, ← ih]
        exact ⟨fun hrest => ⟨hescapes, fun _ => hrest⟩, fun hboth => hboth.2 hreads⟩
      · rw [h]
        refine iff_of_false ?_ fun hboth => hboth.1 hescapes
        rintro (⟨parsed', hok⟩ | ⟨message, herror⟩)
        · cases hok
        · cases herror
          exact hother message rfl
      · rw [h]
        exact iff_of_true (.inr ⟨message, rfl⟩) ⟨hescapes, fun hr => absurd hr hreads⟩

/-- **Which texts the parser handles with a `QASMConversionError` at worst**: those in which no
line that is reached has a number that cannot be read or a gate without its shape. -/
theorem openqasm_disciplined_iff (py : Python) (qasm : Text) (target now : String)
    (metadata : Option IRMetadata) :
    Disciplined (openqasm_to_ir py qasm target metadata now) ↔
      Guarded py target false ((splitlines (strip qasm)).map strip) := by
  have hlines := parse_lines_guarded py target (splitlines (strip qasm)) {}
  rw [show ({} : Parsed).num_qubits.isSome = false from rfl] at hlines
  rw [← hlines, openqasm_to_ir]
  cases hparsed : (splitlines (strip qasm)).foldlM (parse_line py target) {} with
  | error e =>
      constructor
      · rintro (⟨ir, hok, -⟩ | ⟨message, herror⟩)
        · cases hok
        · cases herror
          exact .inr ⟨message, rfl⟩
      · rintro (⟨parsed', hok⟩ | ⟨message, herror⟩)
        · cases hok
        · cases herror
          exact .inr ⟨message, rfl⟩
  | ok parsed =>
      refine iff_of_true ?_ (.inl ⟨parsed, rfl⟩)
      dsimp only [Bind.bind, Except.bind]
      cases parsed.num_qubits with
      | none => exact .inr ⟨_, rfl⟩
      | some n =>
          -- the validation of the whole program is in the `try` statement
          dsimp only
          cases hir : native_gate_ir target n parsed.gates parsed.measurements
            (metadata.getD (placeholder_metadata now)) with
          | error e => exact .inr ⟨_, rfl⟩
          | ok ir =>
              exact .inl ⟨ir, rfl, validate_ir_ok.2 ⟨ir.num_qubits_range, ir.consistent⟩⟩

/-- A symbolic parameter escapes as a `ValueError`. -/
theorem symbolic_parameter_escapes :
    ¬ ∀ (qasm : Text) (target now : String) (metadata : Option IRMetadata),
      Disciplined (openqasm_to_ir sample_python qasm target metadata now) := by
  intro h
  have hresult : openqasm_to_ir sample_python "qubit[1] q;\nrx(pi/2) q[0];".toList "cz" none "now" =
      .error (.value "could not convert string to float: 'pi/2'") := rfl
  have hdisciplined := h "qubit[1] q;\nrx(pi/2) q[0];".toList "cz" "now" none
  rw [hresult] at hdisciplined
  rcases hdisciplined with ⟨ir, hok, -⟩ | ⟨message, herror⟩
  · cases hok
  · cases herror

end CodaNode.Qasm
