/-
`Qasm/Parser.lean` -- from OpenQASM text to the IR.

`openqasm_to_ir` reads its text line by line. A line is tried against the patterns in the order
of the source, each of them from the start of the line, and what stands behind a match is not
looked at. The characters beyond ASCII, the text of floats and `math.isclose` are parameters.
-/
import CodaNode.Ir.Types
import CodaNode.Regex.Unambiguous

set_option autoImplicit false

namespace CodaNode.Qasm

open Regex CodaNode.Ir

/-! ## Python -/

/-- `-_HALF_PI`. -/
def neg_half_pi : Float64 := ⟨0xBFF921FB54442D18⟩

/-- What is used of Python's `str`, `re`, `float` and `math`. -/
structure Python where
  /-- The value of a decimal digit, `\d`. -/
  decimal : Char → Option Nat
  /-- `c.isalnum()`. -/
  is_alnum : Char → Bool
  decimal_ascii : ∀ c, c.toNat < 128 →
    decimal c = if c.isDigit then some (c.toNat - '0'.toNat) else none
  is_alnum_ascii : ∀ c, c.toNat < 128 → is_alnum c = c.isAlphanum
  is_alnum_of_decimal : ∀ c, (decimal c).isSome = true → is_alnum c = true
  is_alnum_not_space : ∀ c, is_alnum c = true → is_space c = false
  /-- `f"{x:.15g}"`. -/
  format : Float64 → Text
  /-- `float(text)`, or a `ValueError`. -/
  parse : Text → Option Float64
  /-- `math.isclose(x, y, rel_tol=1e-12, abs_tol=1e-12)`. -/
  is_close : Float64 → Float64 → Bool
  format_chars : ∀ x, format x ≠ [] ∧ ∀ c ∈ format x, c ∈ "0123456789+-.einfa".toList
  parse_format : ∀ x, ∃ y, parse (format x) = some y
  /-- Formatting is stable under reading back. -/
  format_stable : ∀ x y, parse (format x) = some y → format y = format x
  close_neg_half_pi : ∀ y, parse (format neg_half_pi) = some y → is_close y neg_half_pi = true
  /-- A number is written with letters, digits, points, signs, underscores and spaces. -/
  parse_chars : ∀ text x, parse text = some x →
    ∀ c ∈ text, is_alnum c = true ∨ is_space c = true ∨ c ∈ "_.+-".toList
  /-- `repr(text)`. -/
  repr_str : Text → String
  /-- `str(x)`. -/
  str_float : Float64 → String
  /-- `str(exc)`. -/
  str_error : ValidationError → String

/-- What the parser and the printer raise. -/
inductive QasmError where
  /-- `QASMConversionError`. -/
  | conversion (message : String)
  /-- `ValueError`. -/
  | value (message : String)
  /-- `pydantic.ValidationError`. -/
  | validation (error : ValidationError)
  /-- `IndexError`. -/
  | index (message : String)
  deriving DecidableEq, Repr

variable (py : Python)

/-! ## Patterns -/

/-- `\d`. -/
def Python.is_digit (c : Char) : Bool := (py.decimal c).isSome

/-- `\w`. -/
def Python.is_word (c : Char) : Bool := py.is_alnum c || c == '_'

/-- `\s+`. -/
def spaces : Re Char := .plus (.set is_space)

/-- `\s*`. -/
def maybe_spaces : Re Char := .star (.set is_space)

/-- `\d+`. -/
def digits : Re Char := .plus (.set py.is_digit)

/-- `\w+`. -/
def word : Re Char := .plus (.set py.is_word)

/-- The literal text. -/
def text (s : String) : Re Char := .lit s.toList

/-- `\s*;`. -/
def terminator : Re Char := .seq maybe_spaces (text ";")

/-- `_HEADER_RE`. -/
def header_re : Re Char :=
  .seq (text "OPENQASM") <| .seq spaces <|
    .seq (.plus (.set fun c => py.is_digit c || c == '.')) terminator

/-- `_INCLUDE_RE`. -/
def include_re : Re Char :=
  .seq (text "include") <| .seq spaces <| .seq (text "\"") <| .seq (.plus (.set (· != '"'))) <|
    .seq (text "\"") terminator

/-- A declaration of a register of this type. -/
def register_re (type : String) : Re Char :=
  .seq (text type) <| .seq (text "[") <| .seq (.group 1 (digits py)) <| .seq (text "]") <|
    .seq spaces <| .seq (word py) terminator

/-- `_QUBIT_DECL_RE`. -/
def qubit_decl_re : Re Char := register_re py "qubit"

/-- `_BIT_DECL_RE`. -/
def bit_decl_re : Re Char := register_re py "bit"

/-- `_MEASURE_RE`. -/
def measure_re : Re Char :=
  .seq (word py) <| .seq (text "[") <| .seq (.group 1 (digits py)) <| .seq (text "]") <|
    .seq maybe_spaces <| .seq (text "=") <| .seq maybe_spaces <| .seq (text "measure") <|
    .seq spaces <| .seq (word py) <| .seq (text "[") <| .seq (.group 2 (digits py)) <|
    .seq (text "]") terminator

/-- `\w+\[\d+]`. -/
def operand : Re Char :=
  .seq (word py) <| .seq (text "[") <| .seq (digits py) (text "]")

/-- `\s*,\s*\w+\[\d+]`. -/
def next_operand : Re Char :=
  .seq maybe_spaces <| .seq (text ",") <| .seq maybe_spaces (operand py)

/-- `\(([^)]*)\)`. -/
def parameters : Re Char :=
  .seq (text "(") <| .seq (.group 2 (.star (.set (· != ')')))) (text ")")

/-- `_GATE_RE`. -/
def gate_re : Re Char :=
  .seq (.group 1 (word py)) <| .seq (.opt parameters) <| .seq spaces <|
    .seq (.group 3 (.seq (operand py) (.star (next_operand py)))) terminator

/-- `_QUBIT_REF_RE`. -/
def qubit_ref_re : Re Char :=
  .seq (word py) <| .seq (text "[") <| .seq (.group 1 (digits py)) (text "]")

/-- `m.group(n)`. -/
def captured (caps : Caps Char) (n : Nat) : Text := (caps.lookup n).getD []

/-! ## Numbers -/

def int_value (digits : Text) : Nat :=
  digits.foldl (fun n c => 10 * n + (py.decimal c).getD 0) 0

/-- `int(digits)`. -/
def parse_int (digits : Text) : Except QasmError Int :=
  if 4300 < digits.length then
    .error (.value ("Exceeds the limit (4300 digits) for integer string conversion: value has " ++
      toString digits.length ++ " digits; use sys.set_int_max_str_digits() to increase the limit"))
  else .ok (int_value py digits)

/-- `float(text)`. -/
def parse_float (text : Text) : Except QasmError Float64 :=
  match py.parse text with
  | some x => .ok x
  | none => .error (.value ("could not convert string to float: " ++ py.repr_str text))

/-- The list comprehension for `params`: `m.group(2)` may be missing or empty. -/
def parse_params (params : Text) : Except QasmError (List Float64) :=
  if params = [] then .ok []
  else (params.splitOn ',').mapM fun p => parse_float py (strip p)

/-- The list comprehension for `qubits`. -/
def parse_qubits (operands : Text) : Except QasmError (List Int) :=
  ((qubit_ref_re py).findall operands.length operands).mapM fun caps =>
    parse_int py (captured caps 1)

/-! ## Gates -/

/-- `GateOp(...)`. -/
def gate_op (gate : NativeGate) (qubits : List Int) (params : List Float64) :
    Except QasmError GateOp :=
  (validate_gate_shape gate qubits params).mapError .validation

/-- `_map` of `_openqasm_gate_to_ir_cz`. -/
def cz_map : List (String × NativeGate × Bool) :=
  [("rx", .rx, true), ("ry", .ry, true), ("rz", .rz, true), ("cz", .cz, false), ("id", .id, false)]

/-- `_simple` of `_openqasm_gate_to_ir_cnot`. -/
def cnot_simple : List (String × NativeGate × Bool) :=
  [("sx", .x90, false), ("rz", .virtual_z, true), ("cx", .cnot, false), ("id", .id, false)]

/-- An entry of such a table. -/
def simple_gate (entry : NativeGate × Bool) (params : List Float64) (qubits : List Int) :
    Except QasmError GateOp :=
  if entry.1 = .id then gate_op entry.1 qubits [.zero]
  else gate_op entry.1 qubits (if entry.2 then params else [])

/-- `_openqasm_gate_to_ir_cz`. -/
def openqasm_gate_to_ir_cz (name : String) (params : List Float64) (qubits : List Int) :
    Except QasmError GateOp :=
  match cz_map.lookup name with
  | none => .error (.conversion ("Gate '" ++ name ++ "' not supported for cz"))
  | some entry => simple_gate entry params qubits

/-- `_openqasm_gate_to_ir_cnot`. -/
def openqasm_gate_to_ir_cnot (name : String) (params : List Float64) (qubits : List Int) :
    Except QasmError GateOp :=
  match cnot_simple.lookup name, params with
  | some entry, _ => simple_gate entry params qubits
  | none, [param] =>
      if name = "ry" then
        if py.is_close param neg_half_pi then gate_op .y_minus_90 qubits []
        else .error (.conversion ("ry(" ++ py.str_float param ++ ") not representable in cnot " ++
          "(only ry(-π/2) maps to y_minus_90)"))
      else .error (.conversion ("Gate '" ++ name ++ "' not supported for cnot"))
  | none, _ => .error (.conversion ("Gate '" ++ name ++ "' not supported for cnot"))

/-- `_openqasm_gate_to_ir`. -/
def openqasm_gate_to_ir (name : String) (params : List Float64) (qubits : List Int)
    (target : String) : Except QasmError GateOp :=
  if target = "cz" then openqasm_gate_to_ir_cz name params qubits
  else if target = "cnot" then openqasm_gate_to_ir_cnot py name params qubits
  else .error (.conversion ("Unsupported target: " ++ target))

/-! ## Lines -/

/-- What a line is. -/
inductive Item where
  /-- A blank line, a comment, the header, an include or a declaration of bits. -/
  | skip
  /-- A declaration of qubits, with the text of their number. -/
  | register (count : Text)
  | measurement (qubit : Int)
  | gate (op : GateOp)

/-- A line that the source passes over. -/
def is_skipped (line : Text) : Bool :=
  line.isEmpty || "//".toList.isPrefixOf line || ((header_re py).match line).isSome ||
    (include_re.match line).isSome || ((bit_decl_re py).match line).isSome

/-- `_GATE_RE` has matched. -/
def read_gate_line (target : String) (caps : Caps Char) : Except QasmError Item := do
  let params ← parse_params py (captured caps 2)
  let qubits ← parse_qubits py (captured caps 3)
  let op ← openqasm_gate_to_ir py (String.ofList (captured caps 1)) params qubits target
  pure (.gate op)

/-- `_MEASURE_RE` has matched. -/
def read_measure_line (caps : Caps Char) : Except QasmError Item := do
  let qubit ← parse_int py (captured caps 2)
  pure (.measurement qubit)

/-- A line without the whitespace around it. -/
def read_line (target : String) (line : Text) : Except QasmError Item :=
  if is_skipped py line then .ok .skip
  else
    match (qubit_decl_re py).match line with
    | some (caps, _) => .ok (.register (captured caps 1))
    | none =>
        match (measure_re py).match line with
        | some (caps, _) => read_measure_line py caps
        | none =>
            match (gate_re py).match line with
            | some (caps, _) => read_gate_line py target caps
            | none => .error (.conversion ("Unsupported QASM line: " ++ py.repr_str line))

/-- The local variables of `openqasm_to_ir`. -/
structure Parsed where
  num_qubits : Option Int := none
  gates : List GateOp := []
  measurements : List Int := []

/-- What a line does to them. -/
def take_item (parsed : Parsed) : Item → Except QasmError Parsed
  | .skip => .ok parsed
  | .register count =>
      if parsed.num_qubits.isSome then
        .error (.conversion "Multiple qubit register declarations are not supported")
      else do
        let num_qubits ← parse_int py count
        pure { parsed with num_qubits := some num_qubits }
  | .measurement qubit => .ok { parsed with measurements := parsed.measurements ++ [qubit] }
  | .gate op => .ok { parsed with gates := parsed.gates ++ [op] }

/-- One turn of the loop. -/
def parse_line (target : String) (parsed : Parsed) (raw : Text) : Except QasmError Parsed := do
  let item ← read_line py target (strip raw)
  take_item py parsed item

/-- The metadata of a program without metadata. -/
def placeholder_metadata (now : String) : IRMetadata where
  source_hash := "sha256:from-qasm"
  compiled_at := now
  level_range := default_level

/-- `openqasm_to_ir`, at the time `now`. -/
def openqasm_to_ir (qasm : Text) (target : String) (metadata : Option IRMetadata) (now : String) :
    Except QasmError NativeGateIR := do
  let parsed ← (splitlines (strip qasm)).foldlM (parse_line py target) {}
  match parsed.num_qubits with
  | none => .error (.conversion "No qubit register declaration found")
  | some num_qubits =>
      (native_gate_ir target num_qubits parsed.gates parsed.measurements
        (metadata.getD (placeholder_metadata now))).mapError
          fun error => .conversion (py.str_error error)

end CodaNode.Qasm
