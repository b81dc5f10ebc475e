/-
`Qasm/Printer.lean` -- from the IR to OpenQASM text.
-/
import CodaNode.Qasm.Parser

set_option autoImplicit false

namespace CodaNode.Qasm

open Regex CodaNode.Ir

variable (py : Python)

/-! ## Pieces -/

/-- `str(n)`. -/
def nat_text (n : Nat) : Text := Nat.toDigits 10 n

/-- `str(i)`. -/
def int_text : Int → Text
  | .ofNat n => nat_text n
  | .negSucc n => '-' :: nat_text (n + 1)

/-- `f"{register}[{index}]"`. -/
def ref_text (register : String) (index : Text) : Text :=
  register.toList ++ '[' :: index ++ [']']

/-- `qubits_str`. -/
def qubits_text (qubits : List Int) : Text :=
  ", ".toList.intercalate (qubits.map fun q => ref_text "q" (int_text q))

/-- `f"{name} {qubits_str};"`. -/
def plain_line (name : String) (qubits : Text) : Text := name.toList ++ ' ' :: qubits ++ [';']

/-- `f"{name}({params}) {qubits_str};"`. -/
def angle_line (name : String) (params : Text) (qubits : Text) : Text :=
  name.toList ++ '(' :: params ++ ')' :: ' ' :: qubits ++ [';']

/-! ## Gates -/

/-- `_ir_gate_to_openqasm_cz`. -/
def ir_gate_to_openqasm_cz (name : String) (params : List Float64) (qubits : Text) :
    Except QasmError Text :=
  if name ∈ ["rx", "ry", "rz"] then
    .ok (angle_line name (", ".toList.intercalate (params.map py.format)) qubits)
  else if name = "virtual_z" then
    match params with
    | [] => .error (.conversion "IR gate 'virtual_z' requires exactly one parameter")
    | param :: _ => .ok (angle_line "rz" (py.format param) qubits)
  else if name ∈ ["cz", "id"] then .ok (plain_line name qubits)
  else .error (.conversion ("IR gate '" ++ name ++ "' has no OpenQASM mapping for cz"))

/-- `_ir_gate_to_openqasm_cnot`. -/
def ir_gate_to_openqasm_cnot (name : String) (params : List Float64) (qubits : Text) :
    Except QasmError Text :=
  if name = "x90" then .ok (plain_line "sx" qubits)
  else if name = "y_minus_90" then .ok (angle_line "ry" (py.format neg_half_pi) qubits)
  else if name = "virtual_z" then
    match params with
    | [] => .error (.index "list index out of range")
    | param :: _ => .ok (angle_line "rz" (py.format param) qubits)
  else if name = "cnot" then .ok (plain_line "cx" qubits)
  else if name = "id" then .ok (plain_line "id" qubits)
  else .error (.conversion ("IR gate '" ++ name ++ "' has no OpenQASM mapping for cnot"))

/-- `_ir_gate_to_openqasm`. -/
def ir_gate_to_openqasm (op : GateOp) (target : String) : Except QasmError Text :=
  if target = "cz" then ir_gate_to_openqasm_cz py op.gate.value op.params (qubits_text op.qubits)
  else if target = "cnot" then
    ir_gate_to_openqasm_cnot py op.gate.value op.params (qubits_text op.qubits)
  else .error (.conversion ("Unsupported target: " ++ target))

/-! ## Programs -/

/-- `f"c[{i}] = measure q[{qubit}];"`. -/
def measure_line (i : Nat) (qubit : Int) : Text :=
  ref_text "c" (nat_text i) ++ " = measure ".toList ++ ref_text "q" (int_text qubit) ++ [';']

/-- The declaration of the bits, if there are any. -/
def bit_lines (measurements : List Int) : List Text :=
  if measurements = [] then []
  else ["bit[".toList ++ nat_text measurements.length ++ "] c;".toList]

/-- The lines before the gates. -/
def head_lines (ir : NativeGateIR) : List Text :=
  ["OPENQASM 3.0;".toList, "include \"stdgates.inc\";".toList,
    "qubit[".toList ++ int_text ir.num_qubits ++ "] q;".toList] ++ bit_lines ir.measurements

/-- `enumerate(ir.measurements)`. -/
def measure_lines (measurements : List Int) : List Text := measurements.mapIdx measure_line

/-- `ir_to_openqasm`. -/
def ir_to_openqasm (ir : NativeGateIR) : Except QasmError Text := do
  let gates ← ir.gates.mapM fun op => ir_gate_to_openqasm py op ir.target
  pure ("\n".toList.intercalate (head_lines ir ++ gates ++ measure_lines ir.measurements) ++
    ['\n'])

end CodaNode.Qasm
