/-
`Ir/Types.lean` -- the native-gate IR and its validators.

A gate operation carries the proof that its operands and parameters are as many as
`GATE_SPECS` says, and a program the proof that it is legal for its target, so that what has
passed the validators need not be checked again. A parameter is a double, which is its bit
pattern.
-/
import CodaNode.Text.Json

set_option autoImplicit false

namespace CodaNode.Ir

/-! ## Doubles -/

/-- A Python `float`. -/
structure Float64 where
  bits : UInt64
  deriving DecidableEq, Repr

/-- `math.isfinite`: the exponent is not all ones. -/
def Float64.is_finite (x : Float64) : Bool := (x.bits >>> 52) &&& 0x7FF != 0x7FF

/-- `0.0`. -/
def Float64.zero : Float64 := ⟨0⟩

/-! ## Gates -/

/-- `NativeGate`. -/
inductive NativeGate where
  | rx
  | ry
  | rz
  | cz
  | iswap
  | cp
  | id
  | x90
  | y_minus_90
  | virtual_z
  | cnot
  deriving DecidableEq, Repr

namespace NativeGate

def value : NativeGate → String
  | rx => "rx"
  | ry => "ry"
  | rz => "rz"
  | cz => "cz"
  | iswap => "iswap"
  | cp => "cp"
  | id => "id"
  | x90 => "x90"
  | y_minus_90 => "y_minus_90"
  | virtual_z => "virtual_z"
  | cnot => "cnot"

/-- `list(NativeGate)`. -/
def members : List NativeGate :=
  [rx, ry, rz, cz, iswap, cp, id, x90, y_minus_90, virtual_z, cnot]

/-- `NativeGate(value)`. -/
def of_value (value : String) : Option NativeGate := members.find? (·.value == value)

theorem of_value_value (gate : NativeGate) : of_value gate.value = some gate := by
  cases gate <;> decide

end NativeGate

/-- An entry of `GATE_SPECS`. -/
structure GateSpec where
  qubits : Nat
  params : Nat
  deriving DecidableEq, Repr

/-- `GATE_SPECS`. -/
def gate_specs : List (String × GateSpec) :=
  [("rx", ⟨1, 1⟩), ("ry", ⟨1, 1⟩), ("rz", ⟨1, 1⟩), ("cz", ⟨2, 0⟩), ("iswap", ⟨2, 0⟩),
    ("cp", ⟨2, 1⟩), ("id", ⟨1, 1⟩), ("x90", ⟨1, 0⟩), ("y_minus_90", ⟨1, 0⟩),
    ("virtual_z", ⟨1, 1⟩), ("cnot", ⟨2, 0⟩)]

/-- `LEGAL_GATES`. -/
def legal_gates : List (String × List String) :=
  [("cz", ["rx", "ry", "rz", "cz", "id"]), ("iswap", ["rx", "ry", "rz", "iswap", "id"]),
    ("pcz", ["rx", "ry", "rz", "cp", "id"]),
    ("cnot", ["rx", "ry", "rz", "x90", "y_minus_90", "virtual_z", "cnot", "id"])]

/-! ## Errors -/

/-- An item of the location of an error. -/
inductive Loc where
  | key (name : String)
  | index (i : Nat)
  deriving DecidableEq, Repr

/-- `pydantic.ValidationError`, of which the first error is kept. -/
structure ValidationError where
  loc : List Loc
  message : String
  deriving DecidableEq, Repr

/-- `raise ValueError(message)` in a validator of the whole model. -/
def value_error (message : String) : ValidationError := ⟨[], "Value error, " ++ message⟩

/-- The error of a part. -/
def ValidationError.at (l : Loc) (e : ValidationError) : ValidationError := ⟨l :: e.loc, e.message⟩

/-! ## Gate operations -/

/-- The operands and parameters are as many as the specification of the gate says. -/
def Shaped (gate : NativeGate) (qubits : List Int) (params : List Float64) : Prop :=
  ∀ spec, gate_specs.lookup gate.value = some spec →
    qubits.length = spec.qubits ∧ params.length = spec.params

/-- `GateOp`. -/
@[ext] structure GateOp where
  gate : NativeGate
  qubits : List Int
  params : List Float64 := []
  shaped : Shaped gate qubits params

/-- `GateOp.validate_gate_shape`, as the construction of a `GateOp`. -/
def validate_gate_shape (gate : NativeGate) (qubits : List Int) (params : List Float64) :
    Except ValidationError GateOp :=
  match hspec : gate_specs.lookup gate.value with
  | none => .ok ⟨gate, qubits, params, fun spec h => by rw [hspec] at h; cases h⟩
  | some spec =>
      if hqubits : qubits.length ≠ spec.qubits then
        .error (value_error ("Gate " ++ gate.value ++ " requires " ++ toString spec.qubits ++
          " qubit(s), got " ++ toString qubits.length))
      else if hparams : params.length ≠ spec.params then
        .error (value_error ("Gate " ++ gate.value ++ " requires " ++ toString spec.params ++
          " param(s), got " ++ toString params.length))
      else .ok ⟨gate, qubits, params, fun spec' h => by
        rw [hspec] at h
        obtain rfl := Option.some.inj h
        exact ⟨not_not.1 hqubits, not_not.1 hparams⟩⟩

/-! ## Programs -/

/-- `IRMetadata`. -/
@[ext] structure IRMetadata where
  source_hash : String
  compiled_at : String
  compiler_version : String := "0.1.0"
  optimization_level : Int := 2
  level_range : 0 ≤ optimization_level ∧ optimization_level ≤ 3

/-- The default of `optimization_level` is one that is allowed. -/
theorem default_level : 0 ≤ (2 : Int) ∧ (2 : Int) ≤ 3 := by decide

/-- A level that passes both checks is allowed. -/
theorem level_of_checks {level : Int} (hlow : ¬ level < 0) (hhigh : ¬ 3 < level) :
    0 ≤ level ∧ level ≤ 3 := ⟨Int.not_lt.1 hlow, Int.not_lt.1 hhigh⟩

/-- `0 <= qubit < num_qubits`. -/
def InRange (num_qubits qubit : Int) : Prop := 0 ≤ qubit ∧ qubit < num_qubits

instance (num_qubits qubit : Int) : Decidable (InRange num_qubits qubit) :=
  inferInstanceAs (Decidable (_ ∧ _))

/-- What `validate_target` and `validate_consistency` check. -/
structure Consistent (target : String) (num_qubits : Int) (gates : List GateOp)
    (measurements : List Int) : Prop where
  legal : ∃ legal, legal_gates.lookup target = some legal ∧ ∀ op ∈ gates, op.gate.value ∈ legal
  operands : ∀ op ∈ gates, ∀ qubit ∈ op.qubits, InRange num_qubits qubit
  measured : ∀ qubit ∈ measurements, InRange num_qubits qubit

/-- `NativeGateIR`. -/
@[ext] structure NativeGateIR where
  version : String := "1.0"
  target : String
  num_qubits : Int
  gates : List GateOp
  measurements : List Int
  metadata : IRMetadata
  version_literal : version = "1.0"
  num_qubits_range : 1 ≤ num_qubits ∧ num_qubits ≤ 50
  consistent : Consistent target num_qubits gates measurements

/-- `op.qubits` in `validate_consistency`. -/
def check_operands (num_qubits : Int) (index : Nat) : List Int → Except ValidationError Unit
  | [] => .ok ()
  | qubit :: rest =>
      if InRange num_qubits qubit then check_operands num_qubits index rest
      else .error (value_error ("Qubit " ++ toString qubit ++ " out of range [0, " ++
        toString num_qubits ++ ") at gate index " ++ toString index))

/-- `enumerate(self.gates)` in `validate_consistency`. -/
def check_gates (target : String) (legal : List String) (num_qubits : Int) (index : Nat) :
    List GateOp → Except ValidationError Unit
  | [] => .ok ()
  | op :: rest =>
      if op.gate.value ∉ legal then
        .error (value_error ("Gate '" ++ op.gate.value ++ "' not legal for target '" ++ target ++
          "' at index " ++ toString index))
      else do
        check_operands num_qubits index op.qubits
        check_gates target legal num_qubits (index + 1) rest

/-- `self.measurements` in `validate_consistency`. -/
def check_measurements (num_qubits : Int) : List Int → Except ValidationError Unit
  | [] => .ok ()
  | qubit :: rest =>
      if InRange num_qubits qubit then check_measurements num_qubits rest
      else .error (value_error ("Measurement qubit " ++ toString qubit ++
        " out of range [0, " ++ toString num_qubits ++ ")"))

/-- `validate_target`. -/
def validate_target (target : String) : Except ValidationError (List String) :=
  match legal_gates.lookup target with
  | some legal => .ok legal
  | none => .error (ValidationError.at (.key "target") (value_error ("Unknown target '" ++
      target ++ "'. Valid: ['" ++ "', '".intercalate (legal_gates.map Prod.fst) ++ "']")))

/-- `validate_consistency`. -/
def validate_consistency (target : String) (legal : List String) (num_qubits : Int)
    (gates : List GateOp) (measurements : List Int) : Except ValidationError Unit := do
  check_gates target legal num_qubits 0 gates
  check_measurements num_qubits measurements

/-- `Field(ge=1, le=50)`. -/
def validate_num_qubits (num_qubits : Int) : Except ValidationError Unit :=
  if num_qubits < 1 then
    .error ⟨[.key "num_qubits"], "Input should be greater than or equal to 1"⟩
  else if 50 < num_qubits then
    .error ⟨[.key "num_qubits"], "Input should be less than or equal to 50"⟩
  else .ok ()

/-! ## What the validators accept -/

@[simp] theorem check_operands_ok {num_qubits : Int} {index : Nat} {qubits : List Int} :
    check_operands num_qubits index qubits = .ok () ↔ ∀ q ∈ qubits, InRange num_qubits q := by
  induction qubits with
  | nil => simp [check_operands]
  | cons q rest ih =>
      rw [check_operands, List.forall_mem_cons]
      by_cases h : InRange num_qubits q
      · rw [if_pos h, ih, and_iff_right h]
      · rw [if_neg h]
        exact iff_of_false nofun fun hand => h hand.1

@[simp] theorem check_measurements_ok {num_qubits : Int} {qubits : List Int} :
    check_measurements num_qubits qubits = .ok () ↔ ∀ q ∈ qubits, InRange num_qubits q := by
  induction qubits with
  | nil => simp [check_measurements]
  | cons q rest ih =>
      rw [check_measurements, List.forall_mem_cons]
      by_cases h : InRange num_qubits q
      · rw [if_pos h, ih, and_iff_right h]
      · rw [if_neg h]
        exact iff_of_false nofun fun hand => h hand.1

@[simp] theorem check_gates_ok {target : String} {legal : List String} {num_qubits : Int}
    {index : Nat} {gates : List GateOp} :
    check_gates target legal num_qubits index gates = .ok () ↔
      ∀ op ∈ gates, op.gate.value ∈ legal ∧ ∀ q ∈ op.qubits, InRange num_qubits q := by
  induction gates generalizing index with
  | nil => simp [check_gates]
  | cons op rest ih =>
      rw [check_gates, List.forall_mem_cons]
      by_cases hlegal : op.gate.value ∈ legal
      · have hhead : check_operands num_qubits index op.qubits = .ok () ↔ _ := check_operands_ok
        have htail : check_gates target legal num_qubits (index + 1) rest = .ok () ↔ _ := ih
        rw [if_neg (not_not.2 hlegal), and_iff_right hlegal, ← htail, ← hhead]
        cases check_operands num_qubits index op.qubits with
        | error e => exact iff_of_false nofun fun hand => nomatch hand.1
        | ok u => exact (and_iff_right rfl).symm
      · rw [if_pos hlegal]
        exact iff_of_false nofun fun hand => hlegal hand.1.1

theorem validate_num_qubits_ok {num_qubits : Int} :
    validate_num_qubits num_qubits = .ok () ↔ 1 ≤ num_qubits ∧ num_qubits ≤ 50 := by
  unfold validate_num_qubits
  by_cases hlow : num_qubits < 1
  · rw [if_pos hlow]
    exact iff_of_false nofun (by omega)
  · rw [if_neg hlow]
    by_cases hhigh : 50 < num_qubits
    · rw [if_pos hhigh]
      exact iff_of_false nofun (by omega)
    · rw [if_neg hhigh]
      exact iff_of_true rfl (by omega)

theorem validate_target_ok {target : String} {legal : List String} :
    validate_target target = .ok legal ↔ legal_gates.lookup target = some legal := by
  unfold validate_target
  cases legal_gates.lookup target with
  | none => exact iff_of_false nofun nofun
  | some legal' => exact ⟨fun h => congrArg some (Except.ok.inj h),
      fun h => congrArg Except.ok (Option.some.inj h)⟩

theorem validate_consistency_ok {target : String} {legal : List String} {num_qubits : Int}
    {gates : List GateOp} {measurements : List Int}
    (hlegal : legal_gates.lookup target = some legal) :
    validate_consistency target legal num_qubits gates measurements = .ok () ↔
      Consistent target num_qubits gates measurements := by
  have hgates : check_gates target legal num_qubits 0 gates = .ok () ↔ _ := check_gates_ok
  unfold validate_consistency
  constructor
  · intro h
    cases hg : check_gates target legal num_qubits 0 gates with
    | error e =>
        rw [hg] at h
        cases h
    | ok u =>
        rw [hg] at h
        have hops := hgates.1 hg
        exact ⟨⟨legal, hlegal, fun op hop => (hops op hop).1⟩, fun op hop => (hops op hop).2,
          check_measurements_ok.1 h⟩
  · rintro ⟨⟨legal', hlegal', hops⟩, hrange, hmeasured⟩
    obtain rfl : legal = legal' := Option.some.inj (hlegal.symm.trans hlegal')
    rw [hgates.2 fun op hop => ⟨hops op hop, hrange op hop⟩]
    exact check_measurements_ok.2 hmeasured

/-- The validators of `NativeGateIR`. -/
def validate_ir (target : String) (num_qubits : Int) (gates : List GateOp)
    (measurements : List Int) : Except ValidationError Unit := do
  let legal ← validate_target target
  validate_num_qubits num_qubits
  validate_consistency target legal num_qubits gates measurements

theorem validate_ir_ok {target : String} {num_qubits : Int} {gates : List GateOp}
    {measurements : List Int} : validate_ir target num_qubits gates measurements = .ok () ↔
      (1 ≤ num_qubits ∧ num_qubits ≤ 50) ∧ Consistent target num_qubits gates measurements := by
  unfold validate_ir
  cases htarget : validate_target target with
  | error e =>
      refine iff_of_false nofun fun hand => ?_
      obtain ⟨legal, hlegal, -⟩ := hand.2.legal
      rw [validate_target_ok.2 hlegal] at htarget
      cases htarget
  | ok legal =>
      have hconsistent : validate_consistency target legal num_qubits gates measurements =
          .ok () ↔ _ := validate_consistency_ok (validate_target_ok.1 htarget)
      rw [← validate_num_qubits_ok, ← hconsistent]
      show (validate_num_qubits num_qubits >>= fun _ => _) = .ok () ↔ _
      cases validate_num_qubits num_qubits with
      | error e => exact iff_of_false nofun fun hand => nomatch hand.1
      | ok u => exact (and_iff_right rfl).symm

/-- `NativeGateIR(...)`, of values that have their fields' types. -/
def native_gate_ir (target : String) (num_qubits : Int) (gates : List GateOp)
    (measurements : List Int) (metadata : IRMetadata) : Except ValidationError NativeGateIR :=
  match hvalid : validate_ir target num_qubits gates measurements with
  | .error e => .error e
  | .ok _ => .ok {
      target, num_qubits, gates, measurements, metadata
      version_literal := rfl
      num_qubits_range := (validate_ir_ok.1 hvalid).1
      consistent := (validate_ir_ok.1 hvalid).2 }

/-- The fields are those that were given, and every program can be built from its fields. -/
theorem native_gate_ir_ok {target : String} {num_qubits : Int} {gates : List GateOp}
    {measurements : List Int} {metadata : IRMetadata} {ir : NativeGateIR} :
    native_gate_ir target num_qubits gates measurements metadata = .ok ir ↔
      ir.target = target ∧ ir.num_qubits = num_qubits ∧ ir.gates = gates ∧
        ir.measurements = measurements ∧ ir.metadata = metadata := by
  unfold native_gate_ir
  constructor
  · intro h
    split at h
    · cases h
    · cases h
      exact ⟨rfl, rfl, rfl, rfl, rfl⟩
  · rintro ⟨rfl, rfl, rfl, rfl, rfl⟩
    have hvalid := validate_ir_ok.2 ⟨ir.num_qubits_range, ir.consistent⟩
    split
    · next e he => rw [hvalid] at he; cases he
    · obtain ⟨version, target, num_qubits, gates, measurements, metadata, rfl, hrange, hcons⟩ := ir
      rfl

theorem validate_gate_shape_ok {gate : NativeGate} {qubits : List Int} {params : List Float64}
    {op : GateOp} : validate_gate_shape gate qubits params = .ok op ↔
      op.gate = gate ∧ op.qubits = qubits ∧ op.params = params := by
  unfold validate_gate_shape
  constructor
  · intro h
    split at h
    · cases h
      exact ⟨rfl, rfl, rfl⟩
    · split_ifs at h
      cases h
      exact ⟨rfl, rfl, rfl⟩
  · rintro ⟨rfl, rfl, rfl⟩
    split
    · rfl
    · next spec hspec =>
        have hshape := op.shaped spec hspec
        rw [dif_neg (not_not.2 hshape.1), dif_neg (not_not.2 hshape.2)]

end CodaNode.Ir
