/-
`Ir/Json.lean` -- the IR as JSON.

`to_json` writes every field, and `from_json` validates what it reads, field by field and then
as a whole. Of pydantic's conversions only those of values that have the field's own type are
used, and that `null` is no float; a parameter that is not finite is written as `null`, so that
`json_round_trip` holds of the programs without such a parameter.
-/
import CodaNode.Ir.Types

set_option autoImplicit false

namespace CodaNode.Ir

/-! ## Writing -/

/-- A float in `model_dump_json`. -/
def dump_float (x : Float64) : Json := if x.is_finite then .float x.bits else .null

/-- `GateOp.model_dump`. -/
def GateOp.dump (op : GateOp) : Json :=
  .obj [("gate", .str op.gate.value), ("qubits", .arr (op.qubits.map .int)),
    ("params", .arr (op.params.map dump_float))]

/-- `IRMetadata.model_dump`. -/
def IRMetadata.dump (metadata : IRMetadata) : Json :=
  .obj [("source_hash", .str metadata.source_hash), ("compiled_at", .str metadata.compiled_at),
    ("compiler_version", .str metadata.compiler_version),
    ("optimization_level", .int metadata.optimization_level)]

/-- `NativeGateIR.model_dump`. -/
def NativeGateIR.dump (ir : NativeGateIR) : Json :=
  .obj [("version", .str ir.version), ("target", .str ir.target),
    ("num_qubits", .int ir.num_qubits), ("gates", .arr (ir.gates.map GateOp.dump)),
    ("measurements", .arr (ir.measurements.map .int)), ("metadata", ir.metadata.dump)]

/-! ## Reading -/

/-- pydantic's conversions to the type of a field, and its JSON text. -/
structure ModelJson where
  to_str : Json → Option String
  to_int : Json → Option Int
  to_float : Json → Option Float64
  to_str_str : ∀ s, to_str (.str s) = some s
  to_int_int : ∀ i, to_int (.int i) = some i
  to_float_float : ∀ bits, to_float (.float bits) = some ⟨bits⟩
  to_float_null : to_float .null = none
  /-- The text of `model_dump_json(indent=2)`. -/
  write : Json → Text
  /-- What `model_validate_json` reads before it validates. -/
  read : Text → Except String Json

variable (M : ModelJson)

def read_str (value : Json) : Except ValidationError String :=
  match M.to_str value with
  | some s => .ok s
  | none => .error ⟨[], "Input should be a valid string"⟩

def read_int (value : Json) : Except ValidationError Int :=
  match M.to_int value with
  | some i => .ok i
  | none => .error ⟨[], "Input should be a valid integer"⟩

def read_float (value : Json) : Except ValidationError Float64 :=
  match M.to_float value with
  | some x => .ok x
  | none => .error ⟨[], "Input should be a valid number"⟩

/-- A member of an enumeration. -/
def read_gate : Json → Except ValidationError NativeGate
  | .str s =>
      match NativeGate.of_value s with
      | some gate => .ok gate
      | none => .error ⟨[], "Input should be 'rx', 'ry', 'rz', 'cz', 'iswap', 'cp', 'id', " ++
          "'x90', 'y_minus_90', 'virtual_z' or 'cnot'"⟩
  | _ => .error ⟨[], "Input should be 'rx', 'ry', 'rz', 'cz', 'iswap', 'cp', 'id', " ++
      "'x90', 'y_minus_90', 'virtual_z' or 'cnot'"⟩

/-- `Literal["1.0"]`. -/
def read_version : Json → Except ValidationError Unit
  | .str "1.0" => .ok ()
  | _ => .error ⟨[], "Input should be '1.0'"⟩

/-- The items of a list, from the index on. -/
def read_items {α : Type} (read : Json → Except ValidationError α) (index : Nat) :
    List Json → Except ValidationError (List α)
  | [] => .ok []
  | item :: rest => do
      let x ← (read item).mapError (ValidationError.at (.index index))
      let xs ← read_items read (index + 1) rest
      pure (x :: xs)

/-- A list. -/
def read_list {α : Type} (read : Json → Except ValidationError α) :
    Json → Except ValidationError (List α)
  | .arr items => read_items read 0 items
  | _ => .error ⟨[], "Input should be a valid array"⟩

/-- A field, or its default. -/
def read_field {α : Type} (fields : List (String × Json)) (name : String) (default : Option α)
    (read : Json → Except ValidationError α) : Except ValidationError α :=
  match fields.lookup name, default with
  | some value, _ => (read value).mapError (ValidationError.at (.key name))
  | none, some x => .ok x
  | none, none => .error ⟨[.key name], "Field required"⟩

/-- `GateOp.model_validate`. -/
def read_gate_op : Json → Except ValidationError GateOp
  | .obj fields => do
      let gate ← read_field fields "gate" none read_gate
      let qubits ← read_field fields "qubits" none (read_list (read_int M))
      let params ← read_field fields "params" (some []) (read_list (read_float M))
      validate_gate_shape gate qubits params
  | _ => .error ⟨[], "Input should be an object"⟩

/-- `Field(ge=0, le=3)`. -/
def read_level (value : Json) : Except ValidationError { level : Int // 0 ≤ level ∧ level ≤ 3 } := do
  let level ← read_int M value
  if hlow : level < 0 then .error ⟨[], "Input should be greater than or equal to 0"⟩
  else if hhigh : 3 < level then .error ⟨[], "Input should be less than or equal to 3"⟩
  else .ok ⟨level, level_of_checks hlow hhigh⟩

/-- `IRMetadata.model_validate`. -/
def read_metadata : Json → Except ValidationError IRMetadata
  | .obj fields => do
      let source_hash ← read_field fields "source_hash" none (read_str M)
      let compiled_at ← read_field fields "compiled_at" none (read_str M)
      let compiler_version ← read_field fields "compiler_version" (some "0.1.0") (read_str M)
      let level ← read_field fields "optimization_level" (some ⟨2, default_level⟩) (read_level M)
      pure ⟨source_hash, compiled_at, compiler_version, level.1, level.2⟩
  | _ => .error ⟨[], "Input should be an object"⟩

/-- `NativeGateIR.model_validate`. -/
def read_ir : Json → Except ValidationError NativeGateIR
  | .obj fields => do
      read_field fields "version" (some ()) read_version
      let target ← read_field fields "target" none (read_str M)
      let num_qubits ← read_field fields "num_qubits" none (read_int M)
      let gates ← read_field fields "gates" none (read_list (read_gate_op M))
      let measurements ← read_field fields "measurements" none (read_list (read_int M))
      let metadata ← read_field fields "metadata" none (read_metadata M)
      native_gate_ir target num_qubits gates measurements metadata
  | _ => .error ⟨[], "Input should be an object"⟩

/-- `NativeGateIR.to_json`. -/
def to_json (ir : NativeGateIR) : Text := M.write ir.dump

/-- `NativeGateIR.from_json`. -/
def from_json (text : Text) : Except ValidationError NativeGateIR :=
  match M.read text with
  | .error message => .error ⟨[], "Invalid JSON: " ++ message⟩
  | .ok value => read_ir M value

/-! ## What is read back -/

variable {M}

/-- A list is read item by item. -/
theorem read_items_ok {α : Type} {read : Json → Except ValidationError α} {index : Nat}
    {items : List Json} {xs : List α} : read_items read index items = .ok xs ↔
      List.Forall₂ (fun item x => read item = .ok x) items xs := by
  induction items generalizing index xs with
  | nil => rw [read_items, List.forall₂_nil_left_iff, Except.ok.injEq, eq_comm]
  | cons item rest ih =>
      rw [read_items, List.forall₂_cons_left_iff, bind_ok]
      constructor
      · rintro ⟨x, hx, h⟩
        obtain ⟨rest', hrest, h⟩ := bind_ok.1 h
        exact ⟨x, rest', mapError_ok.1 hx, ih.1 hrest, (Except.ok.inj h).symm⟩
      · rintro ⟨x, rest', hx, hrest, rfl⟩
        exact ⟨x, mapError_ok.2 hx, bind_ok.2 ⟨rest', ih.2 hrest, rfl⟩⟩

/-- What has been written is read back, if each item is. -/
theorem read_list_map {α : Type} {read : Json → Except ValidationError α} {write : α → Json}
    {xs : List α} (h : ∀ x ∈ xs, read (write x) = .ok x) :
    read_list read (.arr (xs.map write)) = .ok xs := by
  rw [read_list, read_items_ok, List.forall₂_map_left_iff]
  exact List.forall₂_same.2 h

theorem read_int_int (i : Int) : read_int M (.int i) = .ok i := by
  rw [read_int, M.to_int_int]

theorem read_str_str (s : String) : read_str M (.str s) = .ok s := by
  rw [read_str, M.to_str_str]

theorem read_gate_value (gate : NativeGate) : read_gate (.str gate.value) = .ok gate := by
  rw [read_gate, NativeGate.of_value_value]

/-- A parameter is read back just if it is finite. -/
theorem read_dump_float {x y : Float64} :
    read_float M (dump_float x) = .ok y ↔ x.is_finite = true ∧ y = x := by
  unfold read_float dump_float
  by_cases h : x.is_finite = true
  · rw [if_pos h, M.to_float_float, and_iff_right h, Except.ok.injEq]
    exact eq_comm
  · rw [if_neg h, M.to_float_null]
    exact iff_of_false nofun fun hand => h hand.1

theorem read_field_ok {α : Type} {fields : List (String × Json)} {name : String}
    {default : Option α} {read : Json → Except ValidationError α} {value : Json} {x : α}
    (h : fields.lookup name = some value) :
    read_field fields name default read = .ok x ↔ read value = .ok x := by
  unfold read_field
  rw [h]
  exact mapError_ok

/-- The parameters of a gate are read back just if they are finite. -/
theorem read_dump_params {params params' : List Float64} :
    read_list (read_float M) (.arr (params.map dump_float)) = .ok params' ↔
      (∀ param ∈ params, param.is_finite = true) ∧ params' = params := by
  rw [read_list, read_items_ok, List.forall₂_map_left_iff]
  constructor
  · intro h
    induction h with
    | nil => exact ⟨nofun, rfl⟩
    | cons hx _ ih =>
        obtain ⟨hfinite, rfl⟩ := read_dump_float.1 hx
        exact ⟨List.forall_mem_cons.2 ⟨hfinite, ih.1⟩, by rw [ih.2]⟩
  · rintro ⟨hfinite, rfl⟩
    exact List.forall₂_same.2 fun x hx => read_dump_float.2 ⟨hfinite x hx, rfl⟩

/-- A gate operation is read back just if its parameters are finite. -/
theorem read_dump_op {op op' : GateOp} : read_gate_op M op.dump = .ok op' ↔
    (∀ param ∈ op.params, param.is_finite = true) ∧ op' = op := by
  have hqubits : read_list (read_int M) (.arr (op.qubits.map .int)) = .ok op.qubits :=
    read_list_map fun q _ => read_int_int q
  rw [GateOp.dump, read_gate_op, bind_ok]
  simp only [bind_ok]
  constructor
  · rintro ⟨gate, hgate, qubits, hq, params, hparams, h⟩
    rw [read_field_ok rfl, read_gate_value, Except.ok.injEq] at hgate
    rw [read_field_ok rfl, hqubits, Except.ok.injEq] at hq
    rw [read_field_ok rfl, read_dump_params] at hparams
    obtain ⟨hg, hqs, hps⟩ := validate_gate_shape_ok.1 h
    exact ⟨hparams.1, GateOp.ext (hg.trans hgate.symm) (hqs.trans hq.symm) (hps.trans hparams.2)⟩
  · rintro ⟨hfinite, rfl⟩
    exact ⟨op'.gate, (read_field_ok rfl).2 (read_gate_value _), op'.qubits,
      (read_field_ok rfl).2 hqubits, op'.params,
      (read_field_ok rfl).2 (read_dump_params.2 ⟨hfinite, rfl⟩),
      validate_gate_shape_ok.2 ⟨rfl, rfl, rfl⟩⟩

theorem read_dump_metadata {metadata : IRMetadata} :
    read_metadata M metadata.dump = .ok metadata := by
  have hlevel : read_level M (.int metadata.optimization_level) =
      .ok ⟨metadata.optimization_level, metadata.level_range⟩ := by
    rw [read_level, read_int_int]
    have hlow : ¬ metadata.optimization_level < 0 := by
      have h := metadata.level_range
      omega
    have hhigh : ¬ 3 < metadata.optimization_level := by
      have h := metadata.level_range
      omega
    show (if hlow : _ then _ else _) = _
    rw [dif_neg hlow, dif_neg hhigh]
  rw [IRMetadata.dump, read_metadata, bind_ok]
  simp only [bind_ok]
  exact ⟨_, (read_field_ok rfl).2 (read_str_str _), _, (read_field_ok rfl).2 (read_str_str _), _,
    (read_field_ok rfl).2 (read_str_str _), _, (read_field_ok rfl).2 hlevel, rfl⟩

/-- The gates are read back just if every parameter is finite. -/
theorem read_dump_gates {gates gates' : List GateOp} :
    read_list (read_gate_op M) (.arr (gates.map GateOp.dump)) = .ok gates' ↔
      (∀ op ∈ gates, ∀ param ∈ op.params, param.is_finite = true) ∧ gates' = gates := by
  rw [read_list, read_items_ok, List.forall₂_map_left_iff]
  constructor
  · intro h
    induction h with
    | nil => exact ⟨nofun, rfl⟩
    | cons hop _ ih =>
        obtain ⟨hfinite, rfl⟩ := read_dump_op.1 hop
        exact ⟨List.forall_mem_cons.2 ⟨hfinite, ih.1⟩, by rw [ih.2]⟩
  · rintro ⟨hfinite, rfl⟩
    exact List.forall₂_same.2 fun op hop => read_dump_op.2 ⟨hfinite op hop, rfl⟩

/-- **The JSON round trip**: a program is read back from its JSON text just if all its
parameters are finite. -/
theorem json_round_trip {ir : NativeGateIR} (htext : M.read (M.write ir.dump) = .ok ir.dump) :
    from_json M (to_json M ir) = .ok ir ↔
      ∀ op ∈ ir.gates, ∀ param ∈ op.params, param.is_finite = true := by
  have hmeasured : read_list (read_int M) (.arr (ir.measurements.map .int)) =
      .ok ir.measurements := read_list_map fun q _ => read_int_int q
  have hversion : read_version (.str ir.version) = .ok () := by
    rw [ir.version_literal]
    rfl
  rw [from_json, to_json, htext]
  show read_ir M ir.dump = _ ↔ _
  rw [NativeGateIR.dump, read_ir, bind_ok]
  simp only [bind_ok]
  constructor
  · rintro ⟨-, -, target, -, num_qubits, -, gates, hgates, -⟩
    rw [read_field_ok rfl, read_dump_gates] at hgates
    exact hgates.1
  · intro hfinite
    exact ⟨(), (read_field_ok rfl).2 hversion, ir.target, (read_field_ok rfl).2 (read_str_str _),
      ir.num_qubits, (read_field_ok rfl).2 (read_int_int _), ir.gates,
      (read_field_ok rfl).2 (read_dump_gates.2 ⟨hfinite, rfl⟩), ir.measurements,
      (read_field_ok rfl).2 hmeasured, ir.metadata, (read_field_ok rfl).2 read_dump_metadata,
      native_gate_ir_ok.2 ⟨rfl, rfl, rfl, rfl, rfl⟩⟩

/-! ## A rotation by one half, and by no number -/

/-- `rx(angle)` on one qubit. -/
def rotation (angle : Float64) : NativeGateIR where
  target := "cz"
  num_qubits := 1
  gates := [⟨.rx, [0], [angle], fun spec h => by cases h; exact ⟨rfl, rfl⟩⟩]
  measurements := [0]
  metadata := ⟨"sha256:test-ir", "2026-03-26T00:00:00Z", "0.1.0", 2, by decide⟩
  version_literal := rfl
  num_qubits_range := by decide
  consistent := {
    legal := ⟨_, rfl, fun op hop => by
      rw [List.mem_singleton.1 hop]
      show "rx" ∈ _
      decide⟩
    operands := fun op hop q hq => by
      rw [List.mem_singleton.1 hop] at hq
      rw [List.mem_singleton.1 hq]
      decide
    measured := by decide }

/-- The lines of its JSON text, for a parameter that is written so. -/
def rotation_text (param : String) : List String :=
  ["\x7b", "  \"version\": \"1.0\",", "  \"target\": \"cz\",", "  \"num_qubits\": 1,",
    "  \"gates\": [", "    \x7b", "      \"gate\": \"rx\",", "      \"qubits\": [", "        0",
    "      ],", "      \"params\": [", "        " ++ param, "      ]", "    \x7d", "  ],",
    "  \"measurements\": [", "    0", "  ],", "  \"metadata\": \x7b",
    "    \"source_hash\": \"sha256:test-ir\",", "    \"compiled_at\": \"2026-03-26T00:00:00Z\",",
    "    \"compiler_version\": \"0.1.0\",", "    \"optimization_level\": 2", "  \x7d", "\x7d"]

/-- pydantic for this one text. -/
def one_text (text : Text) (value : Json) : ModelJson where
  to_str
    | .str s => some s
    | _ => none
  to_int
    | .int i => some i
    | _ => none
  to_float
    | .float bits => some ⟨bits⟩
    | _ => none
  to_str_str _ := rfl
  to_int_int _ := rfl
  to_float_float _ := rfl
  to_float_null := rfl
  write _ := text
  read t := if t = text then .ok value else .error "expected value at line 1 column 1"

theorem one_text_read (text : Text) (value : Json) :
    (one_text text value).read ((one_text text value).write value) = .ok value :=
  if_pos rfl

/-- The bit pattern of `0.5`. -/
def one_half : Float64 := ⟨0x3FE0000000000000⟩

/-- `float("nan")`. -/
def not_a_number : Float64 := ⟨0x7FF8000000000000⟩

/-- pydantic for the text of a rotation. -/
def rotation_json (angle : Float64) (param : String) : ModelJson :=
  one_text (['\n'].intercalate ((rotation_text param).map String.toList)) (rotation angle).dump

theorem half_restored : from_json (rotation_json one_half "0.5")
    (to_json (rotation_json one_half "0.5") (rotation one_half)) = .ok (rotation one_half) :=
  (json_round_trip (one_text_read _ _)).2 (by decide)

theorem nan_not_restored : ¬ ∀ (M : ModelJson) (ir : NativeGateIR),
    M.read (M.write ir.dump) = .ok ir.dump → from_json M (to_json M ir) = .ok ir := by
  intro h
  have hnan := h (rotation_json not_a_number "null") (rotation not_a_number) (one_text_read _ _)
  rw [from_json, to_json, rotation_json, one_text_read] at hnan
  exact absurd hnan nofun

end CodaNode.Ir
