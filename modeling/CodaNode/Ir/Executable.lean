/-
`Ir/Executable.lean` -- what the validators accept.

A candidate is a program whose fields have their types and nothing more. The constructor and
`from_json` accept it just if it is `Executable`: the target is known and every gate is one of
the target's, with as many operands and parameters as `GATE_SPECS` says, each operand and each
measured qubit being a qubit of the program. That the operands of a gate differ is not asked.
-/
import CodaNode.Ir.Json

set_option autoImplicit false

namespace CodaNode.Ir

/-! ## Candidates -/

/-- The arguments of `GateOp(...)`. -/
@[ext] structure GateData where
  gate : String
  qubits : List Int
  params : List Float64
  deriving DecidableEq

/-- The arguments of `IRMetadata(...)`. -/
@[ext] structure MetadataData where
  source_hash : String
  compiled_at : String
  compiler_version : String
  optimization_level : Int
  deriving DecidableEq

/-- The arguments of `NativeGateIR(...)`; the version can only be `"1.0"`. -/
@[ext] structure Candidate where
  target : String
  num_qubits : Int
  gates : List GateData
  measurements : List Int
  metadata : MetadataData
  deriving DecidableEq

/-- `GateOp(...)`. -/
def construct_gate (data : GateData) : Except ValidationError GateOp := do
  let gate ← read_gate (.str data.gate)
  validate_gate_shape gate data.qubits data.params

/-- `Field(ge=0, le=3)`. -/
def validate_level (level : Int) :
    Except ValidationError { level : Int // 0 ≤ level ∧ level ≤ 3 } :=
  if hlow : level < 0 then .error ⟨[], "Input should be greater than or equal to 0"⟩
  else if hhigh : 3 < level then .error ⟨[], "Input should be less than or equal to 3"⟩
  else .ok ⟨level, level_of_checks hlow hhigh⟩

theorem level_allowed (level : { level : Int // 0 ≤ level ∧ level ≤ 3 }) :
    0 ≤ level.1 ∧ level.1 ≤ 3 := level.2

/-- `IRMetadata(...)`. -/
def construct_metadata (data : MetadataData) : Except ValidationError IRMetadata := do
  let level ← validate_level data.optimization_level
  pure ⟨data.source_hash, data.compiled_at, data.compiler_version, level.1, level_allowed level⟩

/-- `NativeGateIR(...)`. -/
def construct (data : Candidate) : Except ValidationError NativeGateIR := do
  let gates ← data.gates.mapM construct_gate
  let metadata ← construct_metadata data.metadata
  native_gate_ir data.target data.num_qubits gates data.measurements metadata

/-! ## The fields of a program -/

def GateOp.data (op : GateOp) : GateData := ⟨op.gate.value, op.qubits, op.params⟩

def IRMetadata.data (metadata : IRMetadata) : MetadataData :=
  ⟨metadata.source_hash, metadata.compiled_at, metadata.compiler_version,
    metadata.optimization_level⟩

def NativeGateIR.data (ir : NativeGateIR) : Candidate :=
  ⟨ir.target, ir.num_qubits, ir.gates.map GateOp.data, ir.measurements, ir.metadata.data⟩

/-! ## What an executor relies on -/

/-- The gate has as many operands and parameters as `GATE_SPECS` says. -/
def GateData.Specified (data : GateData) : Prop :=
  ∃ spec, gate_specs.lookup data.gate = some spec ∧ data.qubits.length = spec.qubits ∧
    data.params.length = spec.params

/-- The program can be executed as it stands. -/
structure Executable (data : Candidate) : Prop where
  num_qubits : 1 ≤ data.num_qubits ∧ data.num_qubits ≤ 50
  legal : ∃ legal, legal_gates.lookup data.target = some legal ∧
    ∀ op ∈ data.gates, op.gate ∈ legal
  specified : ∀ op ∈ data.gates, op.Specified
  operands : ∀ op ∈ data.gates, ∀ qubit ∈ op.qubits, InRange data.num_qubits qubit
  measured : ∀ qubit ∈ data.measurements, InRange data.num_qubits qubit
  level : 0 ≤ data.metadata.optimization_level ∧ data.metadata.optimization_level ≤ 3

/-- No gate acts twice on one qubit. -/
def Distinct (data : Candidate) : Prop := ∀ op ∈ data.gates, op.qubits.Nodup

/-! ## The constructors -/

theorem value_of_value {value : String} {gate : NativeGate}
    (h : NativeGate.of_value value = some gate) : gate.value = value := by
  unfold NativeGate.of_value at h
  have hfound := List.find?_some h
  exact beq_iff_eq.1 hfound

/-- Every gate has a specification. -/
theorem gate_specs_value (gate : NativeGate) :
    ∃ spec, gate_specs.lookup gate.value = some spec := by
  cases gate <;> exact ⟨_, rfl⟩

/-- Every specification is that of a gate. -/
theorem of_value_specs {value : String} {spec : GateSpec}
    (h : gate_specs.lookup value = some spec) : ∃ gate, NativeGate.of_value value = some gate := by
  have hall : ∀ entry ∈ gate_specs, (NativeGate.of_value entry.1).isSome = true := by decide
  have hmem : (value, spec) ∈ gate_specs := by
    obtain ⟨l₁, l₂, heq, -⟩ := List.lookup_eq_some_iff.1 h
    rw [heq]
    exact List.mem_append_right _ List.mem_cons_self
  exact Option.isSome_iff_exists.1 (hall _ hmem)

theorem read_gate_ok {value : String} {gate : NativeGate} :
    read_gate (.str value) = .ok gate ↔ NativeGate.of_value value = some gate := by
  rw [read_gate]
  cases NativeGate.of_value value with
  | none =>
      refine iff_of_false (fun h => ?_) fun h => ?_
      · cases h
      · cases h
  | some g => exact ⟨fun h => congrArg some (Except.ok.inj h),
      fun h => congrArg Except.ok (Option.some.inj h)⟩

theorem GateOp.specified (op : GateOp) : op.data.Specified := by
  obtain ⟨spec, hspec⟩ := gate_specs_value op.gate
  exact ⟨spec, hspec, op.shaped spec hspec⟩

/-- A gate operation is constructed just if it has its shape. -/
theorem construct_gate_ok {data : GateData} {op : GateOp} :
    construct_gate data = .ok op ↔ data.Specified ∧ op.data = data := by
  unfold construct_gate
  rw [bind_ok]
  constructor
  · rintro ⟨gate, hgate, hop⟩
    rw [read_gate_ok] at hgate
    obtain ⟨hg, hqubits, hparams⟩ := validate_gate_shape_ok.1 hop
    have hdata : op.data = data := by
      apply GateData.ext
      · rw [GateOp.data, hg, value_of_value hgate]
      · exact hqubits
      · exact hparams
    rw [← hdata]
    exact ⟨op.specified, rfl⟩
  · rintro ⟨-, rfl⟩
    exact ⟨op.gate, read_gate_value op.gate, validate_gate_shape_ok.2 ⟨rfl, rfl, rfl⟩⟩

theorem exists_construct_gate {data : GateData} (h : data.Specified) :
    ∃ op, construct_gate data = .ok op := by
  obtain ⟨spec, hspec, hqubits, hparams⟩ := h
  obtain ⟨gate, hgate⟩ := of_value_specs hspec
  have hvalue := value_of_value hgate
  have hshaped : Shaped gate data.qubits data.params := by
    intro spec' hspec'
    rw [hvalue, hspec] at hspec'
    obtain rfl := Option.some.inj hspec'
    exact ⟨hqubits, hparams⟩
  refine ⟨⟨gate, data.qubits, data.params, hshaped⟩, construct_gate_ok.2 ⟨?_, ?_⟩⟩
  · exact ⟨spec, hspec, hqubits, hparams⟩
  · exact GateData.ext hvalue rfl rfl

theorem construct_gates_ok {gates : List GateData} {ops : List GateOp} :
    gates.mapM construct_gate = .ok ops ↔
      (∀ data ∈ gates, data.Specified) ∧ ops.map GateOp.data = gates := by
  rw [mapM_ok]
  constructor
  · intro h
    induction h with
    | nil => exact ⟨nofun, rfl⟩
    | cons hop _ ih =>
        obtain ⟨hspecified, hdata⟩ := construct_gate_ok.1 hop
        exact ⟨List.forall_mem_cons.2 ⟨hspecified, ih.1⟩, by rw [List.map_cons, hdata, ih.2]⟩
  · rintro ⟨hspecified, rfl⟩
    rw [List.forall₂_map_left_iff, List.forall₂_same]
    intro op hop
    exact construct_gate_ok.2 ⟨op.specified, rfl⟩

theorem validate_level_ok {level : Int} {level' : { level : Int // 0 ≤ level ∧ level ≤ 3 }} :
    validate_level level = .ok level' ↔ level'.1 = level := by
  have hrange := level'.2
  unfold validate_level
  by_cases hlow : level < 0
  · rw [dif_pos hlow]
    exact iff_of_false nofun (by omega)
  · rw [dif_neg hlow]
    by_cases hhigh : 3 < level
    · rw [dif_pos hhigh]
      exact iff_of_false nofun (by omega)
    · rw [dif_neg hhigh, Except.ok.injEq, Subtype.ext_iff]
      exact eq_comm

theorem construct_metadata_ok {data : MetadataData} {metadata : IRMetadata} :
    construct_metadata data = .ok metadata ↔ metadata.data = data := by
  unfold construct_metadata
  rw [bind_ok]
  constructor
  · rintro ⟨level, hlevel, h⟩
    cases h
    rw [validate_level_ok] at hlevel
    exact MetadataData.ext rfl rfl rfl hlevel
  · rintro rfl
    exact ⟨⟨metadata.optimization_level, metadata.level_range⟩, validate_level_ok.2 rfl, rfl⟩

/-- Every program is executable. -/
theorem NativeGateIR.executable (ir : NativeGateIR) : Executable ir.data where
  num_qubits := ir.num_qubits_range
  legal := by
    obtain ⟨legal, hlegal, hgates⟩ := ir.consistent.legal
    exact ⟨legal, hlegal, List.forall_mem_map.2 hgates⟩
  specified := List.forall_mem_map.2 fun op _ => op.specified
  operands := List.forall_mem_map.2 ir.consistent.operands
  measured := ir.consistent.measured
  level := ir.metadata.level_range

/-- What the constructor returns is the candidate, and is executable. -/
theorem construct_data {data : Candidate} {ir : NativeGateIR} (h : construct data = .ok ir) :
    ir.data = data := by
  obtain ⟨ops, hops, h⟩ := bind_ok.1 h
  obtain ⟨metadata, hmetadata, h⟩ := bind_ok.1 h
  obtain ⟨htarget, hqubits, hgates, hmeasurements, hm⟩ := native_gate_ir_ok.1 h
  apply Candidate.ext
  · exact htarget
  · exact hqubits
  · show ir.gates.map GateOp.data = data.gates
    rw [hgates, (construct_gates_ok.1 hops).2]
  · exact hmeasurements
  · show ir.metadata.data = data.metadata
    rw [hm, construct_metadata_ok.1 hmetadata]

/-- The constructor accepts the executable candidates, as they are. -/
theorem construct_ok {data : Candidate} {ir : NativeGateIR} :
    construct data = .ok ir ↔ Executable data ∧ ir.data = data := by
  constructor
  · intro h
    have hdata := construct_data h
    rw [← hdata]
    exact ⟨ir.executable, rfl⟩
  · rintro ⟨-, rfl⟩
    have hops : (ir.gates.map GateOp.data).mapM construct_gate = .ok ir.gates :=
      construct_gates_ok.2 ⟨List.forall_mem_map.2 fun op _ => op.specified, rfl⟩
    exact bind_ok.2 ⟨ir.gates, hops, bind_ok.2 ⟨ir.metadata, construct_metadata_ok.2 rfl,
      native_gate_ir_ok.2 ⟨rfl, rfl, rfl, rfl, rfl⟩⟩⟩

theorem exists_construct_gates {gates : List GateData} (h : ∀ data ∈ gates, data.Specified) :
    ∃ ops, gates.mapM construct_gate = .ok ops := by
  induction gates with
  | nil => exact ⟨[], rfl⟩
  | cons data gates ih =>
      rw [List.forall_mem_cons] at h
      obtain ⟨op, hop⟩ := exists_construct_gate h.1
      obtain ⟨ops, hops⟩ := ih h.2
      exact ⟨op :: ops, mapM_ok.2 (.cons hop (mapM_ok.1 hops))⟩

/-- An executable candidate is accepted. -/
theorem exists_construct {data : Candidate} (h : Executable data) :
    ∃ ir, construct data = .ok ir := by
  obtain ⟨ops, hops⟩ := exists_construct_gates h.specified
  have hdata := (construct_gates_ok.1 hops).2
  obtain ⟨legal, hlegal, hgates⟩ := h.legal
  have hoperands := h.operands
  rw [← hdata, List.forall_mem_map] at hgates hoperands
  let metadata : IRMetadata := ⟨data.metadata.source_hash, data.metadata.compiled_at,
    data.metadata.compiler_version, data.metadata.optimization_level, h.level⟩
  let ir : NativeGateIR := {
    target := data.target
    num_qubits := data.num_qubits
    gates := ops
    measurements := data.measurements
    metadata
    version_literal := rfl
    num_qubits_range := h.num_qubits
    consistent := ⟨⟨legal, hlegal, hgates⟩, hoperands, h.measured⟩ }
  exact ⟨ir, construct_ok.2 ⟨h, Candidate.ext rfl rfl hdata rfl rfl⟩⟩

/-! ## JSON -/

variable (M : ModelJson)

/-- The value has the types of a gate operation. -/
def TypedGate (value : Json) (data : GateData) : Prop :=
  ∃ fields, value = .obj fields ∧ fields.lookup "gate" = some (.str data.gate) ∧
    read_field fields "qubits" none (read_list (read_int M)) = .ok data.qubits ∧
    read_field fields "params" (some []) (read_list (read_float M)) = .ok data.params

/-- The value has the types of the metadata. -/
def TypedMetadata (value : Json) (data : MetadataData) : Prop :=
  ∃ fields, value = .obj fields ∧
    read_field fields "source_hash" none (read_str M) = .ok data.source_hash ∧
    read_field fields "compiled_at" none (read_str M) = .ok data.compiled_at ∧
    read_field fields "compiler_version" (some "0.1.0") (read_str M) = .ok data.compiler_version ∧
    read_field fields "optimization_level" (some 2) (read_int M) = .ok data.optimization_level

/-- The value has the types of a program. -/
def Typed (value : Json) (data : Candidate) : Prop :=
  ∃ fields gates metadata, value = .obj fields ∧
    read_field fields "version" (some ()) read_version = .ok () ∧
    read_field fields "target" none (read_str M) = .ok data.target ∧
    read_field fields "num_qubits" none (read_int M) = .ok data.num_qubits ∧
    fields.lookup "gates" = some (.arr gates) ∧ List.Forall₂ (TypedGate M) gates data.gates ∧
    read_field fields "measurements" none (read_list (read_int M)) = .ok data.measurements ∧
    fields.lookup "metadata" = some metadata ∧ TypedMetadata M metadata data.metadata

variable {M}

/-- A field without a default has been given. -/
theorem read_required {α : Type} {fields : List (String × Json)} {name : String}
    {read : Json → Except ValidationError α} {x : α} :
    read_field fields name none read = .ok x ↔
      ∃ value, fields.lookup name = some value ∧ read value = .ok x := by
  cases hvalue : fields.lookup name with
  | none =>
      unfold read_field
      rw [hvalue]
      exact iff_of_false nofun fun ⟨_, h, _⟩ => nomatch h
  | some value =>
      rw [read_field_ok hvalue]
      exact ⟨fun h => ⟨value, rfl, h⟩, fun ⟨_, hv, h⟩ => Option.some.inj hv ▸ h⟩

theorem read_list_ok {α : Type} {read : Json → Except ValidationError α} {value : Json}
    {xs : List α} : read_list read value = .ok xs ↔
      ∃ items, value = .arr items ∧ List.Forall₂ (fun item x => read item = .ok x) items xs := by
  constructor
  · intro h
    cases value with
    | arr items => exact ⟨items, rfl, read_items_ok.1 h⟩
    | _ => cases h
  · rintro ⟨items, rfl, h⟩
    exact read_items_ok.2 h

/-- A gate operation is read as it is constructed. -/
theorem read_gate_op_ok {value : Json} {op : GateOp} :
    read_gate_op M value = .ok op ↔
      ∃ data, TypedGate M value data ∧ construct_gate data = .ok op := by
  constructor
  · intro h
    cases value with
    | obj fields =>
        obtain ⟨gate, hgate, h⟩ := bind_ok.1 h
        obtain ⟨qubits, hqubits, h⟩ := bind_ok.1 h
        obtain ⟨params, hparams, h⟩ := bind_ok.1 h
        obtain ⟨g, hg, hgate⟩ := read_required.1 hgate
        cases g with
        | str name => exact ⟨⟨name, qubits, params⟩, ⟨fields, rfl, hg, hqubits, hparams⟩,
            bind_ok.2 ⟨gate, hgate, h⟩⟩
        | _ => cases hgate
    | _ => cases h
  · rintro ⟨data, ⟨fields, rfl, hg, hqubits, hparams⟩, h⟩
    obtain ⟨gate, hgate, h⟩ := bind_ok.1 h
    exact bind_ok.2 ⟨gate, read_required.2 ⟨_, hg, hgate⟩, bind_ok.2 ⟨_, hqubits,
      bind_ok.2 ⟨_, hparams, h⟩⟩⟩

/-- So is a level. -/
theorem read_level_ok {fields : List (String × Json)}
    {level : { level : Int // 0 ≤ level ∧ level ≤ 3 }} :
    read_field fields "optimization_level" (some ⟨2, by omega⟩) (read_level M) = .ok level ↔
      ∃ n, read_field fields "optimization_level" (some 2) (read_int M) = .ok n ∧
        validate_level n = .ok level := by
  cases hvalue : fields.lookup "optimization_level" with
  | none =>
      unfold read_field
      rw [hvalue]
      constructor
      · intro h
        rw [← Except.ok.inj h]
        exact ⟨2, rfl, rfl⟩
      · rintro ⟨n, h, hlevel⟩
        cases h
        exact hlevel
  | some value =>
      rw [read_field_ok hvalue]
      simp only [read_field_ok hvalue]
      exact bind_ok

theorem read_metadata_ok {value : Json} {metadata : IRMetadata} :
    read_metadata M value = .ok metadata ↔
      ∃ data, TypedMetadata M value data ∧ construct_metadata data = .ok metadata := by
  constructor
  · intro h
    cases value with
    | obj fields =>
        obtain ⟨source_hash, hhash, h⟩ := bind_ok.1 h
        obtain ⟨compiled_at, hcompiled, h⟩ := bind_ok.1 h
        obtain ⟨version, hversion, h⟩ := bind_ok.1 h
        obtain ⟨level, hlevel, h⟩ := bind_ok.1 h
        obtain ⟨n, hn, hlevel⟩ := read_level_ok.1 hlevel
        exact ⟨⟨source_hash, compiled_at, version, n⟩,
          ⟨fields, rfl, hhash, hcompiled, hversion, hn⟩, bind_ok.2 ⟨level, hlevel, h⟩⟩
    | _ => cases h
  · rintro ⟨data, ⟨fields, rfl, hhash, hcompiled, hversion, hn⟩, h⟩
    obtain ⟨level, hlevel, h⟩ := bind_ok.1 h
    exact bind_ok.2 ⟨_, hhash, bind_ok.2 ⟨_, hcompiled, bind_ok.2 ⟨_, hversion,
      bind_ok.2 ⟨level, read_level_ok.2 ⟨_, hn, hlevel⟩, h⟩⟩⟩⟩

theorem read_gates_ok {items : List Json} {ops : List GateOp} :
    List.Forall₂ (fun item op => read_gate_op M item = .ok op) items ops ↔
      ∃ gates, List.Forall₂ (TypedGate M) items gates ∧ gates.mapM construct_gate = .ok ops := by
  simp only [mapM_ok]
  constructor
  · intro h
    induction h with
    | nil => exact ⟨[], .nil, .nil⟩
    | cons hop _ ih =>
        obtain ⟨data, hdata, hop⟩ := read_gate_op_ok.1 hop
        obtain ⟨gates, hgates, hops⟩ := ih
        exact ⟨data :: gates, .cons hdata hgates, .cons hop hops⟩
  · rintro ⟨gates, hgates, hops⟩
    induction hgates generalizing ops with
    | nil =>
        cases hops
        exact .nil
    | cons hdata _ ih =>
        cases hops with
        | cons hop hops => exact .cons (read_gate_op_ok.2 ⟨_, hdata, hop⟩) (ih hops)

/-- A program is read as it is constructed. -/
theorem read_ir_ok {value : Json} {ir : NativeGateIR} :
    read_ir M value = .ok ir ↔ ∃ data, Typed M value data ∧ construct data = .ok ir := by
  constructor
  · intro h
    cases value with
    | obj fields =>
        obtain ⟨⟨⟩, hversion, h⟩ := bind_ok.1 h
        obtain ⟨target, htarget, h⟩ := bind_ok.1 h
        obtain ⟨num_qubits, hqubits, h⟩ := bind_ok.1 h
        obtain ⟨ops, hops, h⟩ := bind_ok.1 h
        obtain ⟨measurements, hmeasured, h⟩ := bind_ok.1 h
        obtain ⟨metadata, hmetadata, h⟩ := bind_ok.1 h
        obtain ⟨gates, hgates, hops⟩ := read_required.1 hops
        obtain ⟨items, rfl, hitems⟩ := read_list_ok.1 hops
        obtain ⟨gates', htyped, hops⟩ := read_gates_ok.1 hitems
        obtain ⟨provenance, hmeta, hmetadata⟩ := read_required.1 hmetadata
        obtain ⟨provenance', htypedmeta, hmetadata⟩ := read_metadata_ok.1 hmetadata
        exact ⟨⟨target, num_qubits, gates', measurements, provenance'⟩,
          ⟨fields, items, provenance, rfl, hversion, htarget, hqubits, hgates, htyped, hmeasured,
            hmeta, htypedmeta⟩, bind_ok.2 ⟨ops, hops, bind_ok.2 ⟨metadata, hmetadata, h⟩⟩⟩
    | _ => cases h
  · rintro ⟨data, ⟨fields, items, provenance, rfl, hversion, htarget, hqubits, hgates, htyped,
      hmeasured, hmeta, htypedmeta⟩, h⟩
    obtain ⟨ops, hops, h⟩ := bind_ok.1 h
    obtain ⟨metadata, hmetadata, h⟩ := bind_ok.1 h
    have hread := read_required.2 ⟨_, hgates,
      read_list_ok.2 ⟨items, rfl, read_gates_ok.2 ⟨_, htyped, hops⟩⟩⟩
    exact bind_ok.2 ⟨(), hversion, bind_ok.2 ⟨_, htarget, bind_ok.2 ⟨_, hqubits,
      bind_ok.2 ⟨ops, hread, bind_ok.2 ⟨_, hmeasured, bind_ok.2 ⟨metadata,
        read_required.2 ⟨_, hmeta, read_metadata_ok.2 ⟨_, htypedmeta, hmetadata⟩⟩, h⟩⟩⟩⟩⟩⟩

/-- **An accepted program is executable, and an executable candidate is accepted**, by the
constructor as by `from_json`, and what is returned is the candidate. -/
theorem accepted_iff_executable (M : ModelJson) :
    (∀ (data : Candidate) (ir : NativeGateIR),
      construct data = .ok ir → Executable data ∧ ir.data = data) ∧
    (∀ data : Candidate, Executable data → ∃ ir, construct data = .ok ir) ∧
    (∀ (text : Text) (ir : NativeGateIR), from_json M text = .ok ir →
      ∃ value, M.read text = .ok value ∧ Typed M value ir.data ∧ Executable ir.data) ∧
    (∀ (text : Text) (value : Json) (data : Candidate), M.read text = .ok value →
      Typed M value data → Executable data →
      ∃ ir, from_json M text = .ok ir ∧ ir.data = data) := by
  refine ⟨fun data ir => construct_ok.1, fun data => exists_construct, ?_, ?_⟩
  · intro text ir h
    unfold from_json at h
    cases hread : M.read text with
    | error message =>
        rw [hread] at h
        cases h
    | ok value =>
        rw [hread] at h
        obtain ⟨data, htyped, hdata⟩ := read_ir_ok.1 h
        obtain ⟨hexecutable, rfl⟩ := construct_ok.1 hdata
        exact ⟨value, rfl, htyped, hexecutable⟩
  · intro text value data hread htyped hexecutable
    obtain ⟨ir, hir⟩ := exists_construct hexecutable
    refine ⟨ir, ?_, (construct_ok.1 hir).2⟩
    unfold from_json
    rw [hread]
    exact read_ir_ok.2 ⟨data, htyped, hir⟩

/-- The candidate of a rotation. -/
theorem rotation_accepted : ∃ ir, construct (rotation one_half).data = .ok ir ∧
    Executable ir.data ∧ ir.data = (rotation one_half).data := by
  have haccepts := accepted_iff_executable (rotation_json one_half "0.5")
  obtain ⟨ir, hir⟩ := haccepts.2.1 (rotation one_half).data (rotation one_half).executable
  obtain ⟨hexecutable, hdata⟩ := haccepts.1 (rotation one_half).data ir hir
  exact ⟨ir, hir, hdata ▸ hexecutable, hdata⟩

/-! ## A gate that acts twice on one qubit -/

/-- `cz q[0], q[0]`. -/
def doubled : Candidate where
  target := "cz"
  num_qubits := 1
  gates := [⟨"cz", [0, 0], []⟩]
  measurements := [0]
  metadata := ⟨"sha256:test-ir", "2026-03-26T00:00:00Z", "0.1.0", 2⟩

/-- It is accepted. -/
theorem doubled_operand_accepted : ¬ ∀ (data : Candidate) (ir : NativeGateIR),
    construct data = .ok ir → Executable data ∧ Distinct data := by
  intro h
  have hexecutable : Executable doubled := {
    num_qubits := by decide
    legal := ⟨_, rfl, by decide⟩
    specified := by
      intro op hop
      rw [List.mem_singleton.1 hop]
      exact ⟨⟨2, 0⟩, rfl, rfl, rfl⟩
    operands := by decide
    measured := by decide
    level := by decide }
  obtain ⟨ir, hir⟩ := exists_construct hexecutable
  have hdistinct := (h doubled ir hir).2 _ (List.mem_singleton.2 rfl)
  exact absurd hdistinct (by decide)

end CodaNode.Ir
