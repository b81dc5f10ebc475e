/-
`Qasm/Accounting.lean` -- whether every statement of a text is accounted for.

The text is read as a whole, its comments left out, and each of its statements asked for in the IR.
The parser takes what the lines begin with, and lets go what stands behind it; it knows no block
comments either. So the IR accounts for the text just if the lines begin with all there is in it to
take (`AtLineStarts`).
-/
import CodaNode.Qasm.FaceValue

set_option autoImplicit false

namespace CodaNode.Qasm

open Regex Regex.Re CodaNode.Ir

variable {py : Python} {target : String}

/-! ## The whole text -/

/-- A carriage return ends a line as a newline does. -/
def newlines (qasm : Text) : Text := qasm.map fun c => if c = '\r' then '\n' else c

/-- The text is these statements, with comments and whitespace between them, and no more. -/
def Reads (py : Python) (qasm : Text) (program : List Statement) : Prop :=
  List.Forall₂ (fun w s => Statement.Spells py s (strip w)) (scan .code (newlines qasm)).statements
    program ∧ Spaces (scan .code (newlines qasm)).rest

def gates_of (program : List Statement) : List GateStatement :=
  (program.map some).filterMap gate_statement

def measured_of (program : List Statement) : List Ref :=
  (program.map some).filterMap measured_qubit

/-- Each statement is a header, an include or a declaration, or one gate or one measurement of the
IR, which has no others and has them in order. -/
def Accounted (py : Python) (target : String) (qasm : Text) (ir : NativeGateIR) : Prop :=
  ∃ program, Reads py qasm program ∧ List.Forall₂ (TakesGate py target) (gates_of program) ir.gates ∧
    ir.measurements = (measured_of program).map fun r => (int_value py r.index : Int)

/-! ## When it is accounted for -/

/-- The gates stand for the same operation. -/
structure SameOperation (py : Python) (target : String) (g g' : GateStatement) : Prop where
  numeric : Numeric py (g.params.getD [])
  mapped : mapped py target g.label (g.values py) = mapped py target g'.label (g'.values py)
  qubits : g.qubits py = g'.qubits py

/-- The text is made of statements, and its gates and measurements are those that its lines begin
with. -/
def AtLineStarts (py : Python) (target : String) (qasm : Text)
    (heads : List (Option Statement)) : Prop :=
  ∃ program, Reads py qasm program ∧
    List.Forall₂ (SameOperation py target) (gates_of program) (heads.filterMap gate_statement) ∧
    (measured_of program).map (fun r => int_value py r.index) =
      (heads.filterMap measured_qubit).map fun r => int_value py r.index

theorem takes_gate_iff {g g' : GateStatement} {op : GateOp} (h : TakesGate py target g' op) :
    TakesGate py target g op ↔ SameOperation py target g g' := by
  constructor
  · intro hg
    exact ⟨hg.numeric, hg.mapped.trans h.mapped.symm, hg.qubits.symm.trans h.qubits⟩
  · rintro ⟨hnumeric, hmapped, hqubits⟩
    exact ⟨hnumeric, hmapped.trans h.mapped, h.qubits.trans hqubits.symm⟩

theorem takes_gates_iff {gates heads : List GateStatement} {ops : List GateOp}
    (h : List.Forall₂ (TakesGate py target) heads ops) :
    List.Forall₂ (TakesGate py target) gates ops ↔
      List.Forall₂ (SameOperation py target) gates heads := by
  induction h generalizing gates with
  | nil => rw [List.forall₂_nil_right_iff, List.forall₂_nil_right_iff]
  | cons hop _ ih =>
      cases gates with
      | nil => exact iff_of_false (fun h => by cases h) fun h => by cases h
      | cons g gates => rw [List.forall₂_cons, List.forall₂_cons, takes_gate_iff hop, ih]

theorem spelled_unique {words : List Text} {program program' : List Statement}
    (h : List.Forall₂ (fun w s => Statement.Spells py s (strip w)) words program)
    (h' : List.Forall₂ (fun w s => Statement.Spells py s (strip w)) words program') :
    program = program' := by
  induction h generalizing program' with
  | nil =>
      cases h'
      rfl
  | cons hs _ ih =>
      cases h' with
      | cons hs' h' => rw [hs.unique hs', ih h']

/-- A text is read in one way. -/
theorem Reads.unique {qasm : Text} {program program' : List Statement}
    (h : Reads py qasm program) (h' : Reads py qasm program') : program = program' :=
  spelled_unique h.1 h'.1

/-! ## What a line begins with -/

theorem Head.unique {line : Text} {s s' : Option Statement} (h : Head py line s)
    (h' : Head py line s') : s = s' := by
  have hnone : ∀ {s : Statement}, Head py line (some s) → ¬ Head py line none := by
    rintro s ⟨w, rest, rfl, hspells, -⟩ hblank
    obtain ⟨name, c, tail, rfl, hname, -⟩ := hspells.exists_leads
    obtain ⟨a, name, rfl, ha⟩ := hname.exists_cons
    rcases hblank with hnil | ⟨comment, hcomment⟩
    · cases hnil
    · obtain rfl : '/' = a := (List.cons.inj hcomment).1
      exact (is_word_inert ha).1 rfl
  cases s with
  | none =>
      cases s' with
      | none => rfl
      | some s' => exact absurd h (hnone h')
  | some s =>
      cases s' with
      | none => exact absurd h' (hnone h)
      | some s' =>
          obtain ⟨w, rest, rfl, hspells, htame⟩ := h
          obtain ⟨w', rest', hw, hspells', htame'⟩ := h'
          -- both end at the first semicolon
          have hscan := hspells.scan_append htame rest
          rw [hw, hspells'.scan_append htame' rest'] at hscan
          have hsame : w' = w := (List.cons.inj (congrArg Scan.statements hscan)).1
          rw [hsame] at hspells'
          rw [hspells.unique hspells']

theorem Heads.unique {qasm : Text} {heads heads' : List (Option Statement)}
    (h : Heads py qasm heads) (h' : Heads py qasm heads') : heads = heads' := by
  unfold Heads at h h'
  generalize source_lines qasm = lines at h h'
  induction h generalizing heads' with
  | nil =>
      cases h'
      rfl
  | cons hs _ ih =>
      cases h' with
      | cons hs' h' => rw [hs.unique hs', ih h']

/-- **When the parser drops no statement.** The lines of a text that is accepted begin with certain
statements. The IR accounts for the whole text just if the text is made of statements of the subset
and its gates and measurements, comments left out, are those its lines begin with. -/
theorem statements_accounted_iff (py : Python) {qasm : Text} {target now : String}
    {metadata : Option IRMetadata} {ir : NativeGateIR}
    (h : openqasm_to_ir py qasm target metadata now = .ok ir) :
    ∃ heads, Heads py qasm heads ∧ (∀ other, Heads py qasm other → other = heads) ∧
      (Accounted py target qasm ir ↔ AtLineStarts py target qasm heads) := by
  obtain ⟨heads, hheads, -, htakes, hmeasured, -⟩ := openqasm_to_ir_heads h
  refine ⟨heads, hheads, fun other hother => hother.unique hheads, ?_⟩
  have hindices : ∀ refs : List Ref, (ir.measurements =
      refs.map fun r => (int_value py r.index : Int)) ↔
        refs.map (fun r => int_value py r.index) =
          (heads.filterMap measured_qubit).map fun r => int_value py r.index := by
    intro refs
    have hcast : ∀ refs : List Ref, refs.map (fun r => (int_value py r.index : Int)) =
        (refs.map fun r => int_value py r.index).map Int.ofNat := fun refs => by
      rw [List.map_map]
      rfl
    rw [hmeasured, hcast, hcast, List.map_inj_right fun a b hab => Int.ofNat.inj hab, eq_comm]
  unfold Accounted AtLineStarts
  simp only [takes_gates_iff htakes, hindices]

/-- A declaration and a comment behind statements are no loss. -/
theorem sample_accounted : ∃ ir, openqasm_to_ir sample_python
      "qubit[2] q; bit[2] c;\ncz q[0], q[1]; // done".toList "cz" none "now" = .ok ir ∧
    Accounted sample_python "cz" "qubit[2] q; bit[2] c;\ncz q[0], q[1]; // done".toList ir := by
  obtain ⟨ir, hok⟩ : ∃ ir, openqasm_to_ir sample_python
      "qubit[2] q; bit[2] c;\ncz q[0], q[1]; // done".toList "cz" none "now" = .ok ir := ⟨_, rfl⟩
  refine ⟨ir, hok, ?_⟩
  obtain ⟨heads, -, hunique, hiff⟩ := statements_accounted_iff sample_python hok
  have htame : Statement.Tame
      (.gate ⟨"cz".toList, none, [⟨"q".toList, "0".toList⟩, ⟨"q".toList, "1".toList⟩]⟩) := by
    rintro g hg
    cases hg
    exact fun c hc => by cases hc
  have hheads : Heads sample_python "qubit[2] q; bit[2] c;\ncz q[0], q[1]; // done".toList
      (cz_program none) := by
    refine .cons ⟨"qubit[2] q;".toList, " bit[2] c;".toList, rfl, sample_register, ?_⟩
      (.cons ⟨"cz q[0], q[1];".toList, " // done".toList, rfl, sample_cz, htame⟩ .nil)
    exact tame_of_not_gate fun g => by simp
  obtain rfl := hunique _ hheads
  refine hiff.2 ⟨[.qubits "2".toList "q".toList, .bits "2".toList "c".toList, .gate ⟨"cz".toList,
    none, [⟨"q".toList, "0".toList⟩, ⟨"q".toList, "1".toList⟩]⟩], ⟨?_, by decide⟩, ?_, rfl⟩
  · exact .cons sample_register (.cons sample_bits (.cons sample_cz .nil))
  · exact .cons ⟨fun hne => absurd rfl hne, rfl, rfl⟩ .nil

/-- The second of two gates on a line is dropped. -/
theorem second_gate_dropped :
    ¬ ∀ (qasm : Text) (target now : String) (metadata : Option IRMetadata) (ir : NativeGateIR),
      openqasm_to_ir sample_python qasm target metadata now = .ok ir →
      Accounted sample_python target qasm ir := by
  intro hclaim
  obtain ⟨ir, hok⟩ : ∃ ir, openqasm_to_ir sample_python
      "qubit[2] q;\ncz q[0], q[1]; cz q[0], q[1];".toList "cz" none "now" = .ok ir := ⟨_, rfl⟩
  obtain ⟨program, hreads, hgates, -⟩ := hclaim _ _ _ _ ir hok
  have hone : ir.gates.length = 1 := by
    obtain ⟨parsed, hparsed, -, -, hparsedgates, -⟩ := openqasm_to_ir_ok.1 hok
    cases hparsed
    rw [hparsedgates]
    rfl
  -- the text says one program, with two gates
  have htext : Reads sample_python "qubit[2] q;\ncz q[0], q[1]; cz q[0], q[1];".toList
      [.qubits "2".toList "q".toList,
        .gate ⟨"cz".toList, none, [⟨"q".toList, "0".toList⟩, ⟨"q".toList, "1".toList⟩]⟩,
        .gate ⟨"cz".toList, none, [⟨"q".toList, "0".toList⟩, ⟨"q".toList, "1".toList⟩]⟩] :=
    ⟨.cons sample_register (.cons sample_cz (.cons sample_cz .nil)), by decide⟩
  obtain rfl := hreads.unique htext
  have htwo := hgates.length_eq
  rw [hone] at htwo
  cases htwo

end CodaNode.Qasm
