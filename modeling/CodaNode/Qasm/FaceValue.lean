/-
`Qasm/FaceValue.lean` -- whether the gates of a text are what the IR says.

A gate of the IR is printed again and compared with the statement it was read from: the name, the
parameters, and the operands with the register they name. The parser drops what stands in the
parentheses of a gate without parameters, and compares no names of registers; `Straight` is what
is left to ask of a statement.
-/
import CodaNode.Qasm.Reading

set_option autoImplicit false

namespace CodaNode.Qasm

open Regex Regex.Re CodaNode.Ir

variable {py : Python} {target : String} {g : GateStatement} {op : GateOp}

/-! ## The same gate -/

def GateStatement.label (g : GateStatement) : String := String.ofList g.name

/-- What stands between the commas. -/
def GateStatement.param_texts (g : GateStatement) : List Text :=
  if g.params.getD [] = [] then [] else ((g.params.getD []).splitOn ',').map strip

/-- The texts stand for numbers that are written alike, with 15 digits. -/
def SameValue (py : Python) (p p' : Text) : Prop :=
  ∃ x y, py.parse p = some x ∧ py.parse p' = some y ∧ py.format x = py.format y

/-- The parameters are the same. The duration of `id` is not printed. -/
def SameParams (py : Python) (g printed : GateStatement) : Prop :=
  if g.label = "id" then g.param_texts.length ≤ 1
  else List.Forall₂ (SameValue py) g.param_texts printed.param_texts

/-- What is printed for a gate is the gate. -/
structure SameGate (py : Python) (register : Text) (g printed : GateStatement) : Prop where
  name : printed.name = g.name
  params : SameParams py g printed
  indices : printed.qubits py = g.qubits py
  register : ∀ r ∈ g.operands, r.register = register
  printed_register : ∀ r ∈ printed.operands, r.register = "q".toList

/-- The operation is printed as the gate. -/
def PrintsAs (py : Python) (target : String) (register : Text) (g : GateStatement)
    (op : GateOp) : Prop :=
  ∃ line printed, ir_gate_to_openqasm py op target = .ok line ∧
    GateStatement.Spells py printed line ∧ SameGate py register g printed

/-- The operations are printed as the gates of the program, one by one, and the operands of the
gates are those of the one register it declares. -/
def AtFaceValue (py : Python) (target : String) (program : List (Option Statement))
    (ir : NativeGateIR) : Prop :=
  ∃ register, program.filterMap qubit_register = [register] ∧
    List.Forall₂ (PrintsAs py target register) (program.filterMap gate_statement) ir.gates

/-! ## When it is -/

/-- The gate has the parameters it takes, and its operands are those of the register. Only
`-pi/2` itself is what a `ry` of the target `cnot` stands for. -/
structure Straight (py : Python) (target : String) (register : Text) (g : GateStatement) :
    Prop where
  register : ∀ r ∈ g.operands, r.register = register
  bare : g.label ∈ ["cz", "sx", "cx"] → g.param_texts = []
  duration : g.label = "id" → g.param_texts.length ≤ 1
  angle : target = "cnot" → g.label = "ry" → ∀ p ∈ g.param_texts, ∀ x,
    py.parse p = some x → py.format x = py.format neg_half_pi

/-- Every gate of the program is. -/
def AllStraight (py : Python) (target : String) (program : List (Option Statement)) : Prop :=
  ∀ register ∈ program.filterMap qubit_register, ∀ g ∈ program.filterMap gate_statement,
    Straight py target register g

/-! ## What is printed -/

theorem values_of_texts (h : Numeric py (g.params.getD [])) :
    List.Forall₂ (fun p x => py.parse p = some x) g.param_texts (g.values py) := by
  unfold GateStatement.param_texts GateStatement.values param_values
  by_cases hempty : g.params.getD [] = []
  · rw [if_pos hempty, if_pos hempty]
    exact .nil
  rw [if_neg hempty, if_neg hempty]
  have hall := h hempty
  generalize (g.params.getD []).splitOn ',' = parts at hall
  induction parts with
  | nil => exact .nil
  | cons p parts ih =>
      rw [List.forall_mem_cons] at hall
      obtain ⟨x, hx⟩ := Option.isSome_iff_exists.1 hall.1
      have hmap : (p :: parts).filterMap (fun p => py.parse (strip p)) =
          x :: parts.filterMap fun p => py.parse (strip p) := List.filterMap_cons_some hx
      rw [hmap, List.map_cons]
      exact .cons hx (ih hall.2)

/-- The statement that is printed for a gate with this name. -/
def printed_gate (name : String) (params : Option Text) (qubits : List Int) : GateStatement :=
  ⟨name.toList, params, qubits.map qubit_ref⟩

theorem spells_angle_line {name : String} {y : Float64} {qubits : List Int}
    (hname : Run py.is_word name.toList) (hne : qubits ≠ []) (hq : ∀ q ∈ qubits, 0 ≤ q) :
    (printed_gate name (some (py.format y)) qubits).Spells py
      (angle_line name (py.format y) (qubits_text qubits)) := by
  refine ⟨[' '], qubits_text qubits, [], hname, ?_, run_space, operands_qubits_text hne hq,
    nofun, ?_⟩
  · rintro p hp c hc
    obtain rfl := Option.some.inj hp
    exact (format_char hc).2.1
  · simp [printed_gate, angle_line, paren]

theorem spells_plain_line {name : String} {qubits : List Int}
    (hname : Run py.is_word name.toList) (hne : qubits ≠ []) (hq : ∀ q ∈ qubits, 0 ≤ q) :
    (printed_gate name none qubits).Spells py (plain_line name (qubits_text qubits)) := by
  refine ⟨[' '], qubits_text qubits, [], hname, nofun, run_space, operands_qubits_text hne hq,
    nofun, ?_⟩
  simp [printed_gate, plain_line, paren]

theorem param_texts_format (name : String) (y : Float64) (qubits : List Int) :
    (printed_gate name (some (py.format y)) qubits).param_texts = [py.format y] := by
  have hne := (py.format_chars y).1
  have hsplit : (py.format y).splitOn ',' = [py.format y] := by
    rw [List.splitOn, List.splitOnP_eq_singleton]
    intro c hc
    simpa using (format_char hc).1
  show (if py.format y = [] then [] else ((py.format y).splitOn ',').map strip) = _
  rw [if_neg hne, hsplit, List.map_singleton,
    strip_word hne fun c hc => (format_char hc).2.2.1]

theorem printed_qubits {name : String} {params : Option Text} {qubits : List Int}
    (hq : ∀ q ∈ qubits, 0 ≤ q) : (printed_gate name params qubits).qubits py = qubits := by
  unfold printed_gate GateStatement.qubits
  rw [List.map_map]
  apply (List.map_congr_left _).trans (List.map_id qubits)
  intro q hqmem
  obtain ⟨n, rfl⟩ := Int.eq_ofNat_of_zero_le (hq q hqmem)
  show (int_value py (nat_text n) : Int) = n
  rw [int_value_nat_text]

/-- What is printed for an operation that a gate was taken as. -/
inductive Printed (py : Python) (target : String) (g : GateStatement) (op : GateOp) : Prop where
  | angle (x y : Float64) (hname : g.label ∈ ["rx", "ry", "rz"]) (hvalues : g.values py = [x])
      (hy : y = if target = "cnot" ∧ g.label = "ry" then neg_half_pi else x)
      (hprint : ir_gate_to_openqasm py op target =
        .ok (angle_line g.label (py.format y) (qubits_text op.qubits)))
  | plain (hname : g.label ∈ ["cz", "sx", "cx", "id"])
      (hprint : ir_gate_to_openqasm py op target = .ok (plain_line g.label (qubits_text op.qubits)))

theorem mem_of_lookup_eq {α : Type} {l : List (String × α)} {key : String} {x : α}
    (h : l.lookup key = some x) : (key, x) ∈ l := by
  obtain ⟨l₁, l₂, rfl, -⟩ := List.lookup_eq_some_iff.1 h
  simp

theorem printed_cz (h : TakesGate py "cz" g op) : Printed py "cz" g op := by
  have hmapped : (cz_map.lookup g.label).map (passed_on (g.values py)) =
      some (op.gate, op.params) := h.mapped
  obtain ⟨entry, hlookup, hentry⟩ := Option.map_eq_some_iff.1 hmapped
  have hrotation : ∀ gate : NativeGate, gate.value ∈ ["rx", "ry", "rz"] →
      gate_specs.lookup gate.value = some ⟨1, 1⟩ → g.label = gate.value → op.gate = gate →
      op.params = g.values py → Printed py "cz" g op := by
    intro gate hvalue hspec hlabel hgate hparams
    subst hgate
    obtain ⟨x, hx⟩ := params_one hspec rfl
    refine .angle x x ?_ (hparams ▸ hx) ?_ ?_
    · rwa [hlabel]
    · rw [if_neg fun hcnot => absurd hcnot.1 (by decide)]
    · rw [hlabel]
      exact print_cz_angle hvalue hx
  have hplain : ∀ gate : NativeGate, gate.value ∈ ["cz", "id"] → g.label = gate.value →
      op.gate = gate → Printed py "cz" g op := by
    intro gate hvalue hlabel hgate
    subst hgate
    have hnone : op.gate.value ∉ ["rx", "ry", "rz"] ∧ op.gate.value ≠ "virtual_z" := by
      simp only [List.mem_cons, List.not_mem_nil, or_false] at hvalue
      rcases hvalue with hvalue | hvalue <;> rw [hvalue] <;> decide
    refine .plain ?_ ?_
    · rw [hlabel]
      simp only [List.mem_cons, List.not_mem_nil, or_false] at hvalue ⊢
      tauto
    · unfold ir_gate_to_openqasm ir_gate_to_openqasm_cz
      rw [if_pos rfl, if_neg hnone.1, if_neg hnone.2, if_pos hvalue, hlabel]
  have hmem := mem_of_lookup_eq hlookup
  simp only [cz_map, List.mem_cons, List.not_mem_nil, or_false, Prod.mk.injEq] at hmem
  rcases hmem with ⟨hlabel, rfl⟩ | ⟨hlabel, rfl⟩ | ⟨hlabel, rfl⟩ | ⟨hlabel, rfl⟩ | ⟨hlabel, rfl⟩
  · obtain ⟨hgate, hparams⟩ := Prod.mk.inj hentry
    exact hrotation .rx (by decide) rfl hlabel hgate.symm hparams.symm
  · obtain ⟨hgate, hparams⟩ := Prod.mk.inj hentry
    exact hrotation .ry (by decide) rfl hlabel hgate.symm hparams.symm
  · obtain ⟨hgate, hparams⟩ := Prod.mk.inj hentry
    exact hrotation .rz (by decide) rfl hlabel hgate.symm hparams.symm
  · exact hplain .cz (by decide) hlabel (Prod.mk.inj hentry).1.symm
  · exact hplain .id (by decide) hlabel (Prod.mk.inj hentry).1.symm

theorem printed_cnot (h : TakesGate py "cnot" g op) : Printed py "cnot" g op := by
  have hmapped := h.mapped
  unfold mapped at hmapped
  rw [if_neg (by decide), if_pos rfl] at hmapped
  cases hlookup : cnot_simple.lookup (String.ofList g.name) with
  | some entry =>
      rw [hlookup] at hmapped
      have hentry := Option.some.inj hmapped
      have hmem := mem_of_lookup_eq hlookup
      have hplain : ∀ (gate : NativeGate) (name : String), name ∈ ["sx", "cx", "id"] →
          g.label = name → op.gate = gate →
          (∀ qubits, ir_gate_to_openqasm_cnot py gate.value op.params qubits =
            .ok (plain_line name qubits)) → Printed py "cnot" g op := by
        intro gate name hname hlabel hgate hprint
        subst hgate
        refine .plain ?_ ?_
        · rw [hlabel]
          exact List.mem_cons_of_mem _ hname
        · unfold ir_gate_to_openqasm
          rw [if_neg (by decide), if_pos rfl, hprint, hlabel]
      simp only [cnot_simple, List.mem_cons, List.not_mem_nil, or_false, Prod.mk.injEq] at hmem
      rcases hmem with ⟨hlabel, rfl⟩ | ⟨hlabel, rfl⟩ | ⟨hlabel, rfl⟩ | ⟨hlabel, rfl⟩
      · exact hplain .x90 "sx" (by decide) hlabel (Prod.mk.inj hentry).1.symm fun _ => rfl
      · obtain ⟨hgate, hparams⟩ := Prod.mk.inj hentry
        change NativeGate.virtual_z = op.gate at hgate
        change g.values py = op.params at hparams
        have hspec : gate_specs.lookup op.gate.value = some ⟨1, 1⟩ := by
          rw [← hgate]
          rfl
        obtain ⟨x, hx⟩ := params_one hspec rfl
        have hry : ¬ ("cnot" = "cnot" ∧ g.label = "ry") := by
          rintro ⟨-, hry⟩
          rw [show g.label = "rz" from hlabel] at hry
          exact absurd hry (by decide)
        refine .angle x x ?_ (hparams.trans hx) (if_neg hry).symm ?_
        · rw [show g.label = "rz" from hlabel]
          decide
        · rw [show g.label = "rz" from hlabel, ir_gate_to_openqasm, ← hgate, hx]
          rfl
      · exact hplain .cnot "cx" (by decide) hlabel (Prod.mk.inj hentry).1.symm fun _ => rfl
      · exact hplain .id "id" (by decide) hlabel (Prod.mk.inj hentry).1.symm fun _ => rfl
  | none =>
      rw [hlookup] at hmapped
      -- the table has no `ry`, which is looked at behind it
      rcases hvalues : g.values py with _ | ⟨x, _ | ⟨y, rest⟩⟩
      · rw [hvalues] at hmapped
        cases hmapped
      · rw [hvalues] at hmapped
        dsimp only at hmapped
        by_cases hry : String.ofList g.name = "ry" ∧ py.is_close x neg_half_pi = true
        · rw [if_pos hry] at hmapped
          have hgate : NativeGate.y_minus_90 = op.gate := (Prod.mk.inj (Option.some.inj hmapped)).1
          have hlabel : g.label = "ry" := hry.1
          refine .angle x neg_half_pi ?_ hvalues (if_pos ⟨rfl, hlabel⟩).symm ?_
          · rw [hlabel]
            decide
          · rw [hlabel, ir_gate_to_openqasm, ← hgate]
            rfl
        · rw [if_neg hry] at hmapped
          cases hmapped
      · rw [hvalues] at hmapped
        cases hmapped

/-! ## Gate by gate -/

theorem same_value_format {p : Text} {x y : Float64} (hx : py.parse p = some x) :
    SameValue py p (py.format y) ↔ py.format x = py.format y := by
  obtain ⟨z, hz⟩ := py.parse_format y
  have hstable := py.format_stable y z hz
  constructor
  · rintro ⟨x', z', hx', hz', heq⟩
    rw [hx] at hx'
    rw [hz] at hz'
    cases hx'
    cases hz'
    rw [heq, hstable]
  · intro heq
    exact ⟨x, z, hx, hz, heq.trans hstable.symm⟩

theorem label_toList (g : GateStatement) : g.label.toList = g.name := String.toList_ofList

/-- The name of a gate that is printed. -/
theorem run_label {names : List String} (hnames : names.all (fun name => !name.toList.isEmpty &&
      name.toList.all fun c => c.toNat < 128 && (c.isAlphanum || c == '_')) = true)
    (hname : g.label ∈ names) : Run py.is_word g.label.toList := by
  have hall := List.all_eq_true.1 hnames _ hname
  rw [Bool.and_eq_true] at hall
  apply run_word _ hall.2
  intro hnil
  rw [hnil] at hall
  cases hall.1

/-- Only the parameters and the names of registers are left to compare. -/
theorem prints_as_iff {register line : Text} {params : Option Text}
    (hprint : ir_gate_to_openqasm py op target = .ok line) (hqubits : op.qubits = g.qubits py)
    (hspells : (printed_gate g.label params op.qubits).Spells py line)
    (hpos : ∀ q ∈ op.qubits, 0 ≤ q) :
    PrintsAs py target register g op ↔
      SameParams py g (printed_gate g.label params op.qubits) ∧
        ∀ r ∈ g.operands, r.register = register := by
  constructor
  · rintro ⟨line', printed, hprint', hspells', hsame⟩
    rw [hprint] at hprint'
    cases hprint'
    obtain rfl := hspells.unique hspells'
    exact ⟨hsame.params, hsame.register⟩
  · rintro ⟨hparams, hregister⟩
    refine ⟨line, _, hprint, hspells, label_toList g, hparams, ?_, hregister, ?_⟩
    · rw [printed_qubits hpos, hqubits]
    · intro r hr
      obtain ⟨q, -, rfl⟩ := List.mem_map.1 hr
      rfl

/-- **A gate that is taken is printed as it was written just if it is straight.** -/
theorem prints_as_straight (register : Text) (htarget : target = "cz" ∨ target = "cnot")
    (h : TakesGate py target g op) :
    PrintsAs py target register g op ↔ Straight py target register g := by
  have hpos : ∀ q ∈ op.qubits, 0 ≤ q := by
    rw [h.qubits]
    intro q hq
    obtain ⟨r, -, rfl⟩ := List.mem_map.1 hq
    exact Int.natCast_nonneg _
  have hprinted : Printed py target g op := by
    rcases htarget with rfl | rfl
    · exact printed_cz h
    · exact printed_cnot h
  cases hprinted with
  | angle x y hname hvalues hy hprint =>
      have hword : Run py.is_word g.label.toList := run_label (by decide) hname
      rw [prints_as_iff hprint h.qubits (spells_angle_line hword (qubits_ne_nil op) hpos) hpos]
      have hother : g.label ≠ "id" ∧ g.label ∉ ["cz", "sx", "cx"] := by
        simp only [List.mem_cons, List.not_mem_nil, or_false] at hname
        rcases hname with hname | hname | hname <;> rw [hname] <;> decide
      have htexts := values_of_texts h.numeric
      rw [hvalues] at htexts
      obtain ⟨p, hp, hx⟩ : ∃ p, g.param_texts = [p] ∧ py.parse p = some x := by
        generalize g.param_texts = texts at htexts
        cases htexts with
        | cons hx hnil =>
            cases hnil
            exact ⟨_, rfl, hx⟩
      have hparams : SameParams py g (printed_gate g.label (some (py.format y)) op.qubits) ↔
          py.format x = py.format y := by
        unfold SameParams
        rw [if_neg hother.1, param_texts_format, hp, List.forall₂_cons, same_value_format hx]
        exact and_iff_left .nil
      rw [hparams]
      constructor
      · rintro ⟨hformat, hregister⟩
        refine ⟨hregister, fun hin => absurd hin hother.2, fun hid => absurd hid hother.1, ?_⟩
        intro hcnot hry p' hp' x' hx'
        rw [hp, List.mem_singleton] at hp'
        rw [hp', hx] at hx'
        cases hx'
        rw [hy, if_pos ⟨hcnot, hry⟩] at hformat
        exact hformat
      · rintro ⟨hregister, -, -, hangle⟩
        refine ⟨?_, hregister⟩
        by_cases hcnot : target = "cnot" ∧ g.label = "ry"
        · rw [hy, if_pos hcnot]
          exact hangle hcnot.1 hcnot.2 p (by rw [hp]; exact List.mem_singleton_self p) x hx
        · rw [hy, if_neg hcnot]
  | plain hname hprint =>
      have hword : Run py.is_word g.label.toList := run_label (by decide) hname
      rw [prints_as_iff hprint h.qubits (spells_plain_line hword (qubits_ne_nil op) hpos) hpos]
      have hry : g.label ≠ "ry" := by
        simp only [List.mem_cons, List.not_mem_nil, or_false] at hname
        rcases hname with hname | hname | hname | hname <;> rw [hname] <;> decide
      have hnone : (printed_gate g.label none op.qubits).param_texts = [] := rfl
      unfold SameParams
      by_cases hid : g.label = "id"
      · rw [if_pos hid]
        have hbare : g.label ∉ ["cz", "sx", "cx"] := by
          rw [hid]
          decide
        constructor
        · rintro ⟨hcount, hregister⟩
          exact ⟨hregister, fun hin => absurd hin hbare, fun _ => hcount,
            fun _ hry' => absurd hry' hry⟩
        · rintro ⟨hregister, -, hduration, -⟩
          exact ⟨hduration hid, hregister⟩
      · rw [if_neg hid, hnone, List.forall₂_nil_right_iff]
        have hbare : g.label ∈ ["cz", "sx", "cx"] := by
          simp only [List.mem_cons, List.not_mem_nil, or_false] at hname ⊢
          tauto
        constructor
        · rintro ⟨hempty, hregister⟩
          exact ⟨hregister, fun _ => hempty, fun h => absurd h hid, fun _ hry' => absurd hry' hry⟩
        · rintro ⟨hregister, hempty, -, -⟩
          exact ⟨hempty hbare, hregister⟩

/-! ## The program -/

theorem forall₂_iff_forall {α β : Type} {R S : α → β → Prop} {P : α → Prop} {xs : List α}
    {ys : List β} (h : List.Forall₂ R xs ys) (hiff : ∀ x y, R x y → (S x y ↔ P x)) :
    List.Forall₂ S xs ys ↔ ∀ x ∈ xs, P x := by
  induction h with
  | nil => exact iff_of_true .nil nofun
  | cons hxy _ ih => rw [List.forall₂_cons, List.forall_mem_cons, hiff _ _ hxy, ih]

/-- What the parser takes at face value, said of a program. -/
theorem at_face_value_iff {program : List (Option Statement)} {ir : NativeGateIR}
    (htarget : target = "cz" ∨ target = "cnot")
    (hgates : List.Forall₂ (TakesGate py target) (program.filterMap gate_statement) ir.gates)
    (hregister : ∃ register, program.filterMap qubit_register = [register]) :
    AtFaceValue py target program ir ↔ AllStraight py target program := by
  obtain ⟨register, hregister⟩ := hregister
  unfold AtFaceValue AllStraight
  rw [hregister]
  have hiff := forall₂_iff_forall hgates (S := PrintsAs py target register)
    (P := Straight py target register) fun g op h => prints_as_straight register htarget h
  constructor
  · rintro ⟨register', hsame, hprints⟩ other hother
    cases hsame
    rw [List.mem_singleton.1 hother]
    exact hiff.1 hprints
  · intro hall
    exact ⟨register, rfl, hiff.2 (hall register (List.mem_singleton_self register))⟩

/-- `qubit[2] q;` and a `cz`. -/
def cz_program (params : Option Text) : List (Option Statement) :=
  [some (.qubits "2".toList "q".toList),
    some (.gate ⟨"cz".toList, params, [⟨"q".toList, "0".toList⟩, ⟨"q".toList, "1".toList⟩]⟩)]

theorem run_of_all {p : Char → Bool} {w : Text} (hne : w ≠ []) (h : w.all p = true) : Run p w :=
  ⟨hne, List.all_eq_true.1 h⟩

theorem sample_register :
    Declares sample_python "qubit" "2".toList "q".toList "qubit[2] q;".toList :=
  ⟨[' '], [], run_of_all (by decide) (by decide), run_space, run_of_all (by decide) (by decide),
    nofun, by decide⟩

theorem sample_bits : Declares sample_python "bit" "2".toList "c".toList "bit[2] c;".toList :=
  ⟨[' '], [], run_of_all (by decide) (by decide), run_space, run_of_all (by decide) (by decide),
    nofun, by decide⟩

theorem sample_operands : Operands sample_python "q[0], q[1]".toList
    [⟨"q".toList, "0".toList⟩, ⟨"q".toList, "1".toList⟩] := by
  have hword : Run sample_python.is_word "q".toList := run_of_all (by decide) (by decide)
  have hzero : Run sample_python.is_digit "0".toList := run_of_all (by decide) (by decide)
  have hone : Run sample_python.is_digit "1".toList := run_of_all (by decide) (by decide)
  have htail : Tail sample_python ", q[1]".toList [⟨"q".toList, "1".toList⟩] :=
    .cons (a := []) (b := [' ']) (r := ⟨"q".toList, "1".toList⟩) nofun (by decide) ⟨hword, hone⟩ .nil
  exact ⟨_, _, _, ⟨hword, hzero⟩, htail, by decide, rfl⟩

theorem sample_cz : GateStatement.Spells sample_python
    ⟨"cz".toList, none, [⟨"q".toList, "0".toList⟩, ⟨"q".toList, "1".toList⟩]⟩
      "cz q[0], q[1];".toList :=
  ⟨[' '], _, [], run_of_all (by decide) (by decide), (fun p hp => by cases hp), run_space,
    sample_operands, (fun _ hc => by cases hc), by decide⟩

theorem sample_says : Says sample_python "qubit[2] q;\ncz q[0], q[1];".toList (cz_program none) := by
  have hlines : source_lines "qubit[2] q;\ncz q[0], q[1];".toList =
      ["qubit[2] q;".toList, "cz q[0], q[1];".toList] := rfl
  unfold Says
  rw [hlines]
  exact .cons ⟨_, rfl, sample_register⟩ (.cons ⟨_, rfl, sample_cz⟩ .nil)

theorem sample_says_angle :
    Says sample_python "qubit[2] q;\ncz(0.5) q[0], q[1];".toList (cz_program (some "0.5".toList)) := by
  have hlines : source_lines "qubit[2] q;\ncz(0.5) q[0], q[1];".toList =
      ["qubit[2] q;".toList, "cz(0.5) q[0], q[1];".toList] := rfl
  have hparams : ∀ p ∈ some "0.5".toList, ∀ c ∈ p, c ≠ ')' := by
    intro p hp c hc
    cases hp
    rintro rfl
    exact absurd hc (by decide)
  unfold Says
  rw [hlines]
  refine .cons ⟨_, rfl, sample_register⟩ (.cons ⟨_, rfl, ?_⟩ .nil)
  exact ⟨[' '], _, [], run_of_all (by decide) (by decide), hparams, run_space, sample_operands,
    nofun, by decide⟩

end CodaNode.Qasm
