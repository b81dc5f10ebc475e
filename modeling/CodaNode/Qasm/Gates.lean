/-
`Qasm/Gates.lean` -- printing a gate and reading it again.

Whatever the target, the line that is printed for a gate is read back as that gate, with the
parameters that their texts stand for, and printed for what has been read back (`Stable`).
-/
import CodaNode.Qasm.Lines
import CodaNode.Qasm.Printer

set_option autoImplicit false

namespace CodaNode.Qasm

open Regex Regex.Re CodaNode.Ir

variable {py : Python}

/-! ## Numbers -/

theorem ascii_of_digit {c : Char} (h : c.isDigit = true) : c.toNat < 128 := by
  rw [Char.isDigit, Bool.and_eq_true, decide_eq_true_eq, decide_eq_true_eq] at h
  have hle : c.val.toNat ≤ 57 := h.2
  show c.val.toNat < 128
  omega

theorem nat_text_digit {n : Nat} {c : Char} (h : c ∈ nat_text n) : c.isDigit = true :=
  Nat.isDigit_of_mem_toDigits (by omega) (by omega) h

theorem run_nat_text (n : Nat) : Run py.is_digit (nat_text n) := by
  refine ⟨Nat.toDigits_ne_nil, fun c hc => ?_⟩
  have hd := nat_text_digit hc
  rw [is_digit_ascii (ascii_of_digit hd), hd]

theorem int_value_nat_text (n : Nat) : int_value py (nat_text n) = n := by
  have hdigits : ∀ (l : Text) (m : Nat), (∀ c ∈ l, c.isDigit = true) →
      l.foldl (fun n c => 10 * n + (py.decimal c).getD 0) m = Nat.ofDigitChars 10 l m := by
    intro l
    induction l with
    | nil =>
        intro m _
        rw [Nat.ofDigitChars_nil]
        rfl
    | cons c l ih =>
        intro m h
        rw [List.forall_mem_cons] at h
        rw [List.foldl_cons, ih _ h.2, Nat.ofDigitChars_cons, py.decimal_ascii c (ascii_of_digit h.1),
          if_pos h.1]
        rfl
  rw [int_value, hdigits _ _ fun c hc => nat_text_digit hc]
  exact Nat.ofDigitChars_ten_toDigits

/-- An index of a program is read back. -/
theorem parse_int_text {q : Int} (hq : 0 ≤ q ∧ q ≤ 50) : parse_int py (int_text q) = .ok q := by
  obtain ⟨n, rfl⟩ := Int.eq_ofNat_of_zero_le hq.1
  have hn : n < 10 ^ 2 := by omega
  have hlen : (nat_text n).length ≤ 2 := (Nat.length_toDigits_le_iff (by omega) (by omega)).2 hn
  show parse_int py (nat_text n) = _
  rw [parse_int, if_neg (by omega), int_value_nat_text]

theorem run_int_text {q : Int} (hq : 0 ≤ q) : Run py.is_digit (int_text q) := by
  obtain ⟨n, rfl⟩ := Int.eq_ofNat_of_zero_le hq
  exact run_nat_text n

/-! ## Operands -/

/-- `q[{q}]`. -/
def qubit_ref (q : Int) : Ref := ⟨"q".toList, int_text q⟩

theorem ref_text_eq (register : String) (index : Text) :
    ref_text register index = (Ref.mk register.toList index).text := by
  rw [ref_text, Ref.text]
  simp only [List.append_assoc, List.cons_append]
  rfl

theorem qubit_ref_valid {q : Int} (hq : 0 ≤ q) : (qubit_ref q).Valid py :=
  ⟨run_word (by decide) (by decide), run_int_text hq⟩

theorem qubits_tail {qubits : List Int} (h : ∀ q ∈ qubits, 0 ≤ q) :
    Tail py (qubits.flatMap fun q => ", ".toList ++ (qubit_ref q).text) (qubits.map qubit_ref) := by
  induction qubits with
  | nil => exact .nil
  | cons q qubits ih =>
      rw [List.forall_mem_cons] at h
      rw [List.flatMap_cons, List.map_cons]
      have hspace : Spaces [' '] := fun c hc => by
        rw [List.mem_singleton.1 hc]
        rfl
      exact .cons (a := []) nofun hspace (qubit_ref_valid h.1) (ih h.2)

/-- The printed operands. -/
theorem operands_qubits_text {qubits : List Int} (hne : qubits ≠ []) (h : ∀ q ∈ qubits, 0 ≤ q) :
    Operands py (qubits_text qubits) (qubits.map qubit_ref) := by
  obtain ⟨q, rest, rfl⟩ := List.exists_cons_of_ne_nil hne
  rw [List.forall_mem_cons] at h
  refine ⟨qubit_ref q, rest.map qubit_ref, _, qubit_ref_valid h.1, qubits_tail h.2, ?_, rfl⟩
  have hjoin : ∀ (a : Text) (l : List Int),
      ", ".toList.intercalate (a :: l.map fun q => ref_text "q" (int_text q)) =
        a ++ l.flatMap fun q => ", ".toList ++ (qubit_ref q).text := by
    intro a l
    induction l generalizing a with
    | nil => simp [List.intercalate]
    | cons b l ih =>
        rw [List.map_cons, intercalate_cons_cons, ih, List.flatMap_cons, ref_text_eq, List.append_assoc]
        rfl
  rw [qubits_text, List.map_cons, hjoin, ref_text_eq]
  rfl

/-- The printed operands are read back. -/
theorem parse_qubits_text {qubits : List Int} (hne : qubits ≠ [])
    (h : ∀ q ∈ qubits, 0 ≤ q ∧ q ≤ 50) : parse_qubits py (qubits_text qubits) = .ok qubits := by
  rw [parse_qubits, findall_operands (operands_qubits_text hne fun q hq => (h q hq).1)]
  clear hne
  induction qubits with
  | nil => rfl
  | cons q qubits ih =>
      rw [List.forall_mem_cons] at h
      rw [List.map_cons, List.map_cons, List.mapM_cons, ih h.2]
      show (parse_int py (int_text q) >>= _) = _
      rw [parse_int_text h.1]
      rfl

/-! ## Parameters -/

theorem format_char {x : Float64} {c : Char} (h : c ∈ py.format x) :
    c ≠ ',' ∧ c ≠ ')' ∧ is_space c = false ∧ is_linebreak c = false := by
  have hall : "0123456789+-.einfa".toList.all
      (fun c => c != ',' && (c != ')' && (!is_space c && !is_linebreak c))) = true := by decide
  have hc := List.all_eq_true.1 hall c ((py.format_chars x).2 c h)
  simpa only [Bool.and_eq_true, bne_iff_ne, Bool.not_eq_true'] using hc

theorem strip_word {w : Text} (hne : w ≠ []) (h : ∀ c ∈ w, is_space c = false) : strip w = w := by
  have hhead : ∃ c rest, w = c :: rest ∧ is_space c = false := by
    obtain ⟨c, rest, rfl⟩ := List.exists_cons_of_ne_nil hne
    exact ⟨c, rest, rfl, h c List.mem_cons_self⟩
  have hlast : ∃ init c, w = init ++ [c] ∧ is_space c = false :=
    ⟨w.dropLast, w.getLast hne, (List.dropLast_append_getLast hne).symm,
      h _ (List.getLast_mem hne)⟩
  have hnil : ∀ c ∈ ([] : Text), is_space c = true := nofun
  have hstrip := strip_append hhead hlast hnil
  rwa [List.append_nil] at hstrip

/-- A printed parameter is read back as what its text stands for. -/
theorem parse_params_format {x y : Float64} (h : py.parse (py.format x) = some y) :
    parse_params py (py.format x) = .ok [y] := by
  have hne := (py.format_chars x).1
  have hsplit : (py.format x).splitOn ',' = [py.format x] := by
    rw [List.splitOn, List.splitOnP_eq_singleton]
    intro c hc
    rw [beq_eq_false_iff_ne]
    exact (format_char hc).1
  rw [parse_params, if_neg hne, hsplit]
  show (parse_float py (strip (py.format x)) >>= _) = _
  rw [strip_word hne fun c hc => (format_char hc).2.2.1, parse_float, h]
  rfl

/-! ## Lines -/

theorem accepts_angle_line {name : String} {params : Text} {qubits : List Int}
    (hname : Run py.is_word name.toList) (hparams : ∀ c ∈ params, c ≠ ')') (hne : qubits ≠ [])
    (hq : ∀ q ∈ qubits, 0 ≤ q) :
    (gate_re py).Accepts (angle_line name params (qubits_text qubits)) []
      [(3, qubits_text qubits), (2, params), (1, name.toList)] := by
  have hspace : Run is_space [' '] := ⟨List.cons_ne_nil _ _, fun c hc => by
    rw [List.mem_singleton.1 hc]
    rfl⟩
  refine accepts_gate.2 ⟨name.toList, some params, [' '], _, _, [], hname, fun p hp => ?_, hspace,
    operands_qubits_text hne hq, nofun, ?_, rfl⟩
  · cases hp
    exact hparams
  · simp [angle_line, paren]

theorem accepts_plain_line {name : String} {qubits : List Int}
    (hname : Run py.is_word name.toList) (hne : qubits ≠ []) (hq : ∀ q ∈ qubits, 0 ≤ q) :
    (gate_re py).Accepts (plain_line name (qubits_text qubits)) []
      [(3, qubits_text qubits), (1, name.toList)] := by
  have hspace : Run is_space [' '] := ⟨List.cons_ne_nil _ _, fun c hc => by
    rw [List.mem_singleton.1 hc]
    rfl⟩
  refine accepts_gate.2 ⟨name.toList, none, [' '], _, _, [], hname, nofun, hspace,
    operands_qubits_text hne hq, nofun, ?_, rfl⟩
  simp [plain_line, paren]

/-- A name that can be printed for a gate. -/
structure GateName (py : Python) (name : String) : Prop where
  word : Run py.is_word name.toList
  other : name.toList ≠ "OPENQASM".toList ∧ name.toList ≠ "include".toList

/-- A line with a parameter. -/
theorem read_angle_line {target name : String} {x y : Float64} {qubits : List Int}
    (hname : GateName py name) (hxy : py.parse (py.format x) = some y) (hne : qubits ≠ [])
    (hq : ∀ q ∈ qubits, 0 ≤ q ∧ q ≤ 50) :
    read_line py target (angle_line name (py.format x) (qubits_text qubits)) =
      (openqasm_gate_to_ir py name [y] qubits target).map .gate := by
  have hw : (gate_re py).Accepts (angle_line name (py.format x) (qubits_text qubits)) []
      [(3, qubits_text qubits), (2, py.format x), (1, name.toList)] :=
    accepts_angle_line hname.word (fun c hc => (format_char hc).2.1) hne fun q hq' => (hq q hq').1
  have hleads : Leads py (angle_line name (py.format x) (qubits_text qubits)) name.toList '(' := by
    refine ⟨py.format x ++ ')' :: ' ' :: qubits_text qubits ++ [';'], ?_, hname.word,
      IsSign.not_word (by decide)⟩
    simp [angle_line]
  have hread := read_gate target hleads (by decide) hname.other hw []
  rw [List.append_nil] at hread
  rw [hread, read_gate_line]
  show (parse_params py (py.format x) >>= fun params => parse_qubits py (qubits_text qubits) >>=
    fun qubits => openqasm_gate_to_ir py (String.ofList name.toList) params qubits target >>= _) = _
  rw [parse_params_format hxy, parse_qubits_text hne hq, String.ofList_toList]
  rfl

/-- A line without a parameter. -/
theorem read_plain_line {target name : String} {qubits : List Int} (hname : GateName py name)
    (hne : qubits ≠ []) (hq : ∀ q ∈ qubits, 0 ≤ q ∧ q ≤ 50) :
    read_line py target (plain_line name (qubits_text qubits)) =
      (openqasm_gate_to_ir py name [] qubits target).map .gate := by
  have hw : (gate_re py).Accepts (plain_line name (qubits_text qubits)) []
      [(3, qubits_text qubits), (1, name.toList)] :=
    accepts_plain_line hname.word hne fun q hq' => (hq q hq').1
  have hleads : Leads py (plain_line name (qubits_text qubits)) name.toList ' ' := by
    refine ⟨qubits_text qubits ++ [';'], ?_, hname.word, is_space_not_word rfl⟩
    simp [plain_line]
  have hread := read_gate target hleads (by decide) hname.other hw []
  rw [List.append_nil] at hread
  rw [hread, read_gate_line]
  show (Except.ok [] >>= fun params => parse_qubits py (qubits_text qubits) >>=
    fun qubits => openqasm_gate_to_ir py (String.ofList name.toList) params qubits target >>= _) = _
  rw [parse_qubits_text hne hq, String.ofList_toList]
  rfl

/-! ## Gates -/

/-- What the printed gate is read back as: each parameter is what its text stands for, and the
duration of `id` is lost. -/
structure Reread (py : Python) (op op' : GateOp) : Prop where
  gate : op'.gate = op.gate
  qubits : op'.qubits = op.qubits
  params : if op.gate = .id then op'.params = [.zero]
    else List.Forall₂ (fun x y => py.parse (py.format x) = some y) op.params op'.params

/-- The line is read back as the gate, and printed for it again. -/
def Stable (py : Python) (target : String) (op : GateOp) (line : Text) : Prop :=
  ∃ op', read_line py target line = .ok (.gate op') ∧ Reread py op op' ∧
    ir_gate_to_openqasm py op' target = .ok line

theorem stable_of {target : String} {op : GateOp} {line : Text} (params : List Float64)
    (hread : read_line py target line = (gate_op op.gate op.qubits params).map .gate)
    (hlen : params.length = op.params.length)
    (hparams : if op.gate = .id then params = [.zero]
      else List.Forall₂ (fun x y => py.parse (py.format x) = some y) op.params params)
    (hprint : ∀ op' : GateOp, op'.gate = op.gate → op'.qubits = op.qubits → op'.params = params →
      ir_gate_to_openqasm py op' target = .ok line) : Stable py target op line := by
  have hshaped : Shaped op.gate op.qubits params := fun spec hspec =>
    ⟨(op.shaped spec hspec).1, hlen.trans (op.shaped spec hspec).2⟩
  refine ⟨⟨op.gate, op.qubits, params, hshaped⟩, ?_, ⟨rfl, rfl, hparams⟩, hprint _ rfl rfl rfl⟩
  have hop : gate_op op.gate op.qubits params = .ok ⟨op.gate, op.qubits, params, hshaped⟩ :=
    mapError_ok.2 (validate_gate_shape_ok.2 ⟨rfl, rfl, rfl⟩)
  rw [hread, hop]
  rfl

/-- A gate with one parameter. -/
theorem stable_angle {target name : String} {op : GateOp} {x : Float64} (hname : GateName py name)
    (hparams : op.params = [x]) (hid : op.gate ≠ .id) (hne : op.qubits ≠ [])
    (hq : ∀ q ∈ op.qubits, 0 ≤ q ∧ q ≤ 50)
    (hparse : ∀ y qubits, openqasm_gate_to_ir py name [y] qubits target =
      gate_op op.gate qubits [y])
    (hprint : ∀ (op' : GateOp) (y : Float64), op'.gate = op.gate → op'.params = [y] →
      ir_gate_to_openqasm py op' target =
        .ok (angle_line name (py.format y) (qubits_text op'.qubits))) :
    Stable py target op (angle_line name (py.format x) (qubits_text op.qubits)) := by
  obtain ⟨y, hy⟩ := py.parse_format x
  refine stable_of [y] ?_ (by rw [hparams]; rfl) ?_ fun op' hgate hqubits hparams' => ?_
  · rw [read_angle_line hname hy hne hq, hparse]
  · rw [if_neg hid, hparams]
    exact .cons hy .nil
  · rw [hprint op' y hgate hparams', hqubits, py.format_stable x y hy]

/-- A gate without parameters that are printed. -/
theorem stable_plain {target name : String} {op : GateOp} (params : List Float64)
    (hname : GateName py name) (hlen : params.length = op.params.length)
    (hparams : if op.gate = .id then params = [.zero] else params = []) (hne : op.qubits ≠ [])
    (hq : ∀ q ∈ op.qubits, 0 ≤ q ∧ q ≤ 50)
    (hparse : ∀ qubits, openqasm_gate_to_ir py name [] qubits target =
      gate_op op.gate qubits params)
    (hprint : ∀ op' : GateOp, op'.gate = op.gate →
      ir_gate_to_openqasm py op' target = .ok (plain_line name (qubits_text op'.qubits))) :
    Stable py target op (plain_line name (qubits_text op.qubits)) := by
  refine stable_of params ?_ hlen ?_ fun op' hgate hqubits _ => ?_
  · rw [read_plain_line hname hne hq, hparse]
  · by_cases hid : op.gate = .id
    · rw [if_pos hid] at hparams ⊢
      exact hparams
    · rw [if_neg hid] at hparams ⊢
      rw [hparams] at hlen ⊢
      rw [List.length_eq_zero_iff.1 hlen.symm]
      exact .nil
  · rw [hprint op' hgate, hqubits]

/-- The operands and parameters of a gate are as many as its specification says. -/
theorem spec_of (op : GateOp) : ∃ spec, gate_specs.lookup op.gate.value = some spec ∧
    0 < spec.qubits ∧ op.qubits.length = spec.qubits ∧ op.params.length = spec.params := by
  have hspec : ∃ spec, gate_specs.lookup op.gate.value = some spec ∧ 0 < spec.qubits := by
    cases op.gate <;> exact ⟨_, rfl, by decide⟩
  obtain ⟨spec, hlookup, hpos⟩ := hspec
  exact ⟨spec, hlookup, hpos, op.shaped spec hlookup⟩

theorem qubits_ne_nil (op : GateOp) : op.qubits ≠ [] := by
  obtain ⟨spec, -, hpos, hlen, -⟩ := spec_of op
  intro hnil
  rw [hnil] at hlen
  exact absurd hlen (Nat.ne_of_lt hpos)

theorem params_length {op : GateOp} {spec : GateSpec}
    (h : gate_specs.lookup op.gate.value = some spec) : op.params.length = spec.params :=
  (op.shaped spec h).2

theorem params_one {op : GateOp} {spec : GateSpec} (h : gate_specs.lookup op.gate.value = some spec)
    (hspec : spec.params = 1) : ∃ x, op.params = [x] :=
  List.length_eq_one_iff.1 ((params_length h).trans hspec)

theorem print_cz_angle {op : GateOp} {x : Float64} (hgate : op.gate.value ∈ ["rx", "ry", "rz"])
    (hparams : op.params = [x]) : ir_gate_to_openqasm py op "cz" =
      .ok (angle_line op.gate.value (py.format x) (qubits_text op.qubits)) := by
  unfold ir_gate_to_openqasm ir_gate_to_openqasm_cz
  rw [if_pos rfl, if_pos hgate, hparams]
  simp [List.intercalate]

theorem gate_name {name : String} (hne : name.toList ≠ [])
    (hword : name.toList.all (fun c => c.toNat < 128 && (c.isAlphanum || c == '_')) = true)
    (hother : name.toList ≠ "OPENQASM".toList ∧ name.toList ≠ "include".toList) :
    GateName py name := ⟨run_word hne hword, hother⟩

/-- A rotation of the `cz` target. -/
theorem stable_rotation {op : GateOp} {line : Text}
    (hgate : op.gate = .rx ∨ op.gate = .ry ∨ op.gate = .rz)
    (hq : ∀ q ∈ op.qubits, 0 ≤ q ∧ q ≤ 50) (h : ir_gate_to_openqasm py op "cz" = .ok line) :
    Stable py "cz" op line := by
  have hspec : gate_specs.lookup op.gate.value = some ⟨1, 1⟩ := by
    rcases hgate with hgate | hgate | hgate <;> rw [hgate] <;> rfl
  obtain ⟨x, hx⟩ := params_one hspec rfl
  have hvalue : op.gate.value ∈ ["rx", "ry", "rz"] := by
    rcases hgate with hgate | hgate | hgate <;> rw [hgate] <;> decide
  have hname : GateName py op.gate.value := by
    rcases hgate with hgate | hgate | hgate <;> rw [hgate] <;>
      exact gate_name (by decide) (by decide) (by decide)
  rw [print_cz_angle hvalue hx] at h
  rw [← Except.ok.inj h]
  apply stable_angle hname hx ?_ (qubits_ne_nil op) hq
  · intro y qubits
    rcases hgate with hgate | hgate | hgate <;> rw [hgate] <;> rfl
  · intro op' y hsame hparams
    have hvalue' : op'.gate.value ∈ ["rx", "ry", "rz"] := by
      rw [hsame]
      exact hvalue
    rw [print_cz_angle hvalue' hparams, hsame]
  · rcases hgate with hgate | hgate | hgate <;> rw [hgate] <;> decide

/-- `virtual_z` of the `cnot` target. -/
theorem stable_virtual_z {op : GateOp} {line : Text} (hgate : op.gate = .virtual_z)
    (hq : ∀ q ∈ op.qubits, 0 ≤ q ∧ q ≤ 50) (h : ir_gate_to_openqasm py op "cnot" = .ok line) :
    Stable py "cnot" op line := by
  have hprint : ∀ (op' : GateOp) (y : Float64), op'.gate = .virtual_z → op'.params = [y] →
      ir_gate_to_openqasm py op' "cnot" =
        .ok (angle_line "rz" (py.format y) (qubits_text op'.qubits)) := by
    intro op' y hsame hparams
    rw [ir_gate_to_openqasm, hsame, hparams]
    rfl
  have hspec : gate_specs.lookup op.gate.value = some ⟨1, 1⟩ := by
    rw [hgate]
    rfl
  obtain ⟨x, hx⟩ := params_one hspec rfl
  rw [hprint op x hgate hx] at h
  rw [← Except.ok.inj h]
  apply stable_angle (gate_name (by decide) (by decide) (by decide)) hx ?_ (qubits_ne_nil op) hq
  · intro y qubits
    rw [hgate]
    rfl
  · intro op' y hsame
    exact hprint op' y (hsame.trans hgate)
  · rw [hgate]
    decide

/-- `y_minus_90`, which is printed as a rotation. -/
theorem stable_y_minus_90 {op : GateOp} {line : Text} (hgate : op.gate = .y_minus_90)
    (hq : ∀ q ∈ op.qubits, 0 ≤ q ∧ q ≤ 50) (h : ir_gate_to_openqasm py op "cnot" = .ok line) :
    Stable py "cnot" op line := by
  have hprint : ∀ op' : GateOp, op'.gate = .y_minus_90 → ir_gate_to_openqasm py op' "cnot" =
      .ok (angle_line "ry" (py.format neg_half_pi) (qubits_text op'.qubits)) := by
    intro op' hsame
    rw [ir_gate_to_openqasm, hsame]
    rfl
  have hspec : gate_specs.lookup op.gate.value = some ⟨1, 0⟩ := by
    rw [hgate]
    rfl
  obtain ⟨y, hy⟩ := py.parse_format neg_half_pi
  have hname : GateName py "ry" := gate_name (by decide) (by decide) (by decide)
  rw [hprint op hgate] at h
  rw [← Except.ok.inj h]
  apply stable_of []
  · have hparse : openqasm_gate_to_ir py "ry" [y] op.qubits "cnot" =
        gate_op .y_minus_90 op.qubits [] := by
      have hlookup : cnot_simple.lookup "ry" = none := by decide
      unfold openqasm_gate_to_ir openqasm_gate_to_ir_cnot
      rw [if_neg (by decide), if_pos rfl, hlookup]
      simp only [py.close_neg_half_pi y hy, if_true]
    rw [read_angle_line hname hy (qubits_ne_nil op) hq, hgate, hparse]
  · exact (params_length hspec).symm
  · rw [if_neg (by rw [hgate]; decide), List.length_eq_zero_iff.1 (params_length hspec)]
    exact .nil
  · intro op' hsame hqubits _
    rw [hprint op' (hsame.trans hgate), hqubits]

/-- A gate that is printed without parameters, as it is in either target. -/
theorem stable_simple {target : String} {op : GateOp} {line : Text} (name : String)
    (params : List Float64)
    (hname : GateName py name) (hlen : params.length = op.params.length)
    (hparams : if op.gate = .id then params = [.zero] else params = [])
    (hq : ∀ q ∈ op.qubits, 0 ≤ q ∧ q ≤ 50)
    (hparse : ∀ qubits, openqasm_gate_to_ir py name [] qubits target =
      gate_op op.gate qubits params)
    (hprint : ∀ op' : GateOp, op'.gate = op.gate →
      ir_gate_to_openqasm py op' target = .ok (plain_line name (qubits_text op'.qubits)))
    (h : ir_gate_to_openqasm py op target = .ok line) : Stable py target op line := by
  rw [hprint op rfl] at h
  rw [← Except.ok.inj h]
  exact stable_plain params hname hlen hparams (qubits_ne_nil op) hq hparse hprint

theorem stable_cz {op : GateOp} {line : Text} (hop : op.gate.value ∈ ["rx", "ry", "rz", "cz", "id"])
    (hq : ∀ q ∈ op.qubits, 0 ≤ q ∧ q ≤ 50) (h : ir_gate_to_openqasm py op "cz" = .ok line) :
    Stable py "cz" op line := by
  have hprint : ∀ gate, gate = .cz ∨ gate = .id → ∀ op' : GateOp, op'.gate = gate →
      ir_gate_to_openqasm py op' "cz" = .ok (plain_line gate.value (qubits_text op'.qubits)) := by
    rintro gate (rfl | rfl) op' hsame <;> rw [ir_gate_to_openqasm, hsame] <;> rfl
  cases hgate : op.gate with
  | rx => exact stable_rotation (.inl hgate) hq h
  | ry => exact stable_rotation (.inr (.inl hgate)) hq h
  | rz => exact stable_rotation (.inr (.inr hgate)) hq h
  | cz =>
      have hlen : op.params.length = 0 := params_length (by rw [hgate]; rfl)
      refine stable_simple "cz" [] (gate_name (by decide) (by decide) (by decide)) hlen.symm
        (by rw [if_neg (by rw [hgate]; decide)]) hq (fun qubits => ?_) (fun op' hsame => ?_) h
      · rw [hgate]
        rfl
      · exact hprint .cz (.inl rfl) op' (hsame.trans hgate)
  | id =>
      have hlen : op.params.length = 1 := params_length (by rw [hgate]; rfl)
      refine stable_simple "id" [.zero] (gate_name (by decide) (by decide) (by decide)) hlen.symm
        (by rw [if_pos hgate]) hq (fun qubits => ?_) (fun op' hsame => ?_) h
      · rw [hgate]
        rfl
      · exact hprint .id (.inr rfl) op' (hsame.trans hgate)
  | iswap | cp | x90 | y_minus_90 | virtual_z | cnot =>
      rw [hgate] at hop
      exact absurd hop (by decide)

theorem stable_cnot {op : GateOp} {line : Text} (hq : ∀ q ∈ op.qubits, 0 ≤ q ∧ q ≤ 50)
    (h : ir_gate_to_openqasm py op "cnot" = .ok line) : Stable py "cnot" op line := by
  have hraise : op.gate.value ∉ ["x90", "y_minus_90", "virtual_z", "cnot", "id"] → False := by
    intro hvalue
    simp only [List.mem_cons, List.not_mem_nil, or_false, not_or] at hvalue
    unfold ir_gate_to_openqasm ir_gate_to_openqasm_cnot at h
    rw [if_neg (by decide), if_pos rfl, if_neg hvalue.1, if_neg hvalue.2.1, if_neg hvalue.2.2.1,
      if_neg hvalue.2.2.2.1, if_neg hvalue.2.2.2.2] at h
    cases h
  cases hgate : op.gate with
  | virtual_z => exact stable_virtual_z hgate hq h
  | y_minus_90 => exact stable_y_minus_90 hgate hq h
  | x90 =>
      have hlen : op.params.length = 0 := params_length (by rw [hgate]; rfl)
      refine stable_simple "sx" [] (gate_name (by decide) (by decide) (by decide)) hlen.symm
        (by rw [if_neg (by rw [hgate]; decide)]) hq (fun qubits => ?_) (fun op' hsame => ?_) h
      · rw [hgate]
        rfl
      · rw [ir_gate_to_openqasm, hsame, hgate]
        rfl
  | cnot =>
      have hlen : op.params.length = 0 := params_length (by rw [hgate]; rfl)
      refine stable_simple "cx" [] (gate_name (by decide) (by decide) (by decide)) hlen.symm
        (by rw [if_neg (by rw [hgate]; decide)]) hq (fun qubits => ?_) (fun op' hsame => ?_) h
      · rw [hgate]
        rfl
      · rw [ir_gate_to_openqasm, hsame, hgate]
        rfl
  | id =>
      have hlen : op.params.length = 1 := params_length (by rw [hgate]; rfl)
      refine stable_simple "id" [.zero] (gate_name (by decide) (by decide) (by decide)) hlen.symm
        (by rw [if_pos hgate]) hq (fun qubits => ?_) (fun op' hsame => ?_) h
      · rw [hgate]
        rfl
      · rw [ir_gate_to_openqasm, hsame, hgate]
        rfl
  | rx | ry | rz | cz | iswap | cp =>
      rw [hgate] at hraise
      exact absurd (by decide) hraise

end CodaNode.Qasm
