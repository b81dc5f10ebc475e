/-
`Qasm/RoundTrip.lean` -- printing a program and parsing it again.

The printed text is split into the lines it was put together from; each of them is read back as
what it was printed for, and the program that is built from these is the old one up to the text
of its parameters (`qasm_round_trip`).
-/
import CodaNode.Ir.Json
import CodaNode.Qasm.Gates

set_option autoImplicit false

namespace CodaNode.Qasm

open Regex Regex.Re CodaNode.Ir

variable {py : Python}

/-! ## Printed lines -/

/-- A text without line breaks. -/
def Unbroken (w : Text) : Prop := ∀ c ∈ w, is_linebreak c = false

theorem Unbroken.append {v w : Text} (hv : Unbroken v) (hw : Unbroken w) : Unbroken (v ++ w) := by
  intro c hc
  rcases List.mem_append.1 hc with hc | hc
  · exact hv c hc
  · exact hw c hc

theorem unbroken_of_all {w : Text} (h : w.all (fun c => !is_linebreak c) = true) : Unbroken w := by
  intro c hc
  simpa using List.all_eq_true.1 h c hc

theorem is_linebreak_of_not_space {c : Char} (h : is_space c = false) : is_linebreak c = false := by
  rw [Bool.eq_false_iff]
  intro hbreak
  rw [is_space_of_is_linebreak hbreak] at h
  cases h

theorem unbroken_word {w : Text} (h : Run py.is_word w) : Unbroken w :=
  fun c hc => is_linebreak_of_not_space (is_word_not_space (h.2 c hc))

theorem unbroken_nat_text (n : Nat) : Unbroken (nat_text n) := by
  intro c hc
  have hd := nat_text_digit hc
  rw [Char.isDigit, Bool.and_eq_true, decide_eq_true_eq, decide_eq_true_eq] at hd
  have hlow : 48 ≤ c.val.toNat := hd.1
  have hhigh : c.val.toNat ≤ 57 := hd.2
  have hval : c.toNat = c.val.toNat := rfl
  rw [Bool.eq_false_iff]
  simp only [is_linebreak, ne_eq, Bool.or_eq_true, Bool.and_eq_true, decide_eq_true_eq, beq_iff_eq]
  omega

theorem unbroken_int_text (q : Int) : Unbroken (int_text q) := by
  cases q with
  | ofNat n => exact unbroken_nat_text n
  | negSucc n =>
      intro c hc
      rcases List.mem_cons.1 hc with rfl | hc
      · rfl
      · exact unbroken_nat_text (n + 1) c hc

theorem unbroken_ref (register : String) {index : Text} (hregister : Unbroken register.toList)
    (hindex : Unbroken index) : Unbroken (ref_text register index) := by
  have hend : Unbroken [']'] := unbroken_of_all rfl
  have hstart : Unbroken ['['] := unbroken_of_all rfl
  have h := hregister.append ((hstart.append hindex).append hend)
  rw [ref_text, List.append_assoc]
  exact h

theorem unbroken_qubits_text (qubits : List Int) : Unbroken (qubits_text qubits) := by
  intro c hc
  rcases mem_of_mem_intercalate hc with hc | ⟨ref, href, hc⟩
  · exact unbroken_of_all (w := ", ".toList) rfl c hc
  · obtain ⟨q, -, rfl⟩ := List.mem_map.1 href
    exact unbroken_ref "q" (unbroken_of_all rfl) (unbroken_int_text q) c hc

/-- A line that begins with a letter and ends with a semicolon. -/
theorem tidy_line {body : Text} (hhead : ∃ a rest, body = a :: rest ∧ is_space a = false)
    (hbody : Unbroken body) : TidyLine (body ++ [';']) where
  unbroken := hbody.append (unbroken_of_all rfl)
  head := by
    obtain ⟨a, rest, rfl, ha⟩ := hhead
    exact ⟨a, rest ++ [';'], rfl, ha⟩
  last := ⟨body, ';', rfl, rfl⟩

/-- The names that are printed. -/
def printed_names : List String := ["rx", "ry", "rz", "cz", "id", "sx", "cx"]

theorem printed_name {name : String} (h : name ∈ printed_names) :
    Unbroken name.toList ∧ ∃ a rest, name.toList = a :: rest ∧ is_space a = false := by
  have hall : ∀ name ∈ printed_names, name.toList.all (fun c => !is_linebreak c) = true ∧
      (name.toList.head?.any fun a => !is_space a) = true := by decide
  obtain ⟨hbreak, hhead⟩ := hall name h
  refine ⟨unbroken_of_all hbreak, ?_⟩
  cases htext : name.toList with
  | nil =>
      rw [htext] at hhead
      cases hhead
  | cons a rest =>
      rw [htext] at hhead
      exact ⟨a, rest, rfl, by simpa using hhead⟩

theorem unbroken_params (params : List Float64) :
    Unbroken (", ".toList.intercalate (params.map py.format)) := by
  intro c hc
  rcases mem_of_mem_intercalate hc with hc | ⟨text, htext, hc⟩
  · exact unbroken_of_all (w := ", ".toList) rfl c hc
  · obtain ⟨x, -, rfl⟩ := List.mem_map.1 htext
    exact (format_char hc).2.2.2

theorem unbroken_format (x : Float64) : Unbroken (py.format x) :=
  fun _ hc => (format_char hc).2.2.2

/-- A printed gate is a name, perhaps parameters, and operands. -/
theorem gate_line_form {op : GateOp} {target : String} {line : Text}
    (h : ir_gate_to_openqasm py op target = .ok line) : ∃ name ∈ printed_names, ∃ params,
      Unbroken params ∧ (line = angle_line name params (qubits_text op.qubits) ∨
        line = plain_line name (qubits_text op.qubits)) := by
  unfold ir_gate_to_openqasm ir_gate_to_openqasm_cz ir_gate_to_openqasm_cnot at h
  split_ifs at h with _ hrot _ hplain
  · have hname : ∀ name ∈ ["rx", "ry", "rz"], name ∈ printed_names := by decide
    exact ⟨_, hname _ hrot, _, unbroken_params op.params, .inl (Except.ok.inj h).symm⟩
  · cases hparams : op.params with
    | nil =>
        rw [hparams] at h
        cases h
    | cons x rest =>
        rw [hparams] at h
        exact ⟨"rz", by decide, _, unbroken_format x, .inl (Except.ok.inj h).symm⟩
  · have hname : ∀ name ∈ ["cz", "id"], name ∈ printed_names := by decide
    exact ⟨_, hname _ hplain, [], nofun, .inr (Except.ok.inj h).symm⟩
  · exact ⟨"sx", by decide, [], nofun, .inr (Except.ok.inj h).symm⟩
  · exact ⟨"ry", by decide, _, unbroken_format neg_half_pi, .inl (Except.ok.inj h).symm⟩
  · cases hparams : op.params with
    | nil =>
        rw [hparams] at h
        cases h
    | cons x rest =>
        rw [hparams] at h
        exact ⟨"rz", by decide, _, unbroken_format x, .inl (Except.ok.inj h).symm⟩
  · exact ⟨"cx", by decide, [], nofun, .inr (Except.ok.inj h).symm⟩
  · exact ⟨"id", by decide, [], nofun, .inr (Except.ok.inj h).symm⟩

theorem tidy_gate {op : GateOp} {target : String} {line : Text}
    (h : ir_gate_to_openqasm py op target = .ok line) : TidyLine line := by
  obtain ⟨name, hname, params, hparams, hline⟩ := gate_line_form h
  obtain ⟨hunbroken, a, rest, hcons, ha⟩ := printed_name hname
  have hqubits := unbroken_qubits_text op.qubits
  rcases hline with rfl | rfl
  · rw [angle_line]
    apply tidy_line
    · exact ⟨a, _, by rw [hcons]; rfl, ha⟩
    · have hopen : Unbroken ['('] := unbroken_of_all rfl
      have hclose : Unbroken [')', ' '] := unbroken_of_all rfl
      have hall := hunbroken.append (hopen.append (hparams.append (hclose.append hqubits)))
      simpa using hall
  · rw [plain_line]
    apply tidy_line
    · exact ⟨a, _, by rw [hcons]; rfl, ha⟩
    · have hspace : Unbroken [' '] := unbroken_of_all rfl
      have hall := hunbroken.append (hspace.append hqubits)
      simpa using hall

theorem tidy_measure (i : Nat) (q : Int) : TidyLine (measure_line i q) := by
  have hbit : Unbroken (ref_text "c" (nat_text i)) :=
    unbroken_ref "c" (unbroken_of_all rfl) (unbroken_nat_text i)
  have hqubit : Unbroken (ref_text "q" (int_text q)) :=
    unbroken_ref "q" (unbroken_of_all rfl) (unbroken_int_text q)
  have hword : Unbroken " = measure ".toList := unbroken_of_all (by decide)
  rw [measure_line]
  apply tidy_line
  · exact ⟨'c', _, rfl, rfl⟩
  · exact (hbit.append hword).append hqubit

theorem tidy_head {ir : NativeGateIR} {line : Text} (h : line ∈ head_lines ir) : TidyLine line := by
  have hcount : ∀ (type rest : String) (index : Text), Unbroken type.toList → Unbroken index →
      Unbroken rest.toList → (∃ a tail, type.toList = a :: tail ∧ is_space a = false) →
      TidyLine (type.toList ++ index ++ rest.toList ++ [';']) := by
    intro type rest index htype hindex hrest ⟨a, tail, hhead, ha⟩
    apply tidy_line
    · exact ⟨a, _, by rw [hhead]; rfl, ha⟩
    · exact (htype.append hindex).append hrest
  have hfixed : ∀ text : String, (∃ body : String, text.toList = body.toList ++ [';'] ∧
      body.toList.all (fun c => !is_linebreak c) = true ∧
      ∃ a tail, body.toList = a :: tail ∧ is_space a = false) → TidyLine text.toList := by
    rintro text ⟨body, htext, hbreak, hhead⟩
    rw [htext]
    exact tidy_line hhead (unbroken_of_all hbreak)
  rcases List.mem_append.1 h with h | h
  · simp only [List.mem_cons, List.not_mem_nil, or_false] at h
    rcases h with rfl | rfl | rfl
    · exact hfixed _ ⟨"OPENQASM 3.0", rfl, by decide, 'O', _, rfl, rfl⟩
    · exact hfixed _ ⟨"include \"stdgates.inc\"", rfl, by decide, 'i', _, rfl, rfl⟩
    · have hline := hcount "qubit[" "] q" (int_text ir.num_qubits) (unbroken_of_all (by decide))
        (unbroken_int_text _) (unbroken_of_all (by decide)) ⟨'q', _, rfl, rfl⟩
      rwa [List.append_assoc] at hline
  · unfold bit_lines at h
    by_cases hnil : ir.measurements = []
    · rw [if_pos hnil] at h
      cases h
    · rw [if_neg hnil, List.mem_singleton] at h
      have hline := hcount "bit[" "] c" (nat_text ir.measurements.length)
        (unbroken_of_all (by decide)) (unbroken_nat_text _) (unbroken_of_all (by decide))
        ⟨'b', _, rfl, rfl⟩
      rw [List.append_assoc] at hline
      rw [h]
      exact hline

/-! ## Reading the lines -/

theorem run_space : Run is_space [' '] :=
  ⟨List.cons_ne_nil _ _, fun c hc => by rw [List.mem_singleton.1 hc]; rfl⟩

theorem accepts_printed_header : (header_re py).Accepts "OPENQASM 3.0;".toList [] [] := by
  have hversion : Run (fun c => py.is_digit c || c == '.') "3.0".toList := by
    refine ⟨List.cons_ne_nil _ _, fun c hc => ?_⟩
    have hall : "3.0".toList.all (fun c => c.toNat < 128 && (c.isDigit || c == '.')) = true := by
      decide
    have hc := List.all_eq_true.1 hall c hc
    rw [Bool.and_eq_true, decide_eq_true_eq] at hc
    show (py.is_digit c || c == '.') = true
    rw [is_digit_ascii hc.1, hc.2]
  exact accepts_header.2 ⟨[' '], "3.0".toList, [], run_space, hversion, nofun, rfl, rfl⟩

theorem read_header (target : String) :
    read_line py target "OPENQASM 3.0;".toList = .ok .skip := by
  have hread : read_line py target ("OPENQASM 3.0;".toList ++ []) = .ok .skip :=
    read_skipped target (.inl accepts_printed_header) []
  rwa [List.append_nil] at hread

theorem accepts_printed_include :
    include_re.Accepts "include \"stdgates.inc\";".toList [] [] := by
  have hall : "stdgates.inc".toList.all (· != '"') = true := by decide
  have hfile : Run (· != '"') "stdgates.inc".toList :=
    ⟨List.cons_ne_nil _ _, List.all_eq_true.1 hall⟩
  exact accepts_include.2 ⟨[' '], "stdgates.inc".toList, [], run_space, hfile, nofun, rfl, rfl⟩

theorem read_include (target : String) :
    read_line py target "include \"stdgates.inc\";".toList = .ok .skip := by
  have hread : read_line py target ("include \"stdgates.inc\";".toList ++ []) = .ok .skip :=
    read_skipped target (.inr (.inl accepts_printed_include)) []
  rwa [List.append_nil] at hread

/-- A printed declaration. -/
theorem accepts_declaration (type : String) {count : Text} {name : Char}
    (hcount : Run py.is_digit count) (hname : py.is_word name = true) :
    (register_re py type).Accepts
      (type.toList ++ ("[".toList ++ (count ++ ("]".toList ++ ([' '] ++ ([name] ++ ([] ++ [';'])))))))
      [] [(1, count)] := by
  have hword : Run py.is_word [name] :=
    ⟨List.cons_ne_nil _ _, fun c hc => by rw [List.mem_singleton.1 hc, hname]⟩
  exact accepts_register.2 ⟨count, [' '], [name], [], hcount, run_space, hword, nofun, rfl, rfl⟩

theorem read_qubit_line (target : String) {n : Int} (hn : 0 ≤ n) :
    read_line py target ("qubit[".toList ++ int_text n ++ "] q;".toList) =
      .ok (.register (int_text n)) := by
  have hname : py.is_word 'q' = true := is_word_ascii (by decide)
  have hread := read_qubit target (accepts_declaration "qubit" (run_int_text hn) hname) []
  rw [List.append_nil] at hread
  rw [List.append_assoc]
  exact hread

theorem read_bit_line (target : String) (n : Nat) :
    read_line py target ("bit[".toList ++ nat_text n ++ "] c;".toList) = .ok .skip := by
  have hname : py.is_word 'c' = true := is_word_ascii (by decide)
  have hread := read_skipped target
    (.inr (.inr (accepts_declaration "bit" (run_nat_text n) hname))) []
  rw [List.append_nil] at hread
  rw [List.append_assoc]
  exact hread

theorem read_measure_text (target : String) (i : Nat) {q : Int} (hq : 0 ≤ q ∧ q ≤ 50) :
    read_line py target (measure_line i q) = .ok (.measurement q) := by
  have hbit : (Ref.mk "c".toList (nat_text i)).Valid py :=
    ⟨run_word (by decide) (by decide), run_nat_text i⟩
  have hw : (measure_re py).Accepts (measure_line i q) [] [(2, int_text q), (1, nat_text i)] := by
    refine accepts_measure.2 ⟨⟨"c".toList, nat_text i⟩, qubit_ref q, [' '], [' '], [' '], [], hbit,
      qubit_ref_valid hq.1, run_space.2, run_space.2, run_space, nofun, ?_, rfl⟩
    rw [measure_line, ref_text_eq, ref_text_eq]
    simp only [List.append_assoc]
    rfl
  have hleads : Leads py (measure_line i q) "c".toList '[' := by
    refine ⟨nat_text i ++ [']'] ++ " = measure ".toList ++ ref_text "q" (int_text q) ++ [';'], ?_,
      hbit.1, IsSign.not_word (by decide)⟩
    simp [measure_line, ref_text]
  have hread := read_measure target hleads ⟨by decide, by decide⟩ ⟨by decide, by decide⟩ hw []
  rw [List.append_nil] at hread
  rw [hread, read_measure_line]
  show (parse_int py (int_text q) >>= _) = _
  rw [parse_int_text hq]
  rfl

/-! ## The loop -/

/-- Lines without whitespace around them are read one by one. -/
theorem parse_lines {target : String} {lines : List Text} {items : List Item}
    (hlines : ∀ line ∈ lines, TidyLine line)
    (hread : List.Forall₂ (fun line item => read_line py target line = .ok item) lines items)
    (parsed : Parsed) :
    lines.foldlM (parse_line py target) parsed = items.foldlM (take_item py) parsed := by
  induction hread generalizing parsed with
  | nil => rfl
  | @cons line item lines items hitem _ ih =>
      rw [List.forall_mem_cons] at hlines
      rw [List.foldlM_cons, List.foldlM_cons, parse_line, hlines.1.strip_eq, hitem]
      show (take_item py parsed item >>= _) = _
      cases take_item py parsed item with
      | error e => rfl
      | ok parsed' => exact ih hlines.2 parsed'

theorem take_gates (ops : List GateOp) (parsed : Parsed) :
    (ops.map Item.gate).foldlM (take_item py) parsed =
      .ok { parsed with gates := parsed.gates ++ ops } := by
  induction ops generalizing parsed with
  | nil => rw [List.append_nil]; rfl
  | cons op ops ih =>
      rw [List.map_cons, List.foldlM_cons]
      show (ops.map Item.gate).foldlM (take_item py)
        { parsed with gates := parsed.gates ++ [op] } = _
      rw [ih, List.append_assoc]
      rfl

theorem take_measurements (qubits : List Int) (parsed : Parsed) :
    (qubits.map Item.measurement).foldlM (take_item py) parsed =
      .ok { parsed with measurements := parsed.measurements ++ qubits } := by
  induction qubits generalizing parsed with
  | nil => rw [List.append_nil]; rfl
  | cons q qubits ih =>
      rw [List.map_cons, List.foldlM_cons]
      show (qubits.map Item.measurement).foldlM (take_item py)
        { parsed with measurements := parsed.measurements ++ [q] } = _
      rw [ih, List.append_assoc]
      rfl

/-- What the lines before the gates are read as. -/
def head_items (ir : NativeGateIR) : List Item :=
  [.skip, .skip, .register (int_text ir.num_qubits)] ++
    if ir.measurements = [] then [] else [.skip]

theorem read_head (ir : NativeGateIR) : List.Forall₂
    (fun line item => read_line py ir.target line = .ok item) (head_lines ir) (head_items ir) := by
  have hpos : 0 ≤ ir.num_qubits := by
    have h := ir.num_qubits_range
    omega
  have hbits : List.Forall₂ (fun line item => read_line py ir.target line = .ok item)
      (bit_lines ir.measurements) (if ir.measurements = [] then [] else [.skip]) := by
    unfold bit_lines
    by_cases hnil : ir.measurements = []
    · rw [if_pos hnil, if_pos hnil]
      exact .nil
    · rw [if_neg hnil, if_neg hnil]
      exact .cons (read_bit_line _ _) .nil
  exact .cons (read_header _) (.cons (read_include _) (.cons (read_qubit_line _ hpos) hbits))

theorem take_head (ir : NativeGateIR) :
    (head_items ir).foldlM (take_item py) {} = .ok { num_qubits := some ir.num_qubits } := by
  have hrange : 0 ≤ ir.num_qubits ∧ ir.num_qubits ≤ 50 := by
    have h := ir.num_qubits_range
    omega
  have hregister : take_item py {} (.register (int_text ir.num_qubits)) =
      .ok { num_qubits := some ir.num_qubits } := by
    show (parse_int py (int_text ir.num_qubits) >>= _) = _
    rw [parse_int_text hrange]
    rfl
  show (take_item py {} (.register (int_text ir.num_qubits)) >>= fun parsed =>
    (if ir.measurements = [] then [] else [Item.skip]).foldlM (take_item py) parsed) = _
  rw [hregister]
  by_cases hnil : ir.measurements = []
  · rw [if_pos hnil]
    rfl
  · rw [if_neg hnil]
    rfl

theorem read_measurements (target : String) {qubits : List Int}
    (h : ∀ q ∈ qubits, 0 ≤ q ∧ q ≤ 50) : List.Forall₂
    (fun line item => read_line py target line = .ok item) (measure_lines qubits)
      (qubits.map Item.measurement) := by
  rw [List.forall₂_map_right_iff, List.forall₂_iff_get]
  refine ⟨List.length_mapIdx, fun i h₁ h₂ => ?_⟩
  simp only [List.get_eq_getElem, measure_lines, List.getElem_mapIdx]
  exact read_measure_text target i (h _ (List.getElem_mem h₂))

/-! ## Programs -/

/-- What has been read back is legal for the target again. -/
theorem Consistent.reread {target : String} {num_qubits : Int} {gates gates' : List GateOp}
    {measurements : List Int} (h : Consistent target num_qubits gates measurements)
    (hgates : List.Forall₂ (Reread py) gates gates') :
    Consistent target num_qubits gates' measurements := by
  obtain ⟨⟨legal, hlegal, hops⟩, hrange, hmeasured⟩ := h
  refine ⟨⟨legal, hlegal, fun op' hop' => ?_⟩, fun op' hop' => ?_, hmeasured⟩
  · obtain ⟨op, hop, hreread⟩ := exists_mem_left hgates hop'
    rw [hreread.gate]
    exact hops op hop
  · obtain ⟨op, hop, hreread⟩ := exists_mem_left hgates hop'
    rw [hreread.qubits]
    exact hrange op hop

/-- An operand is an index of a qubit. -/
theorem operand_range {ir : NativeGateIR} {q : Int} (h : InRange ir.num_qubits q) :
    0 ≤ q ∧ q ≤ 50 := by
  have hn := ir.num_qubits_range
  obtain ⟨hlow, hhigh⟩ := h
  omega

/-- Every gate is read back, whatever the target that has a text. -/
theorem stable_gate {ir : NativeGateIR} {op : GateOp} {line : Text}
    (htarget : ir.target = "cz" ∨ ir.target = "cnot") (hop : op ∈ ir.gates)
    (h : ir_gate_to_openqasm py op ir.target = .ok line) : Stable py ir.target op line := by
  have hq : ∀ q ∈ op.qubits, 0 ≤ q ∧ q ≤ 50 := fun q hq =>
    operand_range (ir.consistent.operands op hop q hq)
  rcases htarget with htarget | htarget
  · obtain ⟨legal, hlegal, hops⟩ := ir.consistent.legal
    have hcz : legal_gates.lookup ir.target = some ["rx", "ry", "rz", "cz", "id"] := by
      rw [htarget]
      rfl
    rw [hlegal] at hcz
    have hvalue := hops op hop
    rw [Option.some.inj hcz] at hvalue
    rw [htarget] at h ⊢
    exact stable_cz hvalue hq h
  · rw [htarget] at h ⊢
    exact stable_cnot hq h

/-- The gates, one by one. -/
theorem stable_gates {target : String} {gates : List GateOp} {lines : List Text}
    (h : List.Forall₂ (fun op line => ir_gate_to_openqasm py op target = .ok line) gates lines)
    (hstable : ∀ op ∈ gates, ∀ line, ir_gate_to_openqasm py op target = .ok line →
      Stable py target op line) :
    ∃ gates', List.Forall₂ (fun line item => read_line py target line = .ok item) lines
        (gates'.map Item.gate) ∧ List.Forall₂ (Reread py) gates gates' ∧
      List.Forall₂ (fun op line => ir_gate_to_openqasm py op target = .ok line) gates' lines := by
  induction h with
  | nil => exact ⟨[], .nil, .nil, .nil⟩
  | @cons op line gates lines hop _ ih =>
      rw [List.forall_mem_cons] at hstable
      obtain ⟨op', hread, hreread, hprint⟩ := hstable.1 line hop
      obtain ⟨gates', hreads, hrereads, hprints⟩ := ih hstable.2
      exact ⟨op' :: gates', .cons hread hreads, .cons hreread hrereads, .cons hprint hprints⟩

theorem ir_to_openqasm_ok {ir : NativeGateIR} {text : Text} :
    ir_to_openqasm py ir = .ok text ↔ ∃ lines,
      List.Forall₂ (fun op line => ir_gate_to_openqasm py op ir.target = .ok line) ir.gates lines ∧
      text = "\n".toList.intercalate (head_lines ir ++ lines ++ measure_lines ir.measurements) ++
        ['\n'] := by
  rw [ir_to_openqasm, bind_ok]
  simp only [mapM_ok]
  constructor
  · rintro ⟨lines, hlines, h⟩
    exact ⟨lines, hlines, (Except.ok.inj h).symm⟩
  · rintro ⟨lines, hlines, rfl⟩
    exact ⟨lines, hlines, rfl⟩

/-- The program that is read back from a printed one. -/
theorem reread_program {ir : NativeGateIR} {text : Text} (now : String)
    (htarget : ir.target = "cz" ∨ ir.target = "cnot") (h : ir_to_openqasm py ir = .ok text) :
    ∃ ir', openqasm_to_ir py text ir.target (some ir.metadata) now = .ok ir' ∧
      ir'.version = ir.version ∧ ir'.target = ir.target ∧ ir'.num_qubits = ir.num_qubits ∧
      ir'.measurements = ir.measurements ∧ ir'.metadata = ir.metadata ∧
      List.Forall₂ (Reread py) ir.gates ir'.gates ∧ ir_to_openqasm py ir' = .ok text := by
  obtain ⟨lines, hlines, rfl⟩ := ir_to_openqasm_ok.1 h
  obtain ⟨gates', hread, hreread, hprint⟩ := stable_gates hlines fun op hop line hline =>
    stable_gate htarget hop hline
  have hmeasured : ∀ q ∈ ir.measurements, 0 ≤ q ∧ q ≤ 50 := fun q hq =>
    operand_range (ir.consistent.measured q hq)
  have htidy : ∀ line ∈ head_lines ir ++ lines ++ measure_lines ir.measurements, TidyLine line := by
    intro line hline
    rcases List.mem_append.1 hline with hline | hline
    · rcases List.mem_append.1 hline with hline | hline
      · exact tidy_head hline
      · obtain ⟨op, -, hop⟩ := exists_mem_left hlines hline
        exact tidy_gate hop
    · obtain ⟨i, hi, rfl⟩ := List.mem_mapIdx.1 hline
      exact tidy_measure i _
  have hwritten : List.Forall₂ (fun line item => read_line py ir.target line = .ok item)
      (measure_lines ir.measurements) (ir.measurements.map Item.measurement) :=
    read_measurements ir.target hmeasured
  have hitems := List.rel_append (List.rel_append (read_head ir) hread) hwritten
  have hne : head_lines ir ++ lines ++ measure_lines ir.measurements ≠ [] :=
    List.append_ne_nil_of_left_ne_nil (List.append_ne_nil_of_left_ne_nil (List.cons_ne_nil _ _) _) _
  have hsplit := splitlines_joined hne htidy
  have hparsed : (splitlines (strip ("\n".toList.intercalate (head_lines ir ++ lines ++
      measure_lines ir.measurements) ++ ['\n']))).foldlM (parse_line py ir.target) {} =
      .ok ⟨some ir.num_qubits, gates', ir.measurements⟩ := by
    rw [show "\n".toList = ['\n'] from rfl, hsplit, parse_lines htidy hitems, List.foldlM_append,
      List.foldlM_append, take_head]
    show ((gates'.map Item.gate).foldlM (take_item py) _ >>= _) = _
    rw [take_gates]
    show (ir.measurements.map Item.measurement).foldlM (take_item py) _ = _
    rw [take_measurements]
    rfl
  have hconsistent := Consistent.reread ir.consistent hreread
  refine ⟨{ ir with gates := gates', consistent := hconsistent }, ?_, rfl, rfl, rfl, rfl, rfl,
    hreread, ir_to_openqasm_ok.2 ⟨lines, hprint, rfl⟩⟩
  rw [openqasm_to_ir, hparsed]
  show Except.mapError _ (native_gate_ir ir.target ir.num_qubits gates' ir.measurements
    ir.metadata) = _
  rw [mapError_ok, native_gate_ir_ok]
  exact ⟨rfl, rfl, rfl, rfl, rfl⟩

/-! ## Parsed programs can be printed -/

/-- The operation has a text. -/
def Printable (py : Python) (target : String) (op : GateOp) : Prop :=
  ∃ line, ir_gate_to_openqasm py op target = .ok line

theorem gate_op_gate {gate : NativeGate} {qubits : List Int} {params : List Float64} {op : GateOp}
    (h : gate_op gate qubits params = .ok op) : op.gate = gate :=
  (validate_gate_shape_ok.1 (mapError_ok.1 h)).1

theorem simple_gate_gate {entry : NativeGate × Bool} {params : List Float64} {qubits : List Int}
    {op : GateOp} (h : simple_gate entry params qubits = .ok op) : op.gate = entry.1 := by
  unfold simple_gate at h
  split_ifs at h <;> exact gate_op_gate h

theorem mem_of_lookup {α : Type} {l : List (String × α)} {key : String} {x : α}
    (h : l.lookup key = some x) : x ∈ l.map Prod.snd := by
  obtain ⟨l₁, l₂, rfl, -⟩ := List.lookup_eq_some_iff.1 h
  simp

theorem printable_cz {op : GateOp} (h : op.gate ∈ [NativeGate.rx, .ry, .rz, .cz, .id]) :
    Printable py "cz" op := by
  have hvalue : op.gate.value ∈ ["rx", "ry", "rz"] ∨
      op.gate.value ≠ "virtual_z" ∧ op.gate.value ∈ ["cz", "id"] := by
    cases hgate : op.gate <;> rw [hgate] at h <;> revert h <;> decide
  unfold Printable ir_gate_to_openqasm ir_gate_to_openqasm_cz
  rw [if_pos rfl]
  rcases hvalue with hvalue | ⟨hne, hvalue⟩
  · rw [if_pos hvalue]
    exact ⟨_, rfl⟩
  · by_cases hrot : op.gate.value ∈ ["rx", "ry", "rz"]
    · rw [if_pos hrot]
      exact ⟨_, rfl⟩
    · rw [if_neg hrot, if_neg hne, if_pos hvalue]
      exact ⟨_, rfl⟩

theorem printable_cnot {op : GateOp}
    (h : op.gate ∈ [NativeGate.x90, .virtual_z, .cnot, .id, .y_minus_90]) :
    Printable py "cnot" op := by
  by_cases hz : op.gate = .virtual_z
  · obtain ⟨x, hx⟩ : ∃ x, op.params = [x] := params_one (by rw [hz]; rfl) rfl
    refine ⟨angle_line "rz" (py.format x) (qubits_text op.qubits), ?_⟩
    rw [ir_gate_to_openqasm, hz, hx]
    rfl
  · have hvalue : op.gate.value ≠ "virtual_z" ∧ (op.gate.value = "x90" ∨
        op.gate.value = "y_minus_90" ∨ op.gate.value = "cnot" ∨ op.gate.value = "id") := by
      cases hgate : op.gate <;> rw [hgate] at h hz <;> revert h hz <;> decide
    unfold Printable ir_gate_to_openqasm ir_gate_to_openqasm_cnot
    rw [if_neg (by decide), if_pos rfl, if_neg hvalue.1]
    obtain ⟨-, hvalue⟩ := hvalue
    split_ifs with h₁ h₂ h₃ h₄
    · exact ⟨_, rfl⟩
    · exact ⟨_, rfl⟩
    · exact ⟨_, rfl⟩
    · exact ⟨_, rfl⟩
    · simp [h₁, h₂, h₃, h₄] at hvalue

/-- Every gate that the parser makes has a text. -/
theorem printable_gate {name target : String} {params : List Float64} {qubits : List Int}
    {op : GateOp} (h : openqasm_gate_to_ir py name params qubits target = .ok op) :
    Printable py target op := by
  unfold openqasm_gate_to_ir at h
  by_cases hcz : target = "cz"
  · rw [if_pos hcz] at h
    unfold openqasm_gate_to_ir_cz at h
    cases hlookup : cz_map.lookup name with
    | none =>
        rw [hlookup] at h
        cases h
    | some entry =>
        rw [hlookup] at h
        have hentry : ∀ e ∈ cz_map.map Prod.snd, e.1 ∈ [NativeGate.rx, .ry, .rz, .cz, .id] := by
          decide
        rw [hcz]
        apply printable_cz
        rw [simple_gate_gate h]
        exact hentry entry (mem_of_lookup hlookup)
  · rw [if_neg hcz] at h
    by_cases hcnot : target = "cnot"
    · rw [if_pos hcnot] at h
      rw [hcnot]
      apply printable_cnot
      unfold openqasm_gate_to_ir_cnot at h
      cases hlookup : cnot_simple.lookup name with
      | some entry =>
          rw [hlookup] at h
          have hentry : ∀ e ∈ cnot_simple.map Prod.snd,
              e.1 ∈ [NativeGate.x90, .virtual_z, .cnot, .id, .y_minus_90] := by decide
          rw [simple_gate_gate h]
          exact hentry entry (mem_of_lookup hlookup)
      | none =>
          rw [hlookup] at h
          match params, h with
          | [param], h =>
              dsimp only at h
              split_ifs at h
              rw [gate_op_gate h]
              decide
    · rw [if_neg hcnot] at h
      cases h

theorem printable_line {target : String} {raw : Text} {parsed parsed' : Parsed}
    (h : parse_line py target parsed raw = .ok parsed')
    (hparsed : ∀ op ∈ parsed.gates, Printable py target op) :
    ∀ op ∈ parsed'.gates, Printable py target op := by
  obtain ⟨item, hitem, h⟩ := bind_ok.1 h
  cases item with
  | skip =>
      cases h
      exact hparsed
  | register count =>
      unfold take_item at h
      split_ifs at h
      obtain ⟨n, -, h⟩ := bind_ok.1 h
      cases h
      exact hparsed
  | measurement q =>
      cases h
      exact hparsed
  | gate op =>
      cases h
      intro op' hop'
      rcases List.mem_append.1 hop' with hop' | hop'
      · exact hparsed op' hop'
      · rw [List.mem_singleton.1 hop']
        unfold read_line at hitem
        by_cases hskip : is_skipped py (strip raw) = true
        · rw [if_pos hskip] at hitem
          cases hitem
        rw [if_neg hskip] at hitem
        split at hitem
        · cases hitem
        · split at hitem
          · obtain ⟨q, -, hq⟩ := bind_ok.1 hitem
            cases hq
          · split at hitem
            · obtain ⟨params, -, hitem⟩ := bind_ok.1 hitem
              obtain ⟨qubits, -, hitem⟩ := bind_ok.1 hitem
              obtain ⟨op'', hop'', hitem⟩ := bind_ok.1 hitem
              cases hitem
              exact printable_gate hop''
            · cases hitem

theorem printable_lines {target : String} {lines : List Text} {parsed parsed' : Parsed}
    (h : lines.foldlM (parse_line py target) parsed = .ok parsed')
    (hparsed : ∀ op ∈ parsed.gates, Printable py target op) :
    ∀ op ∈ parsed'.gates, Printable py target op := by
  induction lines generalizing parsed with
  | nil =>
      cases h
      exact hparsed
  | cons line lines ih =>
      rw [List.foldlM_cons] at h
      obtain ⟨parsed₁, hline, h⟩ := bind_ok.1 h
      exact ih h (printable_line hline hparsed)

/-- A program that has been parsed is one of what its lines were read as. -/
theorem openqasm_to_ir_ok {qasm : Text} {target now : String} {metadata : Option IRMetadata}
    {ir : NativeGateIR} : openqasm_to_ir py qasm target metadata now = .ok ir ↔
      ∃ parsed, (splitlines (strip qasm)).foldlM (parse_line py target) {} = .ok parsed ∧
        parsed.num_qubits = some ir.num_qubits ∧ ir.target = target ∧ ir.gates = parsed.gates ∧
        ir.measurements = parsed.measurements ∧
        ir.metadata = metadata.getD (placeholder_metadata now) := by
  rw [openqasm_to_ir, bind_ok]
  constructor
  · rintro ⟨parsed, hparsed, h⟩
    cases hqubits : parsed.num_qubits with
    | none =>
        rw [hqubits] at h
        cases h
    | some n =>
        rw [hqubits] at h
        obtain ⟨htarget, hn, hgates, hmeasurements, hmetadata⟩ :=
          native_gate_ir_ok.1 (mapError_ok.1 h)
        exact ⟨parsed, hparsed, by rw [hn]; exact hqubits, htarget, hgates, hmeasurements, hmetadata⟩
  · rintro ⟨parsed, hparsed, hqubits, htarget, hgates, hmeasurements, hmetadata⟩
    refine ⟨parsed, hparsed, ?_⟩
    rw [hqubits]
    exact mapError_ok.2 (native_gate_ir_ok.2 ⟨htarget, rfl, hgates, hmeasurements, hmetadata⟩)

/-- **The QASM round trip**: a printed program is read back with its version, target, qubits,
measurements and metadata, with its gates in their order and each parameter as its text stands
for, and prints as the same text again; and every program that has been parsed can be printed. -/
theorem qasm_round_trip (py : Python) :
    (∀ (ir : NativeGateIR) (text : Text) (now : String), ir.target = "cz" ∨ ir.target = "cnot" →
      ir_to_openqasm py ir = .ok text →
      ∃ ir', openqasm_to_ir py text ir.target (some ir.metadata) now = .ok ir' ∧
        ir'.version = ir.version ∧ ir'.target = ir.target ∧ ir'.num_qubits = ir.num_qubits ∧
        ir'.measurements = ir.measurements ∧ ir'.metadata = ir.metadata ∧
        List.Forall₂ (Reread py) ir.gates ir'.gates ∧ ir_to_openqasm py ir' = .ok text) ∧
    (∀ (qasm : Text) (target : String) (metadata : Option IRMetadata) (now : String)
      (ir : NativeGateIR), openqasm_to_ir py qasm target metadata now = .ok ir →
      ∃ text, ir_to_openqasm py ir = .ok text) := by
  refine ⟨fun ir text now htarget h => reread_program now htarget h,
    fun qasm target metadata now ir h => ?_⟩
  obtain ⟨parsed, hparsed, -, htarget, hgates, -, -⟩ := openqasm_to_ir_ok.1 h
  have hprintable : ∀ op ∈ ir.gates, Printable py ir.target op := by
    rw [hgates, htarget]
    exact printable_lines hparsed nofun
  have hlines : ∃ lines, ir.gates.mapM (fun op => ir_gate_to_openqasm py op ir.target) =
      .ok lines := by
    generalize ir.gates = gates at hprintable
    induction gates with
    | nil => exact ⟨[], rfl⟩
    | cons op gates ih =>
        rw [List.forall_mem_cons] at hprintable
        obtain ⟨line, hline⟩ := hprintable.1
        obtain ⟨lines, hlines⟩ := ih hprintable.2
        exact ⟨line :: lines, mapM_ok.2 (.cons hline (mapM_ok.1 hlines))⟩
  obtain ⟨lines, hlines⟩ := hlines
  exact ⟨_, ir_to_openqasm_ok.2 ⟨lines, mapM_ok.1 hlines, rfl⟩⟩

/-! ## A program of the `cnot` target -/

/-- What the text of `-pi/2` stands for. -/
def rounded_neg_half_pi : Float64 := ⟨0xBFF921FB54442D28⟩

/-- Numbers for the samples: `0.5`, `-pi/2` and what is no number. -/
def sample_format (x : Float64) : Text :=
  if x = one_half then "0.5".toList
  else if x = neg_half_pi ∨ x = rounded_neg_half_pi then "-1.5707963267949".toList
  else "nan".toList

/-- What they are read back as. -/
def sample_parse (text : Text) : Option Float64 :=
  if text = "0.5".toList then some one_half
  else if text = "-1.5707963267949".toList then some rounded_neg_half_pi
  else if text = "nan".toList then some not_a_number
  else none

theorem sample_format_cases (x : Float64) :
    x = one_half ∧ sample_format x = "0.5".toList ∨
      (x = neg_half_pi ∨ x = rounded_neg_half_pi) ∧
        sample_format x = "-1.5707963267949".toList ∨
      sample_format x = "nan".toList := by
  unfold sample_format
  by_cases hhalf : x = one_half
  · exact .inl ⟨hhalf, if_pos hhalf⟩
  · rw [if_neg hhalf]
    by_cases hpi : x = neg_half_pi ∨ x = rounded_neg_half_pi
    · exact .inr (.inl ⟨hpi, if_pos hpi⟩)
    · exact .inr (.inr (if_neg hpi))

/-- A letter of ASCII is no space. -/
theorem not_space_of_alphanum (c : Char) (h : c.isAlphanum = true) : is_space c = false := by
  have hval : c.toNat = c.val.toNat := rfl
  delta Char.isAlphanum Char.isAlpha Char.isUpper Char.isLower Char.isDigit at h
  rw [Bool.eq_false_iff]
  simp only [Bool.or_eq_true, Bool.and_eq_true, decide_eq_true_eq, ge_iff_le,
    UInt32.le_iff_toNat_le] at h
  simp only [is_space, ne_eq, Bool.or_eq_true, Bool.and_eq_true, decide_eq_true_eq, beq_iff_eq]
  simp at h
  omega

theorem alphanum_of_decimal (c : Char)
    (h : (if c.isDigit then some (c.toNat - '0'.toNat) else none).isSome = true) :
    c.isAlphanum = true := by
  by_cases hc : c.isDigit = true
  · delta Char.isAlphanum
    rw [hc, Bool.or_true]
  · rw [if_neg hc] at h
    cases h

theorem sample_format_chars (x : Float64) :
    sample_format x ≠ [] ∧ ∀ c ∈ sample_format x, c ∈ "0123456789+-.einfa".toList := by
  have hall : ∀ text ∈ ["0.5".toList, "-1.5707963267949".toList, "nan".toList],
      text ≠ [] ∧ text.all (fun c => "0123456789+-.einfa".toList.contains c) = true := by decide
  have hmem : sample_format x ∈ ["0.5".toList, "-1.5707963267949".toList, "nan".toList] := by
    rcases sample_format_cases x with ⟨-, h⟩ | ⟨-, h⟩ | h <;> rw [h] <;> decide
  refine ⟨(hall _ hmem).1, fun c hc => ?_⟩
  exact List.contains_iff_mem.1 (List.all_eq_true.1 (hall _ hmem).2 c hc)

theorem sample_parse_format (x : Float64) : ∃ y, sample_parse (sample_format x) = some y := by
  rcases sample_format_cases x with ⟨-, h⟩ | ⟨-, h⟩ | h <;> rw [h]
  · exact ⟨one_half, by decide⟩
  · exact ⟨rounded_neg_half_pi, by decide⟩
  · exact ⟨not_a_number, by decide⟩

theorem sample_format_stable (x y : Float64) (hy : sample_parse (sample_format x) = some y) :
    sample_format y = sample_format x := by
  rcases sample_format_cases x with ⟨-, h⟩ | ⟨-, h⟩ | h <;> rw [h] at hy ⊢
  · obtain rfl : one_half = y := Option.some.inj hy
    decide
  · obtain rfl : rounded_neg_half_pi = y := Option.some.inj hy
    decide
  · obtain rfl : not_a_number = y := Option.some.inj hy
    decide

/-- `math.isclose` on the numbers of the samples. -/
def sample_is_close (x y : Float64) : Bool :=
  x = y || (x = rounded_neg_half_pi && y = neg_half_pi)

theorem sample_close_neg_half_pi (y : Float64)
    (hy : sample_parse (sample_format neg_half_pi) = some y) :
    sample_is_close y neg_half_pi = true := by
  obtain rfl : rounded_neg_half_pi = y := Option.some.inj hy
  decide

theorem sample_parse_chars (text : Text) (x : Float64) (h : sample_parse text = some x) :
    ∀ c ∈ text, c.isAlphanum = true ∨ is_space c = true ∨ c ∈ "_.+-".toList := by
  have hall : ∀ text ∈ ["0.5".toList, "-1.5707963267949".toList, "nan".toList],
      text.all (fun c => c.isAlphanum || "_.+-".toList.contains c) = true := by decide
  have hmem : text ∈ ["0.5".toList, "-1.5707963267949".toList, "nan".toList] := by
    unfold sample_parse at h
    split_ifs at h with h₁ h₂ h₃
    · rw [h₁]
      decide
    · rw [h₂]
      decide
    · rw [h₃]
      decide
  intro c hc
  have hor := List.all_eq_true.1 (hall _ hmem) c hc
  rw [Bool.or_eq_true] at hor
  exact hor.imp id fun h => .inr (List.contains_iff_mem.1 h)

/-- Python, with ASCII letters and the numbers of the samples. -/
def sample_python : Python where
  decimal c := if c.isDigit then some (c.toNat - '0'.toNat) else none
  is_alnum c := c.isAlphanum
  decimal_ascii _ _ := rfl
  is_alnum_ascii _ _ := rfl
  is_alnum_of_decimal := alphanum_of_decimal
  is_alnum_not_space := not_space_of_alphanum
  format := sample_format
  parse := sample_parse
  is_close := sample_is_close
  format_chars := sample_format_chars
  parse_format := sample_parse_format
  format_stable := sample_format_stable
  close_neg_half_pi := sample_close_neg_half_pi
  parse_chars := sample_parse_chars
  repr_str text := "'" ++ String.ofList text ++ "'"
  str_float x := String.ofList (sample_format x)
  str_error e := e.message

/-- An operation that has the shape of its gate. -/
def sample_op (gate : NativeGate) (qubits : List Int) (params : List Float64)
    (h : gate_specs.lookup gate.value = some ⟨qubits.length, params.length⟩) : GateOp :=
  ⟨gate, qubits, params, fun spec hspec => by
    rw [h] at hspec
    obtain rfl := Option.some.inj hspec
    exact ⟨rfl, rfl⟩⟩

/-- A program with every gate that has a text. -/
def sample_program : NativeGateIR where
  target := "cnot"
  num_qubits := 3
  gates := [sample_op .x90 [0] [] rfl, sample_op .y_minus_90 [1] [] rfl,
    sample_op .virtual_z [2] [one_half] rfl, sample_op .cnot [0, 1] [] rfl,
    sample_op .id [2] [one_half] rfl]
  measurements := [1, 0, 1]
  metadata := ⟨"sha256:test", "2026-03-26T00:00:00Z", "0.1.0", 2, default_level⟩
  version_literal := rfl
  num_qubits_range := by decide
  consistent := {
    legal := ⟨_, rfl, by decide⟩
    operands := by decide
    measured := by decide }

/-- Its duration is lost, and nothing else. -/
theorem sample_round_trip : ∃ text ir', ir_to_openqasm sample_python sample_program = .ok text ∧
    openqasm_to_ir sample_python text "cnot" (some sample_program.metadata) "now" = .ok ir' ∧
    List.Forall₂ (Reread sample_python) sample_program.gates ir'.gates ∧
    ir'.measurements = [1, 0, 1] ∧ ir_to_openqasm sample_python ir' = .ok text := by
  obtain ⟨ir', hparsed, -, -, -, hmeasurements, -, hgates, hprint⟩ :=
    (qasm_round_trip sample_python).1 sample_program _ "now" (.inr rfl) rfl
  exact ⟨_, ir', rfl, hparsed, hgates, hmeasurements, hprint⟩

end CodaNode.Qasm
