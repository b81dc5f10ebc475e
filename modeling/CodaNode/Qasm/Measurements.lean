/-
`Qasm/Measurements.lean` -- whether the measurements of a text are what the IR says.

The IR holds the measured qubits in order and nothing of the bits that are written or of the gates
that follow, and it is printed with the bits numbered and all measurements at the end. The places
of the measurements in a text and in what is printed for it are compared: `InPlace` is what a text
has to be for them to agree, and the parser does not ask for it.
-/
import CodaNode.Qasm.FaceValue

set_option autoImplicit false

namespace CodaNode.Qasm

open Regex Regex.Re CodaNode.Ir

variable {py : Python} {target : String}

/-! ## Places -/

/-- An operand of the gate is this qubit. -/
def GateStatement.acts_on (py : Python) (register : Text) (i : Nat) (g : GateStatement) : Bool :=
  g.operands.any fun r => r.register = register && int_value py r.index = i

/-- An operand of the gate has this index, whatever its register. -/
def GateStatement.touches (py : Python) (i : Nat) (g : GateStatement) : Bool :=
  g.operands.any fun r => int_value py r.index = i

/-- A measurement, with the gates before it and behind it. -/
structure Place where
  bit : Ref
  qubit : Ref
  before : List GateStatement
  after : List GateStatement

def places_from (before : List GateStatement) : List (Option Statement) → List Place
  | [] => []
  | some (.gate g) :: rest => places_from (before ++ [g]) rest
  | some (.measurement bit qubit) :: rest =>
      ⟨bit, qubit, before, rest.filterMap gate_statement⟩ :: places_from before rest
  | _ :: rest => places_from before rest

/-- The measurements of a program. -/
def places (program : List (Option Statement)) : List Place := places_from [] program

def Place.bit_index (py : Python) (p : Place) : Nat := int_value py p.bit.index

def Place.qubit_index (py : Python) (p : Place) : Nat := int_value py p.qubit.index

/-- The gate acts on the qubit that is measured. -/
def Place.acts (py : Python) (p : Place) (g : GateStatement) : Bool :=
  g.acts_on py p.qubit.register (p.qubit_index py)

/-- The measurement that is printed writes the same bit from the same qubit, after and before as
many of the gates that act on it. The registers are renamed. -/
structure SamePlace (py : Python) (qubits bits : Text) (p printed : Place) : Prop where
  bit : p.bit.register = bits ∧ printed.bit.register = "c".toList ∧
    p.bit_index py = printed.bit_index py
  qubit : p.qubit.register = qubits ∧ printed.qubit.register = "q".toList ∧
    p.qubit_index py = printed.qubit_index py
  before : p.before.countP (p.acts py) = printed.before.countP (printed.acts py)
  after : p.after.countP (p.acts py) = printed.after.countP (printed.acts py)

/-- Each bit that is written is written from the same qubit, at the same place among the gates. -/
def SameMeasurements (py : Python) (program printed : List (Option Statement)) : Prop :=
  ∃ qubits bits, program.filterMap qubit_register = [qubits] ∧
    ∀ p ∈ places program, ∃ p' ∈ places printed, SamePlace py qubits bits p p'

/-- The bits of a register are written in order and once each, and no gate is applied to a qubit
that has been measured. -/
structure Expressible (py : Python) (program : List (Option Statement)) : Prop where
  in_order : (places program).Pairwise fun (p p' : Place) =>
    p.bit.register = p'.bit.register → p.bit_index py < p'.bit_index py
  untouched : ∀ p ∈ places program, ∀ g ∈ p.after, p.acts py g = false

/-! ## When they agree -/

/-- The measurements write the bits of one register from the first on, and no gate behind a
measurement has an operand with the index of its qubit. Before it such a gate, as the measurement
itself, names the register that is declared. -/
structure InPlace (py : Python) (program : List (Option Statement)) : Prop where
  bits : ∃ bits, ∀ (k : Nat) (p : Place), (places program)[k]? = some p →
    p.bit.register = bits ∧ p.bit_index py = k
  register : ∀ qubits ∈ program.filterMap qubit_register, ∀ p ∈ places program,
    p.qubit.register = qubits
  before : ∀ p ∈ places program, ∀ g ∈ p.before, g.touches py (p.qubit_index py) = true →
    p.acts py g = true
  after : ∀ p ∈ places program, ∀ g ∈ p.after, g.touches py (p.qubit_index py) = false

/-! ## The places of a program -/

theorem places_from_qubits (before : List GateStatement) (program : List (Option Statement)) :
    (places_from before program).map (·.qubit) = program.filterMap measured_qubit := by
  induction program generalizing before with
  | nil => rfl
  | cons s program ih =>
      cases s with
      | none => exact ih before
      | some s =>
          cases s with
          | gate g => exact ih (before ++ [g])
          | measurement bit qubit => exact congrArg (qubit :: ·) (ih before)
          | _ => exact ih before

/-- The gates before a measurement and those behind it are the gates of the program. -/
theorem gates_of_place {before : List GateStatement} {program : List (Option Statement)} {p : Place}
    (h : p ∈ places_from before program) :
    p.before ++ p.after = before ++ program.filterMap gate_statement := by
  induction program generalizing before with
  | nil => cases h
  | cons s program ih =>
      cases s with
      | none => exact ih h
      | some s =>
          cases s with
          | gate g =>
              rw [ih h, List.append_assoc]
              rfl
          | measurement bit qubit =>
              rcases List.mem_cons.1 h with rfl | h
              · rfl
              · exact ih h
          | _ => exact ih h

theorem places_from_append {before : List GateStatement} {head tail : List (Option Statement)}
    (hhead : head.filterMap measured_qubit = []) :
    places_from before (head ++ tail) =
      places_from (before ++ head.filterMap gate_statement) tail := by
  induction head generalizing before with
  | nil =>
      rw [List.filterMap_nil, List.append_nil]
      rfl
  | cons s head ih =>
      cases s with
      | none => exact ih hhead
      | some s =>
          cases s with
          | gate g =>
              show places_from (before ++ [g]) (head ++ tail) =
                places_from (before ++ (g :: head.filterMap gate_statement)) tail
              rw [ih hhead, List.append_assoc]
              rfl
          | measurement bit qubit => cases hhead
          | _ => exact ih hhead

/-! ## What is printed -/

/-- `measure_line` as a statement. -/
def printed_measure (k : Nat) (q : Int) : Option Statement :=
  some (.measurement ⟨"c".toList, nat_text k⟩ (qubit_ref q))

/-- `head_lines` as statements. -/
def printed_head (ir : NativeGateIR) : List (Option Statement) :=
  [some .header, some .inclusion, some (.qubits (int_text ir.num_qubits) "q".toList)] ++
    if ir.measurements = [] then []
    else [some (.bits (nat_text ir.measurements.length) "c".toList)]

/-- What is printed, with these statements for the gates. -/
def printed_program (ir : NativeGateIR) (gates : List GateStatement) : List (Option Statement) :=
  printed_head ir ++ gates.map (fun g => some (Statement.gate g)) ++ ir.measurements.mapIdx printed_measure

/-- The place of a measurement that is printed. -/
def printed_place (gates : List GateStatement) (k : Nat) (q : Int) : Place :=
  ⟨⟨"c".toList, nat_text k⟩, qubit_ref q, gates, []⟩

theorem places_of_measures (gates : List GateStatement) (qubits : List Int) :
    places_from gates (qubits.mapIdx printed_measure) = qubits.mapIdx (printed_place gates) := by
  have hshift : ∀ m, places_from gates (qubits.mapIdx fun k q => printed_measure (k + m) q) =
      qubits.mapIdx fun k q => printed_place gates (k + m) q := by
    induction qubits with
    | nil =>
        intro m
        rfl
    | cons q qubits ih =>
        intro m
        rw [List.mapIdx_cons, List.mapIdx_cons]
        have hnone : (qubits.mapIdx fun k q => printed_measure (k + 1 + m) q).filterMap
            gate_statement = [] := by
          rw [List.filterMap_eq_nil_iff]
          intro s hs
          obtain ⟨k, hk, rfl⟩ := List.mem_mapIdx.1 hs
          rfl
        show ⟨_, _, gates, _⟩ :: places_from gates _ = _
        rw [hnone]
        have htail := ih (m + 1)
        simp only [Nat.add_assoc, Nat.add_comm 1 m] at htail ⊢
        rw [htail]
        rfl
  exact hshift 0

theorem printed_places (ir : NativeGateIR) (gates : List GateStatement) :
    places (printed_program ir gates) = ir.measurements.mapIdx (printed_place gates) := by
  have hmeasured : (printed_head ir ++ gates.map fun g => some (Statement.gate g)).filterMap
      measured_qubit = [] := by
    rw [List.filterMap_eq_nil_iff]
    intro s hs
    rcases List.mem_append.1 hs with hs | hs
    · unfold printed_head at hs
      split at hs <;> simp at hs <;> rcases hs with rfl | rfl | rfl | rfl <;> rfl
    · obtain ⟨g, -, rfl⟩ := List.mem_map.1 hs
      rfl
  have hgates : (printed_head ir ++ gates.map fun g => some (Statement.gate g)).filterMap
      gate_statement = gates := by
    rw [List.filterMap_append]
    have hhead : (printed_head ir).filterMap gate_statement = [] := by
      unfold printed_head
      split <;> rfl
    rw [hhead, List.nil_append, List.filterMap_map]
    exact List.filterMap_some
  rw [places, printed_program, places_from_append hmeasured, hgates, List.nil_append,
    places_of_measures]

/-! ## The text that is printed -/

/-- A statement is what a line that it fills holds. -/
theorem holds_statement {s : Statement} {w : Text} (h : s.Spells py w)
    (hparams : ∀ g, s = .gate g → Inert (g.params.getD [])) : Holds py w (some s) := by
  have hscan := h.scan_append hparams []
  rw [List.append_nil] at hscan
  refine ⟨w, ?_, ?_⟩
  · rw [hscan]
    rfl
  · rwa [h.strip_eq]

theorem declares_printed (type : String) {count : Text} {name : Char} {rest : String}
    (hcount : Run py.is_digit count) (hname : py.is_word name = true)
    (hrest : rest.toList = [']', ' ', name, ';']) :
    Declares py type count [name] (type.toList ++ ['['] ++ count ++ rest.toList) := by
  have hword : Run py.is_word [name] :=
    ⟨List.cons_ne_nil _ _, fun c hc => by rw [List.mem_singleton.1 hc, hname]⟩
  refine ⟨[' '], [], hcount, run_space, hword, nofun, ?_⟩
  rw [hrest]
  simp

/-- The lines before the gates. -/
theorem holds_head (ir : NativeGateIR) :
    List.Forall₂ (Holds py) (head_lines ir) (printed_head ir) := by
  have hpos : 0 ≤ ir.num_qubits := by
    have h := ir.num_qubits_range
    omega
  have hqubits : Statement.Spells py (.qubits (int_text ir.num_qubits) "q".toList)
      ("qubit[".toList ++ int_text ir.num_qubits ++ "] q;".toList) :=
    declares_printed "qubit" (run_int_text hpos) (is_word_ascii (by decide)) rfl
  have hbits : Statement.Spells py (.bits (nat_text ir.measurements.length) "c".toList)
      ("bit[".toList ++ nat_text ir.measurements.length ++ "] c;".toList) :=
    declares_printed "bit" (run_nat_text _) (is_word_ascii (by decide)) rfl
  have hheader : Statement.Spells py .header "OPENQASM 3.0;".toList := accepts_printed_header
  have hinclude : Statement.Spells py .inclusion "include \"stdgates.inc\";".toList :=
    accepts_printed_include
  refine List.rel_append (.cons (holds_statement hheader nofun)
    (.cons (holds_statement hinclude nofun) (.cons (holds_statement hqubits nofun) .nil))) ?_
  unfold bit_lines
  split
  · exact .nil
  · exact .cons (holds_statement hbits nofun) .nil

theorem holds_measure (k : Nat) {q : Int} (hq : 0 ≤ q) :
    Holds py (measure_line k q) (printed_measure k q) := by
  have hbit : (Ref.mk "c".toList (nat_text k)).Valid py :=
    ⟨run_word (by decide) (by decide), run_nat_text k⟩
  have hnil : Spaces [] := fun _ hc => by cases hc
  have hspells : Statement.Spells py (.measurement ⟨"c".toList, nat_text k⟩ (qubit_ref q))
      (measure_line k q) := by
    refine ⟨[' '], [' '], [' '], [], hbit, qubit_ref_valid hq, run_space.2, run_space.2, run_space,
      hnil, ?_⟩
    rw [measure_line, ref_text_eq, ref_text_eq]
    simp only [List.append_assoc]
    rfl
  exact holds_statement hspells fun _ hs => by cases hs

theorem holds_measures {qubits : List Int} (h : ∀ q ∈ qubits, 0 ≤ q) :
    List.Forall₂ (Holds py) (measure_lines qubits) (qubits.mapIdx printed_measure) := by
  rw [List.forall₂_iff_get]
  refine ⟨by simp [measure_lines], fun k hk hk' => ?_⟩
  simp only [measure_lines, List.get_eq_getElem, List.getElem_mapIdx]
  exact holds_measure k (h _ (List.getElem_mem _))

theorem inert_format (x : Float64) : Inert (py.format x) := by
  intro c hc
  have hall : "0123456789+-.einfa".toList.all (fun c => c != '/' && (c != '"' && c != ';')) = true := by
    decide
  simpa using List.all_eq_true.1 hall c ((py.format_chars x).2 c hc)

theorem TakesGate.target_eq {g : GateStatement} {op : GateOp} (h : TakesGate py target g op) :
    target = "cz" ∨ target = "cnot" := by
  have hmapped := h.mapped
  unfold Qasm.mapped at hmapped
  by_cases hcz : target = "cz"
  · exact .inl hcz
  · rw [if_neg hcz] at hmapped
    by_cases hcnot : target = "cnot"
    · exact .inr hcnot
    · rw [if_neg hcnot] at hmapped
      cases hmapped

/-- What is printed for a gate is a gate with the same indices, of the register `q`. -/
structure Reprint (py : Python) (g printed : GateStatement) (line : Text) : Prop where
  spells : printed.Spells py line
  inert : Inert (printed.params.getD [])
  operands : printed.operands = (g.qubits py).map qubit_ref

theorem exists_reprint {g : GateStatement} {op : GateOp} (h : TakesGate py target g op) :
    ∃ line printed, ir_gate_to_openqasm py op target = .ok line ∧ Reprint py g printed line := by
  have hpos : ∀ q ∈ op.qubits, 0 ≤ q := by
    rw [h.qubits]
    intro q hq
    obtain ⟨r, -, rfl⟩ := List.mem_map.1 hq
    exact Int.natCast_nonneg _
  have hprinted : Printed py target g op := by
    rcases h.target_eq with rfl | rfl
    · exact printed_cz h
    · exact printed_cnot h
  have hoperands : op.qubits.map qubit_ref = (g.qubits py).map qubit_ref := by rw [h.qubits]
  cases hprinted with
  | angle x y hname hvalues hy hprint =>
      have hword : Run py.is_word g.label.toList := run_label (by decide) hname
      exact ⟨_, _, hprint, spells_angle_line hword (qubits_ne_nil op) hpos, inert_format y, hoperands⟩
  | plain hname hprint =>
      have hword : Run py.is_word g.label.toList := run_label (by decide) hname
      exact ⟨_, _, hprint, spells_plain_line hword (qubits_ne_nil op) hpos, nofun, hoperands⟩

theorem exists_reprints {gates : List GateStatement} {ops : List GateOp}
    (h : List.Forall₂ (TakesGate py target) gates ops) : ∃ lines printed,
      List.Forall₂ (fun op line => ir_gate_to_openqasm py op target = .ok line) ops lines ∧
      List.Forall₂ (Holds py) lines (printed.map fun g => some (Statement.gate g)) ∧
      List.Forall₂ (fun g g' : GateStatement => g'.operands = (g.qubits py).map qubit_ref) gates
        printed := by
  induction h with
  | nil => exact ⟨[], [], .nil, .nil, .nil⟩
  | cons hop _ ih =>
      obtain ⟨lines, printed, hlines, hholds, hoperands⟩ := ih
      obtain ⟨line, g', hprint, hreprint⟩ := exists_reprint hop
      have hline : Holds py line (some (Statement.gate g')) := by
        have hspells : Statement.Spells py (.gate g') line := hreprint.spells
        apply holds_statement hspells
        rintro g'' hg
        cases hg
        exact hreprint.inert
      exact ⟨line :: lines, g' :: printed, .cons hprint hlines, .cons hline hholds,
        .cons hreprint.operands hoperands⟩

/-- A program whose gates were taken from statements is printed, and the text says what the IR
has. -/
theorem exists_printed {ir : NativeGateIR} {gates : List GateStatement}
    (h : List.Forall₂ (TakesGate py ir.target) gates ir.gates) : ∃ text printed,
      ir_to_openqasm py ir = .ok text ∧ Says py text (printed_program ir printed) ∧
      List.Forall₂ (fun g g' : GateStatement => g'.operands = (g.qubits py).map qubit_ref) gates
        printed := by
  obtain ⟨lines, printed, hlines, hholds, hoperands⟩ := exists_reprints h
  refine ⟨_, printed, ir_to_openqasm_ok.2 ⟨lines, hlines, rfl⟩, ?_, hoperands⟩
  have hmeasured : ∀ q ∈ ir.measurements, 0 ≤ q := fun q hq =>
    (operand_range (ir.consistent.measured q hq)).1
  have htidy : ∀ line ∈ head_lines ir ++ lines ++ measure_lines ir.measurements, TidyLine line := by
    intro line hline
    rcases List.mem_append.1 hline with hline | hline
    · rcases List.mem_append.1 hline with hline | hline
      · exact tidy_head hline
      · obtain ⟨op, -, hop⟩ := exists_mem_left hlines hline
        exact tidy_gate hop
    · obtain ⟨i, hi, rfl⟩ := List.mem_mapIdx.1 hline
      exact tidy_measure i _
  have hne : head_lines ir ++ lines ++ measure_lines ir.measurements ≠ [] :=
    List.append_ne_nil_of_left_ne_nil (List.append_ne_nil_of_left_ne_nil (List.cons_ne_nil _ _) _) _
  have hsource : source_lines ("\n".toList.intercalate (head_lines ir ++ lines ++
      measure_lines ir.measurements) ++ ['\n']) =
      head_lines ir ++ lines ++ measure_lines ir.measurements := by
    rw [source_lines, show "\n".toList = ['\n'] from rfl, splitlines_joined hne htidy]
    apply (List.map_congr_left _).trans (List.map_id _)
    intro line hline
    exact (htidy line hline).strip_eq
  unfold Says
  rw [hsource]
  exact List.rel_append (List.rel_append (holds_head ir) hholds) (holds_measures hmeasured)

/-! ## Counting the gates -/

theorem acts_on_printed {g g' : GateStatement} (h : g'.operands = (g.qubits py).map qubit_ref)
    (i : Nat) : g'.acts_on py "q".toList i = g.touches py i := by
  unfold GateStatement.acts_on GateStatement.touches
  rw [h, GateStatement.qubits, List.map_map, List.any_map]
  congr 1
  funext r
  have hregister : (qubit_ref (int_value py r.index : Int)).register = "q".toList := rfl
  have hindex : int_value py (qubit_ref (int_value py r.index : Int)).index = int_value py r.index :=
    int_value_nat_text _
  show (decide ((qubit_ref (int_value py r.index : Int)).register = "q".toList) &&
    decide (int_value py (qubit_ref (int_value py r.index : Int)).index = i)) = _
  rw [decide_eq_true hregister, hindex, Bool.true_and]

theorem countP_printed {gates printed : List GateStatement}
    (h : List.Forall₂ (fun g g' : GateStatement => g'.operands = (g.qubits py).map qubit_ref) gates
      printed) (i : Nat) :
    printed.countP (·.acts_on py "q".toList i) = gates.countP (·.touches py i) := by
  induction h with
  | nil => rfl
  | cons hg _ ih => rw [List.countP_cons, List.countP_cons, ih, acts_on_printed hg]

theorem GateStatement.touches_of_acts {g : GateStatement} {register : Text} {i : Nat}
    (h : g.acts_on py register i = true) : g.touches py i = true := by
  obtain ⟨r, hr, hand⟩ := List.any_eq_true.1 h
  rw [Bool.and_eq_true] at hand
  exact List.any_eq_true.2 ⟨r, hr, hand.2⟩

section Counting

variable {α : Type} {p q : α → Bool} {before after : List α}

/-- As many letters have the one property as the other that it implies just if they are the same
letters. -/
theorem countP_eq_iff (himp : ∀ x, p x = true → q x = true) :
    before.countP p = before.countP q ↔ ∀ x ∈ before, q x = true → p x = true := by
  induction before with
  | nil => exact iff_of_true rfl nofun
  | cons x before ih =>
      have hle : before.countP p ≤ before.countP q := List.countP_mono_left fun x _ => himp x
      rw [List.forall_mem_cons, ← ih, List.countP_cons, List.countP_cons]
      by_cases hp : p x = true
      · rw [if_pos hp, if_pos (himp x hp)]
        constructor
        · intro h
          exact ⟨fun _ => hp, by omega⟩
        · intro h
          omega
      · rw [if_neg hp]
        by_cases hq : q x = true
        · rw [if_pos hq]
          constructor
          · intro h
            omega
          · rintro ⟨h, -⟩
            exact absurd (h hq) hp
        · rw [if_neg hq]
          constructor
          · intro h
            exact ⟨fun hx => absurd hx hq, by omega⟩
          · rintro ⟨-, h⟩
            omega

/-- All that have the one property stand before, and those that stand there have the other. -/
theorem countP_append_eq_iff (himp : ∀ x, p x = true → q x = true) :
    before.countP p = (before ++ after).countP q ∧ after.countP p = 0 ↔
      (∀ x ∈ before, q x = true → p x = true) ∧ ∀ x ∈ after, q x = false := by
  have hle : before.countP p ≤ before.countP q := List.countP_mono_left fun x _ => himp x
  have hnone : after.countP q = 0 ↔ ∀ x ∈ after, q x = false := by
    rw [List.countP_eq_zero]
    simp only [Bool.not_eq_true]
  rw [← countP_eq_iff himp, ← hnone, List.countP_append]
  constructor
  · rintro ⟨h, -⟩
    omega
  · rintro ⟨h, hq⟩
    have hp : after.countP p ≤ after.countP q := List.countP_mono_left fun x _ => himp x
    omega

end Counting

/-! ## The comparison -/

/-- Numbers that increase below their count are all the numbers below it. -/
theorem eq_range_of_increasing {l : List Nat} {m : Nat} (h : l.Pairwise (· < ·))
    (hbound : ∀ x ∈ l, m ≤ x ∧ x < m + l.length) : l = List.range' m l.length := by
  induction l generalizing m with
  | nil => rfl
  | cons x l ih =>
      rw [List.pairwise_cons] at h
      have hx := hbound x List.mem_cons_self
      rw [List.length_cons] at hx hbound
      have hrest : ∀ y ∈ l, m + 1 ≤ y ∧ y < m + 1 + l.length := by
        intro y hy
        have hlt := h.1 y hy
        have hy' := hbound y (List.mem_cons_of_mem _ hy)
        omega
      have hl := ih h.2 hrest
      have hxm : x = m := by
        -- the number behind `x`, if there is one, is `m + 1`
        cases l with
        | nil =>
            simp only [List.length_nil] at hx
            omega
        | cons y l =>
            rw [List.length_cons, List.range'_succ, List.cons.injEq] at hl
            have hlt := h.1 y List.mem_cons_self
            omega
      rw [List.length_cons, List.range'_succ, ← hl, hxm]

/-- **When a measurement is printed at its place.** -/
theorem same_place_iff {program : List (Option Statement)} {printed : List GateStatement}
    {qubits bits : Text} {p : Place} {k n : Nat} (hp : p ∈ places program)
    (hgates : List.Forall₂ (fun g g' : GateStatement => g'.operands = (g.qubits py).map qubit_ref)
      (program.filterMap gate_statement) printed) :
    SamePlace py qubits bits p (printed_place printed k n) ↔
      (p.bit.register = bits ∧ p.bit_index py = k) ∧
      (p.qubit.register = qubits ∧ p.qubit_index py = n) ∧
      (∀ g ∈ p.before, g.touches py (p.qubit_index py) = true → p.acts py g = true) ∧
      ∀ g ∈ p.after, g.touches py (p.qubit_index py) = false := by
  have hbit : (printed_place printed k n).bit_index py = k := int_value_nat_text k
  have hqubit : (printed_place printed k n).qubit_index py = n := int_value_nat_text n
  have hall : p.before ++ p.after = program.filterMap gate_statement := gates_of_place hp
  have himp : ∀ g, p.acts py g = true → g.touches py (p.qubit_index py) = true := fun g hg =>
    GateStatement.touches_of_acts hg
  have hcount : p.qubit_index py = n → (printed_place printed k n).before.countP
      ((printed_place printed k n).acts py) =
        (p.before ++ p.after).countP (·.touches py (p.qubit_index py)) := by
    intro hn
    have hacts : (printed_place printed k n).acts py = (·.acts_on py "q".toList (p.qubit_index py)) := by
      funext g
      show g.acts_on py "q".toList ((printed_place printed k n).qubit_index py) = _
      rw [hqubit, hn]
    rw [hall, hacts, ← countP_printed hgates]
    rfl
  rw [← countP_append_eq_iff himp]
  constructor
  · rintro ⟨⟨hbits, -, hbit'⟩, ⟨hqubits, -, hqubit'⟩, hbefore, hafter⟩
    have hn := hqubit'.trans hqubit
    exact ⟨⟨hbits, hbit'.trans hbit⟩, ⟨hqubits, hn⟩, hbefore.trans (hcount hn), hafter⟩
  · rintro ⟨⟨hbits, hbit'⟩, ⟨hqubits, hn⟩, hbefore, hafter⟩
    exact ⟨⟨hbits, rfl, hbit'.trans hbit.symm⟩, ⟨hqubits, rfl, hn.trans hqubit.symm⟩,
      hbefore.trans (hcount hn).symm, hafter⟩

/-- **When the measurements of a program are kept**, once its gates have been printed. -/
theorem kept_iff_in_place {program : List (Option Statement)} {printed : List GateStatement}
    {ir : NativeGateIR} {register : Text} (hregister : program.filterMap qubit_register = [register])
    (hmeasured : ir.measurements =
      (program.filterMap measured_qubit).map fun r => (int_value py r.index : Int))
    (hgates : List.Forall₂ (fun g g' : GateStatement => g'.operands = (g.qubits py).map qubit_ref)
      (program.filterMap gate_statement) printed) :
    SameMeasurements py program (printed_program ir printed) ∧ Expressible py program ↔
      InPlace py program := by
  have hindices : ir.measurements = (places program).map fun p => (p.qubit_index py : Int) := by
    rw [hmeasured, ← places_from_qubits [], List.map_map]
    rfl
  have hplaces : places (printed_program ir printed) =
      (places program).mapIdx fun k p => printed_place printed k (p.qubit_index py) := by
    rw [printed_places, hindices, List.mapIdx_eq_iff]
    intro i
    rw [List.getElem?_mapIdx, List.getElem?_map, Option.map_map]
    rfl
  constructor
  · rintro ⟨⟨qubits, bits, hqubits, hsame⟩, horder, huntouched⟩
    -- every bit is one of those that are printed
    have heach : ∀ p ∈ places program, ∃ k < (places program).length, ∃ n : Nat,
        SamePlace py qubits bits p (printed_place printed k n) := by
      intro p hp
      obtain ⟨p', hp', hplace⟩ := hsame p hp
      rw [hplaces] at hp'
      obtain ⟨k, hk, rfl⟩ := List.mem_mapIdx.1 hp'
      exact ⟨k, hk, _, hplace⟩
    have hbit : ∀ p ∈ places program, p.bit.register = bits ∧
        p.bit_index py < (places program).length := by
      intro p hp
      obtain ⟨k, hk, n, hplace⟩ := heach p hp
      obtain ⟨⟨hbits, rfl⟩, -⟩ := (same_place_iff hp hgates).1 hplace
      exact ⟨hbits, hk⟩
    have hincreasing : ((places program).map (·.bit_index py)).Pairwise (· < ·) := by
      rw [List.pairwise_map]
      refine horder.imp_of_mem fun {p p'} hp hp' hlt => hlt ?_
      rw [(hbit p hp).1, (hbit p' hp').1]
    have hrange := eq_range_of_increasing (m := 0) hincreasing (by
      intro x hx
      obtain ⟨p, hp, rfl⟩ := List.mem_map.1 hx
      rw [List.length_map, Nat.zero_add]
      exact ⟨Nat.zero_le _, (hbit p hp).2⟩)
    refine ⟨⟨bits, fun k p hk => ⟨(hbit p (List.mem_of_getElem? hk)).1, ?_⟩⟩, ?_, ?_, ?_⟩
    · have hget : ((places program).map (·.bit_index py))[k]? = some (p.bit_index py) := by
        rw [List.getElem?_map, hk]
        rfl
      rw [hrange] at hget
      obtain ⟨hlt, hvalue⟩ := List.getElem?_eq_some_iff.1 hget
      rw [List.getElem_range'] at hvalue
      omega
    · intro other hother p hp
      rw [hqubits, List.mem_singleton] at hother
      obtain ⟨k, -, n, hplace⟩ := heach p hp
      rw [hother]
      exact ((same_place_iff hp hgates).1 hplace).2.1.1
    · intro p hp
      obtain ⟨k, -, n, hplace⟩ := heach p hp
      exact ((same_place_iff hp hgates).1 hplace).2.2.1
    · intro p hp
      obtain ⟨k, -, n, hplace⟩ := heach p hp
      exact ((same_place_iff hp hgates).1 hplace).2.2.2
  · rintro ⟨⟨bits, hbits⟩, hqubits, hbefore, hafter⟩
    refine ⟨⟨register, bits, hregister, fun p hp => ?_⟩, ?_, ?_⟩
    · obtain ⟨k, hk⟩ := List.mem_iff_getElem?.1 hp
      obtain ⟨hlt, hget⟩ := List.getElem?_eq_some_iff.1 hk
      refine ⟨printed_place printed k (p.qubit_index py), ?_, ?_⟩
      · rw [hplaces]
        exact List.mem_mapIdx.2 ⟨k, hlt, by rw [hget]⟩
      · refine (same_place_iff hp hgates).2 ⟨hbits k p hk, ⟨?_, rfl⟩, hbefore p hp, hafter p hp⟩
        apply hqubits register _ p hp
        rw [hregister]
        exact List.mem_singleton_self register
    · rw [List.pairwise_iff_getElem]
      intro i j hi hj hij _
      rw [(hbits i _ (List.getElem?_eq_getElem hi)).2, (hbits j _ (List.getElem?_eq_getElem hj)).2]
      exact hij
    · intro p hp g hg
      rw [Bool.eq_false_iff]
      intro hacts
      have htouches := GateStatement.touches_of_acts hacts
      rw [hafter p hp g hg] at htouches
      cases htouches

/-- **When the measurements of a text keep their meaning.** A text with one statement on a line
that is accepted says one program, and the IR is printed as a text that says another. Their
measurements agree, and those of the first can be expressed, just if they write the bits of one
register in order from the first on, and if all that is done to a qubit is done before it is
measured, under the name of the one register. -/
theorem measurements_kept_iff (py : Python) {qasm : Text} {target now : String}
    {metadata : Option IRMetadata} {ir : NativeGateIR} (hlines : OnePerLine qasm)
    (h : openqasm_to_ir py qasm target metadata now = .ok ir) :
    ∃ program, Says py qasm program ∧ (∀ other, Says py qasm other → other = program) ∧
      ∃ text printed, ir_to_openqasm py ir = .ok text ∧ Says py text printed ∧
        (SameMeasurements py program printed ∧ Expressible py program ↔ InPlace py program) := by
  obtain ⟨program, hsays, htarget, htakes, hmeasured, register, hregister⟩ :=
    openqasm_to_ir_says hlines h
  rw [← htarget] at htakes
  obtain ⟨text, printed, hprint, hprinted, hgates⟩ := exists_printed htakes
  exact ⟨program, hsays, fun other hother => hother.unique hsays, text, _, hprint, hprinted,
    kept_iff_in_place hregister hmeasured hgates⟩

/-- Two qubits, two bits and two measurements. -/
def measuring (first second : Char × Char) : List (Option Statement) :=
  [some (.qubits "2".toList "q".toList), some (.bits "2".toList "c".toList),
    some (.measurement ⟨"c".toList, [first.1]⟩ ⟨"q".toList, [first.2]⟩),
    some (.measurement ⟨"c".toList, [second.1]⟩ ⟨"q".toList, [second.2]⟩)]

theorem sample_measures {bit qubit : Char} (hbit : sample_python.is_digit bit = true)
    (hqubit : sample_python.is_digit qubit = true) :
    Measures sample_python ⟨"c".toList, [bit]⟩ ⟨"q".toList, [qubit]⟩
      ("c[".toList ++ bit :: "] = measure q[".toList ++ qubit :: "];".toList) := by
  have hword : ∀ register : Char, register.isAlphanum = true →
      Run sample_python.is_word [register] := fun register h =>
    run_of_all (List.cons_ne_nil _ _) (by simp [Python.is_word, sample_python, h])
  have hdigit : ∀ c, sample_python.is_digit c = true → Run sample_python.is_digit [c] :=
    fun c hc => run_of_all (List.cons_ne_nil _ _) (by simp [hc])
  refine ⟨[' '], [' '], [' '], [], ⟨hword 'c' (by decide), hdigit bit hbit⟩,
    ⟨hword 'q' (by decide), hdigit qubit hqubit⟩, run_space.2, run_space.2, run_space,
    (fun _ hc => by cases hc), ?_⟩
  rfl

/-- The bits are written in order. -/
theorem sample_measurements_kept : ∃ ir text printed,
    openqasm_to_ir sample_python
      "qubit[2] q;\nbit[2] c;\nc[0] = measure q[1];\nc[1] = measure q[0];".toList "cz" none "now" =
        .ok ir ∧
    ir_to_openqasm sample_python ir = .ok text ∧ Says sample_python text printed ∧
    SameMeasurements sample_python (measuring ('0', '1') ('1', '0')) printed := by
  have hlines : OnePerLine
      "qubit[2] q;\nbit[2] c;\nc[0] = measure q[1];\nc[1] = measure q[0];".toList := by decide
  obtain ⟨ir, hok⟩ : ∃ ir, openqasm_to_ir sample_python
      "qubit[2] q;\nbit[2] c;\nc[0] = measure q[1];\nc[1] = measure q[0];".toList "cz" none "now" =
        .ok ir := ⟨_, rfl⟩
  obtain ⟨program, -, hunique, text, printed, hprint, hprinted, hiff⟩ :=
    measurements_kept_iff sample_python hlines hok
  have hsays : Says sample_python
      "qubit[2] q;\nbit[2] c;\nc[0] = measure q[1];\nc[1] = measure q[0];".toList
        (measuring ('0', '1') ('1', '0')) :=
    .cons ⟨_, rfl, sample_register⟩ (.cons ⟨_, rfl, sample_bits⟩
      (.cons ⟨_, rfl, sample_measures rfl rfl⟩ (.cons ⟨_, rfl, sample_measures rfl rfl⟩ .nil)))
  obtain rfl := hunique _ hsays
  have hplace : InPlace sample_python (measuring ('0', '1') ('1', '0')) := by
    refine ⟨⟨"c".toList, fun k p hp => ?_⟩, fun qubits hqubits p hp => ?_, fun p hp => ?_,
      fun p hp => ?_⟩
    · obtain ⟨hk, rfl⟩ := List.getElem?_eq_some_iff.1 hp
      rcases k with _ | _ | k
      · exact ⟨rfl, rfl⟩
      · exact ⟨rfl, rfl⟩
      · exact absurd hk (by simp [places, places_from, measuring])
    · obtain rfl : qubits = "q".toList := List.mem_singleton.1 hqubits
      rcases List.mem_pair.1 hp with rfl | rfl <;> rfl
    · rcases List.mem_pair.1 hp with rfl | rfl <;> exact nofun
    · rcases List.mem_pair.1 hp with rfl | rfl <;> exact nofun
  exact ⟨ir, text, printed, hok, hprint, hprinted, (hiff.2 hplace).1⟩

/-- Two bits are written in the other order. -/
theorem bits_renumbered :
    ¬ ∀ (qasm : Text) (target now : String) (metadata : Option IRMetadata) (ir : NativeGateIR),
      OnePerLine qasm → openqasm_to_ir sample_python qasm target metadata now = .ok ir →
      ∃ program text printed, Says sample_python qasm program ∧
        ir_to_openqasm sample_python ir = .ok text ∧ Says sample_python text printed ∧
        SameMeasurements sample_python program printed ∧ Expressible sample_python program := by
  intro hclaim
  have hlines : OnePerLine
      "qubit[2] q;\nbit[2] c;\nc[1] = measure q[0];\nc[0] = measure q[1];".toList := by decide
  obtain ⟨ir, hok⟩ : ∃ ir, openqasm_to_ir sample_python
      "qubit[2] q;\nbit[2] c;\nc[1] = measure q[0];\nc[0] = measure q[1];".toList "cz" none "now" =
        .ok ir := ⟨_, rfl⟩
  obtain ⟨program, text, printed, hsays, hprint, hprinted, hkept⟩ := hclaim _ _ _ _ _ hlines hok
  have hsays' : Says sample_python
      "qubit[2] q;\nbit[2] c;\nc[1] = measure q[0];\nc[0] = measure q[1];".toList
        (measuring ('1', '0') ('0', '1')) :=
    .cons ⟨_, rfl, sample_register⟩ (.cons ⟨_, rfl, sample_bits⟩
      (.cons ⟨_, rfl, sample_measures rfl rfl⟩ (.cons ⟨_, rfl, sample_measures rfl rfl⟩ .nil)))
  obtain rfl := hsays.unique hsays'
  -- the first place has the bit 1 and the second the bit 0
  have horder := (List.pairwise_cons.1 hkept.2.in_order).1 _ List.mem_cons_self rfl
  exact absurd horder (by decide)

end CodaNode.Qasm
