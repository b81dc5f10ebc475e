/-
`Qasm/Statements.lean` -- the statements a text is made of.

The parser looks at the start of each line and at nothing else. Here a text is read as a whole:
`scan` drops its comments and cuts it at the semicolons, and `Statement.Spells` is the syntax of
the statements of the subset, names of registers included. A text is one statement at most
(`Statement.Spells.unique`), so that a text with one statement on a line says one thing at most.
-/
import CodaNode.Qasm.Errors

set_option autoImplicit false

namespace CodaNode.Qasm

open Regex Regex.Re CodaNode.Ir

/-! ## Comments and semicolons -/

/-- What a place of a text stands in. -/
inductive Mode where
  | code
  /-- Behind a slash. -/
  | slash
  | line_comment
  | block_comment
  /-- Behind an asterisk in a block comment. -/
  | asterisk
  | quoted
  deriving DecidableEq

def Mode.next : Mode → Char → Mode
  | .code, c => if c = '/' then .slash else if c = '"' then .quoted else .code
  | .slash, c => if c = '/' then .line_comment else if c = '*' then .block_comment
      else if c = '"' then .quoted else .code
  | .line_comment, c => if c = '\n' then .code else .line_comment
  | .block_comment, c => if c = '*' then .asterisk else .block_comment
  | .asterisk, c => if c = '/' then .code else if c = '*' then .asterisk else .block_comment
  | .quoted, c => if c = '"' then .code else .quoted

/-- What is left of a letter. A block comment is left as a blank. -/
def Mode.emits : Mode → Char → Text
  | .code, c => if c = '/' then [] else [c]
  | .slash, c => if c = '/' then [] else if c = '*' then [' '] else ['/', c]
  | .line_comment, c => if c = '\n' then [c] else []
  | .block_comment, _ => []
  | .asterisk, _ => []
  | .quoted, c => [c]

/-- A text without its comments, cut at its semicolons. -/
structure Scan where
  statements : List Text
  /-- What stands behind the last semicolon. -/
  rest : Text
  /-- What the text ends in. -/
  mode : Mode

/-- The text stands before what was scanned. -/
def Scan.prepend (w : Text) (s : Scan) : Scan :=
  match s.statements with
  | [] => { s with rest := w ++ s.rest }
  | first :: others => { s with statements := (w ++ first) :: others }

/-- The text is a statement of its own before what was scanned. -/
def Scan.close (w : Text) (s : Scan) : Scan := { s with statements := w :: s.statements }

def scan : Mode → Text → Scan
  | mode, [] => ⟨[], if mode = .slash then ['/'] else [], mode⟩
  | mode, c :: rest =>
      if c = ';' ∧ (mode = .code ∨ mode = .slash) then
        (scan (mode.next c) rest).close (mode.emits c)
      else (scan (mode.next c) rest).prepend (mode.emits c)

theorem Scan.prepend_prepend (u v : Text) (s : Scan) :
    (s.prepend v).prepend u = s.prepend (u ++ v) := by
  rcases s with ⟨statements, rest, mode⟩
  cases statements with
  | nil => simp only [Scan.prepend, List.append_assoc]
  | cons first others => simp only [Scan.prepend, List.append_assoc]

theorem Scan.close_prepend (u v : Text) (s : Scan) :
    (s.close v).prepend u = s.close (u ++ v) := rfl

theorem Scan.prepend_nil (s : Scan) : s.prepend [] = s := by
  rcases s with ⟨statements, rest, mode⟩
  cases statements <;> rfl

/-- A letter that opens no comment and no string and ends no statement. -/
def Inert (w : Text) : Prop := ∀ c ∈ w, c ≠ '/' ∧ c ≠ '"' ∧ c ≠ ';'

theorem Inert.append {v w : Text} (hv : Inert v) (hw : Inert w) : Inert (v ++ w) :=
  List.forall_mem_append.2 ⟨hv, hw⟩

theorem scan_inert {w : Text} (hw : Inert w) (rest : Text) :
    scan .code (w ++ rest) = (scan .code rest).prepend w := by
  induction w with
  | nil => exact (Scan.prepend_nil _).symm
  | cons c w ih =>
      obtain ⟨⟨hslash, hquote, hsemicolon⟩, hrest⟩ := List.forall_mem_cons.1 hw
      have hnext : Mode.next .code c = .code := by
        rw [Mode.next, if_neg hslash, if_neg hquote]
      have hemits : Mode.emits .code c = [c] := if_neg hslash
      rw [List.cons_append, scan, if_neg fun h => hsemicolon h.1, hnext, hemits, ih hrest,
        Scan.prepend_prepend]
      rfl

theorem scan_quoted {w : Text} (hw : ∀ c ∈ w, c ≠ '"') (rest : Text) :
    scan .quoted (w ++ rest) = (scan .quoted rest).prepend w := by
  induction w with
  | nil => exact (Scan.prepend_nil _).symm
  | cons c w ih =>
      obtain ⟨hquote, hrest⟩ := List.forall_mem_cons.1 hw
      have hnext : Mode.next .quoted c = .quoted := if_neg hquote
      have hmode : ¬ (c = ';' ∧ (Mode.quoted = .code ∨ Mode.quoted = .slash)) := by
        rintro ⟨-, h | h⟩
        · cases h
        · cases h
      rw [List.cons_append, scan, if_neg hmode, hnext, ih hrest]
      show Scan.prepend [c] _ = _
      rw [Scan.prepend_prepend]
      rfl

theorem scan_semicolon (rest : Text) :
    scan .code (';' :: rest) = (scan .code rest).close [';'] := rfl

/-- A statement without comments and strings. -/
theorem scan_statement {body : Text} (hbody : Inert body) (rest : Text) :
    scan .code (body ++ [';'] ++ rest) = (scan .code rest).close (body ++ [';']) := by
  rw [List.append_assoc, scan_inert hbody]
  show (scan .code (';' :: rest)).prepend body = _
  rw [scan_semicolon, Scan.close_prepend]

/-- A statement with a string. -/
theorem scan_string {before file after : Text} (hbefore : Inert before)
    (hfile : ∀ c ∈ file, c ≠ '"') (hafter : Inert after) (rest : Text) :
    scan .code (before ++ ("\"".toList ++ (file ++ ("\"".toList ++ (after ++ [';'])))) ++ rest) =
      (scan .code rest).close
        (before ++ ("\"".toList ++ (file ++ ("\"".toList ++ (after ++ [';']))))) := by
  have hopen : ∀ tail, scan .code ('"' :: tail) = (scan .quoted tail).prepend ['"'] := fun _ => rfl
  have hclose : ∀ tail, scan .quoted ('"' :: tail) = (scan .code tail).prepend ['"'] := fun _ => rfl
  have hquote : "\"".toList = ['"'] := rfl
  rw [hquote]
  simp only [List.append_assoc, List.cons_append, List.nil_append]
  rw [scan_inert hbefore, hopen, scan_quoted hfile, hclose, scan_inert hafter, scan_semicolon,
    Scan.close_prepend, Scan.close_prepend, Scan.close_prepend, Scan.close_prepend,
    Scan.close_prepend]
  rfl

/-- A comment goes on to the end of its line. -/
theorem scan_comment {w : Text} (hw : '\n' ∉ w) :
    scan .line_comment w = ⟨[], [], .line_comment⟩ := by
  induction w with
  | nil => rfl
  | cons c w ih =>
      rw [List.mem_cons, not_or] at hw
      have hc : c ≠ '\n' := fun h => hw.1 h.symm
      have hnext : Mode.next .line_comment c = .line_comment := if_neg hc
      have hemits : Mode.emits .line_comment c = [] := if_neg hc
      have hmode : ¬ (c = ';' ∧ (Mode.line_comment = .code ∨ Mode.line_comment = .slash)) := by
        rintro ⟨-, h | h⟩
        · cases h
        · cases h
      rw [scan, if_neg hmode, hnext, hemits, ih hw.2]
      rfl

/-! ## The syntax of statements -/

variable (py : Python)

/-- A gate as it is written: its name, what stands in its parentheses, and its operands. -/
structure GateStatement where
  name : Text
  params : Option Text
  operands : List Ref

inductive Statement where
  | header
  | inclusion
  | bits (count register : Text)
  | qubits (count register : Text)
  | measurement (bit qubit : Ref)
  | gate (g : GateStatement)

/-- `type[count] register;`. -/
def Declares (type : String) (count register w : Text) : Prop :=
  ∃ s e, Run py.is_digit count ∧ Run is_space s ∧ Run py.is_word register ∧ Spaces e ∧
    w = type.toList ++ ("[".toList ++ (count ++ ("]".toList ++ (s ++ (register ++ (e ++ [';']))))))

/-- `bit = measure qubit;`. -/
def Measures (bit qubit : Ref) (w : Text) : Prop :=
  ∃ s₁ s₂ s₃ e, bit.Valid py ∧ qubit.Valid py ∧ Spaces s₁ ∧ Spaces s₂ ∧ Run is_space s₃ ∧
    Spaces e ∧ w = bit.text ++ (s₁ ++ ("=".toList ++ (s₂ ++ ("measure".toList ++ (s₃ ++
      (qubit.text ++ (e ++ [';'])))))))

/-- `name(params) operands;`. -/
def GateStatement.Spells (g : GateStatement) (w : Text) : Prop :=
  ∃ s operands e, Run py.is_word g.name ∧ (∀ p ∈ g.params, ∀ c ∈ p, c ≠ ')') ∧ Run is_space s ∧
    Operands py operands g.operands ∧ Spaces e ∧
    w = g.name ++ (paren g.params ++ (s ++ (operands ++ (e ++ [';']))))

/-- The text is the statement. -/
def Statement.Spells : Statement → Text → Prop
  | .header, w => (header_re py).Accepts w [] []
  | .inclusion, w => include_re.Accepts w [] []
  | .bits count register, w => Declares py "bit" count register w
  | .qubits count register, w => Declares py "qubit" count register w
  | .measurement bit qubit, w => Measures py bit qubit w
  | .gate g, w => g.Spells py w

/-! ## Lines -/

/-- The line is one statement, if anything but whitespace and comments stands on it, and no
comment goes on behind it. -/
def OneStatement (line : Text) : Prop :=
  (scan .code line).mode ∉ [Mode.block_comment, .asterisk] ∧
    (scan .code line).statements.length ≤ 1 ∧ Spaces (scan .code line).rest

instance (w : Text) : Decidable (Spaces w) :=
  List.decidableBAll (fun c => is_space c = true) w

instance (line : Text) : Decidable (OneStatement line) := inferInstanceAs (Decidable (_ ∧ _ ∧ _))

/-- What stands on the line. -/
def Holds (line : Text) : Option Statement → Prop
  | none => (scan .code line).statements = []
  | some s => ∃ w, (scan .code line).statements = [w] ∧ s.Spells py (strip w)

/-- The lines that the parser looks at. -/
def source_lines (qasm : Text) : List Text := (splitlines (strip qasm)).map strip

/-- The text has one statement on a line. -/
def OnePerLine (qasm : Text) : Prop := ∀ line ∈ source_lines qasm, OneStatement line

instance (qasm : Text) : Decidable (OnePerLine qasm) :=
  inferInstanceAs (Decidable (∀ line ∈ source_lines qasm, OneStatement line))

/-- What the text says, line by line. -/
def Says (qasm : Text) (program : List (Option Statement)) : Prop :=
  List.Forall₂ (Holds py) (source_lines qasm) program

/-! ## A text is one statement at most -/

section Unique

variable {py} {w u v r r' : Text} {p : Char → Bool}

/-- Where a run of letters ends is told by the letters. -/
theorem span_unique (hu : ∀ c ∈ u, p c = true) (hv : ∀ c ∈ v, p c = true)
    (hr : ∀ c, r.head? = some c → p c = false) (hr' : ∀ c, r'.head? = some c → p c = false)
    (h : u ++ r = v ++ r') : u = v ∧ r = r' := by
  have htake : ∀ {u r : Text}, (∀ c ∈ u, p c = true) → (∀ c, r.head? = some c → p c = false) →
      (u ++ r).takeWhile p = u := by
    intro u r hu hr
    rw [List.takeWhile_append_of_pos hu]
    cases r with
    | nil => rw [List.takeWhile_nil, List.append_nil]
    | cons c rest =>
        have hc := hr c rfl
        rw [List.takeWhile_cons_of_neg (by rw [hc]; exact Bool.false_ne_true), List.append_nil]
  have huv : u = v := by
    rw [← htake hu hr, h, htake hv hr']
  subst huv
  exact ⟨rfl, List.append_cancel_left h⟩

/-- The head of a text that begins with this letter. -/
theorem head_letter {c : Char} {rest : Text} (hc : p c = false) :
    ∀ d, (c :: rest).head? = some d → p d = false := by
  rintro d hd
  obtain rfl := Option.some.inj hd
  exact hc

theorem head_run {q : Char → Bool} (hw : Run q w) (hpq : ∀ c, q c = true → p c = false)
    (rest : Text) : ∀ d, (w ++ rest).head? = some d → p d = false := by
  obtain ⟨c, tail, rfl, hc⟩ := hw.exists_cons
  exact head_letter (hpq c hc)

/-- What may stand before a sign. -/
theorem head_spaces {e rest : Text} {c : Char} (he : Spaces e)
    (hspace : ∀ d, is_space d = true → p d = false) (hc : p c = false) :
    ∀ d, (e ++ c :: rest).head? = some d → p d = false := by
  cases e with
  | nil => exact head_letter hc
  | cons a e => exact head_letter (hspace a (he a List.mem_cons_self))

theorem Declares.unique {type : String} {count count' register register' : Text}
    (h : Declares py type count register w) (h' : Declares py type count' register' w) :
    count = count' ∧ register = register' := by
  obtain ⟨s, e, hcount, hs, hregister, he, rfl⟩ := h
  obtain ⟨s', e', hcount', hs', hregister', he', heq⟩ := h'
  have hbracket := List.append_cancel_left heq
  have hclose : ∀ rest, ∀ d, ("]".toList ++ rest).head? = some d → py.is_digit d = false :=
    fun rest => head_letter (IsSign.not_digit (by decide))
  obtain ⟨rfl, hrest⟩ := span_unique hcount.2 hcount'.2 (hclose _) (hclose _)
    (List.append_cancel_left hbracket)
  have hword : ∀ c, py.is_word c = true → is_space c = false := fun _ => is_word_not_space
  obtain ⟨rfl, hname⟩ := span_unique hs.2 hs'.2 (head_run hregister hword _)
    (head_run hregister' hword _) (List.append_cancel_left hrest)
  have hend : ∀ {e : Text}, Spaces e → ∀ d, (e ++ [';']).head? = some d → py.is_word d = false :=
    fun he => head_spaces he (fun _ => is_space_not_word) (IsSign.not_word (by decide))
  obtain ⟨rfl, -⟩ := span_unique hregister.2 hregister'.2 (hend he) (hend he') hname
  exact ⟨rfl, rfl⟩

/-- A reference is told from what follows it. -/
theorem Ref.unique {a b : Ref} (ha : a.Valid py) (hb : b.Valid py)
    (h : a.text ++ r = b.text ++ r') : a = b ∧ r = r' := by
  obtain ⟨register, index⟩ := a
  obtain ⟨register', index'⟩ := b
  simp only [Ref.text, List.append_assoc] at h
  have hopen : ∀ rest, ∀ d, ("[".toList ++ rest).head? = some d → py.is_word d = false :=
    fun rest => head_letter (IsSign.not_word (by decide))
  obtain ⟨rfl, hindex⟩ := span_unique ha.1.2 hb.1.2 (hopen _) (hopen _) h
  have hclose : ∀ rest, ∀ d, ("]".toList ++ rest).head? = some d → py.is_digit d = false :=
    fun rest => head_letter (IsSign.not_digit (by decide))
  obtain ⟨rfl, hrest⟩ := span_unique ha.2.2 hb.2.2 (hclose _) (hclose _)
    (List.append_cancel_left hindex)
  exact ⟨rfl, List.append_cancel_left hrest⟩

theorem Ref.head {a : Ref} (ha : a.Valid py) (rest : Text) :
    ∀ d, (a.text ++ rest).head? = some d → is_space d = false := by
  rw [Ref.text, List.append_assoc]
  exact head_run ha.1 (fun _ => is_word_not_space) _

theorem Measures.unique {bit bit' qubit qubit' : Ref} (h : Measures py bit qubit w)
    (h' : Measures py bit' qubit' w) : bit = bit' ∧ qubit = qubit' := by
  obtain ⟨s₁, s₂, s₃, e, hbit, hqubit, hs₁, hs₂, hs₃, he, rfl⟩ := h
  obtain ⟨s₁', s₂', s₃', e', hbit', hqubit', hs₁', hs₂', hs₃', he', heq⟩ := h'
  obtain ⟨rfl, hsign⟩ := Ref.unique hbit hbit' heq
  have hequals : ∀ rest, ∀ d, ("=".toList ++ rest).head? = some d → is_space d = false :=
    fun rest => head_letter rfl
  obtain ⟨rfl, hright⟩ := span_unique hs₁ hs₁' (hequals _) (hequals _) hsign
  have hmeasure : ∀ rest, ∀ d, ("measure".toList ++ rest).head? = some d → is_space d = false :=
    fun rest => head_letter rfl
  obtain ⟨rfl, hword⟩ := span_unique hs₂ hs₂' (hmeasure _) (hmeasure _)
    (List.append_cancel_left hright)
  obtain ⟨rfl, hoperand⟩ := span_unique hs₃.2 hs₃'.2 (Ref.head hqubit _) (Ref.head hqubit' _)
    (List.append_cancel_left hword)
  obtain ⟨rfl, -⟩ := Ref.unique hqubit hqubit' hoperand
  exact ⟨rfl, rfl⟩

theorem Tail.unique {refs refs' : List Ref} (h : Tail py w refs) (h' : Tail py w refs') :
    refs = refs' := by
  induction h generalizing refs' with
  | nil =>
      generalize hnil : ([] : Text) = w at h'
      cases h' with
      | nil => rfl
      | cons ha hb hr ht => simp at hnil
  | @cons a b t r refs ha hb hr ht ih =>
      generalize hw : a ++ (",".toList ++ (b ++ r.text)) ++ t = w at h'
      cases h' with
      | nil => simp at hw
      | @cons a' b' t' r' refs' ha' hb' hr' ht' =>
          simp only [List.append_assoc] at hw
          have hcomma : ∀ rest, ∀ d, (",".toList ++ rest).head? = some d → is_space d = false :=
            fun rest => head_letter rfl
          obtain ⟨rfl, hright⟩ := span_unique ha ha' (hcomma _) (hcomma _) hw
          obtain ⟨rfl, hoperand⟩ := span_unique hb hb' (Ref.head hr _) (Ref.head hr' _)
            (List.append_cancel_left hright)
          obtain ⟨rfl, rfl⟩ := Ref.unique hr hr' hoperand
          rw [ih ht']

theorem Operands.unique {refs refs' : List Ref} (h : Operands py w refs)
    (h' : Operands py w refs') : refs = refs' := by
  obtain ⟨r, rest, t, hr, ht, rfl, rfl⟩ := h
  obtain ⟨r', rest', t', hr', ht', heq, rfl⟩ := h'
  obtain ⟨rfl, rfl⟩ := Ref.unique hr hr' heq
  rw [ht.unique ht']

theorem GateStatement.Spells.accepts {g : GateStatement} (h : g.Spells py w) :
    ∃ operands, Operands py operands g.operands ∧ (gate_re py).Accepts w []
      ((3, operands) :: ((g.params.map fun p => (2, p)).toList ++ [(1, g.name)])) := by
  obtain ⟨s, operands, e, hname, hparams, hs, hoperands, he, rfl⟩ := h
  exact ⟨operands, hoperands, accepts_gate.2 ⟨g.name, g.params, s, operands, g.operands, e, hname,
    hparams, hs, hoperands, he, rfl, rfl⟩⟩

theorem GateStatement.Spells.unique {g g' : GateStatement} (h : g.Spells py w)
    (h' : g'.Spells py w) : g = g' := by
  obtain ⟨operands, hoperands, hw⟩ := h.accepts
  obtain ⟨operands', hoperands', hw'⟩ := h'.accepts
  obtain ⟨-, hcaps⟩ := unambiguous_gate w w [] [] _ _ _ rfl hw hw' (can_eps _) (can_eps _)
  obtain ⟨name, params, refs⟩ := g
  obtain ⟨name', params', refs'⟩ := g'
  have hboth : operands = operands' ∧ params = params' ∧ name = name' := by
    cases params <;> cases params' <;> simp at hcaps
    · exact ⟨hcaps.1, rfl, hcaps.2⟩
    · exact ⟨hcaps.1, congrArg some hcaps.2.1, hcaps.2.2⟩
  obtain ⟨rfl, rfl, rfl⟩ := hboth
  have hrefs : refs = refs' := hoperands.unique hoperands'
  rw [hrefs]

theorem Declares.accepts {type : String} {count register : Text}
    (h : Declares py type count register w) :
    (register_re py type).Accepts w [] [(1, count)] := by
  obtain ⟨s, e, hcount, hs, hregister, he, rfl⟩ := h
  exact accepts_register.2 ⟨count, s, register, e, hcount, hs, hregister, he, rfl, rfl⟩

theorem Measures.accepts {bit qubit : Ref} (h : Measures py bit qubit w) :
    (measure_re py).Accepts w [] [(2, qubit.index), (1, bit.index)] := by
  obtain ⟨s₁, s₂, s₃, e, hbit, hqubit, hs₁, hs₂, hs₃, he, rfl⟩ := h
  exact accepts_measure.2 ⟨bit, qubit, s₁, s₂, s₃, e, hbit, hqubit, hs₁, hs₂, hs₃, he, rfl, rfl⟩

/-- There is no equality sign in a declaration. -/
theorem Declares.not_measures {type : String} {count register : Text} {bit qubit : Ref}
    (htype : '=' ∉ type.toList) (h : Declares py type count register w) :
    ¬ Measures py bit qubit w := by
  obtain ⟨s, e, hcount, hs, hregister, he, rfl⟩ := h
  rintro ⟨s₁, s₂, s₃, e', -, -, -, -, -, -, heq⟩
  have hmem : '=' ∈ type.toList ++ ("[".toList ++ (count ++ ("]".toList ++ (s ++
      (register ++ (e ++ [';'])))))) := by
    rw [heq]
    simp
  simp only [List.mem_append] at hmem
  rcases hmem with hmem | hmem | hmem | hmem | hmem | hmem | hmem | hmem
  · exact htype hmem
  · exact absurd hmem (by decide)
  · have hdigit : py.is_digit '=' = false := IsSign.not_digit (by decide)
    rw [hcount.2 _ hmem] at hdigit
    cases hdigit
  · exact absurd hmem (by decide)
  · exact absurd (hs.2 _ hmem) (by decide)
  · have hword : py.is_word '=' = false := IsSign.not_word (by decide)
    rw [hregister.2 _ hmem] at hword
    cases hword
  · exact absurd (he _ hmem) (by decide)
  · exact absurd hmem (by decide)

theorem Operands.bracket {refs : List Ref} (h : Operands py w refs) : '[' ∈ w := by
  obtain ⟨r, rest, t, -, -, rfl, -⟩ := h
  simp [Ref.text]

/-- There is no bracket in a header. -/
theorem GateStatement.Spells.not_header {g : GateStatement} (h : g.Spells py w) :
    ¬ (header_re py).Accepts w [] [] := by
  intro hheader
  obtain ⟨s, version, e, hs, hversion, he, rfl, -⟩ := accepts_header.1 hheader
  obtain ⟨s', operands, e', -, -, -, hoperands, -, heq⟩ := h
  have hmem : '[' ∈ "OPENQASM".toList ++ (s ++ (version ++ (e ++ [';']))) := by
    rw [heq]
    simp [hoperands.bracket]
  simp only [List.mem_append] at hmem
  rcases hmem with hmem | hmem | hmem | hmem | hmem
  · exact absurd hmem (by decide)
  · exact absurd (hs.2 _ hmem) (by decide)
  · have hdigit : py.is_digit '[' = false := IsSign.not_digit (by decide)
    have hletter : (py.is_digit '[' || '[' == '.') = true := hversion.2 _ hmem
    rw [hdigit] at hletter
    cases hletter
  · exact absurd (he _ hmem) (by decide)
  · exact absurd hmem (by decide)

/-- The operands of a gate do not begin with a quotation mark. -/
theorem GateStatement.Spells.not_inclusion {g : GateStatement} (h : g.Spells py w) :
    ¬ include_re.Accepts w [] [] := by
  intro hinclude
  obtain ⟨s, file, e, hs, -, -, rfl, -⟩ := accepts_include.1 hinclude
  obtain ⟨s', operands, e', hname, -, hs', ⟨r, rest, t, hr, -, rfl, -⟩, -, heq⟩ := h
  have hword : Run py.is_word "include".toList := run_word (by decide) (by decide)
  have hspace : ∀ d, is_space d = true → py.is_word d = false := fun _ => is_space_not_word
  have hquote : ∀ rest d, ("\"".toList ++ rest).head? = some d → is_space d = false :=
    fun rest => head_letter rfl
  cases hparams : g.params with
  | none =>
      rw [hparams] at heq
      obtain ⟨-, hright⟩ := span_unique hword.2 hname.2 (head_run hs hspace _)
        (head_run hs' hspace _) heq
      rw [List.append_assoc] at hright
      obtain ⟨-, hoperand⟩ := span_unique hs.2 hs'.2 (hquote _) (Ref.head hr _) hright
      obtain ⟨c, register, hregister, hc⟩ := hr.1.exists_cons
      rw [Ref.text, hregister] at hoperand
      obtain rfl : '"' = c := (List.cons.inj hoperand).1
      rw [IsSign.not_word (by decide)] at hc
      cases hc
  | some p =>
      rw [hparams] at heq
      have hparen : ∀ d, (paren (some p) ++ (s' ++ (r.text ++ t ++ (e' ++ [';'])))).head? = some d →
          py.is_word d = false := head_letter (IsSign.not_word (by decide))
      obtain ⟨-, hright⟩ := span_unique hword.2 hname.2 (head_run hs hspace _) hparen heq
      obtain ⟨c, tail, rfl, hc⟩ := hs.exists_cons
      obtain rfl : c = '(' := (List.cons.inj hright).1
      cases hc

/-- The word a statement begins with, and what follows the word. -/
def Statement.Leading (py : Python) (w : Text) : Statement → Prop
  | .header => ∃ c, is_space c = true ∧ Leads py w "OPENQASM".toList c
  | .inclusion => ∃ c, is_space c = true ∧ Leads py w "include".toList c
  | .bits _ _ => Leads py w "bit".toList '['
  | .qubits _ _ => Leads py w "qubit".toList '['
  | .measurement _ _ => ∃ name, Leads py w name '['
  | .gate _ => ∃ name c, (c = '(' ∨ is_space c = true) ∧ Leads py w name c

theorem Statement.Spells.leads {s : Statement} (h : s.Spells py w) : s.Leading py w := by
  cases s with
  | header => exact leads_header h
  | inclusion => exact leads_include h
  | bits count register => exact leads_bit (Declares.accepts h)
  | qubits count register => exact leads_qubit (Declares.accepts h)
  | measurement bit qubit => exact leads_measure (Measures.accepts h)
  | gate g =>
      obtain ⟨operands, -, hw⟩ := GateStatement.Spells.accepts h
      exact leads_gate hw

/-- The kinds of statements, in some order. -/
def Statement.rank : Statement → Nat
  | .header => 0
  | .inclusion => 1
  | .bits _ _ => 2
  | .qubits _ _ => 3
  | .measurement _ _ => 4
  | .gate _ => 5

/-- A word is not followed by a bracket and by something else. -/
theorem Leads.not_bracket {name name' : Text} {c : Char} (h : Leads py w name '[')
    (h' : Leads py w name' c) : ¬ (c = '(' ∨ is_space c = true) := by
  obtain ⟨-, rfl⟩ := h.unique h'
  decide

theorem Leads.not_other {name name' : Text} {c c' : Char} (h : Leads py w name c)
    (h' : Leads py w name' c') (hne : name ≠ name') : False := hne (h.unique h').1

theorem Statement.Spells.rank_le {s s' : Statement} (h : s.Spells py w) (h' : s'.Spells py w) :
    s'.rank ≤ s.rank := by
  have hlead := h.leads
  have hlead' := h'.leads
  by_contra hlt
  cases s <;> cases s' <;> try exact hlt (Nat.le_of_ble_eq_true rfl)
  case header.inclusion =>
    obtain ⟨c, -, hc⟩ := hlead
    obtain ⟨c', -, hc'⟩ := hlead'
    exact hc.not_other hc' (by decide)
  case header.bits =>
    obtain ⟨c, hspace, hc⟩ := hlead
    exact hlead'.not_bracket hc (.inr hspace)
  case header.qubits =>
    obtain ⟨c, hspace, hc⟩ := hlead
    exact hlead'.not_bracket hc (.inr hspace)
  case header.measurement =>
    obtain ⟨c, hspace, hc⟩ := hlead
    obtain ⟨name, hname⟩ := hlead'
    exact hname.not_bracket hc (.inr hspace)
  case header.gate g => exact GateStatement.Spells.not_header h' h
  case inclusion.bits =>
    obtain ⟨c, hspace, hc⟩ := hlead
    exact hlead'.not_bracket hc (.inr hspace)
  case inclusion.qubits =>
    obtain ⟨c, hspace, hc⟩ := hlead
    exact hlead'.not_bracket hc (.inr hspace)
  case inclusion.measurement =>
    obtain ⟨c, hspace, hc⟩ := hlead
    obtain ⟨name, hname⟩ := hlead'
    exact hname.not_bracket hc (.inr hspace)
  case inclusion.gate g => exact GateStatement.Spells.not_inclusion h' h
  case bits.qubits => exact hlead.not_other hlead' (by decide)
  case bits.measurement => exact Declares.not_measures (by decide) h h'
  case bits.gate =>
    obtain ⟨name, c, hc, hname⟩ := hlead'
    exact hlead.not_bracket hname hc
  case qubits.measurement => exact Declares.not_measures (by decide) h h'
  case qubits.gate =>
    obtain ⟨name, c, hc, hname⟩ := hlead'
    exact hlead.not_bracket hname hc
  case measurement.gate =>
    obtain ⟨name, c, hc, hname⟩ := hlead'
    obtain ⟨name', hname'⟩ := hlead
    exact hname'.not_bracket hname hc

/-- A text is one statement at most. -/
theorem Statement.Spells.unique {s s' : Statement} (h : s.Spells py w) (h' : s'.Spells py w) :
    s = s' := by
  have hrank : s.rank = s'.rank := Nat.le_antisymm (h'.rank_le h) (h.rank_le h')
  cases s <;> cases s' <;> try cases hrank
  case header => rfl
  case inclusion => rfl
  case bits =>
    obtain ⟨rfl, rfl⟩ := Declares.unique h h'
    rfl
  case qubits =>
    obtain ⟨rfl, rfl⟩ := Declares.unique h h'
    rfl
  case measurement =>
    obtain ⟨rfl, rfl⟩ := Measures.unique h h'
    rfl
  case gate => rw [GateStatement.Spells.unique h h']

theorem Holds.unique {line : Text} {s s' : Option Statement} (h : Holds py line s)
    (h' : Holds py line s') : s = s' := by
  cases s with
  | none =>
      cases s' with
      | none => rfl
      | some s' =>
          obtain ⟨w, hw, -⟩ := h'
          rw [show (scan .code line).statements = [] from h] at hw
          cases hw
  | some s =>
      obtain ⟨w, hw, hs⟩ := h
      cases s' with
      | none =>
          rw [show (scan .code line).statements = [] from h'] at hw
          cases hw
      | some s' =>
          obtain ⟨w', hw', hs'⟩ := h'
          rw [hw] at hw'
          cases hw'
          rw [hs.unique hs']

/-- A text says one thing at most. -/
theorem Says.unique {qasm : Text} {program program' : List (Option Statement)}
    (h : Says py qasm program) (h' : Says py qasm program') : program = program' := by
  unfold Says at h h'
  generalize source_lines qasm = lines at h h'
  induction h generalizing program' with
  | nil =>
      cases h'
      rfl
  | cons hline _ ih =>
      cases h' with
      | cons hline' hrest => rw [hline.unique hline', ih hrest]

end Unique

end CodaNode.Qasm
