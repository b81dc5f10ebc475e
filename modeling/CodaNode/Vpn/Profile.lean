/-
`Vpn/Profile.lean` -- the check of a VPN profile, and what OpenVPN makes of it.

The check looks at the first word of each line as `str.splitlines`, `str.strip` and
`str.split` find it. OpenVPN reads the same file with rules of its own: quotes and
backslashes are removed from a word, a leading `--` is dropped, and a byte order mark at the
start of the file is skipped. The check sees through none of these, and
`accepted_profile_command_free` says that nothing else escapes it.
-/
import CodaNode.Text.Strings

set_option autoImplicit false

namespace CodaNode.Vpn

/-- `coda_node.errors.NodeError`. -/
structure NodeError where
  message : String
  deriving DecidableEq, Repr

/-! ## The check -/

/-- `_DANGEROUS_OVPN_DIRECTIVES`. -/
def dangerous_ovpn_directives : List Text :=
  ["script-security", "up", "down", "client-connect", "client-disconnect", "learn-address",
    "auth-user-pass-verify", "tls-verify", "ipchange", "route-up", "route-pre-down",
    "plugin"].map String.toList

/-- `line.strip().split()[0].lower() if line.strip() else ""`. -/
def line_directive (L : Lowercase) (line : Text) : Text :=
  if strip line = [] then [] else L.lower ((split (strip line)).headD [])

/-- The error for the directive on the line. -/
def forbidden (directive : Text) (lineno : Nat) : NodeError :=
  ⟨"Refusing OpenVPN profile: forbidden directive '" ++ String.ofList directive ++
    "' on line " ++ toString lineno⟩

/-- The `for` loop of `_validate_vpn_profile`. -/
def validate_lines (L : Lowercase) (lineno : Nat) : List Text → Except NodeError Unit
  | [] => .ok ()
  | line :: rest =>
      if line_directive L line ∈ dangerous_ovpn_directives then
        .error (forbidden (line_directive L line) lineno)
      else validate_lines L (lineno + 1) rest

/-- `_validate_vpn_profile`. -/
def validate_vpn_profile (L : Lowercase) (profile : Text) : Except NodeError Unit :=
  validate_lines L 1 (splitlines profile)

/-- `if "reneg-sec" not in profile: profile = profile.rstrip() + "\nreneg-sec 0\n"`. -/
def add_reneg_sec (profile : Text) : Text :=
  if contains "reneg-sec".toList profile then profile
  else rstrip profile ++ "\nreneg-sec 0\n".toList

/-- `_write_vpn_profile`, up to the text that it writes. -/
def write_vpn_profile (L : Lowercase) (profile : Text) : Except NodeError Text := do
  validate_vpn_profile L profile
  pure (add_reneg_sec profile)

/-! ## OpenVPN's reader -/

/-- `isspace` of the C locale. -/
def c_space (c : Char) : Bool := c = ' ' || (9 ≤ c.toNat && c.toNat ≤ 13)

/-- The rest of a word without quotes: a backslash keeps the next character as it is. -/
def unquoted : Text → Option Text
  | [] => some []
  | '\\' :: [] => none
  | '\\' :: c :: rest => (unquoted rest).map (c :: ·)
  | c :: rest => if c_space c then some [] else (unquoted rest).map (c :: ·)

/-- The rest of a word in double quotes. -/
def double_quoted : Text → Option Text
  | [] => none
  | '\\' :: [] => none
  | '\\' :: c :: rest => (double_quoted rest).map (c :: ·)
  | c :: rest => if c = '"' then some [] else (double_quoted rest).map (c :: ·)

/-- The rest of a word in single quotes, where a backslash is a character like any other. -/
def single_quoted : Text → Option Text
  | [] => none
  | c :: rest => if c = '\'' then some [] else (single_quoted rest).map (c :: ·)

/-- The first word of a line, if the line can be read. -/
def first_word (line : Text) : Option Text :=
  match line.dropWhile c_space with
  | '"' :: rest => double_quoted rest
  | '\'' :: rest => single_quoted rest
  | rest => unquoted rest

/-- A leading `--` is dropped. -/
def drop_dashes : Text → Text
  | '-' :: '-' :: rest => rest
  | word => word

/-- The directive of a line. -/
def ovpn_directive (line : Text) : Option Text := (first_word line).map drop_dashes

/-- A byte order mark is skipped. -/
def drop_bom : Text → Text
  | '\uFEFF' :: rest => rest
  | text => text

/-- The lines of a config file: as they are written, and as they are read. -/
def config_lines (profile : Text) : List (Text × Text) :=
  match profile.splitOn '\n' with
  | [] => []
  | line :: lines => (line, drop_bom line) :: lines.map fun l => (l, l)

/-- No line has a dangerous directive. -/
def CommandFree (profile : Text) : Prop :=
  ∀ l ∈ config_lines profile, ∀ d ∈ dangerous_ovpn_directives, ovpn_directive l.2 ≠ some d

instance (profile : Text) : Decidable (CommandFree profile) :=
  inferInstanceAs (Decidable (∀ l ∈ config_lines profile, ∀ d ∈ dangerous_ovpn_directives,
    ovpn_directive l.2 ≠ some d))

/-- The first word of a line as it is written. -/
def written_word (line : Text) : Text :=
  (line.dropWhile c_space).takeWhile fun c => !c_space c

/-- Every dangerous directive is written as it is read: without quotes, backslashes or
dashes around it and with no byte order mark in front. -/
def PlainlySpelled (profile : Text) : Prop :=
  ∀ l ∈ config_lines profile, ∀ d ∈ dangerous_ovpn_directives,
    ovpn_directive l.2 = some d → written_word l.1 = d

instance (profile : Text) : Decidable (PlainlySpelled profile) :=
  inferInstanceAs (Decidable (∀ l ∈ config_lines profile, ∀ d ∈ dangerous_ovpn_directives,
    ovpn_directive l.2 = some d → written_word l.1 = d))

/-! ## What the check sees -/

section Check

variable {L : Lowercase} {profile word : Text}

/-- The word is the first one of a line. -/
def Heads (text word : Text) : Prop :=
  ∃ pre post, text = pre ++ word ++ post ∧ Indented pre ∧ IsWord word ∧ Ends post

theorem validate_lines_ok {lines : List Text} {n : Nat} : validate_lines L n lines = .ok () ↔
    ∀ line ∈ lines, line_directive L line ∉ dangerous_ovpn_directives := by
  induction lines generalizing n with
  | nil => simp [validate_lines]
  | cons line rest ih =>
      rw [validate_lines, List.forall_mem_cons, ← ih (n := n + 1)]
      by_cases h : line_directive L line ∈ dangerous_ovpn_directives
      · rw [if_pos h]
        simp [h]
      · rw [if_neg h]
        simp [h]

theorem line_directive_eq {a w b : Text} (ha : ∀ c ∈ a, is_space c = true) (hw : IsWord w)
    (hb : Ends b) : line_directive L (a ++ w ++ b) = L.lower w := by
  have hhead := split_strip ha hw hb
  have hne : strip (a ++ w ++ b) ≠ [] := by
    intro hnil
    rw [hnil] at hhead
    cases hhead
  rw [line_directive, if_neg hne, List.headD_eq_head?_getD, hhead]
  rfl

theorem not_dangerous_nil : ([] : Text) ∉ dangerous_ovpn_directives := by decide

theorem heads_of_line {a b : Text} (hline : a ++ word ++ b ∈ splitlines profile)
    (ha : ∀ c ∈ a, is_space c = true) (hw : IsWord word) (hb : Ends b) : Heads profile word := by
  obtain ⟨pre, post, rfl, hpre, hpost⟩ := mem_splitlines hline
  refine ⟨pre ++ a, b ++ post, by simp, hpre.indented ha, hw, hb.append hpost.ends⟩

/-- The check accepts a profile if no line begins with a dangerous directive, in capitals or
not. -/
theorem validate_ok_iff : validate_vpn_profile L profile = .ok () ↔
    ∀ word, Heads profile word → L.lower word ∉ dangerous_ovpn_directives := by
  rw [validate_vpn_profile, validate_lines_ok]
  constructor
  · rintro h word ⟨pre, post, rfl, hpre, hw, hpost⟩
    have hfree : ∀ c ∈ word, is_linebreak c = false := by
      intro c hc
      by_contra hbreak
      rw [Bool.not_eq_false] at hbreak
      have hspace := is_space_of_is_linebreak hbreak
      rw [hw.2 c hc] at hspace
      cases hspace
    obtain ⟨a, b, hmem, ha, hafree, hb⟩ := splitlines_around hfree hw.1 pre post
    rw [← line_directive_eq (hpre a ha hafree) hw (hpost.of_initial hb)]
    exact h _ hmem
  · intro h line hline
    by_cases hblank : strip line = []
    · rw [line_directive, if_pos hblank]
      exact not_dangerous_nil
    · obtain ⟨a, w, b, rfl, ha, hw, hb⟩ := exists_first_word hblank
      rw [line_directive_eq ha hw hb]
      exact h w (heads_of_line hline ha hw hb)

/-! ## The file that is written -/

/-- A line of the file is one of the profile, or it has been added. -/
theorem heads_append {core ws : Text} (tail : Text) (hws : ∀ c ∈ ws, is_space c = true)
    (h : Heads (core ++ '\n' :: tail) word) : Heads (core ++ ws) word ∨ Heads tail word := by
  obtain ⟨pre, post, heq, hpre, hw, hpost⟩ := h
  have hnew : '\n' ∉ word := by
    intro hmem
    have hspace := hw.2 _ hmem
    cases hspace
  rw [List.append_assoc] at heq
  rcases List.append_eq_append_iff.1 heq with ⟨as, rfl, hrest⟩ | ⟨as, rfl, hrest⟩
  · -- the word begins after the text of the profile
    refine .inr ?_
    cases as with
    | nil =>
        obtain ⟨c, rest, rfl⟩ := List.exists_cons_of_ne_nil hw.1
        cases hrest
        exact absurd List.mem_cons_self hnew
    | cons c as =>
        obtain ⟨rfl, rfl⟩ := List.cons.inj hrest
        refine ⟨as, post, by simp, fun a ha => hpre a ?_, hw, hpost⟩
        exact ha.trans ⟨core ++ ['\n'], by simp⟩
  · -- the word begins in the profile, and the line break is not part of it
    refine .inl ?_
    have hin : ∃ bs, as = word ++ bs ∧ post = bs ++ '\n' :: tail := by
      rcases List.append_eq_append_iff.1 hrest with ⟨bs, has, hpost'⟩ | ⟨bs, hword, hpost'⟩
      · exact ⟨bs, has, hpost'⟩
      · cases bs with
        | nil => exact ⟨[], by rw [hword]; simp, hpost'.symm⟩
        | cons c bs =>
            obtain ⟨rfl, -⟩ := List.cons.inj hpost'
            refine absurd ?_ hnew
            rw [hword]
            exact List.mem_append_right _ List.mem_cons_self
    obtain ⟨bs, rfl, hpost'⟩ := hin
    refine ⟨pre, bs ++ ws, by simp, hpre, hw, ?_⟩
    exact Ends.append (hpost.of_initial ⟨_, hpost'.symm⟩) fun c hc =>
      hws c (List.mem_of_mem_head? hc)

/-- The line that is added is accepted. -/
theorem validate_reneg_sec : validate_vpn_profile L "reneg-sec 0\n".toList = .ok () := by
  have hlines : splitlines "reneg-sec 0\n".toList = ["reneg-sec 0".toList] := by decide
  have hword : (split (strip "reneg-sec 0".toList)).headD [] = "reneg-sec".toList := by decide
  have hdirective : line_directive L "reneg-sec 0".toList = L.lower "reneg-sec".toList := by
    rw [line_directive, if_neg (by decide), hword]
  rw [validate_vpn_profile, hlines, validate_lines_ok]
  intro line hline
  rw [List.mem_singleton.1 hline, hdirective, L.of_ascii (by decide)]
  decide

theorem write_vpn_profile_ok {file : Text} : write_vpn_profile L profile = .ok file ↔
    validate_vpn_profile L profile = .ok () ∧ file = add_reneg_sec profile := by
  rw [write_vpn_profile]
  cases validate_vpn_profile L profile with
  | error e => exact ⟨(fun h => by cases h), fun h => by cases h.1⟩
  | ok u =>
      simp only [bind, Except.bind, pure, Except.pure, Except.ok.injEq, true_and]
      exact eq_comm

/-- What has been accepted is accepted again as it is written. -/
theorem validate_written {file : Text} (h : write_vpn_profile L profile = .ok file) :
    validate_vpn_profile L file = .ok () := by
  have hv := (write_vpn_profile_ok.1 h).1
  rw [(write_vpn_profile_ok.1 h).2, add_reneg_sec]
  by_cases hin : contains "reneg-sec".toList profile = true
  · rw [if_pos hin]
    exact hv
  · rw [if_neg hin]
    rw [validate_ok_iff] at hv ⊢
    intro word hword
    have hprofile : rstrip profile ++ profile.rtakeWhile is_space = profile :=
      List.rdropWhile_append_rtakeWhile
    have hws : ∀ c ∈ profile.rtakeWhile is_space, is_space c = true :=
      fun c hc => List.mem_rtakeWhile_imp hc
    rcases heads_append "reneg-sec 0\n".toList hws hword with hword | hword
    · rw [hprofile] at hword
      exact hv word hword
    · exact validate_ok_iff.1 validate_reneg_sec word hword

end Check

/-! ## Where the two readers agree -/

/-- Where a line that OpenVPN reads stands in the file. -/
theorem mem_config_lines {profile : Text} {l : Text × Text} (h : l ∈ config_lines profile) :
    ∃ pre post, profile = pre ++ l.1 ++ post ∧ Broken pre ∧ Breaks post := by
  have hline : l.1 ∈ profile.splitOn '\n' := by
    rw [config_lines] at h
    cases hs : profile.splitOn '\n' with
    | nil =>
        rw [hs] at h
        cases h
    | cons line lines =>
        rw [hs] at h
        rcases List.mem_cons.1 h with rfl | h
        · exact List.mem_cons_self
        · obtain ⟨m, hm, rfl⟩ := List.mem_map.1 h
          exact List.mem_cons_of_mem _ hm
  obtain ⟨pre, post, heq, hpre, hpost⟩ := mem_intercalate (x := '\n') hline
  rw [List.intercalate_splitOn] at heq
  refine ⟨pre, post, heq, fun c hc => ?_, fun c hc => ?_⟩
  · rw [hpre c hc]
    decide
  · rw [hpost c hc]
    decide

theorem is_space_of_c_space {c : Char} (h : c_space c = true) : is_space c = true := by
  simp only [c_space, is_space, Bool.or_eq_true, Bool.and_eq_true, decide_eq_true_eq,
    beq_iff_eq] at h ⊢
  rcases h with rfl | h
  · decide
  · omega

theorem lower_dangerous (L : Lowercase) {d : Text} (hd : d ∈ dangerous_ovpn_directives) :
    L.lower d = d ∧ IsWord d := by
  have hascii : ∀ d ∈ dangerous_ovpn_directives, d.all (fun c => c.toNat < 128) = true ∧
      d.map Char.toLower = d ∧ d ≠ [] ∧ d.all (fun c => !is_space c) = true := by decide
  obtain ⟨hc, hlower, hne, hspace⟩ := hascii d hd
  refine ⟨by rw [L.of_ascii hc, hlower], hne, fun c hmem => ?_⟩
  simpa using List.all_eq_true.1 hspace c hmem

/-- **Accepted profiles and commands**: an accepted profile, and the file that is written for
it, is free of dangerous directives just if none is spelled in a way that the check does not
see through. -/
theorem accepted_profile_command_free (L : Lowercase) {profile file : Text}
    (h : validate_vpn_profile L profile = .ok ())
    (hfile : file = profile ∨ write_vpn_profile L profile = .ok file) :
    CommandFree file ↔ PlainlySpelled file := by
  have hv : validate_vpn_profile L file = .ok () := by
    rcases hfile with rfl | hw
    · exact h
    · exact validate_written hw
  constructor
  · intro hfree l hl d hd hread
    exact absurd hread (hfree l hl d hd)
  · intro hplain l hl d hd hread
    obtain ⟨hlower, hword⟩ := lower_dangerous L hd
    refine validate_ok_iff.1 hv d ?_ (by rw [hlower]; exact hd)
    obtain ⟨pre, post, heq, hpre, hpost⟩ := mem_config_lines hl
    have hwritten := hplain l hl d hd hread
    have hline : l.1 = l.1.takeWhile c_space ++ d ++
        (l.1.dropWhile c_space).dropWhile fun c => !c_space c := by
      rw [← hwritten, written_word, List.append_assoc, List.takeWhile_append_dropWhile,
        List.takeWhile_append_dropWhile]
    refine ⟨pre ++ l.1.takeWhile c_space,
      ((l.1.dropWhile c_space).dropWhile fun c => !c_space c) ++ post, ?_, ?_, hword, ?_⟩
    · calc file = pre ++ l.1 ++ post := heq
        _ = pre ++ (l.1.takeWhile c_space ++ d ++
              (l.1.dropWhile c_space).dropWhile fun c => !c_space c) ++ post := by rw [← hline]
        _ = _ := by simp only [List.append_assoc]
    · exact hpre.indented fun c hc => is_space_of_c_space (List.mem_takeWhile_imp hc)
    · refine Ends.append (fun c hc => ?_) hpost.ends
      have hhead := List.head?_dropWhile_not (fun c => !c_space c) (l.1.dropWhile c_space)
      rw [hc] at hhead
      exact is_space_of_c_space (by simpa using hhead)

/-- The profile of the tests. -/
def clean_profile : Text :=
  "client\nremote vpn.example.com 1194\ndev tun\nproto udp\n".toList

/-- It is free of commands, and so is the file that is written for it. -/
theorem clean_profile_command_free : CommandFree (add_reneg_sec clean_profile) := by
  have hv : validate_vpn_profile Lowercase.simple clean_profile = .ok () := by decide
  exact (accepted_profile_command_free Lowercase.simple hv
    (.inr (write_vpn_profile_ok.2 ⟨hv, rfl⟩))).2 (by decide)

/-- A directive in quotes passes the check. -/
def quoted_profile : Text :=
  "client\nremote vpn.example.com 1194\n\"up\" /bin/malicious\n".toList

theorem quoted_directive_accepted :
    ¬ ∀ (L : Lowercase) (profile file : Text), validate_vpn_profile L profile = .ok () →
      write_vpn_profile L profile = .ok file → CommandFree profile ∧ CommandFree file := by
  intro h
  have hv : validate_vpn_profile Lowercase.simple quoted_profile = .ok () := by decide
  have hfree := (h Lowercase.simple quoted_profile _ hv (write_vpn_profile_ok.2 ⟨hv, rfl⟩)).1
  revert hfree
  decide

end CodaNode.Vpn
