/-
`Config/DeviceConfig.lean` -- the executor factory in the device config.

The config is YAML, but only one of its scalars is wanted, and it is found with a regular
expression and a scanner for comments and quotes. The scanner keeps one flag for each kind of
quote; a quoted value is passed over with its flag set, so that the first `#` that ends the scan
is the one of the comment.
-/
import CodaNode.Regex.Lazy
import CodaNode.Text.Strings

set_option autoImplicit false

namespace CodaNode.Config

open Regex

/-! ## The scanner -/

/-- The `for` loop of `_strip_inline_yaml_comment`, at the index `idx`. -/
def strip_comment_loop (value : Text) (in_single in_double : Bool) (idx : Nat) : Text → Text
  | [] => strip value
  | char :: rest =>
      if char = '\'' && !in_double then
        strip_comment_loop value (!in_single) in_double (idx + 1) rest
      else if char = '"' && !in_single then
        strip_comment_loop value in_single (!in_double) (idx + 1) rest
      else if char = '#' && !in_single && !in_double then rstrip (value.take idx)
      else strip_comment_loop value in_single in_double (idx + 1) rest

/-- `_strip_inline_yaml_comment`. -/
def strip_inline_yaml_comment (value : Text) : Text := strip_comment_loop value false false 0 value

/-- The quotes around the value are taken off. -/
def unquote (value : Text) : Text :=
  match value.head?, value.getLast? with
  | some first, some last =>
      if 2 ≤ value.length ∧ first = last ∧ (first = '\'' ∨ first = '"') then value.tail.dropLast
      else value
  | _, _ => value

/-- `\s*`. -/
def spaces_re : Re Char := .star (.set is_space)

/-- `$`. -/
def end_re : Matcher Char := fun caps text =>
  if text = [] ∨ text = ['\n'] then [(caps, text)] else []

/-- The key. -/
def executor_factory_key : Text := "executor_factory".toList

/-- `(.+?)\s*$`. -/
def value_re : Matcher Char :=
  .seq (.group 1 (.lazy_plus (.set fun c => c ≠ '\n'))) (.seq spaces_re.run end_re)

/-- `_EXECUTOR_FACTORY_RE`. -/
def executor_factory_re : Matcher Char :=
  .seq (Re.lit executor_factory_key).run
    (.seq spaces_re.run (.seq (Re.letter ':').run (.seq spaces_re.run value_re)))

/-- `raw_line.startswith((" ", "\t"))`. -/
def indented (raw_line : Text) : Bool := raw_line.head? = some ' ' || raw_line.head? = some '\t'

/-- The value on the line, if it matches. -/
def line_value (raw_line : Text) : Option Text :=
  (executor_factory_re.match (strip raw_line)).bind fun caps =>
    (caps.lookup 1).map fun value => strip (unquote (strip_inline_yaml_comment value))

/-- The `for` loop over the lines. -/
def scan_lines : List Text → Text
  | [] => []
  | raw_line :: rest =>
      if indented raw_line then scan_lines rest
      else
        match line_value raw_line with
        | none => scan_lines rest
        | some value => value

/-- What `Path(path).read_text()` raises. -/
inductive ReadError where
  | os_error (message : String)
  /-- Anything else, such as a `UnicodeDecodeError`. -/
  | other (message : String)
  deriving DecidableEq, Repr

/-- `_load_executor_factory_from_device_config` of a file, as it is read. -/
def load_executor_factory_from_device_config (read_text : Except ReadError Text) :
    Except ReadError Text :=
  match read_text with
  | .ok text => .ok (scan_lines (splitlines text))
  | .error (.os_error _) => .ok []
  | .error e => .error e

/-! ## What a file says -/

/-- What stands before the first colon of the line, without the whitespace around it. -/
def line_key (raw_line : Text) : Option Text :=
  if ':' ∈ raw_line then some (strip (raw_line.takeWhile (· ≠ ':'))) else none

/-- What stands after it. -/
def after_colon (raw_line : Text) : Text := (raw_line.dropWhile (· ≠ ':')).tail

/-- The forms in which a scalar is given. -/
inductive Scalar (v : Text) : Text → Prop where
  | plain (hne : v ≠ []) (hplain : ∀ c ∈ v, c ≠ '\'' ∧ c ≠ '"' ∧ c ≠ '#') : Scalar v v
  | single_quoted (h : '\'' ∉ v) : Scalar v ('\'' :: v ++ ['\''])
  | double_quoted (h : '"' ∉ v) : Scalar v ('"' :: v ++ ['"'])

/-- What follows a scalar: whitespace, and a comment if there is one. -/
def Trailer (trailer : Text) : Prop :=
  ∃ ws comment, trailer = ws ++ comment ∧ (∀ c ∈ ws, is_space c = true) ∧
    ∀ c, comment.head? = some c → c = '#'

/-- The text after the colon gives the value. -/
def GivesValue (text v : Text) : Prop :=
  ∃ ws scalar trailer, text = ws ++ (scalar ++ trailer) ∧ (∀ c ∈ ws, is_space c = true) ∧
    Scalar v scalar ∧ Trailer trailer

section Scanning

variable {value v w rest : Text} {in_single in_double : Bool} {idx : Nat}

/-! ### The comment -/

/-- The scanner passes over the character with its flags as they are. -/
def Inert (in_single in_double : Bool) (c : Char) : Prop :=
  (c = '\'' → in_double = true) ∧ (c = '"' → in_single = true) ∧
    (c = '#' → in_single = true ∨ in_double = true)

theorem strip_comment_loop_inert (h : ∀ c ∈ w, Inert in_single in_double c) :
    strip_comment_loop value in_single in_double idx (w ++ rest) =
      strip_comment_loop value in_single in_double (idx + w.length) rest := by
  induction w generalizing idx with
  | nil => rfl
  | cons c w ih =>
      obtain ⟨hsingle, hdouble, hhash⟩ := h c List.mem_cons_self
      have hquote : ¬ (c = '\'' && !in_double) = true := by
        simpa using hsingle
      have hquote' : ¬ (c = '"' && !in_single) = true := by
        simpa using hdouble
      have hcomment : ¬ (c = '#' && !in_single && !in_double) = true := by
        simp only [Bool.and_eq_true, decide_eq_true_eq, Bool.not_eq_true']
        rintro ⟨⟨hc, hs⟩, hd⟩
        rcases hhash hc with hflag | hflag
        · rw [hs] at hflag
          cases hflag
        · rw [hd] at hflag
          cases hflag
      rw [List.cons_append, strip_comment_loop, if_neg hquote, if_neg hquote', if_neg hcomment,
        ih fun d hd => h d (List.mem_cons_of_mem _ hd), List.length_cons]
      congr 1
      omega

/-- No quote and no hash. -/
theorem inert_of_plain (h : ∀ c ∈ w, c ≠ '\'' ∧ c ≠ '"' ∧ c ≠ '#') :
    ∀ c ∈ w, Inert in_single in_double c := by
  intro c hc
  obtain ⟨hsingle, hdouble, hhash⟩ := h c hc
  exact ⟨fun h => absurd h hsingle, fun h => absurd h hdouble, fun h => absurd h hhash⟩

/-- The scanner is outside of all quotes again once it has passed a scalar. -/
theorem strip_comment_loop_scalar {scalar : Text} (h : Scalar v scalar) :
    strip_comment_loop value false false 0 (scalar ++ rest) =
      strip_comment_loop value false false scalar.length rest := by
  cases h with
  | plain hne hplain =>
      rw [strip_comment_loop_inert (inert_of_plain hplain), Nat.zero_add]
  | single_quoted h =>
      have hinert : ∀ c ∈ v, Inert true false c := by
        intro c hc
        refine ⟨?_, fun _ => rfl, fun _ => .inl rfl⟩
        rintro rfl
        exact absurd hc h
      have hpass : strip_comment_loop value true false (0 + 1) (v ++ '\'' :: rest) =
          strip_comment_loop value true false (0 + 1 + v.length) ('\'' :: rest) :=
        strip_comment_loop_inert hinert
      rw [List.append_assoc, List.cons_append, strip_comment_loop, if_pos (by decide),
        List.singleton_append, Bool.not_false, hpass, strip_comment_loop, if_pos (by decide)]
      congr 1
      simp
      omega
  | double_quoted h =>
      have hinert : ∀ c ∈ v, Inert false true c := by
        intro c hc
        refine ⟨fun _ => rfl, ?_, fun _ => .inr rfl⟩
        rintro rfl
        exact absurd hc h
      have hpass : strip_comment_loop value false true (0 + 1) (v ++ '"' :: rest) =
          strip_comment_loop value false true (0 + 1 + v.length) ('"' :: rest) :=
        strip_comment_loop_inert hinert
      rw [List.append_assoc, List.cons_append, strip_comment_loop, if_neg (by decide),
        if_pos (by decide), List.singleton_append, Bool.not_false, hpass, strip_comment_loop,
        if_neg (by decide), if_pos (by decide)]
      congr 1
      simp
      omega

theorem not_special_of_space {c : Char} (h : is_space c = true) :
    c ≠ '\'' ∧ c ≠ '"' ∧ c ≠ '#' := by
  refine ⟨?_, ?_, ?_⟩ <;> rintro rfl <;> exact absurd h (by decide)

/-- A scalar begins and ends with a visible character. -/
theorem Scalar.visible {scalar : Text} (h : Scalar v scalar) (hv : strip v = v) :
    (∃ c tail, scalar = c :: tail ∧ is_space c = false) ∧
      ∃ init c, scalar = init ++ [c] ∧ is_space c = false := by
  cases h with
  | plain hne hplain => exact visible_ends hne hv
  | single_quoted h => exact ⟨⟨'\'', v ++ ['\''], rfl, rfl⟩, '\'' :: v, '\'', rfl, rfl⟩
  | double_quoted h => exact ⟨⟨'"', v ++ ['"'], rfl, rfl⟩, '"' :: v, '"', rfl, rfl⟩

/-- A comment is cut off, with the whitespace in front of it. -/
theorem strip_inline_yaml_comment_eq {scalar trailer : Text} (h : Scalar v scalar)
    (hv : strip v = v) (htrailer : Trailer trailer) :
    strip_inline_yaml_comment (scalar ++ trailer) = scalar := by
  obtain ⟨hhead, hlast⟩ := h.visible hv
  obtain ⟨ws, comment, rfl, hws, hcomment⟩ := htrailer
  have hinert : ∀ c ∈ ws, Inert false false c :=
    inert_of_plain fun c hc => not_special_of_space (hws c hc)
  have hstrip : strip (scalar ++ ws) = scalar := strip_append hhead hlast hws
  rw [strip_inline_yaml_comment, strip_comment_loop_scalar h, strip_comment_loop_inert hinert]
  cases comment with
  | nil =>
      rw [strip_comment_loop, List.append_nil]
      exact hstrip
  | cons c comment =>
      have hc : c = '#' := hcomment c rfl
      subst hc
      have htake : (scalar ++ (ws ++ '#' :: comment)).take (scalar.length + ws.length) =
          scalar ++ ws := by
        rw [← List.append_assoc, ← List.length_append, List.take_left]
      have hfront : (scalar ++ ws).dropWhile is_space = scalar ++ ws := by
        obtain ⟨c, tail, rfl, hc⟩ := hhead
        rw [List.cons_append, List.dropWhile_cons_of_neg (by rw [hc]; exact Bool.false_ne_true)]
      rw [strip_comment_loop, if_neg (by decide), if_neg (by decide), if_pos (by decide), htake]
      rwa [strip, hfront] at hstrip

/-- The quotes are taken off. -/
theorem unquote_scalar {scalar : Text} (h : Scalar v scalar) : unquote scalar = v := by
  have hquoted : ∀ q : Char, q = '\'' ∨ q = '"' → unquote (q :: v ++ [q]) = v := by
    intro q hq
    have hlast : (q :: v ++ [q]).getLast? = some q := List.getLast?_concat
    rw [unquote, hlast, List.cons_append, List.head?_cons]
    simp [hq]
  cases h with
  | plain hne hplain =>
      unfold unquote
      split
      · rename_i first last hfirst hlast
        have hmem : first ∈ v := List.mem_of_mem_head? hfirst
        obtain ⟨hsingle, hdouble, -⟩ := hplain first hmem
        rw [if_neg]
        rintro ⟨-, -, h⟩
        exact h.elim hsingle hdouble
      · rfl
  | single_quoted h => exact hquoted '\'' (.inl rfl)
  | double_quoted h => exact hquoted '"' (.inr rfl)

/-- A scalar on its own, once it has been found on its line. -/
theorem value_of_scalar {scalar trailer : Text} (h : Scalar v scalar) (hv : strip v = v)
    (htrailer : Trailer trailer) :
    strip (unquote (strip_inline_yaml_comment (scalar ++ trailer))) = v := by
  rw [strip_inline_yaml_comment_eq h hv htrailer, unquote_scalar h, hv]

/-! ### The line -/

/-- The trailer as the regular expression leaves it, without the whitespace at the end of the
line. -/
theorem Trailer.cut {scalar trailer : Text} (h : Trailer trailer)
    (hlast : ∃ init c, scalar = init ++ [c] ∧ is_space c = false) :
    ∃ cut b, trailer = cut ++ b ∧ Trailer cut ∧ (∀ c ∈ b, is_space c = true) ∧
      ∃ init c, scalar ++ cut = init ++ [c] ∧ is_space c = false := by
  obtain ⟨ws, comment, rfl, hws, hcomment⟩ := h
  by_cases hempty : comment = []
  · subst hempty
    rw [List.append_nil]
    refine ⟨[], ws, rfl, ⟨[], [], rfl, nofun, nofun⟩, hws, ?_⟩
    rwa [List.append_nil]
  · obtain ⟨c, rest, rfl⟩ := List.exists_cons_of_ne_nil hempty
    have hc : c = '#' := hcomment c rfl
    subst hc
    obtain ⟨b, hb, hspaces, hvisible⟩ := exists_rstrip ('#' :: rest)
    -- the hash stays, so that something is left of the comment
    have hne : rstrip ('#' :: rest) ≠ [] := by
      intro hnil
      rw [hnil, List.nil_append] at hb
      exact absurd (hspaces '#' (hb ▸ List.mem_cons_self)) (by decide)
    refine ⟨ws ++ rstrip ('#' :: rest), b, ?_, ⟨ws, _, rfl, hws, ?_⟩, hspaces, ?_⟩
    · rw [List.append_assoc, ← hb]
    · obtain ⟨d, tail, hcons⟩ := List.exists_cons_of_ne_nil hne
      rw [hcons, List.cons_append, List.cons.injEq] at hb
      intro x hx
      rw [hcons, List.head?_cons, Option.some.injEq] at hx
      rw [← hx, ← hb.1]
    · refine ⟨scalar ++ ws ++ (rstrip ('#' :: rest)).dropLast,
        (rstrip ('#' :: rest)).getLast hne, ?_,
        hvisible _ (List.getLast?_eq_some_getLast hne)⟩
      simp [List.dropLast_concat_getLast hne]

/-- The capture reaches up to the last visible character. -/
theorem head?_value_re {w : Text} (hlast : ∃ init c, w = init ++ [c] ∧ is_space c = false)
    (hline : ∀ c ∈ w, c ≠ '\n') {caps : Caps Char} :
    (value_re caps w).head? = some ((1, w) :: caps, []) := by
  have hne : w ≠ [] := by
    obtain ⟨init, c, rfl, -⟩ := hlast
    simp
  have hrun : Re.Run (fun c => decide (c ≠ '\n')) w :=
    ⟨hne, fun c hc => decide_eq_true (hline c hc)⟩
  apply Matcher.head?_of_unique
  · refine Matcher.mem_seq.2 ⟨((1, w) :: caps, []), ?_, ?_⟩
    · refine Matcher.mem_group.2 ⟨(caps, []), ?_, ?_⟩
      · exact Matcher.mem_lazy_plus_set.2 ⟨w, (List.append_nil w).symm, hrun, rfl⟩
      · simp
    · refine Matcher.mem_seq.2 ⟨((1, w) :: caps, []), ?_, ?_⟩
      · exact Re.mem_run.2 ⟨[], rfl, Re.accepts_star_set.2 ⟨nofun, rfl⟩⟩
      · rw [end_re, if_pos (.inl rfl)]
        exact List.mem_singleton.2 rfl
  · intro x hmem
    obtain ⟨y, hy, htail⟩ := Matcher.mem_seq.1 hmem
    obtain ⟨⟨caps', rest⟩, hplus, rfl⟩ := Matcher.mem_group.1 hy
    obtain ⟨u, hw, -, rfl⟩ := Matcher.mem_lazy_plus_set.1 hplus
    obtain ⟨⟨caps', rest'⟩, hspaces, hx⟩ := Matcher.mem_seq.1 htail
    obtain ⟨s, hrest, haccepts⟩ := Re.mem_run.1 hspaces
    obtain ⟨hs, rfl⟩ := Re.accepts_star_set.1 haccepts
    dsimp only at hrest hx
    rw [end_re] at hx
    split at hx
    · rename_i hend
      -- what follows the capture is whitespace, and the last character of `w` is not
      have hall : ∀ c ∈ rest, is_space c = true := by
        intro c hc
        rw [hrest] at hc
        rcases List.mem_append.1 hc with hc | hc
        · exact hs c hc
        · rcases hend with hnil | hbreak
          · rw [hnil] at hc
            cases hc
          · rw [hbreak, List.mem_singleton] at hc
            rw [hc]
            rfl
      have hnil : rest = [] := by
        obtain ⟨init, c, hinit, hc⟩ := hlast
        by_contra hrest
        have hmem : c ∈ rest := by
          have heq : (u ++ rest).getLast? = some c := by
            rw [← hw, hinit, List.getLast?_concat]
          rw [List.getLast?_append_of_ne_nil _ hrest] at heq
          exact List.mem_of_getLast? heq
        rw [hall c hmem] at hc
        cases hc
      obtain ⟨rfl, rfl⟩ := List.append_eq_nil_iff.1 (hrest.symm.trans hnil)
      rw [List.mem_singleton.1 hx, hnil]
      simp
    · cases hx

/-- A key, a colon and a value, with whitespace between them. -/
theorem match_line {b ws w : Text} (hb : ∀ c ∈ b, is_space c = true)
    (hws : ∀ c ∈ ws, is_space c = true) (hhead : ∃ c rest, w = c :: rest ∧ is_space c = false)
    (hlast : ∃ init c, w = init ++ [c] ∧ is_space c = false) (hline : ∀ c ∈ w, c ≠ '\n') :
    executor_factory_re.match (executor_factory_key ++ (b ++ ':' :: (ws ++ w))) =
      some [(1, w)] := by
  have hcolon : ∀ c, (':' :: (ws ++ w)).head? = some c → is_space c = false := by
    intro c hc
    cases hc
    rfl
  have hvalue : ∀ c, w.head? = some c → is_space c = false := by
    intro c hc
    obtain ⟨d, rest, rfl, hd⟩ := hhead
    cases hc
    exact hd
  have hfirst : (executor_factory_re [] (executor_factory_key ++ (b ++ ':' :: (ws ++ w)))).head? =
      some ([(1, w)], []) := by
    apply Matcher.head?_seq Matcher.head?_lit
    apply Matcher.head?_seq (Matcher.head?_star_set hb hcolon)
    apply Matcher.head?_seq Matcher.head?_letter
    apply Matcher.head?_seq (Matcher.head?_star_set hws hvalue)
    exact head?_value_re hlast hline
  rw [Matcher.match, hfirst, Option.map_some]

theorem key_visible : (∃ c rest, executor_factory_key = c :: rest ∧ is_space c = false) ∧
    ∃ init c, executor_factory_key = init ++ [c] ∧ is_space c = false :=
  visible_ends (by decide) (by decide)

/-- A line whose key is the key. -/
theorem line_parts {line : Text} (h : line_key line = some executor_factory_key) :
    ∃ a b, line = a ++ (executor_factory_key ++ (b ++ ':' :: after_colon line)) ∧
      (∀ c ∈ a, is_space c = true) ∧ ∀ c ∈ b, is_space c = true := by
  rw [line_key] at h
  split at h
  · rename_i hmem
    rw [Option.some.injEq] at h
    obtain ⟨a, b, hbefore, ha, hb⟩ := exists_strip (line.takeWhile (· ≠ ':'))
    refine ⟨a, b, ?_, ha, hb⟩
    have hcolon : line.dropWhile (· ≠ ':') = ':' :: after_colon line := by
      rw [after_colon]
      cases hdrop : line.dropWhile (· ≠ ':') with
      | nil =>
          have hall := List.dropWhile_eq_nil_iff.1 hdrop ':' hmem
          exact absurd rfl (of_decide_eq_true hall)
      | cons c rest =>
          have hhead := List.head?_dropWhile_not (fun c : Char => decide (c ≠ ':')) line
          rw [hdrop] at hhead
          have hc : c = ':' := by simpa using hhead
          rw [hc, List.tail_cons]
    calc line = line.takeWhile (· ≠ ':') ++ line.dropWhile (· ≠ ':') :=
          List.takeWhile_append_dropWhile.symm
      _ = (a ++ executor_factory_key ++ b) ++ ':' :: after_colon line := by
          rw [hcolon, hbefore, h]
      _ = _ := by simp
  · cases h

/-- No match without the key in front of a colon. -/
theorem line_key_of_match {raw_line v : Text} (h : line_value raw_line = some v) :
    line_key raw_line = some executor_factory_key := by
  have hmatch : executor_factory_re [] (strip raw_line) ≠ [] := by
    intro hnil
    rw [line_value, Matcher.match, hnil] at h
    cases h
  obtain ⟨x, hx⟩ := List.exists_mem_of_ne_nil _ hmatch
  obtain ⟨⟨caps₁, rest₁⟩, hlit, hx⟩ := Matcher.mem_seq.1 hx
  obtain ⟨⟨caps₂, rest₂⟩, hspaces, hx⟩ := Matcher.mem_seq.1 hx
  obtain ⟨⟨caps₃, rest₃⟩, hcolon, -⟩ := Matcher.mem_seq.1 hx
  obtain ⟨k, hstrip, haccepts⟩ := Re.mem_run.1 hlit
  obtain ⟨rfl, rfl⟩ := Re.accepts_lit.1 haccepts
  obtain ⟨u, hrest, haccepts⟩ := Re.mem_run.1 hspaces
  obtain ⟨hu, rfl⟩ := Re.accepts_star_set.1 haccepts
  obtain ⟨k, hrest', haccepts⟩ := Re.mem_run.1 hcolon
  obtain ⟨c, rfl, hc, -⟩ := haccepts
  have hc : c = ':' := of_decide_eq_true hc
  subst hc
  obtain ⟨a, b, hline, ha, hb⟩ := exists_strip raw_line
  have hraw : raw_line = (a ++ executor_factory_key ++ u) ++ ':' :: (rest₃ ++ b) := by
    dsimp only at hrest hrest'
    rw [hline, hstrip, hrest, hrest']
    simp
  have hbefore : ∀ c ∈ a ++ executor_factory_key ++ u, decide (c ≠ ':') = true := by
    intro c hc
    apply decide_eq_true
    rintro rfl
    rw [List.mem_append, List.mem_append] at hc
    rcases hc with (hc | hc) | hc
    · exact absurd (ha _ hc) (by decide)
    · exact absurd hc (by decide)
    · exact absurd (hu _ hc) (by decide)
  have hmem : ':' ∈ raw_line := by
    rw [hraw]
    exact List.mem_append_right _ List.mem_cons_self
  have htake : raw_line.takeWhile (· ≠ ':') = a ++ executor_factory_key ++ u := by
    rw [hraw, List.takeWhile_append_of_pos hbefore, List.takeWhile_cons_of_neg (by simp),
      List.append_nil]
  obtain ⟨hhead, hlast⟩ := key_visible
  rw [line_key, if_pos hmem, htake, strip_between ha hhead hlast hu]

/-- The value on a line that gives one. -/
theorem line_value_eq {line : Text} (hkey : line_key line = some executor_factory_key)
    (hgives : GivesValue (after_colon line) v) (hv : strip v = v)
    (hline : ∀ c ∈ line, c ≠ '\n') : line_value line = some v := by
  obtain ⟨ws, scalar, trailer, hafter, hws, hscalar, htrailer⟩ := hgives
  obtain ⟨hhead, hlast⟩ := hscalar.visible hv
  obtain ⟨cut, t, rfl, hcut, ht, hcutlast⟩ := htrailer.cut hlast
  have hcuthead : ∃ c rest, scalar ++ cut = c :: rest ∧ is_space c = false := by
    obtain ⟨c, rest, rfl, hc⟩ := hhead
    exact ⟨c, rest ++ cut, rfl, hc⟩
  obtain ⟨a, b, hparts, ha, hb⟩ := line_parts hkey
  -- the line without the whitespace at its ends
  have hraw : line = a ++ (executor_factory_key ++ (b ++ ':' :: (ws ++ (scalar ++ cut)))) ++ t := by
    rw [hparts, hafter]
    simp
  have hstrip : strip line = executor_factory_key ++ (b ++ ':' :: (ws ++ (scalar ++ cut))) := by
    rw [hraw]
    apply strip_between ha _ _ ht
    · obtain ⟨c, rest, hcons, hc⟩ := key_visible.1
      exact ⟨c, _, by rw [hcons]; rfl, hc⟩
    · obtain ⟨init, c, hinit, hc⟩ := hcutlast
      refine ⟨executor_factory_key ++ (b ++ ':' :: (ws ++ init)), c, ?_, hc⟩
      rw [hinit]
      simp
  have hbreak : ∀ c ∈ scalar ++ cut, c ≠ '\n' := by
    intro c hc
    apply hline
    rw [hraw]
    simp only [List.mem_append, List.mem_cons] at hc ⊢
    tauto
  rw [line_value, hstrip, match_line hb hws hcuthead hcutlast hbreak]
  show some (strip (unquote (strip_inline_yaml_comment (scalar ++ cut)))) = some v
  rw [value_of_scalar hscalar hv hcut]

/-! ### The file -/

/-- A line that the loop passes over. -/
theorem scan_lines_skip {line : Text} {lines : List Text}
    (h : indented line = true ∨ line_key line ≠ some executor_factory_key) :
    scan_lines (line :: lines) = scan_lines lines := by
  rw [scan_lines]
  by_cases hindent : indented line = true
  · rw [if_pos hindent]
  · rw [if_neg hindent]
    have hkey := h.resolve_left hindent
    have hnone : line_value line = none := by
      rw [Option.eq_none_iff_forall_not_mem]
      intro v hv
      exact hkey (line_key_of_match hv)
    rw [hnone]

theorem scan_lines_append {before lines : List Text}
    (h : ∀ l ∈ before, indented l = true ∨ line_key l ≠ some executor_factory_key) :
    scan_lines (before ++ lines) = scan_lines lines := by
  induction before with
  | nil => rfl
  | cons line before ih =>
      rw [List.forall_mem_cons] at h
      rw [List.cons_append, scan_lines_skip h.1, ih h.2]

/-- No line has a line break in it. -/
theorem mem_splitlines_unbroken {text line : Text} (h : line ∈ splitlines text) :
    ∀ c ∈ line, is_linebreak c = false := by
  cases hs : splitlines text with
  | nil =>
      rw [hs] at h
      cases h
  | cons first lines =>
      rw [hs] at h
      rcases List.mem_cons.1 h with rfl | hmem
      · obtain ⟨post, -, hfree, -⟩ := splitlines_head hs
        exact hfree
      · have htail : line ∈ (splitlines text).tail := by rwa [hs]
        obtain ⟨pre, c, post, -, -, hfree, -⟩ := mem_splitlines_tail htail
        exact hfree

/-- The factory path is recovered from the first line at the top level that has the key,
however the value is quoted and whatever the comment behind it. -/
theorem executor_factory_recovered {text line v : Text} {before after : List Text}
    (hlines : splitlines text = before ++ line :: after)
    (hbefore : ∀ l ∈ before, indented l = true ∨ line_key l ≠ some executor_factory_key)
    (hindent : indented line = false) (hkey : line_key line = some executor_factory_key)
    (hgives : GivesValue (after_colon line) v) (hv : strip v = v) :
    load_executor_factory_from_device_config (.ok text) = .ok v := by
  have hmem : line ∈ splitlines text := by
    rw [hlines]
    exact List.mem_append_right _ List.mem_cons_self
  have hnewline : ∀ c ∈ line, c ≠ '\n' := by
    intro c hc hbreak
    have hfree := mem_splitlines_unbroken hmem c hc
    rw [hbreak] at hfree
    cases hfree
  have hvalue : line_value line = some v := line_value_eq hkey hgives hv hnewline
  have hnot : ¬ indented line = true := by
    rw [hindent]
    exact Bool.false_ne_true
  rw [load_executor_factory_from_device_config, hlines, scan_lines_append hbefore, scan_lines,
    if_neg hnot, hvalue]

/-- A comment with quotes of both kinds behind a value with a hash in it. -/
theorem executor_factory_recovered_quoted :
    load_executor_factory_from_device_config
      (.ok "qpu: a\n  executor_factory: no\nexecutor_factory : \"it's#1\"  # don't \"\n".toList) =
        .ok "it's#1".toList := by
  have hlines : splitlines
      "qpu: a\n  executor_factory: no\nexecutor_factory : \"it's#1\"  # don't \"\n".toList =
        ["qpu: a".toList, "  executor_factory: no".toList] ++
          "executor_factory : \"it's#1\"  # don't \"".toList :: [] := by decide
  refine executor_factory_recovered hlines (by decide) (by decide) (by decide) ?_ (by decide)
  refine ⟨[' '], _, "  # don't \"".toList, ?_, List.all_eq_true.1 rfl, .double_quoted ?_, ?_⟩
  · decide
  · decide
  · refine ⟨[' ', ' '], "# don't \"".toList, rfl, List.all_eq_true.1 rfl, fun c hc => ?_⟩
    cases hc
    rfl

end Scanning

end CodaNode.Config
