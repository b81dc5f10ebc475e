/-
`Text/Strings.lean` -- the string methods of Python that the node relies on.

A text is a list of code points. Whitespace is what `str.isspace` accepts and a line ends
where `str.splitlines` says; both sets go beyond ASCII, so a line of Python is not a line of
a C program.
-/
import Mathlib.Data.List.DropRight
import Mathlib.Data.List.Infix

set_option autoImplicit false

namespace CodaNode

abbrev Text := List Char

/-- `c.isspace()`. -/
def is_space (c : Char) : Bool :=
  let n := c.toNat
  (9 ≤ n && n ≤ 13) || (28 ≤ n && n ≤ 32) || n == 0x85 || n == 0xA0 || n == 0x1680 ||
    (0x2000 ≤ n && n ≤ 0x200A) || n == 0x2028 || n == 0x2029 || n == 0x202F || n == 0x205F ||
    n == 0x3000

/-- The characters `str.splitlines` breaks at. -/
def is_linebreak (c : Char) : Bool :=
  let n := c.toNat
  (10 ≤ n && n ≤ 13) || (28 ≤ n && n ≤ 30) || n == 0x85 || n == 0x2028 || n == 0x2029

/-- `text.splitlines()`. -/
def splitlines : Text → List Text
  | [] => []
  | '\r' :: '\n' :: rest => [] :: splitlines rest
  | c :: rest =>
      if is_linebreak c then [] :: splitlines rest
      else match splitlines rest with
        | [] => [[c]]
        | line :: lines => (c :: line) :: lines

/-- `text.rstrip()`. -/
def rstrip (text : Text) : Text := text.rdropWhile is_space

/-- `text.strip()`. -/
def strip (text : Text) : Text := rstrip (text.dropWhile is_space)

/-- `text.split()`: the words between runs of whitespace. -/
def split (text : Text) : List Text := (text.splitOnP is_space).filter (· ≠ [])

/-- `needle in text`. -/
def contains (needle text : Text) : Bool := decide (needle <:+: text)

/-- `text.lower()`, of which only the effect on ASCII is known. -/
structure Lowercase where
  lower : Text → Text
  ascii : ∀ text, (∀ c ∈ text, c.toNat < 128) → lower text = text.map Char.toLower

theorem Lowercase.of_ascii (L : Lowercase) {text : Text}
    (h : text.all (fun c => c.toNat < 128) = true) : L.lower text = text.map Char.toLower :=
  L.ascii text fun c hc => of_decide_eq_true (List.all_eq_true.1 h c hc)

/-- The case mapping of a text without capitals beyond ASCII. -/
def Lowercase.simple : Lowercase := ⟨fun text => text.map Char.toLower, fun _ _ => rfl⟩

/-! ## Line breaks -/

theorem is_space_of_is_linebreak {c : Char} (h : is_linebreak c = true) : is_space c = true := by
  simp only [is_linebreak, is_space, Bool.or_eq_true, Bool.and_eq_true, decide_eq_true_eq,
    beq_iff_eq] at h ⊢
  omega

@[simp] theorem splitlines_nil : splitlines [] = [] := rfl

theorem splitlines_crlf (rest : Text) :
    splitlines ('\r' :: '\n' :: rest) = [] :: splitlines rest := by
  rw [splitlines]

theorem splitlines_cons {c : Char} {rest : Text}
    (h : ∀ rest', ¬ (c = '\r' ∧ rest = '\n' :: rest')) :
    splitlines (c :: rest) = if is_linebreak c then [] :: splitlines rest
      else match splitlines rest with
        | [] => [[c]]
        | line :: lines => (c :: line) :: lines := by
  rw [splitlines]
  intro rest' hc hrest
  exact h rest' ⟨hc, hrest⟩

theorem splitlines_break {c : Char} {rest : Text}
    (h : ∀ rest', ¬ (c = '\r' ∧ rest = '\n' :: rest')) (hc : is_linebreak c = true) :
    splitlines (c :: rest) = [] :: splitlines rest := by
  rw [splitlines_cons h, if_pos hc]

theorem splitlines_char {c : Char} {rest : Text} (hc : is_linebreak c = false) :
    splitlines (c :: rest) = match splitlines rest with
      | [] => [[c]]
      | line :: lines => (c :: line) :: lines := by
  rw [splitlines_cons, if_neg (by rw [hc]; exact Bool.false_ne_true)]
  rintro rest' ⟨rfl, -⟩
  cases hc

/-- Induction over a text, with the two characters of a Windows line break in one step. -/
@[elab_as_elim]
theorem line_induction {motive : Text → Prop} (text : Text) (nil : motive [])
    (crlf : ∀ rest, motive rest → motive ('\r' :: '\n' :: rest))
    (cons : ∀ c rest, (∀ rest', ¬ (c = '\r' ∧ rest = '\n' :: rest')) → motive rest →
      motive (c :: rest)) : motive text := by
  induction text using splitlines.induct with
  | case1 => exact nil
  | case2 rest ih => exact crlf rest ih
  | case3 c rest hne _ ih => exact cons c rest (fun rest' h => hne rest' h.1 h.2) ih
  | case4 c rest hne _ _ ih => exact cons c rest (fun rest' h => hne rest' h.1 h.2) ih
  | case5 c rest hne _ _ _ _ ih => exact cons c rest (fun rest' h => hne rest' h.1 h.2) ih

theorem splitlines_eq_nil {text : Text} (h : splitlines text = []) : text = [] := by
  induction text using line_induction with
  | nil => rfl
  | crlf rest ih =>
      rw [splitlines_crlf] at h
      cases h
  | cons c rest hne ih =>
      rw [splitlines_cons hne] at h
      by_cases hc : is_linebreak c = true
      · rw [if_pos hc] at h
        cases h
      · rw [if_neg hc] at h
        cases hr : splitlines rest <;> rw [hr] at h <;> cases h

/-- The text starts with a line break, if it goes on at all. -/
def Breaks (post : Text) : Prop := ∀ c, post.head? = some c → is_linebreak c = true

/-- The first line begins the text. -/
theorem splitlines_head {text line : Text} {lines : List Text}
    (h : splitlines text = line :: lines) :
    ∃ post, text = line ++ post ∧ (∀ c ∈ line, is_linebreak c = false) ∧ Breaks post := by
  have hbreak : ∀ {c rest}, is_linebreak c = true →
      ∃ post, c :: rest = [] ++ post ∧ (∀ x ∈ ([] : Text), is_linebreak x = false) ∧
        Breaks post := by
    intro c rest hc
    refine ⟨c :: rest, rfl, (fun x hx => by cases hx), fun x hx => ?_⟩
    cases hx
    exact hc
  induction text using line_induction generalizing line lines with
  | nil => cases h
  | crlf rest ih =>
      rw [splitlines_crlf] at h
      cases h
      exact hbreak rfl
  | cons c rest hne ih =>
      rw [splitlines_cons hne] at h
      by_cases hc : is_linebreak c = true
      · rw [if_pos hc] at h
        cases h
        exact hbreak hc
      · rw [if_neg hc] at h
        rw [Bool.not_eq_true] at hc
        cases hr : splitlines rest with
        | nil =>
            rw [hr] at h
            cases h
            refine ⟨rest, rfl, fun x hx => by rw [List.mem_singleton.1 hx, hc], fun x hx => ?_⟩
            rw [splitlines_eq_nil hr] at hx
            cases hx
        | cons line' lines' =>
            rw [hr] at h
            cases h
            obtain ⟨post, rfl, hfree, hpost⟩ := ih hr
            refine ⟨post, rfl, fun x hx => ?_, hpost⟩
            rcases List.mem_cons.1 hx with rfl | hx
            · exact hc
            · exact hfree x hx

/-- A text without line breaks stays together. -/
theorem splitlines_append {w : Text} (post : Text) (hw : ∀ c ∈ w, is_linebreak c = false)
    (hne : w ≠ []) :
    ∃ b lines, splitlines (w ++ post) = (w ++ b) :: lines ∧ b <+: post := by
  induction w with
  | nil => exact absurd rfl hne
  | cons c w ih =>
      have hc := hw c List.mem_cons_self
      rw [List.cons_append, splitlines_char hc]
      by_cases hempty : w = []
      · subst hempty
        rw [List.nil_append]
        cases hp : splitlines post with
        | nil => exact ⟨[], [], rfl, List.nil_prefix⟩
        | cons line lines =>
            obtain ⟨rest, rfl, -⟩ := splitlines_head hp
            exact ⟨line, lines, rfl, List.prefix_append _ _⟩
      · obtain ⟨b, lines, hlines, hb⟩ := ih (fun x hx => hw x (List.mem_cons_of_mem _ hx)) hempty
        rw [hlines]
        exact ⟨b, lines, rfl, hb⟩

/-- The line that a text without line breaks stands on. -/
theorem splitlines_around {w : Text} (hw : ∀ c ∈ w, is_linebreak c = false) (hne : w ≠ [])
    (pre post : Text) : ∃ a b, a ++ w ++ b ∈ splitlines (pre ++ w ++ post) ∧ a <:+ pre ∧
      (∀ c ∈ a, is_linebreak c = false) ∧ b <+: post := by
  -- either no line break stands before `w` and its line is the first, or it is a later one
  suffices h : (∃ b lines, splitlines (pre ++ w ++ post) = (pre ++ w ++ b) :: lines ∧
      b <+: post ∧ ∀ c ∈ pre, is_linebreak c = false) ∨
      ∃ a b, a ++ w ++ b ∈ (splitlines (pre ++ w ++ post)).tail ∧ a <:+ pre ∧
        (∀ c ∈ a, is_linebreak c = false) ∧ b <+: post by
    rcases h with ⟨b, lines, hlines, hb, hpre⟩ | ⟨a, b, hmem, h⟩
    · exact ⟨pre, b, hlines ▸ List.mem_cons_self, List.suffix_refl _, hpre, hb⟩
    · exact ⟨a, b, List.mem_of_mem_tail hmem, h⟩
  induction pre with
  | nil =>
      obtain ⟨b, lines, hlines, hb⟩ := splitlines_append post hw hne
      exact .inl ⟨b, lines, hlines, hb, fun c hc => by cases hc⟩
  | cons c pre ih =>
      have hnext : ∀ {line}, line ∈ splitlines (pre ++ w ++ post) →
          is_linebreak c = true → line ≠ [] → line ∈ (splitlines (c :: (pre ++ w ++ post))).tail := by
        intro line hline hc hl
        by_cases hcrlf : ∃ rest', c = '\r' ∧ pre ++ w ++ post = '\n' :: rest'
        · -- the two characters are one line break
          obtain ⟨rest', rfl, hrest⟩ := hcrlf
          rw [hrest] at hline ⊢
          rw [splitlines_break (fun _ h => by cases h.1) rfl] at hline
          rw [splitlines_crlf]
          exact (List.mem_cons.1 hline).resolve_left hl
        · rw [splitlines_break (fun rest' hr => hcrlf ⟨rest', hr⟩) hc]
          exact hline
      have hline : ∀ {a b : Text}, a ++ w ++ b ≠ [] := by
        intro a b hnil
        exact hne (List.append_eq_nil_iff.1 (List.append_eq_nil_iff.1 hnil).1).2
      rw [List.cons_append, List.cons_append]
      by_cases hc : is_linebreak c = true
      · rcases ih with ⟨b, lines, hlines, hb, hpre⟩ | ⟨a, b, hmem, ha, hfree, hb⟩
        · refine .inr ⟨pre, b, hnext (hlines ▸ List.mem_cons_self) hc hline, ?_, hpre, hb⟩
          exact List.suffix_cons _ _
        · exact .inr ⟨a, b, hnext (List.mem_of_mem_tail hmem) hc hline,
            ha.trans (List.suffix_cons _ _), hfree, hb⟩
      · rw [Bool.not_eq_true] at hc
        rw [splitlines_char hc]
        rcases ih with ⟨b, lines, hlines, hb, hpre⟩ | ⟨a, b, hmem, ha, hfree, hb⟩
        · refine .inl ⟨b, lines, by rw [hlines]; rfl, hb, fun x hx => ?_⟩
          rcases List.mem_cons.1 hx with rfl | hx
          · exact hc
          · exact hpre x hx
        · refine .inr ⟨a, b, ?_, ha.trans (List.suffix_cons _ _), hfree, hb⟩
          cases hr : splitlines (pre ++ w ++ post) with
          | nil =>
              rw [hr] at hmem
              cases hmem
          | cons line lines =>
              rw [hr] at hmem
              exact hmem

/-- A later line follows a line break. -/
theorem mem_splitlines_tail {text line : Text} (h : line ∈ (splitlines text).tail) :
    ∃ pre c post, text = pre ++ c :: (line ++ post) ∧ is_linebreak c = true ∧
      (∀ c ∈ line, is_linebreak c = false) ∧ Breaks post := by
  have hnext : ∀ {rest c}, (line ∈ (splitlines rest).tail →
      ∃ pre c post, rest = pre ++ c :: (line ++ post) ∧ is_linebreak c = true ∧
        (∀ c ∈ line, is_linebreak c = false) ∧ Breaks post) →
      is_linebreak c = true → line ∈ splitlines rest →
      ∃ pre x post, c :: rest = pre ++ x :: (line ++ post) ∧ is_linebreak x = true ∧
        (∀ c ∈ line, is_linebreak c = false) ∧ Breaks post := by
    intro rest c ih hc hmem
    cases hr : splitlines rest with
    | nil =>
        rw [hr] at hmem
        cases hmem
    | cons line' lines =>
        rw [hr] at hmem ih
        rcases List.mem_cons.1 hmem with rfl | hmem
        · obtain ⟨post, rfl, hfree, hpost⟩ := splitlines_head hr
          exact ⟨[], c, post, rfl, hc, hfree, hpost⟩
        · obtain ⟨pre, x, post, rfl, hx, hline⟩ := ih hmem
          exact ⟨c :: pre, x, post, rfl, hx, hline⟩
  induction text using line_induction with
  | nil => cases h
  | crlf rest ih =>
      rw [splitlines_crlf] at h
      obtain ⟨pre, x, post, htext, hline⟩ := hnext (c := '\n') ih rfl h
      exact ⟨'\r' :: pre, x, post, by rw [htext]; rfl, hline⟩
  | cons c rest hne ih =>
      rw [splitlines_cons hne] at h
      by_cases hc : is_linebreak c = true
      · rw [if_pos hc] at h
        exact hnext ih hc h
      · rw [if_neg hc] at h
        cases hr : splitlines rest with
        | nil =>
            rw [hr] at h
            cases h
        | cons line' lines =>
            rw [hr] at h ih
            obtain ⟨pre, x, post, rfl, hx, hline⟩ := ih h
            exact ⟨c :: pre, x, post, rfl, hx, hline⟩

/-- The text ends with a line break, if there is anything in it. -/
def Broken (pre : Text) : Prop := ∀ c, pre.getLast? = some c → is_linebreak c = true

/-- Where a line stands in the text. -/
theorem mem_splitlines {text line : Text} (h : line ∈ splitlines text) :
    ∃ pre post, text = pre ++ line ++ post ∧ Broken pre ∧ Breaks post := by
  cases hs : splitlines text with
  | nil =>
      rw [hs] at h
      cases h
  | cons first lines =>
      rw [hs] at h
      rcases List.mem_cons.1 h with rfl | hmem
      · obtain ⟨post, rfl, -, hpost⟩ := splitlines_head hs
        exact ⟨[], post, rfl, (fun c hc => by cases hc), hpost⟩
      · have htail : line ∈ (splitlines text).tail := by rwa [hs]
        obtain ⟨pre, c, post, rfl, hc, -, hpost⟩ := mem_splitlines_tail htail
        refine ⟨pre ++ [c], post, by simp, fun x hx => ?_, hpost⟩
        rw [List.getLast?_concat] at hx
        cases hx
        exact hc

/-- Only whitespace since the last line break. -/
def Indented (pre : Text) : Prop :=
  ∀ a, a <:+ pre → (∀ c ∈ a, is_linebreak c = false) → ∀ c ∈ a, is_space c = true

theorem Broken.indented {pre ws : Text} (h : Broken pre) (hws : ∀ c ∈ ws, is_space c = true) :
    Indented (pre ++ ws) := by
  intro a ha hfree c hc
  rcases List.suffix_or_suffix_of_suffix ha (List.suffix_append pre ws) with hin | ⟨a', rfl⟩
  · exact hws c (hin.subset hc)
  · -- the line break before `ws` would be part of `a`
    obtain ⟨b, hb⟩ := ha
    have hpre : b ++ a' = pre := List.append_cancel_right (by rw [List.append_assoc, hb])
    by_cases hempty : a' = []
    · subst hempty
      exact hws c hc
    · have hlast := List.getLast?_eq_some_getLast hempty
      have hbreak := h (a'.getLast hempty) (by rw [← hpre, List.getLast?_append, hlast]; rfl)
      rw [hfree _ (List.mem_append_left _ (List.getLast_mem hempty))] at hbreak
      cases hbreak

/-- Where a text stands among those that have been joined. -/
theorem mem_intercalate {x : Char} {line : Text} {lines : List Text} (h : line ∈ lines) :
    ∃ pre post, [x].intercalate lines = pre ++ line ++ post ∧
      (∀ c, pre.getLast? = some c → c = x) ∧ ∀ c, post.head? = some c → c = x := by
  induction lines with
  | nil => cases h
  | cons first lines ih =>
      have hnone : ∀ c, ([] : Text).getLast? = some c → c = x := fun c hc => by cases hc
      by_cases hempty : lines = []
      · subst hempty
        rw [List.mem_singleton.1 h]
        exact ⟨[], [], by simp, hnone, fun c hc => by cases hc⟩
      · rw [List.intercalate_cons_of_ne_nil hempty]
        rcases List.mem_cons.1 h with rfl | h
        · exact ⟨[], x :: [x].intercalate lines, by simp, hnone, fun c hc => by cases hc; rfl⟩
        · obtain ⟨pre, post, heq, hpre, hpost⟩ := ih h
          refine ⟨first ++ [x] ++ pre, post, by rw [heq]; simp, fun c hc => ?_, hpost⟩
          rw [List.getLast?_append] at hc
          cases hl : pre.getLast? with
          | none =>
              rw [hl, List.getLast?_concat] at hc
              cases hc
              rfl
          | some y =>
              rw [hl] at hc
              cases hc
              exact hpre _ hl

/-! ## Words -/

/-- A word has no whitespace in it. -/
def IsWord (w : Text) : Prop := w ≠ [] ∧ ∀ c ∈ w, is_space c = false

/-- A word may end before this text. -/
def Ends (post : Text) : Prop := ∀ c, post.head? = some c → is_space c = true

theorem Ends.of_initial {b post : Text} (h : Ends post) (hb : b <+: post) : Ends b := by
  intro c hc
  apply h
  obtain ⟨rest, rfl⟩ := hb
  rw [List.head?_append, hc]
  rfl

theorem Ends.append {b post : Text} (hb : Ends b) (hpost : Ends post) : Ends (b ++ post) := by
  intro c hc
  rw [List.head?_append] at hc
  cases hh : b.head? with
  | none =>
      rw [hh] at hc
      exact hpost c hc
  | some x =>
      rw [hh] at hc
      cases hc
      exact hb c hh

theorem Breaks.ends {post : Text} (h : Breaks post) : Ends post :=
  fun c hc => is_space_of_is_linebreak (h c hc)

theorem dropWhile_spaces {a rest : Text} (ha : ∀ c ∈ a, is_space c = true)
    (hrest : ∀ c, rest.head? = some c → is_space c = false) :
    (a ++ rest).dropWhile is_space = rest := by
  rw [List.dropWhile_append_of_pos ha]
  cases rest with
  | nil => rfl
  | cons c rest =>
      have hc : ¬ is_space c = true := by rw [hrest c rfl]; exact Bool.false_ne_true
      rw [List.dropWhile_cons_of_neg hc]

theorem IsWord.head {w rest : Text} (hw : IsWord w) :
    ∀ c, (w ++ rest).head? = some c → is_space c = false := by
  obtain ⟨c, w', rfl⟩ := List.exists_cons_of_ne_nil hw.1
  intro x hx
  cases hx
  exact hw.2 _ List.mem_cons_self

/-- The word that a text begins with. -/
theorem IsWord.takeWhile {w post : Text} (hw : IsWord w) (hpost : Ends post) :
    (w ++ post).takeWhile (fun c => !is_space c) = w := by
  rw [List.takeWhile_append_of_pos (fun c hc => by rw [hw.2 c hc]; rfl)]
  cases post with
  | nil => rw [List.takeWhile_nil, List.append_nil]
  | cons c post =>
      rw [List.takeWhile_cons, hpost c rfl]
      exact List.append_nil w

/-- Stripping from the right stops at a word. -/
theorem IsWord.rstrip_append {w b : Text} (hw : IsWord w) :
    ∃ b', rstrip (w ++ b) = w ++ b' ∧ b' <+: b := by
  refine ⟨rstrip b, ?_, List.rdropWhile_prefix is_space b⟩
  have hlast : w.reverse.dropWhile is_space = w.reverse := by
    cases hr : w.reverse with
    | nil => rfl
    | cons c rest =>
        have hc : is_space c = false := hw.2 c (List.mem_reverse.1 (hr ▸ List.mem_cons_self))
        rw [List.dropWhile_cons_of_neg (by rw [hc]; exact Bool.false_ne_true)]
  rw [rstrip, rstrip, List.rdropWhile, List.rdropWhile, List.reverse_append,
    List.dropWhile_append, hlast]
  by_cases hempty : b.reverse.dropWhile is_space = []
  · rw [hempty]
    simp
  · rw [if_neg (by simpa using hempty), List.reverse_append, List.reverse_reverse]

/-- The first word of a line, however the line is indented. -/
theorem split_strip {a w b : Text} (ha : ∀ c ∈ a, is_space c = true) (hw : IsWord w)
    (hb : Ends b) : (split (strip (a ++ w ++ b))).head? = some w := by
  obtain ⟨b', hb', hpre⟩ := hw.rstrip_append (b := b)
  rw [strip, List.append_assoc, dropWhile_spaces ha hw.head, hb', split]
  have hends := hb.of_initial hpre
  cases b' with
  | nil =>
      rw [List.append_nil, List.splitOnP_eq_singleton hw.2]
      rw [List.filter_cons_of_pos (by simpa using hw.1)]
      rfl
  | cons c b' =>
      rw [List.splitOnP_append_cons_of_forall_mem hw.2 c (hends c rfl)]
      rw [List.filter_cons_of_pos (by simpa using hw.1)]
      rfl

/-- A line that is not blank has a first word. -/
theorem exists_first_word {line : Text} (h : strip line ≠ []) :
    ∃ a w b, line = a ++ w ++ b ∧ (∀ c ∈ a, is_space c = true) ∧ IsWord w ∧ Ends b := by
  have hrest : line.dropWhile is_space ≠ [] := by
    intro hnil
    rw [strip, hnil] at h
    exact h rfl
  obtain ⟨c, rest, hcons⟩ := List.exists_cons_of_ne_nil hrest
  have hc : is_space c = false := by
    have hhead := List.head?_dropWhile_not is_space line
    rw [hcons] at hhead
    simpa using hhead
  refine ⟨line.takeWhile is_space, (c :: rest).takeWhile fun x => !is_space x,
    (c :: rest).dropWhile fun x => !is_space x, ?_, ?_, ⟨?_, ?_⟩, ?_⟩
  · rw [List.append_assoc, List.takeWhile_append_dropWhile, ← hcons,
      List.takeWhile_append_dropWhile]
  · intro x hx
    exact List.mem_takeWhile_imp hx
  · rw [List.takeWhile_cons_of_pos (by rw [hc]; rfl)]
    exact List.cons_ne_nil _ _
  · intro x hx
    simpa using List.mem_takeWhile_imp hx
  · intro x hx
    have hhead := List.head?_dropWhile_not (fun x => !is_space x) (c :: rest)
    rw [hx] at hhead
    simpa using hhead

/-- A text with a visible character is not blank. -/
theorem strip_ne_nil {text : Text} {c : Char} (hmem : c ∈ text) (hc : is_space c = false) :
    strip text ≠ [] := by
  intro h
  rw [strip, rstrip, List.rdropWhile_eq_nil_iff] at h
  rw [← List.takeWhile_append_dropWhile (p := is_space) (l := text)] at hmem
  have hspace : is_space c = true := by
    rcases List.mem_append.1 hmem with hin | hin
    · exact List.mem_takeWhile_imp hin
    · exact h c hin
  rw [hc] at hspace
  cases hspace

/-! ## Joined lines -/

/-- A line without line breaks and without whitespace at its ends. -/
structure TidyLine (line : Text) : Prop where
  unbroken : ∀ c ∈ line, is_linebreak c = false
  head : ∃ c rest, line = c :: rest ∧ is_space c = false
  last : ∃ init c, line = init ++ [c] ∧ is_space c = false

/-- Stripping takes off what follows the last visible character. -/
theorem strip_append {text ws : Text} (hhead : ∃ c rest, text = c :: rest ∧ is_space c = false)
    (hlast : ∃ init c, text = init ++ [c] ∧ is_space c = false)
    (hws : ∀ c ∈ ws, is_space c = true) : strip (text ++ ws) = text := by
  obtain ⟨c, rest, htext, hc⟩ := hhead
  obtain ⟨init, d, htext', hd⟩ := hlast
  have hfront : (text ++ ws).dropWhile is_space = text ++ ws := by
    rw [htext, List.cons_append, List.dropWhile_cons_of_neg (by rw [hc]; exact Bool.false_ne_true)]
  have hback : (ws.reverse ++ (d :: init.reverse)).dropWhile is_space = d :: init.reverse :=
    dropWhile_spaces (fun c hc => hws c (List.mem_reverse.1 hc)) fun x hx => by
      cases hx
      exact hd
  rw [strip, hfront, rstrip, List.rdropWhile, List.reverse_append, htext', List.reverse_append,
    List.reverse_singleton, List.singleton_append, hback, List.reverse_cons, List.reverse_reverse]

/-- Stripping a text of the whitespace on both sides. -/
theorem strip_between {a text b : Text} (ha : ∀ c ∈ a, is_space c = true)
    (hhead : ∃ c rest, text = c :: rest ∧ is_space c = false)
    (hlast : ∃ init c, text = init ++ [c] ∧ is_space c = false)
    (hb : ∀ c ∈ b, is_space c = true) : strip (a ++ text ++ b) = text := by
  have hnext : ∀ c, (text ++ b).head? = some c → is_space c = false := by
    intro c hc
    obtain ⟨d, rest, rfl, hd⟩ := hhead
    cases hc
    exact hd
  calc strip (a ++ text ++ b) = rstrip (text ++ b) := by
        rw [strip, List.append_assoc, dropWhile_spaces ha hnext]
    _ = strip (text ++ b) := by
        rw [strip]
        exact congrArg rstrip (dropWhile_spaces (a := []) nofun hnext).symm
    _ = text := strip_append hhead hlast hb

/-- What is stripped on the right is whitespace. -/
theorem exists_rstrip (text : Text) : ∃ b, text = rstrip text ++ b ∧
    (∀ c ∈ b, is_space c = true) ∧
    ∀ c, (rstrip text).getLast? = some c → is_space c = false := by
  refine ⟨(text.reverse.takeWhile is_space).reverse, ?_, ?_, ?_⟩
  · rw [rstrip, List.rdropWhile, ← List.reverse_append, List.takeWhile_append_dropWhile,
      List.reverse_reverse]
  · intro c hc
    exact List.mem_takeWhile_imp (List.mem_reverse.1 hc)
  · intro c hc
    have hhead := List.head?_dropWhile_not is_space text.reverse
    rw [rstrip, List.rdropWhile, List.getLast?_reverse] at hc
    rw [hc] at hhead
    simpa using hhead

/-- What is stripped is whitespace. -/
theorem exists_strip (text : Text) : ∃ a b, text = a ++ strip text ++ b ∧
    (∀ c ∈ a, is_space c = true) ∧ ∀ c ∈ b, is_space c = true := by
  obtain ⟨b, hb, hspaces, -⟩ := exists_rstrip (text.dropWhile is_space)
  refine ⟨text.takeWhile is_space, b, ?_, fun c hc => List.mem_takeWhile_imp hc, hspaces⟩
  rw [strip, List.append_assoc, ← hb, List.takeWhile_append_dropWhile]

/-- A text that stripping leaves as it is begins and ends with a visible character. -/
theorem visible_ends {text : Text} (hne : text ≠ []) (h : strip text = text) :
    (∃ c rest, text = c :: rest ∧ is_space c = false) ∧
      ∃ init c, text = init ++ [c] ∧ is_space c = false := by
  have hfront : text.dropWhile is_space = text := by
    -- the text that is left is no longer than what is dropped from the front leaves
    refine (List.dropWhile_suffix is_space).eq_of_length_le ?_
    calc text.length = (rstrip (text.dropWhile is_space)).length := by rw [← strip, h]
      _ ≤ (text.dropWhile is_space).length := (List.rdropWhile_prefix _ _).length_le
  have hback : rstrip text = text := by rwa [strip, hfront] at h
  constructor
  · obtain ⟨c, rest, rfl⟩ := List.exists_cons_of_ne_nil hne
    have hhead := List.head?_dropWhile_not is_space (c :: rest)
    rw [hfront] at hhead
    exact ⟨c, rest, rfl, by simpa using hhead⟩
  · obtain ⟨b, -, -, hvisible⟩ := exists_rstrip text
    rw [hback] at hvisible
    exact ⟨text.dropLast, text.getLast hne, (List.dropLast_concat_getLast hne).symm,
      hvisible _ (List.getLast?_eq_some_getLast hne)⟩

theorem TidyLine.strip_eq {line : Text} (h : TidyLine line) : strip line = line := by
  have hnil : ∀ c ∈ ([] : Text), is_space c = true := nofun
  have hstrip := strip_append h.head h.last hnil
  rwa [List.append_nil] at hstrip

theorem intercalate_cons_cons (sep a b : Text) (rest : List Text) :
    sep.intercalate (a :: b :: rest) = a ++ (sep ++ sep.intercalate (b :: rest)) := by
  simp [List.intercalate]

theorem mem_of_mem_intercalate {sep : Text} {texts : List Text} {c : Char}
    (h : c ∈ sep.intercalate texts) : c ∈ sep ∨ ∃ text ∈ texts, c ∈ text := by
  induction texts with
  | nil => cases h
  | cons a rest ih =>
      cases rest with
      | nil =>
          rw [show sep.intercalate [a] = a by simp [List.intercalate]] at h
          exact .inr ⟨a, List.mem_cons_self, h⟩
      | cons b rest =>
          rw [intercalate_cons_cons, List.mem_append, List.mem_append] at h
          rcases h with h | h | h
          · exact .inr ⟨a, List.mem_cons_self, h⟩
          · exact .inl h
          · rcases ih h with h | ⟨text, htext, h⟩
            · exact .inl h
            · exact .inr ⟨text, List.mem_cons_of_mem a htext, h⟩

theorem splitlines_line {line : Text} (rest : Text) (h : ∀ c ∈ line, is_linebreak c = false) :
    splitlines (line ++ '\n' :: rest) = line :: splitlines rest := by
  induction line with
  | nil => exact splitlines_break (fun _ h => by cases h.1) rfl
  | cons c line ih =>
      rw [List.forall_mem_cons] at h
      rw [List.cons_append, splitlines_char h.1, ih h.2]

theorem splitlines_last {line : Text} (hne : line ≠ []) (h : ∀ c ∈ line, is_linebreak c = false) :
    splitlines line = [line] := by
  induction line with
  | nil => exact absurd rfl hne
  | cons c line ih =>
      rw [List.forall_mem_cons] at h
      rw [splitlines_char h.1]
      by_cases hempty : line = []
      · rw [hempty, splitlines_nil]
      · rw [ih hempty h.2]

/-- Joined lines are split again. -/
theorem splitlines_intercalate {lines : List Text}
    (h : ∀ line ∈ lines, line ≠ [] ∧ ∀ c ∈ line, is_linebreak c = false) :
    splitlines (['\n'].intercalate lines) = lines := by
  induction lines with
  | nil => rfl
  | cons a rest ih =>
      rw [List.forall_mem_cons] at h
      cases rest with
      | nil =>
          rw [show ['\n'].intercalate [a] = a by simp [List.intercalate]]
          exact splitlines_last h.1.1 h.1.2
      | cons b rest =>
          rw [intercalate_cons_cons, List.singleton_append, splitlines_line _ h.1.2, ih h.2]

/-- The lines of a printed text. -/
theorem splitlines_joined {lines : List Text} (hne : lines ≠ []) (h : ∀ line ∈ lines, TidyLine line) :
    splitlines (strip (['\n'].intercalate lines ++ ['\n'])) = lines := by
  have hhead : ∃ c rest, ['\n'].intercalate lines = c :: rest ∧ is_space c = false := by
    obtain ⟨a, rest, rfl⟩ := List.exists_cons_of_ne_nil hne
    obtain ⟨c, a', rfl, hc⟩ := (h a List.mem_cons_self).head
    cases rest with
    | nil => exact ⟨c, a', by simp [List.intercalate], hc⟩
    | cons b rest => exact ⟨c, _, by rw [intercalate_cons_cons, List.cons_append], hc⟩
  have hlast : ∃ init c, ['\n'].intercalate lines = init ++ [c] ∧ is_space c = false := by
    clear hhead
    induction lines with
    | nil => exact absurd rfl hne
    | cons a rest ih =>
        rw [List.forall_mem_cons] at h
        cases rest with
        | nil =>
            obtain ⟨init, c, rfl, hc⟩ := h.1.last
            exact ⟨init, c, by simp [List.intercalate], hc⟩
        | cons b rest =>
            obtain ⟨init, c, hinit, hc⟩ := ih (List.cons_ne_nil b rest) h.2
            refine ⟨a ++ (['\n'] ++ init), c, ?_, hc⟩
            rw [intercalate_cons_cons, hinit, List.append_assoc, List.append_assoc]
  have hws : ∀ c ∈ ['\n'], is_space c = true := fun c hc => by
    rw [List.mem_singleton.1 hc]
    rfl
  rw [strip_append hhead hlast hws, splitlines_intercalate]
  intro line hline
  obtain ⟨c, rest, rfl, -⟩ := (h line hline).head
  exact ⟨List.cons_ne_nil c rest, (h _ hline).unbroken⟩

end CodaNode
