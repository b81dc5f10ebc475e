/-
`Regex/Unambiguous.lean` -- expressions that match in one way only.

A backtracking matcher returns its first success, so what it returns is known from the language
alone where there is one success only. `Unambiguous r k` says that `r` can be matched in one way
if `k` has to be matched after it. It is shown by recursion on the expression: a repetition is
unambiguous where its turn and what follows it cannot both go on (`Unambiguous.star`).
-/
import CodaNode.Regex.Basic

set_option autoImplicit false

namespace Regex

variable {α : Type} {r s k : Re α} {p q : α → Bool} {caps caps' : Caps α} {w text : List α}

namespace Re

/-! ## Captures -/

theorem Turns.imp {step : List α → Caps α → Caps α → Prop}
    (h : ∀ w caps caps', step w caps caps' → ∀ other, ∃ other', step w other other')
    (hw : Turns step w caps caps') (other : Caps α) : ∃ other', Turns step w other other' := by
  induction hw generalizing other with
  | nil => exact ⟨other, .nil other⟩
  | cons hne hu _ ih =>
      obtain ⟨mid, hmid⟩ := h _ _ _ hu other
      obtain ⟨other', hv⟩ := ih mid
      exact ⟨other', .cons hne hmid hv⟩

/-- Whether a text is accepted does not depend on the captures so far. -/
theorem Accepts.of_caps (h : r.Accepts w caps caps') (other : Caps α) :
    ∃ other', r.Accepts w other other' := by
  induction r generalizing w caps caps' other with
  | eps => exact ⟨other, h.1, rfl⟩
  | set p =>
      obtain ⟨c, hw, hc, -⟩ := h
      exact ⟨other, c, hw, hc, rfl⟩
  | seq r s ihr ihs =>
      obtain ⟨u, v, mid, rfl, hu, hv⟩ := h
      obtain ⟨mid', hu'⟩ := ihr hu other
      obtain ⟨other', hv'⟩ := ihs hv mid'
      exact ⟨other', u, v, mid', rfl, hu', hv'⟩
  | alt r s ihr ihs =>
      rcases h with h | h
      · obtain ⟨other', h'⟩ := ihr h other
        exact ⟨other', .inl h'⟩
      · obtain ⟨other', h'⟩ := ihs h other
        exact ⟨other', .inr h'⟩
  | star r ih =>
      change Turns r.Accepts w caps caps' at h
      exact h.imp (fun _ _ _ hr => ih hr) other
  | group n r ih =>
      obtain ⟨mid, h, -⟩ := h
      obtain ⟨other', h'⟩ := ih h other
      exact ⟨(n, w) :: other', other', h', rfl⟩

/-! ## What can go on -/

/-- A prefix of the text is accepted. -/
def Can (r : Re α) (text : List α) : Prop :=
  ∃ w rest caps caps', text = w ++ rest ∧ r.Accepts w caps caps'

/-- A text that goes on starts with a letter of the set. -/
def Starts (r : Re α) (p : α → Bool) : Prop :=
  ∀ text, r.Can text → ∃ c rest, text = c :: rest ∧ p c = true

theorem can_eps (text : List α) : (eps : Re α).Can text := ⟨[], text, [], [], rfl, rfl, rfl⟩

theorem can_seq : (seq r s).Can text ↔
    ∃ u rest caps caps', text = u ++ rest ∧ r.Accepts u caps caps' ∧ s.Can rest := by
  constructor
  · rintro ⟨w, rest, caps, caps', rfl, u, v, mid, rfl, hu, hv⟩
    exact ⟨u, v ++ rest, caps, mid, List.append_assoc _ _ _, hu, v, rest, mid, caps', rfl, hv⟩
  · rintro ⟨u, rest, caps, mid, rfl, hu, v, rest', caps₀, caps₁, rfl, hv⟩
    obtain ⟨caps', hv'⟩ := hv.of_caps mid
    exact ⟨u ++ v, rest', caps, caps', (List.append_assoc _ _ _).symm, u, v, mid, rfl, hu, hv'⟩

theorem Starts.imp (h : Starts r p) (hpq : ∀ c, p c = true → q c = true) : Starts r q := by
  intro text hcan
  obtain ⟨c, rest, rfl, hc⟩ := h text hcan
  exact ⟨c, rest, rfl, hpq c hc⟩

theorem starts_set : Starts (set p) p := by
  rintro text ⟨w, rest, caps, caps', rfl, c, rfl, hc, -⟩
  exact ⟨c, rest, rfl, hc⟩

theorem Starts.seq (h : Starts r p) : Starts (.seq r s) p := by
  intro text hcan
  obtain ⟨u, rest, caps, caps', rfl, hu, -⟩ := can_seq.1 hcan
  exact h _ ⟨u, rest, caps, caps', rfl, hu⟩

theorem Starts.group {n : Nat} (h : Starts r p) : Starts (.group n r) p := by
  rintro text ⟨w, rest, caps, caps', rfl, mid, hw, -⟩
  exact h _ ⟨w, rest, caps, mid, rfl, hw⟩

theorem starts_lit [DecidableEq α] {a : α} {rest : List α} :
    Starts (lit (a :: rest)) (fun c => c = a) := Starts.seq starts_set

theorem Starts.opt_seq (hr : Starts r p) (hs : Starts s p) : Starts (.seq (.opt r) s) p := by
  intro text hcan
  obtain ⟨u, rest, caps, caps', rfl, hu | ⟨rfl, -⟩, hrest⟩ := can_seq.1 hcan
  · exact hr _ ⟨u, rest, caps, caps', rfl, hu⟩
  · exact hs _ hrest

/-- After a repetition there is one more turn, or what follows it. -/
theorem Starts.star_seq (hr : Starts r p) (hs : Starts s p) : Starts (.seq (.star r) s) p := by
  intro text hcan
  obtain ⟨u, rest, caps, caps', rfl, hu, hrest⟩ := can_seq.1 hcan
  cases hu with
  | nil => exact hs _ hrest
  | @cons u v _ mid _ hne hu hv =>
      refine hr _ ⟨u, v ++ rest, _, _, ?_, hu⟩
      rw [List.append_assoc]

/-- Two expressions that do not start alike cannot both go on. -/
theorem Starts.disjoint (hr : Starts r p) (hs : Starts s q)
    (hpq : ∀ c, p c = true → q c = false) (hcan : r.Can text) : ¬ s.Can text := by
  intro hcan'
  obtain ⟨c, rest, rfl, hc⟩ := hr _ hcan
  obtain ⟨d, rest', heq, hd⟩ := hs _ hcan'
  cases heq
  rw [hpq c hc] at hd
  cases hd

/-- A repetition of letters, before something else, takes all of them. -/
theorem can_star_set (hs : Starts s q) (hpq : ∀ c, q c = true → p c = false) :
    (seq (star (set p)) s).Can text ↔ s.Can (text.dropWhile p) := by
  rw [can_seq]
  constructor
  · rintro ⟨u, rest, caps, caps', rfl, hu, hrest⟩
    obtain ⟨c, rest', rfl, hc⟩ := hs _ hrest
    rwa [List.dropWhile_append_of_pos (accepts_star_set.1 hu).1, List.dropWhile_cons_of_neg]
    rw [hpq c hc]
    exact Bool.false_ne_true
  · intro hcan
    exact ⟨text.takeWhile p, text.dropWhile p, [], [], List.takeWhile_append_dropWhile.symm,
      accepts_star_set.2 ⟨fun c hc => List.mem_takeWhile_imp hc, rfl⟩, hcan⟩

theorem can_assoc : (seq (seq r s) k).Can text ↔ (seq r (seq s k)).Can text := by
  constructor
  · rintro ⟨w, rest, caps, caps', rfl, w', v, mid, rfl, ⟨u, u', mid', rfl, hu, hu'⟩, hv⟩
    exact ⟨_, rest, caps, caps', rfl, u, u' ++ v, mid', List.append_assoc _ _ _, hu, u', v, mid,
      rfl, hu', hv⟩
  · rintro ⟨w, rest, caps, caps', rfl, u, w', mid, rfl, hu, u', v, mid', rfl, hu', hv⟩
    exact ⟨_, rest, caps, caps', rfl, u ++ u', v, mid', (List.append_assoc _ _ _).symm,
      ⟨u, u', mid, rfl, hu, hu'⟩, hv⟩

/-! ## One way only -/

/-- There is one way to match `r` so that `k` can be matched after it. -/
def Unambiguous (r k : Re α) : Prop :=
  ∀ w₁ w₂ rest₁ rest₂ caps caps₁ caps₂, w₁ ++ rest₁ = w₂ ++ rest₂ → r.Accepts w₁ caps caps₁ →
    r.Accepts w₂ caps caps₂ → k.Can rest₁ → k.Can rest₂ → w₁ = w₂ ∧ caps₁ = caps₂

namespace Unambiguous

theorem eps : Unambiguous .eps k := by
  rintro w₁ w₂ rest₁ rest₂ caps caps₁ caps₂ - ⟨rfl, rfl⟩ ⟨rfl, rfl⟩ - -
  exact ⟨rfl, rfl⟩

theorem set : Unambiguous (.set p) k := by
  rintro w₁ w₂ rest₁ rest₂ caps caps₁ caps₂ heq ⟨c, rfl, -, rfl⟩ ⟨d, rfl, -, rfl⟩ - -
  cases heq
  exact ⟨rfl, rfl⟩

theorem seq (hr : Unambiguous r (.seq s k)) (hs : Unambiguous s k) :
    Unambiguous (.seq r s) k := by
  rintro w₁ w₂ rest₁ rest₂ caps caps₁ caps₂ heq ⟨u₁, v₁, mid₁, rfl, hu₁, hv₁⟩
    ⟨u₂, v₂, mid₂, rfl, hu₂, hv₂⟩ hk₁ hk₂
  rw [List.append_assoc, List.append_assoc] at heq
  obtain ⟨rfl, rfl⟩ := hr u₁ u₂ _ _ caps mid₁ mid₂ heq hu₁ hu₂
    (can_seq.2 ⟨v₁, rest₁, _, _, rfl, hv₁, hk₁⟩) (can_seq.2 ⟨v₂, rest₂, _, _, rfl, hv₂, hk₂⟩)
  obtain ⟨rfl, rfl⟩ := hs v₁ v₂ _ _ mid₁ caps₁ caps₂ (List.append_cancel_left heq) hv₁ hv₂ hk₁ hk₂
  exact ⟨rfl, rfl⟩

theorem group {n : Nat} (hr : Unambiguous r k) : Unambiguous (.group n r) k := by
  rintro w₁ w₂ rest₁ rest₂ caps caps₁ caps₂ heq ⟨mid₁, h₁, rfl⟩ ⟨mid₂, h₂, rfl⟩ hk₁ hk₂
  obtain ⟨rfl, rfl⟩ := hr w₁ w₂ rest₁ rest₂ caps mid₁ mid₂ heq h₁ h₂ hk₁ hk₂
  exact ⟨rfl, rfl⟩

theorem lit [DecidableEq α] {a : List α} : Unambiguous (.lit a) k := by
  induction a generalizing k with
  | nil => exact eps
  | cons a rest ih => exact seq set ih

/-- An option, where what follows cannot start as the option does. -/
theorem opt (hr : Unambiguous r k) (hdisj : ∀ text, (Re.seq r k).Can text → ¬ k.Can text) :
    Unambiguous (.opt r) k := by
  rintro w₁ w₂ rest₁ rest₂ caps caps₁ caps₂ heq h₁ h₂ hk₁ hk₂
  rcases h₁ with h₁ | ⟨rfl, rfl⟩ <;> rcases h₂ with h₂ | ⟨rfl, rfl⟩
  · exact hr w₁ w₂ rest₁ rest₂ caps caps₁ caps₂ heq h₁ h₂ hk₁ hk₂
  · refine absurd hk₂ ?_
    rw [List.nil_append] at heq
    rw [← heq]
    exact hdisj _ (can_seq.2 ⟨w₁, rest₁, _, _, rfl, h₁, hk₁⟩)
  · refine absurd hk₁ ?_
    rw [List.nil_append] at heq
    rw [heq]
    exact hdisj _ (can_seq.2 ⟨w₂, rest₂, _, _, rfl, h₂, hk₂⟩)
  · exact ⟨rfl, rfl⟩

/-- A repetition, where a turn is unambiguous and what follows cannot start as a turn does. -/
theorem star (hr : Unambiguous r (.seq (.star r) k))
    (hdisj : ∀ text, (Re.seq r (.seq (.star r) k)).Can text → ¬ k.Can text) :
    Unambiguous (.star r) k := by
  intro w₁ w₂ rest₁ rest₂ caps caps₁ caps₂ heq h₁ h₂ hk₁ hk₂
  have hgo : ∀ {u v rest : List α} {caps mid caps' : Caps α}, r.Accepts u caps mid →
      Turns r.Accepts v mid caps' → k.Can rest → ¬ k.Can (u ++ (v ++ rest)) :=
    fun {u v rest} _ _ _ hu hv hk => hdisj _ (can_seq.2 ⟨u, v ++ rest, _, _, rfl, hu,
      can_seq.2 ⟨v, rest, _, _, rfl, hv, hk⟩⟩)
  change Turns r.Accepts w₁ caps caps₁ at h₁
  change Turns r.Accepts w₂ caps caps₂ at h₂
  induction h₁ generalizing w₂ with
  | nil =>
      cases h₂ with
      | nil => exact ⟨rfl, rfl⟩
      | cons hne hu hv =>
          rw [List.nil_append, List.append_assoc] at heq
          exact absurd (heq ▸ hk₁) (hgo hu hv hk₂)
  | @cons u₁ v₁ _ mid₁ _ hne₁ hu₁ hv₁ ih =>
      rw [List.append_assoc] at heq
      cases h₂ with
      | nil =>
          rw [List.nil_append] at heq
          exact absurd (heq ▸ hk₂) (hgo hu₁ hv₁ hk₁)
      | @cons u₂ v₂ _ mid₂ _ hne₂ hu₂ hv₂ =>
          rw [List.append_assoc] at heq
          obtain ⟨rfl, rfl⟩ := hr u₁ u₂ _ _ _ mid₁ mid₂ heq hu₁ hu₂
            (can_seq.2 ⟨v₁, rest₁, _, _, rfl, hv₁, hk₁⟩)
            (can_seq.2 ⟨v₂, rest₂, _, _, rfl, hv₂, hk₂⟩)
          obtain ⟨rfl, rfl⟩ := ih _ (List.append_cancel_left heq) hv₂
          exact ⟨rfl, rfl⟩

/-- A repetition of letters, where what follows starts with another letter. -/
theorem star_set (hk : Starts k q) (hpq : ∀ c, q c = true → p c = false) :
    Unambiguous (.star (.set p)) k := by
  apply star set
  intro text hcan hk'
  exact (Starts.disjoint hk (Starts.seq starts_set) hpq hk') hcan

theorem plus_set (hk : Starts k q) (hpq : ∀ c, q c = true → p c = false) :
    Unambiguous (.plus (.set p)) k := seq set (star_set hk hpq)

end Unambiguous

/-- What is accepted in one way only is what is matched. -/
theorem match_eq (hr : Unambiguous r .eps) (rest : List α) (hw : r.Accepts w [] caps) :
    r.match (w ++ rest) = some (caps, rest) := by
  cases hm : r.match (w ++ rest) with
  | none => exact absurd hw (match_eq_none.1 hm w rest caps rfl)
  | some m =>
      obtain ⟨caps', rest'⟩ := m
      obtain ⟨w', heq, hw'⟩ := match_accepts hm
      obtain ⟨rfl, rfl⟩ := hr w w' rest rest' [] caps caps' heq hw hw' (can_eps _) (can_eps _)
      rw [List.append_cancel_left heq]

theorem match_isSome (rest : List α) (hw : r.Accepts w [] caps) :
    (r.match (w ++ rest)).isSome = true := by
  cases hm : r.match (w ++ rest) with
  | none => exact absurd hw (match_eq_none.1 hm w rest caps rfl)
  | some m => rfl

/-! ## All matches -/

theorem findall_nil {fuel : Nat} : findall r fuel [] = [] := by
  cases fuel <;> rfl

/-- No match starts at a letter that none starts with. -/
theorem findall_skip {fuel : Nat} {pre rest : List α} (hr : Starts r p)
    (hpre : ∀ c ∈ pre, p c = false) :
    findall r (fuel + pre.length) (pre ++ rest) = findall r fuel rest := by
  induction pre with
  | nil => rfl
  | cons c pre ih =>
      rw [List.forall_mem_cons] at hpre
      have hnone : r.match (c :: (pre ++ rest)) = none := by
        rw [match_eq_none]
        intro w rest' caps heq hw
        obtain ⟨d, rest₁, h, hd⟩ := hr (c :: (pre ++ rest)) ⟨w, rest', [], caps, heq, hw⟩
        cases h
        rw [hpre.1] at hd
        cases hd
      rw [List.length_cons, ← Nat.add_assoc, List.cons_append, findall, hnone]
      exact ih hpre.2

/-- A match that is one in one way only is found. -/
theorem findall_match {fuel : Nat} (hr : Unambiguous r .eps) (rest : List α) (hne : w ≠ [])
    (hw : r.Accepts w [] caps) : findall r (fuel + 1) (w ++ rest) = caps :: findall r fuel rest := by
  have hmatch := match_eq hr rest hw
  cases w with
  | nil => exact absurd rfl hne
  | cons c w =>
      rw [List.cons_append] at hmatch ⊢
      rw [findall, hmatch]

end Re

end Regex
