/-
`Consumer/Rules.lean` -- one rule for each operation of a handler.

Each rule says from which states an operation of `Consumer/Handler.lean` meets its
contract, when Redis answers and nobody cancels. What is known between two operations is
`At`: the invariant, how the log has grown, and, where the others leave them alone, the
job's tally and the desk. A rule takes the facts before the operation and asks for the rest
of the proof at the facts after it, so that a proof about a handler follows its code.
-/
import CodaNode.Consumer.Moves

set_option autoImplicit false

open Coroutine

namespace CodaNode

variable {Ir : Type} {node : Node Ir} {T : Setting Ir} {m : Message} {job_id url : String}

/-- What is known at a point of the handler that began in `w₀`. -/
structure At (T : Setting Ir) (m : Message) (job_id : String) (t : Tally Ir) (d : Desk)
    (w₀ w : World Ir) : Prop where
  inv : T.inv w
  log : w₀.log <:+ w.log
  tally : T.tracked → w.tally m job_id = t
  desk : T.solo → w.desk = d

variable {t : Tally Ir} {d : Desk} {w₀ w : World Ir}

namespace At

/-- The handler begins. -/
theorem start (h : T.inv w) : At T m job_id (w.tally m job_id) w.desk w w :=
  ⟨h, List.suffix_refl _, fun _ => rfl, fun _ => rfl⟩

/-- The others act. -/
theorem relied (h : At T m job_id t d w₀ w) (hT : T.Suits node m job_id url) {w' : World Ir}
    (hr : T.contract.rely w w') : At T m job_id t d w₀ w' where
  inv := hT.rely_inv w w' h.inv hr
  log := h.log.trans (hT.rely_log w w' hr)
  tally ht := (hT.rely_tally w w' ht h.inv hr).trans (h.tally ht)
  desk hd := (hT.rely_desk w w' hd h.inv hr).trans (h.desk hd)

/-- The handler takes a step. -/
theorem moved (h : At T m job_id t d w₀ w) (hT : T.Suits node m job_id url) {w' : World Ir}
    (t' : Tally Ir) (d' : Desk) (hm : Move node T m job_id url w w') (hlog : w.log <:+ w'.log)
    (ht : w.tally m job_id = t → w'.tally m job_id = t') (hd : w.desk = d → w'.desk = d') :
    T.contract.keep w w' ∧ At T m job_id t' d' w₀ w' := by
  obtain ⟨hk, hi⟩ := hT.step w w' h.inv hm
  exact ⟨hk, hi, h.log.trans hlog, fun htr => ht (h.tally htr), fun hs => hd (h.desk hs)⟩

end At

/-! ## Synchronous steps -/

/-- A step that no job can see. -/
theorem wp_quiet (hT : T.Suits node m job_id url) (h : At T m job_id t d w₀ w)
    {f : World Ir → World Ir} (d' : Desk) {Q : Except Exn Unit → World Ir → Prop}
    (hq : Quiet m w (f w)) (hd : w.desk = d → (f w).desk = d')
    (hQ : At T m job_id t d' w₀ (f w) → Q (.ok ()) (f w)) :
    T.contract.wp (Co.update f) Q w := by
  obtain ⟨hk, h'⟩ := h.moved hT t d' (.quiet hq) hq.grows
    (fun ht => (hq.tally m job_id).trans ht) hd
  exact ⟨hk, hQ h'⟩

/-- A step that neither a job nor the desk can see. -/
theorem wp_silent (hT : T.Suits node m job_id url) (h : At T m job_id t d w₀ w)
    {f : World Ir → World Ir} {Q : Except Exn Unit → World Ir → Prop}
    (hq : Quiet m w (f w)) (hd : (f w).desk = w.desk)
    (hQ : At T m job_id t d w₀ (f w) → Q (.ok ()) (f w)) :
    T.contract.wp (Co.update f) Q w :=
  wp_quiet hT h d hq (fun h' => hd.trans h') hQ

/-- Reading the clock or an attribute. -/
theorem wp_read (hT : T.Suits node m job_id url) (h : At T m job_id t d w₀ w) {α : Type}
    {g : World Ir → α} {Q : Except Exn α → World Ir → Prop} (hQ : Q (.ok (g w)) w) :
    T.contract.wp (Co.look g) Q w :=
  ⟨(hT.step w w h.inv (.quiet (Quiet.refl m w))).1, hQ⟩

theorem wp_enter (hT : T.Suits node m job_id url) (h : At T m job_id t d w₀ w) {r : Region}
    {Q : Except Exn Unit → World Ir → Prop}
    (hQ : At T m job_id t d w₀ (w.enter r) → Q (.ok ()) (w.enter r)) :
    T.contract.wp (enter r) Q w :=
  wp_silent hT h (f := (·.enter r)) ⟨rfl, rfl, rfl, rfl, ⟨rfl, rfl, rfl⟩, .inl rfl⟩ rfl hQ

theorem wp_mark (hT : T.Suits node m job_id url) (h : At T m job_id t d w₀ w) {x : Mark}
    (hx : x = .handling m ∨ x = .skipped m)
    {Q : Except Exn Unit → World Ir → Prop}
    (hQ : At T m job_id t d w₀ (w.record (.mark x)) → Q (.ok ()) (w.record (.mark x))) :
    T.contract.wp (mark x) Q w :=
  wp_silent hT h (f := (·.record (.mark x)))
    ⟨rfl, rfl, rfl, rfl, ⟨rfl, rfl, rfl⟩, .inr ⟨x, hx.imp_right .inl, rfl⟩⟩ rfl hQ

theorem wp_begin_call (hT : T.Suits node m job_id url) (h : At T m job_id t d w₀ w) {s : Start}
    {Q : Except Exn Unit → World Ir → Prop}
    (hQ : At T m job_id t d w₀ (w.starts s) → Q (.ok ()) (w.starts s)) :
    T.contract.wp (begin_call s) Q w :=
  wp_silent hT h (f := (·.starts s))
    ⟨rfl, rfl, rfl, rfl, ⟨rfl, rfl, rfl⟩, .inr ⟨_, .inr (.inr ⟨s, _, _, rfl⟩), rfl⟩⟩ rfl hQ

/-! ## Operations -/

/-- An operation that leaves Redis as it is. -/
theorem wp_heard (hT : T.Suits node m job_id url) (h : At T m job_id t d w₀ w) {c : Call Ir}
    (hc : c.reads = true) {Q : Except Exn c.Reply → World Ir → Prop}
    (hQ : ∀ w₁ r w', At T m job_id t d w₀ w₁ → T.contract.answer ⟨some m, c⟩ w₁ r w' →
      Heard m c r w₁ w' → At T m job_id (t.heard job_id c r) d w₀ w' → w.log <:+ w'.log →
      Q r w') :
    T.contract.wp (on m c) Q w := by
  refine (Contract.wp_call _ _ _).2 ⟨hT.pre c w (Call.prompt_of_reads hc), fun w₁ hr r w' ha => ?_⟩
  have h₁ := h.relied hT hr
  have hheard := Heard.of_answers hc (hT.answer c w₁ r w' ha).1
  obtain ⟨hk, h'⟩ := h₁.moved hT (t.heard job_id c r) d (.heard hc ha) hheard.toAnswered.grows
    (fun ht => (hheard.tally hc m job_id).trans (by rw [ht])) (fun hd => hheard.desk.trans hd)
  exact ⟨hk, hQ w₁ r w' h₁ ha hheard h' ((hT.rely_log _ _ hr).trans hheard.toAnswered.grows)⟩

/-- `HGET` of the job's state. -/
theorem wp_get_job_status (hT : T.Suits node m job_id url) (h : At T m job_id t d w₀ w)
    {Q : Except Exn (Option String) → World Ir → Prop}
    (hQ : ∀ st w', At T m job_id t d w₀ w' → st = w'.state job_id →
      (terminal st = true → w'.found_terminal m job_id) → Q (.ok st) w') :
    T.contract.wp (get_job_status m job_id) Q w := by
  refine wp_heard hT h rfl fun w₁ r w' h₁ ha hheard h' _ => ?_
  obtain ⟨hans, hup, -⟩ := hT.answer _ _ _ _ ha
  obtain ⟨st, rfl⟩ := hup.ok rfl (by simp)
  obtain ⟨w₂, ⟨rfl, rfl⟩, rfl⟩ := answers_ok.1 hans
  exact hQ _ _ h' rfl fun hst => ⟨_, hst, World.logged_record _ _⟩

/-- `GET` of the job's cancel key. -/
theorem wp_has_cancel_signal (hT : T.Suits node m job_id url) (h : At T m job_id t d w₀ w)
    {Q : Except Exn Bool → World Ir → Prop}
    (hset : ∀ w', At T m job_id t d w₀ w' → w'.signalled m job_id →
      T.Ever (fun x => x.values (cancel_key job_id) ≠ none) → Q (.ok true) w')
    (hunset : ∀ w', At T m job_id t d w₀ w' → w'.values (cancel_key job_id) = none →
      Q (.ok false) w') :
    T.contract.wp (has_cancel_signal m job_id) Q w := by
  refine (Contract.wp_bind _ _ _ _).2 (wp_heard hT h rfl fun w₁ r w' h₁ ha hheard h' _ => ?_)
  obtain ⟨hans, hup, -⟩ := hT.answer _ _ _ _ ha
  obtain ⟨v, rfl⟩ := hup.ok rfl (by simp)
  obtain ⟨w₂, ⟨hv, rfl⟩, rfl⟩ := answers_ok.1 hans
  cases v with
  | none => exact hunset _ h' hv.symm
  | some v =>
      have hkey : w₂.values (cancel_key job_id) ≠ none := by
        rw [← hv]
        exact Option.some_ne_none v
      exact hset _ h' ⟨v, World.logged_record _ _⟩ ⟨w₂, h₁.inv, hkey⟩

/-- A write of a status record. -/
theorem wp_write (hT : T.Suits node m job_id url) (h : At T m job_id t d w₀ w)
    (hm : m.Carries job_id url) {mapping : List (String × String)} {st : String}
    (hst : record_state mapping = some st)
    (duty : (T.tracked → T.fresh t.posts) ∨ ∃ e, Failing node m w e)
    {Q : Except Exn Bool → World Ir → Prop}
    (hQ : ∀ w₁ w', At T m job_id { t with state := some st } d w₀ w' →
      T.contract.answer ⟨some m, .hset (status_key job_id) mapping⟩ w₁ (.ok ()) w' →
      w'.logged (.ended ⟨some m, .hset (status_key job_id) mapping⟩ true (.ok ())) →
      w.log <:+ w'.log → Q (.ok true) w') :
    T.contract.wp (safe_hset m (status_key job_id) mapping) Q w := by
  refine (Contract.wp_try_except _ _ _ _).2 ((Contract.wp_bind _ _ _ _).2
    ((Contract.wp_call _ _ _).2 ⟨hT.pre _ w rfl, fun w₁ hr r w' ha => ?_⟩))
  have h₁ := h.relied hT hr
  have hgrow := hT.rely_log _ _ hr
  obtain ⟨hans, hup, -⟩ := hT.answer _ _ _ _ ha
  obtain ⟨⟨⟩, rfl⟩ := hup.ok rfl (by simp)
  obtain ⟨w₂, rfl, rfl⟩ := answers_ok.1 hans
  have hduty : (T.tracked → T.fresh (w₁.posts job_id)) ∨ ∃ e, Failing node m w₁ e := by
    rcases duty with hf | ⟨e, he⟩
    · refine .inl fun htr => ?_
      have hp : w₁.posts job_id = t.posts := congrArg Tally.posts (h₁.tally htr)
      rw [hp]
      exact hf htr
    · exact .inr ⟨e, he.mono hgrow⟩
  obtain ⟨hk, h'⟩ := h₁.moved hT { t with state := some st } d (.write hm hst ha hduty)
    (List.suffix_cons _ _ : w₁.log <:+ _)
    (fun ht => by
      subst ht
      simp only [World.tally, World.state_record, World.state_write _ _ hst,
        World.posts_ended, World.count_record]
      rfl) id
  exact ⟨hk, hQ w₁ _ h' ha (World.logged_record _ _) (hgrow.trans (List.suffix_cons _ _))⟩

/-- `XACK` of the message. -/
theorem wp_safe_xack (hT : T.Suits node m job_id url) (h : At T m job_id t d w₀ w)
    (why : (∀ j u, ¬ m.Carries j u) ∨ m.Carries job_id url ∧
      (w.settled m job_id ∨ w.skipped m))
    {Q : Except Exn Bool → World Ir → Prop}
    (hQ : ∀ w', At T m job_id { t with acks := t.acks + 1 } d w₀ w' → w.log <:+ w'.log →
      Q (.ok true) w') :
    T.contract.wp (safe_xack m) Q w := by
  refine (Contract.wp_try_except _ _ _ _).2 ((Contract.wp_bind _ _ _ _).2
    ((Contract.wp_call _ _ _).2 ⟨hT.pre _ w rfl, fun w₁ hr r w' ha => ?_⟩))
  have h₁ := h.relied hT hr
  have hgrow := hT.rely_log _ _ hr
  obtain ⟨hans, hup, -⟩ := hT.answer _ _ _ _ ha
  obtain ⟨⟨⟩, rfl⟩ := hup.ok rfl (by simp)
  obtain ⟨w₂, rfl, rfl⟩ := answers_ok.1 hans
  have hwhy : (∀ j u, ¬ m.Carries j u) ∨ m.Carries job_id url ∧
      (w₁.settled m job_id ∨ w₁.skipped m) := by
    rcases why with hno | ⟨hm, hs | hs⟩
    · exact .inl hno
    · exact .inr ⟨hm, .inl (hs.mono hgrow)⟩
    · exact .inr ⟨hm, .inr (hs.mono hgrow)⟩
  obtain ⟨hk, h'⟩ := h₁.moved hT { t with acks := t.acks + 1 } d (.ack hwhy ha)
    (List.suffix_cons _ _ : w₁.log <:+ _)
    (fun ht => by
      subst ht
      simp [World.tally, Call.acks, Call.reports]) id
  exact ⟨hk, hQ _ h' (hgrow.trans (List.suffix_cons _ _))⟩

/-- `_mark_job_cancelled`. -/
theorem wp_mark_job_cancelled (hT : T.Suits node m job_id url) (h : At T m job_id t d w₀ w)
    (hm : m.Carries job_id url)
    (duty : (T.tracked → T.fresh t.posts) ∨ ∃ e, Failing node m w e)
    {Q : Except Exn Unit → World Ir → Prop}
    (hQ : ∀ w', At T m job_id { t with state := some "cancelled" } d w₀ w' →
      w'.wrote_cancelled m job_id → w.log <:+ w'.log → Q (.ok ()) w') :
    T.contract.wp (mark_job_cancelled node m job_id) Q w :=
  (Contract.wp_bind _ _ _ _).2 (wp_read hT h
    ((Contract.wp_bind _ _ _ _).2 (wp_write hT h hm (record_state_cancelled node m _) duty
      fun _ w' h' _ hlog hgrow => hQ w' h' ⟨_, record_state_cancelled node m _, hlog⟩ hgrow)))

/-- `send_result`: the webhook begins right after the check of the cancel key. -/
theorem wp_send_result (hT : T.Suits node m job_id url) (h : At T m job_id t d w₀ w)
    (hm : m.Carries job_id url) (hkey : w.values (cancel_key job_id) = none)
    (duty : T.tracked → T.fresh t.posts ∧ t.state = some "completed")
    {result : ExecutionResult} {c : Call Ir}
    (hc : c = .send_result url (completed_payload job_id result))
    {Q : Except Exn Unit → World Ir → Prop}
    (hok : ∀ w', At T m job_id { t with posts := c :: t.posts, returned := c :: t.returned } d w₀ w' →
      w'.reported_by m job_id → w.log <:+ w'.log → Q (.ok ()) w')
    (herr : ∀ w' e, At T m job_id { t with posts := c :: t.posts } d w₀ w' →
      w'.reported_by m job_id → w.log <:+ w'.log → e.ordinary = true →
      Failing node m w' e → Q (.error e) w') :
    T.contract.wp (send_result m url (completed_payload job_id result)) Q w := by
  subst hc
  have hduty : T.tracked → T.fresh (w.posts job_id) ∧ w.state job_id = some "completed" := by
    intro htr
    have ht := h.tally htr
    have hp : w.posts job_id = t.posts := congrArg Tally.posts ht
    have hs : w.state job_id = t.state := congrArg Tally.state ht
    rw [hp, hs]
    exact duty htr
  obtain ⟨hk, h'⟩ := h.moved hT
    { t with posts := .send_result url (completed_payload job_id result) :: t.posts } d
    (.post_result result hm hkey hduty) (List.suffix_cons _ _ : w.log <:+ _)
    (fun ht => by
      subst ht
      simp [World.tally, Call.reports, completed_payload]) id
  refine (Contract.wp_bind _ _ _ _).2
    ⟨hk, wp_heard hT h' rfl fun w₁ r w' h₁ ha hheard hw hgrow => ?_⟩
  have hrep : w'.reported_by m job_id :=
    World.reported_by.mono hgrow ⟨_, by simp [Call.reports, completed_payload],
      World.logged_record _ _⟩
  have hlog : w.log <:+ w'.log := (List.suffix_cons _ _).trans hgrow
  obtain ⟨hans, -, hcan⟩ := hT.answer _ _ _ _ ha
  cases r with
  | ok v =>
      refine hok _ ?_ hrep hlog
      simpa [Tally.heard, Call.reports, completed_payload] using hw
  | error e =>
      obtain ⟨hf, hw'⟩ := answers_error.1 hans
      have hord : e.ordinary = true := by
        refine Exn.ordinary_iff.2 ⟨hf, ?_⟩
        rintro rfl
        obtain ⟨k, hk⟩ := hcan rfl
        cases hk
      have hfail : Failing node m w' e := by
        rcases hw' with ⟨-, rfl⟩ | ⟨hm, -⟩
        · exact .inr ⟨url, completed_payload job_id result, World.logged_record _ _⟩
        · cases hm
      exact herr _ _ hw hrep hlog hord hfail

/-- `send_error` in its `try`: the webhook begins right after the job was recorded as
failed, and an exception of it is only logged. -/
theorem wp_send_error (hT : T.Suits node m job_id url) (h : At T m job_id t d w₀ w)
    (hm : m.Carries job_id url) {w₁ : World Ir} {e : Exn} {failed_at : String}
    (ha : T.contract.answer ⟨some m, .hset (status_key job_id) (failed_record e failed_at)⟩ w₁
      (.ok ()) w)
    (cause : Failing node m w e) {c : Call Ir} (hc : c = .send_error url job_id e.text)
    {Q : Except Exn Unit → World Ir → Prop}
    (hQ : ∀ w' returned, At T m job_id { t with posts := c :: t.posts, returned := returned } d w₀ w' →
      returned = t.returned ∨ returned = c :: t.returned → w'.reported_by m job_id →
      w.log <:+ w'.log → Q (.ok ()) w') :
    T.contract.wp (Co.try_except (send_error m url job_id e.text)
      (fun e' => if e' = .cancelled then .raise e' else pure ())) Q w := by
  subst hc
  obtain ⟨hk, h'⟩ := h.moved hT
    { t with posts := .send_error url job_id e.text :: t.posts } d (.post_error hm ha cause)
    (List.suffix_cons _ _ : w.log <:+ _)
    (fun ht => by
      subst ht
      simp [World.tally, Call.reports]) id
  refine (Contract.wp_try_except _ _ _ _).2 ((Contract.wp_bind _ _ _ _).2
    ⟨hk, wp_heard hT h' rfl fun w₂ r w' h₁ ha' hheard hw hgrow => ?_⟩)
  have hrep : w'.reported_by m job_id :=
    World.reported_by.mono hgrow ⟨_, by simp [Call.reports], World.logged_record _ _⟩
  have hlog : w.log <:+ w'.log := (List.suffix_cons _ _).trans hgrow
  cases r with
  | ok v =>
      refine hQ w' _ ?_ (.inr rfl) hrep hlog
      simpa [Tally.heard, Call.reports] using hw
  | error e' =>
      have hne : e' ≠ .cancelled := by
        rintro rfl
        obtain ⟨k, hk⟩ := (hT.answer _ _ _ _ ha').2.2 rfl
        cases hk
      show T.contract.wp (if e' = .cancelled then _ else _) Q w'
      rw [if_neg hne]
      exact hQ w' _ hw (.inl rfl) hrep hlog

end CodaNode
