/-
`Consumer/Handling.lean` -- what handling a message comes to while Redis answers.

`Ending` lists how the handling of one job can end, with the reason for each. The
theorems follow `_process_message`, the first loop of `_process_batch` and
`_deliver_single_batch_result` with the rules of `Consumer/Rules.lean`, in every setting
that suits the message: alone, or among other handlers that leave the job alone.
-/
import CodaNode.Consumer.Rules

set_option autoImplicit false

open Coroutine

namespace CodaNode

variable {Ir : Type} {node : Node Ir} {T : Setting Ir} {m : Message} {job_id url : String}
variable {t : Tally Ir} {d : Desk} {w₀ w : World Ir}

/-! ## Running the job -/

/-- The poll loop, by induction on the number of intervals: each round either sees the
cancel key or leaves everything as it was. -/
theorem wp_poll (hT : T.Suits node m job_id url) {k : Nat} {out : Except Exn ExecutionResult}
    {Q : Except Exn ExecutionResult → World Ir → Prop} {polls : Nat}
    (h : At T m job_id t d w₀ w)
    (hok : ∀ w' result, At T m job_id t d w₀ w' → out = .ok result → Q (.ok result) w')
    (hcancelled : ∀ w', At T m job_id t d w₀ w' → w'.signalled m job_id →
      T.Ever (fun x => x.values (cancel_key job_id) ≠ none) → Q (.error .job_cancelled) w')
    (herr : ∀ w' e, At T m job_id t d w₀ w' → out = .error e → Q (.error e) w') :
    T.contract.wp (poll node m job_id k out polls) Q w := by
  have hwait : ∀ {w₁ w' : World Ir} {timed_out : Bool} {r : Except Exn Unit},
      T.contract.answer ⟨some m, .wait k timed_out⟩ w₁ r w' → r = .ok () := by
    intro w₁ w' timed_out r ha
    obtain ⟨hans, -, hcan⟩ := hT.answer _ _ _ _ ha
    cases r with
    | ok v => rfl
    | error e =>
        obtain ⟨hf, -⟩ := answers_error.1 hans
        obtain ⟨k', hk'⟩ := hcan (congrArg Except.error hf)
        cases hk'
  induction polls generalizing w with
  | zero =>
      refine (Contract.wp_bind _ _ _ _).2 (wp_heard hT h rfl fun w₁ r w' _ ha _ h' _ => ?_)
      cases hwait ha
      cases out with
      | error e => exact herr w' e h' rfl
      | ok result =>
          show T.contract.wp (has_cancel_signal m job_id >>= _) Q w'
          exact (Contract.wp_bind _ _ _ _).2 (wp_has_cancel_signal hT h'
            (fun w₂ h₂ => hcancelled w₂ h₂) fun w₂ h₂ _ => hok w₂ result h₂ rfl)
  | succ polls ih =>
      refine (Contract.wp_bind _ _ _ _).2 (wp_heard hT h rfl fun w₁ r w' _ ha _ h' _ => ?_)
      cases hwait ha
      refine (Contract.wp_bind _ _ _ _).2 (wp_has_cancel_signal hT h' ?_ fun w₂ h₂ _ => ih h₂)
      intro w₂ h₂ hsig hever
      -- the key is set: the hook, the cancellation, and the unwinding of the run
      have htail : ∀ w₃, At T m job_id t d w₀ w₃ → w₃.signalled m job_id →
          T.contract.wp (do
            cancel_run k
            let _ ← Co.attempt (on m (.unwind k))
            (.raise .job_cancelled : Prog Ir ExecutionResult)) Q w₃ := by
        intro w₃ h₃ hsig₃
        refine (Contract.wp_bind _ _ _ _).2 (wp_silent hT h₃
          ⟨rfl, rfl, rfl, rfl, ⟨rfl, rfl, rfl⟩, .inl rfl⟩ rfl fun h₄ => ?_)
        refine (Contract.wp_bind _ _ _ _).2 ((Contract.wp_attempt _ _ _).2
          (wp_heard hT h₄ rfl fun w₅ r w₆ _ _ _ h₆ hgrow => ?_))
        rw [Tally.heard_of_not rfl] at h₆
        exact hcancelled w₆ h₆ (World.signalled.mono hgrow hsig₃) hever
      refine (Contract.wp_bind _ _ _ _).2 ?_
      unfold request_runner_cancel
      split
      · refine (Contract.wp_try_except _ _ _ _).2 (wp_heard hT h₂ rfl
          fun w₃ r w₄ _ ha _ h₄ hgrow => ?_)
        cases r with
        | ok v => exact htail w₄ h₄ (World.signalled.mono hgrow hsig)
        | error e =>
            have hne : e ≠ .cancelled := by
              rintro rfl
              obtain ⟨k', hk'⟩ := (hT.answer _ _ _ _ ha).2.2 rfl
              cases hk'
            show T.contract.wp (if e = .cancelled then _ else _) _ w₄
            rw [if_neg hne]
            exact htail w₄ h₄ (World.signalled.mono hgrow hsig)
      · exact htail w₂ h₂ hsig

/-- `_run_job_with_cancellation`. -/
theorem wp_run_job (hT : T.Suits node m job_id url) (h : At T m job_id t d w₀ w) {ir : Ir}
    {shots : Int} {Q : Except Exn ExecutionResult → World Ir → Prop}
    (hok : ∀ w' k result, At T m job_id t { d with runs := d.runs + 1 } w₀ w' →
      (T.solo → k = d.runs) → (node.run k ir shots).out = .ok result → Q (.ok result) w')
    (hcancelled : ∀ w', At T m job_id t { d with runs := d.runs + 1 } w₀ w' →
      w'.signalled m job_id → T.Ever (fun x => x.values (cancel_key job_id) ≠ none) →
      Q (.error .job_cancelled) w')
    (herr : ∀ w' k e, At T m job_id t { d with runs := d.runs + 1 } w₀ w' →
      (node.run k ir shots).out = .error e → Q (.error e) w') :
    T.contract.wp (run_job_with_cancellation node m job_id ir shots) Q w := by
  unfold run_job_with_cancellation
  refine (Contract.wp_bind _ _ _ _).2 (wp_read hT h ?_)
  refine (Contract.wp_bind _ _ _ _).2 (wp_begin_call hT h fun h₁ => ?_)
  set k := w.exec.runs with hk
  have hrun : T.solo → k = d.runs := fun hs => congrArg Desk.runs (h.desk hs)
  have hdesk : ∀ f : Exec → Exec, (∀ x, (f x).runs = x.runs + 1) →
      (w.starts (.run k)).desk = d →
      ((w.starts (.run k)).set_exec f).desk =
        { d with runs := d.runs + 1 } := by
    intro f hf hd
    rw [← hd]
    simp only [World.desk, World.set_exec_self, World.set_exec_exec, hf]
  cases hplan : node.run k ir shots with
  | refuses e =>
      refine (Contract.wp_bind _ _ _ _).2 (wp_quiet hT h₁ _
        ⟨rfl, rfl, rfl, rfl, ⟨rfl, rfl, rfl⟩, .inl rfl⟩ (hdesk _ fun _ => rfl) fun h₂ => ?_)
      exact herr _ k e h₂ (by rw [hplan]; rfl)
  | runs polls out =>
      refine (Contract.wp_bind _ _ _ _).2 (wp_quiet hT h₁ _
        ⟨rfl, rfl, rfl, rfl, ⟨rfl, rfl, rfl⟩, .inl rfl⟩ (hdesk _ fun _ => rfl) fun h₂ => ?_)
      -- `finally` cancels a run that is still active, which nobody sees
      have hfin : ∀ {w' : World Ir} {r : Except Exn ExecutionResult},
          At T m job_id t { d with runs := d.runs + 1 } w₀ w' →
          (At T m job_id t { d with runs := d.runs + 1 } w₀ (w'.set_exec (·.cancel_run k)) →
            Q r (w'.set_exec (·.cancel_run k))) →
          T.contract.wp (cancel_run k) (Contract.and_finally Q r) w' :=
        fun h' hQ => wp_silent hT h' ⟨rfl, rfl, rfl, rfl, ⟨rfl, rfl, rfl⟩, .inl rfl⟩ rfl hQ
      refine (Contract.wp_try_finally _ _ _ _).2 (wp_poll hT h₂ ?_ ?_ ?_)
      · intro w' result h' hout
        exact hfin h' fun h'' => hok _ k result h'' hrun (by rw [hplan]; exact hout)
      · intro w' h' hsig hever
        exact hfin h' fun h'' => hcancelled _ h'' hsig hever
      · intro w' e h' hout
        exact hfin h' fun h'' => herr _ k e h'' (by rw [hplan]; exact hout)

/-! ## How handling ends -/

/-- The webhooks of a job whose result may have been posted in vain. -/
def at_most_result (job_id url : String) (before posts : List (Call Ir)) : Prop :=
  posts = before ∨
    ∃ result, posts = .send_result url (completed_payload job_id result) :: before

/-- How the handling of a job that stood at `t₀` ends, apart from the `XACK`. -/
inductive Ending (node : Node Ir) (T : Setting Ir) (m : Message)
    (decoded : List (String × String)) (job_id url : String) (runs : Nat) (t₀ : Tally Ir) :
    Tally Ir → Prop
  /-- The job was terminal already. -/
  | skipped (h : terminal t₀.state = true) : Ending node T m decoded job_id url runs t₀ t₀
  /-- Its cancel key was seen. -/
  | cancelled {posts : List (Call Ir)} (h : terminal t₀.state = false)
      (key : T.Ever fun w => w.values (cancel_key job_id) ≠ none)
      (hposts : posts = t₀.posts ∨ (∃ e, T.Ever fun w => Failing node m w e) ∧
        at_most_result job_id url t₀.posts posts) :
      Ending node T m decoded job_id url runs t₀
        { t₀ with state := some "cancelled", posts := posts }
  /-- The run returned `result`, and so did its webhook. -/
  | completed {k : Nat} {ir : Ir} {shots : Int} {result : ExecutionResult} {c : Call Ir}
      (h : terminal t₀.state = false)
      (key : T.Ever fun w => w.values (cancel_key job_id) = none)
      (hjob : node.parse_job decoded = .ok (ir, shots))
      (hrun : (node.run k ir shots).out = .ok result) (hk : T.solo → k = runs)
      (hc : c = .send_result url (completed_payload job_id result)) :
      Ending node T m decoded job_id url runs t₀
        { t₀ with
          state := some "completed", posts := c :: t₀.posts, returned := c :: t₀.returned }
  /-- Something raised `e`. -/
  | failed {e : Exn} {posts returned : List (Call Ir)} {c : Call Ir}
      (h : terminal t₀.state = false)
      (key : T.Ever fun w => w.values (cancel_key job_id) = none)
      (cause : T.Ever fun w => Failing node m w e)
      (hposts : at_most_result job_id url t₀.posts posts)
      (hc : c = .send_error url job_id e.text)
      (hreturned : returned = t₀.returned ∨ returned = c :: t₀.returned) :
      Ending node T m decoded job_id url runs t₀
        { t₀ with state := some "failed", posts := c :: posts, returned := returned }

/-- What the handling of a message that began in `w` has come to in `w'`. -/
structure Handled (node : Node Ir) (T : Setting Ir) (m : Message)
    (decoded : List (String × String)) (job_id url : String) (w w' : World Ir) : Prop where
  inv : T.inv w'
  log : w.log <:+ w'.log
  settled : w'.settled m job_id
  ending : T.tracked → ∃ t, Ending node T m decoded job_id url w.exec.runs
    (w.tally m job_id) t ∧ w'.tally m job_id = { t with acks := t.acks + 1 }
  desk : T.solo → w'.self.idle = true ∧ w'.self.current_job_id = none ∨
    w'.self.idle = w.self.idle ∧ w'.self.current_job_id = w.self.current_job_id

/-- The `finally` clause. -/
theorem wp_release (hT : T.Suits node m job_id url) (h : At T m job_id t d w₀ w)
    (hm : m.Carries job_id url) (hs : w.settled m job_id)
    {Q : Except Exn Unit → World Ir → Prop}
    (hQ : ∀ w', At T m job_id { t with acks := t.acks + 1 }
      { d with idle := true, current_job_id := none } w₀ w' → w.log <:+ w'.log →
      Q (.ok ()) w') :
    T.contract.wp (release m) Q w := by
  refine (Contract.wp_bind _ _ _ _).2 (wp_enter hT h fun h₁ => ?_)
  refine (Contract.wp_bind _ _ _ _).2 (wp_safe_xack hT h₁ (.inr ⟨hm, .inl hs⟩)
    fun w₂ h₂ hlog => ?_)
  refine (Contract.wp_bind _ _ _ _).2 (wp_quiet hT h₂
    { d with idle := true, current_job_id := none }
    ⟨rfl, rfl, rfl, rfl, ⟨rfl, rfl, rfl⟩, .inl rfl⟩ (fun hd => by rw [← hd]; rfl) fun h₃ => ?_)
  exact wp_enter hT h₃ fun h₄ => hQ _ h₄ hlog

/-- `except Exception as exc`: cancelled after all, or recorded as failed and reported. -/
theorem wp_report_failure (hT : T.Suits node m job_id url) (h : At T m job_id t d w₀ w)
    (hm : m.Carries job_id url) {e : Exn} (cause : Failing node m w e)
    {Q : Except Exn Unit → World Ir → Prop}
    (hcancelled : ∀ w', At T m job_id { t with state := some "cancelled" } d w₀ w' →
      T.Ever (fun x => x.values (cancel_key job_id) ≠ none) →
      T.Ever (fun x => Failing node m x e) → w'.settled m job_id → Q (.ok ()) w')
    (hfailed : ∀ w' c returned, c = .send_error url job_id e.text →
      At T m job_id
        { t with state := some "failed", posts := c :: t.posts, returned := returned } d w₀ w' →
      returned = t.returned ∨ returned = c :: t.returned →
      T.Ever (fun x => x.values (cancel_key job_id) = none) →
      T.Ever (fun x => Failing node m x e) → w'.settled m job_id → Q (.ok ()) w') :
    T.contract.wp (report_failure node m job_id url e) Q w := by
  have hever : T.Ever (fun x => Failing node m x e) := ⟨w, h.inv, cause⟩
  have hbase : At T m job_id t d w w := ⟨h.inv, List.suffix_refl _, h.tally, h.desk⟩
  refine (Contract.wp_bind _ _ _ _).2 (wp_has_cancel_signal hT hbase ?_ ?_)
  · intro w₁ h₁ hsig hkey
    refine wp_mark_job_cancelled hT h₁ hm (.inr ⟨e, cause.mono h₁.log⟩) fun w₂ h₂ hwrote hlog => ?_
    exact hcancelled w₂ ⟨h₂.inv, h.log.trans h₂.log, h₂.tally, h₂.desk⟩ hkey hever
      (.inr (.inl ⟨World.signalled.mono hlog hsig, hwrote⟩))
  · intro w₁ h₁ hkey
    refine (Contract.wp_bind _ _ _ _).2 (wp_read hT h₁ ?_)
    refine (Contract.wp_bind _ _ _ _).2 (wp_write hT h₁ hm (record_state_failed e _)
      (.inr ⟨e, cause.mono h₁.log⟩) fun w₂ w₃ h₃ ha _ _ => ?_)
    refine wp_send_error hT h₃ hm ha (cause.mono h₃.log) rfl
      fun w₄ returned h₄ hret hrep _ => ?_
    exact hfailed w₄ _ returned rfl ⟨h₄.inv, h.log.trans h₄.log, h₄.tally, h₄.desk⟩ hret
      ⟨w₁, h₁.inv, hkey⟩ hever (.inr (.inr hrep))

/-- The `try` block: either everything went well, or the cancel key was seen, or something
raised. -/
theorem wp_execute (hT : T.Suits node m job_id url) (h : At T m job_id t d w₀ w)
    {decoded : List (String × String)} (hm : m.header = .ok (decoded, job_id, url))
    (hfresh : T.tracked → T.fresh t.posts) {Q : Except Exn Unit → World Ir → Prop}
    (hok : ∀ w' k ir shots result c,
      node.parse_job decoded = .ok (ir, shots) → (node.run k ir shots).out = .ok result →
      (T.solo → k = d.runs) → c = .send_result url (completed_payload job_id result) →
      At T m job_id
        { t with state := some "completed", posts := c :: t.posts, returned := c :: t.returned }
        { d with runs := d.runs + 1 } w₀ w' →
      T.Ever (fun x => x.values (cancel_key job_id) = none) → w'.settled m job_id →
      Q (.ok ()) w')
    (hcancelled : ∀ w' st, At T m job_id { t with state := st } { d with runs := d.runs + 1 } w₀ w' →
      w'.signalled m job_id → T.Ever (fun x => x.values (cancel_key job_id) ≠ none) →
      Q (.error .job_cancelled) w')
    (herr : ∀ w' st posts runs e, at_most_result job_id url t.posts posts →
      At T m job_id { t with state := st, posts := posts } { d with runs := runs } w₀ w' →
      e.ordinary = true → Failing node m w' e → Q (.error e) w') :
    T.contract.wp (execute node m decoded job_id url) Q w := by
  have hcarries : m.Carries job_id url := ⟨decoded, hm⟩
  unfold execute
  cases hjob : node.parse_job decoded with
  | error e =>
      exact herr w t.state t.posts d.runs e (.inl rfl) h (node.parse_job_ordinary hjob)
        (.inl ⟨decoded, job_id, url, hm, .inl hjob⟩)
  | ok job =>
      obtain ⟨ir, shots⟩ := job
      show T.contract.wp (run_job_with_cancellation node m job_id ir shots >>= _) Q w
      refine (Contract.wp_bind _ _ _ _).2 (wp_run_job hT h ?_ ?_ ?_)
      · intro w₁ k result h₁ hk hout
        refine (Contract.wp_bind _ _ _ _).2 (wp_has_cancel_signal hT h₁
          (fun w₂ h₂ hsig hkey => hcancelled w₂ t.state h₂ hsig hkey) fun w₂ h₂ _ => ?_)
        refine (Contract.wp_bind _ _ _ _).2 (wp_read hT h₂ ?_)
        refine (Contract.wp_bind _ _ _ _).2 (wp_write hT h₂ hcarries (record_state_completed _)
          (.inl hfresh) fun _ w₃ h₃ _ _ _ => ?_)
        refine (Contract.wp_bind _ _ _ _).2 (wp_has_cancel_signal hT h₃
          (fun w₄ h₄ hsig hkey => hcancelled w₄ _ h₄ hsig hkey) fun w₄ h₄ hkey => ?_)
        refine (Contract.wp_bind _ _ _ _).2 (wp_send_result hT h₄ hcarries hkey
          (fun htr => ⟨hfresh htr, rfl⟩) rfl ?_ ?_)
        · intro w₅ h₅ hrep _
          refine (Contract.wp_bind _ _ _ _).2 (wp_read hT h₅ ?_)
          refine wp_silent hT h₅ (f := (·.set_self ({ · with last_job_at := some w₅.now })))
            ⟨rfl, rfl, rfl, rfl, ⟨rfl, rfl, rfl⟩, .inl rfl⟩ rfl fun h₆ => ?_
          exact hok _ k ir shots result _ hjob hout hk rfl h₆ ⟨w₄, h₄.inv, hkey⟩
            (.inr (.inr hrep))
        · intro w₅ e h₅ _ _ hord hfail
          exact herr w₅ _ _ _ e (.inr ⟨result, rfl⟩) h₅ hord hfail
      · intro w₁ h₁ hsig hkey
        exact hcancelled w₁ t.state h₁ hsig hkey
      · intro w₁ k e h₁ hout
        exact herr w₁ t.state t.posts _ e (.inl rfl) h₁
          (hT.executor.run k ir shots e hout)
          (.inl ⟨decoded, job_id, url, hm, .inr ⟨k, ir, shots, hjob, hout⟩⟩)

/-- From the `executing` record to the `finally` clause. -/
theorem wp_take_on (hT : T.Suits node m job_id url)
    (h : At T m job_id (w₀.tally m job_id) w₀.desk w₀ w)
    {decoded : List (String × String)} (hm : m.header = .ok (decoded, job_id, url))
    (hst : T.tracked → terminal (w₀.state job_id) = false)
    (hfresh : T.tracked → T.fresh (w₀.posts job_id)) :
    T.contract.wp (take_on node m decoded job_id url) (fun r w' => r = .ok () ∧
      Handled node T m decoded job_id url w₀ w') w := by
  have hcarries : m.Carries job_id url := ⟨decoded, hm⟩
  refine (Contract.wp_bind _ _ _ _).2 (wp_quiet hT h
    { w₀.desk with idle := false, current_job_id := some job_id }
    ⟨rfl, rfl, rfl, rfl, ⟨rfl, rfl, rfl⟩, .inl rfl⟩ (fun hd => by rw [← hd]; rfl) fun h₁ => ?_)
  refine (Contract.wp_bind _ _ _ _).2 (wp_read hT h₁ ?_)
  refine (Contract.wp_bind _ _ _ _).2 (wp_write hT h₁ hcarries
    (record_state_executing node m _) (.inl hfresh) fun _ w₂ h₂ _ _ _ => ?_)
  refine (Contract.wp_bind _ _ _ _).2 (wp_enter hT h₂ fun h₃ => ?_)
  -- what `finally` makes of a job whose fate is decided
  have hfin : ∀ {w' : World Ir} {d : Desk} {t : Tally Ir}, At T m job_id t d w₀ w' →
      w'.settled m job_id →
      (T.tracked → Ending node T m decoded job_id url w₀.exec.runs (w₀.tally m job_id) t) →
      T.contract.wp (release m) (Contract.and_finally (fun r w'' => r = .ok () ∧
        Handled node T m decoded job_id url w₀ w'') (.ok ())) w' := by
    intro w' d t h' hs hend
    refine wp_release hT h' hcarries hs fun w'' h'' hlog => ⟨rfl, h''.inv, h''.log,
      World.settled.mono hlog hs, fun htr => ⟨t, hend htr, h''.tally htr⟩, fun hsolo => ?_⟩
    exact .inl ⟨congrArg Desk.idle (h''.desk hsolo),
      congrArg Desk.current_job_id (h''.desk hsolo)⟩
  refine (Contract.wp_try_finally _ _ _ _).2 ((Contract.wp_try_except _ _ _ _).2
    (wp_execute hT h₃ hm hfresh ?_ ?_ ?_))
  · intro w₄ k ir shots result c hjob hrun hk hc h₄ hkey hs
    exact hfin h₄ hs fun htr => .completed (hst htr) hkey hjob hrun hk hc
  · intro w₄ st h₄ hsig hkey
    refine (Contract.wp_bind _ _ _ _).2 (wp_enter hT h₄ fun h₅ => ?_)
    refine wp_mark_job_cancelled hT h₅ hcarries (.inl hfresh) fun w₆ h₆ hwrote hlog => ?_
    exact hfin h₆ (.inr (.inl ⟨World.signalled.mono hlog hsig, hwrote⟩)) fun htr =>
      .cancelled (hst htr) hkey (.inl rfl)
  · intro w₄ st posts runs e hposts h₄ hord hfail
    obtain ⟨hne, hne'⟩ := Exn.ordinary_iff.1 hord
    have hclause : on_exception node m job_id url e = (do
        enter .handler
        report_failure node m job_id url e) := by
      cases e <;> first | rfl | contradiction
    show T.contract.wp (on_exception node m job_id url e) _ w₄
    rw [hclause]
    refine (Contract.wp_bind _ _ _ _).2 (wp_enter hT h₄ fun h₅ => ?_)
    refine wp_report_failure hT h₅ hcarries hfail ?_ ?_
    · intro w₆ h₆ hkey hcause hs
      exact hfin h₆ hs fun htr => .cancelled (hst htr) hkey (.inr ⟨⟨e, hcause⟩, hposts⟩)
    · intro w₆ c returned hc h₆ hret hkey hcause hs
      exact hfin h₆ hs fun htr => .failed (hst htr) hkey hcause hposts hc hret

/-- **Handling a message.** It returns, the message is settled and ACK-ed, and its job has
come to one of the endings. -/
theorem wp_process_message (hT : T.Suits node m job_id url) (hi : T.inv w)
    {decoded : List (String × String)} (hm : m.header = .ok (decoded, job_id, url)) :
    T.contract.wp (process_message node m) (fun r w' => r = .ok () ∧
      Handled node T m decoded job_id url w w') w := by
  have hcarries : m.Carries job_id url := ⟨decoded, hm⟩
  have hfields := m.decode_fields_of_header hm
  -- an early return: one `XACK` of a settled message
  have hearly : ∀ {w' : World Ir} {t : Tally Ir}, At T m job_id t w.desk w w' →
      w'.settled m job_id →
      (T.tracked → Ending node T m decoded job_id url w.exec.runs (w.tally m job_id) t) →
      T.contract.wp (safe_xack m) (T.contract.and_then (fun _ => (pure () : Prog Ir Unit))
        fun r w'' => r = .ok () ∧ Handled node T m decoded job_id url w w'') w' := by
    intro w' t h' hs hend
    refine wp_safe_xack hT h' (.inr ⟨hcarries, .inl hs⟩) fun w'' h'' hlog => ⟨rfl, h''.inv,
      h''.log, World.settled.mono hlog hs, fun htr => ⟨t, hend htr, h''.tally htr⟩, fun hsolo => ?_⟩
    exact .inr ⟨congrArg Desk.idle (h''.desk hsolo),
      congrArg Desk.current_job_id (h''.desk hsolo)⟩
  unfold process_message
  refine (Contract.wp_bind _ _ _ _).2 (wp_enter hT (At.start hi) fun h₁ => ?_)
  refine (Contract.wp_bind _ _ _ _).2 (wp_mark hT h₁ (.inl rfl) fun h₂ => ?_)
  simp only [hfields, hm]
  refine (Contract.wp_bind _ _ _ _).2 (wp_get_job_status hT h₂ fun st w₃ h₃ hst hfound => ?_)
  have hstate : T.tracked → st = w.state job_id := fun htr =>
    hst.trans (congrArg Tally.state (h₃.tally htr))
  simp only [Contract.and_then_ok]
  cases hterm : terminal st with
  | true =>
      rw [if_pos rfl]
      refine (Contract.wp_bind _ _ _ _).2 (hearly h₃ (.inl (hfound hterm)) fun htr => ?_)
      exact .skipped ((congrArg terminal (hstate htr)).symm.trans hterm)
  | false =>
      have hopen : T.tracked → terminal (w.state job_id) = false := fun htr =>
        (congrArg terminal (hstate htr)).symm.trans hterm
      have hfresh : T.tracked → T.fresh (w.posts job_id) := fun htr =>
        hT.fresh w htr hi (hopen htr)
      rw [if_neg Bool.false_ne_true]
      refine (Contract.wp_bind _ _ _ _).2 (wp_has_cancel_signal hT h₃ ?_ ?_)
      · intro w₄ h₄ hsig hkey
        refine (Contract.wp_bind _ _ _ _).2 (wp_mark_job_cancelled hT h₄ hcarries (.inl hfresh)
          fun w₅ h₅ hwrote hlog => ?_)
        refine (Contract.wp_bind _ _ _ _).2 (hearly h₅
          (.inr (.inl ⟨World.signalled.mono hlog hsig, hwrote⟩)) fun htr => ?_)
        exact .cancelled (hopen htr) hkey (.inl rfl)
      · intro w₄ h₄ hkey
        exact wp_take_on hT h₄ hm hopen hfresh

end CodaNode
