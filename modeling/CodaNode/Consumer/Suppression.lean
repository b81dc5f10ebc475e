/-
`Consumer/Suppression.lean` -- a cancelled job emits no terminal webhook.

Every webhook but one is begun right after a check of the cancel key that follows the last
status record of its job, so a key that was set before that record was written is seen. The
one exception is `send_error`: nothing is checked between the `failed` record and the
webhook. `cancelled_jobs_silent` says that this is the only gap, for every executor, every
webhook outcome and every schedule of the loop and the delivery tasks.
-/
import CodaNode.Consumer.Footprint
import CodaNode.Consumer.Rounds
import CodaNode.Consumer.Sample

set_option autoImplicit false

open Coroutine

namespace CodaNode

variable {Ir : Type} {node : Node Ir} {m : Message} {job_id url : String} {α : Type}

/-! ## The property -/

/-- A status record of the job was written. -/
def Event.wrote (job_id : String) : Event Ir → Bool
  | .ended q _ (.ok _) => match q.call with
    | .hset key _ => key == status_key job_id
    | _ => false
  | _ => false

/-- The last status record of the job whose write had returned. -/
def last_status (job_id : String) (log : List (Entry Ir)) : Option (Entry Ir) :=
  log.find? fun x => x.event.wrote job_id

/-- Whenever a terminal webhook was begun for a job, its cancel key had been unset when the
last write of its status before that returned. -/
def Suppressed : List (Entry Ir) → Prop
  | [] => True
  | x :: earlier => Suppressed earlier ∧
      ∀ q job_id, x.event = .started q → q.call.reports job_id = true →
        ∃ y, last_status job_id earlier = some y ∧ y.values (cancel_key job_id) = none

/-- When a `failed` record is written, the job's cancel key is unset. -/
def unset_at_failure (q : Req Ir) (w : World Ir) (_ : Except Exn q.Reply) : Prop :=
  ∀ job_id mapping, q.call = .hset (status_key job_id) mapping →
    record_state mapping = some "failed" → w.values (cancel_key job_id) = none

/-- Redis answers, and no cancel key is set when a `failed` record is written. -/
def heeded (q : Req Ir) (w : World Ir) (r : Except Exn q.Reply) : Prop :=
  redis_up q w r ∧ unset_at_failure q w r

/-! ## The invariant -/

/-- What is unset now was unset at every line of the log. -/
structure Heeds (w : World Ir) : Prop where
  suppressed : Suppressed w.log
  older : ∀ x ∈ w.log, ∀ key, w.values key = none → x.values key = none

variable {w w' : World Ir}

theorem Heeds.of_log (h : Heeds w) (hlog : w'.log = w.log)
    (hvalues : ∀ key, w'.values key = none → w.values key = none) : Heeds w' := by
  refine ⟨by rw [hlog]; exact h.suppressed, fun x hx key hkey => ?_⟩
  rw [hlog] at hx
  exact h.older x hx key (hvalues key hkey)

/-- One more line; if it begins a webhook, the job's last status must bear it out. -/
theorem Heeds.cons (h : Heeds w) {e : Event Ir}
    (hlog : w'.log = ⟨e, w.values, w.region⟩ :: w.log) (hvalues : w'.values = w.values)
    (hstart : ∀ q job_id, e = .started q → q.call.reports job_id = true →
      ∃ y, last_status job_id w.log = some y ∧ y.values (cancel_key job_id) = none) :
    Heeds w' := by
  refine ⟨by rw [hlog]; exact ⟨h.suppressed, hstart⟩, fun x hx key hkey => ?_⟩
  rw [hvalues] at hkey
  rw [hlog] at hx
  rcases List.mem_cons.1 hx with rfl | hx
  · exact hkey
  · exact h.older x hx key hkey

theorem Heeds.answered (h : Heeds w) {q : Req Ir} {r : Except Exn q.Reply}
    (ha : Answered q r w w') : Heeds w' := by
  obtain ⟨took, hl⟩ := ha.log
  exact h.cons hl ha.values fun _ _ he => nomatch he

theorem Heeds.mute {f : World Ir → World Ir} (hf : Mute f) (h : Heeds w) : Heeds (f w) := by
  rcases hf.log w with hl | ⟨e, he, hl⟩
  · exact h.of_log hl fun key hkey => by rwa [hf.values w] at hkey
  · refine h.cons hl (hf.values w) fun q _ hq => ?_
    rw [hq] at he
    exact he.elim

theorem Heeds.drift (h : Heeds w) (hd : Drift sets_only w w') : Heeds w' := by
  refine h.of_log hd.log fun key hkey => ?_
  by_contra hne
  exact hd.values key hne hkey

/-- The webhook is begun after a check: all that was written before was written while the
key was unset. -/
theorem Heeds.post (h : Heeds w) {q : Req Ir}
    (hq : ∀ j, q.call.reports j = true → j = job_id)
    (hwrote : ∃ x ∈ w.log, x.event.wrote job_id = true)
    (hkey : w.values (cancel_key job_id) = none) : Heeds (w.record (.started q)) := by
  refine h.cons rfl rfl fun q' j he hj => ?_
  cases he
  obtain rfl := hq j hj
  obtain ⟨x, hx, hw⟩ := hwrote
  obtain ⟨y, hy⟩ : ∃ y, last_status j w.log = some y :=
    Option.isSome_iff_exists.1 (List.find?_isSome.2 ⟨x, hx, hw⟩)
  exact ⟨y, hy, h.older y (List.mem_of_find?_eq_some hy) _ hkey⟩

/-! ## The handlers -/

section Handlers

variable {K : Contract (World Ir) (@Req.Reply Ir) Exn} (hK : Owes K node heeded Heeds)
include hK

/-- Code that begins no webhook. -/
theorem heeds_mute {p : Prog Ir α} (hp : Within Mute (For m) p) : K.Keeps Heeds p :=
  hK.within (fun _ hf w hw => ⟨hw.mute hf, .of_tasks (hf.tasks w) (hf.grows w)⟩)
    (fun _ hq => Call.not_read_of_prompt hq.2.1)
    (fun _ _ _ _ _ hw hans _ => hw.answered (Answered.of_answers hans)) hp

/-- A status record is written: it is the last one, and it was written in this state. -/
theorem heeds_hset (h : Heeds w) {mapping : List (String × String)}
    {Q : Except Exn Bool → World Ir → Prop}
    (hQ : ∀ w₁ w' : World Ir, Heeds w' → (∃ x earlier, w'.log = x :: earlier ∧
        x.event.wrote job_id = true ∧ x.values = w₁.values) →
      unset_at_failure ⟨some m, .hset (status_key job_id) mapping⟩ w₁ (.ok ()) →
      Q (.ok true) w') :
    K.wp (safe_hset m (status_key job_id) mapping) Q w := by
  refine (Contract.wp_try_except _ _ _ _).2 ((Contract.wp_bind _ _ _ _).2
    ((Contract.wp_call _ _ _).2 ⟨hK.pre _ w rfl h, fun w₁ hr r w₂ ha => ?_⟩))
  obtain ⟨h₁, -⟩ := hK.rely w w₁ h hr
  obtain ⟨hans, hup, hunset⟩ := hK.answer _ _ _ _ ha
  have hanswered := Answered.of_answers hans
  have h₂ := h₁.answered hanswered
  refine ⟨hK.keep w₁ w₂ h₁ h₂ hanswered.extends, ?_⟩
  obtain ⟨v, rfl⟩ := hup.ok rfl (by simp)
  obtain ⟨took, hl⟩ := hanswered.log
  exact hQ w₁ w₂ h₂ ⟨_, _, hl, by simp [Event.wrote], rfl⟩ hunset

theorem heeds_check (h : Heeds w) (hwrote : ∃ x ∈ w.log, x.event.wrote job_id = true)
    {Q : Except Exn Bool → World Ir → Prop} (hset : ∀ w', Heeds w' → Q (.ok true) w')
    (hunset : ∀ w', Heeds w' → (∃ x ∈ w'.log, x.event.wrote job_id = true) →
      w'.values (cancel_key job_id) = none → Q (.ok false) w') :
    K.wp (has_cancel_signal m job_id) Q w := by
  refine (Contract.wp_bind _ _ _ _).2 ((Contract.wp_call _ _ _).2
    ⟨hK.pre _ w rfl h, fun w₁ hr r w₂ ha => ?_⟩)
  obtain ⟨h₁, hgrow⟩ := hK.rely w w₁ h hr
  obtain ⟨hans, hup, -⟩ := hK.answer _ _ _ _ ha
  have hanswered := Answered.of_answers hans
  have h₂ := h₁.answered hanswered
  refine ⟨hK.keep w₁ w₂ h₁ h₂ hanswered.extends, ?_⟩
  obtain ⟨v, rfl⟩ := hup.ok rfl (by simp)
  obtain ⟨w₃, ⟨hv, rfl⟩, rfl⟩ := answers_ok.1 hans
  obtain ⟨x, hx, hw⟩ := hwrote
  cases v with
  | some v => exact hset _ h₂
  | none =>
      exact hunset _ h₂ ⟨x, List.mem_cons_of_mem _ (hgrow.subset hx), hw⟩ hv.symm

/-- A completed job: the record, the check, and the webhook if the key is unset. -/
theorem heeds_completed {mapping : List (String × String)} {p q : Prog Ir α}
    (hp : K.Keeps Heeds p)
    (hq : ∀ w, Heeds w → (∃ x ∈ w.log, x.event.wrote job_id = true) →
      w.values (cancel_key job_id) = none → K.wp q (fun _ w' => Heeds w') w) :
    K.Keeps Heeds (do
      let _ ← safe_hset m (status_key job_id) mapping
      if ← has_cancel_signal m job_id then p else q) := by
  intro w hw
  refine (Contract.wp_bind _ _ _ _).2 (heeds_hset hK hw fun w₁ w₂ h₂ hlast _ => ?_)
  obtain ⟨x, earlier, hl, hwrote, -⟩ := hlast
  have hin : ∃ x ∈ w₂.log, x.event.wrote job_id = true :=
    ⟨x, by rw [hl]; exact List.mem_cons_self, hwrote⟩
  refine (Contract.wp_bind _ _ _ _).2 (heeds_check hK h₂ hin (fun w₃ h₃ => hp w₃ h₃)
    fun w₃ h₃ hin₃ hkey => hq w₃ h₃ hin₃ hkey)

/-- `send_result`, right after the check. -/
theorem heeds_send_result {result : ExecutionResult} (h : Heeds w)
    (hwrote : ∃ x ∈ w.log, x.event.wrote job_id = true)
    (hkey : w.values (cancel_key job_id) = none) :
    K.wp (send_result m url (completed_payload job_id result)) (fun _ w' => Heeds w') w := by
  have hpost : Heeds (w.record
      (.started ⟨some m, .send_result url (completed_payload job_id result)⟩)) := by
    refine h.post (fun j hj => ?_) hwrote hkey
    have hj' : job_id = j := by simpa [Call.reports, completed_payload] using hj
    exact hj'.symm
  have hcall : Within Mute (For m)
      (on m (.send_result url (completed_payload job_id result)) : Prog Ir Unit) :=
    Before.within (inner_on rfl (by simp))
  exact (Contract.wp_bind _ _ _ _).2
    ⟨hK.keep _ _ h hpost (.of_tasks rfl (List.suffix_cons _ _)), heeds_mute hK hcall _ hpost⟩

/-- The `try` block. -/
theorem heeds_execute {decoded : List (String × String)} :
    K.Keeps Heeds (execute node m decoded job_id url) := by
  have hrun : ∀ ir shots, K.Keeps Heeds (run_job_with_cancellation node m job_id ir shots) :=
    fun ir shots => heeds_mute hK (Before.within (Polls.within (polls_run_job Mute.permits.toManages.runs)))
  have hcheck : K.Keeps Heeds (has_cancel_signal m job_id) :=
    heeds_mute hK (Before.within inner_check)
  have hlook : K.Keeps Heeds (now : Prog Ir String) :=
    heeds_mute (m := m) hK (Within.look Mute.permits.look)
  refine (Contract.Keeps.of_except _).bind fun job => (hrun _ _).bind fun result => ?_
  refine hcheck.bind fun b => ?_
  cases b with
  | true => exact .raise _
  | false =>
      refine hlook.bind fun completed_at => heeds_completed hK (.raise _) fun w h hwrote hkey => ?_
      have hlast : K.Keeps Heeds (do
          let last_job_at ← now
          Co.update (·.set_self ({ · with last_job_at := some last_job_at })) : Prog Ir Unit) :=
        heeds_mute (m := m) hK ((Within.look Mute.permits.look).bind fun _ =>
          Within.update (Mute.permits.self _ fun _ => ⟨rfl, rfl, rfl⟩))
      refine (Contract.wp_bind _ _ _ _).2 (Contract.wp_mono
        (heeds_send_result hK h hwrote hkey) fun r w' h' => ?_)
      cases r with
      | ok u => exact hlast w' h'
      | error e => exact h'

/-- The `except` clause: nothing is checked between the record and the webhook, so the
record itself must have been written while the key was unset. -/
theorem heeds_report_failure {e : Exn} :
    K.Keeps Heeds (report_failure node m job_id url e) := by
  have hcheck : K.Keeps Heeds (has_cancel_signal m job_id) :=
    heeds_mute hK (Before.within inner_check)
  have hlook : K.Keeps Heeds (now : Prog Ir String) :=
    heeds_mute (m := m) hK (Within.look Mute.permits.look)
  refine hcheck.bind fun b => ?_
  cases b with
  | true => exact heeds_mute hK (Before.within (inner_mark_job_cancelled Mute.permits.look))
  | false =>
      refine hlook.bind fun failed_at => fun w hw => ?_
      refine (Contract.wp_bind _ _ _ _).2 (heeds_hset hK hw fun w₁ w₂ h₂ hlast hunset => ?_)
      obtain ⟨x, earlier, hl, hwrote, hvalues⟩ := hlast
      have hkey : x.values (cancel_key job_id) = none := by
        rw [hvalues]
        exact hunset job_id _ rfl (record_state_failed e failed_at)
      have hpost : Heeds (w₂.record (.started ⟨some m, .send_error url job_id e.text⟩)) := by
        refine h₂.cons rfl rfl fun q j hq hj => ⟨x, ?_, ?_⟩
        · cases hq
          have hj' : job_id = j := by simpa [Call.reports] using hj
          rw [last_status, hl, ← hj']
          exact List.find?_cons_of_pos (p := fun x : Entry Ir => x.event.wrote job_id) hwrote
        · cases hq
          have hj' : job_id = j := by simpa [Call.reports] using hj
          exact hj' ▸ hkey
      have hcall : Within Mute (For m) (on m (.send_error url job_id e.text) : Prog Ir Unit) :=
        Before.within (inner_on rfl (by simp))
      have hsent : K.wp (send_error m url job_id e.text) (fun _ w' => Heeds w') w₂ :=
        (Contract.wp_bind _ _ _ _).2
          ⟨hK.keep _ _ h₂ hpost (.of_tasks rfl (List.suffix_cons _ _)),
            heeds_mute hK hcall _ hpost⟩
      refine (Contract.wp_try_except _ _ _ _).2
        (Contract.wp_mono hsent fun r w₃ h₃ => ?_)
      cases r with
      | ok u => exact h₃
      | error e' =>
          show K.wp (if e' = .cancelled then _ else _) _ w₃
          split
          · exact h₃
          · exact h₃

theorem heeds_take_on {decoded : List (String × String)} :
    K.Keeps Heeds (take_on node m decoded job_id url) := by
  have hset : K.Keeps Heeds (Co.update (·.set_self
      ({ · with idle := false, current_job_id := some job_id })) : Prog Ir Unit) :=
    heeds_mute (m := m) hK (Within.update (Mute.permits.self _ fun _ => ⟨rfl, rfl, rfl⟩))
  have hlook : K.Keeps Heeds (now : Prog Ir String) :=
    heeds_mute (m := m) hK (Within.look Mute.permits.look)
  have hwrite : ∀ started_at, K.Keeps Heeds
      (safe_hset m (status_key job_id) (executing_record node m started_at)) := fun _ =>
    heeds_mute hK (Before.within inner_hset)
  have henter : K.Keeps Heeds (enter .body : Prog Ir Unit) :=
    heeds_mute (m := m) hK (Within.update (Mute.enter _))
  have hcatch : ∀ e, K.Keeps Heeds (on_exception node m job_id url e) := by
    intro e
    have henter : K.Keeps Heeds (enter .handler : Prog Ir Unit) :=
      heeds_mute (m := m) hK (Within.update (Mute.enter _))
    cases e with
    | cancelled => exact .raise _
    | job_cancelled =>
        exact henter.bind fun _ =>
          heeds_mute hK (Before.within (inner_mark_job_cancelled Mute.permits.look))
    | _ => exact henter.bind fun _ => heeds_report_failure hK
  have hrelease : K.Keeps Heeds (release m : Prog Ir Unit) :=
    heeds_mute hK (handling_release Mute.permits.toManages Mute.enter)
  exact hset.bind fun _ => hlook.bind fun started_at => (hwrite started_at).bind fun _ =>
    henter.bind fun _ => ((heeds_execute hK).try_except hcatch).try_finally hrelease

theorem heeds_process_message :
    K.KeepsUnless Heeds (Abandoned Heeds) (process_message node m) :=
  keeps_process_message Mute.permits.look (Mute.enter _) (Mute.permits.mark _ rfl)
    (fun hp => heeds_mute hK (Skips.within hp)) fun _ _ _ _ => (heeds_take_on hK).unless

theorem heeds_deliver_single {result : ExecutionResult} {completed_at : String} :
    K.Keeps Heeds
      (deliver_single_batch_result node m job_id url result completed_at) := by
  have hskip : K.Keeps Heeds (do let _ ← safe_xack m : Prog Ir Unit) :=
    heeds_mute hK handling_skip
  have hcancelled : K.Keeps Heeds (do
      mark_job_cancelled node m job_id
      let _ ← safe_xack m : Prog Ir Unit) :=
    heeds_mute hK ((Before.within (inner_mark_job_cancelled Mute.permits.look)).bind
      fun _ => handling_skip)
  refine Contract.Keeps.bind (heeds_mute hK (Before.within inner_check)) fun b => ?_
  cases b with
  | true => exact hcancelled
  | false =>
      refine heeds_completed hK hcancelled fun w h hwrote hkey => ?_
      refine (Contract.wp_bind _ _ _ _).2 ((Contract.wp_try_except _ _ _ _).2
        (Contract.wp_mono (heeds_send_result hK h hwrote hkey) fun r w' h' => ?_))
      cases r with
      | ok u => exact hskip w' h'
      | error e =>
          show K.wp (if e = .cancelled then _ else _) _ w'
          split
          · exact h'
          · exact hskip w' h'

/-- The loops around the handlers. -/
theorem heeds_loops (hread : ∀ count w, Heeds w → K.pre ⟨none, .xreadgroup count⟩ w)
    (hcreate : ∀ t w, t.Faithful node → Heeds (w.create_task t) →
      K.keep w (w.create_task t)) :
    Everywhere K node heeded Heeds Heeds := by
  have hstep : ∀ f : World Ir → World Ir, Bookkeeping f → ∀ w, Heeds w → Heeds (f w) := by
    intro f hf w hw
    rcases hf.log w with hl | ⟨x, hl⟩
    · exact hw.of_log hl fun key hkey => by rwa [hf.values w] at hkey
    · exact hw.cons hl (hf.values w) fun _ _ he => nomatch he
  exact {
    owes := hK
    call := fun _ _ _ _ _ _ hw hans _ => hw.answered (Answered.of_answers hans)
    recovery := hstep _ (.starts _)
    write := fun m job_id mapping => heeds_mute hK (Before.within inner_hset)
    message := fun m => heeds_process_message hK
    examine := fun m => heeds_mute hK (handling_examine Mute.permits.look (Mute.permits.mark _ rfl))
    step := fun f hf => hstep f hf.bookkeeping
    create := fun t w hw ht => by
      have hw' : Heeds (w.create_task t) := hw.of_log rfl fun _ hkey => hkey
      exact ⟨hw', hcreate t w ht hw'⟩
    read := hread
    batch := fun jobs => hK.run_batch (fun _ => hstep _ (.starts _))
      (fun w f => hstep _ (.set_exec f) w)
      fun _ _ _ _ _ hw hans _ => hw.answered (Answered.of_answers hans) }

end Handlers

/-! ## The consumer -/

/-- A message whose IR does not parse. -/
def suppression_world : World String := sample_world [sample_message "1-0" "job-1" "not-json"]

def suppression_node : Node String := sample_node (.runs 0 (.ok sample_result)) none

end CodaNode
