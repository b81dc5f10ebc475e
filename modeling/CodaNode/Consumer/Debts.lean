/-
`Consumer/Debts.lean` -- the jobs that have been begun and not ACK-ed.

A job is owed from the `HSET` that marks it as executing to the `XACK` of its message. While
the idle event is set, nothing is owed but jobs of a batch that fell back: the single path
sets the event at the end of each of them, however many of the others are left.
-/
import CodaNode.Consumer.FleetJobs

set_option autoImplicit false

open Coroutine

namespace CodaNode

variable {Ir : Type} {node : Node Ir} {w w' : World Ir} {m : Message} {i : Nat}
variable {t : TaskSpec Ir} {ids : List String} {id : String}
variable {cloud : (String → Option String) → (String → Option String) → Prop}

/-! ## What is owed -/

/-- The message whose job is marked as executing. -/
def Event.begun : Event Ir → Option Message
  | .ended q _ (.ok _) => if q.call.begins_job then q.msg else none
  | _ => none

/-- The message that is ACK-ed. -/
def Event.acked : Event Ir → Option String
  | .ended ⟨_, .xack id⟩ _ (.ok _) => some id
  | _ => none

/-- Every job that has been marked as executing has had its message ACK-ed since. -/
def AllAcked (log : List (Entry Ir)) : Prop :=
  ∀ later x earlier m, log = later ++ x :: earlier → x.event.begun = some m →
    ∃ y ∈ later, y.event.acked = some m.id

/-- The messages whose jobs have been marked as executing, and which have not been ACK-ed
since. -/
def owing : List (Entry Ir) → List String
  | [] => []
  | x :: earlier =>
    (x.event.begun.map Message.id).toList ++ (owing earlier).filter (x.event.acked ≠ some ·)

/-- What was owed when the last batch fell back, and has not been ACK-ed since. -/
def rerun : List (Entry Ir) → List String
  | [] => []
  | x :: earlier =>
    if x.event.falls_back then owing earlier
    else (rerun earlier).filter (x.event.acked ≠ some ·)

/-- Nothing is owed but `ids` and what the last fallback has left. -/
def OwedOnly (ids : List String) (log : List (Entry Ir)) : Prop :=
  ∀ id ∈ owing log, id ∈ ids ∨ id ∈ rerun log

section Log

variable {log new old : List (Entry Ir)} {x : Entry Ir}

theorem mem_owing_cons : id ∈ owing (x :: log) ↔
    (∃ m, x.event.begun = some m ∧ m.id = id) ∨ id ∈ owing log ∧ x.event.acked ≠ some id := by
  simp [owing]

theorem mem_rerun_cons (hf : x.event.falls_back = false) :
    id ∈ rerun (x :: log) ↔ id ∈ rerun log ∧ x.event.acked ≠ some id := by
  simp [rerun, hf]

theorem rerun_fallen (hf : x.event.falls_back = true) : rerun (x :: log) = owing log := by
  rw [rerun, if_pos hf]

theorem Event.begun_of_quiet {e : Event Ir} (h : e.begins_job = false) : e.begun = none := by
  cases e with
  | ended q took r =>
      cases r with
      | ok v => exact if_neg (by rw [show q.call.begins_job = false from h]; decide)
      | error e => rfl
  | _ => rfl

theorem Event.idle_of_falls_back {e : Event Ir} (h : e.falls_back = true) :
    e.begun = none ∧ e.acked = none := by
  cases e with
  | mark x => exact ⟨rfl, rfl⟩
  | _ => cases h

/-- What the last fallback has left is owed. -/
theorem owing_of_rerun (h : id ∈ rerun log) : id ∈ owing log := by
  induction log with
  | nil => exact h
  | cons x log ih =>
      rw [mem_owing_cons]
      by_cases hf : x.event.falls_back = true
      · rw [rerun_fallen hf] at h
        rw [(Event.idle_of_falls_back hf).2]
        exact .inr ⟨h, by simp⟩
      · rw [mem_rerun_cons (by simpa using hf)] at h
        exact .inr ⟨ih h.1, h.2⟩

/-- What has come to be owed lately is owed. -/
theorem owing_append (h : id ∈ owing new) : id ∈ owing (new ++ old) := by
  induction new with
  | nil => cases h
  | cons x new ih =>
      rw [List.cons_append]
      rw [mem_owing_cons] at h ⊢
      exact h.imp_right fun h => ⟨ih h.1, h.2⟩

theorem allAcked_iff : AllAcked log ↔ owing log = [] := by
  have hmem : ∀ id, id ∈ owing log ↔ ∃ later x earlier m, log = later ++ x :: earlier ∧
      x.event.begun = some m ∧ m.id = id ∧ ∀ y ∈ later, y.event.acked ≠ some id := by
    intro id
    induction log with
    | nil => simp [owing]
    | cons x log ih =>
        rw [mem_owing_cons, ih]
        constructor
        · rintro (⟨m, hm, rfl⟩ | ⟨⟨later, y, earlier, m, rfl, hm, rfl, hlater⟩, hx⟩)
          · exact ⟨[], x, log, m, rfl, hm, rfl, fun y hy => by cases hy⟩
          · exact ⟨x :: later, y, earlier, m, rfl, hm, rfl,
              List.forall_mem_cons.2 ⟨hx, hlater⟩⟩
        · rintro ⟨later, y, earlier, m, hlog, hm, rfl, hlater⟩
          cases later with
          | nil =>
              cases hlog
              exact .inl ⟨m, hm, rfl⟩
          | cons z later =>
              cases hlog
              obtain ⟨hz, hlater⟩ := List.forall_mem_cons.1 hlater
              exact .inr ⟨⟨later, y, earlier, m, rfl, hm, rfl, hlater⟩, hz⟩
  constructor
  · intro h
    refine List.eq_nil_iff_forall_not_mem.2 fun id hid => ?_
    obtain ⟨later, x, earlier, m, hlog, hm, rfl, hlater⟩ := (hmem id).1 hid
    obtain ⟨y, hy, hack⟩ := h later x earlier m hlog hm
    exact hlater y hy hack
  · intro h later x earlier m hlog hm
    by_contra hno
    push Not at hno
    have hid := (hmem m.id).2 ⟨later, x, earlier, m, hlog, hm, rfl, hno⟩
    rw [h] at hid
    cases hid

namespace OwedOnly

theorem cons (h : OwedOnly ids log) (hf : x.event.falls_back = false)
    (hb : ∀ m, x.event.begun = some m → m.id ∈ ids) : OwedOnly ids (x :: log) := by
  intro id hid
  rw [mem_rerun_cons hf]
  rcases mem_owing_cons.1 hid with ⟨m, hm, rfl⟩ | ⟨hid, hx⟩
  · exact .inl (hb m hm)
  · exact (h id hid).imp_right fun hr => ⟨hr, hx⟩

/-- A line that neither begins a job nor falls back. -/
theorem quiet {log' : List (Entry Ir)} (h : OwedOnly ids log) (hl : log' = log ∨ ∃ x : Entry Ir,
    x.event.falls_back = false ∧ x.event.begins_job = false ∧ log' = x :: log) :
    OwedOnly ids log' := by
  rcases hl with rfl | ⟨x, hf, hb, rfl⟩
  · exact h
  · refine h.cons hf fun m hm => ?_
    rw [Event.begun_of_quiet hb] at hm
    cases hm

theorem acked (h : OwedOnly (id :: ids) log) (hf : x.event.falls_back = false)
    (hb : x.event.begins_job = false) (hx : x.event.acked = some id) : OwedOnly ids (x :: log) := by
  intro id' hid
  have hnone := Event.begun_of_quiet hb
  rw [mem_rerun_cons hf]
  rcases mem_owing_cons.1 hid with ⟨m, hm, -⟩ | ⟨hid, hne⟩
  · rw [hnone] at hm
    cases hm
  · rcases h id' hid with hin | hr
    · rcases List.mem_cons.1 hin with rfl | hin
      · exact absurd hx hne
      · exact .inl hin
    · exact .inr ⟨hr, hne⟩

/-- A batch falls back. -/
theorem fallen (hf : x.event.falls_back = true) : OwedOnly ids (x :: log) := by
  intro id hid
  rw [rerun_fallen hf]
  rcases mem_owing_cons.1 hid with ⟨m, hm, -⟩ | ⟨hid, -⟩
  · rw [(Event.idle_of_falls_back hf).1] at hm
    cases hm
  · exact .inr hid

theorem mono {ids' : List String} (h : OwedOnly ids log) (hsub : ∀ id ∈ ids, id ∈ ids') :
    OwedOnly ids' log := fun id hid => (h id hid).imp_left (hsub id)

/-- Whatever has happened since then: what is owed has come to be owed lately, or the last
fallback has left it. -/
theorem append (h : OwedOnly [] old) : ∀ id ∈ owing (new ++ old),
    id ∈ owing new ∨ id ∈ rerun (new ++ old) := by
  -- by induction on what has happened since
  induction new with
  | nil => exact fun id hid => (h id hid).imp_left fun h => by cases h
  | cons x new ih =>
      intro id hid
      rw [List.cons_append] at hid ⊢
      rw [mem_owing_cons] at hid ⊢
      rcases hid with hid | ⟨hid, hx⟩
      · exact .inl (.inl hid)
      · by_cases hf : x.event.falls_back = true
        · rw [rerun_fallen hf]
          exact .inr hid
        · rw [mem_rerun_cons (by simpa using hf)]
          exact (ih id hid).imp (fun h => .inr ⟨h, hx⟩) fun h => ⟨h, hx⟩

end OwedOnly

/-- Everything is ACK-ed if what the last fallback has left is, and what has been begun since
a moment at which nothing else was owed. -/
theorem allAcked_append_iff (h : OwedOnly [] old) :
    AllAcked (new ++ old) ↔ rerun (new ++ old) = [] ∧ AllAcked new := by
  rw [allAcked_iff, allAcked_iff]
  constructor
  · intro hall
    refine ⟨List.eq_nil_iff_forall_not_mem.2 fun id hid => ?_,
      List.eq_nil_iff_forall_not_mem.2 fun id hid => ?_⟩
    · have hid := owing_of_rerun hid
      rw [hall] at hid
      cases hid
    · have hid : id ∈ owing (_ ++ old) := owing_append hid
      rw [hall] at hid
      cases hid
  · rintro ⟨hrerun, hnew⟩
    refine List.eq_nil_iff_forall_not_mem.2 fun id hid => ?_
    rcases h.append id hid with hid | hid
    · rw [hnew] at hid
      cases hid
    · rw [hrerun] at hid
      cases hid

end Log

/-! ## The agreement -/

/-- Nothing is owed but what the last fallback has left. -/
def DebtFree (w : World Ir) : Prop := OwedOnly [] w.log

/-- The message of a task that delivers one job has been ACK-ed. -/
def TaskSpec.Paid (log : List (Entry Ir)) : TaskSpec Ir → Prop
  | .deliver_single_batch_result m _ _ _ _ => m.id ∉ owing log
  | .deliver_batch_results _ _ => True

/-- The idle event tells that nothing is owed; a delivery owes no more than its batch, less
what its tasks have paid. -/
structure Solvent (w : World Ir) : Prop where
  succeeded : Succeeded w
  idle : w.self.idle = true → DebtFree w
  live : ∀ i parsed results, w.Live i (.deliver_batch_results parsed results) →
    OwedOnly (parsed.map (·.msg.id)) w.log ∧
      ∀ j u, i < j → w.tasks[j]? = some (u, some (.ok ())) → u.Paid w.log

/-- What the deliveries leave to the loop: less is owed, and in the end nothing. -/
structure Repays (w w' : World Ir) : Prop where
  still : w.Over → w'.Over ∧ w'.log = w.log ∧ w'.self.idle = w.self.idle
  clear : DebtFree w → DebtFree w'
  on : w.Delivering → w'.Delivering ∨ DebtFree w'

/-- Nothing is owed but what the loop has in hand and what a delivery will pay. -/
def debtor (Ir : Type) : Fleet Ir where
  inv := Solvent
  away := Repays
  ended t r w := r ≠ .error .cancelled ∧ (t.is_batch = false → r = .ok ()) ∧ t.Paid w.log
  rest := DebtFree
  busy w := w.Delivering ∨ DebtFree w

/-- The idle event is cleared, and nothing is owed but `ids`. -/
def Taken (ids : List String) (w : World Ir) : Prop := w.self.idle = false ∧ OwedOnly ids w.log

/-- What the debtor knows while jobs are in hand. -/
def debtor_stages (Ir : Type) : Stages Ir where
  taken m := Taken [m.id]
  begun m := Taken [m.id]
  marking parsed _ := Taken (parsed.map (·.msg.id))

theorem Repays.trans {w₁ w₂ w₃ : World Ir} (h : Repays w₁ w₂) (h' : Repays w₂ w₃) :
    Repays w₁ w₃ where
  still hover := by
    obtain ⟨hover₂, hlog, hidle⟩ := h.still hover
    obtain ⟨hover₃, hlog', hidle'⟩ := h'.still hover₂
    exact ⟨hover₃, hlog'.trans hlog, hidle'.trans hidle⟩
  clear hw := h'.clear (h.clear hw)
  on hw := (h.on hw).elim h'.on fun hc => .inr (h'.clear hc)

theorem TaskSpec.Paid.quiet {log log' : List (Entry Ir)} (h : t.Paid log)
    (hl : log' = log ∨ ∃ x : Entry Ir, x.event.falls_back = false ∧
      x.event.begins_job = false ∧ log' = x :: log) : t.Paid log' := by
  cases t with
  | deliver_batch_results parsed results => trivial
  | deliver_single_batch_result m job_id url result completed_at =>
      rcases hl with rfl | ⟨x, -, hb, rfl⟩
      · exact h
      · intro hid
        rcases mem_owing_cons.1 hid with ⟨m', hm, -⟩ | ⟨hid, -⟩
        · rw [Event.begun_of_quiet hb] at hm
          cases hm
        · exact h hid

namespace Solvent

/-- With every task over, the deliveries owe nothing. -/
theorem of_over (hs : Succeeded w) (hover : w.Over) (hidle : w.self.idle = true → DebtFree w) :
    Solvent w :=
  ⟨hs, hidle, fun i _ _ hlive => absurd hlive (hover i _)⟩

/-- A line that neither begins a job nor falls back. -/
theorem quiet (h : Solvent w) (htasks : w'.tasks = w.tasks)
    (hidle : w'.self.idle = true → w.self.idle = true ∨ DebtFree w)
    (hl : w'.log = w.log ∨ ∃ x : Entry Ir, x.event.falls_back = false ∧
      x.event.begins_job = false ∧ w'.log = x :: w.log) : Solvent w' := by
  refine ⟨h.succeeded.of_tasks htasks, fun hi => ?_, fun i parsed results hlive => ?_⟩
  · have hclear : DebtFree w := (hidle hi).elim h.idle fun hc => hc
    exact OwedOnly.quiet hclear hl
  · rw [World.Live, htasks] at hlive
    obtain ⟨howed, hpaid⟩ := h.live i parsed results hlive
    refine ⟨howed.quiet hl, fun j u hj hu => ?_⟩
    rw [htasks] at hu
    exact (hpaid j u hj hu).quiet hl

theorem mild (h : Solvent w) (hm : Mild w w') : Solvent w' :=
  h.quiet hm.tasks (fun hi => .inl (hm.idle ▸ hi)) hm.log

end Solvent

/-- A line of a task. -/
theorem Mild.repays (hm : Mild w w') (hlive : w.Live i t) : Repays w w' where
  still hover := absurd hlive (hover i t)
  clear hw := OwedOnly.quiet hw hm.log
  on hw := .inl ((World.Delivering.of_tasks hm.tasks).2 hw)

theorem debtor_patient : (debtor Ir).Patient where
  inv _ _ hp h := h.quiet hp.tasks (fun hi => .inl (hp.idle ▸ hi)) hp.quiet
  step_rest _ _ hp h := OwedOnly.quiet h hp.quiet
  step_busy w w' hp h := by
    refine h.imp (fun hd => ?_) fun hc => OwedOnly.quiet hc hp.quiet
    exact (World.Delivering.of_tasks hp.tasks).2 hd
  rest_aside _ _ ha _ h := ha.away.clear h
  busy_aside _ _ ha h := h.elim ha.away.on fun hc => .inr (ha.away.clear hc)
  settled _ _ hover h := h.resolve_left hover.not_delivering

theorem Taken.aside (ha : (debtor Ir).Aside w w') (hover : w.Over) (h : Taken ids w) :
    Taken ids w' := by
  obtain ⟨-, hlog, hidle⟩ := ha.away.still hover
  refine ⟨hidle.trans h.1, ?_⟩
  rw [hlog]
  exact h.2

theorem Taken.answered {q : Req Ir} {r : Except Exn q.Reply} (h : Taken ids w)
    (ha : Answered q r w w') (hq : ∀ m, q.msg = some m → m.id ∈ ids) : Taken ids w' := by
  obtain ⟨took, hl⟩ := ha.log
  refine ⟨by rw [ha.self]; exact h.1, ?_⟩
  rw [hl]
  refine h.2.cons rfl fun m hm => hq m ?_
  cases r with
  | error e => cases hm
  | ok v =>
      by_cases hb : q.call.begins_job = true
      · rwa [Event.begun, if_pos hb] at hm
      · rw [Event.begun, if_neg hb] at hm
        cases hm

theorem Taken.mild (h : Taken ids w) (hm : Mild w w') : Taken ids w' :=
  ⟨hm.idle.trans h.1, h.2.quiet hm.log⟩

/-- While the loop is alone with jobs in hand. -/
theorem Taken.solvent (h : Taken ids w) (hs : Succeeded w) (hover : w.Over) : Solvent w := by
  refine .of_over hs hover fun hi => ?_
  rw [h.1] at hi
  cases hi

theorem debtor_staged : (debtor Ir).Staged (debtor_stages Ir) where
  patient := debtor_patient
  rest_mild w w' hm h := ⟨h.good.inv.mild hm, OwedOnly.quiet h.holds hm.log⟩
  take m job_id w h := by
    have htaken : Taken [m.id]
        (w.set_self ({ · with idle := false, current_job_id := some job_id })) :=
      ⟨rfl, OwedOnly.mono h.holds fun _ hid => by cases hid⟩
    exact ⟨htaken.solvent h.good.inv.succeeded h.quiet, htaken⟩
  taken_aside _ _ _ ha hover h := h.aside ha hover
  begin_job m job_id mapping w w' hstate h ha := by
    have htaken := h.holds.answered ha fun m' hm => by cases hm; exact List.mem_singleton_self _
    exact ⟨htaken.solvent (h.good.inv.succeeded.of_tasks ha.tasks) (h.quiet.of_tasks ha.tasks),
      htaken⟩
  begun_aside _ _ _ ha hover h := h.aside ha hover
  begun_mild _ _ _ hm h := ⟨h.good.inv.mild hm, h.holds.mild hm⟩
  begun_answer m q r w w' hq ha h := by
    have htaken := h.holds.answered ha fun m' hm => by
      rw [hq.1] at hm
      cases hm
      exact List.mem_singleton_self _
    exact ⟨htaken.solvent (h.good.inv.succeeded.of_tasks ha.tasks) (h.quiet.of_tasks ha.tasks),
      htaken⟩
  release m w w' h ha := by
    obtain ⟨took, hl⟩ := ha.log
    have hclear : OwedOnly [] w'.log := by
      rw [hl]
      exact h.holds.2.acked rfl rfl rfl
    exact ⟨.of_over (h.good.inv.succeeded.of_tasks ha.tasks) (h.quiet.of_tasks ha.tasks)
      fun _ => hclear, hclear⟩
  clear parsed w _ h := by
    have htaken : Taken (parsed.map (·.msg.id)) (w.set_self ({ · with idle := false })) :=
      ⟨rfl, OwedOnly.mono h.holds fun _ hid => by cases hid⟩
    exact ⟨htaken.solvent h.good.inv.succeeded h.quiet, htaken⟩
  marking_aside _ _ _ _ ha hover h := h.aside ha hover
  mark parsed job todo mapping w w' hjob _ h ha := by
    have htaken := h.holds.answered ha fun m' hm => by
      cases hm
      exact List.mem_map_of_mem (f := fun job : Parsed Ir => job.msg.id) hjob
    exact ⟨htaken.solvent (h.good.inv.succeeded.of_tasks ha.tasks) (h.quiet.of_tasks ha.tasks),
      htaken⟩
  marking_mild _ _ _ hm h := ⟨h.good.inv.mild hm, h.holds.mild hm⟩
  fall_back parsed ms w h := by
    have hclear : OwedOnly [] (w.record (.mark (.falling_back ms))).log := OwedOnly.fallen rfl
    exact ⟨.of_over h.good.inv.succeeded h.quiet fun _ => hclear, hclear⟩
  launch parsed results w hlen h := by
    have hmatched : (TaskSpec.deliver_batch_results parsed results).matched = true := by
      simp [TaskSpec.matched, hlen]
    refine ⟨⟨h.good.inv.succeeded.create hmatched, fun hi => ?_, fun i parsed' results' hlive =>
      ⟨?_, fun j u hj hu => ?_⟩⟩, .inl (World.delivering_launch rfl)⟩
    · rw [World.create_task_self, h.holds.1] at hi
      cases hi
    all_goals
      have hi : i = w.tasks.length ∧
          TaskSpec.deliver_batch_results parsed' results' = .deliver_batch_results parsed results := by
        rw [World.Live, World.create_task_tasks] at hlive
        rcases Nat.lt_or_ge i w.tasks.length with hlt | hge
        · rw [List.getElem?_append_left hlt] at hlive
          exact absurd hlive (h.quiet i _)
        · rw [List.getElem?_append_right hge] at hlive
          have hlt := (List.getElem?_eq_some_iff.1 hlive).1
          rw [List.length_singleton] at hlt
          have hi : i = w.tasks.length := by omega
          rw [hi, Nat.sub_self] at hlive
          cases hlive
          exact ⟨hi, rfl⟩
      obtain ⟨rfl, hspec⟩ := hi
    · cases hspec
      exact h.holds.2
    · have hlt := (List.getElem?_eq_some_iff.1 hu).1
      rw [World.create_task_tasks, List.length_append, List.length_singleton] at hlt
      omega

/-! ## The deliveries -/

/-- A job that has been delivered has been ACK-ed. -/
theorem debtor_pays {job_id url completed_at : String} {result : ExecutionResult}
    {K : Contract (World Ir) (@Req.Reply Ir) Exn}
    (hK : ∀ q w r w', K.answer q w r w' → answers node q w r w' ∧ undisturbed q w r) :
    K.lax.wp (task_body node (.deliver_single_batch_result m job_id url result completed_at))
      (fun r w' => r = .ok () → m.id ∉ owing w'.log) w := by
  have herr : ∀ (e : Exn) (w' : World Ir), (Except.error e : Except Exn Unit) = .ok () →
      m.id ∉ owing w'.log := fun _ _ h => by cases h
  have hxack : ∀ w₀ : World Ir, K.lax.wp (do let _ ← safe_xack m : Prog Ir Unit)
      (fun r w' => r = .ok () → m.id ∉ owing w'.log) w₀ := by
    intro w₀
    refine (Contract.wp_bind _ _ _ _).2 ((Contract.wp_try_except _ _ _ _).2
      ((Contract.wp_bind _ _ _ _).2 ((Contract.wp_call _ _ _).2
        ⟨trivial, fun w₁ _ r w₂ ha => ⟨trivial, ?_⟩⟩)))
    obtain ⟨hans, hall⟩ := hK _ _ _ _ ha
    obtain ⟨v, rfl⟩ := hall.1.ok rfl (by simp)
    obtain ⟨took, hl⟩ := (Answered.of_answers hans).log
    intro _ hid
    rw [hl] at hid
    rcases mem_owing_cons.1 hid with ⟨m', hm, -⟩ | ⟨-, hne⟩
    · cases hm
    · exact hne rfl
  have hcancelled : ∀ w₀ : World Ir, K.lax.wp (do
      mark_job_cancelled node m job_id
      let _ ← safe_xack m : Prog Ir Unit)
      (fun r w' => r = .ok () → m.id ∉ owing w'.log) w₀ := fun _ =>
    Contract.lax_bind (fun _ => hxack) herr
  refine Contract.lax_bind (fun _ _ => Contract.lax_bind (fun b _ => ?_) herr) herr
  cases b with
  | true => exact hcancelled _
  | false =>
      refine Contract.lax_bind (fun _ _ => Contract.lax_bind (fun b' _ => ?_) herr) herr
      cases b' with
      | true => exact hcancelled _
      | false => exact Contract.lax_bind (fun _ => hxack) herr

theorem debtor_ends {Q : Except Exn Unit → World Ir → Prop}
    (h : ((debtor Ir).task node cloud undisturbed i t).wp (task_body node t) Q w) :
    ((debtor Ir).task node cloud undisturbed i t).wp (task_body node t)
      (fun r w' => Q r w' ∧ (debtor Ir).ended t r w') w := by
  have hends := Fleet.task_ends h
  cases t with
  | deliver_batch_results parsed results =>
      exact Contract.wp_mono hends fun r w' hr => ⟨hr.1, hr.2.1, hr.2.2, trivial⟩
  | deliver_single_batch_result m job_id url result completed_at =>
      refine Contract.wp_mono (Contract.wp_and_lax hends (debtor_pays fun _ _ _ _ ha => ha)) ?_
      rintro r w' ⟨⟨hQ, hc, hok⟩, hpaid⟩
      exact ⟨hQ, hc, hok, hpaid (hok rfl)⟩

theorem debtor_carries : (debtor Ir).Carries node undisturbed where
  refl w := ⟨fun hover => ⟨hover, rfl, rfl⟩, fun h => h, .inl⟩
  post q i t w h := by
    have hm := (Idling.post q).mild w
    exact ⟨h.1.inv.mild hm, hm.repays h.2⟩
  create u i t w hu h := by
    have hnew : (w.create_task u).tasks = w.tasks ++ [u].map fun u => (u, none) := rfl
    have hold : ∀ {j : Nat} {v : TaskSpec Ir} {o : Option (Except Exn Unit)},
        (w.create_task u).tasks[j]? = some (v, o) → v.is_batch = true ∨ o ≠ none →
        w.tasks[j]? = some (v, o) := by
      intro j v o hj hv
      rcases Nat.lt_or_ge j w.tasks.length with hlt | hge
      · rwa [get_of_spawned hnew hlt] at hj
      · obtain ⟨hin, ho⟩ := new_of_spawned hnew hge hj
        have hvu : v = u := List.mem_singleton.1 hin
        rw [hvu, hu] at hv
        exact absurd ho (hv.resolve_left (by simp))
    refine ⟨⟨h.1.inv.succeeded.create (TaskSpec.matched_of_single hu), h.1.inv.idle,
      fun k parsed results hlive => ?_⟩, fun hover => absurd h.2 (hover i t), fun hc => hc,
      fun hd => .inl ((World.delivering_create hu).2 hd)⟩
    obtain ⟨howed, hpaid⟩ := h.1.inv.live k parsed results (hold hlive (.inl rfl))
    exact ⟨howed, fun j v hj hv => hpaid j v hj (hold hv (.inr (by simp)))⟩
  last_job_at s i t w h := by
    have hm : Mild w (w.set_self ({ · with last_job_at := some s })) := ⟨rfl, rfl, rfl, rfl, .inl rfl⟩
    exact ⟨h.1.inv.mild hm, hm.repays h.2⟩
  idle i parsed results r w h hr := by
    have hclear : DebtFree w := by
      cases r with
      | error e =>
          -- a delivery that is left alone does not fail
          rcases hr.fails e rfl with ⟨rfl, ts, w₀, hallow⟩ | hne | ⟨j, hj⟩
          · obtain ⟨k, hk⟩ := hallow.2 rfl
            cases hk
          · have hm := (h.1.inv.succeeded _ (List.mem_of_getElem? h.2)).1
            simp [TaskSpec.matched, hne] at hm
          · exact (h.1.inv.succeeded.not_failed hj).elim
      | ok u =>
          obtain ⟨howed, hpaid⟩ := h.1.inv.live i parsed results h.2
          intro id hid
          refine (howed id hid).imp_left fun hin => ?_
          obtain ⟨job, hjob, rfl⟩ := List.mem_map.1 hin
          obtain ⟨j, result, completed_at, hj, htask⟩ := hr.succeeds rfl job hjob
          exact absurd hid (hpaid j _ hj htask)
    exact ⟨h.1.inv.quiet rfl (fun _ => .inr hclear) (.inl rfl),
      fun hover => absurd h.2 (hover i _), fun hc => hc, .inl⟩
  call q i t w r w' h hq hans _ := by
    have hm := (Answered.of_answers hans).mild (Call.not_begins_of_delivers hq)
    exact ⟨h.1.inv.mild hm, hm.repays h.2⟩

/-- A task ends, and it has paid. -/
theorem debtor_finish {r : Except Exn Unit} (h : (debtor Ir).Lands i t r w) :
    Solvent (w.finish_task i r) ∧ Repays w (w.finish_task i r) := by
  have hs := h.good.inv.succeeded
  obtain ⟨hc, hsingle, hpaid⟩ := h.ended
  have hok : r = .ok () := h.ok hs hc hsingle
  subst hok
  refine ⟨⟨hs.finish i, h.good.inv.idle, fun k parsed results hlive => ?_⟩,
    fun hover => absurd h.live (hover i t), fun hc => hc, ?_⟩
  · obtain ⟨howed, hall⟩ := h.good.inv.live k parsed results hlive.of_finish.1
    refine ⟨howed, fun j u hj hu => ?_⟩
    rw [finish_task_get] at hu
    obtain ⟨v, hv, hvu⟩ := Option.map_eq_some_iff.1 hu
    by_cases hij : i = j
    · subst hij
      rw [h.live] at hv
      cases hv
      rw [if_pos rfl] at hvu
      cases hvu
      exact hpaid
    · rw [if_neg hij] at hvu
      rw [hvu] at hv
      exact hall j u hj hv
  · rintro ⟨j, u, hj, hu⟩
    by_cases hji : j = i
    · subst hji
      have htu : (t, (none : Option (Except Exn Unit))) = (u, none) :=
        Option.some.inj (h.live.symm.trans hj)
      cases htu
      exact .inr (h.good.inv.idle (h.idle hu hc))
    · exact .inl ⟨j, u, hj.finish hji, hu⟩

theorem debtor_sound (hnode : OnePerJob node) :
    (debtor Ir).Sound node cloud undisturbed where
  refl _ := ⟨fun hover => ⟨hover, rfl, rfl⟩, fun h => h, .inl⟩
  trans _ _ _ := .trans
  drift w w' h hd := by
    have hlog := Drift.log hd
    have htasks := Drift.tasks hd
    have hidle : w'.self.idle = w.self.idle := by rw [Drift.self hd]
    refine ⟨h.quiet htasks (fun hi => .inl (hidle ▸ hi)) (.inl hlog),
      fun hover => ⟨hover.of_tasks htasks, hlog, hidle⟩, fun hc => ?_, fun hw => .inl ?_⟩
    · rw [DebtFree, hlog]
      exact hc
    · exact (World.Delivering.of_tasks htasks).2 hw
  finish i t r w h := debtor_finish h
  body i t w hg hl hlen := Fleet.Carries.body debtor_carries
    (fun _ _ _ _ _ _ hwp => debtor_ends hwp) hg hl hlen
  round w h := debtor_staged.round hnode h

/-- **The idle event**: whenever it is set, nothing is owed but what the last fallback has
left. -/
theorem clear_when_idle (hnode : OnePerJob node) (hw : Fresh w)
    {x : Pool (World Ir) (@Req.Reply Ir) Exn} (hx : Reaches node cloud undisturbed w x)
    (hidle : x.state.self.idle = true) : OwedOnly [] x.state.log := by
  have hempty : OwedOnly [] w.log := by
    rw [hw.log]
    exact fun id hid => by cases hid
  have hover : w.Over := by
    intro j u hj
    rw [World.Live, hw.tasks] at hj
    cases hj
  have hsolvent : Solvent w := .of_over hw.succeeded hover fun _ => hempty
  have hshows : (debtor Ir).Shows x :=
    (debtor_sound hnode).run hw hsolvent (fun hgood => debtor_staged.start hnode
      ⟨hgood, hover, by rw [hw.self], hempty⟩) hx
  exact hshows.good.inv.idle hidle

end CodaNode
