/-
`Consumer/Recovery.lean` -- what `recover_pending` leaves pending.

One call asks for the first hundred pending entries and handles those whose message is still
in the stream. An entry leaves the pending list by its `XACK`, at the end of its handling,
and by nothing else: what has been trimmed stays, and so does what is further down the list.
-/
import CodaNode.Consumer.Footprint
import CodaNode.Consumer.Single
import Mathlib.Data.List.Perm.Subperm
import Mathlib.Data.List.Nodup

set_option autoImplicit false

open Coroutine

namespace CodaNode

variable {Ir : Type} {node : Node Ir} {m : Message} {job_id url : String} {α : Type}

/-! ## What is counted -/

/-- `_process_message` is entered for the entry. -/
def Event.handles (id : String) : Event Ir → Bool
  | .mark (.handling m) => m.id == id
  | _ => false

/-- An `XRANGE` finds no message. -/
def Event.misses : Event Ir → Bool
  | .ended ⟨_, .xrange _⟩ _ (.ok []) => true
  | _ => false

/-- A line that a handler writes once it has been entered. -/
def Event.inward : Event Ir → Prop
  | .ended _ _ _ => False
  | .mark (.handling _) => False
  | _ => True

/-- A step of a handler that has been entered. -/
abbrev Inward : (World Ir → World Ir) → Prop := Plain Event.inward fun _ _ => True

theorem Inward.manages : Manages (Inward : (World Ir → World Ir) → Prop) where
  look := .id fun _ => trivial
  flags _ hf _ := .set_self (fun _ => trivial) hf
  starts _ := .starts (fun _ => trivial) fun _ _ _ => trivial
  exec f := .set_exec (fun _ => trivial) f
  self _ hf := .set_self (fun _ => trivial) hf

theorem Inward.enter (r : Region) : Inward (fun w : World Ir => w.enter r) :=
  Plain.enter fun _ => trivial

theorem Inward.post (q : Req Ir) : Inward (fun w : World Ir => w.record (.started q)) :=
  Plain.record (fun _ => trivial) trivial

/-- The pending list, how often each entry was handled, and how many were not found. -/
structure Tended (ps : List String) (c : String → Nat) (n : Nat) (w : World Ir) : Prop where
  pending : w.pending = ps
  handled : ∀ id, w.count (Event.handles id) = c id
  missed : w.count Event.misses = n

/-! ## Handling an entry -/

/-- The world of a recovery: Redis answers, and the cloud may do anything to the keys. -/
abbrev recovering (node : Node Ir) : Host (World Ir) (@Req.Reply Ir) Exn :=
  lone node (fun _ _ => True) redis_up

/-- A handler takes nothing off the list but by its `XACK`. -/
theorem pending_of_prompt {q : Req Ir} {w w' : World Ir} {r : Except Exn q.Reply}
    (hq : q.call.prompt = true) (hx : ∀ id, q.call ≠ .xack id) (h : answers node q w r w') :
    w'.pending = w.pending := by
  have hperf : ∀ {v : q.Reply} {w₁ : World Ir}, performs node q.call w v w₁ →
      w₁.pending = w.pending := by
    obtain ⟨msg, c⟩ := q
    intro v w₁ hp
    cases c with
    | hget key field => obtain ⟨-, rfl⟩ := hp; rfl
    | hset key mapping => cases hp; rfl
    | get key => obtain ⟨-, rfl⟩ := hp; rfl
    | xack id => exact absurd rfl (hx id)
    | wait k timed_out => cases timed_out <;> cases hp <;> rfl
    | cancel_current_job => cases hp; rfl
    | unwind k => cases hp; rfl
    | send_result url payload => cases hp; rfl
    | send_error url j text => cases hp; rfl
    | _ => cases hq
  rcases h with ⟨v, w₁, hp, -, rfl⟩ | ⟨e, -, -, -, rfl⟩ | ⟨e, v, w₁, -, -, hp, -, rfl⟩
  · exact (World.record_pending _ _).trans (hperf hp)
  · rfl
  · exact (World.record_pending _ _).trans (hperf hp)

namespace Tended

variable {ps : List String} {c : String → Nat} {n : Nat} {w w' : World Ir}

theorem drift (h : Tended ps c n w) (hd : Drift (fun _ _ => True) w w') : Tended ps c n w' where
  pending := hd.pending.trans h.pending
  handled id := (World.count_drift hd _).trans (h.handled id)
  missed := (World.count_drift hd _).trans h.missed

/-- A line that counts for nothing. -/
theorem of_log (h : Tended ps c n w) {qs : List String} {e : Entry Ir} (hp : w'.pending = qs)
    (hl : w'.log = e :: w.log) (hh : ∀ id, e.event.handles id = false)
    (hm : e.event.misses = false) : Tended qs c n w' where
  pending := hp
  handled id := by
    rw [← h.handled id, World.count, World.count, hl, List.countP_cons, hh id]
    rfl
  missed := by
    rw [← h.missed, World.count, World.count, hl, List.countP_cons, hm]
    rfl

theorem same (h : Tended ps c n w) (hp : w'.pending = w.pending) (hl : w'.log = w.log) :
    Tended ps c n w' where
  pending := hp.trans h.pending
  handled id := by rw [← h.handled id, World.count, World.count, hl]
  missed := by rw [← h.missed, World.count, World.count, hl]

theorem step (h : Tended ps c n w) {f : World Ir → World Ir} (hf : Inward f) :
    Tended ps c n (f w) := by
  rcases hf.log w with hl | ⟨e, he, hl⟩
  · exact h.same (hf.pending w) hl
  · refine h.of_log ((hf.pending w).trans h.pending) hl (fun id => ?_) ?_
    · cases e with
      | mark x => cases x <;> first | rfl | exact he.elim
      | _ => rfl
    · cases e with
      | ended => exact he.elim
      | _ => rfl

/-- An answer to a call of the handler that is no `XACK`. -/
theorem answered (h : Tended ps c n w) {q : Req Ir} {r : Except Exn q.Reply}
    (hq : Before m q) (ha : (recovering node).answer q w r w') : Tended ps c n w' := by
  obtain ⟨took, hl⟩ := (Answered.of_answers ha.1).log
  obtain ⟨⟨-, hprompt, -⟩, hxack⟩ := hq
  refine h.of_log ((pending_of_prompt hprompt hxack ha.1).trans h.pending) hl (fun id => rfl) ?_
  obtain ⟨msg, call⟩ := q
  cases call <;> first | rfl | cases hprompt

/-- The code of a handler up to its `XACK`. -/
theorem within (h : Tended ps c n w) {p : Prog Ir α} (hp : Within Inward (Before m) p) :
    (recovering node).logic.wp p (fun _ w' => Tended ps c n w') w :=
  Within.wp (I := Tended ps c n) (fun _ _ _ _ => trivial) (fun _ _ hi hd => hi.drift hd)
    (fun _ _ hf hi => ⟨trivial, hi.step hf⟩) (fun _ _ _ _ hq hi ha => ⟨trivial, hi.answered hq ha⟩)
    hp h

/-- The `XACK` takes the entry off the list. -/
theorem safe_xack (h : Tended ps c n w) : (recovering node).logic.wp (CodaNode.safe_xack m)
    (fun r w' => r = .ok true ∧ Tended (ps.filter (· ≠ m.id)) c n w') w := by
  refine (Contract.wp_try_except _ _ _ _).2 ((Contract.wp_bind _ _ _ _).2
    ((Host.logic_call _ _ _ _).2 fun w₁ hd r w₂ ha => ?_))
  have h₁ := h.drift hd
  obtain ⟨⟨⟩, rfl⟩ := ha.2.ok rfl (by simp)
  obtain ⟨w₃, rfl, rfl⟩ := answers_ok.1 ha.1
  refine ⟨rfl, h₁.of_log ?_ rfl (fun id => rfl) rfl⟩
  rw [World.record_pending, World.ack_pending, h₁.pending]

/-- The `finally` clause. -/
theorem release (h : Tended ps c n w) : (recovering node).logic.wp (CodaNode.release m)
    (fun r w' => r = .ok () ∧ Tended (ps.filter (· ≠ m.id)) c n w') w := by
  have henter : ∀ {qs : List String} {w' : World Ir} (r : Region), Tended qs c n w' →
      Tended qs c n (w'.enter r) := fun r h' => h'.step (Inward.enter r)
  refine (Contract.wp_bind _ _ _ _).2 ⟨trivial, (Contract.wp_bind _ _ _ _).2
    (Contract.wp_mono (henter .cleanup h).safe_xack fun r w₂ h₂ => ?_)⟩
  obtain ⟨rfl, h₂⟩ := h₂
  exact ⟨trivial, trivial, rfl, henter .outside (h₂.same rfl rfl)⟩

/-- From the `executing` record to the `finally` clause, however the job ends. -/
theorem take_on (h : Tended ps c n w) (decoded : List (String × String)) :
    (recovering node).logic.wp (CodaNode.take_on node m decoded job_id url)
      (fun r w' => ∀ u, r = .ok u → Tended (ps.filter (· ≠ m.id)) c n w') w := by
  refine (Contract.wp_bind _ _ _ _).2 ⟨trivial, ?_⟩
  have h₁ : Tended ps c n (w.set_self
      ({ · with idle := false, current_job_id := some job_id })) := h.same rfl rfl
  refine (Contract.wp_bind _ _ _ _).2 ⟨trivial, ?_⟩
  refine (Contract.wp_bind _ _ _ _).2 (Contract.wp_mono (h₁.within inner_hset) fun r w₂ h₂ => ?_)
  cases r with
  | error e => exact fun u hu => nomatch hu
  | ok b =>
      refine (Contract.wp_bind _ _ _ _).2 ⟨trivial, ?_⟩
      have hbody : Within Inward (Before m) (Co.try_except (execute node m decoded job_id url)
          (on_exception node m job_id url)) :=
        (inner_execute Inward.manages.runs Inward.post).try_except fun e =>
          inner_on_exception Inward.manages.runs Inward.post (Inward.enter _) e
      refine (Contract.wp_try_finally _ _ _ _).2
        (Contract.wp_mono ((h₂.step (Inward.enter .body)).within hbody) fun r w₃ h₃ => ?_)
      refine Contract.wp_mono h₃.release fun r' w₄ h₄ => ?_
      obtain ⟨rfl, h₄⟩ := h₄
      exact fun u _ => h₄

/-- An early return. -/
theorem skip (h : Tended ps c n w) :
    (recovering node).logic.wp (do let _ ← CodaNode.safe_xack m : Prog Ir Unit)
      (fun r w' => ∀ u, r = .ok u → Tended (ps.filter (· ≠ m.id)) c n w') w := by
  refine (Contract.wp_bind _ _ _ _).2 (Contract.wp_mono h.safe_xack fun r w₂ h₂ => ?_)
  obtain ⟨rfl, h₂⟩ := h₂
  exact fun u _ => h₂

/-- `_process_message`, if it returns: the entry was handled once more, and is off the list. -/
theorem process_message (h : Tended ps c n w) :
    (recovering node).logic.wp (CodaNode.process_message node m) (fun r w' => ∀ u, r = .ok u →
      Tended (ps.filter (· ≠ m.id)) (fun id => c id + if m.id = id then 1 else 0) n w') w := by
  have h₁ : Tended ps (fun id => c id + if m.id = id then 1 else 0) n
      ((w.enter .outside).record (.mark (.handling m))) := by
    refine ⟨h.pending, fun id => ?_, ?_⟩
    · rw [World.count_record, World.count_enter, h.handled id]
      simp [Event.handles]
    · rw [World.count_record, World.count_enter, h.missed]
      rfl
  refine (Contract.wp_bind _ _ _ _).2 ⟨trivial, (Contract.wp_bind _ _ _ _).2 ⟨trivial, ?_⟩⟩
  cases decode_fields m.fields with
  | error e => exact fun u hu => nomatch hu
  | ok fields =>
      cases m.header with
      | error e => exact h₁.skip
      | ok header =>
          obtain ⟨decoded, job_id, url⟩ := header
          refine (Contract.wp_bind _ _ _ _).2
            (Contract.wp_mono (h₁.within inner_status) fun r w₂ h₂ => ?_)
          cases r with
          | error e => exact fun u hu => nomatch hu
          | ok status =>
              show (recovering node).logic.wp (if terminal status = true then _ else _) _ w₂
              split
              · exact h₂.skip
              · refine (Contract.wp_bind _ _ _ _).2
                  (Contract.wp_mono (h₂.within inner_check) fun r w₃ h₃ => ?_)
                cases r with
                | error e => exact fun u hu => nomatch hu
                | ok cancelled =>
                    cases cancelled with
                    | false => exact h₃.take_on decoded
                    | true =>
                        have hmark : Within Inward (Before m) (mark_job_cancelled node m job_id) :=
                          inner_mark_job_cancelled Inward.manages.look
                        refine (Contract.wp_bind _ _ _ _).2
                          (Contract.wp_mono (h₃.within hmark) fun r w₄ h₄ => ?_)
                        cases r with
                        | error e => exact fun u hu => nomatch hu
                        | ok v => exact h₄.skip

/-- An entry is looked up; what is not found is counted. -/
theorem xrange (h : Tended ps c n w) (message_id : String) :
    (recovering node).logic.wp (alone (.xrange message_id)) (fun r w' => ∃ messages,
      r = .ok messages ∧ Tended ps c (n + if messages = [] then 1 else 0) w') w := by
  refine (Host.logic_call _ _ _ _).2 fun w₁ hd r w₂ ha => ?_
  have h₁ := h.drift hd
  obtain ⟨messages, rfl⟩ := ha.2.ok rfl (by simp)
  obtain ⟨w₃, ⟨-, rfl⟩, rfl⟩ := answers_ok.1 ha.1
  refine ⟨messages, rfl, h₁.pending, fun id => ?_, ?_⟩
  · rw [World.count_record, h₁.handled id]
    rfl
  · rw [World.count_record, h₁.missed]
    cases messages <;> rfl

/-- The loop over the entries, by induction on the list: those that are found are handled, in
order, and taken off. -/
theorem recover_each (h : Tended ps c n w) (ids : List String) :
    (recovering node).logic.wp (CodaNode.recover_each node ids) (fun r w' => ∀ k, r = .ok k →
      ∃ found misses, List.Sublist found ids ∧ found.length + misses = ids.length ∧
        Tended (ps.filter (· ∉ found)) (fun id => c id + found.count id) (n + misses) w') w := by
  induction ids generalizing ps c n w with
  | nil =>
      refine fun k _ => ⟨[], 0, List.Sublist.refl _, rfl, ?_⟩
      simpa using h
  | cons message_id rest ih =>
      refine (Contract.wp_bind _ _ _ _).2
        (Contract.wp_mono (h.xrange message_id) fun r w₁ h₁ => ?_)
      obtain ⟨messages, rfl, h₁⟩ := h₁
      cases messages with
      | nil =>
          -- the entry stays on the list
          refine Contract.wp_mono (ih h₁) fun r w₂ h₂ k hk => ?_
          obtain ⟨found, misses, hsub, hlen, h₂⟩ := h₂ k hk
          refine ⟨found, misses + 1, hsub.cons _, ?_, ?_⟩
          · rw [List.length_cons]
            omega
          · rw [if_pos rfl, Nat.add_assoc, Nat.add_comm 1] at h₂
            exact h₂
      | cons m others =>
          rw [if_neg (List.cons_ne_nil m others), Nat.add_zero] at h₁
          refine (Contract.wp_bind _ _ _ _).2
            (Contract.wp_mono h₁.process_message fun r w₂ h₂ => ?_)
          cases r with
          | error e => exact fun k hk => nomatch hk
          | ok u =>
              refine (Contract.wp_bind _ _ _ _).2
                (Contract.wp_mono (ih (h₂ u rfl)) fun r w₃ h₃ => ?_)
              cases r with
              | error e => exact fun k hk => nomatch hk
              | ok recovered =>
                  intro k _
                  obtain ⟨found, misses, hsub, hlen, h₃⟩ := h₃ recovered rfl
                  refine ⟨message_id :: found, misses, hsub.cons_cons _, ?_, ?_⟩
                  · rw [List.length_cons, List.length_cons]
                    omega
                  · refine ⟨?_, fun id => ?_, h₃.missed⟩
                    · rw [h₃.pending, List.filter_filter]
                      refine List.filter_congr fun id _ => ?_
                      simp [Bool.and_comm]
                    · rw [h₃.handled id, List.count_cons, Nat.add_assoc]
                      simp [Nat.add_comm]

/-- `recover_pending` handles those of the first hundred entries that it finds, and takes
them off the list. -/
theorem recover_pending (h : Tended ps c n w) :
    (recovering node).logic.wp (CodaNode.recover_pending node) (fun r w' => ∀ k, r = .ok k →
      ∃ found misses, List.Sublist found (ps.take 100) ∧
        found.length + misses = (ps.take 100).length ∧
        Tended (ps.filter (· ∉ found)) (fun id => c id + found.count id) (n + misses) w') w := by
  refine (Contract.wp_bind _ _ _ _).2 ⟨trivial, ?_⟩
  have h₁ : Tended ps c n (w.starts .recovery) := h.step (Inward.manages.starts .recovery)
  refine (Contract.wp_bind _ _ _ _).2 ((Host.logic_call _ _ _ _).2 fun w₂ hd r w₃ ha => ?_)
  have h₂ := h₁.drift hd
  obtain ⟨pending, rfl⟩ := ha.2.ok rfl (by simp)
  obtain ⟨w₄, ⟨hpending, rfl⟩, rfl⟩ := answers_ok.1 ha.1
  have h₃ : Tended ps c n (w₄.record (.ended ⟨none, .xpending_range 100⟩ true (.ok pending))) :=
    h₂.of_log h₂.pending rfl (fun id => rfl) rfl
  rw [h₂.pending] at hpending
  have heach : (recovering node).logic.wp (CodaNode.recover_each node pending) _ _ :=
    h₃.recover_each pending
  rw [hpending] at heach ⊢
  exact heach

end Tended

/-! ## Complete recoveries -/

/-- The pending list is empty, and each entry whose message is still in the stream was
handled once. -/
structure Recovered (w w' : World Ir) : Prop where
  emptied : w'.pending = []
  once : ∀ id ∈ w.pending, (∃ m ∈ w'.stream, m.id = id) →
    w'.count (Event.handles id) = w.count (Event.handles id) + 1

/-- **A recovery is complete exactly if there are at most a hundred pending entries, and
every one of them is found.** -/
theorem recovery_complete_iff (node : Node Ir) {w w' : World Ir} {n : Nat}
    (hunique : w.pending.Nodup)
    (hrun : (recovering node).Run (Co.settle w (recover_pending node)) (w', .ret n)) :
    Recovered w w' ↔
      w.pending.length ≤ 100 ∧ w'.count Event.misses = w.count Event.misses := by
  have htended : Tended w.pending (fun id => w.count (Event.handles id))
      (w.count Event.misses) w := ⟨rfl, fun _ => rfl, rfl⟩
  obtain ⟨w₁, hdrift, hend⟩ := Host.run_outcome (Drift.refl fun _ => trivial)
    (fun _ _ _ => Drift.trans fun _ _ _ _ _ => trivial) htended.recover_pending hrun rfl
  obtain ⟨found, misses, hsub, hlen, h₁⟩ := hend n rfl
  have h := h₁.drift hdrift
  have hfirst : found.length ≤ (w.pending.take 100).length := hsub.length_le
  rw [List.length_take] at hlen hfirst
  constructor
  · rintro ⟨hemptied, -⟩
    have hall : w.pending ⊆ found := by
      intro id hid
      by_contra hout
      have hleft : id ∈ w'.pending := by
        rw [h.pending]
        exact List.mem_filter.2 ⟨hid, decide_eq_true hout⟩
      rw [hemptied] at hleft
      cases hleft
    have hcount : w.pending.length ≤ found.length := (List.subperm_of_subset hunique hall).length_le
    refine ⟨by omega, ?_⟩
    rw [h.missed]
    omega
  · rintro ⟨hfew, hmissed⟩
    rw [h.missed] at hmissed
    have hfound : found = w.pending := by
      rw [List.take_of_length_le hfew] at hsub
      exact hsub.eq_of_length (by omega)
    refine ⟨?_, fun id hid _ => ?_⟩
    · rw [h.pending, hfound, List.filter_eq_nil_iff]
      intro id hid
      simpa using hid
    · rw [h.handled id, hfound, List.count_eq_one_of_mem hunique hid]

/-- A node that stopped before the `XACK` of a completed job. -/
def stopped_node : Node String := sample_node (.runs 0 (.ok sample_result)) none

/-- Redis as that node finds it again, with `messages` in the stream. -/
def stopped_world (messages : List Message) : World String :=
  { sample_world [] with
    stream := messages
    pending := ["1-0"]
    hashes := fun key field =>
      if key = status_key "job-1" ∧ field = "state" then some "completed" else none }

/-- The message is found, and ACK-ed. -/
theorem completed_job_recovered : ∃ w' n,
    (recovering stopped_node).Run (Co.settle (stopped_world [sample_message "1-0" "job-1" sample_ir])
      (recover_pending stopped_node)) (w', .ret n) ∧
    Recovered (stopped_world [sample_message "1-0" "job-1" sample_ir]) w' := by
  set m := sample_message "1-0" "job-1" sample_ir with hm
  have hstay : ∀ w : World String, Drift (fun _ _ => True) w w := Drift.refl fun _ => trivial
  have hcan : (recovering stopped_node).Can (recover_pending stopped_node)
      (fun r w' => r = .ok 1 ∧ w'.count Event.misses = 0) (stopped_world [m]) := by
    refine ⟨_, hstay _, .ok ["1-0"], _, ⟨answers_ok.2 ⟨_, ⟨rfl, rfl⟩, rfl⟩, redis_up_ok _ _ _⟩, ?_⟩
    refine ⟨_, hstay _, .ok [m], _, ⟨answers_ok.2 ⟨_, ⟨rfl, rfl⟩, rfl⟩, redis_up_ok _ _ _⟩, ?_⟩
    refine ⟨_, hstay _, .ok (some "completed"), _,
      ⟨answers_ok.2 ⟨_, ⟨rfl, rfl⟩, rfl⟩, redis_up_ok _ _ _⟩, ?_⟩
    exact ⟨_, hstay _, .ok (), _, ⟨answers_ok.2 ⟨_, rfl, rfl⟩, redis_up_ok _ _ _⟩, rfl, rfl⟩
  obtain ⟨w', q, r, hrun, hq, rfl, hmissed⟩ := Host.exists_run_of_can _ hcan
  cases q with
  | ret n =>
      exact ⟨w', n, hrun, (recovery_complete_iff stopped_node (by decide) hrun).2
        ⟨by decide, hmissed⟩⟩
  | raise e => cases hq
  | sync f k => cases hq
  | await c k => cases hq

/-- An entry whose message has been trimmed stays pending. -/
theorem trimmed_entry_stays : ¬ ∀ (node : Node String) (w w' : World String) (n : Nat),
    w.pending.Nodup →
    (recovering node).Run (Co.settle w (recover_pending node)) (w', .ret n) →
    Recovered w w' := by
  intro hclaim
  have hstay : ∀ w : World String, Drift (fun _ _ => True) w w := Drift.refl fun _ => trivial
  have hcan : (recovering stopped_node).Can (recover_pending stopped_node)
      (fun r w' => r = .ok 0 ∧ w'.pending = ["1-0"]) (stopped_world []) := by
    refine ⟨_, hstay _, .ok ["1-0"], _, ⟨answers_ok.2 ⟨_, ⟨rfl, rfl⟩, rfl⟩, redis_up_ok _ _ _⟩, ?_⟩
    exact ⟨_, hstay _, .ok [], _, ⟨answers_ok.2 ⟨_, ⟨rfl, rfl⟩, rfl⟩, redis_up_ok _ _ _⟩, rfl, rfl⟩
  obtain ⟨w', q, r, hrun, hq, rfl, hpending⟩ := Host.exists_run_of_can _ hcan
  cases q with
  | ret n =>
      have hemptied := (hclaim stopped_node (stopped_world []) w' n (by decide) hrun).emptied
      rw [hpending] at hemptied
      cases hemptied
  | raise e => cases hq
  | sync f k => cases hq
  | await c k => cases hq

end CodaNode
