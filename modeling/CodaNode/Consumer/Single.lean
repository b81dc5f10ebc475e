/-
`Consumer/Single.lean` -- one message, handled by `_process_message` with nobody else about.

The handler runs against Redis, the webhook and the executor, with the cloud and the clock
moving between any two of its operations (`lone`). While Redis answers, the job ends in one
of three verdicts, and status, webhooks and `XACK` agree with it.
-/
import CodaNode.Consumer.Handling
import CodaNode.Consumer.Sample

set_option autoImplicit false

open Coroutine

namespace CodaNode

variable {Ir : Type}

/-! ## A handler by itself -/

/-- The world a handler runs in, with the answers that `allow` permits. -/
def lone (node : Node Ir)
    (cloud : (String → Option String) → (String → Option String) → Prop)
    (allow : (q : Req Ir) → World Ir → Except Exn q.Reply → Prop) :
    Host (World Ir) (@Req.Reply Ir) Exn where
  answer q w r w' := answers node q w r w' ∧ allow q w r
  drift := Drift cloud

/-- The runs of `_process_message` on `m` from `w`. -/
def Handles (node : Node Ir)
    (cloud : (String → Option String) → (String → Option String) → Prop)
    (allow : (q : Req Ir) → World Ir → Except Exn q.Reply → Prop) (m : Message) (w : World Ir)
    (x : World Ir × Prog Ir Unit) : Prop :=
  (lone node cloud allow).Run (Co.settle w (process_message node m)) x

/-- Redis answers, nobody cancels the task. -/
def undisturbed (q : Req Ir) (w : World Ir) (r : Except Exn q.Reply) : Prop :=
  redis_up q w r ∧ not_cancelled q w r

section Lone

variable {cloud : (String → Option String) → (String → Option String) → Prop}

theorem Drift.tally {w w' : World Ir} (h : Drift cloud w w') (m : Message) (job_id : String) :
    w'.tally m job_id = w.tally m job_id := by
  simp only [World.tally, World.state, World.posts, World.returned, World.count, h.hashes, h.log]

theorem Drift.desk {w w' : World Ir} (h : Drift cloud w w') : w'.desk = w.desk := by
  have hself := h.self
  have hexec := h.exec.1
  simp only [World.desk]
  rw [hself, hexec]

theorem undisturbed_ok (q : Req Ir) (w : World Ir) (v : q.Reply) : undisturbed q w (.ok v) :=
  ⟨redis_up_ok q w v, fun h => by cases h⟩

/-- The operations of a handler can always be answered normally. -/
theorem exists_answer (node : Node Ir) {q : Req Ir} (hq : q.call.prompt = true)
    (w : World Ir) : ∃ v w', answers node q w (.ok v) w' := by
  have key : ∃ v w', performs node q.call w v w' := by
    cases hc : q.call with
    | hget key field => exact ⟨w.hashes key field, w, rfl, rfl⟩
    | hset key mapping => exact ⟨(), w.hset key mapping, rfl⟩
    | get key => exact ⟨w.values key, w, rfl, rfl⟩
    | xack id => exact ⟨(), w.ack id, rfl⟩
    | wait k timed_out =>
        exact ⟨(), if timed_out then w else w.set_exec (·.finish_run k), rfl⟩
    | cancel_current_job => exact ⟨(), w, rfl⟩
    | unwind k => exact ⟨(), w.set_exec (·.finish_run k), rfl⟩
    | send_result url payload => exact ⟨(), w, rfl⟩
    | send_error url j text => exact ⟨(), w, rfl⟩
    | _ => rw [hc] at hq; cases hq
  obtain ⟨v, w', hv⟩ := key
  exact ⟨v, _, answers_ok.2 ⟨w', hv, rfl⟩⟩

/-- The setting of a handler by itself: nothing but drift happens to its job. -/
def by_itself (node : Node Ir)
    (cloud : (String → Option String) → (String → Option String) → Prop) : Setting Ir where
  contract :=
    { pre := fun q _ => q.call.prompt = true
      rely := Drift cloud
      answer := (lone node cloud undisturbed).answer
      keep := fun _ _ => True }
  inv _ := True
  tracked := True
  solo := True
  fresh _ := True

theorem by_itself_suits {node : Node Ir} (hnode : node.Ordinary) (m : Message)
    (job_id url : String) : (by_itself node cloud).Suits node m job_id url where
  executor := hnode
  pre _ _ hc := hc
  answer _ _ _ _ h := h
  rely_inv _ _ h _ := h
  rely_log _ _ h := ⟨[], (Drift.log h).symm⟩
  rely_tally _ _ _ _ h := Drift.tally h m job_id
  rely_desk _ _ _ _ h := Drift.desk h
  fresh _ _ _ _ := trivial
  step _ _ _ _ := ⟨trivial, trivial⟩

end Lone

/-! ## Status and webhook agree -/

/-- The three ways in which a job that was not terminal can end. -/
inductive Verdict where
  | cancelled
  | completed
  | failed
  deriving DecidableEq

/-- What each verdict says of the job: its state, the webhooks begun, and those that
returned normally, between `w` and `w'`. -/
def Verdict.holds (node : Node Ir) (decoded : List (String × String)) (job_id url : String)
    (w w' : World Ir) : Verdict → Prop
  | .cancelled => w'.state job_id = some "cancelled" ∧ w'.returned job_id = w.returned job_id
  | .completed => w'.state job_id = some "completed" ∧ ∃ ir shots result,
      node.parse_job decoded = .ok (ir, shots) ∧
      (node.run w.exec.runs ir shots).out = .ok result ∧
      w'.posts job_id =
        .send_result url (completed_payload job_id result) :: w.posts job_id ∧
      w'.returned job_id =
        .send_result url (completed_payload job_id result) :: w.returned job_id
  | .failed => w'.state job_id = some "failed" ∧ ∃ e posts,
      at_most_result job_id url (w.posts job_id) posts ∧
      w'.posts job_id = .send_error url job_id e :: posts ∧
      (w'.returned job_id = w.returned job_id ∨
        w'.returned job_id = .send_error url job_id e :: w.returned job_id)

/-- `_process_message` on `m` from `w`: it cannot get stuck; when it has ended it has
returned, ACK-ed the message once, is at rest, and one verdict holds. -/
def Agrees (node : Node Ir) (m : Message) (decoded : List (String × String))
    (job_id url : String) (w : World Ir) : Prop :=
  ∀ x, Handles node sets_only undisturbed m w x →
    ((lone node sets_only undisturbed).Halted x → ∃ r, x.2.outcome = some r) ∧
    ∀ r, x.2.outcome = some r → r = .ok () ∧
      x.1.count (Event.takes (Call.acks m.id)) = w.count (Event.takes (Call.acks m.id)) + 1 ∧
      x.1.self.current_job_id = none ∧ x.1.self.idle = true ∧
      ∃! v : Verdict, v.holds node decoded job_id url w x.1

/-- The states of the verdicts differ, so at most one of them holds. -/
theorem Verdict.unique {node : Node Ir} {decoded : List (String × String)}
    {job_id url : String} {w w' : World Ir} {v v' : Verdict}
    (h : v.holds node decoded job_id url w w') (h' : v'.holds node decoded job_id url w w') :
    v' = v := by
  cases v <;> cases v' <;> first
    | rfl
    | exact absurd (h.1.symm.trans h'.1) (by decide)

/-- An ending is a verdict. -/
theorem Ending.verdict {node : Node Ir} {T : Setting Ir} {m : Message}
    {decoded : List (String × String)} {job_id url : String} {w w' : World Ir} {t : Tally Ir}
    (hT : T.solo) (hopen : terminal (w.state job_id) = false)
    (h : Ending node T m decoded job_id url w.exec.runs (w.tally m job_id) t)
    (hw : w'.tally m job_id = { t with acks := t.acks + 1 }) :
    ∃ v : Verdict, v.holds node decoded job_id url w w' := by
  have hstate : w'.state job_id = t.state := congrArg Tally.state hw
  have hposts : w'.posts job_id = t.posts := congrArg Tally.posts hw
  have hreturned : w'.returned job_id = t.returned := congrArg Tally.returned hw
  cases h with
  | skipped h => exact absurd (hopen.symm.trans h) Bool.false_ne_true
  | cancelled h key hp => exact ⟨.cancelled, hstate, hreturned⟩
  | @completed k ir shots result c h key hjob hrun hk hc =>
      subst hc
      rw [hk hT] at hrun
      exact ⟨.completed, hstate, ir, shots, result, hjob, hrun, hposts, hreturned⟩
  | @failed e posts returned c h key cause hp hc hr =>
      subst hc
      exact ⟨.failed, hstate, e.text, posts, hp, hposts, by rwa [hreturned]⟩

/-- Every run of a handler by itself is where the contract says it is. -/
theorem handles_suspended {node : Node Ir} (hnode : node.Ordinary) {m : Message}
    {decoded : List (String × String)} {job_id url : String} {w : World Ir}
    (hm : m.header = .ok (decoded, job_id, url)) {x : World Ir × Prog Ir Unit}
    (hx : Handles node sets_only undisturbed m w x) :
    (by_itself node sets_only).contract.Suspended x.2 (fun r w' => r = .ok () ∧
      Handled node (by_itself node sets_only) m decoded job_id url w w') x.1 := by
  have hT : (by_itself node sets_only).Suits node m job_id url :=
    by_itself_suits hnode m job_id url
  exact Contract.run_sound (Drift.refl sets_only_refl)
    (fun _ _ _ => Drift.trans sets_only_trans) (fun _ _ _ _ h => h) (fun _ _ h => h)
    (wp_process_message hT trivial hm) hx

/-- A job whose cancel key appears just in time is recorded as cancelled and ACK-ed, and
the handling returns before it has touched the desk. -/
theorem cancelled_early {node : Node Ir} {m : Message} {decoded : List (String × String)}
    {job_id url : String} {w : World Ir} (hm : m.header = .ok (decoded, job_id, url))
    (hopen : terminal (w.state job_id) = false) :
    (lone node sets_only undisturbed).Can (process_message node m)
      (fun r w' => r = .ok () ∧ w'.self = w.self) w := by
  have hfields := m.decode_fields_of_header hm
  have hstay : ∀ w' : World Ir, Drift sets_only w' w' := Drift.refl sets_only_refl
  unfold process_message
  simp only [hfields, hm]
  refine ⟨_, hstay _, .ok (w.state job_id), _,
    ⟨answers_ok.2 ⟨_, ⟨rfl, rfl⟩, rfl⟩, undisturbed_ok _ _ _⟩, ?_⟩
  show (lone node sets_only undisturbed).Can (if terminal (w.state job_id) = true then _ else _)
    _ _
  rw [hopen, if_neg Bool.false_ne_true]
  -- the key is set right before it is looked up
  refine ⟨_, Drift.set_value _ (cancel_key job_id) "1", .ok (some "1"), _,
    ⟨answers_ok.2 ⟨_, ⟨(World.set_value_self _ _ _).symm, rfl⟩, rfl⟩, undisturbed_ok _ _ _⟩, ?_⟩
  refine ⟨_, hstay _, .ok (), _, ⟨answers_ok.2 ⟨_, rfl, rfl⟩, undisturbed_ok _ _ _⟩, ?_⟩
  exact ⟨_, hstay _, .ok (), _, ⟨answers_ok.2 ⟨_, rfl, rfl⟩, undisturbed_ok _ _ _⟩, rfl, rfl⟩

/-- **Status and webhook agree** after the handling of a job that was not terminal, exactly
if the consumer was at rest when the handling began. -/
theorem process_message_agrees {node : Node Ir} (hnode : node.Ordinary) {m : Message}
    {decoded : List (String × String)} {job_id url : String} {w : World Ir}
    (hm : m.header = .ok (decoded, job_id, url)) (hopen : terminal (w.state job_id) = false) :
    Agrees node m decoded job_id url w ↔
      w.self.idle = true ∧ w.self.current_job_id = none := by
  constructor
  · intro h
    obtain ⟨w', q, r, hrun, hq, -, hself⟩ :=
      Host.exists_run_of_can _ (cancelled_early hm hopen)
    obtain ⟨-, -, hcur, hidle, -⟩ := (h _ hrun).2 r hq
    exact ⟨hself ▸ hidle, hself ▸ hcur⟩
  · rintro ⟨hidle, hcur⟩ x hx
    obtain ⟨w₁, hdrift, hw⟩ := handles_suspended hnode hm hx
    refine ⟨fun halted => ?_, fun r hr => ?_⟩
    · cases hp : x.2 with
      | ret u => exact ⟨_, rfl⟩
      | raise e => exact ⟨_, rfl⟩
      | sync f k =>
          exact absurd hp (Host.Run.ne_sync _ hx (Host.settle_ne_sync _ _) f k)
      | await q k =>
          rw [hp] at hw
          obtain ⟨v, w', hv⟩ := exists_answer node hw.1 x.1
          exact absurd ⟨hv, undisturbed_ok q x.1 v⟩ (halted q k hp (.ok v) w')
    · obtain ⟨hr, hend⟩ : r = .ok () ∧
          Handled node (by_itself node sets_only) m decoded job_id url w w₁ := by
        cases hp : x.2 with
        | ret u => rw [hp] at hr hw; cases hr; exact hw
        | raise e => rw [hp] at hr hw; cases hr; exact hw
        | sync f k => rw [hp] at hr; cases hr
        | await q k => rw [hp] at hr; cases hr
      obtain ⟨t, ht, htally⟩ := hend.ending trivial
      have hx₁ : x.1.tally m job_id = { t with acks := t.acks + 1 } :=
        (hdrift.tally m job_id).trans htally
      have hacks : t.acks = w.count (Event.takes (Call.acks m.id)) := by
        cases ht <;> rfl
      have hrest : w₁.self.idle = true ∧ w₁.self.current_job_id = none := by
        rcases hend.desk trivial with h | ⟨h, h'⟩
        · exact h
        · exact ⟨h.trans hidle, h'.trans hcur⟩
      have hdesk := hdrift.desk
      obtain ⟨v, hv⟩ := ht.verdict trivial hopen hx₁
      refine ⟨hr, ?_, ?_, ?_, v, hv, fun v' hv' => Verdict.unique hv hv'⟩
      · rw [← hacks]
        exact congrArg Tally.acks hx₁
      · exact (congrArg Desk.current_job_id hdesk).trans hrest.2
      · exact (congrArg Desk.idle hdesk).trans hrest.1

/-- The fallback of a batch calls `_process_message` while the idle event is cleared. If the
job is cancelled before it is taken on, the event stays cleared. -/
theorem process_message_left_busy :
    ¬ Agrees (sample_node (.runs 0 (.ok sample_result)) none)
      (sample_message "1-0" "job-1" sample_ir) (sample_fields "job-1" sample_ir) "job-1"
      "https://example.com/hook" { sample_world [] with self := { idle := false } } := by
  intro h
  obtain ⟨w', q, r, hrun, hq, -, hself⟩ := Host.exists_run_of_can
    (lone (sample_node (.runs 0 (.ok sample_result)) none) sets_only undisturbed)
    (cancelled_early (w := { sample_world [] with self := { idle := false } })
      (sample_message_header "1-0" "job-1" sample_ir) rfl)
  obtain ⟨-, -, -, hidle, -⟩ := (h _ hrun).2 r hq
  rw [hself] at hidle
  cases hidle

/-- A consumer at rest. -/
theorem process_message_agrees_at_rest :
    Agrees (sample_node (.runs 0 (.ok sample_result)) none)
      (sample_message "1-0" "job-1" sample_ir) (sample_fields "job-1" sample_ir) "job-1"
      "https://example.com/hook" (sample_world []) :=
  (process_message_agrees (sample_node_ordinary (by simp [RunPlan.out]) (by simp))
    (sample_message_header "1-0" "job-1" sample_ir) rfl).2 ⟨rfl, rfl⟩

end CodaNode
