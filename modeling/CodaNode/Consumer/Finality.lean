/-
`Consumer/Finality.lean` -- what the life of a job rules out.

Consequences of `Followers.run` for a running consumer: a result is reported at most once, and
a job that was reported or cancelled is never touched again.
-/
import CodaNode.Consumer.LifecycleRun
import CodaNode.Consumer.Restart

set_option autoImplicit false

open Coroutine

namespace CodaNode

variable {Ir : Type} {node : Node Ir} {w : World Ir} {job_id : String}
variable {cloud : (String → Option String) → (String → Option String) → Prop}
variable {x y : Pool (World Ir) (@Req.Reply Ir) Exn}

/-- The line that tells of a reported result. -/
theorem of_job_reported (job_id : String) (e : Event Ir) :
    e.of_job job_id = some (.result_ended true) ↔
      e.returns (Call.posts_result job_id) = true := by
  cases e with
  | mark x => simp [Event.of_job]
  | started q =>
      obtain ⟨msg, c⟩ := q
      cases c <;> simp [Event.of_job, Call.opens]
  | ended q took r =>
      obtain ⟨msg, c⟩ := q
      cases c with
      | hset key mapping =>
          cases r <;> cases took <;> simp [Event.of_job, Call.closes, Call.posts_result]
      | send_result url payload =>
          cases r <;> simp [Event.of_job, Call.closes, Call.posts_result, answered_ok]
      | send_error url j text => cases r <;> simp [Event.of_job, Call.closes, Call.posts_result]
      | _ => cases r <;> simp [Event.of_job, Call.closes, Call.posts_result]

/-- The results that were reported, counted in the course. -/
theorem course_count_reported (w : World Ir) (job_id : String) :
    (w.course job_id).count (.result_ended true) =
      w.count (Event.returns (Call.posts_result job_id)) := by
  rw [World.course, List.count, List.countP_filterMap, World.count]
  refine List.countP_congr fun e _ => ?_
  rw [← of_job_reported]
  cases e.event.of_job job_id <;> simp

/-! ## A job that is reported -/

section Reports

variable {m : Message} {url : String} {decoded : List (String × String)} {ir : Ir} {shots : Int}
variable {result : ExecutionResult}
variable {allow : (q : Req Ir) → World Ir → Except Exn q.Reply → Prop}

variable (hrefl : ∀ v, cloud v v)
variable (hok : ∀ (q : Req Ir) (w : World Ir) (v : q.Reply), q.call.reads_group = false →
  allow q w (.ok v))
include hrefl hok

/-- An operation of a handler that is answered normally. -/
theorem can_on {c : Call Ir} {v : c.Reply} {w' : World Ir} (hc : c.reads_group = false)
    (hp : performs node c w v w') :
    (consumer node cloud allow).toHost.Can (on m c)
      (fun r w'' => r = .ok v ∧ w'' = w'.record (.ended ⟨some m, c⟩ true (.ok v))) w :=
  ⟨w, Drift.refl hrefl w, .ok v, _, ⟨answers_ok.2 ⟨w', hp, rfl⟩, hok _ _ _ hc⟩, rfl, rfl⟩

/-- The cancel key of the job is not set. -/
theorem can_check (hkey : w.values (cancel_key job_id) = none) :
    (consumer node cloud allow).toHost.Can (has_cancel_signal m job_id : Prog Ir Bool)
      (fun r w' => r = .ok false ∧ w'.values (cancel_key job_id) = none) w := by
  refine Host.can_bind_ok _ (can_on hrefl hok rfl ⟨hkey.symm, rfl⟩) ?_
  rintro w' rfl
  exact ⟨rfl, hkey⟩

theorem can_hset {key : String} {mapping : List (String × String)}
    (hkey : w.values (cancel_key job_id) = none) :
    (consumer node cloud allow).toHost.Can (safe_hset m key mapping : Prog Ir Bool)
      (fun r w' => r = .ok true ∧ w'.values (cancel_key job_id) = none) w := by
  refine Host.can_try_except_ok _ (Host.can_bind_ok _ (can_on hrefl hok (v := ()) rfl rfl) ?_)
  rintro w' rfl
  exact ⟨rfl, hkey⟩

/-- The run is done when the consumer looks at it for the first time. -/
theorem can_run (hrun : ∀ k, node.run k ir shots = .runs 0 (.ok result))
    (hkey : w.values (cancel_key job_id) = none) :
    (consumer node cloud allow).toHost.Can (run_job_with_cancellation node m job_id ir shots)
      (fun r w' => r = .ok result ∧ w'.values (cancel_key job_id) = none) w := by
  unfold run_job_with_cancellation
  simp only [hrun]
  have hpoll : ∀ (k : Nat) (w : World Ir), w.values (cancel_key job_id) = none →
      (consumer node cloud allow).toHost.Can (poll node m job_id k (.ok result) 0)
        (fun r w' => r = .ok result ∧ w'.values (cancel_key job_id) = none) w := by
    intro k w hkey
    refine Host.can_bind_ok _ (can_on hrefl hok (v := ()) rfl rfl) ?_
    rintro w' rfl
    show Host.Can _ (has_cancel_signal m job_id >>= _) _ _
    refine Host.can_bind_ok _ (can_check hrefl hok hkey) fun w₂ hkey₂ => ⟨rfl, hkey₂⟩
  show Host.Can _ (Co.try_finally (poll node m job_id w.exec.runs (.ok result) 0)
    (cancel_run w.exec.runs)) _ _
  exact Host.can_try_finally_ok _ (hpoll _ _ hkey) fun w' hkey' => ⟨rfl, hkey'⟩

/-- A job that runs to its end can be reported. -/
theorem can_report (hm : m.header = .ok (decoded, job_id, url))
    (hparse : node.parse_job decoded = .ok (ir, shots))
    (hrun : ∀ k, node.run k ir shots = .runs 0 (.ok result))
    (hst : terminal (w.state job_id) = false) (hkey : w.values (cancel_key job_id) = none) :
    (consumer node cloud allow).toHost.Can (process_message node m) (fun r w' => r = .ok () ∧
      0 < w'.count (Event.returns (Call.posts_result job_id))) w := by
  have hfields := m.decode_fields_of_header hm
  unfold process_message
  simp only [hfields, hm]
  have hexecute : ∀ w : World Ir, w.values (cancel_key job_id) = none →
      (consumer node cloud allow).toHost.Can (execute node m decoded job_id url) (fun r w' =>
        r = .ok () ∧ 0 < w'.count (Event.returns (Call.posts_result job_id))) w := by
    intro w hkey
    unfold execute
    rw [hparse]
    show Host.Can _ (run_job_with_cancellation node m job_id ir shots >>= _) _ _
    refine Host.can_bind_ok _ (can_run hrefl hok hrun hkey) fun w₁ hkey₁ => ?_
    refine Host.can_bind_ok _ (can_check hrefl hok hkey₁) fun w₂ hkey₂ => ?_
    show Host.Can _ (safe_hset m _ _ >>= _) _ _
    refine Host.can_bind_ok _ (can_hset hrefl hok hkey₂) fun w₃ hkey₃ => ?_
    refine Host.can_bind_ok _ (can_check hrefl hok hkey₃) fun w₄ hkey₄ => ?_
    have hsend : (consumer node cloud allow).toHost.Can
        (send_result m url (completed_payload job_id result)) (fun r w' =>
          r = .ok () ∧ 0 < w'.count (Event.returns (Call.posts_result job_id))) w₄ := by
      refine Host.can_mono _ (can_on hrefl hok (v := ()) rfl rfl) ?_
      rintro r w' ⟨rfl, rfl⟩
      exact ⟨rfl, List.countP_pos_iff.2 ⟨_, List.mem_cons_self, beq_self_eq_true job_id⟩⟩
    exact Host.can_bind_ok _ hsend fun w₅ h₅ => ⟨rfl, h₅⟩
  have hxack : ∀ w : World Ir, 0 < w.count (Event.returns (Call.posts_result job_id)) →
      (consumer node cloud allow).toHost.Can (safe_xack m : Prog Ir Bool) (fun r w' =>
        r = .ok true ∧ 0 < w'.count (Event.returns (Call.posts_result job_id))) w := by
    intro w h
    refine Host.can_try_except_ok _ (Host.can_bind_ok _ (can_on hrefl hok (v := ()) rfl rfl) ?_)
    rintro w' rfl
    refine ⟨rfl, ?_⟩
    rw [World.count_record, World.count_ack]
    omega
  have hstatus : (consumer node cloud allow).toHost.Can (on m (.hget (status_key job_id) "state"))
      _ ((w.enter .outside).record (.mark (.handling m))) :=
    can_on hrefl hok (v := w.state job_id) rfl ⟨rfl, rfl⟩
  show Host.Can _ (get_job_status m job_id >>= _) _ _
  refine Host.can_bind_ok _ hstatus ?_
  rintro w₁ rfl
  rw [if_neg (by rw [hst]; decide)]
  refine Host.can_bind_ok _ (can_check hrefl hok hkey) fun w₂ hkey₂ => ?_
  show Host.Can _ (safe_hset m _ _ >>= _) _ _
  refine Host.can_bind_ok _ (can_hset hrefl hok hkey₂) fun w₃ hkey₃ => ?_
  show Host.Can _ (Co.try_finally _ (release m)) _ _
  refine Host.can_try_finally_ok _ (Host.can_try_except_ok _ (hexecute _ hkey₃)) fun w₄ h₄ => ?_
  show Host.Can _ (safe_xack m >>= _) _ _
  exact Host.can_bind_ok _ (hxack _ h₄) fun w₅ h₅ => ⟨rfl, h₅⟩

end Reports

/-- What is answered normally keeps to `orderly_stream`, the reads of the stream apart. -/
theorem orderly_stream_ok (q : Req Ir) (w : World Ir) (v : q.Reply)
    (hq : q.call.reads_group = false) : orderly_stream q w (.ok v) := by
  refine ⟨redis_up_ok q w v, ?_⟩
  obtain ⟨msg, c⟩ := q
  cases c <;> trivial

/-- A message was delivered to a consumer that has died, and nothing else happened. -/
def abandoned_world : World String :=
  { sample_world [crashing_message] with group := true, undelivered := [], pending := ["1-0"] }

theorem abandoned_world_fresh : Fresh abandoned_world := ⟨rfl, rfl, rfl, rfl, rfl, rfl⟩

/-- The next consumer recovers the message and reports its job. -/
theorem reporting_run : ∃ x, Reaches crashing_node sets_only orderly_stream abandoned_world x ∧
    0 < x.state.count (Event.returns (Call.posts_result "job-1")) := by
  refine recovery_leads (m := crashing_message) sets_only_refl orderly_stream_ok
    (fun w hgroup => ⟨fun _ => .inr ⟨rfl, hgroup, _, by decide, rfl⟩, trivial⟩) rfl rfl rfl
    (P := fun w => 0 < w.count (Event.returns (Call.posts_result "job-1")))
    (fun w w' _ hlog h => ?_) fun w₁ hhashes hvalues _ => ?_
  · rw [World.count, hlog]
    exact h
  · refine can_report sets_only_refl orderly_stream_ok (sample_message_header _ _ _)
      (sample_node_parse _ _ _) (fun _ => rfl) ?_ ?_
    · rw [World.state, hhashes]
      rfl
    · rw [hvalues]
      rfl

/-! ## What every run shows -/

/-- **A job's course is a life.** The states that are recorded for a job and the webhooks that
are called for it, in the order in which they happen, are a path of `lifecycle` from the state
the job was found in to the one Redis shows; only a job that the loop or a delivery has in hand
is between two phases. -/
theorem lifecycle_followed (hw : Fresh w) (hx : Reaches node cloud orderly_stream w x)
    (job_id : String) :
    ∃ p, lifecycle.after (Phase.found (w.state job_id)) (x.state.course job_id) = some p ∧
      p.shows (x.state.state job_id) ∧ (p.settled = true ∨ x.state.InHand job_id) := by
  obtain ⟨p, hp, hhand⟩ := Followers.run hw hx job_id
  exact ⟨p, hp.after, hp.shows, hhand⟩

theorem lifecycle_followed_reporting : ∃ x p, Reaches crashing_node sets_only orderly_stream
      abandoned_world x ∧ 0 < x.state.count (Event.returns (Call.posts_result "job-1")) ∧
    lifecycle.after (Phase.found (abandoned_world.state "job-1")) (x.state.course "job-1") = some p ∧
      p.shows (x.state.state "job-1") ∧ (p.settled = true ∨ x.state.InHand "job-1") := by
  obtain ⟨x, hx, hposted⟩ := reporting_run
  obtain ⟨p, hp⟩ := lifecycle_followed abandoned_world_fresh hx "job-1"
  exact ⟨x, p, hx, hposted, hp⟩

/-- **A result is reported at most once.** -/
theorem reported_once (hw : Fresh w) (hx : Reaches node cloud orderly_stream w x)
    (job_id : String) : x.state.count (Event.returns (Call.posts_result job_id)) ≤ 1 := by
  obtain ⟨p, hp, -⟩ := Followers.run hw hx job_id
  rw [← course_count_reported]
  rcases hp.once with h | ⟨h, -⟩
  · exact h.trans_le (Nat.zero_le 1)
  · exact h.le

theorem reported_once_reporting : ∃ x, Reaches crashing_node sets_only orderly_stream
    abandoned_world x ∧ x.state.count (Event.returns (Call.posts_result "job-1")) = 1 := by
  obtain ⟨x, hx, hposted⟩ := reporting_run
  exact ⟨x, hx, Nat.le_antisymm (reported_once abandoned_world_fresh hx "job-1") hposted⟩

/-- **A job that was reported or cancelled is over**: its state stays as it is, no status is
written for it, and no webhook is called for it any more. -/
theorem over_for_good (hw : Fresh w) (hx : Reaches node cloud orderly_stream w x)
    (hxy : (consumer node cloud orderly_stream).Run x y)
    (hover : x.state.state job_id = some "cancelled" ∨
      0 < x.state.count (Event.returns (Call.posts_result job_id))) :
    y.state.state job_id = x.state.state job_id ∧
      y.state.course job_id = x.state.course job_id := by
  obtain ⟨p, hp, -⟩ := Followers.run hw hx job_id
  obtain ⟨q, hq, -⟩ := Followers.run hw (hx.trans hxy) job_id
  obtain ⟨new, hnew⟩ : ∃ new, y.state.course job_id = new ++ x.state.course job_id :=
    World.course_mono (log_grows hw hx hxy)
  have hfinal : lifecycle.Final p := by
    rcases hover with hcancelled | hreported
    · have hshows : p.shows (some "cancelled") := hcancelled ▸ hp.shows
      exact Phase.eq_cancelled hshows ▸ Phase.final_cancelled
    · rw [← course_count_reported] at hreported
      rcases hp.once with h | ⟨-, h⟩
      · exact absurd h hreported.ne'
      · exact h
  obtain ⟨rfl, rfl⟩ := hp.over hfinal hq hnew
  exact ⟨Phase.shows_unique hfinal hq.shows hp.shows, hnew⟩

/-- `stop()` is called after the report. -/
theorem over_for_good_reporting : ∃ x y, Reaches crashing_node sets_only orderly_stream
      abandoned_world x ∧ (consumer crashing_node sets_only orderly_stream).Run x y ∧
    y.state.self.running = false ∧ y.state.state "job-1" = x.state.state "job-1" ∧
      y.state.course "job-1" = x.state.course "job-1" := by
  obtain ⟨x, hx, hposted⟩ := reporting_run
  let w' : World String := x.state.set_self ({ · with running := false })
  have hd : Drift sets_only x.state w' :=
    { Drift.refl sets_only_refl x.state with self := rfl }
  have hxy : (consumer crashing_node sets_only orderly_stream).Run x ⟨w', x.main, x.tasks⟩ :=
    .single (.drift hd)
  exact ⟨x, _, hx, hxy, rfl, over_for_good abandoned_world_fresh hx hxy (.inr hposted)⟩

end CodaNode
