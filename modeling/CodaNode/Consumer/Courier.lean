/-
`Consumer/Courier.lean` -- the delivery of a batch settles its jobs.

The delivery starts from a ledger in which each job `todo` of the batch is marked. It creates
one task for each job, and whatever the order in which these take their turns, each of them
settles its job and nothing else. `Underway` is what holds meanwhile; the agreement between the
loop and the tasks that says so is `couriers`.
-/
import CodaNode.Consumer.BatchPath
import CodaNode.Consumer.CrewTasks
import Mathlib.Data.List.Nodup

set_option autoImplicit false

open Coroutine

namespace CodaNode

variable {Ir : Type} {node : Node Ir} {w w' s : World Ir} {i k : Nat} {t : TaskSpec Ir}
variable {out : Ir → Int → Except Exn ExecutionResult} {b c : Ledger Ir}
variable {job : Parsed Ir} {todo : List (Parsed Ir)} {j : String} {m : Message}
variable {f : Ledger Ir → Ledger Ir}

/-- The task has ended, with the outcome `r`. -/
def World.Ended (w : World Ir) (i : Nat) (t : TaskSpec Ir) (r : Except Exn Unit) : Prop :=
  w.tasks[i]? = some (t, some r)

/-- The delivery of a batch is the task that writes no file. -/
theorem TaskSpec.is_batch_iff : t.is_batch = true ↔ t.job = none := by
  cases t with
  | deliver_batch_results parsed results => exact ⟨fun _ => rfl, fun _ => rfl⟩
  | deliver_single_batch_result m job_id url result completed_at =>
      exact ⟨fun h => (by cases h), fun h => (by cases h)⟩

/-! ## What the others may rely on -/

/-- The file of a job shows its account. -/
theorem World.account_of_file (h : w'.file j = w.file j) : w'.account j = w.account j := by
  let call : JobEvent → Option (Call Ir) := fun e =>
    match e with
    | .result_begun url payload => some (.send_result url payload)
    | .error_begun url text => some (.send_error url j text)
    | _ => none
  have hposts : ∀ w : World Ir, w.posts j = (w.course j).filterMap call := by
    intro w
    rw [World.posts, World.course, List.filterMap_filterMap]
    refine List.filterMap_congr fun x _ => ?_
    cases x.event with
    | mark x => rfl
    | started q =>
        obtain ⟨msg, c⟩ := q
        cases c <;> first
          | rfl
          | (simp only [Event.of_job, Call.opens, Call.reports, beq_iff_eq]
             split
             · next h => simp [call, h]
             · rfl)
    | ended q took r =>
        obtain ⟨msg, c⟩ := q
        simp only [Event.of_job]
        cases c with
        | hset key mapping =>
            rw [Call.closes_hset]
            split
            · cases record_state mapping <;> rfl
            · rfl
        | send_result url payload => simp only [Call.closes]; split <;> rfl
        | send_error url j' text => simp only [Call.closes]; split <;> rfl
        | _ => rfl
  have hcourse : w'.course j = w.course j := congrArg File.course h
  have hstate : w'.state j = w.state j := congrArg File.state h
  rw [World.account, World.account, hposts, hposts, hcourse, hstate]

/-- What is awaited for no message leaves the ledger alone. -/
theorem World.ledger_of_inner {c : Call Ir} {r : Except Exn c.Reply} (hc : c.prompt = false)
    (h : answers node ⟨none, c⟩ w r w') : w'.ledger = w.ledger := by
  have hacks : ∀ id, c.acks id = false := by
    cases c <;> first | exact fun _ => rfl | cases hc
  obtain ⟨took, hlog⟩ := (Answered.of_answers h).log
  refine Ledger.ext (funext fun j => ?_) (Set.ext fun id => ?_)
  · exact World.account_of_file ((Crew.Neutral.of_answered hc h).files j)
  · simp [ledger, count, hlog, hacks id]

/-- What has been ACK-ed stays so. -/
theorem World.acked_mono (hlog : w.log <:+ w'.log) {id : String} (h : id ∈ w.ledger.acked) :
    id ∈ w'.ledger.acked := Nat.lt_of_lt_of_le h (hlog.sublist.countP_le)

namespace Booking

variable (hf : Booking m j f)
include hf

/-- The other jobs are left alone. -/
theorem account_of_ne {j' : String} (hne : j' ≠ j) : (f b).account j' = b.account j' := by
  cases hf with
  | still => rfl
  | write st => exact Function.update_of_ne hne _ _
  | post c => exact Function.update_of_ne hne _ _
  | ack => rfl

theorem account_congr (h : b.account j = c.account j) : (f b).account j = (f c).account j := by
  cases hf with
  | still => exact h
  | write st => simp [Ledger.write, h]
  | post c => simp [Ledger.post, h]
  | ack => exact h

theorem acked {id : String} (h : id ∈ (f b).acked) : id ∈ b.acked ∨ id = m.id := by
  cases hf with
  | ack => exact (Set.mem_insert_iff.1 h).symm
  | _ => exact .inl h

theorem keeps {id : String} (h : id ∈ b.acked) : id ∈ (f b).acked := by
  cases hf with
  | ack => exact Set.mem_insert_of_mem _ h
  | _ => exact h

theorem acked_congr (h : m.id ∈ b.acked → m.id ∈ c.acked) (hin : m.id ∈ (f b).acked) :
    m.id ∈ (f c).acked := by
  cases hf with
  | ack => exact Set.mem_insert _ _
  | _ => exact h hin

end Booking

/-! ## The agreement -/

namespace Courier

section Agreement

variable (s : World Ir) (out : Ir → Int → Except Exn ExecutionResult) (b : Ledger Ir)
variable (todo : List (Parsed Ir))

/-- The job has come to what it should, and its message is ACK-ed. -/
def Told (job : Parsed Ir) (w : World Ir) : Prop :=
  w.ledger.account job.job_id = (b.account job.job_id).settle out s.cancels job ∧
    job.msg.id ∈ w.ledger.acked

/-- The batch is being delivered: the tasks are that of the batch and those of its first jobs,
and each that has ended has done its part. -/
structure Underway (w : World Ir) : Prop where
  manifest : w.tasks.map (fun x => x.1.job) <+: none :: todo.map fun job => some job.job_id
  others : ∀ j, j ∉ todo.map Parsed.job_id → w.ledger.account j = b.account j
  acked : ∀ id, id ∈ w.ledger.acked → id ∈ b.acked ∨ id ∈ todo.map fun job => job.msg.id
  kept : ∀ id, id ∈ b.acked → id ∈ w.ledger.acked
  well : ∀ i t r, w.Ended i t r → r = .ok ()
  told : ∀ i t r, w.Ended i t r → ∀ job ∈ todo, t.job = some job.job_id → Told s out b job w
  full : ∀ i t r, w.Ended i t r → t.job = none → w.tasks.length = todo.length + 1

/-- What a delivery starts from: its jobs are marked, and its results are theirs. -/
def Loaded (w : World Ir) : TaskSpec Ir → Prop
  | .deliver_batch_results parsed results => parsed = todo ∧
      List.Forall₂ (fun job result => out job.ir job.shots = .ok result) todo results ∧
      ∀ job ∈ todo, w.ledger.account job.job_id = b.account job.job_id
  | .deliver_single_batch_result m job_id url result _ => ∃ job ∈ todo, m = job.msg ∧
      job_id = job.job_id ∧ url = job.callback_url ∧ out job.ir job.shots = .ok result ∧
      w.ledger.account job.job_id = b.account job.job_id

/-- The agreement on the delivery of `todo`. -/
def couriers : Crew Ir where
  fine w := w.values = s.values ∧ (w.tasks ≠ [] → Underway s out b todo w)
  ready t w := Loaded out b todo w t
  done t r w := r = .ok () ∧ (t.job = none → w.tasks.length = todo.length + 1) ∧
    ∀ job ∈ todo, t.job = some job.job_id → Told s out b job w

end Agreement

namespace Underway

variable (h : Underway s out b todo w)
include h

theorem at_index {x : TaskSpec Ir × Option (Except Exn Unit)} (hi : w.tasks[i]? = some x) :
    (none :: todo.map fun job => some job.job_id)[i]? = some x.1.job := by
  have hlt : i < (w.tasks.map fun x => x.1.job).length := by
    rw [List.length_map]
    exact (List.getElem?_eq_some_iff.1 hi).1
  rw [Kernel.get_of_le h.manifest hlt, List.getElem?_map, hi]
  rfl

/-- Only the first task is the delivery of the batch. -/
theorem eq_zero {x : TaskSpec Ir × Option (Except Exn Unit)} (hi : w.tasks[i]? = some x)
    (hx : x.1.job = none) : i = 0 := by
  have hat := h.at_index hi
  rw [hx] at hat
  cases i with
  | zero => rfl
  | succ i =>
      rw [List.getElem?_cons_succ, List.getElem?_map] at hat
      obtain ⟨job, -, hjob⟩ := Option.map_eq_some_iff.1 hat
      cases hjob

/-- A job belongs to one task. -/
theorem unique (hnodup : (todo.map Parsed.job_id).Nodup)
    {x y : TaskSpec Ir × Option (Except Exn Unit)} (hi : w.tasks[i]? = some x)
    (hk : w.tasks[k]? = some y) (hx : x.1.job = some j) (hy : y.1.job = some j) : i = k := by
  have hnodup' : (none :: todo.map fun job => some job.job_id).Nodup := by
    refine List.nodup_cons.2 ⟨by simp, ?_⟩
    have hmap : (todo.map fun job => some job.job_id) = (todo.map Parsed.job_id).map some := by
      rw [List.map_map]
      rfl
    rw [hmap]
    exact List.Nodup.map (fun _ _ h => Option.some.inj h) hnodup
  have hati := h.at_index hi
  have hatk := h.at_index hk
  rw [hx] at hati
  rw [hy] at hatk
  exact (List.getElem?_inj (List.getElem?_eq_some_iff.1 hati).1 hnodup').1 (hati.trans hatk.symm)

theorem length_le : w.tasks.length ≤ todo.length + 1 := by
  have hle := h.manifest.length_le
  rwa [List.length_map, List.length_cons, List.length_map] at hle

/-- **When the batch has been delivered, its jobs are settled.** -/
theorem settled (hnodup : (todo.map Parsed.job_id).Nodup) (hover : w.Over)
    (hlen : w.tasks.length = todo.length + 1) :
    w.ledger = b.settle_all out s.cancels todo := by
  have htold : ∀ job ∈ todo, Told s out b job w := by
    intro job hjob
    obtain ⟨n, hn, hget⟩ := List.getElem_of_mem hjob
    have hlt : n + 1 < w.tasks.length := by omega
    have hat := h.at_index (List.getElem?_eq_getElem hlt)
    rw [List.getElem?_cons_succ, List.getElem?_map, List.getElem?_eq_getElem hn, hget] at hat
    cases hx : w.tasks[n + 1] with
    | mk t o =>
        have hi : w.tasks[n + 1]? = some (t, o) := by rw [List.getElem?_eq_getElem hlt, hx]
        rw [hx] at hat
        cases o with
        | none => exact absurd hi (hover (n + 1) t)
        | some r => exact h.told _ t r hi job hjob (Option.some.inj hat).symm
  refine Ledger.eq_settle_all hnodup (fun job hjob => (htold job hjob).1) h.others fun id => ?_
  refine ⟨h.acked id, fun hid => hid.elim (h.kept id) fun hid => ?_⟩
  obtain ⟨job, hjob, rfl⟩ := List.mem_map.1 hid
  exact (htold job hjob).2

/-! ### Steps -/

/-- A step that the tasks and the ledger do not show. -/
theorem same (htasks : w'.tasks = w.tasks) (hledger : w'.ledger = w.ledger) :
    Underway s out b todo w' where
  manifest := by rw [htasks]; exact h.manifest
  others j hj := by rw [hledger]; exact h.others j hj
  acked id hid := h.acked id (hledger ▸ hid)
  kept id hid := hledger ▸ h.kept id hid
  well i t r hi := h.well i t r (by rwa [World.Ended, ← htasks])
  told i t r hi job hjob ht := by
    rw [Told, hledger]
    exact h.told i t r (by rwa [World.Ended, ← htasks]) job hjob ht
  full i t r hi ht := by
    rw [htasks]
    exact h.full i t r (by rwa [World.Ended, ← htasks]) ht

/-- A live task keeps the books of its job: what the others have done is left alone. -/
theorem move (hnodup : (todo.map Parsed.job_id).Nodup) (hlive : w.Live i t) (hjob : job ∈ todo)
    (hj : t.job = some job.job_id) (hf : Booking job.msg job.job_id f) (htasks : w'.tasks = w.tasks)
    (hledger : w'.ledger = f w.ledger) : Underway s out b todo w' where
  manifest := by rw [htasks]; exact h.manifest
  others j' hj' := by
    have hne : j' ≠ job.job_id := fun he => hj' (he ▸ List.mem_map_of_mem hjob)
    rw [hledger, hf.account_of_ne hne]
    exact h.others j' hj'
  acked id hid := by
    rcases hf.acked (hledger ▸ hid) with hid | rfl
    · exact h.acked id hid
    · exact .inr (List.mem_map_of_mem (f := fun job => job.msg.id) hjob)
  kept id hid := hledger ▸ hf.keeps (h.kept id hid)
  well k u r hk := h.well k u r (by rwa [World.Ended, ← htasks])
  told k u r hk job' hjob' hu := by
    have hk' : w.Ended k u r := by rwa [World.Ended, ← htasks]
    have htold := h.told k u r hk' job' hjob' hu
    have hne : job'.job_id ≠ job.job_id := by
      intro he
      obtain rfl : i = k := h.unique hnodup hlive hk' hj (he ▸ hu)
      cases hlive.symm.trans hk'
    rw [Told, hledger, hf.account_of_ne hne]
    exact ⟨htold.1, hf.keeps htold.2⟩
  full k u r hk hu := by
    rw [htasks]
    exact h.full k u r (by rwa [World.Ended, ← htasks]) hu

/-- The tasks of the first jobs, if so many have been created. -/
theorem specs {done rest : List (Parsed Ir)} (htodo : todo = done ++ rest)
    (hlen : w.tasks.length = done.length + 1) :
    w.tasks.map (fun x => x.1.job) = none :: done.map fun job => some job.job_id := by
  have htake := List.prefix_iff_eq_take.1 h.manifest
  rw [List.length_map, hlen, htodo, List.map_append, List.take_succ_cons] at htake
  rw [htake, List.take_left' (List.length_map _)]

/-- The next job has no task yet. -/
theorem not_taken {done rest : List (Parsed Ir)} (hnodup : (todo.map Parsed.job_id).Nodup)
    (htodo : todo = done ++ job :: rest) (hlen : w.tasks.length = done.length + 1)
    {x : TaskSpec Ir × Option (Except Exn Unit)} (hx : w.tasks[k]? = some x) :
    x.1.job ≠ some job.job_id := by
  intro hj
  have hin : some job.job_id ∈ w.tasks.map fun x => x.1.job :=
    hj ▸ List.mem_map_of_mem (List.mem_of_getElem? hx)
  rw [h.specs htodo hlen] at hin
  rcases List.mem_cons.1 hin with hnone | hin
  · cases hnone
  · obtain ⟨job', hjob', hid⟩ := List.mem_map.1 hin
    rw [htodo, List.map_append, List.map_cons, List.nodup_middle, List.nodup_cons] at hnodup
    refine hnodup.1 (List.mem_append_left _ ?_)
    exact Option.some.inj hid ▸ List.mem_map_of_mem hjob'

/-- The live delivery creates the task of the next job. -/
theorem create {done rest : List (Parsed Ir)} {u : TaskSpec Ir} (hlive : w.Live 0 t)
    (htodo : todo = done ++ job :: rest) (hlen : w.tasks.length = done.length + 1)
    (hu : u.job = some job.job_id) : Underway s out b todo (w.create_task u) := by
  have hledger : (w.create_task u).ledger = w.ledger := World.ledger_of_log rfl rfl
  have hended : ∀ k v r, (w.create_task u).Ended k v r → w.Ended k v r := by
    intro k v r hk
    rw [World.Ended, World.create_task_tasks] at hk
    rcases Nat.lt_or_ge k w.tasks.length with hlt | hge
    · rwa [List.getElem?_append_left hlt] at hk
    · rw [List.getElem?_append_right hge, List.getElem?_singleton] at hk
      split at hk <;> cases hk
  refine ⟨?_, fun j hj => ?_, fun id hid => h.acked id (hledger ▸ hid),
    fun id hid => hledger ▸ h.kept id hid, fun k v r hk => h.well k v r (hended k v r hk),
    fun k v r hk job hjob hv => ?_, fun k v r hk hv => ?_⟩
  · rw [World.create_task_tasks, List.map_append, h.specs htodo hlen, htodo]
    exact ⟨rest.map fun job => some job.job_id, by simp [hu]⟩
  · rw [hledger]
    exact h.others j hj
  · rw [Told, hledger]
    exact h.told k v r (hended k v r hk) job hjob hv
  · -- the delivery itself has not ended
    obtain rfl := h.eq_zero (hended k v r hk) hv
    cases hlive.symm.trans (hended 0 v r hk)

/-- A task ends. -/
theorem finish {r : Except Exn Unit} (hlive : w.Live i t) (hr : r = .ok ())
    (hfull : t.job = none → w.tasks.length = todo.length + 1)
    (htold : ∀ job ∈ todo, t.job = some job.job_id → Told s out b job w) :
    Underway s out b todo (w.finish_task i r) := by
  have hledger : (w.finish_task i r).ledger = w.ledger := World.ledger_of_log rfl rfl
  have hended : ∀ k u r', (w.finish_task i r).Ended k u r' →
      w.Ended k u r' ∨ k = i ∧ u = t ∧ r' = r := by
    intro k u r' hk
    rw [World.Ended, World.finish_task_tasks, List.getElem?_modify] at hk
    obtain ⟨x, hx, hval⟩ := Option.map_eq_some_iff.1 hk
    by_cases hki : i = k
    · subst hki
      rw [if_pos rfl] at hval
      cases hlive.symm.trans hx
      cases hval
      exact .inr ⟨rfl, rfl, rfl⟩
    · rw [if_neg hki] at hval
      exact .inl (hx.trans (congrArg some hval))
  have hspecs : (w.finish_task i r).tasks.map (fun x => x.1.job) =
      w.tasks.map fun x => x.1.job := by
    have hjobs := congrArg (List.map TaskSpec.job) (w.finish_task_specs i r)
    rwa [List.map_map, List.map_map] at hjobs
  refine ⟨hspecs ▸ h.manifest, fun j hj => ?_, fun id hid => h.acked id (hledger ▸ hid),
    fun id hid => hledger ▸ h.kept id hid, fun k u r' hk => ?_, fun k u r' hk job hjob hu => ?_,
    fun k u r' hk hu => ?_⟩
  · rw [hledger]
    exact h.others j hj
  · rcases hended k u r' hk with hk | ⟨-, -, rfl⟩
    · exact h.well k u r' hk
    · exact hr
  · rw [Told, hledger]
    rcases hended k u r' hk with hk | ⟨-, rfl, -⟩
    · exact h.told k u r' hk job hjob hu
    · exact htold job hjob hu
  · rw [World.finish_task_tasks, List.length_modify]
    rcases hended k u r' hk with hk | ⟨-, rfl, -⟩
    · exact h.full k u r' hk hu
    · exact hfull hu

end Underway

theorem underway_of_live (h : (couriers s out b todo).Good w) (hlive : w.Live i t) :
    Underway s out b todo w :=
  h.fine.2 fun hnil => by
    rw [World.Live, hnil] at hlive
    cases hlive

theorem couriers_steady : (couriers s out b todo).Steady fixed where
  drift w w' hd h := by
    refine ⟨hd.values.trans h.1, fun hne => ?_⟩
    rw [Drift.tasks hd] at hne
    exact (h.2 hne).same (Drift.tasks hd) (World.ledger_of_log (Drift.hashes hd) (Drift.log hd))
  finish i t r w h :=
    ⟨h.good.fine.1, fun _ => (underway_of_live h.good h.lands.live).finish h.lands.live h.done.1
      h.done.2.1 h.done.2.2⟩

/-! ## The loop before the delivery -/

/-- While no task has been created, the loop is by itself. -/
theorem solitary (hs : s.tasks = []) :
    Solitary ((couriers s out b todo).main node fixed faultless) node s := by
  have hgood : ∀ {c : Ledger Ir} {w : World Ir}, Sits s c w → (couriers s out b todo).Good w := by
    intro c w h
    have htasks := h.tasks.trans hs
    exact .of_no_tasks htasks ⟨h.values, fun hne => absurd htasks hne⟩
  have hover : ∀ {c : Ledger Ir} {w : World Ir}, Sits s c w → w.Over := by
    intro c w h i t hi
    rw [World.Live, h.tasks, hs] at hi
    cases hi
  refine ⟨fun _ _ _ _ _ _ => trivial, fun _ _ _ _ h => h, fun c w w' h hr => ?_,
    fun c c' w w' h h' hlog => ?_⟩
  · obtain ⟨hg, ha⟩ := hr (hgood h)
    obtain ⟨htasks, hhashes, hlog⟩ := ha.away.quiet (hover h)
    exact ⟨hg.fine.1, htasks.trans h.tasks, ha.pending.trans h.pending,
      (World.ledger_of_log hhashes hlog).trans h.ledger⟩
  · have htasks := h'.tasks.trans h.tasks.symm
    exact ⟨hgood h', .inl htasks, .inl (hover h), Crew.provides_of_tasks htasks, hlog⟩

end Courier

end CodaNode
