/-
`Consumer/Ledger.lean` -- what a list of jobs comes to, whichever path it takes.

A `Ledger` is what Redis and the receivers of the webhooks know of a consumer: the recorded
state of each job, the webhooks that were called for it, and the messages that were ACK-ed.
`settle` says in one step what a consumer is for: a job that is over is left as it is, one whose
cancel key is set is recorded as cancelled, and any other one is run and its outcome recorded and
reported. `settle_all` does so for a list of jobs in turn.

The second half is about what a batch does instead: it examines all jobs first, and then marks
those that it accepts. For distinct jobs nothing is lost by that.
-/
import CodaNode.Consumer.Trace
import Mathlib.Data.Set.Insert
import Mathlib.Logic.Function.Basic

set_option autoImplicit false

namespace CodaNode

variable {Ir : Type} {w w' : World Ir}

/-! ## Entries that are updated one by one -/

section Update

variable {K V X : Type} [DecidableEq K] {key : X → K} {g : X → V → V} {f : K → V} {xs : List X}

/-- Updates with other keys leave an entry alone. -/
theorem foldl_update_of_not_mem {k : K} (hk : k ∉ xs.map key) :
    xs.foldl (fun f x => Function.update f (key x) (g x (f (key x)))) f k = f k := by
  induction xs generalizing f with
  | nil => rfl
  | cons x rest ih =>
      rw [List.map_cons, List.mem_cons, not_or] at hk
      rw [List.foldl_cons, ih hk.2, Function.update_of_ne hk.1]

/-- With distinct keys, each entry is updated once. -/
theorem foldl_update_of_mem {x : X} (hnodup : (xs.map key).Nodup) (hx : x ∈ xs) :
    xs.foldl (fun f x => Function.update f (key x) (g x (f (key x)))) f (key x) =
      g x (f (key x)) := by
  induction xs generalizing f with
  | nil => cases hx
  | cons y rest ih =>
      rw [List.map_cons, List.nodup_cons] at hnodup
      rw [List.foldl_cons]
      rcases List.mem_cons.1 hx with rfl | hx
      · rw [foldl_update_of_not_mem hnodup.1, Function.update_self]
      · have hne : key x ≠ key y := fun h => hnodup.1 (h ▸ List.mem_map_of_mem hx)
        rw [ih hnodup.2 hx, Function.update_of_ne hne]

end Update

/-! ## Ledgers -/

/-- What is known of one job: its recorded state, and the webhooks called for it, newest first. -/
@[ext] structure Account (Ir : Type) where
  state : Option String
  posts : List (Call Ir)

@[ext] structure Ledger (Ir : Type) where
  account : String → Account Ir
  acked : Set String

namespace Ledger

/-- A status record is written. -/
def write (b : Ledger Ir) (job_id st : String) : Ledger Ir where
  account := Function.update b.account job_id { b.account job_id with state := some st }
  acked := b.acked

/-- A webhook is called for the job. -/
def post (b : Ledger Ir) (job_id : String) (c : Call Ir) : Ledger Ir where
  account := Function.update b.account job_id
    ⟨(b.account job_id).state, c :: (b.account job_id).posts⟩
  acked := b.acked

/-- A message is ACK-ed. -/
def ack (b : Ledger Ir) (id : String) : Ledger Ir := { b with acked := insert id b.acked }

/-- The later record counts. -/
@[simp] theorem write_write (b : Ledger Ir) (job_id st st' : String) :
    (b.write job_id st).write job_id st' = b.write job_id st' := by
  simp [write]

end Ledger

/-! ## What a job comes to -/

section Settle

variable (out : Ir → Int → Except Exn ExecutionResult) (cancels : String → Bool)

/-- The job would be run: it is not over, and its cancel key is not set. -/
def Account.accepts (a : Account Ir) (job_id : String) : Bool :=
  !terminal a.state && !cancels job_id

/-- What the job comes to. -/
def Account.settle (a : Account Ir) (job : Parsed Ir) : Account Ir :=
  if terminal a.state then a
  else if cancels job.job_id then { a with state := some "cancelled" }
  else match out job.ir job.shots with
    | .ok result => ⟨some "completed",
        .send_result job.callback_url (completed_payload job.job_id result) :: a.posts⟩
    | .error e => ⟨some "failed", .send_error job.callback_url job.job_id e.text :: a.posts⟩

namespace Account

variable {out cancels} {a : Account Ir} {job : Parsed Ir}

theorem accepts_iff {job_id : String} : a.accepts cancels job_id = true ↔
    terminal a.state = false ∧ cancels job_id = false := by
  simp [accepts]

theorem settle_over (h : terminal a.state = true) : a.settle out cancels job = a := if_pos h

theorem settle_cancelled (h : terminal a.state = false) (hcancels : cancels job.job_id = true) :
    a.settle out cancels job = { a with state := some "cancelled" } := by
  rw [settle, h, if_neg Bool.false_ne_true, if_pos hcancels]

/-- A job that is accepted is run. -/
theorem settle_run (h : a.accepts cancels job.job_id = true) :
    a.settle out cancels job = match out job.ir job.shots with
      | .ok result => ⟨some "completed",
          .send_result job.callback_url (completed_payload job.job_id result) :: a.posts⟩
      | .error e => ⟨some "failed",
          .send_error job.callback_url job.job_id e.text :: a.posts⟩ := by
  obtain ⟨hover, hcancels⟩ := accepts_iff.1 h
  rw [settle, hover, if_neg Bool.false_ne_true, hcancels, if_neg Bool.false_ne_true]

/-- A job that is settled without being run stays as it is. -/
theorem settle_settle (h : a.accepts cancels job.job_id = false) :
    (a.settle out cancels job).settle out cancels job = a.settle out cancels job := by
  cases hover : terminal a.state with
  | true => rw [settle_over hover, settle_over hover]
  | false =>
      have hcancels : cancels job.job_id = true := by simpa [accepts, hover] using h
      rw [settle_cancelled hover hcancels]
      exact settle_over rfl

/-- The mark does not change what the job comes to. -/
theorem settle_marked (h : a.accepts cancels job.job_id = true) :
    settle out cancels { a with state := some "executing" } job = a.settle out cancels job := by
  have h' : accepts cancels { a with state := some "executing" } job.job_id = true :=
    accepts_iff.2 ⟨rfl, (accepts_iff.1 h).2⟩
  rw [settle_run h, settle_run h']

end Account

namespace Ledger

/-- The job is settled and its message ACK-ed. -/
def settle (b : Ledger Ir) (job : Parsed Ir) : Ledger Ir where
  account := Function.update b.account job.job_id
    ((b.account job.job_id).settle out cancels job)
  acked := insert job.msg.id b.acked

/-- The jobs are settled one after the other. -/
def settle_all (b : Ledger Ir) (jobs : List (Parsed Ir)) : Ledger Ir :=
  jobs.foldl (fun b job => b.settle out cancels job) b

/-- The jobs are marked as executing. -/
def mark_all (b : Ledger Ir) (jobs : List (Parsed Ir)) : Ledger Ir :=
  jobs.foldl (fun b job => b.write job.job_id "executing") b

/-- The jobs that a batch accepts. -/
def accepted (b : Ledger Ir) (jobs : List (Parsed Ir)) : List (Parsed Ir) :=
  jobs.filter fun job => (b.account job.job_id).accepts cancels job.job_id

/-- The jobs that a batch is done with once it has examined them. -/
def skipped (b : Ledger Ir) (jobs : List (Parsed Ir)) : List (Parsed Ir) :=
  jobs.filter fun job => !(b.account job.job_id).accepts cancels job.job_id

variable {out cancels} {b b' : Ledger Ir} {jobs : List (Parsed Ir)} {job : Parsed Ir} {j : String}

@[simp] theorem settle_all_nil : b.settle_all out cancels [] = b := rfl

@[simp] theorem settle_all_cons : b.settle_all out cancels (job :: jobs) =
    (b.settle out cancels job).settle_all out cancels jobs := rfl

theorem settle_all_append (jobs' : List (Parsed Ir)) : b.settle_all out cancels (jobs ++ jobs') =
    (b.settle_all out cancels jobs).settle_all out cancels jobs' := List.foldl_append

/-! ### One entry of a ledger -/

theorem settle_all_account : (b.settle_all out cancels jobs).account =
    jobs.foldl (fun f job => Function.update f job.job_id
      ((f job.job_id).settle out cancels job)) b.account := by
  induction jobs generalizing b with
  | nil => rfl
  | cons job rest ih => rw [settle_all_cons, ih, settle, List.foldl_cons]

theorem settle_all_of_not_mem (hj : j ∉ jobs.map Parsed.job_id) :
    (b.settle_all out cancels jobs).account j = b.account j := by
  rw [settle_all_account]
  exact foldl_update_of_not_mem (g := fun job a => Account.settle out cancels a job) hj

/-- Each of several distinct jobs comes to what it would come to by itself. -/
theorem settle_all_of_mem (hnodup : (jobs.map Parsed.job_id).Nodup) (hjob : job ∈ jobs) :
    (b.settle_all out cancels jobs).account job.job_id =
      (b.account job.job_id).settle out cancels job := by
  rw [settle_all_account]
  exact foldl_update_of_mem (g := fun job a => Account.settle out cancels a job) hnodup hjob

theorem mem_settle_all_acked {id : String} : id ∈ (b.settle_all out cancels jobs).acked ↔
    id ∈ b.acked ∨ id ∈ jobs.map fun job => job.msg.id := by
  induction jobs generalizing b with
  | nil => simp
  | cons job rest ih =>
      rw [settle_all_cons, ih, settle, Set.mem_insert_iff, List.map_cons, List.mem_cons]
      tauto

theorem mark_all_account : (b.mark_all jobs).account =
    jobs.foldl (fun f job => Function.update f job.job_id
      { f job.job_id with state := some "executing" }) b.account := by
  induction jobs generalizing b with
  | nil => rfl
  | cons job rest ih =>
      rw [mark_all, List.foldl_cons, ← mark_all, ih, write, List.foldl_cons]

theorem mark_all_of_not_mem (hj : j ∉ jobs.map Parsed.job_id) :
    (b.mark_all jobs).account j = b.account j := by
  rw [mark_all_account]
  exact foldl_update_of_not_mem
    (g := fun _ (a : Account Ir) => { a with state := some "executing" }) hj

theorem mark_all_of_mem (hnodup : (jobs.map Parsed.job_id).Nodup) (hjob : job ∈ jobs) :
    (b.mark_all jobs).account job.job_id =
      { b.account job.job_id with state := some "executing" } := by
  rw [mark_all_account]
  exact foldl_update_of_mem
    (g := fun _ (a : Account Ir) => { a with state := some "executing" }) hnodup hjob

@[simp] theorem mark_all_acked : (b.mark_all jobs).acked = b.acked := by
  induction jobs generalizing b with
  | nil => rfl
  | cons job rest ih => rw [mark_all, List.foldl_cons, ← mark_all, ih, write]

/-- A ledger in which each of several distinct jobs has come to what it should. -/
theorem eq_settle_all (hnodup : (jobs.map Parsed.job_id).Nodup)
    (hmem : ∀ job ∈ jobs, b'.account job.job_id = (b.account job.job_id).settle out cancels job)
    (hothers : ∀ j, j ∉ jobs.map Parsed.job_id → b'.account j = b.account j)
    (hacked : ∀ id, id ∈ b'.acked ↔ id ∈ b.acked ∨ id ∈ jobs.map fun job => job.msg.id) :
    b' = b.settle_all out cancels jobs := by
  refine Ledger.ext (funext fun j => ?_) (Set.ext fun id => ?_)
  · by_cases hj : j ∈ jobs.map Parsed.job_id
    · obtain ⟨job, hjob, rfl⟩ := List.mem_map.1 hj
      rw [hmem job hjob, settle_all_of_mem hnodup hjob]
    · rw [hothers j hj, settle_all_of_not_mem hj]
  · rw [hacked id, mem_settle_all_acked]

/-! ### A batch -/

theorem accepted_nodup (hnodup : (jobs.map Parsed.job_id).Nodup) :
    ((b.accepted cancels jobs).map Parsed.job_id).Nodup :=
  hnodup.sublist (List.filter_sublist.map _)

theorem skipped_nodup (hnodup : (jobs.map Parsed.job_id).Nodup) :
    ((b.skipped cancels jobs).map Parsed.job_id).Nodup :=
  hnodup.sublist (List.filter_sublist.map _)

/-- A job that is accepted is not among those that are skipped. -/
theorem not_mem_skipped (hjob : job ∈ b.accepted cancels jobs) :
    job.job_id ∉ (b.skipped cancels jobs).map Parsed.job_id := by
  intro hin
  obtain ⟨job', hjob', hid⟩ := List.mem_map.1 hin
  have hyes : (b.account job.job_id).accepts cancels job.job_id = true := (List.mem_filter.1 hjob).2
  have hno := (List.mem_filter.1 hjob').2
  rw [hid, hyes] at hno
  cases hno

theorem not_mem_accepted_of_skipped (hjob : job ∈ b.skipped cancels jobs) :
    job.job_id ∉ (b.accepted cancels jobs).map Parsed.job_id := by
  intro hin
  obtain ⟨job', hjob', hid⟩ := List.mem_map.1 hin
  exact not_mem_skipped hjob' (hid ▸ List.mem_map_of_mem hjob)

theorem not_mem_accepted (hj : j ∉ jobs.map Parsed.job_id) :
    j ∉ (b.accepted cancels jobs).map Parsed.job_id := fun hin =>
  hj ((List.filter_sublist.map _).subset hin)

variable (cancels b) in
theorem mem_accepted_or_skipped (hjob : job ∈ jobs) :
    job ∈ b.accepted cancels jobs ∨ job ∈ b.skipped cancels jobs := by
  cases h : (b.account job.job_id).accepts cancels job.job_id with
  | true => exact .inl (List.mem_filter.2 ⟨hjob, h⟩)
  | false => exact .inr (List.mem_filter.2 ⟨hjob, by rw [h]; rfl⟩)

variable (b) in
/-- The ledger when the jobs are handed to the executor. -/
def prepared (out : Ir → Int → Except Exn ExecutionResult) (cancels : String → Bool)
    (jobs : List (Parsed Ir)) : Ledger Ir :=
  (b.settle_all out cancels (b.skipped cancels jobs)).mark_all (b.accepted cancels jobs)

section Prepared

variable (hnodup : (jobs.map Parsed.job_id).Nodup)
include hnodup

theorem prepared_of_accepted (hjob : job ∈ b.accepted cancels jobs) :
    (b.prepared out cancels jobs).account job.job_id =
      { b.account job.job_id with state := some "executing" } := by
  rw [prepared, mark_all_of_mem (accepted_nodup hnodup) hjob,
    settle_all_of_not_mem (not_mem_skipped hjob)]

theorem prepared_of_skipped (hjob : job ∈ b.skipped cancels jobs) :
    (b.prepared out cancels jobs).account job.job_id =
      (b.account job.job_id).settle out cancels job := by
  rw [prepared, mark_all_of_not_mem (not_mem_accepted_of_skipped hjob),
    settle_all_of_mem (skipped_nodup hnodup) hjob]

omit hnodup in
theorem prepared_of_not_mem (hj : j ∉ jobs.map Parsed.job_id) :
    (b.prepared out cancels jobs).account j = b.account j := by
  rw [prepared, mark_all_of_not_mem (not_mem_accepted hj)]
  exact settle_all_of_not_mem fun hin => hj ((List.filter_sublist.map _).subset hin)

/-- What each job would come to from there is what it would have come to. -/
theorem prepared_settle (hjob : job ∈ jobs) :
    ((b.prepared out cancels jobs).account job.job_id).settle out cancels job =
      (b.account job.job_id).settle out cancels job := by
  rcases mem_accepted_or_skipped cancels b hjob with h | h
  · rw [prepared_of_accepted hnodup h, Account.settle_marked (List.mem_filter.1 h).2]
  · have hno : (b.account job.job_id).accepts cancels job.job_id = false := by
      simpa using (List.mem_filter.1 h).2
    rw [prepared_of_skipped hnodup h, Account.settle_settle hno]

omit hnodup in
theorem mem_prepared_acked {id : String} : id ∈ (b.prepared out cancels jobs).acked ↔
    id ∈ b.acked ∨ id ∈ (b.skipped cancels jobs).map fun job => job.msg.id := by
  rw [prepared, mark_all_acked, mem_settle_all_acked]

omit hnodup in
theorem prepared_acked_subset {id : String} (h : id ∈ (b.prepared out cancels jobs).acked) :
    id ∈ b.acked ∨ id ∈ jobs.map fun job => job.msg.id :=
  (mem_prepared_acked.1 h).imp_right fun h => (List.filter_sublist.map _).subset h

/-- **The fallback of a batch**: the jobs are handled one by one after all. -/
theorem settle_all_prepared : (b.prepared out cancels jobs).settle_all out cancels jobs =
    b.settle_all out cancels jobs := by
  refine eq_settle_all hnodup (fun job hjob => ?_) (fun j hj => ?_) fun id => ?_
  · rw [settle_all_of_mem hnodup hjob, prepared_settle hnodup hjob]
  · rw [settle_all_of_not_mem hj, prepared_of_not_mem hj]
  · rw [mem_settle_all_acked]
    refine ⟨fun h => h.elim prepared_acked_subset .inr, fun h => h.imp_left fun h => ?_⟩
    exact mem_prepared_acked.2 (.inl h)

/-- **A batch that is delivered**: each of the accepted jobs is settled. -/
theorem settle_accepted_prepared :
    (b.prepared out cancels jobs).settle_all out cancels (b.accepted cancels jobs) =
      b.settle_all out cancels jobs := by
  have haccepted : ((b.accepted cancels jobs).map Parsed.job_id).Nodup := accepted_nodup hnodup
  refine eq_settle_all hnodup (fun job hjob => ?_) (fun j hj => ?_) fun id => ?_
  · rcases mem_accepted_or_skipped cancels b hjob with h | h
    · rw [settle_all_of_mem haccepted h, prepared_settle hnodup hjob]
    · rw [settle_all_of_not_mem (not_mem_accepted_of_skipped h), prepared_of_skipped hnodup h]
  · rw [settle_all_of_not_mem (not_mem_accepted hj), prepared_of_not_mem hj]
  · rw [mem_settle_all_acked]
    constructor
    · rintro (h | h)
      · exact prepared_acked_subset h
      · exact .inr ((List.filter_sublist.map _).subset h)
    · rintro (h | h)
      · exact .inl (mem_prepared_acked.2 (.inl h))
      · obtain ⟨job, hjob, rfl⟩ := List.mem_map.1 h
        rcases mem_accepted_or_skipped cancels b hjob with h | h
        · exact .inr (List.mem_map_of_mem (f := fun job => job.msg.id) h)
        · exact .inl (mem_prepared_acked.2
            (.inr (List.mem_map_of_mem (f := fun job => job.msg.id) h)))

end Prepared

end Ledger

end Settle

end CodaNode
