/-
`Consumer/Outage.lean` -- a job taken on while Redis comes and goes.

`_safe_hset` and `_safe_xack` swallow connection errors, `_has_cancel_signal` does not. So
what an outage does to a running job depends on the lookups of its cancel key alone: as
long as they all succeed the result is posted (`Clean`), and the first one that fails turns
the job into an error (`Missed`), whatever happens to every write.
-/
import CodaNode.Consumer.Single

set_option autoImplicit false

open Coroutine

namespace CodaNode

variable {Ir : Type} {node : Node Ir} {m : Message} {job_id url : String}

/-! ## Runs through an outage -/

/-- The cloud does not set the job's cancel key. -/
def never_set (job_id : String) (v v' : String → Option String) : Prop :=
  v (cancel_key job_id) = none → v' (cancel_key job_id) = none

/-- Redis commands may raise connection errors; everything else succeeds. -/
def outage (q : Req Ir) (_ : World Ir) (r : Except Exn q.Reply) : Prop :=
  (∃ v, r = .ok v) ∨ q.call.is_redis = true ∧ ∃ msg, r = .error (.connection msg)

/-- The runs of `_process_message` from `w`, past the checks at its beginning. -/
def TakesOn (node : Node Ir)
    (cloud : (String → Option String) → (String → Option String) → Prop)
    (allow : (q : Req Ir) → World Ir → Except Exn q.Reply → Prop) (m : Message)
    (decoded : List (String × String)) (job_id url : String) (w : World Ir)
    (x : World Ir × Prog Ir Unit) : Prop :=
  (lone node cloud allow).Run (Co.settle w (take_on node m decoded job_id url)) x

/-- The call looks the job's cancel key up. -/
def Call.looks_up (job_id : String) : Call Ir → Bool
  | get key => key == cancel_key job_id
  | _ => false

/-- How many lookups of the job's cancel key have failed. -/
def World.misses (w : World Ir) (job_id : String) : Nat :=
  w.count (Event.raises (Call.looks_up job_id))

/-- The run was not aborted, and its result is the one webhook begun for the job. -/
def Delivered (job_id url : String) (result : ExecutionResult) (w w' : World Ir) : Prop :=
  w'.exec.aborted = w.exec.aborted ∧
    w'.posts job_id = .send_result url (completed_payload job_id result) :: w.posts job_id

/-! ## The two courses of a job -/

/-- No lookup has failed and no webhook has begun since `w₀`. -/
structure Clean (job_id : String) (w₀ w : World Ir) : Prop where
  key : w.values (cancel_key job_id) = none
  posts : w.posts job_id = w₀.posts job_id
  misses : w.misses job_id = w₀.misses job_id
  aborted : w.exec.aborted = w₀.exec.aborted

/-- A lookup has failed since `w₀`, and no webhook has begun. -/
structure Missed (job_id : String) (w₀ w : World Ir) : Prop where
  key : w.values (cancel_key job_id) = none
  posts : w.posts job_id = w₀.posts job_id
  misses : w₀.misses job_id < w.misses job_id

/-- A lookup has failed since `w₀`, and at most an error was reported. -/
structure Lost (job_id url : String) (w₀ w : World Ir) : Prop where
  posts : w.posts job_id = w₀.posts job_id ∨
    ∃ e, w.posts job_id = .send_error url job_id e :: w₀.posts job_id
  misses : w₀.misses job_id < w.misses job_id

/-- What the contract of this file asks and grants. -/
def offline (node : Node Ir) (job_id : String) :
    Contract (World Ir) (@Req.Reply Ir) Exn where
  pre q _ := q.call.prompt = true
  rely := Drift (never_set job_id)
  answer := (lone node (never_set job_id) outage).answer
  keep _ _ := True

variable {w₀ w w' : World Ir}

/-- Two worlds that differ in nothing that the two courses speak of. -/
structure Unseen (job_id : String) (w w' : World Ir) : Prop where
  key : w.values (cancel_key job_id) = none → w'.values (cancel_key job_id) = none
  posts : w'.posts job_id = w.posts job_id
  misses : w'.misses job_id = w.misses job_id
  aborted : w'.exec.aborted = w.exec.aborted
  active : w'.exec.active ⊆ w.exec.active
  runs : w'.exec.runs = w.exec.runs

theorem Unseen.of_drift (h : Drift (never_set job_id) w w') : Unseen job_id w w' where
  key := h.values
  posts := by simp only [World.posts, h.log]
  misses := by simp only [World.misses, World.count, h.log]
  aborted := by rw [h.exec.1]
  active := h.exec.2.1
  runs := by rw [h.exec.1]

theorem Clean.unseen (h : Clean job_id w₀ w) (hu : Unseen job_id w w') : Clean job_id w₀ w' where
  key := hu.key h.key
  posts := hu.posts.trans h.posts
  misses := hu.misses.trans h.misses
  aborted := hu.aborted.trans h.aborted

theorem Missed.unseen (h : Missed job_id w₀ w) (hu : Unseen job_id w w') :
    Missed job_id w₀ w' where
  key := hu.key h.key
  posts := hu.posts.trans h.posts
  misses := hu.misses ▸ h.misses

/-- A fact that the steps between two lookups do not touch. -/
def Blind (job_id : String) (P : World Ir → Prop) : Prop :=
  ∀ w w', P w → Unseen job_id w w' → P w'

/-- What a failed lookup does: nothing but being counted. -/
structure Miss (job_id : String) (w w' : World Ir) : Prop where
  key : w'.values (cancel_key job_id) = none
  posts : w'.posts job_id = w.posts job_id
  misses : w.misses job_id < w'.misses job_id

/-- The first failed lookup. -/
theorem Clean.miss (h : Clean job_id w₀ w) (hm : Miss job_id w w') :
    Missed job_id w₀ w' where
  key := hm.key
  posts := hm.posts.trans h.posts
  misses := h.misses ▸ hm.misses

/-- Another failed lookup. -/
theorem Missed.miss (h : Missed job_id w₀ w) (hm : Miss job_id w w') :
    Missed job_id w₀ w' where
  key := hm.key
  posts := hm.posts.trans h.posts
  misses := Nat.lt_trans h.misses hm.misses

/-! ## One rule for each operation -/

section Rules

variable {P : World Ir → Prop} {α : Type}

/-- Any operation other than a lookup and the webhooks of the job. -/
theorem offline_call (hP : Blind job_id P) (h : P w) {c : Call Ir} (hc : c.prompt = true)
    (hlook : c.looks_up job_id = false) {Q : Except Exn c.Reply → World Ir → Prop}
    (hQ : ∀ w₁ r w', P w₁ → (lone node (never_set job_id) outage).answer ⟨some m, c⟩ w₁ r w' →
      P w' → Q r w') :
    (offline node job_id).wp (on m c) Q w := by
  refine (Contract.wp_call _ _ _).2 ⟨hc, fun w₁ hr r w' ha => ⟨trivial, ?_⟩⟩
  have h₁ : P w₁ := hP w w₁ h (.of_drift hr)
  refine hQ w₁ r w' h₁ ha (hP w₁ w' h₁ ?_)
  -- whatever the call is, the log gains one line that is no lookup
  have hrec : ∀ {w₂ : World Ir} {took : Bool}, Unseen job_id w₁ w₂ →
      Unseen job_id w₁ (w₂.record (.ended ⟨some m, c⟩ took r)) := by
    intro w₂ took hu
    refine ⟨hu.key, ?_, ?_, hu.aborted, hu.active, hu.runs⟩
    · rw [World.posts_ended]
      exact hu.posts
    · cases r with
      | ok v => simpa [World.misses] using hu.misses
      | error e => simpa [World.misses, hlook] using hu.misses
  have hsame : Unseen job_id w₁ w₁ := ⟨id, rfl, rfl, rfl, List.Subset.refl _, rfl⟩
  have hperf : ∀ v w₂, performs node c w₁ v w₂ → Unseen job_id w₁ w₂ := by
    intro v w₂ hp
    have hfinish : ∀ k, Unseen job_id w₁ (w₁.set_exec (·.finish_run k)) := fun k =>
      ⟨id, rfl, rfl, rfl, fun x hx => (List.mem_filter.1 hx).1, rfl⟩
    cases c with
    | hget key field => obtain ⟨-, rfl⟩ := hp; exact hsame
    | hset key mapping => cases hp; exact ⟨id, rfl, rfl, rfl, List.Subset.refl _, rfl⟩
    | get key => obtain ⟨-, rfl⟩ := hp; exact hsame
    | xack message_id => cases hp; exact ⟨id, rfl, rfl, rfl, List.Subset.refl _, rfl⟩
    | wait k timed_out =>
        cases timed_out <;> cases hp
        · exact hfinish k
        · exact hsame
    | cancel_current_job => cases hp; exact hsame
    | unwind k => cases hp; exact hfinish k
    | send_result url payload => cases hp; exact hsame
    | send_error url j text => cases hp; exact hsame
    | _ => cases hc
  rcases ha.1 with ⟨v, w₂, hp, -, rfl⟩ | ⟨e, -, -, -, rfl⟩ | ⟨e, v, w₂, -, -, hp, -, rfl⟩
  · exact hrec (hperf v w₂ hp)
  · exact hrec hsame
  · exact hrec (hperf v w₂ hp)

/-- A lookup of the cancel key: the key is not set, or the lookup is missed. -/
theorem offline_lookup (hP : Blind job_id P) (h : P w)
    (hkey : ∀ w, P w → w.values (cancel_key job_id) = none)
    {Q : Except Exn Bool → World Ir → Prop} (hok : ∀ w', P w' → Q (.ok false) w')
    (herr : ∀ w₁ w' msg, P w₁ → Miss job_id w₁ w' → Q (.error (.connection msg)) w') :
    (offline node job_id).wp (has_cancel_signal m job_id) Q w := by
  refine (Contract.wp_bind _ _ _ _).2 ((Contract.wp_call _ _ _).2
    ⟨rfl, fun w₁ hr r w' ha => ⟨trivial, ?_⟩⟩)
  have h₁ : P w₁ := hP w w₁ h (.of_drift hr)
  obtain ⟨hans, hall⟩ := ha
  rcases hall with ⟨v, rfl⟩ | ⟨-, msg, rfl⟩
  · obtain ⟨w₂, ⟨hv, rfl⟩, rfl⟩ := answers_ok.1 hans
    have hnone : v = none := hv.trans (hkey _ h₁)
    subst hnone
    refine hok _ (hP _ _ h₁ ⟨id, rfl, ?_, rfl, List.Subset.refl _, rfl⟩)
    simp only [World.misses, World.count_record, Event.raises_ok]
    rfl
  · -- the lookup has no effect either way
    have hw' : ∃ took, w' = w₁.record
        (.ended ⟨some m, .get (cancel_key job_id)⟩ took (.error (.connection msg))) := by
      obtain ⟨-, ⟨-, rfl⟩ | ⟨-, v, w₂, ⟨-, rfl⟩, rfl⟩⟩ := answers_error.1 hans
      · exact ⟨false, rfl⟩
      · exact ⟨true, rfl⟩
    obtain ⟨took, rfl⟩ := hw'
    refine herr w₁ _ msg h₁ ⟨hkey w₁ h₁, rfl, ?_⟩
    simp only [World.misses, World.count_record, Event.raises_error, Call.looks_up, beq_self_eq_true,
      if_true]
    omega

/-- `_safe_hset` and `_safe_xack` return, whatever Redis does. -/
theorem offline_safe (hP : Blind job_id P) (h : P w) {c : Call Ir} (hc : c.prompt = true)
    (hlook : c.looks_up job_id = false)
    {Q : Except Exn Bool → World Ir → Prop} (hQ : ∀ w' b, P w' → Q (.ok b) w') :
    (offline node job_id).wp (Co.try_except
      (do let _ ← on m c; pure true)
      (fun e => if e.is_connection then pure false else .raise e)) Q w := by
  refine (Contract.wp_try_except _ _ _ _).2 ((Contract.wp_bind _ _ _ _).2
    (offline_call hP h hc hlook fun w₁ r w' _ ha h' => ?_))
  rcases ha.2 with ⟨v, rfl⟩ | ⟨-, msg, rfl⟩
  · exact hQ w' true h'
  · exact hQ w' false h'

/-- A synchronous step. -/
theorem offline_update (hP : Blind job_id P) (h : P w) {f : World Ir → World Ir}
    (hf : Unseen job_id w (f w)) {Q : Except Exn Unit → World Ir → Prop}
    (hQ : P (f w) → Q (.ok ()) (f w)) : (offline node job_id).wp (Co.update f) Q w :=
  ⟨trivial, hQ (hP w _ h hf)⟩

end Rules

theorem blind_clean : Blind job_id (Clean job_id w₀) := fun _ _ => Clean.unseen

theorem blind_missed : Blind job_id (Missed job_id w₀) := fun _ _ => Missed.unseen

theorem blind_lost : Blind job_id (Lost job_id url w₀) := fun _ _ h hu =>
  ⟨by rw [hu.posts]; exact h.posts, hu.misses ▸ h.misses⟩

/-! ## The course of the job -/

/-- The poll loop: either the run is over and its result in hand, or a lookup failed. -/
theorem offline_poll {k : Nat} {result : ExecutionResult} {polls : Nat}
    (h : Clean job_id w₀ w) {Q : Except Exn ExecutionResult → World Ir → Prop}
    (hok : ∀ w', Clean job_id w₀ w' → k ∉ w'.exec.active → Q (.ok result) w')
    (herr : ∀ w' msg, Missed job_id w₀ w' → Q (.error (.connection msg)) w') :
    (offline node job_id).wp (poll node m job_id k (.ok result) polls) Q w := by
  have hwait : ∀ {w₁ w' : World Ir} {timed_out : Bool} {r : Except Exn Unit},
      (lone node (never_set job_id) outage).answer ⟨some m, .wait k timed_out⟩ w₁ r w' →
      r = .ok () := by
    intro w₁ w' timed_out r ha
    rcases ha.2 with ⟨v, rfl⟩ | ⟨hredis, -⟩
    · rfl
    · cases hredis
  induction polls generalizing w with
  | zero =>
      refine (Contract.wp_bind _ _ _ _).2 (offline_call blind_clean h rfl rfl
        fun w₁ r w' h₁ ha h' => ?_)
      cases hwait ha
      obtain ⟨w₂, rfl, rfl⟩ := answers_ok.1 ha.1
      -- the run is over from here on
      have hover : Blind job_id fun w : World Ir => Clean job_id w₀ w ∧ k ∉ w.exec.active :=
        fun _ _ hw hu => ⟨hw.1.unseen hu, fun hk => hw.2 (hu.active hk)⟩
      show (offline node job_id).wp (has_cancel_signal m job_id >>= _) Q _
      refine (Contract.wp_bind _ _ _ _).2 (offline_lookup hover ⟨h', by simp⟩
        (fun _ hw => hw.1.key) (fun w₂ h₂ => hok w₂ h₂.1 h₂.2) fun w₂ w₃ msg h₂ hm => ?_)
      exact herr w₃ msg (h₂.1.miss hm)
  | succ polls ih =>
      refine (Contract.wp_bind _ _ _ _).2 (offline_call blind_clean h rfl rfl
        fun w₁ r w' h₁ ha h' => ?_)
      cases hwait ha
      exact (Contract.wp_bind _ _ _ _).2 (offline_lookup blind_clean h' (fun _ hw => hw.key)
        (fun w₂ h₂ => ih h₂) fun w₂ w₃ msg h₂ hm => herr w₃ msg (h₂.miss hm))

/-- The run of the job. -/
theorem offline_run_job {ir : Ir} {shots : Int} {polls : Nat} {result : ExecutionResult}
    (hplan : node.run w.exec.runs ir shots = .runs polls (.ok result))
    (h : Clean job_id w₀ w) {Q : Except Exn ExecutionResult → World Ir → Prop}
    (hok : ∀ w', Clean job_id w₀ w' → Q (.ok result) w')
    (herr : ∀ w' msg, Missed job_id w₀ w' → Q (.error (.connection msg)) w') :
    (offline node job_id).wp (run_job_with_cancellation node m job_id ir shots) Q w := by
  unfold run_job_with_cancellation
  refine (Contract.wp_bind _ _ _ _).2 ⟨trivial, ?_⟩
  refine (Contract.wp_bind _ _ _ _).2 ⟨trivial, ?_⟩
  simp only [hplan]
  refine (Contract.wp_bind _ _ _ _).2 ⟨trivial, ?_⟩
  have h₁ : Clean job_id w₀
      ((w.starts (.run w.exec.runs)).set_exec Exec.start_run) :=
    ⟨h.key, h.posts, by simpa [World.misses, World.starts] using h.misses, h.aborted⟩
  refine (Contract.wp_try_finally _ _ _ _).2 (offline_poll h₁ ?_ ?_)
  · intro w₂ h₂ hover
    -- the run is over, so `finally` has nothing to cancel
    refine ⟨trivial, hok _ ⟨h₂.key, h₂.posts, h₂.misses, ?_⟩⟩
    simpa [hover] using h₂.aborted
  · intro w₂ msg h₂
    exact ⟨trivial, herr _ msg ⟨h₂.key, h₂.posts, h₂.misses⟩⟩

/-- The result has been posted and no lookup has failed since `w₀`. -/
structure Posted (job_id url : String) (result : ExecutionResult) (w₀ w : World Ir) : Prop where
  delivered : Delivered job_id url result w₀ w
  misses : w.misses job_id = w₀.misses job_id

theorem blind_posted {result : ExecutionResult} :
    Blind job_id (Posted job_id url result w₀) := fun _ _ h hu =>
  ⟨⟨hu.aborted.trans h.delivered.1, hu.posts.trans h.delivered.2⟩, hu.misses.trans h.misses⟩

/-- The `try` block. -/
theorem offline_execute {decoded : List (String × String)} {ir : Ir} {shots : Int}
    {polls : Nat} {result : ExecutionResult} (hjob : node.parse_job decoded = .ok (ir, shots))
    (hplan : node.run w.exec.runs ir shots = .runs polls (.ok result))
    (h : Clean job_id w₀ w) {Q : Except Exn Unit → World Ir → Prop}
    (hok : ∀ w', Posted job_id url result w₀ w' → Q (.ok ()) w')
    (herr : ∀ w' msg, Missed job_id w₀ w' → Q (.error (.connection msg)) w') :
    (offline node job_id).wp (execute node m decoded job_id url) Q w := by
  have hlookup : ∀ {w' : World Ir} {Q : Except Exn Bool → World Ir → Prop},
      Clean job_id w₀ w' → (∀ w₁, Clean job_id w₀ w₁ → Q (.ok false) w₁) →
      (∀ w₁ msg, Missed job_id w₀ w₁ → Q (.error (.connection msg)) w₁) →
      (offline node job_id).wp (has_cancel_signal m job_id) Q w' :=
    fun h' hok' herr' => offline_lookup blind_clean h' (fun _ hw => hw.key) hok'
      fun _ w₂ msg h₁ hm => herr' w₂ msg (h₁.miss hm)
  unfold execute
  rw [hjob]
  show (offline node job_id).wp (run_job_with_cancellation node m job_id ir shots >>= _) Q w
  refine (Contract.wp_bind _ _ _ _).2 (offline_run_job hplan h ?_ herr)
  intro w₁ h₁
  refine (Contract.wp_bind _ _ _ _).2 (hlookup h₁ ?_ herr)
  intro w₂ h₂
  refine (Contract.wp_bind _ _ _ _).2 ⟨trivial, ?_⟩
  refine (Contract.wp_bind _ _ _ _).2 (offline_safe blind_clean h₂ rfl rfl ?_)
  intro w₃ b h₃
  refine (Contract.wp_bind _ _ _ _).2 (hlookup h₃ ?_ herr)
  intro w₄ h₄
  -- the webhook begins; it is the first one since `w₀`
  refine (Contract.wp_bind _ _ _ _).2 ((Contract.wp_bind _ _ _ _).2 ⟨trivial, ?_⟩)
  have h₅ : Posted job_id url result w₀ (w₄.record
      (.started ⟨some m, .send_result url (completed_payload job_id result)⟩)) := by
    refine ⟨⟨h₄.aborted, ?_⟩, ?_⟩
    · simp [Call.reports, completed_payload, h₄.posts]
    · simpa [World.misses] using h₄.misses
  refine offline_call blind_posted h₅ rfl rfl fun w₆ r w₇ _ ha h₇ => ?_
  rcases ha.2 with ⟨v, rfl⟩ | ⟨hredis, -⟩
  · exact ⟨trivial, trivial, hok _ ⟨h₇.delivered, h₇.misses⟩⟩
  · cases hredis

/-- A failed lookup ends in the error clause, where the lookup is made once more. -/
theorem offline_on_exception {msg : String} (h : Missed job_id w₀ w)
    {Q : Except Exn Unit → World Ir → Prop}
    (hQ : ∀ w' r, Lost job_id url w₀ w' → Q r w') :
    (offline node job_id).wp (on_exception node m job_id url (.connection msg)) Q w := by
  refine (Contract.wp_bind _ _ _ _).2 ⟨trivial, ?_⟩
  have h₁ : Missed job_id w₀ (w.enter .handler) := ⟨h.key, h.posts, h.misses⟩
  refine (Contract.wp_bind _ _ _ _).2 (offline_lookup blind_missed h₁ (fun _ hw => hw.key) ?_ ?_)
  · intro w₂ h₂
    refine (Contract.wp_bind _ _ _ _).2 ⟨trivial, ?_⟩
    refine (Contract.wp_bind _ _ _ _).2 (offline_safe blind_missed h₂ rfl rfl ?_)
    intro w₃ b h₃
    refine (Contract.wp_try_except _ _ _ _).2 ((Contract.wp_bind _ _ _ _).2 ⟨trivial, ?_⟩)
    have h₄ : Lost job_id url w₀ (w₃.record
        (.started ⟨some m, .send_error url job_id (Exn.connection msg).text⟩)) := by
      refine ⟨.inr ⟨(Exn.connection msg).text, ?_⟩, ?_⟩
      · simp [Call.reports, h₃.posts]
      · simpa [World.misses] using h₃.misses
    refine offline_call blind_lost h₄ rfl rfl fun w₅ r w₆ _ ha h₆ => ?_
    rcases ha.2 with ⟨v, rfl⟩ | ⟨hredis, -⟩
    · exact hQ w₆ _ h₆
    · cases hredis
  · -- missed again: the exception leaves the clause and nothing is reported
    intro w₂ w₃ msg' h₂ hm
    have h₃ := h₂.miss hm
    exact hQ w₃ _ ⟨.inl h₃.posts, h₃.misses⟩

/-- The `finally` clause. -/
theorem offline_release {P : World Ir → Prop} (hP : Blind job_id P) (h : P w)
    {r : Except Exn Unit} {Q : Except Exn Unit → World Ir → Prop} (hQ : ∀ w', P w' → Q r w') :
    (offline node job_id).wp (release m) (Contract.and_finally Q r) w := by
  have hsilent : ∀ w₁ w₂ : World Ir, w₂.values = w₁.values → w₂.log = w₁.log →
      w₂.exec = w₁.exec → P w₁ → P w₂ := by
    intro w₁ w₂ hv hl he h₁
    refine hP w₁ w₂ h₁ ⟨fun hk => hv ▸ hk, ?_, ?_, by rw [he], fun x hx => he ▸ hx, by rw [he]⟩
    · simp only [World.posts, hl]
    · simp only [World.misses, World.count, hl]
  have h₀ : P (w.enter .cleanup) := hsilent w _ rfl rfl rfl h
  refine (Contract.wp_bind _ _ _ _).2 ⟨trivial, ?_⟩
  refine (Contract.wp_bind _ _ _ _).2 (offline_safe hP h₀ rfl rfl ?_)
  intro w₁ b h₁
  exact ⟨trivial, trivial, hQ _ (hsilent w₁ _ rfl rfl rfl h₁)⟩

/-- From the `executing` record to the `finally` clause. -/
theorem offline_take_on {decoded : List (String × String)} {ir : Ir} {shots : Int}
    {polls : Nat} {result : ExecutionResult} (hkey : w.values (cancel_key job_id) = none)
    (hjob : node.parse_job decoded = .ok (ir, shots))
    (hplan : node.run w.exec.runs ir shots = .runs polls (.ok result)) :
    (offline node job_id).wp (take_on node m decoded job_id url)
      (fun _ w' => Posted job_id url result w w' ∨ Lost job_id url w w') w := by
  -- up to the run, also the number of runs stays as it is
  have hblind : Blind job_id fun w' : World Ir =>
      Clean job_id w w' ∧ w'.exec.runs = w.exec.runs :=
    fun _ _ h hu => ⟨h.1.unseen hu, hu.runs.trans h.2⟩
  have h : Clean job_id w
      (w.set_self ({ · with idle := false, current_job_id := some job_id })) :=
    ⟨hkey, rfl, rfl, rfl⟩
  refine (Contract.wp_bind _ _ _ _).2 ⟨trivial, ?_⟩
  refine (Contract.wp_bind _ _ _ _).2 ⟨trivial, ?_⟩
  refine (Contract.wp_bind _ _ _ _).2 (offline_safe hblind ⟨h, rfl⟩ rfl rfl ?_)
  intro w₁ b h₁
  refine (Contract.wp_bind _ _ _ _).2 ⟨trivial, ?_⟩
  have h₂ : Clean job_id w (w₁.enter .body) := ⟨h₁.1.key, h₁.1.posts, h₁.1.misses, h₁.1.aborted⟩
  have hplan₂ : node.run (w₁.enter .body).exec.runs ir shots = .runs polls (.ok result) := by
    rw [World.enter_exec, h₁.2]
    exact hplan
  refine (Contract.wp_try_finally _ _ _ _).2 ((Contract.wp_try_except _ _ _ _).2
    (offline_execute hjob hplan₂ h₂ ?_ ?_))
  · intro w₃ h₃
    exact offline_release blind_posted h₃ fun w₄ h₄ => .inl h₄
  · intro w₃ msg h₃
    refine offline_on_exception h₃ fun w₄ r h₄ => ?_
    exact offline_release blind_lost h₄ fun w₅ h₅ => .inr h₅

/-! ## Delivery through an outage -/

/-- **A result is delivered exactly if no lookup of the cancel key fails**, whatever
happens to the writes and to the `XACK`: in every run of a job that has been taken on,
whose executor returns `result`, whose key is never set and whose webhooks return. No such
run gets stuck. -/
theorem outage_delivers_iff {decoded : List (String × String)} {ir : Ir} {shots : Int}
    {polls : Nat} {result : ExecutionResult} (hkey : w.values (cancel_key job_id) = none)
    (hjob : node.parse_job decoded = .ok (ir, shots))
    (hplan : node.run w.exec.runs ir shots = .runs polls (.ok result))
    {x : World Ir × Prog Ir Unit}
    (hx : TakesOn node (never_set job_id) outage m decoded job_id url w x) :
    ((lone node (never_set job_id) outage).Halted x → ∃ r, x.2.outcome = some r) ∧
      (∀ r, x.2.outcome = some r →
        (Delivered job_id url result w x.1 ↔ x.1.misses job_id = w.misses job_id)) := by
  have hrefl : ∀ w' : World Ir, Drift (never_set job_id) w' w' := Drift.refl fun _ h => h
  have htrans : ∀ w₁ w₂ w₃ : World Ir, Drift (never_set job_id) w₁ w₂ →
      Drift (never_set job_id) w₂ w₃ → Drift (never_set job_id) w₁ w₃ :=
    fun _ _ _ => Drift.trans fun _ _ _ h h' hk => h' (h hk)
  obtain ⟨w₁, hdrift, hw⟩ := Contract.run_sound hrefl htrans (fun _ _ _ _ h => h)
    (fun _ _ h => h) (offline_take_on hkey hjob hplan) hx
  refine ⟨fun halted => ?_, fun r hr => ?_⟩
  · cases hp : x.2 with
    | ret u => exact ⟨_, rfl⟩
    | raise e => exact ⟨_, rfl⟩
    | sync f k => exact absurd hp (Host.Run.ne_sync _ hx (Host.settle_ne_sync _ _) f k)
    | await q k =>
        rw [hp] at hw
        obtain ⟨v, w', hv⟩ := exists_answer node hw.1 x.1
        exact absurd ⟨hv, .inl ⟨v, rfl⟩⟩ (halted q k hp (.ok v) w')
  · have hend : Posted job_id url result w w₁ ∨ Lost job_id url w w₁ := by
      cases hp : x.2 with
      | ret u => rw [hp] at hw; exact hw
      | raise e => rw [hp] at hw; exact hw
      | sync f k => rw [hp] at hr; cases hr
      | await q k => rw [hp] at hr; cases hr
    have hu : Unseen job_id w₁ x.1 := .of_drift hdrift
    rcases hend with h | h
    · have h' := blind_posted _ _ h hu
      exact iff_of_true h'.delivered h'.misses
    · have h' := blind_lost _ _ h hu
      refine iff_of_false (fun hdel => ?_) (Nat.ne_of_gt h'.misses)
      -- no webhook, or an error, where the result should be
      rcases h'.posts with hp | ⟨e, hp⟩
      · have hlen := congrArg List.length (hdel.2.symm.trans hp)
        simp at hlen
      · have hhead := List.head_eq_of_cons_eq (hdel.2.symm.trans hp)
        cases hhead

/-- The operations of a sample run, answered normally. -/
theorem outage_ok (q : Req Ir) (w : World Ir) (v : q.Reply) : outage q w (.ok v) := .inl ⟨v, rfl⟩

set_option maxRecDepth 20000 in
/-- One failed lookup, after the run, is enough: the result is thrown away and an error
reported. -/
theorem outage_loses_result :
    ¬ ∀ x, TakesOn (sample_node (.runs 0 (.ok sample_result)) none) (never_set "job-1") outage
        (sample_message "1-0" "job-1" sample_ir) (sample_fields "job-1" sample_ir) "job-1"
        "https://example.com/hook" (sample_world []) x →
      ∀ r, x.2.outcome = some r →
        Delivered "job-1" "https://example.com/hook" sample_result (sample_world []) x.1 := by
  intro h
  have hstay : ∀ w : World String, Drift (never_set "job-1") w w := Drift.refl fun _ h => h
  have hcan : (lone (sample_node (.runs 0 (.ok sample_result)) none) (never_set "job-1")
      outage).Can
      (take_on (sample_node (.runs 0 (.ok sample_result)) none)
        (sample_message "1-0" "job-1" sample_ir) (sample_fields "job-1" sample_ir) "job-1"
        "https://example.com/hook")
      (fun _ w => w.posts "job-1" =
        [.send_error "https://example.com/hook" "job-1" "reset"]) (sample_world []) := by
    -- the `executing` record and the end of the run
    refine ⟨_, hstay _, .ok (), _, ⟨answers_ok.2 ⟨_, rfl, rfl⟩, outage_ok _ _ _⟩, ?_⟩
    refine ⟨_, hstay _, .ok (), _, ⟨answers_ok.2 ⟨_, rfl, rfl⟩, outage_ok _ _ _⟩, ?_⟩
    -- the lookup that fails, and the one in the error clause that does not
    refine ⟨_, hstay _, .error (.connection "reset"), _,
      ⟨answers_error.2 ⟨by simp [fails], .inl ⟨rfl, rfl⟩⟩, .inr ⟨rfl, _, rfl⟩⟩, ?_⟩
    refine ⟨_, hstay _, .ok none, _, ⟨answers_ok.2 ⟨_, ⟨rfl, rfl⟩, rfl⟩, outage_ok _ _ _⟩, ?_⟩
    -- the `failed` record, the error webhook and the `XACK`
    refine ⟨_, hstay _, .ok (), _, ⟨answers_ok.2 ⟨_, rfl, rfl⟩, outage_ok _ _ _⟩, ?_⟩
    refine ⟨_, hstay _, .ok (), _, ⟨answers_ok.2 ⟨_, rfl, rfl⟩, outage_ok _ _ _⟩, ?_⟩
    exact ⟨_, hstay _, .ok (), _, ⟨answers_ok.2 ⟨_, rfl, rfl⟩, outage_ok _ _ _⟩, rfl⟩
  obtain ⟨w', q, r, hrun, hq, hposts⟩ := Host.exists_run_of_can _ hcan
  have hdel := (h _ hrun r hq).2
  rw [hposts] at hdel
  cases List.head_eq_of_cons_eq hdel

set_option maxRecDepth 20000 in
/-- Both writes and the `XACK` fail, no lookup does, and the result is delivered. -/
theorem delivered_without_writes :
    ∃ x, TakesOn (sample_node (.runs 0 (.ok sample_result)) none) (never_set "job-1") outage
        (sample_message "1-0" "job-1" sample_ir) (sample_fields "job-1" sample_ir) "job-1"
        "https://example.com/hook" (sample_world []) x ∧
      Delivered "job-1" "https://example.com/hook" sample_result (sample_world []) x.1 := by
  have hstay : ∀ w : World String, Drift (never_set "job-1") w w := Drift.refl fun _ h => h
  have hdown : ∀ (q : Req String) (w : World String), q.call.is_redis = true →
      outage q w (.error (.connection "reset")) := fun _ _ h => .inr ⟨h, _, rfl⟩
  have hcan : (lone (sample_node (.runs 0 (.ok sample_result)) none) (never_set "job-1")
      outage).Can
      (take_on (sample_node (.runs 0 (.ok sample_result)) none)
        (sample_message "1-0" "job-1" sample_ir) (sample_fields "job-1" sample_ir) "job-1"
        "https://example.com/hook")
      (fun _ w => w.misses "job-1" = 0) (sample_world []) := by
    refine ⟨_, hstay _, .error (.connection "reset"), _,
      ⟨answers_error.2 ⟨by simp [fails], .inl ⟨rfl, rfl⟩⟩, hdown _ _ rfl⟩, ?_⟩
    refine ⟨_, hstay _, .ok (), _, ⟨answers_ok.2 ⟨_, rfl, rfl⟩, outage_ok _ _ _⟩, ?_⟩
    refine ⟨_, hstay _, .ok none, _, ⟨answers_ok.2 ⟨_, ⟨rfl, rfl⟩, rfl⟩, outage_ok _ _ _⟩, ?_⟩
    refine ⟨_, hstay _, .ok none, _, ⟨answers_ok.2 ⟨_, ⟨rfl, rfl⟩, rfl⟩, outage_ok _ _ _⟩, ?_⟩
    refine ⟨_, hstay _, .error (.connection "reset"), _,
      ⟨answers_error.2 ⟨by simp [fails], .inl ⟨rfl, rfl⟩⟩, hdown _ _ rfl⟩, ?_⟩
    refine ⟨_, hstay _, .ok none, _, ⟨answers_ok.2 ⟨_, ⟨rfl, rfl⟩, rfl⟩, outage_ok _ _ _⟩, ?_⟩
    refine ⟨_, hstay _, .ok (), _, ⟨answers_ok.2 ⟨_, rfl, rfl⟩, outage_ok _ _ _⟩, ?_⟩
    exact ⟨_, hstay _, .error (.connection "reset"), _,
      ⟨answers_error.2 ⟨by simp [fails], .inl ⟨rfl, rfl⟩⟩, hdown _ _ rfl⟩, rfl⟩
  obtain ⟨w', q, r, hrun, hq, hmiss⟩ := Host.exists_run_of_can _ hcan
  have hjob := sample_node_parse (.runs 0 (.ok sample_result)) none "job-1"
  exact ⟨_, hrun, ((outage_delivers_iff rfl hjob rfl hrun).2 r hq).2 hmiss⟩

end CodaNode
