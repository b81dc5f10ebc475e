/-
`Consumer/Exclusive.lean` -- one executor call at a time.

A run lives in a task of its own. The poll loop awaits a run that it cancels itself, but a
check of the cancel key that raises leaves through `finally`, which cancels the run and does
not await it: the next job can start while the run still unwinds. `executor_exclusive` says
that nothing else can bring two calls together, whatever the executor, the schedule and the
errors.
-/
import CodaNode.Consumer.Rounds
import CodaNode.Consumer.Sample

set_option autoImplicit false

open Coroutine

namespace CodaNode

variable {Ir : Type} {node : Node Ir} {m : Message} {job_id url : String} {α : Type}
variable {cloud : (String → Option String) → (String → Option String) → Prop}
variable {w w' : World Ir}

/-! ## The property -/

/-- A call of the executor. -/
def Start.calls : Start → Bool
  | .run _ | .batch _ => true
  | .recovery => false

def Start.is_batch : Start → Bool
  | .batch _ => true
  | _ => false

/-- `batch_run` is called. -/
def Event.starts_batch : Event Ir → Bool
  | .mark (.starting (.batch _) _ _) => true
  | _ => false

/-- All but `n` of the `batch_run` calls have ended. -/
def batches_open (n : Nat) (log : List (Entry Ir)) : Prop :=
  (log.countP fun x => x.event.starts_batch) =
    (log.countP fun x => x.event.ends Call.runs_batch) + n

/-- Every executor call was made when every earlier one was over. -/
def Exclusive : List (Entry Ir) → Prop
  | [] => True
  | x :: earlier => Exclusive earlier ∧ ∀ s runs tasks, x.event = .mark (.starting s runs tasks) →
      s.calls = true → runs = [] ∧ batches_open 0 earlier

/-- The consumer's task was cancelled while it awaited a run that it had cancelled: the
`CancelledError` is taken for the run's own. -/
def Event.cuts : Event Ir → Bool
  | .ended q took (.error _) => match q.call with
    | .unwind _ => !took
    | _ => false
  | _ => false

/-- No such cancellation so far. -/
def Uncut (log : List (Entry Ir)) : Prop := ∀ x ∈ log, x.event.cuts = false

/-- While a run is active, no check of the cancel key of the job in hand raises, and no
`XACK` raises but for the connection, cancellations of the consumer's task apart. -/
def attended (q : Req Ir) (w : World Ir) (r : Except Exn q.Reply) : Prop :=
  w.exec.active ≠ [] → ∀ e, r = .error e → e ≠ .cancelled →
    (∀ j, w.self.current_job_id = some j → q.call ≠ .get (cancel_key j)) ∧
    ∀ id, q.call = .xack id → e.is_connection = true

theorem Uncut.of_suffix {log log' : List (Entry Ir)} (h : Uncut log') (hlog : log <:+ log') :
    Uncut log := fun x hx => h x (hlog.subset hx)

theorem Exclusive.cons {log : List (Entry Ir)} {x : Entry Ir} (h : Exclusive log)
    (hx : x.event.begins = false) : Exclusive (x :: log) := by
  refine ⟨h, fun s runs tasks he => ?_⟩
  rw [he] at hx
  cases hx

theorem batches_open_cons {log : List (Entry Ir)} {x : Entry Ir} (n : Nat)
    (hs : x.event.starts_batch = false) (he : x.event.ends Call.runs_batch = false) :
    batches_open n (x :: log) ↔ batches_open n log := by
  simp only [batches_open, List.countP_cons, hs, he]
  simp

/-! ## What is known of the executor -/

/-- All is well so far, unless the task was cut off from a run. -/
def Sole (w : World Ir) : Prop := Uncut w.log → Exclusive w.log

/-- The runs that are active satisfy `P`, and `n` batches are. -/
def Engaged (n : Nat) (P : Nat → Prop) (w : World Ir) : Prop :=
  Uncut w.log → Exclusive w.log ∧ batches_open n w.log ∧ ∀ k ∈ w.exec.active, P k

/-- Nothing is on the hardware. -/
abbrev Idle (w : World Ir) : Prop := Engaged 0 (fun _ => False) w

/-- The runs that are active satisfy `P`, and the job is in hand. -/
def Running (P : Nat → Prop) (job_id : String) (w : World Ir) : Prop :=
  Engaged 0 P w ∧ w.self.current_job_id = some job_id

/-- What drift and the deliveries leave alone. -/
structure Untouched (w w' : World Ir) : Prop where
  log : w.log <:+ w'.log
  active : w'.exec.active ⊆ w.exec.active
  current : w'.self.current_job_id = w.self.current_job_id
  exclusive : Exclusive w.log → Exclusive w'.log
  closed : ∀ n, batches_open n w.log → batches_open n w'.log

namespace Untouched

theorem refl (w : World Ir) : Untouched w w :=
  ⟨List.suffix_refl _, List.Subset.refl _, rfl, id, fun _ => id⟩

theorem trans {w₁ w₂ w₃ : World Ir} (h : Untouched w₁ w₂) (h' : Untouched w₂ w₃) :
    Untouched w₁ w₃ :=
  ⟨h.log.trans h'.log, List.Subset.trans h'.active h.active, h'.current.trans h.current,
    h'.exclusive ∘ h.exclusive, fun n => h'.closed n ∘ h.closed n⟩

theorem of_log (hlog : w'.log = w.log) (hactive : w'.exec.active ⊆ w.exec.active)
    (hcurrent : w'.self.current_job_id = w.self.current_job_id) : Untouched w w' :=
  ⟨hlog ▸ List.suffix_refl _, hactive, hcurrent, fun h => hlog ▸ h, fun _ h => hlog ▸ h⟩

/-- One more line, which begins nothing and ends no batch. -/
theorem of_cons {x : Entry Ir} (hlog : w'.log = x :: w.log) (hx : x.event.begins = false)
    (he : x.event.ends Call.runs_batch = false) (hactive : w'.exec.active ⊆ w.exec.active)
    (hcurrent : w'.self.current_job_id = w.self.current_job_id) : Untouched w w' := by
  have hs : x.event.starts_batch = false := by
    cases hev : x.event with
    | mark y =>
        cases y with
        | starting s runs tasks => rw [hev] at hx; cases hx
        | _ => rfl
    | _ => rfl
  refine ⟨⟨[x], hlog.symm⟩, hactive, hcurrent, fun h => ?_, fun n h => ?_⟩
  · rw [hlog]
    exact h.cons hx
  · rw [hlog]
    exact (batches_open_cons n hs he).2 h

theorem sole (h : Untouched w w') (hw : Sole w) : Sole w' :=
  fun hcut => h.exclusive (hw (hcut.of_suffix h.log))

theorem engaged {n : Nat} {P : Nat → Prop} (h : Untouched w w') (hw : Engaged n P w) :
    Engaged n P w' := by
  intro hcut
  obtain ⟨hex, hover, hact⟩ := hw (hcut.of_suffix h.log)
  exact ⟨h.exclusive hex, h.closed n hover, fun k hk => hact k (h.active hk)⟩

theorem running {P : Nat → Prop} (h : Untouched w w') (hw : Running P job_id w) :
    Running P job_id w' := ⟨h.engaged hw.1, h.current.trans hw.2⟩

end Untouched

theorem Drift.untouched (h : Drift cloud w w') : Untouched w w' :=
  .of_log h.log h.exec.2.1 (by rw [h.self])

/-- No operation starts a run. -/
theorem active_of_answers {q : Req Ir} {r : Except Exn q.Reply} (h : answers node q w r w') :
    w'.exec.active ⊆ w.exec.active := by
  have hperf : ∀ {v : q.Reply} {w₁ : World Ir}, performs node q.call w v w₁ →
      w₁.exec.active ⊆ w.exec.active := by
    obtain ⟨msg, c⟩ := q
    intro v w₁ hp
    cases c with
    | xgroup_create => obtain ⟨-, rfl⟩ := hp; exact List.Subset.refl _
    | xreadgroup count => obtain ⟨n, -, rfl, -⟩ := hp; exact List.Subset.refl _
    | hset key mapping => cases hp; exact List.Subset.refl _
    | xack id => cases hp; exact List.Subset.refl _
    | wait k timed_out =>
        cases timed_out
        · cases hp; exact List.filter_subset_self _
        · cases hp; exact List.Subset.refl _
    | unwind k => cases hp; exact List.filter_subset_self _
    | cancel_current_job => cases hp; exact List.Subset.refl _
    | send_result url payload => cases hp; exact List.Subset.refl _
    | send_error url j text => cases hp; exact List.Subset.refl _
    | begin => cases hp; exact List.Subset.refl _
    | sleep secs => cases hp; exact List.Subset.refl _
    | _ => obtain ⟨-, rfl⟩ := hp; exact List.Subset.refl _
  rcases h with ⟨v, w₁, hp, -, rfl⟩ | ⟨e, -, -, -, rfl⟩ | ⟨e, v, w₁, -, -, hp, -, rfl⟩
  · have hsub := hperf hp
    exact hsub
  · exact List.Subset.refl _
  · have hsub := hperf hp
    exact hsub

theorem Call.not_batch_of_prompt {c : Call Ir} (h : c.prompt = true) : c.runs_batch = false := by
  cases c <;> first | rfl | cases h

theorem Call.not_batch_of_delivers {c : Call Ir} (h : c.delivers = true) :
    c.runs_batch = false := by
  cases c <;> first | rfl | cases h

theorem untouched_of_answers {q : Req Ir} {r : Except Exn q.Reply}
    (hq : q.call.runs_batch = false) (h : answers node q w r w') : Untouched w w' := by
  have hans := Answered.of_answers h
  obtain ⟨took, hl⟩ := hans.log
  exact .of_cons hl rfl hq (active_of_answers h) (by rw [hans.self])

/-- A step of a handler that touches neither the executor nor the job in hand. -/
structure Steady (f : World Ir → World Ir) : Prop where
  plain : Plain (fun e : Event Ir => e.begins = false ∧ e.ends Call.runs_batch = false)
    (fun _ _ => True) f
  hands_off : HandsOff f

theorem Steady.untouched {f : World Ir → World Ir} (hf : Steady f) (w : World Ir) :
    Untouched w (f w) := by
  obtain ⟨hexec, hcurrent⟩ := hf.hands_off w
  have hactive : (f w).exec.active ⊆ w.exec.active := by
    rw [hexec]
    exact List.Subset.refl _
  rcases hf.plain.log w with hl | ⟨e, ⟨hb, he⟩, hl⟩
  · exact .of_log hl hactive hcurrent
  · exact .of_cons hl hb he hactive hcurrent

theorem Steady.extends {f : World Ir → World Ir} (hf : Steady f) (w : World Ir) :
    w.Extends (f w) := .of_tasks (hf.plain.tasks w) (hf.plain.grows w)

theorem Steady.look : Steady (id : World Ir → World Ir) :=
  ⟨Plain.id fun _ => trivial, fun _ => ⟨rfl, rfl⟩⟩

theorem Steady.enter (r : Region) : Steady (fun w : World Ir => w.enter r) :=
  ⟨Plain.enter fun _ => trivial, fun _ => ⟨rfl, rfl⟩⟩

theorem Steady.post (q : Req Ir) : Steady (fun w : World Ir => w.record (.started q)) :=
  ⟨Plain.record (fun _ => trivial) ⟨rfl, rfl⟩, fun _ => ⟨rfl, rfl⟩⟩

/-! ## The main coroutine -/

/-- Everybody keeps to `Sole`, and the deliveries leave the executor alone. -/
def sparing (Ir : Type) : Kernel.Regime (World Ir) (Req Ir) Exn where
  inv := Sole
  grows := World.Grows
  frame := Untouched
  pre _ _ := True
  ended _ := True
  round r w := Idle w ∨ ∃ e, r = .error e ∧ Abandoned Sole e w

/-- What the main coroutine owes and may rely on. -/
abbrev operating (node : Node Ir)
    (cloud : (String → Option String) → (String → Option String) → Prop) :
    Contract (World Ir) (@Req.Reply Ir) Exn :=
  Kernel.Regime.main (consumer node cloud attended) (sparing Ir)

theorem owes_operating {I : World Ir → Prop} (hsole : ∀ w, I w → Sole w)
    (hstable : ∀ w w', Untouched w w' → I w → I w') :
    Owes (operating node cloud) node attended I where
  pre _ w _ h := ⟨hsole w h, trivial⟩
  answer _ _ _ _ h := h
  rely w w' h hr := by
    obtain ⟨-, hu⟩ := hr (hsole w h)
    exact ⟨hstable w w' hu h, hu.log⟩
  keep w w' _ h hext := ⟨hsole w' h, hext.grows⟩

theorem Engaged.sole {n : Nat} {P : Nat → Prop} (h : Engaged n P w) : Sole w :=
  fun hcut => (h hcut).1

theorem owes_engaged (n : Nat) (P : Nat → Prop) :
    Owes (operating node cloud) node attended (Engaged n P) :=
  owes_operating (fun _ h => h.sole) fun _ _ h => h.engaged

theorem owes_running (P : Nat → Prop) :
    Owes (operating node cloud) node attended (Running P job_id) :=
  owes_operating (fun _ h => h.1.sole) fun _ _ h => h.running

/-- Code that touches neither the executor nor the job in hand. -/
theorem quiet_idle {p : Prog Ir α} (hp : Within Steady (For m) p) :
    (operating node cloud).Keeps Idle p :=
  (owes_engaged 0 _).within (fun _ hf w hw => ⟨(hf.untouched w).engaged hw, hf.extends w⟩)
    (fun _ hq => Call.not_read_of_prompt hq.2.1)
    (fun _ hq _ _ _ hw hans _ =>
      (untouched_of_answers (Call.not_batch_of_prompt hq.2.1) hans).engaged hw) hp

theorem quiet_running {P : Nat → Prop} {p : Prog Ir α} (hp : Within Steady (For m) p) :
    (operating node cloud).Keeps (Running P job_id) p :=
  (owes_running P).within (fun _ hf w hw => ⟨(hf.untouched w).running hw, hf.extends w⟩)
    (fun _ hq => Call.not_read_of_prompt hq.2.1)
    (fun _ hq _ _ _ hw hans _ =>
      (untouched_of_answers (Call.not_batch_of_prompt hq.2.1) hans).running hw) hp

/-! ## Running a job -/

/-- Nothing is on the hardware, and the job is in hand. -/
abbrev Holding (job_id : String) (w : World Ir) : Prop := Running (fun _ => False) job_id w

/-- The consumer's task was cancelled while a run of the job was active. -/
def Adrift (job_id : String) (e : Exn) (w : World Ir) : Prop :=
  e = .cancelled ∧ ∃ k, Running (· = k) job_id w

/-- The job is over, or the consumer is. -/
abbrev Left (job_id : String) (r : Except Exn α) (w : World Ir) : Prop :=
  Holding job_id w ∨ ∃ e, r = .error e ∧ Adrift job_id e w

/-- An operation while run `k` may be active. -/
theorem operating_call {P : Nat → Prop} {q : Req Ir} (hq : q.call.runs_batch = false)
    (h : Running P job_id w) {Q : Except Exn q.Reply → World Ir → Prop}
    (hQ : ∀ w₁ r w', Running P job_id w₁ → answers node q w₁ r w' → attended q w₁ r →
      Running P job_id w' → Q r w') :
    (operating node cloud).wp (Co.call q) Q w := by
  refine (Contract.wp_call _ _ _).2 ⟨⟨h.1.sole, trivial⟩, fun w₁ hr r w' ha => ?_⟩
  have h₁ := ((owes_running _).rely w w₁ h hr).1
  have h' := (untouched_of_answers hq ha.1).running h₁
  exact ⟨(owes_running _).keep w₁ w' h₁ h' (Answered.of_answers ha.1).extends,
    hQ w₁ r w' h₁ ha.1 ha.2 h'⟩

/-- With no active run left, nothing is on the hardware. -/
theorem Engaged.closed {n : Nat} {P : Nat → Prop} (h : Engaged n P w) (hnone : w.exec.active = []) :
    Engaged n (fun _ => False) w := by
  intro hcut
  obtain ⟨hex, hover, -⟩ := h hcut
  refine ⟨hex, hover, fun k hk => ?_⟩
  rw [hnone] at hk
  cases hk

/-- Once the run is over, nothing is active. -/
theorem Running.finish {k : Nat} {e : Event Ir}
    (h : Running (· = k) job_id ((w.set_exec (·.finish_run k)).record e)) :
    Holding job_id ((w.set_exec (·.finish_run k)).record e) := by
  refine ⟨fun hcut => ?_, h.2⟩
  obtain ⟨hex, hover, hact⟩ := h.1 hcut
  refine ⟨hex, hover, fun k' hk' => ?_⟩
  have hne : k' ≠ k := by simpa using (List.mem_filter.1 hk').2
  exact hne (hact k' hk')

/-- A cut is recorded: nothing is claimed any more. -/
theorem Running.cut {P : Nat → Prop} {x : Entry Ir} {earlier : List (Entry Ir)}
    (h : Running P job_id w) (hlog : w.log = x :: earlier) (hx : x.event.cuts = true) :
    Holding job_id w := by
  refine ⟨fun hcut => ?_, h.2⟩
  have hno := hcut x (by rw [hlog]; exact List.mem_cons_self)
  rw [hno] at hx
  cases hx

/-- An operation that only a cancellation interrupts while a run is active. -/
theorem Running.left {P : Nat → Prop} {q : Req Ir} {e : Exn} {w₁ : World Ir}
    (h₁ : Running P job_id w') (hans : answers node q w₁ (.error e) w')
    (hatt : w₁.exec.active ≠ [] → e = .cancelled) :
    Holding job_id w' ∨ e = .cancelled ∧ Running P job_id w' := by
  by_cases hnone : w₁.exec.active = []
  · have hnone' : w'.exec.active = [] := by
      have hsub := active_of_answers hans
      rw [hnone] at hsub
      exact List.subset_nil.1 hsub
    exact .inl ⟨h₁.1.closed hnone', h₁.2⟩
  · exact .inr ⟨hatt hnone, h₁⟩

theorem operating_cancel_hook {k : Nat} (h : Running (· = k) job_id w)
    {Q : Except Exn Unit → World Ir → Prop}
    (hok : ∀ w', Running (· = k) job_id w' → Q (.ok ()) w')
    (hcut : ∀ w', Running (· = k) job_id w' → Q (.error .cancelled) w') :
    (operating node cloud).wp (request_runner_cancel node m) Q w := by
  unfold request_runner_cancel
  split
  · refine (Contract.wp_try_except _ _ _ _).2 (operating_call rfl h fun w₁ r w' _ _ _ h' => ?_)
    cases r with
    | ok v => exact hok w' h'
    | error e =>
        show (operating node cloud).wp (if e = .cancelled then _ else _) Q w'
        split
        · next he =>
            rw [he]
            exact hcut w' h'
        · exact hok w' h'
  · exact hok w h

/-- The poll loop, by induction on the number of intervals: it is left when the run is over,
or because the consumer is. -/
theorem operating_poll {k : Nat} {out : Except Exn ExecutionResult} {polls : Nat}
    (h : Running (· = k) job_id w) :
    (operating node cloud).wp (poll node m job_id k out polls) (Left job_id) w := by
  have hwait : ∀ {timed_out : Bool} {w₁ w₂ : World Ir} {e : Exn},
      answers node ⟨some m, .wait k timed_out⟩ w₁ (.error e) w₂ → e = .cancelled := by
    intro timed_out w₁ w₂ e hans
    rcases hans with ⟨v, w₃, -, hr, -⟩ | ⟨e', hf, -, hr, -⟩ | ⟨e', v, w₃, ht, -⟩
    · cases hr
    · cases hr
      exact hf
    · cases ht
  have hcheck : (operating node cloud).Keeps (Holding job_id) (has_cancel_signal m job_id) :=
    quiet_running (Before.within inner_check)
  induction polls generalizing w with
  | zero =>
      refine (Contract.wp_bind _ _ _ _).2 (operating_call rfl h fun w₁ r w' _ hans _ h' => ?_)
      cases r with
      | error e => exact .inr ⟨e, rfl, hwait hans, k, h'⟩
      | ok v =>
          obtain ⟨w₂, hp, rfl⟩ := answers_ok.1 hans
          have hp' : w₂ = w₁.set_exec (·.finish_run k) := hp
          subst hp'
          have hover : (operating node cloud).Keeps (Holding job_id) (do
              let result ← Co.of_except out
              if ← has_cancel_signal m job_id then
                .raise .job_cancelled
              else
                pure result : Prog Ir ExecutionResult) := by
            refine (Contract.Keeps.of_except _).bind fun result => hcheck.bind fun b => ?_
            cases b
            · exact .ret _
            · exact .raise _
          exact Contract.wp_mono (hover _ h'.finish) fun _ _ => .inl
  | succ polls ih =>
      refine (Contract.wp_bind _ _ _ _).2 (operating_call rfl h fun w₁ r w₂ _ hans _ h₂ => ?_)
      cases r with
      | error e => exact .inr ⟨e, rfl, hwait hans, k, h₂⟩
      | ok v =>
          refine (Contract.wp_bind _ _ _ _).2 ((Contract.wp_bind _ _ _ _).2
            (operating_call rfl h₂ fun w₃ r w₄ h₃ hans hatt h₄ => ?_))
          cases r with
          | error e =>
              -- a check that raises anything else finds nothing active
              have honly : w₃.exec.active ≠ [] → e = .cancelled := by
                intro hne
                by_contra hother
                exact (hatt hne e rfl hother).1 job_id h₃.2 rfl
              rcases h₄.left hans honly with hover | ⟨he, h₄⟩
              · exact .inl hover
              · exact .inr ⟨e, rfl, he, k, h₄⟩
          | ok v =>
              cases v with
              | none => exact ih h₄
              | some v =>
                  refine (Contract.wp_bind _ _ _ _).2 (operating_cancel_hook h₄
                    (fun w₅ h₅ => ?_) fun w₅ h₅ => .inr ⟨_, rfl, rfl, k, h₅⟩)
                  have h₆ : Running (· = k) job_id (w₅.set_exec (·.cancel_run k)) := h₅
                  refine (Contract.wp_bind _ _ _ _).2
                    ⟨(owes_running _).keep _ _ h₅ h₆ (.of_tasks rfl (List.suffix_refl _)), ?_⟩
                  refine (Contract.wp_bind _ _ _ _).2 ((Contract.wp_attempt _ _ _).2
                    (operating_call rfl h₆ fun w₇ r w₈ h₇ hans _ h₈ => .inl ?_))
                  show Holding job_id w₈
                  rcases hans with ⟨v, w₉, hp, -, rfl⟩ | ⟨e, -, -, rfl, rfl⟩ |
                    ⟨e, v, w₉, -, -, hp, -, rfl⟩
                  · have hp' : w₉ = w₇.set_exec (·.finish_run k) := hp
                    subst hp'
                    exact h₈.finish
                  · exact h₈.cut rfl rfl
                  · have hp' : w₉ = w₇.set_exec (·.finish_run k) := hp
                    subst hp'
                    exact h₈.finish

/-- A call begins while nothing is on the hardware. -/
theorem Engaged.starts (s : Start) (h : Idle w) : Exclusive w.log → Uncut w.log →
    Exclusive (w.starts s).log := by
  intro hex hcut
  obtain ⟨-, hover, hact⟩ := h hcut
  refine ⟨hex, fun s' runs tasks he hcalls => ?_⟩
  cases he
  exact ⟨List.eq_nil_iff_forall_not_mem.2 hact, hover⟩

theorem Engaged.starts_other {s : Start} (hs : s.is_batch = false) (h : Idle w) :
    Idle (w.starts s) := by
  intro hcut
  have hcut' : Uncut w.log := hcut.of_suffix (List.suffix_cons _ _)
  obtain ⟨hex, hover, hact⟩ := h hcut'
  refine ⟨h.starts s hex hcut', (batches_open_cons 0 ?_ rfl).2 hover, hact⟩
  cases s <;> first | rfl | cases hs

theorem operating_run_job {ir : Ir} {shots : Int} :
    (operating node cloud).KeepsUnless (Holding job_id) (Adrift job_id)
      (run_job_with_cancellation node m job_id ir shots) := by
  intro w hw
  have howes : Owes (operating node cloud) node attended (Holding job_id : World Ir → Prop) :=
    owes_running _
  have hstart : Holding job_id (w.starts (.run w.exec.runs)) := ⟨hw.1.starts_other rfl, hw.2⟩
  refine (Contract.wp_bind _ _ _ _).2 ⟨howes.keep w w hw hw (.refl w), ?_⟩
  refine (Contract.wp_bind _ _ _ _).2
    ⟨howes.keep _ _ hw hstart ((Bookkeeping.starts _).extends w), ?_⟩
  show (operating node cloud).wp _ _ (w.starts (.run w.exec.runs))
  cases node.run w.exec.runs ir shots with
  | refuses e =>
      have hset : Holding job_id ((w.starts (.run w.exec.runs)).set_exec
          fun x => { x with runs := x.runs + 1 }) := hstart
      exact (Contract.wp_bind _ _ _ _).2
        ⟨howes.keep _ _ hstart hset ((Bookkeeping.set_exec _).extends _), .inl hset⟩
  | runs polls out =>
      have hset : Running (· = w.exec.runs) job_id
          ((w.starts (.run w.exec.runs)).set_exec Exec.start_run) := by
        refine ⟨fun hcut => ?_, hstart.2⟩
        obtain ⟨hex, hover, hact⟩ := hstart.1 hcut
        refine ⟨hex, hover, fun k hk => ?_⟩
        rcases List.mem_cons.1 hk with rfl | hk
        · rfl
        · exact (hact k hk).elim
      refine (Contract.wp_bind _ _ _ _).2
        ⟨⟨hset.1.sole, ((Bookkeeping.set_exec _).extends _).grows⟩, ?_⟩
      refine (Contract.wp_try_finally _ _ _ _).2 (Contract.wp_mono (operating_poll hset)
        fun r w' h' => ?_)
      -- `finally` cancels what is left of the run
      rcases h' with h' | ⟨e, rfl, he, k, h'⟩
      · have hcancel : Holding job_id (w'.set_exec (·.cancel_run w.exec.runs)) := h'
        exact ⟨howes.keep _ _ h' hcancel ((Bookkeeping.set_exec _).extends _), .inl hcancel⟩
      · have hcancel : Running (· = k) job_id (w'.set_exec (·.cancel_run w.exec.runs)) := h'
        exact ⟨(owes_running _).keep _ _ h' hcancel ((Bookkeeping.set_exec _).extends _),
          .inr ⟨e, rfl, he, k, hcancel⟩⟩

/-! ## A message -/

theorem operating_execute {decoded : List (String × String)} :
    (operating node cloud).KeepsUnless (Holding job_id) (Adrift job_id)
      (execute node m decoded job_id url) := by
  have hcheck : (operating node cloud).Keeps (Holding job_id) (has_cancel_signal m job_id) :=
    quiet_running (Before.within inner_check)
  have hlook : (operating node cloud).Keeps (Holding job_id) (now : Prog Ir String) :=
    quiet_running (m := m) (Within.look Steady.look)
  refine (Contract.Keeps.of_except _).unless.bind fun job => operating_run_job.bind fun result => ?_
  refine Contract.Keeps.unless (hcheck.bind fun b => ?_)
  cases b with
  | true => exact .raise _
  | false =>
      refine hlook.bind fun completed_at => Contract.Keeps.bind
        (quiet_running (Before.within inner_hset)) fun _ => hcheck.bind fun b' => ?_
      cases b' with
      | true => exact .raise _
      | false =>
          refine Contract.Keeps.bind
            (quiet_running (Before.within (inner_send_result Steady.post))) fun _ => ?_
          refine hlook.bind fun last_job_at => Contract.Keeps.update fun w hw => ?_
          have hset : Holding job_id
              (w.set_self ({ · with last_job_at := some last_job_at })) := hw
          exact ⟨(owes_running _).keep _ _ hw hset (.of_tasks rfl (List.suffix_refl _)), hset⟩

theorem operating_on_exception (e : Exn) :
    (operating node cloud).Keeps (Holding job_id) (on_exception node m job_id url e) := by
  have henter : (operating node cloud).Keeps (Holding job_id) (enter .handler : Prog Ir Unit) :=
    quiet_running (m := m) (Within.update (Steady.enter _))
  have hmark : (operating node cloud).Keeps (Holding job_id) (mark_job_cancelled node m job_id) :=
    quiet_running (Before.within (inner_mark_job_cancelled Steady.look))
  have hreport : (operating node cloud).Keeps (Holding job_id)
      (report_failure node m job_id url e) := by
    refine (quiet_running (Before.within inner_check)).bind fun b => ?_
    cases b with
    | true => exact hmark
    | false =>
        refine (quiet_running (m := m) (Within.look Steady.look)).bind fun failed_at => ?_
        refine (quiet_running (Before.within inner_hset)).bind fun _ => ?_
        refine Contract.Keeps.try_except
          (quiet_running (Before.within (inner_send_error Steady.post))) fun e' => ?_
        split
        · exact .raise _
        · exact .ret _
  cases e with
  | cancelled => exact .raise _
  | job_cancelled => exact henter.bind fun _ => hmark
  | _ => exact henter.bind fun _ => hreport

/-- The `finally` clause: an active run can only be left behind by a cancellation. -/
theorem operating_release {P : Nat → Prop} (h : Running P job_id w) :
    (operating node cloud).wp (release m) (fun r w' => match r with
      | .ok _ => Engaged 0 P w'
      | .error e => Idle w' ∨ Abandoned Sole e w') w := by
  have h₁ : Running P job_id (w.enter .cleanup) := h
  have hend : ∀ w₂ : World Ir, Running P job_id w₂ → (operating node cloud).wp (do
      Co.update (·.set_self ({ · with current_job_id := none, idle := true }))
      enter .outside : Prog Ir Unit) (fun r w' => match r with
        | .ok _ => Engaged 0 P w'
        | .error e => Idle w' ∨ Abandoned Sole e w') w₂ := by
    intro w₂ h₂
    have hset : Engaged 0 P
        (w₂.set_self ({ · with current_job_id := none, idle := true })) := h₂.1
    refine (Contract.wp_bind _ _ _ _).2
      ⟨(owes_engaged 0 P).keep _ _ h₂.1 hset (.of_tasks rfl (List.suffix_refl _)), ?_⟩
    exact ⟨(owes_engaged 0 P).keep _ _ hset hset (.of_tasks rfl (List.suffix_refl _)), hset⟩
  refine (Contract.wp_bind _ _ _ _).2
    ⟨(owes_running P).keep _ _ h h₁ (.of_tasks rfl (List.suffix_refl _)), ?_⟩
  refine (Contract.wp_bind _ _ _ _).2 ((Contract.wp_try_except _ _ _ _).2
    ((Contract.wp_bind _ _ _ _).2 (operating_call rfl h₁ fun w₂ r w₃ _ hans hatt h₃ => ?_)))
  cases r with
  | ok v => exact hend w₃ h₃
  | error e =>
      show (operating node cloud).wp (if e.is_connection then _ else _) _ w₃
      split
      · exact hend w₃ h₃
      · next hconn =>
          have honly : w₂.exec.active ≠ [] → e = .cancelled := by
            intro hne
            by_contra hother
            exact hconn ((hatt hne e rfl hother).2 m.id rfl)
          rcases h₃.left hans honly with hover | ⟨he, h₃⟩
          · exact .inl hover.1
          · exact .inr ⟨he, h₃.1.sole⟩

theorem operating_take_on {decoded : List (String × String)} :
    (operating node cloud).KeepsUnless Idle (Abandoned Sole)
      (take_on node m decoded job_id url) := by
  intro w hw
  have hset : Holding job_id
      (w.set_self ({ · with idle := false, current_job_id := some job_id })) := ⟨hw, rfl⟩
  refine (Contract.wp_bind _ _ _ _).2
    ⟨(owes_engaged 0 _).keep _ _ hw hset.1 (.of_tasks rfl (List.suffix_refl _)), ?_⟩
  have hlook : (operating node cloud).Keeps (Holding job_id) (now : Prog Ir String) :=
    quiet_running (m := m) (Within.look Steady.look)
  have hwrite : ∀ started_at, (operating node cloud).Keeps (Holding job_id)
      (safe_hset m (status_key job_id) (executing_record node m started_at)) := fun _ =>
    quiet_running (Before.within inner_hset)
  have henter : (operating node cloud).Keeps (Holding job_id) (enter .body : Prog Ir Unit) :=
    quiet_running (m := m) (Within.update (Steady.enter _))
  have hjob : (operating node cloud).KeepsUnless (Holding job_id) (Adrift job_id)
      (Co.try_except (execute node m decoded job_id url) (on_exception node m job_id url)) := by
    refine operating_execute.try_except (fun e => (operating_on_exception e).unless) ?_
    rintro e w' ⟨rfl, hrun⟩
    exact .inr ⟨_, rfl, rfl, hrun⟩
  -- with the job in hand: only a cancellation leaves a run behind
  have herr : ∀ (e : Exn) (w' : World Ir), Holding job_id w' →
      Idle w' ∨ ∃ e', (.error e : Except Exn Unit) = .error e' ∧ Abandoned Sole e' w' :=
    fun e w' h => .inl h.1
  refine hlook.wp_bind hset herr fun started_at w₁ h₁ => ?_
  refine (hwrite started_at).wp_bind h₁ herr fun _ w₂ h₂ => ?_
  refine henter.wp_bind h₂ herr fun _ w₃ h₃ => ?_
  refine (Contract.wp_try_finally _ _ _ _).2 (Contract.wp_mono (hjob w₃ h₃) fun r w₄ h₄ => ?_)
  rcases h₄ with h₄ | ⟨e, rfl, rfl, k, h₄⟩
  · refine Contract.wp_mono (operating_release h₄) fun r' w₅ h₅ => ?_
    cases r' with
    | ok u => exact .inl h₅
    | error e => exact h₅.imp_right fun h => ⟨e, rfl, h⟩
  · refine Contract.wp_mono (operating_release h₄) fun r' w₅ h₅ => ?_
    cases r' with
    | ok u => exact .inr ⟨_, rfl, rfl, h₅.sole⟩
    | error e => exact h₅.imp_right fun h => ⟨e, rfl, h⟩

/-! ## The consumer -/

theorem Steady.of_mark {x : Mark} (hx : (Event.mark x : Event Ir).begins = false) :
    Steady (fun w : World Ir => w.record (.mark x)) :=
  ⟨Plain.record (fun _ => trivial) ⟨hx, rfl⟩, fun _ => ⟨rfl, rfl⟩⟩

theorem operating_message : (operating node cloud).KeepsUnless Idle (Abandoned Sole)
    (process_message node m) :=
  keeps_process_message Steady.look (Steady.enter _) (Steady.of_mark rfl)
    (fun hp => quiet_idle (Skips.within hp)) fun _ _ _ _ => operating_take_on

/-- A batch runs in the consumer's own task: it is over when the call returns. -/
theorem operating_batch (jobs : List (Parsed Ir)) :
    (operating node cloud).Keeps Idle (run_batch jobs) := by
  intro w hw
  refine (Contract.wp_bind _ _ _ _).2 ⟨(owes_engaged 0 _).keep w w hw hw (.refl w), ?_⟩
  have hstart : Engaged 1 (fun _ => False) (w.starts (.batch w.exec.batches)) := by
    intro hcut
    have hcut' : Uncut w.log := hcut.of_suffix (List.suffix_cons _ _)
    obtain ⟨hex, hover, hact⟩ := hw hcut'
    refine ⟨hw.starts _ hex hcut', ?_, hact⟩
    simp only [batches_open] at hover ⊢
    rw [World.starts, World.record_log, List.countP_cons_of_pos (by rfl),
      List.countP_cons_of_neg (by simp)]
    omega
  have hset : Engaged 1 (fun _ => False) ((w.starts (.batch w.exec.batches)).set_exec
      fun x => { x with batches := x.batches + 1 }) := hstart
  refine (Contract.wp_bind _ _ _ _).2
    ⟨⟨hstart.sole, ((Bookkeeping.starts _).extends w).grows⟩, ?_⟩
  refine (Contract.wp_bind _ _ _ _).2
    ⟨(owes_engaged 1 _).keep _ _ hstart hset ((Bookkeeping.set_exec _).extends _), ?_⟩
  refine (Contract.wp_call _ _ _).2 ⟨⟨hset.sole, trivial⟩, fun w₁ hr r w₂ ha => ?_⟩
  have h₁ := ((owes_engaged 1 _).rely _ w₁ hset hr).1
  have hans := Answered.of_answers ha.1
  obtain ⟨took, hl⟩ := hans.log
  have h₂ : Idle w₂ := by
    intro hcut
    obtain ⟨hex, hover, hact⟩ := h₁ (hcut.of_suffix hans.grows)
    refine ⟨?_, ?_, fun k hk => hact k (active_of_answers ha.1 hk)⟩
    · rw [hl]
      exact hex.cons rfl
    · simp only [batches_open] at hover ⊢
      rw [hl, List.countP_cons_of_neg (by simp [Event.starts_batch]),
        List.countP_cons_of_pos (by rfl)]
      omega
  exact ⟨⟨h₂.sole, hans.extends.grows⟩, h₂⟩

theorem operating_loops : Everywhere (operating node cloud) node attended Idle Sole where
  read _ _ h := ⟨h.sole, trivial⟩
  owes := owes_engaged 0 _
  call c hc _ w r w' hw hans _ := (untouched_of_answers hc hans).engaged hw
  recovery w hw := hw.starts_other rfl
  write m job_id mapping := quiet_idle (Before.within inner_hset)
  message m := operating_message
  examine m := quiet_idle (handling_examine Steady.look (Steady.of_mark rfl))
  step f hf w hw := by
    cases hf with
    | self f => exact hw
    | frame f => exact hw
    | batching ms => exact ((Steady.of_mark rfl).untouched w).engaged hw
    | falling_back ms => exact ((Steady.of_mark rfl).untouched w).engaged hw
    | lost attempt delay => exact ((Steady.of_mark rfl).untouched w).engaged hw
  create t w hw _ := ⟨hw, ⟨hw.sole, w.create_task_grows t⟩⟩
  batch := operating_batch

/-- What a delivery writes: nothing begins, and no batch ends. -/
abbrev Event.bland (e : Event Ir) : Prop := e.begins = false ∧ e.ends Call.runs_batch = false

theorem Delivering.untouched {f : World Ir → World Ir} (hf : Delivering Event.bland f) (w : World Ir) :
    Untouched w (f w) ∧ w.Grows (f w) := by
  rcases hf with hf | ⟨t, rfl⟩
  · have hsteady : Steady f := ⟨hf.plain.mono (fun _ h => h) fun _ _ _ => trivial, hf.hands_off⟩
    exact ⟨hsteady.untouched w, (hsteady.extends w).grows⟩
  · exact ⟨.of_log rfl (List.Subset.refl _) rfl, w.create_task_grows t⟩

/-- A delivery leaves the executor alone. -/
theorem operating_task (t : TaskSpec Ir) (h : Sole w) :
    (Kernel.Regime.task (consumer node cloud attended) (sparing Ir)).wp (task_body node t)
      (fun _ w' => Sole w' ∧ True) w := by
  have hbody : Within (Delivering Event.bland) (fun q : Req Ir => q.call.delivers = true)
      (task_body node t) :=
    within_task_body (Delivering.allows _) (Delivering.post fun _ => ⟨rfl, rfl⟩)
      (fun t => .inr ⟨t, rfl⟩) t
  refine Contract.wp_mono (Within.wp (I := Sole) (fun _ _ _ _ => trivial)
    (fun w₁ w₂ h₁ hr => (hr h₁).1) (fun f w₁ hf h₁ => ?_) (fun q w₁ r w₂ hq h₁ ha => ?_)
    hbody h) fun _ _ h' => ⟨h', trivial⟩
  · obtain ⟨hu, hg⟩ := hf.untouched w₁
    exact ⟨⟨hu.sole h₁, hu, hg⟩, hu.sole h₁⟩
  · have hu := untouched_of_answers (Call.not_batch_of_delivers hq) ha.1
    exact ⟨⟨hu.sole h₁, hu, (Answered.of_answers ha.1).extends.grows⟩, hu.sole h₁⟩

theorem sparing_sound :
    Kernel.Regime.Sound (consumer node cloud attended) (sparing Ir) where
  refl := .refl
  trans _ _ _ := .trans
  grows_refl := .refl
  grows_trans _ _ _ := .trans
  spawned _ _ h := h.tasks
  drift w w' hd := by
    have hlog : w.log <:+ w'.log := ⟨[], (Drift.log hd).symm⟩
    have htasks : w'.tasks.map Prod.fst = w.tasks.map Prod.fst := by rw [Drift.tasks hd]
    have hu : Untouched w w' := Drift.untouched hd
    exact ⟨htasks, fun hi => ⟨hu.sole hi, hu, htasks ▸ List.prefix_refl _, hlog⟩⟩
  finish i r w := by
    have hu : Untouched w (w.finish_task i r) := .of_log rfl (List.Subset.refl _) rfl
    exact ⟨w.finish_task_specs i r, fun hi _ =>
      ⟨hu.sole hi, hu, w.finish_task_grows i r, List.suffix_refl _⟩⟩
  body _ _ _ t _ hi _ _ := operating_task t hi
  again w q hi hround hq := by
    have hiter := eq_iteration_of_again hq
    subst hiter
    have hidle : Idle w := by
      rcases hround with h | ⟨e, he, -⟩
      · exact h
      · cases he
    refine Contract.wp_mono (operating_loops.loops.iteration w hidle) fun r w' h => ⟨?_, h⟩
    rcases h with h | ⟨e, -, -, h⟩
    · exact h.sole
    · exact h

/-- Only Redis commands fail, and only for the connection. -/
def connection_faults (q : Req Ir) (_ : World Ir) (r : Except Exn q.Reply) : Prop :=
  ∀ e, r = .error e → q.call.is_redis = true ∧ e.is_connection = true

/-- Two jobs; the first run takes more than one interval. -/
def exclusive_world : World String :=
  sample_world [sample_message "1-0" "job-1" sample_ir, sample_message "2-0" "job-2" sample_ir]

def exclusive_node : Node String := sample_node (.runs 1 (.ok sample_result)) none

end CodaNode
