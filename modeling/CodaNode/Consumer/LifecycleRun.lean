/-
`Consumer/LifecycleRun.lean` -- every job of a running consumer follows its life.

While Redis answers and no reply holds two messages of one job, what is written and reported of
a job follows `lifecycle`, whatever the order of the steps, and only a job that a handler or a
delivery has in hand is between two phases.
-/
import CodaNode.Consumer.CrewTasks
import Mathlib.Data.List.Nodup

set_option autoImplicit false

open Coroutine

namespace CodaNode

variable {Ir : Type} {node : Node Ir} {w w' : World Ir} {i : Nat} {t : TaskSpec Ir} {m : Message}
variable {j job_id url : String} {p q : Phase} {e : Option JobEvent}
variable {s₀ : String → Option String}
variable {cloud : (String → Option String) → (String → Option String) → Prop}

/-! ## What a run is restricted to -/

/-- The job that a message carries. -/
def Message.job (m : Message) : Option String :=
  match m.header with
  | .ok (_, job_id, _) => some job_id
  | .error _ => none

/-- No two of the messages carry one job. -/
def Distinct (ms : List Message) : Prop := (ms.filterMap Message.job).Nodup

/-- A reply of the stream holds no two messages of one job. -/
def distinct_jobs : (q : Req Ir) → World Ir → Except Exn q.Reply → Prop
  | ⟨_, .xreadgroup _⟩, _, .ok messages => ∀ s ∈ messages, Distinct s.2
  | _, _, _ => True

/-- Redis answers, with distinct jobs. -/
def orderly_stream (q : Req Ir) (w : World Ir) (r : Except Exn q.Reply) : Prop :=
  redis_up q w r ∧ distinct_jobs q w r

/-! ## The agreement -/

/-- The loop or a delivery has the job in hand. -/
def World.InHand (w : World Ir) (job_id : String) : Prop :=
  w.self.current_job_id = some job_id ∨ ∃ i t, w.Live i t ∧ t.job = some job_id

/-- Every job follows its life, and only one that is in hand is between two phases. -/
def World.Follows (s₀ : String → Option String) (w : World Ir) : Prop :=
  ∀ j, ∃ p, (w.file j).At (s₀ j) p ∧ (p.settled = true ∨ w.InHand j)

/-- The agreement on the lives of the jobs. -/
def followers (Ir : Type) (s₀ : String → Option String) : Crew Ir where
  fine := World.Follows s₀
  ready t w := t.jobs.Nodup ∧ ∀ j ∈ t.jobs, (w.file j).At (s₀ j) .executing
  done t _ w := ∀ j, t.job = some j → ∃ p, p.settled = true ∧ (w.file j).At (s₀ j) p

theorem World.InHand.mono (h : w.InHand j) (hlive : ∀ i t, w.Live i t → w'.Live i t)
    (hcurrent : w'.self.current_job_id = w.self.current_job_id) : w'.InHand j :=
  h.imp hcurrent.trans fun ⟨i, t, hi, ht⟩ => ⟨i, t, hlive i t hi, ht⟩

theorem World.Follows.same (h : w.Follows s₀) (hfiles : w.SameFiles w')
    (hlive : ∀ i t, w.Live i t → w'.Live i t)
    (hcurrent : w'.self.current_job_id = w.self.current_job_id) : w'.Follows s₀ := by
  intro j
  obtain ⟨p, hp, hhand⟩ := h j
  exact ⟨p, by rwa [hfiles j], hhand.imp_right fun h => h.mono hlive hcurrent⟩

/-- A job is brought to the phase `q`. -/
theorem World.Follows.turn (h : w.Follows s₀) (ht : Turn j e w w')
    (hq : (w'.file j).At (s₀ j) q) (hhand : q.settled = true ∨ w'.InHand j) : w'.Follows s₀ := by
  intro k
  by_cases hk : k = j
  · subst hk
    exact ⟨q, hq, hhand⟩
  · obtain ⟨p, hp, hhand'⟩ := h k
    refine ⟨p, by rwa [ht.others k hk], hhand'.imp_right fun h => h.mono (fun i t hi => ?_) ht.current⟩
    rwa [World.Live, ht.tasks]

/-- What a job is, when nobody has it in hand. -/
theorem World.Follows.free (h : w.Follows s₀) (hover : w.Over)
    (hcurrent : w.self.current_job_id = none) (j : String) :
    ∃ p, p.settled = true ∧ (w.file j).At (s₀ j) p := by
  obtain ⟨p, hp, hsettled | hj | ⟨i, t, hi, -⟩⟩ := h j
  · exact ⟨p, hsettled, hp⟩
  · rw [hcurrent] at hj
    cases hj
  · exact absurd hi (hover i t)

theorem followers_indifferent : (followers Ir s₀).Indifferent :=
  fun _ _ h hf => World.Follows.same hf h.files h.live h.current

theorem followers_steady : (followers Ir s₀).Steady cloud where
  drift w w' hd hf := by
    refine World.Follows.same hf (Crew.SameFiles.of_drift hd) (fun i t hi => ?_) ?_
    · rwa [World.Live, Drift.tasks hd]
    · rw [Drift.self hd]
  finish i t r w h k := by
    obtain ⟨p, hp, hhand⟩ := h.good.fine k
    have hfile : (w.finish_task i r).file k = w.file k := World.file_of_log rfl rfl
    rw [hfile]
    rcases hhand with hsettled | hcurrent | ⟨j, u, hj, hu⟩
    · exact ⟨p, hp, .inl hsettled⟩
    · exact ⟨p, hp, .inr (.inl hcurrent)⟩
    · by_cases hji : j = i
      · -- the task that ends has left its job settled
        subst hji
        obtain rfl := Crew.live_unique h.lands.live hj
        obtain ⟨q, hq, hat⟩ := h.done k hu
        exact ⟨q, hat, .inl hq⟩
      · exact ⟨p, hp, .inr (.inr ⟨j, u, hj.finish hji, hu⟩)⟩

/-! ## The loop -/

namespace Followers

/-- What the loop owes for a step that leaves the tasks alone. -/
theorem main_keep {C : Crew Ir} (hover : w.Over) (hgood : C.Good w') (htasks : w'.tasks = w.tasks)
    (hlog : w.log <:+ w'.log) : (C.main node cloud orderly_stream).keep w w' :=
  ⟨hgood, .inl htasks, .inl hover, Crew.provides_of_tasks htasks, hlog⟩

/-- The loop's handler has the job in hand, in the phase `p`. -/
abbrev Grip (s₀ : String → Option String) (j : String) (p : Phase) : World Ir → Prop :=
  (followers Ir s₀).Held fun w => w.self.current_job_id = some j ∧ (w.file j).At (s₀ j) p

/-- The loop looks at a settled job; of the others it knows `F`. -/
abbrev Touch (s₀ : String → Option String) (j : String) (F : World Ir → Prop) (p : Phase)
    (w : World Ir) : Prop :=
  p.settled = true ∧ (followers Ir s₀).Held (fun w => w.self.current_job_id = none ∧
    (w.file j).At (s₀ j) p ∧ F w) w

theorem lasting_grip : Crew.Lasting fun w : World Ir =>
    w.self.current_job_id = some j ∧ (w.file j).At (s₀ j) p :=
  fun _ _ hfiles hcurrent h => ⟨hcurrent.trans h.1, by rw [hfiles j]; exact h.2⟩

/-- `F` is about the files of the other jobs. -/
def Elsewhere (j : String) (F : World Ir → Prop) : Prop :=
  ∀ w w' : World Ir, (∀ k, k ≠ j → w'.file k = w.file k) → F w → F w'

theorem lasting_touch {F : World Ir → Prop} (hF : Elsewhere j F) : Crew.Lasting fun w : World Ir =>
    w.self.current_job_id = none ∧ (w.file j).At (s₀ j) p ∧ F w :=
  fun w w' hfiles hcurrent h =>
    ⟨hcurrent.trans h.1, by rw [hfiles j]; exact h.2.1, hF w w' (fun k _ => hfiles k) h.2.2⟩

theorem hands_grip : Hands ((followers Ir s₀).main node cloud orderly_stream) node m j anywhere
    (Grip s₀ j) where
  pre _ _ _ _ _ := trivial
  answer _ _ _ _ ha := ⟨ha.1, ha.2.1⟩
  rely _ w w' h hr := ((Crew.owes_held lasting_grip).rely w w' h hr).1
  shows _ _ h := h.holds.2.shows
  turn p e q w w' h ht hleads _ := by
    have hat := ht.at h.holds.2 hleads
    have hcurrent := ht.current.trans h.holds.1
    have hfine : w'.Follows s₀ := World.Follows.turn h.good.fine ht hat (.inr (.inl hcurrent))
    exact ⟨main_keep h.quiet (h.good.of_tasks hfine ht.tasks) ht.tasks ht.log,
      h.step hfine ⟨hcurrent, hat⟩ ht.tasks ht.pending⟩

theorem hands_touch {F : World Ir → Prop} (hF : Elsewhere j F) :
    Hands ((followers Ir s₀).main node cloud orderly_stream) node m j Phase.settled
      (Touch s₀ j F) where
  pre _ _ _ _ _ := trivial
  answer _ _ _ _ ha := ⟨ha.1, ha.2.1⟩
  rely _ w w' h hr := ⟨h.1, ((Crew.owes_held (lasting_touch hF)).rely w w' h.2 hr).1⟩
  shows _ _ h := h.2.holds.2.1.shows
  turn p e q w w' h ht hleads hq := by
    have hat := ht.at h.2.holds.2.1 hleads
    have hcurrent := ht.current.trans h.2.holds.1
    have hfine : w'.Follows s₀ := World.Follows.turn h.2.good.fine ht hat (.inl hq)
    exact ⟨main_keep h.2.quiet (h.2.good.of_tasks hfine ht.tasks) ht.tasks ht.log, hq,
      h.2.step hfine ⟨hcurrent, hat, hF w w' ht.others h.2.holds.2.2⟩ ht.tasks ht.pending⟩

/-- A message that is about no job, or is not taken on. -/
theorem Touch.alone {F : World Ir → Prop} (h : Touch s₀ j F p w) : (followers Ir s₀).Alone w :=
  h.2.mono h.2.holds.1

theorem touch_of_alone (h : (followers Ir s₀).Alone w) (j : String) :
    ∃ p, Touch s₀ j (fun _ => True) p w := by
  obtain ⟨p, hp, hat⟩ := World.Follows.free h.good.fine h.quiet h.holds j
  exact ⟨p, hp, h.mono ⟨h.holds, hat, trivial⟩⟩

/-- A step that touches no file. -/
theorem held_neutral {Q : World Ir → Prop} (hQ : Crew.Lasting Q) (h : (followers Ir s₀).Held Q w)
    (hn : Crew.Neutral w w')
    (hpending : w'.self.pending_batch_delivery = w.self.pending_batch_delivery) :
    (followers Ir s₀).Held Q w' :=
  h.step (World.Follows.same h.good.fine hn.files hn.alike.live hn.current)
    (hQ w w' hn.files hn.current h.holds) hn.tasks hpending

/-- A step that is about no job. -/
theorem keeps_still {f : World Ir → World Ir} (hf : Silent f) :
    ((followers Ir s₀).main node cloud orderly_stream).Keeps (followers Ir s₀).Alone
      (Co.update f : Prog Ir Unit) := by
  intro w h
  have hturn := hf "" w
  have hneutral : Crew.Neutral w (f w) := 
    ⟨hturn.tasks, hturn.values, hf.files w, hturn.current, hturn.log⟩
  have h' := held_neutral Crew.lasting_none h hneutral hturn.pending
  exact ⟨main_keep h.quiet h'.good hturn.tasks hturn.log, h'⟩

/-- A step that touches no file, made for a message. -/
theorem keeps_xack {Q : World Ir → Prop} (hQ : Crew.Lasting Q) :
    ((followers Ir s₀).main node cloud orderly_stream).Keeps ((followers Ir s₀).Held Q)
      (safe_xack m : Prog Ir Bool) := by
  have hcall : ((followers Ir s₀).main node cloud orderly_stream).Keeps ((followers Ir s₀).Held Q)
      (on m (.xack m.id) : Prog Ir Unit) := by
    refine (Crew.owes_held hQ).call rfl fun w r w' h hans _ => ?_
    have ha := Answered.of_answers hans
    have hfiles : w.SameFiles w' := by
      obtain ⟨took, hl⟩ := ha.log
      exact .of_line (hashes_of_answers rfl (by simp) hans) hl fun _ => rfl
    exact held_neutral hQ h
      ⟨ha.tasks, ha.values, hfiles, by rw [ha.self], ha.grows⟩ (by rw [ha.self])
  refine Contract.Keeps.try_except (hcall.bind fun _ => .ret _) fun e => ?_
  cases e.is_connection
  · exact .raise e
  · exact .ret _

/-- A message is done with. -/
theorem wp_skip (h : (followers Ir s₀).Alone w) :
    ((followers Ir s₀).main node cloud orderly_stream).wp
      (do let _ ← safe_xack m : Prog Ir Unit) (fun _ w' => (followers Ir s₀).Alone w') w :=
  ((keeps_xack Crew.lasting_none).bind fun _ => .ret _) w h

/-- The job is taken on. -/
theorem wp_take_on {decoded : List (String × String)} (hp : p.free = true)
    (h : Touch s₀ job_id (fun _ => True) p w) :
    ((followers Ir s₀).main node cloud orderly_stream).wp (take_on node m decoded job_id url)
      (fun _ w' => (followers Ir s₀).Alone w') w := by
  have hI : Hands ((followers Ir s₀).main node cloud orderly_stream) node m job_id anywhere
      (Grip s₀ job_id) := hands_grip
  let w₁ : World Ir := w.set_self ({ · with idle := false, current_job_id := some job_id })
  have h₁ : Grip s₀ job_id p w₁ := by
    have hfine : w₁.Follows s₀ := fun k => by
      obtain ⟨q, hq, hat⟩ := World.Follows.free h.2.good.fine h.2.quiet h.2.holds.1 k
      exact ⟨q, hat, .inl hq⟩
    exact h.2.step hfine ⟨rfl, h.2.holds.2.1⟩ rfl rfl
  have hstep : lifecycle.step p (.wrote "executing") = some .executing := by
    cases p <;> first | rfl | cases hp
  refine (Contract.wp_bind _ _ _ _).2 ⟨main_keep h.2.quiet h₁.good rfl (List.suffix_refl _), ?_⟩
  refine (Contract.wp_bind _ _ _ _).2 (Contract.wp_mono (hI.wp_look rfl h₁) ?_)
  rintro r w₂ ⟨⟨started_at, rfl⟩, h₂⟩
  refine (Contract.wp_bind _ _ _ _).2 (Contract.wp_mono
    (hI.wp_write (record_state_executing node m started_at) hstep rfl h₂) ?_)
  rintro r w₃ ⟨⟨b, rfl⟩, h₃⟩
  refine (Contract.wp_bind _ _ _ _).2 (Contract.wp_mono (hI.wp_still (.enter .body) rfl h₃) ?_)
  rintro r w₄ ⟨rfl, h₄⟩
  refine (Contract.wp_try_finally _ _ _ _).2 (Contract.wp_mono (hI.wp_handle h₄) ?_)
  rintro r w₅ ⟨q, hq, h₅⟩
  have hend : ((followers Ir s₀).main node cloud orderly_stream).wp (release m : Prog Ir Unit)
      (fun _ w' => (followers Ir s₀).Alone w') w₅ := by
    refine (Contract.wp_bind _ _ _ _).2
      (Contract.wp_mono (hI.wp_still (.enter .cleanup) rfl h₅) ?_)
    rintro r w₆ ⟨rfl, h₆⟩
    refine (Contract.wp_bind _ _ _ _).2 (Contract.wp_mono (hI.wp_xack rfl h₆) ?_)
    rintro r w₇ ⟨⟨b, rfl⟩, h₇⟩
    -- the job is settled, and so nobody needs to have it in hand
    have hfine : (w₇.set_self ({ · with current_job_id := none, idle := true })).Follows s₀ := by
      intro k
      by_cases hk : k = job_id
      · subst hk
        exact ⟨q, h₇.holds.2, .inl hq⟩
      · obtain ⟨p', hp', hsettled | hcurrent | ⟨i, t, hi, -⟩⟩ := h₇.good.fine k
        · exact ⟨p', hp', .inl hsettled⟩
        · rw [h₇.holds.1] at hcurrent
          exact absurd (Option.some.inj hcurrent).symm hk
        · exact absurd hi (h₇.quiet i t)
    have h₈ : (followers Ir s₀).Alone
        (w₇.set_self ({ · with current_job_id := none, idle := true })) :=
      h₇.step hfine rfl rfl rfl
    refine (Contract.wp_bind _ _ _ _).2 ⟨main_keep h₇.quiet h₈.good rfl (List.suffix_refl _), ?_⟩
    exact keeps_still (.enter .outside) _ h₈
  refine Contract.wp_mono hend fun r' w' h' => ?_
  cases r' <;> exact h'

/-- **A message leaves every job settled.** -/
theorem keeps_process_message (m : Message) :
    ((followers Ir s₀).main node cloud orderly_stream).Keeps (followers Ir s₀).Alone
      (process_message node m) := by
  have henter : ((followers Ir s₀).main node cloud orderly_stream).Keeps (followers Ir s₀).Alone
      (do enter .outside; mark (.handling m) : Prog Ir Unit) :=
    (keeps_still (.enter .outside)).bind fun _ => keeps_still (.mark _)
  refine henter.bind fun _ => fun w h => ?_
  cases decode_fields m.fields with
  | error e => exact h
  | ok fields =>
      dsimp only
      cases m.header with
      | error e =>
          exact wp_skip h
      | ok header =>
          obtain ⟨decoded, job_id, url⟩ := header
          obtain ⟨p, hp⟩ := touch_of_alone h job_id
          have hI : Hands ((followers Ir s₀).main node cloud orderly_stream) node m job_id
              Phase.settled (Touch s₀ job_id fun _ => True) := hands_touch fun _ _ _ _ => trivial
          refine (Contract.wp_bind _ _ _ _).2 (Contract.wp_mono (hI.wp_status hp.1 hp) ?_)
          rintro r w₁ ⟨⟨st, rfl, hshows⟩, h₁⟩
          rw [Contract.and_then_ok]
          split
          · exact wp_skip h₁.alone
          · next hst =>
              have hfree := Phase.free_of_settled h₁.1 hshows (by simpa using hst)
              have hcancels : lifecycle.step p (.wrote "cancelled") = some .cancelled := by
                cases p <;> first | rfl | cases hfree
              refine (Contract.wp_bind _ _ _ _).2 (Contract.wp_mono (hI.wp_check h₁.1 h₁) ?_)
              rintro r w₂ ⟨⟨b, rfl⟩, h₂⟩
              cases b with
              | false => exact wp_take_on hfree h₂
              | true =>
                  refine (Contract.wp_bind _ _ _ _).2
                    (Contract.wp_mono (hI.wp_mark_job_cancelled hcancels h₂.1 rfl h₂) ?_)
                  rintro r w₃ ⟨rfl, h₃⟩
                  exact wp_skip h₃.alone

/-! ## A batch -/

/-- These jobs would be taken on. -/
def Accepted (s₀ : String → Option String) (js : List String) (w : World Ir) : Prop :=
  ∀ j ∈ js, ∃ p, p.free = true ∧ (w.file j).At (s₀ j) p

theorem elsewhere_accepted {js : List String} (hj : j ∉ js) :
    Elsewhere j (Accepted s₀ js : World Ir → Prop) := by
  intro w w' hfiles h k hk
  obtain ⟨p, hp, hat⟩ := h k hk
  exact ⟨p, hp, by rwa [hfiles k fun he => hj (he ▸ hk)]⟩

/-- The loop collects the jobs `js` of a batch. -/
abbrev Collecting (s₀ : String → Option String) (js : List String) : World Ir → Prop :=
  (followers Ir s₀).Held fun w => w.self.current_job_id = none ∧ Accepted s₀ js w

theorem lasting_collecting {js : List String} : Crew.Lasting fun w : World Ir =>
    w.self.current_job_id = none ∧ Accepted s₀ js w := by
  refine fun w w' hfiles hcurrent h => ⟨hcurrent.trans h.1, fun j hj => ?_⟩
  obtain ⟨p, hp, hat⟩ := h.2 j hj
  exact ⟨p, hp, by rwa [hfiles j]⟩

theorem Collecting.alone {js : List String} (h : Collecting s₀ js w) : (followers Ir s₀).Alone w :=
  h.mono h.holds.1

/-- A message of a batch: a job that is accepted would be taken on. -/
theorem wp_examine {js : List String} (hm : ∀ j, m.job = some j → j ∉ js)
    (h : Collecting s₀ js w) :
    ((followers Ir s₀).main node cloud orderly_stream).wp (examine node m) (fun r w' => match r with
      | .ok none => Collecting s₀ js w'
      | .ok (some job) => m.job = some job.job_id ∧ Collecting s₀ (job.job_id :: js) w'
      | .error _ => (followers Ir s₀).Alone w') w := by
  have hskip : ∀ {w : World Ir}, Collecting s₀ js w →
      ((followers Ir s₀).main node cloud orderly_stream).wp
        (do let _ ← safe_xack m; pure none : Prog Ir (Option (Parsed Ir))) (fun r w' => match r with
          | .ok none => Collecting s₀ js w'
          | .ok (some job) => m.job = some job.job_id ∧ Collecting s₀ (job.job_id :: js) w'
          | .error _ => (followers Ir s₀).Alone w') w := fun h =>
    (keeps_xack lasting_collecting).wp_bind h (fun _ _ h => Collecting.alone h) fun _ _ h => h
  unfold examine
  cases decode_fields m.fields with
  | error e => exact h.alone
  | ok fields =>
      dsimp only
      cases hheader : m.header with
      | error e => exact hskip h
      | ok header =>
          obtain ⟨decoded, job_id, url⟩ := header
          have hjob : m.job = some job_id := by rw [Message.job, hheader]
          have hnot := hm job_id hjob
          have hI : Hands ((followers Ir s₀).main node cloud orderly_stream) node m job_id
              Phase.settled (Touch s₀ job_id (Accepted s₀ js)) :=
            hands_touch (elsewhere_accepted hnot)
          obtain ⟨p, hp, hat⟩ := World.Follows.free h.good.fine h.quiet h.holds.1 job_id
          have hback : ∀ {p : Phase} {w : World Ir}, Touch s₀ job_id (Accepted s₀ js) p w →
              Collecting s₀ js w := fun h => h.2.mono ⟨h.2.holds.1, h.2.holds.2.2⟩
          have h₀ : Touch s₀ job_id (Accepted s₀ js) p w :=
            ⟨hp, h.mono ⟨h.holds.1, hat, h.holds.2⟩⟩
          refine (Contract.wp_bind _ _ _ _).2 (Contract.wp_mono (hI.wp_status hp h₀) ?_)
          rintro r w₁ ⟨⟨st, rfl, hshows⟩, h₁⟩
          rw [Contract.and_then_ok]
          split
          · exact hskip (hback h₁)
          · next hst =>
              have hfree := Phase.free_of_settled h₁.1 hshows (by simpa using hst)
              have hcancels : lifecycle.step p (.wrote "cancelled") = some .cancelled := by
                cases p <;> first | rfl | cases hfree
              refine (Contract.wp_bind _ _ _ _).2 (Contract.wp_mono (hI.wp_check h₁.1 h₁) ?_)
              rintro r w₂ ⟨⟨b, rfl⟩, h₂⟩
              cases b with
              | true =>
                  refine (Contract.wp_bind _ _ _ _).2
                    (Contract.wp_mono (hI.wp_mark_job_cancelled hcancels h₂.1 rfl h₂) ?_)
                  rintro r w₃ ⟨rfl, h₃⟩
                  exact hskip (hback h₃)
              | false =>
                  rw [Contract.and_then_ok]
                  cases node.parse_job decoded with
                  | error e =>
                      refine (Contract.wp_bind _ _ _ _).2
                        (Contract.wp_mono (hI.wp_still (Silent.mark _) h₂.1 h₂) ?_)
                      rintro r w₃ ⟨rfl, h₃⟩
                      exact hskip (hback h₃)
                  | ok parsed =>
                      refine ⟨hjob, h₂.2.mono ⟨h₂.2.holds.1, fun k hk => ?_⟩⟩
                      rcases List.mem_cons.1 hk with rfl | hk
                      · exact ⟨p, hfree, h₂.2.holds.2.1⟩
                      · exact h₂.2.holds.2.2 k hk

/-- **The jobs that are accepted are distinct, and would be taken on.** -/
theorem wp_examine_all {js : List String} (ms : List Message)
    (hms : (ms.filterMap Message.job ++ js).Nodup) (h : Collecting s₀ js w) :
    ((followers Ir s₀).main node cloud orderly_stream).wp (examine_all node ms) (fun r w' =>
      match r with
      | .ok parsed => (parsed.map Parsed.job_id).Sublist (ms.filterMap Message.job) ∧
          Collecting s₀ (parsed.map Parsed.job_id ++ js) w'
      | .error _ => (followers Ir s₀).Alone w') w := by
  -- by induction on the messages, the jobs accepted so far being free
  induction ms generalizing js w with
  | nil => exact ⟨.slnil, h⟩
  | cons m rest ih =>
      have hm : ∀ j, m.job = some j → j ∉ rest.filterMap Message.job ++ js := by
        intro j hj
        rw [List.filterMap_cons_some hj] at hms
        exact (List.nodup_cons.1 hms).1
      have hrest : (rest.filterMap Message.job ++ js).Nodup := by
        refine hms.sublist (List.Sublist.append_right ?_ js)
        rw [List.filterMap_cons]
        split
        · exact .refl _
        · exact List.sublist_cons_self _ _
      refine (Contract.wp_bind _ _ _ _).2 (Contract.wp_mono
        (wp_examine (fun j hj hin => hm j hj (List.mem_append_right _ hin)) h) fun r w₁ h₁ => ?_)
      cases r with
      | error e => exact h₁
      | ok found =>
          cases found with
          | none =>
              refine (Contract.wp_bind _ _ _ _).2 (Contract.wp_mono (ih hrest h₁) fun r w₂ h₂ => ?_)
              cases r with
              | error e => exact h₂
              | ok jobs =>
                  refine ⟨h₂.1.trans ?_, h₂.2⟩
                  rw [List.filterMap_cons]
                  split
                  · exact .refl _
                  · exact List.sublist_cons_self _ _
          | some job =>
              obtain ⟨hjob, h₁⟩ := h₁
              have hnodup : (rest.filterMap Message.job ++ job.job_id :: js).Nodup :=
                List.nodup_middle.2 (List.nodup_cons.2 ⟨hm _ hjob, hrest⟩)
              refine (Contract.wp_bind _ _ _ _).2
                (Contract.wp_mono (ih hnodup h₁) fun r w₂ h₂ => ?_)
              cases r with
              | error e => exact h₂
              | ok jobs =>
                  refine ⟨?_, h₂.2.mono ⟨h₂.2.holds.1, fun k hk => h₂.2.holds.2 k ?_⟩⟩
                  · rw [List.filterMap_cons_some hjob]
                    exact h₂.1.cons_cons _
                  · have hk' : k ∈ job.job_id :: (jobs.map Parsed.job_id ++ js) := hk
                    rcases List.mem_cons.1 hk' with rfl | hk'
                    · exact List.mem_append_right _ List.mem_cons_self
                    · exact (List.mem_append.1 hk').elim (List.mem_append_left _) fun hk =>
                        List.mem_append_right _ (List.mem_cons_of_mem _ hk)

/-- The jobs `js` are recorded as executing, and those of `todo` would be taken on. -/
abbrev Marking (s₀ : String → Option String) (js todo : List String) : World Ir → Prop :=
  (followers Ir s₀).Held fun w => w.self.current_job_id = none ∧
    (∀ j ∈ js, (w.file j).At (s₀ j) .executing) ∧ Accepted s₀ todo w

theorem lasting_marking {js todo : List String} : Crew.Lasting fun w : World Ir =>
    w.self.current_job_id = none ∧ (∀ j ∈ js, (w.file j).At (s₀ j) .executing) ∧
      Accepted s₀ todo w := by
  intro w w' hfiles hcurrent h
  have hlast := lasting_collecting w w' hfiles hcurrent ⟨h.1, h.2.2⟩
  exact ⟨hlast.1, fun j hj => by rw [hfiles j]; exact h.2.1 j hj, hlast.2⟩

theorem wp_mark_executing {js : List String} (todo : List (Parsed Ir))
    (h : Marking s₀ js (todo.map Parsed.job_id) w) :
    ((followers Ir s₀).main node cloud orderly_stream).wp (mark_executing node todo) (fun r w' =>
      r = .ok () ∧ Marking s₀ (js ++ todo.map Parsed.job_id) [] w') w := by
  -- by induction on the jobs that are left
  induction todo generalizing js w with
  | nil => exact ⟨rfl, h.mono ⟨h.holds.1, by simpa using h.holds.2.1, h.holds.2.2⟩⟩
  | cons job rest ih =>
      let F : World Ir → Prop := fun w =>
        (∀ j ∈ js, j ≠ job.job_id → (w.file j).At (s₀ j) .executing) ∧
          ∀ j ∈ rest.map Parsed.job_id, j ≠ job.job_id →
            ∃ p, p.free = true ∧ (w.file j).At (s₀ j) p
      have hF : Elsewhere job.job_id F := by
        refine fun w w' hfiles h => ⟨fun j hj hne => ?_, fun j hj hne => ?_⟩
        · rw [hfiles j hne]
          exact h.1 j hj hne
        · rw [hfiles j hne]
          exact h.2 j hj hne
      have hI : Hands ((followers Ir s₀).main node cloud orderly_stream) node job.msg job.job_id
          Phase.settled (Touch s₀ job.job_id F) := hands_touch hF
      obtain ⟨p, hfree, hat⟩ := h.holds.2.2 job.job_id List.mem_cons_self
      have h₀ : Touch s₀ job.job_id F p w := by
        refine ⟨Phase.settled_of_free hfree, h.mono ⟨h.holds.1, hat, ?_, ?_⟩⟩
        · exact fun j hj _ => h.holds.2.1 j hj
        · exact fun j hj _ => h.holds.2.2 j (List.mem_cons_of_mem _ hj)
      have hstep : lifecycle.step p (.wrote "executing") = some .executing := by
        cases p <;> first | rfl | cases hfree
      refine (Contract.wp_bind _ _ _ _).2 (Contract.wp_mono (hI.wp_look h₀.1 h₀) ?_)
      rintro r w₁ ⟨⟨started_at, rfl⟩, h₁⟩
      refine (Contract.wp_bind _ _ _ _).2 (Contract.wp_mono
        (hI.wp_write (record_state_batch_executing node started_at) hstep rfl h₁) ?_)
      rintro r w₂ ⟨⟨b, rfl⟩, -, h₂⟩
      have h₃ : Marking s₀ (js ++ [job.job_id]) (rest.map Parsed.job_id) w₂ := by
        obtain ⟨hcurrent, hexecuting, hjs, hrest⟩ := h₂.holds
        refine h₂.mono ⟨hcurrent, fun j hj => ?_, fun j hj => ?_⟩
        · by_cases hne : j = job.job_id
          · exact hne ▸ hexecuting
          · exact hjs j ((List.mem_append.1 hj).resolve_right fun h => hne (List.mem_singleton.1 h)) hne
        · by_cases hne : j = job.job_id
          · exact ⟨.executing, rfl, hne ▸ hexecuting⟩
          · exact hrest j hj hne
      refine Contract.wp_mono (ih h₃) ?_
      rintro r w₃ ⟨rfl, h₄⟩
      refine ⟨rfl, ?_⟩
      rwa [List.append_assoc] at h₄

/-- **A batch leaves every job settled, or hands its jobs to a delivery.** -/
theorem wp_process_batch {J : World Ir → Prop} (ms : List Message) (hms : Distinct ms)
    (h : (followers Ir s₀).Alone w) :
    ((followers Ir s₀).main node cloud orderly_stream).wp (process_batch node ms)
      ((followers Ir s₀).Handed J) w := by
  refine (keeps_still (Silent.mark (.batching ms))).wp_bind h (fun _ _ h => .inl h) fun _ w₁ h₁ => ?_
  have h₂ : Collecting s₀ [] w₁ := h₁.mono ⟨h₁.holds, fun j hj => by cases hj⟩
  refine (Contract.wp_bind _ _ _ _).2 (Contract.wp_mono
    (wp_examine_all ms (by rwa [List.append_nil]) h₂) fun r w₃ h₃ => ?_)
  cases r with
  | error e => exact .inl h₃
  | ok parsed =>
      obtain ⟨hsub, h₃⟩ := h₃
      rw [Contract.and_then_ok]
      split
      · exact h₃.mono h₃.holds.1
      · rw [List.append_nil] at h₃
        have h₄ : Marking s₀ [] (parsed.map Parsed.job_id)
            (w₃.set_self ({ · with idle := false })) := by
          have hstill : Silent fun w : World Ir => w.set_self ({ · with idle := false }) :=
            .of_fields (fun _ => rfl) (fun _ => rfl) (fun _ => rfl) (fun _ => rfl) (fun _ => rfl)
              fun _ => rfl
          have hlast := lasting_collecting w₃ _ (hstill.files w₃) rfl h₃.holds
          have hfine := World.Follows.same h₃.good.fine (hstill.files w₃) (fun _ _ h => h) rfl
          exact h₃.step hfine ⟨hlast.1, (fun j hj => by cases hj), hlast.2⟩ rfl rfl
        refine (Contract.wp_bind _ _ _ _).2 ⟨main_keep h₃.quiet h₄.good rfl (List.suffix_refl _), ?_⟩
        refine (Contract.wp_bind _ _ _ _).2 (Contract.wp_mono (wp_mark_executing parsed h₄) ?_)
        rintro r w₅ ⟨rfl, h₅⟩
        have hserves : Serves ((followers Ir s₀).main node cloud orderly_stream) node orderly_stream
            (followers Ir s₀).Alone J :=
          Crew.serves_of_message followers_indifferent fun m => (keeps_process_message m).unless
        refine Crew.wp_hand_over followers_indifferent hserves lasting_marking (fun _ h => h.1)
          (fun results w h => ⟨hms.sublist hsub, fun j hj => ?_⟩) ms h₅
        have hfile : (w.create_task (.deliver_batch_results parsed results)).file j = w.file j :=
          World.file_of_log rfl rfl
        rw [hfile]
        exact h.holds.2.1 j hj

theorem served {J : World Ir → Prop} :
    (followers Ir s₀).Served node cloud orderly_stream J Distinct where
  toServes := Crew.serves_of_message followers_indifferent fun m => (keeps_process_message m).unless
  batch ms _ hms h := wp_process_batch ms hms h
  reply _ _ _ _ _ hallow := hallow.2

/-! ## The delivery of one job -/

section Tasks

variable {i : Nat} {t : TaskSpec Ir}

/-- The task has the job in hand, in the phase `p`. -/
def Haul (s₀ : String → Option String) (i : Nat) (t : TaskSpec Ir) (j : String) (p : Phase)
    (w : World Ir) : Prop :=
  (followers Ir s₀).Afloat i t w ∧ (w.file j).At (s₀ j) p

/-- A turn of the task. -/
theorem turn_haul (h : (followers Ir s₀).Afloat i t w) (hj : t.job = some j) (ht : Turn j e w w')
    (hat : (w'.file j).At (s₀ j) q) :
    ((followers Ir s₀).task node cloud orderly_stream i t).keep w w' ∧ Haul s₀ i t j q w' := by
  have hlive : w'.Live i t := by
    rw [World.Live, ht.tasks]
    exact h.live
  have hfine : w'.Follows s₀ := World.Follows.turn h.good.fine ht hat (.inr (.inr ⟨i, t, hlive, hj⟩))
  obtain ⟨hk, h'⟩ := h.turn hj ht hfine
  exact ⟨hk, h', hat⟩

theorem hands_haul (hj : t.job = some j) :
    Hands ((followers Ir s₀).task node cloud orderly_stream i t) node m j anywhere
      (Haul s₀ i t j) where
  pre _ _ _ _ _ := trivial
  answer _ _ _ _ ha := ⟨ha.1, ha.2.1⟩
  rely _ w w' h hr := by
    obtain ⟨h', -, hs⟩ := h.1.rely hr
    exact ⟨h', by rw [hs.own j hj]; exact h.2⟩
  shows _ _ h := h.2.shows
  turn _ _ _ _ _ h ht hleads _ := turn_haul h.1 hj ht (ht.at h.2 hleads)

theorem wp_single (h : (followers Ir s₀).Afloat i t w) (hj : t.job = some job_id)
    (hat : (w.file job_id).At (s₀ job_id) .executing) {result : ExecutionResult}
    {completed_at : String} :
    ((followers Ir s₀).task node cloud orderly_stream i t).wp (do
        alone .begin
        deliver_single_batch_result node m job_id url result completed_at : Prog Ir Unit)
      (fun _ w' => ∃ q, q.settled = true ∧ Haul s₀ i t job_id q w') w := by
  refine (Contract.wp_bind _ _ _ _).2 ((Contract.wp_call _ _ _).2 ⟨trivial, fun w₁ hr r w₂ ha => ?_⟩)
  obtain ⟨h₁, -, hs⟩ := h.rely hr
  have hat₁ : (w₁.file job_id).At (s₀ job_id) .executing := by rwa [hs.own job_id hj]
  have hturn : Turn job_id none w₁ w₂ := .of_inner rfl ha.1
  obtain ⟨hk, h₂⟩ := turn_haul h₁ hj hturn (hturn.at hat₁ rfl)
  refine ⟨hk, ?_⟩
  cases r with
  | error e => exact ⟨_, rfl, h₂⟩
  | ok v => exact (hands_haul hj).wp_deliver_single h₂

/-! ## The delivery of a batch -/

/-- An operation of the delivery is no event of a job. -/
theorem fine_inner {c : Call Ir} (hc : c.prompt = false) {w : World Ir} {r : Except Exn c.Reply}
    {w' : World Ir} (h : (followers Ir s₀).fine w) (ha : answers node ⟨none, c⟩ w r w') :
    (followers Ir s₀).fine w' :=
  followers_indifferent w w' (Crew.Neutral.of_answered hc ha).alike h

/-- The delivery creates the tasks of `rest`; those whose jobs are live are in `js`. -/
structure Spawning (s₀ : String → Option String) (i : Nat) (t : TaskSpec Ir) (js : List String)
    (rest : List String) (w : World Ir) : Prop extends (followers Ir s₀).Afloat i t w where
  taken : ∀ k u a, w.Live k u → u.job = some a → a ∈ js
  left : (rest ++ js).Nodup
  executing : ∀ j ∈ rest, (w.file j).At (s₀ j) .executing

theorem wp_spawn {now_iso : String} {js : List String} (jobs : List (Parsed Ir × ExecutionResult))
    (h : Spawning s₀ i t js (jobs.map fun x => x.1.job_id) w) :
    ((followers Ir s₀).filing node cloud orderly_stream i t).wp (spawn_deliveries now_iso jobs)
      (fun _ w' => (followers Ir s₀).Afloat i t w') w := by
  -- by induction on the jobs: each task that is created has a job that no live one has
  induction jobs generalizing js w with
  | nil => exact h.toAfloat
  | cons job rest ih =>
      obtain ⟨job, result⟩ := job
      let u : TaskSpec Ir :=
        .deliver_single_batch_result job.msg job.job_id job.callback_url result now_iso
      have hnew : (w.create_task u).tasks = w.tasks ++ [u].map fun u => (u, none) := rfl
      have hnodup := List.nodup_cons.1 h.left
      have hnot : job.job_id ∉ js := fun hin => hnodup.1 (List.mem_append_right _ hin)
      have hfiles : w.SameFiles (w.create_task u) := .of_log rfl rfl
      have hlive : ∀ k v, w.Live k v → (w.create_task u).Live k v := fun k v hk =>
        World.Spawns.live ⟨_, hnew⟩ hk
      have hfree : ∀ k v a, w.Live k v → v.job = some a → u.job ≠ some a := by
        intro k v a hk hv hu
        obtain rfl : job.job_id = a := Option.some.inj hu
        exact hnot (h.taken k v _ hk hv)
      have hready : (followers Ir s₀).ready u (w.create_task u) := by
        refine ⟨List.nodup_singleton _, fun j hj => ?_⟩
        rw [List.mem_singleton.1 hj, hfiles job.job_id]
        exact h.executing _ List.mem_cons_self
      obtain ⟨hkeep, h'⟩ : ((followers Ir s₀).filing node cloud orderly_stream i t).keep w
          (w.create_task u) ∧ (followers Ir s₀).Afloat i t (w.create_task u) :=
        h.toAfloat.spawn rfl hfree (World.Follows.same h.good.fine hfiles hlive rfl) hready
      have hnext : Spawning s₀ i t (job.job_id :: js) (rest.map fun x => x.1.job_id)
          (w.create_task u) := by
        refine ⟨h', fun k v a hk hv => ?_, List.nodup_middle.2 h.left, fun j hj => ?_⟩
        · rcases Nat.lt_or_ge k w.tasks.length with hlt | hge
          · rw [World.Live, get_of_spawned hnew hlt] at hk
            exact List.mem_cons_of_mem _ (h.taken k v a hk hv)
          · have hvu : v = u := List.mem_singleton.1 (new_of_spawned hnew hge hk).1
            rw [hvu] at hv
            exact Option.some.inj hv ▸ List.mem_cons_self
        · rw [hfiles j]
          exact h.executing j (List.mem_cons_of_mem _ hj)
      refine (Contract.wp_bind _ _ _ _).2 ⟨hkeep, ?_⟩
      refine (Contract.wp_bind _ _ _ _).2 (Contract.wp_mono (ih hnext) fun r w' h' => ?_)
      cases r <;> exact h'

theorem wp_batch_files {parsed : List (Parsed Ir)} {results : List ExecutionResult}
    (h : (followers Ir s₀).Afloat i (.deliver_batch_results parsed results) w)
    (hlen : w.tasks.length = i + 1)
    (hready : (followers Ir s₀).ready (.deliver_batch_results parsed results) w) :
    ((followers Ir s₀).filing node cloud orderly_stream i (.deliver_batch_results parsed results)).wp
      (task_body node (.deliver_batch_results parsed results))
      (fun _ w' => (followers Ir s₀).Afloat i (.deliver_batch_results parsed results) w') w := by
  have hstill : ∀ {f : Attributes → Attributes}
      (_ : ∀ a, (f a).current_job_id = a.current_job_id) {w : World Ir},
      (followers Ir s₀).Afloat i (.deliver_batch_results parsed results) w →
      ((followers Ir s₀).filing node cloud orderly_stream i
        (.deliver_batch_results parsed results)).keep w (w.set_self f) ∧
        (followers Ir s₀).Afloat i (.deliver_batch_results parsed results) (w.set_self f) :=
    fun hf _ h => h.still (.of_log rfl rfl) rfl
      (World.Follows.same h.good.fine (.of_log rfl rfl) (fun _ _ h => h) (hf _))
  refine (Contract.wp_bind _ _ _ _).2
    (h.wp_alone rfl (fun _ _ _ => fine_inner rfl) fun w₁ r w₂ h₁ hb hs _ _ hn h₂ => ?_)
  cases r with
  | error e => exact h₂
  | ok v =>
      have hlen₂ : w₂.tasks.length = i + 1 := by rw [hn.tasks, hb.length rfl, hlen]
      have hfiles : w.SameFiles w₂ := (hs.all rfl hlen).trans hn.files
      refine (Contract.wp_bind _ _ _ _).2 ⟨(h₂.still (.refl w₂) rfl h₂.good.fine).1, ?_⟩
      refine (Contract.wp_try_finally _ _ _ _).2 (Contract.wp_mono (Q := fun _ w' =>
        (followers Ir s₀).Afloat i (.deliver_batch_results parsed results) w') ?_ fun r w₃ h₃ => ?_)
      · split
        · next hmatched =>
            have hzip : (parsed.zip results).map (fun x => x.1.job_id) =
                parsed.map Parsed.job_id := by
              show (parsed.zip results).map (Parsed.job_id ∘ Prod.fst) = _
              rw [← List.map_map, List.map_fst_zip hmatched.le]
            have hspawning : Spawning s₀ i (.deliver_batch_results parsed results) []
                ((parsed.zip results).map fun x => x.1.job_id) w₂ := by
              refine ⟨h₂, fun k u a hk hu => ?_, ?_, fun j hj => ?_⟩
              · exact absurd hu (h₂.alone rfl rfl hlen₂ hk)
              · rw [List.append_nil, hzip]
                exact hready.1
              · rw [hfiles j]
                exact hready.2 j (by rwa [hzip] at hj)
            refine (Contract.wp_bind _ _ _ _).2
              (Contract.wp_mono (wp_spawn _ hspawning) fun r w₄ h₄ => ?_)
            cases r with
            | error e => exact h₄
            | ok ts =>
                refine (Contract.wp_bind _ _ _ _).2
                  (h₄.wp_alone rfl (fun _ _ _ => fine_inner rfl) fun w₅ r w₆ _ _ _ _ _ _ h₆ => ?_)
                cases r with
                | error e => exact h₆
                | ok v =>
                    exact hstill (f := ({ · with last_job_at := some w₂.now })) (fun _ => rfl) h₆
        · exact h₂
      · obtain ⟨hk, h₄⟩ := hstill (f := ({ · with idle := true })) (fun _ => rfl) h₃
        refine ⟨hk, ?_⟩
        cases r <;> exact h₄

/-! ## The agreement holds -/

/-- **Every task keeps to the agreement.** -/
theorem body (h : (followers Ir s₀).Afloat i t w) (hlen : t.is_batch = true → w.tasks.length = i + 1)
    (hready : (followers Ir s₀).ready t w) :
    ((followers Ir s₀).task node cloud orderly_stream i t).wp (task_body node t)
      ((followers Ir s₀).Lands i t) w := by
  cases t with
  | deliver_batch_results parsed results =>
      refine Contract.wp_mono
        (Crew.wp_task_of_filing h (hlen rfl) (wp_batch_files h (hlen rfl) hready)) ?_
      exact fun r w' h => ⟨h.2.good, h.1, fun j hj => by cases hj⟩
  | deliver_single_batch_result m job_id url result completed_at =>
      have hat := hready.2 job_id (List.mem_singleton.2 rfl)
      refine Contract.wp_mono (wp_single h rfl hat) ?_
      rintro r w' ⟨q, hq, ⟨hgood, hlive⟩, hat'⟩
      refine ⟨hgood, ⟨⟨trivial, hgood.order⟩, hlive, (fun hb => by cases hb), (fun hb => by cases hb),
        (fun hb => by cases hb), trivial⟩, fun j hj => ⟨q, hq, ?_⟩⟩
      exact Option.some.inj hj ▸ hat'

end Tasks

/-- The loop and the tasks keep to the agreement. -/
theorem sound : (followers Ir s₀).Sound node cloud orderly_stream
    (consumer node cloud orderly_stream).again
    (fun r w => r = .ok () → (followers Ir s₀).Between w) where
  steady := followers_steady
  body _ _ _ hgood hlive hlen hready := body ⟨hgood, hlive⟩ hlen hready
  round w q h hq := by
    obtain rfl := eq_iteration_of_again hq
    exact Crew.round_of_ends (Crew.wp_iteration (J := fun _ => True) followers_indifferent served (h rfl))

/-- A new consumer: every job is where it was found. -/
theorem alone_of_fresh (hw : Fresh w) : (followers Ir w.state).Alone w := by
  have hself := hw.self
  have hfine : w.Follows w.state := by
    intro j
    have hfile : w.file j = ⟨w.state j, []⟩ := by
      rw [World.file, World.course, hw.log]
      rfl
    rw [hfile]
    exact ⟨_, .start _, .inl (Phase.found_settled _)⟩
  have hover : w.Over := by
    intro i t hi
    rw [World.Live, hw.tasks] at hi
    cases hi
  exact ⟨.of_no_tasks hw.tasks hfine, hover, by rw [hself], by rw [hself]⟩

/-- **Every job follows its life**, in every state that a run reaches. -/
theorem run (hw : Fresh w) {x : Pool (World Ir) (@Req.Reply Ir) Exn}
    (hx : Reaches node cloud orderly_stream w x) : x.state.Follows w.state := by
  have hstart : ((followers Ir w.state).main node cloud orderly_stream).wp (startup node)
      (fun r w' => r = .ok () → (followers Ir w.state).Between w') w :=
    Crew.round_of_ends
      (Crew.wp_startup (J := fun _ => True) followers_indifferent served (alone_of_fresh hw))
  exact (sound.run hw.tasks (alone_of_fresh hw).good.fine hstart hx).1.fine

end Followers

end CodaNode
