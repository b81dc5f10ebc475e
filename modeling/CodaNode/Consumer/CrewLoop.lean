/-
`Consumer/CrewLoop.lean` -- the loop of a crew, from one read to the next.

While a delivery is under way the loop only reads, sleeps and waits for it, which touches no
file. The theorems here follow the rounds of the loop; what is done with the messages and with
a batch is left to the crew.
-/
import CodaNode.Consumer.Crew

set_option autoImplicit false

open Coroutine

namespace CodaNode

variable {Ir : Type} {node : Node Ir} {w w' : World Ir} {i : Nat} {t : TaskSpec Ir} {m : Message}
variable {α : Type}
variable {cloud : (String → Option String) → (String → Option String) → Prop}
variable {allow : (q : Req Ir) → World Ir → Except Exn q.Reply → Prop}

namespace Crew

variable (C : Crew Ir)

/-- What everybody keeps depends on the files and on who has them in hand. -/
def Indifferent : Prop := ∀ w w' : World Ir, w.Alike w' → C.fine w → C.fine w'

/-- No task is left over, and `Q` holds. -/
structure Held (Q : World Ir → Prop) (w : World Ir) : Prop where
  good : C.Good w
  quiet : w.Over
  pending : w.self.pending_batch_delivery = none
  holds : Q w

/-- The loop between two messages. -/
abbrev Alone (w : World Ir) : Prop := C.Held (fun w => w.self.current_job_id = none) w

/-- A delivery has been created. -/
structure Out (t : Nat) (w : World Ir) : Prop where
  good : C.Good w
  latest : w.Latest t
  current : w.self.current_job_id = none

/-- Between two rounds of the loop. -/
structure Between (w : World Ir) : Prop where
  good : C.Good w
  current : w.self.current_job_id = none
  free : w.self.pending_batch_delivery = none → w.Over
  taken : ∀ t, w.self.pending_batch_delivery = some t → w.Latest t

variable {C}

/-- `Q` is about the files and the job in hand: the others leave it while no task is left over. -/
def Lasting (Q : World Ir → Prop) : Prop :=
  ∀ w w' : World Ir, w.SameFiles w' → w'.self.current_job_id = w.self.current_job_id → Q w → Q w'

theorem lasting_none : Lasting fun w : World Ir => w.self.current_job_id = none :=
  fun _ _ _ hcurrent h => hcurrent.trans h

theorem owes_held {Q : World Ir → Prop} (hQ : Lasting Q) :
    Owes (C.main node cloud allow) node allow (C.Held Q) where
  pre _ _ _ _ := trivial
  answer _ _ _ _ h := h
  rely w w' h hr := by
    obtain ⟨hg, ha⟩ := hr h.good
    obtain ⟨-, hhashes, hlog⟩ := ha.away.quiet h.quiet
    exact ⟨⟨hg, ha.quiet' h.quiet, ha.pending.trans h.pending,
      hQ w w' (.of_log hhashes hlog) ha.away.current h.holds⟩, ha.log⟩
  keep w w' h h' hext :=
    ⟨h'.good, .inl hext.tasks, .inl h.quiet, provides_of_tasks hext.tasks, hext.log⟩

/-- A step that leaves the tasks and the pending delivery alone. -/
theorem Held.step {Q Q' : World Ir → Prop} (h : C.Held Q w) (hfine : C.fine w') (hQ : Q' w')
    (htasks : w'.tasks = w.tasks)
    (hpending : w'.self.pending_batch_delivery = w.self.pending_batch_delivery) :
    C.Held Q' w' :=
  ⟨h.good.of_tasks hfine htasks, h.quiet.of_tasks htasks, hpending.trans h.pending, hQ⟩

theorem Held.mono {Q Q' : World Ir → Prop} (h : C.Held Q w) (hQ : Q' w) : C.Held Q' w :=
  ⟨h.good, h.quiet, h.pending, hQ⟩

theorem Held.between (h : C.Alone w) : C.Between w :=
  ⟨h.good, h.holds, fun _ => h.quiet, fun t ht => by rw [h.pending] at ht; cases ht⟩

/-- A delivery is created while no task is left over. -/
theorem Held.launch (hC : C.Indifferent) {Q : World Ir → Prop} (h : C.Held Q w)
    (hcurrent : w.self.current_job_id = none) (ht : t.is_batch = true) (hready : C.ready t (w.create_task t)) :
    (C.main node cloud allow).keep w (w.create_task t) ∧
      C.Out w.tasks.length (w.create_task t) := by
  have hlaunch : (w.create_task t).InOrder ∧ (w.create_task t).Latest w.tasks.length :=
    World.InOrder.launch h.quiet ht rfl
  obtain ⟨horder, hlatest⟩ := hlaunch
  have hsame : w.SameFiles (w.create_task t) := .of_log rfl rfl
  have hgood : C.Good (w.create_task t) :=
    ⟨horder, .launch h.quiet ht, hC w _ ⟨hsame, rfl, fun j u hj => absurd hj (h.quiet j u), rfl⟩
      h.good.fine⟩
  refine ⟨⟨hgood, .inr ⟨h.quiet, t, ht, rfl⟩, .inl h.quiet, fun k u hk hlive => ?_,
    List.suffix_refl _⟩, hgood, hlatest, hcurrent⟩
  have hnew : (w.create_task t).tasks = w.tasks ++ [t].map fun t => (t, none) := rfl
  have hu : u ∈ [t] := (new_of_spawned hnew hk hlive).1
  rw [List.mem_singleton.1 hu]
  exact hready

/-! ## Steps that touch no file -/

/-- A step of the loop itself: the tasks and the files are left alone. -/
structure Neutral (w w' : World Ir) : Prop where
  tasks : w'.tasks = w.tasks
  values : w'.values = w.values
  files : w.SameFiles w'
  current : w'.self.current_job_id = w.self.current_job_id
  log : w.log <:+ w'.log

theorem Neutral.alike (h : Neutral w w') : w.Alike w' :=
  ⟨h.files, h.values, fun i t hi => by rwa [World.Live, h.tasks], h.current⟩

theorem Good.neutral (hC : C.Indifferent) (h : C.Good w) (hn : Neutral w w') : C.Good w' :=
  h.of_tasks (hC w w' hn.alike h.fine) hn.tasks

theorem Neutral.of_answered {c : Call Ir} {r : Except Exn c.Reply} (hc : c.prompt = false)
    (h : answers node ⟨none, c⟩ w r w') : Neutral w w' := by
  have ha := Answered.of_answers h
  have hhashes : w'.hashes = w.hashes := by
    have hperf : ∀ {v : c.Reply} {w₁ : World Ir}, performs node c w v w₁ →
        w₁.hashes = w.hashes := by
      intro v w₁ hp
      cases c with
      | xgroup_create => obtain ⟨-, rfl⟩ := hp; rfl
      | xreadgroup count => obtain ⟨n, -, rfl, -⟩ := hp; rfl
      | xpending_range count => obtain ⟨-, rfl⟩ := hp; rfl
      | xrange id => obtain ⟨-, rfl⟩ := hp; rfl
      | batch_run k jobs => obtain ⟨-, rfl⟩ := hp; rfl
      | begin => cases hp; rfl
      | gather tasks => obtain ⟨-, rfl⟩ := hp; rfl
      | join task => obtain ⟨-, rfl⟩ := hp; rfl
      | sleep secs => cases hp; rfl
      | _ => cases hc
    rcases h with ⟨v, w₁, hp, -, rfl⟩ | ⟨e, -, -, -, rfl⟩ | ⟨e, v, w₁, -, -, hp, -, rfl⟩
    · exact (hperf hp : w₁.hashes = w.hashes)
    · rfl
    · exact (hperf hp : w₁.hashes = w.hashes)
  obtain ⟨took, hl⟩ := ha.log
  refine ⟨ha.tasks, ha.values, .of_line hhashes hl fun j => ?_, by rw [ha.self], ha.grows⟩
  show c.closes j took _ = none
  cases c <;> first | rfl | cases hc

theorem Neutral.of_bookkeeping {f : World Ir → World Ir} (hf : Bookkeeping f) (w : World Ir)
    (hcurrent : (f w).self.current_job_id = w.self.current_job_id) : Neutral w (f w) := by
  obtain ⟨hfiles, hlog⟩ : w.SameFiles (f w) ∧ w.log <:+ (f w).log := by
    rcases hf.log w with hl | ⟨x, hl⟩
    · exact ⟨.of_log (hf.hashes w) hl, [], hl.symm⟩
    · exact ⟨.of_line (hf.hashes w) hl fun _ => rfl, [_], hl.symm⟩
  exact ⟨hf.tasks w, hf.values w, hfiles, hcurrent, hlog⟩

theorem Neutral.of_errand {f : World Ir → World Ir} (hf : Errand f) (w : World Ir) :
    Neutral w (f w) :=
  .of_bookkeeping hf.chore.bookkeeping w (by cases hf <;> rfl)

variable (hC : C.Indifferent)
include hC

theorem Between.neutral (h : C.Between w) (hn : Neutral w w')
    (hpending : w'.self.pending_batch_delivery = w.self.pending_batch_delivery) :
    (C.main node cloud allow).keep w w' ∧ C.Between w' := by
  have hgood : C.Good w' := h.good.neutral hC hn
  refine ⟨⟨hgood, .inl hn.tasks, .inr hn.files, provides_of_tasks hn.tasks, hn.log⟩, hgood,
    hn.current.trans h.current, fun hp => ?_, fun t ht => ?_⟩
  · exact (h.free (hpending ▸ hp)).of_tasks hn.tasks
  · rw [World.Latest, hn.tasks]
    exact h.taken t (hpending ▸ ht)

omit hC in
theorem Between.aside (h : C.Between w) (hgood : C.Good w') (ha : (orderly Ir).Aside w w') :
    C.Between w' := by
  refine ⟨hgood, ha.away.current.trans h.current, fun hp => ?_,
    fun t ht => ha.latest t (h.taken t (ha.pending ▸ ht))⟩
  exact ha.quiet' (h.free (ha.pending ▸ hp))

theorem between_errand {f : World Ir → World Ir} (hf : Errand f) :
    (C.main node cloud allow).Keeps C.Between (Co.update f : Prog Ir Unit) := fun w h =>
  h.neutral hC (.of_errand hf w) (hf.passes w).2

theorem between_look {g : World Ir → α} :
    (C.main node cloud allow).Keeps C.Between (Co.look g : Prog Ir α) := fun _ h =>
  ⟨(h.neutral hC ⟨rfl, rfl, .refl _, rfl, List.suffix_refl _⟩ rfl).1, h⟩

/-- An operation of the loop itself. -/
theorem between_call {c : Call Ir} (hc : c.prompt = false) (h : C.Between w)
    {Q : Except Exn c.Reply → World Ir → Prop}
    (hQ : ∀ w₁ r w', C.Between w₁ → answers node ⟨none, c⟩ w₁ r w' → allow ⟨none, c⟩ w₁ r →
      C.Between w' → w₁.self.pending_batch_delivery = w.self.pending_batch_delivery → Q r w') :
    (C.main node cloud allow).wp (alone c) Q w := by
  refine (Contract.wp_call _ _ _).2 ⟨trivial, fun w₁ hr r w₂ ha => ?_⟩
  obtain ⟨hg, haside⟩ := hr h.good
  have h₁ := h.aside hg haside
  have hself := (Answered.of_answers ha.1).self
  have h₂ : (C.main node cloud allow).keep w₁ w₂ ∧ C.Between w₂ :=
    h₁.neutral hC (.of_answered hc ha.1) (by rw [hself])
  exact ⟨h₂.1, hQ w₁ r w₂ h₁ ha.1 ha.2 h₂.2 haside.pending⟩

/-- A batch that has been delivered leaves nothing over. -/
theorem Between.join {k : Nat} (h : C.Between w) (hk : w.self.pending_batch_delivery = some k) :
    (C.main node cloud allow).wp (do
        alone (.join k)
        Co.update (·.set_self ({ · with pending_batch_delivery := none })) : Prog Ir Unit)
      (fun r w' => match r with
        | .ok _ => C.Alone w'
        | .error _ => C.Between w') w := by
  refine (Contract.wp_bind _ _ _ _).2 (between_call hC rfl h fun w₁ r w₂ h₁ hans _ h₂ hp => ?_)
  cases r with
  | error e => exact h₂
  | ok v =>
      obtain ⟨w₃, ⟨hdone, rfl⟩, rfl⟩ := answers_ok.1 hans
      have hover : (w₃.record (.ended ⟨none, .join k⟩ true (.ok v))).Over :=
        h₂.good.order.quiet (h₂.taken k (hp.trans hk)) hdone
      have hn : Neutral (w₃.record (.ended ⟨none, .join k⟩ true (.ok v)))
          ((w₃.record (.ended ⟨none, .join k⟩ true (.ok v))).set_self
            ({ · with pending_batch_delivery := none })) :=
        ⟨rfl, rfl, .of_log rfl rfl, rfl, List.suffix_refl _⟩
      have hgood := h₂.good.neutral hC hn
      exact ⟨⟨hgood, .inl rfl, .inr hn.files, provides_of_tasks rfl, hn.log⟩, hgood, hover, rfl,
        h₂.current⟩

/-! ## The rounds of the loop -/

/-- How `_process_batch` ends. -/
def Handed (C : Crew Ir) (J : World Ir → Prop) : Except Exn (Option Nat) → World Ir → Prop
  | .ok none, w => C.Alone w
  | .ok (some t), w => C.Out t w
  | .error e, w => C.Alone w ∨ Abandoned J e w

/-- How a part of a round ends. -/
def Ends (C : Crew Ir) (J : World Ir → Prop) (r : Except Exn Unit) (w : World Ir) : Prop :=
  C.Between w ∨ ∃ e, r = .error e ∧ Abandoned J e w

variable (C node cloud allow) in
/-- What the loop needs: each message and each batch is served. -/
structure Served (J : World Ir → Prop) (fits : List Message → Prop) : Prop
    extends Serves (C.main node cloud allow) node allow C.Alone J where
  batch : ∀ ms w, fits ms → C.Alone w →
    (C.main node cloud allow).wp (process_batch node ms) (C.Handed J) w
  reply : ∀ count w w' messages, answers node ⟨none, .xreadgroup count⟩ w (.ok messages) w' →
    allow ⟨none, .xreadgroup count⟩ w (.ok messages) → ∀ s ∈ messages, fits s.2

/-- A step that touches no file. -/
theorem Held.neutral {Q : World Ir → Prop} (hQ : Lasting Q) (h : C.Held Q w) (hn : Neutral w w')
    (hpending : w'.self.pending_batch_delivery = w.self.pending_batch_delivery) : C.Held Q w' :=
  h.step (hC w w' hn.alike h.good.fine) (hQ w w' hn.files hn.current h.holds) hn.tasks hpending

/-- The calls around the messages touch no file. -/
theorem serves_of_message {J : World Ir → Prop} (hmessage : ∀ m,
      (C.main node cloud allow).KeepsUnless C.Alone (Abandoned J) (process_message node m)) :
    Serves (C.main node cloud allow) node allow C.Alone J where
  owes := owes_held lasting_none
  call _ _ hc _ _ _ h hans _ :=
    h.neutral hC lasting_none (.of_answered hc hans) (by rw [(Answered.of_answers hans).self])
  recovery w h := h.neutral hC lasting_none (.of_bookkeeping (Bookkeeping.starts _) w rfl) rfl
  message := hmessage

/-- A batch call touches no file. -/
theorem keeps_run_batch {Q : World Ir → Prop} (hQ : Lasting Q) (jobs : List (Parsed Ir)) :
    (C.main node cloud allow).Keeps (C.Held Q) (run_batch jobs) :=
  (owes_held hQ).run_batch
    (fun _ w h => h.neutral hC hQ (.of_bookkeeping (Bookkeeping.starts _) w rfl) rfl)
    (fun w f h => h.neutral hC hQ (.of_bookkeeping (Bookkeeping.set_exec f) w rfl) rfl)
    fun _ _ _ _ _ h hans _ =>
      h.neutral hC hQ (.of_answered rfl hans) (by rw [(Answered.of_answers hans).self])

/-- The jobs of a batch are handed to the executor, and then to a delivery. -/
theorem wp_hand_over {J : World Ir → Prop} {Q : World Ir → Prop} {parsed : List (Parsed Ir)}
    (hserves : Serves (C.main node cloud allow) node allow C.Alone J) (hQ : Lasting Q)
    (hnone : ∀ w, Q w → w.self.current_job_id = none)
    (hready : ∀ results w, C.Held Q w →
      C.ready (.deliver_batch_results parsed results) (w.create_task (.deliver_batch_results parsed results)))
    (ms : List Message) (h : C.Held Q w) :
    (C.main node cloud allow).wp (match node.batch_run with
      | none => fall_back node ms
      | some _ => do
        let results ← Co.attempt (run_batch parsed)
        match results with
        | .error .cancelled => .raise .cancelled
        | .error _ => fall_back node ms
        | .ok results => do
          let t ← create_task (.deliver_batch_results parsed results)
          pure (some t)) (C.Handed J) w := by
  have hfall : ∀ {w : World Ir}, C.Held Q w →
      (C.main node cloud allow).wp (fall_back node ms) (C.Handed J) w := by
    intro w h
    have hmark : (C.main node cloud allow).Keeps C.Alone (mark (.falling_back ms) : Prog Ir Unit) :=
      (owes_held lasting_none).update fun w h => ⟨h.neutral hC lasting_none
        (.of_bookkeeping (Chore.falling_back ms).bookkeeping w rfl) rfl,
        (Chore.falling_back ms).bookkeeping.extends w⟩
    refine hmark.wp_bind (h.mono (hnone w h.holds)) (fun e w₁ h₁ => .inl h₁) fun _ w₁ h₁ => ?_
    refine (Contract.wp_bind _ _ _ _).2
      (Contract.wp_mono (hserves.process_each ms w₁ h₁) fun r w₂ h₂ => ?_)
    cases r with
    | error e => exact h₂.imp_right fun ⟨e', he, hJ⟩ => by cases he; exact hJ
    | ok u =>
        rcases h₂ with h₂ | ⟨e, he, -⟩
        · exact h₂
        · cases he
  cases node.batch_run with
  | none => exact hfall h
  | some f =>
      refine (Contract.wp_bind _ _ _ _).2 ((Contract.wp_attempt _ _ _).2
        (Contract.wp_mono (keeps_run_batch hC hQ parsed w h) fun r w₁ h₁ => ?_))
      cases r with
      | error e =>
          cases e <;> first
            | exact hfall h₁
            | exact .inl (h₁.mono (hnone w₁ h₁.holds))
      | ok results =>
          exact h₁.launch hC (hnone w₁ h₁.holds) rfl (hready results w₁ h₁)

variable {J : World Ir → Prop} {fits : List Message → Prop}
variable (hS : C.Served node cloud allow J fits)
include hS

omit hC hS in
theorem ends_of_serves {p : Prog Ir Unit}
    (hp : (C.main node cloud allow).KeepsUnless C.Alone (Abandoned J) p) (h : C.Alone w) :
    (C.main node cloud allow).wp p (C.Ends J) w :=
  Contract.wp_mono (hp w h) fun _ _ h' => h'.imp_left Held.between

theorem alone_errand {f : World Ir → World Ir} (hf : Errand f) :
    (C.main node cloud allow).Keeps C.Alone (Co.update f : Prog Ir Unit) :=
  hS.owes.update fun w h => by
    have hn : Neutral w (f w) := .of_errand hf w
    exact ⟨h.step (hC w _ hn.alike h.good.fine) (hn.current.trans h.holds) hn.tasks
        (hf.passes w).2,
      hf.chore.bookkeeping.extends w⟩

theorem wp_dispatch {streams : List (String × List Message)} (hone : streams.length ≤ 1)
    (hfits : ∀ s ∈ streams, fits s.2) (h : C.Alone w) :
    (C.main node cloud allow).wp (dispatch node streams) (C.Ends J) w := by
  cases streams with
  | nil => exact .inl h.between
  | cons stream rest =>
      have hrest : rest = [] := by
        rw [List.length_cons] at hone
        exact List.length_eq_zero_iff.1 (by omega)
      subst hrest
      obtain ⟨name, ms⟩ := stream
      unfold dispatch
      split
      · refine (Contract.wp_bind _ _ _ _).2
          (Contract.wp_mono (hS.batch ms w (hfits _ List.mem_cons_self) h) fun r w' h' => ?_)
        cases r with
        | error e => exact h'.imp Held.between fun h' => ⟨e, rfl, h'⟩
        | ok delivery =>
            cases delivery with
            | none => exact .inl h'.between
            | some k =>
                have hn : Neutral w' (w'.set_self ({ · with pending_batch_delivery := some k })) :=
                  ⟨rfl, rfl, .of_log rfl rfl, rfl, List.suffix_refl _⟩
                have hgood := h'.good.neutral hC hn
                refine ⟨⟨hgood, .inl rfl, .inr hn.files, provides_of_tasks rfl, hn.log⟩,
                  .inl ⟨hgood, h'.current, ?_, ?_⟩⟩
                · exact fun hp => by cases hp
                · rintro k' ⟨⟩
                  exact h'.latest
      · exact ends_of_serves ((hS.process_each ms).bind fun _ => .ret _) h

theorem wp_startup (h : C.Alone w) :
    (C.main node cloud allow).wp (startup node) (C.Ends J) w := by
  refine ends_of_serves ((alone_errand hC hS .running).unless.bind fun _ => ?_) h
  refine Contract.KeepsUnless.bind (Contract.Keeps.unless
    (Contract.Keeps.try_except (hS.alone rfl rfl rfl) fun e => ?_)) fun _ => ?_
  · cases e with
    | response msg =>
        dsimp only
        split
        · exact .ret _
        · exact .raise _
    | _ => exact .raise _
  · exact hS.recover_pending.bind fun _ => hS.owes.look.unless.bind fun _ =>
      (alone_errand hC hS (.frame _)).unless

omit hS in
/-- The pending delivery is awaited: then no task is left over. -/
theorem wp_await_delivery (h : C.Between w) :
    (C.main node cloud allow).wp (await_delivery : Prog Ir Unit)
      (fun r w' => (r = .ok () ∧ C.Alone w') ∨ ((∃ e, r = .error e) ∧ C.Between w')) w := by
  refine (Contract.wp_bind _ _ _ _).2
    ((Contract.wp_look _ _ _).2 ⟨(h.neutral hC ⟨rfl, rfl, .refl w, rfl, List.suffix_refl _⟩ rfl).1, ?_⟩)
  rw [Contract.and_then_ok]
  cases hp : w.self.pending_batch_delivery with
  | none => exact .inl ⟨rfl, h.good, h.free hp, hp, h.current⟩
  | some k =>
      refine Contract.wp_mono (h.join hC hp) fun r w' h' => ?_
      cases r with
      | ok u => exact .inl ⟨rfl, h'⟩
      | error e => exact .inr ⟨⟨e, rfl⟩, h'⟩

theorem wp_read_and_dispatch (h : C.Between w) :
    (C.main node cloud allow).wp (read_and_dispatch node) (C.Ends J) w := by
  refine (Contract.wp_bind _ _ _ _).2
    (between_call hC rfl h fun w₁ r w₂ _ hans hallow h₂ _ => ?_)
  cases r with
  | error e => exact .inl h₂
  | ok messages =>
      have hone : messages.length ≤ 1 := by
        obtain ⟨w₃, ⟨n, -, -, hv⟩, -⟩ := answers_ok.1 hans
        rw [hv]
        split <;> simp
      have hfits : ∀ s ∈ messages, fits s.2 := hS.reply _ _ _ _ hans hallow
      refine (between_errand hC (.healthy true)).wp_bind h₂ (fun _ _ h' => .inl h')
        fun _ w₃ h₃ => ?_
      refine (between_errand hC (.frame _)).wp_bind h₃ (fun _ _ h' => .inl h') fun _ w₄ h₄ => ?_
      refine (Contract.wp_bind _ _ _ _).2
        (Contract.wp_mono (wp_await_delivery hC h₄) fun r w₅ h₅ => ?_)
      rcases h₅ with ⟨rfl, h₅⟩ | ⟨⟨e, rfl⟩, h₅⟩
      · rw [Contract.and_then_ok]
        split
        · refine ends_of_serves ?_ h₅
          refine hS.owes.look.unless.bind fun now => hS.owes.look.unless.bind fun last => ?_
          split
          · exact hS.recover_pending.bind fun _ => (alone_errand hC hS (.frame _)).unless
          · exact .ret _
        · exact wp_dispatch hC hS hone hfits h₅
      · exact .inl h₅

/-- **A round of the loop.** -/
theorem wp_iteration (h : C.Between w) :
    (C.main node cloud allow).wp (iteration node) (C.Ends J) w := by
  have hsleep : ∀ secs, (C.main node cloud allow).Keeps C.Between (alone (.sleep secs)) :=
    fun secs w' h' => between_call hC rfl h' fun _ _ _ _ _ _ h'' _ => h''
  have hback : ∀ e, (C.main node cloud allow).Keeps C.Between (back_off e : Prog Ir Unit) := by
    intro e
    unfold back_off
    split
    · refine (between_errand hC (.healthy false)).bind fun _ =>
        (between_errand hC (.frame _)).bind fun _ => (between_look hC).bind fun failures =>
        (Contract.Keeps.of_except _).bind fun delay => ?_
      exact (between_errand hC (.lost _ _)).bind fun _ => hsleep _
    · split
      · exact .raise _
      · exact hsleep _
  refine (Contract.wp_try_except _ _ _ _).2
    (Contract.wp_mono (wp_read_and_dispatch hC hS h) fun r w' h' => ?_)
  cases r with
  | ok u =>
      refine h'.imp_right ?_
      rintro ⟨e, he, -⟩
      cases he
  | error e =>
      rcases h' with h' | ⟨e', he, rfl, hJ⟩
      · exact Contract.wp_mono (hback e w' h') fun _ _ h'' => .inl h''
      · -- the loop hands a cancellation on
        cases he
        exact .inr ⟨_, rfl, rfl, hJ⟩

omit hC hS in
/-- How the rounds of the loop end. -/
theorem round_of_ends {w : World Ir} {p : Prog Ir Unit}
    (h : (C.main node cloud allow).wp p (C.Ends J) w) :
    (C.main node cloud allow).wp p (fun r w' => r = .ok () → C.Between w') w := by
  refine Contract.wp_mono h fun r w' h' hr => ?_
  rcases h' with h' | ⟨e, he, -⟩
  · exact h'
  · rw [hr] at he
    cases he

end Crew

end CodaNode
