/-
`Webhook/Retry.lean` -- the two retry loops side by side.

`WebhookClient._post_with_retry` and `_post_connect` are run on the same outcomes, with a count
of the POSTs and with the exception that an exception was raised from. They follow one policy as
long as the delay is a float: from the 1025th failure on `2.0 ** (attempt - 1)` overflows, which
the webhook computes after every failure and the other only before a further attempt.
-/
import CodaNode.Config.Fetch
import CodaNode.Webhook.Delivery

set_option autoImplicit false

namespace CodaNode.Webhook

/-! ## The attempt that decides -/

/-- The attempt `k` decides, of those from `first` to `n`: all before it ask for another one,
and it does not, or it is the last. -/
structure Decides (again : Nat → Prop) (first n k : Nat) : Prop where
  first_le : first ≤ k
  le_last : k ≤ n
  before : ∀ j, first ≤ j → j < k → again j
  ends : k = n ∨ ¬ again k

section Deciding

variable {again : Nat → Prop} {first n k : Nat}

/-- One of the attempts decides. -/
theorem exists_decides (again : Nat → Prop) {first n : Nat} (h : first ≤ n) :
    ∃ k, Decides again first n k := by
  obtain ⟨d, rfl⟩ := Nat.exists_eq_add_of_le h
  -- by induction on the attempts that are left
  induction d generalizing first with
  | zero =>
      exact ⟨first, le_refl _, le_refl _, fun j hle hlt => absurd hlt (by omega), .inl rfl⟩
  | succ d ih =>
      by_cases hagain : again first
      · obtain ⟨k, hk⟩ := @ih (first + 1) (by omega)
        have hle := hk.first_le
        rw [show first + 1 + d = first + (d + 1) by omega] at hk
        refine ⟨k, by omega, hk.le_last, fun j hj hjk => ?_, hk.ends⟩
        by_cases hfirst : j = first
        · rwa [hfirst]
        · exact hk.before j (by omega) hjk
      · exact ⟨first, le_refl _, h, fun j hle hlt => absurd hlt (by omega), .inr hagain⟩

/-- No other one decides. -/
theorem Decides.unique {k' : Nat} (h : Decides again first n k) (h' : Decides again first n k') :
    k = k' := by
  have key {a b : Nat} (ha : Decides again first n a) (hb : Decides again first n b) : b ≤ a := by
    by_contra hlt
    rcases ha.ends with hlast | hnot
    · have hle := hb.le_last
      omega
    · exact hnot (hb.before a ha.first_le (by omega))
  exact le_antisymm (key h' h) (key h h')

/-- If the first attempt asks for another one, that one is next. -/
theorem Decides.next (h : Decides again first n k) (hlt : first < k) :
    Decides again (first + 1) n k :=
  ⟨by omega, h.le_last, fun j hle hjk => h.before j (by omega) hjk, h.ends⟩

end Deciding

/-! ## The outcomes -/

/-- What an attempt ends with: a response, with its status, its text, the JSON of its body and
what `raise_for_status` says of it, or `httpx.TransportError`. -/
inductive Outcome where
  | response (status : Nat) (text : Text) (json : Json) (status_error : String)
  | transport_error (message : String)

namespace Outcome

/-- The response is a 2xx. -/
def Accepted : Outcome → Prop
  | .response status _ _ _ => 200 ≤ status ∧ status < 300
  | .transport_error _ => False

/-- A 5xx or a transport error. -/
def Retried : Outcome → Prop
  | .response status _ _ _ => 500 ≤ status
  | .transport_error _ => True

instance (o : Outcome) : Decidable o.Accepted := by
  cases o <;> unfold Accepted <;> infer_instance

instance (o : Outcome) : Decidable o.Retried := by
  cases o <;> unfold Retried <;> infer_instance

theorem Retried.not_accepted {o : Outcome} (h : o.Retried) : ¬ o.Accepted := by
  cases o with
  | response status text json status_error =>
      intro haccepted
      have hlow : 500 ≤ status := h
      have hhigh : status < 300 := haccepted.2
      omega
  | transport_error message => exact id

end Outcome

/-- `httpx.HTTPStatusError` with its response, or `httpx.TransportError`; `attempt` tells the
errors of different attempts apart. -/
structure HttpError where
  attempt : Nat
  response : Option (Nat × Text)
  message : String
  deriving DecidableEq, Repr

/-- What the attempt raises if it is not accepted. -/
def Outcome.exc (o : Outcome) (attempt : Nat) : HttpError :=
  match o with
  | .response status text _ status_error => ⟨attempt, some (status, text), status_error⟩
  | .transport_error message => ⟨attempt, none, message⟩

/-- What a loop raises. -/
inductive Failure where
  /-- The error of an attempt. -/
  | http (exc : HttpError)
  /-- `raise NodeError(message) from cause`. -/
  | node (message : String) (cause : Option HttpError)
  | overflow (message : String)
  deriving DecidableEq, Repr

/-- A loop has ended, after so many POSTs. -/
structure Posted (α : Type) where
  posts : Nat
  ended : Except Failure α

/-- One POST more. -/
def Posted.after {α : Type} (p : Posted α) : Posted α := { p with posts := p.posts + 1 }

/-- `base * (factor ** (attempt - 1))` with the base 1.0 and the factor 2.0, in whole seconds. -/
def delay (attempt : Nat) : Except Failure Nat :=
  if attempt - 1 ≤ 1023 then .ok (2 ^ (attempt - 1))
  else .error (.overflow "(34, 'Numerical result out of range')")

/-- The end of a failed attempt: a delay, if `sleeps`, and then the next one. -/
def then_retry {α : Type} (sleeps : Bool) (attempt : Nat) (retry : Posted α) : Posted α :=
  if sleeps then
    match delay attempt with
    | .error e => ⟨1, .error e⟩
    | .ok _ => retry.after
  else retry.after

/-! ## The loops -/

/-- The `for` loop of `_post_with_retry` and what follows it, with the attempts left. -/
def webhook_loop (outcomes : Nat → Outcome) : Nat → Nat → Option HttpError → Posted Unit
  | 0, _, none => ⟨0, .ok ()⟩
  | 0, _, some last_exc => ⟨0, .error (.http last_exc)⟩
  | left + 1, attempt, _ =>
      if (outcomes attempt).Accepted then ⟨1, .ok ()⟩
      else
        let exc := (outcomes attempt).exc attempt
        if exc.response.any fun response => decide (response.1 < 500) then
          ⟨1, .error (.http exc)⟩
        else then_retry true attempt (webhook_loop outcomes left (attempt + 1) (some exc))

/-- `_post_with_retry`. -/
def webhook (outcomes : Nat → Outcome) (max_retries : Nat) : Posted Unit :=
  webhook_loop outcomes max_retries 1 none

/-- The `for` loop of `_post_connect` and what follows it, with the attempts left. -/
def connect_loop (outcomes : Nat → Outcome) (max_retries : Nat) :
    Nat → Nat → Option HttpError → Posted Json
  | 0, _, last_exc => ⟨0, .error (.node ("Node connect failed after " ++ toString max_retries ++
      " attempts: " ++ (last_exc.map HttpError.message).getD "None") last_exc)⟩
  | left + 1, attempt, _ =>
      let exc := (outcomes attempt).exc attempt
      let retry := then_retry (attempt < max_retries) attempt
        (connect_loop outcomes max_retries left (attempt + 1) (some exc))
      match outcomes attempt with
      | .response status text json _ =>
          if 200 ≤ status ∧ status < 300 then ⟨1, .ok json⟩
          else if status < 500 then
            ⟨1, .error (.node ("Node request failed (" ++ toString status ++ "): " ++
              String.ofList (text.take 400)) (some exc))⟩
          else retry
      | .transport_error _ => retry

/-- `_post_connect`. -/
def connect (outcomes : Nat → Outcome) (max_retries : Nat) : Posted Json :=
  connect_loop outcomes max_retries max_retries 1 none

/-! ## The same loops without the bookkeeping -/

/-- The outcome, as the delivery of a webhook has it. -/
def Outcome.delivery : Outcome → Attempt
  | .response status _ _ status_error => .response status status_error
  | .transport_error message => .transport_error message

/-- The outcome, as the connect endpoint has it. -/
def Outcome.fetch : Outcome → Config.Attempt
  | .response status text json status_error => .response status text (.ok json) status_error
  | .transport_error message => .transport_error message

/-- The exception, without the one it was raised from. -/
def Failure.exn : Failure → Exn
  | .http exc => .other exc.message
  | .node message _ => .other message
  | .overflow message => .other message

/-- The exception, without the one it was raised from. -/
def Failure.connect_error : Failure → Config.ConnectError
  | .http exc => .other exc.message
  | .node message _ => .of_message message
  | .overflow message => .other message

/-- The end of a failed delivery. -/
theorem wait_after_eq {net : Network} {attempt : Nat} (hnet : net.interrupted attempt = false)
    {x : Except Exn Unit} {r : Posted Unit} (h : x = r.ended.mapError Failure.exn) :
    (wait_after net attempt >>= fun _ => x) =
      (then_retry true attempt r).ended.mapError Failure.exn := by
  rw [wait_after, retry_delay, then_retry, if_pos rfl, delay, h]
  by_cases hfloat : attempt - 1 ≤ 1023
  · rw [if_pos hfloat, if_pos hfloat]
    simp only [bind, Except.bind, hnet, Bool.false_eq_true, if_false]
    rfl
  · rw [if_neg hfloat, if_neg hfloat]
    rfl

theorem webhook_loop_eq {outcomes : Nat → Outcome} {net : Network}
    (hnet : ∀ j, net.attempts j = (outcomes j).delivery) (hcalm : ∀ j, net.interrupted j = false)
    (left attempt : Nat) (last_exc : Option HttpError) :
    post_loop net left attempt (last_exc.map fun exc => .other exc.message) =
      (webhook_loop outcomes left attempt last_exc).ended.mapError Failure.exn := by
  induction left generalizing attempt last_exc with
  | zero => cases last_exc <;> rfl
  | succ left ih =>
      rw [post_loop, webhook_loop, hnet]
      cases outcomes attempt with
      | response status text json status_error =>
          simp only [Outcome.delivery, Outcome.Accepted, Outcome.exc, Option.any_some,
            decide_eq_true_eq]
          by_cases haccepted : 200 ≤ status ∧ status < 300
          · rw [if_pos haccepted, if_pos haccepted]
            rfl
          · rw [if_neg haccepted, if_neg haccepted]
            by_cases hlow : status < 500
            · rw [if_pos hlow, if_pos hlow]
              rfl
            · rw [if_neg hlow, if_neg hlow]
              exact wait_after_eq (hcalm attempt)
                (ih (attempt + 1) (some ⟨attempt, some (status, text), status_error⟩))
      | transport_error message =>
          exact wait_after_eq (hcalm attempt) (ih (attempt + 1) (some ⟨attempt, none, message⟩))

/-- The end of a failed attempt to connect. -/
theorem wait_before_next_eq {max_retries attempt : Nat} {x : Except Config.ConnectError Json}
    {r : Posted Json} (h : x = r.ended.mapError Failure.connect_error) :
    (Config.wait_before_next max_retries attempt >>= fun _ => x) =
      (then_retry (attempt < max_retries) attempt r).ended.mapError Failure.connect_error := by
  rw [Config.wait_before_next, Config.retry_delay, then_retry, delay, h]
  by_cases hnext : attempt < max_retries
  · have hint : (attempt : Int) < (max_retries : Int) := by omega
    rw [if_pos hint, decide_eq_true hnext, if_pos rfl]
    by_cases hfloat : attempt - 1 ≤ 1023
    · rw [if_pos hfloat, if_pos hfloat]
      rfl
    · rw [if_neg hfloat, if_neg hfloat]
      rfl
  · have hint : ¬ (attempt : Int) < (max_retries : Int) := by omega
    rw [if_neg hint, decide_eq_false hnext]
    rfl

theorem connect_loop_eq {outcomes : Nat → Outcome} {attempts : Nat → Config.Attempt}
    (hattempts : ∀ j, attempts j = (outcomes j).fetch) (max_retries left attempt : Nat)
    (last_exc : Option HttpError) :
    Config.post_connect_loop attempts max_retries left attempt
        ((last_exc.map HttpError.message).getD "None") =
      (connect_loop outcomes max_retries left attempt last_exc).ended.mapError
        Failure.connect_error := by
  induction left generalizing attempt last_exc with
  | zero => rfl
  | succ left ih =>
      rw [Config.post_connect_loop, connect_loop, hattempts]
      cases outcomes attempt with
      | response status text json status_error =>
          simp only [Outcome.fetch]
          by_cases haccepted : 200 ≤ status ∧ status < 300
          · rw [if_pos haccepted, if_pos haccepted]
            rfl
          · rw [if_neg haccepted, if_neg haccepted]
            by_cases hlow : status < 500
            · rw [if_pos hlow, if_pos hlow]
              rfl
            · rw [if_neg hlow, if_neg hlow]
              exact wait_before_next_eq
                (ih (attempt + 1) (some ⟨attempt, some (status, text), status_error⟩))
      | transport_error message =>
          exact wait_before_next_eq (ih (attempt + 1) (some ⟨attempt, none, message⟩))

/-- The delivery that is not cancelled ends as it does here. -/
theorem post_with_retry_eq (outcomes : Nat → Outcome) (max_retries : Nat) :
    post_with_retry ⟨fun j => (outcomes j).delivery, fun _ => false⟩ max_retries =
      (webhook outcomes max_retries).ended.mapError Failure.exn :=
  webhook_loop_eq (fun _ => rfl) (fun _ => rfl) max_retries 1 none

theorem post_connect_eq (outcomes : Nat → Outcome) (max_retries : Nat) :
    Config.post_connect (fun j => (outcomes j).fetch) max_retries =
      (connect outcomes max_retries).ended.mapError Failure.connect_error :=
  connect_loop_eq (fun _ => rfl) max_retries max_retries 1 none

/-! ## The policy -/

/-- One policy: as many POSTs as the attempt that decides is the first of, and its outcome. -/
def OnePolicy (outcomes : Nat → Outcome) (max_retries : Nat) : Prop :=
  ∃ k, Decides (fun j => (outcomes j).Retried) 1 max_retries k ∧
    (webhook outcomes max_retries).posts = k ∧ (connect outcomes max_retries).posts = k ∧
    ((outcomes k).Accepted → (webhook outcomes max_retries).ended = .ok () ∧
      ∃ body, (connect outcomes max_retries).ended = .ok body) ∧
    (¬ (outcomes k).Accepted →
      (webhook outcomes max_retries).ended = .error (.http ((outcomes k).exc k)) ∧
      ∃ message, (connect outcomes max_retries).ended =
        .error (.node message (some ((outcomes k).exc k))))

section Loops

variable {outcomes : Nat → Outcome} {max_retries left attempt n k : Nat}
  {last_exc : Option HttpError}

theorem delay_ok (h : attempt ≤ 1024) : delay attempt = .ok (2 ^ (attempt - 1)) := by
  rw [delay, if_pos (by omega)]

theorem delay_overflows (h : 1025 ≤ attempt) : ∃ message, delay attempt = .error (.overflow message) := by
  rw [delay, if_neg (by omega)]
  exact ⟨_, rfl⟩

theorem then_retry_ok {α : Type} {sleeps : Bool} {retry : Posted α}
    (h : sleeps = true → attempt ≤ 1024) : then_retry sleeps attempt retry = retry.after := by
  unfold then_retry
  cases sleeps with
  | false => rfl
  | true => rw [if_pos rfl, delay_ok (h rfl)]

theorem then_retry_overflows {α : Type} {retry : Posted α} (h : 1025 ≤ attempt) :
    ∃ message, then_retry true attempt retry = ⟨1, .error (.overflow message)⟩ := by
  obtain ⟨message, hdelay⟩ := delay_overflows h
  exact ⟨message, by rw [then_retry, if_pos rfl, hdelay]⟩

/-! ### One attempt of the webhook -/

theorem webhook_loop_accepted (h : (outcomes attempt).Accepted) :
    webhook_loop outcomes (left + 1) attempt last_exc = ⟨1, .ok ()⟩ := by
  rw [webhook_loop, if_pos h]

theorem webhook_loop_rejected (h : ¬ (outcomes attempt).Accepted)
    (hretried : ¬ (outcomes attempt).Retried) :
    webhook_loop outcomes (left + 1) attempt last_exc =
      ⟨1, .error (.http ((outcomes attempt).exc attempt))⟩ := by
  rw [webhook_loop, if_neg h]
  cases ho : outcomes attempt with
  | response status text json status_error =>
      rw [ho] at hretried
      have hlow : status < 500 := Nat.lt_of_not_le hretried
      simp [Outcome.exc, hlow]
  | transport_error message =>
      rw [ho] at hretried
      exact absurd trivial hretried

theorem webhook_loop_retried (h : (outcomes attempt).Retried) :
    webhook_loop outcomes (left + 1) attempt last_exc = then_retry true attempt
      (webhook_loop outcomes left (attempt + 1) (some ((outcomes attempt).exc attempt))) := by
  rw [webhook_loop, if_neg h.not_accepted]
  refine if_neg ?_
  cases ho : outcomes attempt with
  | response status text json status_error =>
      rw [ho] at h
      have hhigh : 500 ≤ status := h
      simp [Outcome.exc, hhigh]
  | transport_error message => simp [Outcome.exc]

/-! ### One attempt to connect -/

theorem connect_loop_accepted (h : (outcomes attempt).Accepted) : ∃ body,
    connect_loop outcomes max_retries (left + 1) attempt last_exc = ⟨1, .ok body⟩ := by
  rw [connect_loop]
  cases ho : outcomes attempt with
  | response status text json status_error =>
      rw [ho] at h
      exact ⟨json, if_pos h⟩
  | transport_error message =>
      rw [ho] at h
      exact h.elim

theorem connect_loop_rejected (h : ¬ (outcomes attempt).Accepted)
    (hretried : ¬ (outcomes attempt).Retried) : ∃ message,
    connect_loop outcomes max_retries (left + 1) attempt last_exc =
      ⟨1, .error (.node message (some ((outcomes attempt).exc attempt)))⟩ := by
  rw [connect_loop]
  cases ho : outcomes attempt with
  | response status text json status_error =>
      rw [ho] at h hretried
      have hlow : status < 500 := Nat.lt_of_not_le hretried
      exact ⟨_, (if_neg h).trans (if_pos hlow)⟩
  | transport_error message =>
      rw [ho] at hretried
      exact absurd trivial hretried

theorem connect_loop_retried (h : (outcomes attempt).Retried) :
    connect_loop outcomes max_retries (left + 1) attempt last_exc =
      then_retry (attempt < max_retries) attempt (connect_loop outcomes max_retries left
        (attempt + 1) (some ((outcomes attempt).exc attempt))) := by
  have hnot := h.not_accepted
  rw [connect_loop]
  cases ho : outcomes attempt with
  | response status text json status_error =>
      rw [ho] at h hnot
      have hhigh : ¬ status < 500 := Nat.not_lt.2 h
      exact (if_neg hnot).trans (if_neg hhigh)
  | transport_error message => rfl

/-! ### Any loop of this shape -/

/-- A retry loop, by its number of attempts left: each attempt ends it, with an outcome that is
`Good` or with the error of the attempt as `Bad` has it, or is followed by the next one, after a
delay where it `sleeps`. -/
structure Follows {α : Type} (outcomes : Nat → Outcome)
    (loop : Nat → Nat → Option HttpError → Posted α) (sleeps : Nat → Bool)
    (Good : Except Failure α → Prop) (Bad : HttpError → Except Failure α → Prop) : Prop where
  accepted : ∀ left attempt last_exc, (outcomes attempt).Accepted →
    ∃ r, loop (left + 1) attempt last_exc = ⟨1, r⟩ ∧ Good r
  rejected : ∀ left attempt last_exc, ¬ (outcomes attempt).Accepted →
    ¬ (outcomes attempt).Retried →
    ∃ r, loop (left + 1) attempt last_exc = ⟨1, r⟩ ∧ Bad ((outcomes attempt).exc attempt) r
  retried : ∀ left attempt last_exc, (outcomes attempt).Retried →
    loop (left + 1) attempt last_exc = then_retry (sleeps attempt) attempt
      (loop left (attempt + 1) (some ((outcomes attempt).exc attempt)))
  exhausted : ∀ attempt exc, ∃ r, loop 0 attempt (some exc) = ⟨0, r⟩ ∧ Bad exc r

variable {α : Type} {loop : Nat → Nat → Option HttpError → Posted α} {sleeps : Nat → Bool}
  {Good : Except Failure α → Prop} {Bad : HttpError → Except Failure α → Prop}

/-- The loop ends with the attempt that decides. The induction is on the attempts left. -/
theorem Follows.ends (hloop : Follows outcomes loop sleeps Good Bad)
    (last_exc : Option HttpError) (hk : Decides (fun j => (outcomes j).Retried) attempt n k) (hleft : attempt + left = n + 1)
    (hsmall : ∀ j, attempt ≤ j → j ≤ k → (outcomes j).Retried → j ≤ 1024) :
    (loop left attempt last_exc).posts = k + 1 - attempt ∧
      ((outcomes k).Accepted → Good (loop left attempt last_exc).ended) ∧
      (¬ (outcomes k).Accepted → Bad ((outcomes k).exc k) (loop left attempt last_exc).ended) := by
  induction left generalizing attempt last_exc with
  | zero =>
      have hfirst := hk.first_le
      have hlast := hk.le_last
      omega
  | succ left ih =>
      have hfirst := hk.first_le
      by_cases hretried : (outcomes attempt).Retried
      · rw [hloop.retried _ _ _ hretried,
          then_retry_ok fun _ => hsmall attempt (le_refl _) hfirst hretried]
        by_cases heq : k = attempt
        · -- no attempt is left
          subst heq
          have hlast : k = n := hk.ends.resolve_right (not_not_intro hretried)
          obtain rfl : left = 0 := by omega
          obtain ⟨r, hend, hbad⟩ := hloop.exhausted (k + 1) ((outcomes k).exc k)
          rw [hend, Posted.after]
          refine ⟨?_, fun h => absurd h hretried.not_accepted, fun _ => hbad⟩
          simp only
          omega
        · obtain ⟨hposts, hended⟩ := ih (some ((outcomes attempt).exc attempt))
            (hk.next (by omega)) (by omega) fun j hle hjk => hsmall j (by omega) hjk
          refine ⟨?_, hended⟩
          rw [Posted.after, hposts]
          simp only
          omega
      · obtain rfl : k = attempt := by
          by_contra hne
          exact hretried (hk.before attempt (le_refl _) (by omega))
        by_cases haccepted : (outcomes k).Accepted
        · obtain ⟨r, hend, hgood⟩ := hloop.accepted left _ last_exc haccepted
          rw [hend]
          exact ⟨by simp, fun _ => hgood, fun h => absurd haccepted h⟩
        · obtain ⟨r, hend, hbad⟩ := hloop.rejected left _ last_exc haccepted hretried
          rw [hend]
          exact ⟨by simp, fun h => absurd h haccepted, fun _ => hbad⟩

/-- After 1025 failures there is no delay left that a float could hold. -/
theorem Follows.overflows (hloop : Follows outcomes loop sleeps Good Bad)
    (last_exc : Option HttpError)
    (hretried : ∀ j, attempt ≤ j → j ≤ 1025 → (outcomes j).Retried)
    (hsleeps : sleeps 1025 = true) (hattempt : attempt ≤ 1025) (hleft : 1026 ≤ attempt + left) :
    ∃ message, (loop left attempt last_exc).ended = .error (.overflow message) := by
  induction left generalizing attempt last_exc with
  | zero => omega
  | succ left ih =>
      rw [hloop.retried _ _ _ (hretried attempt (le_refl _) hattempt)]
      by_cases hlast : attempt = 1025
      · subst hlast
        rw [hsleeps]
        obtain ⟨message, hend⟩ := @then_retry_overflows 1025 α (loop left (1025 + 1)
          (some ((outcomes 1025).exc 1025))) (le_refl _)
        exact ⟨message, by rw [hend]⟩
      · rw [then_retry_ok fun _ => by omega, Posted.after]
        exact ih _ (fun j hle hj => hretried j (by omega) hj) (by omega) (by omega)

theorem webhook_follows (outcomes : Nat → Outcome) :
    Follows outcomes (webhook_loop outcomes) (fun _ => true) (fun r => r = .ok ())
      fun exc r => r = .error (.http exc) where
  accepted _ _ _ h := ⟨_, webhook_loop_accepted h, rfl⟩
  rejected _ _ _ h hretried := ⟨_, webhook_loop_rejected h hretried, rfl⟩
  retried _ _ _ h := webhook_loop_retried h
  exhausted _ exc := ⟨_, rfl, rfl⟩

theorem connect_follows (outcomes : Nat → Outcome) (max_retries : Nat) :
    Follows outcomes (connect_loop outcomes max_retries) (fun attempt => attempt < max_retries)
      (fun r => ∃ body, r = .ok body)
      fun exc r => ∃ message, r = .error (.node message (some exc)) where
  accepted _ _ _ h := by
    obtain ⟨body, hend⟩ := connect_loop_accepted h
    exact ⟨_, hend, body, rfl⟩
  rejected _ _ _ h hretried := by
    obtain ⟨message, hend⟩ := connect_loop_rejected h hretried
    exact ⟨_, hend, message, rfl⟩
  retried _ _ _ h := connect_loop_retried h
  exhausted _ exc := ⟨_, rfl, _, rfl⟩

end Loops

/-- After 1025 failures the webhook computes a delay that is none. -/
theorem not_onePolicy {outcomes : Nat → Outcome} {max_retries : Nat} (hmany : 1025 ≤ max_retries)
    (hretried : ∀ j, 1 ≤ j → j ≤ 1025 → (outcomes j).Retried) :
    ¬ OnePolicy outcomes max_retries := by
  rintro ⟨k, -, -, -, hgood, hbad⟩
  obtain ⟨message, hover⟩ := (webhook_follows outcomes).overflows none hretried rfl (by omega)
    (show 1026 ≤ 1 + max_retries by omega)
  by_cases haccepted : (outcomes k).Accepted
  · have hend := (hgood haccepted).1
    rw [webhook, hover] at hend
    cases hend
  · have hend := (hbad haccepted).1
    rw [webhook, hover] at hend
    cases hend

/-- Where no delay overflows, the attempt that decides is the last of both loops. -/
theorem onePolicy_of_decides {outcomes : Nat → Outcome} {max_retries k : Nat}
    (hk : Decides (fun j => (outcomes j).Retried) 1 max_retries k)
    (hsmall : ∀ j, 1 ≤ j → j ≤ k → (outcomes j).Retried → j ≤ 1024) :
    OnePolicy outcomes max_retries := by
  have hleft : 1 + max_retries = max_retries + 1 := by omega
  obtain ⟨hposts, hgood, hbad⟩ := (webhook_follows outcomes).ends none hk hleft hsmall
  obtain ⟨hposts', hgood', hbad'⟩ :=
    (connect_follows outcomes max_retries).ends none hk hleft hsmall
  refine ⟨k, hk, ?_, ?_, fun h => ⟨hgood h, hgood' h⟩, fun h => ⟨hbad h, hbad' h⟩⟩
  · rw [webhook, hposts]
    omega
  · rw [connect, hposts']
    omega

/-- **The loops follow one policy** exactly if no delay overflows: there are at most 1024
attempts, or one of the first 1025 outcomes is neither a 5xx nor a transport error. -/
theorem one_policy_iff (outcomes : Nat → Outcome) (max_retries : Nat) (h : 1 ≤ max_retries) :
    OnePolicy outcomes max_retries ↔
      max_retries ≤ 1024 ∨ ∃ p, 1 ≤ p ∧ p ≤ 1025 ∧ ¬ (outcomes p).Retried := by
  constructor
  · intro hpolicy
    by_contra hnot
    obtain ⟨hmany, hall⟩ := not_or.1 hnot
    refine not_onePolicy (by omega) (fun j hone hle => ?_) hpolicy
    by_contra hj
    exact hall ⟨j, hone, hle, hj⟩
  · intro hcond
    obtain ⟨k, hk⟩ := exists_decides (fun j => (outcomes j).Retried) h
    have hlast := hk.le_last
    refine onePolicy_of_decides hk fun j hone hjk hretried => ?_
    rcases hcond with hfew | ⟨p, hpone, hple, hp⟩
    · omega
    · have hkp : k ≤ p := by
        by_contra hlt
        exact hp (hk.before p hpone (by omega))
      have hne : j ≠ p := by
        rintro rfl
        exact hp hretried
      omega

/-- Every attempt meets with a 503. -/
def unavailable : Nat → Outcome := fun _ =>
  .response 503 "Service Unavailable".toList .null "503 Service Unavailable"

/-- Three attempts, whatever they meet with. -/
theorem three_attempts_policy : OnePolicy unavailable 3 :=
  (one_policy_iff unavailable 3 (by decide)).2 (.inl (by decide))

/-- 1025 of them: the webhook raises the overflow of a delay that nobody would wait for. -/
theorem policies_differ : ¬ ∀ (outcomes : Nat → Outcome) (max_retries : Nat), 1 ≤ max_retries →
    OnePolicy outcomes max_retries := by
  intro hclaim
  refine not_onePolicy (le_refl 1025) (fun j _ _ => ?_) (hclaim unavailable 1025 (by decide))
  exact (show 500 ≤ 503 by decide)

end CodaNode.Webhook
