/-
`Webhook/Delivery.lean` -- the delivery of a webhook.

`WebhookClient._post_with_retry`. It POSTs until a response is accepted: a 5xx or a
transport error is followed by a delay and the next attempt, anything else is raised at
once, and so is the last failure when no attempt is left.
-/
import CodaNode.Consumer.Types
import CodaNode.Text.Json

set_option autoImplicit false

namespace CodaNode.Webhook

/-- What one attempt ends with. -/
inductive Attempt where
  /-- A response: its status, and what `raise_for_status` says of it. -/
  | response (status : Nat) (status_error : String)
  /-- `httpx.TransportError`. -/
  | transport_error (message : String)
  /-- Any other exception: of `sign_token`, of `httpx`, or a cancellation. -/
  | raises (e : Exn)

/-- What one delivery meets with. -/
structure Network where
  /-- The ends of its attempts, counted from one. -/
  attempts : Nat → Attempt
  /-- The delay after this attempt is cancelled. -/
  interrupted : Nat → Bool

/-- `_BACKOFF_BASE * (_BACKOFF_FACTOR ** (attempt - 1))` in whole seconds. -/
def retry_delay (attempt : Nat) : Except Exn Nat :=
  if attempt - 1 ≤ 1023 then .ok (2 ^ (attempt - 1))
  else .error (.other "(34, 'Numerical result out of range')")

/-- The end of a failed attempt: the delay. -/
def wait_after (net : Network) (attempt : Nat) : Except Exn Unit := do
  let _ ← retry_delay attempt
  if net.interrupted attempt then .error .cancelled else .ok ()

/-- The `for` loop of `_post_with_retry` and what follows it, with the attempts left. -/
def post_loop (net : Network) : Nat → Nat → Option Exn → Except Exn Unit
  | 0, _, none => .ok ()
  | 0, _, some last_exc => .error last_exc
  | left + 1, attempt, _ =>
      match net.attempts attempt with
      | .response status status_error =>
          if 200 ≤ status ∧ status < 300 then .ok ()
          else if status < 500 then .error (.other status_error)
          else do
            wait_after net attempt
            post_loop net left (attempt + 1) (some (.other status_error))
      | .transport_error message => do
          wait_after net attempt
          post_loop net left (attempt + 1) (some (.other message))
      | .raises e => .error e

/-- `_post_with_retry`. -/
def post_with_retry (net : Network) (max_retries : Int) : Except Exn Unit :=
  post_loop net max_retries.toNat 1 none

/-! ## When it succeeds -/

/-- The attempt is accepted. -/
def Attempt.Accepted : Attempt → Prop
  | .response status _ => 200 ≤ status ∧ status < 300
  | _ => False

/-- The attempt is followed by another one. -/
def Attempt.Retried : Attempt → Prop
  | .response status _ => 500 ≤ status
  | .transport_error _ => True
  | .raises _ => False

/-- The attempts before the `k`-th, from `attempt` on, are retried. -/
def Network.Persists (net : Network) (attempt k : Nat) : Prop :=
  ∀ j, attempt ≤ j → j < k →
    (net.attempts j).Retried ∧ j ≤ 1024 ∧ net.interrupted j = false

/-- Some attempt of the first `max_retries` is accepted, after others that were retried. A
client without attempts succeeds. -/
def Network.Delivers (net : Network) (max_retries : Int) : Prop :=
  max_retries ≤ 0 ∨ ∃ k : Nat, 1 ≤ k ∧ (k : Int) ≤ max_retries ∧
    (net.attempts k).Accepted ∧ net.Persists 1 k

theorem wait_after_ok {net : Network} {attempt : Nat} :
    wait_after net attempt = .ok () ↔ attempt ≤ 1024 ∧ net.interrupted attempt = false := by
  unfold wait_after retry_delay
  by_cases hattempt : attempt - 1 ≤ 1023
  · rw [if_pos hattempt]
    show (if net.interrupted attempt = true then Except.error Exn.cancelled else .ok ()) = _ ↔ _
    cases net.interrupted attempt with
    | true => simp
    | false =>
        rw [if_neg Bool.false_ne_true]
        exact ⟨fun _ => ⟨by omega, rfl⟩, fun _ => rfl⟩
  · rw [if_neg hattempt]
    refine iff_of_false (fun h => nomatch h) fun h => ?_
    omega

theorem Attempt.Retried.not_accepted {a : Attempt} (h : a.Retried) : ¬ a.Accepted := by
  intro haccepted
  cases a with
  | response status status_error =>
      have hlow : 500 ≤ status := h
      have hhigh : 200 ≤ status ∧ status < 300 := haccepted
      omega
  | transport_error message => exact haccepted
  | raises e => exact haccepted

/-- An attempt that is not retried ends the loop. -/
theorem post_loop_last {net : Network} {left attempt : Nat} {last_exc : Option Exn}
    (h : ¬ (net.attempts attempt).Retried) :
    post_loop net (left + 1) attempt last_exc = .ok () ↔ (net.attempts attempt).Accepted := by
  rw [post_loop]
  cases hattempt : net.attempts attempt with
  | response status status_error =>
      rw [hattempt] at h
      have hstatus : ¬ 500 ≤ status := h
      simp only
      by_cases haccepted : 200 ≤ status ∧ status < 300
      · rw [if_pos haccepted]
        exact iff_of_true rfl haccepted
      · rw [if_neg haccepted, if_pos (by omega)]
        exact iff_of_false (fun h => nomatch h) haccepted
  | transport_error message =>
      rw [hattempt] at h
      exact absurd trivial h
  | raises e => exact iff_of_false (fun h => nomatch h) id

/-- An attempt that is retried hands on to the next one. -/
theorem post_loop_retried {net : Network} {left attempt : Nat} {last_exc : Option Exn}
    (h : (net.attempts attempt).Retried) : ∃ exc,
    post_loop net (left + 1) attempt last_exc = (do
      wait_after net attempt
      post_loop net left (attempt + 1) (some exc)) := by
  rw [post_loop]
  cases hattempt : net.attempts attempt with
  | response status status_error =>
      rw [hattempt] at h
      have hstatus : 500 ≤ status := h
      refine ⟨.other status_error, ?_⟩
      simp only
      rw [if_neg (by omega), if_neg (by omega)]
  | transport_error message => exact ⟨.other message, rfl⟩
  | raises e =>
      rw [hattempt] at h
      exact h.elim

/-- The loop, by induction on the attempts left. -/
theorem post_loop_ok_iff {net : Network} {left attempt : Nat} {last_exc : Option Exn} :
    post_loop net left attempt last_exc = .ok () ↔ left = 0 ∧ last_exc = none ∨
      ∃ k, attempt ≤ k ∧ k < attempt + left ∧ (net.attempts k).Accepted ∧
        net.Persists attempt k := by
  induction left generalizing attempt last_exc with
  | zero =>
      cases last_exc with
      | none => exact iff_of_true rfl (.inl ⟨rfl, rfl⟩)
      | some e =>
          refine iff_of_false (fun h => nomatch h) ?_
          rintro (⟨-, h⟩ | ⟨k, hle, hlt, -⟩)
          · cases h
          · omega
  | succ left ih =>
      by_cases hretried : (net.attempts attempt).Retried
      · obtain ⟨exc, heq⟩ : ∃ exc, post_loop net (left + 1) attempt last_exc = (do
            wait_after net attempt
            post_loop net left (attempt + 1) (some exc)) := post_loop_retried hretried
        rw [heq, bind_ok]
        constructor
        · rintro ⟨⟨⟩, hwait, hrest⟩
          rcases ih.1 hrest with ⟨-, hnone⟩ | ⟨k, hle, hlt, haccepted, hpersists⟩
          · cases hnone
          · refine .inr ⟨k, by omega, by omega, haccepted, fun j hj hjk => ?_⟩
            by_cases hfirst : j = attempt
            · subst hfirst
              exact ⟨hretried, wait_after_ok.1 hwait⟩
            · exact hpersists j (by omega) hjk
        · rintro (⟨hzero, -⟩ | ⟨k, hle, hlt, haccepted, hpersists⟩)
          · omega
          · have hne : k ≠ attempt := by
              rintro rfl
              exact hretried.not_accepted haccepted
            refine ⟨(), wait_after_ok.2 (hpersists attempt (by omega) (by omega)).2, ih.2 (.inr ?_)⟩
            exact ⟨k, by omega, by omega, haccepted, fun j hj hjk =>
              hpersists j (by omega) hjk⟩
      · rw [post_loop_last hretried]
        constructor
        · exact fun haccepted => .inr ⟨attempt, by omega, by omega, haccepted, fun j hj hjk =>
            absurd hj (by omega)⟩
        · rintro (⟨hzero, -⟩ | ⟨k, hle, hlt, haccepted, hpersists⟩)
          · omega
          · by_cases hfirst : k = attempt
            · rwa [hfirst] at haccepted
            · exact absurd (hpersists attempt (by omega) (by omega)).1 hretried

/-- **A delivery succeeds exactly if some attempt is accepted in time.** -/
theorem post_with_retry_ok_iff {net : Network} {max_retries : Int} :
    post_with_retry net max_retries = .ok () ↔ net.Delivers max_retries := by
  rw [post_with_retry, post_loop_ok_iff, Network.Delivers]
  refine or_congr ⟨fun h => ?_, fun h => ⟨?_, rfl⟩⟩ (exists_congr fun k => ?_)
  · have hzero := h.1
    omega
  · omega
  · refine and_congr_right fun hone => and_congr_left fun _ => ?_
    omega

end CodaNode.Webhook
