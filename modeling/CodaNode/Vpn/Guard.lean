/-
`Vpn/Guard.lean` -- the health checks of the VPN, and what is announced of them.

`preflight` and `watch` both write the state. A check that fails leaves `vpn_unavailable`, and
`watch` turns that into `degraded` only if the guard was ready before: the second failure in a
row takes a degraded guard to `vpn_unavailable` without a word to the callback. No other change
goes unannounced, and `watch_announces_iff` says so for every sequence of checks.
-/
import CodaNode.Vpn.Interface

set_option autoImplicit false

namespace CodaNode.Vpn

/-! ## Announcing the changes of a state

A loop that changes a state and sometimes announces a state. Somebody who hears the
announcements only takes the last one to be the state. -/

section Announcing

variable {σ : Type*}

/-- One turn of the loop: the state at its start, what it announces, the state at its end. -/
structure Turn (σ : Type*) where
  before : σ
  announced : Option σ
  after : σ
  deriving DecidableEq, Repr

/-- The turn announces exactly if it changes the state, and it announces the new one. -/
def Turn.Announced (t : Turn σ) : Prop :=
  ∀ s, t.announced = some s ↔ t.after ≠ t.before ∧ s = t.after

/-- The state in which the turns end. -/
def current (start : σ) : List (Turn σ) → σ
  | [] => start
  | t :: rest => current t.after rest

/-- The state that the announcements lead to. -/
def replay (known : σ) : List (Turn σ) → σ
  | [] => known
  | t :: rest => replay (t.announced.getD known) rest

/-- Each turn starts where the one before it ended. -/
def Chained (start : σ) : List (Turn σ) → Prop
  | [] => True
  | t :: rest => t.before = start ∧ Chained t.after rest

theorem Turn.announced_same (s : σ) : (⟨s, none, s⟩ : Turn σ).Announced := by
  intro other
  simp

theorem Turn.announced_change {s s' : σ} (h : s' ≠ s) : (⟨s, some s', s'⟩ : Turn σ).Announced := by
  intro other
  simp [h, eq_comm]

theorem Turn.not_announced {s s' : σ} (h : s' ≠ s) : ¬ (⟨s, none, s'⟩ : Turn σ).Announced := by
  intro hann
  exact absurd ((hann s').2 ⟨h, rfl⟩) (by simp)

theorem Turn.Announced.getD {t : Turn σ} (h : t.Announced) : t.announced.getD t.before = t.after := by
  by_cases hsame : t.after = t.before
  · have hnone : t.announced = none := by
      rw [Option.eq_none_iff_forall_ne_some]
      intro s hs
      exact ((h s).1 hs).1 hsame
    rw [hnone, Option.getD_none, hsame]
  · rw [(h t.after).2 ⟨hsame, rfl⟩, Option.getD_some]

/-- Where every change is announced, the announcements lead to the state. -/
theorem replay_eq_current {start : σ} {turns : List (Turn σ)} (hchain : Chained start turns)
    (h : ∀ t ∈ turns, t.Announced) : replay start turns = current start turns := by
  induction turns generalizing start with
  | nil => rfl
  | cons t rest ih =>
      obtain ⟨hstart, hrest⟩ := hchain
      have hknown := (h t List.mem_cons_self).getD
      rw [replay, current, ← hstart, hknown]
      exact ih hrest fun u hu => h u (List.mem_cons_of_mem _ hu)

theorem Chained.of_initial {start : σ} {seen turns : List (Turn σ)} (hseen : seen <+: turns)
    (hchain : Chained start turns) : Chained start seen := by
  induction seen generalizing start turns with
  | nil => trivial
  | cons t rest ih =>
      obtain ⟨more, rfl⟩ := hseen
      exact ⟨hchain.1, ih (List.prefix_append _ _) hchain.2⟩

end Announcing

/-! ## `VPNGuard` -/

/-- `ServiceState`. -/
inductive ServiceState where
  | booting
  | vpn_unavailable
  | ready
  | degraded
  deriving DecidableEq, Repr

/-- `ProbeResult`, without the time that the answer took. -/
structure ProbeResult where
  target : Text
  ok : Bool
  error : Option Text
  deriving DecidableEq, Repr

/-- `VPNStatus`. -/
structure VPNStatus where
  ok : Bool
  interface_found : Bool
  probes : List ProbeResult
  reason : Text
  deriving DecidableEq, Repr

/-- The name of an exception that the guard does not catch. -/
structure Uncaught where
  name : String
  deriving DecidableEq, Repr

/-- What `client.head` ends with. -/
inductive HeadOutcome where
  | answered (status_code : Nat)
  | raised (message : Text)
  deriving DecidableEq, Repr

/-- What one check meets: how the command ends, and for each place in the list of targets what
the resolver and the endpoint answer. -/
structure Surroundings where
  command : Except Uncaught Outcome
  resolve_host : Nat → Except Uncaught Bool
  head : Nat → HeadOutcome

/-- The machine of the guard, with `urlparse(target).hostname`; no host name is the empty
one. -/
structure Platform where
  system : System
  lowercase : Lowercase
  json : JsonCodec
  hostname : Text → Except Uncaught Text

/-- `VPNGuard`, up to the interval and the headers of its probes; no hint is the empty one. -/
structure VPNGuard where
  probe_targets : List Text
  interface_hint : Text
  vpn_required : Bool
  state : ServiceState
  deriving DecidableEq, Repr

/-- `_probe_target`. -/
def probe_target (url : Text) : HeadOutcome → ProbeResult
  | .answered status_code => ⟨url, decide (status_code < 500), none⟩
  | .raised message => ⟨url, false, some (message.take 200)⟩

/-- The turn of the loop over the host names for the target at the place `i`: the name if it
does not resolve. -/
def dns_failure (P : Platform) (s : Surroundings) (i : Nat) (target : Text) :
    Except Uncaught (Option Text) :=
  match P.hostname target with
  | .error e => .error e
  | .ok hostname =>
      if hostname = [] then .ok none
      else (s.resolve_host i).map fun resolved => if resolved then none else some hostname

/-- The loop over the host names, from the place `i` on. -/
def dns_failures (P : Platform) (s : Surroundings) (i : Nat) :
    List Text → Except Uncaught (List Text)
  | [] => .ok []
  | target :: rest =>
      match dns_failure P s i target with
      | .error e => .error e
      | .ok failure => (dns_failures P s (i + 1) rest).map (failure.toList ++ ·)

/-- The loop over the probes, from the place `i` on. -/
def probe_targets (s : Surroundings) (i : Nat) : List Text → List ProbeResult
  | [] => []
  | target :: rest => probe_target target (s.head i) :: probe_targets s (i + 1) rest

/-- `f"{probe.target}: {probe.error or 'unreachable'}"`. -/
def probe_failure (probe : ProbeResult) : Text :=
  let error := probe.error.getD []
  probe.target ++ ": ".toList ++ if error = [] then "unreachable".toList else error

namespace VPNGuard

/-- `VPNGuard(...)`. -/
def init (probe_targets : List Text) (interface_hint : Text) (vpn_required : Bool) : VPNGuard :=
  ⟨probe_targets, interface_hint, vpn_required, .booting⟩

/-- `detect_tun_interface(self._interface_hint)`. -/
def detect (P : Platform) (g : VPNGuard) (s : Surroundings) : Except Uncaught (Option Text) :=
  s.command.map fun outcome =>
    detect_tun_interface P.lowercase P.json P.system (fun _ => outcome) g.interface_hint

/-- `preflight`: the status and the guard after it. -/
def preflight (P : Platform) (g : VPNGuard) (s : Surroundings) :
    Except Uncaught (VPNStatus × VPNGuard) :=
  match g.detect P s with
  | .error e => .error e
  | .ok iface =>
      let interface_found := iface.isSome
      if !interface_found && g.vpn_required then
        .ok (⟨false, false, [], "No VPN tunnel interface detected".toList⟩,
          { g with state := .vpn_unavailable })
      else match dns_failures P s 0 g.probe_targets with
        | .error e => .error e
        | .ok failures =>
            if failures ≠ [] && g.vpn_required then
              .ok (⟨false, interface_found, [],
                "DNS resolution failed for: ".toList ++ ", ".toList.intercalate failures⟩,
                { g with state := .vpn_unavailable })
            else
              let probes := Vpn.probe_targets s 0 g.probe_targets
              let failed := probes.filter fun probe => !probe.ok
              if failed ≠ [] && g.vpn_required then
                .ok (⟨false, interface_found, probes,
                  "Probe failures: ".toList ++ "; ".toList.intercalate (failed.map probe_failure)⟩,
                  { g with state := .vpn_unavailable })
              else .ok (⟨true, interface_found, probes, []⟩, { g with state := .ready })

/-- One turn of the loop of `watch`: the guard after it, and what `on_change` is called with. -/
def turn (P : Platform) (g : VPNGuard) (s : Surroundings) :
    Except Uncaught (VPNGuard × Option ServiceState) :=
  let previous := g.state
  match g.preflight P s with
  | .error e => .error e
  | .ok (status, g) =>
      if status.ok && previous ≠ .ready && previous ≠ .booting then .ok (g, some .ready)
      else if !status.ok && previous = .ready then
        .ok ({ g with state := .degraded }, some .degraded)
      else .ok (g, none)

/-- The turns of `watch`, until `stop` is called or an exception ends it. -/
def watch (P : Platform) (g : VPNGuard) : List Surroundings → List (Turn ServiceState)
  | [] => []
  | s :: rest =>
      match g.turn P s with
      | .error _ => []
      | .ok (g', announced) => ⟨g.state, announced, g'.state⟩ :: watch P g' rest

end VPNGuard

/-! ## What a check finds -/

/-- Looking up the host name of the target raises nothing. -/
def Answered (P : Platform) (s : Surroundings) (i : Nat) (target : Text) : Prop :=
  ∃ hostname, P.hostname target = .ok hostname ∧
    (hostname ≠ [] → ∃ resolved, s.resolve_host i = .ok resolved)

/-- The host name of the target resolves, if it has one. -/
def Resolves (P : Platform) (s : Surroundings) (i : Nat) (target : Text) : Prop :=
  ∀ hostname, P.hostname target = .ok hostname → hostname ≠ [] → s.resolve_host i = .ok true

/-- The endpoint answers the probe, with no error of its own. -/
def Reachable (s : Surroundings) (i : Nat) : Prop :=
  ∃ status_code, s.head i = .answered status_code ∧ status_code < 500

/-- Every target is as `Q` says, where the first one stands at the place `i`. -/
def EachTarget (Q : Nat → Text → Prop) (i : Nat) (targets : List Text) : Prop :=
  ∀ j target, targets[j]? = some target → Q (i + j) target

namespace VPNGuard

/-- A tunnel interface is there. -/
def Tunnel (P : Platform) (g : VPNGuard) (s : Surroundings) : Prop :=
  ∃ iface, g.detect P s = .ok (some iface)

/-- No exception ends the check. Without a required tunnel the host names are not looked up. -/
def Completes (P : Platform) (g : VPNGuard) (s : Surroundings) : Prop :=
  (∃ iface, g.detect P s = .ok iface) ∧
    (g.vpn_required = true ∧ ¬ g.Tunnel P s ∨ EachTarget (Answered P s) 0 g.probe_targets)

/-- The tunnel is up, every host name resolves and every endpoint answers. -/
def AllWell (P : Platform) (g : VPNGuard) (s : Surroundings) : Prop :=
  g.Tunnel P s ∧ EachTarget (Resolves P s) 0 g.probe_targets ∧
    EachTarget (fun i _ => Reachable s i) 0 g.probe_targets

/-- The check passes. -/
def Healthy (P : Platform) (g : VPNGuard) (s : Surroundings) : Prop :=
  g.Completes P s ∧ (g.vpn_required = true → g.AllWell P s)

/-- The check fails. -/
def Unhealthy (P : Platform) (g : VPNGuard) (s : Surroundings) : Prop :=
  g.Completes P s ∧ g.vpn_required = true ∧ ¬ g.AllWell P s

end VPNGuard

section Checks

variable {P : Platform} {s : Surroundings}

theorem eachTarget_nil {Q : Nat → Text → Prop} {i : Nat} : EachTarget Q i [] := by
  intro j target h
  cases h

theorem eachTarget_cons {Q : Nat → Text → Prop} {i : Nat} {target : Text} {rest : List Text} :
    EachTarget Q i (target :: rest) ↔ Q i target ∧ EachTarget Q (i + 1) rest := by
  constructor
  · intro h
    refine ⟨h 0 target rfl, fun j other hother => ?_⟩
    have hnext := h (j + 1) other hother
    rwa [show i + (j + 1) = i + 1 + j by omega] at hnext
  · rintro ⟨hhead, hrest⟩ j other hother
    cases j with
    | zero =>
        rw [List.getElem?_cons_zero, Option.some.injEq] at hother
        rwa [Nat.add_zero, ← hother]
    | succ j =>
        rw [show i + (j + 1) = i + 1 + j by omega]
        exact hrest j other hother

/-- One lookup: it raises, or says whether the name resolves. -/
theorem dns_failure_cases (P : Platform) (s : Surroundings) (i : Nat) (target : Text) :
    (∃ e, dns_failure P s i target = .error e ∧ ¬ Answered P s i target) ∨
    (dns_failure P s i target = .ok none ∧ Answered P s i target ∧ Resolves P s i target) ∨
    (∃ hostname, dns_failure P s i target = .ok (some hostname) ∧ Answered P s i target ∧
      ¬ Resolves P s i target) := by
  unfold dns_failure Answered Resolves
  cases hname : P.hostname target with
  | error e => simp
  | ok hostname =>
      by_cases hempty : hostname = []
      · simp [hempty]
      · cases hresolve : s.resolve_host i with
        | error e => simp [hempty, Except.map]
        | ok resolved => cases resolved <;> simp [hempty, Except.map]

/-- The lookups: one of them raises, or the failures are the names that do not resolve. -/
theorem dns_failures_cases (P : Platform) (s : Surroundings) (i : Nat) (targets : List Text) :
    (∃ e, dns_failures P s i targets = .error e ∧ ¬ EachTarget (Answered P s) i targets) ∨
    (∃ failures, dns_failures P s i targets = .ok failures ∧
      EachTarget (Answered P s) i targets ∧
        (failures = [] ↔ EachTarget (Resolves P s) i targets)) := by
  induction targets generalizing i with
  | nil => exact .inr ⟨[], rfl, eachTarget_nil, iff_of_true rfl eachTarget_nil⟩
  | cons target rest ih =>
      rw [dns_failures]
      simp only [eachTarget_cons]
      rcases dns_failure_cases P s i target with ⟨e, he, hnot⟩ | ⟨he, hans, hres⟩ |
        ⟨hostname, he, hans, hres⟩
      · exact .inl ⟨e, by rw [he], fun h => hnot h.1⟩
      · rw [he]
        rcases ih (i + 1) with ⟨e, hrest, hnot⟩ | ⟨failures, hrest, hall, hiff⟩
        · exact .inl ⟨e, by rw [hrest]; rfl, fun h => hnot h.2⟩
        · refine .inr ⟨failures, by rw [hrest]; rfl, ⟨hans, hall⟩, ?_⟩
          rw [hiff, and_iff_right hres]
      · rw [he]
        rcases ih (i + 1) with ⟨e, hrest, hnot⟩ | ⟨failures, hrest, hall, -⟩
        · exact .inl ⟨e, by rw [hrest]; rfl, fun h => hnot h.2⟩
        · refine .inr ⟨hostname :: failures, by rw [hrest]; rfl, ⟨hans, hall⟩, ?_⟩
          exact iff_of_false (List.cons_ne_nil _ _) fun h => hres h.1

/-- The probe says whether the endpoint is reachable. -/
theorem probe_target_ok {i : Nat} {target : Text} :
    (probe_target target (s.head i)).ok = true ↔ Reachable s i := by
  unfold Reachable
  cases s.head i with
  | answered status_code => simp [probe_target]
  | raised message => simp [probe_target]

theorem probe_targets_ok (s : Surroundings) (i : Nat) (targets : List Text) :
    (probe_targets s i targets).filter (fun probe => !probe.ok) = [] ↔
      EachTarget (fun i _ => Reachable s i) i targets := by
  induction targets generalizing i with
  | nil => exact iff_of_true rfl eachTarget_nil
  | cons target rest ih =>
      have hprobe : (probe_target target (s.head i)).ok = true ↔ Reachable s i := probe_target_ok
      rw [eachTarget_cons, ← ih, ← hprobe, probe_targets]
      cases hok : (probe_target target (s.head i)).ok <;> simp [hok]

/-- What `preflight` does with each outcome of the checks. -/
theorem VPNGuard.preflight_cases (P : Platform) (g : VPNGuard) (s : Surroundings) :
    (∃ e, g.preflight P s = .error e ∧ ¬ g.Completes P s) ∨
    (∃ status, g.preflight P s = .ok (status, { g with state := .ready }) ∧
      status.ok = true ∧ g.Healthy P s) ∨
    (∃ status, g.preflight P s = .ok (status, { g with state := .vpn_unavailable }) ∧
      status.ok = false ∧ g.Unhealthy P s) := by
  unfold preflight Healthy Unhealthy AllWell Completes Tunnel
  cases hdetect : g.detect P s with
  | error e => simp
  | ok iface =>
      have hprobes := probe_targets_ok s 0 g.probe_targets
      cases hrequired : g.vpn_required with
      | false =>
          rcases dns_failures_cases P s 0 g.probe_targets with ⟨e, he, hnot⟩ |
            ⟨failures, he, hall, -⟩
          · simp [he, hnot]
          · simp [he, hall]
      | true =>
          cases iface with
          | none => simp
          | some iface =>
              rcases dns_failures_cases P s 0 g.probe_targets with ⟨e, he, hnot⟩ |
                ⟨failures, he, hall, hiff⟩
              · simp [he, hnot]
              · rw [← hiff, ← hprobes]
                by_cases hfailures : failures = []
                · by_cases hfailed :
                    (Vpn.probe_targets s 0 g.probe_targets).filter (fun probe => !probe.ok) = []
                  · refine .inr (.inl ?_)
                    simp [he, hall, hfailures, hfailed]
                  · refine .inr (.inr ?_)
                    simp [he, hall, hfailures, hfailed]
                · refine .inr (.inr ?_)
                  simp [he, hall, hfailures]

end Checks

/-! ## The turns of `watch` -/

/-- Among the checks, and before any that raises, one passes and the next two fail. -/
def FailsTwice (P : Platform) (g : VPNGuard) (checks : List Surroundings) : Prop :=
  ∃ before a b c rest, checks = before ++ a :: b :: c :: rest ∧ (∀ s ∈ before, g.Completes P s) ∧
    g.Healthy P a ∧ g.Unhealthy P b ∧ g.Unhealthy P c

section Watching

variable {P : Platform} {g : VPNGuard} {s : Surroundings} {st : ServiceState}

theorem VPNGuard.Healthy.not_unhealthy (h : g.Healthy P s) : ¬ g.Unhealthy P s := by
  rintro ⟨-, hrequired, hnot⟩
  exact hnot (h.2 hrequired)

/-- A check that completes passes or fails. -/
theorem VPNGuard.Completes.healthy_or (h : g.Completes P s) :
    g.Healthy P s ∨ g.Unhealthy P s := by
  by_cases hwell : g.vpn_required = true → g.AllWell P s
  · exact .inl ⟨h, hwell⟩
  · obtain ⟨hrequired, hnot⟩ := Classical.not_imp.1 hwell
    exact .inr ⟨h, hrequired, hnot⟩

theorem VPNGuard.preflight_healthy (h : g.Healthy P s) :
    ∃ status, g.preflight P s = .ok (status, { g with state := .ready }) ∧ status.ok = true := by
  rcases g.preflight_cases P s with ⟨-, -, hnot⟩ | ⟨status, hrun, hok, -⟩ | ⟨-, -, -, hun⟩
  · exact absurd h.1 hnot
  · exact ⟨status, hrun, hok⟩
  · exact absurd hun h.not_unhealthy

theorem VPNGuard.preflight_unhealthy (h : g.Unhealthy P s) :
    ∃ status, g.preflight P s = .ok (status, { g with state := .vpn_unavailable }) ∧
      status.ok = false := by
  rcases g.preflight_cases P s with ⟨-, -, hnot⟩ | ⟨-, -, -, hhealthy⟩ | ⟨status, hrun, hok, -⟩
  · exact absurd h.1 hnot
  · exact absurd h hhealthy.not_unhealthy
  · exact ⟨status, hrun, hok⟩

theorem VPNGuard.preflight_raises (h : ¬ g.Completes P s) : ∃ e, g.preflight P s = .error e := by
  rcases g.preflight_cases P s with ⟨e, hrun, -⟩ | ⟨-, -, -, hhealthy⟩ | ⟨-, -, -, hun⟩
  · exact ⟨e, hrun⟩
  · exact absurd hhealthy.1 h
  · exact absurd hun.1 h

/-- A check that passes makes the guard ready, and is announced unless it was. -/
theorem VPNGuard.turn_healthy (h : g.Healthy P s) :
    g.turn P s = .ok ({ g with state := .ready },
      if g.state = .ready ∨ g.state = .booting then none else some .ready) := by
  obtain ⟨status, hrun, hok⟩ := g.preflight_healthy h
  rw [turn, hrun]
  cases g.state <;> simp [hok]

/-- The first check that fails is announced. -/
theorem VPNGuard.turn_falls (h : g.Unhealthy P s) (hready : g.state = .ready) :
    g.turn P s = .ok ({ g with state := .degraded }, some .degraded) := by
  obtain ⟨status, hrun, hok⟩ := g.preflight_unhealthy h
  rw [turn, hrun]
  simp [hok, hready]

/-- One that fails later is not. -/
theorem VPNGuard.turn_stays (h : g.Unhealthy P s) (hready : g.state ≠ .ready) :
    g.turn P s = .ok ({ g with state := .vpn_unavailable }, none) := by
  obtain ⟨status, hrun, hok⟩ := g.preflight_unhealthy h
  rw [turn, hrun]
  simp [hok, hready]

theorem VPNGuard.turn_raises (h : ¬ g.Completes P s) : ∃ e, g.turn P s = .error e := by
  obtain ⟨e, hrun⟩ := g.preflight_raises h
  exact ⟨e, by rw [turn, hrun]⟩

theorem VPNGuard.watch_cons {g' : VPNGuard} {announced : Option ServiceState}
    (h : g.turn P s = .ok (g', announced)) (rest : List Surroundings) :
    g.watch P (s :: rest) = ⟨g.state, announced, g'.state⟩ :: g'.watch P rest := by
  rw [watch, h]

theorem VPNGuard.watch_chained (checks : List Surroundings) :
    Chained g.state (g.watch P checks) := by
  induction checks generalizing g with
  | nil => trivial
  | cons s rest ih =>
      rw [watch]
      split
      · trivial
      · exact ⟨rfl, ih⟩

theorem failsTwice_nil : ¬ FailsTwice P g [] := by
  rintro ⟨before, a, b, c, rest, h, -⟩
  cases before <;> cases h

theorem failsTwice_cons {rest : List Surroundings} :
    FailsTwice P g (s :: rest) ↔
      (g.Healthy P s ∧ ∃ b c more, rest = b :: c :: more ∧ g.Unhealthy P b ∧ g.Unhealthy P c) ∨
        (g.Completes P s ∧ FailsTwice P g rest) := by
  constructor
  · rintro ⟨before, a, b, c, more, h, hbefore, ha, hb, hc⟩
    cases before with
    | nil =>
        obtain ⟨rfl, rfl⟩ := List.cons.inj h
        exact .inl ⟨ha, b, c, more, rfl, hb, hc⟩
    | cons first before =>
        obtain ⟨rfl, rfl⟩ := List.cons.inj h
        refine .inr ⟨hbefore s List.mem_cons_self, before, a, b, c, more, rfl, ?_, ha, hb, hc⟩
        intro x hx
        exact hbefore x (List.mem_cons_of_mem _ hx)
  · rintro (⟨ha, b, c, more, rfl, hb, hc⟩ | ⟨hs, before, a, b, c, more, rfl, hbefore, ha, hb, hc⟩)
    · exact ⟨[], s, b, c, more, rfl, by simp, ha, hb, hc⟩
    · refine ⟨s :: before, a, b, c, more, rfl, ?_, ha, hb, hc⟩
      intro x hx
      rcases List.mem_cons.1 hx with rfl | hx
      · exact hs
      · exact hbefore x hx

theorem VPNGuard.Unhealthy.failsTwice_cons {rest : List Surroundings} (h : g.Unhealthy P s) :
    FailsTwice P g (s :: rest) ↔ FailsTwice P g rest := by
  rw [Vpn.failsTwice_cons]
  constructor
  · rintro (⟨hs, -⟩ | ⟨-, hrest⟩)
    · exact absurd h hs.not_unhealthy
    · exact hrest
  · intro hrest
    exact .inr ⟨h.1, hrest⟩

theorem not_failsTwice_of_raises {rest : List Surroundings} (h : ¬ g.Completes P s) :
    ¬ FailsTwice P g (s :: rest) := by
  rw [failsTwice_cons]
  rintro (⟨hs, -⟩ | ⟨hs, -⟩)
  · exact h hs.1
  · exact h hs

/-- The last checks before the guard was in its state, as far as they matter. -/
inductive Since (P : Platform) (g : VPNGuard) : ServiceState → List Surroundings → Prop where
  | ready {a : Surroundings} (ha : g.Healthy P a) : Since P g .ready [a]
  | degraded {a b : Surroundings} (ha : g.Healthy P a) (hb : g.Unhealthy P b) :
      Since P g .degraded [a, b]
  | unavailable : Since P g .vpn_unavailable []

/-- A check that does not fail ends what the past could have led to. -/
theorem Since.forget {past rest : List Surroundings} (hpast : Since P g st past)
    (hs : ¬ g.Unhealthy P s) :
    FailsTwice P g (past ++ s :: rest) ↔ FailsTwice P g (s :: rest) := by
  -- a passing check is not followed by two that fail where `s` is among these
  have hpass {a : Surroundings} {more : List Surroundings} (ha : g.Healthy P a)
      (hmore : ∀ b c more', more = b :: c :: more' → ¬ (g.Unhealthy P b ∧ g.Unhealthy P c)) :
      FailsTwice P g (a :: more) ↔ FailsTwice P g more := by
    rw [failsTwice_cons]
    constructor
    · rintro (⟨-, b, c, more', hsplit, hfail⟩ | ⟨-, hrest⟩)
      · exact absurd hfail (hmore b c more' hsplit)
      · exact hrest
    · intro hrest
      exact .inr ⟨ha.1, hrest⟩
  cases hpast with
  | ready ha =>
      refine hpass ha fun b c more' hsplit hfail => ?_
      rw [← (List.cons.inj hsplit).1] at hfail
      exact hs hfail.1
  | degraded ha hb =>
      refine (hpass ha fun b c more' hsplit hfail => ?_).trans hb.failsTwice_cons
      rw [← (List.cons.inj (List.cons.inj hsplit).2).1] at hfail
      exact hs hfail.2
  | unavailable => exact Iff.rfl

theorem Since.not_failsTwice {past : List Surroundings} (hpast : Since P g st past) :
    ¬ FailsTwice P g past := by
  rintro ⟨before, a, b, c, rest, h, -⟩
  have hlength : 3 ≤ past.length := by
    rw [h, List.length_append, List.length_cons, List.length_cons, List.length_cons]
    omega
  cases hpast <;> simp at hlength

/-- The induction is on the checks; `Since` says how each state was come to. -/
theorem watch_announced_iff {past : List Surroundings} (hpast : Since P g g.state past)
    (checks : List Surroundings) :
    (∀ t ∈ g.watch P checks, t.Announced) ↔ ¬ FailsTwice P g (past ++ checks) := by
  induction checks generalizing g past with
  | nil =>
      rw [List.append_nil]
      refine iff_of_true (fun t ht => ?_) hpast.not_failsTwice
      cases ht
  | cons s rest ih =>
      by_cases hcomplete : g.Completes P s
      · rcases hcomplete.healthy_or with hs | hs
        · -- passing: every state that this leaves is announced
          rw [VPNGuard.watch_cons (VPNGuard.turn_healthy hs), hpast.forget hs.not_unhealthy,
            List.forall_mem_cons]
          have hrest := @ih { g with state := .ready } [s] (.ready hs)
          refine (and_iff_right ?_).trans hrest
          generalize g.state = st at hpast
          cases hpast with
          | ready ha => exact Turn.announced_same _
          | degraded ha hb => exact Turn.announced_change ServiceState.noConfusion
          | unavailable => exact Turn.announced_change ServiceState.noConfusion
        · generalize hst : g.state = st at hpast
          cases hpast with
          | ready ha =>
              rw [VPNGuard.watch_cons (VPNGuard.turn_falls hs hst), List.forall_mem_cons, hst]
              have hrest := @ih { g with state := .degraded } _ (.degraded ha hs)
              exact (and_iff_right (Turn.announced_change ServiceState.noConfusion)).trans hrest
          | degraded ha hb =>
              -- the second failure in a row goes unannounced
              rw [VPNGuard.watch_cons (VPNGuard.turn_stays hs (by simp [hst])), hst]
              refine iff_of_false (fun hall => ?_) (not_not_intro ?_)
              · exact Turn.not_announced ServiceState.noConfusion (hall _ List.mem_cons_self)
              · exact ⟨[], _, _, s, rest, rfl, by simp, ha, hb, hs⟩
          | unavailable =>
              rw [VPNGuard.watch_cons (VPNGuard.turn_stays hs (by simp [hst])),
                List.forall_mem_cons, hst, List.nil_append, hs.failsTwice_cons]
              have hrest := @ih { g with state := .vpn_unavailable } _ .unavailable
              exact (and_iff_right (Turn.announced_same _)).trans hrest
      · obtain ⟨e, hturn⟩ := VPNGuard.turn_raises hcomplete
        rw [hpast.forget fun hs => hcomplete hs.1, VPNGuard.watch, hturn]
        refine iff_of_true (fun t ht => ?_) (not_failsTwice_of_raises hcomplete)
        cases ht

/-- Every change is announced, and who hears the announcements knows the state after each
turn. -/
def AllAnnounced (start : ServiceState) (turns : List (Turn ServiceState)) : Prop :=
  (∀ t ∈ turns, t.Announced) ∧
    ∀ seen, seen <+: turns → replay start seen = current start seen

theorem allAnnounced_iff (checks : List Surroundings) :
    AllAnnounced g.state (g.watch P checks) ↔ ∀ t ∈ g.watch P checks, t.Announced := by
  refine ⟨fun h => h.1, fun h => ⟨h, fun seen hseen => ?_⟩⟩
  have hchain : Chained g.state seen := (g.watch_chained checks).of_initial hseen
  exact replay_eq_current hchain fun t ht => h t (hseen.mem ht)

end Watching

/-- Every change of the state is announced if and only if no check that passes, the one at
startup included, is followed by two that fail. -/
theorem watch_announces_iff (P : Platform) (probe_targets : List Text) (interface_hint : Text)
    (vpn_required : Bool) (startup : Surroundings) (checks : List Surroundings)
    (status : VPNStatus) (g : VPNGuard)
    (hstartup : (VPNGuard.init probe_targets interface_hint vpn_required).preflight P startup =
      .ok (status, g)) :
    AllAnnounced g.state (g.watch P checks) ↔ ¬ FailsTwice P g (startup :: checks) := by
  rw [allAnnounced_iff]
  set fresh := VPNGuard.init probe_targets interface_hint vpn_required
  rcases fresh.preflight_cases P startup with
    ⟨e, hrun, -⟩ | ⟨status', hrun, -, hs⟩ | ⟨status', hrun, -, hs⟩
  · rw [hrun] at hstartup
    cases hstartup
  · rw [hrun] at hstartup
    cases hstartup
    have hpast : Since P { fresh with state := .ready } .ready [startup] := .ready hs
    exact watch_announced_iff hpast checks
  · rw [hrun] at hstartup
    cases hstartup
    have hpast : Since P { fresh with state := .vpn_unavailable } .vpn_unavailable [] :=
      .unavailable
    refine (watch_announced_iff hpast checks).trans (not_congr ?_)
    exact (VPNGuard.Unhealthy.failsTwice_cons hs).symm

/-! ## Two failures in a row -/

/-- A Linux machine whose targets have no host names to look up. -/
def bare_platform : Platform := ⟨.linux, .simple, no_codec, fun _ => .ok []⟩

/-- A tunnel is listed, or none is, and no endpoint is probed. -/
def tunnel_listed (listed : Bool) : Surroundings where
  command := .ok (.completed 0 (if listed then "4: tun0: <UP>".toList else []))
  resolve_host := fun _ => .ok true
  head := fun _ => .answered 200

/-- The guard that was found ready. -/
def ready_guard : VPNGuard := { VPNGuard.init [] [] true with state := .ready }

theorem ready_guard_starts :
    (VPNGuard.init [] [] true).preflight bare_platform (tunnel_listed true) =
      .ok (⟨true, true, [], []⟩, ready_guard) := rfl

theorem tunnel_listed_well : ready_guard.AllWell bare_platform (tunnel_listed true) :=
  ⟨⟨"tun0".toList, rfl⟩, eachTarget_nil, eachTarget_nil⟩

/-- Down, up and down again: three changes, three announcements. -/
theorem watch_announces_recovery :
    AllAnnounced .ready (ready_guard.watch bare_platform
      [tunnel_listed false, tunnel_listed true, tunnel_listed false]) := by
  refine (watch_announces_iff bare_platform [] [] true (tunnel_listed true) _ _ ready_guard
    ready_guard_starts).2 ?_
  rintro ⟨before, a, b, c, rest, hsplit, -, -, hb, hc⟩
  have hwell := tunnel_listed_well
  rcases before with - | ⟨x, - | ⟨y, before⟩⟩
  · obtain ⟨rfl, rfl, rfl, rfl⟩ : _ ∧ _ ∧ _ ∧ _ := by simpa using hsplit
    exact hc.2.2 hwell
  · obtain ⟨rfl, rfl, rfl, rfl, rfl⟩ : _ ∧ _ ∧ _ ∧ _ ∧ _ := by simpa using hsplit
    exact hb.2.2 hwell
  · have hlength := congrArg List.length hsplit
    simp at hlength
    omega

/-- Down twice: the second time nobody hears of it. -/
theorem watch_silent :
    ¬ ∀ (P : Platform) (probe_targets : List Text) (interface_hint : Text) (vpn_required : Bool)
      (startup : Surroundings) (checks : List Surroundings) (status : VPNStatus) (g : VPNGuard),
      (VPNGuard.init probe_targets interface_hint vpn_required).preflight P startup =
        .ok (status, g) → AllAnnounced g.state (g.watch P checks) := by
  intro hclaim
  obtain ⟨hall, -⟩ := hclaim bare_platform [] [] true (tunnel_listed true)
    [tunnel_listed false, tunnel_listed false] _ ready_guard ready_guard_starts
  have hlast : (⟨.degraded, none, .vpn_unavailable⟩ : Turn ServiceState) ∈
      ready_guard.watch bare_platform [tunnel_listed false, tunnel_listed false] :=
    List.mem_cons_of_mem _ List.mem_cons_self
  exact Turn.not_announced ServiceState.noConfusion (hall _ hlast)

end CodaNode.Vpn
