/-
`Config/Teardown.lean` -- the OpenVPN daemon of a failed connect.

The same `connect_settings`, on a machine with daemons and a PID file. A daemon is started
in two places, by `ensure_persisted_vpn` and by `apply_node_bundle`, and killed in two: by
`_wait_for_tunnel` when the tunnel does not appear, and by `connect_settings` when a node
with a token fails to apply its bundle. The second kill takes whatever the PID file names.
-/
import CodaNode.Config.Reconnect

set_option autoImplicit false

namespace CodaNode.Config

/-! ## The machine -/

/-- The OpenVPN daemons that run, and the PID file: the number in it, if it holds one. -/
structure Machine where
  daemons : List Nat
  pid_file : Option (Option Nat)
  deriving DecidableEq, Repr

/-- What comes of `openvpn --daemon`. -/
inductive Launch where
  /-- There is no binary. -/
  | not_found
  /-- It exits with an error. -/
  | exits (stderr : String)
  /-- `subprocess.run` raises, a `TimeoutExpired` say. -/
  | raises (message : String)
  /-- It has forked, and has written the number of the daemon. -/
  | daemon (pid : Nat)

/-- What the machine does where the tunnel is brought up: the interface that is found at
first, what comes of OpenVPN, and the interfaces found at each poll until the timeout. -/
structure Tunnel where
  iface : Except ConnectError (Option Text)
  launch : Launch
  polls : List (Except ConnectError (Option Text))

/-- What the machine does in one connect. -/
structure Outside where
  /-- The tunnel in `ensure_persisted_vpn`. -/
  restored : Tunnel
  /-- The tunnel in `apply_node_bundle`. -/
  applied : Tunnel
  /-- The daemons that may not be signalled. -/
  refused : Nat → Bool
  /-- The error of writing the profile, and that of writing the config. -/
  profile_error : Option String
  config_error : Option String
  /-- `_read_openvpn_log_tail()`. -/
  log_tail : String

/-! ## Starting and killing -/

/-- `_start_openvpn`. -/
def start_openvpn (launch : Launch) (m : Machine) : Except ConnectError Unit × Machine :=
  match launch with
  | .not_found => (.error (.of_message
      "openvpn binary not found. Install OpenVPN or disable node auto VPN."), m)
  | .exits stderr => (.error (.of_message ("Failed to start OpenVPN: " ++
      (if stderr = "" then "unknown openvpn error" else stderr))), m)
  | .raises message => (.error (.other message), m)
  | .daemon pid => (.ok (), { daemons := m.daemons ++ [pid], pid_file := some (some pid) })

/-- `kill_openvpn_daemon`. A number that is no daemon's is that of a process long gone. -/
def kill_openvpn_daemon (refused : Nat → Bool) (m : Machine) : Bool × Machine :=
  match m.pid_file with
  | none => (false, m)
  | some none => (false, { m with pid_file := none })
  | some (some pid) =>
      if pid ∈ m.daemons ∧ refused pid = false then
        (true, { daemons := m.daemons.filter (· ≠ pid), pid_file := none })
      else (false, { m with pid_file := none })

/-- `_wait_for_tunnel`. -/
def wait_for_tunnel (out : Outside) :
    List (Except ConnectError (Option Text)) → Machine → Except ConnectError Text × Machine
  | [], m =>
      (.error (.of_message ("OpenVPN daemon started but no VPN tunnel interface appeared " ++
        "within 30.0s. Check firewall rules and VPN endpoint connectivity." ++
        (if out.log_tail = "" then "" else "\nOpenVPN log tail:\n" ++ out.log_tail))),
        (kill_openvpn_daemon out.refused m).2)
  | .ok (some iface) :: _, m => (.ok iface, m)
  | .ok none :: rest, m => wait_for_tunnel out rest m
  | .error e :: _, m => (.error e, m)

/-- The tunnel is brought up unless there is one. -/
def bring_up (out : Outside) (t : Tunnel) (m : Machine) : Except ConnectError Unit × Machine :=
  match t.iface with
  | .error e => (.error e, m)
  | .ok (some _) => (.ok (), m)
  | .ok none =>
      match start_openvpn t.launch m with
      | (.error e, m) => (.error e, m)
      | (.ok _, m) =>
          match wait_for_tunnel out t.polls m with
          | (.error e, m) => (.error e, m)
          | (.ok _, m) => (.ok (), m)

/-! ## Connecting -/

variable (P : Pydantic) (C : JsonCodec) (L : Lowercase) (S : Services) (runtime_dir : String)
variable (umask : Nat) (disk : Disk) (out : Outside)

/-- `ensure_persisted_vpn` brings the tunnel up only if there is a config and a profile, and
the node is to do so. -/
def Restores (s : Settings) : Prop :=
  (disk (persisted_config_path runtime_dir)).isSome ∧ s.node_auto_vpn = true ∧
    (disk s.node_vpn_profile_path).isSome

/-- `ensure_persisted_vpn`. -/
def ensure_persisted_vpn_on (s : Settings) (m : Machine) : Except ConnectError Unit × Machine :=
  if (disk (persisted_config_path runtime_dir)).isNone then (.ok (), m)
  else if s.node_auto_vpn = false then (.ok (), m)
  else if (disk s.node_vpn_profile_path).isNone then
    if s.vpn_required then
      (.error (.of_message
        "Persisted VPN profile not found. Re-run node provisioning with a new token."), m)
    else (.ok (), m)
  else bring_up out out.restored m

/-- The bundle of `connect_settings`. -/
def fetch_bundle_on (s : Settings) (m : Machine) :
    Except ConnectError (List (String × Json)) × Machine :=
  if s.node_token ≠ "" then (S.fetch_node_bundle s, m)
  else
    match ensure_persisted_vpn_on runtime_dir disk out s m with
    | (.error e, m) => (.error e, m)
    | (.ok _, m) => (S.fetch_reconnect_bundle s, m)

/-- `apply_node_bundle` up to the profile: the settings, and the `vpn` object. -/
def apply_settings (bundle : List (String × Json)) (s : Settings) :
    Except ConnectError (Settings × Option (List (String × Json))) := do
  let s ← apply_identity P S disk bundle s
  let s ← apply_credentials S disk bundle s
  let s ← apply_endpoints S disk bundle s
  match bundle.lookup "vpn" with
  | some (.obj vpn) =>
      let s ← apply_vpn P S disk vpn s
      pure (s, some vpn)
  | _ => pure (s, none)

/-- The text of the profile, if there is one to be installed. -/
def profile_to_install (vpn : List (String × Json)) (s : Settings) :
    Except ConnectError (Option Text) :=
  match nonempty_str (vpn.lookup "client_profile_ovpn") with
  | none =>
      if s.vpn_required then
        .error (.of_message ("VPN is required but node response did not include a VPN profile. " ++
          "Check VPN infrastructure status in the coda admin panel."))
      else .ok none
  | some profile =>
      if s.node_auto_vpn then do
        let text ← (Vpn.write_vpn_profile L profile.toList).mapError .node
        match out.profile_error with
        | some message => .error (.other message)
        | none => pure (some text)
      else .ok none

/-- What `apply_node_bundle` comes to before a tunnel is needed: the settings, and the
profile that has been written. -/
def prepare (bundle : List (String × Json)) (s : Settings) :
    Except ConnectError (Settings × Option Text) := do
  let (s, vpn) ← apply_settings P S disk bundle s
  match vpn with
  | none => pure (s, none)
  | some vpn =>
      let profile ← profile_to_install L out vpn s
      pure (s, profile)

/-- `apply_node_bundle`. -/
def apply_node_bundle_on (bundle : List (String × Json)) (s : Settings) (m : Machine) :
    Except ConnectError (Settings × Disk) × Machine :=
  match prepare P L S disk out bundle s with
  | .error e => (.error e, m)
  | .ok (s, none) => (.ok (s, disk), m)
  | .ok (s, some text) =>
      match bring_up out out.applied m with
      | (.error e, m) => (.error e, m)
      | (.ok _, m) =>
          (.ok (s, run_steps umask disk (write_secure_text s.node_vpn_profile_path text)), m)

/-- `_persist_runtime_config`, which may fail. -/
def persist_on (s : Settings) (disk : Disk) : Except ConnectError (Settings × Disk) :=
  match out.config_error with
  | some message => .error (.other message)
  | none => .ok (s, run_steps umask disk (persist_runtime_config C runtime_dir s))

/-- The `try` block of `connect_settings`. -/
def apply_and_persist (bundle : List (String × Json)) (s : Settings) (m : Machine) :
    Except ConnectError (Settings × Disk) × Machine :=
  match apply_node_bundle_on P L S umask disk out bundle s m with
  | (.error e, m) => (.error e, m)
  | (.ok (s, disk), m) => (persist_on C runtime_dir umask out s disk, m)

/-- `connect_settings` once the fingerprint is there. No assignment changes the token. -/
def connect_fingerprinted (s : Settings) (m : Machine) :
    Except ConnectError (Settings × Disk) × Machine :=
  match fetch_bundle_on S runtime_dir disk out s m with
  | (.error e, m) => (.error e, m)
  | (.ok bundle, m) =>
      match apply_and_persist P C L S runtime_dir umask disk out bundle s m with
      | (.ok connected, m) => (.ok connected, m)
      | (.error e, m) =>
          if s.node_token ≠ "" then (.error e, (kill_openvpn_daemon out.refused m).2)
          else (.error e, m)

/-- `connect_settings`. -/
def connect_settings_on (s : Settings) (m : Machine) :
    Except ConnectError (Settings × Disk) × Machine :=
  match resolve_machine_fingerprint S disk s with
  | .error e => (.error e, m)
  | .ok s => connect_fingerprinted P C L S runtime_dir umask disk out s m

/-! ## What is left of a daemon -/

/-- The daemon that bringing up the tunnel starts. -/
def Tunnel.started (t : Tunnel) : Option Nat :=
  match t.iface, t.launch with
  | .ok none, .daemon pid => some pid
  | _, _ => none

/-- No interface appears before the timeout. -/
def Tunnel.TimedOut (t : Tunnel) : Prop := ∀ poll ∈ t.polls, poll = .ok none

/-- The PID file names a daemon that would be killed. -/
def Endangered (refused : Nat → Bool) (m : Machine) : Prop :=
  ∃ pid, m.pid_file = some (some pid) ∧ pid ∈ m.daemons ∧ refused pid = false

/-- A new process has a number of its own. -/
structure NewPids (m : Machine) : Prop where
  restored : ∀ pid, out.restored.started = some pid → pid ∉ m.daemons
  applied : ∀ pid, out.applied.started = some pid →
    pid ∉ m.daemons ∧ out.restored.started ≠ some pid

/-- Applying the bundle starts the daemon. -/
def Launches (bundle : List (String × Json)) (s : Settings) (pid : Nat) : Prop :=
  (∃ s' text, prepare P L S disk out bundle s = .ok (s', some text)) ∧
    out.applied.started = some pid

/-- With a token, the connect fails before it applies a bundle, or it starts a daemon that
may be signalled, or the PID file names none. Without a token, each daemon that it starts is
one whose tunnel does not appear and that may be signalled. -/
def Undisturbed (s : Settings) (m : Machine) : Prop :=
  ∀ s', resolve_machine_fingerprint S disk s = .ok s' →
    if s'.node_token ≠ "" then
      ∀ bundle, S.fetch_node_bundle s' = .ok bundle →
        (∀ pid, Launches P L S disk out bundle s' pid → out.refused pid = false) ∧
          ((∀ pid, ¬ Launches P L S disk out bundle s' pid) → ¬ Endangered out.refused m)
    else
      (Restores runtime_dir disk s' → ∀ pid, out.restored.started = some pid →
        out.restored.TimedOut ∧ out.refused pid = false) ∧
      ∀ bundle, (ensure_persisted_vpn_on runtime_dir disk out s' m).1 = .ok () →
        S.fetch_reconnect_bundle s' = .ok bundle → ∀ pid, Launches P L S disk out bundle s' pid →
          out.applied.TimedOut ∧ out.refused pid = false

section Machine

variable {P C L S runtime_dir umask disk out}
variable {m : Machine} {t : Tunnel} {pid : Nat}

/-- The machine with the new daemon. -/
def Machine.with_daemon (m : Machine) (pid : Nat) : Machine where
  daemons := m.daemons ++ [pid]
  pid_file := some (some pid)

theorem kill_pid_file (refused : Nat → Bool) (m : Machine) :
    (kill_openvpn_daemon refused m).2.pid_file = none := by
  unfold kill_openvpn_daemon
  split
  · assumption
  · rfl
  · split <;> rfl

/-- Killing spares the daemons exactly if it finds none. -/
theorem kill_spares_iff (refused : Nat → Bool) (m : Machine) :
    (kill_openvpn_daemon refused m).2.daemons = m.daemons ↔ ¬ Endangered refused m := by
  unfold kill_openvpn_daemon Endangered
  split
  · next hfile => simp [hfile]
  · next hfile => simp [hfile]
  · next pid hfile =>
      by_cases hkill : pid ∈ m.daemons ∧ refused pid = false
      · rw [if_pos hkill]
        refine iff_of_false (fun heq => ?_) fun h => h ⟨pid, hfile, hkill⟩
        have heq' : m.daemons.filter (· ≠ pid) = m.daemons := heq
        have hmem : pid ∈ m.daemons.filter (· ≠ pid) := heq'.symm ▸ hkill.1
        simpa using (List.mem_filter.1 hmem).2
      · rw [if_neg hkill]
        refine iff_of_true rfl ?_
        rintro ⟨pid', hfile', hmem⟩
        rw [hfile] at hfile'
        cases hfile'
        exact hkill hmem

/-- A new daemon is killed exactly if it may be signalled. -/
theorem kill_new (hnew : pid ∉ m.daemons) (refused : Nat → Bool) :
    (kill_openvpn_daemon refused (m.with_daemon pid)).2.daemons = m.daemons ↔
      refused pid = false := by
  have hmem : pid ∈ (m.with_daemon pid).daemons := List.mem_append_right _ List.mem_cons_self
  show (if pid ∈ (m.with_daemon pid).daemons ∧ refused pid = false then _ else _ :
    Bool × Machine).2.daemons = _ ↔ _
  by_cases hrefused : refused pid = false
  · rw [if_pos ⟨hmem, hrefused⟩]
    refine iff_of_true ?_ hrefused
    show (m.daemons ++ [pid]).filter (· ≠ pid) = m.daemons
    have hkeep : m.daemons.filter (· ≠ pid) = m.daemons := by
      refine List.filter_eq_self.2 fun q hq => ?_
      rw [decide_eq_true_eq]
      rintro rfl
      exact hnew hq
    rw [List.filter_append, hkeep]
    simp
  · rw [if_neg fun h => hrefused h.2]
    refine iff_of_false (fun heq => ?_) hrefused
    rw [heq] at hmem
    exact hnew hmem

variable (out) in
theorem wait_timed_out {polls : List (Except ConnectError (Option Text))}
    (h : ∀ poll ∈ polls, poll = .ok none) (m : Machine) :
    ∃ e, wait_for_tunnel out polls m = (.error e, (kill_openvpn_daemon out.refused m).2) := by
  induction polls with
  | nil => exact ⟨_, rfl⟩
  | cons poll rest ih =>
      rw [List.forall_mem_cons] at h
      rw [h.1]
      exact ih h.2

variable (out) in
theorem wait_leaves {polls : List (Except ConnectError (Option Text))}
    (h : ¬ ∀ poll ∈ polls, poll = .ok none) (m : Machine) :
    (wait_for_tunnel out polls m).2 = m := by
  induction polls with
  | nil => exact absurd (fun _ hpoll => nomatch hpoll) h
  | cons poll rest ih =>
      match poll with
      | .ok (some _) => rfl
      | .error _ => rfl
      | .ok none => exact ih fun hrest => h (List.forall_mem_cons.2 ⟨rfl, hrest⟩)

/-- If no daemon is started the machine stays as it is. -/
theorem bring_up_none (h : t.started = none) (m : Machine) : (bring_up out t m).2 = m := by
  unfold Tunnel.started at h
  unfold bring_up
  split
  · rfl
  · rfl
  · next hiface =>
      rw [hiface] at h
      cases hlaunch : t.launch with
      | daemon pid =>
          rw [hlaunch] at h
          cases h
      | _ => rfl

variable (out) in
/-- If one is, it runs unless the tunnel does not appear. -/
theorem bring_up_some (h : t.started = some pid) (m : Machine) :
    (t.TimedOut → ∃ e, bring_up out t m =
      (.error e, (kill_openvpn_daemon out.refused (m.with_daemon pid)).2)) ∧
    (¬ t.TimedOut → (bring_up out t m).2 = m.with_daemon pid) := by
  unfold Tunnel.started at h
  split at h
  · next pid' hiface hlaunch =>
      cases h
      have hstart : start_openvpn t.launch m = (.ok (), m.with_daemon pid) := by
        rw [hlaunch]
        rfl
      unfold bring_up
      rw [hiface, hstart]
      constructor
      · intro htimed
        obtain ⟨e, he⟩ := wait_timed_out out htimed (m.with_daemon pid)
        exact ⟨e, by simp only [he]⟩
      · intro htimed
        have hleaves := wait_leaves out htimed (m.with_daemon pid)
        cases hwait : wait_for_tunnel out t.polls (m.with_daemon pid) with
        | mk r m' =>
            rw [hwait] at hleaves
            simp only [hwait]
            cases r <;> exact hleaves
  · cases h

/-- After the tunnel was to be brought up, the daemons are as before exactly if none was
started, or the one that was is killed. -/
theorem bring_up_daemons_iff (hnew : ∀ pid, t.started = some pid → pid ∉ m.daemons) :
    (bring_up out t m).2.daemons = m.daemons ↔
      ∀ pid, t.started = some pid → t.TimedOut ∧ out.refused pid = false := by
  cases hstarted : t.started with
  | none =>
      rw [bring_up_none hstarted]
      exact iff_of_true rfl fun pid hpid => nomatch hpid
  | some pid =>
      obtain ⟨htimed, hleft⟩ := bring_up_some out hstarted m
      have hpid := hnew pid hstarted
      by_cases htimeout : t.TimedOut
      · obtain ⟨e, he⟩ := htimed htimeout
        rw [he]
        refine (kill_new hpid out.refused).trans ⟨fun h pid' hpid' => ?_, fun h => ?_⟩
        · cases hpid'
          exact ⟨htimeout, h⟩
        · exact (h pid rfl).2
      · rw [hleft htimeout]
        refine iff_of_false (fun heq => ?_) fun h => htimeout (h pid rfl).1
        have hmem : pid ∈ (m.with_daemon pid).daemons :=
          List.mem_append_right _ List.mem_cons_self
        rw [heq] at hmem
        exact hpid hmem

/-- The cleanup after a failure with a token: a daemon that was started is killed, by the
wait or by the cleanup; if none was, the one that the PID file names is. -/
theorem cleanup_daemons_iff (hnew : ∀ pid, t.started = some pid → pid ∉ m.daemons) :
    (kill_openvpn_daemon out.refused (bring_up out t m).2).2.daemons = m.daemons ↔
      (∀ pid, t.started = some pid → out.refused pid = false) ∧
        ((∀ pid, t.started ≠ some pid) → ¬ Endangered out.refused m) := by
  cases hstarted : t.started with
  | none =>
      rw [bring_up_none hstarted, kill_spares_iff]
      constructor
      · exact fun h => ⟨fun pid hpid => (nomatch hpid), fun _ => h⟩
      · exact fun h => h.2 fun pid hpid => nomatch hpid
  | some pid =>
      have hpid := hnew pid hstarted
      obtain ⟨htimed, hleft⟩ := bring_up_some out hstarted m
      have hkilled : (kill_openvpn_daemon out.refused (bring_up out t m).2).2.daemons =
          (kill_openvpn_daemon out.refused (m.with_daemon pid)).2.daemons := by
        by_cases htimeout : t.TimedOut
        · -- the wait has killed it already, and has removed the PID file
          obtain ⟨e, he⟩ := htimed htimeout
          rw [he, kill_openvpn_daemon, kill_pid_file]
        · rw [hleft htimeout]
      rw [hkilled, kill_new hpid]
      refine ⟨fun h => ⟨fun pid' hpid' => ?_, fun hnone => absurd rfl (hnone pid)⟩, fun h => ?_⟩
      · cases hpid'
        exact h
      · exact h.1 pid rfl

/-! ## Applying a bundle -/

variable {bundle : List (String × Json)} {s : Settings}

theorem apply_and_persist_machine :
    (apply_and_persist P C L S runtime_dir umask disk out bundle s m).2 =
      (apply_node_bundle_on P L S umask disk out bundle s m).2 := by
  unfold apply_and_persist
  split <;> next heq => rw [heq]

/-- A bundle without a profile to install leaves the machine alone. -/
theorem apply_leaves (h : ∀ s' text, prepare P L S disk out bundle s ≠ .ok (s', some text)) :
    (apply_node_bundle_on P L S umask disk out bundle s m).2 = m := by
  unfold apply_node_bundle_on
  split
  · rfl
  · rfl
  · next s' text heq => exact absurd heq (h s' text)

/-- Otherwise the tunnel is brought up. -/
theorem apply_brings_up {s' : Settings} {text : Text}
    (h : prepare P L S disk out bundle s = .ok (s', some text)) :
    (apply_node_bundle_on P L S umask disk out bundle s m).2 = (bring_up out out.applied m).2 := by
  unfold apply_node_bundle_on
  rw [h]
  cases hup : bring_up out out.applied m with
  | mk r m' =>
      cases r <;> rfl

/-- Without the cleanup, the daemons are as before exactly if none was started, or the one
that was is killed by the wait. -/
theorem apply_daemons_iff (hnew : ∀ pid, out.applied.started = some pid → pid ∉ m.daemons) :
    (apply_and_persist P C L S runtime_dir umask disk out bundle s m).2.daemons = m.daemons ↔
      ∀ pid, Launches P L S disk out bundle s pid →
        out.applied.TimedOut ∧ out.refused pid = false := by
  rw [apply_and_persist_machine]
  by_cases hprepared : ∃ s' text, prepare P L S disk out bundle s = .ok (s', some text)
  · obtain ⟨s', text, heq⟩ := hprepared
    rw [apply_brings_up heq, bring_up_daemons_iff hnew]
    exact forall_congr' fun pid => ⟨fun h hl => h hl.2, fun h hs => h ⟨⟨s', text, heq⟩, hs⟩⟩
  · rw [apply_leaves fun s' text heq => hprepared ⟨s', text, heq⟩]
    exact iff_of_true rfl fun pid hl => absurd hl.1 hprepared

/-- With the cleanup. -/
theorem cleanup_apply_iff (hnew : ∀ pid, out.applied.started = some pid → pid ∉ m.daemons) :
    (kill_openvpn_daemon out.refused
        (apply_and_persist P C L S runtime_dir umask disk out bundle s m).2).2.daemons =
      m.daemons ↔
      (∀ pid, Launches P L S disk out bundle s pid → out.refused pid = false) ∧
        ((∀ pid, ¬ Launches P L S disk out bundle s pid) → ¬ Endangered out.refused m) := by
  rw [apply_and_persist_machine]
  by_cases hprepared : ∃ s' text, prepare P L S disk out bundle s = .ok (s', some text)
  · obtain ⟨s', text, heq⟩ := hprepared
    have hlaunches : ∀ pid, Launches P L S disk out bundle s pid ↔
        out.applied.started = some pid :=
      fun pid => ⟨fun hl => hl.2, fun hs => ⟨⟨s', text, heq⟩, hs⟩⟩
    rw [apply_brings_up heq, cleanup_daemons_iff hnew]
    simp only [hlaunches, ne_eq]
  · rw [apply_leaves fun s' text heq => hprepared ⟨s', text, heq⟩, kill_spares_iff]
    have hnone : ∀ pid, ¬ Launches P L S disk out bundle s pid := fun pid hl =>
      hprepared hl.1
    exact ⟨fun h => ⟨fun pid hl => absurd hl (hnone pid), fun _ => h⟩, fun h => h.2 hnone⟩

/-- A daemon that the PID file does not name is not killed. -/
theorem kill_keeps {refused : Nat → Bool} (hmem : pid ∈ m.daemons)
    (hfile : m.pid_file ≠ some (some pid)) : pid ∈ (kill_openvpn_daemon refused m).2.daemons := by
  unfold kill_openvpn_daemon
  split
  · exact hmem
  · exact hmem
  · next q hq =>
      split
      · refine List.mem_filter.2 ⟨hmem, ?_⟩
        rw [decide_eq_true_eq]
        rintro rfl
        exact hfile hq
      · exact hmem

/-- Bringing up the tunnel kills no daemon but the new one. -/
theorem bring_up_keeps (hmem : pid ∈ m.daemons) (hother : t.started ≠ some pid) :
    pid ∈ (bring_up out t m).2.daemons := by
  cases hstarted : t.started with
  | none =>
      rw [bring_up_none hstarted]
      exact hmem
  | some q =>
      obtain ⟨htimed, hleft⟩ := bring_up_some out hstarted m
      have hmem' : pid ∈ (m.with_daemon q).daemons := List.mem_append_left _ hmem
      by_cases htimeout : t.TimedOut
      · obtain ⟨e, he⟩ := htimed htimeout
        rw [he]
        refine kill_keeps hmem' fun hfile => hother ?_
        cases hfile
        exact hstarted
      · rw [hleft htimeout]
        exact hmem'

theorem apply_keeps (hmem : pid ∈ m.daemons) (hother : out.applied.started ≠ some pid) :
    pid ∈ (apply_and_persist P C L S runtime_dir umask disk out bundle s m).2.daemons := by
  rw [apply_and_persist_machine]
  by_cases hprepared : ∃ s' text, prepare P L S disk out bundle s = .ok (s', some text)
  · obtain ⟨s', text, heq⟩ := hprepared
    rw [apply_brings_up heq]
    exact bring_up_keeps hmem hother
  · rw [apply_leaves fun s' text heq => hprepared ⟨s', text, heq⟩]
    exact hmem

/-! ## Restoring the tunnel -/

theorem ensure_restores (h : Restores runtime_dir disk s) :
    ensure_persisted_vpn_on runtime_dir disk out s m = bring_up out out.restored m := by
  obtain ⟨hconfig, hauto, hprofile⟩ := h
  unfold ensure_persisted_vpn_on
  rw [if_neg (by simp [Option.isSome_iff_ne_none.1 hconfig]), if_neg (by simp [hauto]),
    if_neg (by simp [Option.isSome_iff_ne_none.1 hprofile])]

theorem ensure_leaves (h : ¬ Restores runtime_dir disk s) :
    (ensure_persisted_vpn_on runtime_dir disk out s m).2 = m := by
  unfold ensure_persisted_vpn_on
  split
  · rfl
  · next hconfig =>
      split
      · rfl
      · next hauto =>
          split
          · split <;> rfl
          · next hprofile =>
              refine absurd ⟨?_, ?_, ?_⟩ h
              · exact Option.isSome_iff_ne_none.2 (by simpa using hconfig)
              · simpa using hauto
              · exact Option.isSome_iff_ne_none.2 (by simpa using hprofile)

theorem ensure_daemons_iff (hnew : ∀ pid, out.restored.started = some pid → pid ∉ m.daemons) :
    (ensure_persisted_vpn_on runtime_dir disk out s m).2.daemons = m.daemons ↔
      (Restores runtime_dir disk s → ∀ pid, out.restored.started = some pid →
        out.restored.TimedOut ∧ out.refused pid = false) := by
  by_cases hrestores : Restores runtime_dir disk s
  · rw [ensure_restores hrestores, bring_up_daemons_iff hnew]
    exact ⟨fun h _ => h, fun h => h hrestores⟩
  · rw [ensure_leaves hrestores]
    exact iff_of_true rfl fun h => absurd h hrestores

variable (runtime_dir disk out s m) in
/-- Once the tunnel is restored, the machine is as before, or a new daemon runs. -/
theorem ensure_ok (h : (ensure_persisted_vpn_on runtime_dir disk out s m).1 = .ok ()) :
    (ensure_persisted_vpn_on runtime_dir disk out s m).2 = m ∨
      ∃ pid, Restores runtime_dir disk s ∧ out.restored.started = some pid ∧
        ¬ out.restored.TimedOut ∧
        (ensure_persisted_vpn_on runtime_dir disk out s m).2 = m.with_daemon pid := by
  by_cases hrestores : Restores runtime_dir disk s
  · rw [ensure_restores hrestores] at h ⊢
    cases hstarted : out.restored.started with
    | none => exact .inl (bring_up_none hstarted m)
    | some pid =>
        obtain ⟨htimed, hleft⟩ := bring_up_some out hstarted m
        by_cases htimeout : out.restored.TimedOut
        · obtain ⟨e, he⟩ := htimed htimeout
          rw [he] at h
          cases h
        · exact .inr ⟨pid, hrestores, rfl, htimeout, hleft htimeout⟩
  · exact .inl (ensure_leaves hrestores)

/-! ## With and without a token -/

theorem failed_with_token_iff (hnew : NewPids out m) (htoken : s.node_token ≠ "")
    {e : ConnectError}
    (hfails : (connect_fingerprinted P C L S runtime_dir umask disk out s m).1 = .error e) :
    (connect_fingerprinted P C L S runtime_dir umask disk out s m).2.daemons = m.daemons ↔
      ∀ bundle, S.fetch_node_bundle s = .ok bundle →
        (∀ pid, Launches P L S disk out bundle s pid → out.refused pid = false) ∧
          ((∀ pid, ¬ Launches P L S disk out bundle s pid) → ¬ Endangered out.refused m) := by
  unfold connect_fingerprinted fetch_bundle_on at *
  simp only [if_pos htoken] at hfails ⊢
  cases hfetch : S.fetch_node_bundle s with
  | error e' => exact iff_of_true rfl fun bundle hb => nomatch hb
  | ok bundle =>
      simp only [hfetch] at hfails ⊢
      have hcleanup : (kill_openvpn_daemon out.refused
          (apply_and_persist P C L S runtime_dir umask disk out bundle s m).2).2.daemons =
            m.daemons ↔ _ :=
        cleanup_apply_iff fun pid hpid => (hnew.applied pid hpid).1
      cases happly : apply_and_persist P C L S runtime_dir umask disk out bundle s m with
      | mk r m' =>
          rw [happly] at hcleanup
          simp only [happly] at hfails ⊢
          cases r with
          | ok connected => cases hfails
          | error e' =>
              refine hcleanup.trans ⟨fun h b hb => ?_, fun h => h bundle rfl⟩
              cases hb
              exact h

theorem failed_without_token_iff (hnew : NewPids out m) (htoken : ¬ s.node_token ≠ "")
    {e : ConnectError}
    (hfails : (connect_fingerprinted P C L S runtime_dir umask disk out s m).1 = .error e) :
    (connect_fingerprinted P C L S runtime_dir umask disk out s m).2.daemons = m.daemons ↔
      (Restores runtime_dir disk s → ∀ pid, out.restored.started = some pid →
        out.restored.TimedOut ∧ out.refused pid = false) ∧
      ∀ bundle, (ensure_persisted_vpn_on runtime_dir disk out s m).1 = .ok () →
        S.fetch_reconnect_bundle s = .ok bundle → ∀ pid, Launches P L S disk out bundle s pid →
          out.applied.TimedOut ∧ out.refused pid = false := by
  have hensure : (ensure_persisted_vpn_on runtime_dir disk out s m).2.daemons = m.daemons ↔ _ :=
    ensure_daemons_iff hnew.restored
  have hensured := ensure_ok runtime_dir disk out m s
  unfold connect_fingerprinted fetch_bundle_on at *
  simp only [if_neg htoken] at hfails ⊢
  cases hrestored : ensure_persisted_vpn_on runtime_dir disk out s m with
  | mk r m' =>
      rw [hrestored] at hensure hensured
      simp only [hrestored] at hfails ⊢
      cases r with
      | error e' => exact hensure.trans ⟨fun h => ⟨h, fun b hb => nomatch hb⟩, fun h => h.1⟩
      | ok u =>
          simp only at hfails ⊢
          cases hfetch : S.fetch_reconnect_bundle s with
          | error e' =>
              exact hensure.trans ⟨fun h => ⟨h, fun b _ hb => nomatch hb⟩, fun h => h.1⟩
          | ok bundle =>
              simp only [hfetch] at hfails ⊢
              cases happly : apply_and_persist P C L S runtime_dir umask disk out bundle s m' with
              | mk r m'' =>
                  simp only [happly] at hfails ⊢
                  cases r with
                  | ok connected => cases hfails
                  | error e' =>
                      have hm : m'' = (apply_and_persist P C L S runtime_dir umask disk out
                          bundle s m').2 := by rw [happly]
                      rw [hm]
                      rcases hensured rfl with rfl | ⟨pid, hrestores, hstarted, htimeout, rfl⟩
                      · refine (apply_daemons_iff fun pid hpid => (hnew.applied pid hpid).1).trans
                          ⟨fun h => ⟨hensure.1 rfl, fun b _ hb => ?_⟩, fun h => h.2 bundle trivial rfl⟩
                        cases hb
                        exact h
                      · -- the daemon of the restored tunnel runs on
                        have hmem : pid ∈ (m.with_daemon pid).daemons :=
                          List.mem_append_right _ List.mem_cons_self
                        have hother : out.applied.started ≠ some pid := fun happlied =>
                          (hnew.applied pid happlied).2 hstarted
                        refine iff_of_false (fun heq => ?_) fun h =>
                          htimeout (h.1 hrestores pid hstarted).1
                        have hkept : pid ∈ (apply_and_persist P C L S runtime_dir umask disk out
                          bundle s (m.with_daemon pid)).2.daemons := apply_keeps hmem hother
                        rw [heq] at hkept
                        exact hnew.restored pid hstarted hkept

end Machine

/-! ## Without daemons -/

/-- The tunnels come up as in the plain model, and nothing hinders a write. -/
structure Plain (S : Services) (out : Outside) : Prop where
  restored : ∀ s m, (bring_up out out.restored m).1 = S.tunnel s
  applied : ∀ s m, (bring_up out out.applied m).1 = S.tunnel s
  profile : out.profile_error = none
  config : out.config_error = none

section Plain

variable {P C L S runtime_dir umask disk out}

theorem ensure_persisted_vpn_on_eq (hplain : Plain S out) (s : Settings) (m : Machine) :
    (ensure_persisted_vpn_on runtime_dir disk out s m).1 =
      ensure_persisted_vpn S runtime_dir disk s := by
  unfold ensure_persisted_vpn_on ensure_persisted_vpn
  split
  · rfl
  · split
    · rfl
    · split
      · split <;> rfl
      · exact hplain.restored s m

theorem ok_bind {ε α β : Type} (a : α) (f : α → Except ε β) :
    (Except.ok a >>= f) = f a := rfl

/-- `apply_node_bundle` is the settings first, and then the profile. -/
theorem apply_node_bundle_eq (bundle : List (String × Json)) (s : Settings) :
    apply_node_bundle P L S umask disk bundle s =
      apply_settings P S disk bundle s >>= fun (s, vpn) =>
        match vpn with
        | none => pure (s, disk)
        | some vpn => install_vpn L S umask disk vpn s >>= fun disk => pure (s, disk) := by
  unfold apply_node_bundle apply_settings
  simp only [bind_assoc]
  congr
  funext s
  congr
  funext s
  congr
  funext s
  cases bundle.lookup "vpn" with
  | none => rfl
  | some vpn =>
      cases vpn with
      | obj vpn =>
          simp only [bind_assoc]
          rfl
      | _ => rfl

/-- The profile is written, and then the tunnel is brought up. -/
theorem install_vpn_eq (hplain : Plain S out) (vpn : List (String × Json)) (s : Settings)
    (m : Machine) : install_vpn L S umask disk vpn s =
      profile_to_install L out vpn s >>= fun profile =>
        match profile with
        | none => pure disk
        | some text => (bring_up out out.applied m).1 >>= fun _ =>
            pure (run_steps umask disk (write_secure_text s.node_vpn_profile_path text)) := by
  unfold install_vpn profile_to_install
  rw [hplain.profile, hplain.applied s m]
  cases nonempty_str (vpn.lookup "client_profile_ovpn") with
  | none =>
      simp only
      split <;> rfl
  | some profile =>
      simp only
      split
      · rw [bind_assoc]
        rfl
      · rfl

theorem apply_node_bundle_on_eq (hplain : Plain S out) (bundle : List (String × Json))
    (s : Settings) (m : Machine) : (apply_node_bundle_on P L S umask disk out bundle s m).1 =
      apply_node_bundle P L S umask disk bundle s := by
  rw [apply_node_bundle_eq]
  unfold apply_node_bundle_on prepare
  cases apply_settings P S disk bundle s with
  | error e => rfl
  | ok r =>
      obtain ⟨s, _ | vpn⟩ := r
      · rfl
      · simp only [ok_bind, install_vpn_eq hplain vpn s m]
        cases profile_to_install L out vpn s with
        | error e => rfl
        | ok profile =>
            cases profile with
            | none => rfl
            | some text =>
                simp only [ok_bind, pure, Except.pure]
                cases bring_up out out.applied m with
                | mk r m' => cases r <;> rfl

theorem fetch_bundle_on_eq (hplain : Plain S out) (s : Settings) (m : Machine) :
    (fetch_bundle_on S runtime_dir disk out s m).1 = fetch_bundle S runtime_dir disk s := by
  unfold fetch_bundle_on fetch_bundle
  split
  · rfl
  · rw [← ensure_persisted_vpn_on_eq hplain s m]
    cases ensure_persisted_vpn_on runtime_dir disk out s m with
    | mk r m' => cases r <;> rfl

theorem apply_and_persist_eq (hplain : Plain S out) (bundle : List (String × Json))
    (s : Settings) (m : Machine) :
    (apply_and_persist P C L S runtime_dir umask disk out bundle s m).1 =
      apply_node_bundle P L S umask disk bundle s >>= fun (s, disk) =>
        pure (s, run_steps umask disk (persist_runtime_config C runtime_dir s)) := by
  unfold apply_and_persist persist_on
  rw [← apply_node_bundle_on_eq hplain bundle s m, hplain.config]
  cases apply_node_bundle_on P L S umask disk out bundle s m with
  | mk r m' => cases r <;> rfl

/-- Then the connect is that of `Config/Connect.lean`. -/
theorem connect_settings_on_eq (hplain : Plain S out) (s : Settings) (m : Machine) :
    (connect_settings_on P C L S runtime_dir umask disk out s m).1 =
      connect_settings P C L S runtime_dir umask disk s := by
  unfold connect_settings_on connect_fingerprinted connect_settings
  cases resolve_machine_fingerprint S disk s with
  | error e => rfl
  | ok s =>
      simp only [ok_bind]
      rw [← fetch_bundle_on_eq hplain s m]
      cases fetch_bundle_on S runtime_dir disk out s m with
      | mk r m' =>
          cases r with
          | error e => rfl
          | ok bundle =>
              simp only [ok_bind]
              refine Eq.trans ?_ (apply_and_persist_eq hplain bundle s m')
              cases apply_and_persist P C L S runtime_dir umask disk out bundle s m' with
              | mk r m'' =>
                  cases r with
                  | error e =>
                      simp only
                      split <;> rfl
                  | ok connected => rfl

end Plain

/-! ## Failed connects -/

/-- An endpoint that hands out an empty bundle. -/
def empty_handed : Services :=
  { provisioning with fetch_node_bundle := fun _ => .ok [] }

/-- A machine without OpenVPN. -/
def no_openvpn : Outside where
  restored := ⟨.ok none, .not_found, []⟩
  applied := ⟨.ok none, .not_found, []⟩
  refused _ := false
  profile_error := none
  config_error := none
  log_tail := ""

/-- A connect on it starts no daemon. -/
theorem no_openvpn_new (m : Machine) : NewPids no_openvpn m where
  restored _ h := nomatch h
  applied _ h := nomatch h

end CodaNode.Config
