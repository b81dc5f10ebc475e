/-
`Config/Connect.lean` -- provisioning and reconnecting.

`connect_settings` fetches a bundle, applies it to the settings field by field and persists
what has come of it. The endpoint, the tunnel and pydantic's revalidation on assignment are
parameters; whatever they do, a connect that succeeds leaves a key and a key id behind, on
disk as in the settings.
-/
import CodaNode.Config.Build
import CodaNode.Config.Crash

set_option autoImplicit false

namespace CodaNode.Config

/-! ## The surroundings -/

/-- What `connect_settings` raises. -/
inductive ConnectError where
  /-- `NodeError`. -/
  | node (error : Vpn.NodeError)
  /-- `pydantic.ValidationError` of an assignment. -/
  | validation (message : String)
  /-- Anything else, such as an `OSError`. -/
  | other (message : String)
  deriving DecidableEq, Repr

/-- `raise NodeError(message)`. -/
def ConnectError.of_message (message : String) : ConnectError := .node ⟨message⟩

/-- What the node connects with. `tunnel` looks for a tunnel interface and, if there is none,
starts OpenVPN and waits for one. An assignment runs the model validators again (`revalidate`):
these fill blank fields and leave the others. -/
structure Services where
  machine_fingerprint : String
  tunnel : Settings → Except ConnectError Unit
  fetch_node_bundle : Settings → Except ConnectError (List (String × Json))
  fetch_reconnect_bundle : Settings → Except ConnectError (List (String × Json))
  revalidate : Disk → Settings → Except ConnectError Settings
  keeps_key : ∀ disk s s', revalidate disk s = .ok s' → s.jwt_private_key ≠ "" →
    s'.jwt_private_key = s.jwt_private_key
  keeps_key_id : ∀ disk s s', revalidate disk s = .ok s' → s.jwt_key_id ≠ "" →
    s'.jwt_key_id = s.jwt_key_id

variable (P : Pydantic) (C : JsonCodec) (L : Lowercase) (S : Services) (runtime_dir : String)
variable (umask : Nat) (disk : Disk)

/-- `setattr` with a value that has to be validated first. -/
def Services.assign (kind : Kind) (value : Json) (set : kind.Value → Settings) :
    Except ConnectError Settings :=
  match P.parse kind value with
  | none => .error (.validation "Input should be valid")
  | some v => S.revalidate disk (set v)

/-- The same, if there is a value. -/
def Services.assign_json (kind : Kind) (value : Option Json) (set : kind.Value → Settings)
    (s : Settings) : Except ConnectError Settings :=
  match value with
  | some v => S.assign P disk kind v set
  | none => .ok s

/-- An assignment of a value whose type has been checked, if there is one. -/
def Services.assign_some {α : Type} (value : Option α) (set : α → Settings) (s : Settings) :
    Except ConnectError Settings :=
  match value with
  | some v => S.revalidate disk (set v)
  | none => .ok s

/-! ## The bundle -/

/-- `_as_str`. -/
def as_str (data : List (String × Json)) (key : String) : Except ConnectError String :=
  match data.lookup key with
  | some (.str value) =>
      if value = "" then .error (.of_message ("Node response missing valid '" ++ key ++ "'"))
      else .ok value
  | _ => .error (.of_message ("Node response missing valid '" ++ key ++ "'"))

/-- `_as_int`. A `bool` is an `int`. -/
def as_int (data : List (String × Json)) (key : String) (default : Int) :
    Except ConnectError Json :=
  match data.lookup key with
  | none => .ok (.int default)
  | some (.int i) => .ok (.int i)
  | some (.bool b) => .ok (.bool b)
  | some _ => .error (.of_message ("Node response has invalid '" ++ key ++ "'"))

/-- `isinstance(value, str) and value`. -/
def nonempty_str : Option Json → Option String
  | some (.str value) => if value = "" then none else some value
  | _ => none

/-- `bundle.get("qpu_display_name") or bundle.get("qpu_label") or ""`. -/
def display_name (bundle : List (String × Json)) : Json :=
  let name := (bundle.lookup "qpu_display_name").getD .null
  let label := (bundle.lookup "qpu_label").getD .null
  if name.truthy then name else if label.truthy then label else .str ""

/-- `all(isinstance(item, str) for item in probe_targets)`. -/
def all_str : List Json → Option (List String)
  | [] => some []
  | .str s :: rest => (all_str rest).map (s :: ·)
  | _ => none

/-- The identity in the bundle. -/
def apply_identity (bundle : List (String × Json)) (s : Settings) :
    Except ConnectError Settings := do
  let qpu_id ← as_str bundle "qpu_id"
  let s ← S.revalidate disk { s with qpu_id }
  let s ← S.assign P disk .str (display_name bundle)
    fun (name : String) => { s with qpu_display_name := name }
  let native_gate_set ← as_str bundle "native_gate_set"
  let s ← S.revalidate disk { s with native_gate_set }
  let num_qubits ← as_int bundle "num_qubits" s.num_qubits
  S.assign P disk .int num_qubits fun (n : Int) => { s with num_qubits := n }

/-- A credential in the bundle, or the one that is there already. -/
def Services.assign_credential (name : String) (value : Option String) (current : String)
    (set : String → Settings) (s : Settings) : Except ConnectError Settings :=
  match value with
  | some v => S.revalidate disk (set v)
  | none =>
      if current = "" then .error (.of_message ("Node response missing valid '" ++ name ++ "'"))
      else .ok s

/-- The credentials in the bundle. -/
def apply_credentials (bundle : List (String × Json)) (s : Settings) :
    Except ConnectError Settings := do
  let s ← S.assign_credential disk "jwt_private_key"
    (nonempty_str (bundle.lookup "jwt_private_key")) s.jwt_private_key
    (fun jwt_private_key => { s with jwt_private_key }) s
  S.assign_credential disk "jwt_key_id" (nonempty_str (bundle.lookup "jwt_key_id")) s.jwt_key_id
    (fun jwt_key_id => { s with jwt_key_id }) s

/-- The URLs and paths in the bundle. -/
def apply_endpoints (bundle : List (String × Json)) (s : Settings) :
    Except ConnectError Settings := do
  let redis_url ← as_str bundle "redis_url"
  let s ← S.revalidate disk { s with redis_url }
  let webapp_url ← as_str bundle
    (if (bundle.lookup "webapp_url").isSome then "webapp_url" else "cloud_base_url")
  let s ← S.revalidate disk { s with webapp_url }
  let s ← S.assign_some disk (nonempty_str (bundle.lookup "connect_path"))
    (fun connect_path => { s with connect_path }) s
  let s ← S.assign_some disk (nonempty_str (bundle.lookup "heartbeat_path"))
    (fun heartbeat_path => { s with heartbeat_path }) s
  S.assign_some disk (nonempty_str (bundle.lookup "webhook_path"))
    (fun webhook_path => { s with webhook_path }) s

/-- `isinstance(required, bool)`. -/
def bool_of : Option Json → Option Bool
  | some (.bool b) => some b
  | _ => none

/-- `interface_hint is None or isinstance(interface_hint, str)`. -/
def hint_of : Option Json → Option (Option String)
  | none | some .null => some none
  | some (.str hint) => some (some hint)
  | _ => none

/-- `isinstance(interval, int)`. -/
def interval_of : Option Json → Option Json
  | some (.int i) => some (.int i)
  | some (.bool b) => some (.bool b)
  | _ => none

/-- A list of strings that is not empty. -/
def targets_of : Option Json → Option (List String)
  | some (.arr items) => (all_str items).filter (· ≠ [])
  | _ => none

/-- The settings in the `vpn` object of the bundle. -/
def apply_vpn (vpn : List (String × Json)) (s : Settings) : Except ConnectError Settings := do
  let s ← S.assign_some disk (bool_of (vpn.lookup "required"))
    (fun vpn_required => { s with vpn_required }) s
  let s ← S.assign_some disk (hint_of (vpn.lookup "interface_hint"))
    (fun vpn_interface_hint => { s with vpn_interface_hint }) s
  let s ← S.assign_json P disk .int (interval_of (vpn.lookup "check_interval_sec"))
    (fun (i : Int) => { s with vpn_check_interval_sec := i }) s
  S.assign_some disk (targets_of (vpn.lookup "probe_targets"))
    (fun vpn_probe_targets => { s with vpn_probe_targets }) s

/-- The VPN part of `apply_node_bundle`: the profile is written and the tunnel brought up. -/
def install_vpn (vpn : List (String × Json)) (s : Settings) : Except ConnectError Disk :=
  match nonempty_str (vpn.lookup "client_profile_ovpn") with
  | none =>
      if s.vpn_required then
        .error (.of_message ("VPN is required but node response did not include a VPN profile. " ++
          "Check VPN infrastructure status in the coda admin panel."))
      else .ok disk
  | some profile =>
      if s.node_auto_vpn then do
        let text ← (Vpn.write_vpn_profile L profile.toList).mapError .node
        S.tunnel s
        pure (run_steps umask disk (write_secure_text s.node_vpn_profile_path text))
      else .ok disk

/-- `apply_node_bundle`. -/
def apply_node_bundle (bundle : List (String × Json)) (s : Settings) :
    Except ConnectError (Settings × Disk) := do
  let s ← apply_identity P S disk bundle s
  let s ← apply_credentials S disk bundle s
  let s ← apply_endpoints S disk bundle s
  match bundle.lookup "vpn" with
  | some (.obj vpn) =>
      let s ← apply_vpn P S disk vpn s
      let disk ← install_vpn L S umask disk vpn s
      pure (s, disk)
  | _ => pure (s, disk)

/-! ## Connecting -/

/-- `ensure_persisted_vpn`. -/
def ensure_persisted_vpn (s : Settings) : Except ConnectError Unit :=
  if (disk (persisted_config_path runtime_dir)).isNone then .ok ()
  else if s.node_auto_vpn = false then .ok ()
  else if (disk s.node_vpn_profile_path).isNone then
    if s.vpn_required then
      .error (.of_message
        "Persisted VPN profile not found. Re-run node provisioning with a new token.")
    else .ok ()
  else S.tunnel s

/-- `_resolve_machine_fingerprint`. -/
def resolve_machine_fingerprint (s : Settings) : Except ConnectError Settings :=
  S.revalidate disk { s with
    node_machine_fingerprint :=
      if s.node_machine_fingerprint = "" then S.machine_fingerprint
      else s.node_machine_fingerprint }

/-- The bundle of `connect_settings`. The topology that is sent along changes nothing here. -/
def fetch_bundle (s : Settings) : Except ConnectError (List (String × Json)) :=
  if s.node_token ≠ "" then S.fetch_node_bundle s
  else do
    ensure_persisted_vpn S runtime_dir disk s
    S.fetch_reconnect_bundle s

/-- `connect_settings`. -/
def connect_settings (s : Settings) : Except ConnectError (Settings × Disk) := do
  let s ← resolve_machine_fingerprint S disk s
  let bundle ← fetch_bundle S runtime_dir disk s
  let (s, disk) ← apply_node_bundle P L S umask disk bundle s
  pure (s, run_steps umask disk (persist_runtime_config C runtime_dir s))

/-! ## What a connect leaves behind -/

variable {P C L S runtime_dir umask disk}

/-- The credentials are there. -/
def Keyed (s : Settings) : Prop := s.jwt_private_key ≠ "" ∧ s.jwt_key_id ≠ ""

/-- An assignment that touches neither credential leaves them alone. -/
theorem Keyed.revalidate {s s' t : Settings} (h : Keyed s)
    (ht : S.revalidate disk s' = .ok t)
    (hs : s'.jwt_private_key = s.jwt_private_key ∧ s'.jwt_key_id = s.jwt_key_id) : Keyed t := by
  have hkey : s'.jwt_private_key ≠ "" := hs.1 ▸ h.1
  have hid : s'.jwt_key_id ≠ "" := hs.2 ▸ h.2
  refine ⟨?_, ?_⟩
  · rw [S.keeps_key disk s' t ht hkey]
    exact hkey
  · rw [S.keeps_key_id disk s' t ht hid]
    exact hid

theorem nonempty_str_ne {value : Option Json} {s : String} (h : nonempty_str value = some s) :
    s ≠ "" := by
  match value with
  | some (.str t) =>
      rw [nonempty_str] at h
      by_cases ht : t = ""
      · rw [if_pos ht] at h
        cases h
      · rw [if_neg ht] at h
        cases h
        exact ht
  | none | some .null | some (.bool _) | some (.int _) | some (.float _) | some (.arr _)
  | some (.obj _) => cases h

theorem Keyed.assign_some {α : Type} {value : Option α} {set : α → Settings} {s t : Settings}
    (h : Keyed s) (ht : S.assign_some disk value set s = .ok t)
    (hset : ∀ v, (set v).jwt_private_key = s.jwt_private_key ∧
      (set v).jwt_key_id = s.jwt_key_id) : Keyed t := by
  cases value with
  | none =>
      cases ht
      exact h
  | some v => exact h.revalidate ht (hset v)

theorem Keyed.assign_json {kind : Kind} {value : Option Json} {set : kind.Value → Settings}
    {s t : Settings} (h : Keyed s) (ht : S.assign_json P disk kind value set s = .ok t)
    (hset : ∀ v, (set v).jwt_private_key = s.jwt_private_key ∧
      (set v).jwt_key_id = s.jwt_key_id) : Keyed t := by
  cases value with
  | none =>
      cases ht
      exact h
  | some v =>
      have ht : S.assign P disk kind v set = .ok t := ht
      rw [Services.assign] at ht
      cases hp : P.parse kind v with
      | none =>
          rw [hp] at ht
          cases ht
      | some x =>
          rw [hp] at ht
          exact h.revalidate ht (hset x)

/-- After an assignment of a credential there is one. -/
theorem assign_credential_ne (get : Settings → String) {name current : String}
    {value : Option String} {set : String → Settings} {s t : Settings}
    (hkeeps : ∀ s t, S.revalidate disk s = .ok t → get s ≠ "" → get t = get s)
    (hset : ∀ v, get (set v) = v) (hs : get s = current) (hvalue : ∀ v, value = some v → v ≠ "")
    (h : S.assign_credential disk name value current set s = .ok t) : get t ≠ "" := by
  cases value with
  | some v =>
      have hne : get (set v) ≠ "" := by
        rw [hset]
        exact hvalue v rfl
      rw [hkeeps _ _ h hne]
      exact hne
  | none =>
      rw [Services.assign_credential] at h
      by_cases hne : current = ""
      · rw [if_pos hne] at h
        cases h
      · rw [if_neg hne] at h
        cases h
        rw [hs]
        exact hne

/-- The key stays when the key id is assigned. -/
theorem assign_credential_keeps {name current : String} {value : Option String}
    {set : String → Settings} {s t : Settings}
    (h : S.assign_credential disk name value current set s = .ok t)
    (hset : ∀ v, (set v).jwt_private_key = s.jwt_private_key) (hs : s.jwt_private_key ≠ "") :
    t.jwt_private_key = s.jwt_private_key := by
  cases value with
  | some v =>
      have hne : (set v).jwt_private_key ≠ "" := hset v ▸ hs
      rw [S.keeps_key disk _ _ h hne, hset]
  | none =>
      rw [Services.assign_credential] at h
      by_cases hne : current = ""
      · rw [if_pos hne] at h
        cases h
      · rw [if_neg hne] at h
        cases h
        rfl

/-- After the credentials have been applied they are there. -/
theorem keyed_of_credentials {bundle : List (String × Json)} {s t : Settings}
    (h : apply_credentials S disk bundle s = .ok t) : Keyed t := by
  obtain ⟨s₁, h₁, h⟩ := bind_ok.1 h
  have hkey : s₁.jwt_private_key ≠ "" := assign_credential_ne Settings.jwt_private_key
    (S.keeps_key disk) (fun _ => rfl) rfl (fun v hv => nonempty_str_ne hv) h₁
  refine ⟨?_, ?_⟩
  · rw [assign_credential_keeps h (fun _ => rfl) hkey]
    exact hkey
  · exact assign_credential_ne Settings.jwt_key_id (S.keeps_key_id disk) (fun _ => rfl) rfl
      (fun v hv => nonempty_str_ne hv) h

theorem keyed_of_endpoints {bundle : List (String × Json)} {s t : Settings} (hs : Keyed s)
    (h : apply_endpoints S disk bundle s = .ok t) : Keyed t := by
  obtain ⟨url, -, h⟩ := bind_ok.1 h
  obtain ⟨s₁, h₁, h⟩ := bind_ok.1 h
  obtain ⟨url', -, h⟩ := bind_ok.1 h
  obtain ⟨s₂, h₂, h⟩ := bind_ok.1 h
  obtain ⟨s₃, h₃, h⟩ := bind_ok.1 h
  obtain ⟨s₄, h₄, h⟩ := bind_ok.1 h
  have hk₁ : Keyed s₁ := hs.revalidate h₁ ⟨rfl, rfl⟩
  have hk₂ : Keyed s₂ := hk₁.revalidate h₂ ⟨rfl, rfl⟩
  have hk₃ : Keyed s₃ := hk₂.assign_some h₃ fun _ => ⟨rfl, rfl⟩
  have hk₄ : Keyed s₄ := hk₃.assign_some h₄ fun _ => ⟨rfl, rfl⟩
  exact hk₄.assign_some h fun _ => ⟨rfl, rfl⟩

theorem keyed_of_vpn {vpn : List (String × Json)} {s t : Settings} (hs : Keyed s)
    (h : apply_vpn P S disk vpn s = .ok t) : Keyed t := by
  obtain ⟨s₁, h₁, h⟩ := bind_ok.1 h
  obtain ⟨s₂, h₂, h⟩ := bind_ok.1 h
  obtain ⟨s₃, h₃, h⟩ := bind_ok.1 h
  have hk₁ : Keyed s₁ := hs.assign_some h₁ fun _ => ⟨rfl, rfl⟩
  have hk₂ : Keyed s₂ := hk₁.assign_some h₂ fun _ => ⟨rfl, rfl⟩
  have hk₃ : Keyed s₃ := hk₂.assign_json h₃ fun _ => ⟨rfl, rfl⟩
  exact hk₃.assign_some h fun _ => ⟨rfl, rfl⟩

theorem keyed_of_bundle {bundle : List (String × Json)} {s t : Settings} {disk' : Disk}
    (h : apply_node_bundle P L S umask disk bundle s = .ok (t, disk')) : Keyed t := by
  obtain ⟨s₁, h₁, h⟩ := bind_ok.1 h
  obtain ⟨s₂, h₂, h⟩ := bind_ok.1 h
  obtain ⟨s₃, h₃, h⟩ := bind_ok.1 h
  have hk₃ : Keyed s₃ := keyed_of_endpoints (keyed_of_credentials h₂) h₃
  match hvpn : bundle.lookup "vpn" with
  | some (.obj vpn) =>
      rw [hvpn] at h
      obtain ⟨s₄, h₄, h⟩ := bind_ok.1 h
      obtain ⟨disk₁, -, h⟩ := bind_ok.1 h
      cases h
      exact keyed_of_vpn hk₃ h₄
  | none | some .null | some (.bool _) | some (.int _) | some (.float _) | some (.str _)
  | some (.arr _) =>
      rw [hvpn] at h
      cases h
      exact hk₃

/-- After a connect the credentials are there, and the state is on disk. -/
theorem connect_settings_ok {s t : Settings} {disk' : Disk}
    (h : connect_settings P C L S runtime_dir umask disk s = .ok (t, disk')) :
    Keyed t ∧ Kept C runtime_dir (some t) disk' := by
  obtain ⟨s₁, h₁, h⟩ := bind_ok.1 h
  obtain ⟨bundle, h₂, h⟩ := bind_ok.1 h
  obtain ⟨⟨s₃, disk₃⟩, h₃, h⟩ := bind_ok.1 h
  cases h
  exact ⟨keyed_of_bundle h₃, kept_of_persist⟩

end CodaNode.Config
