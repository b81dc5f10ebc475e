/-
`Config/Reconnect.lean` -- what a later start restores.

After a successful connect the disk holds the settings. A later start without a token takes
each persisted field from its environment, if that has a value for it that is not blank, and
from the disk otherwise (`reconnect_restores`); a start with a token never looks at the disk.
-/
import CodaNode.Config.Connect

set_option autoImplicit false

namespace CodaNode.Config

/-! ## What is restored -/

/-- The fields of `Settings`. -/
def settings_fields : List (String × Kind) :=
  [("qpu_id", .str), ("qpu_display_name", .str), ("native_gate_set", .str),
    ("num_qubits", .int), ("redis_url", .str), ("jwt_private_key", .str), ("jwt_key_id", .str),
    ("webapp_url", .str), ("webhook_path", .str), ("connect_path", .str),
    ("heartbeat_path", .str), ("host", .str), ("port", .int), ("vpn_required", .bool),
    ("vpn_check_interval_sec", .int), ("vpn_probe_targets", .str_list),
    ("vpn_interface_hint", .opt_str), ("allow_degraded_startup", .bool), ("node_token", .str),
    ("node_timeout_sec", .int), ("node_machine_fingerprint", .str), ("node_auto_vpn", .bool),
    ("node_vpn_profile_path", .str), ("node_connect_headers", .str_dict),
    ("node_connect_retries", .int), ("shutdown_drain_timeout_sec", .int),
    ("heartbeat_interval_sec", .int), ("executor_factory", .str), ("device_config", .str),
    ("advertised_provider", .str)]

/-- The environment can be decoded, and each value in it is one of its field; a blank value
of a field that is restored need not be. -/
structure ValidEnviron (P : Pydantic) (C : JsonCodec) (environ : Environ) (data : Values) :
    Prop where
  decodes : environ_values C environ = .ok data
  accepted : ∀ field ∈ settings_fields, ∀ value, data field.1 = some value →
    (field.1 ∈ "jwt_private_key" :: persisted_keys → value.blank = false) →
    ∃ v, P.parse field.2 value = some v

/-- The new value is that of the environment, if it is set and not blank, and the old one
otherwise. -/
def Restored (P : Pydantic) (data : Values) (name : String) (kind : Kind)
    (old new : kind.Value) : Prop :=
  match data name with
  | none => new = old
  | some value => if value.blank then new = old else P.parse kind value = some new

/-- Every persisted field is restored. -/
structure Reconnected (P : Pydantic) (data : Values) (old new : Settings) : Prop where
  qpu_id : Restored P data "qpu_id" .str old.qpu_id new.qpu_id
  qpu_display_name :
    Restored P data "qpu_display_name" .str old.qpu_display_name new.qpu_display_name
  native_gate_set :
    Restored P data "native_gate_set" .str old.native_gate_set new.native_gate_set
  num_qubits : Restored P data "num_qubits" .int old.num_qubits new.num_qubits
  jwt_private_key :
    Restored P data "jwt_private_key" .str old.jwt_private_key new.jwt_private_key
  jwt_key_id : Restored P data "jwt_key_id" .str old.jwt_key_id new.jwt_key_id
  redis_url : Restored P data "redis_url" .str old.redis_url new.redis_url
  webapp_url : Restored P data "webapp_url" .str old.webapp_url new.webapp_url
  connect_path : Restored P data "connect_path" .str old.connect_path new.connect_path
  heartbeat_path : Restored P data "heartbeat_path" .str old.heartbeat_path new.heartbeat_path
  webhook_path : Restored P data "webhook_path" .str old.webhook_path new.webhook_path
  vpn_required : Restored P data "vpn_required" .bool old.vpn_required new.vpn_required
  vpn_check_interval_sec : Restored P data "vpn_check_interval_sec" .int
    old.vpn_check_interval_sec new.vpn_check_interval_sec
  vpn_interface_hint :
    Restored P data "vpn_interface_hint" .opt_str old.vpn_interface_hint new.vpn_interface_hint
  vpn_probe_targets :
    Restored P data "vpn_probe_targets" .str_list old.vpn_probe_targets new.vpn_probe_targets
  node_auto_vpn : Restored P data "node_auto_vpn" .bool old.node_auto_vpn new.node_auto_vpn
  node_vpn_profile_path : Restored P data "node_vpn_profile_path" .str
    old.node_vpn_profile_path new.node_vpn_profile_path
  node_machine_fingerprint : Restored P data "node_machine_fingerprint" .str
    old.node_machine_fingerprint new.node_machine_fingerprint

/-! ## Fields -/

variable {P : Pydantic} {C : JsonCodec} {runtime_dir : String} {environ : Environ}
variable {data : Values} {s old : Settings} {disk : Disk} {site : Site}

/-- A field that is in what was persisted. -/
theorem field_restored (name : String) (kind : Kind) (default : kind.Value)
    {items : List (String × Json)} {value : Json} {v : kind.Value}
    (hparse : P.parse kind value = some v) (hitem : (name, value) ∈ items)
    (henv : ValidEnviron P C environ data) (hkeys : (items.map Prod.fst).Nodup)
    (hfield : (name, kind) ∈ settings_fields) :
    ∃ new, P.field (items.foldl merge_item data) name kind default = .ok new ∧
      Restored P data name kind v new := by
  cases hdata : data name with
  | none =>
      have hmerged : items.foldl merge_item data name = some value :=
        merge_filled hkeys (by rw [hdata]; rfl) hitem
      refine ⟨v, ?_, ?_⟩
      · rw [Pydantic.field, hmerged]
        simp only [hparse]
      · rw [Restored, hdata]
  | some given =>
      by_cases hblank : given.blank = true
      · have hmerged : items.foldl merge_item data name = some value :=
          merge_filled hkeys (by rw [hdata]; exact hblank) hitem
        refine ⟨v, ?_, ?_⟩
        · rw [Pydantic.field, hmerged]
          simp only [hparse]
        · rw [Restored, hdata]
          simp only [hblank, if_true]
      · rw [Bool.not_eq_true] at hblank
        obtain ⟨new, hnew⟩ := henv.accepted (name, kind) hfield given hdata fun _ => hblank
        have hmerged : items.foldl merge_item data name = some given := merge_kept hdata hblank
        refine ⟨new, ?_, ?_⟩
        · rw [Pydantic.field, hmerged]
          simp only [hnew]
        · rw [Restored, hdata]
          simp only [hblank, Bool.false_eq_true, if_false, hnew]

/-- A field that is not. -/
theorem field_given (name : String) (kind : Kind) (default : kind.Value)
    {items : List (String × Json)} (hitem : name ∉ items.map Prod.fst)
    (henv : ValidEnviron P C environ data) (hfield : (name, kind) ∈ settings_fields)
    (hname : name ∉ "jwt_private_key" :: persisted_keys) :
    ∃ new, P.field (items.foldl merge_item data) name kind default = .ok new := by
  rw [Pydantic.field, merge_other hitem]
  cases hdata : data name with
  | none => exact ⟨default, rfl⟩
  | some given =>
      obtain ⟨new, hnew⟩ := henv.accepted (name, kind) hfield given hdata fun h => absurd h hname
      exact ⟨new, by simp only [hnew]⟩

/-! ## The environment -/

/-- The environment has no node token. -/
def Tokenless (environ : Environ) : Prop := (environ "node_token").getD "" = ""

/-- The device config that is looked into. -/
def device_config_path (site : Site) (environ : Environ) : Option String :=
  if (environ "device_config").getD "" = "" then
    if site.default_device_config = true then some "site/device.yaml" else none
  else environ "device_config"

/-- The device config, if it is needed for the executor factory, is text. -/
def Legible (site : Site) (environ : Environ) : Prop :=
  (environ "executor_factory").getD "" = "" → ∀ path ∈ device_config_path site environ,
    ∃ factory, site.executor_factory path = .ok factory

/-- A variable that is not JSON is given as it is. -/
theorem environ_values_str {name : String} (h : environ_values C environ = .ok data)
    (hname : name ≠ "vpn_probe_targets" ∧ name ≠ "node_connect_headers") :
    data name = (environ name).map .str := by
  obtain ⟨targets, -, h⟩ := bind_ok.1 h
  obtain ⟨headers, -, h⟩ := bind_ok.1 h
  cases h
  show (if name = _ then _ else _) = _
  rw [if_neg hname.1, if_neg hname.2]

theorem token_truthy (h : environ_values C environ = .ok data) :
    (data "node_token").any Json.truthy = true ↔ ¬ Tokenless environ := by
  rw [environ_values_str h ⟨by decide, by decide⟩, Tokenless]
  cases environ "node_token" with
  | none => simp
  | some token => simp [Json.truthy]

/-- A field that is not persisted is that of the environment. -/
theorem field_environ {name value : String} {items : List (String × Json)}
    (h : environ_values C environ = .ok data)
    (hname : name ≠ "vpn_probe_targets" ∧ name ≠ "node_connect_headers")
    (hitem : name ∉ items.map Prod.fst)
    (hvalue : P.field (items.foldl merge_item data) name .str "" = .ok value) :
    value = (environ name).getD "" := by
  unfold Pydantic.field at hvalue
  rw [merge_other hitem, environ_values_str h hname] at hvalue
  cases hgiven : environ name with
  | none =>
      rw [hgiven] at hvalue
      cases hvalue
      rfl
  | some given =>
      rw [hgiven] at hvalue
      simp only [Option.map_some, P.parse_str] at hvalue
      cases hvalue
      rfl

/-! ## A start without a token -/

/-- The settings are validated, and every persisted field is restored. -/
theorem validate_restored (runtime_dir : String) (henv : ValidEnviron P C environ data)
    (hkey : old.jwt_private_key ≠ "") :
    ∃ new, validate_fields P runtime_dir
        ((overrides runtime_dir old).foldl merge_item data) = .ok new ∧
      Reconnected P data old new ∧
      new.device_config = (environ "device_config").getD "" ∧
      new.executor_factory = (environ "executor_factory").getD "" := by
  have hitems : overrides runtime_dir old =
      (persisted_record runtime_dir old).filter (·.1 ≠ "jwt_private_key_path") ++
        [("jwt_private_key", .str old.jwt_private_key)] := by
    rw [overrides, if_neg hkey]
  have hnames : (overrides runtime_dir old).map Prod.fst =
      persisted_keys ++ ["jwt_private_key"] := by
    rw [hitems]
    rfl
  have hkeys : ((overrides runtime_dir old).map Prod.fst).Nodup := by
    rw [hnames]
    decide
  have hmem : ∀ {item}, item ∈ (persisted_record runtime_dir old).filter
      (·.1 ≠ "jwt_private_key_path") → item ∈ overrides runtime_dir old := fun h => by
    rw [hitems]
    exact List.mem_append_left _ h
  have hkeyitem : ("jwt_private_key", Json.str old.jwt_private_key) ∈
      overrides runtime_dir old := by
    rw [hitems]
    exact List.mem_append_right _ (List.mem_singleton.2 rfl)
  have restored : ∀ (name : String) (kind : Kind) (default : kind.Value) (value : Json)
      (v : kind.Value), P.parse kind value = some v → (name, value) ∈ overrides runtime_dir old →
      (name, kind) ∈ settings_fields → _ := fun name kind default value v hparse hitem hfield =>
    field_restored name kind default hparse hitem henv hkeys hfield
  have given : ∀ (name : String) (kind : Kind) (default : kind.Value),
      (name, kind) ∈ settings_fields → name ∉ "jwt_private_key" :: persisted_keys → _ :=
    fun name kind default hfield hname => field_given name kind default (by
      rw [hnames]
      rwa [List.mem_append, List.mem_singleton, or_comm, ← List.mem_cons]) henv hfield hname
  obtain ⟨qpu_id, h0, r0⟩ := restored "qpu_id" .str "" _ _
    (P.parse_str old.qpu_id) (hmem (by simp [persisted_record])) (by decide)
  obtain ⟨qpu_display_name, h1, r1⟩ := restored "qpu_display_name" .str "" _ _
    (P.parse_str old.qpu_display_name) (hmem (by simp [persisted_record])) (by decide)
  obtain ⟨native_gate_set, h2, r2⟩ := restored "native_gate_set" .str "cz" _ _
    (P.parse_str old.native_gate_set) (hmem (by simp [persisted_record])) (by decide)
  obtain ⟨num_qubits, h3, r3⟩ := restored "num_qubits" .int (5 : Int) _ _
    (P.parse_int old.num_qubits) (hmem (by simp [persisted_record])) (by decide)
  obtain ⟨redis_url, h4, r4⟩ := restored "redis_url" .str "" _ _
    (P.parse_str old.redis_url) (hmem (by simp [persisted_record])) (by decide)
  obtain ⟨jwt_private_key, h5, r5⟩ := restored "jwt_private_key" .str "" _ _
    (P.parse_str old.jwt_private_key) hkeyitem (by decide)
  obtain ⟨jwt_key_id, h6, r6⟩ := restored "jwt_key_id" .str "" _ _
    (P.parse_str old.jwt_key_id) (hmem (by simp [persisted_record])) (by decide)
  obtain ⟨webapp_url, h7, r7⟩ := restored "webapp_url" .str "https://coda.conductorquantum.com" _ _
    (P.parse_str old.webapp_url) (hmem (by simp [persisted_record])) (by decide)
  obtain ⟨webhook_path, h8, r8⟩ := restored "webhook_path" .str "/api/internal/qpu/webhook" _ _
    (P.parse_str old.webhook_path) (hmem (by simp [persisted_record])) (by decide)
  obtain ⟨connect_path, h9, r9⟩ := restored "connect_path" .str "/api/internal/qpu/connect" _ _
    (P.parse_str old.connect_path) (hmem (by simp [persisted_record])) (by decide)
  obtain ⟨heartbeat_path, h10, r10⟩ :=
    restored "heartbeat_path" .str "/api/internal/qpu/heartbeat" _ _
    (P.parse_str old.heartbeat_path) (hmem (by simp [persisted_record])) (by decide)
  obtain ⟨host, h11⟩ := given "host" .str "0.0.0.0" (by decide) (by decide)
  obtain ⟨port, h12⟩ := given "port" .int (8080 : Int) (by decide) (by decide)
  obtain ⟨vpn_required, h13, r13⟩ := restored "vpn_required" .bool true _ _
    (P.parse_bool old.vpn_required) (hmem (by simp [persisted_record])) (by decide)
  obtain ⟨vpn_check_interval_sec, h14, r14⟩ := restored "vpn_check_interval_sec" .int (10 : Int) _ _
    (P.parse_int old.vpn_check_interval_sec) (hmem (by simp [persisted_record])) (by decide)
  obtain ⟨vpn_probe_targets, h15, r15⟩ :=
    restored "vpn_probe_targets" .str_list ([] : List String) _ _
    (P.parse_str_list old.vpn_probe_targets) (hmem (by simp [persisted_record])) (by decide)
  obtain ⟨vpn_interface_hint, h16, r16⟩ :=
    restored "vpn_interface_hint" .opt_str (none : Option String) _ _
    (P.parse_opt_str old.vpn_interface_hint) (hmem (by simp [persisted_record])) (by decide)
  obtain ⟨allow_degraded_startup, h17⟩ :=
    given "allow_degraded_startup" .bool false (by decide) (by decide)
  obtain ⟨node_token, h18⟩ := given "node_token" .str "" (by decide) (by decide)
  obtain ⟨node_timeout_sec, h19⟩ := given "node_timeout_sec" .int (15 : Int) (by decide) (by decide)
  obtain ⟨node_machine_fingerprint, h20, r20⟩ := restored "node_machine_fingerprint" .str "" _ _
    (P.parse_str old.node_machine_fingerprint) (hmem (by simp [persisted_record])) (by decide)
  obtain ⟨node_auto_vpn, h21, r21⟩ := restored "node_auto_vpn" .bool true _ _
    (P.parse_bool old.node_auto_vpn) (hmem (by simp [persisted_record])) (by decide)
  obtain ⟨node_vpn_profile_path, h22, r22⟩ :=
    restored "node_vpn_profile_path" .str (runtime_dir ++ "/coda-node.ovpn") _ _
    (P.parse_str old.node_vpn_profile_path) (hmem (by simp [persisted_record])) (by decide)
  obtain ⟨node_connect_headers, h23⟩ :=
    given "node_connect_headers" .str_dict ([] : List (String × String)) (by decide) (by decide)
  obtain ⟨node_connect_retries, h24⟩ :=
    given "node_connect_retries" .int (3 : Int) (by decide) (by decide)
  obtain ⟨shutdown_drain_timeout_sec, h25⟩ :=
    given "shutdown_drain_timeout_sec" .int (30 : Int) (by decide) (by decide)
  obtain ⟨heartbeat_interval_sec, h26⟩ :=
    given "heartbeat_interval_sec" .int (30 : Int) (by decide) (by decide)
  obtain ⟨executor_factory, h27⟩ := given "executor_factory" .str "" (by decide) (by decide)
  obtain ⟨device_config, h28⟩ := given "device_config" .str "" (by decide) (by decide)
  obtain ⟨advertised_provider, h29⟩ :=
    given "advertised_provider" .str "coda" (by decide) (by decide)
  refine ⟨{
    qpu_id, qpu_display_name, native_gate_set, num_qubits, redis_url, jwt_private_key,
    jwt_key_id, webapp_url, webhook_path, connect_path, heartbeat_path, host, port,
    vpn_required, vpn_check_interval_sec, vpn_probe_targets, vpn_interface_hint,
    allow_degraded_startup, node_token, node_timeout_sec, node_machine_fingerprint,
    node_auto_vpn, node_vpn_profile_path, node_connect_headers, node_connect_retries,
    shutdown_drain_timeout_sec, heartbeat_interval_sec, executor_factory, device_config,
    advertised_provider }, ?_,
    ⟨r0, r1, r2, r3, r5, r6, r4, r7, r9, r10, r8, r13, r14, r16, r15, r21, r22, r20⟩,
    field_environ henv.decodes (by decide) (by rw [hnames]; decide) h28,
    field_environ henv.decodes (by decide) (by rw [hnames]; decide) h27⟩
  simp only [validate_fields, h0, h1, h2, h3, h4, h5, h6, h7, h8, h9, h10, h11, h12, h13, h14,
    h15, h16, h17, h18, h19, h20, h21, h22, h23, h24, h25, h26, h27, h28, h29, bind, Except.bind,
    pure, Except.pure]

/-- The record is read back. -/
theorem load_kept (hkept : Kept C runtime_dir (some old) disk)
    (hC : C.Faithful (.obj (persisted_record runtime_dir old)))
    (hcr : '\r' ∉ old.jwt_private_key.toList) :
    load_persisted_runtime_config C runtime_dir disk = .ok (overrides runtime_dir old) := by
  rw [load_record hC hkept.1 hkept.2, universal_newlines_of_no_cr hcr, found_key]

theorem Restored.ne_blank {name : String} {old new : String}
    (h : Restored P data name .str old new) (hdata : ∀ value, data name = some value →
      ∃ s, value = .str s) (hold : old ≠ "") : new ≠ "" := by
  unfold Restored at h
  cases hvalue : data name with
  | none =>
      rw [hvalue] at h
      exact (show new = old from h) ▸ hold
  | some value =>
      obtain ⟨s, rfl⟩ := hdata value hvalue
      rw [hvalue] at h
      by_cases hs : s = ""
      · have hblank : (Json.str s).blank = true := by rw [hs]; rfl
        simp only [hblank, if_true] at h
        exact h ▸ hold
      · have hblank : (Json.str s).blank = false := by simpa [Json.blank] using hs
        simp only [hblank, Bool.false_eq_true, if_false, P.parse_str] at h
        exact Option.some.inj h ▸ hs

/-- The credentials are restored, so that the last validator passes. -/
theorem check_restored {new : Settings} (hdata : environ_values C environ = .ok data)
    (hkeyed : Keyed old) (hnew : Reconnected P data old new) :
    check_jwt_or_node_token new = .ok new := by
  have hstr : ∀ {name : String}, name ≠ "vpn_probe_targets" ∧ name ≠ "node_connect_headers" →
      ∀ value, data name = some value → ∃ s, value = .str s := fun hname value hvalue => by
    rw [environ_values_str hdata hname] at hvalue
    obtain ⟨s, -, rfl⟩ := Option.map_eq_some_iff.1 hvalue
    exact ⟨s, rfl⟩
  have hkey : new.jwt_private_key ≠ "" :=
    hnew.jwt_private_key.ne_blank (hstr ⟨by decide, by decide⟩) hkeyed.1
  have hid : new.jwt_key_id ≠ "" :=
    hnew.jwt_key_id.ne_blank (hstr ⟨by decide, by decide⟩) hkeyed.2
  rw [check_jwt_or_node_token, if_neg hkey, if_neg hid, ite_self]

/-- A device config changes the executor factory only. -/
theorem device_config_restored {new : Settings} (hnew : Reconnected P data old new)
    (hconfig : new.device_config = (environ "device_config").getD "")
    (hfactory : new.executor_factory = (environ "executor_factory").getD "")
    (hsite : Legible site environ) :
    ∃ new', apply_device_config_executor_factory site (apply_default_device_config site new) =
      .ok new' ∧ Reconnected P data old new' := by
  have hdefault : Reconnected P data old (apply_default_device_config site new) ∧
      (apply_default_device_config site new).executor_factory = new.executor_factory ∧
      ((apply_default_device_config site new).device_config ≠ "" → device_config_path site environ =
        some (apply_default_device_config site new).device_config) := by
    rw [apply_default_device_config, device_config_path, ← hconfig]
    by_cases h : new.device_config = ""
    · rw [if_pos h]
      by_cases hd : site.default_device_config = true
      · rw [if_pos ⟨h, hd⟩, if_pos hd]
        exact ⟨{ hnew with }, rfl, fun _ => rfl⟩
      · rw [if_neg fun hand => hd hand.2]
        exact ⟨hnew, rfl, fun hne => absurd h hne⟩
    · rw [if_neg fun hand => h hand.1, if_neg h]
      refine ⟨hnew, rfl, fun _ => ?_⟩
      cases hpath : environ "device_config" with
      | none =>
          rw [hpath] at hconfig
          exact absurd hconfig h
      | some path =>
          rw [hconfig, hpath]
          rfl
  obtain ⟨hdefault, hsame, hpath⟩ := hdefault
  rw [apply_device_config_executor_factory]
  by_cases h : (apply_default_device_config site new).executor_factory ≠ "" ∨
      (apply_default_device_config site new).device_config = ""
  · rw [if_pos h]
    exact ⟨_, rfl, hdefault⟩
  · rw [if_neg h]
    rw [not_or, not_not, hsame, hfactory] at h
    obtain ⟨factory, hresolved⟩ := hsite h.1 _ (hpath h.2)
    rw [hresolved]
    by_cases hne : factory = ""
    · refine ⟨apply_default_device_config site new, ?_, hdefault⟩
      simp only [bind, Except.bind, hne, ne_eq, not_true_eq_false, if_false]
      rfl
    · refine ⟨{ apply_default_device_config site new with executor_factory := factory }, ?_,
        { hdefault with }⟩
      simp only [bind, Except.bind, ne_eq, hne, not_false_eq_true, if_true]
      rfl

variable {L : Lowercase} {S : Services} {umask : Nat} {disk' : Disk}

/-- **Reconnecting**: after a connect, a start without a token succeeds and restores every
persisted field that the environment does not set; a start with a token does not depend on
the disk. -/
theorem reconnect_restores
    (hconnect : connect_settings P C L S runtime_dir umask disk s = .ok (old, disk'))
    (hcr : '\r' ∉ old.jwt_private_key.toList)
    (hjson : C.Faithful (.obj (persisted_record runtime_dir old))) :
    (∀ (site : Site) (environ : Environ) (data : Values), Tokenless environ →
      ValidEnviron P C environ data → Legible site environ →
      ∃ new, build_settings P C runtime_dir site environ disk' = .ok new ∧
        Reconnected P data old new) ∧
    (∀ (site : Site) (environ : Environ) (disk₁ disk₂ : Disk), ¬ Tokenless environ →
      build_settings P C runtime_dir site environ disk₁ =
        build_settings P C runtime_dir site environ disk₂) := by
  obtain ⟨hkeyed, hkept⟩ := connect_settings_ok hconnect
  refine ⟨fun site environ data htoken henv hsite => ?_, fun site environ disk₁ disk₂ htoken => ?_⟩
  · have htruthy : ¬ (data "node_token").any Json.truthy = true := fun h =>
      (token_truthy henv.decodes).1 h htoken
    have hmerged : merge_persisted_runtime_config C runtime_dir disk' data =
        .ok ((overrides runtime_dir old).foldl merge_item data) := by
      rw [merge_persisted_runtime_config, if_neg htruthy, load_kept hkept hjson hcr]
      rfl
    obtain ⟨s₁, hvalid, h₁, hconfig, hfactory⟩ :=
      validate_restored runtime_dir henv hkeyed.1
    obtain ⟨new, hdevice, hnew⟩ := device_config_restored h₁ hconfig hfactory hsite
    refine ⟨new, ?_, hnew⟩
    rw [build_settings, henv.decodes]
    simp only [bind, Except.bind, hmerged, hvalid, hdevice,
      check_restored henv.decodes hkeyed hnew]
  · rw [build_settings, build_settings]
    cases hdata : environ_values C environ with
    | error e => rfl
    | ok data =>
        have htruthy : (data "node_token").any Json.truthy = true :=
          (token_truthy hdata).2 htoken
        simp only [bind, Except.bind, merge_persisted_runtime_config, if_pos htruthy]

/-! ## A node that is provisioned and restarted -/

/-- A validation that takes values of a field's own type only. -/
def strict : Pydantic where
  parse
    | .str, .str s => some s
    | .int, .int i => some i
    | .bool, .bool b => some b
    | .opt_str, .null => some none
    | .opt_str, .str s => some (some s)
    | .str_list, .arr items => all_str items
    | _, _ => none
  parse_str _ := rfl
  parse_int _ := rfl
  parse_bool _ := rfl
  parse_opt_str s := by cases s <;> rfl
  parse_str_list items := by
    show all_str (items.map Json.str) = some items
    induction items with
    | nil => rfl
    | cons s rest ih => rw [List.map_cons, all_str, ih]; rfl

/-- The bundle of the provisioned node. -/
def provisioned_bundle : List (String × Json) :=
  [("qpu_id", .str provisioned.qpu_id), ("qpu_display_name", .str provisioned.qpu_display_name),
    ("native_gate_set", .str "cz"), ("num_qubits", .int 5),
    ("jwt_private_key", .str provisioned.jwt_private_key),
    ("jwt_key_id", .str provisioned.jwt_key_id), ("redis_url", .str provisioned.redis_url),
    ("webapp_url", .str "https://coda.conductorquantum.com")]

/-- An endpoint that hands it out. -/
def provisioning : Services where
  machine_fingerprint := "hostname-12345"
  tunnel _ := .ok ()
  fetch_node_bundle _ := .ok provisioned_bundle
  fetch_reconnect_bundle _ := .ok provisioned_bundle
  revalidate _ s := .ok s
  keeps_key _ _ _ h _ := by cases h; rfl
  keeps_key_id _ _ _ h _ := by cases h; rfl

/-- The settings before. -/
def unprovisioned : Settings where
  node_token := "token"
  node_vpn_profile_path := "/tmp/coda-node.ovpn"

/-- The settings after. -/
def connected : Settings := { provisioned with node_token := "token" }

/-- The disk after. -/
def connected_disk : Disk := run_steps 0o022 (fun _ => none)
  (persist_runtime_config provisioned_codec "/tmp" connected)

theorem provisioning_connects : connect_settings strict provisioned_codec Lowercase.simple
    provisioning "/tmp" 0o022 (fun _ => none) unprovisioned = .ok (connected, connected_disk) := by
  rfl

/-- No device config. -/
def no_site : Site where
  default_device_config := false
  executor_factory _ := .ok ""

/-- A later environment: another QPU, and a qubit count that is left empty. -/
def later_environ : Environ
  | "qpu_id" => some "other-qpu"
  | "num_qubits" => some ""
  | _ => none

def later_values : Values := fun name => (later_environ name).map .str

theorem later_valid : ValidEnviron strict provisioned_codec later_environ later_values where
  decodes := by
    show Except.ok _ = Except.ok _
    congr 1
    funext name
    by_cases htargets : name = "vpn_probe_targets"
    · subst htargets
      rfl
    · rw [if_neg htargets]
      by_cases hheaders : name = "node_connect_headers"
      · subst hheaders
        rfl
      · rw [if_neg hheaders]
        rfl
  accepted := by
    have hset : ∀ field ∈ settings_fields, (later_environ field.1).isSome = true →
        field.2 = .str ∨ field.1 = "num_qubits" := by decide
    intro field hfield value hvalue hblank
    obtain ⟨s, hs, rfl⟩ := Option.map_eq_some_iff.1 hvalue
    rcases hset field hfield (by rw [hs]; rfl) with hkind | hname
    · obtain ⟨name, kind⟩ := field
      cases hkind
      exact ⟨s, rfl⟩
    · rw [hname] at hs hblank
      cases hs
      exact absurd (hblank (by decide)) (by decide)

/-- The node takes the new QPU and keeps its qubit count. -/
theorem provisioned_reconnects : ∃ new,
    build_settings strict provisioned_codec "/tmp" no_site later_environ connected_disk = .ok new ∧
      Reconnected strict later_values connected new :=
  (reconnect_restores provisioning_connects (by decide +kernel) provisioned_faithful).1 no_site
    later_environ later_values rfl later_valid fun _ path hpath => by cases hpath

/-- A qubit count that is not a number is an error. -/
theorem invalid_environ_rejected :
    ¬ ∀ (P : Pydantic) (C : JsonCodec) (L : Lowercase) (S : Services) (runtime_dir : String)
      (umask : Nat) (disk disk' : Disk) (s old : Settings) (site : Site) (environ : Environ),
      connect_settings P C L S runtime_dir umask disk s = .ok (old, disk') →
      '\r' ∉ old.jwt_private_key.toList →
      C.Faithful (.obj (persisted_record runtime_dir old)) → Tokenless environ →
      ∃ data new, environ_values C environ = .ok data ∧
        build_settings P C runtime_dir site environ disk' = .ok new ∧
        Reconnected P data old new := by
  intro h
  obtain ⟨data, new, hdata, -, hnew⟩ := h strict provisioned_codec Lowercase.simple provisioning
    "/tmp" 0o022 _ _ unprovisioned connected no_site
    (fun name => if name = "num_qubits" then some "five" else none)
    provisioning_connects (by decide +kernel) provisioned_faithful rfl
  have hfive : data "num_qubits" = some (.str "five") :=
    environ_values_str hdata ⟨by decide, by decide⟩
  have hqubits := hnew.num_qubits
  unfold Restored at hqubits
  rw [hfive] at hqubits
  cases hqubits

end CodaNode.Config
