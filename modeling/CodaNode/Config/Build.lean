/-
`Config/Build.lean` -- building the settings from the environment and the disk.

`Settings()` decodes the environment, fills what is missing or blank in it from the
persisted state, validates each field and runs the model validators. What a field accepts is
pydantic's business; of it only the values of the field's own type are known.
-/
import CodaNode.Config.Disk

set_option autoImplicit false

namespace CodaNode.Config

/-- The values given for fields, by name. -/
abbrev Values := String → Option Json

/-! ## Fields -/

/-- The annotation of a field. -/
inductive Kind where
  | str
  | int
  | bool
  | opt_str
  | str_list
  | str_dict
  deriving DecidableEq, Repr

/-- The value a field of this kind has. -/
def Kind.Value : Kind → Type
  | str => String
  | int => Int
  | bool => Bool
  | opt_str => Option String
  | str_list => List String
  | str_dict => List (String × String)

/-- Validation by pydantic: a value of the field's own type is taken as it is. -/
structure Pydantic where
  parse : (kind : Kind) → Json → Option kind.Value
  parse_str : ∀ s, parse .str (.str s) = some s
  parse_int : ∀ i, parse .int (.int i) = some i
  parse_bool : ∀ b, parse .bool (.bool b) = some b
  parse_opt_str : ∀ s, parse .opt_str (.of_option s) = some s
  parse_str_list : ∀ items, parse .str_list (.of_strings items) = some items

variable (P : Pydantic)

/-- The value of a field, or its default. -/
def Pydantic.field (values : Values) (name : String) (kind : Kind) (default : kind.Value) :
    Except SettingsError kind.Value :=
  match values name with
  | none => .ok default
  | some value =>
      match P.parse kind value with
      | none => .error (.validation name)
      | some v => .ok v

/-- The field validation of `Settings`. -/
def validate_fields (runtime_dir : String) (values : Values) : Except SettingsError Settings := do
  let qpu_id ← P.field values "qpu_id" .str ""
  let qpu_display_name ← P.field values "qpu_display_name" .str ""
  let native_gate_set ← P.field values "native_gate_set" .str "cz"
  let num_qubits ← P.field values "num_qubits" .int (5 : Int)
  let redis_url ← P.field values "redis_url" .str ""
  let jwt_private_key ← P.field values "jwt_private_key" .str ""
  let jwt_key_id ← P.field values "jwt_key_id" .str ""
  let webapp_url ← P.field values "webapp_url" .str "https://coda.conductorquantum.com"
  let webhook_path ← P.field values "webhook_path" .str "/api/internal/qpu/webhook"
  let connect_path ← P.field values "connect_path" .str "/api/internal/qpu/connect"
  let heartbeat_path ← P.field values "heartbeat_path" .str "/api/internal/qpu/heartbeat"
  let host ← P.field values "host" .str "0.0.0.0"
  let port ← P.field values "port" .int (8080 : Int)
  let vpn_required ← P.field values "vpn_required" .bool true
  let vpn_check_interval_sec ← P.field values "vpn_check_interval_sec" .int (10 : Int)
  let vpn_probe_targets ← P.field values "vpn_probe_targets" .str_list ([] : List String)
  let vpn_interface_hint ← P.field values "vpn_interface_hint" .opt_str (none : Option String)
  let allow_degraded_startup ← P.field values "allow_degraded_startup" .bool false
  let node_token ← P.field values "node_token" .str ""
  let node_timeout_sec ← P.field values "node_timeout_sec" .int (15 : Int)
  let node_machine_fingerprint ← P.field values "node_machine_fingerprint" .str ""
  let node_auto_vpn ← P.field values "node_auto_vpn" .bool true
  let node_vpn_profile_path ←
    P.field values "node_vpn_profile_path" .str (runtime_dir ++ "/coda-node.ovpn")
  let node_connect_headers ←
    P.field values "node_connect_headers" .str_dict ([] : List (String × String))
  let node_connect_retries ← P.field values "node_connect_retries" .int (3 : Int)
  let shutdown_drain_timeout_sec ← P.field values "shutdown_drain_timeout_sec" .int (30 : Int)
  let heartbeat_interval_sec ← P.field values "heartbeat_interval_sec" .int (30 : Int)
  let executor_factory ← P.field values "executor_factory" .str ""
  let device_config ← P.field values "device_config" .str ""
  let advertised_provider ← P.field values "advertised_provider" .str "coda"
  pure {
    qpu_id, qpu_display_name, native_gate_set, num_qubits, redis_url, jwt_private_key,
    jwt_key_id, webapp_url, webhook_path, connect_path, heartbeat_path, host, port,
    vpn_required, vpn_check_interval_sec, vpn_probe_targets, vpn_interface_hint,
    allow_degraded_startup, node_token, node_timeout_sec, node_machine_fingerprint,
    node_auto_vpn, node_vpn_profile_path, node_connect_headers, node_connect_retries,
    shutdown_drain_timeout_sec, heartbeat_interval_sec, executor_factory, device_config,
    advertised_provider }

/-! ## The environment -/

/-- The `CODA_` variables, by the name of their field. -/
abbrev Environ := String → Option String

/-- A variable for a list or a dictionary holds JSON. -/
def decode_complex (C : JsonCodec) (environ : Environ) (name : String) :
    Except SettingsError (Option Json) :=
  match environ name with
  | none => .ok none
  | some raw =>
      match C.loads raw.toList with
      | .error _ => .error (.validation ("error parsing value for field \"" ++ name ++ "\""))
      | .ok value => .ok (some value)

/-- What the environment gives for each field. -/
def environ_values (C : JsonCodec) (environ : Environ) : Except SettingsError Values := do
  let vpn_probe_targets ← decode_complex C environ "vpn_probe_targets"
  let node_connect_headers ← decode_complex C environ "node_connect_headers"
  pure fun name =>
    if name = "vpn_probe_targets" then vpn_probe_targets
    else if name = "node_connect_headers" then node_connect_headers
    else (environ name).map .str

/-! ## Validators -/

/-- One turn of the loop of `merge_persisted_runtime_config`: `key not in merged` or its
value is blank. -/
def merge_item (merged : Values) (item : String × Json) : Values :=
  if (merged item.1).all Json.blank then
    fun name => if name = item.1 then some item.2 else merged name
  else merged

/-- `merge_persisted_runtime_config`. -/
def merge_persisted_runtime_config (C : JsonCodec) (runtime_dir : String) (disk : Disk)
    (data : Values) : Except SettingsError Values :=
  if (data "node_token").any Json.truthy then .ok data
  else do
    let persisted ← load_persisted_runtime_config C runtime_dir disk
    pure (persisted.foldl merge_item data)

/-- The files beside the node: whether `./site/device.yaml` exists, and the value of
`_load_executor_factory_from_device_config`, which raises when a file is not text. -/
structure Site where
  default_device_config : Bool
  executor_factory : String → Except SettingsError String

/-- `apply_default_device_config`. -/
def apply_default_device_config (site : Site) (settings : Settings) : Settings :=
  if settings.device_config = "" ∧ site.default_device_config = true then
    { settings with device_config := "site/device.yaml" }
  else settings

/-- `apply_device_config_executor_factory`. -/
def apply_device_config_executor_factory (site : Site) (settings : Settings) :
    Except SettingsError Settings :=
  if settings.executor_factory ≠ "" ∨ settings.device_config = "" then .ok settings
  else do
    let resolved ← site.executor_factory settings.device_config
    pure (if resolved ≠ "" then { settings with executor_factory := resolved } else settings)

/-- `check_jwt_or_node_token`. -/
def check_jwt_or_node_token (settings : Settings) : Except SettingsError Settings :=
  if settings.node_token ≠ "" then .ok settings
  else if settings.jwt_private_key = "" then
    .error (.validation
      "CODA_JWT_PRIVATE_KEY must be set (or provide CODA_NODE_TOKEN for auto-provisioning)")
  else if settings.jwt_key_id = "" then
    .error (.validation
      "CODA_JWT_KEY_ID must be set (or provide CODA_NODE_TOKEN for auto-provisioning)")
  else .ok settings

/-- `Settings()`. -/
def build_settings (C : JsonCodec) (runtime_dir : String) (site : Site) (environ : Environ)
    (disk : Disk) : Except SettingsError Settings := do
  let data ← environ_values C environ
  let merged ← merge_persisted_runtime_config C runtime_dir disk data
  let settings ← validate_fields P runtime_dir merged
  let settings ← apply_device_config_executor_factory site
    (apply_default_device_config site settings)
  check_jwt_or_node_token settings

/-! ## Merging -/

section Merge

variable {data : Values} {items : List (String × Json)} {name : String}

theorem merge_item_other {item : String × Json} (h : name ≠ item.1) :
    merge_item data item name = data name := by
  rw [merge_item]
  by_cases hblank : (data item.1).all Json.blank = true
  · rw [if_pos hblank, if_neg h]
  · rw [if_neg hblank]

theorem merge_other (h : name ∉ items.map Prod.fst) :
    items.foldl merge_item data name = data name := by
  induction items generalizing data with
  | nil => rfl
  | cons item rest ih =>
      rw [List.map_cons, List.mem_cons, not_or] at h
      rw [List.foldl_cons, ih h.2, merge_item_other h.1]

/-- A value that is not blank stays. -/
theorem merge_kept {value : Json} (h : data name = some value) (hblank : value.blank = false) :
    items.foldl merge_item data name = some value := by
  induction items generalizing data with
  | nil => exact h
  | cons item rest ih =>
      rw [List.foldl_cons]
      apply ih
      by_cases hne : name = item.1
      · subst hne
        rw [merge_item, h, if_neg (by rw [Option.all_some, hblank]; exact Bool.false_ne_true), h]
      · rw [merge_item_other hne, h]

/-- A blank or missing value is filled in. -/
theorem merge_filled {value : Json} (hkeys : (items.map Prod.fst).Nodup)
    (hdata : (data name).all Json.blank = true) (h : (name, value) ∈ items) :
    items.foldl merge_item data name = some value := by
  induction items generalizing data with
  | nil => cases h
  | cons item rest ih =>
      rw [List.map_cons, List.nodup_cons] at hkeys
      rw [List.foldl_cons]
      rcases List.mem_cons.1 h with rfl | h
      · rw [merge_other hkeys.1, merge_item, if_pos hdata, if_pos rfl]
      · have hne : name ≠ item.1 := by
          rintro rfl
          exact hkeys.1 (List.mem_map.2 ⟨_, h, rfl⟩)
        exact ih hkeys.2 (by rwa [merge_item_other hne]) h

end Merge

end CodaNode.Config
