/-
`Config/Settings.lean` -- the settings of the node and the record of them that is kept.

The fields of `Settings` stand in the order of the source. Of these a record is kept on disk,
from which a later start restores them.
-/
import CodaNode.Text.Json

set_option autoImplicit false

namespace CodaNode.Config

/-! ## Settings -/

/-- `Settings`. -/
structure Settings where
  qpu_id : String := ""
  qpu_display_name : String := ""
  native_gate_set : String := "cz"
  num_qubits : Int := 5
  redis_url : String := ""
  jwt_private_key : String := ""
  jwt_key_id : String := ""
  webapp_url : String := "https://coda.conductorquantum.com"
  webhook_path : String := "/api/internal/qpu/webhook"
  connect_path : String := "/api/internal/qpu/connect"
  heartbeat_path : String := "/api/internal/qpu/heartbeat"
  host : String := "0.0.0.0"
  port : Int := 8080
  vpn_required : Bool := true
  vpn_check_interval_sec : Int := 10
  vpn_probe_targets : List String := []
  vpn_interface_hint : Option String := none
  allow_degraded_startup : Bool := false
  node_token : String := ""
  node_timeout_sec : Int := 15
  node_machine_fingerprint : String := ""
  node_auto_vpn : Bool := true
  node_vpn_profile_path : String
  node_connect_headers : List (String × String) := []
  node_connect_retries : Int := 3
  shutdown_drain_timeout_sec : Int := 30
  heartbeat_interval_sec : Int := 30
  executor_factory : String := ""
  device_config : String := ""
  advertised_provider : String := "coda"
  deriving DecidableEq, Repr

/-! ## The persisted record -/

/-- `PERSISTED_CONFIG_PATH`, in the runtime directory. -/
def persisted_config_path (runtime_dir : String) : String := runtime_dir ++ "/coda.config"

/-- `PERSISTED_PRIVATE_KEY_PATH`. -/
def persisted_private_key_path (runtime_dir : String) : String :=
  runtime_dir ++ "/coda-private-key"

/-- The dictionary `persisted` of `_persist_runtime_config`. -/
def persisted_record (runtime_dir : String) (settings : Settings) : List (String × Json) :=
  [("qpu_id", .str settings.qpu_id),
    ("qpu_display_name", .str settings.qpu_display_name),
    ("native_gate_set", .str settings.native_gate_set),
    ("num_qubits", .int settings.num_qubits),
    ("jwt_key_id", .str settings.jwt_key_id),
    ("jwt_private_key_path", .str (persisted_private_key_path runtime_dir)),
    ("redis_url", .str settings.redis_url),
    ("webapp_url", .str settings.webapp_url),
    ("connect_path", .str settings.connect_path),
    ("heartbeat_path", .str settings.heartbeat_path),
    ("webhook_path", .str settings.webhook_path),
    ("vpn_required", .bool settings.vpn_required),
    ("vpn_check_interval_sec", .int settings.vpn_check_interval_sec),
    ("vpn_interface_hint", .of_option settings.vpn_interface_hint),
    ("vpn_probe_targets", .of_strings settings.vpn_probe_targets),
    ("node_auto_vpn", .bool settings.node_auto_vpn),
    ("node_vpn_profile_path", .str settings.node_vpn_profile_path),
    ("node_machine_fingerprint", .str settings.node_machine_fingerprint)]

/-- The keys that `load_persisted_runtime_config` copies. -/
def persisted_keys : List String :=
  ["qpu_id", "qpu_display_name", "native_gate_set", "num_qubits", "jwt_key_id", "redis_url",
    "webapp_url", "connect_path", "heartbeat_path", "webhook_path", "vpn_required",
    "vpn_check_interval_sec", "vpn_interface_hint", "vpn_probe_targets", "node_auto_vpn",
    "node_vpn_profile_path", "node_machine_fingerprint"]

theorem persisted_paths_ne (runtime_dir : String) :
    persisted_config_path runtime_dir ≠ persisted_private_key_path runtime_dir := by
  intro h
  have h' := congrArg String.toList h
  simp [persisted_config_path, persisted_private_key_path] at h'

end CodaNode.Config
