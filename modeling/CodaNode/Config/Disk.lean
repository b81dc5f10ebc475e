/-
`Config/Disk.lean` -- the files that keep the credentials: writing, crashing, reading.

A write of a file is a sequence of steps on the disk; a crash leaves the steps made so far.
`persist_runtime_config` is the sequence of `_persist_runtime_config` on POSIX, and
`load_persisted_runtime_config` reads whatever it finds.
-/
import CodaNode.Config.Settings
import CodaNode.Vpn.Profile

set_option autoImplicit false

namespace CodaNode.Config

/-! ## Files -/

structure File where
  content : Text
  mode : Nat
  deriving DecidableEq

/-- The file at each path. -/
abbrev Disk := String → Option File

def Disk.set (disk : Disk) (path : String) (file : File) : Disk :=
  fun p => if p = path then some file else disk p

/-- One system call of a write. -/
inductive DiskStep where
  /-- `open(path, "w")`. -/
  | truncate (path : String)
  | write (path : String) (content : Text)
  | chmod (path : String) (mode : Nat)

/-- The mode a file is created with: `0o666 & ~umask`. -/
def created_mode (umask : Nat) : Nat := 0o666 &&& (0o777 ^^^ umask)

def DiskStep.run (umask : Nat) (disk : Disk) : DiskStep → Disk
  | truncate path => disk.set path ⟨[], ((disk path).map File.mode).getD (created_mode umask)⟩
  | write path content =>
      disk.set path ⟨content, ((disk path).map File.mode).getD (created_mode umask)⟩
  | chmod path mode => disk.set path ⟨((disk path).map File.content).getD [], mode⟩

def run_steps (umask : Nat) (disk : Disk) (steps : List DiskStep) : Disk :=
  steps.foldl (DiskStep.run umask) disk

/-- `path.write_text(content)`. -/
def write_text (path : String) (content : Text) : List DiskStep :=
  [.truncate path, .write path content]

/-- `_write_secure_text`. -/
def write_secure_text (path : String) (content : Text) : List DiskStep :=
  write_text path content ++ [.chmod path 0o600]

/-- What text mode makes of line ends when it reads. -/
def universal_newlines : Text → Text
  | [] => []
  | '\r' :: '\n' :: rest => '\n' :: universal_newlines rest
  | c :: rest => (if c = '\r' then '\n' else c) :: universal_newlines rest

/-! ## Errors -/

/-- What building the settings raises. -/
inductive SettingsError where
  /-- `ConfigError`. -/
  | config (message : String)
  /-- `json.JSONDecodeError`. -/
  | json (message : String)
  /-- `pydantic.ValidationError`, or pydantic-settings' `SettingsError`. -/
  | validation (message : String)
  deriving DecidableEq, Repr

/-! ## Reading -/

/-- `_read_secure_text`. -/
def read_secure_text (disk : Disk) (path : String) : Except SettingsError Text :=
  match disk path with
  | none => .ok []
  | some file =>
      if file.mode ≠ 0o600 then .error (.config (path ++ " must have permissions 0600"))
      else .ok (universal_newlines file.content)

/-- The `for` loop of `load_persisted_runtime_config`. -/
def copy_keys (data : List (String × Json)) : List (String × Json) :=
  persisted_keys.filterMap fun key => (data.lookup key).map (key, ·)

/-- `Path(str(data.get("jwt_private_key_path") or PERSISTED_PRIVATE_KEY_PATH))`. -/
def private_key_path (C : JsonCodec) (runtime_dir : String) (data : List (String × Json)) :
    String :=
  match data.lookup "jwt_private_key_path" with
  | none => persisted_private_key_path runtime_dir
  | some value =>
      if value.truthy then C.to_str value else persisted_private_key_path runtime_dir

/-- `load_persisted_runtime_config`. -/
def load_persisted_runtime_config (C : JsonCodec) (runtime_dir : String) (disk : Disk) :
    Except SettingsError (List (String × Json)) :=
  match disk (persisted_config_path runtime_dir) with
  | none => .ok []
  | some _ => do
      let raw_config ← read_secure_text disk (persisted_config_path runtime_dir)
      if strip raw_config = [] then pure []
      else
        match C.loads raw_config with
        | .error message => .error (.json message)
        | .ok (.obj data) =>
            let private_key ← read_secure_text disk (private_key_path C runtime_dir data)
            if private_key = [] then pure (copy_keys data)
            else pure (copy_keys data ++ [("jwt_private_key", .str (String.ofList private_key))])
        | .ok _ => .error (.config
            (persisted_config_path runtime_dir ++ " must contain a JSON object"))

/-! ## Writing -/

/-- The text of the config file. -/
def config_text (C : JsonCodec) (runtime_dir : String) (settings : Settings) : Text :=
  C.dumps (.obj (persisted_record runtime_dir settings)) ++ ['\n']

/-- `_persist_runtime_config`. -/
def persist_runtime_config (C : JsonCodec) (runtime_dir : String) (settings : Settings) :
    List DiskStep :=
  write_secure_text (persisted_private_key_path runtime_dir) settings.jwt_private_key.toList ++
    write_secure_text (persisted_config_path runtime_dir) (config_text C runtime_dir settings)

/-- What the settings are persisted for: all of the record but the path of the key, and the
key itself unless it is empty. -/
def overrides (runtime_dir : String) (settings : Settings) : List (String × Json) :=
  (persisted_record runtime_dir settings).filter (·.1 ≠ "jwt_private_key_path") ++
    if settings.jwt_private_key = "" then []
    else [("jwt_private_key", .str settings.jwt_private_key)]

end CodaNode.Config
