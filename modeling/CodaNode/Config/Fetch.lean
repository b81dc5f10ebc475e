/-
`Config/Fetch.lean` -- what the connect endpoint can make the node raise.

`_post_connect` tries the endpoint a number of times and returns the JSON it is answered;
`apply_node_bundle` takes that for an object. Every field is checked before it is assigned,
but for the display name, and nobody checks that the answer is JSON, or an object.
-/
import CodaNode.Config.Reconnect
import Mathlib.Algebra.Group.Nat.Defs

set_option autoImplicit false

namespace CodaNode.Config

/-! ## `_post_connect` -/

/-- What one attempt to reach the endpoint ends with. -/
inductive Attempt where
  /-- A response: its status, its text, what `response.json()` gives, and what
  `raise_for_status` says of it. -/
  | response (status : Nat) (text : Text) (json : Except String Json) (status_error : String)
  /-- `httpx.TransportError`. -/
  | transport_error (message : String)
  /-- Any other exception of `httpx`, such as a `DecodingError`. -/
  | other_error (message : String)

/-- `delay = 1.0 * (2.0 ** (attempt - 1))`. -/
def retry_delay (attempt : Nat) : Except ConnectError Nat :=
  if attempt - 1 ≤ 1023 then .ok (2 ^ (attempt - 1))
  else .error (.other "(34, 'Numerical result out of range')")

/-- The end of a failed attempt: the next one follows after a delay. -/
def wait_before_next (max_retries : Int) (attempt : Nat) : Except ConnectError Unit :=
  if (attempt : Int) < max_retries then do
    let _ ← retry_delay attempt
    pure ()
  else .ok ()

/-- The `for` loop of `_post_connect`, with the attempts that are left. -/
def post_connect_loop (attempts : Nat → Attempt) (max_retries : Int) :
    Nat → Nat → String → Except ConnectError Json
  | 0, _, last_exc => .error (.of_message
      ("Node connect failed after " ++ toString max_retries ++ " attempts: " ++ last_exc))
  | left + 1, attempt, _ =>
      match attempts attempt with
      | .response status text json status_error =>
          if 200 ≤ status ∧ status < 300 then json.mapError ConnectError.other
          else if status < 500 then
            .error (.of_message ("Node request failed (" ++ toString status ++ "): " ++
              String.ofList (text.take 400)))
          else do
            wait_before_next max_retries attempt
            post_connect_loop attempts max_retries left (attempt + 1) status_error
      | .transport_error message => do
          wait_before_next max_retries attempt
          post_connect_loop attempts max_retries left (attempt + 1) message
      | .other_error message => .error (.other message)

/-- `_post_connect`, of whose attempts `attempts` gives the ends, counted from one. -/
def post_connect (attempts : Nat → Attempt) (max_retries : Int) : Except ConnectError Json :=
  post_connect_loop attempts max_retries max_retries.toNat 1 "None"

/-- The name of the type in an `AttributeError`. -/
def type_name : Json → String
  | .null => "NoneType"
  | .bool _ => "bool"
  | .int _ => "int"
  | .float _ => "float"
  | .str _ => "str"
  | .arr _ => "list"
  | .obj _ => "dict"

variable (P : Pydantic) (L : Lowercase) (S : Services) (umask : Nat) (disk : Disk)

/-- `apply_node_bundle` of any JSON value. -/
def apply_json (value : Json) (s : Settings) : Except ConnectError (Settings × Disk) :=
  match value with
  | .obj bundle => apply_node_bundle P L S umask disk bundle s
  | value => .error (.other ("'" ++ type_name value ++ "' object has no attribute 'get'"))

/-- `_post_connect`, and then `apply_node_bundle`. -/
def fetch_and_apply (attempts : Nat → Attempt) (s : Settings) :
    Except ConnectError (Settings × Disk) := do
  let bundle ← post_connect attempts s.node_connect_retries
  apply_json P L S umask disk bundle s

/-! ## Discipline -/

/-- It returns, or raises `NodeError`. -/
def Orderly {α : Type} (x : Except ConnectError α) : Prop :=
  ∀ e, x = .error e → ∃ error, e = .node error

/-- A failure after which the next attempt follows. -/
def Attempt.Retried : Attempt → Prop
  | .response status _ _ _ => 500 ≤ status
  | .transport_error _ => True
  | .other_error _ => False

/-- The answer can be applied: if it counts as one it is a JSON object, and where it has a
QPU id its display name is a string. -/
def Attempt.Applicable : Attempt → Prop
  | .response status _ json _ => 200 ≤ status → status < 300 →
      ∃ bundle, json = .ok (.obj bundle) ∧
        ((∃ id, as_str bundle "qpu_id" = .ok id) → ∃ name, display_name bundle = .str name)
  | .transport_error _ => True
  | .other_error _ => False

/-- Every attempt that is made, from the `first` on, ends with what can be applied or is a
failure, and after the 1025th failure no further attempt is due. -/
def Answerable (attempts : Nat → Attempt) (max_retries : Int) (first : Nat) : Prop :=
  ∀ attempt : Nat, first ≤ attempt → (attempt : Int) ≤ max_retries →
    (∀ earlier, first ≤ earlier → earlier < attempt → (attempts earlier).Retried) →
    (attempts attempt).Applicable ∧
      ((attempts attempt).Retried → (attempt : Int) < max_retries → attempt ≤ 1024)

/-- No answer has a VPN profile in it. -/
def WithoutProfile (attempts : Nat → Attempt) : Prop :=
  ∀ attempt status text bundle status_error vpn,
    attempts attempt = .response status text (.ok (.obj bundle)) status_error →
    bundle.lookup "vpn" = some (.obj vpn) → nonempty_str (vpn.lookup "client_profile_ovpn") = none

/-- What is relied on of an assignment: no other value is taken for a string, a `bool` is
taken for an integer, and, the persisted state being readable, settings that pass
`check_jwt_or_node_token` are accepted with their token. -/
structure Assigns : Prop where
  only_str : ∀ value, (∀ s, value ≠ .str s) → P.parse .str value = none
  bool_int : ∀ b, ∃ i, P.parse .int (.bool b) = some i
  accepts : ∀ s, check_jwt_or_node_token s = .ok s →
    ∃ s', S.revalidate disk s = .ok s' ∧ s'.node_token = s.node_token

variable {P L S umask disk}

namespace Orderly

variable {α β : Type}

theorem ok (a : α) : Orderly (.ok a : Except ConnectError α) := fun _ h => nomatch h

theorem of_message (message : String) :
    Orderly (.error (.of_message message) : Except ConnectError α) := by
  intro e h
  cases h
  exact ⟨_, rfl⟩

theorem not_other (message : String) :
    ¬ Orderly (.error (.other message) : Except ConnectError α) := by
  intro h
  obtain ⟨error, herror⟩ := h _ rfl
  cases herror

theorem bind_iff {x : Except ConnectError α} {f : α → Except ConnectError β} :
    Orderly (x >>= f) ↔ Orderly x ∧ ∀ a, x = .ok a → Orderly (f a) := by
  cases x with
  | error e =>
      constructor
      · exact fun h => ⟨fun e' he => h e' (by cases he; rfl), fun a ha => nomatch ha⟩
      · exact fun h e' he => h.1 e' (by cases he; rfl)
  | ok a =>
      constructor
      · exact fun h => ⟨ok a, fun b hb => by cases hb; exact h⟩
      · exact fun h => h.2 a rfl

end Orderly

/-! ## Assignments -/

/-- The settings have a token or credentials. -/
def Usable (s : Settings) : Prop := check_jwt_or_node_token s = .ok s

theorem usable_iff {s : Settings} : Usable s ↔ s.node_token ≠ "" ∨ Keyed s := by
  unfold Usable check_jwt_or_node_token Keyed
  by_cases htoken : s.node_token ≠ ""
  · simp [htoken]
  · by_cases hkey : s.jwt_private_key = ""
    · simp [htoken, hkey]
    · by_cases hid : s.jwt_key_id = ""
      · simp [htoken, hkey, hid]
      · simp [htoken, hkey, hid]

/-- An assignment that leaves usable settings goes through. -/
theorem Assigns.revalidate (h : Assigns P S disk) {s : Settings} (hs : Usable s) :
    ∃ s', S.revalidate disk s = .ok s' ∧ Usable s' := by
  obtain ⟨s', hs', htoken⟩ := h.accepts s hs
  refine ⟨s', hs', usable_iff.2 ?_⟩
  rcases usable_iff.1 hs with ht | hk
  · exact .inl (by rw [htoken]; exact ht)
  · exact .inr (hk.revalidate hs' ⟨rfl, rfl⟩)

/-- It is orderly, and what it returns is usable. -/
def Yields (x : Except ConnectError Settings) : Prop :=
  Orderly x ∧ ∀ s, x = .ok s → Usable s

theorem Yields.bind {α : Type} {x : Except ConnectError α}
    {f : α → Except ConnectError Settings} (hx : Orderly x) (hf : ∀ a, x = .ok a → Yields (f a)) :
    Yields (x >>= f) := by
  refine ⟨Orderly.bind_iff.2 ⟨hx, fun a ha => (hf a ha).1⟩, fun s hs => ?_⟩
  obtain ⟨a, ha, hs⟩ := bind_ok.1 hs
  exact (hf a ha).2 s hs

theorem Yields.ok {s : Settings} (hs : Usable s) : Yields (.ok s) :=
  ⟨.ok s, fun t ht => by cases ht; exact hs⟩

/-- The next step starts from usable settings. -/
theorem Yields.next {x : Except ConnectError Settings} {f : Settings → Except ConnectError Settings}
    (hx : Yields x) (hf : ∀ s, Usable s → Yields (f s)) : Yields (x >>= f) :=
  .bind hx.1 fun s hs => hf s (hx.2 s hs)

theorem Assigns.yields (h : Assigns P S disk) {s : Settings} (hs : Usable s) :
    Yields (S.revalidate disk s) := by
  obtain ⟨s', hs', hu⟩ := h.revalidate hs
  rw [hs']
  exact .ok hu

theorem Assigns.yields_some {α : Type} (h : Assigns P S disk) {value : Option α}
    {set : α → Settings} {s : Settings} (hs : Usable s) (hset : ∀ v, Usable (set v)) :
    Yields (S.assign_some disk value set s) := by
  cases value with
  | none => exact .ok hs
  | some v => exact h.yields (hset v)

theorem Assigns.yields_parsed (h : Assigns P S disk) {kind : Kind} {value : Json}
    {set : kind.Value → Settings} (hvalue : ∃ v, P.parse kind value = some v)
    (hset : ∀ v, Usable (set v)) : Yields (S.assign P disk kind value set) := by
  obtain ⟨v, hv⟩ := hvalue
  rw [Services.assign, hv]
  exact h.yields (hset v)

/-! ## Applying a bundle -/

section Apply

variable {bundle : List (String × Json)} {s : Settings}

theorem Usable.of_eq {t : Settings} (hs : Usable s) (htoken : t.node_token = s.node_token)
    (hkey : t.jwt_private_key = s.jwt_private_key) (hid : t.jwt_key_id = s.jwt_key_id) :
    Usable t := by
  rw [usable_iff, Keyed, htoken, hkey, hid]
  exact usable_iff.1 hs

theorem orderly_as_str (data : List (String × Json)) (key : String) :
    Orderly (as_str data key) := by
  unfold as_str
  split
  · split
    · exact .of_message _
    · exact .ok _
  · exact .of_message _

/-- What `_as_int` returns is an integer to pydantic. -/
theorem Assigns.as_int_parsed (h : Assigns P S disk) {key : String} {default : Int} {value : Json}
    (hvalue : as_int bundle key default = .ok value) : ∃ i, P.parse .int value = some i := by
  unfold as_int at hvalue
  split at hvalue
  · cases hvalue
    exact ⟨_, P.parse_int _⟩
  · cases hvalue
    exact ⟨_, P.parse_int _⟩
  · cases hvalue
    exact h.bool_int _
  · cases hvalue

theorem orderly_as_int (key : String) (default : Int) : Orderly (as_int bundle key default) := by
  unfold as_int
  split
  · exact .ok _
  · exact .ok _
  · exact .ok _
  · exact .of_message _

/-- The identity is applied, unless there is a QPU id and the display name is no string. -/
theorem Assigns.yields_identity (h : Assigns P S disk) (hs : Usable s)
    (hname : (∃ id, as_str bundle "qpu_id" = .ok id) → ∃ name, display_name bundle = .str name) :
    Yields (apply_identity P S disk bundle s) := by
  refine .bind (orderly_as_str _ _) fun id hid => ?_
  obtain ⟨name, hname⟩ := hname ⟨id, hid⟩
  refine .next (h.yields (hs.of_eq rfl rfl rfl)) fun s₁ h₁ => ?_
  refine .next (h.yields_parsed ⟨name, ?_⟩ fun _ => h₁.of_eq rfl rfl rfl) fun s₂ h₂ => ?_
  · rw [hname]
    exact P.parse_str name
  · refine .bind (orderly_as_str _ _) fun gates _ => ?_
    refine .next (h.yields (h₂.of_eq rfl rfl rfl)) fun s₃ h₃ => ?_
    refine .bind (orderly_as_int _ _) fun qubits hqubits => ?_
    exact h.yields_parsed (h.as_int_parsed hqubits) fun _ => h₃.of_eq rfl rfl rfl

/-- Otherwise pydantic's error escapes. -/
theorem Assigns.identity_escapes (h : Assigns P S disk) (hs : Usable s) {id : String}
    (hid : as_str bundle "qpu_id" = .ok id) (hname : ∀ name, display_name bundle ≠ .str name) :
    ¬ Orderly (apply_identity P S disk bundle s) := by
  obtain ⟨s₁, h₁, -⟩ := h.revalidate (s := { s with qpu_id := id }) (hs.of_eq rfl rfl rfl)
  intro horderly
  have hafter := (Orderly.bind_iff.1 horderly).2 id hid
  have hassign := (Orderly.bind_iff.1 ((Orderly.bind_iff.1 hafter).2 s₁ h₁)).1
  obtain ⟨error, herror⟩ := hassign (.validation "Input should be valid") (by
    unfold Services.assign
    rw [h.only_str _ hname])
  cases herror

theorem Assigns.yields_credential (h : Assigns P S disk) {name current : String}
    {value : Option String} {set : String → Settings} (hs : Usable s)
    (hset : ∀ v, value = some v → Usable (set v)) :
    Yields (S.assign_credential disk name value current set s) := by
  cases value with
  | some v => exact h.yields (hset v rfl)
  | none =>
      show Yields (if current = "" then _ else _)
      split
      · exact ⟨.of_message _, fun t ht => nomatch ht⟩
      · exact .ok hs

theorem Assigns.yields_credentials (h : Assigns P S disk) (hs : Usable s) :
    Yields (apply_credentials S disk bundle s) := by
  refine .next (h.yields_credential hs fun key hkey => ?_) fun s₁ h₁ =>
    h.yields_credential h₁ fun id hid => ?_
  · rcases usable_iff.1 hs with htoken | hk
    · exact usable_iff.2 (.inl htoken)
    · exact usable_iff.2 (.inr ⟨nonempty_str_ne hkey, hk.2⟩)
  · rcases usable_iff.1 h₁ with htoken | hk
    · exact usable_iff.2 (.inl htoken)
    · exact usable_iff.2 (.inr ⟨hk.1, nonempty_str_ne hid⟩)

theorem Assigns.yields_endpoints (h : Assigns P S disk) (hs : Usable s) :
    Yields (apply_endpoints S disk bundle s) := by
  refine .bind (orderly_as_str _ _) fun url _ => ?_
  refine .next (h.yields (hs.of_eq rfl rfl rfl)) fun s₁ h₁ => ?_
  refine .bind (orderly_as_str _ _) fun webapp _ => ?_
  refine .next (h.yields (h₁.of_eq rfl rfl rfl)) fun s₂ h₂ => ?_
  refine .next (h.yields_some h₂ fun _ => h₂.of_eq rfl rfl rfl) fun s₃ h₃ => ?_
  refine .next (h.yields_some h₃ fun _ => h₃.of_eq rfl rfl rfl) fun s₄ h₄ => ?_
  exact h.yields_some h₄ fun _ => h₄.of_eq rfl rfl rfl

theorem Assigns.yields_vpn (h : Assigns P S disk) {vpn : List (String × Json)} (hs : Usable s) :
    Yields (apply_vpn P S disk vpn s) := by
  refine .next (h.yields_some hs fun _ => hs.of_eq rfl rfl rfl) fun s₁ h₁ => ?_
  refine .next (h.yields_some h₁ fun _ => h₁.of_eq rfl rfl rfl) fun s₂ h₂ => ?_
  refine .next ?_ fun s₃ h₃ => h.yields_some h₃ fun _ => h₃.of_eq rfl rfl rfl
  cases hinterval : interval_of (vpn.lookup "check_interval_sec") with
  | none => exact .ok h₂
  | some value =>
      refine h.yields_parsed ?_ fun _ => h₂.of_eq rfl rfl rfl
      unfold interval_of at hinterval
      split at hinterval
      · cases hinterval
        exact ⟨_, P.parse_int _⟩
      · cases hinterval
        exact h.bool_int _
      · cases hinterval

/-- Without a profile the VPN part of a bundle starts nothing. -/
theorem orderly_install_vpn {vpn : List (String × Json)}
    (hprofile : nonempty_str (vpn.lookup "client_profile_ovpn") = none) :
    Orderly (install_vpn L S umask disk vpn s) := by
  unfold install_vpn
  rw [hprofile]
  show Orderly (if s.vpn_required = true then _ else _)
  split
  · exact .of_message _
  · exact .ok _

/-- A bundle is applied in an orderly way exactly if its display name is a string, unless it
fails before. -/
theorem Assigns.orderly_apply_iff (h : Assigns P S disk) (hs : Usable s)
    (hprofile : ∀ vpn, bundle.lookup "vpn" = some (.obj vpn) →
      nonempty_str (vpn.lookup "client_profile_ovpn") = none) :
    Orderly (apply_node_bundle P L S umask disk bundle s) ↔
      ((∃ id, as_str bundle "qpu_id" = .ok id) → ∃ name, display_name bundle = .str name) := by
  constructor
  · rintro horderly ⟨id, hid⟩
    by_contra hname
    rw [not_exists] at hname
    exact h.identity_escapes hs hid hname (Orderly.bind_iff.1 horderly).1
  · intro hname
    have hidentity := h.yields_identity hs hname
    refine Orderly.bind_iff.2 ⟨hidentity.1, fun s₁ h₁ => ?_⟩
    have hcredentials : Yields (apply_credentials S disk bundle s₁) :=
      h.yields_credentials (hidentity.2 s₁ h₁)
    refine Orderly.bind_iff.2 ⟨hcredentials.1, fun s₂ h₂ => ?_⟩
    have hendpoints : Yields (apply_endpoints S disk bundle s₂) :=
      h.yields_endpoints (hcredentials.2 s₂ h₂)
    refine Orderly.bind_iff.2 ⟨hendpoints.1, fun s₃ h₃ => ?_⟩
    split
    · next vpn hvpn =>
        have hyields : Yields (apply_vpn P S disk vpn s₃) := h.yields_vpn (hendpoints.2 s₃ h₃)
        refine Orderly.bind_iff.2 ⟨hyields.1, fun s₄ h₄ => ?_⟩
        exact Orderly.bind_iff.2 ⟨orderly_install_vpn (hprofile vpn hvpn), fun _ _ => .ok _⟩
    · exact .ok _

end Apply

/-! ## The attempts -/

section Attempts

variable {attempts : Nat → Attempt} {max_retries : Int} {s : Settings}

/-- The first attempt, and the others if they are made. -/
theorem answerable_step {first : Nat} (hfirst : (first : Int) ≤ max_retries) :
    Answerable attempts max_retries first ↔
      (attempts first).Applicable ∧ ((attempts first).Retried →
        ((first : Int) < max_retries → first ≤ 1024) ∧
          Answerable attempts max_retries (first + 1)) := by
  constructor
  · intro h
    obtain ⟨happly, hlast⟩ := h first (Nat.le_refl _) hfirst fun earlier hle hlt => by omega
    refine ⟨happly, fun hretried => ⟨hlast hretried, fun attempt hle hmax hearlier => ?_⟩⟩
    refine h attempt (by omega) hmax fun earlier hle' hlt => ?_
    by_cases heq : earlier = first
    · rw [heq]
      exact hretried
    · exact hearlier earlier (by omega) hlt
  · rintro ⟨happly, hnext⟩ attempt hle hmax hearlier
    by_cases heq : attempt = first
    · rw [heq]
      exact ⟨happly, fun hretried => (hnext hretried).1⟩
    · have hretried := hearlier first (Nat.le_refl _) (by omega)
      exact (hnext hretried).2 attempt (by omega) hmax
        fun earlier hle' hlt => hearlier earlier (by omega) hlt

/-- What follows a failure is orderly, unless the delay overflows. -/
theorem orderly_wait_iff {attempt : Nat} (hattempt : 1 ≤ attempt) {α β : Type}
    {next : Except ConnectError α} {f : α → Except ConnectError β} :
    Orderly ((do wait_before_next max_retries attempt; next) >>= f) ↔
      ((attempt : Int) < max_retries → attempt ≤ 1024) ∧ Orderly (next >>= f) := by
  unfold wait_before_next retry_delay
  by_cases hmore : (attempt : Int) < max_retries
  · rw [if_pos hmore]
    by_cases hsmall : attempt - 1 ≤ 1023
    · rw [if_pos hsmall]
      exact ⟨fun h => ⟨fun _ => by omega, h⟩, fun h => h.2⟩
    · rw [if_neg hsmall]
      refine iff_of_false (Orderly.not_other _) fun h => ?_
      have hle := h.1 hmore
      omega
  · rw [if_neg hmore]
    exact ⟨fun h => ⟨fun hlt => absurd hlt hmore, h⟩, fun h => h.2⟩

/-- An answer is applied in an orderly way exactly if it is applicable. -/
theorem Assigns.orderly_answer_iff (h : Assigns P S disk) (hs : Usable s)
    {json : Except String Json}
    (hprofile : ∀ bundle vpn, json = .ok (.obj bundle) → bundle.lookup "vpn" = some (.obj vpn) →
      nonempty_str (vpn.lookup "client_profile_ovpn") = none) :
    Orderly (json.mapError ConnectError.other >>= fun v => apply_json P L S umask disk v s) ↔
      ∃ bundle, json = .ok (.obj bundle) ∧
        ((∃ id, as_str bundle "qpu_id" = .ok id) → ∃ name, display_name bundle = .str name) := by
  cases json with
  | error message =>
      refine iff_of_false (Orderly.not_other message) ?_
      rintro ⟨bundle, hbundle, -⟩
      cases hbundle
  | ok value =>
      show Orderly (apply_json P L S umask disk value s) ↔ _
      cases value with
      | obj bundle =>
          refine (h.orderly_apply_iff hs fun vpn hvpn => hprofile bundle vpn rfl hvpn).trans ?_
          constructor
          · exact fun hname => ⟨bundle, rfl, hname⟩
          · rintro ⟨_, heq, hname⟩
            cases heq
            exact hname
      | _ =>
          refine iff_of_false (Orderly.not_other _) ?_
          rintro ⟨bundle, hbundle, -⟩
          cases hbundle

/-- The attempts from the `attempt`-th on. -/
theorem Assigns.orderly_loop_iff (h : Assigns P S disk) (hs : Usable s)
    (hprofile : WithoutProfile attempts) {left attempt : Nat} (hattempt : 1 ≤ attempt)
    (hcount : attempt + left = max_retries.toNat + 1) (last_exc : String) :
    Orderly (post_connect_loop attempts max_retries left attempt last_exc >>=
        fun v => apply_json P L S umask disk v s) ↔
      Answerable attempts max_retries attempt := by
  induction left generalizing attempt last_exc with
  | zero =>
      refine iff_of_true (Orderly.of_message _) fun k hle hmax _ => ?_
      omega
  | succ left ih =>
      have hmax : (attempt : Int) ≤ max_retries := by omega
      have hnext := @ih (attempt + 1) (by omega) (by omega)
      rw [answerable_step hmax, post_connect_loop]
      cases hout : attempts attempt with
      | other_error message =>
          exact iff_of_false (Orderly.not_other message) fun hgood => hgood.1
      | transport_error message =>
          refine (orderly_wait_iff hattempt).trans ?_
          rw [hnext message]
          exact ⟨fun hgood => ⟨trivial, fun _ => hgood⟩, fun hgood => hgood.2 trivial⟩
      | response status text json status_error =>
          have hjson : ∀ bundle vpn, json = .ok (.obj bundle) →
              bundle.lookup "vpn" = some (.obj vpn) →
              nonempty_str (vpn.lookup "client_profile_ovpn") = none := by
            rintro bundle vpn rfl hvpn
            exact hprofile attempt status text bundle status_error vpn hout hvpn
          have happlicable : (Attempt.response status text json status_error).Applicable =
              (200 ≤ status → status < 300 → ∃ bundle, json = .ok (.obj bundle) ∧
                ((∃ id, as_str bundle "qpu_id" = .ok id) →
                  ∃ name, display_name bundle = .str name)) := rfl
          have hretried : (Attempt.response status text json status_error).Retried =
              (500 ≤ status) := rfl
          rw [happlicable, hretried]
          by_cases hsuccess : 200 ≤ status ∧ status < 300
          · simp only [if_pos hsuccess]
            refine (h.orderly_answer_iff hs hjson).trans ?_
            exact ⟨fun hgood => ⟨fun _ _ => hgood, fun hge => by omega⟩,
              fun hgood => hgood.1 hsuccess.1 hsuccess.2⟩
          · simp only [if_neg hsuccess]
            by_cases hclient : status < 500
            · simp only [if_pos hclient]
              refine iff_of_true (Orderly.of_message _) ⟨fun hge hlt => ?_, fun hge => ?_⟩
              · exact absurd ⟨hge, hlt⟩ hsuccess
              · omega
            · simp only [if_neg hclient]
              refine (orderly_wait_iff hattempt).trans ?_
              rw [hnext status_error]
              refine ⟨fun hgood => ⟨fun hge hlt => ?_, fun _ => hgood⟩, fun hgood => ?_⟩
              · exact absurd ⟨hge, hlt⟩ hsuccess
              · exact hgood.2 (by omega)

end Attempts

/-- **Connecting is orderly exactly if every answer can be applied.** -/
theorem connect_orderly_iff (P : Pydantic) (L : Lowercase) (S : Services) (umask : Nat)
    (disk : Disk) (attempts : Nat → Attempt) (s : Settings) (hassigns : Assigns P S disk)
    (hs : check_jwt_or_node_token s = .ok s) (hprofile : WithoutProfile attempts) :
    Orderly (fetch_and_apply P L S umask disk attempts s) ↔
      Answerable attempts s.node_connect_retries 1 :=
  hassigns.orderly_loop_iff hs hprofile (Nat.le_refl 1) (Nat.add_comm _ _) "None"

/-! ## Two endpoints -/

/-- A validation that takes a `bool` for an integer. -/
def lax : Pydantic where
  parse
    | .int, .bool b => some (if b then (1 : Int) else (0 : Int))
    | kind, value => strict.parse kind value
  parse_str _ := rfl
  parse_int _ := rfl
  parse_bool _ := rfl
  parse_opt_str := strict.parse_opt_str
  parse_str_list := strict.parse_str_list

theorem lax_assigns (disk : Disk) : Assigns lax provisioning disk where
  only_str := by
    intro value hvalue
    cases value with
    | str s => exact absurd rfl (hvalue s)
    | _ => rfl
  bool_int b := ⟨_, rfl⟩
  accepts s _ := ⟨s, rfl, rfl⟩

/-- An endpoint that is busy at first, and then answers with this. -/
def busy_then (status : Nat) (text : String) (json : Except String Json) (attempt : Nat) :
    Attempt :=
  if attempt = 1 then
    .response 503 [] (.error "Expecting value: line 1 column 1 (char 0)")
      "Server error '503 Service Unavailable'"
  else .response status text.toList json ""

theorem busy_without_profile {status : Nat} {text : String} {json : Except String Json}
    (h : ∀ bundle vpn, json = .ok (.obj bundle) → bundle.lookup "vpn" ≠ some (.obj vpn)) :
    WithoutProfile (busy_then status text json) := by
  intro attempt status' text' bundle status_error vpn hattempt hvpn
  unfold busy_then at hattempt
  split at hattempt
  · cases hattempt
  · cases hattempt
    exact absurd hvpn (h bundle vpn rfl)

/-- The second attempt brings a bundle. -/
theorem busy_endpoint_connects : Orderly (fetch_and_apply lax Lowercase.simple provisioning 0o022
    (fun _ => none) (busy_then 200 "" (.ok (.obj provisioned_bundle))) unprovisioned) := by
  refine (connect_orderly_iff lax Lowercase.simple provisioning 0o022 (fun _ => none)
    (busy_then 200 "" (.ok (.obj provisioned_bundle))) unprovisioned (lax_assigns _) rfl
    (busy_without_profile fun bundle vpn hbundle => ?_)).2 ?_
  · cases hbundle
    exact fun hvpn => nomatch hvpn
  · intro attempt hle hmax hearlier
    by_cases hone : attempt = 1
    · subst hone
      exact ⟨fun _ hlt => absurd hlt (by decide), fun _ _ => by decide⟩
    · have hanswer : busy_then 200 "" (.ok (.obj provisioned_bundle)) attempt =
          .response 200 [] (.ok (.obj provisioned_bundle)) "" := if_neg hone
      rw [hanswer]
      refine ⟨fun _ _ => ⟨provisioned_bundle, rfl, fun _ => ⟨_, rfl⟩⟩, fun hge => ?_⟩
      have hserver : 500 ≤ 200 := hge
      omega

/-- A page of a captive portal: a 200 that is no JSON. -/
theorem html_page_escapes :
    ¬ ∀ (P : Pydantic) (L : Lowercase) (S : Services) (umask : Nat) (disk : Disk)
      (attempts : Nat → Attempt) (s : Settings), Assigns P S disk →
      check_jwt_or_node_token s = .ok s → WithoutProfile attempts →
      Orderly (fetch_and_apply P L S umask disk attempts s) := by
  intro hclaim
  have horderly := hclaim lax Lowercase.simple provisioning 0o022 (fun _ => none)
    (fun _ => .response 200 "<html>".toList (.error "Expecting value: line 1 column 1 (char 0)") "")
    unprovisioned (lax_assigns _) rfl (fun _ _ _ _ _ _ hattempt => nomatch hattempt)
  exact Orderly.not_other _ horderly

end CodaNode.Config
