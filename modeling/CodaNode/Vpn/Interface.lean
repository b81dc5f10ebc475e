/-
`Vpn/Interface.lean` -- which tunnel interface is taken to be active.

On Linux the answer is read off the output of `ip link`: with a hint the output is searched
for the letters of "up", and without one the first name of the listing is taken. Neither
looks at the flags, so an interface that is down is found as well.
-/
import Mathlib.Data.List.Nodup
import CodaNode.Text.Json

set_option autoImplicit false

namespace CodaNode.Vpn

/-! ## `detect_tun_interface` -/

/-- `platform.system()`, where every name but the first two goes the way of `linux`. -/
inductive System where
  | darwin
  | windows
  | linux
  deriving DecidableEq, Repr

/-- What `subprocess.run` ends with. -/
inductive Outcome where
  | completed (returncode : Int) (stdout : Text)
  | file_not_found
  | timeout_expired
  deriving DecidableEq, Repr

/-- `text.startswith(head)`. -/
def startswith (text head : Text) : Bool := head.isPrefixOf text

/-- The `for` loop of `_parse_darwin_tun_interfaces`. -/
def parse_darwin_lines (current_iface : Option Text) : List Text → Option Text
  | [] => none
  | line :: rest =>
      if (line.head?.any fun c => !is_space c) then
        parse_darwin_lines ((line.splitOn ':').head?) rest
      else match current_iface with
        | none => parse_darwin_lines none rest
        | some iface =>
            if (startswith iface "utun".toList || startswith iface "tun".toList) &&
                startswith (strip line) "inet ".toList then some iface
            else parse_darwin_lines (some iface) rest

/-- `_parse_darwin_tun_interfaces`. -/
def parse_darwin_tun_interfaces (ifconfig_output : Text) : Option Text :=
  parse_darwin_lines none (splitlines ifconfig_output)

/-- The markers of a TAP or WinTUN adapter. -/
def adapter_markers : List Text :=
  ["tap-windows", "wintun", "openvpn", "tap adapter"].map String.toList

/-- One turn of the loop of `_parse_windows_tun_interfaces`. -/
def active_adapter (L : Lowercase) (hint : Text) (adapter : Json) : Option Text :=
  match adapter with
  | .obj fields =>
      match fields.lookup "Name", fields.lookup "InterfaceDescription",
        fields.lookup "Status" with
      | some (.str name), some (.str description), some (.str status) =>
          let hint_lower := L.lower hint
          let description_lower := L.lower description.toList
          if L.lower status.toList ≠ "up".toList then none
          else if hint_lower ≠ [] && !contains hint_lower (L.lower name.toList) &&
              !contains hint_lower description_lower then none
          else if adapter_markers.any (contains · description_lower) then some name.toList
          else none
      | _, _, _ => none
  | _ => none

/-- `_parse_windows_tun_interfaces`; no hint is the empty one. -/
def parse_windows_tun_interfaces (L : Lowercase) (C : JsonCodec) (adapter_json hint : Text) :
    Option Text :=
  match C.loads adapter_json with
  | .error _ => none
  | .ok (.obj fields) => active_adapter L hint (.obj fields)
  | .ok (.arr adapters) => adapters.findSome? (active_adapter L hint)
  | .ok _ => none

/-- `Get-NetAdapter` through PowerShell. -/
def get_net_adapter : List Text :=
  ["powershell", "-NoProfile", "-Command",
    "Get-NetAdapter -IncludeHidden | Select-Object Name,InterfaceDescription,Status | " ++
      "ConvertTo-Json -Compress"].map String.toList

/-- `ip link show <hint>`. -/
def ip_link_show (hint : Text) : List Text := ["ip".toList, "link".toList, "show".toList, hint]

/-- `ip -o link show type tun`. -/
def ip_link_tun : List Text := ["ip", "-o", "link", "show", "type", "tun"].map String.toList

/-- The command that is run. -/
def tun_command : System → Text → List Text
  | .darwin, [] => ["ifconfig".toList]
  | .darwin, hint => ["ifconfig".toList, hint]
  | .windows, _ => get_net_adapter
  | .linux, [] => ip_link_tun
  | .linux, hint => ip_link_show hint

/-- The `for` loop over the listing of `ip`. -/
def first_listed : List Text → Option Text
  | [] => none
  | line :: rest =>
      match line.splitOn ':' with
      | _ :: name :: _ => some (strip name)
      | _ => first_listed rest

/-- `detect_tun_interface`; no hint is the empty one. -/
def detect_tun_interface (L : Lowercase) (C : JsonCodec) (system : System)
    (run : List Text → Outcome) (hint : Text) : Option Text :=
  match run (tun_command system hint) with
  | .file_not_found => none
  | .timeout_expired => none
  | .completed returncode stdout =>
      match system with
      | .windows => parse_windows_tun_interfaces L C stdout hint
      | .darwin =>
          if hint = [] then parse_darwin_tun_interfaces stdout
          else if returncode = 0 ∧ (contains "UP".toList stdout ∨ contains "up".toList stdout) then
            some hint
          else none
      | .linux =>
          if hint = [] then first_listed (splitlines stdout)
          else if returncode = 0 ∧ (contains "UP".toList stdout ∨ contains "up".toList stdout) then
            some hint
          else none

/-! ## What `ip` prints -/

/-- The text is on one line. -/
def Unbroken (text : Text) : Prop := ∀ c ∈ text, is_linebreak c = false

/-- An interface as `ip link` prints it. Of the name, only what the kernel asks of one is
known; the texts between the fields are any. -/
structure Interface where
  index : Nat
  name : Text
  flags : List Text
  mtu : Text
  state : Text
  mode : Text
  group : Text
  details : Text
  /-- The lines after the first one. -/
  more : List Text
  name_word : IsWord name
  name_plain : ':' ∉ name
  flags_plain : ∀ flag ∈ flags, ',' ∉ flag ∧ '>' ∉ flag
  unbroken : ∀ part ∈ mtu :: state :: mode :: group :: details :: (flags ++ more), Unbroken part

namespace Interface

/-- The flags say that the interface is up. -/
def Up (i : Interface) : Prop := "UP".toList ∈ i.flags

instance (i : Interface) : Decidable i.Up := inferInstanceAs (Decidable (_ ∈ _))

/-- What stands after the name. -/
def fields (i : Interface) : Text :=
  " <".toList ++ [','].intercalate i.flags ++ "> mtu ".toList ++ i.mtu ++ " state ".toList ++
    i.state ++ i.mode ++ " group ".toList ++ i.group ++ i.details

/-- `<index>: <name>: <FLAG,FLAG,...> mtu ... state <STATE> ... group <group> ...`. -/
def head (i : Interface) : Text :=
  Nat.toDigits 10 i.index ++ ':' :: ' ' :: i.name ++ ':' :: i.fields

/-- The interface on one line, as `ip -o` prints it. -/
def oneline (i : Interface) : Text := ['\\'].intercalate (i.head :: i.more)

/-- The interface on several lines. -/
def shown (i : Interface) : Text := ['\n'].intercalate (i.head :: i.more)

end Interface

/-- The commands print these interfaces: the hinted one if it exists, or the tunnels one per
line. -/
structure Prints (run : List Text → Outcome) (hint : Text) (returncode : Int)
    (interfaces : List Interface) : Prop where
  /-- No two interfaces share a name. -/
  distinct : (interfaces.map Interface.name).Nodup
  hinted : hint ≠ [] → (∀ i ∈ interfaces, i.name = hint) ∧
    run (ip_link_show hint) =
      .completed returncode (interfaces.map fun i => i.shown ++ ['\n']).flatten
  listed : hint = [] →
    run ip_link_tun = .completed returncode (interfaces.map fun i => i.oneline ++ ['\n']).flatten

/-- A name is returned only if its interface is up, and without a hint none is returned
exactly if no interface is up. -/
def OnlyUp (hint : Text) (interfaces : List Interface) (found : Option Text) : Prop :=
  (∀ name, found = some name → ∃ i ∈ interfaces, i.name = name ∧ i.Up) ∧
    (hint = [] → (found = none ↔ ∀ i ∈ interfaces, ¬ i.Up))

/-- What the code looks at is up: with a hint whatever a successful command prints, and
without one the first interface of the listing. -/
def LooksUp (hint : Text) (returncode : Int) (interfaces : List Interface) : Prop :=
  if hint = [] then ∀ i ∈ interfaces.head?, i.Up
  else returncode = 0 → ∀ i ∈ interfaces, i.Up

section Detection

variable {L : Lowercase} {C : JsonCodec} {run : List Text → Outcome} {hint : Text}
  {returncode : Int} {interfaces : List Interface}

theorem Unbroken.append {a b : Text} (ha : Unbroken a) (hb : Unbroken b) : Unbroken (a ++ b) := by
  intro c hc
  rcases List.mem_append.1 hc with hc | hc
  · exact ha c hc
  · exact hb c hc

theorem unbroken_intercalate {sep : Text} {parts : List Text} (hsep : Unbroken sep)
    (hparts : ∀ part ∈ parts, Unbroken part) : Unbroken (sep.intercalate parts) := by
  intro c hc
  rcases mem_of_mem_intercalate hc with hc | ⟨part, hpart, hc⟩
  · exact hsep c hc
  · exact hparts part hpart c hc

theorem unbroken_of_all {text : Text} (h : text.all (fun c => !is_linebreak c) = true) :
    Unbroken text := by
  intro c hc
  have hplain := List.all_eq_true.1 h c hc
  rwa [Bool.not_eq_true'] at hplain

theorem unbroken_index (n : Nat) : Unbroken (Nat.toDigits 10 n) := by
  intro c hc
  have hdigit : c.isDigit = true := Nat.isDigit_of_mem_toDigits (by omega) (by omega) hc
  rw [Char.isDigit, Bool.and_eq_true, decide_eq_true_eq, decide_eq_true_eq] at hdigit
  have hlow : 48 ≤ c.toNat := hdigit.1
  have hhigh : c.toNat ≤ 57 := hdigit.2
  simp only [is_linebreak, Bool.or_eq_false_iff, Bool.and_eq_false_iff, decide_eq_false_iff_not,
    beq_eq_false_iff_ne]
  omega

theorem index_plain (n : Nat) : ':' ∉ Nat.toDigits 10 n := by
  intro h
  have hdigit : ':'.isDigit = true := Nat.isDigit_of_mem_toDigits (by omega) (by omega) h
  exact absurd hdigit (by decide)

theorem splitOn_cons {a : Text} (rest : Text) (ha : ':' ∉ a) :
    (a ++ ':' :: rest).splitOn ':' = a :: rest.splitOn ':' := by
  rw [List.splitOn, List.splitOn]
  refine List.splitOnP_append_cons_of_forall_mem (fun c hc => ?_) ':' (by decide) rest
  rw [beq_eq_false_iff_ne]
  rintro rfl
  exact ha hc

namespace Interface

variable (i : Interface)

theorem unbroken_name : Unbroken i.name := by
  intro c hc
  cases hbreak : is_linebreak c with
  | false => rfl
  | true =>
      have hspace := is_space_of_is_linebreak hbreak
      rw [i.name_word.2 c hc] at hspace
      exact absurd hspace Bool.false_ne_true

theorem unbroken_fields : Unbroken i.fields := by
  have hmtu := i.unbroken i.mtu (by simp)
  have hstate := i.unbroken i.state (by simp)
  have hmode := i.unbroken i.mode (by simp)
  have hgroup := i.unbroken i.group (by simp)
  have hdetails := i.unbroken i.details (by simp)
  have hflags : Unbroken ([','].intercalate i.flags) := by
    refine unbroken_intercalate (unbroken_of_all (by decide)) fun flag hflag => ?_
    exact i.unbroken flag (by simp [hflag])
  have hopen : Unbroken " <".toList := unbroken_of_all (by decide)
  have hclose : Unbroken "> mtu ".toList := unbroken_of_all (by decide)
  have hstate' : Unbroken " state ".toList := unbroken_of_all (by decide)
  have hgroup' : Unbroken " group ".toList := unbroken_of_all (by decide)
  exact (((((((((hopen.append hflags).append hclose).append hmtu).append hstate').append
    hstate).append hmode).append hgroup').append hgroup).append hdetails)

theorem unbroken_head : Unbroken i.head := by
  have hcolon : Unbroken [':'] := unbroken_of_all (by decide)
  have hspace : Unbroken [':', ' '] := unbroken_of_all (by decide)
  have hname := (unbroken_index i.index).append (hspace.append i.unbroken_name)
  have hhead := hname.append (hcolon.append i.unbroken_fields)
  rw [head]
  simpa using hhead

theorem unbroken_oneline : Unbroken i.oneline := by
  refine unbroken_intercalate (unbroken_of_all (by decide)) fun part hpart => ?_
  rcases List.mem_cons.1 hpart with rfl | hpart
  · exact i.unbroken_head
  · exact i.unbroken part (by simp [hpart])

theorem head_prefix (sep : Text) : i.head <+: sep.intercalate (i.head :: i.more) := by
  cases i.more with
  | nil =>
      rw [show sep.intercalate [i.head] = i.head by simp [List.intercalate]]
  | cons a rest =>
      rw [intercalate_cons_cons]
      exact List.prefix_append _ _

/-- The second part of the line is the name. -/
theorem oneline_parts :
    ∃ rest, i.oneline.splitOn ':' = Nat.toDigits 10 i.index :: (' ' :: i.name) :: rest := by
  obtain ⟨tail, htail⟩ := i.head_prefix ['\\']
  have hname : ':' ∉ ' ' :: i.name := by
    intro h
    rcases List.mem_cons.1 h with h | h
    · exact absurd h (by decide)
    · exact i.name_plain h
  refine ⟨(i.fields ++ tail).splitOn ':', ?_⟩
  rw [← splitOn_cons _ hname, ← splitOn_cons _ (index_plain i.index), oneline, ← htail, head]
  simp

theorem strip_name : strip (' ' :: i.name) = i.name := by
  obtain ⟨b, hb, hpre⟩ := i.name_word.rstrip_append (b := [])
  have hspace : ∀ c ∈ [' '], is_space c = true := by
    intro c hc
    rw [List.mem_singleton.1 hc]
    decide
  have hhead : ∀ c, (i.name ++ []).head? = some c → is_space c = false := i.name_word.head
  have hdrop := dropWhile_spaces hspace hhead
  rw [List.append_nil, List.singleton_append] at hdrop
  rw [List.prefix_nil.1 hpre, List.append_nil] at hb
  rw [strip, hdrop, hb]

theorem fields_group : " group ".toList <:+: i.fields := by
  have hparts : i.fields = (" <".toList ++ [','].intercalate i.flags ++ "> mtu ".toList ++
      i.mtu ++ " state ".toList ++ i.state ++ i.mode) ++ " group ".toList ++
      (i.group ++ i.details) := by
    unfold fields
    ac_rfl
  rw [hparts]
  exact List.infix_append _ _ _

/-- "group" has the letters of "up" in it. -/
theorem head_up : "up".toList <:+: i.head := by
  have hup : "up".toList <:+: " group ".toList := ⟨" gro".toList, " ".toList, by simp⟩
  have hfields : i.fields <:+ i.head :=
    (List.suffix_cons ':' i.fields).trans (List.suffix_append _ _)
  exact (hup.trans i.fields_group).trans hfields.isInfix

theorem shown_up : "up".toList <:+: i.shown :=
  i.head_up.trans (i.head_prefix ['\n']).isInfix

end Interface

/-- Without a hint the first interface is found. -/
theorem first_listed_cons (i : Interface) (rest : Text) :
    first_listed (splitlines (i.oneline ++ '\n' :: rest)) = some i.name := by
  obtain ⟨parts, hparts⟩ := i.oneline_parts
  rw [splitlines_line rest i.unbroken_oneline, first_listed, hparts]
  exact congrArg some i.strip_name

theorem detect_listed (hprints : Prints run [] returncode interfaces) :
    detect_tun_interface L C .linux run [] = interfaces.head?.map Interface.name := by
  have hrun := hprints.listed rfl
  rw [detect_tun_interface, tun_command, hrun]
  cases interfaces with
  | nil => rfl
  | cons i rest =>
      rw [List.map_cons, List.flatten_cons, List.append_assoc, List.singleton_append]
      exact first_listed_cons i _

/-- With a hint every interface that is printed is found. -/
theorem detect_hinted (hprints : Prints run hint returncode interfaces) (hhint : hint ≠ []) :
    detect_tun_interface L C .linux run hint =
      if returncode = 0 ∧ interfaces ≠ [] then some hint else none := by
  have hcommand : tun_command .linux hint = ip_link_show hint := by
    rw [tun_command]
    exact hhint
  rw [detect_tun_interface, hcommand, (hprints.hinted hhint).2]
  cases interfaces with
  | nil =>
      have hnone : ¬ (returncode = 0 ∧ (contains "UP".toList [] ∨ contains "up".toList [])) := by
        rintro ⟨-, h | h⟩ <;> exact absurd h (by decide)
      rw [List.map_nil, List.flatten_nil]
      simp only [if_neg hhint, if_neg hnone]
      simp
  | cons i rest =>
      have hup : contains "up".toList ((i :: rest).map fun i => i.shown ++ ['\n']).flatten := by
        rw [contains, decide_eq_true_eq, List.map_cons, List.flatten_cons, List.append_assoc]
        exact i.shown_up.trans (List.prefix_append _ _).isInfix
      simp only [if_neg hhint, hup, or_true, and_true, ne_eq, List.cons_ne_nil, not_false_iff]

/-- A name is the name of one interface. -/
theorem Prints.named (hprints : Prints run hint returncode interfaces) {i j : Interface}
    (hi : i ∈ interfaces) (hj : j ∈ interfaces) (hname : i.name = j.name) : i = j :=
  List.inj_on_of_nodup_map hprints.distinct hi hj hname

end Detection

section Claims

variable (L : Lowercase) (C : JsonCodec) (run : List Text → Outcome)

/-- On Linux only an interface that is up is found exactly if everything that is looked at is
up. -/
theorem only_up_iff (hint : Text) (returncode : Int) (interfaces : List Interface)
    (hprints : Prints run hint returncode interfaces) :
    OnlyUp hint interfaces (detect_tun_interface L C .linux run hint) ↔
      LooksUp hint returncode interfaces := by
  by_cases hhint : hint = []
  · subst hhint
    rw [detect_listed hprints, LooksUp, if_pos rfl]
    cases interfaces with
    | nil => simp [OnlyUp]
    | cons i rest =>
        have hi : i ∈ i :: rest := List.mem_cons_self
        constructor
        · rintro ⟨hsound, -⟩ j hj
          obtain ⟨k, hk, hname, hup⟩ := hsound i.name rfl
          rw [← Option.mem_some.1 hj, ← hprints.named hk hi hname]
          exact hup
        · intro hup
          have hfirst : i.Up := hup i rfl
          refine ⟨fun name hname => ⟨i, hi, Option.some.inj hname, hfirst⟩, fun _ => ?_⟩
          exact ⟨nofun, fun hdown => absurd hfirst (hdown i hi)⟩
  · have hnames := (hprints.hinted hhint).1
    rw [detect_hinted hprints hhint, LooksUp, if_neg hhint, OnlyUp]
    constructor
    · rintro ⟨hsound, -⟩ hzero i hi
      rw [if_pos ⟨hzero, List.ne_nil_of_mem hi⟩] at hsound
      obtain ⟨j, hj, hname, hup⟩ := hsound hint rfl
      rw [hprints.named hi hj ((hnames i hi).trans hname.symm)]
      exact hup
    · refine fun hup => ⟨fun name hname => ?_, fun h => absurd h hhint⟩
      by_cases hfound : returncode = 0 ∧ interfaces ≠ []
      · rw [if_pos hfound] at hname
        obtain ⟨i, hi⟩ := List.exists_mem_of_ne_nil interfaces hfound.2
        exact ⟨i, hi, (hnames i hi).trans (Option.some.inj hname), hup hfound.1 i hi⟩
      · rw [if_neg hfound] at hname
        cases hname

end Claims

/-! ## Two tunnels -/

theorem isWord_of_all {text : Text} (hne : text ≠ [])
    (h : text.all (fun c => !is_space c) = true) : IsWord text := by
  refine ⟨hne, fun c hc => ?_⟩
  have hplain := List.all_eq_true.1 h c hc
  rwa [Bool.not_eq_true'] at hplain

theorem plain_of_all {flags : List Text}
    (h : (flags.all fun flag => decide (',' ∉ flag ∧ '>' ∉ flag)) = true) :
    ∀ flag ∈ flags, ',' ∉ flag ∧ '>' ∉ flag :=
  fun flag hflag => of_decide_eq_true (List.all_eq_true.1 h flag hflag)

theorem unbroken_parts {parts : List Text}
    (h : (parts.all fun part => part.all fun c => !is_linebreak c) = true) :
    ∀ part ∈ parts, Unbroken part :=
  fun part hpart => unbroken_of_all (List.all_eq_true.1 h part hpart)

/-- A tunnel that exists but is down. -/
def down_tunnel : Interface where
  index := 4
  name := "tun0".toList
  flags := ["POINTOPOINT", "MULTICAST", "NOARP"].map String.toList
  mtu := "1500 qdisc noop".toList
  state := "DOWN".toList
  mode := " mode DEFAULT".toList
  group := "default".toList
  details := " qlen 500".toList
  more := ["    link/none".toList]
  name_word := isWord_of_all (by decide) (by decide)
  name_plain := by decide
  flags_plain := plain_of_all (by decide)
  unbroken := unbroken_parts (by decide)

/-- The same tunnel once it is up. -/
def up_tunnel : Interface :=
  { down_tunnel with
    flags := ["POINTOPOINT", "UP", "LOWER_UP"].map String.toList
    state := "UNKNOWN".toList
    flags_plain := plain_of_all (by decide)
    unbroken := unbroken_parts (by decide) }

/-- `ip` on a machine with this tunnel. -/
def ip_with (i : Interface) (command : List Text) : Outcome :=
  if command = ip_link_tun then .completed 0 (i.oneline ++ ['\n'])
  else if command = ip_link_show i.name then .completed 0 (i.shown ++ ['\n'])
  else .completed 1 []

theorem ip_with_prints (i : Interface) {hint : Text} (hhint : hint = [] ∨ hint = i.name) :
    Prints (ip_with i) hint 0 [i] where
  distinct := List.nodup_singleton i.name
  hinted := by
    intro hne
    obtain rfl := hhint.resolve_left hne
    have hother : ip_link_show i.name ≠ ip_link_tun := by
      intro h
      have hlength := congrArg List.length h
      rw [ip_link_tun, List.length_map] at hlength
      exact absurd hlength (by simp [ip_link_show])
    refine ⟨fun j hj => by rw [List.mem_singleton.1 hj], ?_⟩
    rw [ip_with, if_neg hother, if_pos rfl]
    simp
  listed := by
    intro _
    rw [ip_with, if_pos rfl]
    simp

/-- A codec that reads nothing. -/
def no_codec : JsonCodec where
  dumps := fun _ => []
  loads := fun _ => .error "Expecting value"
  to_str := str_or_nothing
  to_str_str := str_or_nothing_str

/-- The tunnel that is up is found under its name. -/
theorem up_tunnel_found :
    Prints (ip_with up_tunnel) up_tunnel.name 0 [up_tunnel] ∧
      OnlyUp up_tunnel.name [up_tunnel]
        (detect_tun_interface .simple no_codec .linux (ip_with up_tunnel) up_tunnel.name) := by
  have hprints := ip_with_prints up_tunnel (.inr rfl)
  refine ⟨hprints, (only_up_iff .simple no_codec _ _ _ _ hprints).2 ?_⟩
  rw [LooksUp, if_neg up_tunnel.name_word.1]
  intro _ i hi
  rw [List.mem_singleton.1 hi]
  decide

/-- The tunnel that is down is found, with a hint and without one. -/
theorem down_tunnel_found :
    ¬ ∀ (L : Lowercase) (C : JsonCodec) (run : List Text → Outcome) (hint : Text)
      (returncode : Int) (interfaces : List Interface), Prints run hint returncode interfaces →
        OnlyUp hint interfaces (detect_tun_interface L C .linux run hint) := by
  intro hclaim
  -- the hint decides nothing here: the letters that are found are those of "group"
  have hprints := ip_with_prints down_tunnel (.inr rfl)
  obtain ⟨hsound, -⟩ := hclaim .simple no_codec _ _ _ _ hprints
  have hfound := detect_hinted (L := .simple) (C := no_codec) hprints down_tunnel.name_word.1
  obtain ⟨i, hi, -, hup⟩ := hsound down_tunnel.name hfound
  rw [List.mem_singleton.1 hi] at hup
  exact absurd hup (by decide)

end CodaNode.Vpn
