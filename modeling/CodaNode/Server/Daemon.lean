/-
`Server/Daemon.lean` -- the PID files, and the processes that they name.

`start_daemon`, `stop_daemon` and `kill_openvpn_daemon` learn from the errors of `os.kill`
whether a process is there. A signal that is refused for lack of permission is taken as they
take one to a process that is gone, and the PID file goes. The calls are run against a machine
that answers each of their system calls, and on which processes exit whenever they like.
-/
import Mathlib.Logic.Function.Basic
import CodaNode.Coroutine.Logic

set_option autoImplicit false

open Coroutine

namespace CodaNode.Server

/-! ## The machine -/

/-- `DAEMON_PID_PATH` and `OPENVPN_PID_PATH`. -/
inductive PidFile where
  | daemon
  | openvpn
  deriving DecidableEq, Repr

/-- Signal 0 only asks whether the process is there; the other two terminate it. -/
inductive Signal where
  | zero
  | sigterm
  | sigkill
  deriving DecidableEq, Repr

/-- What happens to a PID file that names a process, and to the servers. -/
inductive Event where
  /-- The file is removed or overwritten: whether the process was alive, and had been sent a
  terminating signal. -/
  | dropped (pid : Nat) (alive sent : Bool)
  /-- A server is started, by a call that found `recorded` in the PID file: whether that one was
  alive. -/
  | started (pid : Nat) (recorded : Option Nat) (alive : Bool)
  deriving DecidableEq, Repr

/-- The processes that are alive, those that have been sent a terminating signal, and the PID
files: the number in each, if it holds one. No code reads `recorded`, the process that the PID
file of the server named when the call began, nor the log. -/
structure Machine where
  alive : List Nat
  sent : List Nat
  files : PidFile → Option (Option Nat)
  recorded : Option Nat
  log : List Event

/-- The exceptions of the calls. -/
inductive Raised where
  | permission_error
  | process_lookup_error
  | os_error
  | runtime_error (message : String)
  /-- Any other, the `OverflowError` of a number that is none of a process for one. -/
  | other
  deriving DecidableEq, Repr

/-- The system calls. -/
inductive Call where
  | exists_ (file : PidFile)
  /-- `int(path.read_text().strip())`, where a text that is no number reads as `none`. -/
  | read (file : PidFile)
  | unlink (file : PidFile) (missing_ok : Bool)
  | write (file : PidFile) (pid : Nat)
  | kill (pid : Nat) (signal : Signal)
  /-- Opening the log file, and `subprocess.Popen`. -/
  | popen
  deriving DecidableEq, Repr

/-- What a system call returns. -/
abbrev Call.Reply : Call → Type
  | .exists_ _ => Bool
  | .read _ => Option Nat
  | .popen => Nat
  | _ => Unit

namespace Machine

/-- The process that the file names. -/
def names (m : Machine) (file : PidFile) : Option Nat := (m.files file).join

/-- The content of the file is lost. -/
def lose (m : Machine) (file : PidFile) : List Event :=
  match m.names file with
  | none => m.log
  | some pid => .dropped pid (decide (pid ∈ m.alive)) (decide (pid ∈ m.sent)) :: m.log

/-- The file is removed. -/
def unlink (m : Machine) (file : PidFile) : Machine :=
  { m with files := Function.update m.files file none, log := m.lose file }

/-- The file is written. -/
def write (m : Machine) (file : PidFile) (pid : Nat) : Machine :=
  { m with files := Function.update m.files file (some (some pid)), log := m.lose file }

/-- The signal has been delivered. -/
def deliver (m : Machine) (pid : Nat) (signal : Signal) : Machine :=
  if signal = .zero then m else { m with sent := pid :: m.sent }

/-- The server has been started. -/
def start (m : Machine) (pid : Nat) : Machine :=
  { m with
    alive := pid :: m.alive
    log := .started pid m.recorded (m.recorded.any (decide <| · ∈ m.alive)) :: m.log }

/-- A call begins. -/
def entered (m : Machine) : Machine := { m with recorded := m.names .daemon }

/-- Some processes exit. -/
def Exits (m m' : Machine) : Prop := ∃ alive, alive ⊆ m.alive ∧ m' = { m with alive := alive }

end Machine

/-- How the system calls are answered. A process that is there may refuse a signal where
`refuses` says so; what a signal to any other comes to is open, an exited process may well be
waiting for its parent. The number of a new process is not reused. -/
inductive Answer (refuses : Machine → Nat → Prop) :
    (c : Call) → Machine → Except Raised c.Reply → Machine → Prop
  | exists_ (m : Machine) (file : PidFile) :
      Answer refuses (.exists_ file) m (.ok (m.files file).isSome) m
  | read {m : Machine} {file : PidFile} {content : Option Nat}
      (h : m.files file = some content) : Answer refuses (.read file) m (.ok content) m
  | read_missing {m : Machine} {file : PidFile} (h : m.files file = none) :
      Answer refuses (.read file) m (.error .os_error) m
  | unlink {m : Machine} {file : PidFile} {missing_ok : Bool}
      (h : missing_ok = true ∨ (m.files file).isSome) :
      Answer refuses (.unlink file missing_ok) m (.ok ()) (m.unlink file)
  | unlink_missing {m : Machine} {file : PidFile} (h : m.files file = none) :
      Answer refuses (.unlink file false) m (.error .os_error) m
  | write (m : Machine) (file : PidFile) (pid : Nat) :
      Answer refuses (.write file pid) m (.ok ()) (m.write file pid)
  | delivered (m : Machine) (pid : Nat) (signal : Signal) :
      Answer refuses (.kill pid signal) m (.ok ()) (m.deliver pid signal)
  | refused {m : Machine} {pid : Nat} (signal : Signal) (h : refuses m pid) :
      Answer refuses (.kill pid signal) m (.error .permission_error) m
  | gone {m : Machine} {pid : Nat} (signal : Signal) (e : Raised) (h : pid ∉ m.alive) :
      Answer refuses (.kill pid signal) m (.error e) m
  | popen {m : Machine} {pid : Nat} (halive : pid ∉ m.alive) (hsent : pid ∉ m.sent)
      (hnamed : ∀ file, m.names file ≠ some pid) :
      Answer refuses .popen m (.ok pid) (m.start pid)
  | popen_fails (m : Machine) : Answer refuses .popen m (.error .os_error) m

/-- A machine whose processes refuse signals as `refuses` says. -/
def os (refuses : Machine → Nat → Prop) : Host Machine Call.Reply Raised where
  answer := Answer refuses
  drift := Machine.Exits

/-! ## The calls -/

/-- Code that runs on the machine. -/
abbrev OsCo (α : Type) : Type := Co Machine Call.Reply Raised α

/-- `path.exists()`. -/
def exists_ (file : PidFile) : OsCo Bool := Co.call (Call.exists_ file)

/-- `int(path.read_text().strip())`. -/
def read (file : PidFile) : OsCo (Option Nat) := Co.call (Call.read file)

/-- `path.unlink(missing_ok)`. -/
def unlink (file : PidFile) (missing_ok : Bool) : OsCo Unit :=
  Co.call (Call.unlink file missing_ok)

/-- `path.write_text(f"{pid}\n")`. -/
def write (file : PidFile) (pid : Nat) : OsCo Unit := Co.call (Call.write file pid)

/-- `os.kill(pid, signal)`. -/
def kill (pid : Nat) (signal : Signal) : OsCo Unit := Co.call (Call.kill pid signal)

/-- The process that is started. -/
def popen : OsCo Nat := Co.call Call.popen

/-- `read_daemon_pid`. -/
def read_daemon_pid : OsCo (Option Nat) := do
  if ← exists_ .daemon then
    Co.try_except (read .daemon) fun
      | .permission_error | .process_lookup_error | .os_error => .ret none
      | e => .raise e
  else .ret none

/-- `_process_exists`. -/
def process_exists (pid : Nat) : OsCo Bool :=
  Co.try_except (kill pid .zero >>= fun _ => .ret true) fun
    | .permission_error | .process_lookup_error | .os_error => .ret false
    | e => .raise e

/-- `is_daemon_running`. -/
def is_daemon_running : OsCo Bool := do
  match ← read_daemon_pid with
  | none => .ret false
  | some pid => process_exists pid

/-- `f"Daemon already running (PID {pid})"`. -/
def already_running (pid : Option Nat) : String :=
  "Daemon already running (PID " ++ (pid.map toString).getD "None" ++ ")"

/-- `start_daemon`. -/
def start_daemon : OsCo Nat := do
  if ← is_daemon_running then
    let pid ← read_daemon_pid
    .raise (.runtime_error (already_running pid))
  else
    if ← exists_ .daemon then unlink .daemon false
    let pid ← popen
    write .daemon pid
    .ret pid

/-- The `while` loop of `stop_daemon`, where the deadline passes after `polls` turns. -/
def wait_for_exit (pid : Nat) : Nat → OsCo Unit
  | 0 => kill pid .sigkill
  | polls + 1 => do
      if ← process_exists pid then wait_for_exit pid polls
      else .ret ()

/-- `stop_daemon`. -/
def stop_daemon (polls : Nat) : OsCo Bool := do
  match ← read_daemon_pid with
  | none => .ret false
  | some pid =>
      if ← process_exists pid then
        Co.try_except
          (do
            kill pid .sigterm
            wait_for_exit pid polls
            unlink .daemon true
            .ret true)
          fun
            | .permission_error | .process_lookup_error => do
                unlink .daemon true
                .ret false
            | e => .raise e
      else
        unlink .daemon true
        .ret false

/-- `kill_openvpn_daemon`. -/
def kill_openvpn_daemon : OsCo Bool := do
  if ← exists_ .openvpn then
    match ← read .openvpn with
    | none =>
        -- `ValueError`
        unlink .openvpn true
        .ret false
    | some pid =>
        Co.try_except
          (do
            kill pid .sigterm
            unlink .openvpn true
            .ret true)
          fun
            | .permission_error | .process_lookup_error => do
                unlink .openvpn true
                .ret false
            | e => .raise e
  else .ret false

/-! ## Sequences of calls -/

/-- A call, with the number of turns that `stop_daemon` waits. -/
inductive Api where
  | start_daemon
  | stop_daemon (polls : Nat)
  | kill_openvpn_daemon
  deriving DecidableEq, Repr

/-- What the call runs, up to its value. -/
def Api.body : Api → OsCo Unit
  | .start_daemon => Server.start_daemon >>= fun _ => .ret ()
  | .stop_daemon polls => Server.stop_daemon polls >>= fun _ => .ret ()
  | .kill_openvpn_daemon => Server.kill_openvpn_daemon >>= fun _ => .ret ()

/-- The machine between two calls, or in the middle of one. -/
inductive Session where
  | idle (m : Machine)
  | busy (api : Api) (m : Machine) (p : OsCo Unit)

/-- The machine. -/
def Session.machine : Session → Machine
  | .idle m => m
  | .busy _ m _ => m

/-- A call begins. -/
def Session.begin_call (api : Api) (m : Machine) : Session :=
  let started := Co.settle m.entered api.body
  .busy api started.1 started.2

/-- One step of a sequence of calls, where `refuses` says which process may refuse a signal of
which call. -/
inductive Session.Step (refuses : Api → Machine → Nat → Prop) : Session → Session → Prop
  | exits {m m' : Machine} (h : m.Exits m') : Step refuses (.idle m) (.idle m')
  | calls (m : Machine) (api : Api) : Step refuses (.idle m) (.begin_call api m)
  | runs {api : Api} {m m' : Machine} {p p' : OsCo Unit}
      (h : (os (refuses api)).Step (m, p) (m', p')) :
      Step refuses (.busy api m p) (.busy api m' p')
  | returns {api : Api} {m : Machine} {p : OsCo Unit} {r : Except Raised Unit}
      (h : p.outcome = some r) : Step refuses (.busy api m p) (.idle m)

/-- Any sequence of calls. -/
abbrev Session.Run (refuses : Api → Machine → Nat → Prop) (x y : Session) : Prop :=
  Relation.ReflTransGen (Session.Step refuses) x y

/-! ## What the calls owe -/

/-- A process that is alive when its PID file goes has been sent a terminating signal, and the
process that the file named is not alive when a server is started. -/
def Event.InOrder : Event → Prop
  | .dropped _ alive sent => alive = true → sent = true
  | .started _ _ alive => alive = false

/-- Everything so far was in order. -/
def Machine.InOrder (m : Machine) : Prop := ∀ e ∈ m.log, e.InOrder

/-- The refusals that mislead no call: `start_daemon` is refused nothing by a process that is
alive, and the others nothing by one that has not been sent a terminating signal. -/
def Condoned : Api → Machine → Nat → Prop
  | .start_daemon, _, _ => False
  | .stop_daemon _, m, pid => pid ∈ m.sent
  | .kill_openvpn_daemon, m, pid => pid ∈ m.sent

/-- What a call may count on: the answers of the machine. What it owes: that all stays in
order. -/
def books (refuses : Machine → Nat → Prop) : Contract Machine Call.Reply Raised where
  pre _ _ := True
  rely := Machine.Exits
  answer := Answer refuses
  keep m m' := m.InOrder → m'.InOrder

section Books

variable {refuses : Machine → Nat → Prop} {m m' : Machine} {file : PidFile} {pid : Nat}

@[simp] theorem Machine.names_unlink : (m.unlink file).names file = none := by
  simp [names, unlink]

theorem Machine.Exits.refl (m : Machine) : m.Exits m := ⟨m.alive, List.Subset.refl _, rfl⟩

theorem Machine.Exits.trans {m'' : Machine} (h : m.Exits m') (h' : m'.Exits m'') :
    m.Exits m'' := by
  obtain ⟨alive, hsub, rfl⟩ := h
  obtain ⟨alive', hsub', rfl⟩ := h'
  exact ⟨alive', List.Subset.trans hsub' hsub, rfl⟩

theorem Machine.Exits.names (h : m.Exits m') : m'.names file = m.names file := by
  obtain ⟨alive, -, rfl⟩ := h
  rfl

theorem Machine.Exits.not_alive (h : m.Exits m') (hpid : pid ∉ m.alive) : pid ∉ m'.alive := by
  obtain ⟨alive, hsub, rfl⟩ := h
  exact fun hin => hpid (hsub hin)

theorem Machine.Exits.inOrder (h : m.Exits m') (hm : m.InOrder) : m'.InOrder := by
  obtain ⟨alive, -, rfl⟩ := h
  exact hm

theorem Machine.deliver_inOrder {signal : Signal} (h : m.InOrder) :
    (m.deliver pid signal).InOrder := by
  unfold deliver
  split <;> exact h

/-- The process that the file names is gone, or has been sent a terminating signal. -/
def Settled (file : PidFile) (m : Machine) : Prop :=
  ∀ pid, m.names file = some pid → pid ∉ m.alive ∨ pid ∈ m.sent

theorem Machine.Exits.settled (h : m.Exits m') (hm : Settled file m) : Settled file m' := by
  intro pid hpid
  rw [h.names] at hpid
  refine (hm pid hpid).imp h.not_alive fun hsent => ?_
  obtain ⟨alive, -, rfl⟩ := h
  exact hsent

/-- A file whose process is settled can go. -/
theorem Settled.lose (h : Settled file m) (hm : m.InOrder) : ∀ e ∈ m.lose file, e.InOrder := by
  unfold Machine.lose
  cases hname : m.names file with
  | none => exact hm
  | some pid =>
      intro e he
      rcases List.mem_cons.1 he with rfl | he
      · intro halive
        rcases h pid hname with hgone | hsent
        · exact absurd (of_decide_eq_true halive) hgone
        · exact decide_eq_true hsent
      · exact hm e he

/-! ### One rule for each system call -/

theorem wp_exists {Q : Except Raised Bool → Machine → Prop}
    (h : ∀ m', m.Exits m' → Q (.ok (m'.files file).isSome) m') :
    (books refuses).wp (exists_ file) Q m := by
  refine (Contract.wp_call _ _ _).2 ⟨trivial, fun m₁ hdrift r m₂ hans => ?_⟩
  cases hans with
  | exists_ => exact ⟨id, h m₁ hdrift⟩

theorem wp_read {Q : Except Raised (Option Nat) → Machine → Prop}
    (h : ∀ m', m.Exits m' → ∀ content, m'.files file = some content → Q (.ok content) m')
    (hmissing : ∀ m', m.Exits m' → m'.files file = none → Q (.error .os_error) m') :
    (books refuses).wp (read file) Q m := by
  refine (Contract.wp_call _ _ _).2 ⟨trivial, fun m₁ hdrift r m₂ hans => ?_⟩
  cases hans with
  | read hfile => exact ⟨id, h m₁ hdrift _ hfile⟩
  | read_missing hfile => exact ⟨id, hmissing m₁ hdrift hfile⟩

/-- Removing the file is in order if its process is settled. -/
theorem wp_unlink {missing_ok : Bool} {Q : Except Raised Unit → Machine → Prop}
    (hm : Settled file m) (h : ∀ m', m.Exits m' → Q (.ok ()) (m'.unlink file))
    (hmissing : ∀ m', m.Exits m' → Q (.error .os_error) m') :
    (books refuses).wp (unlink file missing_ok) Q m := by
  refine (Contract.wp_call _ _ _).2 ⟨trivial, fun m₁ hdrift r m₂ hans => ?_⟩
  cases hans with
  | unlink _ => exact ⟨(hdrift.settled hm).lose, h m₁ hdrift⟩
  | unlink_missing _ => exact ⟨id, hmissing m₁ hdrift⟩

theorem wp_write {Q : Except Raised Unit → Machine → Prop} (hm : Settled file m)
    (h : ∀ m', m.Exits m' → Q (.ok ()) (m'.write file pid)) :
    (books refuses).wp (write file pid) Q m := by
  refine (Contract.wp_call _ _ _).2 ⟨trivial, fun m₁ hdrift r m₂ hans => ?_⟩
  cases hans with
  | write => exact ⟨(hdrift.settled hm).lose, h m₁ hdrift⟩

theorem wp_kill {signal : Signal} {Q : Except Raised Unit → Machine → Prop}
    (h : ∀ m', m.Exits m' → Q (.ok ()) (m'.deliver pid signal))
    (hrefused : ∀ m', m.Exits m' → refuses m' pid → Q (.error .permission_error) m')
    (hgone : ∀ m' e, m.Exits m' → pid ∉ m'.alive → Q (.error e) m') :
    (books refuses).wp (kill pid signal) Q m := by
  refine (Contract.wp_call _ _ _).2 ⟨trivial, fun m₁ hdrift r m₂ hans => ?_⟩
  cases hans with
  | delivered => exact ⟨Machine.deliver_inOrder, h m₁ hdrift⟩
  | refused _ href => exact ⟨id, hrefused m₁ hdrift href⟩
  | gone _ e hpid => exact ⟨id, hgone m₁ e hdrift hpid⟩

/-- Starting a server is in order if the process that the call found is gone. -/
theorem wp_popen {Q : Except Raised Nat → Machine → Prop}
    (hm : ∀ pid, m.recorded = some pid → pid ∉ m.alive)
    (h : ∀ m' pid, m.Exits m' → Q (.ok pid) (m'.start pid))
    (hfails : ∀ m', m.Exits m' → Q (.error .os_error) m') :
    (books refuses).wp popen Q m := by
  refine (Contract.wp_call _ _ _).2 ⟨trivial, fun m₁ hdrift r m₂ hans => ?_⟩
  cases hans with
  | @popen _ pid _ _ _ =>
      refine ⟨fun horder e he => ?_, h m₁ pid hdrift⟩
      rcases List.mem_cons.1 he with rfl | he
      · obtain ⟨alive, hsub, rfl⟩ := hdrift
        cases hrec : m.recorded with
        | none => simp [Event.InOrder]
        | some pid => simpa [Event.InOrder, hrec] using fun hin => hm pid hrec (hsub hin)
      · exact horder e he
  | popen_fails => exact ⟨id, hfails m₁ hdrift⟩

/-! ### One for each function -/

/-- The file is read, and nothing else happens. -/
theorem wp_read_daemon_pid {Q : Except Raised (Option Nat) → Machine → Prop}
    (h : ∀ m', m.Exits m' → Q (.ok (m'.names .daemon)) m') :
    (books refuses).wp read_daemon_pid Q m := by
  refine (Contract.wp_bind _ _ _ _).2 (wp_exists fun m₁ h₁ => ?_)
  cases hfile : m₁.files .daemon with
  | none =>
      have hname : m₁.names .daemon = none := by rw [Machine.names, hfile, Option.join_none]
      have hQ := h m₁ h₁
      rwa [hname] at hQ
  | some content =>
      refine (Contract.wp_try_except _ _ _ _).2 (wp_read (fun m₂ h₂ content hread => ?_) ?_)
      · have hname : m₂.names .daemon = content := by
          rw [Machine.names, hread, Option.join_some]
        have hQ := h m₂ (h₁.trans h₂)
        rwa [hname] at hQ
      · intro m₂ h₂ hmissing
        have hname : m₂.names .daemon = none := by
          rw [Machine.names, hmissing, Option.join_none]
        have hQ := h m₂ (h₁.trans h₂)
        rwa [hname] at hQ

/-- A process that is found missing is gone, or has refused the signal. -/
theorem wp_process_exists {Q : Except Raised Bool → Machine → Prop}
    (h : ∀ m', m.Exits m' → Q (.ok true) m')
    (hnot : ∀ m', m.Exits m' → refuses m' pid ∨ pid ∉ m'.alive →
      Q (.ok false) m' ∧ ∀ e, Q (.error e) m') :
    (books refuses).wp (process_exists pid) Q m := by
  refine (Contract.wp_try_except _ _ _ _).2 ((Contract.wp_bind _ _ _ _).2 (wp_kill h ?_ ?_))
  · intro m₁ h₁ href
    exact (hnot m₁ h₁ (.inl href)).1
  · intro m₁ e h₁ hgone
    obtain ⟨hfalse, herror⟩ := hnot m₁ h₁ (.inr hgone)
    cases e with
    | permission_error => exact hfalse
    | process_lookup_error => exact hfalse
    | os_error => exact hfalse
    | runtime_error message => exact herror _
    | other => exact herror _

theorem Settled.of_none (h : m.names file = none) : Settled file m := by
  intro pid hpid
  rw [h] at hpid
  cases hpid

theorem Machine.Exits.recorded (h : m.Exits m') : m'.recorded = m.recorded := by
  obtain ⟨alive, -, rfl⟩ := h
  rfl

/-- A server is started where no PID file names a process of the server. -/
theorem start_server_keeps (hname : m.names .daemon = none)
    (hgone : ∀ pid, m.recorded = some pid → pid ∉ m.alive) :
    (books refuses).wp (do
      let pid ← popen
      write .daemon pid
      Co.ret pid) (fun _ _ => True) m := by
  refine (Contract.wp_bind _ _ _ _).2 (wp_popen hgone (fun m₁ pid h₁ => ?_) fun _ _ => trivial)
  refine (Contract.wp_bind _ _ _ _).2 (wp_write (.of_none ?_) fun _ _ => trivial)
  exact h₁.names.trans hname

/-- What follows the check of `start_daemon`, where the process that the file names is gone. -/
theorem replace_server_keeps (hrec : m.recorded = m.names .daemon)
    (hgone : ∀ pid, m.names .daemon = some pid → pid ∉ m.alive) :
    (books refuses).wp (do
      if ← exists_ .daemon then unlink .daemon false
      let pid ← popen
      write .daemon pid
      Co.ret pid) (fun _ _ => True) m := by
  refine (Contract.wp_bind _ _ _ _).2 (wp_exists fun m₁ h₁ => ?_)
  have hgone₁ : ∀ pid, m₁.names .daemon = some pid → pid ∉ m₁.alive := by
    intro pid hpid
    rw [h₁.names] at hpid
    exact h₁.not_alive (hgone pid hpid)
  have hrec₁ : m₁.recorded = m₁.names .daemon := by rw [h₁.recorded, hrec, h₁.names]
  rw [← hrec₁] at hgone₁
  cases hfile : (m₁.files .daemon).isSome with
  | false =>
      have hmissing : m₁.files .daemon = none := by simpa using hfile
      refine start_server_keeps ?_ hgone₁
      rw [Machine.names, hmissing, Option.join_none]
  | true =>
      have hsettled : Settled .daemon m₁ := fun pid hpid => .inl (hgone₁ pid (hrec₁.trans hpid))
      refine (Contract.wp_bind _ _ _ _).2 (wp_unlink hsettled (fun m₂ h₂ => ?_)
        fun _ _ => trivial)
      refine start_server_keeps ?_ fun pid hpid => h₂.not_alive (hgone₁ pid ?_)
      · exact Machine.names_unlink
      · exact h₂.recorded.symm.trans hpid

/-- `start_daemon` starts a server only where the PID file named no process that is there. -/
theorem start_daemon_keeps (hrec : m.recorded = m.names .daemon) :
    (books fun _ _ => False).wp start_daemon (fun _ _ => True) m := by
  unfold start_daemon is_daemon_running
  refine (Contract.wp_bind _ _ _ _).2 ((Contract.wp_bind _ _ _ _).2 ?_)
  refine wp_read_daemon_pid fun m₁ h₁ => ?_
  have hrec₁ : m₁.recorded = m₁.names .daemon := by rw [h₁.recorded, hrec, h₁.names]
  cases hname : m₁.names .daemon with
  | none =>
      refine replace_server_keeps hrec₁ fun pid hpid => ?_
      rw [hname] at hpid
      cases hpid
  | some pid =>
      refine wp_process_exists (fun m₂ h₂ => ?_) fun m₂ h₂ hnot => ⟨?_, fun _ => trivial⟩
      · exact (Contract.wp_bind _ _ _ _).2 (wp_read_daemon_pid fun _ _ => trivial)
      · have hrec₂ : m₂.recorded = m₂.names .daemon := by rw [h₂.recorded, hrec₁, h₂.names]
        refine replace_server_keeps hrec₂ fun other hother => ?_
        rw [h₂.names, hname, Option.some.injEq] at hother
        rw [← hother]
        exact hnot.resolve_left id

/-! ### Code that may terminate the process that a file names -/

section Terminating

/-- The file names this process, which is gone or has been sent a terminating signal. -/
def Done (file : PidFile) (pid : Nat) (m : Machine) : Prop :=
  m.names file = some pid ∧ (pid ∉ m.alive ∨ pid ∈ m.sent)

theorem Done.settled (h : Done file pid m) : Settled file m := by
  intro other hother
  rw [h.1, Option.some.injEq] at hother
  rw [← hother]
  exact h.2

theorem Machine.Exits.done (h : m.Exits m') (hm : Done file pid m) : Done file pid m' :=
  ⟨h.names.trans hm.1, h.settled hm.settled pid (h.names.trans hm.1)⟩

theorem Done.deliver {signal : Signal} (h : Done file pid m) : Done file pid (m.deliver pid signal) := by
  unfold Machine.deliver
  split
  · exact h
  · exact ⟨h.1, .inr List.mem_cons_self⟩

theorem kill_keeps {signal : Signal} : (books refuses).Keeps (Done file pid) (kill pid signal) := by
  intro m hm
  refine wp_kill (fun m₁ h₁ => (h₁.done hm).deliver) (fun m₁ h₁ _ => h₁.done hm) ?_
  intro m₁ e h₁ _
  exact h₁.done hm

theorem wait_for_exit_keeps (polls : Nat) :
    (books refuses).Keeps (Done file pid) (wait_for_exit pid polls) := by
  induction polls with
  | zero => exact kill_keeps
  | succ polls ih =>
      refine .bind (.try_except (.bind kill_keeps fun _ => .ret true) fun e => ?_) fun there => ?_
      · cases e <;> simp
      · cases there with
        | false => exact .ret ()
        | true => exact ih

theorem unlink_done {value : Bool} (h : Done file pid m) :
    (books refuses).wp (unlink file true >>= fun _ => Co.ret value) (fun _ _ => True) m := by
  refine (Contract.wp_bind _ _ _ _).2 (wp_unlink h.settled (fun _ _ => trivial) fun _ _ => trivial)

/-- `SIGTERM`, and what follows it up to the removal of the file: where that ends in an
exception, the process is done with. -/
theorem terminate_done (href : ∀ m pid, refuses m pid → pid ∈ m.sent) {p : OsCo Unit}
    (hname : m.names file = some pid) (hp : (books refuses).Keeps (Done file pid) p) :
    (books refuses).wp (kill pid .sigterm >>= fun _ => p >>= fun _ => unlink file true >>=
        fun _ => Co.ret true) (fun r m' => ∀ e, r = .error e → Done file pid m') m := by
  refine (Contract.wp_bind _ _ _ _).2 (wp_kill (fun m₁ h₁ => ?_) (fun m₁ h₁ hrefused e _ => ?_)
    fun m₁ _ h₁ hgone e _ => ?_)
  · have hdone : Done file pid (m₁.deliver pid .sigterm) :=
      ⟨h₁.names.trans hname, .inr List.mem_cons_self⟩
    refine hp.wp_bind hdone (fun _ _ h _ _ => h) fun _ m₂ h₂ => ?_
    refine (Contract.wp_bind _ _ _ _).2 (wp_unlink h₂.settled (fun _ _ => ?_) fun m₃ h₃ => ?_)
    · exact fun e he => nomatch he
    · exact fun e _ => h₃.done h₂
  · exact ⟨h₁.names.trans hname, .inr (href _ _ hrefused)⟩
  · exact ⟨h₁.names.trans hname, .inl hgone⟩

/-- `stop_daemon` removes the file of a process that is done with. -/
theorem stop_daemon_keeps (href : ∀ m pid, refuses m pid → pid ∈ m.sent) (polls : Nat) :
    (books refuses).wp (stop_daemon polls) (fun _ _ => True) m := by
  refine (Contract.wp_bind _ _ _ _).2 (wp_read_daemon_pid fun m₁ h₁ => ?_)
  cases hname : m₁.names .daemon with
  | none => trivial
  | some pid =>
      refine (Contract.wp_bind _ _ _ _).2 (wp_process_exists (fun m₂ h₂ => ?_)
        fun m₂ h₂ hnot => ⟨?_, fun _ => trivial⟩)
      · refine (Contract.wp_try_except _ _ _ _).2 ?_
        have hname₂ := h₂.names.trans hname
        refine Contract.wp_mono (terminate_done href hname₂ (wait_for_exit_keeps polls))
          fun r m₃ h₃ => ?_
        cases r with
        | ok value => trivial
        | error e => cases e <;> first | exact unlink_done (h₃ _ rfl) | trivial
      · have hdone : Done .daemon pid m₂ :=
          ⟨h₂.names.trans hname, hnot.elim (fun h => .inr (href _ _ h)) .inl⟩
        exact unlink_done hdone

/-- `kill_openvpn_daemon` removes the file of a process that is done with. -/
theorem kill_openvpn_daemon_keeps (href : ∀ m pid, refuses m pid → pid ∈ m.sent) :
    (books refuses).wp kill_openvpn_daemon (fun _ _ => True) m := by
  refine (Contract.wp_bind _ _ _ _).2 (wp_exists fun m₁ h₁ => ?_)
  cases hfile : (m₁.files .openvpn).isSome with
  | false => trivial
  | true =>
      refine (Contract.wp_bind _ _ _ _).2 (wp_read (fun m₂ h₂ content hread => ?_)
        fun _ _ _ => trivial)
      have hname : m₂.names .openvpn = content := by
        rw [Machine.names, hread, Option.join_some]
      cases content with
      | none =>
          refine (Contract.wp_bind _ _ _ _).2 (wp_unlink (.of_none hname) (fun _ _ => trivial)
            fun _ _ => trivial)
      | some pid =>
          refine (Contract.wp_try_except _ _ _ _).2 ?_
          refine Contract.wp_mono (terminate_done href hname (.ret ())) fun r m₃ h₃ => ?_
          cases r with
          | ok value => trivial
          | error e => cases e <;> first | exact unlink_done (h₃ _ rfl) | trivial

end Terminating

end Books

/-! ## Every sequence of calls -/

/-- Every call meets its contract, where the refusals are condoned. -/
theorem body_keeps (api : Api) {m : Machine} (hrec : m.recorded = m.names .daemon) :
    (books (Condoned api)).wp api.body (fun _ _ => True) m := by
  cases api with
  | start_daemon =>
      refine (Contract.wp_bind _ _ _ _).2 ?_
      refine Contract.wp_mono (start_daemon_keeps hrec) fun r m' _ => ?_
      cases r <;> trivial
  | stop_daemon polls =>
      refine (Contract.wp_bind _ _ _ _).2 ?_
      refine Contract.wp_mono (stop_daemon_keeps (fun m pid h => h) polls) fun r m' _ => ?_
      cases r <;> trivial
  | kill_openvpn_daemon =>
      refine (Contract.wp_bind _ _ _ _).2 ?_
      refine Contract.wp_mono (kill_openvpn_daemon_keeps fun m pid h => h) fun r m' _ => ?_
      cases r <;> trivial

/-- All is in order, and the call that is under way meets its contract. -/
def Session.Good : Session → Prop
  | .idle m => m.InOrder
  | .busy api m p => m.InOrder ∧ (books (Condoned api)).Suspended p (fun _ _ => True) m

theorem inOrder_of_kept {refuses : Machine → Nat → Prop} {m m' : Machine}
    (h : (books refuses).Kept m m') (hm : m.InOrder) : m'.InOrder := by
  induction h with
  | refl => exact hm
  | tail _ hstep ih => exact hstep ih

/-- One step of a sequence of calls. -/
theorem Session.Good.step {x y : Session} (hx : x.Good) (h : Session.Step Condoned x y) :
    y.Good := by
  cases h with
  | exits hexits => exact hexits.inOrder hx
  | calls m api =>
      have hbegin : m.entered.InOrder := hx
      obtain ⟨hkept, hwp⟩ := Contract.wp_settle _ (body_keeps api (m := m.entered) rfl)
      exact ⟨inOrder_of_kept hkept hbegin, _, .refl _, hwp⟩
  | @runs api m m' p p' hstep =>
      obtain ⟨horder, hsusp⟩ := hx
      generalize hy : (m', p') = y at hstep
      cases hstep with
      | drift hdrift =>
          cases hy
          exact ⟨hdrift.inOrder horder, hsusp.rely (fun _ _ _ => Machine.Exits.trans) hdrift⟩
      | resume hans =>
          obtain ⟨hkept, hsusp⟩ := hsusp.resume Machine.Exits.refl hans
          obtain ⟨rfl, rfl⟩ := Prod.ext_iff.1 hy
          exact ⟨inOrder_of_kept hkept horder, hsusp⟩
  | returns _ => exact hx.1

/-- In every sequence of calls whose refusals are condoned, no live process loses its PID file
unless it has been sent a terminating signal, and no server is started while the one that the
PID file named is alive. -/
theorem pid_files_in_order {m : Machine} (hm : m.log = []) {x : Session}
    (hrun : Session.Run Condoned (.idle m) x) : x.machine.InOrder := by
  have hgood : x.Good := by
    -- by induction on the steps
    induction hrun with
    | refl =>
        intro e he
        rw [hm] at he
        cases he
    | tail _ hstep ih => exact ih.step hstep
  cases x with
  | idle m' => exact hgood
  | busy api m' p => exact hgood.1

/-! ## Refusals -/

/-- What the machine can do with a call, a sequence of calls can. -/
theorem Session.exists_run {refuses : Api → Machine → Nat → Prop} {api : Api} {m : Machine}
    {Q : Except Raised Unit → Machine → Prop}
    (h : (os (refuses api)).Can api.body Q m.entered) :
    ∃ m' r, Session.Run refuses (.idle m) (.idle m') ∧ Q r m' := by
  obtain ⟨m', q, r, hrun, hq, hQ⟩ := Host.exists_run_of_can _ h
  have hlift : ∀ y, (os (refuses api)).Run (Co.settle m.entered api.body) y →
      Session.Run refuses (.begin_call api m) (.busy api y.1 y.2) := by
    intro y hy
    induction hy with
    | refl => exact .refl
    | tail _ hstep ih => exact ih.tail (.runs hstep)
  exact ⟨m', r, .head (.calls m api) ((hlift _ hrun).tail (.returns hq)), hQ⟩

/-- A file is removed, a server is started and its number written. -/
theorem Machine.log_restarted (m : Machine) (file : PidFile) (new : Nat) :
    (((m.unlink file).start new).write file new).log =
      .started new m.recorded (m.recorded.any (decide <| · ∈ m.alive)) :: m.lose file := by
  have hnone : ((m.unlink file).start new).names file = none := names_unlink
  rw [write, lose, hnone]
  rfl

/-- If the server that the PID file names refuses the signal, `start_daemon` removes the file and
starts a second server. -/
theorem start_daemon_misled {refuses : Api → Machine → Nat → Prop} {m : Machine} {pid new : Nat}
    (hfile : m.files .daemon = some (some pid)) (halive : pid ∈ m.alive) (hsent : pid ∉ m.sent)
    (href : ∀ m', refuses .start_daemon m' pid) (hnew : new ∉ m.alive) (hnew' : new ∉ m.sent)
    (hother : m.names .openvpn ≠ some new) :
    ∃ m', Session.Run refuses (.idle m) (.idle m') ∧
      .dropped pid true false ∈ m'.log ∧ .started new (some pid) true ∈ m'.log := by
  have hthere : Answer (refuses .start_daemon) (.exists_ .daemon) m.entered (.ok true)
      m.entered := by
    have hans : Answer (refuses .start_daemon) (.exists_ .daemon) m.entered _ m.entered :=
      .exists_ m.entered .daemon
    rwa [show m.entered.files .daemon = some (some pid) from hfile] at hans
  have hname : m.names .daemon = some pid := by rw [Machine.names, hfile, Option.join_some]
  have hbody : (os (refuses .start_daemon)).Can Api.start_daemon.body
      (fun _ m' => .dropped pid true false ∈ m'.log ∧ .started new (some pid) true ∈ m'.log)
      m.entered := by
    refine ⟨_, .refl _, _, _, hthere, _, .refl _, _, _, .read hfile, _, .refl _, _, _,
      .refused _ (href _), _, .refl _, _, _, hthere, _, .refl _, _, _, .unlink (.inr ?_),
      _, .refl _, _, _, .popen hnew hnew' ?_, _, .refl _, _, _, .write _ _ _, ?_⟩
    · rw [show m.entered.files .daemon = some (some pid) from hfile, Option.isSome_some]
    · intro file
      cases file with
      | daemon =>
          rw [Machine.names_unlink]
          exact Option.some_ne_none new |>.symm
      | openvpn => exact hother
    · have hlose : m.entered.lose .daemon = .dropped pid true false :: m.log := by
        rw [Machine.lose, show m.entered.names .daemon = some pid from hname]
        simp [Machine.entered, halive, hsent]
      have hrecorded : m.entered.recorded = some pid := hname
      have hlog := m.entered.log_restarted .daemon new
      rw [hlose, hrecorded, Option.any_some,
        decide_eq_true (show pid ∈ m.entered.alive from halive)] at hlog
      have hend : .dropped pid true false ∈
            (((m.entered.unlink .daemon).start new).write .daemon new).log ∧
          .started new (some pid) true ∈
            (((m.entered.unlink .daemon).start new).write .daemon new).log := by
        rw [hlog]
        simp
      exact hend
  obtain ⟨m', r, hrun, hlog⟩ := Session.exists_run hbody
  exact ⟨m', hrun, hlog⟩

/-- A server runs, and its PID file names it. -/
def server_runs : Machine where
  alive := [7]
  sent := []
  files := fun
    | .daemon => some (some 7)
    | .openvpn => none
  recorded := none
  log := []

/-- The server does not heed `SIGTERM`, and refuses `SIGKILL`. -/
theorem stopped_in_order :
    ∃ m', Session.Run Condoned (.idle server_runs) (.idle m') ∧ .dropped 7 true true ∈ m'.log ∧
      m'.InOrder := by
  have hbody : (os (Condoned (.stop_daemon 0))).Can (Api.stop_daemon 0).body
      (fun _ m' => .dropped 7 true true ∈ m'.log) server_runs.entered := by
    refine ⟨_, .refl _, _, _, .exists_ _ _, _, .refl _, _, _, .read rfl, _, .refl _, _, _,
      .delivered _ _ _, _, .refl _, _, _, .delivered _ _ _, _, .refl _, _, _, .refused _ ?_,
      _, .refl _, _, _, .unlink (.inl rfl), ?_⟩
    · exact List.mem_cons_self
    · exact List.mem_cons_self
  obtain ⟨m', r, hrun, hlog⟩ := Session.exists_run hbody
  exact ⟨m', hrun, hlog, pid_files_in_order (x := .idle m') rfl hrun⟩

/-- The server refuses to be asked. -/
theorem pid_file_lost :
    ¬ ∀ m : Machine, m.log = [] → ∀ x, Session.Run (fun _ _ _ => True) (.idle m) x →
      x.machine.InOrder := by
  intro hclaim
  obtain ⟨m', hrun, hlost, -⟩ := @start_daemon_misled (fun _ _ _ => True) server_runs 7 8 rfl
    (by decide) (by decide) (fun _ => trivial) (by decide) (by decide) (by decide)
  exact Bool.false_ne_true (hclaim server_runs rfl _ hrun _ hlost rfl)

end CodaNode.Server
