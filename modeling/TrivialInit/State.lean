import TrivialInit.Mixins.Journal
import TrivialInit.Systemd.UnitFile

/-!
# State — what the composed init system keeps

`InitSystem` inherits every mixin, and each mixin's `self()` is the whole object.  The model
therefore has one flat record with the members of the mixins that are modelled.

* `std::chrono::steady_clock::time_point` and all durations are nanoseconds (`TimePoint`).
* The descriptor table of PID 1 (`fds`) is part of the record: sockets are accepted, passed on and
  closed in the same functions that update the process table.
* The only closure the program registers as an exit callback is the one of `accept_ready`; it is
  represented by the name of the socket unit it captures.
* What PID 1 forks, and what it does for `RuntimeDirectory=`, is recorded (`forkCalls`,
  `runtimeDirCalls`): these calls have no other effect on the object.
-/

namespace TrivialInit

/-! ## Time -/

abbrev TimePoint := Int

/-- `std::chrono::milliseconds(n)`. -/
def milliseconds (n : Int) : TimePoint := n * 1000000

/-- `std::chrono::seconds(n)`. -/
def seconds (n : Int) : TimePoint := n * 1000000000

/-! ## Processes -/

abbrev Pid := Nat

inductive ServiceState
  | inactive
  | starting
  | running
  | stopping
  | stopped
  | failed
  deriving DecidableEq, Repr

inductive RestartPolicy
  | no
  | onSuccess
  | onFailure
  | onAbnormal
  | onWatchdog
  | onAbort
  | always
  deriving DecidableEq, Repr

def parseRestartPolicy (s : String) : RestartPolicy :=
  if s = "always" then .always
  else if s = "on-failure" then .onFailure
  else if s = "on-success" then .onSuccess
  else if s = "on-abnormal" then .onAbnormal
  else if s = "on-watchdog" then .onWatchdog
  else if s = "on-abort" then .onAbort
  else .no

def shouldRestart (policy : RestartPolicy) (exitCode : Int) (signaled : Bool) : Bool :=
  let clean := !signaled && decide (exitCode = 0)
  match policy with
  | .no => false
  | .always => true
  | .onSuccess => clean
  | .onFailure => !clean
  | .onAbnormal => signaled || decide (0 < exitCode)
  | .onAbort => signaled
  | .onWatchdog => false

structure TrackedProcess where
  pid : Pid
  unitName : String
  state : ServiceState
  exitCode : Int
  restartPolicy : RestartPolicy := .no
  restartCount : Int := 0
  burstLimit : Int := 5
  burstIntervalS : Int := 10
  burstWindowStart : TimePoint := 0
  burstCount : Int := 0
  deriving DecidableEq, Repr

/-- `TrackedProcess::kBaseDelay`, in milliseconds. -/
def kBaseDelay : Int := 100

/-- `TrackedProcess::kMaxDelay` (ten minutes), in milliseconds. -/
def kMaxDelay : Int := 600000

structure PendingRestart where
  unitName : String
  «when» : TimePoint
  restartCount : Int
  burstCount : Int
  burstWindowStart : TimePoint
  deriving DecidableEq, Repr

structure RestartMeta where
  restartCount : Int
  burstCount : Int
  burstWindowStart : TimePoint
  deriving DecidableEq, Repr

/-- The closure `[this,&sock](int){ sock.active_connections--; }` of `accept_ready`. -/
inductive ExitCallback
  | connectionClosed (socket : String)
  deriving DecidableEq, Repr

/-! ## Descriptors -/

/-- An open descriptor: the open file description it refers to, and its `FD_CLOEXEC` flag. -/
structure OpenFd where
  file : Nat
  cloexec : Bool
  deriving DecidableEq, Repr

/-- The descriptor table of a process. -/
abbrev FdTable := Int → Option OpenFd

namespace FdTable

/-- `close(fd)`. -/
def close (t : FdTable) (fd : Int) : FdTable :=
  Function.update t fd none

/-- `dup2(oldfd, newfd)`; `none` is the failure `EBADF`. -/
def dup2 (t : FdTable) (oldfd newfd : Int) : Option FdTable :=
  match t oldfd with
  | none => none
  | some d =>
      if oldfd = newfd then some t
      else some (Function.update t newfd (some { d with cloexec := false }))

/-- A call that returns the new descriptor `fd` for `file`, with `FD_CLOEXEC` set. -/
def install (t : FdTable) (fd : Int) (file : Nat) : FdTable :=
  Function.update t fd (some { file := file, cloexec := true })

/-- `detail::set_cloexec`. -/
def setCloexec (t : FdTable) (fd : Int) (on : Bool) : FdTable :=
  match t fd with
  | none => t
  | some d => Function.update t fd (some { d with cloexec := on })

/-- `set_cloexec` on every descriptor of a list. -/
def setCloexecAll (t : FdTable) (fds : List Int) (on : Bool) : FdTable :=
  fds.foldl (fun t fd => t.setCloexec fd on) t

end FdTable

/-! ## Children -/

/-- The status word of a terminated child. -/
inductive WaitStatus
  | exited (status : Nat)
  | signaled (sig : Nat)
  deriving DecidableEq, Repr

namespace WaitStatus

/-- `WIFSIGNALED`. -/
def isSignaled : WaitStatus → Bool
  | .exited _ => false
  | .signaled _ => true

/-- `WEXITSTATUS`, or `128 + WTERMSIG` for a signal. -/
def code : WaitStatus → Int
  | .exited status => status
  | .signaled sig => 128 + sig

end WaitStatus

/-- What `fork` returned to the parent. -/
abbrev ForkAnswer := Except String Pid

/-- The answers to the `fork` and the `waitpid` of one `ExecStartPre` command.  A failing `waitpid`
leaves the status word 0. -/
inductive PreAnswer
  | forkFailed
  | waited (status : Option WaitStatus)
  deriving DecidableEq, Repr

structure SocketEnv where
  fds : List Int
  names : List String
  deriving DecidableEq, Repr

/-- A child as `fork` makes it: the unit it is forked for, which is also its `unit_ctx`, the program
and the arguments it is to pass to `execvp`, the sockets it is passed if `spawn_with_socket_fds`
forks it, and the descriptor table it inherits. -/
structure ForkedChild where
  name : String
  unit : UnitFile
  execPath : String
  args : List String
  env : Option SocketEnv := none
  fds : FdTable

/-- A call of `fork`, with its answer. -/
inductive ForkCall
  /-- In `start_service`, for the line `preCmd` of `ExecStartPre=`. -/
  | startPre (preCmd : String) (child : ForkedChild) (answer : PreAnswer)
  /-- In `spawn` or `spawn_with_socket_fds`. -/
  | spawn (child : ForkedChild) (answer : ForkAnswer)

/-! ## Users and runtime directories -/

abbrev Uid := UInt32
abbrev Gid := UInt32

/-- A call on the directory named by `RuntimeDirectory=`. -/
inductive RuntimeDirCall
  | mkdir (path : String) (mode : Nat)
  | chown (path : String) (uid : Uid) (gid : Gid)
  deriving DecidableEq, Repr

/-! ## The composed object -/

structure InitSystem where
  -- JournalMixin
  journal : Journal := {}
  -- UnitParseMixin
  units : UnorderedMap String UnitFile := ∅
  -- ProcessMixin
  processes : UnorderedMap Pid TrackedProcess := ∅
  unitToPid : UnorderedMap String Pid := ∅
  exitCallbacks : UnorderedMap Pid ExitCallback := ∅
  pendingRestarts : List PendingRestart := []
  restartCounts : UnorderedMap String RestartMeta := ∅
  -- SocketMixin
  socketUnits : UnorderedMap String SocketUnit := ∅
  fdToSocket : UnorderedMap Int String := ∅
  -- UnitExecMixin
  execOrder : List String := []
  -- The process itself
  fds : FdTable := fun _ => none
  forkCalls : List ForkCall := []
  runtimeDirCalls : List RuntimeDirCall := []

namespace InitSystem

/-- `log` and `log_fmt`. -/
def log (s : InitSystem) (level : LogLevel) (source message : String) : InitSystem :=
  { s with journal := s.journal.log { level := level, source := source, message := message } }

def recordFork (s : InitSystem) (call : ForkCall) : InitSystem :=
  { s with forkCalls := s.forkCalls ++ [call] }

/-- `find_unit`. -/
def findUnit (s : InitSystem) (name : String) : Option UnitFile :=
  s.units.lookup name

end InitSystem

end TrivialInit
