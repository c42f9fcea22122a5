import Mathlib.Data.Finset.Basic
import TrivialInit.Mixins.SocketBind
import TrivialInit.System

/-!
# Run — the main program, one system call at a time

`RunState` is a run of `InitSystem::run` from `execute(UnitExecute)` on.  A step is either made by
the kernel, at any time, or by the program, which then gets on to its next system call:

* `procs` holds the children that have not been reaped, each with the status it exited with;
* `pending` holds the signals raised since they were last read: raising one twice leaves one, and
  `SIGCHLD` is raised by every exit of a child;
* `point` is the place in the program, with the local variables that live there.

The objects and tables change as in `System`, and a call of `start_service` or `accept_ready` changes
them when it returns.  Between `fork` and the update of the tables the new child is held by the point
only.  An exception ends the program, since nothing catches it.  `step` is `none` when the kernel
cannot give the answer, or when the call blocks.
-/

namespace TrivialInit

/-! ## Program points -/

/-- The signals `signalfd` is set up for. -/
inductive Signal
  | chld
  | term
  | int
  | usr1
  deriving DecidableEq, Repr

/-- An event `epoll_wait` reports: the signal descriptor, or a registered one. -/
inductive PollEvent
  | signals
  | descriptor (fd : Int)
  deriving DecidableEq, Repr

/-- A call of `start_service` that has got behind the block on `RuntimeDirectory=`: the
`ExecStartPre` commands to come, and the answers to those that have been run. -/
structure StartCall where
  name : String
  unit : UnitFile
  passwd : Option String
  group : Option String
  info : SystemInfo
  answers : List PreAnswer := []
  todo : List String
  /-- The look-ups of the block have not thrown. -/
  created : (runtimeDirectoryCalls unit passwd group).isSome = true

/-- The loop that called `start_service`, with the names still to come. -/
inductive StartedFrom
  | unitExecute (rest : List String)
  | processRestarts (rest : List String)

/-- The call of `epoll_wait` whose events are being handled. -/
inductive Poll
  /-- `poll_once_with_sockets` in the main loop. -/
  | mainLoop
  /-- Iteration `i` of the shutdown wait. -/
  | shutdownWait (i : Nat)
  /-- The last `poll_once`. -/
  | last
  deriving DecidableEq, Repr

inductive RunPoint
  /-- Before an iteration of the loop of `execute(UnitExecute)`. -/
  | executing (rest : List String)
  /-- In `start_service`, before an `ExecStartPre` command or the main command. -/
  | starting (call : StartCall) (back : StartedFrom)
  /-- In `waitpid(pid, &st, 0)` for an `ExecStartPre` command. -/
  | waitingPre (call : StartCall) (pid : Pid) (back : StartedFrom)
  /-- The main command has been forked and is about to be tracked. -/
  | tracking (call : StartCall) (pid : Pid) (back : StartedFrom)
  /-- At the condition of the main loop. -/
  | loopHead
  /-- In the loop over the events of `epoll_wait`. -/
  | polled (events : List PollEvent) (poll : Poll)
  /-- In `accept_ready`, with a child that is about to be tracked. -/
  | accepting (listenFd : Int) (conn : Option (Int × Nat)) (pid : Pid) (rest : List PollEvent)
  /-- In `drain_signals`, before `read`. -/
  | draining (rest : List PollEvent) (poll : Poll)
  /-- In `reap_children`, before `waitpid`. -/
  | reaping (rest : List PollEvent) (poll : Poll)
  /-- In the loop of `process_restarts`. -/
  | restarting (ready : List String)
  /-- In the loop over the reversed `exec_order_`. -/
  | stopping (rest : List String)
  /-- At the condition of the shutdown wait, with its counter. -/
  | awaiting (i : Nat)
  | returned
  /-- An exception has ended the program, in `start_service` or in the conditions of the unit. -/
  | terminated (name : String) (back : StartedFrom)

def StartedFrom.point : StartedFrom → RunPoint
  | .unitExecute rest => .executing rest
  | .processRestarts rest => .restarting rest

/-- The largest number of events `epoll_wait` returns. -/
def Poll.maxEvents : Poll → Nat
  | .mainLoop => 16
  | _ => 8

namespace StartCall

/-- The answers `start_service` has got when `fork` answers for the main command. -/
def startAnswers (call : StartCall) (forked : ForkAnswer) : StartAnswers :=
  { passwd := call.passwd
    group := call.group
    info := call.info
    pre := fun i => call.answers.getD i .forkFailed
    forked := forked }

/-- Go on to the next `ExecStartPre` command. -/
def answered (call : StartCall) (answer : PreAnswer) : StartCall :=
  { call with
    answers := call.answers ++ [answer]
    todo := call.todo.tail }

/-- Go on after `waitpid`; a failed command is the last one. -/
def waited (call : StartCall) (status : WaitStatus) : StartCall :=
  let ignore := (stripDash (call.todo.headD "")).1
  let call := call.answered (.waited (some status))
  if preExitCode (some status) ≠ 0 ∧ !ignore then { call with todo := [] } else call

end StartCall

/-! ## States and answers -/

structure RunState where
  sys : System
  procs : UnorderedMap Pid (Option WaitStatus) := ∅
  pending : Finset Signal := ∅
  shutdownRequested : Bool := false
  /-- `runtime_dirs_chowned_`. -/
  runtimeDirsChowned : Bool := false
  point : RunPoint

deriving instance Inhabited for SystemProbe

/-- The answer of the system to one step of the program; each step uses the fields it asks for. -/
structure RunAnswer where
  probe : SystemProbe := default
  mount : MountAnswers := { alreadyMounted := false, mountError := none }
  /-- The contents of `/etc/passwd` and `/etc/group`. -/
  passwd : Option String := none
  group : Option String := none
  info : SystemInfo := {}
  forked : ForkAnswer := .error ""
  /-- `accept4`. -/
  conn : Option (Int × Nat) := none
  /-- `epoll_wait`; `none` is a failure. -/
  polled : Option (List PollEvent) := none
  /-- `read(signal_fd_, …)`; `none` is `EAGAIN`. -/
  signal : Option Signal := none
  /-- `waitpid(-1, &status, WNOHANG)`; `none` is a result that is not positive. -/
  child : Option Pid := none
  now : TimePoint := 0
  /-- The user interface ended, and this is not PID 1. -/
  quit : Bool := false

/-- A call of `start_service` behind the block. -/
def StartCall.ofUnit (a : RunAnswer) (name : String) (unit : UnitFile)
    (h : (runtimeDirectoryCalls unit a.passwd a.group).isSome = true) : StartCall :=
  { name := name
    unit := unit
    passwd := a.passwd
    group := a.group
    info := a.info
    todo := unit.execStartPre
    created := h }

namespace RunState

/-- `fork` never returns the PID of a child that has not been reaped. -/
def fork (m : RunState) (pid : Pid) (point : RunPoint) : Option RunState :=
  if pid ∈ m.procs then none
  else some { m with procs := m.procs.insert pid none, point := point }

/-- Has the child exited without having been reaped? -/
def Exited (m : RunState) (pid : Pid) : Prop :=
  ∃ status, m.procs.lookup pid = some (some status)

instance (m : RunState) (pid : Pid) : Decidable (m.Exited pid) :=
  decidable_of_iff ((m.procs.lookup pid).join.isSome = true) (by
    simp [Exited, Option.isSome_iff_exists, Option.join_eq_some_iff])

/-- `epoll_wait` reports pending signals, unless it returns as many events as it may. -/
def pollPossible (m : RunState) (max : Nat) : Option (List PollEvent) → Prop
  | none => True
  | some events =>
      events.length ≤ max ∧
        (m.pending = ∅ ∨ .signals ∈ events ∨ events.length = max)

instance (m : RunState) (max : Nat) (polled : Option (List PollEvent)) :
    Decidable (m.pollPossible max polled) := by
  unfold pollPossible
  cases polled <;> infer_instance

/-- Wait for events and go on to their loop. -/
def poll (m : RunState) (poll : Poll) (polled : Option (List PollEvent)) : Option RunState :=
  if m.pollPossible poll.maxEvents polled then
    some { m with point := .polled (polled.getD []) poll }
  else none

/-- The service unit that an iteration of `execute(UnitExecute)` starts, if it gets that far. -/
def serviceToStart (s : InitSystem) (probe : SystemProbe) (name : String) : Option UnitFile :=
  match s.findUnit name with
  | none => none
  | some unit =>
      if unit.isBareTemplate then none
      else
        match Conditions.evalConditions probe unit with
        | 1 | 2 => none
        | _ => if unit.type = .service then some unit else none

/-- Does an iteration of `execute(UnitExecute)` end in an exception of its conditions? -/
def conditionsThrow (s : InitSystem) (probe : SystemProbe) (name : String) : Bool :=
  (s.findUnit name).any (fun unit => !unit.isBareTemplate && Conditions.throws probe unit)

/-- `maybe_fix_runtime_dirs`; the `chown` calls follow when the flag is set. -/
def maybeFixRuntimeDirs (m : RunState) : RunState :=
  let sysusers := "systemd-sysusers.service"
  if m.runtimeDirsChowned = true ∨ sysusers ∉ m.sys.init.execOrder ∨
      sysusers ∈ m.sys.init.unitToPid then m
  else
    let s := m.sys.init.log .info "fs" "Applying deferred runtime directory ownership"
    { m with sys := { m.sys with init := s }, runtimeDirsChowned := true }

/-- The end of the main loop. -/
def enterShutdown (m : RunState) : RunState :=
  { m with
    sys := { m.sys with init := m.sys.init.log .info "init" "Shutting down" }
    point := .stopping m.sys.init.execOrder.reverse }

/-! ## Steps of the program -/

/-- Call `start_service`, up to the end of the block on `RuntimeDirectory=`. -/
def enterStartService (m : RunState) (a : RunAnswer) (name : String) (unit : UnitFile)
    (back : StartedFrom) : RunState :=
  if h : (runtimeDirectoryCalls unit a.passwd a.group).isSome = true then
    { m with point := .starting (StartCall.ofUnit a name unit h) back }
  else { m with point := .terminated name back }

/-- One iteration of the loop of `execute(UnitExecute)`, up to `start_service`. -/
def stepExecuting (m : RunState) (a : RunAnswer) : List String → Option RunState
  | [] =>
      -- The main loop begins.
      let s := m.sys.init.registerAcceptSockets
      let s := s.log .info "init" "Entering main loop"
      some { m with sys := { m.sys with init := s }, point := .loopHead }
  | name :: rest =>
      if conditionsThrow m.sys.init a.probe name then
        some { m with point := .terminated name (.unitExecute rest) }
      else
        match serviceToStart m.sys.init a.probe name with
        | some unit => some (m.enterStartService a name unit (.unitExecute rest))
        | none =>
            let os : System.ExecuteAnswers :=
              { probe := a.probe
                start := { forked := .error "" }
                mount := a.mount }
            (m.sys.executeUnit name os).map (fun sys =>
              { m with sys := sys, point := .executing rest })

/-- `start_service` behind the block, up to its next system call on a child. -/
def stepStarting (m : RunState) (a : RunAnswer) (call : StartCall) (back : StartedFrom) :
    Option RunState :=
  match call.todo with
  | preCmd :: _ =>
      let ctx := SpecifierContext.ofUnit call.name call.unit.path
      match commandWords call.info ctx (stripDash preCmd).2, a.forked with
      | none, _ => some { m with point := .starting (call.answered .forkFailed) back }
      | some _, .error _ => some { m with point := .starting (call.answered .forkFailed) back }
      | some _, .ok pid => m.fork pid (.waitingPre call pid back)
  | [] =>
      match m.sys.init.startService call.name call.unit (call.startAnswers a.forked) with
      | some (some pid, _) => m.fork pid (.tracking call pid back)
      | _ =>
          (m.sys.startService call.name call.unit (call.startAnswers a.forked)).map (fun sys =>
            { m with sys := sys, point := back.point })

/-- `waitpid` blocks until the `ExecStartPre` command has exited. -/
def stepWaitingPre (m : RunState) (call : StartCall) (pid : Pid) (back : StartedFrom) :
    Option RunState :=
  match m.procs.lookup pid with
  | some (some status) =>
      some { m with procs := m.procs.erase pid, point := .starting (call.waited status) back }
  | _ => none

/-- One iteration of the loop over the events of a poll. -/
def stepPolled (m : RunState) (a : RunAnswer) : List PollEvent → Poll → Option RunState
  | .signals :: rest, poll => some { m with point := .draining rest poll }
  | .descriptor listenFd :: rest, .mainLoop =>
      let os : AcceptAnswers := { conn := a.conn, forked := a.forked }
      match (m.sys.init.acceptReady listenFd os).1 with
      | some pid =>
          if m.sys.acceptPossible os then m.fork pid (.accepting listenFd a.conn pid rest) else none
      | none =>
          (m.sys.step (.acceptReady listenFd os)).map (fun sys =>
            { m with sys := sys, point := .polled rest .mainLoop })
  | .descriptor _ :: rest, poll => some { m with point := .polled rest poll }
  | [], .mainLoop =>
      -- `process_restarts` takes the restarts that are due.
      (m.sys.step (.drainPendingRestarts a.now)).map (fun sys =>
        { m with sys := sys, point := .restarting (m.sys.init.drainPendingRestarts a.now).1 })
  | [], .shutdownWait i => some { m with point := .awaiting (i + 1) }
  | [], .last =>
      let (s, _) := m.sys.init.closeAllSockets
      let s := s.log .info "init" "Goodbye."
      some { m with sys := { m.sys with init := s }, point := .returned }

/-- One iteration of the loop of `drain_signals`. -/
def stepDraining (m : RunState) (a : RunAnswer) (rest : List PollEvent) (poll : Poll) :
    Option RunState :=
  match a.signal with
  | none => if m.pending = ∅ then some { m with point := .polled rest poll } else none
  | some signal =>
      if signal ∈ m.pending then
        let m := { m with pending := m.pending.erase signal }
        match signal with
        | .chld => some { m with point := .reaping rest poll }
        | .term | .int =>
            let s := m.sys.init.log .notice "signal" "Shutdown signal received"
            some { m with sys := { m.sys with init := s }, shutdownRequested := true }
        | .usr1 => some m
      else none

/-- One iteration of the loop of `reap_children`. -/
def stepReaping (m : RunState) (a : RunAnswer) (rest : List PollEvent) (poll : Poll) :
    Option RunState :=
  match a.child with
  | none =>
      if ∀ e ∈ m.procs.entries, e.2 = none then some { m with point := .draining rest poll }
      else none
  | some pid =>
      match m.procs.lookup pid with
      | some (some status) =>
          (m.sys.step (.reaped pid status a.now)).map (fun sys =>
            { m with sys := sys, procs := m.procs.erase pid })
      | _ => none

/-- One iteration of the loop of `process_restarts`, or the end of one of the main loop. -/
def stepRestarting (m : RunState) (a : RunAnswer) : List String → Option RunState
  | [] =>
      let m := m.maybeFixRuntimeDirs
      if a.quit then some m.enterShutdown else some { m with point := .loopHead }
  | name :: rest =>
      match System.findService m.sys.init name with
      | none => some { m with point := .restarting rest }
      | some unit =>
          let s := m.sys.init.log .notice "executor" s!"Restarting {name}"
          let m := { m with sys := { m.sys with init := s } }
          some (m.enterStartService a name unit (.processRestarts rest))

/-- The next step of the program; `SIGKILL` to what is left comes before the last poll. -/
def programStep (m : RunState) (a : RunAnswer) : Option RunState :=
  match m.point with
  | .executing rest => m.stepExecuting a rest
  | .starting call back => m.stepStarting a call back
  | .waitingPre call pid back => m.stepWaitingPre call pid back
  | .tracking call pid back =>
      (m.sys.startService call.name call.unit (call.startAnswers (.ok pid))).map (fun sys =>
        { m with sys := sys, point := back.point })
  | .loopHead => if m.shutdownRequested then some m.enterShutdown else m.poll .mainLoop a.polled
  | .polled events poll => m.stepPolled a events poll
  | .accepting listenFd conn pid rest =>
      (m.sys.step (.acceptReady listenFd { conn := conn, forked := .ok pid })).map (fun sys =>
        { m with sys := sys, point := .polled rest .mainLoop })
  | .draining rest poll => m.stepDraining a rest poll
  | .reaping rest poll => m.stepReaping a rest poll
  | .restarting ready => m.stepRestarting a ready
  | .stopping [] => some { m with point := .awaiting 0 }
  | .stopping (name :: rest) =>
      (m.sys.step (.stopUnit name)).map (fun sys => { m with sys := sys, point := .stopping rest })
  | .awaiting i =>
      if i < 50 ∧ 0 < m.sys.init.activeCount then m.poll (.shutdownWait i) a.polled
      else m.poll .last a.polled
  | .returned => none
  | .terminated _ _ => none

end RunState

namespace InitSystem

/-- The object after `execute(UnitParse)`. -/
def parsed (journal : Journal) (units : UnorderedMap String UnitFile) (fds : FdTable) :
    InitSystem :=
  { journal := journal
    units := units
    fds := fds }

/-- The object after `execute(SocketBind)` and `execute(DependencyResolve)`. -/
def boundAndResolved (s : InitSystem) (os : SocketBindAnswers) (inDegreeOrder : List String) :
    InitSystem :=
  (s.executeSocketBind os).1.executeDependencyResolve inDegreeOrder

end InitSystem

/-! ## Events -/

inductive RunEvent
  /-- A child terminates. -/
  | exits (pid : Pid) (status : WaitStatus)
  /-- A process becomes a child of PID 1 because its parent died. -/
  | adopts (pid : Pid)
  | raises (signal : Signal)
  | program (a : RunAnswer)

namespace RunState

def step (m : RunState) : RunEvent → Option RunState
  | .exits pid status =>
      match m.procs.lookup pid with
      | some none =>
          some { m with
            procs := m.procs.insert pid (some status)
            pending := insert .chld m.pending }
      | _ => none
  | .adopts pid =>
      if pid ∈ m.procs then none
      else
        (m.sys.step (.adopt pid)).map (fun sys =>
          { m with sys := sys, procs := m.procs.insert pid none })
  | .raises signal => some { m with pending := insert signal m.pending }
  | .program a => m.programStep a

/-- The state after a list of events. -/
abbrev run (m : RunState) (es : List RunEvent) : Option RunState :=
  StepRun.run step m es

/-- `run` after `execute(SocketBind)` and `execute(DependencyResolve)` have left the object `s`. -/
def boot (s : InitSystem) : RunState :=
  { sys := { init := s }
    point := .executing s.execOrder }

end RunState

end TrivialInit
