import TrivialInit.Lib.StepRun
import TrivialInit.Mixins.Conditions
import TrivialInit.Mixins.UnitExec

/-!
# System — the init process on top of its kernel

`System` puts the composed object next to the two things the kernel keeps for PID 1: the children
it has not reaped yet, and the steady clock.  An `Event` is one call the main program makes (or one
iteration of its reaping loop) together with the answers of the kernel.  `step` is `none` when the
call ends in an exception, which nothing catches, so that there is no state behind it; and when the
kernel cannot give these answers:

* `fork` never returns the PID of a child that has not been reaped yet;
* `waitpid(-1, …)` only returns such a child;
* `accept4` returns a descriptor that is not open;
* the steady clock never runs backwards.

`ExecStartPre` children are waited for inside `start_service`, so they never outlive an event.
-/

namespace TrivialInit

/-! ## The kernel's view -/

/-- What an unreaped child of PID 1 was forked for. -/
inductive ChildKind
  /-- The main command of a service, started by `start_service`. -/
  | service
  /-- The command serving one accepted connection of a socket unit. -/
  | connection (socket : String)
  /-- A process reparented to PID 1. -/
  | orphan
  deriving DecidableEq, Repr

/-- Is the child entered into the process table? -/
def ChildKind.isTracked : ChildKind → Bool
  | .orphan => false
  | _ => true

structure System where
  init : InitSystem
  children : UnorderedMap Pid ChildKind := ∅
  clock : TimePoint := 0

namespace System

/-- The kernel registers the child a call forked; the PID of an unreaped child cannot recur. -/
def addChild (sys : System) (kind : ChildKind) : Option Pid × InitSystem → Option System
  | (none, s) => some { sys with init := s }
  | (some pid, s) =>
      if pid ∈ sys.children then none
      else some { sys with init := s, children := sys.children.insert pid kind }

/-- `start_service` behind the block on `RuntimeDirectory=`. -/
def startCommands (sys : System) (name : String) (unit : UnitFile) (os : StartAnswers) :
    Option System :=
  sys.addChild .service (sys.init.startCommands name unit os)

/-- `start_service`. -/
def startService (sys : System) (name : String) (unit : UnitFile) (os : StartAnswers) :
    Option System :=
  (sys.init.startService name unit os).bind (sys.addChild .service)

/-! ## Loops that start several units -/

/-- The service unit `name`, if it is loaded. -/
def findService (s : InitSystem) (name : String) : Option UnitFile :=
  (s.findUnit name).filter (fun unit => unit.type = .service)

/-- The loop of `process_restarts` over the names that are due. -/
def restartAll : List String → (Nat → StartAnswers) → System → Option System
  | [], _, sys => some sys
  | name :: rest, os, sys =>
      match findService sys.init name with
      | none => restartAll rest (fun i => os (i + 1)) sys
      | some unit =>
          let sys := { sys with init := sys.init.log .notice "executor" s!"Restarting {name}" }
          (sys.startService name unit (os 0)).bind (restartAll rest (fun i => os (i + 1)))

/-- `process_restarts`. -/
def processRestarts (sys : System) (now : TimePoint) (os : Nat → StartAnswers) : Option System :=
  let (ready, s) := sys.init.drainPendingRestarts now
  restartAll ready os { sys with init := s, clock := now }

/-- The answers of the system to one iteration of `execute(UnitExecute)`. -/
structure ExecuteAnswers where
  probe : SystemProbe
  start : StartAnswers
  mount : MountAnswers

/-- One iteration of `execute(UnitExecute)`. -/
def executeUnit (sys : System) (name : String) (os : ExecuteAnswers) : Option System :=
  let withInit (s : InitSystem) : System := { sys with init := s }
  match sys.init.findUnit name with
  | none => some sys
  | some unit =>
      if unit.isBareTemplate then
        some (withInit (sys.init.log .debug "executor" s!"Skipping bare template: {name}"))
      else if Conditions.throws os.probe unit then none
      else
        match Conditions.evalConditions os.probe unit with
        | 1 => some (withInit (sys.init.log .debug "executor" s!"{name}: condition not met, skipping"))
        | 2 => some (withInit (sys.init.log .error "executor" s!"{name}: assertion failed"))
        | _ =>
            match unit.type with
            | .target => some (withInit (sys.init.log .info "executor" s!"Reached target: {name}"))
            | .service => sys.startService name unit os.start
            | .mount => some (withInit (sys.init.startMount name unit os.mount))
            | .socket => some (withInit (sys.init.log .debug "executor" s!"Socket unit ready: {name}"))
            | .unknown =>
                some (withInit (sys.init.log .warning "executor" s!"Skipping unknown unit type: {name}"))

/-- `execute(UnitExecute)`. -/
def executeUnits : List String → (Nat → ExecuteAnswers) → System → Option System
  | [], _, sys => some sys
  | name :: rest, os, sys =>
      (sys.executeUnit name (os 0)).bind (executeUnits rest (fun i => os (i + 1)))

end System

/-! ## Events -/

inductive Event
  /-- One iteration of the loop of `execute(UnitExecute)`. -/
  | executeUnit (name : String) (os : System.ExecuteAnswers)
  /-- One iteration of the loop of `reap_children`. -/
  | reaped (pid : Pid) (status : WaitStatus) (now : TimePoint)
  | acceptReady (listenFd : Int) (os : AcceptAnswers)
  | processRestarts (now : TimePoint) (os : Nat → StartAnswers)
  /-- `drain_pending_restarts` on its own; the returned names are dropped. -/
  | drainPendingRestarts (now : TimePoint)
  | stopUnit (name : String)
  | queueRestart (name : String) (now : TimePoint)
  /-- A process becomes a child of PID 1 because its parent died. -/
  | adopt (pid : Pid)

namespace System

/-- The socket unit whose listening descriptor is `listenFd`. -/
def acceptSocket (sys : System) (listenFd : Int) : Option String :=
  sys.init.fdToSocket.lookup listenFd

/-- Is the descriptor `accept4` returned free? -/
def acceptPossible (sys : System) (os : AcceptAnswers) : Prop :=
  ∀ c ∈ os.conn, sys.init.fds c.1 = none

instance (sys : System) (os : AcceptAnswers) : Decidable (sys.acceptPossible os) := by
  unfold acceptPossible
  infer_instance

def step (sys : System) : Event → Option System
  | .executeUnit name os => sys.executeUnit name os
  | .reaped pid status now =>
      if pid ∈ sys.children ∧ sys.clock ≤ now then
        some
          { init := sys.init.reapChild pid status now
            children := sys.children.erase pid
            clock := now }
      else none
  | .acceptReady listenFd os =>
      if sys.acceptPossible os then
        sys.addChild (.connection ((sys.acceptSocket listenFd).getD ""))
          (sys.init.acceptReady listenFd os)
      else none
  | .processRestarts now os => if sys.clock ≤ now then sys.processRestarts now os else none
  | .drainPendingRestarts now =>
      if sys.clock ≤ now then
        some { sys with init := (sys.init.drainPendingRestarts now).2, clock := now }
      else none
  | .stopUnit name => some { sys with init := sys.init.stopUnit name }
  | .queueRestart name now =>
      if sys.clock ≤ now then some { sys with init := sys.init.queueRestart name now, clock := now }
      else none
  | .adopt pid =>
      if pid ∈ sys.children then none
      else some { sys with children := sys.children.insert pid .orphan }

/-- The system after a list of events. -/
abbrev run (sys : System) (es : List Event) : Option System :=
  StepRun.run step sys es

end System

end TrivialInit
