import Mathlib.Algebra.Group.Int.Defs
import TrivialInit.State

/-!
# ProcessMixin — spawning, reaping and restarting

The functions of `process.hpp`.  A system call of the parent enters as its answer: `forked` is what
`fork` returned (`.error` carries `strerror(errno)`), `now` is a reading of the steady clock, and a
`WaitStatus` is the status word of `waitpid`.
-/

namespace TrivialInit

/-! ## Restart accounting of one process -/

namespace TrackedProcess

/-- The test `now - tp.burst_window_start > window`. -/
def windowExpired (tp : TrackedProcess) (now : TimePoint) : Bool :=
  decide (now - tp.burstWindowStart > seconds tp.burstIntervalS)

/-- Open a new burst window if the current one has expired, then count one exit in it. -/
def countExit (tp : TrackedProcess) (now : TimePoint) : TrackedProcess :=
  let tp := if tp.windowExpired now then { tp with burstWindowStart := now, burstCount := 0 } else tp
  { tp with burstCount := tp.burstCount + 1 }

/-- The back-off before the next restart, in milliseconds. -/
def restartDelay (tp : TrackedProcess) : Int :=
  let exp := min tp.restartCount 13
  min (kBaseDelay * 2 ^ exp.toNat) kMaxDelay

/-- The entry pushed to `pending_restarts_`. -/
def pendingRestart (tp : TrackedProcess) (now : TimePoint) : PendingRestart :=
  { unitName := tp.unitName
    «when» := now + milliseconds tp.restartDelay
    restartCount := tp.restartCount + 1
    burstCount := tp.burstCount
    burstWindowStart := tp.burstWindowStart }

end TrackedProcess

namespace InitSystem

/-! ## Spawning -/

/-- `ProcessMixin::spawn`.  The child branch (credentials and `execvp`) does not return; every caller
passes a unit. -/
def spawn (s : InitSystem) (unitName execPath : String) (args : List String)
    (policy : RestartPolicy) (burstLimit burstIntervalS : Int) (unitCtx : UnitFile)
    (forked : ForkAnswer) : Option Pid × InitSystem :=
  let child : ForkedChild :=
    { name := unitName
      unit := unitCtx
      execPath := execPath
      args := args
      fds := s.fds }
  let s := s.recordFork (.spawn child forked)
  match forked with
  | .error reason => (none, s.log .error "process" s!"fork for {unitName} failed: {reason}")
  | .ok pid =>
      let tp : TrackedProcess :=
        { pid := pid
          unitName := unitName
          state := .running
          exitCode := -1
          restartPolicy := policy
          burstLimit := burstLimit
          burstIntervalS := burstIntervalS }
      let s :=
        { s with
          processes := s.processes.insert pid tp
          unitToPid := s.unitToPid.insert unitName pid }
      (some pid, s.log .info "process" s!"Started {unitName} (PID {pid})")

/-- `ProcessMixin::track_process`. -/
def trackProcess (s : InitSystem) (pid : Pid) (unitName : String) (restart : Bool) : InitSystem :=
  let tp : TrackedProcess :=
    { pid := pid
      unitName := unitName
      state := .running
      exitCode := -1
      restartPolicy := if restart then .onFailure else .no }
  { s with
    processes := s.processes.insert pid tp
    unitToPid := s.unitToPid.insert unitName pid }

/-- `ProcessMixin::on_child_exit`. -/
def onChildExit (s : InitSystem) (pid : Pid) (cb : ExitCallback) : InitSystem :=
  { s with exitCallbacks := s.exitCallbacks.insert pid cb }

/-- `ProcessMixin::apply_restart_count`. -/
def applyRestartCount (s : InitSystem) (pid : Pid) (unitName : String) : InitSystem :=
  match s.restartCounts.lookup unitName with
  | none => s
  | some counts =>
      { s with
        processes := UnorderedMap.modify s.processes pid (fun tp =>
          { tp with
            restartCount := counts.restartCount
            burstCount := counts.burstCount
            burstWindowStart := counts.burstWindowStart })
        restartCounts := s.restartCounts.erase unitName }

/-! ## Reaping -/

/-- Add `k` to `active_connections` of a socket unit. -/
def addConnections (s : InitSystem) (socket : String) (k : Int) : InitSystem :=
  { s with
    socketUnits := UnorderedMap.modify s.socketUnits socket (fun sock =>
      { sock with activeConnections := sock.activeConnections + k }) }

/-- Call an exit callback with the exit code. -/
def runExitCallback (s : InitSystem) : ExitCallback → Int → InitSystem
  | .connectionClosed socket, _ => s.addConnections socket (-1)

/-- Call and remove the exit callback of `pid`, if there is one. -/
def fireExitCallback (s : InitSystem) (pid : Pid) (code : Int) : InitSystem :=
  match s.exitCallbacks.lookup pid with
  | none => s
  | some cb =>
      let s := s.runExitCallback cb code
      { s with exitCallbacks := s.exitCallbacks.erase pid }

/-- One iteration of the loop of `reap_children`, for the child `waitpid` returned. -/
def reapChild (s : InitSystem) (pid : Pid) (status : WaitStatus) (now : TimePoint) : InitSystem :=
  let signaled := status.isSignaled
  let code := status.code
  let s := s.fireExitCallback pid code
  match s.processes.lookup pid with
  | none => s.log .debug "process" s!"Reaped orphan PID {pid} (exit {code})"
  | some tp =>
      let tp :=
        { tp with
          state := if code = 0 && !signaled then .stopped else .failed
          exitCode := code }
      let s := s.log .info "process" s!"{tp.unitName} (PID {pid}) exited with {code}"
      let s :=
        { s with
          unitToPid := s.unitToPid.erase tp.unitName
          processes := s.processes.erase pid }
      if !shouldRestart tp.restartPolicy code signaled then s
      else
        let tp := tp.countExit now
        if tp.burstCount > tp.burstLimit then
          s.log .error "process"
            s!"{tp.unitName}: StartLimitBurst exhausted ({tp.burstCount}/{tp.burstLimit}), not restarting"
        else
          let attempt : Int := tp.restartCount + 1
          let burst := s!"burst {tp.burstCount}/{tp.burstLimit}"
          let s := s.log .notice "process"
            s!"{tp.unitName}: restart in {tp.restartDelay}ms (attempt {attempt}, {burst})"
          { s with pendingRestarts := s.pendingRestarts ++ [tp.pendingRestart now] }

/-- `ProcessMixin::reap_children`; `answers` are the results of `waitpid` until it returns none. -/
def reapChildren (s : InitSystem) (answers : List (Pid × WaitStatus × TimePoint)) : InitSystem :=
  answers.foldl (fun s a => s.reapChild a.1 a.2.1 a.2.2) s

/-! ## Pending restarts -/

/-- One iteration of the loop of `drain_pending_restarts`, on `restart_counts_`, `ready` and
`remaining`. -/
def drainStep (now : TimePoint)
    (acc : UnorderedMap String RestartMeta × List String × List PendingRestart)
    (pr : PendingRestart) :
    UnorderedMap String RestartMeta × List String × List PendingRestart :=
  let (counts, ready, remaining) := acc
  if now ≥ pr.when then
    (counts.insert pr.unitName
      { restartCount := pr.restartCount
        burstCount := pr.burstCount
        burstWindowStart := pr.burstWindowStart },
      ready ++ [pr.unitName], remaining)
  else
    (counts, ready, remaining ++ [pr])

/-- `ProcessMixin::drain_pending_restarts`. -/
def drainPendingRestarts (s : InitSystem) (now : TimePoint) : List String × InitSystem :=
  let (counts, ready, remaining) :=
    s.pendingRestarts.foldl (drainStep now) (s.restartCounts, [], [])
  (ready, { s with restartCounts := counts, pendingRestarts := remaining })

/-! ## Signalling and stopping -/

/-- `ProcessMixin::signal_unit`: the process the signal is sent to. -/
def signalUnit (s : InitSystem) (unitName : String) : Option Pid :=
  s.unitToPid.lookup unitName

/-- `ProcessMixin::stop_unit`; `SIGTERM` goes to `signalUnit s unitName`. -/
def stopUnit (s : InitSystem) (unitName : String) : InitSystem :=
  match s.unitToPid.lookup unitName with
  | none => s
  | some pid =>
      let s := s.log .info "process" s!"Stopping {unitName}"
      { s with
        processes := UnorderedMap.modify s.processes pid (fun tp =>
          { tp with restartPolicy := .no }) }

/-- `ProcessMixin::active_count`. -/
def activeCount (s : InitSystem) : Nat :=
  UnorderedMap.countEntries (fun _ tp => decide (tp.state = .running)) s.processes

end InitSystem

end TrivialInit
