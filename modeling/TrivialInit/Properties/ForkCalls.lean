import TrivialInit.Properties.Effects

/-!
# ForkCalls — what a call forks

A call appends the forks it makes to `forkCalls`, in their order.  One equation per call says which
they are, and which command it has passed to `spawn` or `spawn_with_socket_fds`.
-/

namespace TrivialInit

/-! ## Commands -/

/-- The executable and the arguments, when there is a word. -/
def headArgs : List String → Option (String × List String)
  | [] => none
  | execPath :: args => some (execPath, args)

theorem headArgs_inj {w w' : List String} : headArgs w = headArgs w' ↔ w = w' := by
  cases w <;> cases w' <;> simp [headArgs]

namespace ForkCall

def child : ForkCall → ForkedChild
  | .startPre _ child _ => child
  | .spawn child _ => child

/-- The executable and the arguments `spawn` or `spawn_with_socket_fds` was called with. -/
def passedCommand? : ForkCall → Option (String × List String)
  | .startPre _ _ _ => none
  | .spawn child _ => some (child.execPath, child.args)

end ForkCall

/-- What is recorded in `s'` behind what is recorded in `s`. -/
def newForks (s s' : InitSystem) : List ForkCall :=
  s'.forkCalls.drop s.forkCalls.length

/-- The commands that a call which leads from `s` to `s'` has passed to `spawn` or
`spawn_with_socket_fds`. -/
def passedCommands (s s' : InitSystem) : List (String × List String) :=
  (newForks s s').filterMap ForkCall.passedCommand?

theorem newForks_eq {s s' : InitSystem} {calls : List ForkCall}
    (h : s'.forkCalls = s.forkCalls ++ calls) : newForks s s' = calls := by
  rw [newForks, h, List.drop_left]

namespace InitSystem

/-! ## Journal and counters -/

@[simp] theorem forkCalls_log (s : InitSystem) (level : LogLevel) (source message : String) :
    (s.log level source message).forkCalls = s.forkCalls := rfl

@[simp] theorem forkCalls_applyRestartCount (s : InitSystem) (pid : Pid) (name : String) :
    (s.applyRestartCount pid name).forkCalls = s.forkCalls := by
  unfold applyRestartCount
  cases s.restartCounts.lookup name <;> rfl

@[simp] theorem forkCalls_configureRestart (s : InitSystem) (pid : Pid) (policy : RestartPolicy)
    (burstLimit burstIntervalS : Int) :
    (s.configureRestart pid policy burstLimit burstIntervalS).forkCalls = s.forkCalls := rfl

/-! ## Starting a service -/

/-- The child `start_service` forks for the main command. -/
def mainChild (s : InitSystem) (name : String) (unit : UnitFile) (words : String × List String) :
    ForkedChild :=
  { name := name
    unit := unit
    execPath := words.1
    args := words.2
    env := s.collectSocketEnv name
    fds :=
      match s.collectSocketEnv name with
      | none => s.fds
      | some env => s.fds.setCloexecAll env.fds false }

theorem forkCalls_launchService (s : InitSystem) (name : String) (unit : UnitFile)
    (ignoreFail : Bool) (execPath : String) (args : List String) (forked : ForkAnswer) :
    (s.launchService name unit ignoreFail execPath args forked).2.forkCalls =
      s.forkCalls ++ [.spawn (s.mainChild name unit (execPath, args)) forked] := by
  unfold launchService mainChild
  cases s.collectSocketEnv name with
  | some env =>
      cases forked with
      | error reason => rfl
      | ok pid => exact forkCalls_applyRestartCount _ _ _
  | none =>
      cases forked with
      | error reason => cases ignoreFail <;> rfl
      | ok pid => exact forkCalls_applyRestartCount _ _ _

/-- The command `start_service` passes to `spawn` or `spawn_with_socket_fds`, if it gets there. -/
def startedCommand (name : String) (unit : UnitFile) (os : StartAnswers) :
    Option (String × List String) :=
  let ctx := SpecifierContext.ofUnit name unit.path
  match startPreCode os.info ctx unit.execStartPre os.pre with
  | some _ => none
  | none =>
      if unit.execStart = "" then none
      else commandWords os.info ctx (stripDash unit.execStart).2

theorem startedPid_eq (name : String) (unit : UnitFile) (os : StartAnswers) :
    startedPid name unit os = (startedCommand name unit os).bind (fun _ => os.forked.toOption) := by
  unfold startedPid startedCommand
  dsimp only
  cases startPreCode os.info (SpecifierContext.ofUnit name unit.path) unit.execStartPre os.pre with
  | some code => rfl
  | none =>
      dsimp only
      split_ifs
      · rfl
      · cases commandWords os.info (SpecifierContext.ofUnit name unit.path)
            (stripDash unit.execStart).2 <;> rfl

/-- First the forks for `ExecStartPre=`, then the one for the main command. -/
theorem forkCalls_startCommands (s : InitSystem) (name : String) (unit : UnitFile)
    (os : StartAnswers) :
    (s.startCommands name unit os).2.forkCalls =
      s.forkCalls ++ (startPreCalls os.info name unit s.fds unit.execStartPre os.pre ++
        ((startedCommand name unit os).map
          (fun words => .spawn (s.mainChild name unit words) os.forked)).toList) := by
  unfold startCommands startedCommand
  rw [runStartPre_eq]
  dsimp only
  cases startPreCode os.info (SpecifierContext.ofUnit name unit.path) unit.execStartPre os.pre with
  | some code => simp
  | none =>
      dsimp only
      split_ifs with hexec
      · simp
      · cases commandWords os.info (SpecifierContext.ofUnit name unit.path)
            (stripDash unit.execStart).2 with
        | none => simp
        | some words =>
            dsimp only
            rw [forkCalls_launchService, List.append_assoc]
            rfl

theorem forkCalls_startService {s s' : InitSystem} {name : String} {unit : UnitFile}
    {os : StartAnswers} {pid : Option Pid} (h : s.startService name unit os = some (pid, s')) :
    s'.forkCalls =
      s.forkCalls ++ (startPreCalls os.info name unit s.fds unit.execStartPre os.pre ++
        ((startedCommand name unit os).map
          (fun words => .spawn (s.mainChild name unit words) os.forked)).toList) := by
  obtain ⟨t, ht, heq⟩ := startService_eq_some h
  obtain ⟨calls, -, rfl⟩ := Option.map_eq_some_iff.mp ht
  rw [show s' = _ from congrArg Prod.snd heq, forkCalls_startCommands]
  rfl

theorem startPre_of_mem_startPreCalls {info : SystemInfo} {name : String} {unit : UnitFile}
    {fds : FdTable} {cmds : List String} {os : Nat → PreAnswer} {call : ForkCall}
    (h : call ∈ startPreCalls info name unit fds cmds os) :
    ∃ preCmd child answer, call = .startPre preCmd child answer := by
  induction cmds generalizing os with
  | nil => cases h
  | cons preCmd rest ih =>
      rw [startPreCalls_cons] at h
      cases hwords : commandWords info (SpecifierContext.ofUnit name unit.path)
          (stripDash preCmd).2 with
      | none => exact ih (by simpa [hwords] using h)
      | some words =>
          simp only [hwords, List.mem_cons] at h
          rcases h with rfl | h
          · exact ⟨_, _, _, rfl⟩
          · cases hos : os 0 with
            | forkFailed => exact ih (by simpa [hos] using h)
            | waited st =>
                simp only [hos] at h
                split_ifs at h with hstop
                · cases h
                · exact ih h

theorem spawn_notMem_startPreCalls {info : SystemInfo} {name : String} {unit : UnitFile}
    {fds : FdTable} {cmds : List String} {os : Nat → PreAnswer} {child : ForkedChild}
    {answer : ForkAnswer} : ForkCall.spawn child answer ∉ startPreCalls info name unit fds cmds os := by
  intro hmem
  obtain ⟨preCmd, pre, status, heq⟩ := startPre_of_mem_startPreCalls hmem
  nomatch heq

theorem filterMap_startPreCalls (info : SystemInfo) (name : String) (unit : UnitFile)
    (fds : FdTable) (cmds : List String) (os : Nat → PreAnswer) :
    (startPreCalls info name unit fds cmds os).filterMap ForkCall.passedCommand? = [] := by
  refine List.filterMap_eq_nil_iff.mpr (fun call hcall => ?_)
  obtain ⟨preCmd, child, answer, rfl⟩ := startPre_of_mem_startPreCalls hcall
  rfl

/-- `start_service` passes on one command at most. -/
theorem passedCommands_startService {s s' : InitSystem} {name : String} {unit : UnitFile}
    {os : StartAnswers} {pid : Option Pid} (h : s.startService name unit os = some (pid, s')) :
    passedCommands s s' = (startedCommand name unit os).toList := by
  rw [passedCommands, newForks_eq (forkCalls_startService h), List.filterMap_append,
    filterMap_startPreCalls]
  cases startedCommand name unit os <;> rfl

/-! ## Accepting a connection -/

/-- The command `accept_ready` passes to `spawn_with_socket_fds` for a connection of the socket. -/
def acceptedCommand (s : InitSystem) (sock : SocketUnit) : Option (String × List String) :=
  match s.findUnit (s.resolvePair sock) with
  | none => none
  | some unit => if unit.execStart = "" then none else headArgs (splitExec unit.execStart)

/-- The child `accept_ready` forks for a connection, on the descriptor table `fds`. -/
def connectionChild (name : String) (unit : UnitFile) (words : String × List String)
    (sock : SocketUnit) (conn : Int) (fds : FdTable) : ForkedChild :=
  { name := name
    unit := unit
    execPath := words.1
    args := words.2
    env := some { fds := [conn], names := [sock.name] }
    fds := fds.setCloexecAll [conn] false }

theorem forkCalls_serveConnection (s : InitSystem) (socket : String) (sock : SocketUnit)
    (conn : Int) (forked : ForkAnswer) :
    (s.serveConnection socket sock conn forked).2.forkCalls =
      s.forkCalls ++
        (((s.findUnit (s.resolvePair sock)).bind (fun unit =>
          (s.acceptedCommand sock).map (fun words =>
            .spawn (connectionChild (s.resolvePair sock) unit words sock conn s.fds)
              forked))).toList) := by
  unfold serveConnection acceptedCommand
  dsimp only
  cases s.findUnit (s.resolvePair sock) with
  | none => exact (List.append_nil _).symm
  | some unit =>
      by_cases hexec : unit.execStart = ""
      · simp only [hexec, if_true]
        exact (List.append_nil _).symm
      · simp only [hexec, if_false]
        cases splitExec unit.execStart with
        | nil => exact (List.append_nil _).symm
        | cons execPath args => cases forked <;> rfl

/-- What `accept_ready` forks for an accepted connection of a socket that has room. -/
theorem forkCalls_acceptReady (s : InitSystem) {listenFd : Int} {os : AcceptAnswers}
    {socket : String} {conn : Int} {file : Nat} (hsocket : s.fdToSocket.lookup listenFd = some socket)
    (hroom : hasCapacity (s.socketUnit socket)) (hconn : os.conn = some (conn, file)) :
    let sock := s.socketUnit socket
    (s.acceptReady listenFd os).2.forkCalls =
      s.forkCalls ++
        (((s.findUnit (s.resolvePair sock)).bind (fun unit =>
          (s.acceptedCommand sock).map (fun words =>
            .spawn (connectionChild (s.resolvePair sock) unit words sock conn
              (s.fds.install conn file)) os.forked))).toList) := by
  intro sock
  have htouch : ((UnorderedMap.subscript s.socketUnits socket).lookup socket).getD default = sock :=
    UnorderedMap.getD_lookup_subscript s.socketUnits socket socket
  unfold acceptReady
  simp only [hsocket, hconn, htouch]
  rw [if_neg hroom, forkCalls_serveConnection]
  rfl

theorem passedCommands_acceptReady {s : InitSystem} {listenFd : Int} {os : AcceptAnswers}
    {socket : String} {conn : Int × Nat} (hsocket : s.fdToSocket.lookup listenFd = some socket)
    (hroom : hasCapacity (s.socketUnit socket)) (hconn : os.conn = some conn) :
    passedCommands s (s.acceptReady listenFd os).2 =
      (s.acceptedCommand (s.socketUnit socket)).toList := by
  rw [passedCommands, newForks_eq (s.forkCalls_acceptReady hsocket hroom hconn)]
  unfold acceptedCommand
  cases s.findUnit (s.resolvePair (s.socketUnit socket)) with
  | none => rfl
  | some unit =>
      dsimp only
      split_ifs
      · rfl
      · cases splitExec unit.execStart <;> rfl

/-- `accept_ready` returns a child only for a connection, and for the command of the paired unit. -/
theorem acceptedCommand_of_acceptReady {s : InitSystem} {listenFd : Int} {os : AcceptAnswers}
    {pid : Pid} (h : (s.acceptReady listenFd os).1 = some pid) :
    ∃ socket conn file unit words, s.fdToSocket.lookup listenFd = some socket ∧
      hasCapacity (s.socketUnit socket) ∧ os.conn = some (conn, file) ∧
      s.findUnit (s.resolvePair (s.socketUnit socket)) = some unit ∧
      s.acceptedCommand (s.socketUnit socket) = some words := by
  unfold acceptReady at h
  cases hsocket : s.fdToSocket.lookup listenFd with
  | none => simp [hsocket] at h
  | some socket =>
      -- `socket_units_[name]` adds an entry for an unknown name; what is read there is the same.
      have htouch : ((UnorderedMap.subscript s.socketUnits socket).lookup socket).getD default =
          s.socketUnit socket := UnorderedMap.getD_lookup_subscript s.socketUnits socket socket
      simp only [hsocket, htouch] at h
      cases hconn : os.conn with
      | none => simp [hconn] at h
      | some c =>
          obtain ⟨conn, file⟩ := c
          simp only [hconn] at h
          split_ifs at h with hfull
          unfold serveConnection at h
          dsimp only at h
          split at h
          · nomatch h
          · rename_i unit hunit
            split_ifs at h with hexec
            split at h
            · nomatch h
            · rename_i execPath args hsplit
              refine ⟨socket, conn, file, unit, (execPath, args), rfl, hfull, rfl, hunit, ?_⟩
              have hfound : s.findUnit (s.resolvePair (s.socketUnit socket)) = some unit := hunit
              simp only [acceptedCommand, hfound, if_neg hexec, hsplit, headArgs]

end InitSystem

end TrivialInit
