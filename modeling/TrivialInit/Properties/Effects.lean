import TrivialInit.System

/-!
# Effects — what each call does to the tables

One specification per call, up to the journal and the descriptor table: which entries of which table
it writes.  Later modules reason with these equations and do not unfold the calls again.
-/

namespace TrivialInit

/-! ## Writing the tables -/

namespace TrackedProcess

/-- The restart counters that `apply_restart_count` copies. -/
def withCounts (tp : TrackedProcess) : Option RestartMeta → TrackedProcess
  | none => tp
  | some counts =>
      { tp with
        restartCount := counts.restartCount
        burstCount := counts.burstCount
        burstWindowStart := counts.burstWindowStart }

@[simp] theorem withCounts_pid (tp : TrackedProcess) (counts : Option RestartMeta) :
    (tp.withCounts counts).pid = tp.pid := by
  cases counts <;> rfl

@[simp] theorem withCounts_unitName (tp : TrackedProcess) (counts : Option RestartMeta) :
    (tp.withCounts counts).unitName = tp.unitName := by
  cases counts <;> rfl

@[simp] theorem withCounts_state (tp : TrackedProcess) (counts : Option RestartMeta) :
    (tp.withCounts counts).state = tp.state := by
  cases counts <;> rfl

@[simp] theorem withCounts_restartPolicy (tp : TrackedProcess) (counts : Option RestartMeta) :
    (tp.withCounts counts).restartPolicy = tp.restartPolicy := by
  cases counts <;> rfl

@[simp] theorem withCounts_burstLimit (tp : TrackedProcess) (counts : Option RestartMeta) :
    (tp.withCounts counts).burstLimit = tp.burstLimit := by
  cases counts <;> rfl

@[simp] theorem withCounts_burstIntervalS (tp : TrackedProcess) (counts : Option RestartMeta) :
    (tp.withCounts counts).burstIntervalS = tp.burstIntervalS := by
  cases counts <;> rfl

end TrackedProcess

namespace InitSystem

/-- The same tables; only the journal, the descriptor table and the records of calls may differ. -/
def SameTables (s s' : InitSystem) : Prop :=
  ∃ journal fds forks dirs, s' =
    { s with
      journal := journal
      fds := fds
      forkCalls := forks
      runtimeDirCalls := dirs }

theorem SameTables.refl (s : InitSystem) : SameTables s s :=
  ⟨s.journal, s.fds, s.forkCalls, s.runtimeDirCalls, rfl⟩

theorem sameTables_log (s : InitSystem) (level : LogLevel) (source message : String) :
    SameTables s (s.log level source message) :=
  ⟨_, s.fds, s.forkCalls, s.runtimeDirCalls, rfl⟩

theorem SameTables.trans {s s' s'' : InitSystem} (h : SameTables s s') (h' : SameTables s' s'') :
    SameTables s s'' := by
  rcases h with ⟨journal, fds, forks, dirs, rfl⟩
  rcases h' with ⟨journal', fds', forks', dirs', rfl⟩
  exact ⟨journal', fds', forks', dirs', rfl⟩

namespace SameTables

variable {s s' : InitSystem}

theorem units (h : SameTables s s') : s'.units = s.units := by
  rcases h with ⟨journal, fds, forks, dirs, rfl⟩
  rfl

theorem processes (h : SameTables s s') : s'.processes = s.processes := by
  rcases h with ⟨journal, fds, forks, dirs, rfl⟩
  rfl

theorem unitToPid (h : SameTables s s') : s'.unitToPid = s.unitToPid := by
  rcases h with ⟨journal, fds, forks, dirs, rfl⟩
  rfl

theorem exitCallbacks (h : SameTables s s') : s'.exitCallbacks = s.exitCallbacks := by
  rcases h with ⟨journal, fds, forks, dirs, rfl⟩
  rfl

theorem pendingRestarts (h : SameTables s s') : s'.pendingRestarts = s.pendingRestarts := by
  rcases h with ⟨journal, fds, forks, dirs, rfl⟩
  rfl

theorem restartCounts (h : SameTables s s') : s'.restartCounts = s.restartCounts := by
  rcases h with ⟨journal, fds, forks, dirs, rfl⟩
  rfl

theorem socketUnits (h : SameTables s s') : s'.socketUnits = s.socketUnits := by
  rcases h with ⟨journal, fds, forks, dirs, rfl⟩
  rfl

theorem fdToSocket (h : SameTables s s') : s'.fdToSocket = s.fdToSocket := by
  rcases h with ⟨journal, fds, forks, dirs, rfl⟩
  rfl

theorem execOrder (h : SameTables s s') : s'.execOrder = s.execOrder := by
  rcases h with ⟨journal, fds, forks, dirs, rfl⟩
  rfl

end SameTables

/-- Enter a new child into the process table. -/
def enter (s : InitSystem) (tp : TrackedProcess) : InitSystem :=
  { s with
    processes := s.processes.insert tp.pid tp
    unitToPid := s.unitToPid.insert tp.unitName tp.pid }

theorem SameTables.enter {s s' : InitSystem} (h : SameTables s s') (tp : TrackedProcess) :
    SameTables (s.enter tp) (s'.enter tp) := by
  rcases h with ⟨journal, fds, forks, dirs, rfl⟩
  exact ⟨journal, fds, forks, dirs, rfl⟩

/-! ## Spawning -/

/-- The table entry of a child that `track_process` was called for. -/
def trackedEntry (pid : Pid) (unitName : String) (policy : RestartPolicy) : TrackedProcess :=
  { pid := pid
    unitName := unitName
    state := .running
    exitCode := -1
    restartPolicy := policy }

theorem spawn_ok (s : InitSystem) (unitName execPath : String) (args : List String)
    (policy : RestartPolicy) (burstLimit burstIntervalS : Int) (unit : UnitFile) (pid : Pid) :
    (s.spawn unitName execPath args policy burstLimit burstIntervalS unit (.ok pid)).1 =
        some pid ∧
      SameTables
        (s.enter
          { trackedEntry pid unitName policy with
            burstLimit := burstLimit
            burstIntervalS := burstIntervalS })
        (s.spawn unitName execPath args policy burstLimit burstIntervalS unit (.ok pid)).2 :=
  ⟨rfl, _, s.fds, _, s.runtimeDirCalls, rfl⟩

theorem spawnWithSocketFds_ok (s : InitSystem) (unitName execPath : String) (args : List String)
    (env : SocketEnv) (restart : Bool) (unit : UnitFile) (pid : Pid) :
    (s.spawnWithSocketFds unitName execPath args env restart unit (.ok pid)).1 = some pid ∧
      SameTables
        (s.enter (trackedEntry pid unitName (if restart then .onFailure else .no)))
        (s.spawnWithSocketFds unitName execPath args env restart unit (.ok pid)).2 :=
  ⟨rfl, _, _, _, _, rfl⟩

/-! ## Starting a service -/

/-- Directly after a spawn, `apply_restart_count` writes the stored counters into the new entry. -/
theorem SameTables.applyRestartCount_enter {s s' : InitSystem} {tp : TrackedProcess}
    (h : SameTables (s.enter tp) s') :
    SameTables
      { s.enter (tp.withCounts (s.restartCounts.lookup tp.unitName)) with
        restartCounts := s.restartCounts.erase tp.unitName }
      (s'.applyRestartCount tp.pid tp.unitName) := by
  rcases h with ⟨journal, fds, forks, dirs, rfl⟩
  unfold applyRestartCount
  change SameTables _ (match s.restartCounts.lookup tp.unitName with
    | none => _
    | some counts => _)
  cases hlookup : s.restartCounts.lookup tp.unitName with
  | none =>
      -- Nothing stored: erasing the missing key leaves the map as it is.
      have hmem : tp.unitName ∉ s.restartCounts := AList.lookup_eq_none.mp hlookup
      rw [UnorderedMap.erase_of_notMem hmem]
      exact ⟨journal, fds, forks, dirs, rfl⟩
  | some counts =>
      refine ⟨journal, fds, forks, dirs, ?_⟩
      simp only [InitSystem.enter, UnorderedMap.modify_insert_self, TrackedProcess.withCounts]

/-- The assignments on the socket activation path change the entry that was just made. -/
theorem SameTables.configureRestart_enter {s s' : InitSystem} {tp : TrackedProcess}
    {counts : UnorderedMap String RestartMeta}
    (h : SameTables { s.enter tp with restartCounts := counts } s') (policy : RestartPolicy)
    (burstLimit burstIntervalS : Int) :
    SameTables
      { s.enter
          { tp with
            restartPolicy := policy
            burstLimit := burstLimit
            burstIntervalS := burstIntervalS } with
        restartCounts := counts }
      (s'.configureRestart tp.pid policy burstLimit burstIntervalS) := by
  rcases h with ⟨journal, fds, forks, dirs, rfl⟩
  refine ⟨journal, fds, forks, dirs, ?_⟩
  simp only [configureRestart, InitSystem.enter, UnorderedMap.modify_insert_self]

/-- The exit code of the command that stops the `ExecStartPre` loop, if one does. -/
def startPreCode (info : SystemInfo) (ctx : SpecifierContext) :
    List String → (Nat → PreAnswer) → Option Int
  | [], _ => none
  | preCmd :: rest, os =>
      match commandWords info ctx (stripDash preCmd).2 with
      | none => startPreCode info ctx rest (fun i => os (i + 1))
      | some _ =>
          match os 0 with
          | .forkFailed => startPreCode info ctx rest (fun i => os (i + 1))
          | .waited st =>
              if preExitCode st ≠ 0 ∧ !(stripDash preCmd).1 then some (preExitCode st)
              else startPreCode info ctx rest (fun i => os (i + 1))

/-- The child for an `ExecStartPre` command, on the descriptor table `fds`. -/
def startPreChild (name : String) (unit : UnitFile) (words : String × List String)
    (fds : FdTable) : ForkedChild :=
  { name := name
    unit := unit
    execPath := words.1
    args := words.2
    fds := fds }

/-- The calls of `fork` in the `ExecStartPre` loop. -/
def startPreCalls (info : SystemInfo) (name : String) (unit : UnitFile) (fds : FdTable) :
    List String → (Nat → PreAnswer) → List ForkCall
  | [], _ => []
  | preCmd :: rest, os =>
      match commandWords info (SpecifierContext.ofUnit name unit.path) (stripDash preCmd).2 with
      | none => startPreCalls info name unit fds rest (fun i => os (i + 1))
      | some words =>
          .startPre preCmd (startPreChild name unit words fds) (os 0) ::
            match os 0 with
            | .forkFailed => startPreCalls info name unit fds rest (fun i => os (i + 1))
            | .waited st =>
                if preExitCode st ≠ 0 ∧ !(stripDash preCmd).1 then []
                else startPreCalls info name unit fds rest (fun i => os (i + 1))

-- Unfolding the loops would otherwise unfold the text of the command as well.
attribute [local irreducible] stripDash

theorem startPreCode_cons (info : SystemInfo) (ctx : SpecifierContext) (preCmd : String)
    (rest : List String) (os : Nat → PreAnswer) :
    startPreCode info ctx (preCmd :: rest) os =
      match commandWords info ctx (stripDash preCmd).2 with
      | none => startPreCode info ctx rest (fun i => os (i + 1))
      | some _ =>
          match os 0 with
          | .forkFailed => startPreCode info ctx rest (fun i => os (i + 1))
          | .waited st =>
              if preExitCode st ≠ 0 ∧ !(stripDash preCmd).1 then some (preExitCode st)
              else startPreCode info ctx rest (fun i => os (i + 1)) := rfl

theorem startPreCalls_cons (info : SystemInfo) (name : String) (unit : UnitFile) (fds : FdTable)
    (preCmd : String) (rest : List String) (os : Nat → PreAnswer) :
    startPreCalls info name unit fds (preCmd :: rest) os =
      match commandWords info (SpecifierContext.ofUnit name unit.path) (stripDash preCmd).2 with
      | none => startPreCalls info name unit fds rest (fun i => os (i + 1))
      | some words =>
          .startPre preCmd (startPreChild name unit words fds) (os 0) ::
            match os 0 with
            | .forkFailed => startPreCalls info name unit fds rest (fun i => os (i + 1))
            | .waited st =>
                if preExitCode st ≠ 0 ∧ !(stripDash preCmd).1 then []
                else startPreCalls info name unit fds rest (fun i => os (i + 1)) := rfl

/-- One iteration of the loop. -/
theorem runStartPre_cons (info : SystemInfo) (name : String) (unit : UnitFile) (preCmd : String)
    (rest : List String) (os : Nat → PreAnswer) (s : InitSystem) :
    runStartPre info name unit (preCmd :: rest) os s =
      match commandWords info (SpecifierContext.ofUnit name unit.path) (stripDash preCmd).2 with
      | none => runStartPre info name unit rest (fun i => os (i + 1)) s
      | some words =>
          let s := s.recordFork (.startPre preCmd (s.preChild name unit words) (os 0))
          match os 0 with
          | .forkFailed => runStartPre info name unit rest (fun i => os (i + 1)) s
          | .waited st =>
              if preExitCode st ≠ 0 ∧ !(stripDash preCmd).1 then (some (preExitCode st), s)
              else runStartPre info name unit rest (fun i => os (i + 1)) s := rfl

/-- The loop changes nothing but the record of what is forked. -/
theorem runStartPre_eq (info : SystemInfo) (name : String) (unit : UnitFile) (cmds : List String)
    (os : Nat → PreAnswer) (s : InitSystem) :
    runStartPre info name unit cmds os s =
      (startPreCode info (SpecifierContext.ofUnit name unit.path) cmds os,
        { s with forkCalls := s.forkCalls ++ startPreCalls info name unit s.fds cmds os }) := by
  induction cmds generalizing os s with
  | nil =>
      change (none, s) = (none, { s with forkCalls := s.forkCalls ++ [] })
      rw [List.append_nil]
  | cons preCmd rest ih =>
      rw [runStartPre_cons, startPreCode_cons, startPreCalls_cons]
      cases commandWords info (SpecifierContext.ofUnit name unit.path) (stripDash preCmd).2 with
      | none => exact ih _ _
      | some words =>
          cases os 0 with
          | forkFailed =>
              dsimp only
              rw [ih]
              simp [recordFork, preChild, startPreChild]
          | waited st =>
              dsimp only
              split_ifs
              · rfl
              · rw [ih]
                simp [recordFork, preChild, startPreChild]

/-- The child that runs the main command of a service, if `start_service` gets that far. -/
def startedPid (name : String) (unit : UnitFile) (os : StartAnswers) : Option Pid :=
  let ctx := SpecifierContext.ofUnit name unit.path
  match startPreCode os.info ctx unit.execStartPre os.pre with
  | some _ => none
  | none =>
      if unit.execStart = "" then none
      else
        match commandWords os.info ctx (stripDash unit.execStart).2 with
        | none => none
        | some _ => os.forked.toOption

/-- The table entry `start_service` leaves behind, with the counters of an earlier run. -/
def startedProcess (s : InitSystem) (name : String) (unit : UnitFile) (pid : Pid) :
    TrackedProcess :=
  let tp : TrackedProcess :=
    { trackedEntry pid name (parseRestartPolicy unit.restartPolicy) with
      burstLimit := unit.restartLimitBurst
      burstIntervalS := unit.restartLimitInterval }
  tp.withCounts (s.restartCounts.lookup name)

@[simp] theorem startedProcess_pid (s : InitSystem) (name : String) (unit : UnitFile) (pid : Pid) :
    (s.startedProcess name unit pid).pid = pid := by
  simp [startedProcess, trackedEntry]

@[simp] theorem startedProcess_unitName (s : InitSystem) (name : String) (unit : UnitFile)
    (pid : Pid) : (s.startedProcess name unit pid).unitName = name := by
  simp [startedProcess, trackedEntry]

@[simp] theorem startedProcess_state (s : InitSystem) (name : String) (unit : UnitFile)
    (pid : Pid) : (s.startedProcess name unit pid).state = .running := by
  simp [startedProcess, trackedEntry]

/-- The effect of a successful start. -/
def recordStart (s : InitSystem) (name : String) (unit : UnitFile) : Option Pid → InitSystem
  | none => s
  | some pid =>
      { s.enter (s.startedProcess name unit pid) with
        restartCounts := s.restartCounts.erase name }

theorem withCounts_configured (tp : TrackedProcess) (counts : Option RestartMeta)
    (policy : RestartPolicy) (burstLimit burstIntervalS : Int) :
    ({ tp.withCounts counts with
        restartPolicy := policy
        burstLimit := burstLimit
        burstIntervalS := burstIntervalS } : TrackedProcess) =
      TrackedProcess.withCounts
        { tp with
          restartPolicy := policy
          burstLimit := burstLimit
          burstIntervalS := burstIntervalS } counts := by
  cases counts <;> rfl

theorem launchService_spec (s : InitSystem) (name : String) (unit : UnitFile) (ignoreFail : Bool)
    (execPath : String) (args : List String) (forked : ForkAnswer) :
    (s.launchService name unit ignoreFail execPath args forked).1 = forked.toOption ∧
      SameTables (s.recordStart name unit forked.toOption)
        (s.launchService name unit ignoreFail execPath args forked).2 := by
  unfold launchService
  cases henv : s.collectSocketEnv name with
  | some env =>
      cases forked with
      | error reason =>
          exact ⟨rfl, _, _, _, _, rfl⟩
      | ok pid =>
          refine ⟨rfl, ?_⟩
          -- The policy and the burst settings are written after the spawn, into the same entry.
          have hspawn := ((sameTables_log s .info "executor"
            s!"Socket-activating {name} ({env.fds.length} fd(s))").enter _).trans
              (spawnWithSocketFds_ok _ name execPath args env
                (decide (parseRestartPolicy unit.restartPolicy ≠ .no)) unit pid).2
          have hconfigured := hspawn.applyRestartCount_enter.configureRestart_enter
            (parseRestartPolicy unit.restartPolicy) unit.restartLimitBurst
            unit.restartLimitInterval
          rw [withCounts_configured, TrackedProcess.withCounts_pid] at hconfigured
          exact hconfigured
  | none =>
      cases forked with
      | error reason =>
          cases ignoreFail <;> exact ⟨rfl, _, _, _, _, rfl⟩
      | ok pid =>
          refine ⟨rfl, ?_⟩
          -- `spawn` gets the policy and the burst settings as arguments.
          have hspawn := ((sameTables_log s .info "executor"
            s!"Starting service: {name} ({execPath})").enter _).trans
              (spawn_ok _ name execPath args (parseRestartPolicy unit.restartPolicy)
                unit.restartLimitBurst unit.restartLimitInterval unit pid).2
          exact hspawn.applyRestartCount_enter

theorem SameTables.recordStart {s s' : InitSystem} (h : SameTables s s') (name : String)
    (unit : UnitFile) (pid : Option Pid) :
    SameTables (s.recordStart name unit pid) (s'.recordStart name unit pid) := by
  rcases h with ⟨journal, fds, forks, dirs, rfl⟩
  cases pid <;> exact ⟨journal, fds, forks, dirs, rfl⟩

theorem startCommands_spec (s : InitSystem) (name : String) (unit : UnitFile) (os : StartAnswers) :
    (s.startCommands name unit os).1 = startedPid name unit os ∧
      SameTables (s.recordStart name unit (startedPid name unit os))
        (s.startCommands name unit os).2 := by
  unfold startCommands startedPid
  rw [runStartPre_eq]
  generalize hforked : ({ s with forkCalls := _ } : InitSystem) = s'
  have hs' : SameTables s s' := hforked ▸ ⟨s.journal, s.fds, _, s.runtimeDirCalls, rfl⟩
  dsimp only
  cases startPreCode os.info (SpecifierContext.ofUnit name unit.path) unit.execStartPre os.pre with
  | some code =>
      exact ⟨rfl, hs'.trans (sameTables_log s' _ _ _)⟩
  | none =>
      dsimp only
      split_ifs with hexec
      · exact ⟨rfl, hs'.trans (sameTables_log s' _ _ _)⟩
      · cases commandWords os.info (SpecifierContext.ofUnit name unit.path)
            (stripDash unit.execStart).2 with
        | none => exact ⟨rfl, hs'⟩
        | some words =>
            obtain ⟨hpid, htables⟩ := launchService_spec s' name unit
              (stripDash unit.execStart).1 words.1 words.2 os.forked
            exact ⟨hpid, (hs'.recordStart name unit _).trans htables⟩

theorem sameTables_of_createRuntimeDirectory {s s' : InitSystem} {unit : UnitFile}
    {passwd group : Option String} (h : s.createRuntimeDirectory unit passwd group = some s') :
    SameTables s s' := by
  obtain ⟨calls, -, rfl⟩ := Option.map_eq_some_iff.mp h
  exact ⟨s.journal, s.fds, s.forkCalls, _, rfl⟩

/-- Unless an exception ends it, `start_service` is the block on `RuntimeDirectory=` and what comes
behind it. -/
theorem startService_eq_some {s : InitSystem} {name : String} {unit : UnitFile} {os : StartAnswers}
    {r : Option Pid × InitSystem} (h : s.startService name unit os = some r) :
    ∃ s', s.createRuntimeDirectory unit os.passwd os.group = some s' ∧
      r = s'.startCommands name unit os := by
  obtain ⟨s', hs', rfl⟩ := Option.map_eq_some_iff.mp h
  exact ⟨s', hs', rfl⟩

theorem startService_spec {s : InitSystem} {name : String} {unit : UnitFile} {os : StartAnswers}
    {r : Option Pid × InitSystem} (h : s.startService name unit os = some r) :
    r.1 = startedPid name unit os ∧
      SameTables (s.recordStart name unit (startedPid name unit os)) r.2 := by
  obtain ⟨s', hs', rfl⟩ := startService_eq_some h
  obtain ⟨hpid, htables⟩ := startCommands_spec s' name unit os
  exact ⟨hpid, ((sameTables_of_createRuntimeDirectory hs').recordStart name unit _).trans htables⟩

/-! ## Accepting a connection -/

/-- The socket unit `name`; reading a missing one creates it with the default values. -/
def socketUnit (s : InitSystem) (name : String) : SocketUnit :=
  (s.socketUnits.lookup name).getD default

theorem SameTables.socketUnit {s s' : InitSystem} (h : SameTables s s') (n : String) :
    s'.socketUnit n = s.socketUnit n := by
  rcases h with ⟨journal, fds, forks, dirs, rfl⟩
  rfl

/-- The test in front of the second `accept4`. -/
def hasCapacity (sock : SocketUnit) : Prop :=
  ¬ (sock.maxConn > 0 ∧ sock.activeConnections ≥ sock.maxConn)

instance (sock : SocketUnit) : Decidable (hasCapacity sock) :=
  inferInstanceAs (Decidable (¬ _))

/-- The effect of handing a connection of `socket` to a new child, up to the counter. -/
def recordConnection (s : InitSystem) (socket svc : String) (pid : Pid) : InitSystem :=
  { s.enter (trackedEntry pid svc .no) with
    exitCallbacks := s.exitCallbacks.insert pid (.connectionClosed socket) }

/-- The counter of a stored socket unit. -/
theorem socketUnit_addConnections {s : InitSystem} {socket : String} (h : socket ∈ s.socketUnits)
    (k : Int) (n : String) :
    (s.addConnections socket k).socketUnit n =
      if n = socket then
        { s.socketUnit socket with
          activeConnections := (s.socketUnit socket).activeConnections + k }
      else s.socketUnit n := by
  obtain ⟨sock, hsock⟩ := UnorderedMap.exists_lookup h
  unfold socketUnit addConnections
  rw [UnorderedMap.lookup_modify, hsock]
  split_ifs <;> rfl

/-- Counted and given back: the counter is what it was. -/
theorem socketUnit_addConnections_back {s : InitSystem} {socket : String}
    (h : socket ∈ s.socketUnits) (n : String) :
    ((s.addConnections socket 1).addConnections socket (-1)).socketUnit n = s.socketUnit n := by
  have hcounted : socket ∈ (s.addConnections socket 1).socketUnits := UnorderedMap.mem_modify.mpr h
  rw [socketUnit_addConnections hcounted, socketUnit_addConnections h,
    socketUnit_addConnections h, if_pos rfl]
  split_ifs with hn
  · rw [hn]
    simp
  · rfl

theorem serveConnection_spec (s : InitSystem) (socket : String) (sock : SocketUnit) (conn : Int)
    (forked : ForkAnswer) :
    ((s.serveConnection socket sock conn forked).1 = none ∧
      SameTables (s.addConnections socket (-1)) (s.serveConnection socket sock conn forked).2) ∨
    ∃ pid unit, forked = .ok pid ∧ s.findUnit (s.resolvePair sock) = some unit ∧
      (s.serveConnection socket sock conn forked).1 = some pid ∧
      SameTables (s.recordConnection socket (s.resolvePair sock) pid)
        (s.serveConnection socket sock conn forked).2 := by
  unfold serveConnection
  dsimp only
  cases hunit : s.findUnit (s.resolvePair sock) with
  | none =>
      exact Or.inl ⟨rfl, s.journal, _, _, _, rfl⟩
  | some unit =>
      by_cases hexec : unit.execStart = ""
      · simp only [hexec, if_true]
        exact Or.inl ⟨trivial, s.journal, _, _, _, rfl⟩
      · simp only [hexec, if_false]
        cases splitExec unit.execStart with
        | nil => exact Or.inl ⟨rfl, s.journal, _, _, _, rfl⟩
        | cons execPath args =>
            cases forked with
            | error reason => exact Or.inl ⟨rfl, s.journal, _, _, _, rfl⟩
            | ok pid => exact Or.inr ⟨pid, unit, rfl, rfl, rfl, _, _, _, _, rfl⟩

/-- Either no child is forked and every counter keeps its value, or the socket had room and its
counter and the process table get the new connection. -/
theorem acceptReady_spec (s : InitSystem) (listenFd : Int) (os : AcceptAnswers) :
    ((s.acceptReady listenFd os).1 = none ∧ ∃ socketUnits,
      SameTables { s with socketUnits := socketUnits } (s.acceptReady listenFd os).2 ∧
      ∀ n, (socketUnits.lookup n).getD default = s.socketUnit n) ∨
    ∃ socket pid unit socketUnits, s.fdToSocket.lookup listenFd = some socket ∧
      os.forked = .ok pid ∧
      s.findUnit (s.resolvePair (s.socketUnit socket)) = some unit ∧
      hasCapacity (s.socketUnit socket) ∧
      (s.acceptReady listenFd os).1 = some pid ∧
      SameTables
        { s.recordConnection socket (s.resolvePair (s.socketUnit socket)) pid with
          socketUnits := socketUnits }
        (s.acceptReady listenFd os).2 ∧
      ∀ n, (socketUnits.lookup n).getD default =
        if n = socket then
          { s.socketUnit socket with
            activeConnections := (s.socketUnit socket).activeConnections + 1 }
        else s.socketUnit n := by
  unfold acceptReady
  cases hsocket : s.fdToSocket.lookup listenFd with
  | none =>
      exact Or.inl ⟨rfl, s.socketUnits, SameTables.refl s, fun _ => rfl⟩
  | some socket =>
      have htouch : ∀ n, ((UnorderedMap.subscript s.socketUnits socket).lookup n).getD default =
          s.socketUnit n := UnorderedMap.getD_lookup_subscript s.socketUnits socket
      dsimp only
      rw [htouch socket]
      -- A full socket accepts the connection only to close it, without counting it.
      by_cases hfull : (s.socketUnit socket).maxConn > 0 ∧
          (s.socketUnit socket).activeConnections ≥ (s.socketUnit socket).maxConn
      · simp only [hfull, and_self, if_true]
        cases os.conn with
        | none => exact Or.inl ⟨rfl, _, ⟨s.journal, _, _, _, rfl⟩, htouch⟩
        | some c => exact Or.inl ⟨rfl, _, ⟨s.journal, _, _, _, rfl⟩, htouch⟩
      · simp only [hfull, if_false]
        cases os.conn with
        | none => exact Or.inl ⟨rfl, _, ⟨s.journal, _, _, _, rfl⟩, htouch⟩
        | some c =>
            rcases c with ⟨conn, file⟩
            dsimp only
            let accepted : InitSystem :=
              { s with
                socketUnits := UnorderedMap.subscript s.socketUnits socket
                fds := s.fds.install conn file }
            have hmem : socket ∈ accepted.socketUnits :=
              UnorderedMap.mem_subscript.mpr (Or.inl rfl)
            have haccepted : ∀ n, accepted.socketUnit n = s.socketUnit n := htouch
            rcases serveConnection_spec (accepted.addConnections socket 1) socket
                (s.socketUnit socket) conn os.forked with
              ⟨hnone, htables⟩ | ⟨pid, unit, hforked, hunit, hpid, htables⟩
            · refine Or.inl ⟨hnone,
                ((accepted.addConnections socket 1).addConnections socket (-1)).socketUnits,
                SameTables.trans ⟨s.journal, _, _, _, rfl⟩ htables, ?_⟩
              intro n
              exact (socketUnit_addConnections_back hmem n).trans (haccepted n)
            · refine Or.inr ⟨socket, pid, unit, (accepted.addConnections socket 1).socketUnits, rfl,
                hforked, hunit, hfull, hpid, SameTables.trans ⟨s.journal, _, _, _, rfl⟩ htables, ?_⟩
              intro n
              rw [← haccepted socket, ← haccepted n]
              exact socketUnit_addConnections hmem 1 n

/-! ## Descriptors of accepted connections -/

theorem close_install (t : FdTable) (fd : Int) (file : Nat) :
    (t.install fd file).close fd = t.close fd := by
  simp [FdTable.install, FdTable.close]

theorem close_setCloexec (t : FdTable) (fd : Int) (on : Bool) :
    (t.setCloexec fd on).close fd = t.close fd := by
  unfold FdTable.setCloexec FdTable.close
  cases t fd <;> simp

theorem close_of_free {t : FdTable} {fd : Int} (h : t fd = none) : t.close fd = t := by
  rw [FdTable.close, ← h, Function.update_eq_self]

/-- Whichever way `accept_ready` ends, it closes the accepted descriptor. -/
theorem serveConnection_fds (s : InitSystem) (socket : String) (sock : SocketUnit) (conn : Int)
    (forked : ForkAnswer) :
    (s.serveConnection socket sock conn forked).2.fds = s.fds.close conn := by
  have hrestored : ((s.fds.setCloexecAll [conn] false).setCloexecAll [conn] true).close conn =
      s.fds.close conn := by
    simp [FdTable.setCloexecAll, close_setCloexec]
  unfold serveConnection
  dsimp only
  cases s.findUnit (s.resolvePair sock) with
  | none => rfl
  | some unit =>
      by_cases hexec : unit.execStart = ""
      · simp only [hexec, if_true]
        rfl
      · simp only [hexec, if_false]
        cases splitExec unit.execStart with
        | nil => rfl
        | cons execPath args =>
            cases forked with
            | error reason => exact hrestored
            | ok pid => exact hrestored

/-- No accepted descriptor stays open in the init process. -/
theorem acceptReady_fds (s : InitSystem) (listenFd : Int) (os : AcceptAnswers)
    (hfree : ∀ c ∈ os.conn, s.fds c.1 = none) : (s.acceptReady listenFd os).2.fds = s.fds := by
  unfold acceptReady
  cases s.fdToSocket.lookup listenFd with
  | none => rfl
  | some socket =>
      dsimp only
      cases hconn : os.conn with
      | none =>
          split_ifs <;> rfl
      | some c =>
          rcases c with ⟨conn, file⟩
          have hclosed : (s.fds.install conn file).close conn = s.fds := by
            rw [close_install, close_of_free (hfree (conn, file) hconn)]
          split_ifs
          · exact hclosed
          · rw [serveConnection_fds]
            exact hclosed

/-! ## Reaping -/

theorem countExit_burstCount (tp : TrackedProcess) (now : TimePoint) :
    (tp.countExit now).burstCount = if tp.windowExpired now then 1 else tp.burstCount + 1 := by
  unfold TrackedProcess.countExit
  dsimp only
  split_ifs <;> rfl

theorem countExit_burstLimit (tp : TrackedProcess) (now : TimePoint) :
    (tp.countExit now).burstLimit = tp.burstLimit := by
  unfold TrackedProcess.countExit
  dsimp only
  split_ifs <;> rfl

/-- What the exit of a tracked process leads to. -/
inductive ExitOutcome
  /-- The restart policy does not ask for a restart. -/
  | finished
  /-- The burst limit forbids the restart. -/
  | exhausted
  | scheduled (pr : PendingRestart)
  deriving DecidableEq, Repr

def exitOutcome (tp : TrackedProcess) (status : WaitStatus) (now : TimePoint) : ExitOutcome :=
  if shouldRestart tp.restartPolicy status.code status.isSignaled then
    if (tp.countExit now).burstCount > (tp.countExit now).burstLimit then .exhausted
    else .scheduled ((tp.countExit now).pendingRestart now)
  else .finished

/-- The entry an outcome adds to `pending_restarts_`. -/
def ExitOutcome.pending : ExitOutcome → List PendingRestart
  | .scheduled pr => [pr]
  | _ => []

/-- The effect of reaping `pid`, after its exit callback. -/
def recordExit (s : InitSystem) (pid : Pid) (status : WaitStatus) (now : TimePoint) : InitSystem :=
  let s := s.fireExitCallback pid status.code
  { s with
    processes := s.processes.erase pid
    unitToPid :=
      match s.processes.lookup pid with
      | none => s.unitToPid
      | some tp => s.unitToPid.erase tp.unitName
    pendingRestarts :=
      match s.processes.lookup pid with
      | none => s.pendingRestarts
      | some tp => s.pendingRestarts ++ (exitOutcome tp status now).pending }

/-- The state and the exit code of the copy do not enter the restart accounting. -/
theorem countExit_exited (tp : TrackedProcess) (state : ServiceState) (code : Int)
    (now : TimePoint) :
    ({ tp with
        state := state
        exitCode := code } : TrackedProcess).countExit now =
      { tp.countExit now with
        state := state
        exitCode := code } := by
  unfold TrackedProcess.countExit TrackedProcess.windowExpired
  dsimp only
  split_ifs <;> rfl

theorem reapChild_spec (s : InitSystem) (pid : Pid) (status : WaitStatus) (now : TimePoint) :
    SameTables (s.recordExit pid status now) (s.reapChild pid status now) := by
  unfold reapChild recordExit
  dsimp only
  -- The callback runs first, and neither side looks at the state before it again.
  generalize s.fireExitCallback pid status.code = s
  cases hlookup : s.processes.lookup pid with
  | none =>
      rw [UnorderedMap.erase_of_notMem (AList.lookup_eq_none.mp hlookup)]
      exact sameTables_log s _ _ _
  | some tp =>
      -- The copy in the source carries the new state and exit code; the counters do not read them.
      simp only [countExit_exited]
      cases hshould : shouldRestart tp.restartPolicy status.code status.isSignaled with
      | false =>
          have houtcome : exitOutcome tp status now = .finished := by
            simp [exitOutcome, hshould]
          simp only [houtcome, ExitOutcome.pending, List.append_nil, Bool.not_false, if_true]
          exact ⟨_, s.fds, s.forkCalls, s.runtimeDirCalls, rfl⟩
      | true =>
          by_cases hburst : (tp.countExit now).burstCount > (tp.countExit now).burstLimit
          · have houtcome : exitOutcome tp status now = .exhausted := by
              simp [exitOutcome, hshould, hburst]
            simp only [houtcome, hburst, ExitOutcome.pending, List.append_nil, Bool.not_true,
              Bool.false_eq_true, if_true, if_false]
            exact ⟨_, s.fds, s.forkCalls, s.runtimeDirCalls, rfl⟩
          · have houtcome : exitOutcome tp status now =
                .scheduled ((tp.countExit now).pendingRestart now) := by
              simp [exitOutcome, hshould, hburst]
            simp only [houtcome, hburst, ExitOutcome.pending, Bool.not_true, Bool.false_eq_true,
              if_false]
            exact ⟨_, s.fds, s.forkCalls, s.runtimeDirCalls, rfl⟩

/-- The callback writes the socket units and the callback table only. -/
theorem fireExitCallback_eq (s : InitSystem) (pid : Pid) (code : Int) :
    s.fireExitCallback pid code =
      { s with
        exitCallbacks := s.exitCallbacks.erase pid
        socketUnits :=
          match s.exitCallbacks.lookup pid with
          | none => s.socketUnits
          | some (.connectionClosed socket) => (s.addConnections socket (-1)).socketUnits } := by
  unfold fireExitCallback
  cases hlookup : s.exitCallbacks.lookup pid with
  | none =>
      rw [UnorderedMap.erase_of_notMem (AList.lookup_eq_none.mp hlookup)]
  | some cb =>
      cases cb
      rfl

end InitSystem

/-! ## Draining -/

namespace PendingRestart

/-- The test `now >= pr.when`. -/
def isDue (now : TimePoint) (pr : PendingRestart) : Bool :=
  decide (now ≥ pr.when)

/-- The counters an entry carries. -/
def counts (pr : PendingRestart) : RestartMeta :=
  { restartCount := pr.restartCount
    burstCount := pr.burstCount
    burstWindowStart := pr.burstWindowStart }

end PendingRestart

/-- `restart_counts_[pr.unit_name] = {…}`. -/
def storeCounts (counts : UnorderedMap String RestartMeta) (pr : PendingRestart) :
    UnorderedMap String RestartMeta :=
  counts.insert pr.unitName pr.counts

/-- The last entry of a unit decides what is stored for it. -/
theorem lookup_foldl_storeCounts (l : List PendingRestart) (m : UnorderedMap String RestartMeta)
    (n : String) :
    (l.foldl storeCounts m).lookup n =
      match (l.filter (fun pr => decide (pr.unitName = n))).getLast? with
      | none => m.lookup n
      | some pr => some pr.counts := by
  induction l generalizing m with
  | nil =>
      rfl
  | cons pr l ih =>
      rw [List.foldl_cons, ih]
      by_cases hn : pr.unitName = n
      -- An entry of the unit is overwritten by a later one, if there is one.
      · cases hlast : (l.filter (fun pr => decide (pr.unitName = n))).getLast? with
        | none =>
            have hnil := List.getLast?_eq_none_iff.mp hlast
            simp [hn, hnil, storeCounts]
        | some pr' =>
            simp [hn, List.getLast?_cons, hlast]
      · have hn' : ¬ n = pr.unitName := fun h => hn h.symm
        simp [hn, storeCounts, hn']

theorem foldl_drainStep (now : TimePoint) (l : List PendingRestart)
    (counts : UnorderedMap String RestartMeta) (ready : List String)
    (remaining : List PendingRestart) :
    l.foldl (InitSystem.drainStep now) (counts, ready, remaining) =
      ((l.filter (PendingRestart.isDue now)).foldl storeCounts counts,
        ready ++ (l.filter (PendingRestart.isDue now)).map PendingRestart.unitName,
        remaining ++ l.filter (fun pr => !pr.isDue now)) := by
  induction l generalizing counts ready remaining with
  | nil =>
      simp
  | cons pr l ih =>
      rw [List.foldl_cons]
      by_cases hdue : now ≥ pr.when
      · have hstep : InitSystem.drainStep now (counts, ready, remaining) pr =
            (storeCounts counts pr, ready ++ [pr.unitName], remaining) := by
          simp [InitSystem.drainStep, hdue, storeCounts, PendingRestart.counts]
        rw [hstep, ih]
        simp [PendingRestart.isDue, hdue, List.append_assoc]
      · have hstep : InitSystem.drainStep now (counts, ready, remaining) pr =
            (counts, ready, remaining ++ [pr]) := by
          simp [InitSystem.drainStep, hdue]
        rw [hstep, ih]
        simp [PendingRestart.isDue, hdue, List.append_assoc]

namespace InitSystem

/-- Draining partitions the pending restarts and keeps the order on both sides. -/
theorem drainPendingRestarts_eq (s : InitSystem) (now : TimePoint) :
    s.drainPendingRestarts now =
      ((s.pendingRestarts.filter (PendingRestart.isDue now)).map PendingRestart.unitName,
        { s with
          restartCounts :=
            (s.pendingRestarts.filter (PendingRestart.isDue now)).foldl storeCounts s.restartCounts
          pendingRestarts := s.pendingRestarts.filter (fun pr => !pr.isDue now) }) := by
  unfold drainPendingRestarts
  rw [foldl_drainStep]
  rfl

/-! ## Stopping -/

/-- The effect of `stop_unit`. -/
def recordStop (s : InitSystem) (unitName : String) : InitSystem :=
  { s with
    processes :=
      match s.unitToPid.lookup unitName with
      | none => s.processes
      | some pid => UnorderedMap.modify s.processes pid (fun tp => { tp with restartPolicy := .no }) }

theorem stopUnit_spec (s : InitSystem) (unitName : String) :
    SameTables (s.recordStop unitName) (s.stopUnit unitName) := by
  unfold stopUnit recordStop
  cases s.unitToPid.lookup unitName with
  | none => exact SameTables.refl s
  | some pid => exact ⟨_, s.fds, s.forkCalls, s.runtimeDirCalls, rfl⟩

end InitSystem

end TrivialInit
