import TrivialInit.Mixins.ChildContext

/-!
# UnitExecMixin — ordering and starting units

The functions of `unit_exec.hpp` that work on one unit at a time, and `execute(DependencyResolve)`.
The loops that start several units fork, so they are part of `TrivialInit.System`.
-/

namespace TrivialInit

/-! ## The dependency graph -/

/-- The two maps `execute(DependencyResolve)` builds. -/
structure DependencyGraph where
  graph : UnorderedMap String (List String) := ∅
  inDegree : UnorderedMap String Int := ∅

namespace DependencyGraph

/-- `graph[name]; in_degree[name]=0;` -/
def addNode (g : DependencyGraph) (name : String) : DependencyGraph :=
  { graph := UnorderedMap.subscript g.graph name
    inDegree := g.inDegree.insert name 0 }

/-- `graph[dep].push_back(name); in_degree[name]++;` -/
def addEdge (g : DependencyGraph) (dep name : String) : DependencyGraph :=
  { graph := UnorderedMap.modify (UnorderedMap.subscript g.graph dep) dep (fun l => l ++ [name])
    inDegree := UnorderedMap.modify (UnorderedMap.subscript g.inDegree name) name (fun n => n + 1) }

/-- The two inner loops over `unit.after` and `unit.requires_`. -/
def addUnit (units : UnorderedMap String UnitFile) (g : DependencyGraph) (name : String)
    (unit : UnitFile) : DependencyGraph :=
  let g := unit.after.foldl (fun g dep =>
    if dep ∈ units then g.addEdge dep name else g) g
  unit.requires.foldl (fun g dep =>
    if dep ∈ units ∧ dep ∉ unit.after then g.addEdge dep name else g) g

/-- Both loops over all units. -/
def build (units : UnorderedMap String UnitFile) : DependencyGraph :=
  let g := units.entries.foldl (fun g e => g.addNode e.1) {}
  units.entries.foldl (fun g e => g.addUnit units e.1 e.2) g

end DependencyGraph

/-! ## The ready queue -/

/-- `ready`, `exec_order_` and `in_degree` during the loop. -/
structure ResolveState where
  ready : List String
  order : List String
  inDegree : UnorderedMap String Int

namespace ResolveState

/-- `if (--in_degree[next]==0) ready.push(next);` -/
def visit (st : ResolveState) (next : String) : ResolveState :=
  let inDegree := UnorderedMap.modify (UnorderedMap.subscript st.inDegree next) next (fun n => n - 1)
  let st := { st with inDegree := inDegree }
  if inDegree.lookup next = some 0 then { st with ready := st.ready ++ [next] } else st

/-- The body of `while (!ready.empty())`, for the unit `cur` taken from the queue. -/
def takeFront (graph : UnorderedMap String (List String)) (st : ResolveState) (cur : String)
    (rest : List String) : ResolveState :=
  ((graph.lookup cur).getD []).foldl visit { st with ready := rest, order := st.order ++ [cur] }

/-- `while (!ready.empty())`, for at most `fuel` iterations. -/
def loop (graph : UnorderedMap String (List String)) : Nat → ResolveState → ResolveState
  | 0, st => st
  | fuel + 1, st =>
      match st.ready with
      | [] => st
      | cur :: rest => loop graph fuel (st.takeFront graph cur rest)

end ResolveState

/-- The state after the loop.  `inDegreeOrder` is the order in which the hash map `in_degree` is
iterated; every unit enters the queue at most once, so one iteration per unit is enough. -/
def resolveOrder (units : UnorderedMap String UnitFile) (inDegreeOrder : List String) :
    ResolveState :=
  let g := DependencyGraph.build units
  let ready := inDegreeOrder.filter (fun name => g.inDegree.lookup name = some 0)
  ResolveState.loop g.graph units.entries.length
    { ready := ready, order := [], inDegree := g.inDegree }

def cycleWarning (resolved total : Nat) : JournalEntry :=
  { level := .warning
    source := "executor"
    message := s!"Dependency cycle detected! Resolved {resolved}/{total} units" }

/-! ## Starting one service -/

/-- The answers of the system to one call of `start_service`. -/
structure StartAnswers where
  /-- The contents of `/etc/passwd` and `/etc/group`. -/
  passwd : Option String := none
  group : Option String := none
  info : SystemInfo := {}
  pre : Nat → PreAnswer := fun _ => .waited (some (.exited 0))
  forked : ForkAnswer

/-- `WIFEXITED(st) ? WEXITSTATUS(st) : -1`. -/
def preExitCode : Option WaitStatus → Int
  | none => 0
  | some (.exited status) => status
  | some (.signaled _) => -1

/-- Strip one leading `-`; the flag tells whether there was one. -/
def stripDash (cmd : String) : Bool × String :=
  if cmd.toList.head? = some '-' then (true, dropStr cmd 1) else (false, cmd)

/-- The executable and the arguments of a command line; `none` when it has no word. -/
def commandWords (info : SystemInfo) (ctx : SpecifierContext) (cmd : String) :
    Option (String × List String) :=
  match splitExec (resolve info ctx cmd) with
  | [] => none
  | execPath :: args => some (execPath, args.map (resolve info ctx))

/-- The answers to the `stat` test and the `mount` call of `start_mount`, and what the call does to
the mounts of the system; the program does not see the latter. -/
structure MountAnswers where
  alreadyMounted : Bool
  mountError : Option String
  /-- The places the call mounts file systems on, in this order, with resolved paths. -/
  mountedOn : List String := []
  /-- The place the call moves a mount away from. -/
  movedFrom : Option String := none
  deriving DecidableEq, Repr

namespace InitSystem

/-- The block of `start_service` on `RuntimeDirectory=`; `none` is an exception of the look-ups. -/
def createRuntimeDirectory (s : InitSystem) (unit : UnitFile) (passwd group : Option String) :
    Option InitSystem :=
  (runtimeDirectoryCalls unit passwd group).map (fun calls =>
    { s with runtimeDirCalls := s.runtimeDirCalls ++ calls })

/-- The child `start_service` forks for an `ExecStartPre` command. -/
def preChild (s : InitSystem) (name : String) (unit : UnitFile) (words : String × List String) :
    ForkedChild :=
  { name := name
    unit := unit
    execPath := words.1
    args := words.2
    fds := s.fds }

/-- The `ExecStartPre` loop; the first component is the exit code of the command that stops it, if
one does. -/
def runStartPre (info : SystemInfo) (name : String) (unit : UnitFile) :
    List String → (Nat → PreAnswer) → InitSystem → Option Int × InitSystem
  | [], _, s => (none, s)
  | preCmd :: rest, os, s =>
      let (ignore, cmd) := stripDash preCmd
      match commandWords info (SpecifierContext.ofUnit name unit.path) cmd with
      | none => runStartPre info name unit rest (fun i => os (i + 1)) s
      | some words =>
          let s := s.recordFork (.startPre preCmd (s.preChild name unit words) (os 0))
          match os 0 with
          | .forkFailed => runStartPre info name unit rest (fun i => os (i + 1)) s
          | .waited st =>
              let code := preExitCode st
              if code ≠ 0 ∧ !ignore then (some code, s)
              else runStartPre info name unit rest (fun i => os (i + 1)) s

/-- The in-place assignments to the new table entry on the socket activation path. -/
def configureRestart (s : InitSystem) (pid : Pid) (policy : RestartPolicy)
    (burstLimit burstIntervalS : Int) : InitSystem :=
  { s with
    processes := UnorderedMap.modify s.processes pid (fun tp =>
      { tp with
        restartPolicy := policy
        burstLimit := burstLimit
        burstIntervalS := burstIntervalS }) }

/-- `start_service`, from the point where the command to run is known. -/
def launchService (s : InitSystem) (name : String) (unit : UnitFile) (ignoreFail : Bool)
    (execPath : String) (args : List String) (forked : ForkAnswer) : Option Pid × InitSystem :=
  let policy := parseRestartPolicy unit.restartPolicy
  match s.collectSocketEnv name with
  | some env =>
      let count := env.fds.length
      let s := s.log .info "executor" s!"Socket-activating {name} ({count} fd(s))"
      let (pid, s) := s.spawnWithSocketFds name execPath args env (policy ≠ .no) unit forked
      match pid with
      | none => (none, s)
      | some pid =>
          let s := s.applyRestartCount pid name
          let s := s.configureRestart pid policy unit.restartLimitBurst unit.restartLimitInterval
          (some pid, s)
  | none =>
      let s := s.log .info "executor" s!"Starting service: {name} ({execPath})"
      let (pid, s) := s.spawn name execPath args policy unit.restartLimitBurst
        unit.restartLimitInterval unit forked
      match pid with
      | none =>
          (none, if ignoreFail then s else s.log .error "executor" s!"Failed to start {name}")
      | some pid => (some pid, s.applyRestartCount pid name)

/-- `start_service` behind the block on `RuntimeDirectory=`; the first component is the child that
runs the main command. -/
def startCommands (s : InitSystem) (name : String) (unit : UnitFile) (os : StartAnswers) :
    Option Pid × InitSystem :=
  match runStartPre os.info name unit unit.execStartPre os.pre s with
  | (some code, s) =>
      (none, s.log .error "executor" s!"{name}: ExecStartPre failed ({code}), skipping service")
  | (none, s) =>
      if unit.execStart = "" then
        (none, s.log .debug "executor" s!"{name}: no ExecStart, skipping")
      else
        let (ignoreFail, cmd) := stripDash unit.execStart
        match commandWords os.info (SpecifierContext.ofUnit name unit.path) cmd with
        | none => (none, s)
        | some (execPath, args) => s.launchService name unit ignoreFail execPath args os.forked

/-- `start_service`; `none` is an exception, which nothing catches. -/
def startService (s : InitSystem) (name : String) (unit : UnitFile) (os : StartAnswers) :
    Option (Option Pid × InitSystem) :=
  (s.createRuntimeDirectory unit os.passwd os.group).map (fun s => s.startCommands name unit os)

/-! ## The other unit types -/

/-- `start_mount`, as far as the log is concerned. -/
def startMount (s : InitSystem) (name : String) (unit : UnitFile) (os : MountAnswers) :
    InitSystem :=
  if unit.what = "" ∨ unit.where = "" then
    s.log .warning "executor" s!"{name}: incomplete mount unit"
  else if os.alreadyMounted then
    s.log .debug "executor" s!"{name}: already mounted, skipping"
  else
    let what := unit.what
    let target := unit.where
    let s := s.log .info "executor" s!"Mounting {what} on {target}"
    match os.mountError with
    | none => s
    | some reason => s.log .error "executor" s!"mount {name} failed: {reason}"

/-! ## Phases and restarts -/

/-- `execute(DependencyResolve)`. -/
def executeDependencyResolve (s : InitSystem) (inDegreeOrder : List String) : InitSystem :=
  let s := s.log .info "executor" "Resolving dependency graph"
  let order := (resolveOrder s.units inDegreeOrder).order
  let s := { s with execOrder := order }
  let resolved := order.length
  let total := s.units.entries.length
  let s :=
    if resolved < total then { s with journal := s.journal.log (cycleWarning resolved total) }
    else s
  s.log .info "executor" s!"Execution order: {resolved} units"

/-- `queue_restart`. -/
def queueRestart (s : InitSystem) (unitName : String) (now : TimePoint) : InitSystem :=
  let pr : PendingRestart :=
    { unitName := unitName
      «when» := now
      restartCount := 0
      burstCount := 0
      burstWindowStart := 0 }
  { s with pendingRestarts := s.pendingRestarts ++ [pr] }

end InitSystem

end TrivialInit
