import TrivialInit.Lib.MountTable
import TrivialInit.Mixins.Filesystem
import TrivialInit.Mixins.SignalHandler
import TrivialInit.Mixins.Tui
import TrivialInit.Mixins.UnitScan
import TrivialInit.Run

/-!
# Main — the whole program

`MainState` is a run of `InitSystem::run` from the first mount to the value it returns: the phases
before `execute(UnitExecute)`, the part that `RunState` describes, here with the user interface, and
`execute(Shutdown)`.

* The phases before `execute(UnitExecute)` do not wait for anything, so a signal raised meanwhile is
  one that is pending when the part of `RunState` begins.
* `mounts` are the places that carry a mount, the newest first, with resolved paths.  `mount` fails
  with `EBUSY` only if the place carries one that can be reached, and `umount2` fails exactly if it
  carries none.  The paths of `kEarlyMounts` do not lead through symlinks.
* `Where=` and `What=` of a mount unit may be any paths, and the call may bind a tree or move one; the
  kernel's answer says which places this comes to.
* An exception ends the program; one in `execute(UnitDiscovery)` does so before anything is started.
* `step` is `none` when the kernel cannot give the answer, when the call blocks, and when the
  program reads outside an array.
-/

namespace TrivialInit

/-- The path `p` lies below the directory `q`. -/
def PathInside (p q : String) : Prop :=
  p ≠ q ∧ (if q = "/" then q.toList else q.toList ++ ['/']) <+: p.toList

instance : DecidableRel PathInside :=
  fun _ _ => inferInstanceAs (Decidable (_ ∧ _))

/-! ## Program points -/

/-- The place in `run`, with the object. -/
inductive MainPoint
  /-- In the loop of `execute(EarlyMount)`. -/
  | earlyMount (s : InitSystem) (todo : List MountPoint)
  | signalSetup (s : InitSystem)
  | unitDiscovery (s : InitSystem)
  | unitParse (s : InitSystem) (unitPaths : List String)
  | socketBind (s : InitSystem)
  | dependencyResolve (s : InitSystem)
  /-- From `execute(UnitExecute)` to the last poll. -/
  | running (r : RunState)
  /-- In the loop of `execute(Shutdown)`. -/
  | unmounting (s : InitSystem) (todo : List String)
  | returned (s : InitSystem) (code : Int)
  /-- An exception in `execute(UnitDiscovery)` has ended the program. -/
  | terminated (s : InitSystem)

structure MainState where
  /-- `getpid()`. -/
  pid : Pid
  /-- `TINIT_NO_TUI`. -/
  noTui : Bool := false
  /-- `mounted_`. -/
  mounted : List String := []
  tui : Tui := {}
  mounts : List String := []
  point : MainPoint

/-- The answers of the terminal to one iteration of the main loop: its size, and `getch`. -/
structure TuiAnswers where
  height : Int := 24
  width : Int := 80
  key : Option Key := none
  deriving DecidableEq, Repr

inductive MainEvent
  /-- One iteration of the loop of `execute(EarlyMount)`. -/
  | mountsEarly (errno : Option MountErrno)
  /-- The end of `execute(EarlyMount)`. -/
  | makesRuntimeDirs (made : String → Bool)
  | setsUpSignals (os : SignalSetupAnswers)
  | discoversUnits (os : ScanAnswers)
  | parsesUnits (os : ParseAnswers)
  | bindsSockets (os : SocketBindAnswers)
  | resolvesDependencies (inDegreeOrder : List String)
  | runs (e : RunEvent) (os : TuiAnswers)
  /-- One iteration of the loop of `execute(Shutdown)`. -/
  | unmounts (error : Option String)
  /-- The end of `execute(Shutdown)`. -/
  | returns
  /-- Another process mounts a file system. -/
  | otherMounts (place : String)
  /-- Another process unmounts a file system. -/
  | otherUnmounts (place : String)

namespace MainState

/-- `run`, up to the loop of `execute(EarlyMount)`. -/
def start (pid : Pid) (noTui : Bool) (mounts : List String) (fds : FdTable) : MainState :=
  let s : InitSystem := { fds := fds }
  let s := s.log .info "init" "trivialInit starting"
  let s := s.log .info "fs" "Mounting early virtual filesystems"
  { pid := pid
    noTui := noTui
    mounts := mounts
    point := .earlyMount s kEarlyMounts }

/-! ## The user interface -/

/-- `execute(TuiStart)`. -/
def executeTuiStart (m : MainState) (s : InitSystem) : Tui × InitSystem :=
  if m.noTui ∨ m.pid = 1 then (m.tui, s)
  else ({ m.tui with active := true }, s.log .info "tui" "Initializing TUI")

/-- `render` and `handle_input` at the end of an iteration of the main loop: the frame, and what
`handle_input` returns. -/
def tuiTick (m : MainState) (s : InitSystem) (os : TuiAnswers) :
    Option (Option Frame × Bool × Tui) :=
  if m.tui.active then
    (m.tui.render s m.pid os.height os.width).map (fun (t, frame) =>
      (some frame, t.handleInput s.units.entries.length os.key))
  else some (none, true, m.tui)

/-! ## Mounts -/

/-- The unit for which an iteration of `execute(UnitExecute)` gets to the `mount` call of
`start_mount`. -/
def unitToMount (s : InitSystem) (a : RunAnswer) (name : String) : Option UnitFile :=
  match s.findUnit name with
  | none => none
  | some unit =>
      if unit.isBareTemplate ∨ RunState.conditionsThrow s a.probe name then none
      else
        match Conditions.evalConditions a.probe unit with
        | 1 | 2 => none
        | _ =>
            if unit.type = .mount ∧ unit.what ≠ "" ∧ unit.where ≠ "" ∧
                a.mount.alreadyMounted = false then
              some unit
            else none

/-- The unit a step of the program passes to `mount`, if it does. -/
def mountUnit (m : MainState) (a : RunAnswer) : Option UnitFile :=
  match m.point with
  | .running r =>
      match r.point with
      | .executing (name :: _) => unitToMount r.sys.init a name
      | _ => none
  | _ => none

/-- What the flags of a `mount` call ask for. -/
inductive MountKind
  | adds
  | moves
  /-- Only the options of a mount, or how it is shared. -/
  | changes
  deriving DecidableEq, Repr

/-- The order in which the kernel looks at the flags. -/
def mountKind (flags : Nat) : MountKind :=
  -- `MS_REMOUNT`, and `MS_BIND`
  if flags &&& 32 ≠ 0 then .changes
  else if flags &&& 4096 ≠ 0 then .adds
  -- the four kinds of propagation, and `MS_MOVE`
  else if flags &&& (131072 ||| 262144 ||| 524288 ||| 1048576) ≠ 0 then .changes
  else if flags &&& 8192 ≠ 0 then .moves
  else .adds

/-- The answer is one to a `mount` call of this kind. -/
def Answers (os : MountAnswers) (kind : MountKind) : Prop :=
  match os.mountError, kind with
  | none, .adds => os.mountedOn ≠ [] ∧ os.movedFrom = none
  | none, .moves => os.mountedOn ≠ [] ∧ os.movedFrom ≠ none
  | _, _ => os.mountedOn = [] ∧ os.movedFrom = none

instance (os : MountAnswers) (kind : MountKind) : Decidable (Answers os kind) := by
  unfold Answers
  split <;> infer_instance

/-- The `mount` call of a mount unit in a step: its kind, and the answer. -/
def mountAnswer (m : MainState) : MainEvent → Option (MountKind × MountAnswers)
  | .runs (.program a) _ =>
      (m.mountUnit a).map (fun unit => (mountKind (mountCall unit).flags, a.mount))
  | _ => none

/-- The places a step mounts file systems on, in this order. -/
def placesMounted (m : MainState) (e : MainEvent) : List String :=
  match m.mountAnswer e with
  | some (_, os) => os.mountedOn
  | none =>
      match e, m.point with
      | .mountsEarly none, .earlyMount _ (mp :: _) => [mp.target]
      | .otherMounts place, _ => [place]
      | _, _ => []

/-- The place a step moves a mount away from, if it does. -/
def placeVacated (m : MainState) (e : MainEvent) : Option String :=
  (m.mountAnswer e).bind (fun (_, os) => os.movedFrom)

/-- The step's own mounts.  Like an unmount, a move takes along what is mounted below. -/
def changeMounts (m : MainState) (vacated : Option String) (places : List String) :
    Option MainState :=
  let mounts :=
    match vacated with
    | none => some m.mounts
    | some place => MountTable.detach PathInside place m.mounts
  mounts.map (fun mounts => { m with mounts := places.reverse ++ mounts })

/-! ## Steps -/

/-- One iteration of the loop of `execute(EarlyMount)`. -/
def stepEarlyMount (m : MainState) (s : InitSystem) (errno : Option MountErrno) :
    List MountPoint → Option MainState
  | [] => none
  | mp :: rest =>
      if errno = some .busy ∧ MountTable.detach PathInside mp.target m.mounts = none then none
      else
        let (code, s, mounted) := mountEarly mp errno s m.mounted
        let m := { m with mounted := mounted }
        match code with
        | some code => some { m with point := .returned s code }
        | none => some { m with point := .earlyMount s rest }

def stepSignalSetup (m : MainState) (s : InitSystem) (os : SignalSetupAnswers) : MainState :=
  match s.executeSignalSetup os with
  | (0, s) => { m with point := .unitDiscovery s }
  | (code, s) => { m with point := .returned s code }

/-- A step of the part that `RunState` describes. -/
def stepRunning (m : MainState) (r : RunState) (os : TuiAnswers) : RunEvent → Option MainState
  | .program a =>
      match r.point with
      | .executing [] =>
          -- `execute(TuiStart)` comes between two calls that `RunState` makes in one step.
          let s := r.sys.init.registerAcceptSockets
          let (tui, s) := m.executeTuiStart s
          let s := s.log .info "init" "Entering main loop"
          let r := { r with sys := { r.sys with init := s }, point := .loopHead }
          some { m with tui := tui, point := .running r }
      | .restarting [] =>
          -- The frame shows the object after `maybe_fix_runtime_dirs`.
          (m.tuiTick r.maybeFixRuntimeDirs.sys.init os).bind (fun (_, goesOn, tui) =>
            -- PID 1 goes on whatever `handle_input` returns.
            let quit := !goesOn && decide (m.pid ≠ 1)
            let tui := if quit then tui.shutdown else tui
            (r.programStep { a with quit := quit }).map (fun r =>
              { m with tui := tui, point := .running r }))
      | .loopHead =>
          let tui := if r.shutdownRequested then m.tui.shutdown else m.tui
          (r.programStep a).map (fun r => { m with tui := tui, point := .running r })
      | .polled [] .last =>
          -- The end of `run`, up to the loop of `execute(Shutdown)`.
          let s := r.sys.init.closeAllSockets.1
          let s := s.log .info "fs" "Unmounting filesystems"
          some { m with point := .unmounting s m.mounted.reverse }
      | _ => (r.programStep a).map (fun r => { m with point := .running r })
  | e => (r.step e).map (fun r => { m with point := .running r })

/-- One iteration of the loop of `execute(Shutdown)`. -/
def stepUnmounting (m : MainState) (s : InitSystem) (error : Option String) :
    List String → Option MainState
  | [] => none
  | target :: rest =>
      let m := { m with point := .unmounting (unmountEarly target error s) rest }
      -- The answer of the kernel agrees with the table.
      match MountTable.detach PathInside target m.mounts, error with
      | some mounts, none => some { m with mounts := mounts }
      | none, some _ => some m
      | _, _ => none

/-- A step, apart from the file systems it mounts. -/
def stepPoint (m : MainState) (e : MainEvent) : Option MainState :=
  match e, m.point with
  | .mountsEarly errno, .earlyMount s todo => m.stepEarlyMount s errno todo
  | .makesRuntimeDirs _, .earlyMount s [] =>
      let s := s.log .info "fs" "Pre-created runtime directories"
      some { m with point := .signalSetup s }
  | .setsUpSignals os, .signalSetup s => some (m.stepSignalSetup s os)
  | .discoversUnits os, .unitDiscovery s =>
      let scan : UnitScan := { journal := s.journal }
      match scan.executeUnitDiscovery os with
      | none => some { m with point := .terminated s }
      | some scan =>
          some { m with point := .unitParse { s with journal := scan.journal } scan.discoveredPaths }
  | .parsesUnits os, .unitParse s unitPaths =>
      some { m with point := .socketBind (s.executeUnitParse unitPaths os) }
  | .bindsSockets os, .socketBind s =>
      some { m with point := .dependencyResolve (s.executeSocketBind os).1 }
  | .resolvesDependencies inDegreeOrder, .dependencyResolve s =>
      let s := s.executeDependencyResolve inDegreeOrder
      let s := s.log .info "executor" "Executing units in dependency order"
      some { m with point := .running (RunState.boot s) }
  | .runs e os, .running r => m.stepRunning r os e
  | .unmounts error, .unmounting s todo => m.stepUnmounting s error todo
  | .returns, .unmounting s [] =>
      some { m with point := .returned (s.log .info "init" "Goodbye.") 0 }
  | .otherMounts _, _ => some m
  | .otherUnmounts place, _ =>
      (MountTable.detach PathInside place m.mounts).map (fun mounts => { m with mounts := mounts })
  | _, _ => none

def step (m : MainState) (e : MainEvent) : Option MainState :=
  if ∀ call ∈ m.mountAnswer e, Answers call.2 call.1 then
    (m.stepPoint e).bind (fun m' => m'.changeMounts (m.placeVacated e) (m.placesMounted e))
  else none

/-- The state after a list of events. -/
abbrev run (m : MainState) (es : List MainEvent) : Option MainState :=
  StepRun.run step m es

/-! ## What an observer sees -/

/-- The calls of `start_mount`. -/
def startMountCalls (unit : UnitFile) : List FsCall :=
  [.mkdir unit.where 493, .mount (mountCall unit)]

/-- The calls of `execute(EarlyMount)`, `start_mount` and `execute(Shutdown)` in a step.  The socket
phase, `start_service`, `fix_runtime_dir_ownership` and `close_all_sockets` change the file system
too; their calls are not among these. -/
def mountingCalls (m : MainState) : MainEvent → List FsCall
  | .mountsEarly _ =>
      match m.point with
      | .earlyMount _ (mp :: _) => mp.calls
      | _ => []
  | .makesRuntimeDirs made => devLinks ++ makeRuntimeDirs made
  | .runs (.program a) _ => (m.mountUnit a).toList.flatMap startMountCalls
  | .unmounts _ =>
      match m.point with
      | .unmounting _ (target :: _) => [.umount2 target]
      | _ => []
  | _ => []

/-- The frame a step draws. -/
def frames (m : MainState) : MainEvent → List Frame
  | .runs (.program _) os =>
      match m.point with
      | .running r =>
          match r.point with
          | .restarting [] =>
              match m.tuiTick r.maybeFixRuntimeDirs.sys.init os with
              | some (some frame, _) => [frame]
              | _ => []
          | _ => []
      | _ => []
  | _ => []

/-- The key that `handle_input` reads in a step. -/
def keysRead (m : MainState) : MainEvent → List Key
  | .runs (.program _) os =>
      match m.point with
      | .running r =>
          match r.point with
          | .restarting [] => if m.tui.active then os.key.toList else []
          | _ => []
      | _ => []
  | _ => []

end MainState

end TrivialInit
