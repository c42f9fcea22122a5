import TrivialInit.Mixins.ChildContext
import TrivialInit.Properties.ForkCalls
import TrivialInit.Properties.ShutdownOrder

/-!
# ForkedChildren — the children of a run

A step of the program that forks stands within a call of `start_service` or `accept_ready`, and the
child is the last one this call records.  So whatever these functions pass on, a run shows it
(`RunState.forkedChildren`), one child for each fork (`RunState.length_forkedChildren`).
-/

namespace TrivialInit

open InitSystem

/-! ## The child of a call -/

/-- What becomes of the child.  The child of an `ExecStartPre` command does not look at the result of
`setup_child_context`, which is always true. -/
def ForkedChild.fate (child : ForkedChild) (os : ChildAnswers) (start : ChildState) : ChildFate :=
  match child.env with
  | none => spawnChild child.execPath child.args (some child.unit) os start
  | some env => spawnWithSocketFdsChild child.execPath child.args env (some child.unit) os start

/-- The child that a call which leads from `s` to `s'` has forked last. -/
def lastForked (s s' : InitSystem) : List ForkedChild :=
  ((newForks s s').getLast?.map ForkCall.child).toList

theorem lastForked_eq {s s' : InitSystem} {calls : List ForkCall} {call : ForkCall}
    (h : s'.forkCalls = s.forkCalls ++ (calls ++ [call])) : lastForked s s' = [call.child] := by
  rw [lastForked, newForks_eq h, List.getLast?_concat]
  rfl

namespace StartCall

/-- The object behind the next iteration of the `ExecStartPre` loop, in which `fork` succeeds. -/
def runNextPre (call : StartCall) (s : InitSystem) : InitSystem :=
  (runStartPre call.info call.name call.unit (call.todo.take 1) (fun _ => .waited none) s).2

theorem lastForked_runNextPre {call : StartCall} {preCmd : String} {rest : List String}
    {words : String × List String} (s : InitSystem) (htodo : call.todo = preCmd :: rest)
    (hwords : commandWords call.info (SpecifierContext.ofUnit call.name call.unit.path)
      (stripDash preCmd).2 = some words) :
    lastForked s (call.runNextPre s) = [s.preChild call.name call.unit words] := by
  have hforks : (call.runNextPre s).forkCalls = s.forkCalls ++
      ([] ++ [.startPre preCmd (s.preChild call.name call.unit words) (.waited none)]) := by
    unfold runNextPre
    rw [runStartPre_eq, htodo, List.take_succ_cons, List.take_zero, startPreCalls_cons, hwords]
    simp only [preExitCode, ne_eq, not_true_eq_false, false_and, if_false]
    rfl
  exact lastForked_eq hforks

theorem lastForked_startService {call : StartCall} {s s' : InitSystem} {forked : ForkAnswer}
    {pid : Pid}
    (h : s.startService call.name call.unit (call.startAnswers forked) = some (some pid, s')) :
    ∃ words, commandWords call.info (SpecifierContext.ofUnit call.name call.unit.path)
        (stripDash call.unit.execStart).2 = some words ∧
      lastForked s s' = [s.mainChild call.name call.unit words] := by
  have hpid := (startService_spec h).1
  rw [startedPid_eq] at hpid
  obtain ⟨words, hcommand, -⟩ := Option.bind_eq_some_iff.mp hpid.symm
  refine ⟨words, ?_, ?_⟩
  · unfold startedCommand at hcommand
    dsimp only at hcommand
    split at hcommand
    · nomatch hcommand
    · split_ifs at hcommand
      exact hcommand
  · have hforks := forkCalls_startService h
    rw [hcommand] at hforks
    exact lastForked_eq hforks

end StartCall

theorem lastForked_acceptReady {s : InitSystem} {listenFd : Int} {os : AcceptAnswers} {pid : Pid}
    (h : (s.acceptReady listenFd os).1 = some pid) :
    ∃ sock conn file unit words, os.conn = some (conn, file) ∧
      s.findUnit (s.resolvePair sock) = some unit ∧
      headArgs (splitExec unit.execStart) = some words ∧
      lastForked s (s.acceptReady listenFd os).2 =
        [connectionChild (s.resolvePair sock) unit words sock conn (s.fds.install conn file)] := by
  obtain ⟨socket, conn, file, unit, words, hsocket, hroom, hconn, hunit, hcommand⟩ :=
    acceptedCommand_of_acceptReady h
  refine ⟨s.socketUnit socket, conn, file, unit, words, hconn, hunit, ?_, ?_⟩
  · simp only [acceptedCommand, hunit] at hcommand
    split_ifs at hcommand
    exact hcommand
  · have hforks := s.forkCalls_acceptReady hsocket hroom hconn
    simp only [hunit, hcommand, Option.bind_some, Option.map_some, Option.toList_some] at hforks
    rw [← List.nil_append [_]] at hforks
    exact lastForked_eq hforks

/-! ## The children of a step -/

namespace RunState

variable {m m' : RunState} {a : RunAnswer}

/-- The children a step of the program forks: for an `ExecStartPre` command, for the main command of
a service, or for an accepted connection. -/
def forkedChildren (m : RunState) : RunEvent → List ForkedChild
  | .program a =>
      let s := m.sys.init
      match m.programStep a with
      | none => []
      | some m' =>
          match m.point, m'.point with
          | .starting call _, .waitingPre _ _ _ => lastForked s (call.runNextPre s)
          | .starting call _, .tracking _ _ _ =>
              match s.startService call.name call.unit (call.startAnswers a.forked) with
              | none => []
              | some (_, s') => lastForked s s'
          | .polled (.descriptor listenFd :: _) _, .accepting _ _ _ _ =>
              lastForked s (s.acceptReady listenFd { conn := a.conn, forked := a.forked }).2
          | _, _ => []
  | _ => []

theorem forks_eq_nil (hstep : m.programStep a = some m') (hprocs : ∀ p ∈ m'.procs, p ∈ m.procs) :
    m.forks (.program a) = [] := by
  simp only [forks, hstep]
  refine List.filter_eq_nil_iff.mpr (fun p hp => ?_)
  simpa using hprocs p hp

theorem forks_eq_singleton (hstep : m.programStep a = some m') {pid : Pid} (hfresh : pid ∉ m.procs)
    (hprocs : m'.procs = m.procs.insert pid none) : m.forks (.program a) = [pid] := by
  simp only [forks, hstep, hprocs]
  rw [AList.keys_insert, List.filter_cons_of_pos (by simpa using hfresh)]
  congr 1
  refine List.filter_eq_nil_iff.mpr (fun p hp => ?_)
  have hold : p ∈ m.procs := List.mem_of_mem_erase hp
  simpa using hold

theorem maybeFixRuntimeDirs_procs (m : RunState) : m.maybeFixRuntimeDirs.procs = m.procs := by
  obtain ⟨sys, chowned, -, heq⟩ := maybeFixRuntimeDirs_spec m
  rw [heq]

/-- What a step forks: nothing, or one child. -/
inductive Launches (m : RunState) (a : RunAnswer) : List Pid → List ForkedChild → Prop
  | none : Launches m a [] []
  | startPre {call : StartCall} {back : StartedFrom} {preCmd : String} {rest : List String}
      {pid : Pid} {words : String × List String} (hpoint : m.point = .starting call back)
      (htodo : call.todo = preCmd :: rest)
      (hwords : commandWords call.info (SpecifierContext.ofUnit call.name call.unit.path)
        (stripDash preCmd).2 = some words) :
      Launches m a [pid] [m.sys.init.preChild call.name call.unit words]
  | main {call : StartCall} {back : StartedFrom} {pid : Pid} {words : String × List String}
      (hpoint : m.point = .starting call back)
      (hwords : commandWords call.info (SpecifierContext.ofUnit call.name call.unit.path)
        (stripDash call.unit.execStart).2 = some words) :
      Launches m a [pid] [m.sys.init.mainChild call.name call.unit words]
  | connection {sock : SocketUnit} {conn : Int} {file : Nat} {pid : Pid} {unit : UnitFile}
      {words : String × List String} (hconn : a.conn = some (conn, file))
      (hunit : m.sys.init.findUnit (m.sys.init.resolvePair sock) = some unit)
      (hwords : headArgs (splitExec unit.execStart) = some words) :
      Launches m a [pid]
        [connectionChild (m.sys.init.resolvePair sock) unit words sock conn
          (m.sys.init.fds.install conn file)]

theorem programStep_launches (hstep : m.programStep a = some m') :
    Launches m a (m.forks (.program a)) (m.forkedChildren (.program a)) := by
  have hcases := programStep_cases hstep
  generalize hpoint : m.point = point at hcases
  -- The steps that fork nobody.
  have hnone : (∀ p ∈ m'.procs, p ∈ m.procs) → m.forkedChildren (.program a) = [] →
      Launches m a (m.forks (.program a)) (m.forkedChildren (.program a)) := by
    intro hprocs hchildren
    rw [forks_eq_nil hstep hprocs, hchildren]
    exact .none
  cases hcases with
  | @forksPre call back pid htodo hforked hfresh =>
      rw [forks_eq_singleton hstep hfresh rfl]
      obtain ⟨preCmd, rest, hcons⟩ := List.exists_cons_of_ne_nil htodo
      cases hwords : commandWords call.info (SpecifierContext.ofUnit call.name call.unit.path)
          (stripDash preCmd).2 with
      | none =>
          -- A command line without a word is not forked for.
          simp [programStep, hpoint, stepStarting, hcons, hwords] at hstep
      | some words =>
          simp only [forkedChildren, hstep, hpoint]
          rw [call.lastForked_runNextPre m.sys.init hcons hwords]
          exact .startPre hpoint hcons hwords
  | @forksMain call back pid s htodo hstart hfresh =>
      rw [forks_eq_singleton hstep hfresh rfl]
      obtain ⟨words, hwords, hchild⟩ := StartCall.lastForked_startService hstart
      simp only [forkedChildren, hstep, hpoint, hstart, hchild]
      exact .main hpoint hwords
  | @forksConnection listenFd rest pid hpid hfresh =>
      rw [forks_eq_singleton hstep hfresh rfl]
      obtain ⟨sock, conn, file, unit, words, hconn, hunit, hwords, hchild⟩ :=
        lastForked_acceptReady hpid
      simp only [forkedChildren, hstep, hpoint, hchild]
      exact .connection hconn hunit hwords
  | waitsPre hexited =>
      exact hnone (fun p hp => (AList.mem_erase.mp hp).2) (by simp [forkedChildren, hstep, hpoint])
  | reaps hchild hexited hsys =>
      exact hnone (fun p hp => (AList.mem_erase.mp hp).2) (by simp [forkedChildren, hstep, hpoint])
  | @notStarted call back sys s htodo hstart hsys =>
      refine hnone (fun _ hp => hp) ?_
      cases back <;> simp [forkedChildren, hstep, hpoint, StartedFrom.point]
  | quits hquit =>
      exact hnone (fun p hp => maybeFixRuntimeDirs_procs m ▸ hp)
        (by simp [forkedChildren, hstep, hpoint])
  | loops hquit =>
      exact hnone (fun p hp => maybeFixRuntimeDirs_procs m ▸ hp)
        (by simp [forkedChildren, hstep, hpoint])
  | _ => exact hnone (fun _ hp => hp) (by simp [forkedChildren, hstep, hpoint])

theorem length_forkedChildren (m : RunState) (e : RunEvent) :
    (m.forkedChildren e).length = (m.forks e).length := by
  cases e with
  | program a =>
      cases hstep : m.programStep a with
      | none => simp [forkedChildren, forks, hstep]
      | some m' =>
          have hlaunches := programStep_launches hstep
          generalize m.forks (.program a) = pids at hlaunches ⊢
          generalize m.forkedChildren (.program a) = children at hlaunches ⊢
          cases hlaunches <;> rfl
  | _ => rfl

end RunState

end TrivialInit
