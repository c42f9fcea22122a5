import TrivialInit.Properties.ShutdownOrder

/-!
# RuntimeOwnership — when the owners of the runtime directories are set

`maybe_fix_runtime_dirs` takes `systemd-sysusers.service` for done when it is in `exec_order_` and
not in `unit_to_pid_`.  A run records what happens to the processes of that unit and the one time
the owners are set.

* The owners are set at most once in every run.
* If the unit is started by `execute(UnitExecute)` and its processes exit with 0, they are set after
  such a process has been reaped.
-/

namespace TrivialInit

open InitSystem

def sysusers : String := "systemd-sysusers.service"

/-! ## The record -/

inductive OwnershipRecord
  /-- A process is entered into the tables for the unit. -/
  | tracked (pid : Pid)
  /-- A process that was tracked for the unit is reaped. -/
  | reaped (pid : Pid) (status : WaitStatus)
  /-- `fix_runtime_dir_ownership` goes through its directories. -/
  | chowned
  deriving DecidableEq, Repr

/-- The service that serves the connections of a listening descriptor. -/
def InitSystem.acceptedName (s : InitSystem) (listenFd : Int) : Option String :=
  (s.fdToSocket.lookup listenFd).map (fun socket => s.resolvePair (s.socketUnit socket))

namespace RunState

/-- The step gets past all the tests of `maybe_fix_runtime_dirs`. -/
def fixesOwnership (m : RunState) : Bool :=
  match m.point with
  | .restarting [] =>
      !m.runtimeDirsChowned && decide (sysusers ∈ m.sys.init.execOrder) &&
        decide (sysusers ∉ m.sys.init.unitToPid)
  | _ => false

def reapRecords (m : RunState) (pid : Pid) : List OwnershipRecord :=
  match m.procs.lookup pid, m.sys.init.processes.lookup pid with
  | some (some status), some tp => if tp.unitName = sysusers then [.reaped pid status] else []
  | _, _ => []

def ownershipRecords (m : RunState) : RunEvent → List OwnershipRecord
  | .program a =>
      match m.point with
      | .tracking call pid _ => if call.name = sysusers then [.tracked pid] else []
      | .accepting listenFd _ pid _ =>
          if m.sys.init.acceptedName listenFd = some sysusers then [.tracked pid] else []
      | .reaping _ _ => (a.child.map m.reapRecords).getD []
      | .restarting [] => if m.fixesOwnership then [.chowned] else []
      | _ => []
  | _ => []

end RunState

/-- A process of the unit was started, exited with 0, and was reaped. -/
def SysusersDone (tr : List OwnershipRecord) : Prop :=
  ∃ pid, List.Sublist [.tracked pid, .reaped pid (.exited 0)] tr

theorem SysusersDone.append {tr : List OwnershipRecord} (h : SysusersDone tr)
    (tr' : List OwnershipRecord) : SysusersDone (tr ++ tr') := by
  rcases h with ⟨pid, hpid⟩
  exact ⟨pid, hpid.trans (List.sublist_append_left _ _)⟩

/-- `execute(UnitExecute)` does not skip the unit and starts its main command, and a process of the
unit that is reaped in the main loop has exited with 0. -/
def RunState.SysusersRuns (m : RunState) : RunEvent → Prop
  | .program a =>
      match m.point with
      | .executing (name :: _) =>
          name = sysusers → serviceToStart m.sys.init a.probe name ≠ none
      | .starting call (.unitExecute _) =>
          call.name = sysusers → call.todo = [] →
            startedPid call.name call.unit (call.startAnswers a.forked) ≠ none
      | .reaping _ .mainLoop =>
          ∀ pid ∈ a.child, ∀ tp ∈ m.sys.init.processes.lookup pid,
            tp.unitName = sysusers → m.runtimeDirsChowned = false →
              m.procs.lookup pid = some (some (.exited 0))
      | _ => True
  | _ => True

instance (m : RunState) (e : RunEvent) : Decidable (m.SysusersRuns e) := by
  unfold RunState.SysusersRuns
  split
  · split <;> infer_instance
  · infer_instance

/-! ## The one flag -/

namespace RunState

variable {m m' : RunState} {a : RunAnswer}

theorem maybeFixRuntimeDirs_flag (hpoint : m.point = .restarting []) :
    m.maybeFixRuntimeDirs.runtimeDirsChowned = (m.runtimeDirsChowned || m.fixesOwnership) := by
  have hfixes : m.fixesOwnership = (!m.runtimeDirsChowned &&
      decide (sysusers ∈ m.sys.init.execOrder) && decide (sysusers ∉ m.sys.init.unitToPid)) := by
    rw [fixesOwnership, hpoint]
  have hfix : m.maybeFixRuntimeDirs.runtimeDirsChowned =
      if m.runtimeDirsChowned = true ∨ sysusers ∉ m.sys.init.execOrder ∨
        sysusers ∈ m.sys.init.unitToPid then m.runtimeDirsChowned else true :=
    apply_ite RunState.runtimeDirsChowned _ _ _
  rw [hfix, hfixes]
  cases m.runtimeDirsChowned <;> by_cases horder : sysusers ∈ m.sys.init.execOrder <;>
    by_cases hpid : sysusers ∈ m.sys.init.unitToPid <;> simp [horder, hpid]

/-- The flag is set exactly when the owners are set. -/
theorem programStep_flag (h : m.programStep a = some m') :
    m'.runtimeDirsChowned = (m.runtimeDirsChowned || m.fixesOwnership) := by
  have hother : m.fixesOwnership = false →
      m.runtimeDirsChowned = (m.runtimeDirsChowned || m.fixesOwnership) := by
    intro hfixes
    rw [hfixes, Bool.or_false]
  have hstep := programStep_cases h
  generalize hpoint : m.point = point at hstep
  cases hstep with
  -- Only the end of an iteration of the main loop calls `maybe_fix_runtime_dirs`.
  | quits hquit => exact maybeFixRuntimeDirs_flag hpoint
  | loops hquit => exact maybeFixRuntimeDirs_flag hpoint
  | _ => exact hother (by rw [fixesOwnership, hpoint])

end RunState

/-! ## Tracking and reaping -/

theorem Quiet.unitToPid {sys sys' : System} {next : RunPoint} (h : Quiet sys next sys') :
    sys'.init.unitToPid = sys.init.unitToPid := by
  cases h with
  | same h => exact h.tables.unitToPid
  | drained now _ => rfl
  | stopped name => exact (stopUnit_spec sys.init name).unitToPid
  | notAccepted h => exact h.unitToPid
  | registered h => exact h.unitToPid
  | closed _ h => exact h.unitToPid

/-- A process that is in the table was in it for the same unit. -/
theorem Quiet.unitName {sys sys' : System} {next : RunPoint} (h : Quiet sys next sys') {p : Pid}
    {tp : TrackedProcess} (hp : sys'.init.processes.lookup p = some tp) :
    ∃ tp₀, sys.init.processes.lookup p = some tp₀ ∧ tp₀.unitName = tp.unitName := by
  have hsame : sys'.init.processes = sys.init.processes →
      ∃ tp₀, sys.init.processes.lookup p = some tp₀ ∧ tp₀.unitName = tp.unitName := by
    intro heq
    exact ⟨tp, heq ▸ hp, rfl⟩
  cases h with
  | same h => exact hsame h.tables.processes
  | drained now _ => exact hsame rfl
  | notAccepted h => exact hsame h.processes
  | registered h => exact hsame h.processes
  | closed _ h => exact hsame h.processes
  | stopped name =>
      have hlookup := System.lookup_processes_of_stop
        (show sys.step (.stopUnit name) = some _ from rfl) p
      rw [hp] at hlookup
      split_ifs at hlookup
      · obtain ⟨tp₀, htp₀, heq⟩ := Option.map_eq_some_iff.mp hlookup.symm
        exact ⟨tp₀, htp₀, heq ▸ rfl⟩
      · exact ⟨tp, hlookup.symm, rfl⟩

namespace RunState

variable {m m' : RunState} {a : RunAnswer}

/-- The child in hand is entered into the tables for a unit. -/
structure EnteredAs (m : RunState) (pid : Pid) (name : String) (m' : RunState) : Prop where
  unitToPid : m'.sys.init.unitToPid = m.sys.init.unitToPid.insert name pid
  lookup : ∀ p tp, m'.sys.init.processes.lookup p = some tp →
    (p = pid ∧ tp.unitName = name) ∨ m.sys.init.processes.lookup p = some tp

theorem tracking_entered {call : StartCall} {pid : Pid} {back : StartedFrom}
    (hpoint : m.point = .tracking call pid back) (hwill : m.WillTrack)
    (h : m.programStep a = some m') : m.EnteredAs pid call.name m' := by
  rw [programStep, hpoint] at h
  obtain ⟨sys, hsys, rfl⟩ := Option.map_eq_some_iff.mp h
  have hstarted := tracking_started hpoint hwill hsys
  constructor
  · rw [hstarted.tables.unitToPid]
    simp only [recordStart, InitSystem.enter, startedProcess_unitName, startedProcess_pid]
  · intro p tp hp
    rw [hstarted.lookup_processes] at hp
    split_ifs at hp with heq
    · obtain rfl := Option.some.inj hp
      exact Or.inl ⟨heq, startedProcess_unitName _ _ _ _⟩
    · exact Or.inr hp

theorem accepting_entered {listenFd : Int} {conn : Option (Int × Nat)} {pid : Pid}
    {rest : List PollEvent} (hpoint : m.point = .accepting listenFd conn pid rest)
    (hwill : m.WillTrack) (h : m.programStep a = some m') :
    ∃ name, m.sys.init.acceptedName listenFd = some name ∧ m.EnteredAs pid name m' := by
  rw [programStep, hpoint] at h
  obtain ⟨sys, hsys, rfl⟩ := Option.map_eq_some_iff.mp h
  obtain ⟨socket, svc, hacc⟩ := accepting_accepted hpoint hwill hsys
  refine ⟨svc, ?_, hacc.unitToPid, ?_⟩
  · rw [acceptedName, hacc.listening, Option.map_some, hacc.service]
  · intro p tp hp
    rw [hacc.lookup_processes] at hp
    split_ifs at hp with heq
    · obtain rfl := Option.some.inj hp
      exact Or.inl ⟨heq, rfl⟩
    · exact Or.inr hp

/-- A step that enters no child keeps what the table has for each process. -/
theorem lookup_of_notTracked (heffect : ProgramEffect m a m') (hnone : m.point.toTrack = none)
    {p : Pid} {tp : TrackedProcess} (hp : m'.sys.init.processes.lookup p = some tp) :
    ∃ tp₀, m.sys.init.processes.lookup p = some tp₀ ∧ tp₀.unitName = tp.unitName := by
  cases heffect with
  | quiet sys chowned point hsys => exact hsys.unitName hp
  | read signal sys shutdown point hpending hsys => exact hsys.unitName hp
  | tracked pid kind sys point hsys hhand => simp [hnone] at hhand
  | reaped pid status sys hchild hexited hsys =>
      rw [hsys.lookup_processes] at hp
      split_ifs at hp
      exact ⟨tp, hp, rfl⟩
  | _ => exact ⟨tp, hp, rfl⟩

/-- Without a reaped process of the unit, its name stays in `unit_to_pid_`. -/
theorem unitToPid_of_notTracked (heffect : ProgramEffect m a m')
    (hnone : m.point.toTrack = none) {name : String} (hname : name ∈ m.sys.init.unitToPid) :
    name ∈ m'.sys.init.unitToPid ∨
      ∃ pid status tp, m.point.inReap = true ∧ a.child = some pid ∧
        m.procs.lookup pid = some (some status) ∧
        m.sys.init.processes.lookup pid = some tp ∧ tp.unitName = name := by
  cases heffect with
  | quiet sys chowned point hsys => exact Or.inl (hsys.unitToPid ▸ hname)
  | read signal sys shutdown point hpending hsys => exact Or.inl (hsys.unitToPid ▸ hname)
  | tracked pid kind sys point hsys hhand => simp [hnone] at hhand
  | reaped pid status sys hchild hexited hsys hreap =>
      have hmap := hsys.unitToPid
      cases htp : m.sys.init.processes.lookup pid with
      | none =>
          rw [htp] at hmap
          exact Or.inl (hmap ▸ hname)
      | some tp =>
          rw [htp] at hmap
          -- `reap_children` erases the name that the table has for the process.
          by_cases heq : tp.unitName = name
          · exact Or.inr ⟨pid, status, tp, hreap, hchild, hexited, htp, heq⟩
          · refine Or.inl ?_
            rw [hmap]
            exact AList.mem_erase.mpr ⟨fun h => heq h.symm, hname⟩
  | _ => exact Or.inl hname

end RunState

/-! ## The unit still to come -/

/-- `execute(UnitExecute)` has not come to the unit yet, or is starting it. -/
def RunPoint.Ahead : RunPoint → Prop
  | .executing rest => sysusers ∈ rest
  | .starting call (.unitExecute rest) => call.name = sysusers ∨ sysusers ∈ rest
  | .waitingPre call _ (.unitExecute rest) => call.name = sysusers ∨ sysusers ∈ rest
  | .tracking call _ (.unitExecute rest) => call.name = sysusers ∨ sysusers ∈ rest
  | .terminated name (.unitExecute rest) => name = sysusers ∨ sysusers ∈ rest
  | _ => False

/-- Back in the loop that called `start_service`. -/
theorem ahead_startedFrom {call : StartCall} {pid : Pid} {back : StartedFrom}
    (h : (RunPoint.tracking call pid back).Ahead) : call.name = sysusers ∨ back.point.Ahead := by
  cases back with
  | unitExecute rest => exact h
  | processRestarts rest => exact h.elim

namespace RunState

variable {m m' : RunState} {a : RunAnswer}

theorem name_waited (call : StartCall) (status : WaitStatus) :
    (call.waited status).name = call.name := by
  unfold StartCall.waited StartCall.answered
  dsimp only
  split_ifs <;> rfl

/-- The unit stays ahead until it is in `unit_to_pid_`. -/
theorem programStep_ahead (hwill : m.WillTrack) (hok : m.SysusersRuns (.program a))
    (hahead : m.point.Ahead) (h : m.programStep a = some m') :
    m'.point.Ahead ∨ sysusers ∈ m'.sys.init.unitToPid := by
  have hstep := programStep_cases h
  generalize hpoint : m.point = point at hstep hahead
  cases hstep with
  | entersMainLoop => cases hahead
  | throwsCondition hthrows => exact Or.inl ((List.mem_cons.mp hahead).imp_left Eq.symm)
  | throwsStart hservice hthrows => exact Or.inl ((List.mem_cons.mp hahead).imp_left Eq.symm)
  | startsUnit hquiet hservice hcreated =>
      exact Or.inl ((List.mem_cons.mp hahead).imp_left Eq.symm)
  | executesUnit hservice hsys =>
      simp only [SysusersRuns, hpoint] at hok
      -- A unit that is skipped is not the one looked for.
      rcases List.mem_cons.mp hahead with rfl | hmem
      · exact absurd hservice (hok rfl)
      · exact Or.inl hmem
  | @skipsPre call back htodo => cases back <;> exact Or.inl hahead
  | @forksPre call back pid htodo hforked hfresh => cases back <;> exact Or.inl hahead
  | @forksMain call back pid s htodo hstart hfresh => cases back <;> exact Or.inl hahead
  | @notStarted call back sys s htodo hstart hsys =>
      cases back with
      | processRestarts rest => exact hahead.elim
      | unitExecute rest =>
          simp only [SysusersRuns, hpoint] at hok
          have hnot := (startService_spec hstart).1.symm
          -- The unit itself is started, so the one that was not is another.
          exact Or.inl (hahead.resolve_left (fun hname => hok hname htodo hnot))
  | @waitsPre call pid back status hexited =>
      cases back with
      | processRestarts rest => exact hahead.elim
      | unitExecute rest => exact Or.inl (hahead.imp_left (name_waited call status).trans)
  | @tracks call pid back sys hsys =>
      have hentered := tracking_entered hpoint hwill h
      rcases ahead_startedFrom hahead with hname | hrest
      · refine Or.inr ?_
        rw [hentered.unitToPid, hname]
        exact (AList.mem_insert _).mpr (Or.inl rfl)
      · exact Or.inl hrest
  | _ => exact hahead.elim

end RunState

/-! ## The invariants -/

/-- What holds in every run. -/
structure OwnershipInv (tr : List OwnershipRecord) (m : RunState) : Prop where
  run : RunInv m
  tracked : ∀ p tp, m.sys.init.processes.lookup p = some tp → tp.unitName = sysusers →
    .tracked p ∈ tr
  once : tr.count .chowned = m.runtimeDirsChowned.toNat

/-- What holds besides when the unit runs. -/
structure SysusersInv (tr : List OwnershipRecord) (m : RunState) : Prop
    extends OwnershipInv tr m where
  started : m.point.inShutdown = false → sysusers ∈ m.sys.init.execOrder →
    m.runtimeDirsChowned = false → m.point.Ahead ∨ sysusers ∈ m.sys.init.unitToPid ∨
      SysusersDone tr
  after : ∀ tr₁ tr₂, tr = tr₁ ++ .chowned :: tr₂ → SysusersDone tr₁

namespace RunState

variable {m m' : RunState} {a : RunAnswer}

theorem count_chowned_ownershipRecords (m : RunState) (a : RunAnswer) :
    (m.ownershipRecords (.program a)).count .chowned = m.fixesOwnership.toNat := by
  cases hpoint : m.point with
  | restarting ready =>
      cases ready with
      | nil => cases hfix : m.fixesOwnership <;> simp [ownershipRecords, hpoint, hfix]
      | cons name ready => simp [ownershipRecords, fixesOwnership, hpoint]
  | reaping rest poll =>
      have hnone : ∀ pid, (m.reapRecords pid).count .chowned = 0 := by
        intro pid
        unfold reapRecords
        split
        · split_ifs <;> simp
        · simp
      cases hchild : a.child with
      | none => simp [ownershipRecords, fixesOwnership, hpoint, hchild]
      | some pid => simp [ownershipRecords, fixesOwnership, hpoint, hchild, hnone]
  | tracking call pid back =>
      simp only [ownershipRecords, fixesOwnership, hpoint]
      split_ifs <;> simp
  | accepting listenFd conn pid rest =>
      simp only [ownershipRecords, fixesOwnership, hpoint]
      split_ifs <;> simp
  | _ => simp [ownershipRecords, fixesOwnership, hpoint]

theorem fixesOwnership_of_mem (h : .chowned ∈ m.ownershipRecords (.program a)) :
    m.fixesOwnership = true := by
  have hcount := count_chowned_ownershipRecords m a
  have hpos := List.count_pos_iff.mpr h
  cases hfix : m.fixesOwnership with
  | true => rfl
  | false =>
      rw [hfix] at hcount
      exact absurd hcount hpos.ne'

theorem fixesOwnership_eq_true (h : m.fixesOwnership = true) :
    m.point = .restarting [] ∧ m.runtimeDirsChowned = false ∧
      sysusers ∈ m.sys.init.execOrder ∧ sysusers ∉ m.sys.init.unitToPid := by
  unfold fixesOwnership at h
  split at h
  · simpa [‹m.point = _›, and_assoc] using h
  · cases h

/-- A process of the unit is recorded when it is entered into the table. -/
theorem lookup_programStep (hwill : m.WillTrack) (h : m.programStep a = some m') {p : Pid}
    {tp : TrackedProcess} (hp : m'.sys.init.processes.lookup p = some tp)
    (hname : tp.unitName = sysusers) :
    (∃ tp₀, m.sys.init.processes.lookup p = some tp₀ ∧ tp₀.unitName = sysusers) ∨
      .tracked p ∈ m.ownershipRecords (.program a) := by
  have hentered : ∀ {pid name}, m.EnteredAs pid name m' →
      (∃ tp₀, m.sys.init.processes.lookup p = some tp₀ ∧ tp₀.unitName = sysusers) ∨
        (p = pid ∧ name = sysusers) := by
    intro pid name hentered
    rcases hentered.lookup p tp hp with ⟨heq, hentry⟩ | hold
    · exact Or.inr ⟨heq, hentry.symm.trans hname⟩
    · exact Or.inl ⟨tp, hold, hname⟩
  have hother : m.point.toTrack = none →
      ∃ tp₀, m.sys.init.processes.lookup p = some tp₀ ∧ tp₀.unitName = sysusers := by
    intro hnone
    obtain ⟨tp₀, htp₀, hsame⟩ := lookup_of_notTracked (programStep_effect hwill h) hnone hp
    exact ⟨tp₀, htp₀, hsame.trans hname⟩
  cases hpoint : m.point with
  | tracking call pid back =>
      refine (hentered (tracking_entered hpoint hwill h)).imp_right ?_
      rintro ⟨rfl, hcall⟩
      simp [ownershipRecords, hpoint, hcall]
  | accepting listenFd conn pid rest =>
      obtain ⟨name, haccepted, hname'⟩ := accepting_entered hpoint hwill h
      refine (hentered hname').imp_right ?_
      rintro ⟨rfl, rfl⟩
      simp [ownershipRecords, hpoint, haccepted]
  | _ => exact Or.inl (hother (by rw [hpoint]; rfl))

end RunState

namespace OwnershipInv

variable {tr : List OwnershipRecord} {m m' : RunState}

theorem program (h : OwnershipInv tr m) {a : RunAnswer} (hstep : m.programStep a = some m') :
    OwnershipInv (tr ++ m.ownershipRecords (.program a)) m' where
  run := h.run.program (RunState.programStep_effect h.run.will hstep)
  tracked := by
    intro p tp hp hname
    rcases RunState.lookup_programStep h.run.will hstep hp hname with ⟨tp₀, hp₀, hname₀⟩ | hnew
    · exact List.mem_append_left _ (h.tracked p tp₀ hp₀ hname₀)
    · exact List.mem_append_right _ hnew
  once := by
    rw [List.count_append, h.once, RunState.count_chowned_ownershipRecords,
      RunState.programStep_flag hstep]
    cases hfix : m.fixesOwnership with
    | false => simp
    | true =>
        rw [(RunState.fixesOwnership_eq_true hfix).2.1]
        rfl

/-- The kernel writes no table. -/
theorem keep (h : OwnershipInv tr m) (hrun : RunInv m') (hinit : m'.sys.init = m.sys.init)
    (hflag : m'.runtimeDirsChowned = m.runtimeDirsChowned) : OwnershipInv tr m' where
  run := hrun
  tracked := hinit ▸ h.tracked
  once := hflag ▸ h.once

end OwnershipInv

namespace SysusersInv

variable {tr : List OwnershipRecord} {m m' : RunState}

/-- The name leaves `unit_to_pid_` only when a process of the unit has exited with 0. -/
theorem unitToPid (h : SysusersInv tr m) {a : RunAnswer} (hok : m.SysusersRuns (.program a))
    (hstep : m.programStep a = some m') (hloop : m.point.inShutdown = false)
    (hflag : m.runtimeDirsChowned = false) (hname : sysusers ∈ m.sys.init.unitToPid) :
    sysusers ∈ m'.sys.init.unitToPid ∨
      SysusersDone (tr ++ m.ownershipRecords (.program a)) := by
  have hentered : ∀ {pid name}, m.EnteredAs pid name m' → sysusers ∈ m'.sys.init.unitToPid := by
    intro pid name hentered
    rw [hentered.unitToPid]
    exact (AList.mem_insert _).mpr (Or.inr hname)
  have heffect := RunState.programStep_effect h.run.will hstep
  cases hpoint : m.point with
  | tracking call pid back =>
      exact Or.inl (hentered (RunState.tracking_entered hpoint h.run.will hstep))
  | accepting listenFd conn pid rest =>
      obtain ⟨name, -, hname'⟩ := RunState.accepting_entered hpoint h.run.will hstep
      exact Or.inl (hentered hname')
  | reaping rest poll =>
      have hnone : m.point.toTrack = none := by rw [hpoint]; rfl
      refine (RunState.unitToPid_of_notTracked heffect hnone hname).imp_right ?_
      rintro ⟨pid, status, tp, -, hchild, hexited, htp, hunit⟩
      obtain rfl : poll = .mainLoop := by
        simpa [hpoint, RunPoint.inShutdown, RunPoint.afterStop] using hloop
      simp only [RunState.SysusersRuns, hpoint] at hok
      have hclean := hok pid hchild tp htp hunit hflag
      -- The process was recorded when it was entered, and now its exit is.
      have hrecord : m.ownershipRecords (.program a) = [.reaped pid (.exited 0)] := by
        simp [RunState.ownershipRecords, RunState.reapRecords, hpoint, hchild, hclean, htp, hunit]
      rw [hrecord]
      exact ⟨pid, List.Sublist.append (List.singleton_sublist.mpr (h.tracked pid tp htp hunit))
        (List.Sublist.refl _)⟩
  | _ =>
      have hnone : m.point.toTrack = none := by rw [hpoint]; rfl
      refine (RunState.unitToPid_of_notTracked heffect hnone hname).imp_right ?_
      rintro ⟨pid, status, tp, hreap, -⟩
      simp [hpoint, RunPoint.inReap] at hreap

/-- When the owners are set, the unit is done. -/
theorem done_of_fixesOwnership (h : SysusersInv tr m) (hfix : m.fixesOwnership = true) :
    SysusersDone tr := by
  obtain ⟨hpoint, hflag, horder, hpid⟩ := RunState.fixesOwnership_eq_true hfix
  have hloop : m.point.inShutdown = false := by rw [hpoint]; rfl
  rcases h.started hloop horder hflag with hahead | hname | hdone
  · rw [hpoint] at hahead
    exact hahead.elim
  · exact absurd hname hpid
  · exact hdone

theorem program (h : SysusersInv tr m) {a : RunAnswer} (hok : m.SysusersRuns (.program a))
    (hstep : m.programStep a = some m') :
    SysusersInv (tr ++ m.ownershipRecords (.program a)) m' where
  toOwnershipInv := h.toOwnershipInv.program hstep
  started := by
    intro hloop' horder hflag'
    -- The main loop is never entered again.
    have hloop : m.point.inShutdown = false := by
      cases hshut : m.point.inShutdown with
      | false => rfl
      | true => simp [RunState.inShutdown_step hshut hstep] at hloop'
    rw [(RunState.programStep_effect h.run.will hstep).execOrder] at horder
    have hflag : m.runtimeDirsChowned = false := by
      rw [RunState.programStep_flag hstep] at hflag'
      exact (Bool.or_eq_false_iff.mp hflag').1
    rcases h.started hloop horder hflag with hahead | hname | hdone
    · rcases RunState.programStep_ahead h.run.will hok hahead hstep with hahead' | hname'
      · exact Or.inl hahead'
      · exact Or.inr (Or.inl hname')
    · exact Or.inr (h.unitToPid hok hstep hloop hflag hname)
    · exact Or.inr (Or.inr (hdone.append _))
  after := by
    intro tr₁ tr₂ heq
    rcases List.append_eq_append_iff.mp heq with ⟨mid, rfl, hrecords⟩ | ⟨mid, rfl, hrest⟩
    · -- The owners are set by this step.
      have hfix := RunState.fixesOwnership_of_mem (a := a) (m := m) (by simp [hrecords])
      exact (h.done_of_fixesOwnership hfix).append mid
    · -- The record of this step, or one from before.
      cases mid with
      | nil =>
          rw [List.nil_append] at hrest
          have hfix := RunState.fixesOwnership_of_mem (a := a) (m := m) (hrest ▸ List.mem_cons_self)
          simpa using h.done_of_fixesOwnership hfix
      | cons record mid =>
          obtain rfl := (List.cons.inj hrest).1
          exact h.after tr₁ mid rfl

theorem keep (h : SysusersInv tr m) (hrun : RunInv m') (hinit : m'.sys.init = m.sys.init)
    (hflag : m'.runtimeDirsChowned = m.runtimeDirsChowned) (hpoint : m'.point = m.point) :
    SysusersInv tr m' where
  toOwnershipInv := h.toOwnershipInv.keep hrun hinit hflag
  started := by
    rw [hinit, hflag, hpoint]
    exact h.started
  after := h.after

end SysusersInv

/-! ## Whole runs -/

namespace RunState

theorem ownershipInv_step {tr : List OwnershipRecord} {m m' : RunState} {e : RunEvent}
    (h : OwnershipInv tr m) (hstep : m.step e = some m') :
    OwnershipInv (tr ++ m.ownershipRecords e) m' := by
  have hrun := h.run.step hstep
  cases e with
  | program a => exact h.program hstep
  | exits pid status =>
      obtain ⟨-, rfl⟩ := exits_cases hstep
      simpa [ownershipRecords] using h.keep hrun rfl rfl
  | adopts pid =>
      obtain ⟨-, -, rfl⟩ := adopts_cases hstep
      simpa [ownershipRecords] using h.keep hrun rfl rfl
  | raises signal =>
      obtain rfl := Option.some.inj hstep
      simpa [ownershipRecords] using h.keep hrun rfl rfl

theorem sysusersInv_step {tr : List OwnershipRecord} {m m' : RunState} {e : RunEvent}
    (h : SysusersInv tr m) (hok : m.SysusersRuns e) (hstep : m.step e = some m') :
    SysusersInv (tr ++ m.ownershipRecords e) m' := by
  have hrun := h.run.step hstep
  cases e with
  | program a => exact h.program hok hstep
  | exits pid status =>
      obtain ⟨-, rfl⟩ := exits_cases hstep
      simpa [ownershipRecords] using h.keep hrun rfl rfl rfl
  | adopts pid =>
      obtain ⟨-, -, rfl⟩ := adopts_cases hstep
      simpa [ownershipRecords] using h.keep hrun rfl rfl rfl
  | raises signal =>
      obtain rfl := Option.some.inj hstep
      simpa [ownershipRecords] using h.keep hrun rfl rfl rfl

/-- When the main program begins, no process is tracked and the whole order is ahead. -/
theorem sysusersInv_boot {s : InitSystem} (hboot : TableInv { init := s }) :
    SysusersInv [] (boot s) where
  run := RunInv.boot hboot
  tracked := by
    intro p tp hp
    obtain ⟨kind, hkind, -⟩ := (hboot.tracked p).mp (UnorderedMap.mem_of_lookup hp)
    cases hkind
  once := rfl
  started := fun _ horder _ => Or.inl horder
  after := by simp

/-- In every run the owners of the runtime directories are set at most once.  If every step of the
run meets `SysusersRuns`, they are set only after a process of `systemd-sysusers.service` has been
started, has exited with 0, and has been reaped. -/
theorem run_chowns_after_sysusers (journal : Journal) (units : UnorderedMap String UnitFile)
    (fds : FdTable) (os : SocketBindAnswers) (inDegreeOrder : List String) {es : List RunEvent}
    {m : RunState}
    (hrun : (boot ((parsed journal units fds).boundAndResolved os inDegreeOrder)).run es =
      some m) :
    let start := boot ((parsed journal units fds).boundAndResolved os inDegreeOrder)
    let tr := StepRun.trace step ownershipRecords start es
    tr.count .chowned ≤ 1 ∧
      (StepRun.StepsMeet step SysusersRuns start es →
        ∀ tr₁ tr₂, tr = tr₁ ++ .chowned :: tr₂ → SysusersDone tr₁) := by
  intro start tr
  have hstart : SysusersInv [] start :=
    sysusersInv_boot (parsed_tableInv journal units fds os inDegreeOrder)
  constructor
  · have hend := StepRun.run_history_invariant (fun _ _ => True) OwnershipInv
      (fun _ _ _ _ hinv _ hstep => ownershipInv_step hinv hstep) hstart.toOwnershipInv
      (StepRun.stepsMeet_of_forall _ (fun _ _ => trivial)) hrun
    have honce := hend.once
    rw [List.nil_append] at honce
    exact honce.trans_le (Bool.toNat_le _)
  · intro hok
    have hend := StepRun.run_history_invariant SysusersRuns SysusersInv
      (fun _ _ _ _ hinv hmeets hstep => sysusersInv_step hinv hmeets hstep) hstart hok hrun
    simpa using hend.after

end RunState

def sysusersUnits : UnorderedMap String UnitFile :=
  (∅ : UnorderedMap String UnitFile).insert sysusers
    { name := sysusers
      type := .service
      execStart := "/usr/bin/systemd-sysusers" }

def sysusersBoot : RunState :=
  RunState.boot ((parsed {} sysusersUnits (fun _ => none)).boundAndResolved oneDescriptor
    [sysusers])

/-- The unit is started, its process exits and is reaped, and the main loop goes round. -/
def sysusersRun (status : WaitStatus) : List RunEvent :=
  [ .program {}
  , .program { forked := .ok 100 }
  , .program {}
  , .program {}
  , .exits 100 status
  , .program { polled := some [.signals] }
  , .program {}
  , .program { signal := some .chld }
  , .program { child := some 100, now := 1 }
  , .program {}
  , .program {}
  , .program { now := 1 }
  , .program {} ]

namespace RunState

theorem run_chowns_after_sysusers_sample :
    let tr := StepRun.trace step ownershipRecords sysusersBoot (sysusersRun (.exited 0))
    .chowned ∈ tr ∧ tr.count .chowned ≤ 1 ∧
      ∀ tr₁ tr₂, tr = tr₁ ++ .chowned :: tr₂ → SysusersDone tr₁ := by
  have hsome : (sysusersBoot.run (sysusersRun (.exited 0))).isSome = true := by
    decide +kernel
  have hok : StepRun.StepsMeet step SysusersRuns sysusersBoot (sysusersRun (.exited 0)) := by
    decide +kernel
  obtain ⟨m, hrun⟩ := Option.isSome_iff_exists.mp hsome
  have hall := run_chowns_after_sysusers {} sysusersUnits (fun _ => none) oneDescriptor [sysusers]
    hrun
  exact ⟨by decide +kernel, hall.1, hall.2 hok⟩

/-- The owners are set although the process of the unit has failed. -/
theorem run_chowns_after_failed_sysusers :
    ¬ ∀ (journal : Journal) (units : UnorderedMap String UnitFile) (fds : FdTable)
      (os : SocketBindAnswers) (inDegreeOrder : List String) (es : List RunEvent) (m : RunState),
      (boot ((parsed journal units fds).boundAndResolved os inDegreeOrder)).run es = some m →
      ∀ tr₁ tr₂, StepRun.trace step ownershipRecords
          (boot ((parsed journal units fds).boundAndResolved os inDegreeOrder)) es =
            tr₁ ++ .chowned :: tr₂ →
        SysusersDone tr₁ := by
  intro hall
  have hsome : (sysusersBoot.run (sysusersRun (.exited 1))).isSome = true := by
    decide +kernel
  obtain ⟨m, hrun⟩ := Option.isSome_iff_exists.mp hsome
  have htrace : StepRun.trace step ownershipRecords sysusersBoot (sysusersRun (.exited 1)) =
      [.tracked 100, .reaped 100 (.exited 1), .chowned] := by
    decide +kernel
  obtain ⟨pid, hdone⟩ := hall {} sysusersUnits (fun _ => none) oneDescriptor [sysusers] _ m hrun
    [.tracked 100, .reaped 100 (.exited 1)] [] htrace
  have hreaped := hdone.subset (List.mem_cons_of_mem _ List.mem_cons_self)
  simp at hreaped

end RunState

end TrivialInit
