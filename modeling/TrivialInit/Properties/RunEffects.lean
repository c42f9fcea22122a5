import TrivialInit.Properties.ProcessTable
import TrivialInit.Properties.ProgramSteps

/-!
# RunEffects — what each step of the main program does

The steps of `RunState.programStep` are sorted by what they do to the children and to the pending
signals: most are quiet, and the others fork a child, enter it into the tables, wait for an
`ExecStartPre` command, read a signal, or reap a child.  Every invariant of a run is derived from
this list.
-/

namespace TrivialInit

open InitSystem

namespace RunPoint

/-- A child that has been forked and is known to the point only. -/
def inHand : RunPoint → Option Pid
  | .waitingPre _ pid _ => some pid
  | .tracking _ pid _ => some pid
  | .accepting _ _ pid _ => some pid
  | _ => none

/-- A child that is about to be tracked. -/
def toTrack : RunPoint → Option Pid
  | .tracking _ pid _ => some pid
  | .accepting _ _ pid _ => some pid
  | _ => none

/-- In `drain_signals`, or in the `reap_children` it calls. -/
def inDrain : RunPoint → Bool
  | .draining _ _ => true
  | .reaping _ _ => true
  | _ => false

def inReap : RunPoint → Bool
  | .reaping _ _ => true
  | _ => false

@[simp] theorem inHand_startedFrom (back : StartedFrom) : back.point.inHand = none := by
  cases back <;> rfl

@[simp] theorem toTrack_startedFrom (back : StartedFrom) : back.point.toTrack = none := by
  cases back <;> rfl

@[simp] theorem inDrain_startedFrom (back : StartedFrom) : back.point.inDrain = false := by
  cases back <;> rfl

theorem inReap_of_not_inDrain {point : RunPoint} (h : point.inDrain = false) :
    point.inReap = false := by
  cases point <;> first | rfl | exact h

theorem toTrack_of_inHand {point : RunPoint} (h : point.inHand = none) : point.toTrack = none := by
  cases point <;> first | rfl | exact h

end RunPoint

/-! ## Quiet changes -/

/-- A change of the object, on the way to the point `next`, that leaves the children and their table
entries in place. -/
inductive Quiet (sys : System) (next : RunPoint) : System → Prop
  | same {sys' : System} (h : System.SameSystem sys sys') : Quiet sys next sys'
  | drained (now : TimePoint) (h : sys.clock ≤ now) :
      Quiet sys next { sys with init := (sys.init.drainPendingRestarts now).2, clock := now }
  | stopped (name : String) : Quiet sys next { sys with init := sys.init.stopUnit name }
  | notAccepted {sys' : System} (h : System.NotAccepted sys sys') : Quiet sys next sys'
  | registered {s : InitSystem} (h : SameTables sys.init.registerAcceptSockets s) :
      Quiet sys next { sys with init := s }
  /-- The sockets are closed at the very end. -/
  | closed {s : InitSystem} (hnext : next = .returned)
      (h : SameTables sys.init.closeAllSockets.1 s) : Quiet sys next { sys with init := s }

namespace Quiet

variable {sys sys' : System} {next : RunPoint}

theorem refl (sys : System) (next : RunPoint) : Quiet sys next sys :=
  .same (System.SameSystem.refl sys)

theorem log (sys : System) (next : RunPoint) (level : LogLevel) (source message : String) :
    Quiet sys next { sys with init := sys.init.log level source message } :=
  .same (System.sameSystem_log sys level source message)

theorem children (h : Quiet sys next sys') : sys'.children = sys.children := by
  cases h with
  | same h => exact h.children
  | notAccepted h => exact h.children
  | _ => rfl

theorem tableInv (h : Quiet sys next sys') (hinv : TableInv sys) : TableInv sys' := by
  cases h with
  | same h => exact hinv.sameSystem h
  | drained now _ => exact hinv.drained now
  | stopped name => exact hinv.step (e := .stopUnit name) rfl
  | notAccepted h => exact hinv.congr h.processes h.unitToPid h.exitCallbacks h.children
  | registered h => exact hinv.congr h.processes h.unitToPid h.exitCallbacks rfl
  | closed _ h => exact hinv.congr h.processes h.unitToPid h.exitCallbacks rfl

/-- The same processes are tracked, because the children are the same. -/
theorem mem_processes (h : Quiet sys next sys') (hinv : TableInv sys) (p : Pid) :
    p ∈ sys'.init.processes ↔ p ∈ sys.init.processes := by
  rw [(h.tableInv hinv).tracked, hinv.tracked, h.children]

end Quiet

/-! ## Tracking a child -/

/-- The new child `pid` is entered into the tables. -/
inductive Tracks (sys : System) (pid : Pid) : ChildKind → System → Prop
  | started {name : String} {unit : UnitFile} {os : StartAnswers} {sys' : System}
      (h : System.Started sys name unit os pid sys') : Tracks sys pid .service sys'
  | accepted {listenFd : Int} {os : AcceptAnswers} {socket svc : String} {sys' : System}
      (h : System.Accepted sys listenFd os socket svc pid sys') :
      Tracks sys pid (.connection socket) sys'

namespace Tracks

variable {sys sys' : System} {pid : Pid} {kind : ChildKind}

theorem isTracked (h : Tracks sys pid kind sys') : kind.isTracked = true := by
  cases h with
  | started h => rfl
  | accepted h => rfl

theorem children (h : Tracks sys pid kind sys') :
    sys'.children = sys.children.insert pid kind := by
  cases h with
  | started h => exact h.children
  | accepted h => exact h.children

theorem tableInv (h : Tracks sys pid kind sys') (hinv : TableInv sys) : TableInv sys' := by
  cases h with
  | started h => exact hinv.started h
  | accepted h => exact hinv.accepted h

theorem mem_processes (h : Tracks sys pid kind sys') (hinv : TableInv sys) (p : Pid) :
    p ∈ sys'.init.processes ↔ p = pid ∨ p ∈ sys.init.processes := by
  rw [(h.tableInv hinv).tracked, hinv.tracked, h.children, UnorderedMap.lookup_insert_eq]
  by_cases heq : p = pid
  · simp [heq, h.isTracked]
  · simp [heq]

end Tracks

/-! ## Children in hand -/

/-- A child that is about to be tracked will be entered by the call that forked it. -/
def RunState.WillTrack (m : RunState) : Prop :=
  match m.point with
  | .tracking call pid _ => startedPid call.name call.unit (call.startAnswers (.ok pid)) = some pid
  | .accepting listenFd conn pid _ =>
      (m.sys.init.acceptReady listenFd { conn := conn, forked := .ok pid }).1 = some pid
  | _ => True

theorem startedPid_eq_some {name : String} {unit : UnitFile} {os : StartAnswers} {pid : Pid}
    (h : startedPid name unit os = some pid) : os.forked = .ok pid := by
  have hforked : os.forked.toOption = some pid := by
    unfold startedPid at h
    grind
  cases hanswer : os.forked with
  | error reason => simp [hanswer, Except.toOption] at hforked
  | ok pid' =>
      rw [hanswer] at hforked
      exact congrArg Except.ok (Option.some.inj hforked)

theorem acceptReady_forked {s : InitSystem} {listenFd : Int} {os : AcceptAnswers} {pid : Pid}
    (h : (s.acceptReady listenFd os).1 = some pid) : os.forked = .ok pid := by
  rcases acceptReady_spec s listenFd os with ⟨hnone, -⟩ | ⟨_, pid', _, _, -, hforked, -, -, hpid, -⟩
  · simp [hnone] at h
  · rw [hpid] at h
    exact hforked.trans (congrArg Except.ok (Option.some.inj h))

/-! ## The list of effects -/

/-- What a step of the program does to the children and to the pending signals. -/
inductive ProgramEffect (m : RunState) (a : RunAnswer) : RunState → Prop
  | quiet (sys : System) (chowned : Bool) (point : RunPoint) (hsys : Quiet m.sys point sys)
      (hhand : m.point.inHand = none) (hhand' : point.inHand = none)
      (hdrain : m.point.inDrain = false) (hreap : point.inReap = false) :
      ProgramEffect m a { m with sys := sys, runtimeDirsChowned := chowned, point := point }
  /-- `fork`. -/
  | forked (pid : Pid) (point : RunPoint) (hfresh : pid ∉ m.procs)
      (hhand : m.point.inHand = none) (hhand' : point.inHand = some pid)
      (hdrain : m.point.inDrain = false) (hdrain' : point.inDrain = false)
      (hwill : ({ m with procs := m.procs.insert pid none, point := point } :
        RunState).WillTrack) :
      ProgramEffect m a { m with procs := m.procs.insert pid none, point := point }
  /-- The main command or the connection is entered into the tables. -/
  | tracked (pid : Pid) (kind : ChildKind) (sys : System) (point : RunPoint)
      (hsys : Tracks m.sys pid kind sys)
      (hhand : m.point.toTrack = some pid) (hhand' : point.inHand = none)
      (hdrain : m.point.inDrain = false) (hdrain' : point.inDrain = false) :
      ProgramEffect m a { m with sys := sys, point := point }
  /-- `waitpid` for an `ExecStartPre` command. -/
  | waited (pid : Pid) (status : WaitStatus) (point : RunPoint)
      (hexited : m.procs.lookup pid = some (some status))
      (hhand : m.point.inHand = some pid) (htrack : m.point.toTrack = none)
      (hhand' : point.inHand = none) (hdrain : m.point.inDrain = false)
      (hdrain' : point.inDrain = false) :
      ProgramEffect m a { m with procs := m.procs.erase pid, point := point }
  /-- `read` in `drain_signals`. -/
  | read (signal : Signal) (sys : System) (shutdown : Bool) (point : RunPoint)
      (hpending : signal ∈ m.pending) (hsys : Quiet m.sys point sys)
      (hdrain : m.point.inDrain = true) (hreap : m.point.inReap = false)
      (hdrain' : point.inDrain = true) (hreap' : point.inReap = true ↔ signal = .chld) :
      ProgramEffect m a
        { m with
          sys := sys
          pending := m.pending.erase signal
          shutdownRequested := shutdown
          point := point }
  /-- The end of `drain_signals`. -/
  | drained (point : RunPoint) (hpending : m.pending = ∅)
      (hdrain : m.point.inDrain = true) (hreap : m.point.inReap = false)
      (hhand' : point.inHand = none) (hdrain' : point.inDrain = false) :
      ProgramEffect m a { m with point := point }
  /-- `waitpid` in `reap_children`. -/
  | reaped (pid : Pid) (status : WaitStatus) (sys : System) (hchild : a.child = some pid)
      (hexited : m.procs.lookup pid = some (some status))
      (hsys : System.Reaped m.sys pid status a.now sys)
      (hreap : m.point.inReap = true) :
      ProgramEffect m a { m with sys := sys, procs := m.procs.erase pid }
  /-- The end of `reap_children`. -/
  | reapedAll (point : RunPoint) (hchild : a.child = none) (hnone : ∀ pid, ¬ m.Exited pid)
      (hreap : m.point.inReap = true) (hdrain' : point.inDrain = true)
      (hreap' : point.inReap = false) :
      ProgramEffect m a { m with point := point }

theorem Quiet.units {sys sys' : System} {next : RunPoint} (h : Quiet sys next sys') :
    sys'.init.units = sys.init.units := by
  cases h with
  | same h => exact h.tables.units
  | drained now _ => rfl
  | stopped name => exact (stopUnit_spec sys.init name).units
  | notAccepted h => exact h.units
  | registered h => exact h.units
  | closed _ h => exact h.units

theorem Tracks.units {sys sys' : System} {pid : Pid} {kind : ChildKind}
    (h : Tracks sys pid kind sys') : sys'.init.units = sys.init.units := by
  cases h with
  | started h => exact h.units
  | accepted h => exact h.units

theorem ProgramEffect.units {m m' : RunState} {a : RunAnswer} (h : ProgramEffect m a m') :
    m'.sys.init.units = m.sys.init.units := by
  cases h with
  | quiet sys chowned point hsys => exact hsys.units
  | read signal sys shutdown point hpending hsys => exact hsys.units
  | tracked pid kind sys point hsys => exact hsys.units
  | reaped pid status sys hchild hexited hsys => exact hsys.units
  | _ => rfl

namespace RunState

variable {m m' : RunState} {a : RunAnswer}

theorem quiet_effect {point point' : RunPoint} (hpoint : m.point = point)
    (hhand : point.inHand = none) (hdrain : point.inDrain = false) {sys : System}
    (hsys : Quiet m.sys point' sys) (hhand' : point'.inHand = none)
    (hreap : point'.inReap = false) :
    ProgramEffect m a { m with sys := sys, point := point' } :=
  .quiet sys m.runtimeDirsChowned point' hsys (hpoint ▸ hhand) hhand' (hpoint ▸ hdrain) hreap

theorem fork_effect {point point' : RunPoint} {pid : Pid} (hpoint : m.point = point)
    (hhand : point.inHand = none) (hdrain : point.inDrain = false) (hfresh : pid ∉ m.procs)
    (hhand' : point'.inHand = some pid) (hdrain' : point'.inDrain = false)
    (hwill : ({ m with procs := m.procs.insert pid none, point := point' } : RunState).WillTrack) :
    ProgramEffect m a { m with procs := m.procs.insert pid none, point := point' } :=
  .forked pid point' hfresh (hpoint ▸ hhand) hhand' (hpoint ▸ hdrain) hdrain' hwill

/-- Without a child for the main command, `execute(UnitExecute)` is quiet. -/
theorem executeUnit_quiet {sys sys' : System} {name : String} {os : System.ExecuteAnswers}
    {reason : String} (hforked : os.start.forked = .error reason)
    (next : RunPoint)
    (h : sys.executeUnit name os = some sys') : Quiet sys next sys' := by
  rcases System.executeUnit_cases h with hsame | ⟨unit, -, hstart⟩
  · exact .same hsame
  · rcases System.startService_cases hstart with hfailed | ⟨pid, hstarted⟩
    · exact .same hfailed.sameSystem
    · simp [startedPid_eq_some hstarted.started] at hforked

/-- `start_service` that starts nothing leaves the system as it is. -/
theorem sameSystem_of_notStarted {sys sys' : System} {name : String} {unit : UnitFile}
    {os : StartAnswers} {s : InitSystem} (hstart : sys.init.startService name unit os = some (none, s))
    (hsys : sys.startService name unit os = some sys') : System.SameSystem sys sys' := by
  have hnot : startedPid name unit os = none := (startService_spec hstart).1.symm
  rcases System.startService_cases hsys with hfailed | ⟨pid, hstarted⟩
  · exact hfailed.sameSystem
  · simp [hstarted.started] at hnot

/-- A child that `start_service` forks is the one `fork` has answered. -/
theorem startedPid_of_startService {s s' : InitSystem} {call : StartCall} {forked : ForkAnswer}
    {pid : Pid} (hstart : s.startService call.name call.unit (call.startAnswers forked) =
      some (some pid, s')) :
    startedPid call.name call.unit (call.startAnswers (.ok pid)) = some pid := by
  have hstarted : startedPid call.name call.unit (call.startAnswers forked) = some pid :=
    (startService_spec hstart).1.symm
  have hforked : forked = .ok pid := startedPid_eq_some hstarted
  exact hforked ▸ hstarted

/-- The call that forked the child in hand enters it into the tables. -/
theorem tracking_started {call : StartCall} {pid : Pid} {back : StartedFrom}
    (hpoint : m.point = .tracking call pid back) (hwill : m.WillTrack) {sys : System}
    (hsys : m.sys.startService call.name call.unit (call.startAnswers (.ok pid)) = some sys) :
    System.Started m.sys call.name call.unit (call.startAnswers (.ok pid)) pid sys := by
  simp only [WillTrack, hpoint] at hwill
  rcases System.startService_cases hsys with hfailed | ⟨pid', hstarted⟩
  · simp [hfailed.notStarted] at hwill
  · obtain rfl : pid' = pid := Option.some.inj (hstarted.started.symm.trans hwill)
    exact hstarted

theorem track_effect {call : StartCall} {pid : Pid} {back : StartedFrom}
    (hpoint : m.point = .tracking call pid back) (hwill : m.WillTrack) {sys : System}
    (hsys : m.sys.startService call.name call.unit (call.startAnswers (.ok pid)) = some sys) :
    ProgramEffect m a { m with sys := sys, point := back.point } :=
  .tracked pid .service sys _ (.started (tracking_started hpoint hwill hsys))
    (by rw [hpoint]; rfl) (by simp) (by rw [hpoint]; rfl) (by simp)

/-- The kernel has one child more exactly if `accept_ready` forked one. -/
theorem children_of_acceptReady {sys sys' : System} {listenFd : Int} {os : AcceptAnswers}
    (h : sys.step (.acceptReady listenFd os) = some sys') :
    match (sys.init.acceptReady listenFd os).1 with
    | none => sys'.children = sys.children
    | some pid => pid ∉ sys.children ∧ pid ∈ sys'.children := by
  obtain ⟨-, hnext⟩ := Option.ite_none_right_eq_some.mp h
  generalize sys.init.acceptReady listenFd os = r at hnext
  obtain ⟨_ | pid, s⟩ := r
  · obtain rfl := Option.some.inj hnext
    rfl
  · obtain ⟨hfresh, rfl⟩ := System.addChild_cases hnext
    exact ⟨hfresh, (AList.mem_insert _).mpr (Or.inl rfl)⟩

theorem notAccepted_of_none {sys sys' : System} {listenFd : Int} {os : AcceptAnswers}
    (h : sys.step (.acceptReady listenFd os) = some sys')
    (hnone : (sys.init.acceptReady listenFd os).1 = none) : System.NotAccepted sys sys' := by
  rcases System.acceptReady_cases h with ⟨-, hnot | ⟨socket, svc, pid, hacc⟩⟩
  · exact hnot
  · have hsame := children_of_acceptReady h
    simp only [hnone] at hsame
    have hmem : pid ∈ sys'.children := by
      rw [hacc.children]
      exact (AList.mem_insert _).mpr (Or.inl rfl)
    exact absurd (hsame ▸ hmem) hacc.fresh

theorem acceptReady_of_forked {s : InitSystem} {listenFd : Int} {os : AcceptAnswers} {pid : Pid}
    (hpid : (s.acceptReady listenFd os).1 = some pid) :
    (s.acceptReady listenFd { conn := os.conn, forked := .ok pid }).1 = some pid := by
  have hforked : os.forked = .ok pid := acceptReady_forked hpid
  exact hforked ▸ hpid

theorem accepting_accepted {listenFd : Int} {conn : Option (Int × Nat)} {pid : Pid}
    {rest : List PollEvent} (hpoint : m.point = .accepting listenFd conn pid rest)
    (hwill : m.WillTrack) {sys : System}
    (hsys : m.sys.step (.acceptReady listenFd { conn := conn, forked := .ok pid }) = some sys) :
    ∃ socket svc, System.Accepted m.sys listenFd { conn := conn, forked := .ok pid } socket svc pid
      sys := by
  simp only [WillTrack, hpoint] at hwill
  rcases System.acceptReady_cases hsys with ⟨-, hnot | ⟨socket, svc, pid', hacc⟩⟩
  · have hchild := children_of_acceptReady hsys
    simp only [hwill] at hchild
    exact absurd (hnot.children ▸ hchild.2) hchild.1
  · obtain rfl : pid' = pid := (Except.ok.inj hacc.forked).symm
    exact ⟨socket, svc, hacc⟩

theorem accept_effect {listenFd : Int} {conn : Option (Int × Nat)} {pid : Pid}
    {rest : List PollEvent} (hpoint : m.point = .accepting listenFd conn pid rest)
    (hwill : m.WillTrack) {sys : System}
    (hsys : m.sys.step (.acceptReady listenFd { conn := conn, forked := .ok pid }) = some sys) :
    ProgramEffect m a { m with sys := sys, point := .polled rest .mainLoop } := by
  obtain ⟨socket, svc, hacc⟩ := accepting_accepted hpoint hwill hsys
  exact .tracked pid (.connection socket) sys _ (.accepted hacc) (by rw [hpoint]; rfl) rfl
    (by rw [hpoint]; rfl) rfl

/-- A signal other than `SIGCHLD` keeps the program in `drain_signals`. -/
theorem read_effect {point : RunPoint} {signal : Signal} (hpoint : m.point = point)
    (hdrain : point.inDrain = true) (hreap : point.inReap = false)
    (hpending : signal ∈ m.pending) (hsignal : signal ≠ .chld) {sys : System}
    (hsys : Quiet m.sys m.point sys) (shutdown : Bool) :
    ProgramEffect m a
      { m with
        sys := sys
        pending := m.pending.erase signal
        shutdownRequested := shutdown } :=
  have hreap' : m.point.inReap = true ↔ signal = .chld := by simp [hpoint, hreap, hsignal]
  .read signal sys shutdown m.point hpending hsys (hpoint ▸ hdrain) (hpoint ▸ hreap)
    (hpoint ▸ hdrain) hreap'

theorem not_exited_of_forall (hnone : ∀ e ∈ m.procs.entries, e.2 = none) (pid : Pid) :
    ¬ m.Exited pid := by
  rintro ⟨status, hstatus⟩
  exact Option.some_ne_none status (hnone _ (UnorderedMap.mem_entries_iff.mpr hstatus))

theorem maybeFixRuntimeDirs_spec (m : RunState) :
    ∃ sys chowned, System.SameSystem m.sys sys ∧
      m.maybeFixRuntimeDirs = { m with sys := sys, runtimeDirsChowned := chowned } := by
  unfold maybeFixRuntimeDirs
  dsimp only
  split_ifs
  · exact ⟨m.sys, m.runtimeDirsChowned, System.SameSystem.refl _, rfl⟩
  · exact ⟨_, true, System.sameSystem_log _ _ _ _, rfl⟩

/-- Every step of the program has one of the listed effects. -/
theorem programStep_effect (hwill : m.WillTrack) (h : m.programStep a = some m') :
    ProgramEffect m a m' := by
  have hstep := programStep_cases h
  generalize hpoint : m.point = point at hstep
  cases hstep with
  -- `execute(UnitExecute)` and `start_service`.
  | entersMainLoop =>
      exact quiet_effect hpoint rfl rfl (.registered (sameTables_log _ _ _ _)) rfl rfl
  | throwsCondition hthrows => exact quiet_effect hpoint rfl rfl (.refl _ _) rfl rfl
  | throwsStart hservice hthrows => exact quiet_effect hpoint rfl rfl (.refl _ _) rfl rfl
  | startsUnit hquiet hservice hcreated => exact quiet_effect hpoint rfl rfl (.refl _ _) rfl rfl
  | executesUnit hservice hsys =>
      exact quiet_effect hpoint rfl rfl (executeUnit_quiet rfl _ hsys) rfl rfl
  | skipsPre htodo => exact quiet_effect hpoint rfl rfl (.refl _ _) rfl rfl
  | forksPre htodo hforked hfresh => exact fork_effect hpoint rfl rfl hfresh rfl rfl trivial
  | forksMain htodo hstart hfresh =>
      exact fork_effect hpoint rfl rfl hfresh rfl rfl (startedPid_of_startService hstart)
  | notStarted htodo hstart hsys =>
      exact quiet_effect hpoint rfl rfl (.same (sameSystem_of_notStarted hstart hsys)) (by simp)
        (RunPoint.inReap_of_not_inDrain (by simp))
  | waitsPre hexited =>
      exact .waited _ _ _ hexited (hpoint ▸ rfl) (hpoint ▸ rfl) rfl (hpoint ▸ rfl) rfl
  | tracks hsys => exact track_effect hpoint hwill hsys
  -- The main loop.
  | leavesMainLoop hshut => exact quiet_effect hpoint rfl rfl (.log _ _ _ _ _) rfl rfl
  | polls hshut => exact quiet_effect hpoint rfl rfl (.refl _ _) rfl rfl
  | signalled => exact quiet_effect hpoint rfl rfl (.refl _ _) rfl rfl
  | forksConnection hpid hfresh =>
      exact fork_effect hpoint rfl rfl hfresh rfl rfl (acceptReady_of_forked hpid)
  | notAccepted hpid hsys =>
      exact quiet_effect hpoint rfl rfl (.notAccepted (notAccepted_of_none hsys hpid)) rfl rfl
  | skipsDescriptor hpoll => exact quiet_effect hpoint rfl rfl (.refl _ _) rfl rfl
  | drainsRestarts hsys =>
      obtain ⟨hnow, rfl⟩ := System.drain_cases hsys
      exact quiet_effect hpoint rfl rfl (.drained a.now hnow) rfl rfl
  | waitedOnce => exact quiet_effect hpoint rfl rfl (.refl _ _) rfl rfl
  | returns => exact quiet_effect hpoint rfl rfl (.closed rfl (sameTables_log _ _ _ _)) rfl rfl
  | accepts hsys => exact accept_effect hpoint hwill hsys
  -- `drain_signals` and `reap_children`.
  | noSignal hpending => exact .drained _ hpending (hpoint ▸ rfl) (hpoint ▸ rfl) rfl rfl
  | readsChld hpending =>
      exact .read .chld m.sys m.shutdownRequested _ hpending (.refl _ _) (hpoint ▸ rfl)
        (hpoint ▸ rfl) rfl (iff_of_true rfl rfl)
  | readsShutdown hpending hsignal =>
      exact read_effect hpoint rfl rfl hpending hsignal (.log _ _ _ _ _) true
  | readsUsr1 hpending =>
      exact read_effect hpoint rfl rfl hpending nofun (.refl _ _) m.shutdownRequested
  | noChild hchild hnone =>
      exact .reapedAll _ hchild (not_exited_of_forall hnone) (hpoint ▸ rfl) rfl rfl
  | reaps hchild hexited hsys =>
      exact .reaped _ _ _ hchild hexited (System.reaped_cases hsys) (hpoint ▸ rfl)
  -- `process_restarts`.
  | quits hquit =>
      obtain ⟨sys, chowned, hsys, hfixed⟩ := maybeFixRuntimeDirs_spec m
      rw [hfixed]
      exact .quiet _ chowned _ (.same (hsys.trans (System.sameSystem_log _ _ _ _))) (hpoint ▸ rfl)
        rfl (hpoint ▸ rfl) rfl
  | loops hquit =>
      obtain ⟨sys, chowned, hsys, hfixed⟩ := maybeFixRuntimeDirs_spec m
      rw [hfixed]
      exact .quiet sys chowned _ (.same hsys) (hpoint ▸ rfl) rfl (hpoint ▸ rfl) rfl
  | skipsRestart hunit => exact quiet_effect hpoint rfl rfl (.refl _ _) rfl rfl
  | throwsRestart hunit hthrows => exact quiet_effect hpoint rfl rfl (.log _ _ _ _ _) rfl rfl
  | restarts hunit hcreated => exact quiet_effect hpoint rfl rfl (.log _ _ _ _ _) rfl rfl
  -- The shutdown.
  | stoppedAll => exact quiet_effect hpoint rfl rfl (.refl _ _) rfl rfl
  | stops => exact quiet_effect hpoint rfl rfl (.stopped _) rfl rfl
  | awaits hpoll => exact quiet_effect hpoint rfl rfl (.refl _ _) rfl rfl

/-! ## Steps of the kernel -/

theorem exits_cases {pid : Pid} {status : WaitStatus} (h : m.step (.exits pid status) = some m') :
    m.procs.lookup pid = some none ∧
      m' =
        { m with
          procs := m.procs.insert pid (some status)
          pending := insert .chld m.pending } := by
  unfold RunState.step at h
  dsimp only at h
  split at h
  · exact ⟨‹_›, (Option.some.inj h).symm⟩
  · nomatch h

theorem adopts_cases {pid : Pid} (h : m.step (.adopts pid) = some m') :
    pid ∉ m.procs ∧ pid ∉ m.sys.children ∧
      m' =
        { m with
          sys := { m.sys with children := m.sys.children.insert pid .orphan }
          procs := m.procs.insert pid none } := by
  unfold RunState.step at h
  dsimp only at h
  split_ifs at h with hfresh
  obtain ⟨sys, hsys, rfl⟩ := Option.map_eq_some_iff.mp h
  obtain ⟨hnew, rfl⟩ := System.adopt_cases hsys
  exact ⟨hfresh, hnew, rfl⟩

end RunState

end TrivialInit
