import TrivialInit.Properties.StepEffects

/-!
# ProcessTable — consistency of the process maps

`processes_`, `unit_to_pid_` and `exit_callbacks_` are written one after the other by every
operation.  `TableInv` relates the three maps to each other and to the children the kernel still
holds; each operation is one of five changes of the maps, and every change keeps it.
-/

namespace TrivialInit

open InitSystem

/-! ## The invariant -/

structure TableInv (sys : System) : Prop where
  entry : ∀ p tp, sys.init.processes.lookup p = some tp → tp.pid = p ∧ tp.state = .running
  named : ∀ n p, sys.init.unitToPid.lookup n = some p →
    ∃ tp, sys.init.processes.lookup p = some tp ∧ tp.unitName = n
  callback : ∀ p, p ∈ sys.init.exitCallbacks → p ∈ sys.init.processes
  tracked : ∀ p, p ∈ sys.init.processes ↔
    ∃ kind, sys.children.lookup p = some kind ∧ kind.isTracked = true

/-- The process before its first call: nothing is tracked, pending or connected. -/
structure Booted (sys : System) : Prop where
  processes : sys.init.processes = ∅
  unitToPid : sys.init.unitToPid = ∅
  exitCallbacks : sys.init.exitCallbacks = ∅
  pendingRestarts : sys.init.pendingRestarts = []
  restartCounts : sys.init.restartCounts = ∅
  children : sys.children = ∅
  connections : ∀ n, (sys.init.socketUnit n).activeConnections = 0

theorem Booted.tableInv {sys : System} (h : Booted sys) : TableInv sys where
  entry := by simp [h.processes]
  named := by simp [h.unitToPid]
  callback := by simp [h.exitCallbacks]
  tracked := by simp [h.processes, h.children]

def sampleWeb : UnitFile :=
  { type := .service
    execStart := "/bin/web"
    restartPolicy := "always" }

/-- The restartable service, and one accepting socket whose connections a template serves. -/
def sampleBoot : System :=
  let echo : UnitFile :=
    { type := .service
      execStart := "/bin/echo" }
  let listener : SocketUnit :=
    { name := "echo.socket"
      listen := [{ type := .stream, address := "7", fd := 5 }]
      accept := true
      maxConn := 2 }
  { init :=
      { units := (∅ : UnorderedMap String UnitFile).insert "echo@.service" echo
          |>.insert "web.service" sampleWeb
        socketUnits := (∅ : UnorderedMap String SocketUnit).insert "echo.socket" listener
        fdToSocket := (∅ : UnorderedMap Int String).insert 5 "echo.socket" } }

/-- The start of a unit without conditions, as the process `pid`. -/
def forkedAs (pid : Pid) : System.ExecuteAnswers :=
  { probe :=
      { pathExists := fun _ => false
        globMatches := fun _ => false
        isDirectory := fun _ => false
        isSymbolicLink := fun _ => false
        isMountPoint := fun _ => false
        isReadWrite := fun _ => false
        fileNotEmpty := fun _ => false
        directoryNotEmpty := fun _ => false
        isExecutable := fun _ => false
        cmdlineContains := fun _ => false
        releaseContains := fun _ => false
        cpuinfoVirtual := false
        uid := 0
        lookupUid := fun _ => none
        getenv := fun _ => none }
    start := { forked := .ok pid }
    mount :=
      { alreadyMounted := false
        mountError := none } }

theorem sampleBoot_booted : Booted sampleBoot where
  processes := rfl
  unitToPid := rfl
  exitCallbacks := rfl
  pendingRestarts := rfl
  restartCounts := rfl
  children := rfl
  connections := by
    intro n
    by_cases h : n = "echo.socket"
    · subst h
      rfl
    · have hnone : sampleBoot.init.socketUnits.lookup n = none :=
        (AList.lookup_insert_ne h).trans (AList.lookup_empty n)
      rw [socketUnit, hnone]
      rfl

namespace TableInv

variable {sys sys' : System}

/-- A child that is not known to the kernel is not in the table. -/
theorem notMem_processes (h : TableInv sys) {p : Pid} (hp : p ∉ sys.children) :
    p ∉ sys.init.processes := by
  intro hmem
  rcases (h.tracked p).mp hmem with ⟨kind, hkind, -⟩
  exact hp (UnorderedMap.mem_of_lookup hkind)

theorem injective (h : TableInv sys) {n n' : String} {p : Pid}
    (hn : sys.init.unitToPid.lookup n = some p) (hn' : sys.init.unitToPid.lookup n' = some p) :
    n = n' := by
  rcases h.named n p hn with ⟨tp, htp, rfl⟩
  rcases h.named n' p hn' with ⟨tp', htp', rfl⟩
  rw [htp] at htp'
  exact congrArg TrackedProcess.unitName (Option.some.inj htp')

theorem activeCount_eq (h : TableInv sys) :
    sys.init.activeCount = UnorderedMap.countEntries (fun _ kind => kind.isTracked) sys.children := by
  refine UnorderedMap.countEntries_eq_of_keys ?_
  intro p
  rw [← h.tracked p, UnorderedMap.mem_iff_exists_lookup]
  constructor
  · rintro ⟨tp, htp, -⟩
    exact ⟨tp, htp⟩
  · rintro ⟨tp, htp⟩
    exact ⟨tp, htp, by simp [(h.entry p tp htp).2]⟩

/-! ## The five changes -/

/-- The maps are unchanged. -/
theorem congr (h : TableInv sys) (hprocesses : sys'.init.processes = sys.init.processes)
    (hunitToPid : sys'.init.unitToPid = sys.init.unitToPid)
    (hcallbacks : sys'.init.exitCallbacks = sys.init.exitCallbacks)
    (hchildren : sys'.children = sys.children) : TableInv sys' where
  entry := by
    rw [hprocesses]
    exact h.entry
  named := by
    rw [hprocesses, hunitToPid]
    exact h.named
  callback := by
    rw [hprocesses, hcallbacks]
    exact h.callback
  tracked := by
    rw [hprocesses, hchildren]
    exact h.tracked

theorem sameSystem (h : TableInv sys) (hsame : System.SameSystem sys sys') : TableInv sys' := by
  rcases hsame with ⟨htables, hchildren, -⟩
  exact h.congr htables.processes htables.unitToPid htables.exitCallbacks hchildren

/-- A forked child enters the table. -/
theorem enter (h : TableInv sys) (tp : TrackedProcess) {kind : ChildKind}
    (hfresh : tp.pid ∉ sys.children) (hstate : tp.state = .running)
    (hkind : kind.isTracked = true)
    (hprocesses : sys'.init.processes = sys.init.processes.insert tp.pid tp)
    (hunitToPid : sys'.init.unitToPid = sys.init.unitToPid.insert tp.unitName tp.pid)
    (hcallbacks : sys'.init.exitCallbacks = sys.init.exitCallbacks)
    (hchildren : sys'.children = sys.children.insert tp.pid kind) : TableInv sys' where
  entry := by
    intro p tp' hp
    rw [hprocesses, UnorderedMap.lookup_insert_eq] at hp
    split_ifs at hp with heq
    · obtain rfl := Option.some.inj hp
      exact ⟨heq.symm, hstate⟩
    · exact h.entry p tp' hp
  named := by
    intro n p hn
    rw [hunitToPid, UnorderedMap.lookup_insert_eq] at hn
    rw [hprocesses, UnorderedMap.lookup_insert_eq]
    -- The unit's own name is redirected to the new child, even if it stood for another one.
    split_ifs at hn with heq
    · obtain rfl := Option.some.inj hn
      exact ⟨tp, if_pos rfl, heq.symm⟩
    · rcases h.named n p hn with ⟨tp', htp', hname⟩
      -- An old entry keeps its PID, and the new PID is fresh.
      have hne : p ≠ tp.pid := by
        rintro rfl
        exact h.notMem_processes hfresh (UnorderedMap.mem_of_lookup htp')
      exact ⟨tp', by rw [if_neg hne, htp'], hname⟩
  callback := by
    intro p hp
    rw [hcallbacks] at hp
    rw [hprocesses, AList.mem_insert]
    exact Or.inr (h.callback p hp)
  tracked := by
    intro p
    rw [hprocesses, AList.mem_insert, hchildren, UnorderedMap.lookup_insert_eq]
    by_cases heq : p = tp.pid
    · simp [heq, hkind]
    · simp [heq, h.tracked p]

/-- A tracked child gets an exit callback. -/
theorem addCallback (h : TableInv sys) {p : Pid} {cb : ExitCallback}
    (hmem : p ∈ sys.init.processes) (hprocesses : sys'.init.processes = sys.init.processes)
    (hunitToPid : sys'.init.unitToPid = sys.init.unitToPid)
    (hcallbacks : sys'.init.exitCallbacks = sys.init.exitCallbacks.insert p cb)
    (hchildren : sys'.children = sys.children) : TableInv sys' where
  entry := by
    rw [hprocesses]
    exact h.entry
  named := by
    rw [hprocesses, hunitToPid]
    exact h.named
  callback := by
    intro p' hp'
    rw [hcallbacks, AList.mem_insert] at hp'
    rw [hprocesses]
    rcases hp' with rfl | hp'
    · exact hmem
    · exact h.callback p' hp'
  tracked := by
    rw [hprocesses, hchildren]
    exact h.tracked

/-- An entry changes in place, but keeps its PID, its unit and its state. -/
theorem retune (h : TableInv sys) (p : Pid) (f : TrackedProcess → TrackedProcess)
    (hf : ∀ tp, (f tp).pid = tp.pid ∧ (f tp).unitName = tp.unitName ∧ (f tp).state = tp.state)
    (hprocesses : sys'.init.processes = UnorderedMap.modify sys.init.processes p f)
    (hunitToPid : sys'.init.unitToPid = sys.init.unitToPid)
    (hcallbacks : sys'.init.exitCallbacks = sys.init.exitCallbacks)
    (hchildren : sys'.children = sys.children) : TableInv sys' where
  entry := by
    intro p' tp hp'
    rw [hprocesses, UnorderedMap.lookup_modify] at hp'
    split_ifs at hp' with heq
    · rcases Option.map_eq_some_iff.mp hp' with ⟨tp₀, htp₀, rfl⟩
      rcases hf tp₀ with ⟨hpid, -, hstate⟩
      rw [hpid, hstate, heq]
      exact h.entry p tp₀ htp₀
    · exact h.entry p' tp hp'
  named := by
    intro n p' hn
    rw [hunitToPid] at hn
    rcases h.named n p' hn with ⟨tp, htp, hname⟩
    rw [hprocesses, UnorderedMap.lookup_modify]
    by_cases heq : p' = p
    · subst heq
      -- The changed entry still carries the name that points to it.
      exact ⟨f tp, by simp [htp], ((hf tp).2.1).trans hname⟩
    · exact ⟨tp, by rw [if_neg heq, htp], hname⟩
  callback := by
    rw [hprocesses, hcallbacks]
    intro p' hp'
    exact UnorderedMap.mem_modify.mpr (h.callback p' hp')
  tracked := by
    intro p'
    rw [hprocesses, UnorderedMap.mem_modify, hchildren]
    exact h.tracked p'

/-- A child leaves; its name is erased, whichever process the name stood for. -/
theorem leave (h : TableInv sys) {p : Pid}
    (hprocesses : sys'.init.processes = sys.init.processes.erase p)
    (hunitToPid : sys'.init.unitToPid =
      match sys.init.processes.lookup p with
      | none => sys.init.unitToPid
      | some tp => sys.init.unitToPid.erase tp.unitName)
    (hcallbacks : sys'.init.exitCallbacks = sys.init.exitCallbacks.erase p)
    (hchildren : sys'.children = sys.children.erase p) : TableInv sys' where
  entry := by
    intro p' tp hp'
    rw [hprocesses, UnorderedMap.lookup_erase_eq] at hp'
    split_ifs at hp' with heq
    exact h.entry p' tp hp'
  named := by
    intro n p' hn
    -- The name of the process that left maps to nothing any more.
    have hold : sys.init.unitToPid.lookup n = some p' ∧ p' ≠ p := by
      cases hp : sys.init.processes.lookup p with
      | none =>
          rw [hunitToPid, hp] at hn
          refine ⟨hn, ?_⟩
          rintro rfl
          -- An orphan is not in the table, so no name points to it.
          rcases h.named n p' hn with ⟨tp, htp, -⟩
          rw [hp] at htp
          cases htp
      | some tp =>
          rw [hunitToPid, hp, UnorderedMap.lookup_erase_eq] at hn
          split_ifs at hn with hname
          refine ⟨hn, ?_⟩
          rintro rfl
          rcases h.named n p' hn with ⟨tp', htp', rfl⟩
          rw [hp] at htp'
          exact hname (congrArg TrackedProcess.unitName (Option.some.inj htp').symm)
    rcases h.named n p' hold.1 with ⟨tp, htp, hname⟩
    refine ⟨tp, ?_, hname⟩
    rw [hprocesses, UnorderedMap.lookup_erase_eq, if_neg hold.2, htp]
  callback := by
    intro p' hp'
    rw [hcallbacks, AList.mem_erase] at hp'
    rw [hprocesses, AList.mem_erase]
    exact ⟨hp'.1, h.callback p' hp'.2⟩
  tracked := by
    intro p'
    rw [hprocesses, AList.mem_erase, hchildren, UnorderedMap.lookup_erase_eq]
    by_cases heq : p' = p
    · simp [heq]
    · simp [heq, h.tracked p']

/-! ## Every event keeps the invariant -/

theorem started (h : TableInv sys) {name : String} {unit : UnitFile} {os : StartAnswers} {pid : Pid}
    (hstarted : System.Started sys name unit os pid sys') : TableInv sys' := by
  refine h.enter (sys.init.startedProcess name unit pid) ?_ ?_
    (rfl : ChildKind.service.isTracked = true) hstarted.tables.processes
    hstarted.tables.unitToPid hstarted.tables.exitCallbacks ?_
  · rw [startedProcess_pid]
    exact hstarted.fresh
  · exact startedProcess_state _ _ _ _
  · rw [startedProcess_pid]
    exact hstarted.children

theorem startService (h : TableInv sys) {name : String} {unit : UnitFile} {os : StartAnswers}
    (hstep : sys.startService name unit os = some sys') : TableInv sys' := by
  rcases System.startService_cases hstep with hfailed | ⟨pid, hstarted⟩
  · exact h.sameSystem hfailed.sameSystem
  · exact h.started hstarted

theorem accepted (h : TableInv sys) {listenFd : Int} {os : AcceptAnswers} {socket svc : String}
    {pid : Pid} (hacc : System.Accepted sys listenFd os socket svc pid sys') : TableInv sys' := by
  -- First the child enters the table, then it gets its callback.
  have hentered : TableInv
      { sys with
        init := sys.init.enter (trackedEntry pid svc .no)
        children := sys.children.insert pid (.connection socket) } :=
    h.enter (trackedEntry pid svc .no) hacc.fresh rfl rfl rfl rfl rfl rfl
  have hmem : pid ∈ (sys.init.enter (trackedEntry pid svc .no)).processes :=
    AList.mem_insert _ |>.mpr (Or.inl rfl)
  exact hentered.addCallback hmem hacc.processes hacc.unitToPid hacc.exitCallbacks hacc.children

theorem reaped (h : TableInv sys) {pid : Pid} {status : WaitStatus} {now : TimePoint}
    (hreaped : System.Reaped sys pid status now sys') : TableInv sys' := by
  have hunitToPid := hreaped.unitToPid
  refine h.leave hreaped.processes ?_ hreaped.exitCallbacks hreaped.children
  cases htp : sys.init.processes.lookup pid with
  | none => simpa only [htp] using hunitToPid
  | some tp => simpa only [htp] using hunitToPid

theorem stopped (h : TableInv sys) {name : String}
    (hstep : sys.step (.stopUnit name) = some sys') : TableInv sys' := by
  rcases System.stop_cases hstep with ⟨htables, hchildren, -⟩
  have hprocesses := htables.processes
  cases hname : sys.init.unitToPid.lookup name with
  | none =>
      simp only [recordStop, hname] at hprocesses
      exact h.congr hprocesses htables.unitToPid htables.exitCallbacks hchildren
  | some pid =>
      simp only [recordStop, hname] at hprocesses
      exact h.retune pid (fun tp => { tp with restartPolicy := .no }) (fun _ => ⟨rfl, rfl, rfl⟩)
        hprocesses htables.unitToPid htables.exitCallbacks hchildren

theorem drained (h : TableInv sys) (now : TimePoint) :
    TableInv
      { sys with
        init := (sys.init.drainPendingRestarts now).2
        clock := now } := by
  rw [drainPendingRestarts_eq]
  exact h.congr rfl rfl rfl rfl

theorem adopted (h : TableInv sys) {pid : Pid} (hfresh : pid ∉ sys.children) :
    TableInv { sys with children := sys.children.insert pid .orphan } where
  entry := h.entry
  named := h.named
  callback := h.callback
  tracked := by
    intro p
    rw [UnorderedMap.lookup_insert_eq]
    by_cases heq : p = pid
    · subst heq
      simp [h.notMem_processes hfresh, ChildKind.isTracked]
    · simp [heq, h.tracked p]

theorem notAccepted (h : TableInv sys) (hnone : System.NotAccepted sys sys') : TableInv sys' :=
  h.congr hnone.processes hnone.unitToPid hnone.exitCallbacks hnone.children

theorem queued (h : TableInv sys) (name : String) (now : TimePoint) :
    TableInv
      { sys with
        init := sys.init.queueRestart name now
        clock := now } :=
  h.congr rfl rfl rfl rfl

theorem kept : System.Kept TableInv where
  same := fun h hsame => h.sameSystem hsame
  startService := fun h hstart => h.startService hstart
  notAccepted := fun h hnone => h.notAccepted hnone
  accepted := fun h hacc => h.accepted hacc
  reaped := fun h hreaped => h.reaped hreaped
  drained := fun now h => h.drained now
  stopped := fun h hstop => h.stopped hstop
  queued := fun name now h => h.queued name now
  adopted := fun h hfresh => h.adopted hfresh

theorem step (h : TableInv sys) {e : Event} (hstep : sys.step e = some sys') : TableInv sys' :=
  kept.step h hstep

end TableInv

/-! ## Direct calls of the process mixin -/

/-- The events of the main program, and the operations of `ProcessMixin` and `SocketMixin` called on
their own, in any order. -/
inductive ProcessCall
  | event (e : Event)
  | spawn (unitName execPath : String) (args : List String) (policy : RestartPolicy)
      (burstLimit burstIntervalS : Int) (unitCtx : UnitFile) (forked : ForkAnswer)
  | spawnWithSocketFds (unitName execPath : String) (args : List String) (env : SocketEnv)
      (restart : Bool) (unitCtx : UnitFile) (forked : ForkAnswer)
  /-- `track_process` for a child that was forked elsewhere. -/
  | trackProcess (pid : Pid) (unitName : String) (restart : Bool)
  | onChildExit (pid : Pid) (cb : ExitCallback)
  | applyRestartCount (pid : Pid) (unitName : String)

/-- One call; `on_child_exit` is called for a tracked child that has not been reaped yet. -/
def System.processCall (sys : System) : ProcessCall → Option System
  | .event e => sys.step e
  | .spawn unitName execPath args policy burstLimit burstIntervalS unitCtx forked =>
      sys.addChild .service
        (sys.init.spawn unitName execPath args policy burstLimit burstIntervalS unitCtx forked)
  | .spawnWithSocketFds unitName execPath args env restart unitCtx forked =>
      sys.addChild .service
        (sys.init.spawnWithSocketFds unitName execPath args env restart unitCtx forked)
  | .trackProcess pid unitName restart =>
      sys.addChild .service (some pid, sys.init.trackProcess pid unitName restart)
  | .onChildExit pid cb =>
      if (sys.children.lookup pid).any ChildKind.isTracked then
        some { sys with init := sys.init.onChildExit pid cb }
      else none
  | .applyRestartCount pid unitName =>
      some { sys with init := sys.init.applyRestartCount pid unitName }

namespace TableInv

variable {sys sys' : System}

/-- A successful `fork` whose effect is to enter `tp`. -/
theorem addChild (h : TableInv sys) (tp : TrackedProcess) (hstate : tp.state = .running)
    {s : InitSystem} (htables : SameTables (sys.init.enter tp) s)
    (hstep : sys.addChild .service (some tp.pid, s) = some sys') : TableInv sys' := by
  obtain ⟨hfresh, rfl⟩ := System.addChild_cases hstep
  rcases htables with ⟨journal, fds, forks, dirs, rfl⟩
  exact h.enter tp hfresh hstate (rfl : ChildKind.service.isTracked = true) rfl rfl rfl rfl

theorem noChild (h : TableInv sys) {s : InitSystem} (htables : SameTables sys.init s)
    (hstep : sys.addChild .service (none, s) = some sys') : TableInv sys' := by
  obtain rfl := Option.some.inj hstep
  exact h.sameSystem ⟨htables, rfl, rfl⟩

theorem processCall (h : TableInv sys) {call : ProcessCall}
    (hstep : sys.processCall call = some sys') : TableInv sys' := by
  cases call with
  | event e => exact h.step hstep
  | spawn unitName execPath args policy burstLimit burstIntervalS unitCtx forked =>
      cases forked with
      | error reason => exact h.noChild ⟨_, _, _, _, rfl⟩ hstep
      | ok pid =>
          exact h.addChild
            { trackedEntry pid unitName policy with
              burstLimit := burstLimit
              burstIntervalS := burstIntervalS }
            rfl ⟨_, _, _, _, rfl⟩ hstep
  | spawnWithSocketFds unitName execPath args env restart unitCtx forked =>
      cases forked with
      | error reason => exact h.noChild ⟨_, _, _, _, rfl⟩ hstep
      | ok pid => exact h.addChild (trackedEntry pid unitName _) rfl ⟨_, _, _, _, rfl⟩ hstep
  | trackProcess pid unitName restart =>
      exact h.addChild (trackedEntry pid unitName _) rfl (SameTables.refl _) hstep
  | onChildExit pid cb =>
      by_cases hguard : (sys.children.lookup pid).any ChildKind.isTracked = true
      · simp only [System.processCall, hguard, if_true, Option.some.injEq] at hstep
        obtain rfl := hstep
        -- A tracked child that has not been reaped is still in the table.
        have hmem : pid ∈ sys.init.processes := by
          cases hkind : sys.children.lookup pid with
          | none => simp [hkind] at hguard
          | some kind => exact (h.tracked pid).mpr ⟨kind, hkind, by simpa [hkind] using hguard⟩
        exact h.addCallback hmem rfl rfl rfl rfl
      · simp [System.processCall, hguard] at hstep
  | applyRestartCount pid unitName =>
      obtain rfl := Option.some.inj hstep
      unfold applyRestartCount
      cases sys.init.restartCounts.lookup unitName with
      | none => exact h
      | some counts =>
          exact h.retune pid
            (fun tp =>
              { tp with
                restartCount := counts.restartCount
                burstCount := counts.burstCount
                burstWindowStart := counts.burstWindowStart })
            (fun _ => ⟨rfl, rfl, rfl⟩) rfl rfl rfl rfl

/-- Every run of the main program keeps the invariant. -/
theorem run (h : TableInv sys) {es : List Event} (hrun : sys.run es = some sys') :
    TableInv sys' :=
  StepRun.run_invariant_of_step (fun _ _ _ h hstep => h.step hstep) h hrun

end TableInv

/-- After any calls in any order: table entries carry their own PID and run, the running count is
the number of tracked children, names point to processes of that name, and every exit callback
belongs to a tracked process. -/
theorem processCalls_table_consistent {sys sys' : System} {calls : List ProcessCall}
    (hboot : Booted sys) (hrun : StepRun.run System.processCall sys calls = some sys') :
    (∀ p tp, sys'.init.processes.lookup p = some tp → tp.pid = p ∧ tp.state = .running) ∧
      sys'.init.activeCount =
        UnorderedMap.countEntries (fun _ kind => kind.isTracked) sys'.children ∧
      (∀ n p, sys'.init.unitToPid.lookup n = some p →
        ∃ tp, sys'.init.processes.lookup p = some tp ∧ tp.unitName = n) ∧
      (∀ n n' p, sys'.init.unitToPid.lookup n = some p → sys'.init.unitToPid.lookup n' = some p →
        n = n') ∧
      ∀ p, p ∈ sys'.init.exitCallbacks → p ∈ sys'.init.processes := by
  have hinv : TableInv sys' :=
    StepRun.run_invariant_of_step (fun _ _ _ h hstep => TableInv.processCall h hstep)
      hboot.tableInv hrun
  exact ⟨hinv.entry, hinv.activeCount_eq, hinv.named, fun n n' p => hinv.injective, hinv.callback⟩

/-- The PID 100 is used again after its first owner was reaped. -/
def sampleCalls : List ProcessCall :=
  [ .spawn "web.service" "/bin/web" [] .always 5 10 {} (.ok 100),
    .trackProcess 101 "web.service" false,
    .onChildExit 101 (.connectionClosed "echo.socket"),
    .event (.reaped 100 (.exited 0) 7),
    .spawnWithSocketFds "web.service" "/bin/web" [] { fds := [5], names := ["echo.socket"] } true {}
      (.ok 100),
    .applyRestartCount 100 "web.service",
    .event (.stopUnit "web.service"),
    .event (.drainPendingRestarts 9) ]

theorem processCalls_table_consistent_sample :
    ∃ sys', StepRun.run System.processCall sampleBoot sampleCalls = some sys' ∧
      sys'.init.activeCount =
        UnorderedMap.countEntries (fun _ kind => kind.isTracked) sys'.children := by
  have hsome : (StepRun.run System.processCall sampleBoot sampleCalls).isSome = true := by
    decide
  rcases Option.isSome_iff_exists.mp hsome with ⟨sys', hrun⟩
  exact ⟨sys', hrun, (processCalls_table_consistent sampleBoot_booted hrun).2.1⟩

end TrivialInit
