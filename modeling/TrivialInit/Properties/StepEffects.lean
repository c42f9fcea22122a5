import TrivialInit.Properties.Effects

/-!
# StepEffects — what each event does to the system

The specifications of `Effects` with the children and the clock, one inversion lemma per event, the
induction rule for the loop of `process_restarts`, and the rule that an invariant kept by each kind
of change is kept by every event.
-/

namespace TrivialInit

open InitSystem

namespace System

/-- The kernel does not hand out the PID of an unreaped child. -/
theorem addChild_cases {sys sys' : System} {kind : ChildKind} {pid : Pid} {s : InitSystem}
    (h : sys.addChild kind (some pid, s) = some sys') :
    pid ∉ sys.children ∧
      sys' =
        { sys with
          init := s
          children := sys.children.insert pid kind } := by
  obtain ⟨hfresh, hnext⟩ := Option.ite_none_left_eq_some.mp h
  exact ⟨hfresh, (Option.some.inj hnext).symm⟩

/-! ## Starting one service -/

/-- `start_service` failed: no child and no table entry. -/
structure StartFailed (sys : System) (name : String) (unit : UnitFile) (os : StartAnswers)
    (sys' : System) : Prop where
  notStarted : startedPid name unit os = none
  tables : SameTables sys.init sys'.init
  children : sys'.children = sys.children
  clock : sys'.clock = sys.clock

/-- `start_service` forked the child `pid`. -/
structure Started (sys : System) (name : String) (unit : UnitFile) (os : StartAnswers) (pid : Pid)
    (sys' : System) : Prop where
  started : startedPid name unit os = some pid
  fresh : pid ∉ sys.children
  tables : SameTables (sys.init.recordStart name unit (some pid)) sys'.init
  children : sys'.children = sys.children.insert pid .service
  clock : sys'.clock = sys.clock

theorem startCommands_cases {sys sys' : System} {name : String} {unit : UnitFile}
    {os : StartAnswers} (h : sys.startCommands name unit os = some sys') :
    StartFailed sys name unit os sys' ∨ ∃ pid, Started sys name unit os pid sys' := by
  rcases startCommands_spec sys.init name unit os with ⟨hpid, htables⟩
  unfold System.startCommands at h
  generalize sys.init.startCommands name unit os = r at h hpid htables
  rcases r with ⟨pid?, s'⟩
  cases hp : startedPid name unit os with
  | none =>
      rw [hp] at hpid htables
      obtain rfl : pid? = none := hpid
      obtain rfl := Option.some.inj h
      exact Or.inl
        { notStarted := hp
          tables := htables
          children := rfl
          clock := rfl }
  | some pid =>
      rw [hp] at hpid htables
      obtain rfl : pid? = some pid := hpid
      obtain ⟨hfresh, rfl⟩ := addChild_cases h
      exact Or.inr ⟨pid,
        { started := hp
          fresh := hfresh
          tables := htables
          children := rfl
          clock := rfl }⟩

/-- The block on `RuntimeDirectory=` writes no table. -/
theorem startService_eq_some {sys sys' : System} {name : String} {unit : UnitFile}
    {os : StartAnswers} (h : sys.startService name unit os = some sys') :
    ∃ s, sys.init.createRuntimeDirectory unit os.passwd os.group = some s ∧
      { sys with init := s }.startCommands name unit os = some sys' := by
  obtain ⟨r, hr, hadd⟩ := Option.bind_eq_some_iff.mp h
  obtain ⟨s, hs, rfl⟩ := InitSystem.startService_eq_some hr
  refine ⟨s, hs, ?_⟩
  -- `addChild` puts the object of the result in the place of that of the system.
  rw [← hadd]
  unfold System.startCommands
  rcases s.startCommands name unit os with ⟨_ | pid, s'⟩ <;> rfl

theorem startService_cases {sys sys' : System} {name : String} {unit : UnitFile}
    {os : StartAnswers} (h : sys.startService name unit os = some sys') :
    StartFailed sys name unit os sys' ∨ ∃ pid, Started sys name unit os pid sys' := by
  obtain ⟨s, hs, hstart⟩ := startService_eq_some h
  have hsame := sameTables_of_createRuntimeDirectory hs
  rcases startCommands_cases hstart with hfailed | ⟨pid, hstarted⟩
  · exact Or.inl { hfailed with tables := hsame.trans hfailed.tables }
  · exact Or.inr ⟨pid,
      { hstarted with
        tables := (hsame.recordStart name unit (some pid)).trans hstarted.tables }⟩

namespace Started

variable {sys sys' : System} {name : String} {unit : UnitFile} {os : StartAnswers} {pid : Pid}

theorem lookup_processes (h : Started sys name unit os pid sys') (p : Pid) :
    sys'.init.processes.lookup p =
      if p = pid then some (sys.init.startedProcess name unit pid)
      else sys.init.processes.lookup p := by
  rw [h.tables.processes]
  simp only [recordStart, InitSystem.enter, startedProcess_pid, UnorderedMap.lookup_insert_eq]

theorem pendingRestarts (h : Started sys name unit os pid sys') :
    sys'.init.pendingRestarts = sys.init.pendingRestarts :=
  h.tables.pendingRestarts

theorem restartCounts (h : Started sys name unit os pid sys') :
    sys'.init.restartCounts = sys.init.restartCounts.erase name :=
  h.tables.restartCounts

theorem units (h : Started sys name unit os pid sys') : sys'.init.units = sys.init.units :=
  h.tables.units

end Started

/-! ## Accepting a connection -/

/-- `accept_ready` forked no child. -/
structure NotAccepted (sys sys' : System) : Prop where
  tables : ∃ socketUnits, SameTables { sys.init with socketUnits := socketUnits } sys'.init
  socketUnit : ∀ n, sys'.init.socketUnit n = sys.init.socketUnit n
  children : sys'.children = sys.children
  clock : sys'.clock = sys.clock

/-- `accept_ready` forked the child `pid` for a connection of `socket`. -/
structure Accepted (sys : System) (listenFd : Int) (os : AcceptAnswers) (socket svc : String)
    (pid : Pid) (sys' : System) : Prop where
  listening : sys.init.fdToSocket.lookup listenFd = some socket
  service : svc = sys.init.resolvePair (sys.init.socketUnit socket)
  loaded : (sys.init.findUnit svc).isSome
  forked : os.forked = .ok pid
  capacity : hasCapacity (sys.init.socketUnit socket)
  fresh : pid ∉ sys.children
  tables : ∃ socketUnits,
    SameTables { sys.init.recordConnection socket svc pid with socketUnits := socketUnits }
      sys'.init
  socketUnit : ∀ n, sys'.init.socketUnit n =
    if n = socket then
      { sys.init.socketUnit socket with
        activeConnections := (sys.init.socketUnit socket).activeConnections + 1 }
    else sys.init.socketUnit n
  children : sys'.children = sys.children.insert pid (.connection socket)
  clock : sys'.clock = sys.clock

namespace NotAccepted

variable {sys sys' : System}

theorem units (h : NotAccepted sys sys') : sys'.init.units = sys.init.units := by
  rcases h.tables with ⟨socketUnits, htables⟩
  exact htables.units

theorem processes (h : NotAccepted sys sys') : sys'.init.processes = sys.init.processes := by
  rcases h.tables with ⟨socketUnits, htables⟩
  exact htables.processes

theorem unitToPid (h : NotAccepted sys sys') : sys'.init.unitToPid = sys.init.unitToPid := by
  rcases h.tables with ⟨socketUnits, htables⟩
  exact htables.unitToPid

theorem exitCallbacks (h : NotAccepted sys sys') :
    sys'.init.exitCallbacks = sys.init.exitCallbacks := by
  rcases h.tables with ⟨socketUnits, htables⟩
  exact htables.exitCallbacks

theorem pendingRestarts (h : NotAccepted sys sys') :
    sys'.init.pendingRestarts = sys.init.pendingRestarts := by
  rcases h.tables with ⟨socketUnits, htables⟩
  exact htables.pendingRestarts

theorem restartCounts (h : NotAccepted sys sys') :
    sys'.init.restartCounts = sys.init.restartCounts := by
  rcases h.tables with ⟨socketUnits, htables⟩
  exact htables.restartCounts

end NotAccepted

namespace Accepted

variable {sys sys' : System} {listenFd : Int} {os : AcceptAnswers} {socket svc : String} {pid : Pid}

theorem units (h : Accepted sys listenFd os socket svc pid sys') :
    sys'.init.units = sys.init.units := by
  rcases h.tables with ⟨socketUnits, htables⟩
  exact htables.units

theorem unitToPid (h : Accepted sys listenFd os socket svc pid sys') :
    sys'.init.unitToPid = sys.init.unitToPid.insert svc pid := by
  rcases h.tables with ⟨socketUnits, htables⟩
  exact htables.unitToPid

theorem exitCallbacks (h : Accepted sys listenFd os socket svc pid sys') :
    sys'.init.exitCallbacks = sys.init.exitCallbacks.insert pid (.connectionClosed socket) := by
  rcases h.tables with ⟨socketUnits, htables⟩
  exact htables.exitCallbacks

theorem pendingRestarts (h : Accepted sys listenFd os socket svc pid sys') :
    sys'.init.pendingRestarts = sys.init.pendingRestarts := by
  rcases h.tables with ⟨socketUnits, htables⟩
  exact htables.pendingRestarts

theorem restartCounts (h : Accepted sys listenFd os socket svc pid sys') :
    sys'.init.restartCounts = sys.init.restartCounts := by
  rcases h.tables with ⟨socketUnits, htables⟩
  exact htables.restartCounts

theorem processes (h : Accepted sys listenFd os socket svc pid sys') :
    sys'.init.processes = sys.init.processes.insert pid (trackedEntry pid svc .no) := by
  rcases h.tables with ⟨socketUnits, htables⟩
  exact htables.processes

theorem lookup_processes (h : Accepted sys listenFd os socket svc pid sys') (p : Pid) :
    sys'.init.processes.lookup p =
      if p = pid then some (trackedEntry pid svc .no) else sys.init.processes.lookup p := by
  rw [h.processes, UnorderedMap.lookup_insert_eq]

end Accepted

theorem acceptReady_cases {sys sys' : System} {listenFd : Int} {os : AcceptAnswers}
    (h : sys.step (.acceptReady listenFd os) = some sys') :
    sys'.init.fds = sys.init.fds ∧
      (NotAccepted sys sys' ∨
        ∃ socket svc pid, Accepted sys listenFd os socket svc pid sys') := by
  by_cases hpossible : sys.acceptPossible os
  · have hfds := acceptReady_fds sys.init listenFd os hpossible
    have hspec := acceptReady_spec sys.init listenFd os
    -- The call forked no child, or the one that its specification describes.
    simp only [step, hpossible, if_true, acceptSocket] at h
    generalize sys.init.acceptReady listenFd os = r at h hfds hspec
    rcases r with ⟨pid?, s'⟩
    rcases hspec with ⟨hnone, socketUnits, htables, hsocks⟩ |
      ⟨socket, pid, unit, socketUnits, hlisten, hforked, hunit, hcap, hpid, htables, hsocks⟩
    · obtain rfl : pid? = none := hnone
      obtain rfl := Option.some.inj h
      refine ⟨hfds, Or.inl ?_⟩
      exact
        { tables := ⟨socketUnits, htables⟩
          socketUnit := by
            rcases htables with ⟨_, _, _, _, rfl⟩
            exact hsocks
          children := rfl
          clock := rfl }
    · obtain rfl : pid? = some pid := hpid
      rw [hlisten, Option.getD_some] at h
      obtain ⟨hfresh, rfl⟩ := addChild_cases h
      refine ⟨hfds, Or.inr ⟨socket, sys.init.resolvePair (sys.init.socketUnit socket), pid, ?_⟩⟩
      exact
        { listening := hlisten
          service := rfl
          loaded := by rw [hunit]; rfl
          forked := hforked
          capacity := hcap
          fresh := hfresh
          tables := ⟨socketUnits, htables⟩
          socketUnit := by
            rcases htables with ⟨_, _, _, _, rfl⟩
            exact hsocks
          children := rfl
          clock := rfl }
  · simp [step, hpossible] at h

/-! ## The other events -/

/-- Nothing but the journal and the descriptor table differs. -/
structure SameSystem (sys sys' : System) : Prop where
  tables : SameTables sys.init sys'.init
  children : sys'.children = sys.children
  clock : sys'.clock = sys.clock

theorem StartFailed.sameSystem {sys sys' : System} {name : String} {unit : UnitFile}
    {os : StartAnswers} (h : StartFailed sys name unit os sys') : SameSystem sys sys' where
  tables := h.tables
  children := h.children
  clock := h.clock

theorem SameSystem.refl (sys : System) : SameSystem sys sys where
  tables := SameTables.refl sys.init
  children := rfl
  clock := rfl

theorem SameSystem.trans {sys sys₁ sys₂ : System} (h : SameSystem sys sys₁)
    (h' : SameSystem sys₁ sys₂) : SameSystem sys sys₂ where
  tables := h.tables.trans h'.tables
  children := h'.children.trans h.children
  clock := h'.clock.trans h.clock

theorem sameSystem_log (sys : System) (level : LogLevel) (source message : String) :
    SameSystem sys { sys with init := sys.init.log level source message } where
  tables := sameTables_log sys.init level source message
  children := rfl
  clock := rfl

theorem startMount_spec (s : InitSystem) (name : String) (unit : UnitFile) (os : MountAnswers) :
    SameTables s (s.startMount name unit os) := by
  unfold startMount
  dsimp only
  split_ifs
  · exact sameTables_log s _ _ _
  · exact sameTables_log s _ _ _
  · cases os.mountError with
    | none => exact sameTables_log s _ _ _
    | some reason => exact (sameTables_log s _ _ _).trans (sameTables_log _ _ _ _)

/-- `execute(UnitExecute)` writes tables only by starting a loaded service. -/
theorem executeUnit_cases {sys sys' : System} {name : String} {os : ExecuteAnswers}
    (h : sys.step (.executeUnit name os) = some sys') :
    SameSystem sys sys' ∨ ∃ unit, findService sys.init name = some unit ∧
      sys.startService name unit os.start = some sys' := by
  simp only [step, executeUnit] at h
  cases hfind : sys.init.findUnit name with
  | none =>
      rw [hfind] at h
      obtain rfl := Option.some.inj h
      exact Or.inl (SameSystem.refl sys)
  | some unit =>
      simp only [hfind] at h
      -- A template, a failed condition and every type but `service` only write the journal.
      cases htemplate : unit.isBareTemplate with
      | true =>
        simp only [htemplate, if_true] at h
        obtain rfl := Option.some.inj h
        exact Or.inl (sameSystem_log sys _ _ _)
      | false =>
        simp only [htemplate, Bool.false_eq_true, if_false] at h
        split_ifs at h
        split at h
        · obtain rfl := Option.some.inj h
          exact Or.inl (sameSystem_log sys _ _ _)
        · obtain rfl := Option.some.inj h
          exact Or.inl (sameSystem_log sys _ _ _)
        · cases htype : unit.type with
          | service =>
              rw [htype] at h
              refine Or.inr ⟨unit, ?_, h⟩
              simp [findService, hfind, htype]
          | mount =>
              rw [htype] at h
              obtain rfl := Option.some.inj h
              exact Or.inl
                { tables := startMount_spec sys.init name unit os.mount
                  children := rfl
                  clock := rfl }
          | target =>
              rw [htype] at h
              obtain rfl := Option.some.inj h
              exact Or.inl (sameSystem_log sys _ _ _)
          | socket =>
              rw [htype] at h
              obtain rfl := Option.some.inj h
              exact Or.inl (sameSystem_log sys _ _ _)
          | unknown =>
              rw [htype] at h
              obtain rfl := Option.some.inj h
              exact Or.inl (sameSystem_log sys _ _ _)

structure Reaped (sys : System) (pid : Pid) (status : WaitStatus) (now : TimePoint)
    (sys' : System) : Prop where
  child : pid ∈ sys.children
  forward : sys.clock ≤ now
  tables : SameTables (sys.init.recordExit pid status now) sys'.init
  children : sys'.children = sys.children.erase pid
  clock : sys'.clock = now

namespace Reaped

variable {sys sys' : System} {pid : Pid} {status : WaitStatus} {now : TimePoint}

theorem processes (h : Reaped sys pid status now sys') :
    sys'.init.processes = sys.init.processes.erase pid := by
  rw [h.tables.processes]
  simp only [recordExit, fireExitCallback_eq]

theorem lookup_processes (h : Reaped sys pid status now sys') (p : Pid) :
    sys'.init.processes.lookup p = if p = pid then none else sys.init.processes.lookup p := by
  rw [h.processes, UnorderedMap.lookup_erase_eq]

theorem pendingRestarts (h : Reaped sys pid status now sys') {tp : TrackedProcess}
    (htp : sys.init.processes.lookup pid = some tp) :
    sys'.init.pendingRestarts =
      sys.init.pendingRestarts ++ (exitOutcome tp status now).pending := by
  rw [h.tables.pendingRestarts]
  simp only [recordExit, fireExitCallback_eq, htp]

theorem pendingRestarts_of_untracked (h : Reaped sys pid status now sys')
    (hnone : sys.init.processes.lookup pid = none) :
    sys'.init.pendingRestarts = sys.init.pendingRestarts := by
  rw [h.tables.pendingRestarts]
  simp only [recordExit, fireExitCallback_eq, hnone]

theorem restartCounts (h : Reaped sys pid status now sys') :
    sys'.init.restartCounts = sys.init.restartCounts := by
  rw [h.tables.restartCounts]
  simp only [recordExit, fireExitCallback_eq]

theorem exitCallbacks (h : Reaped sys pid status now sys') :
    sys'.init.exitCallbacks = sys.init.exitCallbacks.erase pid := by
  rw [h.tables.exitCallbacks]
  simp only [recordExit, fireExitCallback_eq]

theorem unitToPid (h : Reaped sys pid status now sys') :
    sys'.init.unitToPid =
      match sys.init.processes.lookup pid with
      | none => sys.init.unitToPid
      | some tp => sys.init.unitToPid.erase tp.unitName := by
  rw [h.tables.unitToPid]
  cases htp : sys.init.processes.lookup pid <;>
    simp only [recordExit, fireExitCallback_eq, htp]

theorem units (h : Reaped sys pid status now sys') : sys'.init.units = sys.init.units := by
  rw [h.tables.units]
  simp only [recordExit, fireExitCallback_eq]

end Reaped

theorem reaped_cases {sys sys' : System} {pid : Pid} {status : WaitStatus} {now : TimePoint}
    (h : sys.step (.reaped pid status now) = some sys') : Reaped sys pid status now sys' := by
  obtain ⟨hguard, hnext⟩ := Option.ite_none_right_eq_some.mp h
  obtain rfl := Option.some.inj hnext
  exact
    { child := hguard.1
      forward := hguard.2
      tables := reapChild_spec sys.init pid status now
      children := rfl
      clock := rfl }

theorem drain_cases {sys sys' : System} {now : TimePoint}
    (h : sys.step (.drainPendingRestarts now) = some sys') :
    sys.clock ≤ now ∧
      sys' =
        { sys with
          init := (sys.init.drainPendingRestarts now).2
          clock := now } := by
  obtain ⟨hguard, hnext⟩ := Option.ite_none_right_eq_some.mp h
  exact ⟨hguard, (Option.some.inj hnext).symm⟩

theorem processRestarts_cases {sys sys' : System} {now : TimePoint} {os : Nat → StartAnswers}
    (h : sys.step (.processRestarts now os) = some sys') :
    sys.clock ≤ now ∧
      restartAll (sys.init.drainPendingRestarts now).1 os
        { sys with
          init := (sys.init.drainPendingRestarts now).2
          clock := now } = some sys' := by
  exact Option.ite_none_right_eq_some.mp h

theorem stop_cases {sys sys' : System} {name : String}
    (h : sys.step (.stopUnit name) = some sys') :
    SameTables (sys.init.recordStop name) sys'.init ∧ sys'.children = sys.children ∧
      sys'.clock = sys.clock := by
  obtain rfl := Option.some.inj h
  exact ⟨stopUnit_spec sys.init name, rfl, rfl⟩

/-- The stop takes the restart policy away from the process the name points to. -/
theorem lookup_processes_of_stop {sys sys' : System} {name : String}
    (h : sys.step (.stopUnit name) = some sys') (p : Pid) :
    sys'.init.processes.lookup p =
      if sys.init.unitToPid.lookup name = some p then
        (sys.init.processes.lookup p).map (fun tp => { tp with restartPolicy := .no })
      else sys.init.processes.lookup p := by
  rw [(stop_cases h).1.processes]
  simp only [recordStop]
  cases sys.init.unitToPid.lookup name with
  | none => simp
  | some pid =>
      simp only [UnorderedMap.lookup_modify, Option.some.injEq]
      by_cases heq : p = pid
      · subst heq
        simp
      · simp [heq, Ne.symm heq]

theorem queue_cases {sys sys' : System} {name : String} {now : TimePoint}
    (h : sys.step (.queueRestart name now) = some sys') :
    sys.clock ≤ now ∧
      sys' =
        { sys with
          init := sys.init.queueRestart name now
          clock := now } := by
  obtain ⟨hguard, hnext⟩ := Option.ite_none_right_eq_some.mp h
  exact ⟨hguard, (Option.some.inj hnext).symm⟩

theorem adopt_cases {sys sys' : System} {pid : Pid} (h : sys.step (.adopt pid) = some sys') :
    pid ∉ sys.children ∧ sys' = { sys with children := sys.children.insert pid .orphan } := by
  obtain ⟨hguard, hnext⟩ := Option.ite_none_left_eq_some.mp h
  exact ⟨hguard, (Option.some.inj hnext).symm⟩

/-! ## The loop of `process_restarts` -/

/-- One iteration either skips the name, or calls `start_service` with a loaded service.  `Inv`
relates the names that are still due to the state. -/
theorem restartAll_invariant (Inv : List String → System → Prop)
    (hsame : ∀ {ready sys sys'}, Inv ready sys → SameSystem sys sys' → Inv ready sys')
    (hskip : ∀ {name rest sys}, Inv (name :: rest) sys → findService sys.init name = none →
      Inv rest sys)
    (hstart : ∀ {name rest sys sys' unit} (os : StartAnswers), Inv (name :: rest) sys →
      findService sys.init name = some unit → sys.startService name unit os = some sys' →
      Inv rest sys')
    {ready : List String} {os : Nat → StartAnswers} {sys sys' : System} (hinv : Inv ready sys)
    (hrun : restartAll ready os sys = some sys') : Inv [] sys' := by
  induction ready generalizing os sys with
  | nil =>
      obtain rfl := Option.some.inj hrun
      exact hinv
  | cons name rest ih =>
      unfold restartAll at hrun
      cases hfind : findService sys.init name with
      | none =>
          rw [hfind] at hrun
          exact ih (hskip hinv hfind) hrun
      | some unit =>
          rw [hfind] at hrun
          rcases Option.bind_eq_some_iff.mp hrun with ⟨sys₁, hsys₁, hrest⟩
          exact ih (hstart (os 0) (hsame hinv (sameSystem_log sys _ _ _)) hfind hsys₁) hrest

/-! ## What every event keeps -/

/-- An invariant that no kind of change breaks. -/
structure Kept (Inv : System → Prop) : Prop where
  same : ∀ {sys sys'}, Inv sys → SameSystem sys sys' → Inv sys'
  startService : ∀ {sys sys' name unit os}, Inv sys → sys.startService name unit os = some sys' →
    Inv sys'
  notAccepted : ∀ {sys sys'}, Inv sys → NotAccepted sys sys' → Inv sys'
  accepted : ∀ {sys sys' listenFd os socket svc pid}, Inv sys →
    Accepted sys listenFd os socket svc pid sys' → Inv sys'
  reaped : ∀ {sys sys' pid status now}, Inv sys → Reaped sys pid status now sys' → Inv sys'
  drained : ∀ {sys} now, Inv sys →
    Inv
      { sys with
        init := (sys.init.drainPendingRestarts now).2
        clock := now }
  stopped : ∀ {sys sys' name}, Inv sys → sys.step (.stopUnit name) = some sys' → Inv sys'
  queued : ∀ {sys} name now, Inv sys →
    Inv
      { sys with
        init := sys.init.queueRestart name now
        clock := now }
  adopted : ∀ {sys pid}, Inv sys → pid ∉ sys.children →
    Inv { sys with children := sys.children.insert pid .orphan }

/-- Every event keeps it. -/
theorem Kept.step {Inv : System → Prop} (hkept : Kept Inv) {sys sys' : System} (h : Inv sys)
    {e : Event} (hstep : sys.step e = some sys') : Inv sys' := by
  cases e with
  | executeUnit name os =>
      rcases executeUnit_cases hstep with hsame | ⟨unit, -, hstart⟩
      · exact hkept.same h hsame
      · exact hkept.startService h hstart
  | reaped pid status now => exact hkept.reaped h (reaped_cases hstep)
  | acceptReady listenFd os =>
      rcases acceptReady_cases hstep with ⟨-, hnone | ⟨socket, svc, pid, hacc⟩⟩
      · exact hkept.notAccepted h hnone
      · exact hkept.accepted h hacc
  | processRestarts now os =>
      -- The queue is drained first; then every iteration of the loop starts a service.
      rcases processRestarts_cases hstep with ⟨-, hrun⟩
      exact restartAll_invariant (fun _ sys => Inv sys) hkept.same (fun h _ => h)
        (fun _ h _ hstart => hkept.startService h hstart) (hkept.drained now h) hrun
  | drainPendingRestarts now =>
      rcases drain_cases hstep with ⟨-, rfl⟩
      exact hkept.drained now h
  | stopUnit name => exact hkept.stopped h hstep
  | queueRestart name now =>
      rcases queue_cases hstep with ⟨-, rfl⟩
      exact hkept.queued name now h
  | adopt pid =>
      rcases adopt_cases hstep with ⟨hfresh, rfl⟩
      exact hkept.adopted h hfresh

/-! ## Loops as runs -/

/-- `execute(UnitExecute)` is a run of its iterations. -/
theorem executeUnits_eq_run (names : List String) (os : Nat → ExecuteAnswers) (k : Nat)
    (sys : System) :
    executeUnits names (fun i => os (k + i)) sys =
      sys.run ((names.zipIdx k).map (fun p => Event.executeUnit p.1 (os p.2))) := by
  induction names generalizing k sys with
  | nil =>
      rfl
  | cons name names ih =>
      have hnext : ∀ sys₁ : System, executeUnits names (fun i => os (k + (i + 1))) sys₁ =
          sys₁.run ((names.zipIdx (k + 1)).map (fun p => Event.executeUnit p.1 (os p.2))) := by
        intro sys₁
        rw [← ih (k + 1) sys₁]
        congr 1
        funext i
        congr 1
        omega
      calc
        executeUnits (name :: names) (fun i => os (k + i)) sys
            = (sys.executeUnit name (os k)).bind
                (executeUnits names (fun i => os (k + (i + 1)))) := rfl
        _ = (sys.executeUnit name (os k)).bind (fun sys₁ =>
              sys₁.run ((names.zipIdx (k + 1)).map (fun p => Event.executeUnit p.1 (os p.2)))) := by
            congr 1
            funext sys₁
            exact hnext sys₁
        _ = sys.run (((name :: names).zipIdx k).map
              (fun p => Event.executeUnit p.1 (os p.2))) := rfl

/-- `reap_children` is a run of its iterations. -/
theorem reapChildren_of_run {answers : List (Pid × WaitStatus × TimePoint)} {sys sys' : System}
    (hrun : sys.run (answers.map (fun a => Event.reaped a.1 a.2.1 a.2.2)) = some sys') :
    sys'.init = sys.init.reapChildren answers := by
  induction answers generalizing sys with
  | nil =>
      obtain rfl := Option.some.inj hrun
      rfl
  | cons a answers ih =>
      rcases StepRun.run_cons_eq_some.mp hrun with ⟨sys₁, hstep, hrest⟩
      obtain ⟨-, hnext⟩ := Option.ite_none_right_eq_some.mp hstep
      obtain rfl := Option.some.inj hnext
      exact ih hrest

end System

end TrivialInit
