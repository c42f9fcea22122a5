import TrivialInit.Properties.ProgramStates

/-!
# Configuration — the process table follows the unit files

At every place of every run, what the table says about a main process is what the unit file of its
service says, until the shutdown has stopped the service; a process that serves a connection is never
restarted; and only services whose `Restart=` asks for it are queued or about to be restarted
(`RunState.follows_configuration`).
-/

namespace TrivialInit

open InitSystem

variable {units : UnorderedMap String UnitFile} {sys sys' : System}

/-! ## Entries and unit files -/

def IsService (units : UnorderedMap String UnitFile) (name : String) (unit : UnitFile) : Prop :=
  units.lookup name = some unit ∧ unit.type = .service

theorem isService_of_findService {s : InitSystem} {name : String} {unit : UnitFile}
    (h : System.findService s name = some unit) : IsService s.units name unit := by
  obtain ⟨hfind, htype⟩ := Option.filter_eq_some_iff.mp h
  exact ⟨hfind, of_decide_eq_true htype⟩

/-- A service that asks to be restarted. -/
def Restartable (units : UnorderedMap String UnitFile) (name : String) : Prop :=
  ∃ unit, IsService units name unit ∧ parseRestartPolicy unit.restartPolicy ≠ .no

/-- The policy of an entry is the one of its service, unless it has been taken away by a stop; `stopped`
are the names for which `stop_unit` has been called. -/
def FollowsPolicy (stopped : String → Prop) (unit : UnitFile) (tp : TrackedProcess) : Prop :=
  tp.restartPolicy = parseRestartPolicy unit.restartPolicy ∨
    stopped tp.unitName ∧ tp.restartPolicy = .no

/-- The entry of a main process has the settings of its service. -/
def FollowsUnit (units : UnorderedMap String UnitFile) (stopped : String → Prop)
    (tp : TrackedProcess) : Prop :=
  ∃ unit, IsService units tp.unitName unit ∧ tp.burstLimit = unit.restartLimitBurst ∧
    tp.burstIntervalS = unit.restartLimitInterval ∧ FollowsPolicy stopped unit tp

variable {stopped stopped' : String → Prop}

theorem FollowsUnit.mono {tp : TrackedProcess} (h : FollowsUnit units stopped tp)
    (hmono : ∀ n, stopped n → stopped' n) : FollowsUnit units stopped' tp := by
  obtain ⟨unit, hunit, hlimit, hinterval, hpolicy⟩ := h
  exact ⟨unit, hunit, hlimit, hinterval, hpolicy.imp_right (And.imp_left (hmono _))⟩

theorem FollowsUnit.stop {tp : TrackedProcess} (h : FollowsUnit units stopped tp)
    (hstopped : stopped tp.unitName) :
    FollowsUnit units stopped { tp with restartPolicy := .no } := by
  obtain ⟨unit, hunit, hlimit, hinterval, -⟩ := h
  exact ⟨unit, hunit, hlimit, hinterval, Or.inr ⟨hstopped, rfl⟩⟩

theorem followsUnit_startedProcess {s : InitSystem} {name : String} {unit : UnitFile}
    (hunit : IsService units name unit) (pid : Pid) :
    FollowsUnit units stopped (s.startedProcess name unit pid) := by
  refine ⟨unit, ?_, ?_, ?_, Or.inl ?_⟩
  · rwa [startedProcess_unitName]
  · exact TrackedProcess.withCounts_burstLimit _ _
  · exact TrackedProcess.withCounts_burstIntervalS _ _
  · exact TrackedProcess.withCounts_restartPolicy _ _

/-- A restart is only scheduled when the policy asks for one. -/
theorem restartable_of_scheduled {tp : TrackedProcess} (h : FollowsUnit units stopped tp)
    {status : WaitStatus} {now : TimePoint} {pr : PendingRestart}
    (hpr : pr ∈ (exitOutcome tp status now).pending) : Restartable units pr.unitName := by
  obtain ⟨rfl, hscheduled⟩ := pending_exitOutcome hpr
  obtain ⟨unit, hunit, -, -, hpolicy⟩ := h
  rw [unitName_pendingRestart]
  have hasks : tp.restartPolicy ≠ .no := by
    intro hno
    rw [exitOutcome_of_policy_no hno] at hscheduled
    nomatch hscheduled
  exact ⟨unit, hunit, hpolicy.resolve_right (fun hstop => hasks hstop.2) ▸ hasks⟩

/-! ## The main processes -/

/-- The entries of the main processes follow the unit files. -/
def MainEntries (units : UnorderedMap String UnitFile) (stopped : String → Prop) (sys : System) :
    Prop :=
  ∀ p tp, sys.children.lookup p = some .service → sys.init.processes.lookup p = some tp →
    FollowsUnit units stopped tp

namespace MainEntries

theorem congr (h : MainEntries units stopped sys)
    (hchildren : ∀ p, sys'.children.lookup p = some .service →
      sys.children.lookup p = some .service)
    (hprocesses : sys'.init.processes = sys.init.processes) : MainEntries units stopped sys' :=
  fun p tp hkind hp => h p tp (hchildren p hkind) (hprocesses ▸ hp)

theorem same (h : MainEntries units stopped sys) (hsame : System.SameSystem sys sys') :
    MainEntries units stopped sys' :=
  h.congr (fun _ hkind => hsame.children ▸ hkind) hsame.tables.processes

theorem mono (h : MainEntries units stopped sys) (hmono : ∀ n, stopped n → stopped' n) :
    MainEntries units stopped' sys :=
  fun p tp hkind hp => (h p tp hkind hp).mono hmono

theorem startService (h : MainEntries units stopped sys) {name : String} {unit : UnitFile}
    {os : StartAnswers} (hunit : IsService units name unit)
    (hstart : sys.startService name unit os = some sys') : MainEntries units stopped sys' := by
  rcases System.startService_cases hstart with hfailed | ⟨pid, hstarted⟩
  · exact h.same hfailed.sameSystem
  · intro p tp hkind hp
    rw [hstarted.children, UnorderedMap.lookup_insert_eq] at hkind
    rw [hstarted.lookup_processes] at hp
    split_ifs at hkind hp with heq
    · obtain rfl := Option.some.inj hp
      exact followsUnit_startedProcess hunit pid
    · exact h p tp hkind hp

theorem accepted (h : MainEntries units stopped sys) {listenFd : Int} {os : AcceptAnswers}
    {socket svc : String} {pid : Pid}
    (hacc : System.Accepted sys listenFd os socket svc pid sys') :
    MainEntries units stopped sys' := by
  intro p tp hkind hp
  rw [hacc.children, UnorderedMap.lookup_insert_eq] at hkind
  rw [hacc.lookup_processes] at hp
  split_ifs at hkind hp with heq
  · nomatch hkind
  · exact h p tp hkind hp

theorem reaped (h : MainEntries units stopped sys) {pid : Pid} {status : WaitStatus}
    {now : TimePoint} (hreaped : System.Reaped sys pid status now sys') :
    MainEntries units stopped sys' := by
  intro p tp hkind hp
  rw [hreaped.children, UnorderedMap.lookup_erase_eq] at hkind
  rw [hreaped.lookup_processes] at hp
  split_ifs at hkind hp with heq
  exact h p tp hkind hp

/-- The stop takes the policy away from the process of the name. -/
theorem stop (h : MainEntries units stopped sys) (htable : TableInv sys) {name : String}
    (hstopped : stopped name) (hstep : sys.step (.stopUnit name) = some sys') :
    MainEntries units stopped sys' := by
  obtain ⟨-, hchildren, -⟩ := System.stop_cases hstep
  intro p tp hkind hp
  rw [hchildren] at hkind
  rw [System.lookup_processes_of_stop hstep] at hp
  split_ifs at hp with hnamed
  · obtain ⟨tp₀, hp₀, rfl⟩ := Option.map_eq_some_iff.mp hp
    obtain ⟨tp₁, hp₁, hname⟩ := htable.named name p hnamed
    obtain rfl := Option.some.inj (hp₀.symm.trans hp₁)
    exact (h p tp₀ hkind hp₀).stop (hname ▸ hstopped)
  · exact h p tp hkind hp

end MainEntries

/-! ## The invariant -/

structure Configured (units : UnorderedMap String UnitFile) (stopped : String → Prop)
    (sys : System) : Prop where
  table : TableInv sys
  loaded : sys.init.units = units
  main : MainEntries units stopped sys
  connection : ∀ p tp socket, sys.children.lookup p = some (.connection socket) →
    sys.init.processes.lookup p = some tp → tp.restartPolicy = .no ∧ tp.unitName ∈ units
  pending : ∀ pr ∈ sys.init.pendingRestarts, Restartable units pr.unitName

namespace Configured

/-- The tables the invariant reads are the same. -/
theorem congr (h : Configured units stopped sys) (htable : TableInv sys')
    (hunits : sys'.init.units = sys.init.units)
    (hchildren : ∀ p kind, sys'.children.lookup p = some kind → kind.isTracked = true →
      sys.children.lookup p = some kind)
    (hprocesses : sys'.init.processes = sys.init.processes)
    (hpending : sys'.init.pendingRestarts = sys.init.pendingRestarts) : Configured units stopped sys' where
  table := htable
  loaded := hunits.trans h.loaded
  main := h.main.congr (fun p hkind => hchildren p _ hkind rfl) hprocesses
  connection p tp socket hkind hp :=
    h.connection p tp socket (hchildren p _ hkind rfl) (hprocesses ▸ hp)
  pending := hpending ▸ h.pending

theorem same (h : Configured units stopped sys) (hsame : System.SameSystem sys sys') :
    Configured units stopped sys' :=
  h.congr (h.table.sameSystem hsame) hsame.tables.units
    (fun _ _ hkind _ => hsame.children ▸ hkind) hsame.tables.processes hsame.tables.pendingRestarts

theorem startService (h : Configured units stopped sys) {name : String} {unit : UnitFile}
    {os : StartAnswers} (hfind : System.findService sys.init name = some unit)
    (hstart : sys.startService name unit os = some sys') : Configured units stopped sys' := by
  rcases System.startService_cases hstart with hfailed | ⟨pid, hstarted⟩
  · exact h.same hfailed.sameSystem
  · have hunit : IsService units name unit := h.loaded ▸ isService_of_findService hfind
    exact
      { table := h.table.startService hstart
        loaded := hstarted.units.trans h.loaded
        main := h.main.startService hunit hstart
        connection := by
          intro p tp socket hkind hp
          rw [hstarted.children, UnorderedMap.lookup_insert_eq] at hkind
          rw [hstarted.lookup_processes] at hp
          split_ifs at hkind hp with heq
          · nomatch hkind
          · exact h.connection p tp socket hkind hp
        pending := hstarted.pendingRestarts ▸ h.pending }

theorem accepted (h : Configured units stopped sys) {listenFd : Int} {os : AcceptAnswers}
    {socket svc : String} {pid : Pid}
    (hacc : System.Accepted sys listenFd os socket svc pid sys') : Configured units stopped sys' where
  table := h.table.accepted hacc
  loaded := hacc.units.trans h.loaded
  main := h.main.accepted hacc
  connection := by
    intro p tp socket' hkind hp
    rw [hacc.children, UnorderedMap.lookup_insert_eq] at hkind
    rw [hacc.lookup_processes] at hp
    split_ifs at hkind hp with heq
    · obtain rfl := Option.some.inj hp
      refine ⟨rfl, ?_⟩
      have hsome : (sys.init.units.lookup svc).isSome := hacc.loaded
      rw [h.loaded] at hsome
      exact AList.lookup_isSome.mp hsome
    · exact h.connection p tp socket' hkind hp
  pending := hacc.pendingRestarts ▸ h.pending

theorem reaped (h : Configured units stopped sys) {pid : Pid} {status : WaitStatus} {now : TimePoint}
    (hreaped : System.Reaped sys pid status now sys') : Configured units stopped sys' where
  table := h.table.reaped hreaped
  loaded := hreaped.units.trans h.loaded
  main := h.main.reaped hreaped
  connection := by
    intro p tp socket hkind hp
    rw [hreaped.children, UnorderedMap.lookup_erase_eq] at hkind
    rw [hreaped.lookup_processes] at hp
    split_ifs at hkind hp with heq
    exact h.connection p tp socket hkind hp
  pending := by
    intro pr hpr
    cases htp : sys.init.processes.lookup pid with
    | none =>
        rw [hreaped.pendingRestarts_of_untracked htp] at hpr
        exact h.pending pr hpr
    | some tp =>
        rw [hreaped.pendingRestarts htp] at hpr
        rcases List.mem_append.mp hpr with hold | hnew
        · exact h.pending pr hold
        · -- A connection is not restarted, so the process was a main one.
          obtain ⟨kind, hkind, htracked⟩ :=
            (h.table.tracked pid).mp (UnorderedMap.mem_of_lookup htp)
          cases kind with
          | service => exact restartable_of_scheduled (h.main pid tp hkind htp) hnew
          | connection socket =>
              rw [exitOutcome_of_policy_no (h.connection pid tp socket hkind htp).1] at hnew
              nomatch hnew
          | orphan => nomatch htracked

theorem drained (h : Configured units stopped sys) (now : TimePoint) :
    Configured units stopped
      { sys with
        init := (sys.init.drainPendingRestarts now).2
        clock := now } where
  table := h.table.drained now
  loaded := h.loaded
  main := h.main
  connection := h.connection
  pending := by
    intro pr hpr
    rw [drainPendingRestarts_eq] at hpr
    exact h.pending pr (List.mem_filter.mp hpr).1

theorem stop (h : Configured units stopped sys) {name : String}
    (hstopped : stopped name) (hstep : sys.step (.stopUnit name) = some sys') :
    Configured units stopped sys' := by
  obtain ⟨htables, hchildren, -⟩ := System.stop_cases hstep
  have hentry : ∀ p tp, sys'.init.processes.lookup p = some tp →
      ∃ tp₀, sys.init.processes.lookup p = some tp₀ ∧
        (tp = tp₀ ∨ tp = { tp₀ with restartPolicy := .no }) := by
    intro p tp hp
    rw [System.lookup_processes_of_stop hstep] at hp
    split_ifs at hp with hnamed
    · obtain ⟨tp₀, hp₀, rfl⟩ := Option.map_eq_some_iff.mp hp
      exact ⟨tp₀, hp₀, Or.inr rfl⟩
    · exact ⟨tp, hp, Or.inl rfl⟩
  exact
    { table := h.table.stopped hstep
      loaded := htables.units.trans h.loaded
      main := h.main.stop h.table hstopped hstep
      connection := by
        intro p tp socket hkind hp
        obtain ⟨tp₀, hp₀, rfl | rfl⟩ := hentry p tp hp
        · exact h.connection p tp socket (hchildren ▸ hkind) hp₀
        · exact ⟨rfl, (h.connection p tp₀ socket (hchildren ▸ hkind) hp₀).2⟩
      pending := htables.pendingRestarts ▸ h.pending }

theorem adopted (h : Configured units stopped sys) {pid : Pid} (hfresh : pid ∉ sys.children) :
    Configured units stopped (sys.adopted pid) := by
  refine h.congr (h.table.adopted hfresh) rfl ?_ rfl rfl
  intro p kind hkind htracked
  change (sys.children.insert pid .orphan).lookup p = some kind at hkind
  rw [UnorderedMap.lookup_insert_eq] at hkind
  split_ifs at hkind with heq
  · obtain rfl := Option.some.inj hkind
    nomatch htracked
  · exact hkind

/-- The calls alone do not tell when a unit has been stopped. -/
theorem kept : System.KeptInProgram (Configured units (fun _ => True)) where
  same := fun h hsame => h.same hsame
  startService := fun h hfind hstart => h.startService hfind hstart
  notAccepted := fun h hnone =>
    h.congr (h.table.notAccepted hnone) hnone.units (fun _ _ hkind _ => hnone.children ▸ hkind)
      hnone.processes hnone.pendingRestarts
  accepted := fun h hacc => h.accepted hacc
  reaped := fun h hreaped => h.reaped hreaped
  drained := fun now h => h.drained now
  stopped := fun h hstep => h.stop trivial hstep
  adopted := fun h hfresh => h.adopted hfresh

theorem similar (hsim : System.Similar sys sys') (h : Configured units stopped sys) :
    Configured units stopped sys' := by
  have htable := hsim.tableInv h.table
  obtain ⟨journal, fdToSocket, hinit⟩ := hsim.init
  exact h.congr htable (by rw [hinit]) (fun p kind hkind _ => hsim.lookup_children p ▸ hkind)
    (by rw [hinit]) (by rw [hinit])

theorem booted (h : Booted sys) (hunits : sys.init.units = units) : Configured units stopped sys where
  table := h.tableInv
  loaded := hunits
  main := by simp [MainEntries, h.processes]
  connection := by simp [h.processes]
  pending := by simp [h.pendingRestarts]

end Configured

/-! ## Calls of loaded services -/

/-- The units are `units`, and a call of `start_service` is for one of them. -/
structure StartInv (units : UnorderedMap String UnitFile) (m : RunState) : Prop where
  run : RunInv m
  loaded : m.sys.init.units = units
  call : ∀ call back, m.point.call? = some (call, back) →
    IsService units call.name call.unit ∧ call.todo <:+ call.unit.execStartPre

theorem StartCall.waited_todo (call : StartCall) (status : WaitStatus) :
    (call.waited status).todo <:+ call.todo := by
  unfold StartCall.waited
  dsimp only
  split_ifs
  · exact List.nil_suffix
  · exact List.tail_suffix _

namespace StartInv

variable {units : UnorderedMap String UnitFile} {m m' : RunState} {a : RunAnswer}

theorem boot {s : InitSystem} (hinv : RunInv (RunState.boot s)) :
    StartInv s.units (RunState.boot s) where
  run := hinv
  loaded := rfl
  call := by
    intro call back hcall
    have hnone : (RunState.boot s).point.call? = none := rfl
    simp [hnone] at hcall

theorem isService_of_serviceToStart {s : InitSystem} {probe : SystemProbe} {name : String}
    {unit : UnitFile} (h : RunState.serviceToStart s probe name = some unit) :
    IsService s.units name unit := by
  obtain ⟨hfind, -, -, htype⟩ := RunState.serviceToStart_spec h
  exact ⟨hfind, htype⟩

theorem program (h : StartInv units m) (hstep : m.step (.program a) = some m') :
    StartInv units m' := by
  have hunits : m'.sys.init.units = units :=
    (RunState.programStep_effect h.run.will hstep).units.trans h.loaded
  refine ⟨h.run.step hstep, hunits, ?_⟩
  have hcases := RunState.programStep_cases hstep
  have hcall := h.call
  generalize hpoint : m.point = point at hcases hcall
  -- Elsewhere no call is under way.
  have hnone : m'.point.call? = none → ∀ call back, m'.point.call? = some (call, back) →
      IsService units call.name call.unit ∧ call.todo <:+ call.unit.execStartPre := by
    intro hnone call back hsome
    simp [hnone] at hsome
  cases hcases with
  | startsUnit hquiet hservice hcreated =>
      intro call back heq
      obtain ⟨rfl, rfl⟩ := Prod.mk.inj (Option.some.inj heq)
      exact ⟨h.loaded ▸ isService_of_serviceToStart hservice, List.suffix_refl _⟩
  | restarts hunit hcreated =>
      intro call back heq
      obtain ⟨rfl, rfl⟩ := Prod.mk.inj (Option.some.inj heq)
      exact ⟨h.loaded ▸ isService_of_findService hunit, List.suffix_refl _⟩
  | skipsPre htodo =>
      rename_i call back
      intro call' back' heq
      obtain ⟨rfl, rfl⟩ := Prod.mk.inj (Option.some.inj heq)
      obtain ⟨hservice, htodo⟩ := hcall call back rfl
      exact ⟨hservice, (List.tail_suffix _).trans htodo⟩
  | forksPre htodo hforked hfresh => exact hcall
  | forksMain htodo hstart hfresh => exact hcall
  | waitsPre hexited =>
      rename_i call pid back status
      intro call' back' heq
      obtain ⟨rfl, rfl⟩ := Prod.mk.inj (Option.some.inj heq)
      obtain ⟨hservice, htodo⟩ := hcall call back rfl
      rw [StartCall.waited_name, StartCall.waited_unit]
      exact ⟨hservice, (call.waited_todo status).trans htodo⟩
  | @notStarted call back sys s htodo hstart hsys =>
      exact hnone (by cases back <;> rfl)
  | tracks hsys =>
      rename_i back _
      exact hnone (by cases back <;> rfl)
  | quits hquit => exact hnone rfl
  | loops hquit => exact hnone rfl
  | readsShutdown hpending hsignal => exact h.call
  | readsUsr1 hpending => exact h.call
  | reaps hchild hexited hsys => exact h.call
  | _ => exact hnone rfl

theorem step (h : StartInv units m) {e : RunEvent} (hstep : m.step e = some m') :
    StartInv units m' := by
  have hrun := h.run.step hstep
  cases e with
  | exits pid status =>
      obtain ⟨-, rfl⟩ := RunState.exits_cases hstep
      exact ⟨hrun, h.loaded, h.call⟩
  | adopts pid =>
      obtain ⟨-, -, rfl⟩ := RunState.adopts_cases hstep
      exact ⟨hrun, h.loaded, h.call⟩
  | raises signal =>
      obtain rfl := Option.some.inj hstep
      exact ⟨hrun, h.loaded, h.call⟩
  | program a => exact h.program hstep

end StartInv

/-! ## Stops -/

namespace RunState

variable {m m' : RunState} {a : RunAnswer}

/-- `stop_unit` has been called for the name. -/
def StopCalled (m : RunState) (name : String) : Prop :=
  match m.point with
  | .stopping rest => ∃ done, m.sys.init.execOrder.reverse = done ++ rest ∧ name ∈ done
  | point => point.afterStop = true ∧ name ∈ m.sys.init.execOrder

theorem stopCalled_of_afterStop {name : String} (hafter : m.point.afterStop = true)
    (hname : name ∈ m.sys.init.execOrder) : m.StopCalled name := by
  unfold StopCalled
  split
  · rename_i hpoint
    rw [hpoint] at hafter
    cases hafter
  · exact ⟨hafter, hname⟩

theorem StopCalled.program {name : String} (h : m.StopCalled name) (hinv : RunInv m)
    (hstep : m.programStep a = some m') : m'.StopCalled name := by
  have horder : m'.sys.init.execOrder = m.sys.init.execOrder :=
    step_execOrder hinv (e := .program a) hstep
  unfold StopCalled at h
  split at h
  · rename_i rest hpoint
    obtain ⟨done, hdone, hname⟩ := h
    rcases stopping_cases hpoint hstep with ⟨rfl, rfl⟩ | ⟨n, rest', rfl, rfl⟩
    · rw [List.append_nil] at hdone
      exact stopCalled_of_afterStop rfl (List.mem_reverse.mp (hdone ▸ hname))
    · refine ⟨done ++ [n], ?_, List.mem_append_left _ hname⟩
      rw [horder, hdone]
      simp
  · exact stopCalled_of_afterStop (afterStop_step h.1 hstep) (horder ▸ h.2)

end RunState

/-- The entries of the main processes, and the names the shutdown still has to stop. -/
structure ConfigInv (units : UnorderedMap String UnitFile) (m : RunState) : Prop where
  start : StartInv units m
  main : MainEntries units m.StopCalled m.sys
  toStop : ∀ rest, m.point = .stopping rest → rest <:+ m.sys.init.execOrder.reverse

namespace ConfigInv

open RunState

variable {m m' : RunState} {a : RunAnswer}

theorem boot {s : InitSystem} (h : StartInv s.units (RunState.boot s)) :
    ConfigInv s.units (RunState.boot s) where
  start := h
  main := fun p tp hkind _ => by simp [RunState.boot] at hkind
  toStop := nofun

theorem main_program (h : ConfigInv units m) (hstep : m.programStep a = some m') :
    MainEntries units m'.StopCalled m'.sys := by
  have hmono : ∀ n, m.StopCalled n → m'.StopCalled n :=
    fun n hcalled => hcalled.program h.start.run hstep
  have horder : m'.sys.init.execOrder = m.sys.init.execOrder :=
    step_execOrder h.start.run (e := .program a) hstep
  have hfix : System.SameSystem m.sys m.maybeFixRuntimeDirs.sys := by
    obtain ⟨sys, chowned, hsame, heq⟩ := m.maybeFixRuntimeDirs_spec
    rw [heq]
    exact hsame
  have hmain := h.main.mono hmono
  have hcall := h.start.call
  have htoStop := h.toStop
  have hcases := programStep_cases hstep
  generalize hpoint : m.point = point at hcases hcall htoStop
  cases hcases with
  | executesUnit hservice hsys =>
      rcases System.executeUnit_cases hsys with hsame | ⟨unit, hfind, hstart⟩
      · exact hmain.same hsame
      · exact hmain.startService (h.start.loaded ▸ isService_of_findService hfind) hstart
  | @notStarted call back sys s htodo hstart hsys =>
      exact hmain.startService (hcall call back rfl).1 hsys
  | @tracks call pid back sys hsys => exact hmain.startService (hcall call back rfl).1 hsys
  | notAccepted hpid hsys =>
      have hnone := notAccepted_of_none hsys hpid
      exact hmain.congr (fun _ hkind => hnone.children ▸ hkind) hnone.processes
  | accepts hsys =>
      obtain ⟨socket, svc, hacc⟩ := accepting_accepted hpoint h.start.run.will hsys
      exact hmain.accepted hacc
  | drainsRestarts hsys =>
      obtain ⟨-, rfl⟩ := System.drain_cases hsys
      exact hmain.congr (fun _ hkind => hkind) rfl
  | reaps hchild hexited hsys => exact hmain.reaped (System.reaped_cases hsys)
  | quits hquit => exact (hmain.same hfix).congr (fun _ hkind => hkind) rfl
  | loops hquit => exact hmain.same hfix
  | @stops name rest =>
      -- The stop is called for the name now, so `StopCalled` holds of it behind this step.
      obtain ⟨done, hdone⟩ := htoStop (name :: rest) rfl
      refine hmain.stop h.start.run.table ⟨done ++ [name], ?_, by simp⟩ rfl
      rw [horder, ← hdone]
      simp
  | _ => exact hmain.congr (fun _ hkind => hkind) rfl

theorem step (h : ConfigInv units m) {e : RunEvent} (hstep : m.step e = some m') :
    ConfigInv units m' := by
  have hstart := h.start.step hstep
  cases e with
  | exits pid status =>
      obtain ⟨-, rfl⟩ := exits_cases hstep
      exact ⟨hstart, h.main, h.toStop⟩
  | adopts pid =>
      obtain ⟨-, -, rfl⟩ := adopts_cases hstep
      refine ⟨hstart, h.main.congr (fun p hkind => ?_) rfl, h.toStop⟩
      rw [UnorderedMap.lookup_insert_eq] at hkind
      split_ifs at hkind with heq
      · cases hkind
      · exact hkind
  | raises signal =>
      obtain rfl := Option.some.inj hstep
      exact ⟨hstart, h.main, h.toStop⟩
  | program a =>
      refine ⟨hstart, h.main_program hstep, ?_⟩
      cases hshut : m.point.inShutdown with
      | false =>
          rcases enters_shutdown hshut hstep with hloop | hstopping
          · intro rest hpoint
            rw [hpoint] at hloop
            cases hloop
          · intro rest hpoint
            obtain rfl := RunPoint.stopping.inj (hstopping.symm.trans hpoint)
            exact List.suffix_refl _
      | true =>
          intro rest hpoint
          have horder := step_execOrder h.start.run (e := .program a) hstep
          cases hold : m.point with
          | stopping rest' =>
              have hsuffix := h.toStop rest' hold
              rcases stopping_cases hold hstep with ⟨-, rfl⟩ | ⟨n, rest'', rfl, rfl⟩
              · cases hpoint
              · obtain rfl := RunPoint.stopping.inj hpoint
                rw [horder]
                exact (List.suffix_cons n _).trans hsuffix
          | _ =>
              -- The stop loop is not entered again.
              have hafter : m'.point.afterStop = true :=
                afterStop_step (by simpa [hold, RunPoint.inShutdown] using hshut) hstep
              rw [hpoint] at hafter
              cases hafter

end ConfigInv

/-! ## Whole runs -/

namespace RunState

/-- At every place of every run of the main program before `run` returns, the entries of the process
table follow the unit files, and what is queued for a restart, or about to be restarted, asks for it.
The policy of an entry is the one of the unit file until the shutdown has stopped the unit. -/
theorem follows_configuration (journal : Journal) (units : UnorderedMap String UnitFile)
    (fds : FdTable) (os : SocketBindAnswers) (inDegreeOrder : List String) {es : List RunEvent}
    {m : RunState}
    (hrun : (boot ((parsed journal units fds).boundAndResolved os inDegreeOrder)).run es = some m)
    (hlive : m.point ≠ .returned) :
    Configured units m.StopCalled m.sys ∧
      ∀ toCome, m.point.phase = .restarts toCome → ∀ n ∈ toCome, Restartable units n := by
  have hunits : ((parsed journal units fds).boundAndResolved os inDegreeOrder).units = units :=
    (boundAndResolved_tables (parsed journal units fds) os inDegreeOrder).units
  have hboot : Configured units (fun _ => True)
      { init := ((parsed journal units fds).boundAndResolved os
          inDegreeOrder).registerAcceptSockets } :=
    .booted (parsed_booted journal units fds os inDegreeOrder) hunits
  have hconf := holds_of_kept Configured.kept Configured.similar hboot hrun hlive
  have hinv := StepRun.run_invariant_of_step (fun _ _ _ h hstep => ConfigInv.step h hstep)
    (ConfigInv.boot (.boot (.boot (parsed_tableInv journal units fds os inDegreeOrder)))) hrun
  have hmain := hinv.main
  rw [hunits] at hmain
  -- `hconf` allows `.no` everywhere; where it may stand comes from the steps of the program.
  refine ⟨{ hconf with main := hmain }, ?_⟩
  intro toCome hphase n hn
  obtain ⟨sys, hcalled, hreached⟩ := reaches_of_kept Configured.kept hboot hrun hlive
  rw [hphase] at hreached
  obtain ⟨now, done, answers, t, -, hready, -⟩ := hreached
  -- What is to come in the loop was pending when `process_restarts` was called.
  have hmem : n ∈ (sys.init.drainPendingRestarts now).1 :=
    hready ▸ List.mem_append_right done hn
  rw [drainPendingRestarts_eq] at hmem
  obtain ⟨pr, hpr, rfl⟩ := List.mem_map.mp hmem
  exact hcalled.pending pr (List.mem_filter.mp hpr).1

theorem follows_configuration_sample :
    ∃ m, (boot restartBoot).run (restartRun.take 12) = some m ∧
      Restartable ((∅ : UnorderedMap String UnitFile).insert "web.service" sampleWeb)
        "web.service" := by
  have hsome : ((boot restartBoot).run (restartRun.take 12)).any (fun m =>
      decide (m.point.phase = .restarts ["web.service"])) = true := by
    decide +kernel
  obtain ⟨m, hm, hpoint⟩ := (Option.any_eq_true _ _).mp hsome
  have hphase : m.point.phase = .restarts ["web.service"] := of_decide_eq_true hpoint
  have hlive : m.point ≠ .returned := by
    intro hreturned
    rw [hreturned] at hphase
    cases hphase
  have hfollows := follows_configuration {} _ (fun _ => none) oneDescriptor ["web.service"] hm hlive
  exact ⟨m, hm, hfollows.2 ["web.service"] hphase _ (List.mem_singleton.mpr rfl)⟩

end RunState

end TrivialInit
