import TrivialInit.Lib.FixedWindow
import TrivialInit.Properties.ProcessTable

/-!
# UnitView — the restart bookkeeping of one unit

The counters that limit the restarts of a unit travel: from the table entry of its main process to
`pending_restarts_`, from there to `restart_counts_`, and back into the entry of the next process.
`SameView` says that an event leaves all three places alone; the lemmas here show this for everything
except the calls that move the counters.
-/

namespace TrivialInit

open InitSystem

/-! ## The three places -/

/-- The restart counters of one table entry. -/
structure Counters where
  limit : Int
  intervalS : Int
  restartCount : Int
  window : FixedWindow.Window Int
  deriving DecidableEq, Repr

def TrackedProcess.counters (tp : TrackedProcess) : Counters :=
  { limit := tp.burstLimit
    intervalS := tp.burstIntervalS
    restartCount := tp.restartCount
    window := { start := tp.burstWindowStart, count := tp.burstCount } }

/-- The counters of `p`, if `p` runs the main command of `n`. -/
def mainCounters (sys : System) (n : String) (p : Pid) : Option Counters :=
  match sys.children.lookup p with
  | some .service =>
      (sys.init.processes.lookup p).bind (fun tp =>
        if tp.unitName = n then some tp.counters else none)
  | _ => none

/-- The pending restarts of `n`. -/
def pendingOf (s : InitSystem) (n : String) : List PendingRestart :=
  s.pendingRestarts.filter (fun pr => decide (pr.unitName = n))

structure SameView (n : String) (sys sys' : System) : Prop where
  main : mainCounters sys' n = mainCounters sys n
  pending : pendingOf sys'.init n = pendingOf sys.init n
  counts : sys'.init.restartCounts.lookup n = sys.init.restartCounts.lookup n

theorem mainCounters_eq_some {sys : System} {n : String} {p : Pid} {c : Counters} :
    mainCounters sys n p = some c ↔ sys.children.lookup p = some .service ∧
      ∃ tp, sys.init.processes.lookup p = some tp ∧ tp.unitName = n ∧ tp.counters = c := by
  unfold mainCounters
  cases sys.children.lookup p with
  | none => simp
  | some kind =>
      cases kind with
      | service =>
          simp only [Option.bind_eq_some_iff, true_and]
          constructor
          · rintro ⟨tp, htp, hc⟩
            split_ifs at hc with hname
            exact ⟨tp, htp, hname, Option.some.inj hc⟩
          · rintro ⟨tp, htp, hname, rfl⟩
            exact ⟨tp, htp, if_pos hname⟩
      | connection socket => simp
      | orphan => simp

/-- A PID the kernel does not know is no main process. -/
theorem mainCounters_of_notMem {sys : System} {p : Pid} (hp : p ∉ sys.children) (n : String) :
    mainCounters sys n p = none := by
  have hnone : sys.children.lookup p = none := AList.lookup_eq_none.mpr hp
  simp [mainCounters, hnone]

theorem SameView.refl (n : String) (sys : System) : SameView n sys sys :=
  ⟨rfl, rfl, rfl⟩

theorem SameView.trans {n : String} {sys sys₁ sys₂ : System} (h : SameView n sys sys₁)
    (h' : SameView n sys₁ sys₂) : SameView n sys sys₂ :=
  ⟨h'.main.trans h.main, h'.pending.trans h.pending, h'.counts.trans h.counts⟩

/-! ## Invariants about all units -/

/-- The process table is consistent, and connection children are never restarted. -/
structure BaseInv (sys : System) : Prop where
  table : TableInv sys
  connectionPolicy : ∀ p tp socket, sys.init.processes.lookup p = some tp →
    sys.children.lookup p = some (.connection socket) → tp.restartPolicy = .no

theorem Booted.baseInv {sys : System} (h : Booted sys) : BaseInv sys where
  table := h.tableInv
  connectionPolicy := by simp [h.processes]

namespace BaseInv

variable {sys sys' : System}

theorem sameSystem (h : BaseInv sys) (hsame : System.SameSystem sys sys') : BaseInv sys' where
  table := h.table.sameSystem hsame
  connectionPolicy := by
    rw [hsame.tables.processes, hsame.children]
    exact h.connectionPolicy

theorem startService (h : BaseInv sys) {name : String} {unit : UnitFile} {os : StartAnswers}
    (hstep : sys.startService name unit os = some sys') : BaseInv sys' where
  table := h.table.startService hstep
  connectionPolicy := by
    rcases System.startService_cases hstep with hfailed | ⟨pid, hstarted⟩
    · exact (h.sameSystem hfailed.sameSystem).connectionPolicy
    · intro p tp socket hp hkind
      rw [hstarted.children, UnorderedMap.lookup_insert_eq] at hkind
      -- The new child is a service; every other one keeps its entry.
      split_ifs at hkind with heq
      · cases hkind
      · rw [hstarted.lookup_processes, if_neg heq] at hp
        exact h.connectionPolicy p tp socket hp hkind

theorem accepted (h : BaseInv sys) {listenFd : Int} {os : AcceptAnswers} {socket svc : String}
    {pid : Pid} (hacc : System.Accepted sys listenFd os socket svc pid sys') : BaseInv sys' where
  table := h.table.accepted hacc
  connectionPolicy := by
    intro p tp socket' hp hkind
    rw [hacc.lookup_processes] at hp
    split_ifs at hp with heq
    · obtain rfl := Option.some.inj hp
      rfl
    · rw [hacc.children, UnorderedMap.lookup_insert_eq, if_neg heq] at hkind
      exact h.connectionPolicy p tp socket' hp hkind

theorem reaped (h : BaseInv sys) {pid : Pid} {status : WaitStatus} {now : TimePoint}
    (hreaped : System.Reaped sys pid status now sys') : BaseInv sys' where
  table := h.table.reaped hreaped
  connectionPolicy := by
    intro p tp socket hp hkind
    rw [hreaped.lookup_processes] at hp
    split_ifs at hp with heq
    rw [hreaped.children, UnorderedMap.lookup_erase_eq, if_neg heq] at hkind
    exact h.connectionPolicy p tp socket hp hkind

theorem drained (h : BaseInv sys) (now : TimePoint) :
    BaseInv
      { sys with
        init := (sys.init.drainPendingRestarts now).2
        clock := now } where
  table := h.table.drained now
  connectionPolicy := by
    rw [drainPendingRestarts_eq]
    exact h.connectionPolicy

theorem notAccepted (h : BaseInv sys) (hnone : System.NotAccepted sys sys') : BaseInv sys' where
  table := h.table.notAccepted hnone
  connectionPolicy := by
    rw [hnone.processes, hnone.children]
    exact h.connectionPolicy

theorem stopped (h : BaseInv sys) {name : String}
    (hstep : sys.step (.stopUnit name) = some sys') : BaseInv sys' where
  table := h.table.stopped hstep
  connectionPolicy := by
    intro p tp socket hp hkind
    rw [(System.stop_cases hstep).2.1] at hkind
    -- The stopped process gets the policy `no`, which is what is asked for.
    rw [System.lookup_processes_of_stop hstep] at hp
    split_ifs at hp with hnamed
    · rcases Option.map_eq_some_iff.mp hp with ⟨tp₀, -, rfl⟩
      rfl
    · exact h.connectionPolicy p tp socket hp hkind

theorem adopted (h : BaseInv sys) {pid : Pid} (hfresh : pid ∉ sys.children) :
    BaseInv { sys with children := sys.children.insert pid .orphan } where
  table := h.table.adopted hfresh
  connectionPolicy := by
    intro p tp socket hp hkind
    rw [UnorderedMap.lookup_insert_eq] at hkind
    split_ifs at hkind with heq
    · cases hkind
    · exact h.connectionPolicy p tp socket hp hkind

theorem kept : System.Kept BaseInv where
  same := fun h hsame => h.sameSystem hsame
  startService := fun h hstart => h.startService hstart
  notAccepted := fun h hnone => h.notAccepted hnone
  accepted := fun h hacc => h.accepted hacc
  reaped := fun h hreaped => h.reaped hreaped
  drained := fun now h => h.drained now
  stopped := fun h hstop => h.stopped hstop
  queued := fun name now h =>
    { table := h.table.queued name now
      connectionPolicy := h.connectionPolicy }
  adopted := fun h hfresh => h.adopted hfresh

theorem step (h : BaseInv sys) {e : Event} (hstep : sys.step e = some sys') : BaseInv sys' :=
  kept.step h hstep

end BaseInv

/-! ## Events that leave the bookkeeping of a unit alone -/

section Views

variable {sys sys' : System} {n : String}

theorem mainCounters_congr {p : Pid} (hkind : sys'.children.lookup p = sys.children.lookup p)
    (hprocess : sys'.init.processes.lookup p = sys.init.processes.lookup p) (n : String) :
    mainCounters sys' n p = mainCounters sys n p := by
  simp only [mainCounters, hkind, hprocess]

theorem sameView_of_sameSystem (hsame : System.SameSystem sys sys') : SameView n sys sys' := by
  refine ⟨?_, ?_, by rw [hsame.tables.restartCounts]⟩
  · funext p
    exact mainCounters_congr (by rw [hsame.children]) (by rw [hsame.tables.processes]) n
  · simp only [pendingOf, hsame.tables.pendingRestarts]

theorem sameView_of_startFailed {name : String} {unit : UnitFile} {os : StartAnswers}
    (hfailed : System.StartFailed sys name unit os sys') : SameView n sys sys' :=
  sameView_of_sameSystem hfailed.sameSystem

/-- A successful start puts the stored counters into the new main process. -/
theorem mainCounters_of_started {name : String} {unit : UnitFile} {os : StartAnswers} {pid : Pid}
    (hstarted : System.Started sys name unit os pid sys') :
    mainCounters sys' n =
      if name = n then
        Function.update (mainCounters sys n) pid
          (some (sys.init.startedProcess name unit pid).counters)
      else mainCounters sys n := by
  funext p
  by_cases heq : p = pid
  · subst heq
    -- The PID is fresh, so the map had nothing for it whichever unit was started.
    have hnew : mainCounters sys' n p =
        if name = n then some (sys.init.startedProcess name unit p).counters else none := by
      simp [mainCounters, hstarted.children, hstarted.lookup_processes]
    rw [hnew]
    split_ifs
    · simp
    · exact (mainCounters_of_notMem hstarted.fresh n).symm
  · have hold : mainCounters sys' n p = mainCounters sys n p :=
      mainCounters_congr (by rw [hstarted.children, AList.lookup_insert_ne heq])
        (by rw [hstarted.lookup_processes, if_neg heq]) n
    rw [hold]
    split_ifs
    · rw [Function.update_of_ne heq]
    · rfl

theorem sameView_of_startService {name : String} {unit : UnitFile} {os : StartAnswers}
    (hname : name ≠ n) (hstep : sys.startService name unit os = some sys') :
    SameView n sys sys' := by
  rcases System.startService_cases hstep with hfailed | ⟨pid, hstarted⟩
  · exact sameView_of_startFailed hfailed
  · refine ⟨?_, ?_, ?_⟩
    · rw [mainCounters_of_started hstarted, if_neg hname]
    · simp only [pendingOf, hstarted.pendingRestarts]
    · rw [hstarted.restartCounts, AList.lookup_erase_ne hname.symm]

theorem sameView_of_acceptReady {listenFd : Int} {os : AcceptAnswers}
    (hstep : sys.step (.acceptReady listenFd os) = some sys') : SameView n sys sys' := by
  rcases System.acceptReady_cases hstep with ⟨-, hnone | ⟨socket, svc, pid, hacc⟩⟩
  · refine ⟨?_, ?_, by rw [hnone.restartCounts]⟩
    · funext p
      exact mainCounters_congr (by rw [hnone.children]) (by rw [hnone.processes]) n
    · simp only [pendingOf, hnone.pendingRestarts]
  · refine ⟨?_, by simp only [pendingOf, hacc.pendingRestarts], by rw [hacc.restartCounts]⟩
    funext p
    by_cases heq : p = pid
    · -- A child that serves a connection is no main process.
      subst heq
      rw [mainCounters_of_notMem hacc.fresh]
      simp [mainCounters, hacc.children]
    · exact mainCounters_congr (by rw [hacc.children, AList.lookup_insert_ne heq])
        (by rw [hacc.lookup_processes, if_neg heq]) n

/-- `stop_unit` changes a restart policy, but no counter. -/
theorem sameView_of_stopUnit {name : String} (hstep : sys.step (.stopUnit name) = some sys') :
    SameView n sys sys' := by
  rcases System.stop_cases hstep with ⟨htables, hchildren, -⟩
  have hpending : sys'.init.pendingRestarts = sys.init.pendingRestarts := htables.pendingRestarts
  have hcounts : sys'.init.restartCounts = sys.init.restartCounts := htables.restartCounts
  refine ⟨?_, by simp only [pendingOf, hpending], by rw [hcounts]⟩
  funext p
  simp only [mainCounters, hchildren, System.lookup_processes_of_stop hstep]
  split_ifs with hnamed
  · cases sys.init.processes.lookup p <;> rfl
  · rfl

theorem sameView_of_queueRestart {name : String} {now : TimePoint} (hname : name ≠ n)
    (hstep : sys.step (.queueRestart name now) = some sys') : SameView n sys sys' := by
  rcases System.queue_cases hstep with ⟨-, rfl⟩
  refine ⟨rfl, ?_, rfl⟩
  simp [pendingOf, queueRestart, hname]

theorem sameView_of_adopt {pid : Pid} (hstep : sys.step (.adopt pid) = some sys') :
    SameView n sys sys' := by
  rcases System.adopt_cases hstep with ⟨hfresh, rfl⟩
  refine ⟨?_, rfl, rfl⟩
  funext p
  by_cases heq : p = pid
  · subst heq
    rw [mainCounters_of_notMem hfresh]
    simp [mainCounters]
  · refine mainCounters_congr ?_ ?_ n
    · exact AList.lookup_insert_ne heq
    · rfl

/-! ## Reaping -/

theorem mainCounters_of_reaped {pid : Pid} {status : WaitStatus} {now : TimePoint}
    (hreaped : System.Reaped sys pid status now sys') :
    mainCounters sys' n = Function.update (mainCounters sys n) pid none := by
  funext p
  by_cases heq : p = pid
  · subst heq
    simp [mainCounters, hreaped.children]
  · rw [Function.update_of_ne heq]
    exact mainCounters_congr (by rw [hreaped.children, AList.lookup_erase_ne heq])
      (by rw [hreaped.lookup_processes, if_neg heq]) n

/-- Every entry an exit adds is for the unit of the process. -/
theorem pending_exitOutcome {tp : TrackedProcess} {status : WaitStatus} {now : TimePoint}
    {pr : PendingRestart} (hpr : pr ∈ (exitOutcome tp status now).pending) :
    pr = (tp.countExit now).pendingRestart now ∧
      exitOutcome tp status now = .scheduled pr := by
  unfold exitOutcome at hpr ⊢
  split_ifs at hpr ⊢
  · cases hpr
  · obtain rfl := List.mem_singleton.mp hpr
    exact ⟨rfl, rfl⟩
  · cases hpr

theorem unitName_pendingRestart (tp : TrackedProcess) (now : TimePoint) :
    ((tp.countExit now).pendingRestart now).unitName = tp.unitName := by
  unfold TrackedProcess.pendingRestart TrackedProcess.countExit
  dsimp only
  split_ifs <;> rfl

theorem exitOutcome_of_policy_no {tp : TrackedProcess} (hpolicy : tp.restartPolicy = .no)
    (status : WaitStatus) (now : TimePoint) : exitOutcome tp status now = .finished := by
  simp [exitOutcome, shouldRestart, hpolicy]

theorem pendingOf_reaped {pid : Pid} {status : WaitStatus} {now : TimePoint}
    (hreaped : System.Reaped sys pid status now sys') {tp : TrackedProcess}
    (htp : sys.init.processes.lookup pid = some tp) :
    pendingOf sys'.init n = pendingOf sys.init n ++
      if tp.unitName = n then (exitOutcome tp status now).pending else [] := by
  -- The new entry is for the unit of the process, so it passes the filter or it does not.
  have hnew : ∀ pr ∈ (exitOutcome tp status now).pending, pr.unitName = tp.unitName := by
    intro pr hpr
    rw [(pending_exitOutcome hpr).1]
    exact unitName_pendingRestart tp now
  rw [pendingOf, hreaped.pendingRestarts htp, List.filter_append]
  congr 1
  by_cases hname : tp.unitName = n
  · rw [if_pos hname]
    refine List.filter_eq_self.mpr ?_
    intro pr hpr
    simp [hnew pr hpr, hname]
  · rw [if_neg hname]
    refine List.filter_eq_nil_iff.mpr ?_
    intro pr hpr
    simp [hnew pr hpr, hname]

/-- Reaping anything but a main process of `n` leaves the bookkeeping of `n` alone. -/
theorem sameView_of_reaped {pid : Pid} {status : WaitStatus} {now : TimePoint}
    (hinv : BaseInv sys) (hreaped : System.Reaped sys pid status now sys')
    (hmain : mainCounters sys n pid = none) :
    SameView n sys sys' ∧ ∀ tp, sys.init.processes.lookup pid = some tp → tp.unitName = n →
      tp.restartPolicy = .no := by
  have hpolicy : ∀ tp, sys.init.processes.lookup pid = some tp → tp.unitName = n →
      tp.restartPolicy = .no := by
    intro tp htp hname
    rcases (hinv.table.tracked pid).mp (UnorderedMap.mem_of_lookup htp) with ⟨kind, hkind, htracked⟩
    cases kind with
    | service =>
        have hsome := mainCounters_eq_some.mpr ⟨hkind, tp, htp, hname, rfl⟩
        rw [hmain] at hsome
        cases hsome
    | connection socket => exact hinv.connectionPolicy pid tp socket htp hkind
    | orphan => simp [ChildKind.isTracked] at htracked
  refine ⟨⟨?_, ?_, by rw [hreaped.restartCounts]⟩, hpolicy⟩
  · rw [mainCounters_of_reaped hreaped, ← hmain, Function.update_eq_self]
  · cases htp : sys.init.processes.lookup pid with
    | none => simp only [pendingOf, hreaped.pendingRestarts_of_untracked htp]
    | some tp =>
        rw [pendingOf_reaped hreaped htp]
        by_cases hname : tp.unitName = n
        · simp [hname, exitOutcome_of_policy_no (hpolicy tp htp hname), ExitOutcome.pending]
        · simp [hname]

/-! ## Draining -/

theorem pendingOf_drained (s : InitSystem) (now : TimePoint) (n : String) :
    pendingOf (s.drainPendingRestarts now).2 n =
      (pendingOf s n).filter (fun pr => !pr.isDue now) := by
  rw [drainPendingRestarts_eq]
  simp only [pendingOf, List.filter_filter, Bool.and_comm]

/-- A unit is due once for each of its due entries. -/
theorem count_ready (s : InitSystem) (now : TimePoint) (n : String) :
    (s.drainPendingRestarts now).1.count n =
      ((pendingOf s n).filter (PendingRestart.isDue now)).length := by
  rw [drainPendingRestarts_eq, List.count, List.countP_map, pendingOf, List.filter_filter,
    ← List.countP_eq_length_filter, List.countP_filter]
  refine List.countP_congr ?_
  intro pr _
  simp only [Function.comp_apply, Bool.and_eq_true, beq_iff_eq, decide_eq_true_eq, and_comm]

theorem restartCounts_drained (s : InitSystem) (now : TimePoint) (n : String) :
    (s.drainPendingRestarts now).2.restartCounts.lookup n =
      match ((pendingOf s n).filter (PendingRestart.isDue now)).getLast? with
      | none => s.restartCounts.lookup n
      | some pr => some pr.counts := by
  have hdue : (pendingOf s n).filter (PendingRestart.isDue now) =
      (s.pendingRestarts.filter (PendingRestart.isDue now)).filter
        (fun pr => decide (pr.unitName = n)) := by
    simp only [pendingOf, List.filter_filter, Bool.and_comm]
  rw [drainPendingRestarts_eq, hdue]
  exact lookup_foldl_storeCounts _ _ _

/-- Draining does not look at the children or the table. -/
theorem mainCounters_drained (now : TimePoint) :
    mainCounters
        { sys with
          init := (sys.init.drainPendingRestarts now).2
          clock := now } n =
      mainCounters sys n := by
  rw [drainPendingRestarts_eq]
  rfl

/-- As long as no entry of `n` is due, draining leaves the bookkeeping of `n` alone. -/
theorem sameView_of_drained {now : TimePoint}
    (hwaiting : ∀ pr ∈ pendingOf sys.init n, pr.isDue now = false) :
    SameView n sys
        { sys with
          init := (sys.init.drainPendingRestarts now).2
          clock := now } ∧
      (sys.init.drainPendingRestarts now).1.count n = 0 := by
  have hnone : (pendingOf sys.init n).filter (PendingRestart.isDue now) = [] := by
    refine List.filter_eq_nil_iff.mpr ?_
    intro pr hpr
    simp [hwaiting pr hpr]
  refine ⟨⟨mainCounters_drained now, ?_, ?_⟩, ?_⟩
  · rw [pendingOf_drained]
    refine List.filter_eq_self.mpr ?_
    intro pr hpr
    simp [hwaiting pr hpr]
  · rw [restartCounts_drained, hnone]
    rfl
  · rw [count_ready, hnone]
    rfl

theorem pendingRestarts_of_startService {name : String} {unit : UnitFile} {os : StartAnswers}
    (hstart : sys.startService name unit os = some sys') :
    sys'.init.pendingRestarts = sys.init.pendingRestarts := by
  rcases System.startService_cases hstart with hfailed | ⟨pid, hstarted⟩
  · exact hfailed.tables.pendingRestarts
  · exact hstarted.pendingRestarts

/-- `process_restarts` only takes due entries out of `pending_restarts_`. -/
theorem pendingRestarts_of_processRestarts {now : TimePoint}
    {os : Nat → StartAnswers} (hstep : sys.step (.processRestarts now os) = some sys') :
    sys'.init.pendingRestarts = (sys.init.drainPendingRestarts now).2.pendingRestarts := by
  rcases System.processRestarts_cases hstep with ⟨-, hrun⟩
  refine System.restartAll_invariant
    (fun _ sys₁ => sys₁.init.pendingRestarts = (sys.init.drainPendingRestarts now).2.pendingRestarts)
    ?_ (fun h _ => h) ?_ rfl hrun
  · intro _ sys₁ sys₂ h hsame
    exact hsame.tables.pendingRestarts.trans h
  · intro _ _ sys₁ sys₂ _ _ h _ hstart
    exact (pendingRestarts_of_startService hstart).trans h

/-! ## Loaded units never change -/

theorem units_of_startService {name : String} {unit : UnitFile} {os : StartAnswers}
    (hstep : sys.startService name unit os = some sys') : sys'.init.units = sys.init.units := by
  rcases System.startService_cases hstep with hfailed | ⟨pid, hstarted⟩
  · exact hfailed.tables.units
  · exact hstarted.units

theorem units_of_drained (now : TimePoint) :
    (sys.init.drainPendingRestarts now).2.units = sys.init.units := by
  rw [drainPendingRestarts_eq]

theorem units_of_step {e : Event} (hstep : sys.step e = some sys') :
    sys'.init.units = sys.init.units := by
  cases e with
  | executeUnit name os =>
      rcases System.executeUnit_cases hstep with hsame | ⟨unit, -, hstart⟩
      · exact hsame.tables.units
      · exact units_of_startService hstart
  | reaped pid status now => exact (System.reaped_cases hstep).units
  | acceptReady listenFd os =>
      rcases System.acceptReady_cases hstep with ⟨-, hnone | ⟨socket, svc, pid, hacc⟩⟩
      · exact hnone.units
      · exact hacc.units
  | processRestarts now os =>
      rcases System.processRestarts_cases hstep with ⟨-, hrun⟩
      refine System.restartAll_invariant (fun _ sys₁ => sys₁.init.units = sys.init.units)
        (fun h hsame => hsame.tables.units.trans h) (fun h _ => h)
        (fun _ h _ hs => (units_of_startService hs).trans h) ?_ hrun
      exact units_of_drained now
  | drainPendingRestarts now =>
      rcases System.drain_cases hstep with ⟨-, rfl⟩
      exact units_of_drained now
  | stopUnit name =>
      exact (System.stop_cases hstep).1.units
  | queueRestart name now =>
      rcases System.queue_cases hstep with ⟨-, rfl⟩
      rfl
  | adopt pid =>
      rcases System.adopt_cases hstep with ⟨-, rfl⟩
      rfl

/-- Whether `n` is a loaded service only depends on the loaded units. -/
theorem findService_of_units {s s' : InitSystem} (h : s'.units = s.units) (n : String) :
    System.findService s' n = System.findService s n := by
  simp only [System.findService, findUnit, h]

end Views

/-! ## The calls of `start_service` in `process_restarts` -/

namespace System

/-- The calls, with the answers each of them gets. -/
def restartCalls (s : InitSystem) (ready : List String) (os : Nat → StartAnswers) :
    List (String × UnitFile × StartAnswers) :=
  ready.zipIdx.filterMap (fun p => (findService s p.1).map (fun unit => (p.1, unit, os p.2)))

/-- One call, after the message in front of it. -/
def restartCall (sys : System) (c : String × UnitFile × StartAnswers) : Option System :=
  let sys := { sys with init := sys.init.log .notice "executor" s!"Restarting {c.1}" }
  sys.startService c.1 c.2.1 c.2.2

/-- The loop makes these calls and no others: no start changes what is loaded. -/
theorem restartAll_eq_foldlM (ready : List String) (os : Nat → StartAnswers) (sys : System) :
    restartAll ready os sys = (restartCalls sys.init ready os).foldlM restartCall sys := by
  induction ready generalizing os sys with
  | nil =>
      rfl
  | cons name rest ih =>
      have hrest : ∀ sys₁ : System, sys₁.init.units = sys.init.units →
          restartAll rest (fun i => os (i + 1)) sys₁ =
            ((rest.zipIdx 1).filterMap (fun p =>
              (findService sys.init p.1).map (fun unit => (p.1, unit, os p.2)))).foldlM
                restartCall sys₁ := by
        intro sys₁ hunits
        rw [ih, restartCalls, List.zipIdx_succ, List.filterMap_map]
        simp only [findService_of_units hunits]
        rfl
      unfold restartAll restartCalls
      rw [List.zipIdx_cons, List.filterMap_cons]
      cases hfind : findService sys.init name with
      | none => simpa using hrest sys rfl
      | some unit =>
          simp only [Option.map_some, List.foldlM_cons]
          cases hstart : restartCall sys (name, unit, os 0) with
          | none =>
              simp only [restartCall] at hstart
              simp [hstart]
          | some sys₁ =>
              simp only [restartCall] at hstart
              have hunits := units_of_startService hstart
              simp only [hstart, Option.bind_some, Option.bind_eq_bind]
              exact hrest sys₁ hunits

/-- A loaded service is started once for each of its occurrences. -/
theorem countP_restartCalls (s : InitSystem) (ready : List String) (os : Nat → StartAnswers)
    (n : String) :
    (restartCalls s ready os).countP (fun c => decide (c.1 = n)) =
      if (findService s n).isSome then ready.count n else 0 := by
  have hcall : ∀ p ∈ ready.zipIdx,
      ((((findService s p.1).map (fun unit => (p.1, unit, os p.2))).map
        (fun c => decide (c.1 = n))).getD false = true ↔
          (decide (p.1 = n) && (findService s n).isSome) = true) := by
    rintro ⟨name, i⟩ -
    by_cases hname : name = n
    · subst hname
      cases findService s name <;> simp
    · cases findService s name <;> simp [hname]
  rw [restartCalls, List.countP_filterMap, List.countP_congr hcall]
  cases (findService s n).isSome with
  | false => simp
  | true =>
      have hnames : ready.count n = (ready.zipIdx.map Prod.fst).count n := by
        rw [List.zipIdx_map_fst]
      rw [if_pos rfl, hnames, List.count, List.countP_map]
      refine List.countP_congr ?_
      simp

end System

end TrivialInit
