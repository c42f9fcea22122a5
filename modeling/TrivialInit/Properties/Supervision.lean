import TrivialInit.Properties.Entries

/-!
# Supervision — which services get lost

A service whose main process has exited and is to be restarted should have a process again, or an
entry in `pending_restarts_`.  `drain_pending_restarts` removes the entry before `start_service` is
called, and `start_service` has paths that do not put it back.

A process that serves a connection can carry the name of the service as well.  The results are
therefore stated for two readings of "has a process": the process that `start_service` forked
(`HasMain`), and any entry of `processes_` with the name (`Tracked`).
-/

namespace TrivialInit

open InitSystem

/-! ## Services that are owed a restart -/

/-- How the main process of a service ended: does `Restart=` ask for a restart, and was the burst
limit exhausted? -/
structure MainExit where
  restartable : Bool
  exhausted : Bool
  deriving DecidableEq, Repr

def mainExits (n : String) (unit : UnitFile) (sys : System) : Event → List MainExit
  | .reaped p status now =>
      match sys.children.lookup p, sys.init.processes.lookup p with
      | some .service, some tp =>
          if tp.unitName = n then
            [{ restartable :=
                shouldRestart (parseRestartPolicy unit.restartPolicy) status.code status.isSignaled
               exhausted := decide ((tp.countExit now).burstCount > unit.restartLimitBurst) }]
          else []
      | _, _ => []
  | _ => []

/-- The last main process of the service is to be restarted. -/
def Owed (exited : List MainExit) : Prop :=
  ∃ e, exited.getLast? = some e ∧ e.restartable = true ∧ e.exhausted = false

/-- `processes_` has an entry for a process that `start_service` forked for `n`. -/
def HasMain (n : String) (sys : System) : Prop :=
  ∃ p tp, sys.children.lookup p = some .service ∧ sys.init.processes.lookup p = some tp ∧
    tp.unitName = n

/-- `processes_` has an entry for `n`. -/
def Tracked (n : String) (sys : System) : Prop :=
  ∃ p tp, sys.init.processes.lookup p = some tp ∧ tp.unitName = n

def HasPending (n : String) (s : InitSystem) : Prop :=
  ∃ pr ∈ s.pendingRestarts, pr.unitName = n

/-- A service that is owed a restart has a process or a pending restart. -/
def Supervised (alive : System → Prop) (n : String) (st : List MainExit × System) : Prop :=
  Owed st.1 → alive st.2 ∨ HasPending n st.2.init

/-! ## The condition on restarts -/

/-- `start_service` gets as far as `fork`, and `fork` succeeds. -/
def StartSucceeds (name : String) (unit : UnitFile) (os : StartAnswers) : Prop :=
  let ctx := SpecifierContext.ofUnit name unit.path
  startPreCode os.info ctx unit.execStartPre os.pre = none ∧ unit.execStart ≠ "" ∧
    commandWords os.info ctx (stripDash unit.execStart).2 ≠ none ∧ ∃ pid, os.forked = .ok pid

/-- When `process_restarts` takes the last pending restarts of an owed service that has no process,
then one of the starts succeeds. -/
def RestartSucceeds (alive : System → Prop) (n : String) (unit : UnitFile)
    (st : List MainExit × System) : Event → Prop
  | .processRestarts now os =>
      Owed st.1 → ¬ alive st.2 →
        (∀ pr ∈ st.2.init.pendingRestarts, pr.unitName = n → pr.when ≤ now) →
          ∃ i, (st.2.init.drainPendingRestarts now).1[i]? = some n ∧ StartSucceeds n unit (os i)
  | _ => True

/-- The events of the main loop of a service that is not stopped: restarts are only drained by
`process_restarts`. -/
def Event.InMainLoop (n : String) : Event → Prop
  | .drainPendingRestarts _ => False
  | .stopUnit name => name ≠ n
  | _ => True

theorem startedPid_isSome_iff {name : String} {unit : UnitFile} {os : StartAnswers} :
    (startedPid name unit os).isSome = true ↔ StartSucceeds name unit os := by
  unfold startedPid StartSucceeds
  dsimp only
  cases hpre : startPreCode os.info (SpecifierContext.ofUnit name unit.path) unit.execStartPre
      os.pre with
  | some code => simp
  | none =>
      by_cases hexec : unit.execStart = ""
      · simp [hexec]
      · cases hwords : commandWords os.info (SpecifierContext.ofUnit name unit.path)
            (stripDash unit.execStart).2 with
        | none => simp [hexec]
        | some words =>
            cases hforked : os.forked with
            | error reason => simp [hexec, Except.toOption]
            | ok pid => simp [hexec, Except.toOption]

/-! ## Processes and starts -/

section Processes

variable {n : String} {unit : UnitFile} {alive : System → Prop} {sys sys' : System}

/-- Among the calls of `process_restarts`, a successful start of `n` makes `alive` true, and nothing
makes it false. -/
structure StartedBy (n : String) (alive : System → Prop) : Prop where
  same : ∀ {sys sys' : System}, System.SameSystem sys sys' → (alive sys' ↔ alive sys)
  drained : ∀ (sys : System) (now : TimePoint),
    alive
        { sys with
          init := (sys.init.drainPendingRestarts now).2
          clock := now } ↔
      alive sys
  start : ∀ {sys sys' : System} {name : String} {unit : UnitFile} {os : StartAnswers},
    TableInv sys → sys.startService name unit os = some sys' →
      (alive sys' ↔ alive sys ∨ (name = n ∧ StartSucceeds name unit os))

theorem hasMain_iff : HasMain n sys ↔ ∃ p c, mainCounters sys n p = some c := by
  constructor
  · rintro ⟨p, tp, hkind, htp, hname⟩
    exact ⟨p, tp.counters, mainCounters_eq_some.mpr ⟨hkind, tp, htp, hname, rfl⟩⟩
  · rintro ⟨p, c, hmain⟩
    rcases mainCounters_eq_some.mp hmain with ⟨hkind, tp, htp, hname, -⟩
    exact ⟨p, tp, hkind, htp, hname⟩

theorem hasMain_congr (hmain : mainCounters sys' n = mainCounters sys n) :
    HasMain n sys' ↔ HasMain n sys := by
  rw [hasMain_iff, hasMain_iff, hmain]

theorem hasMain_startService {name : String} {os : StartAnswers}
    (hstart : sys.startService name unit os = some sys') :
    HasMain n sys' ↔ HasMain n sys ∨ (name = n ∧ StartSucceeds name unit os) := by
  rw [← startedPid_isSome_iff]
  rcases System.startService_cases hstart with hfailed | ⟨pid, hstarted⟩
  · rw [hasMain_congr (sameView_of_startFailed hfailed).main, hfailed.notStarted]
    simp
  · rw [hstarted.started, hasMain_iff, mainCounters_of_started hstarted]
    by_cases hname : name = n
    · refine iff_of_true ⟨pid, (sys.init.startedProcess name unit pid).counters, ?_⟩
        (Or.inr ⟨hname, rfl⟩)
      rw [if_pos hname, Function.update_self]
    · rw [if_neg hname, ← hasMain_iff]
      simp [hname]

theorem hasMain_startedBy (n : String) : StartedBy n (HasMain n) where
  same := fun hsame => hasMain_congr (sameView_of_sameSystem hsame).main
  drained := fun _ now => hasMain_congr (mainCounters_drained now)
  start := fun _ hstart => hasMain_startService hstart

theorem tracked_congr (hprocesses : sys'.init.processes = sys.init.processes) :
    Tracked n sys' ↔ Tracked n sys := by
  rw [Tracked, Tracked, hprocesses]

theorem tracked_startService {name : String} {os : StartAnswers} (hinv : TableInv sys)
    (hstart : sys.startService name unit os = some sys') :
    Tracked n sys' ↔ Tracked n sys ∨ (name = n ∧ StartSucceeds name unit os) := by
  rw [← startedPid_isSome_iff]
  rcases System.startService_cases hstart with hfailed | ⟨pid, hstarted⟩
  · rw [tracked_congr hfailed.tables.processes, hfailed.notStarted]
    simp
  · have hname := startedProcess_unitName sys.init name unit pid
    simp only [hstarted.started, Option.isSome_some, and_true]
    constructor
    · rintro ⟨p, tp, htp, hunit⟩
      rw [hstarted.lookup_processes] at htp
      split_ifs at htp
      · obtain rfl := Option.some.inj htp
        exact Or.inr (hname.symm.trans hunit)
      · exact Or.inl ⟨p, tp, htp, hunit⟩
    · rintro (⟨p, tp, htp, hunit⟩ | hunit)
      · -- The new process does not take the entry of an old one.
        have hne : p ≠ pid := by
          rintro rfl
          exact hinv.notMem_processes hstarted.fresh (UnorderedMap.mem_of_lookup htp)
        exact ⟨p, tp, by rw [hstarted.lookup_processes, if_neg hne, htp], hunit⟩
      · exact ⟨pid, _, by rw [hstarted.lookup_processes, if_pos rfl], hname.trans hunit⟩

theorem tracked_startedBy (n : String) : StartedBy n (Tracked n) where
  same := fun hsame => tracked_congr hsame.tables.processes
  drained := fun sys now => tracked_congr (by rw [drainPendingRestarts_eq])
  start := tracked_startService

theorem StartedBy.foldlM (halive : StartedBy n alive)
    {calls : List (String × UnitFile × StartAnswers)} (hinv : TableInv sys)
    (hrun : calls.foldlM System.restartCall sys = some sys') :
    alive sys' ↔ alive sys ∨ ∃ c ∈ calls, c.1 = n ∧ StartSucceeds c.1 c.2.1 c.2.2 := by
  induction calls generalizing sys with
  | nil =>
      obtain rfl := Option.some.inj hrun
      simp
  | cons c calls ih =>
      rw [List.foldlM_cons] at hrun
      rcases Option.bind_eq_some_iff.mp hrun with ⟨sys₁, hstart, hrest⟩
      have hsame := System.sameSystem_log sys .notice "executor" s!"Restarting {c.1}"
      have hlogged := hinv.sameSystem hsame
      rw [ih (hlogged.startService hstart) hrest, halive.start hlogged hstart, halive.same hsame,
        or_assoc]
      simp

theorem mem_restartCalls {s : InitSystem} {ready : List String} {os : Nat → StartAnswers}
    {c : String × UnitFile × StartAnswers} :
    c ∈ System.restartCalls s ready os ↔
      ∃ i, ready[i]? = some c.1 ∧ System.findService s c.1 = some c.2.1 ∧ c.2.2 = os i := by
  unfold System.restartCalls
  rw [List.mem_filterMap]
  constructor
  · rintro ⟨⟨name, i⟩, hi, hc⟩
    rcases Option.map_eq_some_iff.mp hc with ⟨unit, hfind, rfl⟩
    exact ⟨i, List.mem_zipIdx_iff_getElem?.mp hi, hfind, rfl⟩
  · rintro ⟨i, hi, hfind, hos⟩
    refine ⟨(c.1, i), List.mem_zipIdx_iff_getElem?.mpr hi, ?_⟩
    rw [hfind, ← hos]
    rfl

/-- After `process_restarts` the service has a process if it had one, or if a start succeeded. -/
theorem StartedBy.processRestarts (halive : StartedBy n alive) (hinv : TableInv sys)
    {now : TimePoint} {os : Nat → StartAnswers}
    (hunit : System.findService sys.init n = some unit)
    (hstep : sys.step (.processRestarts now os) = some sys') :
    alive sys' ↔ alive sys ∨
      ∃ i, (sys.init.drainPendingRestarts now).1[i]? = some n ∧ StartSucceeds n unit (os i) := by
  rcases System.processRestarts_cases hstep with ⟨-, hrun⟩
  rw [System.restartAll_eq_foldlM] at hrun
  rw [halive.foldlM (hinv.drained now) hrun, halive.drained]
  refine or_congr Iff.rfl ?_
  simp only [mem_restartCalls, findService_of_units (units_of_drained now)]
  constructor
  · rintro ⟨⟨name, unit', os'⟩, ⟨i, hi, hfind, rfl⟩, rfl, hsucceeds⟩
    rw [hunit] at hfind
    obtain rfl := Option.some.inj hfind
    exact ⟨i, hi, hsucceeds⟩
  · rintro ⟨i, hi, hsucceeds⟩
    exact ⟨(n, unit, os i), ⟨i, hi, hunit, rfl⟩, rfl, hsucceeds⟩

/-- After `process_restarts` the entries that were not due are left. -/
theorem hasPending_processRestarts {now : TimePoint} {os : Nat → StartAnswers}
    (hstep : sys.step (.processRestarts now os) = some sys') :
    HasPending n sys'.init ↔
      ∃ pr ∈ sys.init.pendingRestarts, pr.unitName = n ∧ ¬ pr.when ≤ now := by
  rw [HasPending, pendingRestarts_of_processRestarts hstep, drainPendingRestarts_eq]
  simp only [List.mem_filter, PendingRestart.isDue]
  constructor
  · rintro ⟨pr, ⟨hpr, hdue⟩, hname⟩
    exact ⟨pr, hpr, hname, by simpa using hdue⟩
  · rintro ⟨pr, hpr, hname, hdue⟩
    exact ⟨pr, ⟨hpr, by simpa using hdue⟩, hname⟩

end Processes

/-! ## Step by step -/

/-- The main processes of `n` carry the restart settings of its unit file. -/
structure ServiceInv (n : String) (unit : UnitFile) (sys : System) : Prop where
  base : BaseInv sys
  loaded : System.findService sys.init n = some unit
  settings : ∀ p tp, sys.children.lookup p = some .service →
    sys.init.processes.lookup p = some tp → tp.unitName = n →
    tp.restartPolicy = parseRestartPolicy unit.restartPolicy ∧
      tp.burstLimit = unit.restartLimitBurst

section Steps

variable {n : String} {unit : UnitFile} {exited : List MainExit} {sys sys' : System}

theorem Booted.serviceInv (h : Booted sys) (hunit : System.findService sys.init n = some unit) :
    ServiceInv n unit sys where
  base := h.baseInv
  loaded := hunit
  settings := by simp [h.processes]

theorem ServiceInv.step (h : ServiceInv n unit sys) {e : Event} (hloop : e.InMainLoop n)
    (hstep : sys.step e = some sys') : ServiceInv n unit sys' where
  base := h.base.step hstep
  loaded := (findService_of_units (units_of_step hstep) n).trans h.loaded
  settings := by
    intro p tp hkind htp hname
    cases entry_of_step h.base.table hstep htp hkind with
    | kept entry child => exact h.settings p tp child entry hname
    | accepted socket svc child entry => cases child
    | started name unit' counts child starts loaded entry stored =>
        obtain rfl : name = n := by
          simpa [entry, serviceEntry, trackedEntry] using hname
        rw [h.loaded] at loaded
        obtain rfl := Option.some.inj loaded
        simp [entry, serviceEntry, trackedEntry]
    | stopped name old event named oldEntry child oldName entry =>
        subst event
        exact absurd (oldName.symm.trans (by simpa [entry] using hname)) hloop

theorem Supervised.congr (h : Supervised (HasMain n) n (exited, sys)) (hmain : HasMain n sys → HasMain n sys')
    (hpending : HasPending n sys.init → HasPending n sys'.init) : Supervised (HasMain n) n (exited, sys') := by
  intro howed
  rcases h howed with hm | hp
  · exact Or.inl (hmain hm)
  · exact Or.inr (hpending hp)

theorem hasPending_of_eq (heq : sys'.init.pendingRestarts = sys.init.pendingRestarts)
    (h : HasPending n sys.init) : HasPending n sys'.init := by
  rcases h with ⟨pr, hpr, hname⟩
  exact ⟨pr, by rw [heq]; exact hpr, hname⟩

theorem hasPending_iff : HasPending n sys.init ↔ pendingOf sys.init n ≠ [] := by
  simp [HasPending, pendingOf, List.filter_eq_nil_iff]

theorem Supervised.of_view (h : Supervised (HasMain n) n (exited, sys)) (hview : SameView n sys sys') :
    Supervised (HasMain n) n (exited, sys') := by
  refine h.congr (hasMain_congr hview.main).mpr ?_
  rw [hasPending_iff, hasPending_iff, hview.pending]
  exact id

/-- `reap_children` puts the exit of an owed service into `pending_restarts_`. -/
theorem supervised_reaped_main (h : ServiceInv n unit sys) {pid : Pid} {status : WaitStatus}
    {now : TimePoint} {tp : TrackedProcess} (hreaped : System.Reaped sys pid status now sys')
    (hkind : sys.children.lookup pid = some .service)
    (htp : sys.init.processes.lookup pid = some tp) (hname : tp.unitName = n) :
    Supervised (HasMain n) n (exited ++ mainExits n unit sys (.reaped pid status now), sys') := by
  rintro ⟨e, hlast, hrestartable, hexhausted⟩
  rcases h.settings pid tp hkind htp hname with ⟨hpolicy, hlimit⟩
  have hobs : mainExits n unit sys (.reaped pid status now) =
      [{ restartable :=
          shouldRestart (parseRestartPolicy unit.restartPolicy) status.code status.isSignaled
         exhausted := decide ((tp.countExit now).burstCount > unit.restartLimitBurst) }] := by
    simp [mainExits, hkind, htp, hname]
  -- This exit is the last one, so it is the one the service is owed a restart for.
  rw [hobs, List.getLast?_append_of_ne_nil _ (by simp)] at hlast
  obtain rfl := Option.some.inj hlast
  have hshould :
      shouldRestart (parseRestartPolicy unit.restartPolicy) status.code status.isSignaled = true :=
    hrestartable
  have hallowed : ¬ (tp.countExit now).burstCount > unit.restartLimitBurst :=
    of_decide_eq_false hexhausted
  have hcounted : (tp.countExit now).burstLimit = unit.restartLimitBurst := by
    rw [countExit_burstLimit, hlimit]
  have houtcome : exitOutcome tp status now =
      .scheduled ((tp.countExit now).pendingRestart now) := by
    rw [exitOutcome, hpolicy, hcounted, if_pos hshould, if_neg hallowed]
  refine Or.inr ⟨(tp.countExit now).pendingRestart now, ?_,
    (unitName_pendingRestart tp now).trans hname⟩
  rw [hreaped.pendingRestarts htp, houtcome]
  simp [ExitOutcome.pending]

theorem Supervised.reaped (h : Supervised (HasMain n) n (exited, sys)) (hinv : ServiceInv n unit sys)
    {pid : Pid} {status : WaitStatus} {now : TimePoint}
    (hreaped : System.Reaped sys pid status now sys') :
    Supervised (HasMain n) n (exited ++ mainExits n unit sys (.reaped pid status now), sys') := by
  cases hmain : mainCounters sys n pid with
  | some c =>
      rcases mainCounters_eq_some.mp hmain with ⟨hkind, tp, htp, hname, -⟩
      exact supervised_reaped_main hinv hreaped hkind htp hname
  | none =>
      have hobs : mainExits n unit sys (.reaped pid status now) = [] := by
        unfold mainExits
        dsimp only
        split
        · rename_i tp hkind htp
          split_ifs with hname
          · have hsome := mainCounters_eq_some.mpr ⟨hkind, tp, htp, hname, rfl⟩
            rw [hmain] at hsome
            cases hsome
          · rfl
        · rfl
      rw [hobs, List.append_nil]
      exact h.of_view (sameView_of_reaped hinv.base hreaped hmain).1

/-- After `process_restarts` the service is supervised exactly if the condition holds. -/
theorem supervised_processRestarts_iff {alive : System → Prop} (halive : StartedBy n alive)
    (hinv : ServiceInv n unit sys) {now : TimePoint} {os : Nat → StartAnswers}
    (hstep : sys.step (.processRestarts now os) = some sys') :
    Supervised alive n (exited, sys') ↔
      RestartSucceeds alive n unit (exited, sys) (.processRestarts now os) := by
  unfold Supervised RestartSucceeds
  dsimp only
  rw [halive.processRestarts hinv.base.table hinv.loaded hstep, hasPending_processRestarts hstep]
  constructor
  · intro hnext howed hidle hdue
    -- No process before and nothing left to wait for: only a successful start remains.
    rcases hnext howed with (hmain | hsucceeds) | ⟨pr, hpr, hname, hlater⟩
    · exact absurd hmain hidle
    · exact hsucceeds
    · exact absurd (hdue pr hpr hname) hlater
  · intro hok howed
    by_cases hmain : alive sys
    · exact Or.inl (Or.inl hmain)
    -- Either every entry of the service is taken out, or one of them stays behind.
    · by_cases hdue : ∀ pr ∈ sys.init.pendingRestarts, pr.unitName = n → pr.when ≤ now
      · exact Or.inl (Or.inr (hok howed hmain hdue))
      · push Not at hdue
        rcases hdue with ⟨pr, hpr, hname, hlater⟩
        exact Or.inr ⟨pr, hpr, hname, not_le.mpr hlater⟩

theorem supervised_step_iff (h : Supervised (HasMain n) n (exited, sys)) (hinv : ServiceInv n unit sys)
    {e : Event} (hloop : e.InMainLoop n) (hstep : sys.step e = some sys') :
    Supervised (HasMain n) n (exited ++ mainExits n unit sys e, sys') ↔
      RestartSucceeds (HasMain n) n unit (exited, sys) e := by
  have hquiet : mainExits n unit sys e = [] → RestartSucceeds (HasMain n) n unit (exited, sys) e →
      Supervised (HasMain n) n (exited, sys') →
      (Supervised (HasMain n) n (exited ++ mainExits n unit sys e, sys') ↔
        RestartSucceeds (HasMain n) n unit (exited, sys) e) := by
    intro hobs hok hnext
    rw [hobs, List.append_nil]
    exact iff_of_true hnext hok
  cases e with
  | executeUnit name os =>
      refine hquiet rfl trivial ?_
      rcases System.executeUnit_cases hstep with hsame | ⟨unit', -, hstart⟩
      · exact h.of_view (sameView_of_sameSystem hsame)
      · exact h.congr (fun hm => (hasMain_startService hstart).mpr (Or.inl hm))
          (hasPending_of_eq (pendingRestarts_of_startService hstart))
  | reaped pid status now =>
      exact iff_of_true (h.reaped hinv (System.reaped_cases hstep)) trivial
  | acceptReady listenFd os => exact hquiet rfl trivial (h.of_view (sameView_of_acceptReady hstep))
  | processRestarts now os =>
      have hobs : mainExits n unit sys (.processRestarts now os) = [] := rfl
      rw [hobs, List.append_nil]
      exact supervised_processRestarts_iff (hasMain_startedBy n) hinv hstep
  | drainPendingRestarts now => cases hloop
  | stopUnit name => exact hquiet rfl trivial (h.of_view (sameView_of_stopUnit hstep))
  | queueRestart name now =>
      refine hquiet rfl trivial ?_
      rcases System.queue_cases hstep with ⟨-, rfl⟩
      refine h.congr id ?_
      rintro ⟨pr, hpr, hname⟩
      exact ⟨pr, List.mem_append_left _ hpr, hname⟩
  | adopt pid => exact hquiet rfl trivial (h.of_view (sameView_of_adopt hstep))

/-- At the loop boundary, the condition on the step is exact from any state. -/
theorem supervised_boundary_iff (hinv : ServiceInv n unit sys) {e : Event}
    (hstep : sys.step e = some sys') :
    (∀ now os, e = .processRestarts now os →
      Supervised (Tracked n) n (exited ++ mainExits n unit sys e, sys')) ↔
      RestartSucceeds (Tracked n) n unit (exited, sys) e := by
  cases e with
  | processRestarts now os =>
      rw [← supervised_processRestarts_iff (tracked_startedBy n) hinv hstep]
      have hobs : mainExits n unit sys (.processRestarts now os) = [] := rfl
      rw [hobs, List.append_nil]
      constructor
      · intro h
        exact h now os rfl
      · intro h _ _ _
        exact h
  | _ => exact iff_of_true (fun _ _ hne => nomatch hne) trivial

end Steps

/-! ## Whole runs -/

/-- In every run of the main loop, a service that is owed a restart has a process in `processes_` or a
pending restart after every `process_restarts` exactly if, whenever `process_restarts` takes the last
pending restarts of an owed service without a process, a start succeeds.  For the processes that
`start_service` forks, the same condition decides about all states of the run. -/
theorem supervised_iff_restarts_succeed {boot sys : System} {n : String} {unit : UnitFile}
    {es : List Event} (hboot : Booted boot)
    (hunit : System.findService boot.init n = some unit) (hloop : ∀ e ∈ es, e.InMainLoop n)
    (hrun : boot.run es = some sys) :
    ((∀ es₁ now os st, es₁ ++ [.processRestarts now os] <+: es →
        StepRun.run (StepRun.recorded System.step (mainExits n unit)) ([], boot)
          (es₁ ++ [.processRestarts now os]) = some st → Supervised (Tracked n) n st) ↔
      StepRun.StepsMeet (StepRun.recorded System.step (mainExits n unit))
        (RestartSucceeds (Tracked n) n unit) ([], boot) es) ∧
    ((∀ st, StepRun.Visits (StepRun.recorded System.step (mainExits n unit)) ([], boot) es st →
        Supervised (HasMain n) n st) ↔
      StepRun.StepsMeet (StepRun.recorded System.step (mainExits n unit))
        (RestartSucceeds (HasMain n) n unit) ([], boot) es) := by
  have hrun' : StepRun.run System.step boot es = some sys := hrun
  have hrecorded : StepRun.run (StepRun.recorded System.step (mainExits n unit)) ([], boot) es =
      some ([] ++ StepRun.trace System.step (mainExits n unit) boot es, sys) := by
    rw [StepRun.run_recorded, hrun']
    rfl
  have hkeep : ∀ (st : List MainExit × System) (e : Event) (st' : List MainExit × System),
      ServiceInv n unit st.2 → e.InMainLoop n →
      StepRun.recorded System.step (mainExits n unit) st e = some st' →
      ServiceInv n unit st'.2 := by
    rintro ⟨exited, sys₁⟩ e ⟨exited', sys₂⟩ hinv hgood hstep
    exact ServiceInv.step hinv hgood (StepRun.recorded_eq_some.mp hstep).1
  constructor
  · have hsteps := StepRun.steps_iff_stepsMeet
      (fun st : List MainExit × System => ServiceInv n unit st.2)
      (fun e st => ∀ now os, e = .processRestarts now os → Supervised (Tracked n) n st)
      (RestartSucceeds (Tracked n) n unit) hkeep ?_ (hboot.serviceInv hunit) hloop hrecorded
    · rw [← hsteps]
      constructor
      · rintro hall es₁ e st hpre hst now os rfl
        exact hall es₁ now os st hpre hst
      · intro hall es₁ now os st hpre hst
        exact hall es₁ _ st hpre hst now os rfl
    · rintro ⟨exited, sys₁⟩ e ⟨exited', sys₂⟩ hinv hgood hstep
      rcases StepRun.recorded_eq_some.mp hstep with ⟨hnext, rfl⟩
      exact supervised_boundary_iff hinv hnext
  · refine StepRun.visits_iff_stepsMeet (fun st => ServiceInv n unit st.2) (Supervised (HasMain n) n)
      hkeep ?_ (hboot.serviceInv hunit) ?_ hloop hrecorded
    · rintro ⟨exited, sys₁⟩ e ⟨exited', sys₂⟩ hinv h hgood hstep
      rcases StepRun.recorded_eq_some.mp hstep with ⟨hnext, rfl⟩
      exact supervised_step_iff h hinv hgood hnext
    · rintro ⟨e, hlast, -⟩
      cases hlast

/-- A service crashes, and its restart forks with the given result. -/
def sampleRestart (forked : ForkAnswer) : List Event :=
  [ .executeUnit "web.service" (forkedAs 100),
    .reaped 100 (.exited 1) 1000000000,
    .processRestarts 1200000000 (fun _ => { forked := forked }) ]

theorem sampleRestart_inMainLoop (forked : ForkAnswer) :
    ∀ e ∈ sampleRestart forked, e.InMainLoop "web.service" := by
  simp [sampleRestart, Event.InMainLoop]

theorem supervised_iff_restarts_succeed_sample :
    ∃ sys, sampleBoot.run (sampleRestart (.ok 101)) = some sys ∧
      ((∀ st, StepRun.Visits (StepRun.recorded System.step (mainExits "web.service" sampleWeb))
          ([], sampleBoot) (sampleRestart (.ok 101)) st →
            Supervised (HasMain "web.service") "web.service" st) ↔
        StepRun.StepsMeet (StepRun.recorded System.step (mainExits "web.service" sampleWeb))
          (RestartSucceeds (HasMain "web.service") "web.service" sampleWeb) ([], sampleBoot)
          (sampleRestart (.ok 101))) := by
  have hsome : (sampleBoot.run (sampleRestart (.ok 101))).isSome = true := by
    decide
  rcases Option.isSome_iff_exists.mp hsome with ⟨sys, hrun⟩
  exact ⟨sys, hrun, (supervised_iff_restarts_succeed sampleBoot_booted rfl
    (sampleRestart_inMainLoop _) hrun).2⟩

/-- When `fork` fails during the restart, the service is neither tracked nor pending. -/
theorem not_always_supervised :
    ¬ ∀ (boot sys : System) (n : String) (unit : UnitFile) (es : List Event), Booted boot →
        System.findService boot.init n = some unit → (∀ e ∈ es, e.InMainLoop n) →
        boot.run es = some sys → Owed (StepRun.trace System.step (mainExits n unit) boot es) →
        (∃ p tp, sys.init.processes.lookup p = some tp ∧ tp.unitName = n) ∨
          HasPending n sys.init := by
  intro hall
  have hlost : ((sampleBoot.run (sampleRestart (.error "EAGAIN"))).any (fun sys =>
      decide (sys.init.processes.keys = []) && decide (sys.init.pendingRestarts = []))) = true := by
    decide
  have howed : Owed (StepRun.trace System.step (mainExits "web.service" sampleWeb) sampleBoot
      (sampleRestart (.error "EAGAIN"))) :=
    ⟨{ restartable := true, exhausted := false }, by decide, rfl, rfl⟩
  cases hrun : sampleBoot.run (sampleRestart (.error "EAGAIN")) with
  | none =>
      rw [hrun] at hlost
      cases hlost
  | some sys =>
      rw [hrun, Option.any_some, Bool.and_eq_true, decide_eq_true_eq, decide_eq_true_eq] at hlost
      rcases hlost with ⟨hprocesses, hpending⟩
      rcases hall sampleBoot sys "web.service" sampleWeb _ sampleBoot_booted rfl
          (sampleRestart_inMainLoop _) hrun howed with ⟨p, tp, htp, -⟩ | ⟨pr, hpr, -⟩
      · have hmem := AList.mem_keys.mp (UnorderedMap.mem_of_lookup htp)
        rw [hprocesses] at hmem
        cases hmem
      · rw [hpending] at hpr
        cases hpr

end TrivialInit
