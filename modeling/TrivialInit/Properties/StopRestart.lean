import TrivialInit.Properties.Entries
import TrivialInit.Properties.RestartLineage

/-!
# StopRestart — when `stop_unit` is final

`stop_unit` takes the restart policy away from the process its name points to.  A restart can also be
due to an entry of `pending_restarts_`, or to another process of the same unit.  This module says
exactly which states allow the unit to be started again after the stop.
-/

namespace TrivialInit

open InitSystem

/-! ## Burst counters -/

/-- Burst counters never become negative, wherever they are kept. -/
structure CountInv (sys : System) : Prop where
  processes : ∀ p tp, sys.init.processes.lookup p = some tp → 0 ≤ tp.burstCount
  pending : ∀ pr ∈ sys.init.pendingRestarts, 0 ≤ pr.burstCount
  stored : ∀ n counts, sys.init.restartCounts.lookup n = some counts → 0 ≤ counts.burstCount

theorem Booted.countInv {sys : System} (h : Booted sys) : CountInv sys where
  processes := by simp [h.processes]
  pending := by simp [h.pendingRestarts]
  stored := by simp [h.restartCounts]

theorem CountInv.of_stored {sys : System} (h : CountInv sys) {counts : RestartMeta}
    (hstored : Stored sys counts) : 0 ≤ counts.burstCount := by
  rcases hstored with ⟨n, hn⟩ | ⟨pr, hpr, rfl⟩
  · exact h.stored n counts hn
  · exact h.pending pr hpr

theorem one_le_countExit {tp : TrackedProcess} (h : 0 ≤ tp.burstCount) (now : TimePoint) :
    1 ≤ (tp.countExit now).burstCount := by
  rw [countExit_burstCount]
  split_ifs <;> omega

theorem CountInv.step {sys sys' : System} {e : Event} (hinv : TableInv sys) (h : CountInv sys)
    (hstep : sys.step e = some sys') : CountInv sys' where
  processes := by
    intro p tp htp
    have hinv' := hinv.step hstep
    rcases (hinv'.tracked p).mp (UnorderedMap.mem_of_lookup htp) with ⟨kind, hkind, -⟩
    cases entry_of_step hinv hstep htp hkind with
    | kept entry child => exact h.processes p tp entry
    | accepted socket svc child entry => simp [entry, trackedEntry]
    | started name unit counts child starts loaded entry stored =>
        cases counts with
        | none => simp [entry, serviceEntry, TrackedProcess.withCounts, trackedEntry]
        | some counts =>
            have hcounts := h.of_stored (stored counts rfl)
            simpa [entry, serviceEntry, TrackedProcess.withCounts] using hcounts
    | stopped name old event named oldEntry child oldName entry =>
        rw [entry]
        exact h.processes p old oldEntry
  pending := by
    intro pr hpr
    rcases pending_of_step hstep hpr with hold | ⟨name, now, -, -, hzero⟩ |
      ⟨pid, status, now, tp, -, htp, hnew⟩
    · exact h.pending pr hold
    · omega
    · have hone := one_le_countExit (h.processes pid tp htp) now
      rw [(pending_exitOutcome hnew).1]
      simp only [TrackedProcess.pendingRestart]
      omega
  stored := fun n counts hcounts => h.of_stored (stored_of_step hstep hcounts)

/-! ## Processes that can be restarted -/

/-- Some exit of the process leads to a restart. -/
def TrackedProcess.Restartable (tp : TrackedProcess) : Prop :=
  tp.restartPolicy ≠ .no ∧ tp.restartPolicy ≠ .onWatchdog ∧ 1 ≤ tp.burstLimit

/-- A status for which `should_restart` holds under the policy. -/
def restartStatus : RestartPolicy → WaitStatus
  | .onSuccess => .exited 0
  | _ => .signaled 15

theorem shouldRestart_restartStatus {policy : RestartPolicy} (hno : policy ≠ .no)
    (hwatchdog : policy ≠ .onWatchdog) :
    shouldRestart policy (restartStatus policy).code (restartStatus policy).isSignaled = true := by
  cases policy with
  | no => exact absurd rfl hno
  | onWatchdog => exact absurd rfl hwatchdog
  | onSuccess => rfl
  | onFailure => rfl
  | onAbnormal => rfl
  | onAbort => rfl
  | always => rfl

theorem shouldRestart_policy {policy : RestartPolicy} {code : Int} {signaled : Bool}
    (h : shouldRestart policy code signaled = true) : policy ≠ .no ∧ policy ≠ .onWatchdog := by
  constructor
  · rintro rfl
    cases h
  · rintro rfl
    cases h

namespace TrackedProcess.Restartable

variable {tp : TrackedProcess}

/-- An exit late enough to open a new window is within the burst limit. -/
theorem exists_scheduled (h : tp.Restartable) (clock : TimePoint) :
    ∃ status now, clock ≤ now ∧
      exitOutcome tp status now = .scheduled ((tp.countExit now).pendingRestart now) := by
  rcases h with ⟨hno, hwatchdog, hlimit⟩
  refine ⟨restartStatus tp.restartPolicy,
    max clock (tp.burstWindowStart + seconds tp.burstIntervalS + 1), le_max_left _ _, ?_⟩
  generalize hnow : max clock (tp.burstWindowStart + seconds tp.burstIntervalS + 1) = now
  have hexpired : tp.windowExpired now = true := by
    have hle : tp.burstWindowStart + seconds tp.burstIntervalS + 1 ≤ now := by
      rw [← hnow]
      exact le_max_right _ _
    have hlate : seconds tp.burstIntervalS < now - tp.burstWindowStart := by
      rw [lt_sub_iff_add_lt, add_comm]
      exact Int.lt_of_add_one_le hle
    exact decide_eq_true hlate
  have hallowed : ¬ (tp.countExit now).burstCount > (tp.countExit now).burstLimit := by
    rw [countExit_burstCount, countExit_burstLimit, hexpired, if_pos rfl]
    omega
  rw [exitOutcome, if_pos (shouldRestart_restartStatus hno hwatchdog), if_neg hallowed]

/-- A process with a pending restart was restartable. -/
theorem of_pending {status : WaitStatus} {now : TimePoint} {pr : PendingRestart}
    (hcount : 0 ≤ tp.burstCount) (hpr : pr ∈ (exitOutcome tp status now).pending) :
    tp.Restartable := by
  have houtcome := (pending_exitOutcome hpr).2
  unfold exitOutcome at houtcome
  split_ifs at houtcome with hshould hburst
  rcases shouldRestart_policy hshould with ⟨hno, hwatchdog⟩
  have hone := one_le_countExit hcount now
  rw [countExit_burstLimit] at hburst
  exact ⟨hno, hwatchdog, by omega⟩

end TrackedProcess.Restartable

/-! ## Units that cannot be started any more -/

/-- The calls of `start_service` for `n` that `process_restarts` makes, unless an exception in an
earlier one ends the program. -/
def restartCallsOf (n : String) (sys : System) : Event → List (String × UnitFile × StartAnswers)
  | .processRestarts now os =>
      (System.restartCalls (sys.init.drainPendingRestarts now).2
        (sys.init.drainPendingRestarts now).1 os).filter (fun c => decide (c.1 = n))
  | _ => []

/-- No restart of `n` is pending, and no process of `n` can be restarted. -/
structure Retired (n : String) (sys : System) : Prop where
  pending : pendingOf sys.init n = []
  processes : ∀ p tp, sys.init.processes.lookup p = some tp → tp.unitName = n → ¬ tp.Restartable

section Retired

variable {n : String} {sys sys' : System} {e : Event}

theorem length_restartCallsOf (n : String) (sys : System) (now : TimePoint)
    (os : Nat → StartAnswers) :
    (restartCallsOf n sys (.processRestarts now os)).length =
      if (System.findService sys.init n).isSome then
        ((pendingOf sys.init n).filter (PendingRestart.isDue now)).length
      else 0 := by
  rw [restartCallsOf, ← List.countP_eq_length_filter, System.countP_restartCalls,
    findService_of_units (units_of_drained now), count_ready]

theorem restartCallsOf_eq_nil (e : Event)
    (h : System.findService sys.init n = none ∨ pendingOf sys.init n = []) :
    restartCallsOf n sys e = [] := by
  cases e with
  | processRestarts now os =>
      rw [← List.length_eq_zero_iff, length_restartCallsOf]
      rcases h with hnone | hpending
      · simp [hnone]
      · simp [hpending]
  | _ => rfl

theorem Retired.step (h : Retired n sys) (hinv : TableInv sys) (hcount : CountInv sys)
    (hexec : e.executes n = false) (hqueue : e.queues n = false)
    (hstep : sys.step e = some sys') : Retired n sys' where
  pending := by
    refine List.filter_eq_nil_iff.mpr ?_
    intro pr hpr hname
    have hname : pr.unitName = n := of_decide_eq_true hname
    rcases pending_of_step hstep hpr with hold | ⟨name, now, rfl, hqueued, -⟩ |
      ⟨pid, status, now, tp, -, htp, hnew⟩
    · have hmem : pr ∈ pendingOf sys.init n := List.mem_filter.mpr ⟨hold, by simp [hname]⟩
      rw [h.pending] at hmem
      cases hmem
    · exact absurd (hqueued.symm.trans hname) (of_decide_eq_false hqueue)
    -- A new entry comes from a process of the unit, which would have been restartable.
    · have hunit : tp.unitName = n := by
        rw [← hname, (pending_exitOutcome hnew).1, unitName_pendingRestart]
      exact h.processes pid tp htp hunit
        (TrackedProcess.Restartable.of_pending (hcount.processes pid tp htp) hnew)
  processes := by
    intro p tp htp hname hrestartable
    rcases ((hinv.step hstep).tracked p).mp (UnorderedMap.mem_of_lookup htp) with ⟨kind, hkind, -⟩
    cases entry_of_step hinv hstep htp hkind with
    | kept entry child => exact h.processes p tp entry hname hrestartable
    | accepted socket svc child entry => exact hrestartable.1 (by rw [entry]; rfl)
    | stopped name old event named oldEntry child oldName entry =>
        exact hrestartable.1 (by rw [entry])
    | started name unit counts child starts loaded entry stored =>
        -- A new process of the unit needs a call of `start_service`, and no event makes one.
        have hunit : name = n := by
          simpa [entry, serviceEntry, trackedEntry] using hname
        subst hunit
        cases e with
        | executeUnit name' os => exact of_decide_eq_false hexec starts
        | processRestarts now os =>
            have hnone : (sys.init.drainPendingRestarts now).1.count name = 0 := by
              rw [count_ready, h.pending]
              rfl
            exact List.count_eq_zero.mp hnone starts
        | _ => cases starts

/-! ## After the stop -/

/-- `n` is not a loaded service, or it has no pending restart and its only process that can be
restarted is the one its name points to. -/
def StopIsFinal (n : String) (sys : System) : Prop :=
  System.findService sys.init n = none ∨
    ((∀ pr ∈ sys.init.pendingRestarts, pr.unitName ≠ n) ∧
      ∀ p tp, sys.init.processes.lookup p = some tp → tp.unitName = n → tp.Restartable →
        sys.init.unitToPid.lookup n = some p)

theorem retired_of_stopUnit (hstep : sys.step (.stopUnit n) = some sys')
    (hpending : ∀ pr ∈ sys.init.pendingRestarts, pr.unitName ≠ n)
    (hprocesses : ∀ p tp, sys.init.processes.lookup p = some tp → tp.unitName = n →
      tp.Restartable → sys.init.unitToPid.lookup n = some p) : Retired n sys' where
  pending := by
    rw [(sameView_of_stopUnit hstep).pending]
    refine List.filter_eq_nil_iff.mpr ?_
    intro pr hpr
    simpa using hpending pr hpr
  processes := by
    intro p tp htp hname hrestartable
    rw [System.lookup_processes_of_stop hstep] at htp
    split_ifs at htp with hnamed
    · rcases Option.map_eq_some_iff.mp htp with ⟨old, -, rfl⟩
      exact hrestartable.1 rfl
    · exact hnamed (hprocesses p tp htp hname hrestartable)

/-! ## Runs that start the unit again -/

/-- Sooner or later `process_restarts` comes to a pending restart of a loaded service. -/
theorem exists_restart_of_pending {unit : UnitFile}
    (hunit : System.findService sys.init n = some unit) {pr : PendingRestart}
    (hpr : pr ∈ sys.init.pendingRestarts) (hname : pr.unitName = n) (os : Nat → StartAnswers) :
    restartCallsOf n sys (.processRestarts (max sys.clock pr.when) os) ≠ [] := by
  have hdue : pr ∈ (pendingOf sys.init n).filter
      (PendingRestart.isDue (max sys.clock pr.when)) := by
    refine List.mem_filter.mpr ⟨List.mem_filter.mpr ⟨hpr, by simp [hname]⟩, ?_⟩
    exact decide_eq_true (le_max_right sys.clock pr.when)
  have hlength := length_restartCallsOf n sys (max sys.clock pr.when) os
  rw [hunit, Option.isSome_some, if_pos rfl] at hlength
  have hpos := List.length_pos_of_mem hdue
  intro hnil
  rw [hnil, List.length_nil] at hlength
  omega

/-- After some exit of a process that can be restarted, a restart is pending. -/
theorem exists_pending_of_restartable (hinv : TableInv sys) {p : Pid} {tp : TrackedProcess}
    (htp : sys.init.processes.lookup p = some tp) (hrestartable : tp.Restartable) :
    ∃ status now sys', sys.step (.reaped p status now) = some sys' ∧
      ∃ pr ∈ sys'.init.pendingRestarts, pr.unitName = tp.unitName := by
  rcases hrestartable.exists_scheduled sys.clock with ⟨status, now, hle, houtcome⟩
  rcases (hinv.tracked p).mp (UnorderedMap.mem_of_lookup htp) with ⟨kind, hkind, -⟩
  have hguard : p ∈ sys.children ∧ sys.clock ≤ now := ⟨UnorderedMap.mem_of_lookup hkind, hle⟩
  have hstep : sys.step (.reaped p status now) =
      some
        { init := sys.init.reapChild p status now
          children := sys.children.erase p
          clock := now } := by
    simp only [System.step, hguard, and_self, if_true]
  refine ⟨status, now, _, hstep, (tp.countExit now).pendingRestart now, ?_,
    unitName_pendingRestart tp now⟩
  rw [(System.reaped_cases hstep).pendingRestarts htp, houtcome]
  simp [ExitOutcome.pending]

end Retired

/-! ## Whole runs -/

/-- Is the event part of a continuation without a new start of `n`? -/
def Event.LeavesStopped (n : String) (e : Event) : Prop :=
  e.executes n = false ∧ e.queues n = false

theorem Retired.run {n : String} {sys sys' : System} {es : List Event} (hinv : TableInv sys)
    (hcount : CountInv sys) (hretired : Retired n sys) (hes : ∀ e ∈ es, e.LeavesStopped n)
    (hrun : sys.run es = some sys') : Retired n sys' := by
  have hkeep : ∀ s e s', TableInv s ∧ CountInv s ∧ Retired n s → Event.LeavesStopped n e →
      System.step s e = some s' → TableInv s' ∧ CountInv s' ∧ Retired n s' := by
    rintro s e s' ⟨hinv, hcount, hretired⟩ ⟨hexec, hqueue⟩ hstep
    exact ⟨hinv.step hstep, hcount.step hinv hstep, hretired.step hinv hcount hexec hqueue hstep⟩
  exact (StepRun.run_invariant_of_forall hkeep ⟨hinv, hcount, hretired⟩ hes hrun).2.2

/-- In every reachable state: after `stop_unit`, `process_restarts` never comes to start the unit in
a continuation without a new start of it, exactly if the unit is not a loaded service, or none of
its restarts is pending and its name points to its only process that can be restarted. -/
theorem stop_is_final_iff {boot sys stopped : System} {n : String} {es : List Event}
    (hboot : Booted boot) (hrun : boot.run es = some sys)
    (hstop : sys.step (.stopUnit n) = some stopped) :
    (∀ es' sys' now os, (∀ e ∈ es', e.LeavesStopped n) → stopped.run es' = some sys' →
        sys'.clock ≤ now → restartCallsOf n sys' (.processRestarts now os) = []) ↔
      StopIsFinal n sys := by
  have hkeep : ∀ s e s', TableInv s ∧ CountInv s → System.step s e = some s' →
      TableInv s' ∧ CountInv s' :=
    fun _ _ _ h hs => ⟨h.1.step hs, h.2.step h.1 hs⟩
  rcases StepRun.run_invariant_of_step hkeep ⟨hboot.tableInv, hboot.countInv⟩ hrun with
    ⟨hinv, hcount⟩
  have hloaded : ∀ {es' sys'}, stopped.run es' = some sys' →
      System.findService sys'.init n = System.findService sys.init n := by
    intro es' sys' hrun'
    have hunits : sys'.init.units = stopped.init.units :=
      StepRun.run_invariant_of_step (fun _ _ _ h hs => (units_of_step hs).trans h) rfl hrun'
    exact (findService_of_units hunits n).trans (findService_of_units (units_of_step hstop) n)
  constructor
  · intro hnever
    cases hfind : System.findService sys.init n with
    | none => exact Or.inl hfind
    | some unit =>
        have hnone : ∀ es' sys', (∀ e ∈ es', e.LeavesStopped n) → stopped.run es' = some sys' →
            ∀ pr ∈ sys'.init.pendingRestarts, pr.unitName ≠ n := by
          intro es' sys' hes hrun' pr hpr hname
          exact exists_restart_of_pending ((hloaded hrun').trans hfind) hpr hname
            (fun _ => { forked := .error "" }) (hnever es' sys' _ _ hes hrun' (le_max_left _ _))
        refine Or.inr ⟨?_, ?_⟩
        -- The empty continuation: the stop leaves `pending_restarts_` as it was.
        · have hpending := hnone [] stopped (by simp) rfl
          rw [(System.stop_cases hstop).1.pendingRestarts] at hpending
          exact hpending
        · intro p tp htp hname hrestartable
          -- A process the name does not point to keeps its policy and can exit into a restart.
          by_contra hnamed
          have hkept := System.lookup_processes_of_stop hstop p
          rw [if_neg hnamed, htp] at hkept
          rcases exists_pending_of_restartable (hinv.step hstop) hkept hrestartable with
            ⟨status, now, next, hstep, pr, hpr, hunit⟩
          exact hnone [.reaped p status now] next (by simp [Event.LeavesStopped, Event.executes,
            Event.queues]) (StepRun.run_singleton.mpr hstep) pr hpr (hunit.trans hname)
  · rintro (hnone | ⟨hpending, hprocesses⟩) es' sys' now os hes hrun' -
    · exact restartCallsOf_eq_nil _ (Or.inl ((hloaded hrun').trans hnone))
    · exact restartCallsOf_eq_nil _ (Or.inr (Retired.run (hinv.step hstop)
        (hcount.step hinv hstop) (retired_of_stopUnit hstop hpending hprocesses) hes hrun').pending)

/-- A service is stopped while its first process runs. -/
theorem stop_is_final_iff_sample :
    ∃ sys stopped, sampleBoot.run [.executeUnit "web.service" (forkedAs 100)] = some sys ∧
      sys.step (.stopUnit "web.service") = some stopped ∧
      ((∀ es' sys' now os, (∀ e ∈ es', e.LeavesStopped "web.service") →
          stopped.run es' = some sys' → sys'.clock ≤ now →
          restartCallsOf "web.service" sys' (.processRestarts now os) = []) ↔
        StopIsFinal "web.service" sys) := by
  have hsome : (sampleBoot.run [.executeUnit "web.service" (forkedAs 100)]).isSome = true := by
    decide
  rcases Option.isSome_iff_exists.mp hsome with ⟨sys, hrun⟩
  exact ⟨sys, _, hrun, rfl, stop_is_final_iff sampleBoot_booted hrun rfl⟩

/-- A service that is stopped while its restart is pending is started again. -/
theorem stop_not_always_final :
    ¬ ∀ (boot sys stopped sys' : System) (n : String) (es es' : List Event), Booted boot →
        boot.run es = some sys → sys.step (.stopUnit n) = some stopped →
        (∀ e ∈ es', e.LeavesStopped n) → stopped.run es' = some sys' →
        StepRun.trace System.step (restartCallsOf n) stopped es' = [] := by
  intro hall
  let es : List Event :=
    [ .executeUnit "web.service" (forkedAs 100),
      .reaped 100 (.exited 1) 1000000000 ]
  let es' : List Event := [.processRestarts 1200000000 (fun _ => { forked := .ok 101 })]
  have hstarted : ((sampleBoot.run (es ++ [.stopUnit "web.service"])).any (fun stopped =>
      (stopped.run es').isSome && decide ((StepRun.trace System.step
        (restartCallsOf "web.service") stopped es').length = 1))) = true := by
    decide
  cases hrun : sampleBoot.run (es ++ [.stopUnit "web.service"]) with
  | none =>
      rw [hrun] at hstarted
      cases hstarted
  | some stopped =>
      rw [hrun, Option.any_some, Bool.and_eq_true, decide_eq_true_eq] at hstarted
      rcases hstarted with ⟨hsome, hlength⟩
      rcases Option.isSome_iff_exists.mp hsome with ⟨sys', hrun'⟩
      rcases StepRun.run_append_eq_some.mp hrun with ⟨sys, hsys, hstop⟩
      have hleaves : ∀ e ∈ es', e.LeavesStopped "web.service" := by
        simp [es', Event.LeavesStopped, Event.executes, Event.queues]
      have hnil := hall sampleBoot sys stopped sys' "web.service" es es' sampleBoot_booted hsys
        (StepRun.run_singleton.mp hstop) hleaves hrun'
      rw [hnil] at hlength
      cases hlength

end TrivialInit
