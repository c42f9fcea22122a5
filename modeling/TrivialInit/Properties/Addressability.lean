import TrivialInit.Properties.ProcessTable

/-!
# Addressability — which processes `signal_unit` and `stop_unit` can reach

`unit_to_pid_` keeps one PID for each name, but several processes can run under one name: every
connection accepted for a socket is served by a process of the same service.  Reaping any of them
erases the name, so the others can no longer be signalled.
-/

namespace TrivialInit

open InitSystem

/-- The name of every tracked process maps to a tracked process of that name. -/
def Addressable (sys : System) : Prop :=
  ∀ p tp, sys.init.processes.lookup p = some tp → ∃ p' tp',
    sys.init.unitToPid.lookup tp.unitName = some p' ∧
      sys.init.processes.lookup p' = some tp' ∧ tp'.unitName = tp.unitName

/-- A process that is reaped is the only tracked process of its unit. -/
def ReapsSoleProcess (sys : System) : Event → Prop
  | .reaped p _ _ => ∀ tp p' tp', sys.init.processes.lookup p = some tp →
      sys.init.processes.lookup p' = some tp' → p' ≠ p → tp'.unitName ≠ tp.unitName
  | _ => True

namespace Addressable

variable {sys sys' : System}

theorem congr (h : Addressable sys) (hprocesses : sys'.init.processes = sys.init.processes)
    (hunitToPid : sys'.init.unitToPid = sys.init.unitToPid) : Addressable sys' := by
  intro p tp hp
  rw [hprocesses] at hp ⊢
  rw [hunitToPid]
  exact h p tp hp

theorem sameSystem (h : Addressable sys) (hsame : System.SameSystem sys sys') :
    Addressable sys' := by
  exact h.congr hsame.tables.processes hsame.tables.unitToPid

theorem enter (h : Addressable sys) (tp : TrackedProcess) (hfresh : tp.pid ∉ sys.init.processes)
    (hprocesses : sys'.init.processes = sys.init.processes.insert tp.pid tp)
    (hunitToPid : sys'.init.unitToPid = sys.init.unitToPid.insert tp.unitName tp.pid) :
    Addressable sys' := by
  intro p tp₁ hp
  rw [hprocesses] at hp ⊢
  rw [hunitToPid, UnorderedMap.lookup_insert_eq]
  by_cases hname : tp₁.unitName = tp.unitName
  · -- The name now stands for the new process.
    exact ⟨tp.pid, tp, if_pos hname, by simp, hname.symm⟩
  · rw [UnorderedMap.lookup_insert_eq] at hp
    split_ifs at hp with heq
    · exact absurd (congrArg TrackedProcess.unitName (Option.some.inj hp).symm) hname
    · rcases h p tp₁ hp with ⟨p', tp', hn, hp', hname'⟩
      -- The old name still points to an old process, because the new PID is fresh.
      have hne : p' ≠ tp.pid := by
        rintro rfl
        exact hfresh (UnorderedMap.mem_of_lookup hp')
      refine ⟨p', tp', ?_, ?_, hname'⟩
      · rw [if_neg hname, hn]
      · rw [UnorderedMap.lookup_insert_eq, if_neg hne, hp']

theorem startService (h : Addressable sys) (hinv : TableInv sys) {name : String} {unit : UnitFile}
    {os : StartAnswers} (hstep : sys.startService name unit os = some sys') :
    Addressable sys' := by
  rcases System.startService_cases hstep with hfailed | ⟨pid, hstarted⟩
  · exact h.sameSystem hfailed.sameSystem
  · refine h.enter (sys.init.startedProcess name unit pid) ?_ hstarted.tables.processes
      hstarted.tables.unitToPid
    rw [startedProcess_pid]
    exact hinv.notMem_processes hstarted.fresh

theorem stopped (h : Addressable sys) {name : String}
    (hstep : sys.step (.stopUnit name) = some sys') : Addressable sys' := by
  have hunitToPid : sys'.init.unitToPid = sys.init.unitToPid :=
    (System.stop_cases hstep).1.unitToPid
  -- Stopping changes a policy, so every entry keeps its name.
  have hkept : ∀ p, (sys'.init.processes.lookup p).map TrackedProcess.unitName =
      (sys.init.processes.lookup p).map TrackedProcess.unitName := by
    intro p
    rw [System.lookup_processes_of_stop hstep]
    split_ifs with hnamed
    · rw [Option.map_map]
      rfl
    · rfl
  intro p tp hp
  have hold : (sys.init.processes.lookup p).map TrackedProcess.unitName = some tp.unitName := by
    rw [← hkept p, hp]
    rfl
  rcases Option.map_eq_some_iff.mp hold with ⟨tp₀, htp₀, hname₀⟩
  rcases h p tp₀ htp₀ with ⟨p', tp', hn, hp', hname'⟩
  have hnew : (sys'.init.processes.lookup p').map TrackedProcess.unitName = some tp'.unitName := by
    rw [hkept p', hp']
    rfl
  rcases Option.map_eq_some_iff.mp hnew with ⟨tp'', htp'', hname''⟩
  exact ⟨p', tp'', by rw [hunitToPid, ← hname₀, hn], htp'', hname''.trans (hname'.trans hname₀)⟩

theorem drained (h : Addressable sys) (now : TimePoint) :
    Addressable
      { sys with
        init := (sys.init.drainPendingRestarts now).2
        clock := now } := by
  rw [drainPendingRestarts_eq]
  exact h.congr rfl rfl

/-- Reaping keeps the property exactly if no other process of the unit is left behind. -/
theorem reaped_iff (h : Addressable sys) (hinv : TableInv sys) {pid : Pid} {status : WaitStatus}
    {now : TimePoint} (hreaped : System.Reaped sys pid status now sys') :
    Addressable sys' ↔ ReapsSoleProcess sys (.reaped pid status now) := by
  have hinv' : TableInv sys' := hinv.reaped hreaped
  have hlookup : ∀ p, p ≠ pid → sys'.init.processes.lookup p = sys.init.processes.lookup p := by
    intro p hp
    rw [hreaped.lookup_processes, if_neg hp]
  have hgone : sys'.init.processes.lookup pid = none := by
    rw [hreaped.lookup_processes, if_pos rfl]
  cases hpid : sys.init.processes.lookup pid with
  | none =>
      have hunitToPid : sys'.init.unitToPid = sys.init.unitToPid := by
        rw [hreaped.unitToPid, hpid]
      have hsame : sys'.init.processes = sys.init.processes :=
        hreaped.processes.trans (UnorderedMap.erase_of_notMem (AList.lookup_eq_none.mp hpid))
      -- An orphan: neither map changes, and there is no unit whose processes could be left behind.
      constructor
      · intro _ tp p' tp' htp
        rw [hpid] at htp
        cases htp
      · intro _
        exact h.congr hsame hunitToPid
  | some tp =>
      have hunitToPid : sys'.init.unitToPid = sys.init.unitToPid.erase tp.unitName := by
        rw [hreaped.unitToPid, hpid]
      constructor
      -- A namesake left behind has lost its name.
      · intro h' tp₁ p' tp' htp₁ hp' hne hname
        rw [hpid] at htp₁
        obtain rfl := Option.some.inj htp₁
        rcases h' p' tp' (by rw [hlookup p' hne, hp']) with ⟨p'', -, hn, -, -⟩
        rw [hunitToPid, UnorderedMap.lookup_erase_eq, if_pos hname] at hn
        cases hn
      -- Everything left in the table has another name, and the erasure does not concern it.
      · intro hsole p tp₁ hp
        have hne : p ≠ pid := by
          rintro rfl
          rw [hgone] at hp
          cases hp
        rw [hlookup p hne] at hp
        have hname : tp₁.unitName ≠ tp.unitName := hsole tp p tp₁ hpid hp hne
        rcases h p tp₁ hp with ⟨p', tp', hn, hp', hname'⟩
        have hn' : sys'.init.unitToPid.lookup tp₁.unitName = some p' := by
          rw [hunitToPid, UnorderedMap.lookup_erase_eq, if_neg hname, hn]
        rcases hinv'.named _ _ hn' with ⟨tp'', htp'', hname''⟩
        exact ⟨p', tp'', hn', htp'', hname''⟩

/-- One step from an addressable state leads to one exactly if it leaves no namesake behind. -/
theorem step_iff (h : Addressable sys) (hinv : TableInv sys) {e : Event}
    (hstep : sys.step e = some sys') : Addressable sys' ↔ ReapsSoleProcess sys e := by
  cases e with
  | executeUnit name os =>
      refine iff_of_true ?_ trivial
      rcases System.executeUnit_cases hstep with hsame | ⟨unit, -, hstart⟩
      · exact h.sameSystem hsame
      · exact h.startService hinv hstart
  | reaped pid status now => exact h.reaped_iff hinv (System.reaped_cases hstep)
  | acceptReady listenFd os =>
      refine iff_of_true ?_ trivial
      rcases System.acceptReady_cases hstep with ⟨-, hnone | ⟨socket, svc, pid, hacc⟩⟩
      · exact h.congr hnone.processes hnone.unitToPid
      · exact h.enter (trackedEntry pid svc .no) (hinv.notMem_processes hacc.fresh) hacc.processes
          hacc.unitToPid
  | processRestarts now os =>
      refine iff_of_true ?_ trivial
      rcases System.processRestarts_cases hstep with ⟨-, hrun⟩
      exact (System.restartAll_invariant (fun _ sys => TableInv sys ∧ Addressable sys)
        (fun h hsame => ⟨h.1.sameSystem hsame, h.2.sameSystem hsame⟩) (fun h _ => h)
        (fun _ h _ hs => ⟨h.1.startService hs, h.2.startService h.1 hs⟩)
        ⟨hinv.drained now, h.drained now⟩ hrun).2
  | drainPendingRestarts now =>
      refine iff_of_true ?_ trivial
      rcases System.drain_cases hstep with ⟨-, rfl⟩
      exact h.drained now
  | stopUnit name => exact iff_of_true (h.stopped hstep) trivial
  | queueRestart name now =>
      refine iff_of_true ?_ trivial
      rcases System.queue_cases hstep with ⟨-, rfl⟩
      exact h.congr rfl rfl
  | adopt pid =>
      refine iff_of_true ?_ trivial
      rcases System.adopt_cases hstep with ⟨-, rfl⟩
      exact h.congr rfl rfl

end Addressable

/-! ## Whole runs -/

/-- Every tracked process stays addressable in all states of a run exactly if every process that is
reaped is the only one of its unit. -/
theorem addressable_iff_reaps_sole_process {sys sys' : System} {es : List Event}
    (hboot : Booted sys) (hrun : sys.run es = some sys') :
    (∀ t, StepRun.Visits System.step sys es t → Addressable t) ↔
      StepRun.StepsMeet System.step ReapsSoleProcess sys es := by
  have hstart : Addressable sys := by
    intro p tp hp
    simp [hboot.processes] at hp
  have hany : ∀ e ∈ es, (fun _ : Event => True) e := fun _ _ => trivial
  exact StepRun.visits_iff_stepsMeet TableInv Addressable (fun _ _ _ h _ hs => TableInv.step h hs)
    (fun _ _ _ hinv h _ hs => h.step_iff hinv hs) hboot.tableInv hstart hany hrun

/-- Two connections served by `echo@.service`, of which the second one ends first. -/
def sampleConnections : List Event :=
  [ .acceptReady 5 { conn := some (9, 1), forked := .ok 100 },
    .acceptReady 5 { conn := some (9, 2), forked := .ok 101 },
    .reaped 101 (.exited 0) 7 ]

theorem addressable_iff_reaps_sole_process_sample :
    ∃ sys', sampleBoot.run (sampleConnections.take 2) = some sys' ∧
      ((∀ t, StepRun.Visits System.step sampleBoot (sampleConnections.take 2) t → Addressable t) ↔
        StepRun.StepsMeet System.step ReapsSoleProcess sampleBoot (sampleConnections.take 2)) := by
  have hsome : (sampleBoot.run (sampleConnections.take 2)).isSome = true := by
    decide
  rcases Option.isSome_iff_exists.mp hsome with ⟨sys', hrun⟩
  exact ⟨sys', hrun, addressable_iff_reaps_sole_process sampleBoot_booted hrun⟩

/-- After the second connection ends, the process 100 still runs, but its name is gone. -/
theorem not_always_addressable :
    ¬ ∀ (sys sys' : System) (es : List Event), Booted sys → sys.run es = some sys' →
        Addressable sys' := by
  intro hall
  have hsome : ((sampleBoot.run sampleConnections).any (fun sys =>
      (sys.init.processes.lookup 100).any (fun tp => decide (tp.unitName = "echo@.service")) &&
        decide (sys.init.unitToPid.lookup "echo@.service" = none))) = true := by
    decide
  cases hrun : sampleBoot.run sampleConnections with
  | none =>
      rw [hrun] at hsome
      cases hsome
  | some sys' =>
      rw [hrun, Option.any_some, Bool.and_eq_true, decide_eq_true_eq] at hsome
      rcases hsome with ⟨hlive, hname⟩
      cases hp : sys'.init.processes.lookup 100 with
      | none =>
          rw [hp] at hlive
          cases hlive
      | some tp =>
          rw [hp, Option.any_some, decide_eq_true_eq] at hlive
          rcases hall sampleBoot sys' sampleConnections sampleBoot_booted hrun 100 tp hp with
            ⟨p', -, hn, -, -⟩
          rw [hlive, hname] at hn
          cases hn

end TrivialInit
