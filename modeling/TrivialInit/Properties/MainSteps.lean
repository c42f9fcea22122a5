import TrivialInit.Main
import TrivialInit.Properties.RunCongruence
import TrivialInit.Properties.ShutdownProgress

/-!
# MainSteps — the steps of the whole program as a relation

`MainState.stepPoint` computes the next state; `MainStep m point e m'` lists its branches, with the
tests each of them has passed.  The place in the program is an argument of its own.
-/

namespace TrivialInit

open InitSystem (SameButJournal)

namespace MainState

/-- A step of the part that `RunState` describes, at a place where `MainState` adds nothing. -/
def Plain (r : RunState) : Prop :=
  r.point ≠ .executing [] ∧ r.point ≠ .restarting [] ∧ r.point ≠ .polled [] .last

/-- The branches of `stepPoint` at the point `point`. -/
inductive MainStep (m : MainState) : MainPoint → MainEvent → MainState → Prop
  | mountsEarly {s : InitSystem} {mp : MountPoint} {rest : List MountPoint}
      {errno : Option MountErrno} (hok : ∀ reason, errno ≠ some (.other reason))
      (hbusy : errno = some .busy → MountTable.Reachable PathInside mp.target m.mounts)
      (s' : InitSystem) (hs' : SameButJournal s s') :
      MainStep m (.earlyMount s (mp :: rest)) (.mountsEarly errno)
        { m with mounted := m.mounted ++ [mp.target], point := .earlyMount s' rest }
  | skipsEarly {s : InitSystem} {mp : MountPoint} {rest : List MountPoint} {reason : String}
      (hproc : mp.target ≠ "/proc") (s' : InitSystem) (hs' : SameButJournal s s') :
      MainStep m (.earlyMount s (mp :: rest)) (.mountsEarly (some (.other reason)))
        { m with point := .earlyMount s' rest }
  /-- `/proc` cannot be mounted. -/
  | failsEarly {s : InitSystem} {mp : MountPoint} {rest : List MountPoint} {reason : String}
      (hproc : mp.target = "/proc") (s' : InitSystem) :
      MainStep m (.earlyMount s (mp :: rest)) (.mountsEarly (some (.other reason)))
        { m with point := .returned s' 1 }
  | makesRuntimeDirs {s : InitSystem} {made : String → Bool} :
      MainStep m (.earlyMount s []) (.makesRuntimeDirs made)
        { m with point := .signalSetup (s.log .info "fs" "Pre-created runtime directories") }
  | setsUpSignals {s : InitSystem} {os : SignalSetupAnswers} (s' : InitSystem)
      (hs' : ∃ fds, SameButJournal { s with fds := fds } s') :
      MainStep m (.signalSetup s) (.setsUpSignals os) { m with point := .unitDiscovery s' }
  | failsSignals {s : InitSystem} {os : SignalSetupAnswers} (s' : InitSystem) :
      MainStep m (.signalSetup s) (.setsUpSignals os) { m with point := .returned s' 1 }
  | discoversUnits {s : InitSystem} {os : ScanAnswers} {scan : UnitScan}
      (hscan : UnitScan.executeUnitDiscovery { journal := s.journal } os = some scan) :
      MainStep m (.unitDiscovery s) (.discoversUnits os)
        { m with point := .unitParse { s with journal := scan.journal } scan.discoveredPaths }
  /-- A query of the scan throws. -/
  | throwsDiscovery {s : InitSystem} {os : ScanAnswers}
      (hscan : UnitScan.executeUnitDiscovery { journal := s.journal } os = none) :
      MainStep m (.unitDiscovery s) (.discoversUnits os) { m with point := .terminated s }
  | parsesUnits {s : InitSystem} {unitPaths : List String} {os : ParseAnswers} :
      MainStep m (.unitParse s unitPaths) (.parsesUnits os)
        { m with point := .socketBind (s.executeUnitParse unitPaths os) }
  | bindsSockets {s : InitSystem} {os : SocketBindAnswers} :
      MainStep m (.socketBind s) (.bindsSockets os)
        { m with point := .dependencyResolve (s.executeSocketBind os).1 }
  | resolvesDependencies {s : InitSystem} {inDegreeOrder : List String} :
      MainStep m (.dependencyResolve s) (.resolvesDependencies inDegreeOrder)
        { m with
          point := .running (RunState.boot ((s.executeDependencyResolve inDegreeOrder).log .info
            "executor" "Executing units in dependency order")) }
  /-- A step of the kernel. -/
  | kernel {r r' : RunState} {e : RunEvent} {os : TuiAnswers} (hkernel : e.isProgram = false)
      (hr : r.step e = some r') :
      MainStep m (.running r) (.runs e os) { m with point := .running r' }
  | entersMainLoop {r : RunState} {a : RunAnswer} {os : TuiAnswers}
      (hpoint : r.point = .executing []) (s : InitSystem)
      (hs : SameButJournal r.sys.init.registerAcceptSockets s) :
      MainStep m (.running r) (.runs (.program a) os)
        { m with
          tui := (m.executeTuiStart r.sys.init.registerAcceptSockets).1
          point := .running { r with sys := { r.sys with init := s }, point := .loopHead } }
  /-- The end of an iteration of the main loop. -/
  | ticks {r r' : RunState} {a : RunAnswer} {os : TuiAnswers} (hpoint : r.point = .restarting [])
      {frame : Option Frame} {goesOn : Bool} {tui : Tui}
      (htick : m.tuiTick r.maybeFixRuntimeDirs.sys.init os = some (frame, goesOn, tui))
      {quit : Bool} (hquit : quit = (!goesOn && decide (m.pid ≠ 1)))
      (hr : r.programStep { a with quit := quit } = some r') :
      MainStep m (.running r) (.runs (.program a) os)
        { m with tui := if quit then tui.shutdown else tui, point := .running r' }
  /-- The end of the main loop ends the user interface. -/
  | plain {r r' : RunState} {a : RunAnswer} {os : TuiAnswers} (hplain : Plain r)
      (hr : r.programStep a = some r') (tui : Tui) (htui : tui = m.tui ∨ tui = m.tui.shutdown) :
      MainStep m (.running r) (.runs (.program a) os) { m with tui := tui, point := .running r' }
  | closesSockets {r : RunState} {a : RunAnswer} {os : TuiAnswers}
      (hpoint : r.point = .polled [] .last) (s : InitSystem)
      (hs : SameButJournal r.sys.init.closeAllSockets.1 s) :
      MainStep m (.running r) (.runs (.program a) os)
        { m with point := .unmounting s m.mounted.reverse }
  | unmounts {s : InitSystem} {target : String} {rest mounts : List String}
      (hmounts : MountTable.detach PathInside target m.mounts = some mounts) :
      MainStep m (.unmounting s (target :: rest)) (.unmounts none)
        { m with mounts := mounts, point := .unmounting s rest }
  | failsUnmount {s : InitSystem} {target : String} {rest : List String} {reason : String}
      (hmounts : MountTable.detach PathInside target m.mounts = none) (s' : InitSystem)
      (hs' : SameButJournal s s') :
      MainStep m (.unmounting s (target :: rest)) (.unmounts (some reason))
        { m with point := .unmounting s' rest }
  | returns {s : InitSystem} :
      MainStep m (.unmounting s []) .returns
        { m with point := .returned (s.log .info "init" "Goodbye.") 0 }
  | otherMounts {point : MainPoint} {place : String} : MainStep m point (.otherMounts place) m
  | otherUnmounts {point : MainPoint} {place : String} {mounts : List String}
      (hmounts : MountTable.detach PathInside place m.mounts = some mounts) :
      MainStep m point (.otherUnmounts place) { m with mounts := mounts }

variable {m m' : MainState}

/-! ## One place after the other -/

theorem stepEarlyMount_cases {s : InitSystem} {errno : Option MountErrno}
    {todo : List MountPoint} (h : m.stepEarlyMount s errno todo = some m') :
    MainStep m (.earlyMount s todo) (.mountsEarly errno) m' := by
  cases todo with
  | nil => cases h
  | cons mp rest =>
      obtain ⟨hbusy, hnext⟩ := Option.ite_none_left_eq_some.mp h
      have hreach : errno = some .busy →
          MountTable.Reachable PathInside mp.target m.mounts := by
        intro herrno
        by_contra hfree
        exact hbusy ⟨herrno, MountTable.detach_eq_none_iff.mpr hfree⟩
      -- `EBUSY` counts as mounted; any other error is fatal for `/proc` only.
      cases errno with
      | none =>
          obtain rfl := Option.some.inj hnext
          exact .mountsEarly (by simp) hreach _ ((SameButJournal.refl s).log _ _ _)
      | some errno =>
          cases errno with
          | busy =>
              obtain rfl := Option.some.inj hnext
              exact .mountsEarly (by simp) hreach _ ((SameButJournal.refl s).log _ _ _)
          | other reason =>
              by_cases hproc : mp.target = "/proc"
              · simp only [if_pos hproc] at hnext
                obtain rfl := Option.some.inj hnext
                exact .failsEarly hproc _
              · simp only [if_neg hproc] at hnext
                obtain rfl := Option.some.inj hnext
                exact .skipsEarly hproc _ ((SameButJournal.refl s).log _ _ _)

theorem executeSignalSetup_cases (s : InitSystem) (os : SignalSetupAnswers) :
    (s.executeSignalSetup os).1 = 1 ∨
      (s.executeSignalSetup os).1 = 0 ∧
        ∃ fds, SameButJournal { s with fds := fds } (s.executeSignalSetup os).2 := by
  obtain ⟨sigprocmask, signalfd, epollCreate⟩ := os
  cases sigprocmask with
  | some reason => exact Or.inl rfl
  | none =>
      cases signalfd with
      | error reason => exact Or.inl rfl
      | ok signals =>
          cases epollCreate with
          | error reason => exact Or.inl rfl
          | ok epoll =>
              refine Or.inr ⟨rfl, (s.fds.install signals.1 signals.2).install epoll.1 epoll.2, ?_⟩
              exact ⟨_, rfl⟩

theorem stepRunning_cases {r : RunState} {e : RunEvent} {os : TuiAnswers}
    (h : m.stepRunning r os e = some m') : MainStep m (.running r) (.runs e os) m' := by
  have hkernel : e.isProgram = false →
      (r.step e).map (fun r => { m with point := .running r }) = some m' →
        MainStep m (.running r) (.runs e os) m' := by
    intro he hnext
    obtain ⟨r', hr, rfl⟩ := Option.map_eq_some_iff.mp hnext
    exact .kernel he hr
  cases e with
  | exits pid status => exact hkernel rfl h
  | adopts pid => exact hkernel rfl h
  | raises signal => exact hkernel rfl h
  | program a =>
      unfold stepRunning at h
      dsimp only at h
      split at h
      · rename_i hpoint
        obtain rfl := Option.some.inj h
        refine .entersMainLoop hpoint _ ?_
        unfold executeTuiStart
        split_ifs
        · exact (SameButJournal.refl _).log _ _ _
        · exact ((SameButJournal.refl _).log _ _ _).log _ _ _
      · rename_i hpoint
        obtain ⟨⟨frame, goesOn, tui⟩, htick, hnext⟩ := Option.bind_eq_some_iff.mp h
        obtain ⟨r', hr, rfl⟩ := Option.map_eq_some_iff.mp hnext
        exact .ticks hpoint htick rfl hr
      · rename_i hpoint
        obtain ⟨r', hr, rfl⟩ := Option.map_eq_some_iff.mp h
        have hplain : Plain r := by simp [Plain, hpoint]
        refine .plain hplain hr _ ?_
        split_ifs
        · exact Or.inr rfl
        · exact Or.inl rfl
      · rename_i hpoint
        obtain rfl := Option.some.inj h
        exact .closesSockets hpoint _ ((SameButJournal.refl _).log _ _ _)
      -- Everywhere else the step is the one of `RunState`.
      · rename_i hexecuting hrestarting _ hpolled
        obtain ⟨r', hr, rfl⟩ := Option.map_eq_some_iff.mp h
        exact .plain ⟨hexecuting, hrestarting, hpolled⟩ hr m.tui (Or.inl rfl)

theorem stepUnmounting_cases {s : InitSystem} {error : Option String} {todo : List String}
    (h : m.stepUnmounting s error todo = some m') :
    MainStep m (.unmounting s todo) (.unmounts error) m' := by
  cases todo with
  | nil => cases h
  | cons target rest =>
      unfold stepUnmounting at h
      dsimp only at h
      cases hmounts : MountTable.detach PathInside target m.mounts with
      | some mounts =>
          cases error with
          | none =>
              simp only [hmounts] at h
              obtain rfl := Option.some.inj h
              exact .unmounts hmounts
          | some reason =>
              simp only [hmounts] at h
              cases h
      | none =>
          cases error with
          | none =>
              simp only [hmounts] at h
              cases h
          | some reason =>
              simp only [hmounts] at h
              obtain rfl := Option.some.inj h
              exact .failsUnmount hmounts _ ((SameButJournal.refl s).log _ _ _)

theorem stepSignalSetup_cases (m : MainState) (s : InitSystem) (os : SignalSetupAnswers) :
    MainStep m (.signalSetup s) (.setsUpSignals os) (m.stepSignalSetup s os) := by
  have hcases := executeSignalSetup_cases s os
  unfold stepSignalSetup
  generalize s.executeSignalSetup os = result at hcases ⊢
  obtain ⟨code, s'⟩ := result
  rcases hcases with hcode | ⟨hcode, hsame⟩
  · obtain rfl : code = 1 := hcode
    exact .failsSignals s'
  · obtain rfl : code = 0 := hcode
    exact .setsUpSignals s' hsame

/-- Every step is in the list. -/
theorem stepPoint_cases {e : MainEvent} (h : m.stepPoint e = some m') :
    MainStep m m.point e m' := by
  unfold stepPoint at h
  split at h
  · rename_i hpoint
    rw [hpoint]
    exact stepEarlyMount_cases h
  · rename_i hpoint
    rw [hpoint]
    exact Option.some.inj h ▸ .makesRuntimeDirs
  · rename_i hpoint
    rw [hpoint]
    exact Option.some.inj h ▸ stepSignalSetup_cases m _ _
  · rename_i hpoint
    rw [hpoint]
    dsimp only at h
    split at h
    · rename_i hscan
      exact Option.some.inj h ▸ .throwsDiscovery hscan
    · rename_i hscan
      exact Option.some.inj h ▸ .discoversUnits hscan
  · rename_i hpoint
    rw [hpoint]
    exact Option.some.inj h ▸ .parsesUnits
  · rename_i hpoint
    rw [hpoint]
    exact Option.some.inj h ▸ .bindsSockets
  · rename_i hpoint
    rw [hpoint]
    exact Option.some.inj h ▸ .resolvesDependencies
  · rename_i hpoint
    rw [hpoint]
    exact stepRunning_cases h
  · rename_i hpoint
    rw [hpoint]
    exact stepUnmounting_cases h
  · rename_i hpoint
    rw [hpoint]
    exact Option.some.inj h ▸ .returns
  · exact Option.some.inj h ▸ .otherMounts
  · obtain ⟨mounts, hmounts, rfl⟩ := Option.map_eq_some_iff.mp h
    exact .otherUnmounts hmounts
  · cases h

/-- A step, and what its `mount` call does: it moves nothing away unless it says so. -/
theorem step_cases {e : MainEvent} (h : m.step e = some m') :
    ∃ m₁ mounts, MainStep m m.point e m₁ ∧
      m' = { m₁ with mounts := (m.placesMounted e).reverse ++ mounts } ∧
        (m.placeVacated e = none → mounts = m₁.mounts) := by
  obtain ⟨-, hstep⟩ := Option.ite_none_right_eq_some.mp h
  obtain ⟨m₁, hm₁, hchange⟩ := Option.bind_eq_some_iff.mp hstep
  obtain ⟨mounts, hmounts, rfl⟩ := Option.map_eq_some_iff.mp hchange
  refine ⟨m₁, mounts, stepPoint_cases hm₁, rfl, fun hnone => ?_⟩
  rw [hnone] at hmounts
  exact (Option.some.inj hmounts).symm

end MainState

end TrivialInit
