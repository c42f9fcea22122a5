import TrivialInit.Run

/-!
# ProgramSteps — the steps of the main program as a relation

`RunState.programStep` computes the next state of the program; `ProgramStep m a point m'` lists its
branches, with the tests each of them has passed.  The place in the program is an argument of its
own, so that a proof about one place meets the steps from there only.
-/

namespace TrivialInit

/-- A call that has got behind the block on `RuntimeDirectory=` returns. -/
theorem StartCall.startService_isSome (call : StartCall) (s : InitSystem) (forked : ForkAnswer) :
    (s.startService call.name call.unit (call.startAnswers forked)).isSome := by
  simpa [InitSystem.startService, InitSystem.createRuntimeDirectory, StartCall.startAnswers] using
    call.created

namespace RunState

/-- The branches of `programStep` at the point `point`. -/
inductive ProgramStep (m : RunState) (a : RunAnswer) : RunPoint → RunState → Prop
  /-- The end of `execute(UnitExecute)`. -/
  | entersMainLoop :
      ProgramStep m a (.executing [])
        { m with
          sys := { m.sys with
            init := m.sys.init.registerAcceptSockets.log .info "init" "Entering main loop" }
          point := .loopHead }
  | throwsCondition {name : String} {rest : List String}
      (hthrows : conditionsThrow m.sys.init a.probe name = true) :
      ProgramStep m a (.executing (name :: rest))
        { m with point := .terminated name (.unitExecute rest) }
  | throwsStart {name : String} {rest : List String} {unit : UnitFile}
      (hservice : serviceToStart m.sys.init a.probe name = some unit)
      (hthrows : runtimeDirectoryCalls unit a.passwd a.group = none) :
      ProgramStep m a (.executing (name :: rest))
        { m with point := .terminated name (.unitExecute rest) }
  | startsUnit {name : String} {rest : List String} {unit : UnitFile}
      (hquiet : conditionsThrow m.sys.init a.probe name = false)
      (hservice : serviceToStart m.sys.init a.probe name = some unit)
      (hcreated : (runtimeDirectoryCalls unit a.passwd a.group).isSome = true) :
      ProgramStep m a (.executing (name :: rest))
        { m with point := .starting (StartCall.ofUnit a name unit hcreated) (.unitExecute rest) }
  | executesUnit {name : String} {rest : List String} {sys : System}
      (hservice : serviceToStart m.sys.init a.probe name = none)
      (hsys : m.sys.executeUnit name
        { probe := a.probe, start := { forked := .error "" }, mount := a.mount } = some sys) :
      ProgramStep m a (.executing (name :: rest)) { m with sys := sys, point := .executing rest }
  /-- An `ExecStartPre` command that is not run. -/
  | skipsPre {call : StartCall} {back : StartedFrom} (htodo : call.todo ≠ []) :
      ProgramStep m a (.starting call back)
        { m with point := .starting (call.answered .forkFailed) back }
  | forksPre {call : StartCall} {back : StartedFrom} {pid : Pid} (htodo : call.todo ≠ [])
      (hforked : a.forked = .ok pid) (hfresh : pid ∉ m.procs) :
      ProgramStep m a (.starting call back)
        { m with procs := m.procs.insert pid none, point := .waitingPre call pid back }
  | forksMain {call : StartCall} {back : StartedFrom} {pid : Pid} {s : InitSystem}
      (htodo : call.todo = [])
      (hstart : m.sys.init.startService call.name call.unit (call.startAnswers a.forked) =
        some (some pid, s))
      (hfresh : pid ∉ m.procs) :
      ProgramStep m a (.starting call back)
        { m with procs := m.procs.insert pid none, point := .tracking call pid back }
  | notStarted {call : StartCall} {back : StartedFrom} {sys : System} {s : InitSystem}
      (htodo : call.todo = [])
      (hstart : m.sys.init.startService call.name call.unit (call.startAnswers a.forked) =
        some (none, s))
      (hsys : m.sys.startService call.name call.unit (call.startAnswers a.forked) = some sys) :
      ProgramStep m a (.starting call back) { m with sys := sys, point := back.point }
  | waitsPre {call : StartCall} {pid : Pid} {back : StartedFrom} {status : WaitStatus}
      (hexited : m.procs.lookup pid = some (some status)) :
      ProgramStep m a (.waitingPre call pid back)
        { m with procs := m.procs.erase pid, point := .starting (call.waited status) back }
  | tracks {call : StartCall} {pid : Pid} {back : StartedFrom} {sys : System}
      (hsys : m.sys.startService call.name call.unit (call.startAnswers (.ok pid)) = some sys) :
      ProgramStep m a (.tracking call pid back) { m with sys := sys, point := back.point }
  | leavesMainLoop (hshut : m.shutdownRequested = true) :
      ProgramStep m a .loopHead m.enterShutdown
  | polls {events : List PollEvent} (hshut : ¬ m.shutdownRequested = true) :
      ProgramStep m a .loopHead { m with point := .polled events .mainLoop }
  | signalled {rest : List PollEvent} {poll : Poll} :
      ProgramStep m a (.polled (.signals :: rest) poll) { m with point := .draining rest poll }
  | forksConnection {listenFd : Int} {rest : List PollEvent} {pid : Pid}
      (hpid : (m.sys.init.acceptReady listenFd { conn := a.conn, forked := a.forked }).1 =
        some pid)
      (hfresh : pid ∉ m.procs) :
      ProgramStep m a (.polled (.descriptor listenFd :: rest) .mainLoop)
        { m with
          procs := m.procs.insert pid none
          point := .accepting listenFd a.conn pid rest }
  | notAccepted {listenFd : Int} {rest : List PollEvent} {sys : System}
      (hpid : (m.sys.init.acceptReady listenFd { conn := a.conn, forked := a.forked }).1 = none)
      (hsys : m.sys.step (.acceptReady listenFd { conn := a.conn, forked := a.forked }) =
        some sys) :
      ProgramStep m a (.polled (.descriptor listenFd :: rest) .mainLoop)
        { m with sys := sys, point := .polled rest .mainLoop }
  | skipsDescriptor {listenFd : Int} {rest : List PollEvent} {poll : Poll}
      (hpoll : poll ≠ .mainLoop) :
      ProgramStep m a (.polled (.descriptor listenFd :: rest) poll)
        { m with point := .polled rest poll }
  /-- `process_restarts` takes the restarts that are due. -/
  | drainsRestarts {sys : System} (hsys : m.sys.step (.drainPendingRestarts a.now) = some sys) :
      ProgramStep m a (.polled [] .mainLoop)
        { m with sys := sys, point := .restarting (m.sys.init.drainPendingRestarts a.now).1 }
  | waitedOnce {i : Nat} :
      ProgramStep m a (.polled [] (.shutdownWait i)) { m with point := .awaiting (i + 1) }
  | returns :
      ProgramStep m a (.polled [] .last)
        { m with
          sys := { m.sys with
            init := m.sys.init.closeAllSockets.1.log .info "init" "Goodbye." }
          point := .returned }
  | accepts {listenFd : Int} {conn : Option (Int × Nat)} {pid : Pid} {rest : List PollEvent}
      {sys : System}
      (hsys : m.sys.step (.acceptReady listenFd { conn := conn, forked := .ok pid }) = some sys) :
      ProgramStep m a (.accepting listenFd conn pid rest)
        { m with sys := sys, point := .polled rest .mainLoop }
  | noSignal {rest : List PollEvent} {poll : Poll} (hpending : m.pending = ∅) :
      ProgramStep m a (.draining rest poll) { m with point := .polled rest poll }
  | readsChld {rest : List PollEvent} {poll : Poll} (hpending : .chld ∈ m.pending) :
      ProgramStep m a (.draining rest poll)
        { m with pending := m.pending.erase .chld, point := .reaping rest poll }
  /-- `SIGTERM` or `SIGINT`. -/
  | readsShutdown {rest : List PollEvent} {poll : Poll} {signal : Signal}
      (hpending : signal ∈ m.pending) (hsignal : signal ≠ .chld) :
      ProgramStep m a (.draining rest poll)
        { m with
          sys := { m.sys with
            init := m.sys.init.log .notice "signal" "Shutdown signal received" }
          pending := m.pending.erase signal
          shutdownRequested := true }
  | readsUsr1 {rest : List PollEvent} {poll : Poll} (hpending : .usr1 ∈ m.pending) :
      ProgramStep m a (.draining rest poll) { m with pending := m.pending.erase .usr1 }
  | noChild {rest : List PollEvent} {poll : Poll} (hchild : a.child = none)
      (hnone : ∀ e ∈ m.procs.entries, e.2 = none) :
      ProgramStep m a (.reaping rest poll) { m with point := .draining rest poll }
  | reaps {rest : List PollEvent} {poll : Poll} {pid : Pid} {status : WaitStatus} {sys : System}
      (hchild : a.child = some pid) (hexited : m.procs.lookup pid = some (some status))
      (hsys : m.sys.step (.reaped pid status a.now) = some sys) :
      ProgramStep m a (.reaping rest poll) { m with sys := sys, procs := m.procs.erase pid }
  | quits (hquit : a.quit = true) :
      ProgramStep m a (.restarting []) m.maybeFixRuntimeDirs.enterShutdown
  | loops (hquit : ¬ a.quit = true) :
      ProgramStep m a (.restarting []) { m.maybeFixRuntimeDirs with point := .loopHead }
  | skipsRestart {name : String} {rest : List String}
      (hunit : System.findService m.sys.init name = none) :
      ProgramStep m a (.restarting (name :: rest)) { m with point := .restarting rest }
  | throwsRestart {name : String} {rest : List String} {unit : UnitFile}
      (hunit : System.findService m.sys.init name = some unit)
      (hthrows : runtimeDirectoryCalls unit a.passwd a.group = none) :
      ProgramStep m a (.restarting (name :: rest))
        { m with
          sys := { m.sys with
            init := m.sys.init.log .notice "executor" s!"Restarting {name}" }
          point := .terminated name (.processRestarts rest) }
  | restarts {name : String} {rest : List String} {unit : UnitFile}
      (hunit : System.findService m.sys.init name = some unit)
      (hcreated : (runtimeDirectoryCalls unit a.passwd a.group).isSome = true) :
      ProgramStep m a (.restarting (name :: rest))
        { m with
          sys := { m.sys with
            init := m.sys.init.log .notice "executor" s!"Restarting {name}" }
          point := .starting (StartCall.ofUnit a name unit hcreated) (.processRestarts rest) }
  | stoppedAll : ProgramStep m a (.stopping []) { m with point := .awaiting 0 }
  | stops {name : String} {rest : List String} :
      ProgramStep m a (.stopping (name :: rest))
        { m with
          sys := { m.sys with init := m.sys.init.stopUnit name }
          point := .stopping rest }
  | awaits {i : Nat} {events : List PollEvent} {poll : Poll} (hpoll : poll ≠ .mainLoop) :
      ProgramStep m a (.awaiting i) { m with point := .polled events poll }

variable {m m' : RunState} {a : RunAnswer}

theorem fork_eq_some {pid : Pid} {point : RunPoint} (h : m.fork pid point = some m') :
    pid ∉ m.procs ∧ m' = { m with procs := m.procs.insert pid none, point := point } := by
  unfold fork at h
  split_ifs at h with hfresh
  exact ⟨hfresh, (Option.some.inj h).symm⟩

theorem poll_eq_some {poll : Poll} {polled : Option (List PollEvent)}
    (h : m.poll poll polled = some m') :
    m' = { m with point := .polled (polled.getD []) poll } := by
  unfold RunState.poll at h
  split_ifs at h
  exact (Option.some.inj h).symm

theorem enterStartService_cases {name : String} {unit : UnitFile} {back : StartedFrom}
    (h : m.enterStartService a name unit back = m') :
    runtimeDirectoryCalls unit a.passwd a.group = none ∧
        m' = { m with point := .terminated name back } ∨
      ∃ hcreated, m' =
        { m with point := .starting (StartCall.ofUnit a name unit hcreated) back } := by
  unfold enterStartService at h
  split_ifs at h with hcreated
  · exact Or.inr ⟨hcreated, h.symm⟩
  · exact Or.inl ⟨by simpa using hcreated, h.symm⟩

/-- The unit an iteration of `execute(UnitExecute)` starts. -/
theorem serviceToStart_spec {s : InitSystem} {probe : SystemProbe} {name : String}
    {unit : UnitFile} (h : serviceToStart s probe name = some unit) :
    s.findUnit name = some unit ∧ unit.isBareTemplate = false ∧
      Conditions.evalConditions probe unit = 0 ∧ unit.type = .service := by
  unfold serviceToStart at h
  cases hfind : s.findUnit name with
  | none => simp [hfind] at h
  | some unit' =>
      cases htemplate : unit'.isBareTemplate with
      | true => simp [hfind, htemplate] at h
      | false =>
          have hverdict : Conditions.evalConditions probe unit' = 0 := by
            simp only [hfind, htemplate, Bool.false_eq_true, if_false] at h
            unfold Conditions.evalConditions at h ⊢
            split_ifs at h ⊢
            rfl
          simp only [hfind, htemplate, Bool.false_eq_true, if_false, hverdict] at h
          split_ifs at h with htype
          obtain rfl := Option.some.inj h
          exact ⟨rfl, htemplate, hverdict, htype⟩

/-! ## One place after the other -/

theorem stepExecuting_cases {rest : List String} (h : m.stepExecuting a rest = some m') :
    ProgramStep m a (.executing rest) m' := by
  cases rest with
  | nil =>
      obtain rfl := Option.some.inj h
      exact .entersMainLoop
  | cons name rest =>
      unfold stepExecuting at h
      dsimp only at h
      split_ifs at h with hthrows
      · exact Option.some.inj h ▸ .throwsCondition hthrows
      · cases hservice : serviceToStart m.sys.init a.probe name with
        | some unit =>
            simp only [hservice, Option.some.injEq] at h
            rcases enterStartService_cases h with ⟨hnone, rfl⟩ | ⟨hcreated, rfl⟩
            · exact .throwsStart hservice hnone
            · exact .startsUnit (by simpa using hthrows) hservice hcreated
        | none =>
            simp only [hservice, Option.map_eq_some_iff] at h
            obtain ⟨sys, hsys, rfl⟩ := h
            exact .executesUnit hservice hsys

theorem stepStarting_cases {call : StartCall} {back : StartedFrom}
    (h : m.stepStarting a call back = some m') : ProgramStep m a (.starting call back) m' := by
  unfold stepStarting at h
  cases htodo : call.todo with
  | cons preCmd todo =>
      simp only [htodo] at h
      have hne : call.todo ≠ [] := htodo ▸ List.cons_ne_nil _ _
      split at h
      · exact Option.some.inj h ▸ .skipsPre hne
      · exact Option.some.inj h ▸ .skipsPre hne
      · rename_i pid _ hforked
        obtain ⟨hfresh, rfl⟩ := fork_eq_some h
        exact .forksPre hne hforked hfresh
  | nil =>
      simp only [htodo] at h
      split at h
      · rename_i pid s hstart
        obtain ⟨hfresh, rfl⟩ := fork_eq_some h
        exact .forksMain htodo hstart hfresh
      · rename_i hother
        obtain ⟨sys, hsys, rfl⟩ := Option.map_eq_some_iff.mp h
        obtain ⟨⟨pid?, s⟩, hstart, -⟩ := Option.bind_eq_some_iff.mp hsys
        cases pid? with
        | some pid => exact absurd hstart (hother pid s)
        | none => exact .notStarted htodo hstart hsys

theorem stepWaitingPre_cases {call : StartCall} {pid : Pid} {back : StartedFrom}
    (h : m.stepWaitingPre call pid back = some m') :
    ProgramStep m a (.waitingPre call pid back) m' := by
  unfold stepWaitingPre at h
  split at h
  · rename_i status hexited
    obtain rfl := Option.some.inj h
    exact .waitsPre hexited
  · nomatch h

theorem stepPolled_cases {events : List PollEvent} {poll : Poll}
    (h : m.stepPolled a events poll = some m') : ProgramStep m a (.polled events poll) m' := by
  unfold stepPolled at h
  split at h
  · -- The signal descriptor.
    exact Option.some.inj h ▸ .signalled
  · -- A listening descriptor in the main loop.
    dsimp only at h
    split at h
    · rename_i pid hpid
      split_ifs at h
      obtain ⟨hfresh, rfl⟩ := fork_eq_some h
      exact .forksConnection hpid hfresh
    · rename_i hpid
      obtain ⟨sys, hsys, rfl⟩ := Option.map_eq_some_iff.mp h
      exact .notAccepted hpid hsys
  · rename_i hpoll
    exact Option.some.inj h ▸ .skipsDescriptor hpoll
  · obtain ⟨sys, hsys, rfl⟩ := Option.map_eq_some_iff.mp h
    exact .drainsRestarts hsys
  · exact Option.some.inj h ▸ .waitedOnce
  · exact Option.some.inj h ▸ .returns

theorem stepDraining_cases {rest : List PollEvent} {poll : Poll}
    (h : m.stepDraining a rest poll = some m') : ProgramStep m a (.draining rest poll) m' := by
  unfold stepDraining at h
  cases hsignal : a.signal with
  | none =>
      simp only [hsignal] at h
      split_ifs at h with hpending
      exact Option.some.inj h ▸ .noSignal hpending
  | some signal =>
      simp only [hsignal] at h
      split_ifs at h with hpending
      cases signal with
      | chld => exact Option.some.inj h ▸ .readsChld hpending
      | term => exact Option.some.inj h ▸ .readsShutdown hpending (by decide)
      | int => exact Option.some.inj h ▸ .readsShutdown hpending (by decide)
      | usr1 => exact Option.some.inj h ▸ .readsUsr1 hpending

theorem stepReaping_cases {rest : List PollEvent} {poll : Poll}
    (h : m.stepReaping a rest poll = some m') : ProgramStep m a (.reaping rest poll) m' := by
  unfold stepReaping at h
  cases hchild : a.child with
  | none =>
      simp only [hchild] at h
      split_ifs at h with hnone
      exact Option.some.inj h ▸ .noChild hchild hnone
  | some pid =>
      simp only [hchild] at h
      split at h
      · rename_i status hexited
        obtain ⟨sys, hsys, rfl⟩ := Option.map_eq_some_iff.mp h
        exact .reaps hchild hexited hsys
      · nomatch h

theorem stepRestarting_cases {ready : List String} (h : m.stepRestarting a ready = some m') :
    ProgramStep m a (.restarting ready) m' := by
  unfold stepRestarting at h
  split at h
  · dsimp only at h
    split_ifs at h with hquit
    · exact Option.some.inj h ▸ .quits hquit
    · exact Option.some.inj h ▸ .loops hquit
  · split at h
    · exact Option.some.inj h ▸ .skipsRestart ‹_›
    · rename_i unit hunit
      rcases enterStartService_cases (Option.some.inj h) with ⟨hnone, rfl⟩ | ⟨hcreated, rfl⟩
      · exact .throwsRestart hunit hnone
      · exact .restarts hunit hcreated

/-- Every step of the program is in the list. -/
theorem programStep_cases (h : m.programStep a = some m') : ProgramStep m a m.point m' := by
  unfold programStep at h
  split at h <;> rename_i hpoint <;> rw [hpoint]
  · exact stepExecuting_cases h
  · exact stepStarting_cases h
  · exact stepWaitingPre_cases h
  · obtain ⟨sys, hsys, rfl⟩ := Option.map_eq_some_iff.mp h
    exact .tracks hsys
  · split_ifs at h with hshut
    · exact Option.some.inj h ▸ .leavesMainLoop hshut
    · exact poll_eq_some h ▸ .polls hshut
  · exact stepPolled_cases h
  · obtain ⟨sys, hsys, rfl⟩ := Option.map_eq_some_iff.mp h
    exact .accepts hsys
  · exact stepDraining_cases h
  · exact stepReaping_cases h
  · exact stepRestarting_cases h
  · exact Option.some.inj h ▸ .stoppedAll
  · obtain ⟨sys, hsys, rfl⟩ := Option.map_eq_some_iff.mp h
    obtain rfl := Option.some.inj hsys
    exact .stops
  · split_ifs at h
    · exact poll_eq_some h ▸ .awaits nofun
    · exact poll_eq_some h ▸ .awaits nofun
  · nomatch h
  · nomatch h

end RunState

end TrivialInit
