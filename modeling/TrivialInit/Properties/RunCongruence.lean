import TrivialInit.Properties.Refinement

/-!
# RunCongruence — a run does not depend on the journal

No step of the program reads the journal, or the order in which the kernel lists the children.  So
two states that differ in nothing else answer every event alike.
-/

namespace TrivialInit

namespace InitSystem

/-! ## Objects -/

/-- The objects differ in the journal only. -/
def SameButJournal (s s' : InitSystem) : Prop :=
  ∃ journal, s' = { s with journal := journal }

namespace SameButJournal

variable {s s' s'' : InitSystem}

theorem refl (s : InitSystem) : SameButJournal s s :=
  ⟨s.journal, rfl⟩

theorem symm (h : SameButJournal s s') : SameButJournal s' s := by
  obtain ⟨journal, rfl⟩ := h
  exact ⟨s.journal, rfl⟩

theorem trans (h : SameButJournal s s') (h' : SameButJournal s' s'') : SameButJournal s s'' := by
  obtain ⟨journal, rfl⟩ := h
  obtain ⟨journal', rfl⟩ := h'
  exact ⟨journal', rfl⟩

theorem logs (h : SameButJournal s s') (level : LogLevel) (source message : String) :
    SameButJournal (s.log level source message) (s'.log level source message) := by
  obtain ⟨journal, rfl⟩ := h
  exact ⟨_, rfl⟩

theorem log (h : SameButJournal s s') (level : LogLevel) (source message : String) :
    SameButJournal s (s'.log level source message) := by
  obtain ⟨journal, rfl⟩ := h
  exact ⟨_, rfl⟩

theorem registerAcceptSockets (h : SameButJournal s s') :
    SameButJournal s.registerAcceptSockets s'.registerAcceptSockets := by
  obtain ⟨journal, rfl⟩ := h
  exact ⟨journal, rfl⟩

theorem closeAllSockets (h : SameButJournal s s') :
    SameButJournal s.closeAllSockets.1 s'.closeAllSockets.1 := by
  obtain ⟨journal, rfl⟩ := h
  exact ⟨journal, rfl⟩

end SameButJournal

end InitSystem

open InitSystem (SameButJournal)

namespace System

/-! ## Systems -/

/-- Similar systems that register the same listening descriptors. -/
structure Alike (sys sys' : System) : Prop where
  similar : System.Similar sys sys'
  registered : sys'.init.fdToSocket = sys.init.fdToSocket

namespace Alike

variable {sys sys' t : System}

theorem refl (sys : System) : Alike sys sys where
  similar := .refl sys
  registered := rfl

theorem symm (h : Alike sys sys') : Alike sys' sys where
  similar := h.similar.symm
  registered := h.registered.symm

theorem init (h : Alike sys sys') : SameButJournal sys.init sys'.init := by
  obtain ⟨journal, fdToSocket, hinit⟩ := h.similar.init
  have hfds : fdToSocket = sys.init.fdToSocket := by
    have hregistered := h.registered
    rwa [hinit] at hregistered
  exact ⟨journal, by rw [hinit, hfds]⟩

/-- The same change of both objects, apart from their journals. -/
theorem withInit (h : Alike sys sys') {s s' : InitSystem} (hs : SameButJournal s s') :
    Alike { sys with init := s } { sys' with init := s' } := by
  obtain ⟨journal, rfl⟩ := hs
  exact ⟨h.similar.withInit ⟨journal, s.fdToSocket, rfl⟩, rfl⟩

theorem logs (h : Alike sys sys') (level : LogLevel) (source message : String) :
    Alike { sys with init := sys.init.log level source message }
      { sys' with init := sys'.init.log level source message } :=
  h.withInit (h.init.logs level source message)

theorem step (h : Alike sys sys') {e : Event} (hstep : sys.step e = some t) :
    ∃ t', sys'.step e = some t' ∧ Alike t t' := by
  obtain ⟨t', ht', hsimilar⟩ := h.similar.step h.registered hstep
  refine ⟨t', ht', hsimilar, ?_⟩
  calc
    t'.init.fdToSocket = sys'.init.fdToSocket := step_fdToSocket ht'
    _ = sys.init.fdToSocket := h.registered
    _ = t.init.fdToSocket := (step_fdToSocket hstep).symm

theorem startService (h : Alike sys sys') {name : String} {unit : UnitFile} {os : StartAnswers}
    (hstart : sys.startService name unit os = some t) :
    ∃ t', sys'.startService name unit os = some t' ∧ Alike t t' := by
  obtain ⟨t', ht', hsimilar⟩ := h.similar.startService hstart
  refine ⟨t', ht', hsimilar, ?_⟩
  calc
    t'.init.fdToSocket = sys'.init.fdToSocket := (startService_sockets ht').1
    _ = sys.init.fdToSocket := h.registered
    _ = t.init.fdToSocket := ((startService_sockets hstart).1).symm

end Alike

end System

namespace RunState

variable {m m' t : RunState} {a : RunAnswer} {sys' : System}

/-! ## The places in the program -/

/-- The same place and tables, on top of systems that are alike. -/
def Similar (m m' : RunState) : Prop :=
  ∃ sys', System.Alike m.sys sys' ∧ m' = { m with sys := sys' }

theorem Similar.symm (h : RunState.Similar m m') : RunState.Similar m' m := by
  obtain ⟨sys', halike, rfl⟩ := h
  exact ⟨m.sys, halike.symm, rfl⟩

/-- The step `next` of the program, with another system, leads to a similar state. -/
def Follows (t : RunState) (next : Option RunState) : Prop :=
  ∃ t', next = some t' ∧ RunState.Similar t t'

/-- A step that is one call of the system. -/
theorem follows_map {call call' : Option System} {next : System → RunState}
    (hnext : ∀ sys sys', System.Alike sys sys' → RunState.Similar (next sys) (next sys'))
    (hcall : ∀ sys, call = some sys → ∃ sys', call' = some sys' ∧ System.Alike sys sys')
    (hstep : call.map next = some t) : Follows t (call'.map next) := by
  obtain ⟨sys, hsys, rfl⟩ := Option.map_eq_some_iff.mp hstep
  obtain ⟨sys', hsys', halike⟩ := hcall sys hsys
  exact ⟨next sys', by rw [hsys', Option.map_some], hnext sys sys' halike⟩

theorem serviceToStart_alike (h : System.Alike m.sys sys') (probe : SystemProbe) (name : String) :
    serviceToStart sys'.init probe name = serviceToStart m.sys.init probe name := by
  unfold serviceToStart
  rw [h.similar.findUnit]

theorem conditionsThrow_alike (h : System.Alike m.sys sys') (probe : SystemProbe) (name : String) :
    conditionsThrow sys'.init probe name = conditionsThrow m.sys.init probe name := by
  unfold conditionsThrow
  rw [h.similar.findUnit]

theorem enterStartService_similar (h : System.Alike m.sys sys') (a : RunAnswer) (name : String)
    (unit : UnitFile) (back : StartedFrom) :
    RunState.Similar (m.enterStartService a name unit back)
      (enterStartService { m with sys := sys' } a name unit back) := by
  unfold enterStartService
  split_ifs
  · exact ⟨sys', h, rfl⟩
  · exact ⟨sys', h, rfl⟩

theorem fork_similar (h : System.Alike m.sys sys') {pid : Pid} {point : RunPoint}
    (hstep : m.fork pid point = some t) :
    Follows t (fork { m with sys := sys' } pid point) := by
  obtain ⟨hfresh, rfl⟩ := fork_eq_some hstep
  exact ⟨_, if_neg hfresh, sys', h, rfl⟩

theorem poll_similar (h : System.Alike m.sys sys') {poll : Poll}
    {polled : Option (List PollEvent)} (hstep : m.poll poll polled = some t) :
    Follows t (RunState.poll { m with sys := sys' } poll polled) := by
  obtain ⟨hpossible, hnext⟩ := Option.ite_none_right_eq_some.mp hstep
  obtain rfl := Option.some.inj hnext
  exact ⟨_, if_pos hpossible, sys', h, rfl⟩

theorem enterShutdown_similar (h : System.Alike m.sys sys') :
    RunState.Similar m.enterShutdown (enterShutdown { m with sys := sys' }) := by
  obtain ⟨journal, hinit⟩ := h.init
  refine ⟨_, h.logs .info "init" "Shutting down", ?_⟩
  simp [enterShutdown, hinit]

theorem maybeFixRuntimeDirs_similar (h : System.Alike m.sys sys') :
    RunState.Similar m.maybeFixRuntimeDirs (maybeFixRuntimeDirs { m with sys := sys' }) := by
  obtain ⟨journal, hinit⟩ := h.init
  unfold maybeFixRuntimeDirs
  simp only [hinit]
  split_ifs
  · exact ⟨sys', h, rfl⟩
  · exact ⟨_, h.withInit ⟨_, rfl⟩, rfl⟩

theorem stepExecuting_similar (h : System.Alike m.sys sys') {names : List String}
    (hstep : m.stepExecuting a names = some t) :
    Follows t (stepExecuting { m with sys := sys' } a names) := by
  cases names with
  | nil =>
      obtain rfl := Option.some.inj hstep
      have hinit := h.init.registerAcceptSockets.logs .info "init" "Entering main loop"
      exact ⟨_, rfl, _, h.withInit hinit, rfl⟩
  | cons name rest =>
      unfold stepExecuting at hstep ⊢
      dsimp only at hstep ⊢
      rw [conditionsThrow_alike h, serviceToStart_alike h]
      split_ifs at hstep with hthrows
      · obtain rfl := Option.some.inj hstep
        exact ⟨_, if_pos hthrows, sys', h, rfl⟩
      · rw [if_neg hthrows]
        cases hservice : serviceToStart m.sys.init a.probe name with
        | some unit =>
            simp only [hservice] at hstep
            obtain rfl := Option.some.inj hstep
            exact ⟨_, rfl, enterStartService_similar h a name unit _⟩
        | none =>
            simp only [hservice] at hstep
            exact follows_map (fun sys sys' halike => ⟨sys', halike, rfl⟩)
              (fun sys hsys => h.step (e := .executeUnit name _) hsys) hstep

theorem stepStarting_similar (h : System.Alike m.sys sys') {call : StartCall} {back : StartedFrom}
    (hstep : m.stepStarting a call back = some t) :
    Follows t (stepStarting { m with sys := sys' } a call back) := by
  unfold stepStarting at hstep ⊢
  dsimp only at hstep ⊢
  split at hstep
  · split at hstep
    · obtain rfl := Option.some.inj hstep
      exact ⟨_, rfl, sys', h, rfl⟩
    · obtain rfl := Option.some.inj hstep
      exact ⟨_, rfl, sys', h, rfl⟩
    · exact fork_similar h hstep
  · obtain ⟨⟨pid?, s⟩, hstart⟩ := Option.isSome_iff_exists.mp
      (call.startService_isSome m.sys.init a.forked)
    obtain ⟨⟨pid?', s'⟩, hstart', hpid, -⟩ :=
      InitSystem.startService_respects h.similar.init hstart
    dsimp only at hpid
    subst hpid
    rw [hstart']
    rw [hstart] at hstep
    cases pid?' with
    | some pid => exact fork_similar h hstep
    | none =>
        exact follows_map (fun sys sys' halike => ⟨sys', halike, rfl⟩)
          (fun sys hsys => h.startService hsys) hstep

theorem stepPolled_similar (h : System.Alike m.sys sys') {events : List PollEvent} {poll : Poll}
    (hstep : m.stepPolled a events poll = some t) :
    Follows t (stepPolled { m with sys := sys' } a events poll) := by
  obtain ⟨journal, hinit⟩ := h.init
  unfold stepPolled at hstep ⊢
  split at hstep
  · obtain rfl := Option.some.inj hstep
    exact ⟨_, rfl, sys', h, rfl⟩
  · rename_i listenFd rest
    have hpid := (InitSystem.acceptReady_agree h.similar.init h.registered listenFd
      { conn := a.conn, forked := a.forked }).1
    dsimp only at hstep ⊢
    rw [hpid]
    split at hstep
    · obtain ⟨hpossible, hnext⟩ := Option.ite_none_right_eq_some.mp hstep
      have hpossible' : sys'.acceptPossible { conn := a.conn, forked := a.forked } := by
        unfold System.acceptPossible
        rw [hinit]
        exact hpossible
      rw [if_pos hpossible']
      exact fork_similar h hnext
    · exact follows_map (fun sys sys' halike => ⟨sys', halike, rfl⟩)
        (fun sys hsys => h.step hsys) hstep
  · obtain rfl := Option.some.inj hstep
    exact ⟨_, rfl, sys', h, rfl⟩
  · have hready : (sys'.init.drainPendingRestarts a.now).1 =
        (m.sys.init.drainPendingRestarts a.now).1 :=
      (InitSystem.drainPendingRestarts_respects a.now _ _ h.similar.init).1
    dsimp only
    rw [hready]
    exact follows_map (fun sys sys' halike => ⟨sys', halike, rfl⟩)
      (fun sys hsys => h.step hsys) hstep
  · obtain rfl := Option.some.inj hstep
    exact ⟨_, rfl, sys', h, rfl⟩
  · obtain rfl := Option.some.inj hstep
    have hclosed := h.init.closeAllSockets.logs .info "init" "Goodbye."
    exact ⟨_, rfl, _, h.withInit hclosed, rfl⟩

theorem stepDraining_similar (h : System.Alike m.sys sys') {rest : List PollEvent} {poll : Poll}
    (hstep : m.stepDraining a rest poll = some t) :
    Follows t (stepDraining { m with sys := sys' } a rest poll) := by
  unfold stepDraining at hstep ⊢
  cases hsignal : a.signal with
  | none =>
      simp only [hsignal] at hstep ⊢
      obtain ⟨hpending, hnext⟩ := Option.ite_none_right_eq_some.mp hstep
      obtain rfl := Option.some.inj hnext
      exact ⟨_, if_pos hpending, sys', h, rfl⟩
  | some signal =>
      simp only [hsignal] at hstep ⊢
      obtain ⟨hpending, hnext⟩ := Option.ite_none_right_eq_some.mp hstep
      rw [if_pos hpending]
      cases signal with
      | chld =>
          obtain rfl := Option.some.inj hnext
          exact ⟨_, rfl, sys', h, rfl⟩
      | term =>
          obtain rfl := Option.some.inj hnext
          exact ⟨_, rfl, _, h.logs _ _ _, rfl⟩
      | int =>
          obtain rfl := Option.some.inj hnext
          exact ⟨_, rfl, _, h.logs _ _ _, rfl⟩
      | usr1 =>
          obtain rfl := Option.some.inj hnext
          exact ⟨_, rfl, sys', h, rfl⟩

theorem stepReaping_similar (h : System.Alike m.sys sys') {rest : List PollEvent} {poll : Poll}
    (hstep : m.stepReaping a rest poll = some t) :
    Follows t (stepReaping { m with sys := sys' } a rest poll) := by
  unfold stepReaping at hstep ⊢
  split at hstep
  · obtain ⟨hnone, hnext⟩ := Option.ite_none_right_eq_some.mp hstep
    obtain rfl := Option.some.inj hnext
    exact ⟨_, if_pos hnone, sys', h, rfl⟩
  · dsimp only at hstep ⊢
    split at hstep
    · exact follows_map (fun sys sys' halike => ⟨sys', halike, rfl⟩)
        (fun sys hsys => h.step hsys) hstep
    · cases hstep

theorem stepRestarting_similar (h : System.Alike m.sys sys') {ready : List String}
    (hstep : m.stepRestarting a ready = some t) :
    Follows t (stepRestarting { m with sys := sys' } a ready) := by
  unfold stepRestarting at hstep ⊢
  split at hstep
  · obtain ⟨fixed, hfixed, hsame⟩ := maybeFixRuntimeDirs_similar h
    dsimp only at hstep ⊢
    rw [hsame]
    split_ifs at hstep with hquit
    · obtain rfl := Option.some.inj hstep
      exact ⟨_, if_pos hquit, enterShutdown_similar hfixed⟩
    · obtain rfl := Option.some.inj hstep
      exact ⟨_, if_neg hquit, fixed, hfixed, rfl⟩
  · dsimp only at hstep ⊢
    rw [h.similar.findService]
    split at hstep
    · obtain rfl := Option.some.inj hstep
      exact ⟨_, rfl, sys', h, rfl⟩
    · obtain rfl := Option.some.inj hstep
      rename_i name rest _ unit _
      let m' : RunState :=
        { m with
          sys := { m.sys with init := m.sys.init.log .notice "executor" s!"Restarting {name}" } }
      exact ⟨_, rfl, enterStartService_similar (m := m') (h.logs _ _ _) a name unit _⟩

/-! ## Steps and runs -/

theorem Similar.programStep (h : RunState.Similar m m') (hstep : m.programStep a = some t) :
    Follows t (m'.programStep a) := by
  obtain ⟨sys', halike, rfl⟩ := h
  obtain ⟨journal, hinit⟩ := halike.init
  obtain ⟨sys, procs, pending, requested, chowned, point⟩ := m
  unfold RunState.programStep at hstep ⊢
  cases point with
  | executing rest =>
      exact stepExecuting_similar halike hstep
  | starting call back =>
      exact stepStarting_similar halike hstep
  | waitingPre call pid back =>
      unfold stepWaitingPre at hstep ⊢
      dsimp only at hstep ⊢
      split at hstep
      · obtain rfl := Option.some.inj hstep
        exact ⟨_, rfl, sys', halike, rfl⟩
      · cases hstep
  | tracking call pid back =>
      exact follows_map (fun sys sys' halike => ⟨sys', halike, rfl⟩)
        (fun sys hsys => halike.startService hsys) hstep
  | loopHead =>
      dsimp only at hstep ⊢
      split_ifs at hstep with hshut
      · obtain rfl := Option.some.inj hstep
        exact ⟨_, if_pos hshut, enterShutdown_similar halike⟩
      · rw [if_neg hshut]
        exact poll_similar halike hstep
  | polled events poll =>
      exact stepPolled_similar halike hstep
  | accepting listenFd conn pid rest =>
      exact follows_map (fun sys sys' halike => ⟨sys', halike, rfl⟩)
        (fun sys hsys => halike.step hsys) hstep
  | draining rest poll =>
      exact stepDraining_similar halike hstep
  | reaping rest poll =>
      exact stepReaping_similar halike hstep
  | restarting ready =>
      exact stepRestarting_similar halike hstep
  | stopping names =>
      cases names with
      | nil =>
          obtain rfl := Option.some.inj hstep
          exact ⟨_, rfl, sys', halike, rfl⟩
      | cons name rest =>
          refine follows_map ?_ (fun sys hsys => halike.step hsys) hstep
          exact fun sys sys' halike => ⟨sys', halike, rfl⟩
  | awaiting i =>
      have hactive : sys'.init.activeCount = sys.init.activeCount := by
        rw [hinit]
        rfl
      dsimp only at hstep ⊢
      rw [hactive]
      split_ifs at hstep with hwait
      · rw [if_pos hwait]
        exact poll_similar halike hstep
      · rw [if_neg hwait]
        exact poll_similar halike hstep
  | returned =>
      cases hstep
  | terminated name back =>
      cases hstep

/-- Similar states answer every event alike. -/
theorem Similar.step (h : RunState.Similar m m') {e : RunEvent} (hstep : m.step e = some t) :
    Follows t (m'.step e) := by
  cases e with
  | program a => exact h.programStep hstep
  | exits pid status =>
      obtain ⟨sys', halike, rfl⟩ := h
      unfold RunState.step at hstep ⊢
      dsimp only at hstep ⊢
      split at hstep
      · obtain rfl := Option.some.inj hstep
        exact ⟨_, rfl, sys', halike, rfl⟩
      · cases hstep
  | adopts pid =>
      obtain ⟨sys', halike, rfl⟩ := h
      obtain ⟨hfresh, hnext⟩ := Option.ite_none_left_eq_some.mp hstep
      unfold RunState.step
      dsimp only
      rw [if_neg hfresh]
      exact follows_map (fun sys sys' halike => ⟨sys', halike, rfl⟩)
        (fun sys hsys => halike.step hsys) hnext
  | raises signal =>
      obtain ⟨sys', halike, rfl⟩ := h
      obtain rfl := Option.some.inj hstep
      exact ⟨_, rfl, sys', halike, rfl⟩

end RunState

end TrivialInit
