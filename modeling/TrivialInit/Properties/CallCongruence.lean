import TrivialInit.Properties.StepEffects

/-!
# CallCongruence — what the calls do not read

No call reads the journal, and only `accept_ready` reads `fd_to_socket_`.  So objects that differ
in these two alone stay so under every call, and what a call returns does not depend on them.  The
order in which the kernel lists the children does not matter either.
-/

namespace TrivialInit

namespace InitSystem

/-! ## What the calls read -/

/-- The two objects differ at most in the journal and in `fd_to_socket_`. -/
def Agree (s s' : InitSystem) : Prop :=
  ∃ journal fdToSocket, s' = { s with journal := journal, fdToSocket := fdToSocket }

namespace Agree

variable {s s' s'' : InitSystem}

theorem refl (s : InitSystem) : Agree s s :=
  ⟨s.journal, s.fdToSocket, rfl⟩

theorem symm (h : Agree s s') : Agree s' s := by
  obtain ⟨journal, fdToSocket, rfl⟩ := h
  exact ⟨s.journal, s.fdToSocket, rfl⟩

theorem trans (h : Agree s s') (h' : Agree s' s'') : Agree s s'' := by
  obtain ⟨journal, fdToSocket, rfl⟩ := h
  obtain ⟨journal', fdToSocket', rfl⟩ := h'
  exact ⟨journal', fdToSocket', rfl⟩

theorem log (h : Agree s s') (level : LogLevel) (source message : String) :
    Agree s (s'.log level source message) := by
  obtain ⟨journal, fdToSocket, rfl⟩ := h
  exact ⟨_, fdToSocket, rfl⟩

/-- What is written to the journal does not matter. -/
theorem logs (h : Agree s s') (level : LogLevel) (source message : String) :
    Agree (s.log level source message) (s'.log level source message) :=
  ((Agree.refl s).log level source message).symm.trans (h.log level source message)

end Agree

/-- Called on objects that agree, the function returns the same and leaves objects that agree. -/
def Respects {α : Type} (f : InitSystem → α × InitSystem) : Prop :=
  ∀ s s', Agree s s' → (f s').1 = (f s).1 ∧ Agree (f s).2 (f s').2

theorem spawn_respects (unitName execPath : String) (args : List String) (policy : RestartPolicy)
    (burstLimit burstIntervalS : Int) (unit : UnitFile) (forked : ForkAnswer) :
    Respects (fun s =>
      s.spawn unitName execPath args policy burstLimit burstIntervalS unit forked) := by
  rintro s _ ⟨journal, fdToSocket, rfl⟩
  cases forked with
  | error reason => exact ⟨rfl, _, fdToSocket, rfl⟩
  | ok pid => exact ⟨rfl, _, fdToSocket, rfl⟩

theorem spawnWithSocketFds_respects (unitName execPath : String) (args : List String)
    (env : SocketEnv) (restart : Bool) (unit : UnitFile) (forked : ForkAnswer) :
    Respects (fun s => s.spawnWithSocketFds unitName execPath args env restart unit forked) := by
  rintro s _ ⟨journal, fdToSocket, rfl⟩
  cases forked with
  | error reason => exact ⟨rfl, _, fdToSocket, rfl⟩
  | ok pid => exact ⟨rfl, _, fdToSocket, rfl⟩

theorem applyRestartCount_agree {s s' : InitSystem} (h : Agree s s') (pid : Pid) (name : String) :
    Agree (s.applyRestartCount pid name) (s'.applyRestartCount pid name) := by
  obtain ⟨journal, fdToSocket, rfl⟩ := h
  unfold applyRestartCount
  dsimp only
  cases s.restartCounts.lookup name with
  | none => exact ⟨journal, fdToSocket, rfl⟩
  | some counts => exact ⟨journal, fdToSocket, rfl⟩

theorem launchService_respects (name : String) (unit : UnitFile) (ignoreFail : Bool)
    (execPath : String) (args : List String) (forked : ForkAnswer) :
    Respects (fun s => s.launchService name unit ignoreFail execPath args forked) := by
  intro s s' h
  have henv : s'.collectSocketEnv name = s.collectSocketEnv name := by
    obtain ⟨journal, fdToSocket, rfl⟩ := h
    rfl
  unfold launchService
  dsimp only
  rw [henv]
  cases s.collectSocketEnv name with
  | none =>
      have hspawn := spawn_respects name execPath args (parseRestartPolicy unit.restartPolicy)
        unit.restartLimitBurst unit.restartLimitInterval unit forked _ _
        (h.logs .info "executor" s!"Starting service: {name} ({execPath})")
      dsimp only at hspawn ⊢
      generalize spawn (s.log _ _ _) _ _ _ _ _ _ _ _ = r at hspawn ⊢
      generalize spawn (s'.log _ _ _) _ _ _ _ _ _ _ _ = r' at hspawn ⊢
      obtain ⟨pid?, t⟩ := r
      obtain ⟨pid?', t'⟩ := r'
      obtain ⟨rfl, hagree⟩ := hspawn
      cases pid?' with
      | none =>
          refine ⟨rfl, ?_⟩
          dsimp only
          split_ifs
          · exact hagree
          · exact hagree.logs _ _ _
      | some pid => exact ⟨rfl, applyRestartCount_agree hagree pid name⟩
  | some env =>
      have hspawn := spawnWithSocketFds_respects name execPath args env
        (parseRestartPolicy unit.restartPolicy ≠ .no) unit forked _ _
        (h.logs .info "executor" s!"Socket-activating {name} ({env.fds.length} fd(s))")
      dsimp only at hspawn ⊢
      generalize spawnWithSocketFds (s.log _ _ _) _ _ _ _ _ _ _ = r at hspawn ⊢
      generalize spawnWithSocketFds (s'.log _ _ _) _ _ _ _ _ _ _ = r' at hspawn ⊢
      obtain ⟨pid?, t⟩ := r
      obtain ⟨pid?', t'⟩ := r'
      obtain ⟨rfl, hagree⟩ := hspawn
      cases pid?' with
      | none => exact ⟨rfl, hagree⟩
      | some pid =>
          refine ⟨rfl, ?_⟩
          obtain ⟨journal, fdToSocket, hcounts⟩ := applyRestartCount_agree hagree pid name
          exact ⟨journal, fdToSocket, by simp only [hcounts, configureRestart]⟩

theorem runStartPre_respects (info : SystemInfo) (name : String) (unit : UnitFile)
    (cmds : List String) (os : Nat → PreAnswer) :
    Respects (fun s => runStartPre info name unit cmds os s) := by
  rintro s _ ⟨journal, fdToSocket, rfl⟩
  simp only [runStartPre_eq]
  exact ⟨trivial, journal, fdToSocket, rfl⟩

theorem startCommands_respects (name : String) (unit : UnitFile) (os : StartAnswers) :
    Respects (fun s => s.startCommands name unit os) := by
  intro s s' h
  have hpre := runStartPre_respects os.info name unit unit.execStartPre os.pre s s' h
  unfold startCommands
  dsimp only at hpre ⊢
  generalize runStartPre _ _ _ _ _ s = r at hpre ⊢
  generalize runStartPre _ _ _ _ _ s' = r' at hpre ⊢
  obtain ⟨code?, t⟩ := r
  obtain ⟨code?', t'⟩ := r'
  obtain ⟨rfl, hagree⟩ := hpre
  cases code?' with
  | some code => exact ⟨rfl, hagree.logs _ _ _⟩
  | none =>
      dsimp only
      split_ifs
      · exact ⟨rfl, hagree.logs _ _ _⟩
      · cases commandWords os.info (SpecifierContext.ofUnit name unit.path)
            (stripDash unit.execStart).2 with
        | none => exact ⟨rfl, hagree⟩
        | some words => exact launchService_respects _ _ _ _ _ _ t t' hagree

/-- An exception does not depend on the objects either. -/
theorem startService_respects {s s' : InitSystem} (h : Agree s s') {name : String}
    {unit : UnitFile} {os : StartAnswers} {r : Option Pid × InitSystem}
    (hstart : s.startService name unit os = some r) :
    ∃ r', s'.startService name unit os = some r' ∧ r'.1 = r.1 ∧ Agree r.2 r'.2 := by
  obtain ⟨t, ht, rfl⟩ := startService_eq_some hstart
  obtain ⟨calls, hcalls, rfl⟩ := Option.map_eq_some_iff.mp ht
  obtain ⟨journal, fdToSocket, rfl⟩ := h
  have hagree : Agree { s with runtimeDirCalls := s.runtimeDirCalls ++ calls }
      { s with
        journal := journal
        fdToSocket := fdToSocket
        runtimeDirCalls := s.runtimeDirCalls ++ calls } :=
    ⟨journal, fdToSocket, rfl⟩
  refine ⟨_, ?_, startCommands_respects name unit os _ _ hagree⟩
  simp [startService, createRuntimeDirectory, hcalls]

theorem startMount_agree {s s' : InitSystem} (h : Agree s s') (name : String) (unit : UnitFile)
    (os : MountAnswers) : Agree (s.startMount name unit os) (s'.startMount name unit os) := by
  unfold startMount
  dsimp only
  split_ifs
  · exact h.logs _ _ _
  · exact h.logs _ _ _
  · cases os.mountError with
    | none => exact h.logs _ _ _
    | some reason => exact (h.logs _ _ _).logs _ _ _

theorem fireExitCallback_agree {s s' : InitSystem} (h : Agree s s') (pid : Pid) (code : Int) :
    Agree (s.fireExitCallback pid code) (s'.fireExitCallback pid code) := by
  obtain ⟨journal, fdToSocket, rfl⟩ := h
  unfold fireExitCallback
  dsimp only
  cases s.exitCallbacks.lookup pid with
  | none => exact ⟨journal, fdToSocket, rfl⟩
  | some cb => exact ⟨journal, fdToSocket, rfl⟩

theorem reapChild_agree {s s' : InitSystem} (h : Agree s s') (pid : Pid) (status : WaitStatus)
    (now : TimePoint) : Agree (s.reapChild pid status now) (s'.reapChild pid status now) := by
  obtain ⟨journal, fdToSocket, hfired⟩ := fireExitCallback_agree h pid status.code
  unfold reapChild
  dsimp only
  rw [hfired]
  generalize s.fireExitCallback pid status.code = t
  dsimp only
  cases t.processes.lookup pid with
  | none => exact ⟨_, _, rfl⟩
  | some tp =>
      dsimp only
      split_ifs <;> exact ⟨_, _, rfl⟩

theorem drainPendingRestarts_respects (now : TimePoint) :
    Respects (fun s => s.drainPendingRestarts now) := by
  rintro s _ ⟨journal, fdToSocket, rfl⟩
  exact ⟨rfl, journal, fdToSocket, rfl⟩

theorem queueRestart_agree {s s' : InitSystem} (h : Agree s s') (name : String)
    (now : TimePoint) : Agree (s.queueRestart name now) (s'.queueRestart name now) := by
  obtain ⟨journal, fdToSocket, rfl⟩ := h
  exact ⟨journal, fdToSocket, rfl⟩

theorem stopUnit_agree {s s' : InitSystem} (h : Agree s s') (name : String) :
    Agree (s.stopUnit name) (s'.stopUnit name) := by
  obtain ⟨journal, fdToSocket, rfl⟩ := h
  unfold stopUnit
  dsimp only
  cases s.unitToPid.lookup name <;> exact ⟨_, _, rfl⟩

theorem dropConnection_agree {s s' : InitSystem} (h : Agree s s') (socket : String) (conn : Int) :
    Agree (s.dropConnection socket conn) (s'.dropConnection socket conn) := by
  obtain ⟨journal, fdToSocket, rfl⟩ := h
  exact ⟨journal, fdToSocket, rfl⟩

theorem serveConnection_respects (socket : String) (sock : SocketUnit) (conn : Int)
    (forked : ForkAnswer) : Respects (fun s => s.serveConnection socket sock conn forked) := by
  intro s s' h
  have hpair : s'.resolvePair sock = s.resolvePair sock := by
    obtain ⟨journal, fdToSocket, rfl⟩ := h
    rfl
  have hfind : s'.findUnit (s.resolvePair sock) = s.findUnit (s.resolvePair sock) := by
    obtain ⟨journal, fdToSocket, rfl⟩ := h
    rfl
  unfold serveConnection
  dsimp only
  rw [hpair, hfind]
  cases s.findUnit (s.resolvePair sock) with
  | none => exact ⟨rfl, dropConnection_agree h socket conn⟩
  | some unit =>
      dsimp only
      split_ifs
      · exact ⟨rfl, dropConnection_agree h socket conn⟩
      · cases splitExec unit.execStart with
        | nil => exact ⟨rfl, dropConnection_agree h socket conn⟩
        | cons execPath args =>
            obtain ⟨journal, fdToSocket, rfl⟩ := h
            cases forked with
            | error reason => exact ⟨rfl, _, fdToSocket, rfl⟩
            | ok pid => exact ⟨rfl, _, fdToSocket, rfl⟩

/-- `accept_ready` is the only call that reads `fd_to_socket_`. -/
theorem acceptReady_agree {s s' : InitSystem} (h : Agree s s')
    (hregistered : s'.fdToSocket = s.fdToSocket) (listenFd : Int) (os : AcceptAnswers) :
    (s'.acceptReady listenFd os).1 = (s.acceptReady listenFd os).1 ∧
      Agree (s.acceptReady listenFd os).2 (s'.acceptReady listenFd os).2 := by
  unfold acceptReady
  rw [hregistered]
  cases s.fdToSocket.lookup listenFd with
  | none => exact ⟨rfl, h⟩
  | some socket =>
      obtain ⟨journal, fdToSocket, rfl⟩ := h
      dsimp only
      split_ifs
      · cases os.conn with
        | none => exact ⟨rfl, journal, s.fdToSocket, rfl⟩
        | some conn => exact ⟨rfl, journal, s.fdToSocket, rfl⟩
      · cases os.conn with
        | none => exact ⟨rfl, journal, s.fdToSocket, rfl⟩
        | some conn =>
            exact serveConnection_respects socket _ conn.1 os.forked _ _
              ⟨journal, s.fdToSocket, rfl⟩

end InitSystem

/-! ## Systems -/

namespace System

/-- The objects agree, and the kernel keeps the same children and the same time. -/
structure Similar (sys sys' : System) : Prop where
  init : InitSystem.Agree sys.init sys'.init
  children : sys'.children.entries.Perm sys.children.entries
  clock : sys'.clock = sys.clock

namespace Similar

variable {sys sys' sys'' : System}

theorem refl (sys : System) : Similar sys sys where
  init := .refl sys.init
  children := List.Perm.refl _
  clock := rfl

theorem symm (h : Similar sys sys') : Similar sys' sys where
  init := h.init.symm
  children := h.children.symm
  clock := h.clock.symm

theorem trans (h : Similar sys sys') (h' : Similar sys' sys'') : Similar sys sys'' where
  init := h.init.trans h'.init
  children := h'.children.trans h.children
  clock := h'.clock.trans h.clock

theorem mem_children (h : Similar sys sys') (pid : Pid) :
    pid ∈ sys'.children ↔ pid ∈ sys.children :=
  UnorderedMap.mem_iff_of_perm h.children pid

theorem findUnit (h : Similar sys sys') (name : String) :
    sys'.init.findUnit name = sys.init.findUnit name := by
  obtain ⟨journal, fdToSocket, hinit⟩ := h.init
  rw [hinit]
  rfl

theorem findService (h : Similar sys sys') (name : String) :
    System.findService sys'.init name = System.findService sys.init name := by
  unfold System.findService
  rw [h.findUnit]

theorem withInit (h : Similar sys sys') {s s' : InitSystem} (hagree : InitSystem.Agree s s') :
    Similar { sys with init := s } { sys' with init := s' } where
  init := hagree
  children := h.children
  clock := h.clock

/-- A child that a call has forked. -/
theorem addChild (h : Similar sys sys') {kind : ChildKind} {r r' : Option Pid × InitSystem}
    (hpid : r'.1 = r.1) (hagree : InitSystem.Agree r.2 r'.2) {t : System}
    (hadd : sys.addChild kind r = some t) :
    ∃ t', sys'.addChild kind r' = some t' ∧ Similar t t' := by
  obtain ⟨pid?, s⟩ := r
  obtain ⟨pid?', s'⟩ := r'
  obtain rfl : pid?' = pid? := hpid
  cases pid?' with
  | none =>
      obtain rfl := Option.some.inj hadd
      exact ⟨_, rfl, h.withInit hagree⟩
  | some pid =>
      obtain ⟨hfresh, rfl⟩ := addChild_cases hadd
      have hfresh' : pid ∉ sys'.children := fun hmem => hfresh ((h.mem_children pid).mp hmem)
      refine ⟨_, if_neg hfresh', ?_⟩
      exact
        { init := hagree
          children := AList.perm_insert h.children
          clock := h.clock }

theorem startService (h : Similar sys sys') {name : String} {unit : UnitFile} {os : StartAnswers}
    {t : System} (hstart : sys.startService name unit os = some t) :
    ∃ t', sys'.startService name unit os = some t' ∧ Similar t t' := by
  obtain ⟨r, hr, hadd⟩ := Option.bind_eq_some_iff.mp hstart
  obtain ⟨r', hr', hpid, hagree⟩ := InitSystem.startService_respects h.init hr
  obtain ⟨t', hadd', ht⟩ := h.addChild hpid hagree hadd
  exact ⟨t', Option.bind_eq_some_iff.mpr ⟨r', hr', hadd'⟩, ht⟩

theorem restartAll {ready : List String} {os : Nat → StartAnswers} {t : System}
    (h : Similar sys sys') (hrun : System.restartAll ready os sys = some t) :
    ∃ t', System.restartAll ready os sys' = some t' ∧ Similar t t' := by
  induction ready generalizing os sys sys' with
  | nil =>
      obtain rfl := Option.some.inj hrun
      exact ⟨sys', rfl, h⟩
  | cons name rest ih =>
      unfold System.restartAll at hrun ⊢
      rw [h.findService]
      cases hfind : System.findService sys.init name with
      | none =>
          rw [hfind] at hrun
          exact ih h hrun
      | some unit =>
          rw [hfind] at hrun
          obtain ⟨sys₁, hstart, hrest⟩ := Option.bind_eq_some_iff.mp hrun
          have hlog := h.withInit (h.init.logs .notice "executor" s!"Restarting {name}")
          obtain ⟨sys₁', hstart', h₁⟩ := hlog.startService hstart
          obtain ⟨t', hrest', ht⟩ := ih h₁ hrest
          exact ⟨t', Option.bind_eq_some_iff.mpr ⟨sys₁', hstart', hrest'⟩, ht⟩

theorem executeUnit (h : Similar sys sys') {name : String} {os : ExecuteAnswers} {t : System}
    (hrun : sys.executeUnit name os = some t) :
    ∃ t', sys'.executeUnit name os = some t' ∧ Similar t t' := by
  unfold System.executeUnit at hrun ⊢
  rw [h.findUnit]
  cases hfind : sys.init.findUnit name with
  | none =>
      rw [hfind] at hrun
      obtain rfl := Option.some.inj hrun
      exact ⟨sys', rfl, h⟩
  | some unit =>
      simp only [hfind] at hrun ⊢
      split_ifs at hrun ⊢ with htemplate
      · obtain rfl := Option.some.inj hrun
        exact ⟨_, rfl, h.withInit (h.init.logs _ _ _)⟩
      · split at hrun
        · obtain rfl := Option.some.inj hrun
          exact ⟨_, rfl, h.withInit (h.init.logs _ _ _)⟩
        · obtain rfl := Option.some.inj hrun
          exact ⟨_, rfl, h.withInit (h.init.logs _ _ _)⟩
        · cases htype : unit.type with
          | service =>
              rw [htype] at hrun
              exact h.startService hrun
          | mount =>
              rw [htype] at hrun
              obtain rfl := Option.some.inj hrun
              exact ⟨_, rfl, h.withInit (InitSystem.startMount_agree h.init name unit os.mount)⟩
          | target =>
              rw [htype] at hrun
              obtain rfl := Option.some.inj hrun
              exact ⟨_, rfl, h.withInit (h.init.logs _ _ _)⟩
          | socket =>
              rw [htype] at hrun
              obtain rfl := Option.some.inj hrun
              exact ⟨_, rfl, h.withInit (h.init.logs _ _ _)⟩
          | unknown =>
              rw [htype] at hrun
              obtain rfl := Option.some.inj hrun
              exact ⟨_, rfl, h.withInit (h.init.logs _ _ _)⟩

/-- Systems that also register the same listening descriptors answer every event alike. -/
theorem step (h : Similar sys sys') (hregistered : sys'.init.fdToSocket = sys.init.fdToSocket)
    {e : Event} {t : System} (hstep : sys.step e = some t) :
    ∃ t', sys'.step e = some t' ∧ Similar t t' := by
  cases e with
  | executeUnit name os => exact h.executeUnit hstep
  | reaped pid status now =>
      obtain ⟨⟨hchild, hclock⟩, hnext⟩ := Option.ite_none_right_eq_some.mp hstep
      obtain rfl := Option.some.inj hnext
      have hguard : pid ∈ sys'.children ∧ sys'.clock ≤ now :=
        ⟨(h.mem_children pid).mpr hchild, h.clock ▸ hclock⟩
      refine ⟨_, if_pos hguard, ?_⟩
      exact
        { init := InitSystem.reapChild_agree h.init pid status now
          children := AList.perm_erase h.children
          clock := rfl }
  | acceptReady listenFd os =>
      obtain ⟨hpossible, hnext⟩ := Option.ite_none_right_eq_some.mp hstep
      have hpossible' : sys'.acceptPossible os := by
        obtain ⟨journal, fdToSocket, hinit⟩ := h.init
        unfold acceptPossible
        rw [hinit]
        exact hpossible
      obtain ⟨hpid, hagree⟩ := InitSystem.acceptReady_agree h.init hregistered listenFd os
      obtain ⟨t', hadd, ht⟩ := h.addChild hpid hagree hnext
      refine ⟨t', ?_, ht⟩
      rw [System.step, if_pos hpossible', acceptSocket, hregistered]
      exact hadd
  | processRestarts now os =>
      obtain ⟨hclock, hrun⟩ := processRestarts_cases hstep
      have hagree := InitSystem.drainPendingRestarts_respects now _ _ h.init
      have hready : (sys'.init.drainPendingRestarts now).1 =
          (sys.init.drainPendingRestarts now).1 := hagree.1
      have hdrained : Similar
          { sys with
            init := (sys.init.drainPendingRestarts now).2
            clock := now }
          { sys' with
            init := (sys'.init.drainPendingRestarts now).2
            clock := now } :=
        { init := hagree.2
          children := h.children
          clock := rfl }
      obtain ⟨t', hrun', ht⟩ := hdrained.restartAll hrun
      refine ⟨t', ?_, ht⟩
      have hclock' : sys'.clock ≤ now := h.clock ▸ hclock
      rw [System.step, if_pos hclock']
      change System.restartAll (sys'.init.drainPendingRestarts now).1 os _ = some t'
      rw [hready]
      exact hrun'
  | drainPendingRestarts now =>
      obtain ⟨hclock, rfl⟩ := drain_cases hstep
      have hclock' : sys'.clock ≤ now := h.clock ▸ hclock
      refine ⟨_, if_pos hclock', ?_⟩
      exact
        { init := (InitSystem.drainPendingRestarts_respects now _ _ h.init).2
          children := h.children
          clock := rfl }
  | stopUnit name =>
      obtain rfl := Option.some.inj hstep
      exact ⟨_, rfl, h.withInit (InitSystem.stopUnit_agree h.init name)⟩
  | queueRestart name now =>
      obtain ⟨hclock, rfl⟩ := queue_cases hstep
      have hclock' : sys'.clock ≤ now := h.clock ▸ hclock
      refine ⟨_, if_pos hclock', ?_⟩
      exact
        { init := InitSystem.queueRestart_agree h.init name now
          children := h.children
          clock := rfl }
  | adopt pid =>
      obtain ⟨hfresh, rfl⟩ := adopt_cases hstep
      have hfresh' : pid ∉ sys'.children := fun hmem => hfresh ((h.mem_children pid).mp hmem)
      refine ⟨_, if_neg hfresh', ?_⟩
      exact
        { init := h.init
          children := AList.perm_insert h.children
          clock := h.clock }

end Similar

end System

end TrivialInit
