import TrivialInit.Properties.ProcessTable

/-!
# Connections — the counter of open connections of a socket

`accept_ready` counts a connection before it knows whether it can be served, and gives the slot back
on every failure.  Afterwards the exit callback of the child gives it back.  The counter of a socket
is therefore the number of its children whose callback is registered.
-/

namespace TrivialInit

open InitSystem

/-- Unreaped children that serve a connection of `socket`. -/
def openConnections (sys : System) (socket : String) : Nat :=
  UnorderedMap.countEntries (fun _ kind => decide (kind = .connection socket)) sys.children

/-- Those of them whose exit callback is registered. -/
def registeredConnections (sys : System) (socket : String) : Nat :=
  UnorderedMap.countEntries
    (fun p kind => decide (kind = .connection socket ∧ p ∈ sys.init.exitCallbacks)) sys.children

/-- The socket whose counter an event may change. -/
def touchedSocket (sys : System) : Event → Option String
  | .acceptReady listenFd _ => sys.acceptSocket listenFd
  | .reaped p _ _ =>
      match sys.children.lookup p with
      | some (.connection socket) => some socket
      | _ => none
  | _ => none

/-! ## The invariant -/

structure ConnectionInv (sys : System) : Prop where
  table : TableInv sys
  callbacks : ∀ p n, sys.init.exitCallbacks.lookup p = some (.connectionClosed n) ↔
    sys.children.lookup p = some (.connection n)
  counted : ∀ n, (sys.init.socketUnit n).activeConnections = (openConnections sys n : Int)
  bounded : ∀ n, (sys.init.socketUnit n).maxConn > 0 →
    (sys.init.socketUnit n).activeConnections ≤ (sys.init.socketUnit n).maxConn

theorem Booted.connectionInv {sys : System} (h : Booted sys) : ConnectionInv sys where
  table := h.tableInv
  callbacks := by simp [h.exitCallbacks, h.children]
  counted := by simp [h.connections, openConnections, h.children]
  bounded := by
    intro n hn
    rw [h.connections]
    omega

namespace ConnectionInv

variable {sys sys' : System}

theorem registered_eq (h : ConnectionInv sys) (n : String) :
    registeredConnections sys n = openConnections sys n := by
  refine UnorderedMap.countEntries_congr ?_
  intro p kind hp
  by_cases hkind : kind = .connection n
  · subst hkind
    have hmem : p ∈ sys.init.exitCallbacks :=
      UnorderedMap.mem_of_lookup ((h.callbacks p n).mpr hp)
    simp [hmem]
  · simp [hkind]

/-- The sockets, the callbacks and the connection children are unchanged. -/
theorem keep (h : ConnectionInv sys) (htable : TableInv sys')
    (hcallbacks : sys'.init.exitCallbacks = sys.init.exitCallbacks)
    (hsockets : ∀ n, sys'.init.socketUnit n = sys.init.socketUnit n)
    (hchildren : ∀ p n, sys'.children.lookup p = some (.connection n) ↔
      sys.children.lookup p = some (.connection n)) : ConnectionInv sys' where
  table := htable
  callbacks := by
    intro p n
    rw [hcallbacks, hchildren]
    exact h.callbacks p n
  counted := by
    intro n
    have hcount : openConnections sys' n = openConnections sys n := by
      refine UnorderedMap.countEntries_eq_of_keys ?_
      intro p
      simpa using hchildren p n
    rw [hsockets, hcount]
    exact h.counted n
  bounded := by
    intro n
    rw [hsockets]
    exact h.bounded n

theorem sameSystem (h : ConnectionInv sys) (hsame : System.SameSystem sys sys') :
    ConnectionInv sys' := by
  refine h.keep (h.table.sameSystem hsame) hsame.tables.exitCallbacks hsame.tables.socketUnit ?_
  intro p n
  rw [hsame.children]

/-- A new child of another kind does not serve a connection. -/
theorem lookup_insert_connection {children : UnorderedMap Pid ChildKind} {pid : Pid}
    {kind : ChildKind} (hfresh : pid ∉ children) (hkind : ∀ n, kind ≠ .connection n) (p : Pid)
    (n : String) : (children.insert pid kind).lookup p = some (.connection n) ↔
      children.lookup p = some (.connection n) := by
  rw [UnorderedMap.lookup_insert_eq]
  by_cases heq : p = pid
  · subst heq
    have hnone : children.lookup p = none := AList.lookup_eq_none.mpr hfresh
    simp [hnone, hkind n]
  · simp [heq]

theorem startService (h : ConnectionInv sys) {name : String} {unit : UnitFile} {os : StartAnswers}
    (hstep : sys.startService name unit os = some sys') : ConnectionInv sys' := by
  have htable := h.table.startService hstep
  rcases System.startService_cases hstep with hfailed | ⟨pid, hstarted⟩
  · exact h.sameSystem hfailed.sameSystem
  · refine h.keep htable hstarted.tables.exitCallbacks hstarted.tables.socketUnit ?_
    intro p n
    rw [hstarted.children]
    exact lookup_insert_connection hstarted.fresh (by simp) p n

theorem accepted (h : ConnectionInv sys) {listenFd : Int} {os : AcceptAnswers}
    {socket svc : String} {pid : Pid}
    (hacc : System.Accepted sys listenFd os socket svc pid sys') : ConnectionInv sys' where
  table := h.table.accepted hacc
  callbacks := by
    intro p n
    rw [hacc.exitCallbacks, hacc.children, UnorderedMap.lookup_insert_eq,
      UnorderedMap.lookup_insert_eq]
    by_cases heq : p = pid
    · simp [heq]
    · simp only [heq, if_false]
      exact h.callbacks p n
  counted := by
    intro n
    -- The new child is one more for its own socket.
    have hcount : openConnections sys' n =
        openConnections sys n + if socket = n then 1 else 0 := by
      unfold openConnections
      rw [hacc.children, UnorderedMap.countEntries_insert_of_notMem _ hacc.fresh]
      simp
    rw [hacc.socketUnit, hcount]
    by_cases heq : n = socket
    · subst heq
      have hold := h.counted n
      simp only [if_true]
      omega
    · have heq' : ¬ socket = n := fun h' => heq h'.symm
      simpa [heq, heq'] using h.counted n
  bounded := by
    intro n hn
    rw [hacc.socketUnit] at hn ⊢
    by_cases heq : n = socket
    · subst heq
      simp only [if_true] at hn ⊢
      -- The connection was counted only because the socket had room.
      have hroom : ¬ (sys.init.socketUnit n).activeConnections ≥
          (sys.init.socketUnit n).maxConn := fun hge => hacc.capacity ⟨hn, hge⟩
      omega
    · simp only [heq, if_false] at hn ⊢
      exact h.bounded n hn

/-- What the exit of `pid` does to the counters. -/
theorem socketUnit_recordExit (h : ConnectionInv sys) (pid : Pid) (status : WaitStatus)
    (now : TimePoint) (n : String) :
    (sys.init.recordExit pid status now).socketUnit n =
      if sys.children.lookup pid = some (.connection n) then
        { sys.init.socketUnit n with
          activeConnections := (sys.init.socketUnit n).activeConnections - 1 }
      else sys.init.socketUnit n := by
  unfold recordExit
  rw [fireExitCallback_eq]
  dsimp only
  cases hcb : sys.init.exitCallbacks.lookup pid with
  | none =>
      -- Without a callback it is no connection child, and no counter changes.
      have hno : sys.children.lookup pid ≠ some (.connection n) := by
        intro hkind
        rw [(h.callbacks pid n).mpr hkind] at hcb
        cases hcb
      rw [if_neg hno]
      rfl
  | some cb =>
      rcases cb with ⟨socket⟩
      have hkind := (h.callbacks pid socket).mp hcb
      rw [hkind]
      by_cases heq : n = socket
      · subst heq
        -- The counter is positive, so the socket is in the map.
        have hpos : 0 < openConnections sys n := UnorderedMap.countEntries_pos hkind (by simp)
        cases hsock : sys.init.socketUnits.lookup n with
        | none =>
            have hzero : (sys.init.socketUnit n).activeConnections = 0 := by
              simp only [socketUnit, hsock]
              rfl
            have hcounted := h.counted n
            omega
        | some sock =>
            simp [socketUnit, addConnections, UnorderedMap.lookup_modify, hsock, Int.sub_eq_add_neg]
      · have heq' : ¬ socket = n := fun h' => heq h'.symm
        simp [socketUnit, addConnections, UnorderedMap.lookup_modify, heq, heq']

theorem reaped (h : ConnectionInv sys) {pid : Pid} {status : WaitStatus} {now : TimePoint}
    (hreaped : System.Reaped sys pid status now sys') : ConnectionInv sys' := by
  have htable := h.table.reaped hreaped
  rcases UnorderedMap.exists_lookup hreaped.child with ⟨kind, hkind⟩
  have hsockets : ∀ n, sys'.init.socketUnit n =
      if kind = .connection n then
        { sys.init.socketUnit n with
          activeConnections := (sys.init.socketUnit n).activeConnections - 1 }
      else sys.init.socketUnit n := by
    intro n
    have hexit := h.socketUnit_recordExit pid status now n
    rw [hkind] at hexit
    simp only [Option.some.injEq] at hexit
    exact (hreaped.tables.socketUnit n).trans hexit
  refine
    { table := htable
      callbacks := ?_
      counted := ?_
      bounded := ?_ }
  · intro p n
    rw [hreaped.exitCallbacks, hreaped.children, UnorderedMap.lookup_erase_eq,
      UnorderedMap.lookup_erase_eq]
    by_cases heq : p = pid
    · simp [heq]
    · simp only [heq, if_false]
      exact h.callbacks p n
  · intro n
    -- The child that was reaped is one fewer, for its own socket if it served one.
    have hcount := UnorderedMap.countEntries_erase
      (fun _ kind => decide (kind = .connection n)) hkind
    have hopen : openConnections sys n =
        openConnections sys' n + if kind = .connection n then 1 else 0 := by
      unfold openConnections
      rw [hreaped.children, hcount]
      simp
    have hold := h.counted n
    rw [hsockets]
    by_cases heq : kind = .connection n
    · simp only [heq, if_true] at hopen ⊢
      omega
    · simp only [heq, if_false] at hopen ⊢
      omega
  · intro n
    rw [hsockets]
    have hold := h.bounded n
    by_cases heq : kind = .connection n
    · simp only [heq, if_true]
      omega
    · simp only [heq, if_false]
      exact hold

theorem drained (h : ConnectionInv sys) (now : TimePoint) :
    ConnectionInv
      { sys with
        init := (sys.init.drainPendingRestarts now).2
        clock := now } := by
  have htable := h.table.drained now
  rw [drainPendingRestarts_eq] at htable ⊢
  exact h.keep htable rfl (fun _ => rfl) (fun _ _ => Iff.rfl)

theorem notAccepted (h : ConnectionInv sys) (hnone : System.NotAccepted sys sys') :
    ConnectionInv sys' := by
  refine h.keep (h.table.notAccepted hnone) hnone.exitCallbacks hnone.socketUnit ?_
  intro p n
  rw [hnone.children]

theorem stopped (h : ConnectionInv sys) {name : String}
    (hstep : sys.step (.stopUnit name) = some sys') : ConnectionInv sys' := by
  rcases System.stop_cases hstep with ⟨htables, hchildren, -⟩
  refine h.keep (h.table.stopped hstep) htables.exitCallbacks htables.socketUnit ?_
  intro p n
  rw [hchildren]

theorem kept : System.Kept ConnectionInv where
  same := fun h hsame => h.sameSystem hsame
  startService := fun h hstart => h.startService hstart
  notAccepted := fun h hnone => h.notAccepted hnone
  accepted := fun h hacc => h.accepted hacc
  reaped := fun h hreaped => h.reaped hreaped
  drained := fun now h => h.drained now
  stopped := fun h hstop => h.stopped hstop
  queued := fun name now h =>
    h.keep (h.table.queued name now) rfl (fun _ => rfl) (fun _ _ => Iff.rfl)
  adopted := fun h hfresh =>
    h.keep (h.table.adopted hfresh) rfl (fun _ => rfl) (lookup_insert_connection hfresh (by simp))

theorem step (h : ConnectionInv sys) {e : Event} (hstep : sys.step e = some sys') :
    ConnectionInv sys' :=
  kept.step h hstep

/-! ## Frame -/

theorem startService_socketUnit {name : String} {unit : UnitFile} {os : StartAnswers}
    (hstep : sys.startService name unit os = some sys') (n : String) :
    sys'.init.socketUnit n = sys.init.socketUnit n := by
  rcases System.startService_cases hstep with hfailed | ⟨pid, hstarted⟩
  · exact hfailed.tables.socketUnit n
  · exact hstarted.tables.socketUnit n

/-- A step leaves every socket alone except the one it touches. -/
theorem socketUnit_of_ne_touched (h : ConnectionInv sys) {e : Event}
    (hstep : sys.step e = some sys') {n : String} (hn : touchedSocket sys e ≠ some n) :
    sys'.init.socketUnit n = sys.init.socketUnit n := by
  cases e with
  | executeUnit name os =>
      rcases System.executeUnit_cases hstep with hsame | ⟨unit, -, hstart⟩
      · exact hsame.tables.socketUnit n
      · exact startService_socketUnit hstart n
  | reaped pid status now =>
      have hreaped := System.reaped_cases hstep
      have hno : sys.children.lookup pid ≠ some (.connection n) := by
        intro hkind
        simp [touchedSocket, hkind] at hn
      have hexit := h.socketUnit_recordExit pid status now n
      rw [if_neg hno] at hexit
      exact (hreaped.tables.socketUnit n).trans hexit
  | acceptReady listenFd os =>
      rcases System.acceptReady_cases hstep with ⟨-, hnone | ⟨socket, svc, pid, hacc⟩⟩
      · exact hnone.socketUnit n
      · have hne : ¬ n = socket := by
          rintro rfl
          exact hn hacc.listening
        rw [hacc.socketUnit, if_neg hne]
  | processRestarts now os =>
      rcases System.processRestarts_cases hstep with ⟨-, hrun⟩
      refine System.restartAll_invariant
        (fun _ sys₁ => sys₁.init.socketUnit n = sys.init.socketUnit n)
        ?_ (fun h _ => h) (fun _ h _ hs => (startService_socketUnit hs n).trans h) ?_ hrun
      · intro _ sys₁ sys₂ hold hsame
        exact (hsame.tables.socketUnit n).trans hold
      · rw [drainPendingRestarts_eq]
        rfl
  | drainPendingRestarts now =>
      rcases System.drain_cases hstep with ⟨-, rfl⟩
      rw [drainPendingRestarts_eq]
      rfl
  | stopUnit name =>
      exact (System.stop_cases hstep).1.socketUnit n
  | queueRestart name now =>
      rcases System.queue_cases hstep with ⟨-, rfl⟩
      rfl
  | adopt pid =>
      rcases System.adopt_cases hstep with ⟨-, rfl⟩
      rfl

end ConnectionInv

/-! ## Whole runs -/

/-- In every state of every run, each counter is the number of live children of the socket with a
registered callback, within its bounds; a step touches one counter at most, and `accept_ready`
leaves no accepted descriptor open. -/
theorem connections_accounted {sys sys' : System} {es : List Event} (hboot : Booted sys)
    (hrun : sys.run es = some sys') :
    (∀ n, (sys'.init.socketUnit n).activeConnections = (registeredConnections sys' n : Int)) ∧
      (∀ n, 0 ≤ (sys'.init.socketUnit n).activeConnections) ∧
      (∀ n, (sys'.init.socketUnit n).maxConn > 0 →
        (sys'.init.socketUnit n).activeConnections ≤ (sys'.init.socketUnit n).maxConn) ∧
      (∀ e next, sys'.step e = some next → ∀ n, touchedSocket sys' e ≠ some n →
        (next.init.socketUnit n).activeConnections =
          (sys'.init.socketUnit n).activeConnections) ∧
      ∀ listenFd os next, sys'.step (.acceptReady listenFd os) = some next →
        next.init.fds = sys'.init.fds ∧ ∀ c ∈ os.conn, next.init.fds c.1 = none := by
  have hinv : ConnectionInv sys' :=
    StepRun.run_invariant_of_step (fun _ _ _ h hs => ConnectionInv.step h hs) hboot.connectionInv
      hrun
  have hcounted : ∀ n, (sys'.init.socketUnit n).activeConnections =
      (registeredConnections sys' n : Int) := by
    intro n
    rw [hinv.registered_eq]
    exact hinv.counted n
  refine ⟨hcounted, ?_, hinv.bounded, ?_, ?_⟩
  · intro n
    rw [hcounted]
    exact Int.natCast_nonneg _
  · intro e next hstep n hn
    rw [hinv.socketUnit_of_ne_touched hstep hn]
  · intro listenFd os next hstep
    have hfds := (System.acceptReady_cases hstep).1
    refine ⟨hfds, ?_⟩
    intro c hc
    by_cases hpossible : sys'.acceptPossible os
    · rw [hfds]
      exact hpossible c hc
    · simp [System.step, hpossible] at hstep

/-- Two connections fill the socket, a third one is turned away, and one of the two ends. -/
def sampleTraffic : List Event :=
  [ .acceptReady 5 { conn := some (9, 1), forked := .ok 100 },
    .acceptReady 5 { conn := some (9, 2), forked := .error "EAGAIN" },
    .acceptReady 5 { conn := some (9, 3), forked := .ok 101 },
    .acceptReady 5 { conn := some (9, 4), forked := .ok 102 },
    .reaped 100 (.signaled 15) 7 ]

theorem connections_accounted_sample :
    ∃ sys', sampleBoot.run sampleTraffic = some sys' ∧
      (sys'.init.socketUnit "echo.socket").activeConnections = 1 ∧
      registeredConnections sys' "echo.socket" = 1 := by
  have hsome : ((sampleBoot.run sampleTraffic).any (fun sys =>
      decide ((sys.init.socketUnit "echo.socket").activeConnections = 1))) = true := by
    decide
  cases hrun : sampleBoot.run sampleTraffic with
  | none =>
      rw [hrun] at hsome
      cases hsome
  | some sys' =>
      rw [hrun, Option.any_some, decide_eq_true_eq] at hsome
      have hcounted := (connections_accounted sampleBoot_booted hrun).1 "echo.socket"
      exact ⟨sys', rfl, hsome, by omega⟩

end TrivialInit
