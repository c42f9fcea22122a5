import TrivialInit.Properties.Connections
import TrivialInit.Properties.Refinement
import TrivialInit.Properties.RestartLineage

/-!
# ProgramStates — what the refinement says about the program

Invariants of the calls hold at every place of the main program before `run` returns
(`RunState.holds_of_kept`), and so do facts about the calls that have been made.  Two of them
follow: a service has one main process, one pending restart or one start to come at most
(`RunState.one_main_process`), and the children that serve the connections of a socket, a child
that `accept_ready` has just forked included, respect its `MaxConnections=`
(`RunState.connections_respect_limit`).
-/

namespace TrivialInit

open InitSystem

/-! ## The first state -/

theorem parseSocketUnit_activeConnections (unit : UnitFile) :
    (parseSocketUnit unit).activeConnections = 0 := by
  unfold parseSocketUnit
  cases unit.rawSections.lookup "Socket" with
  | none => rfl
  | some sec => rfl

/-- No socket unit of the object has a connection. -/
def NoConnections (s : InitSystem) : Prop :=
  ∀ n sock, s.socketUnits.lookup n = some sock → sock.activeConnections = 0

theorem NoConnections.insert {s s' : InitSystem} (h : NoConnections s) {name : String}
    {sock : SocketUnit} (hsock : sock.activeConnections = 0)
    (hunits : s'.socketUnits = s.socketUnits.insert name sock) : NoConnections s' := by
  intro n sock' hn
  rw [hunits, UnorderedMap.lookup_insert_eq] at hn
  split_ifs at hn
  · obtain rfl := Option.some.inj hn
    exact hsock
  · exact h n sock' hn

theorem bindUnit_noConnections (os : SocketBindAnswers) (acc : Traced × Nat) (name : String)
    (unit : UnitFile) (h : NoConnections acc.1.init) :
    NoConnections (bindUnit os acc name unit).1.init := by
  have hparsed : (expandSpecifiers os.info (parseSocketUnit unit)).activeConnections = 0 :=
    parseSocketUnit_activeConnections unit
  unfold bindUnit
  dsimp only
  generalize expandSpecifiers os.info (parseSocketUnit unit) = sock at hparsed ⊢
  split_ifs
  · exact h
  · exact h
  · exact h.insert hparsed rfl
  · have hentries := (bindEntries_tables sock (os.entries name) sock.listen acc.1).socketUnits
    have hkept : NoConnections (bindSocketUnit sock (os.entries name) acc.1).2.init :=
      fun n sock' hn => h n sock' (hentries ▸ hn)
    have hbound : (bindSocketUnit sock (os.entries name) acc.1).1.activeConnections = 0 := hparsed
    exact hkept.insert hbound rfl

theorem executeSocketBind_noConnections {s : InitSystem} (h : NoConnections s)
    (os : SocketBindAnswers) : NoConnections (s.executeSocketBind os).1 :=
  List.foldlRecOn
    (motive := fun acc : Traced × Nat => NoConnections acc.1.init)
    (s.log .info "socket" "Binding socket units").units.entries
    (fun acc e => bindUnit os acc e.1 e.2)
    (b := ({ init := s.log .info "socket" "Binding socket units" }, 0)) h
    (fun acc hacc e _ => bindUnit_noConnections os acc e.1 e.2 hacc)

/-- The process before its first call. -/
theorem parsed_booted (journal : Journal) (units : UnorderedMap String UnitFile) (fds : FdTable)
    (os : SocketBindAnswers) (inDegreeOrder : List String) :
    Booted
      { init := ((parsed journal units fds).boundAndResolved os
          inDegreeOrder).registerAcceptSockets } := by
  have htables := boundAndResolved_tables (parsed journal units fds) os inDegreeOrder
  have hnone : NoConnections ((parsed journal units fds).executeSocketBind os).1 :=
    executeSocketBind_noConnections (by simp [NoConnections, parsed]) os
  exact
    { processes := htables.processes
      unitToPid := htables.unitToPid
      exitCallbacks := htables.exitCallbacks
      pendingRestarts := htables.pendingRestarts
      restartCounts := htables.restartCounts
      children := rfl
      connections := by
        intro n
        change ((((parsed journal units fds).boundAndResolved os
          inDegreeOrder).socketUnits.lookup n).getD default).activeConnections = 0
        rw [htables.socketUnits]
        cases hn : ((parsed journal units fds).executeSocketBind os).1.socketUnits.lookup n with
        | none => rfl
        | some sock => exact hnone n sock hn }

/-! ## Invariants of the calls -/

namespace System

variable {sys sys' : System}

namespace Similar

theorem lookup_children (h : Similar sys sys') (p : Pid) :
    sys'.children.lookup p = sys.children.lookup p :=
  AList.perm_lookup h.children

theorem mainCounters (h : Similar sys sys') (n : String) :
    TrivialInit.mainCounters sys' n = TrivialInit.mainCounters sys n := by
  obtain ⟨journal, fdToSocket, hinit⟩ := h.init
  funext p
  unfold TrivialInit.mainCounters
  rw [h.lookup_children, hinit]

theorem pendingOf (h : Similar sys sys') (n : String) :
    TrivialInit.pendingOf sys'.init n = TrivialInit.pendingOf sys.init n := by
  obtain ⟨journal, fdToSocket, hinit⟩ := h.init
  rw [hinit]
  rfl

theorem socketUnit (h : Similar sys sys') (n : String) :
    sys'.init.socketUnit n = sys.init.socketUnit n := by
  obtain ⟨journal, fdToSocket, hinit⟩ := h.init
  rw [hinit]
  rfl

theorem openConnections (h : Similar sys sys') (n : String) :
    TrivialInit.openConnections sys' n = TrivialInit.openConnections sys n :=
  h.children.countP_eq _

theorem tableInv (h : Similar sys sys') (hinv : TableInv sys) : TableInv sys' := by
  obtain ⟨journal, fdToSocket, hinit⟩ := h.init
  exact
    { entry := hinit ▸ hinv.entry
      named := hinit ▸ hinv.named
      callback := hinit ▸ hinv.callback
      tracked := by
        intro p
        rw [h.lookup_children, hinit]
        exact hinv.tracked p }

theorem connectionInv (h : Similar sys sys') (hinv : ConnectionInv sys) : ConnectionInv sys' where
  table := h.tableInv hinv.table
  callbacks := by
    intro p n
    obtain ⟨journal, fdToSocket, hinit⟩ := h.init
    rw [h.lookup_children, hinit]
    exact hinv.callbacks p n
  counted := by
    intro n
    rw [h.socketUnit, h.openConnections]
    exact hinv.counted n
  bounded := by
    intro n
    rw [h.socketUnit]
    exact hinv.bounded n

end Similar

/-- An invariant that no call of the program breaks; `start_service` is only called with a loaded
service. -/
structure KeptInProgram (Inv : System → Prop) : Prop where
  same : ∀ {sys sys'}, Inv sys → SameSystem sys sys' → Inv sys'
  startService : ∀ {sys sys' name unit os}, Inv sys → findService sys.init name = some unit →
    sys.startService name unit os = some sys' → Inv sys'
  notAccepted : ∀ {sys sys'}, Inv sys → NotAccepted sys sys' → Inv sys'
  accepted : ∀ {sys sys' listenFd os socket svc pid}, Inv sys →
    Accepted sys listenFd os socket svc pid sys' → Inv sys'
  reaped : ∀ {sys sys' pid status now}, Inv sys → Reaped sys pid status now sys' → Inv sys'
  drained : ∀ {sys} now, Inv sys →
    Inv
      { sys with
        init := (sys.init.drainPendingRestarts now).2
        clock := now }
  stopped : ∀ {sys sys' name}, Inv sys → sys.step (.stopUnit name) = some sys' → Inv sys'
  adopted : ∀ {sys pid}, Inv sys → pid ∉ sys.children → Inv (sys.adopted pid)

theorem Kept.inProgram {Inv : System → Prop} (h : Kept Inv) : KeptInProgram Inv where
  same := h.same
  startService hinv _ hstart := h.startService hinv hstart
  notAccepted := h.notAccepted
  accepted := h.accepted
  reaped := h.reaped
  drained := h.drained
  stopped := h.stopped
  adopted := h.adopted

namespace KeptInProgram

variable {Inv : System → Prop}

/-- The loop of `process_restarts`, wherever it has got to. -/
theorem restartAll (hkept : KeptInProgram Inv) (h : Inv sys) {ready : List String}
    {os : Nat → StartAnswers} (hrun : System.restartAll ready os sys = some sys') : Inv sys' :=
  restartAll_invariant (fun _ sys => Inv sys) hkept.same (fun h _ => h)
    (fun _ h hfind hstart => hkept.startService h hfind hstart) h hrun

theorem step (hkept : KeptInProgram Inv) (h : Inv sys) {e : Event} (he : e.InProgram)
    (hstep : sys.step e = some sys') : Inv sys' := by
  cases e with
  | executeUnit name os =>
      rcases executeUnit_cases hstep with hsame | ⟨unit, hfind, hstart⟩
      · exact hkept.same h hsame
      · exact hkept.startService h hfind hstart
  | reaped pid status now => exact hkept.reaped h (reaped_cases hstep)
  | acceptReady listenFd os =>
      obtain ⟨-, hnone | ⟨socket, svc, pid, hacc⟩⟩ := acceptReady_cases hstep
      · exact hkept.notAccepted h hnone
      · exact hkept.accepted h hacc
  | processRestarts now os =>
      obtain ⟨-, hrun⟩ := processRestarts_cases hstep
      exact hkept.restartAll (hkept.drained now h) hrun
  | drainPendingRestarts now => nomatch he
  | stopUnit name => exact hkept.stopped h hstep
  | queueRestart name now => nomatch he
  | adopt pid =>
      obtain ⟨hfresh, rfl⟩ := adopt_cases hstep
      exact hkept.adopted h hfresh

/-- What every call keeps holds on the way through `process_restarts` as well. -/
theorem reaches (hkept : KeptInProgram Inv)
    (hsimilar : ∀ {sys sys'}, Similar sys sys' → Inv sys → Inv sys') {phase : CallPhase}
    (h : sys.Reaches sys' phase) (hinv : Inv sys) : Inv sys' := by
  cases phase with
  | restarts toCome =>
      obtain ⟨now, done, os, t, hclock, hready, hdone, hsim⟩ := h
      exact hsimilar hsim (hkept.restartAll (hkept.drained now hinv) hdone)
  | execute toExecute => exact hsimilar h hinv
  | calls => exact hsimilar h hinv

end KeptInProgram

end System

namespace RunState

variable {s : InitSystem} {es : List RunEvent} {m : RunState}

/-- The last call before the place has led to a state with the invariant. -/
theorem reaches_of_kept {Inv : System → Prop} (hkept : System.KeptInProgram Inv)
    (hboot : Inv { init := s.registerAcceptSockets }) (hrun : (boot s).run es = some m)
    (hlive : m.point ≠ .returned) : ∃ sys, Inv sys ∧ sys.Reaches m.sys m.point.phase := by
  obtain ⟨calls, sys, hcalls, hin, -, hreached⟩ := refines_system hrun hlive
  have hinv : Inv sys :=
    StepRun.run_invariant_of_forall (fun _ _ _ (h : Inv _) he hstep => hkept.step h he hstep)
      hboot hin hcalls
  exact ⟨sys, hinv, hreached⟩

/-- An invariant of the calls that reads neither the journal nor the registered descriptors holds
at every place of the program. -/
theorem holds_of_kept {Inv : System → Prop} (hkept : System.KeptInProgram Inv)
    (hsimilar : ∀ {sys sys'}, System.Similar sys sys' → Inv sys → Inv sys')
    (hboot : Inv { init := s.registerAcceptSockets }) (hrun : (boot s).run es = some m)
    (hlive : m.point ≠ .returned) : Inv m.sys := by
  obtain ⟨sys, hinv, hreached⟩ := reaches_of_kept hkept hboot hrun hlive
  exact hkept.reaches hsimilar hreached hinv

end RunState

/-! ## One main process -/

/-- `p` is the main process of `n`: `start_service` has forked and tracked it, and it has not been
reaped. -/
def IsMain (n : String) (sys : System) (p : Pid) : Prop :=
  sys.children.lookup p = some .service ∧
    ∃ tp, sys.init.processes.lookup p = some tp ∧ tp.unitName = n

theorem isMain_iff {n : String} {sys : System} {p : Pid} :
    IsMain n sys p ↔ ∃ c, mainCounters sys n p = some c := by
  simp only [IsMain, mainCounters_eq_some]
  constructor
  · rintro ⟨hkind, tp, htp, hname⟩
    exact ⟨tp.counters, hkind, tp, htp, hname, rfl⟩
  · rintro ⟨c, hkind, tp, htp, hname, -⟩
    exact ⟨hkind, tp, htp, hname⟩

/-- Of the main processes of `n`, its pending restarts and its starts to come there is one at
most. -/
structure SoleMain (n : String) (toStart : List String) (sys : System) : Prop where
  one : ∀ p q, IsMain n sys p → IsMain n sys q → p = q
  few : (pendingOf sys.init n).length + toStart.count n ≤ 1
  excluded : ∀ p, IsMain n sys p → pendingOf sys.init n = [] ∧ n ∉ toStart

namespace SoleMain

variable {n : String} {unit : UnitFile} {hist : List UnitObs} {toStart : List String}
  {sys sys' : System}

theorem of_noMain (hmain : mainCounters sys n = fun _ => none)
    (hfew : (pendingOf sys.init n).length + toStart.count n ≤ 1) : SoleMain n toStart sys := by
  have hnone : ∀ p, ¬ IsMain n sys p := by
    simp [isMain_iff, hmain]
  exact
    { one := fun p q hp => absurd hp (hnone p)
      few := hfew
      excluded := fun p hp => absurd hp (hnone p) }

theorem of_lineage (h : Lineage n unit hist toStart sys) : SoleMain n toStart sys := by
  obtain ⟨w, -, hphase⟩ := h.state
  cases hphase with
  | running p c main pending idle =>
      have hsole : ∀ q, IsMain n sys q → q = p := by
        intro q hq
        obtain ⟨c', hc'⟩ := isMain_iff.mp hq
        by_contra hne
        simp [main, Function.update_of_ne hne] at hc'
      exact
        { one := fun q r hq hr => (hsole q hq).trans (hsole r hr).symm
          few := by simp [pending, idle]
          excluded := fun q _ => ⟨pending, List.count_eq_zero.mp idle⟩ }
  | waiting pr earlier main pending idle => exact of_noMain main (by simp [pending, idle])
  | due counts main pending next => exact of_noMain main (by simp [pending, next])
  | ended main pending idle => exact of_noMain main (by simp [pending, idle])

theorem of_idle (h : Idle n unit hist sys) (hfew : toStart.count n ≤ 1) :
    SoleMain n toStart sys :=
  of_noMain h.main (by simpa [h.pending] using hfew)

theorem similar (h : SoleMain n toStart sys) (hsim : System.Similar sys sys') :
    SoleMain n toStart sys' := by
  have hmain : ∀ p, IsMain n sys' p ↔ IsMain n sys p := by
    intro p
    rw [isMain_iff, isMain_iff, hsim.mainCounters]
  exact
    { one := fun p q hp hq => h.one p q ((hmain p).mp hp) ((hmain q).mp hq)
      few := by
        rw [hsim.pendingOf]
        exact h.few
      excluded := fun p hp => by
        rw [hsim.pendingOf]
        exact h.excluded p ((hmain p).mp hp) }

end SoleMain

section Restarts

variable {n : String} {unit : UnitFile} {hist : List UnitObs} {sys t : System} {now : TimePoint}
  {done toCome : List String} {os : Nat → StartAnswers}

/-- On the way through `process_restarts` the names to come are those that are due. -/
theorem Lineage.restarting (h : Lineage n unit hist [] sys) (hclock : sys.clock ≤ now)
    (hready : (sys.init.drainPendingRestarts now).1 = done ++ toCome)
    (hdone : System.restartAll done os
      { sys with
        init := (sys.init.drainPendingRestarts now).2
        clock := now } = some t) :
    ∃ hist', Lineage n unit hist' toCome t := by
  have hstart : Lineage n unit (hist ++ unitObs n sys (.processRestarts now os)) _ _ :=
    h.drained_ready hclock
  rw [hready] at hstart
  refine ⟨_, System.restartAll_invariant
    (fun ready sys => Lineage n unit (hist ++ unitObs n _ (.processRestarts now os))
      (ready ++ toCome) sys) ?_ ?_ ?_ hstart hdone⟩
  · intro ready sys₁ sys₂ hlin hsame
    exact hlin.sameSystem hsame
  · intro name rest sys₁ hlin hnone
    have hname : name ≠ n := by
      rintro rfl
      rw [hlin.loaded] at hnone
      nomatch hnone
    exact hlin.skip (List.count_cons_of_ne hname).symm
  · intro name rest sys₁ sys₂ unit' os' hlin hfind hstart
    by_cases hname : name = n
    · subst hname
      rw [hlin.loaded] at hfind
      obtain rfl := Option.some.inj hfind
      exact Lineage.startService hlin hstart
    · exact (hlin.skip (List.count_cons_of_ne hname).symm).startOther hname hstart

/-- A unit that has not been started is not due. -/
theorem Idle.restarting (h : Idle n unit hist sys)
    (hready : (sys.init.drainPendingRestarts now).1 = done ++ toCome)
    (hdone : System.restartAll done os
      { sys with
        init := (sys.init.drainPendingRestarts now).2
        clock := now } = some t) :
    Idle n unit hist t ∧ toCome.count n = 0 := by
  have hwaiting : ∀ pr ∈ pendingOf sys.init n, pr.isDue now = false := by
    simp [h.pending]
  have hview := sameView_of_drained hwaiting
  have hcount : (done ++ toCome).count n = 0 := hready ▸ hview.2
  refine System.restartAll_invariant
    (fun ready sys => Idle n unit hist sys ∧ (ready ++ toCome).count n = 0) ?_ ?_ ?_
    ⟨h.congr (h.base.drained now) (units_of_drained now) hview.1, hcount⟩ hdone
  · rintro ready sys₁ sys₂ ⟨hidle, hnone⟩ hsame
    exact ⟨hidle.congr (hidle.base.sameSystem hsame) hsame.tables.units
      (sameView_of_sameSystem hsame), hnone⟩
  · rintro name rest sys₁ ⟨hidle, hnone⟩ -
    rw [List.cons_append, List.count_cons] at hnone
    exact ⟨hidle, by omega⟩
  · rintro name rest sys₁ sys₂ unit' os' ⟨hidle, hnone⟩ - hstart
    have hname : name ≠ n := by
      rintro rfl
      simp at hnone
    rw [List.cons_append, List.count_cons_of_ne hname] at hnone
    exact ⟨hidle.congr (hidle.base.startService hstart) (units_of_startService hstart)
      (sameView_of_startService hname hstart), hnone⟩

end Restarts

/-- The units that the callers of `start_service` have not done with. -/
def CallPhase.toStart : CallPhase → List String
  | .execute toExecute => toExecute
  | .restarts toCome => toCome
  | .calls => []

theorem Event.countP_executes (n : String) (calls : List Event) :
    calls.countP (Event.executes n) = (executedNames calls).count n := by
  unfold executedNames
  rw [List.count, List.countP_filterMap]
  refine List.countP_congr (fun e _ => ?_)
  cases e <;> simp [Event.executes, Event.executed?]

theorem Event.InProgram.queues {e : Event} (h : e.InProgram) (n : String) :
    e.queues n = false := by
  cases e <;> first | rfl | nomatch h

/-- A unit whose turn has not come is idle. -/
theorem Idle.run_unexecuted {n : String} {unit : UnitFile} {sys sys' : System} {es : List Event}
    (h : Idle n unit [] sys) (hexec : ∀ e ∈ es, e.executes n = false)
    (hqueue : ∀ e ∈ es, e.queues n = false) (hrun : sys.run es = some sys') :
    ∃ hist, Idle n unit hist sys' :=
  ⟨_, StepRun.run_history_invariant (fun _ e => e.executes n = false ∧ e.queues n = false)
    (fun hist sys => Idle n unit hist sys)
    (fun _ _ _ _ hidle hok hstep => Idle.step hidle hok.1 hok.2 hstep) h
    (StepRun.stepsMeet_of_forall sys (fun e he => ⟨hexec e he, hqueue e he⟩)) hrun⟩

namespace RunState

/-- In every run of the main program, of the main processes of a service, its pending restarts, and
its turns in `execute(UnitExecute)` or `process_restarts` there is one at most at any time before
`run` returns. -/
theorem one_main_process (journal : Journal) (units : UnorderedMap String UnitFile) (fds : FdTable)
    (os : SocketBindAnswers) (inDegreeOrder : List String)
    (hiter : inDegreeOrder.Perm (DependencyGraph.build units).inDegree.keys)
    {es : List RunEvent} {m : RunState}
    (hrun : (boot ((parsed journal units fds).boundAndResolved os inDegreeOrder)).run es = some m)
    (hlive : m.point ≠ .returned) {n : String} {unit : UnitFile}
    (hunit : units.lookup n = some unit) (htype : unit.type = .service) :
    SoleMain n m.point.phase.toStart m.sys := by
  have htables := boundAndResolved_tables (parsed journal units fds) os inDegreeOrder
  have hbooted := parsed_booted journal units fds os inDegreeOrder
  generalize (parsed journal units fds).boundAndResolved os inDegreeOrder = s at *
  have horder : s.execOrder.Nodup := by
    rw [htables.execOrder]
    exact nodup_resolveOrder hiter
  have hloaded : System.findService s.registerAcceptSockets n = some unit := by
    have hunits : s.registerAcceptSockets.units = units := htables.units
    simp [System.findService, findUnit, hunits, hunit, htype]
  have hidle := hbooted.idle hloaded
  obtain ⟨calls, sys, hcalls, hin, hexecuted, hreached⟩ := refines_system hrun hlive
  have hqueue : ∀ e ∈ calls, e.queues n = false := fun e he => (hin e he).queues n
  rw [← hexecuted, List.nodup_append] at horder
  obtain ⟨hnodup, hrest, hdisjoint⟩ := horder
  -- Its turn comes once at most, so it is idle or its lineage has begun.
  have hstate := hidle.run
    (by rw [Event.countP_executes]; exact List.nodup_iff_count_le_one.mp hnodup n) hqueue hcalls
  cases hphase : m.point.phase with
  | execute toExecute =>
      rw [hphase] at hreached hrest hdisjoint
      by_cases hmem : n ∈ toExecute
      · have hnot : n ∉ Event.executedNames calls :=
          fun hold => hdisjoint n hold n hmem rfl
        have hnone : ∀ e ∈ calls, e.executes n = false := by
          have hcount := Event.countP_executes n calls
          rw [List.count_eq_zero.mpr hnot, List.countP_eq_zero] at hcount
          exact fun e he => by simpa using hcount e he
        obtain ⟨hist, hunexecuted⟩ := hidle.run_unexecuted hnone hqueue hcalls
        exact (SoleMain.of_idle hunexecuted (List.nodup_iff_count_le_one.mp hrest n)).similar
          hreached
      · have hcount : toExecute.count n = 0 := List.count_eq_zero.mpr hmem
        rcases hstate with hidle' | hlin
        · exact (SoleMain.of_idle hidle' (hcount.trans_le (Nat.zero_le 1))).similar hreached
        · exact (SoleMain.of_lineage (hlin.skip hcount)).similar hreached
  | restarts toCome =>
      rw [hphase] at hreached
      obtain ⟨now, done, answers, t, hclock, hready, hdone, hsim⟩ := hreached
      rcases hstate with hidle' | hlin
      · obtain ⟨ht, hcount⟩ := hidle'.restarting hready hdone
        exact (SoleMain.of_idle ht (hcount.trans_le (Nat.zero_le 1))).similar hsim
      · obtain ⟨hist, ht⟩ := hlin.restarting hclock hready hdone
        exact (SoleMain.of_lineage ht).similar hsim
  | calls =>
      rw [hphase] at hreached
      rcases hstate with hidle' | hlin
      · exact (SoleMain.of_idle hidle' (List.count_nil.trans_le (Nat.zero_le 1))).similar hreached
      · exact (SoleMain.of_lineage hlin).similar hreached

theorem one_main_process_sample :
    ∃ m, (boot restartBoot).run (restartRun.take 13) = some m ∧ ¬ IsMain "web.service" m.sys 100 ∧
      (pendingOf m.sys.init "web.service").length = 0 := by
  have hsome : ((boot restartBoot).run (restartRun.take 13)).any (fun m =>
      decide (m.point.phase.toStart = ["web.service"])) = true := by
    decide +kernel
  obtain ⟨m, hm, hpoint⟩ := (Option.any_eq_true _ _).mp hsome
  have htoStart : m.point.phase.toStart = ["web.service"] := of_decide_eq_true hpoint
  have hlive : m.point ≠ .returned := by
    intro hreturned
    rw [hreturned] at htoStart
    cases htoStart
  have hsole : SoleMain "web.service" m.point.phase.toStart m.sys :=
    one_main_process {} _ (fun _ => none) oneDescriptor ["web.service"] (by decide +kernel) hm
      hlive (AList.lookup_insert _) rfl
  rw [htoStart] at hsole
  have hfew := hsole.few
  rw [List.count_singleton_self] at hfew
  exact ⟨m, hm, fun hmain => (hsole.excluded 100 hmain).2 (List.mem_singleton.mpr rfl), by omega⟩

/-! ## The limit on connections -/

/-- The children that serve connections of `n`, with the one that `accept_ready` has forked and not
tracked yet. -/
def servedConnections (m : RunState) (n : String) : Nat :=
  openConnections m.sys n +
    match m.point with
    | .accepting listenFd _ _ _ => if m.sys.acceptSocket listenFd = some n then 1 else 0
    | _ => 0

/-- In every run of the main program, until `run` returns, `active_connections` of a socket unit
counts the children that serve its connections, and these are never more than `MaxConnections=`. -/
theorem connections_respect_limit (journal : Journal) (units : UnorderedMap String UnitFile)
    (fds : FdTable) (os : SocketBindAnswers) (inDegreeOrder : List String) {es : List RunEvent}
    {m : RunState}
    (hrun : (boot ((parsed journal units fds).boundAndResolved os inDegreeOrder)).run es = some m)
    (hlive : m.point ≠ .returned) (n : String) :
    (m.sys.init.socketUnit n).activeConnections = (openConnections m.sys n : Int) ∧
      ((m.sys.init.socketUnit n).maxConn > 0 →
        (m.servedConnections n : Int) ≤ (m.sys.init.socketUnit n).maxConn) := by
  have hboot := (parsed_booted journal units fds os inDegreeOrder).connectionInv
  have hinv := (RunInv.boot (parsed_tableInv journal units fds os inDegreeOrder)).run hrun
  have hconn : ConnectionInv m.sys :=
    holds_of_kept ConnectionInv.kept.inProgram System.Similar.connectionInv hboot hrun hlive
  refine ⟨hconn.counted n, fun hmax => ?_⟩
  have hbounded := hconn.bounded n hmax
  rw [hconn.counted n] at hbounded
  unfold servedConnections
  cases hpoint : m.point with
  | accepting listenFd conn pid rest =>
      by_cases hsocket : m.sys.acceptSocket listenFd = some n
      · -- The child was forked because there was room for one more.
        have hwill := hinv.will
        simp only [WillTrack, hpoint] at hwill
        rcases acceptReady_spec m.sys.init listenFd { conn := conn, forked := .ok pid } with
          ⟨hnone, -⟩ | ⟨socket, _, _, _, hlisten, -, -, hroom, -⟩
        · rw [hnone] at hwill
          cases hwill
        · obtain rfl : socket = n := Option.some.inj (hlisten.symm.trans hsocket)
          simp only [hasCapacity, hmax, true_and, not_le, hconn.counted socket] at hroom
          simp only [hsocket, if_true]
          omega
      · simpa [hsocket] using hbounded
  | _ => simpa using hbounded

/-- A socket that serves one connection at a time. -/
def limitedUnits : UnorderedMap String UnitFile :=
  (∅ : UnorderedMap String UnitFile).insert "log.socket"
      { name := "log.socket"
        type := .socket
        rawSections := (∅ : Sections).insert "Socket"
          ((∅ : UnorderedMap String String).insert "ListenStream" "/run/log"
            |>.insert "Accept" "yes"
            |>.insert "MaxConnections" "1") }
    |>.insert "log@.service"
      { name := "log@.service"
        type := .service
        execStart := "/bin/log" }

/-- The first connection is accepted. -/
def limitedRun : List RunEvent :=
  [ .program {}
  , .program {}
  , .program {}
  , .program { polled := some [.descriptor 3] }
  , .program { conn := some (9, 1), forked := .ok 100 } ]

theorem connections_respect_limit_sample :
    ∃ m, (boot ((parsed {} limitedUnits (fun _ => none)).boundAndResolved oneDescriptor
        ["log.socket", "log@.service"])).run limitedRun = some m ∧
      m.servedConnections "log.socket" = 1 := by
  have hsome : ((boot ((parsed {} limitedUnits (fun _ => none)).boundAndResolved oneDescriptor
      ["log.socket", "log@.service"])).run limitedRun).any (fun m =>
        decide (m.point.isReturned = false ∧ 0 < m.servedConnections "log.socket" ∧
          (m.sys.init.socketUnit "log.socket").maxConn = 1)) = true := by
    decide +kernel
  obtain ⟨m, hm, hpoint⟩ := (Option.any_eq_true _ _).mp hsome
  obtain ⟨hloop, hpos, hmax⟩ := of_decide_eq_true hpoint
  have hlive : m.point ≠ .returned := by
    intro hreturned
    rw [hreturned] at hloop
    cases hloop
  have hlimit := (connections_respect_limit {} limitedUnits (fun _ => none) oneDescriptor
    ["log.socket", "log@.service"] hm hlive "log.socket").2
  rw [hmax] at hlimit
  have hone := hlimit (by decide)
  exact ⟨m, hm, by omega⟩

end RunState

end TrivialInit
