import TrivialInit.Properties.ShutdownOrder

/-!
# ShutdownProgress — the program is never stuck, and the shutdown ends

At every point of the program the system has an answer that lets it go on, except in `waitpid` for
an `ExecStartPre` command that is still running, until `run` returns or a look-up of a user or group
throws (`RunState.never_stuck`).  After the main loop nothing throws, and the work that is left can
be counted: the names to stop, the calls of `epoll_wait` with the events they
may still report, the pending signals and the exited children.  Only the kernel adds to it.
-/

namespace TrivialInit

open InitSystem

/-! ## The end of the program -/

/-- `run` has returned, or an exception has ended the program. -/
def RunPoint.ended : RunPoint → Bool
  | .returned => true
  | .terminated _ _ => true
  | _ => false

/-- Starting the unit may look up users or groups: in the block on `RuntimeDirectory=`, where the
contents of `/etc/passwd` and `/etc/group` may make it throw, or in a condition on the user. -/
def UnitFile.LooksUpUsers (unit : UnitFile) : Prop :=
  (unit.type = .service ∧ ∃ passwd group, runtimeDirectoryCalls unit passwd group = none) ∨
    ∃ ce ∈ unit.conditions ++ unit.assertions,
      Conditions.isKind "User" ce = true ∧ ce.value ≠ "root" ∧ ce.value ≠ "@system"

namespace Conditions

variable {probe : SystemProbe}

theorem exists_lookup_of_throwsIn {entries : List ConditionEntry}
    (h : throwsIn probe entries = true) :
    ∃ ce ∈ entries, isKind "User" ce = true ∧ ce.value ≠ "root" ∧ ce.value ≠ "@system" := by
  induction entries with
  | nil => nomatch h
  | cons ce rest ih =>
      rcases (Bool.or_eq_true _ _).mp h with hthis | hrest
      · simp only [throwsOne, Bool.and_eq_true, decide_eq_true_eq] at hthis
        obtain ⟨⟨⟨hkind, hroot⟩, hsystem⟩, -⟩ := hthis
        exact ⟨ce, List.mem_cons_self, hkind, hroot, hsystem⟩
      · obtain ⟨found, hmem, hfound⟩ := ih ((Bool.and_eq_true _ _).mp hrest).2
        exact ⟨found, List.mem_cons_of_mem _ hmem, hfound⟩

theorem exists_lookup_of_throws {unit : UnitFile} (h : throws probe unit = true) :
    ∃ ce ∈ unit.conditions ++ unit.assertions,
      isKind "User" ce = true ∧ ce.value ≠ "root" ∧ ce.value ≠ "@system" := by
  rcases (Bool.or_eq_true _ _).mp h with hconditions | hassertions
  · obtain ⟨ce, hmem, hce⟩ := exists_lookup_of_throwsIn hconditions
    exact ⟨ce, List.mem_append_left _ hmem, hce⟩
  · obtain ⟨ce, hmem, hce⟩ :=
      exists_lookup_of_throwsIn ((Bool.and_eq_true _ _).mp hassertions).2
    exact ⟨ce, List.mem_append_right _ hmem, hce⟩

end Conditions

/-! ## There is a next step -/

namespace System

variable {sys : System}

theorem addChild_isSome {kind : ChildKind} {r : Option Pid × InitSystem}
    (h : ∀ pid, r.1 = some pid → pid ∉ sys.children) : (sys.addChild kind r).isSome := by
  obtain ⟨_ | pid, s⟩ := r
  · rfl
  · simp [addChild, h pid rfl]

/-- An iteration of `execute(UnitExecute)` that starts no service and does not throw gets to its
end. -/
theorem executeUnit_isSome {name : String} {os : ExecuteAnswers}
    (hquiet : RunState.conditionsThrow sys.init os.probe name = false)
    (hservice : RunState.serviceToStart sys.init os.probe name = none) :
    (sys.executeUnit name os).isSome := by
  unfold RunState.conditionsThrow at hquiet
  unfold RunState.serviceToStart at hservice
  unfold executeUnit
  cases hunit : sys.init.findUnit name with
  | none => rfl
  | some unit =>
      simp only [hunit, Option.any_some, Bool.and_eq_false_iff, Bool.not_eq_false'] at hquiet hservice ⊢
      split_ifs with htemplate hthrows
      · rfl
      · exact absurd (hquiet.resolve_left htemplate) (by simp [hthrows])
      · rw [if_neg htemplate] at hservice
        split
        · rfl
        · rfl
        · split at hservice
          · contradiction
          · contradiction
          · cases htype : unit.type <;> simp_all

end System

namespace RunState

variable {m m' : RunState} {a : RunAnswer}

/-- The child in hand of `accept_ready` serves a descriptor that was free. -/
def AcceptsFree (m : RunState) : Prop :=
  ∀ listenFd conn pid rest, m.point = .accepting listenFd conn pid rest →
    ∀ c ∈ conn, m.sys.init.fds c.1 = none

theorem accepting_acceptPossible {listenFd : Int} {conn : Option (Int × Nat)} {pid : Pid}
    {rest : List PollEvent} (h : m.programStep a = some m')
    (hnext : m'.point = .accepting listenFd conn pid rest) :
    m'.sys = m.sys ∧ ∀ c ∈ conn, m.sys.init.fds c.1 = none := by
  have hcases := programStep_cases h
  generalize hpoint : m.point = point at hcases
  cases hcases with
  | forksConnection hpid hfresh =>
      obtain ⟨rfl, rfl, rfl, rfl⟩ := RunPoint.accepting.inj hnext
      simp only [programStep, hpoint, stepPolled, hpid] at h
      split_ifs at h with hpossible
      exact ⟨rfl, hpossible⟩
  | @notStarted call back sys s htodo hstart hsys => cases back <;> cases hnext
  | tracks hsys =>
      rename_i back _
      cases back <;> cases hnext
  | readsShutdown hpending hsignal => cases hpoint.symm.trans hnext
  | readsUsr1 hpending => cases hpoint.symm.trans hnext
  | reaps hchild hexited hsys => cases hpoint.symm.trans hnext
  | _ => cases hnext

theorem AcceptsFree.step (h : AcceptsFree m) {e : RunEvent} (hstep : m.step e = some m') :
    AcceptsFree m' := by
  cases e with
  | exits pid status =>
      obtain ⟨-, rfl⟩ := exits_cases hstep
      exact h
  | adopts pid =>
      obtain ⟨-, -, rfl⟩ := adopts_cases hstep
      exact h
  | raises signal =>
      obtain rfl := Option.some.inj hstep
      exact h
  | program a =>
      intro listenFd conn pid rest hnext
      obtain ⟨hsys, hfree⟩ := accepting_acceptPossible hstep hnext
      exact hsys ▸ hfree

/-- `waitpid` blocks for an `ExecStartPre` command that has not exited. -/
def BlockedInPre (m : RunState) : Prop :=
  ∃ call pid back, m.point = .waitingPre call pid back ∧ m.procs.lookup pid = some none

theorem tracking_isSome (hinv : RunInv m) {call : StartCall} {pid : Pid} {back : StartedFrom}
    (hpoint : m.point = .tracking call pid back) :
    (m.sys.startService call.name call.unit (call.startAnswers (.ok pid))).isSome := by
  have hwill := hinv.will
  simp only [WillTrack, hpoint] at hwill
  obtain ⟨r, hr⟩ := Option.isSome_iff_exists.mp (call.startService_isSome m.sys.init (.ok pid))
  simp only [System.startService, hr, Option.bind_some]
  refine System.addChild_isSome (fun pid' hpid' => ?_)
  rw [(startService_spec hr).1, hwill] at hpid'
  obtain rfl := Option.some.inj hpid'
  exact hinv.fresh pid (by rw [hpoint]; rfl)

theorem accepting_isSome (hinv : RunInv m) (hfree : AcceptsFree m) {listenFd : Int}
    {conn : Option (Int × Nat)} {pid : Pid} {rest : List PollEvent}
    (hpoint : m.point = .accepting listenFd conn pid rest) :
    (m.sys.step (.acceptReady listenFd { conn := conn, forked := .ok pid })).isSome := by
  have hwill := hinv.will
  simp only [WillTrack, hpoint] at hwill
  have hpossible : m.sys.acceptPossible { conn := conn, forked := .ok pid } :=
    hfree listenFd conn pid rest hpoint
  simp only [System.step, hpossible, if_true]
  refine System.addChild_isSome (fun pid' hpid' => ?_)
  obtain rfl := Option.some.inj (hwill.symm.trans hpid')
  exact hinv.fresh pid (by rw [hpoint]; rfl)

/-- `accept4` may always fail. -/
theorem notAccepted_isSome (sys : System) (listenFd : Int) (forked : ForkAnswer) :
    (sys.init.acceptReady listenFd { conn := none, forked := forked }).1 = none ∧
      (sys.step (.acceptReady listenFd { conn := none, forked := forked })).isSome := by
  have hnone : (sys.init.acceptReady listenFd { conn := none, forked := forked }).1 = none := by
    unfold acceptReady
    dsimp only
    split
    · rfl
    · split_ifs <;> rfl
  have hpossible : sys.acceptPossible { conn := none, forked := forked } := by
    intro c hc
    cases hc
  refine ⟨hnone, ?_⟩
  simp only [System.step, hpossible, if_true]
  refine System.addChild_isSome (fun pid hpid => ?_)
  rw [hnone] at hpid
  cases hpid

theorem executing_isSome (m : RunState) (rest : List String) :
    (m.stepExecuting {} rest).isSome := by
  cases rest with
  | nil => rfl
  | cons name rest =>
      unfold stepExecuting
      dsimp only
      split_ifs with hthrows
      · rfl
      · split
        · rfl
        · rename_i hservice
          rw [Option.isSome_map]
          exact System.executeUnit_isSome (by simpa using hthrows) hservice

/-- `fork` may always fail. -/
theorem starting_isSome (m : RunState) (call : StartCall) (back : StartedFrom) :
    (m.stepStarting {} call back).isSome := by
  unfold stepStarting
  cases call.todo with
  | cons preCmd todo =>
      dsimp only
      split
      · rfl
      · rfl
      · rename_i hforked
        nomatch hforked
  | nil =>
      obtain ⟨⟨pid?, s⟩, hstart⟩ := Option.isSome_iff_exists.mp
        (call.startService_isSome m.sys.init ({} : RunAnswer).forked)
      have hnone : pid? = none := by
        refine Option.eq_none_iff_forall_ne_some.mpr (fun pid hpid => ?_)
        nomatch startedPid_eq_some ((startService_spec hstart).1.symm.trans hpid)
      subst hnone
      simp [hstart, System.startService, System.addChild]

theorem polled_isSome (m : RunState) (events : List PollEvent) (poll : Poll) :
    ∃ a, (m.stepPolled a events poll).isSome := by
  cases events with
  | nil =>
      cases poll with
      | mainLoop =>
          refine ⟨{ now := m.sys.clock }, ?_⟩
          simp [stepPolled, System.step]
      | shutdownWait i => exact ⟨{}, rfl⟩
      | last => exact ⟨{}, rfl⟩
  | cons event rest =>
      cases event with
      | signals => exact ⟨{}, rfl⟩
      | descriptor listenFd =>
          cases poll with
          | mainLoop =>
              obtain ⟨hnone, hsome⟩ := notAccepted_isSome m.sys listenFd ({} : RunAnswer).forked
              refine ⟨{}, ?_⟩
              simp only [stepPolled, hnone, Option.isSome_map]
              exact hsome
          | shutdownWait i => exact ⟨{}, rfl⟩
          | last => exact ⟨{}, rfl⟩

theorem restarting_isSome (m : RunState) (ready : List String) :
    (m.stepRestarting {} ready).isSome := by
  cases ready with
  | nil => rfl
  | cons name rest =>
      unfold stepRestarting
      cases hunit : System.findService m.sys.init name <;> simp only [hunit, Option.isSome_some]

theorem progress (hinv : RunInv m) (hfree : AcceptsFree m) :
    m.point.ended = true ∨ m.BlockedInPre ∨ ∃ a, (m.programStep a).isSome := by
  have goes : ∀ {a : RunAnswer} {point : RunPoint}, (m.programStep a).isSome →
      point.ended = true ∨ m.BlockedInPre ∨ ∃ a, (m.programStep a).isSome :=
    fun h => Or.inr (Or.inr ⟨_, h⟩)
  cases hpoint : m.point with
  | returned => exact Or.inl rfl
  | terminated name back => exact Or.inl rfl
  | waitingPre call pid back =>
      have hknown := (hinv.known pid).mpr (Or.inr (by rw [hpoint]; rfl))
      obtain ⟨status?, hlookup⟩ := UnorderedMap.exists_lookup hknown
      cases status? with
      | none => exact Or.inr (Or.inl ⟨call, pid, back, hpoint, hlookup⟩)
      | some status =>
          refine goes (a := {}) ?_
          simp [programStep, hpoint, stepWaitingPre, hlookup]
  | draining rest poll => exact Or.inr (Or.inr (drain_ready hinv (by rw [hpoint]; rfl)))
  | reaping rest poll => exact Or.inr (Or.inr (drain_ready hinv (by rw [hpoint]; rfl)))
  | executing rest =>
      refine goes (a := {}) ?_
      simpa only [programStep, hpoint] using m.executing_isSome rest
  | starting call back =>
      refine goes (a := {}) ?_
      simpa only [programStep, hpoint] using m.starting_isSome call back
  | tracking call pid back =>
      refine goes (a := {}) ?_
      simpa only [programStep, hpoint, Option.isSome_map] using tracking_isSome hinv hpoint
  | polled events poll =>
      obtain ⟨a, ha⟩ := m.polled_isSome events poll
      exact goes (by simpa only [programStep, hpoint] using ha)
  | accepting listenFd conn pid rest =>
      refine goes (a := {}) ?_
      simpa only [programStep, hpoint, Option.isSome_map] using accepting_isSome hinv hfree hpoint
  | restarting ready =>
      refine goes (a := {}) ?_
      simpa only [programStep, hpoint] using m.restarting_isSome ready
  | stopping rest =>
      refine goes (a := {}) ?_
      cases rest <;> simp [programStep, hpoint, System.step]
  -- `epoll_wait` may always be interrupted.
  | loopHead =>
      refine goes (a := {}) ?_
      simp only [programStep, hpoint]
      split_ifs <;> rfl
  | awaiting i =>
      refine goes (a := {}) ?_
      simp only [programStep, hpoint]
      split_ifs <;> rfl

/-- If an exception has ended the program, it did so for a loaded unit that looks up users. -/
def EndedByLookup (m : RunState) : Prop :=
  ∀ name back, m.point = .terminated name back →
    ∃ unit, m.sys.init.findUnit name = some unit ∧ unit.LooksUpUsers

theorem looksUpUsers_of_conditionsThrow {s : InitSystem} {probe : SystemProbe} {name : String}
    (h : conditionsThrow s probe name = true) :
    ∃ unit, s.findUnit name = some unit ∧ unit.LooksUpUsers := by
  obtain ⟨unit, hunit, hthrows⟩ := (Option.any_eq_true _ _).mp h
  refine ⟨unit, hunit, Or.inr ?_⟩
  simp only [Bool.and_eq_true] at hthrows
  exact Conditions.exists_lookup_of_throws hthrows.2

theorem EndedByLookup.program (h : m.programStep a = some m') : EndedByLookup m' := by
  intro name back hnext
  have hcases := programStep_cases h
  generalize hpoint : m.point = point at hcases
  cases hcases with
  | throwsCondition hthrows =>
      obtain ⟨rfl, rfl⟩ := RunPoint.terminated.inj hnext
      exact looksUpUsers_of_conditionsThrow hthrows
  | throwsStart hservice hthrows =>
      obtain ⟨rfl, rfl⟩ := RunPoint.terminated.inj hnext
      obtain ⟨hunit, -, -, htype⟩ := serviceToStart_spec hservice
      exact ⟨_, hunit, Or.inl ⟨htype, a.passwd, a.group, hthrows⟩⟩
  | throwsRestart hunit hthrows =>
      obtain ⟨rfl, rfl⟩ := RunPoint.terminated.inj hnext
      obtain ⟨hfound, htype⟩ := Option.filter_eq_some_iff.mp hunit
      exact ⟨_, hfound, Or.inl ⟨by simpa using htype, a.passwd, a.group, hthrows⟩⟩
  | @notStarted call back' sys s htodo hstart hsys => cases back' <;> cases hnext
  | @tracks call pid back' sys hsys => cases back' <;> cases hnext
  | readsShutdown hpending hsignal => cases hpoint.symm.trans hnext
  | readsUsr1 hpending => cases hpoint.symm.trans hnext
  | reaps hchild hexited hsys => cases hpoint.symm.trans hnext
  | _ => cases hnext

theorem EndedByLookup.step (h : EndedByLookup m) {e : RunEvent} (hstep : m.step e = some m') :
    EndedByLookup m' := by
  cases e with
  | exits pid status =>
      obtain ⟨-, rfl⟩ := exits_cases hstep
      exact h
  | adopts pid =>
      obtain ⟨-, -, rfl⟩ := adopts_cases hstep
      exact h
  | raises signal =>
      obtain rfl := Option.some.inj hstep
      exact h
  | program a => exact EndedByLookup.program hstep

/-- In every state of a run the program has come to its end, or it waits for an `ExecStartPre`
command that is still running, or the system has an answer with which the program goes on.  If its
end is an exception, then it was thrown for a loaded unit that looks up users. -/
theorem never_stuck (journal : Journal) (units : UnorderedMap String UnitFile) (fds : FdTable)
    (os : SocketBindAnswers) (inDegreeOrder : List String) {es : List RunEvent}
    (hrun : (RunState.boot
      ((parsed journal units fds).boundAndResolved os inDegreeOrder)).run es = some m) :
    (m.point.ended = true ∨ m.BlockedInPre ∨ ∃ a, (m.programStep a).isSome) ∧
      ∀ name back, m.point = .terminated name back →
        ∃ unit, m.sys.init.findUnit name = some unit ∧ unit.LooksUpUsers := by
  have hboot := RunInv.boot (parsed_tableInv journal units fds os inDegreeOrder)
  have hinv := StepRun.run_invariant_of_step
    (fun _ _ _ (h : RunInv _ ∧ AcceptsFree _ ∧ EndedByLookup _) hstep =>
      ⟨h.1.step hstep, h.2.1.step hstep, h.2.2.step hstep⟩)
    ⟨hboot, nofun, nofun⟩ hrun
  exact ⟨progress hinv.1 hinv.2.1, hinv.2.2⟩

theorem never_stuck_sample :
    ∃ m, databaseBoot.run databaseRun = some m ∧
      ((m.point.ended = true ∨ m.BlockedInPre ∨ ∃ a, (m.programStep a).isSome) ∧
        ∀ name back, m.point = .terminated name back →
          ∃ unit, m.sys.init.findUnit name = some unit ∧ unit.LooksUpUsers) := by
  have hsome : (databaseBoot.run databaseRun).isSome = true := by decide +kernel
  obtain ⟨m, hrun⟩ := Option.isSome_iff_exists.mp hsome
  exact ⟨m, hrun, never_stuck {} databaseUnits (fun _ => none) oneDescriptor
    ["web.service", "db.service"] hrun⟩

end RunState

/-! ## What is left to do -/

/-- The steps left at the condition of the shutdown wait: a poll, two steps for each of at most
eight events, and the end of their loop. -/
def awaitWork (i : Nat) : Nat := 18 * (50 - i) + 18

/-- The steps left behind the loop over the events. -/
def Poll.work : Poll → Nat
  | .shutdownWait i => awaitWork (i + 1)
  | _ => 0

/-- The steps left when nothing is pending and no child has exited. -/
def RunPoint.work : RunPoint → Nat
  | .stopping rest => rest.length + 1 + awaitWork 0
  | .awaiting i => awaitWork i
  | .polled events poll => 2 * events.length + 1 + poll.work
  | .draining rest poll => 2 * rest.length + 2 + poll.work
  | .reaping rest poll => 2 * rest.length + 2 + poll.work
  | _ => 0

/-- The calls of `epoll_wait` left. -/
def RunPoint.pollsLeft : RunPoint → Nat
  | .stopping _ => 51
  | .awaiting i => 50 - i + 1
  | .polled _ (.shutdownWait i) => 50 - (i + 1) + 1
  | .draining _ (.shutdownWait i) => 50 - (i + 1) + 1
  | .reaping _ (.shutdownWait i) => 50 - (i + 1) + 1
  | _ => 0

namespace RunEvent

/-- A step of the program, or one of the kernel? -/
def isProgram : RunEvent → Bool
  | .program _ => true
  | _ => false

/-- What an event of the kernel adds to the work: an exit is read as a signal, which leads to
`reap_children` and back, and reaped. -/
def addedWork (e : RunEvent) : Nat :=
  if e.isProgram then 0 else 3

theorem sum_addedWork (es : List RunEvent) :
    (es.map addedWork).sum = 3 * es.countP (fun e => !e.isProgram) := by
  induction es with
  | nil => rfl
  | cons e es ih =>
      rw [List.map_cons, List.sum_cons, ih, List.countP_cons]
      unfold addedWork
      cases e.isProgram
      · simp only [Bool.not_false, if_true, Bool.false_eq_true, if_false]
        omega
      · simp

theorem length_programSteps (es : List RunEvent) :
    (es.flatMap (fun e => if e.isProgram then [e] else [])).length = es.countP isProgram := by
  induction es with
  | nil => rfl
  | cons e es ih =>
      rw [List.flatMap_cons, List.length_append, ih, List.countP_cons]
      cases e.isProgram <;> simp [Nat.add_comm]

end RunEvent

namespace RunState

variable {m m' : RunState} {a : RunAnswer}

/-- A bound on the steps the program still makes, unless the kernel adds to them. -/
def shutdownWork (m : RunState) : Nat :=
  m.point.work + m.drainWork

/-- The calls of `epoll_wait` after the stop loop. -/
def shutdownPolls (m : RunState) : RunEvent → List Nat
  | .program _ =>
      match m.point with
      | .awaiting i => [i]
      | _ => []
  | _ => []

/-- The poll at the condition of the shutdown wait reports at most eight events. -/
theorem awaiting_cases {i : Nat} (hpoint : m.point = .awaiting i)
    (h : m.programStep a = some m') :
    ∃ events : List PollEvent, events.length ≤ 8 ∧
      m' = { m with
        point := .polled events
          (if i < 50 ∧ 0 < m.sys.init.activeCount then .shutdownWait i else .last) } := by
  have hbound : ∀ poll : Poll, poll.maxEvents = 8 → ∀ m', m.poll poll a.polled = some m' →
      ∃ events : List PollEvent, events.length ≤ 8 ∧
        m' = { m with point := .polled events poll } := by
    intro poll hmax m' hpoll
    refine ⟨a.polled.getD [], ?_, poll_eq_some hpoll⟩
    unfold RunState.poll at hpoll
    split_ifs at hpoll with hpossible
    cases hanswer : a.polled with
    | none => simp
    | some events =>
        rw [hanswer] at hpossible
        exact hmax ▸ hpossible.1
  simp only [programStep, hpoint] at h
  split_ifs at h ⊢ with hwait
  · exact hbound _ rfl _ h
  · exact hbound _ rfl _ h

theorem drainWork_congr (hpending : m'.pending = m.pending) (hprocs : m'.procs = m.procs)
    (hreap : m'.point.inReap = m.point.inReap) : m'.drainWork = m.drainWork := by
  unfold drainWork exitedCount
  rw [hpending, hprocs, hreap]

/-- In the shutdown every step of the program lowers the work. -/
theorem programStep_shutdownWork (hinv : RunInv m) (hshut : m.point.inShutdown = true)
    (h : m.programStep a = some m') : m'.shutdownWork < m.shutdownWork := by
  have heffect := programStep_effect hinv.will h
  have hcases := programStep_cases h
  generalize hpoint : m.point = point at hcases hshut
  -- In `drain_signals` the point keeps its work.
  have hdrains : ∀ m' : RunState, ProgramEffect m a m' → m.point.inDrain = true →
      m'.point.inDrain = true → m'.point.work = m.point.work → m'.shutdownWork < m.shutdownWork := by
    intro m' heffect hin hin' hwork
    have hlower := drainWork_program heffect hin hin'
    unfold shutdownWork
    omega
  -- Elsewhere the drain keeps its work.
  have hmoves : ∀ m' : RunState, m'.pending = m.pending → m'.procs = m.procs →
      m'.point.inReap = m.point.inReap → m'.point.work < m.point.work →
      m'.shutdownWork < m.shutdownWork := by
    intro m' hpending hprocs hreap hwork
    have hsame := drainWork_congr hpending hprocs hreap
    unfold shutdownWork
    omega
  cases hcases with
  | stoppedAll =>
      refine hmoves _ rfl rfl (by rw [hpoint]; rfl) ?_
      rw [hpoint]
      simp [RunPoint.work]
  | stops =>
      refine hmoves _ rfl rfl (by rw [hpoint]; rfl) ?_
      rw [hpoint]
      simp [RunPoint.work]
  | awaits hpoll =>
      obtain ⟨events, hlength, hnext⟩ := awaiting_cases hpoint h
      rw [hnext]
      refine hmoves _ rfl rfl (by rw [hpoint]; rfl) ?_
      rw [hpoint]
      dsimp only [RunPoint.work]
      split_ifs with hwait
      · simp only [Poll.work, awaitWork]
        omega
      · simp only [Poll.work, awaitWork]
        omega
  | waitedOnce =>
      refine hmoves _ rfl rfl (by rw [hpoint]; rfl) ?_
      rw [hpoint]
      simp [RunPoint.work, Poll.work]
  | returns =>
      refine hmoves _ rfl rfl (by rw [hpoint]; rfl) ?_
      rw [hpoint]
      simp [RunPoint.work, Poll.work]
  | signalled =>
      refine hmoves _ rfl rfl (by rw [hpoint]; rfl) ?_
      rw [hpoint]
      simp [RunPoint.work]
      omega
  | skipsDescriptor hpoll =>
      refine hmoves _ rfl rfl (by rw [hpoint]; rfl) ?_
      rw [hpoint]
      simp [RunPoint.work]
  | noSignal hpending =>
      refine hmoves _ rfl rfl (by rw [hpoint]; rfl) ?_
      rw [hpoint]
      simp [RunPoint.work]
  | readsChld hpending => exact hdrains _ heffect (hpoint ▸ rfl) rfl (hpoint ▸ rfl)
  | readsShutdown hpending hsignal =>
      exact hdrains _ heffect (hpoint ▸ rfl) (hpoint ▸ rfl) rfl
  | readsUsr1 hpending => exact hdrains _ heffect (hpoint ▸ rfl) (hpoint ▸ rfl) rfl
  | noChild hchild hnone => exact hdrains _ heffect (hpoint ▸ rfl) rfl (hpoint ▸ rfl)
  | reaps hchild hexited hsys => exact hdrains _ heffect (hpoint ▸ rfl) (hpoint ▸ rfl) rfl
  | _ => simp [RunPoint.inShutdown, RunPoint.afterStop] at hshut

/-- An exit raises `SIGCHLD`, and leaves one more child to reap. -/
theorem exits_drainWork {pid : Pid} {status : WaitStatus}
    (h : m.step (.exits pid status) = some m') : m'.drainWork ≤ m.drainWork + 3 := by
  obtain ⟨hrunning, rfl⟩ := exits_cases h
  have hpending := Finset.card_insert_le Signal.chld m.pending
  have hbefore := UnorderedMap.countEntries_erase
    (fun (_ : Pid) (status : Option WaitStatus) => status.isSome) hrunning
  have hafter := UnorderedMap.countEntries_insert
    (fun (_ : Pid) (status : Option WaitStatus) => status.isSome) m.procs pid (some status)
  simp only [Option.isSome_none, Option.isSome_some, if_true, Bool.false_eq_true, if_false]
    at hbefore hafter
  simp only [drainWork, exitedCount]
  omega

theorem adopts_drainWork {pid : Pid} (h : m.step (.adopts pid) = some m') :
    m'.drainWork = m.drainWork := by
  obtain ⟨hfresh, -, rfl⟩ := adopts_cases h
  have hcount := UnorderedMap.countEntries_insert_of_notMem
    (fun (_ : Pid) (status : Option WaitStatus) => status.isSome) hfresh none
  simp only [drainWork, exitedCount, hcount]
  simp

theorem raises_drainWork (m : RunState) (signal : Signal) :
    ({ m with pending := insert signal m.pending } : RunState).drainWork ≤ m.drainWork + 2 := by
  have hpending := Finset.card_insert_le signal m.pending
  simp only [drainWork, exitedCount]
  omega

theorem kernelStep_point {e : RunEvent} (hkernel : e.isProgram = false)
    (h : m.step e = some m') : m'.point = m.point := by
  cases e with
  | exits pid status =>
      obtain ⟨-, rfl⟩ := exits_cases h
      rfl
  | adopts pid =>
      obtain ⟨-, -, rfl⟩ := adopts_cases h
      rfl
  | raises signal =>
      obtain rfl := Option.some.inj h
      rfl
  | program a => nomatch hkernel

theorem step_shutdownWork (hinv : RunInv m) (hshut : m.point.inShutdown = true) {e : RunEvent}
    (h : m.step e = some m') :
    m'.shutdownWork + (if e.isProgram then [e] else []).length ≤ m.shutdownWork + e.addedWork := by
  cases e with
  | program a => exact programStep_shutdownWork hinv hshut h
  | exits pid status =>
      have hpoint := kernelStep_point rfl h
      have hdrain := exits_drainWork h
      simp only [shutdownWork, hpoint]
      exact Nat.add_le_add_left hdrain _
  | adopts pid =>
      have hpoint := kernelStep_point rfl h
      have hdrain := adopts_drainWork h
      simp only [shutdownWork, hpoint, hdrain]
      exact Nat.le_add_right _ _
  | raises signal =>
      obtain rfl := Option.some.inj h
      have hdrain := m.raises_drainWork signal
      have hmore : m.drainWork + 2 ≤ m.drainWork + 3 := by omega
      exact Nat.add_le_add_left (hdrain.trans hmore) _

/-- Each poll is one of those that were left. -/
theorem programStep_pollsLeft (hshut : m.point.inShutdown = true)
    (h : m.programStep a = some m') :
    m'.point.pollsLeft + (m.shutdownPolls (.program a)).length ≤ m.point.pollsLeft := by
  have hcases := programStep_cases h
  unfold shutdownPolls
  generalize hpoint : m.point = point at hcases hshut
  cases hcases with
  | awaits hpoll =>
      obtain ⟨events, -, hnext⟩ := awaiting_cases hpoint h
      rw [hnext]
      dsimp only [List.length_singleton]
      split_ifs with hwait
      · simp only [RunPoint.pollsLeft]
        omega
      · simp [RunPoint.pollsLeft]
  | readsShutdown hpending hsignal => simp [hpoint]
  | readsUsr1 hpending => simp [hpoint]
  | reaps hchild hexited hsys => simp [hpoint]
  | signalled =>
      rename_i poll
      cases poll <;> exact Nat.le_refl _
  | skipsDescriptor hpoll =>
      rename_i poll
      cases poll <;> exact Nat.le_refl _
  | noSignal hpending =>
      rename_i poll
      cases poll <;> exact Nat.le_refl _
  | readsChld hpending =>
      rename_i poll
      cases poll <;> exact Nat.le_refl _
  | noChild hchild hnone =>
      rename_i poll
      cases poll <;> exact Nat.le_refl _
  | stoppedAll => simp [RunPoint.pollsLeft]
  | stops => simp [RunPoint.pollsLeft]
  | waitedOnce => simp [RunPoint.pollsLeft]
  | returns => simp [RunPoint.pollsLeft]
  | _ => simp [RunPoint.inShutdown, RunPoint.afterStop] at hshut

theorem step_pollsLeft (hshut : m.point.inShutdown = true) {e : RunEvent}
    (h : m.step e = some m') :
    m'.point.pollsLeft + (m.shutdownPolls e).length ≤ m.point.pollsLeft := by
  cases e with
  | program a => exact programStep_pollsLeft hshut h
  | exits pid status => exact (congrArg RunPoint.pollsLeft (kernelStep_point rfl h)).le
  | adopts pid => exact (congrArg RunPoint.pollsLeft (kernelStep_point rfl h)).le
  | raises signal => exact (congrArg RunPoint.pollsLeft (kernelStep_point rfl h)).le

/-- No exception ends the shutdown. -/
theorem returned_of_ended (hshut : m.point.inShutdown = true) (hended : m.point.ended = true) :
    m.point = .returned := by
  cases hpoint : m.point with
  | returned => rfl
  | terminated name back => simp [hpoint, RunPoint.inShutdown, RunPoint.afterStop] at hshut
  | _ => simp [hpoint, RunPoint.ended] at hended

/-- In the shutdown of a run. -/
structure ShuttingDown (m : RunState) : Prop where
  run : RunInv m
  free : AcceptsFree m
  shut : m.point.inShutdown = true

theorem ShuttingDown.step (h : ShuttingDown m) {e : RunEvent} (hstep : m.step e = some m') :
    ShuttingDown m' := by
  refine ⟨h.run.step hstep, h.free.step hstep, ?_⟩
  cases e with
  | program a => exact inShutdown_step h.shut hstep
  | exits pid status => exact (congrArg _ (kernelStep_point rfl hstep)).trans h.shut
  | adopts pid => exact (congrArg _ (kernelStep_point rfl hstep)).trans h.shut
  | raises signal => exact (congrArg _ (kernelStep_point rfl hstep)).trans h.shut

/-- The steps of the program alone lead to the end of `run`. -/
theorem ShuttingDown.exists_returned (h : ShuttingDown m) :
    ∃ es t, (∀ e ∈ es, e.isProgram = true) ∧ m.run es = some t ∧ t.point = .returned := by
  have hlower : ∀ t e t', ShuttingDown t → e.isProgram = true → t.step e = some t' →
      t'.shutdownWork < t.shutdownWork := by
    intro t e t' h hprogram hstep
    cases e with
    | program a => exact programStep_shutdownWork h.run h.shut hstep
    | _ => nomatch hprogram
  have hprogress : ∀ t, ShuttingDown t → ¬ t.point = .returned →
      ∃ e t', e.isProgram = true ∧ t.step e = some t' := by
    intro t h hnot
    rcases progress h.run h.free with hended | ⟨call, pid, back, hpoint, -⟩ | ⟨a, ha⟩
    · exact absurd (returned_of_ended h.shut hended) hnot
    · have hshut := h.shut
      simp [hpoint, RunPoint.inShutdown, RunPoint.afterStop] at hshut
    · obtain ⟨t', ht'⟩ := Option.isSome_iff_exists.mp ha
      exact ⟨.program a, t', rfl, ht'⟩
  obtain ⟨es, t, hall, -, hrun, hreturned⟩ :=
    StepRun.exists_run_of_potential shutdownWork (fun _ _ _ h hstep => h.step hstep) hlower
      hprogress h
  exact ⟨es, t, hall, hrun, hreturned⟩

/-- When the main loop has ended, the steps the program still makes are bounded by the units, the
pending signals and the unreaped exits, and by three for each event of the kernel; `epoll_wait` is
called at most 51 times; and whatever has happened, the program alone can still reach the end of
`run`. -/
theorem shutdown_ends (journal : Journal) (units : UnorderedMap String UnitFile) (fds : FdTable)
    (os : SocketBindAnswers) (inDegreeOrder : List String) {es es' : List RunEvent}
    {a : RunAnswer} {m m' m'' : RunState}
    (hrun : (RunState.boot
      ((parsed journal units fds).boundAndResolved os inDegreeOrder)).run es = some m)
    (hloop : m.point.inShutdown = false) (hexit : m.step (.program a) = some m')
    (hshut : m'.point.inShutdown = true) (hrest : m'.run es' = some m'') :
    es'.countP RunEvent.isProgram ≤
      m'.sys.init.execOrder.length + 919 + (2 * m'.pending.card + m'.exitedCount) +
        3 * es'.countP (fun e => !e.isProgram) ∧
    (StepRun.trace RunState.step shutdownPolls m' es').length ≤ 51 ∧
    ∃ es'' t, (∀ e ∈ es'', e.isProgram = true) ∧ m''.run es'' = some t ∧ t.point = .returned := by
  have hboot := RunInv.boot (parsed_tableInv journal units fds os inDegreeOrder)
  have hinv := StepRun.run_invariant_of_step
    (fun _ _ _ (h : RunInv _ ∧ AcceptsFree _) hstep => ⟨h.1.step hstep, h.2.step hstep⟩)
    ⟨hboot, nofun⟩ hrun
  have hstart : ShuttingDown m' := ⟨hinv.1.step hexit, hinv.2.step hexit, hshut⟩
  have henter : m'.point = .stopping m'.sys.init.execOrder.reverse := by
    refine (enters_shutdown hloop hexit).resolve_left ?_
    simp [hshut]
  have hwork : m'.shutdownWork =
      m'.sys.init.execOrder.length + 919 + (2 * m'.pending.card + m'.exitedCount) := by
    simp [shutdownWork, drainWork, henter, RunPoint.work, awaitWork, RunPoint.inReap]
  refine ⟨?_, ?_, ?_⟩
  · have hpaid := StepRun.trace_length_le_of_potential shutdownWork RunEvent.addedWork
      (fun _ _ _ (h : ShuttingDown _) hstep => h.step hstep)
      (fun _ _ _ h hstep => step_shutdownWork h.run h.shut hstep) hstart hrest
    rw [StepRun.trace_of_event _ hrest, RunEvent.length_programSteps,
      RunEvent.sum_addedWork] at hpaid
    omega
  · have hpaid := StepRun.trace_length_le_of_potential (fun t : RunState => t.point.pollsLeft)
      (fun _ => 0)
      (fun _ _ _ (h : ShuttingDown _) hstep => h.step hstep)
      (fun _ _ _ h hstep => step_pollsLeft h.shut hstep) hstart hrest
    have hleft : m'.point.pollsLeft = 51 := by rw [henter]; rfl
    rw [hleft, List.sum_eq_zero (by simp)] at hpaid
    exact (Nat.le_add_left _ _).trans hpaid
  · have hend := StepRun.run_invariant_of_step
      (fun _ _ _ (h : ShuttingDown _) hstep => h.step hstep) hstart hrest
    exact hend.exists_returned

theorem shutdown_ends_sample :
    ∃ m', databaseBoot.run (databaseRun ++ [.program {}]) = some m' ∧
      (StepRun.trace RunState.step shutdownPolls m' [.program {}, .program {}]).length ≤ 51 ∧
      ∃ es t, (∀ e ∈ es, e.isProgram = true) ∧
        m'.run ([.program {}, .program {}] ++ es) = some t ∧ t.point = .returned := by
  have hloop : (databaseBoot.run databaseRun).any (fun m => !m.point.inShutdown) = true := by
    decide +kernel
  have hexit : (databaseBoot.run (databaseRun ++ [.program {}])).any
      (fun m => m.point.inShutdown && (m.run [.program {}, .program {}]).isSome) = true := by
    decide +kernel
  obtain ⟨m, hm, hmloop⟩ := (Option.any_eq_true _ _).mp hloop
  obtain ⟨m', hm', hboth⟩ := (Option.any_eq_true _ _).mp hexit
  obtain ⟨hshut, hrest⟩ := (Bool.and_eq_true _ _).mp hboth
  obtain ⟨m'', hm''⟩ := Option.isSome_iff_exists.mp hrest
  obtain ⟨m₁, hm₁, hlast⟩ := StepRun.run_append_eq_some.mp hm'
  obtain rfl : m = m₁ := Option.some.inj (hm.symm.trans hm₁)
  obtain ⟨-, hpolls, es, t, hall, hes, hreturned⟩ := shutdown_ends {} databaseUnits
    (fun _ => none) oneDescriptor ["web.service", "db.service"] hm (by simpa using hmloop)
    (StepRun.run_singleton.mp hlast) hshut hm''
  exact ⟨m', hm', hpolls, es, t, hall, StepRun.run_append_eq_some.mpr ⟨m'', hm'', hes⟩, hreturned⟩

end RunState

end TrivialInit
