import TrivialInit.Properties.BootState
import TrivialInit.Properties.ExitAccounting
import TrivialInit.Properties.ForkCalls

/-!
# SocketConsumers — who reads from a listening descriptor

`register_accept_sockets` looks at `Accept=`, and `collect_socket_env` at the names only.  After the
bind phase a socket unit changes in its connection counter alone, and every stored descriptor
belongs to one unit, so a descriptor gets two consumers exactly when a service is launched that an
accepting socket pairs with (`oneConsumer_iff`).
-/

namespace TrivialInit

open InitSystem

/-! ## The descriptors of the socket units -/

/-- `fd` is stored in a socket unit with the given `Accept=`. -/
def InitSystem.ListensOn (s : InitSystem) (accept : Bool) (fd : Int) : Prop :=
  ∃ n, (s.socketUnit n).accept = accept ∧ fd ∈ listenFds (s.socketUnit n).listen

/-- Socket units that are not stored hold no descriptor. -/
theorem stored_of_mem_listenFds {s : InitSystem} {n : String} {fd : Int}
    (h : fd ∈ listenFds (s.socketUnit n).listen) :
    s.socketUnits.lookup n = some (s.socketUnit n) := by
  unfold InitSystem.socketUnit at h ⊢
  cases hlookup : s.socketUnits.lookup n with
  | none =>
      rw [hlookup] at h
      nomatch h
  | some sock => rfl

/-- A descriptor is stored once, so the unit that holds it is determined. -/
theorem eq_of_mem_listenFds {s : InitSystem} (hnodup : (storedFds s.socketUnits).Nodup)
    {n n' : String} {fd : Int} (h : fd ∈ listenFds (s.socketUnit n).listen)
    (h' : fd ∈ listenFds (s.socketUnit n').listen) : n = n' := by
  have hmem := UnorderedMap.mem_entries_iff.mpr (stored_of_mem_listenFds h)
  have hmem' := UnorderedMap.mem_entries_iff.mpr (stored_of_mem_listenFds h')
  by_contra heq
  have hsymm : Std.Symm (Function.onFun List.Disjoint
      (fun e : Sigma fun _ : String => SocketUnit => listenFds e.2.listen)) :=
    ⟨fun _ _ h => h.symm⟩
  have hdisjoint := (List.nodup_flatMap.mp hnodup).2.forall hmem hmem'
    (fun h => heq (Sigma.mk.inj h).1)
  exact absurd h' (List.disjoint_left.mp hdisjoint h)

theorem listensOn_unique {s : InitSystem} (hnodup : (storedFds s.socketUnits).Nodup)
    {accept accept' : Bool} {fd : Int} (h : s.ListensOn accept fd) (h' : s.ListensOn accept' fd) :
    accept = accept' := by
  obtain ⟨n, rfl, hfd⟩ := h
  obtain ⟨n', rfl, hfd'⟩ := h'
  rw [eq_of_mem_listenFds hnodup hfd hfd']

/-- Only the connection counters differ. -/
def SameListens (s s' : InitSystem) : Prop :=
  ∀ n, s'.socketUnit n =
    { s.socketUnit n with activeConnections := (s'.socketUnit n).activeConnections }

namespace SameListens

variable {s s' s'' : InitSystem}

theorem of_eq (h : ∀ n, s'.socketUnit n = s.socketUnit n) : SameListens s s' := by
  intro n
  rw [h n]

theorem of_sameTables (h : SameTables s s') : SameListens s s' :=
  of_eq h.socketUnit

theorem trans (h : SameListens s s') (h' : SameListens s' s'') : SameListens s s'' := by
  intro n
  rw [h' n, h n]

theorem accept (h : SameListens s s') (n : String) :
    (s'.socketUnit n).accept = (s.socketUnit n).accept := by
  rw [h n]

theorem listen (h : SameListens s s') (n : String) :
    (s'.socketUnit n).listen = (s.socketUnit n).listen := by
  rw [h n]

theorem listensOn_iff (h : SameListens s s') {accept : Bool} {fd : Int} :
    s'.ListensOn accept fd ↔ s.ListensOn accept fd := by
  simp only [ListensOn, h.accept, h.listen]

end SameListens

theorem addConnections_sameListens (s : InitSystem) (socket : String) (k : Int) :
    SameListens s (s.addConnections socket k) := by
  intro n
  unfold InitSystem.socketUnit addConnections
  rw [UnorderedMap.lookup_modify]
  split_ifs with heq
  · subst heq
    cases s.socketUnits.lookup n <;> rfl
  · rfl

theorem recordExit_sameListens (s : InitSystem) (pid : Pid) (status : WaitStatus)
    (now : TimePoint) : SameListens s (s.recordExit pid status now) := by
  have hsockets : (s.recordExit pid status now).socketUnits =
      (s.fireExitCallback pid status.code).socketUnits := rfl
  have hfire : SameListens s (s.fireExitCallback pid status.code) := by
    rw [fireExitCallback_eq]
    cases s.exitCallbacks.lookup pid with
    | none => exact SameListens.of_eq (fun _ => rfl)
    | some cb =>
        obtain ⟨socket⟩ := cb
        exact addConnections_sameListens s socket (-1)
  intro n
  have hn := hfire n
  unfold InitSystem.socketUnit at hn ⊢
  rw [hsockets]
  exact hn

/-! ## Registering -/

/-- `register_accept_sockets` registers descriptors of accepting sockets. -/
theorem registerAcceptSockets_registers {s : InitSystem} {fd : Int}
    (h : fd ∈ s.registerAcceptSockets.fdToSocket) :
    fd ∈ s.fdToSocket ∨ s.ListensOn true fd := by
  -- Both loops only add descriptors of this kind.
  let Good (m : UnorderedMap Int String) : Prop :=
    ∀ fd ∈ m, fd ∈ s.fdToSocket ∨ s.ListensOn true fd
  have hunit : ∀ m : UnorderedMap Int String, Good m → ∀ e ∈ s.socketUnits.entries,
      e.2.accept = true → Good (e.2.listen.foldl (fun m le =>
        if le.fd < 0 then m else m.insert le.fd e.1) m) := by
    intro m hm e he haccept
    refine List.foldlRecOn (motive := Good) e.2.listen _ hm ?_
    intro m hm le hle
    split_ifs with hneg
    · exact hm
    · intro fd hfd
      rcases (AList.mem_insert _).mp hfd with rfl | hold
      · have hlookup := UnorderedMap.mem_entries_iff.mp he
        have hsock : s.socketUnit e.1 = e.2 := by
          rw [socketUnit, hlookup]
          rfl
        refine Or.inr ⟨e.1, hsock.symm ▸ haccept, hsock.symm ▸ ?_⟩
        exact List.mem_filter.mpr ⟨List.mem_map_of_mem hle, by simpa using hneg⟩
      · exact hm fd hold
  refine List.foldlRecOn (motive := Good) s.socketUnits.entries _ (fun _ h => Or.inl h) ?_ fd h
  intro m hm e he
  split_ifs with haccept
  · exact hunit m hm e he haccept
  · exact hm

/-! ## What a step keeps -/

theorem Quiet.sameListens {sys sys' : System} {next : RunPoint} (h : Quiet sys next sys')
    (hnext : next ≠ .returned) : SameListens sys.init sys'.init := by
  cases h with
  | same h => exact .of_sameTables h.tables
  | drained now _ => exact .of_eq (fun _ => rfl)
  | stopped name =>
      exact .of_eq (fun n => (stopUnit_spec sys.init name).socketUnit n)
  | notAccepted h => exact .of_eq h.socketUnit
  | registered h => exact .of_eq (fun n => h.socketUnit n)
  | closed hreturned _ => exact absurd hreturned hnext

theorem Quiet.fdToSocket {sys sys' : System} {next : RunPoint} (h : Quiet sys next sys') {fd : Int}
    (hfd : fd ∈ sys'.init.fdToSocket) :
    fd ∈ sys.init.fdToSocket ∨ sys.init.ListensOn true fd := by
  cases h with
  | same h => exact Or.inl (h.tables.fdToSocket ▸ hfd)
  | drained now _ => exact Or.inl hfd
  | stopped name => exact Or.inl ((stopUnit_spec sys.init name).fdToSocket ▸ hfd)
  | notAccepted h =>
      obtain ⟨socketUnits, htables⟩ := h.tables
      exact Or.inl (htables.fdToSocket ▸ hfd)
  | registered h => exact registerAcceptSockets_registers (h.fdToSocket ▸ hfd)
  | closed _ h => exact Or.inl (h.fdToSocket ▸ hfd)

theorem Tracks.sameListens {sys sys' : System} {pid : Pid} {kind : ChildKind}
    (h : Tracks sys pid kind sys') : SameListens sys.init sys'.init := by
  cases h with
  | started h => exact .of_eq (fun n => h.tables.socketUnit n)
  | accepted h =>
      intro n
      rw [h.socketUnit n]
      split_ifs with heq
      · rw [heq]
      · rfl

theorem Tracks.fdToSocket {sys sys' : System} {pid : Pid} {kind : ChildKind}
    (h : Tracks sys pid kind sys') : sys'.init.fdToSocket = sys.init.fdToSocket := by
  cases h with
  | started h => exact h.tables.fdToSocket
  | accepted h =>
      obtain ⟨socketUnits, htables⟩ := h.tables
      exact htables.fdToSocket

namespace ProgramEffect

variable {m m' : RunState} {a : RunAnswer}

theorem sameListens (h : ProgramEffect m a m') (hnext : m'.point ≠ .returned) :
    SameListens m.sys.init m'.sys.init := by
  cases h with
  | quiet sys chowned point hsys => exact hsys.sameListens hnext
  | read signal sys shutdown point hpending hsys => exact hsys.sameListens hnext
  | tracked pid kind sys point hsys => exact hsys.sameListens
  | reaped pid status sys hchild hexited hsys =>
      exact (recordExit_sameListens _ pid status a.now).trans (.of_sameTables hsys.tables)
  | _ => exact .of_eq (fun _ => rfl)

theorem fdToSocket (h : ProgramEffect m a m') {fd : Int} (hfd : fd ∈ m'.sys.init.fdToSocket) :
    fd ∈ m.sys.init.fdToSocket ∨ m.sys.init.ListensOn true fd := by
  cases h with
  | quiet sys chowned point hsys => exact hsys.fdToSocket hfd
  | read signal sys shutdown point hpending hsys => exact hsys.fdToSocket hfd
  | tracked pid kind sys point hsys => exact Or.inl (hsys.fdToSocket ▸ hfd)
  | reaped pid status sys hchild hexited hsys =>
      have hsame : sys.init.fdToSocket = m.sys.init.fdToSocket := by
        rw [hsys.tables.fdToSocket]
        simp only [recordExit, fireExitCallback_eq]
      exact Or.inl (hsame ▸ hfd)
  | _ => exact Or.inl hfd

end ProgramEffect

/-! ## The two consumers along a run -/

/-- The socket units of `s`, in a state of a run that started with them. -/
structure SocketsInv (s : InitSystem) (m : RunState) : Prop where
  run : RunInv m
  /-- At the very end the descriptors are taken out. -/
  kept : m.point ≠ .returned → SameListens s m.sys.init
  registered : ∀ fd ∈ m.sys.init.fdToSocket, s.ListensOn true fd

theorem programStep_returned {m m' : RunState} {a : RunAnswer} (h : m.programStep a = some m') :
    m.point ≠ .returned := by
  intro hpoint
  simp [RunState.programStep, hpoint] at h

namespace SocketsInv

variable {s : InitSystem} {m m' : RunState}

theorem boot (hinv : RunInv (RunState.boot s)) (hempty : s.fdToSocket = ∅) :
    SocketsInv s (RunState.boot s) where
  run := hinv
  kept := fun _ => .of_eq (fun _ => rfl)
  registered := by
    intro fd hfd
    change fd ∈ s.fdToSocket at hfd
    simp [hempty] at hfd

theorem program (h : SocketsInv s m) {a : RunAnswer} (hstep : m.step (.program a) = some m') :
    SocketsInv s m' := by
  have heffect := RunState.programStep_effect h.run.will hstep
  have hkept := h.kept (programStep_returned hstep)
  refine ⟨h.run.step hstep, ?_, ?_⟩
  · exact fun hnext => hkept.trans (heffect.sameListens hnext)
  · intro fd hfd
    rcases heffect.fdToSocket hfd with hold | hnew
    · exact h.registered fd hold
    · exact hkept.listensOn_iff.mp hnew

theorem step (h : SocketsInv s m) {e : RunEvent} (hstep : m.step e = some m') :
    SocketsInv s m' := by
  have hrun := h.run.step hstep
  cases e with
  | exits pid status =>
      obtain ⟨-, rfl⟩ := RunState.exits_cases hstep
      exact ⟨hrun, h.kept, h.registered⟩
  | adopts pid =>
      obtain ⟨-, -, rfl⟩ := RunState.adopts_cases hstep
      exact ⟨hrun, h.kept, h.registered⟩
  | raises signal =>
      obtain rfl := Option.some.inj hstep
      exact ⟨hrun, h.kept, h.registered⟩
  | program a => exact h.program hstep

theorem visits (h : SocketsInv s m) {es : List RunEvent} {t : RunState}
    (ht : StepRun.Visits RunState.step m es t) : SocketsInv s t := by
  obtain ⟨es₁, -, hrun⟩ := ht
  exact StepRun.run_invariant_of_step (fun _ _ _ h hstep => h.step hstep) h hrun

end SocketsInv

/-- The descriptors of the environment `start_service` passes on. -/
def passedFds (s : InitSystem) (name : String) : List Int :=
  ((s.collectSocketEnv name).map SocketEnv.fds).getD []

theorem passedFds_eq (s : InitSystem) (name : String) :
    passedFds s name =
      (s.socketUnits.entries.filter (fun e => pairsWith e.2 name)).flatMap
        (fun e => listenFds e.2.listen) := by
  have hfds : ∀ e : Sigma fun _ : String => SocketUnit,
      ((e.2.listen.filter (fun le => decide (0 ≤ le.fd))).map (fun le =>
        (le.fd, if le.name = "" then e.1 else le.name))).map Prod.fst = listenFds e.2.listen := by
    intro e
    rw [List.map_map, listenFds, List.filter_map]
    rfl
  unfold passedFds collectSocketEnv
  dsimp only
  simp only [← hfds, ← List.map_flatMap]
  split_ifs with hnone
  · rw [hnone]
    rfl
  · rfl

theorem mem_passedFds {s : InitSystem} {name : String} {fd : Int} :
    fd ∈ passedFds s name ↔
      ∃ n, pairsWith (s.socketUnit n) name = true ∧ fd ∈ listenFds (s.socketUnit n).listen := by
  rw [passedFds_eq]
  simp only [List.mem_flatMap, List.mem_filter]
  constructor
  · rintro ⟨e, ⟨he, hpairs⟩, hfd⟩
    have hsock : s.socketUnit e.1 = e.2 := by
      rw [socketUnit, UnorderedMap.mem_entries_iff.mp he]
      rfl
    exact ⟨e.1, hsock.symm ▸ hpairs, hsock.symm ▸ hfd⟩
  · rintro ⟨n, hpairs, hfd⟩
    exact ⟨⟨n, s.socketUnit n⟩,
      ⟨UnorderedMap.mem_entries_iff.mpr (stored_of_mem_listenFds hfd), hpairs⟩, hfd⟩

/-- The descriptors that a child forked for a command has been handed. -/
def ForkCall.handedFds : ForkCall → List Int
  | .spawn child (.ok _) => (child.env.map SocketEnv.fds).getD []
  | _ => []

namespace RunState

/-- The listening descriptors a step hands to the main command of a service. -/
def handedOver (m : RunState) : RunEvent → List Int
  | .program a =>
      match m.point with
      | .starting call _ =>
          match m.sys.init.startService call.name call.unit (call.startAnswers a.forked) with
          | some (_, s) =>
              if call.todo = [] then (newForks m.sys.init s).flatMap ForkCall.handedFds else []
          | none => []
      | _ => []
  | _ => []

theorem handedOver_starting {m : RunState} {call : StartCall} {back : StartedFrom}
    (hpoint : m.point = .starting call back) (a : RunAnswer) :
    m.handedOver (.program a) =
      if call.todo = [] ∧
          (startedPid call.name call.unit (call.startAnswers a.forked)).isSome = true then
        passedFds m.sys.init call.name
      else [] := by
  obtain ⟨⟨pid?, s⟩, hstart⟩ := Option.isSome_iff_exists.mp
    (call.startService_isSome m.sys.init a.forked)
  have hpre : ∀ fds, (startPreCalls call.info call.name call.unit fds call.unit.execStartPre
      (call.startAnswers a.forked).pre).flatMap ForkCall.handedFds = [] := by
    refine fun fds => List.flatMap_eq_nil_iff.mpr (fun fork hfork => ?_)
    obtain ⟨preCmd, child, answer, rfl⟩ := startPre_of_mem_startPreCalls hfork
    rfl
  simp only [handedOver, hpoint, hstart, newForks_eq (forkCalls_startService hstart),
    List.flatMap_append, startedPid_eq]
  rw [show (call.startAnswers a.forked).info = call.info from rfl, hpre, List.nil_append]
  cases startedCommand call.name call.unit (call.startAnswers a.forked) with
  | none => simp
  | some words =>
      cases a.forked <;>
        simp [StartCall.startAnswers, ForkCall.handedFds, mainChild, passedFds, Except.toOption]

/-- No accepting socket with a descriptor pairs with the service whose main command is started. -/
def LaunchesApart (m : RunState) (e : RunEvent) : Prop :=
  ∀ a call back, e = .program a → m.point = .starting call back → call.todo = [] →
    (startedPid call.name call.unit (call.startAnswers a.forked)).isSome = true →
    ∀ n, (m.sys.init.socketUnit n).accept = true →
      pairsWith (m.sys.init.socketUnit n) call.name = true →
      listenFds (m.sys.init.socketUnit n).listen = []

/-- The service whose main command a step forks. -/
def launched (m : RunState) : RunEvent → Option String
  | .program a =>
      match m.point with
      | .starting call _ =>
          if call.todo = [] ∧
              (startedPid call.name call.unit (call.startAnswers a.forked)).isSome = true then
            some call.name
          else none
      | _ => none
  | _ => none

theorem launchesApart_iff {m : RunState} {e : RunEvent} :
    m.LaunchesApart e ↔
      ∀ name ∈ m.launched e, ∀ x ∈ m.sys.init.socketUnits.entries, x.2.accept = true →
        pairsWith x.2 name = true → listenFds x.2.listen = [] := by
  constructor
  · intro hapart name hname x hx haccept hpairs
    cases e with
    | program a =>
        cases hpoint : m.point with
        | starting call back =>
            simp only [launched, hpoint, Option.mem_def] at hname
            split_ifs at hname with hlaunch
            obtain rfl := Option.some.inj hname
            have hsock : m.sys.init.socketUnit x.1 = x.2 := by
              rw [socketUnit, UnorderedMap.mem_entries_iff.mp hx]
              rfl
            have hall := hapart a call back rfl hpoint hlaunch.1 hlaunch.2 x.1
            rw [hsock] at hall
            exact hall haccept hpairs
        | _ => simp [launched, hpoint] at hname
    | _ => nomatch hname
  · rintro hall a call back rfl hpoint htodo hstarted n haccept hpairs
    refine List.eq_nil_iff_forall_not_mem.mpr (fun fd hfd => ?_)
    have hmem := UnorderedMap.mem_entries_iff.mpr (stored_of_mem_listenFds hfd)
    -- A socket unit that listens on something is among the entries.
    have hempty := hall call.name (by simp [launched, hpoint, htodo, hstarted]) _ hmem haccept hpairs
    rw [hempty] at hfd
    cases hfd

instance (m : RunState) (e : RunEvent) : Decidable (m.LaunchesApart e) :=
  decidable_of_iff _ launchesApart_iff.symm

theorem handedOver_iff {s : InitSystem} {m : RunState} (h : SocketsInv s m)
    (hnodup : (storedFds s.socketUnits).Nodup) (e : RunEvent) :
    (∀ fd ∈ m.handedOver e, ¬ s.ListensOn true fd) ↔ m.LaunchesApart e := by
  constructor
  · rintro hnone a call back rfl hpoint htodo hstarted n haccept hpairs
    have hkept := h.kept (by simp [hpoint])
    have hhanded : m.handedOver (.program a) = passedFds m.sys.init call.name := by
      rw [handedOver_starting hpoint, if_pos ⟨htodo, hstarted⟩]
    refine List.eq_nil_iff_forall_not_mem.mpr (fun fd hfd => ?_)
    refine hnone fd (hhanded ▸ mem_passedFds.mpr ⟨n, hpairs, hfd⟩) ?_
    exact hkept.listensOn_iff.mp ⟨n, haccept, hfd⟩
  · intro hapart fd hfd hlistens
    cases e with
    | program a =>
        cases hpoint : m.point with
        | starting call back =>
            rw [handedOver_starting hpoint] at hfd
            split_ifs at hfd with hlaunch
            · obtain ⟨n, hpairs, hmem⟩ := mem_passedFds.mp hfd
              have hkept := h.kept (by simp [hpoint])
              -- No two socket units share a descriptor: the passed one is the accepting one.
              have haccept : (m.sys.init.socketUnit n).accept = true :=
                listensOn_unique hnodup (hkept.listensOn_iff.mp ⟨n, rfl, hmem⟩) hlistens
              simp [hapart a call back rfl hpoint hlaunch.1 hlaunch.2 n haccept hpairs] at hmem
            · cases hfd
        | _ => simp [handedOver, hpoint] at hfd
    | _ => cases hfd

end RunState

/-- Along the run of `es`, no listening descriptor has two consumers, and `Accept=` decides which
one it has. -/
structure OneConsumer (s : InitSystem) (es : List RunEvent) : Prop where
  once : ∀ fd ∈ StepRun.trace RunState.step RunState.handedOver (RunState.boot s) es,
    ∀ t, StepRun.Visits RunState.step (RunState.boot s) es t → fd ∉ t.sys.init.fdToSocket
  accepting : ∀ fd, s.ListensOn true fd →
    fd ∉ StepRun.trace RunState.step RunState.handedOver (RunState.boot s) es
  passing : ∀ fd, s.ListensOn false fd →
    ∀ t, StepRun.Visits RunState.step (RunState.boot s) es t → fd ∉ t.sys.init.fdToSocket

/-- A descriptor has one consumer all along a run exactly if, whenever a service is launched, no
accepting socket with a descriptor pairs with it. -/
theorem oneConsumer_iff (journal : Journal) (units : UnorderedMap String UnitFile) (fds : FdTable)
    (os : SocketBindAnswers) (inDegreeOrder : List String) {es : List RunEvent} {m : RunState}
    (hrun : (RunState.boot
      ((parsed journal units fds).boundAndResolved os inDegreeOrder)).run es = some m) :
    OneConsumer ((parsed journal units fds).boundAndResolved os inDegreeOrder) es ↔
      StepRun.StepsMeet RunState.step RunState.LaunchesApart
        (RunState.boot ((parsed journal units fds).boundAndResolved os inDegreeOrder)) es := by
  have htables := boundAndResolved_tables (parsed journal units fds) os inDegreeOrder
  have hinv := parsed_tableInv journal units fds os inDegreeOrder
  have hnodup : (storedFds ((parsed journal units fds).boundAndResolved os
      inDegreeOrder).socketUnits).Nodup := by
    rw [htables.socketUnits]
    exact (executeSocketBind_storesOpened _ os rfl).acquired.nodup
  have hempty := htables.fdToSocket
  generalize (parsed journal units fds).boundAndResolved os inDegreeOrder = s at *
  have hboot : SocketsInv s (RunState.boot s) := .boot (.boot hinv) hempty
  have hexact := StepRun.forall_trace_iff (SocketsInv s) (fun _ _ _ h hstep => h.step hstep)
    (fun m e h => RunState.handedOver_iff h hnodup e) hboot hrun
  rw [← hexact]
  constructor
  · intro hone fd hfd hlistens
    exact hone.accepting fd hlistens hfd
  · intro hnone
    refine ⟨?_, ?_, ?_⟩
    · intro fd hfd t ht hmem
      exact hnone fd hfd ((hboot.visits ht).registered fd hmem)
    · intro fd hlistens hfd
      exact hnone fd hfd hlistens
    · intro fd hlistens t ht hmem
      have hboth := listensOn_unique hnodup hlistens ((hboot.visits ht).registered fd hmem)
      nomatch hboth

/-- An accepting socket, and a service of the same name. -/
def echoUnits : UnorderedMap String UnitFile :=
  (∅ : UnorderedMap String UnitFile).insert "echo.service"
      { name := "echo.service"
        type := .service
        execStart := "/bin/echo" }
    |>.insert "echo.socket"
      { name := "echo.socket"
        type := .socket
        rawSections := (∅ : Sections).insert "Socket"
          ((∅ : UnorderedMap String String).insert "ListenStream" "/run/echo" |>.insert "Accept"
            "yes") }

/-- Both units are executed, and the main loop is reached. -/
def echoStart : List RunEvent :=
  [ .program {}
  , .program {}
  , .program { forked := .ok 100 }
  , .program {}
  , .program {} ]

/-- A listening socket for the service, and an accepting one for another. -/
def chatUnits : UnorderedMap String UnitFile :=
  (∅ : UnorderedMap String UnitFile).insert "echo.service"
      { name := "echo.service"
        type := .service
        execStart := "/bin/echo" }
    |>.insert "echo.socket"
      { name := "echo.socket"
        type := .socket
        rawSections := (∅ : Sections).insert "Socket"
          ((∅ : UnorderedMap String String).insert "ListenStream" "/run/echo") }
    |>.insert "chat.socket"
      { name := "chat.socket"
        type := .socket
        rawSections := (∅ : Sections).insert "Socket"
          ((∅ : UnorderedMap String String).insert "ListenStream" "/run/chat" |>.insert "Accept"
            "yes") }

/-- Opens descriptor 3 or 4. -/
def opensTwo : OpenAnswer where
  answer := fun t => if t 3 = none then some (3, 0) else if t 4 = none then some (4, 1) else none
  free := by
    intro t fd file h
    split_ifs at h with hthree hfour
    · cases h
      exact ⟨by decide, hthree⟩
    · cases h
      exact ⟨by decide, hfour⟩

def twoDescriptors : SocketBindAnswers where
  entries := fun unit i =>
    { oneDescriptor.entries unit i with
      socket := opensTwo }

def chatBoot : RunState :=
  RunState.boot ((parsed {} chatUnits (fun _ => none)).boundAndResolved twoDescriptors
    ["chat.socket", "echo.socket", "echo.service"])

/-- One descriptor goes to the service, and the other is registered. -/
theorem oneConsumer_iff_sample :
    ∃ m fd fd', chatBoot.run (.program {} :: echoStart) = some m ∧
      fd ∈ StepRun.trace RunState.step RunState.handedOver chatBoot (.program {} :: echoStart) ∧
      fd' ∈ m.sys.init.fdToSocket ∧
      OneConsumer chatBoot.sys.init (.program {} :: echoStart) := by
  have hsome : (chatBoot.run (.program {} :: echoStart)).any
      (fun m => decide ((3 : Int) ∈ m.sys.init.fdToSocket)) = true := by decide +kernel
  have hhanded : (4 : Int) ∈ StepRun.trace RunState.step RunState.handedOver chatBoot
      (.program {} :: echoStart) := by decide +kernel
  obtain ⟨m, hrun, hregistered⟩ := (Option.any_eq_true _ _).mp hsome
  refine ⟨m, 4, 3, hrun, hhanded, of_decide_eq_true hregistered, ?_⟩
  exact (oneConsumer_iff {} chatUnits (fun _ => none) twoDescriptors _ hrun).mpr (by decide +kernel)

/-- Descriptor 3 of the accepting socket goes to the service and is registered as well. -/
theorem echo_listener_has_two_consumers :
    ¬ ∀ (journal : Journal) (units : UnorderedMap String UnitFile) (fds : FdTable)
      (os : SocketBindAnswers) (inDegreeOrder : List String) (es : List RunEvent) (m : RunState),
      (RunState.boot ((parsed journal units fds).boundAndResolved os inDegreeOrder)).run es =
        some m →
      OneConsumer ((parsed journal units fds).boundAndResolved os inDegreeOrder) es := by
  intro hall
  have hsome : ((RunState.boot ((parsed {} echoUnits (fun _ => none)).boundAndResolved
      oneDescriptor ["echo.socket", "echo.service"])).run echoStart).any
        (fun m => decide ((3 : Int) ∈ m.sys.init.fdToSocket)) = true := by
    decide +kernel
  have hhanded : (3 : Int) ∈ StepRun.trace RunState.step RunState.handedOver
      (RunState.boot ((parsed {} echoUnits (fun _ => none)).boundAndResolved oneDescriptor
        ["echo.socket", "echo.service"])) echoStart := by
    decide +kernel
  obtain ⟨m, hrun, hregistered⟩ := (Option.any_eq_true _ _).mp hsome
  have hone := hall {} echoUnits (fun _ => none) oneDescriptor _ echoStart m hrun
  exact hone.once 3 hhanded m ⟨echoStart, List.prefix_rfl, hrun⟩ (of_decide_eq_true hregistered)

end TrivialInit
