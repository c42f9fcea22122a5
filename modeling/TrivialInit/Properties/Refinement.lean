import TrivialInit.Properties.CallCongruence
import TrivialInit.Properties.StartOrder

/-!
# Refinement — the main program is a run of the calls

`System` takes every call of the program as one event, and `RunState` one system call after the
other.  A run of the main program is a run of calls: `start_service` returns before the next unit
has its turn, and a child that PID 1 is given during `process_restarts` might as well have been
given before it (`RunState.refines_system`).  So what holds after every run of calls holds at the
corresponding places of the program.
-/

namespace TrivialInit

/-! ## The calls of the program -/

namespace Event

/-- `main` drains the pending restarts in `process_restarts` only, and queues none itself. -/
def InProgram : Event → Prop
  | .drainPendingRestarts _ => False
  | .queueRestart _ _ => False
  | _ => True

/-- The unit that has its turn in `execute(UnitExecute)`. -/
def executed? : Event → Option String
  | .executeUnit name _ => some name
  | _ => none

/-- The units that have had their turn, in order. -/
def executedNames (calls : List Event) : List String :=
  calls.filterMap executed?

@[simp] theorem executedNames_append (calls calls' : List Event) :
    executedNames (calls ++ calls') = executedNames calls ++ executedNames calls' :=
  List.filterMap_append

theorem executedNames_concat (calls : List Event) {e : Event} (he : e.executed? = none) :
    executedNames (calls ++ [e]) = executedNames calls := by
  simp [executedNames, he]

end Event

/-- What a place in the program is in the middle of. -/
inductive CallPhase
  /-- `execute(UnitExecute)`, with the units whose turn is not over. -/
  | execute (toExecute : List String)
  /-- `process_restarts`, with the names that are not done. -/
  | restarts (toCome : List String)
  /-- Between two calls. -/
  | calls
  deriving DecidableEq

/-- The phase of `start_service`, for the unit `name`. -/
def StartedFrom.phase (name : String) : StartedFrom → CallPhase
  | .unitExecute rest => .execute (name :: rest)
  | .processRestarts rest => .restarts (name :: rest)

namespace RunPoint

def phase : RunPoint → CallPhase
  | .executing rest => .execute rest
  | .starting call back => back.phase call.name
  | .waitingPre call _ back => back.phase call.name
  | .tracking call _ back => back.phase call.name
  | .terminated name back => back.phase name
  | .restarting ready => .restarts ready
  | _ => .calls

/-- The call of `start_service` that has not returned, and its caller. -/
def call? : RunPoint → Option (StartCall × StartedFrom)
  | .starting call back => some (call, back)
  | .waitingPre call _ back => some (call, back)
  | .tracking call _ back => some (call, back)
  | _ => none

def isReturned : RunPoint → Bool
  | .returned => true
  | _ => false

end RunPoint

/-- The units whose turn is not over. -/
def CallPhase.toExecute : CallPhase → List String
  | .execute toExecute => toExecute
  | _ => []

@[simp] theorem StartCall.waited_unit (call : StartCall) (status : WaitStatus) :
    (call.waited status).unit = call.unit := by
  unfold StartCall.waited
  dsimp only
  split_ifs <;> rfl

/-- The caller of `start_service` has looked the unit up. -/
def StartCall.Found (s : InitSystem) (call : StartCall) : StartedFrom → Prop
  | .unitExecute _ => ∃ probe, RunState.conditionsThrow s probe call.name = false ∧
      RunState.serviceToStart s probe call.name = some call.unit
  | .processRestarts _ => System.findService s call.name = some call.unit

namespace System

variable {sys sys' t : System} {name : String} {unit : UnitFile} {os : StartAnswers}

/-! ## The socket units -/

theorem startService_sockets (h : sys.startService name unit os = some sys') :
    sys'.init.fdToSocket = sys.init.fdToSocket ∧ sys'.init.socketUnits = sys.init.socketUnits := by
  rcases startService_cases h with hfailed | ⟨pid, hstarted⟩
  · exact ⟨hfailed.tables.fdToSocket, hfailed.tables.socketUnits⟩
  · exact ⟨hstarted.tables.fdToSocket, hstarted.tables.socketUnits⟩

theorem executeUnit_sockets {os : ExecuteAnswers} (h : sys.executeUnit name os = some sys') :
    sys'.init.fdToSocket = sys.init.fdToSocket ∧ sys'.init.socketUnits = sys.init.socketUnits := by
  have hstep : sys.step (.executeUnit name os) = some sys' := h
  rcases executeUnit_cases hstep with hsame | ⟨unit, -, hstart⟩
  · exact ⟨hsame.tables.fdToSocket, hsame.tables.socketUnits⟩
  · exact startService_sockets hstart

/-- No call registers a descriptor. -/
theorem kept_fdToSocket (registered : UnorderedMap Int String) :
    Kept (fun sys => sys.init.fdToSocket = registered) where
  same h hsame := hsame.tables.fdToSocket.trans h
  startService h hstart := (startService_sockets hstart).1.trans h
  notAccepted h hnone := by
    obtain ⟨socketUnits, htables⟩ := hnone.tables
    exact htables.fdToSocket.trans h
  accepted h hacc := by
    obtain ⟨socketUnits, htables⟩ := hacc.tables
    exact htables.fdToSocket.trans h
  reaped {sys sys' pid status now} h hreaped := by
    have htables := hreaped.tables.fdToSocket
    simp only [InitSystem.recordExit, InitSystem.fireExitCallback_eq] at htables
    exact htables.trans h
  drained now h := h
  stopped h hstep := (stop_cases hstep).1.fdToSocket.trans h
  queued name now h := h
  adopted h _ := h

theorem step_fdToSocket {e : Event} (h : sys.step e = some sys') :
    sys'.init.fdToSocket = sys.init.fdToSocket :=
  (kept_fdToSocket sys.init.fdToSocket).step rfl h

/-! ## `start_service` within its caller -/

/-- An iteration of `execute(UnitExecute)` that starts a service. -/
theorem executeUnit_of_serviceToStart (os : ExecuteAnswers)
    (hquiet : RunState.conditionsThrow sys.init os.probe name = false)
    (hservice : RunState.serviceToStart sys.init os.probe name = some unit) :
    sys.executeUnit name os = sys.startService name unit os.start := by
  obtain ⟨hfind, htemplate, hverdict, htype⟩ := RunState.serviceToStart_spec hservice
  have hthrows : Conditions.throws os.probe unit = false := by
    simpa [RunState.conditionsThrow, hfind, htemplate] using hquiet
  unfold System.executeUnit
  simp only [hfind, htemplate, hthrows, Bool.false_eq_true, if_false, hverdict, htype]

/-- Two calls of the loop one after the other are one call. -/
theorem restartAll_append {ready rest : List String} {os os' : Nat → StartAnswers}
    (hready : restartAll ready os sys = some sys') (hrest : restartAll rest os' sys' = some t) :
    ∃ os'', restartAll (ready ++ rest) os'' sys = some t := by
  induction ready generalizing os sys with
  | nil =>
      obtain rfl := Option.some.inj hready
      exact ⟨os', hrest⟩
  | cons name ready ih =>
      unfold restartAll at hready
      cases hfind : findService sys.init name with
      | none =>
          rw [hfind] at hready
          obtain ⟨os'', hrun⟩ := ih hready
          refine ⟨fun i => os'' (i - 1), ?_⟩
          rw [List.cons_append, restartAll, hfind]
          exact hrun
      | some unit =>
          rw [hfind] at hready
          obtain ⟨sys₁, hstart, hdone⟩ := Option.bind_eq_some_iff.mp hready
          obtain ⟨os'', hrun⟩ := ih hdone
          refine ⟨fun i => if i = 0 then os 0 else os'' (i - 1), ?_⟩
          rw [List.cons_append, restartAll, hfind]
          exact Option.bind_eq_some_iff.mpr ⟨sys₁, hstart, hrun⟩

/-- The next name is skipped. -/
theorem restartAll_concat_skip {ready : List String} {os : Nat → StartAnswers}
    (hready : restartAll ready os sys = some sys') (hunit : findService sys'.init name = none) :
    ∃ os', restartAll (ready ++ [name]) os' sys = some sys' := by
  have hskip : restartAll [name] os sys' = some sys' := by
    rw [restartAll, hunit]
    rfl
  exact restartAll_append hready hskip

/-- The next name is started. -/
theorem restartAll_concat_start {ready : List String} {os : Nat → StartAnswers}
    {start : StartAnswers} (hready : restartAll ready os sys = some sys')
    (hunit : findService sys'.init name = some unit)
    (hstart : startService
      { sys' with init := sys'.init.log .notice "executor" s!"Restarting {name}" } name unit start =
        some t) :
    ∃ os', restartAll (ready ++ [name]) os' sys = some t := by
  have hnext : restartAll [name] (fun _ => start) sys' = some t := by
    rw [restartAll, hunit]
    exact Option.bind_eq_some_iff.mpr ⟨t, hstart, rfl⟩
  exact restartAll_append hready hnext

/-! ## Adopting a child earlier -/

/-- The kernel gives PID 1 another child. -/
def adopted (sys : System) (pid : Pid) : System :=
  { sys with children := sys.children.insert pid .orphan }

theorem Similar.adopted {pid : Pid} (h : Similar sys sys') :
    Similar (sys.adopted pid) (sys'.adopted pid) where
  init := h.init
  children := AList.perm_insert h.children
  clock := h.clock

theorem startService_adopted {pid : Pid} (h : sys.startService name unit os = some t)
    (hfresh : pid ∉ t.children) :
    ∃ t', (sys.adopted pid).startService name unit os = some t' ∧ Similar (t.adopted pid) t' := by
  obtain ⟨⟨pid?, s⟩, hcall, h⟩ := Option.bind_eq_some_iff.mp h
  have hsame : (sys.adopted pid).startService name unit os =
      (sys.adopted pid).addChild .service (pid?, s) :=
    congrArg (fun r => Option.bind r ((sys.adopted pid).addChild .service)) hcall
  rw [hsame]
  cases pid? with
  | none =>
      obtain rfl := Option.some.inj h
      exact ⟨_, rfl, .refl _⟩
  | some p =>
      obtain ⟨hnew, rfl⟩ := addChild_cases h
      rw [AList.mem_insert, not_or] at hfresh
      -- The adopted child is another one than the forked child.
      have hnew' : p ∉ (sys.adopted pid).children := by
        unfold System.adopted
        rw [AList.mem_insert, not_or]
        exact ⟨fun heq => hfresh.1 heq.symm, hnew⟩
      refine ⟨_, if_neg hnew', ?_⟩
      exact
        { init := .refl _
          children := AList.insert_insert_of_ne sys.children hfresh.1
          clock := rfl }

theorem mem_children_startService {pid : Pid} (h : sys.startService name unit os = some t)
    (hpid : pid ∈ sys.children) : pid ∈ t.children := by
  rcases startService_cases h with hfailed | ⟨p, hstarted⟩
  · exact hfailed.children ▸ hpid
  · rw [hstarted.children, AList.mem_insert]
    exact Or.inr hpid

theorem mem_children_restartAll {pid : Pid} {ready : List String} {os : Nat → StartAnswers}
    (h : restartAll ready os sys = some t) (hpid : pid ∈ sys.children) : pid ∈ t.children :=
  restartAll_invariant (fun _ sys => pid ∈ sys.children) (fun hmem hsame => hsame.children ▸ hmem)
    (fun hmem _ => hmem) (fun _ hmem _ hstart => mem_children_startService hstart hmem) hpid h

/-- Nothing changes for the loop when a child was there before that comes after it. -/
theorem restartAll_adopted {pid : Pid} {ready : List String} {os : Nat → StartAnswers}
    (h : restartAll ready os sys = some t) (hfresh : pid ∉ t.children) :
    ∃ t', restartAll ready os (sys.adopted pid) = some t' ∧ Similar (t.adopted pid) t' := by
  induction ready generalizing os sys with
  | nil =>
      obtain rfl := Option.some.inj h
      exact ⟨_, rfl, .refl _⟩
  | cons name rest ih =>
      unfold restartAll at h ⊢
      have hsame : findService (sys.adopted pid).init name = findService sys.init name := rfl
      rw [hsame]
      cases hfind : findService sys.init name with
      | none =>
          rw [hfind] at h
          exact ih h
      | some unit =>
          rw [hfind] at h
          obtain ⟨sys₁, hstart, hrest⟩ := Option.bind_eq_some_iff.mp h
          have hfresh₁ : pid ∉ sys₁.children :=
            fun hmem => hfresh (mem_children_restartAll hrest hmem)
          -- The start and the rest of the loop both go through with the child present.
          obtain ⟨sys₁', hstart', hsim⟩ := startService_adopted hstart hfresh₁
          obtain ⟨t₁, hrest₁, ht₁⟩ := ih hrest
          obtain ⟨t', hrest', ht'⟩ := hsim.restartAll hrest₁
          exact ⟨t', Option.bind_eq_some_iff.mpr ⟨sys₁', hstart', hrest'⟩, ht₁.trans ht'⟩

/-! ## Places between two calls, and within one -/

/-- In the loop of `process_restarts`, called in `sys`, before the names `toCome`. -/
def InRestarts (sys sys' : System) (toCome : List String) : Prop :=
  ∃ now done os t, sys.clock ≤ now ∧
    (sys.init.drainPendingRestarts now).1 = done ++ toCome ∧
    restartAll done os
      { sys with
        init := (sys.init.drainPendingRestarts now).2
        clock := now } = some t ∧
    Similar t sys'

/-- The last call before the phase has led to `sys`, and the program is in `sys'`. -/
def Reaches (sys sys' : System) : CallPhase → Prop
  | .restarts toCome => sys.InRestarts sys' toCome
  | _ => sys.Similar sys'

end System

open TrivialInit.System

/-- `fd_to_socket_` is filled between `execute(UnitExecute)` and the main loop. -/
def CallPhase.Registered (s : InitSystem) (sys' : System) : CallPhase → Prop
  | .execute _ => sys'.init.fdToSocket = s.fdToSocket ∧ sys'.init.socketUnits = s.socketUnits
  | _ => sys'.init.fdToSocket = s.registerAcceptSockets.fdToSocket

/-- Outside `start_service` there is nothing to find. -/
theorem found_of_none {point : RunPoint} (hcall : point.call? = none) (s : InitSystem) :
    ∀ call back, point.call? = some (call, back) → call.Found s back := by
  simp [hcall]

/-- The program, started with the object `s`, is at `point` and in `sys'`; the calls have led to
`sys`. -/
structure Abstracts (s : InitSystem) (calls : List Event) (point : RunPoint) (sys' sys : System) :
    Prop where
  inProgram : ∀ e ∈ calls, e.InProgram
  executed : Event.executedNames calls ++ point.phase.toExecute = s.execOrder
  registered : sys.init.fdToSocket = s.registerAcceptSockets.fdToSocket
  sockets : point.phase.Registered s sys'
  found : ∀ call back, point.call? = some (call, back) → call.Found sys'.init back
  reached : sys.Reaches sys' point.phase

/-- Some more calls lead to where the program is. -/
def Answered (s : InitSystem) (calls : List Event) (sys : System) (point : RunPoint)
    (sys' : System) : Prop :=
  ∃ calls' t, sys.run calls' = some t ∧ Abstracts s (calls ++ calls') point sys' t

namespace Abstracts

variable {s : InitSystem} {calls : List Event} {point point' : RunPoint} {sys sys' sys'' : System}

theorem answered (h : Abstracts s calls point sys' sys) : Answered s calls sys point sys' :=
  ⟨[], sys, rfl, by rwa [List.append_nil]⟩

/-- From one place of a phase to another one. -/
theorem moves (h : Abstracts s calls point sys' sys) (hphase : point'.phase = point.phase)
    (hfound : ∀ call back, point'.call? = some (call, back) → call.Found sys'.init back) :
    Abstracts s calls point' sys' sys where
  inProgram := h.inProgram
  executed := hphase ▸ h.executed
  registered := h.registered
  sockets := hphase ▸ h.sockets
  found := hfound
  reached := hphase ▸ h.reached

/-- Nothing is called on the way. -/
theorem goesOn (h : Abstracts s calls point sys' sys) (hphase : point'.phase = point.phase)
    (hcall : point'.call? = none) : Answered s calls sys point' sys' :=
  (h.moves hphase (found_of_none hcall _)).answered

/-- On the way through one call of `start_service`. -/
theorem callGoesOn (h : Abstracts s calls point sys' sys) {call call' : StartCall}
    {back : StartedFrom} (hphase : point'.phase = point.phase)
    (hcall : point.call? = some (call, back)) (hcall' : point'.call? = some (call', back))
    (hname : call'.name = call.name) (hunit : call'.unit = call.unit) :
    Answered s calls sys point' sys' := by
  refine (h.moves hphase ?_).answered
  intro call'' back'' heq
  obtain ⟨rfl, rfl⟩ := Prod.mk.inj (Option.some.inj (hcall'.symm.trans heq))
  have hfound := h.found call back hcall
  cases back with
  | unitExecute rest => simpa only [StartCall.Found, hname, hunit] using hfound
  | processRestarts rest => simpa only [StartCall.Found, hname, hunit] using hfound

theorem logs (h : Abstracts s calls point sys' sys) (level : LogLevel) (source message : String) :
    Abstracts s calls point { sys' with init := sys'.init.log level source message } sys where
  inProgram := h.inProgram
  executed := h.executed
  registered := h.registered
  sockets := by
    have hsockets := h.sockets
    cases hphase : point.phase <;> rw [hphase] at hsockets <;> exact hsockets
  found call back hcall := by
    have hfound := h.found call back hcall
    cases back <;> exact hfound
  reached := by
    have hlog : System.Similar sys' { sys' with init := sys'.init.log level source message } :=
      (System.Similar.refl sys').withInit
        ((InitSystem.Agree.refl sys'.init).log level source message)
    have hreached := h.reached
    cases hphase : point.phase with
    | restarts toCome =>
        rw [hphase] at hreached
        obtain ⟨now, done, os, t, hclock, hready, hdone, hsim⟩ := hreached
        exact ⟨now, done, os, t, hclock, hready, hdone, hsim.trans hlog⟩
    | execute toExecute =>
        rw [hphase] at hreached
        exact System.Similar.trans hreached hlog
    | calls =>
        rw [hphase] at hreached
        exact System.Similar.trans hreached hlog

/-- One more event. -/
theorem one {e : Event} {t : System} (hcalls : ∀ e ∈ calls, e.InProgram) (he : e.InProgram)
    (hrun : sys.step e = some t)
    (hrest : (∀ e' ∈ calls ++ [e], e'.InProgram) → Abstracts s (calls ++ [e]) point sys' t) :
    Answered s calls sys point sys' := by
  refine ⟨[e], t, StepRun.run_singleton.mpr hrun, hrest ?_⟩
  intro e' he'
  rcases List.mem_append.mp he' with hold | hnew
  · exact hcalls e' hold
  · exact List.mem_singleton.mp hnew ▸ he

/-- A call between two others. -/
theorem event (h : Abstracts s calls point sys' sys) {e : Event} (hphase : point.phase = .calls)
    (hstep : sys'.step e = some sys'') (he : e.InProgram) (hother : e.executed? = none)
    (hphase' : point'.phase = .calls) (hcall : point'.call? = none) :
    Answered s calls sys point' sys'' := by
  have hexecuted := h.executed
  have hsockets := h.sockets
  have hreached := h.reached
  rw [hphase] at hexecuted hsockets hreached
  have hregistered : sys.init.fdToSocket = sys'.init.fdToSocket := h.registered.trans hsockets.symm
  obtain ⟨t, ht, hsim⟩ := System.Similar.step (System.Similar.symm hreached) hregistered hstep
  refine one h.inProgram he ht (fun hin => ?_)
  exact
    { inProgram := hin
      executed := by
        rw [hphase', Event.executedNames_concat calls hother]
        exact hexecuted
      registered := (step_fdToSocket ht).trans h.registered
      sockets := by
        rw [hphase']
        exact (step_fdToSocket hstep).trans hsockets
      found := found_of_none hcall _
      reached := by
        rw [hphase']
        exact hsim.symm }

/-- The turn of a unit in `execute(UnitExecute)`. -/
theorem executes (h : Abstracts s calls point sys' sys) {name : String} {rest : List String}
    {os : ExecuteAnswers} (hphase : point.phase = .execute (name :: rest))
    (hexec : sys'.executeUnit name os = some sys'') :
    Answered s calls sys (.executing rest) sys'' := by
  have hexecuted := h.executed
  have hsockets := h.sockets
  have hreached := h.reached
  rw [hphase] at hexecuted hsockets hreached
  obtain ⟨t, ht, hsim⟩ := System.Similar.executeUnit (System.Similar.symm hreached) hexec
  obtain ⟨hregistered, hunits⟩ := executeUnit_sockets hexec
  refine one (e := .executeUnit name os) h.inProgram trivial ht (fun hin => ?_)
  exact
    { inProgram := hin
      executed := by
        rw [Event.executedNames_append, List.append_assoc]
        exact hexecuted
      registered := (executeUnit_sockets ht).1.trans h.registered
      sockets := ⟨hregistered.trans hsockets.1, hunits.trans hsockets.2⟩
      found := found_of_none rfl _
      reached := hsim.symm }

/-- `start_service` returns to its caller. -/
theorem starts (h : Abstracts s calls point sys' sys) {call : StartCall} {back : StartedFrom}
    {os : StartAnswers} (hcall : point.call? = some (call, back))
    (hphase : point.phase = back.phase call.name)
    (hstart : sys'.startService call.name call.unit os = some sys'') :
    Answered s calls sys back.point sys'' := by
  have hfound := h.found call back hcall
  cases back with
  | unitExecute rest =>
      obtain ⟨probe, hquiet, hservice⟩ := hfound
      let answers : ExecuteAnswers :=
        { probe := probe
          start := os
          mount := { alreadyMounted := false, mountError := none } }
      have hexec : sys'.executeUnit call.name answers = some sys'' :=
        (executeUnit_of_serviceToStart answers hquiet hservice).trans hstart
      exact h.executes hphase hexec
  | processRestarts rest =>
      have hexecuted := h.executed
      have hsockets := h.sockets
      have hreached := h.reached
      rw [hphase] at hexecuted hsockets hreached
      obtain ⟨now, done, answers, t, hclock, hready, hdone, hsim⟩ := hreached
      -- The journal entry of the loop is the only difference before the start.
      have hlog : System.Similar sys'
          { t with init := t.init.log .notice "executor" s!"Restarting {call.name}" } :=
        hsim.symm.withInit (hsim.symm.init.log _ _ _)
      obtain ⟨t', hstart', hsim'⟩ := hlog.startService hstart
      have hunit : findService t.init call.name = some call.unit :=
        (hsim.findService call.name).symm.trans hfound
      obtain ⟨answers', hdone'⟩ := restartAll_concat_start hdone hunit hstart'
      refine Abstracts.answered ?_
      exact
        { inProgram := h.inProgram
          executed := hexecuted
          registered := h.registered
          sockets := (startService_sockets hstart).1.trans hsockets
          found := found_of_none rfl _
          reached := by
            refine ⟨now, done ++ [call.name], answers', t', hclock, ?_, hdone', hsim'.symm⟩
            rw [hready, List.append_assoc]
            rfl }

/-- `process_restarts` takes the names that are due. -/
theorem drains (h : Abstracts s calls point sys' sys) {now : TimePoint} (hphase : point.phase = .calls)
    (hdrain : sys'.step (.drainPendingRestarts now) = some sys'') :
    Abstracts s calls (.restarting (sys'.init.drainPendingRestarts now).1) sys'' sys := by
  have hexecuted := h.executed
  have hsockets := h.sockets
  have hreached := h.reached
  rw [hphase] at hexecuted hsockets hreached
  have hsim : System.Similar sys sys' := hreached
  obtain ⟨hclock, rfl⟩ := drain_cases hdrain
  obtain ⟨hready, hagree⟩ := InitSystem.drainPendingRestarts_respects now _ _ hsim.init
  exact
    { inProgram := h.inProgram
      executed := hexecuted
      registered := h.registered
      sockets := hsockets
      found := found_of_none rfl _
      reached := by
        refine ⟨now, [], fun _ => { forked := .error "" }, _, ?_, hready.symm, rfl, ?_⟩
        · exact hsim.clock ▸ hclock
        · exact
            { init := hagree
              children := hsim.children
              clock := rfl } }

/-- A name of `process_restarts` that is not a loaded service. -/
theorem skips (h : Abstracts s calls point sys' sys) {name : String} {rest : List String}
    (hphase : point.phase = .restarts (name :: rest))
    (hunit : findService sys'.init name = none) :
    Abstracts s calls (.restarting rest) sys' sys := by
  have hexecuted := h.executed
  have hsockets := h.sockets
  have hreached := h.reached
  rw [hphase] at hexecuted hsockets hreached
  obtain ⟨now, done, os, t, hclock, hready, hdone, hsim⟩ := hreached
  obtain ⟨os', hdone'⟩ :=
    restartAll_concat_skip hdone ((hsim.findService name).symm.trans hunit)
  exact
    { inProgram := h.inProgram
      executed := hexecuted
      registered := h.registered
      sockets := hsockets
      found := found_of_none rfl _
      reached := by
        refine ⟨now, done ++ [name], os', t, hclock, ?_, hdone', hsim⟩
        rw [hready, List.append_assoc]
        rfl }

/-- `process_restarts` returns. -/
theorem finishes (h : Abstracts s calls point sys' sys) (hphase : point.phase = .restarts [])
    (hphase' : point'.phase = .calls) (hcall : point'.call? = none) :
    Answered s calls sys point' sys' := by
  have hexecuted := h.executed
  have hsockets := h.sockets
  have hreached := h.reached
  rw [hphase] at hexecuted hsockets hreached
  obtain ⟨now, done, os, t, hclock, hready, hdone, hsim⟩ := hreached
  rw [List.append_nil] at hready
  have ht : sys.step (.processRestarts now os) = some t := by
    rw [← hready] at hdone
    exact Option.ite_none_right_eq_some.mpr ⟨hclock, hdone⟩
  refine one (e := .processRestarts now os) h.inProgram trivial ht (fun hin => ?_)
  exact
    { inProgram := hin
      executed := by
        rw [hphase', Event.executedNames_concat calls rfl]
        exact hexecuted
      registered := (step_fdToSocket ht).trans h.registered
      sockets := by
        rw [hphase']
        exact hsockets
      found := found_of_none hcall _
      reached := by
        rw [hphase']
        exact hsim }

/-- During `process_restarts`, the child might as well have been there before. -/
theorem adopts (h : Abstracts s calls point sys' sys) {pid : Pid} (hfresh : pid ∉ sys'.children) :
    Answered s calls sys point (sys'.adopted pid) := by
  have hexecuted : Event.executedNames (calls ++ [.adopt pid]) ++ point.phase.toExecute =
      s.execOrder := by
    rw [Event.executedNames_concat calls rfl]
    exact h.executed
  have hreached := h.reached
  have hanswer : pid ∉ sys.children ∧ (sys.adopted pid).Reaches (sys'.adopted pid) point.phase := by
    cases hphase : point.phase with
    | restarts toCome =>
        rw [hphase] at hreached
        obtain ⟨now, done, os, t, hclock, hready, hdone, hsim⟩ := hreached
        have hnew : pid ∉ t.children := fun hmem => hfresh ((hsim.mem_children pid).mpr hmem)
        have hbefore : pid ∉ sys.children :=
          fun hmem => hnew (mem_children_restartAll hdone hmem)
        obtain ⟨t', hdone', hsim'⟩ := restartAll_adopted hdone hnew
        exact ⟨hbefore, now, done, os, t', hclock, hready, hdone', hsim'.symm.trans hsim.adopted⟩
    | execute toExecute =>
        rw [hphase] at hreached
        exact ⟨fun hmem => hfresh ((System.Similar.mem_children hreached pid).mpr hmem),
          System.Similar.adopted hreached⟩
    | calls =>
        rw [hphase] at hreached
        exact ⟨fun hmem => hfresh ((System.Similar.mem_children hreached pid).mpr hmem),
          System.Similar.adopted hreached⟩
  refine one (e := .adopt pid) (t := sys.adopted pid) h.inProgram trivial (if_neg hanswer.1)
    (fun hin => ?_)
  exact
    { inProgram := hin
      executed := hexecuted
      registered := h.registered
      sockets := by
        have hsockets := h.sockets
        cases hphase : point.phase <;> rw [hphase] at hsockets <;> exact hsockets
      found := by
        intro call back hcall
        have hfound := h.found call back hcall
        cases back <;> exact hfound
      reached := hanswer.2 }

/-- The main loop begins. -/
theorem entersMainLoop (h : Abstracts s calls (.executing []) sys' sys) :
    Abstracts s calls .loopHead { sys' with init := sys'.init.registerAcceptSockets } sys where
  inProgram := h.inProgram
  executed := h.executed
  registered := h.registered
  sockets := by
    obtain ⟨hregistered, hunits⟩ := h.sockets
    change sys'.init.registerAcceptSockets.fdToSocket = s.registerAcceptSockets.fdToSocket
    unfold InitSystem.registerAcceptSockets
    simp only [hregistered, hunits]
  found := found_of_none rfl _
  reached := by
    have hreached : System.Similar sys sys' := h.reached
    have hagree : InitSystem.Agree sys'.init sys'.init.registerAcceptSockets :=
      ⟨sys'.init.journal, sys'.init.registerAcceptSockets.fdToSocket, rfl⟩
    exact hreached.trans ((System.Similar.refl sys').withInit hagree)

end Abstracts

namespace RunState

variable {s : InitSystem} {calls : List Event} {m m' : RunState} {sys : System} {a : RunAnswer}

theorem maybeFixRuntimeDirs_sys (m : RunState) :
    m.maybeFixRuntimeDirs.sys = m.sys ∨
      m.maybeFixRuntimeDirs.sys =
        { m.sys with
          init := m.sys.init.log .info "fs" "Applying deferred runtime directory ownership" } := by
  unfold maybeFixRuntimeDirs
  dsimp only
  split_ifs
  · exact Or.inl rfl
  · exact Or.inr rfl

/-- `maybe_fix_runtime_dirs` only writes the journal. -/
theorem abstracts_maybeFixRuntimeDirs {point : RunPoint} (h : Abstracts s calls point m.sys sys) :
    Abstracts s calls point m.maybeFixRuntimeDirs.sys sys := by
  rcases m.maybeFixRuntimeDirs_sys with hsys | hsys
  · rwa [hsys]
  · rw [hsys]
    exact h.logs _ _ _

/-- A step of the program that does not return from `run`. -/
theorem abstracts_program (h : Abstracts s calls m.point m.sys sys)
    (hstep : m.programStep a = some m') (hlive : m'.point ≠ .returned) :
    Answered s calls sys m'.point m'.sys := by
  have hcases := programStep_cases hstep
  generalize hpoint : m.point = point at h hcases
  cases hcases with
  | entersMainLoop => exact (h.entersMainLoop.logs _ _ _).answered
  | throwsCondition hthrows => exact h.goesOn rfl rfl
  | throwsStart hservice hthrows => exact h.goesOn rfl rfl
  | startsUnit hquiet hservice hcreated =>
      -- No call is made yet: the program has entered `start_service` and its child is still to come.
      refine Abstracts.answered (h.moves rfl ?_)
      intro call back hcall
      obtain ⟨rfl, rfl⟩ := Prod.mk.inj (Option.some.inj hcall)
      exact ⟨a.probe, hquiet, hservice⟩
  | executesUnit hservice hsys => exact h.executes rfl hsys
  | skipsPre htodo => exact h.callGoesOn rfl rfl rfl rfl rfl
  | forksPre htodo hforked hfresh => exact h.callGoesOn rfl rfl rfl rfl rfl
  | forksMain htodo hstart hfresh => exact h.callGoesOn rfl rfl rfl rfl rfl
  | notStarted htodo hstart hsys => exact h.starts rfl rfl hsys
  | waitsPre hexited =>
      rename_i call pid back status
      exact h.callGoesOn (congrArg back.phase (call.waited_name status)) rfl rfl
        (call.waited_name status) (call.waited_unit status)
  | tracks hsys => exact h.starts rfl rfl hsys
  | leavesMainLoop hshut => exact (h.logs _ _ _).goesOn rfl rfl
  | polls hshut => exact h.goesOn rfl rfl
  | signalled => exact h.goesOn rfl rfl
  | forksConnection hpid hfresh => exact h.goesOn rfl rfl
  | notAccepted hpid hsys => exact h.event rfl hsys trivial rfl rfl rfl
  | skipsDescriptor hpoll => exact h.goesOn rfl rfl
  | drainsRestarts hsys => exact (h.drains rfl hsys).answered
  | waitedOnce => exact h.goesOn rfl rfl
  | returns => exact absurd rfl hlive
  | accepts hsys => exact h.event rfl hsys trivial rfl rfl rfl
  | noSignal hpending => exact h.goesOn rfl rfl
  | readsChld hpending => exact h.goesOn rfl rfl
  | readsShutdown hpending hsignal =>
      exact (h.logs _ _ _).goesOn (congrArg RunPoint.phase hpoint) (congrArg RunPoint.call? hpoint)
  | readsUsr1 hpending =>
      exact h.goesOn (congrArg RunPoint.phase hpoint) (congrArg RunPoint.call? hpoint)
  | noChild hchild hnone => exact h.goesOn rfl rfl
  | reaps hchild hexited hsys =>
      exact h.event rfl hsys trivial rfl (congrArg RunPoint.phase hpoint)
        (congrArg RunPoint.call? hpoint)
  | quits hquit =>
      exact ((abstracts_maybeFixRuntimeDirs h).logs _ _ _).finishes rfl rfl rfl
  | loops hquit => exact (abstracts_maybeFixRuntimeDirs h).finishes rfl rfl rfl
  | skipsRestart hunit => exact (h.skips rfl hunit).answered
  | throwsRestart hunit hthrows => exact (h.logs _ _ _).goesOn rfl rfl
  | restarts hunit hcreated =>
      refine Abstracts.answered ((h.logs _ _ _).moves rfl ?_)
      intro call back hcall
      obtain ⟨rfl, rfl⟩ := Prod.mk.inj (Option.some.inj hcall)
      exact hunit
  | stoppedAll => exact h.goesOn rfl rfl
  | stops => exact h.event (e := .stopUnit _) rfl rfl trivial rfl rfl rfl
  | awaits hpoll => exact h.goesOn rfl rfl

/-- Nothing happens to the program after `run`. -/
theorem step_returned (h : m.point = .returned) {e : RunEvent} (hstep : m.step e = some m') :
    m'.point = .returned := by
  cases e with
  | exits pid status =>
      obtain ⟨-, rfl⟩ := exits_cases hstep
      exact h
  | adopts pid =>
      obtain ⟨-, -, rfl⟩ := adopts_cases hstep
      exact h
  | raises signal =>
      obtain rfl := Option.some.inj hstep
      exact h
  | program a =>
      have hnone : m.programStep a = none := by
        unfold programStep
        rw [h]
      nomatch hnone.symm.trans hstep

theorem abstracts_step (h : Abstracts s calls m.point m.sys sys) {e : RunEvent}
    (hstep : m.step e = some m') (hlive : m'.point ≠ .returned) :
    Answered s calls sys m'.point m'.sys := by
  cases e with
  | exits pid status =>
      obtain ⟨-, rfl⟩ := exits_cases hstep
      exact h.answered
  | adopts pid =>
      obtain ⟨-, hfresh, rfl⟩ := adopts_cases hstep
      exact h.adopts hfresh
  | raises signal =>
      obtain rfl := Option.some.inj hstep
      exact h.answered
  | program a => exact abstracts_program h hstep hlive

theorem abstracts_boot (s : InitSystem) :
    Abstracts s [] (boot s).point (boot s).sys { init := s.registerAcceptSockets } where
  inProgram := List.forall_mem_nil _
  executed := rfl
  registered := rfl
  sockets := ⟨rfl, rfl⟩
  found := found_of_none rfl _
  reached :=
    { init := ⟨s.journal, s.fdToSocket, rfl⟩
      children := List.Perm.refl _
      clock := rfl }

/-- Until `run` returns, a run of the main program is a run of the calls it makes, up to the order of
the children, the journal and, before the main loop, the registered descriptors.  Between two calls
the program is where the calls lead to; in `process_restarts` it is where the loop leads to from
there. -/
theorem refines_system {s : InitSystem} {es : List RunEvent} {m : RunState}
    (hrun : (boot s).run es = some m) (hlive : m.point ≠ .returned) :
    ∃ calls sys, System.run { init := s.registerAcceptSockets } calls = some sys ∧
      (∀ e ∈ calls, e.InProgram) ∧
      Event.executedNames calls ++ m.point.phase.toExecute = s.execOrder ∧
      sys.Reaches m.sys m.point.phase := by
  let R : List Event → RunState → System → Prop := fun calls m sys =>
    m.point ≠ .returned → Abstracts s calls m.point m.sys sys
  have hstep : ∀ calls m sys e m', R calls m sys → RunState.step m e = some m' →
      ∃ calls' sys', StepRun.run System.step sys calls' = some sys' ∧
        R (calls ++ calls') m' sys' := by
    intro calls m sys e m' hR he
    by_cases hreturned : m'.point = .returned
    · exact ⟨[], sys, rfl, fun hlive => absurd hreturned hlive⟩
    · have hlive : m.point ≠ .returned := fun h => hreturned (step_returned h he)
      obtain ⟨calls', sys', hcalls, h⟩ := abstracts_step (hR hlive) he hreturned
      exact ⟨calls', sys', hcalls, fun _ => h⟩
  obtain ⟨calls, sys, hcalls, h⟩ :=
    StepRun.exists_run_of_simulation R hstep (fun _ => abstracts_boot s) hrun
  have habstracts := h hlive
  exact ⟨calls, sys, hcalls, habstracts.inProgram, habstracts.executed, habstracts.reached⟩

/-- The service that is always restarted. -/
def restartBoot : InitSystem :=
  (InitSystem.parsed {} ((∅ : UnorderedMap String UnitFile).insert "web.service" sampleWeb)
    (fun _ => none)).boundAndResolved oneDescriptor ["web.service"]

/-- Its process exits, and PID 1 is given a child while it starts the next one. -/
def restartRun : List RunEvent :=
  [ .program {}
  , .program { forked := .ok 100 }
  , .program {}
  , .program {}
  , .exits 100 (.exited 1)
  , .program { polled := some [.signals] }
  , .program {}
  , .program { signal := some .chld }
  , .program { child := some 100, now := 1 }
  , .program {}
  , .program {}
  , .program { now := 200000000 }
  , .program {}
  , .adopts 300
  , .program { forked := .ok 101 }
  , .program {}
  , .program {} ]

theorem refines_system_sample :
    ∃ calls sys, System.run { init := restartBoot.registerAcceptSockets } calls = some sys ∧
      Event.executedNames calls = ["web.service"] ∧ 101 ∈ sys.children ∧ 300 ∈ sys.children := by
  have hsome : ((boot restartBoot).run restartRun).any (fun m =>
      decide (m.point.phase = .calls ∧ m.point.isReturned = false ∧
        101 ∈ m.sys.children ∧ 300 ∈ m.sys.children)) = true := by
    decide +kernel
  obtain ⟨m, hm, hpoint⟩ := (Option.any_eq_true _ _).mp hsome
  obtain ⟨hphase, hloop, hstarted, hadopted⟩ := of_decide_eq_true hpoint
  have hlive : m.point ≠ .returned := by
    intro hreturned
    rw [hreturned] at hloop
    cases hloop
  obtain ⟨calls, sys, hcalls, -, hexecuted, hreached⟩ := refines_system hm hlive
  rw [hphase] at hexecuted hreached
  have hsim : System.Similar sys m.sys := hreached
  have horder : restartBoot.execOrder = ["web.service"] := by decide +kernel
  refine ⟨calls, sys, hcalls, ?_, (hsim.mem_children 101).mp hstarted,
    (hsim.mem_children 300).mp hadopted⟩
  rw [← horder, ← hexecuted]
  exact (List.append_nil _).symm

end RunState

end TrivialInit
