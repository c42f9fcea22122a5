import TrivialInit.Lib.Positions
import TrivialInit.Properties.BootState
import TrivialInit.Properties.DependencyOrder
import TrivialInit.Properties.ExitAccounting

/-!
# ShutdownOrder — dependents are stopped before their dependencies

When the main loop ends the program goes through the reversed `exec_order_`, and it only waits for
signals afterwards.  The process table is as the run has left it: `TableInv` says that two names
never stand for one process, and the order of `exec_order_` is the one of the boot.
-/

namespace TrivialInit

open InitSystem

/-! ## The points of the shutdown -/

namespace RunPoint

/-- Behind the loop over the reversed `exec_order_`. -/
def afterStop : RunPoint → Bool
  | .awaiting _ => true
  | .polled _ poll => decide (poll ≠ .mainLoop)
  | .draining _ poll => decide (poll ≠ .mainLoop)
  | .reaping _ poll => decide (poll ≠ .mainLoop)
  | .returned => true
  | _ => false

/-- Behind the main loop. -/
def inShutdown : RunPoint → Bool
  | .stopping _ => true
  | point => point.afterStop

theorem inShutdown_of_afterStop {point : RunPoint} (h : point.afterStop = true) :
    point.inShutdown = true := by
  cases point <;> first | rfl | exact h

theorem inHand_of_inShutdown {point : RunPoint} (h : point.inShutdown = true) :
    point.inHand = none := by
  cases point <;> first | rfl | nomatch h

@[simp] theorem inShutdown_startedFrom (back : StartedFrom) : back.point.inShutdown = false := by
  cases back <;> rfl

end RunPoint

namespace RunState

variable {m m' : RunState} {a : RunAnswer}

/-- The wait for the children never leads back. -/
theorem afterStop_step (hafter : m.point.afterStop = true) (h : m.programStep a = some m') :
    m'.point.afterStop = true := by
  have hstep := programStep_cases h
  generalize hpoint : m.point = point at hstep hafter
  cases hstep with
  | awaits hpoll => exact decide_eq_true hpoll
  | waitedOnce => rfl
  | returns => rfl
  -- The poll stays the one that was left for its events.
  | signalled => exact hafter
  | skipsDescriptor hpoll => exact hafter
  | noSignal hpending => exact hafter
  | readsChld hpending => exact hafter
  | readsShutdown hpending hsignal => exact (congrArg RunPoint.afterStop hpoint).trans hafter
  | readsUsr1 hpending => exact (congrArg RunPoint.afterStop hpoint).trans hafter
  | noChild hchild hnone => exact hafter
  | reaps hchild hexited hsys => exact (congrArg RunPoint.afterStop hpoint).trans hafter
  | _ => simp [RunPoint.afterStop] at hafter

theorem stopping_cases {rest : List String} (hpoint : m.point = .stopping rest)
    (h : m.programStep a = some m') :
    (rest = [] ∧ m' = { m with point := .awaiting 0 }) ∨
      ∃ name rest', rest = name :: rest' ∧
        m' =
          { m with
            sys := { m.sys with init := m.sys.init.stopUnit name }
            point := .stopping rest' } := by
  have hstep := programStep_cases h
  rw [hpoint] at hstep
  cases hstep with
  | stoppedAll => exact Or.inl ⟨rfl, rfl⟩
  | stops => exact Or.inr ⟨_, _, rfl, rfl⟩

theorem inShutdown_step (hshut : m.point.inShutdown = true) (h : m.programStep a = some m') :
    m'.point.inShutdown = true := by
  cases hpoint : m.point with
  | stopping rest =>
      rcases stopping_cases hpoint h with ⟨-, rfl⟩ | ⟨name, rest', -, rfl⟩
      · rfl
      · rfl
  | _ =>
      refine RunPoint.inShutdown_of_afterStop (afterStop_step ?_ h)
      simpa [hpoint, RunPoint.inShutdown] using hshut

/-! ## The end of the main loop -/

/-- The main loop is left towards the first iteration of the stop loop. -/
theorem enters_shutdown (hloop : m.point.inShutdown = false) (h : m.programStep a = some m') :
    m'.point.inShutdown = false ∨ m'.point = .stopping m'.sys.init.execOrder.reverse := by
  have hstep := programStep_cases h
  generalize hpoint : m.point = point at hstep hloop
  cases hstep with
  | leavesMainLoop hshut => exact Or.inr rfl
  | quits hquit => exact Or.inr rfl
  -- `start_service` returns to the loop that called it.
  | notStarted htodo hpid hsys => exact Or.inl (by simp)
  | tracks hsys => exact Or.inl (by simp)
  | signalled => exact Or.inl hloop
  | skipsDescriptor hpoll => exact Or.inl hloop
  | noSignal hpending => exact Or.inl hloop
  | readsChld hpending => exact Or.inl hloop
  | readsShutdown hpending hsignal =>
      exact Or.inl ((congrArg RunPoint.inShutdown hpoint).trans hloop)
  | readsUsr1 hpending => exact Or.inl ((congrArg RunPoint.inShutdown hpoint).trans hloop)
  | noChild hchild hnone => exact Or.inl hloop
  | reaps hchild hexited hsys => exact Or.inl ((congrArg RunPoint.inShutdown hpoint).trans hloop)
  -- The points of the shutdown are excluded.
  | waitedOnce => simp [RunPoint.inShutdown, RunPoint.afterStop] at hloop
  | returns => simp [RunPoint.inShutdown, RunPoint.afterStop] at hloop
  | stoppedAll => simp [RunPoint.inShutdown] at hloop
  | stops => simp [RunPoint.inShutdown] at hloop
  | awaits hpoll => simp [RunPoint.inShutdown, RunPoint.afterStop] at hloop
  | _ => exact Or.inl rfl

end RunState

/-! ## What the run leaves in place -/

theorem Quiet.execOrder {sys sys' : System} {next : RunPoint} (h : Quiet sys next sys') :
    sys'.init.execOrder = sys.init.execOrder := by
  cases h with
  | same h => exact h.tables.execOrder
  | drained now _ => rfl
  | stopped name => exact (stopUnit_spec sys.init name).execOrder
  | notAccepted h =>
      obtain ⟨socketUnits, htables⟩ := h.tables
      exact htables.execOrder
  | registered h => exact h.execOrder
  | closed _ h => exact h.execOrder

theorem Tracks.execOrder {sys sys' : System} {pid : Pid} {kind : ChildKind}
    (h : Tracks sys pid kind sys') : sys'.init.execOrder = sys.init.execOrder := by
  cases h with
  | started h => exact h.tables.execOrder
  | accepted h =>
      obtain ⟨socketUnits, htables⟩ := h.tables
      exact htables.execOrder

namespace ProgramEffect

variable {m m' : RunState} {a : RunAnswer}

theorem execOrder (h : ProgramEffect m a m') : m'.sys.init.execOrder = m.sys.init.execOrder := by
  cases h with
  | quiet sys chowned point hsys => exact hsys.execOrder
  | read signal sys shutdown point hpending hsys => exact hsys.execOrder
  | tracked pid kind sys point hsys => exact hsys.execOrder
  | reaped pid status sys hchild hexited hsys =>
      rw [hsys.tables.execOrder]
      simp only [recordExit, fireExitCallback_eq]
  | _ => rfl

/-- Without a child in hand at its end, a step has forked none. -/
theorem procs_subset (h : ProgramEffect m a m') (hhand : m'.point.inHand = none) {p : Pid}
    (hp : p ∈ m'.procs) : p ∈ m.procs := by
  cases h with
  | forked pid point hfresh hhand₀ hhand' => simp [hhand'] at hhand
  | waited pid status point hexited => exact (AList.mem_erase.mp hp).2
  | reaped pid status sys hchild hexited hsys => exact (AList.mem_erase.mp hp).2
  | _ => exact hp

end ProgramEffect

namespace RunState

variable {m m' : RunState}

theorem step_execOrder (hinv : RunInv m) {e : RunEvent} (h : m.step e = some m') :
    m'.sys.init.execOrder = m.sys.init.execOrder := by
  cases e with
  | exits pid status =>
      obtain ⟨-, rfl⟩ := exits_cases h
      rfl
  | adopts pid =>
      obtain ⟨-, -, rfl⟩ := adopts_cases h
      rfl
  | raises signal =>
      obtain rfl := Option.some.inj h
      rfl
  | program a => exact (programStep_effect hinv.will h).execOrder

theorem run_execOrder (hinv : RunInv m) {es : List RunEvent} (h : m.run es = some m') :
    RunInv m' ∧ m'.sys.init.execOrder = m.sys.init.execOrder := by
  let Inv (t : RunState) : Prop := RunInv t ∧ t.sys.init.execOrder = m.sys.init.execOrder
  have hstep : ∀ t e t', Inv t → t.step e = some t' → Inv t' := fun t e t' ht he =>
    ⟨ht.1.step he, (step_execOrder ht.1 he).trans ht.2⟩
  exact StepRun.run_invariant_of_step hstep (show Inv m from ⟨hinv, rfl⟩) h

/-! ## What is recorded -/

/-- The process a step of the stop loop sends `SIGTERM` to. -/
def sigterms (m : RunState) : RunEvent → List Pid
  | .program _ =>
      match m.point with
      | .stopping (name :: _) => (m.sys.init.signalUnit name).toList
      | _ => []
  | _ => []

/-- The children a step of the program forks. -/
def forks (m : RunState) : RunEvent → List Pid
  | .program a =>
      match m.programStep a with
      | some m' => m'.procs.keys.filter (fun pid => decide (pid ∉ m.procs))
      | none => []
  | _ => []

theorem forks_of_inShutdown (hinv : RunInv m) (hshut : m.point.inShutdown = true) (e : RunEvent) :
    m.forks e = [] := by
  cases e with
  | program a =>
      cases hstep : m.programStep a with
      | none => simp [forks, hstep]
      | some m' =>
          have hhand := RunPoint.inHand_of_inShutdown (inShutdown_step hshut hstep)
          have heffect := programStep_effect hinv.will hstep
          simp only [forks, hstep]
          refine List.filter_eq_nil_iff.mpr (fun p hp => ?_)
          simpa using heffect.procs_subset hhand hp
  | _ => rfl

theorem sigterms_of_afterStop (h : m.point.afterStop = true) (e : RunEvent) :
    m.sigterms e = [] := by
  cases e with
  | program a =>
      cases hpoint : m.point with
      | stopping rest => simp [hpoint, RunPoint.afterStop] at h
      | _ => simp [sigterms, hpoint]
  | _ => rfl

end RunState

/-! ## The stop loop -/

/-- The stop loop over `order` has sent `SIGTERM` to the processes `tr` of the table. -/
structure StopInv (order : List String) (table : UnorderedMap String Pid) (tr : List Pid)
    (m : RunState) : Prop where
  run : RunInv m
  shut : m.point.inShutdown = true
  stopping : ∀ rest, m.point = .stopping rest → m.sys.init.unitToPid = table ∧
    ∃ stopped, order = stopped ++ rest ∧ tr = stopped.filterMap (fun n => table.lookup n)
  stopped : m.point.afterStop = true → tr = order.filterMap (fun n => table.lookup n)

namespace StopInv

variable {order : List String} {table : UnorderedMap String Pid} {tr : List Pid}
  {m m' : RunState}

theorem enter (hinv : RunInv m) (hpoint : m.point = .stopping order) :
    StopInv order m.sys.init.unitToPid [] m where
  run := hinv
  shut := by rw [hpoint]; rfl
  stopping := by
    intro rest hrest
    rw [hpoint] at hrest
    obtain rfl := RunPoint.stopping.inj hrest
    exact ⟨rfl, [], rfl, rfl⟩
  stopped := by
    intro hafter
    simp [hpoint, RunPoint.afterStop] at hafter

/-- A step of the kernel. -/
theorem keep (h : StopInv order table tr m) (hinv : RunInv m') (hpoint : m'.point = m.point)
    (htable : m'.sys.init.unitToPid = m.sys.init.unitToPid) : StopInv order table tr m' where
  run := hinv
  shut := hpoint ▸ h.shut
  stopping := by
    rw [hpoint, htable]
    exact h.stopping
  stopped := by
    rw [hpoint]
    exact h.stopped

theorem program (h : StopInv order table tr m) {a : RunAnswer}
    (hstep : m.step (.program a) = some m') :
    StopInv order table (tr ++ m.sigterms (.program a)) m' := by
  have hinv := h.run.step hstep
  have hshut := RunState.inShutdown_step h.shut hstep
  cases hpoint : m.point with
  | stopping rest =>
      obtain ⟨htable, done, hdone, htr⟩ := h.stopping rest hpoint
      rcases RunState.stopping_cases hpoint hstep with ⟨rfl, rfl⟩ | ⟨name, rest', rfl, rfl⟩
      · -- The loop is over.
        refine ⟨hinv, hshut, ?_, ?_⟩
        · intro rest hrest
          nomatch hrest
        · intro _
          simpa [RunState.sigterms, hpoint, hdone] using htr
      · refine ⟨hinv, hshut, ?_, ?_⟩
        · intro rest hrest
          obtain rfl := RunPoint.stopping.inj hrest
          refine ⟨(stopUnit_spec m.sys.init name).unitToPid.trans htable, done ++ [name], ?_, ?_⟩
          · simp [hdone]
          · rw [List.filterMap_append, htr]
            simp only [RunState.sigterms, hpoint, InitSystem.signalUnit, htable]
            cases hlookup : table.lookup name <;> simp [hlookup]
        · intro hafter
          nomatch hafter
  | _ =>
      have hafter : m.point.afterStop = true := by
        simpa [hpoint, RunPoint.inShutdown] using h.shut
      have hafter' := RunState.afterStop_step hafter hstep
      rw [RunState.sigterms_of_afterStop hafter, List.append_nil]
      refine ⟨hinv, hshut, ?_, fun _ => h.stopped hafter⟩
      intro rest hrest
      simp [hrest, RunPoint.afterStop] at hafter'

theorem step (h : StopInv order table tr m) {e : RunEvent} (hstep : m.step e = some m') :
    StopInv order table (tr ++ m.sigterms e) m' := by
  have hinv := h.run.step hstep
  cases e with
  | program a => exact h.program hstep
  | exits pid status =>
      obtain ⟨-, rfl⟩ := RunState.exits_cases hstep
      simpa [RunState.sigterms] using h.keep hinv rfl rfl
  | adopts pid =>
      obtain ⟨-, -, rfl⟩ := RunState.adopts_cases hstep
      simpa [RunState.sigterms] using h.keep hinv rfl rfl
  | raises signal =>
      obtain rfl := Option.some.inj hstep
      simpa [RunState.sigterms] using h.keep hinv rfl rfl

end StopInv

/-- `SIGTERM` goes to the processes of `order`, in this order and to each of them once. -/
theorem StopInv.prefix_of {order : List String} {table : UnorderedMap String Pid} {tr : List Pid}
    {m : RunState} (h : StopInv order table tr m) :
    tr <+: order.filterMap (fun n => table.lookup n) := by
  cases hpoint : m.point with
  | stopping rest =>
      obtain ⟨-, done, hdone, rfl⟩ := h.stopping rest hpoint
      rw [hdone, List.filterMap_append]
      exact List.prefix_append _ _
  | _ =>
      have hafter : m.point.afterStop = true := by
        simpa [hpoint, RunPoint.inShutdown] using h.shut
      rw [h.stopped hafter]

theorem TableInv.nodup_filterMap {sys : System} (h : TableInv sys) {order : List String}
    (hnodup : order.Nodup) : (order.filterMap (fun n => sys.init.unitToPid.lookup n)).Nodup :=
  hnodup.filterMap (fun _ _ _ hn hn' => h.injective hn hn')

theorem StopInv.trace {order : List String} {table : UnorderedMap String Pid} {m m' : RunState}
    (h : StopInv order table [] m) {es : List RunEvent} (hrun : m.run es = some m') :
    StopInv order table (StepRun.trace RunState.step RunState.sigterms m es) m' ∧
      StepRun.trace RunState.step RunState.forks m es = [] := by
  have hall : StepRun.StepsMeet RunState.step (fun _ _ => True) m es :=
    StepRun.stepsMeet_of_forall m (fun _ _ => trivial)
  constructor
  · exact StepRun.run_history_invariant (fun _ _ => True) (StopInv order table)
      (fun _ _ _ _ hstop _ hstep => hstop.step hstep) h hall hrun
  · let Inv (tr : List Pid) (t : RunState) : Prop := tr = [] ∧ ∃ sent, StopInv order table sent t
    have hstep : ∀ tr t e t', Inv tr t → True → t.step e = some t' →
        Inv (tr ++ t.forks e) t' := by
      rintro _ t e t' ⟨rfl, sent, hstop⟩ - ht'
      exact ⟨RunState.forks_of_inShutdown hstop.run hstop.shut e, _, hstop.step ht'⟩
    exact (StepRun.run_history_invariant (fun _ _ => True) Inv hstep
      (show Inv [] m from ⟨rfl, [], h⟩) hall hrun).1

/-- Whatever has happened before the main loop ends: the stop loop signals no process twice, and the
process of a unit before the process of any unit it depends on; and until `run` returns no child is
forked. -/
theorem RunState.shutdown_stops_dependents_first (journal : Journal)
    (units : UnorderedMap String UnitFile) (fds : FdTable) (os : SocketBindAnswers)
    (inDegreeOrder : List String)
    (hiter : inDegreeOrder.Perm (DependencyGraph.build units).inDegree.keys)
    {es es' : List RunEvent} {a : RunAnswer} {m m' m'' : RunState}
    (hrun : (RunState.boot
      ((parsed journal units fds).boundAndResolved os inDegreeOrder)).run es = some m)
    (hloop : m.point.inShutdown = false) (hexit : m.step (.program a) = some m')
    (hshut : m'.point.inShutdown = true) (hrest : m'.run es' = some m'') :
    (StepRun.trace RunState.step sigterms m' es').Nodup ∧
    (∀ u d p q, u ∈ m'.sys.init.execOrder → d ∈ m'.sys.init.execOrder → DependsOn units u d →
      m'.sys.init.unitToPid.lookup u = some p → m'.sys.init.unitToPid.lookup d = some q →
      q ∈ StepRun.trace RunState.step sigterms m' es' →
      p ∈ StepRun.trace RunState.step sigterms m' es' ∧
        (StepRun.trace RunState.step sigterms m' es').idxOf p <
          (StepRun.trace RunState.step sigterms m' es').idxOf q) ∧
    (m''.point.afterStop = true → ∀ u p, u ∈ m'.sys.init.execOrder →
      m'.sys.init.unitToPid.lookup u = some p →
      p ∈ StepRun.trace RunState.step sigterms m' es') ∧
    StepRun.trace RunState.step forks m' es' = [] ∧
    m''.point.inShutdown = true := by
  have hboot := RunInv.boot (parsed_tableInv journal units fds os inDegreeOrder)
  have htables := boundAndResolved_tables (parsed journal units fds) os inDegreeOrder
  obtain ⟨hinv, horder⟩ := run_execOrder hboot hrun
  have hinv' := hinv.step hexit
  -- The order is the one of the boot.
  have horder' : m'.sys.init.execOrder = (resolveOrder units inDegreeOrder).order :=
    (step_execOrder hinv hexit).trans (horder.trans htables.execOrder)
  have henter : m'.point = .stopping m'.sys.init.execOrder.reverse := by
    refine (enters_shutdown hloop hexit).resolve_left ?_
    simp [hshut]
  obtain ⟨hstop, hforks⟩ := (StopInv.enter hinv' henter).trace hrest
  have hnodup : (m'.sys.init.execOrder.reverse.filterMap
      (fun n => m'.sys.init.unitToPid.lookup n)).Nodup := by
    refine hinv'.table.nodup_filterMap (List.nodup_reverse.mpr ?_)
    rw [horder']
    exact nodup_resolveOrder hiter
  refine ⟨hstop.prefix_of.sublist.nodup hnodup, ?_, ?_, hforks, hstop.shut⟩
  · intro u d p q hu hd hdep hp hq hsent
    have hbefore : m'.sys.init.execOrder.idxOf d < m'.sys.init.execOrder.idxOf u := by
      rw [horder'] at hu ⊢
      exact (resolveOrder_before hiter hu hdep).2
    exact Positions.mem_and_idxOf_lt_of_prefix hstop.prefix_of hsent
      (Positions.idxOf_filterMap_reverse hu hbefore hq hp hnodup)
  · intro hafter u p hu hp
    rw [hstop.stopped hafter]
    exact List.mem_filterMap.mpr ⟨u, List.mem_reverse.mpr hu, hp⟩

/-- A database, and a service that needs it. -/
def databaseUnits : UnorderedMap String UnitFile :=
  (∅ : UnorderedMap String UnitFile).insert "db.service"
      { name := "db.service"
        type := .service
        execStart := "/bin/db" }
    |>.insert "web.service"
      { name := "web.service"
        type := .service
        execStart := "/bin/web"
        after := ["db.service"] }

def databaseBoot : RunState :=
  RunState.boot ((parsed {} databaseUnits (fun _ => none)).boundAndResolved oneDescriptor
    ["web.service", "db.service"])

/-- Both services are started, and the main loop reads `SIGTERM`. -/
def databaseRun : List RunEvent :=
  [ .program {}
  , .program { forked := .ok 100 }
  , .program {}
  , .program {}
  , .program { forked := .ok 200 }
  , .program {}
  , .program {}
  , .raises .term
  , .program { polled := some [.signals] }
  , .program {}
  , .program { signal := some .term }
  , .program {}
  , .program {}
  , .program {} ]

theorem RunState.shutdown_stops_dependents_first_sample :
    ∃ m', databaseBoot.run (databaseRun ++ [.program {}]) = some m' ∧
      (StepRun.trace RunState.step sigterms m' [.program {}, .program {}]).Nodup ∧
      StepRun.trace RunState.step forks m' [.program {}, .program {}] = [] := by
  have hloop : (databaseBoot.run databaseRun).any (fun m => !m.point.inShutdown) = true := by
    decide +kernel
  have hexit : (databaseBoot.run (databaseRun ++ [.program {}])).any
      (fun m => m.point.inShutdown && (m.run [.program {}, .program {}]).isSome) = true := by
    decide +kernel
  obtain ⟨m, hm, hmloop⟩ := (Option.any_eq_true _ _).mp hloop
  obtain ⟨m', hm', hboth⟩ := (Option.any_eq_true _ _).mp hexit
  obtain ⟨hshut, hrest⟩ := (Bool.and_eq_true _ _).mp hboth
  obtain ⟨m'', hm''⟩ := Option.isSome_iff_exists.mp hrest
  obtain ⟨m₁, hm₁, hlast⟩ := StepRun.run_append_eq_some.mp hm'
  obtain rfl : m = m₁ := Option.some.inj (hm.symm.trans hm₁)
  have hall := RunState.shutdown_stops_dependents_first {} databaseUnits (fun _ => none)
    oneDescriptor ["web.service", "db.service"] (by decide) hm (by simpa using hmloop)
    (StepRun.run_singleton.mp hlast) hshut hm''
  exact ⟨m', hm', hall.1, hall.2.2.2.1⟩

end TrivialInit
