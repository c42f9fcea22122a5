import TrivialInit.Properties.ShutdownOrder

/-!
# StartOrder — a service is launched after the turn of its dependencies

`execute(UnitExecute)` gives every name of `exec_order_` its turn, one after the other, and the main
command of a service is forked and tracked within the turn of the service.  Between the two there
may be any number of `ExecStartPre` commands, exits and signals.
-/

namespace TrivialInit

open InitSystem

/-! ## What is recorded -/

/-- What `execute(UnitExecute)` does for a name. -/
inductive StartEvent
  /-- An iteration of its loop begins. -/
  | turn (name : String)
  /-- The main command has been forked, and is entered into the tables. -/
  | launched (name : String)
  deriving DecidableEq, Repr

namespace StartEvent

def turn? : StartEvent → Option String
  | turn name => some name
  | launched _ => none

def launched? : StartEvent → Option String
  | turn _ => none
  | launched name => some name

/-- The names that have had their turn. -/
def turns (tr : List StartEvent) : List String :=
  tr.filterMap turn?

/-- The services that have been launched. -/
def launches (tr : List StartEvent) : List String :=
  tr.filterMap launched?

@[simp] theorem turns_turn (tr : List StartEvent) (name : String) :
    turns (tr ++ [turn name]) = turns tr ++ [name] :=
  List.filterMap_append

@[simp] theorem turns_launched (tr : List StartEvent) (name : String) :
    turns (tr ++ [launched name]) = turns tr :=
  List.filterMap_append.trans (List.append_nil _)

@[simp] theorem launches_turn (tr : List StartEvent) (name : String) :
    launches (tr ++ [turn name]) = launches tr :=
  List.filterMap_append.trans (List.append_nil _)

@[simp] theorem launches_launched (tr : List StartEvent) (name : String) :
    launches (tr ++ [launched name]) = launches tr ++ [name] :=
  List.filterMap_append

theorem mem_turns {tr : List StartEvent} {name : String} : name ∈ turns tr ↔ turn name ∈ tr := by
  unfold turns
  rw [List.mem_filterMap]
  constructor
  · rintro ⟨e, he, hname⟩
    cases e with
    | turn n => exact Option.some.inj hname ▸ he
    | launched n => nomatch hname
  · intro hmem
    exact ⟨turn name, hmem, rfl⟩

/-- Every launch comes after the turns of the service and of its dependencies. -/
def Justified (units : UnorderedMap String UnitFile) (tr : List StartEvent) : Prop :=
  ∀ tr₁ name tr₂, tr = tr₁ ++ launched name :: tr₂ →
    turn name ∈ tr₁ ∧ ∀ d, DependsOn units name d → turn d ∈ tr₁

theorem Justified.concat {units : UnorderedMap String UnitFile} {tr : List StartEvent}
    (h : Justified units tr) {e : StartEvent}
    (he : ∀ name, e = launched name →
      turn name ∈ tr ∧ ∀ d, DependsOn units name d → turn d ∈ tr) :
    Justified units (tr ++ [e]) := by
  intro tr₁ name tr₂ heq
  rcases List.eq_nil_or_concat tr₂ with rfl | ⟨tr₂', e', rfl⟩
  · obtain ⟨rfl, hlast⟩ := List.append_inj' heq rfl
    exact he name (List.singleton_inj.mp hlast)
  · rw [List.concat_eq_append, ← List.cons_append, ← List.append_assoc] at heq
    exact h tr₁ name tr₂' (List.append_inj' heq rfl).1

end StartEvent

@[simp] theorem StartCall.waited_name (call : StartCall) (status : WaitStatus) :
    (call.waited status).name = call.name := by
  unfold StartCall.waited
  dsimp only
  split_ifs <;> rfl

/-- In `execute(UnitExecute)`: the unit whose turn is not over, if there is one, and the names to
come.  An exception leaves both as they were. -/
def RunPoint.executes : RunPoint → Option (List String × List String)
  | .executing rest => some ([], rest)
  | .starting call (.unitExecute rest) => some ([call.name], rest)
  | .waitingPre call _ (.unitExecute rest) => some ([call.name], rest)
  | .tracking call _ (.unitExecute rest) => some ([call.name], rest)
  | .terminated name (.unitExecute rest) => some ([name], rest)
  | _ => none

namespace RunState

/-- What a step of `execute(UnitExecute)` records. -/
def startEvents (m : RunState) : RunEvent → List StartEvent
  | .program _ =>
      match m.point with
      | .executing (name :: _) => [.turn name]
      | .tracking call _ (.unitExecute _) => [.launched call.name]
      | _ => []
  | _ => []

/-! ## The invariant -/

/-- The record `tr` of a run through the names `order`. -/
structure ExecuteInv (order : List String) (tr : List StartEvent) (m : RunState) : Prop where
  executing : ∀ current rest, m.point.executes = some (current, rest) →
    ∃ done, StartEvent.turns tr = done ++ current ∧ order = done ++ current ++ rest ∧
      (StartEvent.launches tr).Sublist done
  executed : m.point.executes = none → StartEvent.turns tr = order ∧
    (StartEvent.launches tr).Sublist order

namespace ExecuteInv

open StartEvent

variable {order : List String} {tr : List StartEvent} {m m' : RunState} {a : RunAnswer}

/-- Nothing is recorded on the way from one point of a turn to another one. -/
theorem keep (h : ExecuteInv order tr m) (hpoint : m'.point.executes = m.point.executes) :
    ExecuteInv order tr m' where
  executing := hpoint ▸ h.executing
  executed := hpoint ▸ h.executed

/-- A turn that is over. -/
theorem finished {rest : List String} (done : List String) (hturns : turns tr = done)
    (horder : order = done ++ rest) (hlaunches : (launches tr).Sublist done)
    (hpoint : m'.point.executes = some ([], rest)) : ExecuteInv order tr m' where
  executing := by
    intro current rest' heq
    obtain ⟨rfl, rfl⟩ := Prod.mk.inj (Option.some.inj (hpoint.symm.trans heq))
    exact ⟨done, by simp [hturns], by simp [horder], hlaunches⟩
  executed := by simp [hpoint]

/-- A turn that has begun. -/
theorem begun {name : String} {rest : List String} (h : ExecuteInv order tr m)
    (hpoint : m.point.executes = some ([], name :: rest))
    (hnext : m'.point.executes = some ([name], rest)) :
    ExecuteInv order (tr ++ [.turn name]) m' := by
  obtain ⟨done, hturns, horder, hlaunches⟩ := h.executing [] (name :: rest) hpoint
  refine ⟨fun current rest' heq => ?_, by simp [hnext]⟩
  obtain ⟨rfl, rfl⟩ := Prod.mk.inj (Option.some.inj (hnext.symm.trans heq))
  refine ⟨done, ?_, by simp [horder], ?_⟩
  · rw [turns_turn, hturns, List.append_nil]
  · rwa [launches_turn]

theorem program (h : ExecuteInv order tr m) (hstep : m.programStep a = some m') :
    ExecuteInv order (tr ++ m.startEvents (.program a)) m' := by
  have hcases := RunState.programStep_cases hstep
  unfold startEvents
  generalize hpoint : m.point = point at hcases
  cases hcases with
  | entersMainLoop =>
      -- No name is left, so all turns of the order have been given.
      obtain ⟨done, hturns, horder, hlaunches⟩ := h.executing [] [] (by rw [hpoint]; rfl)
      simp only [List.append_nil] at hturns horder ⊢
      exact ⟨nofun, fun _ => ⟨hturns.trans horder.symm, horder ▸ hlaunches⟩⟩
  | throwsCondition hthrows => exact h.begun (by rw [hpoint]; rfl) rfl
  | throwsStart hservice hthrows => exact h.begun (by rw [hpoint]; rfl) rfl
  | startsUnit hquiet hservice hcreated => exact h.begun (by rw [hpoint]; rfl) rfl
  | executesUnit hservice hsys =>
      rename_i name rest sys
      obtain ⟨done, hturns, horder, hlaunches⟩ := h.executing [] (name :: rest) (by rw [hpoint]; rfl)
      -- The turn begins and ends in this step, without a launch.
      refine finished (done ++ [name]) ?_ (by simp [horder]) ?_ rfl
      · rw [turns_turn, hturns, List.append_nil]
      · rw [launches_turn]
        exact hlaunches.trans (List.sublist_append_left done [name])
  | @notStarted call back sys s htodo hstart hsys =>
      simp only [List.append_nil]
      cases back with
      | unitExecute rest =>
          obtain ⟨done, hturns, horder, hlaunches⟩ :=
            h.executing [call.name] rest (by rw [hpoint]; rfl)
          exact finished (done ++ [call.name]) hturns horder
            (hlaunches.trans (List.sublist_append_left _ _)) rfl
      | processRestarts rest => exact h.keep (by rw [hpoint]; rfl)
  | tracks hsys =>
      rename_i call pid back sys
      cases back with
      | unitExecute rest =>
          obtain ⟨done, hturns, horder, hlaunches⟩ :=
            h.executing [call.name] rest (by rw [hpoint]; rfl)
          -- The launch is recorded when the child is tracked; its turn has begun before.
          refine finished (done ++ [call.name]) ?_ horder ?_ rfl
          · rw [turns_launched, hturns]
          · rw [launches_launched]
            exact hlaunches.append (List.Sublist.refl [call.name])
      | processRestarts rest =>
          simp only [List.append_nil]
          exact h.keep (by rw [hpoint]; rfl)
  | skipsPre htodo =>
      rename_i call back
      simp only [List.append_nil]
      exact h.keep (by cases back <;> simp [hpoint, RunPoint.executes, StartCall.answered])
  | forksPre htodo hforked hfresh =>
      rename_i call back pid
      simp only [List.append_nil]
      exact h.keep (by cases back <;> simp [hpoint, RunPoint.executes])
  | @forksMain call back pid s htodo hstart hfresh =>
      simp only [List.append_nil]
      exact h.keep (by cases back <;> simp [hpoint, RunPoint.executes])
  | waitsPre hexited =>
      rename_i call pid back status
      simp only [List.append_nil]
      exact h.keep (by cases back <;> simp [hpoint, RunPoint.executes])
  | leavesMainLoop hshut =>
      simp only [List.append_nil]
      exact h.keep (by rw [hpoint]; rfl)
  | quits hquit =>
      simp only [List.append_nil]
      exact h.keep (by rw [hpoint]; rfl)
  | _ =>
      simp only [List.append_nil]
      exact h.keep (by simp [hpoint, RunPoint.executes])

theorem step (h : ExecuteInv order tr m) {e : RunEvent} (hstep : m.step e = some m') :
    ExecuteInv order (tr ++ m.startEvents e) m' := by
  cases e with
  | program a => exact h.program hstep
  | exits pid status =>
      obtain ⟨-, rfl⟩ := exits_cases hstep
      exact (List.append_nil tr).symm ▸ h.keep rfl
  | adopts pid =>
      obtain ⟨-, -, rfl⟩ := adopts_cases hstep
      exact (List.append_nil tr).symm ▸ h.keep rfl
  | raises signal =>
      obtain rfl := Option.some.inj hstep
      exact (List.append_nil tr).symm ▸ h.keep rfl

/-- At a launch the service has just had its turn, and in the order its dependencies come first. -/
theorem justified (h : ExecuteInv order tr m) {units : UnorderedMap String UnitFile}
    (hbefore : ∀ u d, u ∈ order → DependsOn units u d → d ∈ order ∧ order.idxOf d < order.idxOf u)
    (hjust : Justified units tr) (e : RunEvent) : Justified units (tr ++ m.startEvents e) := by
  have hnone : m.startEvents e = [] → Justified units (tr ++ m.startEvents e) := by
    intro hnone
    rwa [hnone, List.append_nil]
  cases e with
  | program a =>
      cases hpoint : m.point with
      | executing rest =>
          cases rest with
          | nil => exact hnone (by simp [startEvents, hpoint])
          | cons name rest =>
              simp only [startEvents, hpoint]
              exact hjust.concat (fun launched heq => by cases heq)
      | tracking call pid back =>
          cases back with
          | processRestarts rest => exact hnone (by simp [startEvents, hpoint])
          | unitExecute rest =>
              simp only [startEvents, hpoint]
              refine hjust.concat (fun name hname => ?_)
              obtain rfl := StartEvent.launched.inj hname
              obtain ⟨done, hturns, horder, -⟩ :=
                h.executing [call.name] rest (by rw [hpoint]; rfl)
              have hpre : turns tr <+: order := ⟨rest, by rw [hturns, horder]⟩
              have hmem : call.name ∈ turns tr := by simp [hturns]
              refine ⟨mem_turns.mp hmem, fun d hdep => mem_turns.mp ?_⟩
              have hlt := (hbefore call.name d (hpre.subset hmem) hdep).2
              exact (Positions.mem_and_idxOf_lt_of_prefix hpre hmem hlt).1
      | _ => exact hnone (by simp [startEvents, hpoint])
  | _ => exact hnone rfl

end ExecuteInv

/-- In every run, `execute(UnitExecute)` gives the names of `exec_order_` their turns in order, all of
them before the main loop; it launches a service at most once; and every launch comes after the turn
of the service and the turns of all its dependencies. -/
theorem start_order (journal : Journal) (units : UnorderedMap String UnitFile) (fds : FdTable)
    (os : SocketBindAnswers) (inDegreeOrder : List String)
    (hiter : inDegreeOrder.Perm (DependencyGraph.build units).inDegree.keys)
    {es : List RunEvent} {m : RunState}
    (hrun : (RunState.boot
      ((parsed journal units fds).boundAndResolved os inDegreeOrder)).run es = some m)
    {tr : List StartEvent} (htr : tr = StepRun.trace RunState.step startEvents (RunState.boot
      ((parsed journal units fds).boundAndResolved os inDegreeOrder)) es) :
    StartEvent.turns tr <+: (resolveOrder units inDegreeOrder).order ∧
    (m.point.executes = none →
      StartEvent.turns tr = (resolveOrder units inDegreeOrder).order) ∧
    (StartEvent.launches tr).Sublist (resolveOrder units inDegreeOrder).order ∧
    (StartEvent.launches tr).Nodup ∧
    StartEvent.Justified units tr := by
  have horder : ((parsed journal units fds).boundAndResolved os inDegreeOrder).execOrder =
      (resolveOrder units inDegreeOrder).order :=
    (boundAndResolved_tables (parsed journal units fds) os inDegreeOrder).execOrder
  have hnodup := nodup_resolveOrder hiter
  have hbefore := fun u d hu hdep => resolveOrder_before hiter (v := u) (d := d) hu hdep
  generalize (parsed journal units fds).boundAndResolved os inDegreeOrder = s at *
  generalize (resolveOrder units inDegreeOrder).order = order at *
  have hstart : ExecuteInv order [] (RunState.boot s) := by
    refine ⟨fun current rest heq => ?_, nofun⟩
    obtain ⟨rfl, rfl⟩ := Prod.mk.inj (Option.some.inj heq)
    exact ⟨[], rfl, horder.symm, List.nil_sublist _⟩
  have hinv := StepRun.run_history_of_step
    (fun tr t => ExecuteInv order tr t ∧ StartEvent.Justified units tr)
    (fun tr t e t' h hstep => ⟨h.1.step hstep, h.1.justified hbefore h.2 e⟩)
    ⟨hstart, fun tr₁ name tr₂ heq => by simp at heq⟩ hrun
  rw [← htr] at hinv
  obtain ⟨hexec, hjust⟩ := hinv
  have hboth : StartEvent.turns tr <+: order ∧ (StartEvent.launches tr).Sublist order := by
    cases hpoint : m.point.executes with
    | none =>
        obtain ⟨hturns, hlaunches⟩ := hexec.executed hpoint
        exact ⟨hturns ▸ List.prefix_rfl, hlaunches⟩
    | some place =>
        obtain ⟨current, rest⟩ := place
        obtain ⟨done, hturns, rfl, hlaunches⟩ := hexec.executing current rest hpoint
        refine ⟨⟨rest, by rw [hturns]⟩, hlaunches.trans ?_⟩
        rw [List.append_assoc]
        exact List.sublist_append_left _ _
  exact ⟨hboth.1, fun hpoint => (hexec.executed hpoint).1, hboth.2, hboth.2.nodup hnodup, hjust⟩

theorem start_order_sample :
    StepRun.trace RunState.step startEvents databaseBoot databaseRun =
        [.turn "db.service", .launched "db.service", .turn "web.service",
          .launched "web.service"] ∧
      StartEvent.Justified databaseUnits
        (StepRun.trace RunState.step startEvents databaseBoot databaseRun) := by
  have hsome : (databaseBoot.run databaseRun).isSome = true := by decide +kernel
  obtain ⟨m, hrun⟩ := Option.isSome_iff_exists.mp hsome
  refine ⟨by decide +kernel, ?_⟩
  exact (start_order {} databaseUnits (fun _ => none) oneDescriptor
    ["web.service", "db.service"] (by decide) hrun rfl).2.2.2.2

end RunState

end TrivialInit
