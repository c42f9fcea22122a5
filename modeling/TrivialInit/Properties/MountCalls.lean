import TrivialInit.Properties.EarlyMounts

/-!
# MountCalls — what the program mounts and unmounts, in one line

The calls that set up and undo the mounts of a whole run come in three groups: those of
`execute(EarlyMount)`, those of `start_mount` for the mount units in the order of `exec_order_`, and
those of `execute(Shutdown)`.  The invariant reads the groups off the place in the program; the main
loop has a share in none of them.
-/

namespace TrivialInit

open InitSystem (SameButJournal)

/-! ## Turns to come -/

/-- The names whose turn in `execute(UnitExecute)` is to come. -/
def RunPoint.ahead (point : RunPoint) : List String :=
  point.executes.elim [] Prod.snd

namespace RunState

variable {r r' : RunState}

theorem ahead_program {a : RunAnswer} (h : r.programStep a = some r') :
    r.point.ahead = StartEvent.turns (r.startEvents (.program a)) ++ r'.point.ahead := by
  have hcases := programStep_cases h
  unfold startEvents
  generalize hpoint : r.point = point at hcases
  cases hcases with
  | startsUnit hservice => rfl
  | executesUnit hservice hsys => rfl
  -- A call of `start_service` goes back to the loop it has come from.
  | @notStarted call back sys s htodo hstart hsys => cases back <;> rfl
  | @tracks call pid back sys hsys => cases back <;> rfl
  | @skipsPre call back htodo => cases back <;> rfl
  | @forksPre call back pid htodo hforked hfresh => cases back <;> rfl
  | @forksMain call back pid s htodo hstart hfresh => cases back <;> rfl
  | @waitsPre call pid back status hexited => cases back <;> rfl
  | readsShutdown hpending hsignal =>
      rw [hpoint]
      rfl
  | readsUsr1 hpending =>
      rw [hpoint]
      rfl
  | reaps hchild hexited hsys =>
      rw [hpoint]
      rfl
  | _ => rfl

/-- A step takes a name from those to come exactly when it gives the name its turn. -/
theorem ahead_step {e : RunEvent} (h : r.step e = some r') :
    r.point.ahead = StartEvent.turns (r.startEvents e) ++ r'.point.ahead := by
  cases e with
  | program a => exact ahead_program h
  | exits pid status =>
      obtain ⟨-, rfl⟩ := exits_cases h
      rfl
  | adopts pid =>
      obtain ⟨-, -, rfl⟩ := adopts_cases h
      rfl
  | raises signal =>
      obtain rfl := Option.some.inj h
      rfl

end RunState

/-! ## Mount units -/

/-- `name` is a mount unit that says what to mount, and where. -/
structure IsMountUnit (s : InitSystem) (name : String) (unit : UnitFile) : Prop where
  found : s.findUnit name = some unit
  type : unit.type = .mount
  what : unit.what ≠ ""
  where_ : unit.where ≠ ""

namespace MainState

variable {pid : Pid} {noTui : Bool} {tr : List FsCall} {m m' : MainState}

theorem unitToMount_cases {s : InitSystem} {a : RunAnswer} {name : String} {unit : UnitFile}
    (h : unitToMount s a name = some unit) : IsMountUnit s name unit := by
  unfold unitToMount at h
  split at h
  · cases h
  · rename_i found hfound
    obtain ⟨-, h⟩ := Option.ite_none_left_eq_some.mp h
    split at h
    · cases h
    · cases h
    · obtain ⟨⟨htype, hwhat, hwhere, -⟩, hunit⟩ := Option.ite_none_right_eq_some.mp h
      obtain rfl := Option.some.inj hunit
      exact ⟨hfound, htype, hwhat, hwhere⟩

/-- A unit is mounted when it has its turn. -/
theorem mountUnit_cases {r : RunState} (hpoint : m.point = .running r) {a : RunAnswer}
    {unit : UnitFile} (h : m.mountUnit a = some unit) :
    ∃ name, StartEvent.turns (r.startEvents (.program a)) = [name] ∧
      IsMountUnit r.sys.init name unit := by
  unfold mountUnit at h
  rw [hpoint] at h
  dsimp only at h
  split at h
  · rename_i name rest hexecuting
    refine ⟨name, ?_, unitToMount_cases h⟩
    unfold RunState.startEvents
    rw [hexecuting]
    rfl
  · cases h

end MainState

/-! ## The invariant -/

/-- The calls of `execute(EarlyMount)`; `made` as for `makeRuntimeDirs`. -/
def bootCalls (made : String → Bool) : List FsCall :=
  kEarlyMounts.flatMap MountPoint.calls ++ devLinks ++ makeRuntimeDirs made

/-- The calls of a whole run that has mounted the units `units`. -/
def runCalls (made : String → Bool) (units : List UnitFile) (mounted : List String) :
    List FsCall :=
  bootCalls made ++ units.flatMap MainState.startMountCalls ++ mounted.reverse.map FsCall.umount2

/-- The calls `tr` are those of the first phase, those for some mount units, and an unmount for each
of the places `gone`; the names of the units come before `ahead` in `exec_order_`. -/
def UnitsMounted (tr : List FsCall) (s : InitSystem) (ahead gone : List String) : Prop :=
  ∃ (made : String → Bool) (names : List String) (units : List UnitFile),
    List.Forall₂ (IsMountUnit s) names units ∧ (names ++ ahead).Sublist s.execOrder ∧
      tr = bootCalls made ++ units.flatMap MainState.startMountCalls ++ gone.map FsCall.umount2

/-- What has been called when the program is at a place; an exception in `execute(UnitDiscovery)` comes
behind the first group. -/
def Called (tr : List FsCall) (mounted : List String) : MainPoint → Prop
  | .earlyMount _ todo => ∃ done, kEarlyMounts = done ++ todo ∧ tr = done.flatMap MountPoint.calls
  | .running r => UnitsMounted tr r.sys.init r.point.ahead []
  | .unmounting s todo => ∃ gone, mounted.reverse = gone ++ todo ∧ UnitsMounted tr s [] gone
  | .returned s code =>
      code = 0 ∧ UnitsMounted tr s [] mounted.reverse ∨ code = 1 ∧ ∃ made, tr <+: bootCalls made
  | _ => ∃ made, tr = bootCalls made

namespace UnitsMounted

variable {tr : List FsCall} {s s' : InitSystem} {ahead gone : List String}

/-- The units and their order are all that counts. -/
theorem congr (h : UnitsMounted tr s ahead gone) (hunits : s'.units = s.units)
    (horder : s'.execOrder = s.execOrder) : UnitsMounted tr s' ahead gone := by
  obtain ⟨made, names, units, hnames, hsub, htr⟩ := h
  refine ⟨made, names, units, hnames.imp (fun name unit hunit => ?_), horder ▸ hsub, htr⟩
  refine ⟨?_, hunit.type, hunit.what, hunit.where_⟩
  unfold InitSystem.findUnit
  rw [hunits]
  exact hunit.found

theorem same (h : UnitsMounted tr s ahead gone) (hs : SameButJournal s s') :
    UnitsMounted tr s' ahead gone := by
  obtain ⟨journal, rfl⟩ := hs
  exact h.congr rfl rfl

/-- A name that has had its turn, with the unit it has mounted, if any. -/
theorem turn {turns rest : List String} (unit : Option UnitFile)
    (h : UnitsMounted tr s (turns ++ rest) [])
    (hunit : ∀ u ∈ unit, ∃ name, turns = [name] ∧ IsMountUnit s name u) :
    UnitsMounted (tr ++ unit.toList.flatMap MainState.startMountCalls) s rest [] := by
  obtain ⟨made, names, units, hnames, hsub, rfl⟩ := h
  cases unit with
  | none =>
      refine ⟨made, names, units, hnames, ?_, by simp⟩
      exact (List.Sublist.append_left (List.sublist_append_right turns rest) names).trans hsub
  | some u =>
      obtain ⟨name, rfl, hu⟩ := hunit u rfl
      refine ⟨made, names ++ [name], units ++ [u], ?_, ?_, by simp⟩
      · exact List.rel_append hnames (.cons hu .nil)
      · rwa [List.append_assoc]

/-- One more unmount. -/
theorem unmount (h : UnitsMounted tr s [] gone) (target : String) :
    UnitsMounted (tr ++ [.umount2 target]) s [] (gone ++ [target]) := by
  obtain ⟨made, names, units, hnames, hsub, rfl⟩ := h
  exact ⟨made, names, units, hnames, hsub, by simp⟩

end UnitsMounted

namespace MainState

variable {pid : Pid} {noTui : Bool} {trace : List MainEvent} {keys : List Key} {tr : List FsCall}
  {m m' : MainState}

/-- A step of `RunState` that the main program takes over. -/
theorem called_running {r r' : RunState} {e e' : RunEvent} {os : TuiAnswers}
    (hcalled : UnitsMounted tr r.sys.init r.point.ahead []) (hpoint : m.point = .running r)
    (hran : Ran pid noTui trace keys (.running r)) (hr : r.step e' = some r')
    (hcalls : m.mountingCalls (.runs e os) = m.mountingCalls (.runs e' os)) :
    UnitsMounted (tr ++ m.mountingCalls (.runs e os)) r'.sys.init r'.point.ahead [] := by
  obtain ⟨hunits, horder⟩ := hran.loaded_step hr
  rw [RunState.ahead_step hr] at hcalled
  rw [hcalls]
  refine UnitsMounted.congr ?_ hunits horder
  cases e' with
  | program a => exact UnitsMounted.turn _ hcalled (fun unit hunit => mountUnit_cases hpoint hunit)
  | exits pid status => exact UnitsMounted.turn none hcalled (by simp)
  | adopts pid => exact UnitsMounted.turn none hcalled (by simp)
  | raises signal => exact UnitsMounted.turn none hcalled (by simp)

theorem called_step {point : MainPoint} (hcalled : Called tr m.mounted point)
    (hpoint : m.point = point) (hexplained : Explained pid noTui trace keys point) {e : MainEvent}
    (hstep : MainStep m point e m') : Called (tr ++ m.mountingCalls e) m'.mounted m'.point := by
  -- Most steps call nothing.
  have hnone : m.mountingCalls e = [] → ∀ {mounted' : List String} {point' : MainPoint},
      Called tr mounted' point' → Called (tr ++ m.mountingCalls e) mounted' point' := by
    intro hnone mounted' point' hcalled
    rwa [hnone, List.append_nil]
  cases hstep with
  | @mountsEarly s mp rest errno hok hbusy s' hs' =>
      obtain ⟨done, hdone, rfl⟩ := hcalled
      refine ⟨done ++ [mp], by simp [hdone], ?_⟩
      simp [mountingCalls, hpoint]
  | @skipsEarly s mp rest reason hproc s' hs' =>
      obtain ⟨done, hdone, rfl⟩ := hcalled
      refine ⟨done ++ [mp], by simp [hdone], ?_⟩
      simp [mountingCalls, hpoint]
  | @failsEarly s mp rest reason hproc s' =>
      obtain ⟨done, hdone, rfl⟩ := hcalled
      -- The rest of the table is not mounted.
      refine Or.inr ⟨rfl, fun _ => true, ?_⟩
      have hcalls : m.mountingCalls (.mountsEarly (some (.other reason))) = mp.calls := by
        simp [mountingCalls, hpoint]
      have hboot : bootCalls (fun _ => true) =
          (done.flatMap MountPoint.calls ++ mp.calls) ++
            (rest.flatMap MountPoint.calls ++ devLinks ++ makeRuntimeDirs (fun _ => true)) := by
        rw [bootCalls, hdone]
        simp
      rw [hcalls, hboot]
      exact List.prefix_append _ _
  | @makesRuntimeDirs s made =>
      obtain ⟨done, hdone, rfl⟩ := hcalled
      rw [List.append_nil] at hdone
      refine ⟨made, ?_⟩
      rw [bootCalls, hdone, List.append_assoc]
      rfl
  | setsUpSignals s' hs' => exact hnone rfl hcalled
  | failsSignals s' =>
      obtain ⟨made, rfl⟩ := hcalled
      exact hnone rfl (Or.inr ⟨rfl, made, List.prefix_rfl⟩)
  | discoversUnits hscan => exact hnone rfl hcalled
  | throwsDiscovery hscan => exact hnone rfl hcalled
  | parsesUnits => exact hnone rfl hcalled
  | bindsSockets => exact hnone rfl hcalled
  | resolvesDependencies =>
      obtain ⟨made, rfl⟩ := hcalled
      exact hnone rfl ⟨made, [], [], .nil, List.Sublist.refl _, by simp⟩
  | kernel hkernel hr => exact called_running hcalled hpoint hexplained hr rfl
  | @entersMainLoop r a os hplace s hs =>
      have hcalls : m.mountingCalls (.runs (.program a) os) = [] := by
        simp [mountingCalls, mountUnit, hpoint, hplace]
      have hregistered : UnitsMounted tr r.sys.init.registerAcceptSockets r.point.ahead [] :=
        hcalled.congr rfl rfl
      have hnext := hregistered.same hs
      rw [hplace] at hnext
      exact hnone hcalls hnext
  | @ticks r r' a os hplace frame goesOn tui htick quit hquit hr =>
      have hr' : r.step (.program { a with quit := quit }) = some r' := hr
      refine called_running hcalled hpoint hexplained hr' ?_
      -- At the end of an iteration there is no unit to mount.
      simp [mountingCalls, mountUnit, hpoint, hplace]
  | @plain r r' a os hplain hr tui htui =>
      have hr' : r.step (.program a) = some r' := hr
      exact called_running hcalled hpoint hexplained hr' rfl
  | @closesSockets r a os hplace s hs =>
      have hcalls : m.mountingCalls (.runs (.program a) os) = [] := by
        simp [mountingCalls, mountUnit, hpoint, hplace]
      have hclosed : UnitsMounted tr r.sys.init.closeAllSockets.1 r.point.ahead [] :=
        hcalled.congr rfl rfl
      have hnext := hclosed.same hs
      rw [hplace] at hnext
      exact hnone hcalls ⟨[], rfl, hnext⟩
  | @unmounts s target rest mounts hmounts =>
      obtain ⟨gone, hgone, hnext⟩ := hcalled
      refine ⟨gone ++ [target], by simp [hgone], ?_⟩
      simpa [mountingCalls, hpoint] using hnext.unmount target
  | @failsUnmount s target rest reason hmounts s' hs' =>
      obtain ⟨gone, hgone, hnext⟩ := hcalled
      refine ⟨gone ++ [target], by simp [hgone], ?_⟩
      simpa [mountingCalls, hpoint] using (hnext.same hs').unmount target
  | returns =>
      obtain ⟨gone, hgone, hnext⟩ := hcalled
      rw [List.append_nil] at hgone
      exact hnone rfl (Or.inl ⟨rfl, hgone ▸ hnext.same ((SameButJournal.refl _).log _ _ _)⟩)
  | otherMounts => exact hnone rfl (hpoint ▸ hcalled)
  | otherUnmounts hmounts => exact hnone rfl (hpoint ▸ hcalled)

/-- The calls so far, and how they came about. -/
structure CallsInv (pid : Pid) (noTui : Bool) (tr : List FsCall) (m : MainState) : Prop where
  called : Called tr m.mounted m.point
  recorded : Recorded m
  main : ∃ trace keys, MainInv pid noTui trace keys m

theorem CallsInv.step (h : CallsInv pid noTui tr m) {e : MainEvent} (hstep : m.step e = some m') :
    CallsInv pid noTui (tr ++ m.mountingCalls e) m' := by
  obtain ⟨trace, keys, hmain⟩ := h.main
  have hmain' := mainInv_step hmain hstep
  obtain ⟨m₁, mounts, hm₁, rfl, -⟩ := step_cases hstep
  exact
    { called := (called_step h.called rfl hmain.explained hm₁ :
        Called (tr ++ m.mountingCalls e) m₁.mounted m₁.point)
      recorded := (h.recorded.step rfl hm₁ : Recorded m₁)
      main := ⟨_, _, hmain'⟩ }

/-- What the calls so far say about a whole run. -/
structure Summary (tr : List FsCall) (m : MainState) (made : String → Bool) (names : List String)
    (units : List UnitFile) : Prop where
  mountUnits : List.Forall₂ (IsMountUnit m.point.object) names units
  ordered : names.Sublist m.point.object.execOrder
  part : tr <+: runCalls made units m.mounted
  whole : m.point.exitCode = some 0 → tr = runCalls made units m.mounted
  failed : m.point.exitCode = some 1 → tr <+: bootCalls made

theorem Summary.early {made : String → Bool} (hpart : tr <+: bootCalls made)
    (hcode : m.point.exitCode ≠ some 0) : Summary tr m made [] [] where
  mountUnits := .nil
  ordered := List.nil_sublist _
  part := by
    refine hpart.trans ?_
    rw [runCalls, List.append_assoc]
    exact List.prefix_append _ _
  whole := fun hzero => absurd hzero hcode
  failed := fun _ => hpart

theorem unitsMounted_summary (ahead gone : List String)
    (h : UnitsMounted tr m.point.object ahead gone) (hgone : gone <+: m.mounted.reverse)
    (hcode : m.point.exitCode ≠ some 1)
    (hall : m.point.exitCode = some 0 → gone = m.mounted.reverse) :
    ∃ made names units, Summary tr m made names units := by
  obtain ⟨made, names, units, hnames, hsub, rfl⟩ := h
  refine ⟨made, names, units, hnames, (List.sublist_append_left _ _).trans hsub, ?_, ?_, ?_⟩
  · exact (List.prefix_append_right_inj _).mpr (hgone.map _)
  · intro hzero
    rw [hall hzero]
    rfl
  · exact fun hone => absurd hone hcode

theorem CallsInv.summary (h : CallsInv pid noTui tr m) :
    ∃ made names units, Summary tr m made names units := by
  have hcalled := h.called
  cases hpoint : m.point with
  | earlyMount s todo =>
      rw [hpoint] at hcalled
      obtain ⟨done, hdone, rfl⟩ := hcalled
      refine ⟨fun _ => true, [], [], .early ?_ (by simp [hpoint, MainPoint.exitCode])⟩
      rw [bootCalls, hdone, List.flatMap_append, List.append_assoc, List.append_assoc]
      exact List.prefix_append _ _
  | running r =>
      rw [hpoint] at hcalled
      refine unitsMounted_summary r.point.ahead [] ?_ List.nil_prefix ?_ ?_
      · rw [hpoint]
        exact hcalled
      all_goals simp [hpoint, MainPoint.exitCode]
  | unmounting s todo =>
      rw [hpoint] at hcalled
      obtain ⟨gone, hgone, hcalled⟩ := hcalled
      refine unitsMounted_summary [] gone ?_ ⟨todo, hgone.symm⟩ ?_ ?_
      · rw [hpoint]
        exact hcalled
      all_goals simp [hpoint, MainPoint.exitCode]
  | returned s code =>
      rw [hpoint] at hcalled
      rcases hcalled with ⟨rfl, hcalled⟩ | ⟨rfl, made, hpart⟩
      · refine unitsMounted_summary [] m.mounted.reverse ?_ List.prefix_rfl ?_
          (fun _ => rfl)
        · rw [hpoint]
          exact hcalled
        · simp [hpoint, MainPoint.exitCode]
      · exact ⟨made, [], [], .early hpart (by simp [hpoint, MainPoint.exitCode])⟩
  | _ =>
      rw [hpoint] at hcalled
      obtain ⟨made, rfl⟩ := hcalled
      exact ⟨made, [], [], .early List.prefix_rfl (by simp [hpoint, MainPoint.exitCode])⟩

/-- In every run the calls of `execute(EarlyMount)`, `start_mount` and `execute(Shutdown)` are a part
of these, in this order: the early mounts, the links and the runtime directories; the mount units, in
the order of `exec_order_`; the unmounts of what `mounted_` holds, the last one first.  When `run`
returns 0, they are all of these; when it fails, none of the second and third group is among them. -/
theorem mounting_calls {mounts : List String} {fds : FdTable} {es : List MainEvent}
    (hrun : (start pid noTui mounts fds).run es = some m) :
    m.mounted.Sublist earlyTargets ∧
      ∃ (made : String → Bool) (names : List String) (units : List UnitFile),
        Summary (StepRun.trace step mountingCalls (start pid noTui mounts fds) es) m made names
          units := by
  have hstart : CallsInv pid noTui [] (start pid noTui mounts fds) :=
    { called := ⟨[], rfl, rfl⟩
      recorded := .start pid noTui mounts fds
      main := ⟨[], [], mainInv_start pid noTui mounts fds⟩ }
  have hinv := StepRun.run_history_of_step (CallsInv pid noTui)
    (fun _ _ _ _ h hstep => h.step hstep) hstart hrun
  exact ⟨hinv.recorded.sublist, hinv.summary⟩

/-- A machine with one mount unit. -/
theorem mounting_calls_sample :
    ∃ (m : MainState) (made : String → Bool) (units : List UnitFile),
      (start 7 false [] (fun _ => none)).run (srvRun ++ srvStop) = some m ∧
        StepRun.trace step mountingCalls (start 7 false [] (fun _ => none)) (srvRun ++ srvStop) =
          runCalls made units m.mounted := by
  have hsome : ((start 7 false [] (fun _ => none)).run (srvRun ++ srvStop)).any
      (fun m => decide (m.point.exitCode = some 0)) = true := by
    decide +kernel
  obtain ⟨m, hm, hreturned⟩ := (Option.any_eq_true _ _).mp hsome
  obtain ⟨-, made, names, units, hsummary⟩ := mounting_calls hm
  exact ⟨m, made, units, hm, hsummary.whole (of_decide_eq_true hreturned)⟩

end MainState

end TrivialInit
