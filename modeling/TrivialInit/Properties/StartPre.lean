import TrivialInit.Properties.ForkCalls

/-!
# StartPre — `ExecStartPre` before `ExecStart`

`start_service` runs its `ExecStartPre` commands one after the other and stops at the first one that
fails.  A command *gates* the service when its failure is not ignored.  The loop only looks at the
exit code of a command it has waited for, so a command that could not be forked, or whose exit could
not be waited for, counts as a success.
-/

namespace TrivialInit

section

variable (info : SystemInfo) (ctx : SpecifierContext)

/-- A command with at least one word and without a leading `-`. -/
def Gates (preCmd : String) : Prop :=
  (stripDash preCmd).1 = false ∧ (commandWords info ctx (stripDash preCmd).2).isSome = true

instance : DecidablePred (Gates info ctx) :=
  fun _ => inferInstanceAs (Decidable (_ ∧ _))

/-- The gating commands of a list. -/
def gating (cmds : List String) : List String :=
  cmds.filter (fun preCmd => decide (Gates info ctx preCmd))

/-- Is there something to run behind the `ExecStartPre` commands? -/
def HasCommand (unit : UnitFile) : Prop :=
  unit.execStart ≠ "" ∧ (commandWords info ctx (stripDash unit.execStart).2).isSome = true

end

/-- Does the answer stop the loop? -/
def Stops (preCmd : String) : PreAnswer → Prop
  | .forkFailed => False
  | .waited st => preExitCode st ≠ 0 ∧ (stripDash preCmd).1 = false

/-- The line of a command that has been run and has been seen to exit with status 0. -/
def ForkCall.succeeded? : ForkCall → Option String
  | .startPre preCmd _ answer =>
      if answer = .waited (some (.exited 0)) then some preCmd else none
  | .spawn _ _ => none

/-- Before `spawn` or `spawn_with_socket_fds` is reached, all these commands have been run in their
order, and each of them has been seen to exit with status 0. -/
def RunFirst (cmds : List String) (calls : List ForkCall) : Prop :=
  ∀ before child answer after, calls = before ++ .spawn child answer :: after →
    cmds.Sublist (before.filterMap ForkCall.succeeded?)

variable {info : SystemInfo} {ctx : SpecifierContext}

-- Unfolding the loops would otherwise unfold the text of the command as well.
attribute [local irreducible] stripDash

/-! ## The end of the loop -/

open InitSystem (startPreCode startPreCalls startPreCode_cons startPreCalls_cons startedCommand)

theorem startPreCode_cons_eq_none_iff (preCmd : String) (rest : List String)
    (os : Nat → PreAnswer) :
    startPreCode info ctx (preCmd :: rest) os = none ↔
      ((commandWords info ctx (stripDash preCmd).2).isSome = true → ¬ Stops preCmd (os 0)) ∧
        startPreCode info ctx rest (fun j => os (j + 1)) = none := by
  rw [startPreCode_cons]
  cases commandWords info ctx (stripDash preCmd).2 with
  | none => simp
  | some words =>
      cases os 0 with
      | forkFailed => simp [Stops]
      | waited st =>
          by_cases hstop : preExitCode st ≠ 0 ∧ (stripDash preCmd).1 = false
          · simp [Stops, hstop]
          · simp [Stops, hstop]

theorem forall_getElem?_cons {α : Type*} {P : ℕ → α → Prop} {a : α} {l : List α} :
    (∀ i b, (a :: l)[i]? = some b → P i b) ↔ P 0 a ∧ ∀ i b, l[i]? = some b → P (i + 1) b := by
  constructor
  · intro h
    exact ⟨h 0 a rfl, fun i b hi => h (i + 1) b (by simpa using hi)⟩
  · rintro ⟨hfirst, hlater⟩ i b hi
    cases i with
    | zero =>
        obtain rfl : a = b := by simpa using hi
        exact hfirst
    | succ i => exact hlater i b (by simpa using hi)

/-- The loop gets to its end exactly if no answer stops it. -/
theorem startPreCode_eq_none_iff (cmds : List String) (os : Nat → PreAnswer) :
    startPreCode info ctx cmds os = none ↔
      ∀ i preCmd, cmds[i]? = some preCmd →
        (commandWords info ctx (stripDash preCmd).2).isSome = true → ¬ Stops preCmd (os i) := by
  induction cmds generalizing os with
  | nil => exact iff_of_true rfl (by simp)
  | cons first rest ih => rw [startPreCode_cons_eq_none_iff, ih, forall_getElem?_cons]

theorem stops_waited_iff {preCmd : String} (hgates : Gates info ctx preCmd) (st : WaitStatus) :
    Stops preCmd (.waited (some st)) ↔ st ≠ .exited 0 := by
  simp only [Stops, hgates.1, and_true]
  cases st with
  | exited status => simp [preExitCode]
  | signaled sig => simp [preExitCode]

/-- A gating command that does not stop the loop exits with status 0, or is missed. -/
theorem seen_iff_of_not_stops {preCmd : String} {answer : PreAnswer}
    (hgates : Gates info ctx preCmd) (hgo : ¬ Stops preCmd answer) :
    answer ≠ .forkFailed ∧ answer ≠ .waited none ↔ answer = .waited (some (.exited 0)) := by
  cases answer with
  | forkFailed => simp
  | waited st =>
      cases st with
      | none => simp
      | some st =>
          rw [stops_waited_iff hgates, not_not] at hgo
          simp [hgo]

/-- The loop gets to its end exactly if no gating command is seen to fail. -/
theorem startPreCode_eq_none_iff_exited (cmds : List String) (os : Nat → PreAnswer) :
    startPreCode info ctx cmds os = none ↔
      ∀ i preCmd st, cmds[i]? = some preCmd → Gates info ctx preCmd →
        os i = .waited (some st) → st = .exited 0 := by
  rw [startPreCode_eq_none_iff]
  constructor
  · intro h i preCmd st hi hgates hos
    have hgo := h i preCmd hi hgates.2
    rwa [hos, stops_waited_iff hgates, not_not] at hgo
  · intro h i preCmd hi hwords hstops
    cases hos : os i with
    | forkFailed => simp [hos, Stops] at hstops
    | waited st =>
        rw [hos] at hstops
        cases st with
        | none => exact hstops.1 rfl
        | some st =>
            have hgates : Gates info ctx preCmd := ⟨hstops.2, hwords⟩
            exact (stops_waited_iff hgates st).mp hstops (h i preCmd st hi hgates hos)

/-! ## The commands that succeed -/

/-- The commands that succeed in the loop, in the order in which it runs them. -/
def succeeded (info : SystemInfo) (name : String) (unit : UnitFile) (fds : FdTable)
    (cmds : List String) (os : Nat → PreAnswer) : List String :=
  (startPreCalls info name unit fds cmds os).filterMap ForkCall.succeeded?

variable {name : String} {unit : UnitFile} {fds : FdTable}

/-- One command: it is among those that succeed if it exits with status 0. -/
theorem succeeded_cons {preCmd : String} {rest : List String} {os : Nat → PreAnswer}
    (hgo : (commandWords info (SpecifierContext.ofUnit name unit.path)
      (stripDash preCmd).2).isSome = true → ¬ Stops preCmd (os 0)) :
    succeeded info name unit fds (preCmd :: rest) os =
      if (commandWords info (SpecifierContext.ofUnit name unit.path)
          (stripDash preCmd).2).isSome = true ∧ os 0 = .waited (some (.exited 0)) then
        preCmd :: succeeded info name unit fds rest (fun i => os (i + 1))
      else succeeded info name unit fds rest (fun i => os (i + 1)) := by
  unfold succeeded
  rw [startPreCalls_cons]
  cases hwords : commandWords info (SpecifierContext.ofUnit name unit.path)
      (stripDash preCmd).2 with
  | none => simp
  | some words =>
      cases hos : os 0 with
      | forkFailed => simp [ForkCall.succeeded?]
      | waited st =>
          have hstop : ¬ (preExitCode st ≠ 0 ∧ (!(stripDash preCmd).1) = true) := by
            simpa [hos, hwords, Stops] using hgo
          simp only [hstop, if_false, Option.isSome_some, true_and, List.filterMap_cons,
            ForkCall.succeeded?]
          split_ifs <;> rfl

theorem succeeded_sublist {cmds : List String} {os : Nat → PreAnswer}
    (hend : startPreCode info (SpecifierContext.ofUnit name unit.path) cmds os = none) :
    (succeeded info name unit fds cmds os).Sublist cmds := by
  induction cmds generalizing os with
  | nil => exact List.Sublist.slnil
  | cons preCmd rest ih =>
      obtain ⟨hgo, hrest⟩ := (startPreCode_cons_eq_none_iff preCmd rest os).mp hend
      rw [succeeded_cons hgo]
      split_ifs
      · exact (ih hrest).cons_cons _
      · exact (ih hrest).cons _

theorem gating_cons (preCmd : String) (rest : List String) :
    gating info ctx (preCmd :: rest) =
      if Gates info ctx preCmd then preCmd :: gating info ctx rest else gating info ctx rest := by
  simp [gating, List.filter_cons]

theorem gating_succeeded_cons {preCmd : String} {rest : List String} {os : Nat → PreAnswer}
    (hgo : (commandWords info (SpecifierContext.ofUnit name unit.path)
      (stripDash preCmd).2).isSome = true → ¬ Stops preCmd (os 0)) :
    gating info (SpecifierContext.ofUnit name unit.path)
        (succeeded info name unit fds (preCmd :: rest) os) =
      if Gates info (SpecifierContext.ofUnit name unit.path) preCmd ∧
          os 0 = .waited (some (.exited 0)) then
        preCmd :: gating info (SpecifierContext.ofUnit name unit.path)
          (succeeded info name unit fds rest (fun i => os (i + 1)))
      else
        gating info (SpecifierContext.ofUnit name unit.path)
          (succeeded info name unit fds rest (fun i => os (i + 1))) := by
  rw [succeeded_cons hgo]
  by_cases hgates : Gates info (SpecifierContext.ofUnit name unit.path) preCmd
  · have hwords := hgates.2
    by_cases hzero : os 0 = .waited (some (.exited 0)) <;>
      simp [gating_cons, hgates, hwords, hzero]
  · simp only [hgates, false_and, if_false]
    split_ifs <;> simp [gating_cons, hgates]

/-- All gating commands succeed exactly if all of them can be forked and waited for. -/
theorem gating_sublist_iff {cmds : List String} {os : Nat → PreAnswer}
    (hend : startPreCode info (SpecifierContext.ofUnit name unit.path) cmds os = none) :
    (gating info (SpecifierContext.ofUnit name unit.path) cmds).Sublist
        (gating info (SpecifierContext.ofUnit name unit.path)
          (succeeded info name unit fds cmds os)) ↔
      ∀ i preCmd, cmds[i]? = some preCmd →
        Gates info (SpecifierContext.ofUnit name unit.path) preCmd →
        os i ≠ .forkFailed ∧ os i ≠ .waited none := by
  induction cmds generalizing os with
  | nil => simp [gating]
  | cons preCmd rest ih =>
      obtain ⟨hgo, hrest⟩ := (startPreCode_cons_eq_none_iff preCmd rest os).mp hend
      rw [forall_getElem?_cons, ← ih hrest, gating_cons, gating_succeeded_cons hgo]
      by_cases hgates : Gates info (SpecifierContext.ofUnit name unit.path) preCmd
      · have hseen := seen_iff_of_not_stops hgates (hgo hgates.2)
        by_cases hzero : os 0 = .waited (some (.exited 0))
        · simp [hgates, hzero]
        · -- One gating command more than commands that can succeed.
          rw [if_pos hgates, if_neg (fun h => hzero h.2)]
          refine iff_of_false (fun h => ?_) (fun h => hzero (hseen.mp (h.1 hgates)))
          have hsub : (succeeded info name unit fds rest (fun i => os (i + 1))).Sublist rest :=
            succeeded_sublist hrest
          have hlater := (hsub.filter
            (fun cmd => decide (Gates info (SpecifierContext.ofUnit name unit.path) cmd))).length_le
          have hle := h.length_le
          simp only [gating, List.length_cons] at hle
          omega
      · simp [hgates]

theorem gating_gating (cmds : List String) :
    gating info ctx (gating info ctx cmds) = gating info ctx cmds :=
  List.filter_filter.trans (by simp [gating])

/-- Other commands that succeed do not matter. -/
theorem gating_sublist_gating_iff (cmds done : List String) :
    (gating info ctx cmds).Sublist done ↔
      (gating info ctx cmds).Sublist (gating info ctx done) := by
  constructor
  · intro h
    rw [← gating_gating cmds]
    exact h.filter _
  · exact fun h => h.trans List.filter_sublist

/-! ## Gating -/

namespace InitSystem

theorem isSome_startedCommand_iff (name : String) (unit : UnitFile) (os : StartAnswers) :
    (startedCommand name unit os).isSome = true ↔
      startPreCode os.info (SpecifierContext.ofUnit name unit.path) unit.execStartPre os.pre =
          none ∧
        HasCommand os.info (SpecifierContext.ofUnit name unit.path) unit := by
  unfold startedCommand HasCommand
  cases hpre : startPreCode os.info (SpecifierContext.ofUnit name unit.path) unit.execStartPre
      os.pre with
  | some code => simp only [hpre, Option.isSome_none, Bool.false_eq_true, reduceCtorEq, false_and]
  | none =>
      by_cases hexec : unit.execStart = ""
      · simp only [hpre, hexec, if_true, Option.isSome_none, Bool.false_eq_true, ne_eq,
          not_true_eq_false, false_and, and_false]
      · simp only [hpre, hexec, if_false, ne_eq, not_false_eq_true, true_and]

/-- `start_service` records the fork for the main command behind all others. -/
theorem runFirst_startService_iff {s s' : InitSystem} {name : String} {unit : UnitFile}
    {os : StartAnswers} {pid : Option Pid} (hstart : s.startService name unit os = some (pid, s'))
    (cmds : List String) :
    RunFirst cmds (newForks s s') ↔
      ((startedCommand name unit os).isSome = true →
        cmds.Sublist (succeeded os.info name unit s.fds unit.execStartPre os.pre)) := by
  rw [newForks_eq (forkCalls_startService hstart)]
  cases hcommand : startedCommand name unit os with
  | none =>
      refine iff_of_true ?_ nofun
      intro before child answer after heq
      have hmem : ForkCall.spawn child answer ∈
          startPreCalls os.info name unit s.fds unit.execStartPre os.pre := by
        simp only [Option.map_none, Option.toList_none, List.append_nil] at heq
        rw [heq]
        exact List.mem_append_right _ List.mem_cons_self
      exact absurd hmem spawn_notMem_startPreCalls
  | some words =>
      constructor
      · intro h _
        exact h _ _ _ [] rfl
      · intro h before child answer after heq
        -- The only such call is the last one.
        have hbefore : startPreCalls os.info name unit s.fds unit.execStartPre os.pre = before := by
          rcases List.append_eq_append_iff.mp heq with ⟨more, hmore, hlast⟩ | ⟨more, hmore, hlast⟩
          · cases more with
            | nil => simpa using hmore.symm
            | cons call more => simp at hlast
          · cases more with
            | nil => simpa using hmore
            | cons call more =>
                obtain rfl : ForkCall.spawn child answer = call := (List.cons.inj hlast).1
                have hmem : ForkCall.spawn child answer ∈
                    startPreCalls os.info name unit s.fds unit.execStartPre os.pre := by
                  rw [hmore]
                  exact List.mem_append_right _ List.mem_cons_self
                exact absurd hmem spawn_notMem_startPreCalls
        exact hbefore ▸ h rfl

/-- The main command is only run after every gating command has been run, in order, and has been
seen to exit with status 0, exactly if the look-ups for `RuntimeDirectory=` end in an exception, or
there is no main command, or some gating command is seen to fail, or every gating command can be
forked and waited for. -/
theorem startService_gated_iff (s : InitSystem) (name : String) (unit : UnitFile)
    (os : StartAnswers) :
    let ctx := SpecifierContext.ofUnit name unit.path
    (∀ pid s', s.startService name unit os = some (pid, s') →
        RunFirst (gating os.info ctx unit.execStartPre) (newForks s s')) ↔
      runtimeDirectoryCalls unit os.passwd os.group = none ∨
      ¬ HasCommand os.info ctx unit ∨
      (∃ i preCmd st, unit.execStartPre[i]? = some preCmd ∧ Gates os.info ctx preCmd ∧
        os.pre i = .waited (some st) ∧ st ≠ .exited 0) ∨
      ∀ i preCmd, unit.execStartPre[i]? = some preCmd → Gates os.info ctx preCmd →
        os.pre i ≠ .forkFailed ∧ os.pre i ≠ .waited none := by
  intro ctx
  cases hcalls : runtimeDirectoryCalls unit os.passwd os.group with
  | none =>
      refine iff_of_true (fun pid s' hstart => ?_) (Or.inl rfl)
      simp [startService, createRuntimeDirectory, hcalls] at hstart
  | some calls =>
      obtain ⟨⟨pid, s'⟩, hstart⟩ : ∃ r, s.startService name unit os = some r := by
        simp [startService, createRuntimeDirectory, hcalls]
      have hone : (∀ pid s', s.startService name unit os = some (pid, s') →
          RunFirst (gating os.info ctx unit.execStartPre) (newForks s s')) ↔
          RunFirst (gating os.info ctx unit.execStartPre) (newForks s s') := by
        simp [hstart]
      rw [hone, runFirst_startService_iff hstart, gating_sublist_gating_iff,
        isSome_startedCommand_iff]
      simp only [reduceCtorEq, false_or]
      by_cases hend : startPreCode os.info ctx unit.execStartPre os.pre = none
      · have hseen := (startPreCode_eq_none_iff_exited _ _).mp hend
        rw [gating_sublist_iff hend]
        constructor
        · intro h
          by_cases hcommand : HasCommand os.info ctx unit
          · exact Or.inr (Or.inr (h ⟨hend, hcommand⟩))
          · exact Or.inl hcommand
        · rintro (hnone | ⟨i, preCmd, st, hi, hgates, hos, hne⟩ | h) ⟨-, hcommand⟩
          · exact absurd hcommand hnone
          · exact absurd (hseen i preCmd st hi hgates hos) hne
          · exact h
      · -- A command that is seen to fail keeps the main command from being run.
        refine iff_of_true (fun h => absurd h.1 hend) (Or.inr (Or.inl ?_))
        simpa only [startPreCode_eq_none_iff_exited, not_forall, exists_prop] using hend

/-- `fork` fails for the only command, and the service is started without it. -/
theorem startService_not_gated :
    ¬ ∀ (s s' : InitSystem) (name : String) (unit : UnitFile) (os : StartAnswers)
        (pid : Option Pid), s.startService name unit os = some (pid, s') →
      RunFirst (gating os.info (SpecifierContext.ofUnit name unit.path) unit.execStartPre)
        (newForks s s') := by
  intro h
  let unit : UnitFile := { execStartPre := ["/usr/bin/db-init"], execStart := "/usr/bin/db" }
  let os : StartAnswers := { pre := fun _ => .forkFailed, forked := .ok 7 }
  obtain ⟨⟨pid, s'⟩, hstart⟩ := Option.isSome_iff_exists.mp
    (by decide +kernel : (startService {} "db.service" unit os).isSome = true)
  have hfirst := (runFirst_startService_iff hstart _).mp (h {} s' "db.service" unit os pid hstart)
    (by decide +kernel)
  revert hfirst
  decide +kernel

end InitSystem

end TrivialInit
