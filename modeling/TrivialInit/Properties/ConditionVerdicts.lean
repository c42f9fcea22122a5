import TrivialInit.Properties.UnitFields
import TrivialInit.Run

/-!
# ConditionVerdicts — when conditions let a unit run

`parse_condition` sets the polarity of an entry only if the value says `!`; otherwise the entry keeps
what its memory held before.  The probes are independent of that, so a verdict can be compared with
the one the texts call for:

* a line is *stray* when its value is not negated and its memory makes the entry negated;
* a list of lines with stray ones still has a failing entry when it should, and only then, if a
  failing line hides the stray ones, or they fail and pass alike (`Masked`).

An entry whose key is unknown passes before the polarity is looked at, and only then.
-/

namespace TrivialInit

/-! ## Lines -/

/-- A `Condition*` or `Assert*` line, and what the memory of its entry held before. -/
structure ConditionLine where
  key : String
  value : String
  memory : Bool
  deriving DecidableEq, Repr

/-- The value behind at most one leading `|`. -/
def plainText (value : String) : String :=
  if value.toList.head? = some '|' then dropStr value 1 else value

/-- Does the value call for negation? -/
def isNegated (value : String) : Bool :=
  (plainText value).toList.head? = some '!'

theorem parseCondition_eq (memory : Bool) (key value : String) (isAssert : Bool) :
    parseCondition memory key value isAssert =
      { type := key
        value := if isNegated value then dropStr (plainText value) 1 else plainText value
        negate := isNegated value || memory
        isAssert := isAssert } := by
  have hplain : (if value.toList.head? = some '|' then dropStr value 1 else value) =
      plainText value := rfl
  unfold parseCondition isNegated
  simp only [hplain]
  by_cases h : (plainText value).toList.head? = some '!' <;> simp [h]

namespace ConditionLine

/-- The entry `parse_condition` makes. -/
def entry (isAssert : Bool) (line : ConditionLine) : ConditionEntry :=
  parseCondition line.memory line.key line.value isAssert

/-- The probe result of the line. -/
def probe (sys : SystemProbe) (line : ConditionLine) : Bool :=
  Conditions.rawResult sys (line.entry false)

/-- The line fails: its probe result equals its negation. -/
def fails (sys : SystemProbe) (line : ConditionLine) : Bool :=
  line.probe sys == isNegated line.value

/-- The memory negates an entry that the value does not negate. -/
def stray (line : ConditionLine) : Bool :=
  !isNegated line.value && line.memory

/-- An entry fails as the line does, unless the line is stray. -/
theorem evalOne_entry (sys : SystemProbe) (isAssert : Bool) (line : ConditionLine) :
    (!Conditions.evalOne sys (line.entry isAssert)) = (line.fails sys ^^ line.stray) := by
  have hprobe : Conditions.rawResult sys (line.entry isAssert) = line.probe sys := by
    unfold probe entry
    rw [parseCondition_eq, parseCondition_eq]
    rfl
  have hnegate : (line.entry isAssert).negate = (isNegated line.value || line.memory) := by
    rw [entry, parseCondition_eq]
  rw [Conditions.evalOne, hprobe, hnegate, fails, stray]
  cases line.probe sys <;> cases isNegated line.value <;> cases line.memory <;> rfl

/-- A stray line fails exactly if its probe fails. -/
theorem fails_of_stray {sys : SystemProbe} {line : ConditionLine} (h : line.stray = true) :
    line.fails sys = !line.probe sys := by
  have hvalue : isNegated line.value = false := by
    cases hneg : isNegated line.value with
    | false => rfl
    | true => simp [stray, hneg] at h
  rw [fails, hvalue]
  cases line.probe sys <;> rfl

end ConditionLine

/-! ## Verdicts -/

/-- The verdict the lines call for: 1 if a condition fails, else 2 if an assertion fails, else 0. -/
def verdict (sys : SystemProbe) (conditions assertions : List ConditionLine) : Nat :=
  if conditions.any (ConditionLine.fails sys) then 1
  else if assertions.any (ConditionLine.fails sys) then 2
  else 0

/-- There is no stray line; or a failing line that is not stray; or the probes of stray lines both
succeed and fail. -/
def Masked (sys : SystemProbe) (lines : List ConditionLine) : Prop :=
  (∀ line ∈ lines, line.stray = false) ∨
    (∃ line ∈ lines, line.stray = false ∧ line.fails sys = true) ∨
    ((∃ line ∈ lines, line.stray = true ∧ line.probe sys = true) ∧
      ∃ line ∈ lines, line.stray = true ∧ line.probe sys = false)

/-- Some entry fails exactly when some line does, exactly if stray lines are masked. -/
theorem masked_iff (sys : SystemProbe) (isAssert : Bool) (lines : List ConditionLine) :
    ((lines.map (ConditionLine.entry isAssert)).any (fun ce => !Conditions.evalOne sys ce) =
        lines.any (ConditionLine.fails sys)) ↔ Masked sys lines := by
  have hcode : (lines.map (ConditionLine.entry isAssert)).any
      (fun ce => !Conditions.evalOne sys ce) =
        lines.any (fun line => line.fails sys ^^ line.stray) := by
    rw [List.any_map]
    congr 1
    funext line
    exact line.evalOne_entry sys isAssert
  rw [hcode, Bool.eq_iff_iff, List.any_eq_true, List.any_eq_true]
  constructor
  · intro hsame
    by_cases hstray : ∀ line ∈ lines, line.stray = false
    · exact Or.inl hstray
    by_cases hfails : ∃ line ∈ lines, line.stray = false ∧ line.fails sys = true
    · exact Or.inr (Or.inl hfails)
    -- Only stray lines fail, and in the verdict they count the other way.
    refine Or.inr (Or.inr ?_)
    push Not at hstray hfails
    obtain ⟨line, hline, hstray⟩ := hstray
    rw [ne_eq, Bool.not_eq_false] at hstray
    have hfails' : line.fails sys = !line.probe sys := ConditionLine.fails_of_stray hstray
    cases hprobe : line.probe sys with
    | true =>
        refine ⟨⟨line, hline, hstray, hprobe⟩, ?_⟩
        obtain ⟨other, hother, hfail⟩ := hsame.mp ⟨line, hline, by simp [hfails', hprobe, hstray]⟩
        have hotherstray : other.stray = true := by
          by_contra h
          exact hfails other hother (by simpa using h) hfail
        rw [ConditionLine.fails_of_stray hotherstray] at hfail
        exact ⟨other, hother, hotherstray, by simpa using hfail⟩
    | false =>
        refine ⟨?_, ⟨line, hline, hstray, hprobe⟩⟩
        obtain ⟨other, hother, hfail⟩ := hsame.mpr ⟨line, hline, by simp [hfails', hprobe]⟩
        have hotherstray : other.stray = true := by
          by_contra h
          have hfalse : other.stray = false := by simpa using h
          exact hfails other hother hfalse (by simpa [hfalse] using hfail)
        rw [ConditionLine.fails_of_stray hotherstray, hotherstray] at hfail
        exact ⟨other, hother, hotherstray, by simpa using hfail⟩
  · rintro (hnone | ⟨line, hline, hstray, hfails⟩ | ⟨⟨line, hline, hstray, hprobe⟩,
      ⟨other, hother, hotherstray, hotherprobe⟩⟩)
    · refine exists_congr (fun line => and_congr_right (fun hline => ?_))
      rw [hnone line hline, Bool.xor_false]
    · exact iff_of_true ⟨line, hline, by simp [hstray, hfails]⟩ ⟨line, hline, hfails⟩
    · refine iff_of_true ⟨line, hline, ?_⟩ ⟨other, hother, ?_⟩
      · rw [ConditionLine.fails_of_stray hstray, hprobe, hstray]
        rfl
      · rw [ConditionLine.fails_of_stray hotherstray, hotherprobe]
        rfl

/-- A unit with the entries of these lines. -/
def unitOfLines (conditions assertions : List ConditionLine) : UnitFile :=
  { conditions := conditions.map (ConditionLine.entry false)
    assertions := assertions.map (ConditionLine.entry true) }

/-- The verdict on a unit is the one its lines call for, exactly if the stray conditions are masked,
and the stray assertions are, or a condition fails anyway. -/
theorem evalConditions_eq_verdict_iff (sys : SystemProbe) (conditions assertions : List ConditionLine) :
    Conditions.evalConditions sys (unitOfLines conditions assertions) =
        verdict sys conditions assertions ↔
      Masked sys conditions ∧
        ((∃ line ∈ conditions, line.fails sys = true) ∨ Masked sys assertions) := by
  -- The answers that matter: does an entry fail, does a line fail, in either list.
  have hcodes : ∀ c c' a a' : Bool,
      (if c then 1 else if a then 2 else 0) = (if c' then 1 else if a' then 2 else 0) ↔
        c = c' ∧ (c' = true ∨ a = a') := by
    decide
  rw [← masked_iff sys false conditions, ← masked_iff sys true assertions, ← List.any_eq_true]
  exact hcodes _ _ _ _

/-- A condition that holds, in memory that held `true`: the unit is skipped. -/
theorem evalConditions_ne_verdict :
    ¬ ∀ (sys : SystemProbe) (conditions assertions : List ConditionLine),
      Conditions.evalConditions sys (unitOfLines conditions assertions) =
        verdict sys conditions assertions := by
  intro h
  have hverdict := h { (default : SystemProbe) with pathExists := fun _ => true }
    [{ key := "ConditionPathExists", value := "/etc/passwd", memory := true }] []
  revert hverdict
  decide +kernel

/-! ## Unknown keys -/

/-- The conditions `eval_one` evaluates, without `Condition` or `Assert`. -/
def evaluatedNames : List String :=
  ["PathExists", "PathExistsGlob", "PathIsDirectory", "PathIsSymbolicLink", "PathIsMountPoint",
    "PathIsReadWrite", "FileNotEmpty", "DirectoryNotEmpty", "FileIsExecutable",
    "KernelCommandLine", "KernelVersion", "Virtualization", "ACPower", "User", "FirstBoot",
    "Environment", "Security", "Capability"]

/-- Does `eval_one` evaluate entries with this key? -/
def isEvaluated (key : String) : Bool :=
  evaluatedNames.any (fun name => key = "Condition" ++ name || key = "Assert" ++ name)

theorem rawResult_of_not_evaluated (sys : SystemProbe) {ce : ConditionEntry}
    (h : isEvaluated ce.type = false) : Conditions.rawResult sys ce = true := by
  have hkind : ∀ name ∈ evaluatedNames, Conditions.isKind name ce = false := by
    intro name hname
    have hne := List.any_eq_false.mp h name hname
    simpa [Conditions.isKind] using hne
  simp only [evaluatedNames, List.forall_mem_cons, List.not_mem_nil, false_implies, implies_true,
    and_true] at hkind
  simp only [Conditions.rawResult, hkind, Bool.false_eq_true, if_false]

/-! ## The entries of a parsed unit -/

/-- The lines of the conditions and assertions a section has, in the order in which it is iterated:
keys and values. -/
def conditionLines (entries : List (String × String)) : List (String × String) :=
  entries.flatMap (fun e =>
    if isConditionKey e.1 || isAssertKey e.1 then (splitRs e.2).map (fun v => (e.1, v)) else [])

/-- The lines of the conditions and assertions of a unit file. -/
def unitConditionLines (os : ParseAnswers) (path : String) : List (String × String) :=
  match (parseIni (os.files path)).lookup "Unit" with
  | none => []
  | some sec => conditionLines (os.iterate sec)

/-- The entry of line `i`. -/
def lineEntry (uninit : Nat → Bool) (i : Nat) (line : String × String) : ConditionEntry :=
  parseCondition (uninit i) line.1 line.2 (!isConditionKey line.1)

namespace UnitFile

/-- All condition and assertion entries. -/
def entries (unit : UnitFile) : List ConditionEntry :=
  unit.conditions ++ unit.assertions

/-- Adding one line. -/
def addLine (uninit : Nat → Bool) (unit : UnitFile) (line : String × String) : UnitFile :=
  let ce := lineEntry uninit unit.entries.length line
  if isConditionKey line.1 then { unit with conditions := unit.conditions ++ [ce] }
  else { unit with assertions := unit.assertions ++ [ce] }

/-- The loop over the keys adds one line after the other. -/
theorem foldl_addConditions (uninit : Nat → Bool) (sec : List (String × String))
    (unit : UnitFile) :
    sec.foldl (addConditions uninit) unit = (conditionLines sec).foldl (addLine uninit) unit := by
  rw [conditionLines, List.foldl_flatMap]
  congr 1
  funext unit e
  obtain ⟨key, val⟩ := e
  by_cases hcondition : isConditionKey key = true
  · simp [addConditions, hcondition, List.foldl_map, addLine, lineEntry, entries]
  · by_cases hassert : isAssertKey key = true
    · simp [addConditions, hcondition, hassert, List.foldl_map, addLine, lineEntry, entries]
    · simp [addConditions, hcondition, hassert]

theorem entries_addLine_perm (uninit : Nat → Bool) (unit : UnitFile) (line : String × String) :
    (addLine uninit unit line).entries.Perm
      (unit.entries ++ [lineEntry uninit unit.entries.length line]) := by
  unfold addLine
  by_cases hcondition : isConditionKey line.1 = true
  · simp only [hcondition, if_true, entries, List.append_assoc]
    exact (List.perm_append_comm).append_left unit.conditions
  · simp only [hcondition, Bool.false_eq_true, if_false, entries, List.append_assoc]
    exact List.Perm.refl _

/-- Line `i` makes an entry, in the memory it finds. -/
theorem mem_entries_foldl_addLine (uninit : Nat → Bool) (lines : List (String × String))
    (unit : UnitFile) (ce : ConditionEntry) :
    ce ∈ (lines.foldl (addLine uninit) unit).entries ↔
      ce ∈ unit.entries ∨ ∃ i line, lines[i]? = some line ∧
        ce = lineEntry uninit (unit.entries.length + i) line := by
  induction lines generalizing unit with
  | nil => simp
  | cons first lines ih =>
      have hperm := entries_addLine_perm uninit unit first
      have hlength : (addLine uninit unit first).entries.length = unit.entries.length + 1 := by
        simpa using hperm.length_eq
      rw [List.foldl_cons, ih, hperm.mem_iff, hlength, List.mem_append, List.mem_singleton]
      constructor
      · rintro ((h | h) | ⟨i, line, hi, h⟩)
        · exact Or.inl h
        · exact Or.inr ⟨0, first, rfl, h⟩
        · exact Or.inr ⟨i + 1, line, by simpa using hi, by rw [h]; congr 1; omega⟩
      · rintro (h | ⟨i, line, hi, h⟩)
        · exact Or.inl (Or.inl h)
        · cases i with
          | zero =>
              obtain rfl : first = line := by simpa using hi
              exact Or.inl (Or.inr h)
          | succ i =>
              exact Or.inr ⟨i, line, by simpa using hi, by rw [h]; congr 1; omega⟩

/-- The entries of a parsed unit are those of its lines. -/
theorem mem_entries_parse (os : ParseAnswers) (path : String) (ce : ConditionEntry) :
    ce ∈ (parse os path).entries ↔
      ∃ i line, (unitConditionLines os path)[i]? = some line ∧
        ce = lineEntry (os.uninit path) i line := by
  unfold parse
  simp only
  rw [get_inSection_of_same entries parseMountSection (fun _ _ => rfl),
    get_inSection_of_same entries parseInstallSection (fun _ _ => rfl),
    get_inSection_of_same entries (parseServiceSection os _) (fun _ _ => rfl)]
  unfold inSection unitConditionLines
  cases (parseIni (os.files path)).lookup "Unit" with
  | none => simp [entries]
  | some sec =>
      simp only [parseUnitSection, foldl_addConditions]
      rw [mem_entries_foldl_addLine]
      simp [entries]

end UnitFile

/-! ## Units with unknown conditions -/

theorem evalConditions_eq_zero_iff (sys : SystemProbe) (unit : UnitFile) :
    Conditions.evalConditions sys unit = 0 ↔
      ∀ ce ∈ unit.entries, Conditions.evalOne sys ce = true := by
  unfold Conditions.evalConditions UnitFile.entries
  rw [List.forall_mem_append]
  split_ifs with hcondition hassert
  · simp only [List.any_eq_true, Bool.not_eq_true'] at hcondition
    obtain ⟨ce, hce, hfalse⟩ := hcondition
    refine iff_of_false (by decide) (fun h => ?_)
    simp [h.1 ce hce] at hfalse
  · simp only [List.any_eq_true, Bool.not_eq_true'] at hassert
    obtain ⟨ce, hce, hfalse⟩ := hassert
    refine iff_of_false (by decide) (fun h => ?_)
    simp [h.2 ce hce] at hfalse
  · simp at hcondition hassert
    exact iff_of_true rfl ⟨hcondition, hassert⟩

/-- An entry with an unknown key passes exactly if nothing negates it. -/
theorem evalOne_lineEntry_of_not_evaluated (sys : SystemProbe) (uninit : Nat → Bool) (i : Nat)
    {line : String × String} (h : isEvaluated line.1 = false) :
    Conditions.evalOne sys (lineEntry uninit i line) = true ↔
      isNegated line.2 = false ∧ uninit i = false := by
  have htype : (lineEntry uninit i line).type = line.1 := by
    rw [lineEntry, parseCondition_eq]
  have hnegate : (lineEntry uninit i line).negate = (isNegated line.2 || uninit i) := by
    rw [lineEntry, parseCondition_eq]
  rw [Conditions.evalOne, rawResult_of_not_evaluated sys (by rw [htype, h]), hnegate]
  cases isNegated line.2 <;> cases uninit i <;> decide

/-- What follows when a service unit is not skipped on account of its conditions. -/
theorem serviceToStart_eq_some_iff {s : InitSystem} {name : String} {unit : UnitFile}
    (hunit : s.findUnit name = some unit) (hbare : unit.isBareTemplate = false)
    (htype : unit.type = .service) (sys : SystemProbe) :
    RunState.serviceToStart s sys name = some unit ↔ Conditions.evalConditions sys unit = 0 := by
  unfold RunState.serviceToStart
  simp only [hunit, hbare, Bool.false_eq_true, if_false, htype, if_true]
  unfold Conditions.evalConditions
  split_ifs <;> simp

/-- A unit all of whose conditions have unknown keys passes exactly if no value is negated and the
memory of no entry held `true`; and then it is not skipped. -/
theorem unknownConditions_pass_iff (os : ParseAnswers) (path : String)
    (hunknown : ∀ line ∈ unitConditionLines os path, isEvaluated line.1 = false)
    (sys : SystemProbe) :
    let unit := UnitFile.parse os path
    let lines := unitConditionLines os path
    (Conditions.evalConditions sys unit = 0 ↔
      ∀ i line, lines[i]? = some line → isNegated line.2 = false ∧ os.uninit path i = false) ∧
    ∀ (s : InitSystem) (name : String), s.findUnit name = some unit →
      unit.isBareTemplate = false → unit.type = .service →
      (RunState.serviceToStart s sys name = some unit ↔
        ∀ i line, lines[i]? = some line →
          isNegated line.2 = false ∧ os.uninit path i = false) := by
  intro unit lines
  have hpass : Conditions.evalConditions sys unit = 0 ↔
      ∀ i line, lines[i]? = some line → isNegated line.2 = false ∧ os.uninit path i = false := by
    rw [evalConditions_eq_zero_iff]
    constructor
    · intro h i line hi
      have hline := h _ ((UnitFile.mem_entries_parse os path _).mpr ⟨i, line, hi, rfl⟩)
      exact (evalOne_lineEntry_of_not_evaluated sys _ i
        (hunknown line (List.mem_of_getElem? hi))).mp hline
    · intro h ce hce
      obtain ⟨i, line, hi, rfl⟩ := (UnitFile.mem_entries_parse os path ce).mp hce
      exact (evalOne_lineEntry_of_not_evaluated sys _ i
        (hunknown line (List.mem_of_getElem? hi))).mpr (h i line hi)
  refine ⟨hpass, fun s name hunit hbare htype => ?_⟩
  rw [serviceToStart_eq_some_iff hunit hbare htype, hpass]

theorem unknownConditions_pass_iff_sample :
    let os : ParseAnswers :=
      { files := fun _ => some "[Unit]\nConditionHost=web1\nAssertFoo=|!x\n[Service]\nConditionX=!" }
    let sys : SystemProbe := default
    let unit := UnitFile.parse os "/etc/a.service"
    let lines := unitConditionLines os "/etc/a.service"
    (Conditions.evalConditions sys unit = 0 ↔
      ∀ i line, lines[i]? = some line →
        isNegated line.2 = false ∧ os.uninit "/etc/a.service" i = false) ∧
    ∀ (s : InitSystem) (name : String), s.findUnit name = some unit →
      unit.isBareTemplate = false → unit.type = .service →
      (RunState.serviceToStart s sys name = some unit ↔
        ∀ i line, lines[i]? = some line →
          isNegated line.2 = false ∧ os.uninit "/etc/a.service" i = false) :=
  unknownConditions_pass_iff _ "/etc/a.service" (by decide +kernel) default

/-- An unknown condition with a negated value blocks the unit. -/
theorem unknownConditions_block :
    ¬ ∀ (os : ParseAnswers) (path : String) (sys : SystemProbe),
      (∀ line ∈ unitConditionLines os path, isEvaluated line.1 = false) →
      Conditions.evalConditions sys (UnitFile.parse os path) = 0 := by
  intro h
  have hpass := h { files := fun _ => some "[Unit]\nConditionHost=!web1\n" } "/etc/a.service" default
    (by decide +kernel)
  revert hpass
  decide +kernel

end TrivialInit
