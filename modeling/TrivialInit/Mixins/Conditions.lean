import TrivialInit.Systemd.UnitFile

/-!
# Conditions — `Condition*=` and `Assert*=`

`cond::eval_one` and `cond::eval_conditions` of `unit_exec.hpp`.  What the evaluator asks the system
(`access`, `stat`, `/proc`, the environment, …) is a `SystemProbe`.
-/

namespace TrivialInit

/-- The answers of the system to the questions `eval_one` asks. -/
structure SystemProbe where
  pathExists : String → Bool
  globMatches : String → Bool
  isDirectory : String → Bool
  isSymbolicLink : String → Bool
  isMountPoint : String → Bool
  isReadWrite : String → Bool
  fileNotEmpty : String → Bool
  directoryNotEmpty : String → Bool
  isExecutable : String → Bool
  cmdlineContains : String → Bool
  releaseContains : String → Bool
  cpuinfoVirtual : Bool
  uid : Nat
  lookupUid : String → Option Nat
  /-- Does `lookup_uid` throw? -/
  lookupThrows : String → Bool := fun _ => false
  getenv : String → Option String

namespace Conditions

/-- Does the entry carry the condition `name`, in its `Condition` or its `Assert` spelling? -/
def isKind (name : String) (ce : ConditionEntry) : Bool :=
  ce.type = "Condition" ++ name || ce.type = "Assert" ++ name

/-- The probe result of `eval_one`, before negation. -/
def rawResult (sys : SystemProbe) (ce : ConditionEntry) : Bool :=
  let val := ce.value
  if isKind "PathExists" ce then sys.pathExists val
  else if isKind "PathExistsGlob" ce then sys.globMatches val
  else if isKind "PathIsDirectory" ce then sys.isDirectory val
  else if isKind "PathIsSymbolicLink" ce then sys.isSymbolicLink val
  else if isKind "PathIsMountPoint" ce then sys.isMountPoint val
  else if isKind "PathIsReadWrite" ce then sys.isReadWrite val
  else if isKind "FileNotEmpty" ce then sys.fileNotEmpty val
  else if isKind "DirectoryNotEmpty" ce then sys.directoryNotEmpty val
  else if isKind "FileIsExecutable" ce then sys.isExecutable val
  else if isKind "KernelCommandLine" ce then sys.cmdlineContains val
  else if isKind "KernelVersion" ce then sys.releaseContains val
  else if isKind "Virtualization" ce then
    if val = "no" then false
    else if val = "vm" ∨ val = "kvm" ∨ val = "qemu" then sys.cpuinfoVirtual
    else true
  else if isKind "ACPower" ce then val = "true" || val = "1"
  else if isKind "User" ce then
    if val = "root" then sys.uid = 0
    else if val = "@system" then sys.uid < 1000
    else sys.lookupUid val = some sys.uid
  else if isKind "FirstBoot" ce then
    let first := sys.pathExists "/run/systemd/first-boot"
    if val = "yes" ∨ val = "true" ∨ val = "1" then first else !first
  else if isKind "Environment" ce then
    match findChar val '=' with
    | none => (sys.getenv val).isSome
    | some eq => sys.getenv (takeStr val eq) = some (dropStr val (eq + 1))
  else if isKind "Security" ce then false
  else if isKind "Capability" ce then sys.uid = 0
  -- An unknown condition passes.
  else true

/-- `cond::eval_one`. -/
def evalOne (sys : SystemProbe) (ce : ConditionEntry) : Bool :=
  if ce.negate then !rawResult sys ce else rawResult sys ce

/-- `cond::eval_conditions`: 0 to run the unit, 1 to skip it, 2 when an assertion fails. -/
def evalConditions (sys : SystemProbe) (unit : UnitFile) : Nat :=
  if unit.conditions.any (fun ce => !evalOne sys ce) then 1
  else if unit.assertions.any (fun ce => !evalOne sys ce) then 2
  else 0

/-- Does `eval_one` end in an exception of `lookup_uid`? -/
def throwsOne (sys : SystemProbe) (ce : ConditionEntry) : Bool :=
  isKind "User" ce && ce.value ≠ "root" && ce.value ≠ "@system" && sys.lookupThrows ce.value

/-- Does an entry that one of the two loops of `eval_conditions` gets to end in an exception? -/
def throwsIn (sys : SystemProbe) : List ConditionEntry → Bool
  | [] => false
  | ce :: rest => throwsOne sys ce || (evalOne sys ce && throwsIn sys rest)

/-- Does `eval_conditions` end in an exception?  Otherwise its result is `evalConditions`. -/
def throws (sys : SystemProbe) (unit : UnitFile) : Bool :=
  throwsIn sys unit.conditions ||
    (unit.conditions.all (evalOne sys) && throwsIn sys unit.assertions)

end Conditions

end TrivialInit
