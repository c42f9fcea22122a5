import Mathlib.Data.List.DropRight
import TrivialInit.State
import TrivialInit.Systemd.Specifiers

/-!
# UnitParseMixin — reading unit files

The text functions of `unit_parse.hpp` and `execute(UnitParse)`.  The scanners of the source move an
index over a string; here they work on the list of the characters that are left.
-/

namespace TrivialInit

/-! ## Text -/

/-- The characters `" \t\r\n"` that `trim` strips. -/
def isTrimmed (c : Char) : Bool :=
  c = ' ' || c = '\t' || c = '\r' || c = '\n'

/-- `detail::trim`. -/
def trim (sv : String) : String :=
  String.ofList ((sv.toList.dropWhile isTrimmed).rdropWhile isTrimmed)

/-- The loop of `split_list` and of `add_listen`: skip separators, cut off a word, go on behind it.
Every pass takes at least one character, so `fuel` passes are enough for `fuel` characters. -/
def splitLoop (sep : Char → Bool) : Nat → List Char → List String
  | 0, _ => []
  | fuel + 1, sv =>
      match sv.dropWhile sep with
      | [] => []
      | c :: rest =>
          String.ofList ((c :: rest).takeWhile (fun d => !sep d)) ::
            splitLoop sep fuel ((c :: rest).dropWhile (fun d => !sep d))

/-- Space and tab. -/
def isBlank (c : Char) : Bool :=
  c = ' ' || c = '\t'

/-- The characters `" \t\x1f"` that separate the words of a list directive. -/
def isListSep (c : Char) : Bool :=
  isBlank c || c = '\x1f'

/-- `detail::split_list`. -/
def splitList (sv : String) : List String :=
  splitLoop isListSep sv.length sv.toList

/-- `detail::split_rs`. -/
def splitRs (s : String) : List String :=
  ((s.toList.splitOn '\x1f').filter (fun tok => !tok.isEmpty)).map String.ofList

/-- `std::from_chars` on a decimal number: an optional `-` (when negative numbers are allowed) and
digits; `v` is left as it is when there is no digit or the number is not between `lo` and `hi`. -/
def fromChars (lo hi : Int) (text : String) (v : Int) : Int :=
  let (sign, body) :=
    match text.toList with
    | '-' :: rest => if lo < 0 then ((-1 : Int), rest) else (1, '-' :: rest)
    | chars => (1, chars)
  let digits := body.takeWhile (fun c => decide ('0' ≤ c ∧ c ≤ '9'))
  let value := sign * digits.foldl (fun n c => 10 * n + ((c.toNat - '0'.toNat : Nat) : Int)) 0
  if digits = [] ∨ value < lo ∨ hi < value then v else value

/-- `std::from_chars` for `int`. -/
def fromCharsInt (text : String) (v : Int) : Int :=
  fromChars (-2147483648) 2147483647 text v

/-! ## Sections -/

/-- The value type of `parse_ini`: sections, and in each one the values of its keys. -/
abbrev Sections := UnorderedMap String (UnorderedMap String String)

/-- The lines `getline` yields; a newline at the end of the file does not start another line. -/
def getlines : List Char → List (List Char)
  | [] => []
  | c :: rest =>
      if c = '\n' then [] :: getlines rest
      else
        match getlines rest with
        | [] => [[c]]
        | line :: lines => (c :: line) :: lines

/-- `existing.empty() ? val : existing + "\x1f" + val`. -/
def accumulateValue (existing val : String) : String :=
  if existing = "" then val else existing ++ "\x1f" ++ val

/-- The local variables of `parse_ini`. -/
structure IniState where
  sections : Sections := ∅
  currentSection : String := ""
  accumulated : String := ""

namespace IniState

/-- `auto& existing = sections[current_section][key]; existing = …;` -/
def assign (st : IniState) (key val : String) : IniState :=
  { st with
    sections :=
      UnorderedMap.modify (UnorderedMap.subscript st.sections st.currentSection) st.currentSection
        (fun sec => UnorderedMap.modify (UnorderedMap.subscript sec key) key
          (fun existing => accumulateValue existing val)) }

/-- The lambda `process_line`. -/
def processLine (st : IniState) (raw : String) : IniState :=
  let trimmed := trim raw
  let front := trimmed.toList.head?
  if trimmed = "" ∨ front = some '#' ∨ front = some ';' then st
  else if front = some '[' ∧ trimmed.toList.getLast? = some ']' then
    { st with currentSection := takeStr (dropStr trimmed 1) (trimmed.length - 2) }
  else
    match findChar trimmed '=' with
    | none => st
    | some eq => st.assign (trim (takeStr trimmed eq)) (trim (dropStr trimmed (eq + 1)))

/-- The body of `while (std::getline(in, line))`. -/
def readLine (st : IniState) (line : String) : IniState :=
  if line.toList.getLast? = some '\\' then
    { st with accumulated := st.accumulated ++ takeStr line (line.length - 1) }
  else if st.accumulated ≠ "" then
    { st.processLine (st.accumulated ++ line) with accumulated := "" }
  else st.processLine line

end IniState

/-- `detail::parse_ini`; `file` is what the path opens, `none` when it cannot be opened. -/
def parseIni (file : Option String) : Sections :=
  match file with
  | none => ∅
  | some text =>
      let st := ((getlines text.toList).map String.ofList).foldl IniState.readLine {}
      (if st.accumulated ≠ "" then st.processLine st.accumulated else st).sections

/-! ## Environment -/

/-- The loop over a quoted value: the value (reversed) and the text behind the closing quote. -/
def quotedValue : List Char → List Char → List Char × List Char
  | [], val => (val, [])
  | '"' :: rest, val => (val, rest)
  | '\\' :: c :: rest, val => quotedValue rest (c :: val)
  | c :: rest, val => quotedValue rest (c :: val)

/-- The value that starts here, and the text behind it. -/
def environmentValue : List Char → String × List Char
  | '"' :: rest =>
      let (val, rest) := quotedValue rest []
      (String.ofList val.reverse, rest)
  | raw =>
      (String.ofList (raw.takeWhile (fun c => !isBlank c)), raw.dropWhile (fun c => !isBlank c))

/-- The loop of `parse_environment`; every pass takes at least the `=` sign, so `fuel` passes are
enough for `fuel` characters. -/
def parseEnvironmentLoop : Nat → List Char → UnorderedMap String String →
    UnorderedMap String String
  | 0, _, out => out
  | fuel + 1, raw, out =>
      let raw := raw.dropWhile isBlank
      match raw.findIdx? (· = '=') with
      | none => out
      | some eq =>
          let key := String.ofList (raw.take eq)
          let (val, rest) := environmentValue (raw.drop (eq + 1))
          let out := if key = "" then out else out.insert key val
          parseEnvironmentLoop fuel rest out

/-- `detail::parse_environment`. -/
def parseEnvironment (raw : String) (out : UnorderedMap String String) :
    UnorderedMap String String :=
  parseEnvironmentLoop raw.length raw.toList out

example : (parseEnvironment "A=1 B=\"x \\\" y\"\tC=" ∅).lookup "B" = some "x \" y" := by
  decide +kernel

/-! ## Conditions -/

/-- `detail::parse_condition`.  The local `ConditionEntry` is not initialised, so `negate` keeps
what was in its memory (`uninit`) unless the value starts with `!`. -/
def parseCondition (uninit : Bool) (key val : String) (isAssert : Bool) : ConditionEntry :=
  let v := if val.toList.head? = some '|' then dropStr val 1 else val
  if v.toList.head? = some '!' then
    { type := key, value := dropStr v 1, negate := true, isAssert := isAssert }
  else
    { type := key, value := v, negate := uninit, isAssert := isAssert }

/-- The table of `is_condition_key`. -/
def conditionKeys : List String :=
  ["ConditionPathExists", "ConditionPathExistsGlob", "ConditionPathIsDirectory",
    "ConditionPathIsSymbolicLink", "ConditionPathIsMountPoint", "ConditionPathIsReadWrite",
    "ConditionPathIsEncrypted", "ConditionDirectoryNotEmpty", "ConditionFileNotEmpty",
    "ConditionFileIsExecutable", "ConditionUser", "ConditionGroup", "ConditionHost",
    "ConditionKernelCommandLine", "ConditionKernelVersion", "ConditionEnvironment",
    "ConditionSecurity", "ConditionCapability", "ConditionACPower", "ConditionNeedsUpdate",
    "ConditionFirstBoot", "ConditionCPUs", "ConditionMemory", "ConditionArchitecture",
    "ConditionFirmware", "ConditionVirtualization", "ConditionOSRelease",
    "ConditionMemoryPressure", "ConditionCPUPressure", "ConditionIOPressure"]

/-- `detail::is_condition_key`. -/
def isConditionKey (k : String) : Bool :=
  k ∈ conditionKeys

/-- `detail::is_assert_key`. -/
def isAssertKey (k : String) : Bool :=
  "Assert".toList.isPrefixOf k.toList

/-! ## Units -/

/-- `unit_type_from_suffix`. -/
def unitTypeFromSuffix (path : String) : UnitType :=
  if ".service".toList.isSuffixOf path.toList then .service
  else if ".target".toList.isSuffixOf path.toList then .target
  else if ".mount".toList.isSuffixOf path.toList then .mount
  else if ".socket".toList.isSuffixOf path.toList then .socket
  else .unknown

/-- The part of a path behind its last `/`. -/
def basename (path : String) : String :=
  match rfindChar path '/' with
  | some slash => dropStr path (slash + 1)
  | none => path

/-- What `execute(UnitParse)` reads from outside: the files, the system information of the
specifiers, the order in which a section's hash map is iterated, and the memory in which the
entries of `parse_condition` are created. -/
structure ParseAnswers where
  files : String → Option String
  info : SystemInfo := {}
  iterate : UnorderedMap String String → List (String × String) :=
    fun sec => sec.entries.map (fun e => (e.1, e.2))
  uninit : String → Nat → Bool := fun _ _ => false

namespace UnitFile

/-- The body of the loop over the keys of `[Unit]`. -/
def addConditions (uninit : Nat → Bool) (unit : UnitFile) (entry : String × String) : UnitFile :=
  let (key, val) := entry
  if isConditionKey key then
    (splitRs val).foldl (fun unit v =>
      let i := unit.conditions.length + unit.assertions.length
      { unit with conditions := unit.conditions ++ [parseCondition (uninit i) key v false] }) unit
  else if isAssertKey key then
    (splitRs val).foldl (fun unit v =>
      let i := unit.conditions.length + unit.assertions.length
      { unit with assertions := unit.assertions ++ [parseCondition (uninit i) key v true] }) unit
  else unit

/-- `if (sec.contains(key)) field = convert(sec[key]);` -/
def readField {α : Type} (sec : UnorderedMap String String) (key : String)
    (convert : String → α) (default : α) : α :=
  match sec.lookup key with
  | some val => convert val
  | none => default

/-- The block for `[Unit]`. -/
def parseUnitSection (os : ParseAnswers) (unit : UnitFile) (sec : UnorderedMap String String) :
    UnitFile :=
  let unit :=
    { unit with
      description := readField sec "Description" id unit.description
      wants := readField sec "Wants" splitList unit.wants
      requires := readField sec "Requires" splitList unit.requires
      after := readField sec "After" splitList unit.after
      before := readField sec "Before" splitList unit.before
      conflicts := readField sec "Conflicts" splitList unit.conflicts
      partOf := readField sec "PartOf" splitList unit.partOf
      bindsTo := readField sec "BindsTo" splitList unit.bindsTo }
  (os.iterate sec).foldl (addConditions (os.uninit unit.path)) unit

/-- The block for `[Service]`. -/
def parseServiceSection (os : ParseAnswers) (ctx : SpecifierContext) (unit : UnitFile)
    (sec : UnorderedMap String String) : UnitFile :=
  { unit with
    execStart := readField sec "ExecStart" id unit.execStart
    execStop := readField sec "ExecStop" id unit.execStop
    execReload := readField sec "ExecReload" id unit.execReload
    execStartPre := readField sec "ExecStartPre" splitRs unit.execStartPre
    execStartPost := readField sec "ExecStartPost" splitRs unit.execStartPost
    typeStr := readField sec "Type" id unit.typeStr
    restartPolicy := readField sec "Restart" id unit.restartPolicy
    user := readField sec "User" id unit.user
    group := readField sec "Group" id unit.group
    workingDirectory := readField sec "WorkingDirectory" (resolve os.info ctx) unit.workingDirectory
    runtimeDirectory := readField sec "RuntimeDirectory" (resolve os.info ctx) unit.runtimeDirectory
    pidFile := readField sec "PIDFile" (resolve os.info ctx) unit.pidFile
    restartLimitBurst := readField sec "StartLimitBurst" (fun v => fromCharsInt v 5)
      unit.restartLimitBurst
    restartLimitInterval := readField sec "StartLimitIntervalSec" (fun v => fromCharsInt v 10)
      unit.restartLimitInterval
    environment := readField sec "Environment" (fun v => parseEnvironment v unit.environment)
      unit.environment
    dynamicUser := readField sec "DynamicUser" (fun v => v = "yes" || v = "true" || v = "1")
      unit.dynamicUser }

/-- The block for `[Install]`. -/
def parseInstallSection (unit : UnitFile) (sec : UnorderedMap String String) : UnitFile :=
  { unit with
    wantedBy := readField sec "WantedBy" splitList unit.wantedBy
    requiredBy := readField sec "RequiredBy" splitList unit.requiredBy
    «alias» := readField sec "Alias" id unit.alias }

/-- The block for `[Mount]`. -/
def parseMountSection (unit : UnitFile) (sec : UnorderedMap String String) : UnitFile :=
  { unit with
    what := readField sec "What" id unit.what
    «where» := readField sec "Where" id unit.where
    mountType := readField sec "Type" id unit.mountType
    options := readField sec "Options" id unit.options }

/-- `if (auto it = sections.find(name); it != sections.end())` and its block. -/
def inSection (sections : Sections) (name : String)
    (block : UnitFile → UnorderedMap String String → UnitFile) (unit : UnitFile) : UnitFile :=
  match sections.lookup name with
  | some sec => block unit sec
  | none => unit

/-- The body of the loop of `execute(UnitParse)`, up to the log line. -/
def parse (os : ParseAnswers) (path : String) : UnitFile :=
  let sections := parseIni (os.files path)
  let name := basename path
  let unit : UnitFile :=
    { name := name, path := path, type := unitTypeFromSuffix name, rawSections := sections }
  let ctx := SpecifierContext.ofUnit name path
  let unit := inSection sections "Unit" (parseUnitSection os) unit
  let unit := inSection sections "Service" (parseServiceSection os ctx) unit
  let unit := inSection sections "Install" parseInstallSection unit
  inSection sections "Mount" parseMountSection unit

end UnitFile

namespace InitSystem

/-- One iteration of `execute(UnitParse)`. -/
def parseUnit (os : ParseAnswers) (s : InitSystem) (path : String) : InitSystem :=
  let unit := UnitFile.parse os path
  let name := unit.name
  let description := unit.description
  let s := s.log .debug "parser" s!"Parsed: {name} ({description})"
  { s with units := s.units.insert unit.name unit }

/-- `execute(UnitParse)`, on the discovered paths. -/
def executeUnitParse (s : InitSystem) (unitPaths : List String) (os : ParseAnswers) : InitSystem :=
  let s := s.log .info "parser" "Parsing unit files"
  let s := unitPaths.foldl (parseUnit os) s
  let total := s.units.entries.length
  s.log .info "parser" s!"Parsed {total} units"

end InitSystem

end TrivialInit
