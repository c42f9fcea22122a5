import TrivialInit.Properties.ChildEnvironment
import TrivialInit.Properties.Configuration
import TrivialInit.Properties.ForkedChildren
import TrivialInit.Properties.UnitFields

/-!
# StartedPrograms — init executes what the unit files say

Every child that is ever forked belongs to a unit that was parsed from a discovered file, and its
command line is made of a value of `ExecStartPre=` or `ExecStart=` in the `[Service]` section of that
file (`RunState.programs_written`).  What the program starts with besides its arguments follows from
the unit, the sockets it is passed and the environment of PID 1 (`RunState.programs_configured`).
-/

namespace TrivialInit

open InitSystem

/-! ## The values of a command -/

theorem splitRs_accumulateValue (existing val : String) :
    splitRs (accumulateValue existing val) = splitRs existing ++ splitRs val := by
  unfold accumulateValue
  by_cases h : existing = ""
  · subst h
    rfl
  · have hlist : (existing ++ "\x1f" ++ val).toList = existing.toList ++ '\x1f' :: val.toList := by
      simp
    rw [if_neg h]
    unfold splitRs
    rw [hlist, List.splitOn_append_cons_self, List.filter_append, List.map_append]

/-- The values of a key come apart again where `parse_ini` joined them. -/
theorem splitRs_joinValues (values : List String) :
    splitRs (joinValues values) = values.flatMap splitRs := by
  have hfold : ∀ e, splitRs (values.foldl accumulateValue e) =
      splitRs e ++ values.flatMap splitRs := by
    induction values with
    | nil => simp
    | cons v values ih =>
        intro e
        rw [List.foldl_cons, ih, splitRs_accumulateValue, List.flatMap_cons, List.append_assoc]
  exact hfold ""

/-- The values given to a key of `[Service]` in the file at `path`. -/
def serviceValues (os : ParseAnswers) (path key : String) : List String :=
  valuesOf (assignments (os.files path)) "Service" key

namespace UnitFile

/-- A field that `[Service]` alone sets, from one key. -/
theorem get_parse_service {β : Type} (get : UnitFile → β) {key : String} {convert : String → β}
    {start : β}
    (hunit : ∀ os unit sec, get (parseUnitSection os unit sec) = get unit)
    (hservice : ∀ os ctx unit sec, get unit = start →
      get (parseServiceSection os ctx unit sec) = readField sec key convert start)
    (hinstall : ∀ unit sec, get (parseInstallSection unit sec) = get unit)
    (hmount : ∀ unit sec, get (parseMountSection unit sec) = get unit)
    (hstart : ∀ name path type sections, get
      { name := name, path := path, type := type, rawSections := sections } = start)
    (os : ParseAnswers) (path : String) :
    get (parse os path) =
      ((storedValue (serviceValues os path key)).map convert).getD start := by
  have hbefore : get (inSection (parseIni (os.files path)) "Unit" (parseUnitSection os)
      { name := basename path
        path := path
        type := unitTypeFromSuffix (basename path)
        rawSections := parseIni (os.files path) }) = start :=
    (get_inSection_of_same get (parseUnitSection os) (hunit os) _).trans (hstart _ _ _ _)
  unfold parse
  simp only
  rw [get_inSection_of_same get parseMountSection hmount,
    get_inSection_of_same get parseInstallSection hinstall,
    get_inSection_of_read get (hservice os _) hbefore, valueAt_parseIni]
  rfl

theorem execStart_parse (os : ParseAnswers) (path : String) :
    (parse os path).execStart = joinValues (serviceValues os path "ExecStart") := by
  have hread := get_parse_service UnitFile.execStart
    (fun os unit sec => get_foldl UnitFile.execStart
      (get_addConditions UnitFile.execStart (fun _ _ => rfl) (fun _ _ => rfl) _) _ _)
    (fun os ctx unit sec (h : unit.execStart = "") => by
      rw [← h]
      exact rfl)
    (fun _ _ => rfl) (fun _ _ => rfl) (fun _ _ _ _ => rfl) os path
  rw [hread]
  unfold storedValue
  split_ifs with hnone
  · rw [hnone]
    rfl
  · rfl

theorem execStartPre_parse (os : ParseAnswers) (path : String) :
    (parse os path).execStartPre = (serviceValues os path "ExecStartPre").flatMap splitRs := by
  have hread := get_parse_service UnitFile.execStartPre
    (fun os unit sec => get_foldl UnitFile.execStartPre
      (get_addConditions UnitFile.execStartPre (fun _ _ => rfl) (fun _ _ => rfl) _) _ _)
    (fun os ctx unit sec (h : unit.execStartPre = []) => by
      rw [← h]
      exact rfl)
    (fun _ _ => rfl) (fun _ _ => rfl) (fun _ _ _ _ => rfl) os path
  rw [hread]
  unfold storedValue
  split_ifs with hnone
  · rw [hnone]
    rfl
  · exact splitRs_joinValues _

end UnitFile

/-! ## A forked child -/

namespace ForkedChild

/-- The variables that announce the sockets passed to the child `pid`. -/
def announced (p : ForkedChild) (pid : Pid) (k : String) : Option String :=
  p.env.bind (fun env =>
    if k = "LISTEN_FDNAMES" then some (":".intercalate (env.names.take env.fds.length))
    else if k = "LISTEN_FDS" then some (toString env.fds.length)
    else if k = "LISTEN_PID" then some (toString pid)
    else none)

/-- The program, its arguments, its variables and its working directory are those the unit asks
for. -/
def Starts (p : ForkedChild) (os : ChildAnswers) (child : ChildState) (path : String)
    (argv : List String) (child' : ChildState) : Prop :=
  path = p.execPath ∧ argv = p.execPath :: p.args ∧
    (∀ k, child'.environ.lookup k =
      (p.unit.assigned k).or ((p.announced child.pid k).or ((child.environ.lookup k).or
        ((childUser p.unit os).bind (fun uid => userVariable p.unit os uid k))))) ∧
    child'.cwd = ((askedDirectory p.unit os).filter os.chdir).getD child.cwd

theorem starts_of_execvp {p : ForkedChild} {os : ChildAnswers} {child child' : ChildState}
    {path : String} {argv : List String} (h : p.fate os child = .execvp path argv child') :
    p.Starts os child path argv child' := by
  unfold fate at h
  cases henv : p.env with
  | none =>
      simp only [henv, spawnChild] at h
      cases hsetup : setupChildContext p.unit os child with
      | none => simp [hsetup] at h
      | some result =>
          obtain ⟨ok, c⟩ := result
          obtain ⟨henviron, hcwd⟩ := ChildState.setupChildContext_spec hsetup
          simp only [hsetup] at h
          split_ifs at h
          obtain ⟨rfl, rfl, rfl⟩ := ChildFate.execvp.inj h
          refine ⟨rfl, rfl, fun k => ?_, hcwd⟩
          -- Without sockets the child starts with the variables of PID 1.
          rw [henviron, announced, henv]
          rfl
  | some env =>
      simp only [henv, spawnWithSocketFdsChild] at h
      cases hfds : rearrangeFds env.fds child.fds with
      | none => simp [hfds] at h
      | some fds =>
          simp only [hfds] at h
          split at h
          · cases h
          · rename_i ok c hsetup
            obtain ⟨henviron, hcwd⟩ := ChildState.setupChildContext_spec hsetup
            obtain ⟨rfl, rfl, rfl⟩ := ChildFate.execvp.inj h
            refine ⟨rfl, rfl, fun k => ?_, hcwd⟩
            -- The `LISTEN_` variables are put over those of PID 1 before the unit's own.
            rw [henviron, announced, henv]
            simp only [ChildState.lookup_putenv, Option.bind_some]
            split_ifs <;> rfl

/-- The command is one of the unit's, as `start_service` or `accept_ready` reads it. -/
inductive FromUnit (p : ForkedChild) : Prop
  | startPre (info : SystemInfo) (text : String) (htext : text ∈ p.unit.execStartPre)
      (hwords : commandWords info (SpecifierContext.ofUnit p.name p.unit.path)
        (stripDash text).2 = some (p.execPath, p.args))
  | main (info : SystemInfo)
      (hwords : commandWords info (SpecifierContext.ofUnit p.name p.unit.path)
        (stripDash p.unit.execStart).2 = some (p.execPath, p.args))
  | connection (hwords : splitExec p.unit.execStart = p.execPath :: p.args)

/-- The command is written in the unit file at `path`. -/
structure Written (os : ParseAnswers) (path : String) (p : ForkedChild) : Prop where
  name : p.name = basename path
  unit : p.unit = UnitFile.parse os path
  command :
    (∃ info, ∃ value ∈ serviceValues os path "ExecStartPre", ∃ text ∈ splitRs value,
      commandWords info (SpecifierContext.ofUnit (basename path) path) (stripDash text).2 =
        some (p.execPath, p.args)) ∨
    (∃ info, commandWords info (SpecifierContext.ofUnit (basename path) path)
      (stripDash (joinValues (serviceValues os path "ExecStart"))).2 =
        some (p.execPath, p.args)) ∨
    splitExec (joinValues (serviceValues os path "ExecStart")) = p.execPath :: p.args

theorem FromUnit.written {p : ForkedChild} (h : p.FromUnit) {os : ParseAnswers} {path : String}
    (hname : p.name = basename path) (hunit : p.unit = UnitFile.parse os path) :
    p.Written os path := by
  refine ⟨hname, hunit, ?_⟩
  cases h with
  | startPre info text htext hwords =>
      rw [hunit, UnitFile.execStartPre_parse] at htext
      obtain ⟨value, hvalue, htext⟩ := List.mem_flatMap.mp htext
      rw [hname, hunit, UnitFile.path_parse] at hwords
      exact Or.inl ⟨info, value, hvalue, text, htext, hwords⟩
  | main info hwords =>
      rw [hname, hunit, UnitFile.path_parse, UnitFile.execStart_parse] at hwords
      exact Or.inr (Or.inl ⟨info, hwords⟩)
  | connection hwords =>
      rw [hunit, UnitFile.execStart_parse] at hwords
      exact Or.inr (Or.inr hwords)

end ForkedChild

/-! ## Forks and loaded units -/

namespace StartInv

variable {units : UnorderedMap String UnitFile} {m : RunState}

/-- A child is forked for a loaded unit, with a command of that unit. -/
theorem started (h : StartInv units m) (e : RunEvent) {p : ForkedChild}
    (hp : p ∈ m.forkedChildren e) : units.lookup p.name = some p.unit ∧ p.FromUnit := by
  cases e with
  | program a =>
      cases hstep : m.programStep a with
      | none => simp [RunState.forkedChildren, hstep] at hp
      | some m' =>
          have hlaunches := RunState.programStep_launches hstep
          generalize m.forks (.program a) = pids at hlaunches
          generalize m.forkedChildren (.program a) = children at hlaunches hp
          cases hlaunches with
          | none => cases hp
          | @startPre call back preCmd rest pid words hpoint htodo hwords =>
              obtain rfl := List.mem_singleton.mp hp
              obtain ⟨⟨hunit, -⟩, hsuffix⟩ := h.call call back (by rw [hpoint]; rfl)
              -- The commands to come are a suffix of the list in the unit.
              have hhead : preCmd ∈ call.unit.execStartPre := hsuffix.subset (htodo ▸ List.mem_cons_self)
              exact ⟨hunit, .startPre call.info _ hhead hwords⟩
          | @main call back pid words hpoint hwords =>
              obtain rfl := List.mem_singleton.mp hp
              obtain ⟨⟨hunit, -⟩, -⟩ := h.call call back (by rw [hpoint]; rfl)
              exact ⟨hunit, .main call.info hwords⟩
          | @connection sock conn file pid unit words hconn hunit hwords =>
              obtain rfl := List.mem_singleton.mp hp
              refine ⟨h.loaded ▸ hunit, .connection ?_⟩
              cases hsplit : splitExec unit.execStart with
              | nil => simp [hsplit, headArgs] at hwords
              | cons execPath args =>
                  rw [hsplit] at hwords
                  obtain rfl := Option.some.inj hwords
                  exact hsplit
  | _ => cases hp

end StartInv

namespace RunState

theorem programs_loaded (journal : Journal) (units : UnorderedMap String UnitFile) (fds : FdTable)
    (os : SocketBindAnswers) (inDegreeOrder : List String) (es : List RunEvent) :
    ∀ p ∈ StepRun.trace RunState.step forkedChildren (RunState.boot
        ((parsed journal units fds).boundAndResolved os inDegreeOrder)) es,
      units.lookup p.name = some p.unit ∧ p.FromUnit := by
  have hboot := StartInv.boot (.boot (parsed_tableInv journal units fds os inDegreeOrder))
  have hunits : ((parsed journal units fds).boundAndResolved os inDegreeOrder).units = units :=
    (boundAndResolved_tables (parsed journal units fds) os inDegreeOrder).units
  rw [hunits] at hboot
  exact StepRun.forall_mem_trace (StartInv units) (fun _ _ _ h hstep => h.step hstep)
    (fun _ e h _ hp => h.started e hp) hboot es

/-- Whatever happens in a run: every child that is forked belongs to a unit whose file was found, and
its command line is written in that file. -/
theorem programs_written (journal : Journal) (paths : List String) (files : ParseAnswers)
    (fds : FdTable) (os : SocketBindAnswers) (inDegreeOrder : List String) (es : List RunEvent) :
    let units := (InitSystem.executeUnitParse {} paths files).units
    let start := RunState.boot ((parsed journal units fds).boundAndResolved os inDegreeOrder)
    let programs := StepRun.trace RunState.step forkedChildren start es
    programs.length = (StepRun.trace RunState.step forks start es).length ∧
      ∀ p ∈ programs, ∃ path ∈ paths, p.Written files path := by
  intro units start programs
  refine ⟨StepRun.length_trace_congr length_forkedChildren start es, fun p hp => ?_⟩
  obtain ⟨hunit, hfrom⟩ := programs_loaded journal units fds os inDegreeOrder es p hp
  rw [lookup_executeUnitParse] at hunit
  cases hpath : paths.reverse.find? (fun path => p.name = basename path) with
  | none => simp [hpath] at hunit
  | some path =>
      rw [hpath] at hunit
      have hname : p.name = basename path := by simpa using List.find?_some hpath
      exact ⟨path, List.mem_reverse.mp (List.mem_of_find?_eq_some hpath),
        hfrom.written hname (Option.some.inj hunit).symm⟩

/-- A service with a command to run first. -/
def fastWebFiles : ParseAnswers :=
  { files := fun _ => some ("[Service]\nExecStartPre=-/bin/mkdir /run/web\n" ++
      "ExecStart=/bin/web %n\nEnvironment=MODE=fast\n") }

/-- Both commands are run. -/
def fastWebRun : List RunEvent :=
  [ .program {}
  , .program { forked := .ok 100 }
  , .exits 100 (.exited 0)
  , .program {}
  , .program { forked := .ok 101 } ]

theorem programs_written_sample :
    let units := (InitSystem.executeUnitParse {} ["/etc/web.service"] fastWebFiles).units
    let start := RunState.boot ((parsed {} units (fun _ => none)).boundAndResolved oneDescriptor
      ["web.service"])
    let programs := StepRun.trace RunState.step forkedChildren start fastWebRun
    programs.map (fun p => (p.execPath, p.args)) =
        [("/bin/mkdir", ["/run/web"]), ("/bin/web", ["web.service"])] ∧
      ∀ p ∈ programs, p.Written fastWebFiles "/etc/web.service" := by
  intro units start programs
  refine ⟨by decide +kernel, fun p hp => ?_⟩
  obtain ⟨path, hpath, hwritten⟩ := (programs_written {} ["/etc/web.service"] fastWebFiles
    (fun _ => none) oneDescriptor ["web.service"] fastWebRun).2 p hp
  exact List.mem_singleton.mp hpath ▸ hwritten

/-- Every program a run starts is a command of a loaded unit, and when it gets to `execvp` it has the
arguments, the variables and the directory the unit asks for. -/
theorem programs_configured (journal : Journal) (units : UnorderedMap String UnitFile)
    (fds : FdTable) (os : SocketBindAnswers) (inDegreeOrder : List String) (es : List RunEvent) :
    ∀ p ∈ StepRun.trace RunState.step forkedChildren (RunState.boot
        ((parsed journal units fds).boundAndResolved os inDegreeOrder)) es,
      units.lookup p.name = some p.unit ∧ p.FromUnit ∧
        ∀ (os : ChildAnswers) (child child' : ChildState) (path : String) (argv : List String),
          p.fate os child = .execvp path argv child' → p.Starts os child path argv child' := by
  intro p hp
  obtain ⟨hunit, hfrom⟩ := programs_loaded journal units fds os inDegreeOrder es p hp
  exact ⟨hunit, hfrom, fun _ _ _ _ _ h => ForkedChild.starts_of_execvp h⟩

theorem programs_configured_sample :
    let units := (InitSystem.executeUnitParse {} ["/etc/web.service"] fastWebFiles).units
    let start := RunState.boot ((parsed {} units (fun _ => none)).boundAndResolved oneDescriptor
      ["web.service"])
    let programs := StepRun.trace RunState.step forkedChildren start fastWebRun
    programs.length = 2 ∧ ∀ p ∈ programs, ∀ os child path argv child',
      p.fate os child = .execvp path argv child' → child'.environ.lookup "MODE" = some "fast" := by
  intro units start programs
  have hmode : programs.length = 2 ∧ ∀ p ∈ programs, p.unit.assigned "MODE" = some "fast" := by
    decide +kernel
  refine ⟨hmode.1, fun p hp os child path argv child' hfate => ?_⟩
  obtain ⟨hunit, -, hstarts⟩ := programs_configured {} units (fun _ => none) oneDescriptor
    ["web.service"] fastWebRun p hp
  obtain ⟨-, -, henviron, -⟩ := hstarts os child child' path argv hfate
  rw [henviron "MODE", hmode.2 p hp]
  rfl

end RunState

end TrivialInit
