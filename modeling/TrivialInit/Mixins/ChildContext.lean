import TrivialInit.Mixins.Socket
import TrivialInit.Mixins.UnitParse

/-!
# ProcessMixin — the child between `fork` and `execvp`

The user and group look-ups of `process.hpp`, `setup_child_context`, and the child branches of
`spawn` and `spawn_with_socket_fds`.

* `uid_t` and `gid_t` are unsigned with 32 bits, `unsigned long` has 64.
* `none` is an exception that nothing catches, so the child ends in `std::terminate`.
* `/etc/passwd` and `/etc/group` enter as their contents (`none`: the file cannot be opened) and do
  not change while one child is set up.
-/

namespace TrivialInit

/-- `(uid_t)-1`, and `(gid_t)-1`. -/
def noId : UInt32 := -1

/-! ## Look-ups -/

/-- `std::isspace` in the C locale. -/
def isSpace (c : Char) : Bool :=
  c = ' ' || c = '\t' || c = '\n' || c = '\x0b' || c = '\x0c' || c = '\r'

/-- `std::isdigit`. -/
def isDigit (c : Char) : Bool :=
  decide ('0' ≤ c ∧ c ≤ '9')

/-- `ULONG_MAX`. -/
def ulongMax : Nat := 0xffffffffffffffff

/-- `std::stoul`: leading white space, a sign, digits; a negative number is negated modulo `2^64`.
`none` is `std::invalid_argument` or `std::out_of_range`. -/
def stoul (text : String) : Option Nat :=
  let (negative, body) :=
    match text.toList.dropWhile isSpace with
    | '-' :: rest => (true, rest)
    | '+' :: rest => (false, rest)
    | chars => (false, chars)
  let digits := body.takeWhile isDigit
  let value := digits.foldl (fun n c => 10 * n + (c.toNat - '0'.toNat)) 0
  if digits = [] ∨ ulongMax < value then none
  else some (if negative then (ulongMax + 1 - value) % (ulongMax + 1) else value)

/-- The fields `getline` yields with a delimiter; a delimiter at the end starts no other field. -/
def getFields (delim : Char) (line : List Char) : List String :=
  let fields := line.splitOn delim
  (if fields.getLast? = some [] then fields.dropLast else fields).map String.ofList

/-- The loop over the columns in `lookup_uid` and `lookup_gid`: name and number of one line. -/
def readIdLine (line : List Char) : Option (String × UInt32) :=
  let fields := getFields ':' line
  match fields[2]? with
  | none => some (fields.headD "", 0)
  | some field => (stoul field).map (fun id => (fields.headD "", UInt32.ofNat id))

/-- The loop over the lines in `lookup_uid` and `lookup_gid`. -/
def scanIdLines (name : String) : List (List Char) → Option UInt32
  | [] => some noId
  | line :: lines =>
      match readIdLine line with
      | none => none
      | some (entry, id) => if entry = name then some id else scanIdLines name lines

/-- The common body of `lookup_uid` and `lookup_gid`. -/
def lookupId (file : Option String) (name : String) : Option UInt32 :=
  if name = "" then some noId
  else if name.toList.all isDigit then (stoul name).map UInt32.ofNat
  else scanIdLines name (getlines ((file.getD "").toList))

/-- `lookup_uid`. -/
def lookupUid (passwd : Option String) (name : String) : Option Uid :=
  lookupId passwd name

/-- `lookup_gid`. -/
def lookupGid (group : Option String) (name : String) : Option Gid :=
  lookupId group name

/-- The loop over the columns in `lookup_home`: number and home directory of one line. -/
def readHomeLine (line : List Char) : Option (Uid × String) :=
  let fields := getFields ':' line
  match fields[2]? with
  | none => some (0, "")
  | some field => (stoul field).map (fun id => (UInt32.ofNat id, fields.getD 5 ""))

/-- The loop over the lines in `lookup_home`. -/
def scanHomeLines (uid : Uid) : List (List Char) → Option String
  | [] => some "/"
  | line :: lines =>
      match readHomeLine line with
      | none => none
      | some (entry, home) => if entry = uid then some home else scanHomeLines uid lines

/-- `lookup_home`. -/
def lookupHome (passwd : Option String) (uid : Uid) : Option String :=
  scanHomeLines uid (getlines ((passwd.getD "").toList))

/-! ## Runtime directories -/

/-- The calls of the block on `RuntimeDirectory=`, which stands in `start_service` and once more in
`setup_child_context`. -/
def runtimeDirectoryCalls (unit : UnitFile) (passwd group : Option String) :
    Option (List RuntimeDirCall) :=
  if unit.runtimeDirectory = "" then some []
  else
    let rpath := "/run/" ++ unit.runtimeDirectory
    let made : RuntimeDirCall := .mkdir rpath 493
    if unit.user = "" then some [made]
    else
      match lookupUid passwd unit.user with
      | none => none
      | some uid =>
          match if unit.group = "" then some uid else lookupGid group unit.group with
          | none => none
          | some gid => some (if uid = noId then [made] else [made, .chown rpath uid gid])

/-! ## The attributes of the child -/

structure ChildState where
  pid : Pid
  uid : Uid
  gid : Gid
  groups : List Gid := []
  cwd : String := "/"
  environ : UnorderedMap String String := ∅
  fds : FdTable := fun _ => none
  runtimeDirCalls : List RuntimeDirCall := []

/-- The answers of the system to the calls of one child. -/
structure ChildAnswers where
  passwd : Option String
  group : Option String
  setgid : Gid → Bool
  /-- The supplementary groups `initgroups` sets; `none` is a failure. -/
  initgroups : String → Gid → Option (List Gid)
  setuid : Uid → Bool
  chdir : String → Bool

namespace ChildState

/-- A failing call changes no credentials. -/
def setgid (child : ChildState) (os : ChildAnswers) (gid : Gid) : ChildState :=
  if os.setgid gid then { child with gid := gid } else child

def initgroups (child : ChildState) (os : ChildAnswers) (user : String) (gid : Gid) : ChildState :=
  match os.initgroups user gid with
  | some groups => { child with groups := groups }
  | none => child

def setuid (child : ChildState) (os : ChildAnswers) (uid : Uid) : ChildState :=
  if os.setuid uid then { child with uid := uid } else child

def chdir (child : ChildState) (os : ChildAnswers) (path : String) : ChildState :=
  if os.chdir path then { child with cwd := path } else child

/-- `setenv`; a name that is empty or has a `=` is refused. -/
def setenv (child : ChildState) (name value : String) (overwrite : Bool) : ChildState :=
  if name = "" ∨ '=' ∈ name.toList ∨ (overwrite = false ∧ name ∈ child.environ) then child
  else { child with environ := child.environ.insert name value }

/-- `putenv` of a string `name=value`. -/
def putenv (child : ChildState) (name value : String) : ChildState :=
  { child with environ := child.environ.insert name value }

/-- `for (auto& [k, v] : unit.environment) ::setenv(k.c_str(), v.c_str(), 1);` -/
def setEnvironment (child : ChildState) (unit : UnitFile) : ChildState :=
  unit.environment.entries.foldl (fun child e => child.setenv e.1 e.2 true) child

/-- The block on `RuntimeDirectory=`. -/
def createRuntimeDirectory (child : ChildState) (unit : UnitFile) (os : ChildAnswers) :
    Option ChildState :=
  (runtimeDirectoryCalls unit os.passwd os.group).map (fun calls =>
    { child with runtimeDirCalls := child.runtimeDirCalls ++ calls })

end ChildState

/-! ## Dropping privileges -/

/-- The local variable `dynamic_user`. -/
def isDynamicUser (unit : UnitFile) : Bool :=
  unit.dynamicUser ||
    match (unit.rawSections.lookup "Service").bind (fun sec => sec.lookup "DynamicUser") with
    | none => false
    | some v => v = "yes" || v = "true" || v = "1"

/-- The value of `target_gid` for a known user. -/
def targetGid (unit : UnitFile) (os : ChildAnswers) (targetUid : Uid) : Option Gid :=
  if unit.group = "" then some targetUid
  else (lookupGid os.group unit.group).map (fun gid => if gid = noId then targetUid else gid)

/-- The branch of `setup_child_context` for a known user. -/
def becomeUser (unit : UnitFile) (os : ChildAnswers) (targetUid : Uid) (child : ChildState) :
    Option ChildState :=
  match targetGid unit os targetUid with
  | none => none
  | some gid =>
      let child := if gid = noId then child else child.setgid os gid
      let child := child.initgroups os unit.user (if gid = noId then 0 else gid)
      let child := child.setuid os targetUid
      let child := child.setenv "USER" unit.user false
      let child := child.setenv "LOGNAME" unit.user false
      match lookupHome os.passwd targetUid with
      | none => none
      | some home =>
          let child := child.setenv "HOME" home false
          let child :=
            if unit.workingDirectory ≠ "" then child.chdir os unit.workingDirectory
            else if targetUid ≠ 0 then child.chdir os home
            else child
          some (child.setEnvironment unit)

/-- The end of `setup_child_context`: no user, an unknown one, or `DynamicUser=yes`. -/
def stayRoot (unit : UnitFile) (os : ChildAnswers) (child : ChildState) : ChildState :=
  let child :=
    if unit.workingDirectory ≠ "" then child.chdir os unit.workingDirectory else child
  child.setEnvironment unit

/-- `setup_child_context`: the result, and the child's attributes afterwards. -/
def setupChildContext (unit : UnitFile) (os : ChildAnswers) (child : ChildState) :
    Option (Bool × ChildState) :=
  match child.createRuntimeDirectory unit os with
  | none => none
  | some child =>
      if isDynamicUser unit = false ∧ unit.user ≠ "" then
        match lookupUid os.passwd unit.user with
        | none => none
        | some targetUid =>
            if targetUid = noId then some (true, stayRoot unit os child)
            else (becomeUser unit os targetUid child).map (fun child => (true, child))
      else some (true, stayRoot unit os child)

/-! ## The two child branches -/

/-- How far a child gets. -/
inductive ChildFate
  /-- It calls `execvp` with these attributes (and `_exit(127)` should the call return). -/
  | execvp (path : String) (argv : List String) (child : ChildState)
  | exited (status : Nat)
  /-- An exception escapes. -/
  | terminated

/-- The child of `spawn`. -/
def spawnChild (execPath : String) (args : List String) (unitCtx : Option UnitFile)
    (os : ChildAnswers) (child : ChildState) : ChildFate :=
  match unitCtx with
  | none => .execvp execPath (execPath :: args) child
  | some unit =>
      match setupChildContext unit os child with
      | none => .terminated
      | some (ok, child) =>
          if ok = false then .exited 126 else .execvp execPath (execPath :: args) child

/-- The child of `spawn_with_socket_fds`. -/
def spawnWithSocketFdsChild (execPath : String) (args : List String) (env : SocketEnv)
    (unitCtx : Option UnitFile) (os : ChildAnswers) (child : ChildState) : ChildFate :=
  match rearrangeFds env.fds child.fds with
  | none => .exited 125
  | some fds =>
      let child := { child with fds := fds }
      let child := child.putenv "LISTEN_PID" (toString child.pid)
      let child := child.putenv "LISTEN_FDS" (toString env.fds.length)
      let child := child.putenv "LISTEN_FDNAMES"
        (":".intercalate (env.names.take env.fds.length))
      match unitCtx with
      | none => .execvp execPath (execPath :: args) child
      | some unit =>
          match setupChildContext unit os child with
          | none => .terminated
          | some (_, child) => .execvp execPath (execPath :: args) child

end TrivialInit
