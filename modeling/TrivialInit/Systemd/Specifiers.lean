import TrivialInit.Systemd.UnitFile

/-!
# Specifiers — `%x` expansion and command-line splitting

`specifiers.cpp` and the two copies of `split_exec`.  What the resolvers read from the running
system (`/etc/machine-id`, `uname`, the environment, …) is a `SystemInfo`.
-/

namespace TrivialInit

/-- What the system-dependent resolvers read. -/
structure SystemInfo where
  bootId : String := ""
  machineId : String := ""
  hostname : String := ""
  architecture : String := ""
  release : String := ""
  login : String := ""
  uid : Nat := 0
  gid : Nat := 0
  home : String := ""
  shell : Option String := none
  deriving DecidableEq, Repr

/-! ## Unescaping -/

/-- Value of a hexadecimal digit (`std::isxdigit`, `std::stoi(_, 16)`). -/
def hexValue? (c : Char) : Option Nat :=
  if '0' ≤ c ∧ c ≤ '9' then some (c.toNat - '0'.toNat)
  else if 'a' ≤ c ∧ c ≤ 'f' then some (c.toNat - 'a'.toNat + 10)
  else if 'A' ≤ c ∧ c ≤ 'F' then some (c.toNat - 'A'.toNat + 10)
  else none

def unescapeChars : List Char → List Char
  | '\\' :: 'x' :: a :: b :: rest =>
      match hexValue? a, hexValue? b with
      | some x, some y => Char.ofNat (16 * x + y) :: unescapeChars rest
      | _, _ => '\\' :: unescapeChars ('x' :: a :: b :: rest)
  | c :: rest => c :: unescapeChars rest
  | [] => []

def unitNameUnescape (s : String) : String :=
  String.ofList (unescapeChars s.toList)

/-! ## Contexts -/

structure SpecifierContext where
  unitName : String
  unitPath : String
  unitType : String
  unitPrefix : String
  unitInstance : String
  deriving DecidableEq, Repr

/-- The constructor `SpecifierContext(name, path)`. -/
def SpecifierContext.ofUnit (name path : String) : SpecifierContext :=
  let unitType :=
    match rfindChar name '.' with
    | some dot => dropStr name (dot + 1)
    | none => ""
  match findChar name '@', rfindChar name '.' with
  | some at', some dot =>
      if at' < dot then
        { unitName := name
          unitPath := path
          unitType := unitType
          unitPrefix := takeStr name at'
          unitInstance := takeStr (dropStr name (at' + 1)) (dot - at' - 1) }
      else
        { unitName := name, unitPath := path, unitType := unitType,
          unitPrefix := takeStr name dot, unitInstance := "" }
  | none, some dot =>
      { unitName := name, unitPath := path, unitType := unitType,
        unitPrefix := takeStr name dot, unitInstance := "" }
  | _, none =>
      { unitName := name, unitPath := path, unitType := unitType,
        unitPrefix := name, unitInstance := "" }

/-- The last `-`-separated component of the prefix. -/
def SpecifierContext.lastComponent (ctx : SpecifierContext) : String :=
  match rfindChar ctx.unitPrefix '-' with
  | none => ctx.unitPrefix
  | some pos => dropStr ctx.unitPrefix (pos + 1)

/-! ## Resolving -/

/-- The table filled by `register_core_resolvers`. -/
def resolver? (info : SystemInfo) (ctx : SpecifierContext) : Char → Option String
  | '%' => some "%"
  | 'n' => some ctx.unitName
  | 'N' => some (unitNameUnescape ctx.unitName)
  | 'p' => some ctx.unitPrefix
  | 'P' => some (unitNameUnescape ctx.unitPrefix)
  | 'i' => some ctx.unitInstance
  | 'I' => some (unitNameUnescape ctx.unitInstance)
  | 'f' => some (if ctx.unitInstance = "" then "" else "/" ++ unitNameUnescape ctx.unitInstance)
  | 'j' => some ctx.lastComponent
  | 'J' => some (unitNameUnescape ctx.lastComponent)
  | 't' => some "/run"
  | 'S' => some "/var/lib"
  | 'C' => some "/var/cache"
  | 'L' => some "/var/log"
  | 'E' => some "/etc"
  | 'b' => some info.bootId
  | 'm' => some info.machineId
  | 'H' => some info.hostname
  | 'a' => some info.architecture
  | 'v' => some info.release
  | 'o' => some ""
  | 'w' => some ""
  | 'W' => some ""
  | 'u' => some info.login
  | 'U' => some (toString info.uid)
  | 'g' => some (toString info.gid)
  | 'h' => some info.home
  | 's' => some (info.shell.getD "/bin/sh")
  | _ => none

def resolveChars (info : SystemInfo) (ctx : SpecifierContext) : List Char → List Char
  | [] => []
  | '%' :: spec :: rest =>
      match resolver? info ctx spec with
      | some text => text.toList ++ resolveChars info ctx rest
      | none => '%' :: spec :: resolveChars info ctx rest
  | c :: rest => c :: resolveChars info ctx rest

/-- `SpecifierResolver::resolve`. -/
def resolve (info : SystemInfo) (ctx : SpecifierContext) (input : String) : String :=
  String.ofList (resolveChars info ctx input.toList)

/-! ## Splitting a command line -/

/-- The loop of `split_exec`: `quote` is the open quote character, `word` the text collected so far
(reversed). -/
def splitExecLoop : List Char → Option Char → List Char → List String
  | [], _, word => if word = [] then [] else [String.ofList word.reverse]
  | c :: rest, some q, word =>
      if c = q then splitExecLoop rest none word else splitExecLoop rest (some q) (c :: word)
  | c :: rest, none, word =>
      if c = '"' ∨ c = '\'' then splitExecLoop rest (some c) word
      else if c = ' ' ∨ c = '\t' then
        if word = [] then splitExecLoop rest none []
        else String.ofList word.reverse :: splitExecLoop rest none []
      else splitExecLoop rest none (c :: word)

/-- `split_exec`. -/
def splitExec (s : String) : List String :=
  splitExecLoop s.toList none []

example : splitExec "/usr/bin/testd --name 'a b'" = ["/usr/bin/testd", "--name", "a b"] := by
  decide

end TrivialInit
