import TrivialInit.Lib.UnorderedMap

/-!
# UnitFile — parsed unit files and socket units

The records of `unit_file.hpp` and `socket_unit.hpp`.  A `std::string` is a `String` whose
characters are its bytes; an `int` is an `Int`; an `unordered_map` is an `UnorderedMap`.
-/

namespace TrivialInit

/-! ## Unit files -/

inductive UnitType
  | service
  | target
  | mount
  | socket
  | unknown
  deriving DecidableEq, Repr

/-- A single `Condition*=` or `Assert*=` entry. -/
structure ConditionEntry where
  type : String
  value : String
  negate : Bool
  isAssert : Bool
  deriving DecidableEq, Repr

structure UnitFile where
  name : String := ""
  path : String := ""
  type : UnitType := .unknown
  -- [Unit]
  description : String := ""
  wants : List String := []
  requires : List String := []
  after : List String := []
  before : List String := []
  conflicts : List String := []
  partOf : List String := []
  bindsTo : List String := []
  conditions : List ConditionEntry := []
  assertions : List ConditionEntry := []
  -- [Service]
  execStart : String := ""
  execStop : String := ""
  execReload : String := ""
  execStartPre : List String := []
  execStartPost : List String := []
  typeStr : String := ""
  restartPolicy : String := ""
  user : String := ""
  group : String := ""
  workingDirectory : String := ""
  runtimeDirectory : String := ""
  pidFile : String := ""
  environment : UnorderedMap String String := ∅
  dynamicUser : Bool := false
  restartLimitBurst : Int := 5
  restartLimitInterval : Int := 10
  -- [Install]
  wantedBy : List String := []
  requiredBy : List String := []
  «alias» : String := ""
  -- [Mount]
  what : String := ""
  «where» : String := ""
  mountType : String := ""
  options : String := ""
  rawSections : UnorderedMap String (UnorderedMap String String) := ∅

/-! ## Positions in a string -/

/-- `s.find(c)`: position of the first `c`. -/
def findChar (s : String) (c : Char) : Option Nat :=
  s.toList.findIdx? (· = c)

/-- `s.rfind(c)`: position of the last `c`. -/
def rfindChar (s : String) (c : Char) : Option Nat :=
  (s.toList.reverse.findIdx? (· = c)).map (fun i => s.length - 1 - i)

/-- `s.substr(0, n)`. -/
def takeStr (s : String) (n : Nat) : String :=
  String.ofList (s.toList.take n)

/-- `s.substr(n)`. -/
def dropStr (s : String) (n : Nat) : String :=
  String.ofList (s.toList.drop n)

theorem findIdx?_eq_none_of_not_mem {c : Char} {l : List Char} (h : c ∉ l) :
    l.findIdx? (· = c) = none := by
  rw [List.findIdx?_eq_none_iff]
  intro d hd
  have hne : d ≠ c := fun h' => h (h' ▸ hd)
  simp [hne]

theorem findIdx?_append_cons {c : Char} {l : List Char} (h : c ∉ l) (r : List Char) :
    (l ++ c :: r).findIdx? (· = c) = some l.length := by
  rw [List.findIdx?_append, findIdx?_eq_none_of_not_mem h, List.findIdx?_cons]
  simp

theorem rfindChar_eq_none {c : Char} {l : List Char} (h : c ∉ l) :
    rfindChar (String.ofList l) c = none := by
  rw [rfindChar, String.toList_ofList, findIdx?_eq_none_of_not_mem (by simpa using h)]
  rfl

theorem findChar_append_cons {c : Char} {l : List Char} (h : c ∉ l) (r : List Char) :
    findChar (String.ofList (l ++ c :: r)) c = some l.length := by
  rw [findChar, String.toList_ofList, findIdx?_append_cons h]

theorem rfindChar_append_cons {c : Char} {r : List Char} (h : c ∉ r) (l : List Char) :
    rfindChar (String.ofList (l ++ c :: r)) c = some l.length := by
  have hrev : (l ++ c :: r).reverse = r.reverse ++ c :: l.reverse := by simp
  rw [rfindChar, String.toList_ofList, hrev, findIdx?_append_cons (by simpa using h)]
  simp only [Option.map_some, String.length_ofList, List.length_append, List.length_cons,
    List.length_reverse, Option.some.injEq]
  omega

theorem takeStr_append (l r : List Char) :
    takeStr (String.ofList (l ++ r)) l.length = String.ofList l := by
  rw [takeStr, String.toList_ofList, List.take_left]

theorem dropStr_append_cons (l : List Char) (c : Char) (r : List Char) :
    dropStr (String.ofList (l ++ c :: r)) (l.length + 1) = String.ofList r := by
  rw [dropStr, String.toList_ofList, ← List.drop_drop, List.drop_left]
  rfl

/-! A text, a character and another text. -/

theorem separated_eq (l : String) (c : Char) (r : String) :
    l ++ String.singleton c ++ r = String.ofList (l.toList ++ c :: r.toList) := by
  rw [← String.toList_inj]
  simp

theorem findChar_separated {l : String} {c : Char} (h : c ∉ l.toList) (r : String) :
    findChar (l ++ String.singleton c ++ r) c = some l.length := by
  rw [separated_eq, findChar_append_cons h, String.length_toList]

theorem takeStr_separated (l : String) (c : Char) (r : String) :
    takeStr (l ++ String.singleton c ++ r) l.length = l := by
  rw [separated_eq, ← String.length_toList, takeStr_append, String.ofList_toList]

theorem dropStr_separated (l : String) (c : Char) (r : String) :
    dropStr (l ++ String.singleton c ++ r) (l.length + 1) = r := by
  rw [separated_eq, ← String.length_toList, dropStr_append_cons, String.ofList_toList]

theorem findChar_isSome_iff (s : String) (c : Char) : (findChar s c).isSome ↔ c ∈ s.toList := by
  simp [findChar]

theorem length_dropStr (s : String) (n : Nat) : (dropStr s n).length = s.length - n := by
  rw [dropStr, String.length_ofList, List.length_drop, String.length_toList]

/-- A bare template unit (`foo@.service`) has no instance. -/
def UnitFile.isBareTemplate (unit : UnitFile) : Bool :=
  match findChar unit.name '@', rfindChar unit.name '.' with
  | some at', some dot => at' + 1 = dot
  | _, _ => false

/-! ## Socket units -/

inductive ListenType
  | stream
  | datagram
  | sequentialPacket
  | fifo
  | special
  | netlink
  | messageQueue
  deriving DecidableEq, Repr

structure ListenEntry where
  type : ListenType
  address : String
  fd : Int := -1
  name : String := ""
  deriving DecidableEq, Repr

/-- `BindIPv6Only=` values. -/
inductive BindIPv6Only
  | default
  | both
  | ipv6Only
  deriving DecidableEq, Repr, Inhabited

/-- A parsed `[Socket]` section. -/
structure SocketUnit where
  name : String := ""
  path : String := ""
  listen : List ListenEntry := []
  -- Activation model
  accept : Bool := false
  backlog : Int := 128
  maxConn : Int := 0
  maxConnPerSource : Int := 0
  -- Socket options; the modes are 0666 and 0755.
  socketMode : Int := 438
  directoryMode : Int := 493
  reusePort : Bool := false
  freeBind : Bool := false
  transparent : Bool := false
  broadcast : Bool := false
  passCredentials : Bool := false
  passSecurity : Bool := false
  keepAlive : Bool := false
  noDelay : Bool := false
  ipv6only : BindIPv6Only := .default
  priority : Int := 0
  receiveBuffer : Int := 0
  sendBuffer : Int := 0
  iptos : Int := -1
  ipttl : Int := -1
  mark : Int := -1
  -- Ownership
  socketUser : String := ""
  socketGroup : String := ""
  -- Service pairing
  service : String := ""
  -- [Unit]
  description : String := ""
  wants : List String := []
  requires : List String := []
  after : List String := []
  before : List String := []
  wantedBy : List String := []
  requiredBy : List String := []
  -- Runtime state
  activeConnections : Int := 0
  deriving DecidableEq, Repr, Inhabited

/-- `paired_service`: `foo.socket` goes with `foo.service` unless `Service=` is set. -/
def SocketUnit.pairedService (sock : SocketUnit) : String :=
  if sock.service ≠ "" then sock.service
  else
    match rfindChar sock.name '.' with
    | some dot => takeStr sock.name dot ++ ".service"
    | none => sock.name ++ ".service"

end TrivialInit
