import TrivialInit.Mixins.UnitParse

/-!
# SocketMixin — parsing and binding sockets

The functions of `socket.hpp` that turn a parsed `[Socket]` section into listening descriptors:
`parse_socket_unit`, `expand_specifiers`, `execute(SocketBind)` with its seven listener kinds, and
`close_all_sockets`.  The options `apply_opts` sets and the flag `set_nonblock` sets are left out:
their calls neither open nor close a descriptor, and their results are not looked at.
-/

namespace TrivialInit

/-! ## Parsing -/

/-- `detail::parse_bool`. -/
def parseBool (sv : String) (otherwise : Bool) : Bool :=
  if sv = "yes" ∨ sv = "true" ∨ sv = "1" ∨ sv = "on" then true
  else if sv = "no" ∨ sv = "false" ∨ sv = "0" ∨ sv = "off" then false
  else otherwise

/-- `detail::parse_int`. -/
def parseInt (sv : String) (otherwise : Int) : Int :=
  fromCharsInt sv otherwise

/-- `detail::parse_octal`. -/
def parseOctal (sv : String) (otherwise : Int) : Int :=
  if sv.toList.all (fun c => decide ('0' ≤ c ∧ c ≤ '7')) then
    let v := sv.toList.foldl (fun v c => v * 8 + ((c.toNat - '0'.toNat : Nat) : Int)) 0
    if v ≠ 0 then v else otherwise
  else otherwise

/-- An operation on `int` with the exact result `n`; `none` is a signed overflow, which is
undefined. -/
def checkedInt (n : Int) : Option Int :=
  if -2147483648 ≤ n ∧ n ≤ 2147483647 then some n else none

/-- The loop of `parse_octal` on a 32-bit `int`. -/
def parseOctalLoop (otherwise : Int) : List Char → Int → Option Int
  | [], v => some (if v ≠ 0 then v else otherwise)
  | c :: rest, v =>
      if c < '0' ∨ '7' < c then some otherwise
      else
        match checkedInt (v * 8) with
        | none => none
        | some w =>
            match checkedInt (w + ((c.toNat - '0'.toNat : Nat) : Int)) with
            | none => none
            | some v => parseOctalLoop otherwise rest v

/-- `detail::parse_octal` with its arithmetic; as long as nothing overflows it is `parseOctal`. -/
def parseOctal32 (sv : String) (otherwise : Int) : Option Int :=
  parseOctalLoop otherwise sv.toList 0

/-- The lambda `add_listen`: `\x1f` becomes a space, then spaces and tabs separate. -/
def addListen (listen : List ListenEntry) (raw : String) (lt : ListenType) : List ListenEntry :=
  if raw = "" then listen
  else
    let r := raw.toList.map (fun c => if c = '\x1f' then ' ' else c)
    listen ++ (splitLoop isBlank r.length r).map (fun address =>
      { type := lt, address := address })

/-- The calls of `add_listen`, in order. -/
def listenDirectives : List (String × ListenType) :=
  [("ListenStream", .stream), ("ListenDatagram", .datagram),
    ("ListenSequentialPacket", .sequentialPacket), ("ListenFIFO", .fifo),
    ("ListenSpecial", .special), ("ListenNetlink", .netlink),
    ("ListenMessageQueue", .messageQueue)]

/-- `if (auto v = get(key); !v.empty()) field = convert(v);` -/
def readOption {α : Type} (sec : UnorderedMap String String) (key : String)
    (convert : String → α) (old : α) : α :=
  let v := (sec.lookup key).getD ""
  if v = "" then old else convert v

/-- `parse_socket_unit`. -/
def parseSocketUnit (unit : UnitFile) : SocketUnit :=
  let sock : SocketUnit :=
    { name := unit.name
      path := unit.path
      description := unit.description
      wants := unit.wants
      requires := unit.requires
      after := unit.after
      before := unit.before
      wantedBy := unit.wantedBy
      requiredBy := unit.requiredBy }
  match unit.rawSections.lookup "Socket" with
  | none => sock
  | some sec =>
      { sock with
        listen := listenDirectives.foldl
          (fun listen d => addListen listen ((sec.lookup d.1).getD "") d.2) []
        accept := readOption sec "Accept" (fun v => parseBool v false) sock.accept
        backlog := readOption sec "Backlog" (fun v => parseInt v 128) sock.backlog
        maxConn := readOption sec "MaxConnections" (fun v => parseInt v 0) sock.maxConn
        maxConnPerSource := readOption sec "MaxConnectionsPerSource" (fun v => parseInt v 0)
          sock.maxConnPerSource
        socketMode := readOption sec "SocketMode" (fun v => parseOctal v 438) sock.socketMode
        directoryMode := readOption sec "DirectoryMode" (fun v => parseOctal v 493)
          sock.directoryMode
        reusePort := readOption sec "ReusePort" (fun v => parseBool v false) sock.reusePort
        freeBind := readOption sec "FreeBind" (fun v => parseBool v false) sock.freeBind
        transparent := readOption sec "Transparent" (fun v => parseBool v false) sock.transparent
        broadcast := readOption sec "Broadcast" (fun v => parseBool v false) sock.broadcast
        passCredentials := readOption sec "PassCredentials" (fun v => parseBool v false)
          sock.passCredentials
        passSecurity := readOption sec "PassSecurity" (fun v => parseBool v false)
          sock.passSecurity
        keepAlive := readOption sec "KeepAlive" (fun v => parseBool v false) sock.keepAlive
        noDelay := readOption sec "NoDelay" (fun v => parseBool v false) sock.noDelay
        priority := readOption sec "Priority" (fun v => parseInt v 0) sock.priority
        receiveBuffer := readOption sec "ReceiveBuffer" (fun v => parseInt v 0) sock.receiveBuffer
        sendBuffer := readOption sec "SendBuffer" (fun v => parseInt v 0) sock.sendBuffer
        iptos := readOption sec "IPTOS" (fun v => parseInt v (-1)) sock.iptos
        ipttl := readOption sec "IPTTL" (fun v => parseInt v (-1)) sock.ipttl
        mark := readOption sec "Mark" (fun v => parseInt v (-1)) sock.mark
        socketUser := readOption sec "SocketUser" id sock.socketUser
        socketGroup := readOption sec "SocketGroup" id sock.socketGroup
        service := readOption sec "Service" id sock.service
        ipv6only := readOption sec "BindIPv6Only" (fun v =>
          if v = "ipv6-only" then .ipv6Only else if v = "both" then .both else sock.ipv6only)
          sock.ipv6only }

/-- `detail::parse_inet_addr`: host and port. -/
def parseInetAddr (addr : String) : String × Int :=
  if addr.toList.head? = some '[' then
    match findChar addr ']' with
    | none => ("", 0)
    | some close =>
        let host := takeStr (dropStr addr 1) (close - 1)
        (host, if close + 2 < addr.length then fromCharsInt (dropStr addr (close + 2)) 0 else 0)
  else
    match rfindChar addr ':' with
    | none => ("", fromCharsInt addr 0)
    | some colon => (takeStr addr colon, fromCharsInt (dropStr addr (colon + 1)) 0)

/-- The table of `parse_netlink_family`, with the numbers of `<linux/netlink.h>`. -/
def netlinkFamilies : List (String × Int) :=
  [("ROUTE", 0), ("KOBJECT_UEVENT", 15), ("AUDIT", 9), ("SCSITRANSPORT", 18), ("FIREWALL", 3),
    ("NFLOG", 5), ("XFRM", 6), ("SELINUX", 7), ("ISCSI", 8), ("CRYPTO", 21)]

/-- `detail::parse_netlink_family`. -/
def parseNetlinkFamily (s : String) : Int :=
  match netlinkFamilies.find? (fun e => e.1 = s) with
  | some e => e.2
  | none => fromCharsInt s 0

/-- `expand_specifiers`. -/
def expandSpecifiers (info : SystemInfo) (sock : SocketUnit) : SocketUnit :=
  let ctx := SpecifierContext.ofUnit sock.name sock.path
  { sock with
    listen := sock.listen.map (fun le => { le with address := resolve info ctx le.address })
    service := if sock.service ≠ "" then resolve info ctx sock.service else sock.service }

/-! ## System calls -/

inductive SocketDomain
  | unix
  | inet
  | inet6
  | netlink
  deriving DecidableEq, Repr

inductive SocketKind
  | stream
  | dgram
  | seqpacket
  | raw
  deriving DecidableEq, Repr

/-- An address passed to `bind`.  An IP address is a number, and a port has 16 bits. -/
inductive SocketAddress
  /-- The 108 bytes of `sun_path`, and the length given for the whole address. -/
  | unix (sunPath : List Char) (length : Nat)
  | inet (address port : Nat)
  | inet6 (address port : Nat)
  | netlink (groups : Nat)
  deriving DecidableEq, Repr

/-- The system calls of this module. -/
inductive SocketCall
  | socket (domain : SocketDomain) (kind : SocketKind) (protocol : Int)
  | bind (fd : Int) (address : SocketAddress)
  | listen (fd backlog : Int)
  | close (fd : Int)
  | unlink (path : String)
  | mkdir (path : String) (mode : Int)
  | chmod (path : String) (mode : Int)
  | mkfifo (path : String) (mode : Int)
  | openFile (path : String)
  | mqOpen (name : String) (mode : Int)
  deriving DecidableEq, Repr

/-- The answer to a call that opens a descriptor: `none` is a failure, and a success is a descriptor
that is not open, with the open file description it gets. -/
structure OpenAnswer where
  answer : FdTable → Option (Int × Nat)
  free : ∀ t fd file, answer t = some (fd, file) → 0 ≤ fd ∧ t fd = none

/-- The answers of the system while one listen entry is bound. -/
structure BindAnswers where
  /-- `socket(AF_INET6, …)`. -/
  socket6 : OpenAnswer
  /-- `socket` for every other family. -/
  socket : OpenAnswer
  bind : SocketAddress → Bool
  listen : Bool
  mkfifo : Bool
  /-- `open` and `mq_open`. -/
  opened : OpenAnswer
  /-- `inet_pton(AF_INET6, …)`; `none` leaves the address as it is. -/
  inetPton6 : String → Option Nat
  /-- `inet_addr`; `none` is `INADDR_NONE`. -/
  inetAddr : String → Option Nat
  /-- `strerror(errno)` after a failure. -/
  error : String

/-- What the system calls act on: the descriptor table, and the calls made so far. -/
structure Kernel where
  fds : FdTable
  calls : List SocketCall := []

namespace Kernel

def call (k : Kernel) (c : SocketCall) : Kernel :=
  { k with calls := k.calls ++ [c] }

/-- A call that opens a descriptor, with `FD_CLOEXEC` set. -/
def openFd (k : Kernel) (c : SocketCall) (os : OpenAnswer) : Option Int × Kernel :=
  match os.answer k.fds with
  | none => (none, k.call c)
  | some (fd, file) => (some fd, { k.call c with fds := k.fds.install fd file })

/-- `::close(fd); return -1;` -/
def closeAndFail (k : Kernel) (fd : Int) : Option Int × Kernel :=
  (none, { k.call (.close fd) with fds := k.fds.close fd })

end Kernel

/-! ## Listener kinds

Each function returns the descriptor, or `none` for `-1`. -/

/-- The local variable `type` of `bind_unix` and `bind_inet`. -/
def socketKind : ListenType → SocketKind
  | .datagram => .dgram
  | .sequentialPacket => .seqpacket
  | _ => .stream

/-- `if (type != SOCK_DGRAM && ::listen(fd, sock.backlog) < 0) { ::close(fd); return -1; } return fd;`
-/
def listenOn (sock : SocketUnit) (kind : SocketKind) (fd : Int) (os : BindAnswers) (k : Kernel) :
    Option Int × Kernel :=
  if kind = .dgram then (some fd, k)
  else
    let k := k.call (.listen fd sock.backlog)
    if os.listen = false then k.closeAndFail fd else (some fd, k)

/-- `s.c_str()`, up to the first NUL. -/
def cStr (s : String) : List Char :=
  s.toList.takeWhile (· ≠ '\x00')

/-- `sizeof(sockaddr_un::sun_path)`. -/
def sunPathSize : Nat := 108

/-- A zeroed `sun_path` after `strncpy` of at most `n` bytes to its position `at'`. -/
def fillSunPath (at' n : Nat) (text : List Char) : List Char :=
  let copied := List.replicate at' '\x00' ++ text.take n
  copied ++ List.replicate (sunPathSize - copied.length) '\x00'

/-- `bind_unix`. -/
def bindUnix (sock : SocketUnit) (le : ListenEntry) (os : BindAnswers) (k : Kernel) :
    Option Int × Kernel :=
  let kind := socketKind le.type
  match k.openFd (.socket .unix kind 0) os.socket with
  | (none, k) => (none, k)
  | (some fd, k) =>
      if le.address.toList.head? = some '@' then
        let name := cStr (dropStr le.address 1)
        let address := .unix (fillSunPath 1 (sunPathSize - 2) name) (2 + 1 + name.length)
        let k := k.call (.bind fd address)
        if os.bind address = false then k.closeAndFail fd
        else listenOn sock kind fd os k
      else
        let k := k.call (.unlink le.address)
        let k :=
          match rfindChar le.address '/' with
          | some slash => k.call (.mkdir (takeStr le.address slash) sock.directoryMode)
          | none => k
        let address := .unix (fillSunPath 0 (sunPathSize - 1) (cStr le.address)) (2 + sunPathSize)
        let k := k.call (.bind fd address)
        if os.bind address = false then k.closeAndFail fd
        else listenOn sock kind fd os (k.call (.chmod le.address sock.socketMode))

/-- `bind` and the end of `bind_inet`. -/
def bindInetOn (sock : SocketUnit) (kind : SocketKind) (fd : Int) (address : SocketAddress)
    (os : BindAnswers) (k : Kernel) : Option Int × Kernel :=
  let k := k.call (.bind fd address)
  if os.bind address = false then k.closeAndFail fd else listenOn sock kind fd os k

/-- `int fd = v6 ? ::socket(AF_INET6, type | SOCK_CLOEXEC, 0) : -1;` -/
def openInet6 (host : String) (kind : SocketKind) (os : BindAnswers) (k : Kernel) :
    Option Int × Kernel :=
  let v6 := host = "" || (findChar host ':').isSome
  if v6 then k.openFd (.socket .inet6 kind 0) os.socket6 else (none, k)

/-- `bind_inet`: an IPv6 socket for a wildcard or a host with a colon, else (or when the system
refuses it) an IPv4 socket. -/
def bindInet (sock : SocketUnit) (le : ListenEntry) (os : BindAnswers) (k : Kernel) :
    Option Int × Kernel :=
  let (host, port) := parseInetAddr le.address
  if port = 0 then (none, k)
  else
    let kind := socketKind le.type
    let port16 := (port % 0x10000).toNat
    match openInet6 host kind os k with
    | (some fd, k) =>
        let address := if host = "" then 0 else (os.inetPton6 host).getD 0
        bindInetOn sock kind fd (.inet6 address port16) os k
    | (none, k) =>
        match k.openFd (.socket .inet kind 0) os.socket with
        | (none, k) => (none, k)
        | (some fd, k) =>
            let address := if host = "" then 0 else (os.inetAddr host).getD 0xffffffff
            bindInetOn sock kind fd (.inet address port16) os k

/-- `NETLINK_KOBJECT_UEVENT` and no group, or what the address says. -/
def parseNetlinkAddress (address : String) : Int × Nat :=
  match findChar address ':' with
  | some colon =>
      (parseNetlinkFamily (takeStr address colon),
        (fromChars 0 0xffffffff (dropStr address (colon + 1)) 0).toNat)
  | none => (parseNetlinkFamily address, 0)

/-- `bind_netlink`. -/
def bindNetlink (le : ListenEntry) (os : BindAnswers) (k : Kernel) : Option Int × Kernel :=
  let (family, groups) := parseNetlinkAddress le.address
  match k.openFd (.socket .netlink .raw family) os.socket with
  | (none, k) => (none, k)
  | (some fd, k) =>
      let k := k.call (.bind fd (.netlink groups))
      if os.bind (.netlink groups) = false then k.closeAndFail fd else (some fd, k)

/-- `create_fifo`. -/
def createFifo (sock : SocketUnit) (le : ListenEntry) (os : BindAnswers) (k : Kernel) :
    Option Int × Kernel :=
  let k := k.call (.unlink le.address)
  let k := k.call (.mkfifo le.address sock.socketMode)
  if os.mkfifo = false then (none, k) else k.openFd (.openFile le.address) os.opened

/-- `open_special`. -/
def openSpecial (le : ListenEntry) (os : BindAnswers) (k : Kernel) : Option Int × Kernel :=
  k.openFd (.openFile le.address) os.opened

/-- `open_mqueue`. -/
def openMqueue (sock : SocketUnit) (le : ListenEntry) (os : BindAnswers) (k : Kernel) :
    Option Int × Kernel :=
  k.openFd (.mqOpen le.address sock.socketMode) os.opened

/-- `create_and_bind`. -/
def createAndBind (sock : SocketUnit) (le : ListenEntry) (os : BindAnswers) (k : Kernel) :
    Option Int × Kernel :=
  match le.type with
  | .stream | .datagram | .sequentialPacket =>
      if le.address.toList.head? = some '/' ∨ le.address.toList.head? = some '@' then
        bindUnix sock le os k
      else bindInet sock le os k
  | .fifo => createFifo sock le os k
  | .special => openSpecial le os k
  | .netlink => bindNetlink le os k
  | .messageQueue => openMqueue sock le os k

/-! ## The bind phase -/

/-- The composed object, and the socket calls made so far. -/
structure Traced where
  init : InitSystem
  calls : List SocketCall := []

/-- The message for an entry that could not be bound. -/
def logBindFailure (sock : SocketUnit) (le : ListenEntry) (error : String) (s : InitSystem) :
    InitSystem :=
  let level := if le.type = .netlink ∨ le.type = .messageQueue then .warning else .error
  s.log level "socket" s!"{sock.name}: failed to bind {le.address}: {error}"

/-- One iteration of the loop of `bind_socket_unit`. -/
def bindEntry (sock : SocketUnit) (os : BindAnswers) (le : ListenEntry) (t : Traced) :
    ListenEntry × Traced :=
  if (findChar le.address '%').isSome then (le, t)
  else
    let (fd, k) := createAndBind sock le os { fds := t.init.fds, calls := t.calls }
    match fd with
    | none =>
        (le, { init := logBindFailure sock le os.error { t.init with fds := k.fds }
               calls := k.calls })
    | some fd =>
        let s := { t.init with fds := k.fds.setCloexec fd true }
        let s := s.log .info "socket" s!"{sock.name}: bound fd {fd} → {le.address}"
        ({ le with fd := fd }, { init := s, calls := k.calls })

/-- The loop of `bind_socket_unit`; the answers are numbered like the entries. -/
def bindEntries (sock : SocketUnit) (os : Nat → BindAnswers) :
    List ListenEntry → Traced → List ListenEntry × Traced
  | [], t => ([], t)
  | le :: rest, t =>
      let (le, t) := bindEntry sock (os 0) le t
      let (rest, t) := bindEntries sock (fun i => os (i + 1)) rest t
      (le :: rest, t)

/-- `bind_socket_unit`. -/
def bindSocketUnit (sock : SocketUnit) (os : Nat → BindAnswers) (t : Traced) :
    SocketUnit × Traced :=
  let (listen, t) := bindEntries sock os sock.listen t
  ({ sock with listen := listen }, t)

/-- The local variable `has_bindable`. -/
def hasBindable (sock : SocketUnit) : Bool :=
  sock.listen.any (fun le => le.address ≠ "" && (findChar le.address '%').isNone)

/-- The answers of the system to `execute(SocketBind)`, by unit name and entry. -/
structure SocketBindAnswers where
  info : SystemInfo := {}
  entries : String → Nat → BindAnswers

/-- One iteration of the loop of `execute(SocketBind)`, on the object and the counter `bound`. -/
def bindUnit (os : SocketBindAnswers) (acc : Traced × Nat) (name : String) (unit : UnitFile) :
    Traced × Nat :=
  let (t, bound) := acc
  if unit.type ≠ .socket then (t, bound)
  else if unit.isBareTemplate then
    ({ t with init := t.init.log .debug "socket" s!"{name}: skipping bare template" }, bound)
  else
    let sock := expandSpecifiers os.info (parseSocketUnit unit)
    if hasBindable sock = false ∧ sock.listen ≠ [] then
      let s := t.init.log .debug "socket"
        s!"{name}: skipping — no bindable addresses after expansion"
      ({ t with init := { s with socketUnits := s.socketUnits.insert name sock } }, bound)
    else
      let (sock, t) := bindSocketUnit sock (os.entries name) t
      ({ t with init := { t.init with socketUnits := t.init.socketUnits.insert name sock } },
        bound + 1)

namespace InitSystem

/-- `execute(SocketBind)`; the second component lists the system calls. -/
def executeSocketBind (s : InitSystem) (os : SocketBindAnswers) : InitSystem × List SocketCall :=
  let s := s.log .info "socket" "Binding socket units"
  let (t, bound) :=
    s.units.entries.foldl (fun acc e => bindUnit os acc e.1 e.2) ({ init := s }, 0)
  (t.init.log .info "socket" s!"Bound {bound} socket unit(s)", t.calls)

/-! ## Closing -/

/-- What `close_all_sockets` leaves of a listen entry. -/
def closedEntry (le : ListenEntry) : ListenEntry :=
  if le.fd < 0 then le else { le with fd := -1 }

/-- The system calls of `close_all_sockets` for one listen entry. -/
def closeEntry (k : Kernel) (le : ListenEntry) : Kernel :=
  if le.fd < 0 then k
  else
    let k := { k.call (.close le.fd) with fds := k.fds.close le.fd }
    if le.address.toList.head? = some '/' then k.call (.unlink le.address) else k

/-- `close_all_sockets`; the second component lists the system calls. -/
def closeAllSockets (s : InitSystem) : InitSystem × List SocketCall :=
  let k := (s.socketUnits.entries.flatMap (fun e => e.2.listen)).foldl closeEntry { fds := s.fds }
  let socketUnits := UnorderedMap.mapValues s.socketUnits (fun sock =>
    { sock with listen := sock.listen.map closedEntry })
  ({ s with socketUnits := socketUnits, fds := k.fds }, k.calls)

end InitSystem

end TrivialInit
