import TrivialInit.Mixins.Process
import TrivialInit.Systemd.Specifiers

/-!
# SocketMixin — passing and accepting sockets

The functions of `socket.hpp` that hand descriptors to service processes: pairing of sockets and
services, the descriptor rearrangement in the child of `spawn_with_socket_fds`, and `accept_ready`.
Creating and binding the sockets is not part of this module.
-/

namespace TrivialInit

def SD_LISTEN_FDS_START : Int := 3

/-! ## Descriptor rearrangement in the child -/

/-- One iteration of the loop over `w`; `none` is `_exit(125)`. -/
def rearrangeStep (st : List Int × FdTable) (i : Nat) : Option (List Int × FdTable) :=
  let (w, t) := st
  let tgt := SD_LISTEN_FDS_START + i
  let src := w.getD i (-1)
  if src = tgt then some (w, t)
  else
    let t := t.close tgt
    match t.dup2 src tgt with
    | none => none
    | some t =>
        -- Later entries that name the moved descriptor follow it to its new place.
        let w := w.mapIdx (fun j fd => if i < j ∧ fd = src then tgt else fd)
        let keep := (w.drop (i + 1)).any (fun fd => fd = src)
        some (w, if keep then t else t.close src)

/-- The rearrangement loop, on the descriptor table the child inherits. -/
def rearrangeFds (fds : List Int) (t : FdTable) : Option FdTable :=
  ((List.range fds.length).foldlM rearrangeStep (fds, t)).map Prod.snd

/-- The answers of the system to one call of `accept_ready`. -/
structure AcceptAnswers where
  /-- `accept4`: the new descriptor and the connection it refers to. -/
  conn : Option (Int × Nat)
  forked : ForkAnswer

namespace InitSystem

/-! ## Pairing -/

/-- `sock.name` up to its last dot. -/
def socketStem (sock : SocketUnit) : String :=
  match rfindChar sock.name '.' with
  | some dot => takeStr sock.name dot
  | none => sock.name

/-- `resolve_pair`. -/
def resolvePair (s : InitSystem) (sock : SocketUnit) : String :=
  if sock.service ≠ "" then sock.service
  else
    let direct := socketStem sock ++ ".service"
    let tmpl := socketStem sock ++ "@.service"
    if (s.findUnit direct).isSome then direct
    else if (s.findUnit tmpl).isSome then tmpl
    else direct

/-- `pairs_with`. -/
def pairsWith (sock : SocketUnit) (svc : String) : Bool :=
  if sock.service ≠ "" then sock.service = svc
  else socketStem sock ++ ".service" = svc || socketStem sock ++ "@.service" = svc

/-- `collect_socket_env`. -/
def collectSocketEnv (s : InitSystem) (serviceName : String) : Option SocketEnv :=
  let paired := s.socketUnits.entries.filter (fun e => pairsWith e.2 serviceName)
  let bound := paired.flatMap (fun e =>
    (e.2.listen.filter (fun le => decide (0 ≤ le.fd))).map (fun le =>
      (le.fd, if le.name = "" then e.1 else le.name)))
  if bound = [] then none
  else some { fds := bound.map Prod.fst, names := bound.map Prod.snd }

/-- `register_accept_sockets`, as far as `fd_to_socket_` is concerned. -/
def registerAcceptSockets (s : InitSystem) : InitSystem :=
  let fdToSocket := s.socketUnits.entries.foldl (fun m e =>
    if e.2.accept then
      e.2.listen.foldl (fun m le => if le.fd < 0 then m else m.insert le.fd e.1) m
    else m) s.fdToSocket
  { s with fdToSocket := fdToSocket }

/-! ## Spawning with sockets -/

/-- `spawn_with_socket_fds`; the child branch (`rearrangeFds`, the environment, credentials and
`execvp`) does not return.  Every caller passes a unit. -/
def spawnWithSocketFds (s : InitSystem) (unitName execPath : String) (args : List String)
    (env : SocketEnv) (restart : Bool) (unitCtx : UnitFile) (forked : ForkAnswer) :
    Option Pid × InitSystem :=
  let s := { s with fds := s.fds.setCloexecAll env.fds false }
  let child : ForkedChild :=
    { name := unitName
      unit := unitCtx
      execPath := execPath
      args := args
      env := some env
      fds := s.fds }
  let s := s.recordFork (.spawn child forked)
  match forked with
  | .error _ => (none, { s with fds := s.fds.setCloexecAll env.fds true })
  | .ok pid =>
      let s := { s with fds := s.fds.setCloexecAll env.fds true }
      let count := env.fds.length
      let s := s.log .info "socket" s!"Socket-activated {unitName} (PID {pid}, {count} fd(s))"
      (some pid, s.trackProcess pid unitName restart)

/-- The descriptor table the child of `spawn_with_socket_fds` starts with. -/
def childFds (s : InitSystem) (env : SocketEnv) : FdTable :=
  s.fds.setCloexecAll env.fds false

/-! ## Accepting connections -/

/-- Close the accepted descriptor and give its slot back. -/
def dropConnection (s : InitSystem) (socket : String) (conn : Int) : InitSystem :=
  let s := { s with fds := s.fds.close conn }
  s.addConnections socket (-1)

/-- `accept_ready`, from the point where the connection has been accepted and counted. -/
def serveConnection (s : InitSystem) (socket : String) (sock : SocketUnit) (conn : Int)
    (forked : ForkAnswer) : Option Pid × InitSystem :=
  let svc := s.resolvePair sock
  match s.findUnit svc with
  | none => (none, s.dropConnection socket conn)
  | some unit =>
      if unit.execStart = "" then (none, s.dropConnection socket conn)
      else
        match splitExec unit.execStart with
        | [] => (none, s.dropConnection socket conn)
        | execPath :: args =>
            let env : SocketEnv := { fds := [conn], names := [sock.name] }
            let (pid, s) := s.spawnWithSocketFds svc execPath args env false unit forked
            let s := { s with fds := s.fds.close conn }
            match pid with
            | some pid => (some pid, s.onChildExit pid (.connectionClosed socket))
            | none => (none, s.addConnections socket (-1))

/-- `accept_ready`; the first component is the child it forked. -/
def acceptReady (s : InitSystem) (listenFd : Int) (os : AcceptAnswers) : Option Pid × InitSystem :=
  match s.fdToSocket.lookup listenFd with
  | none => (none, s)
  | some socket =>
      let s := { s with socketUnits := UnorderedMap.subscript s.socketUnits socket }
      let sock := (s.socketUnits.lookup socket).getD default
      if sock.maxConn > 0 ∧ sock.activeConnections ≥ sock.maxConn then
        match os.conn with
        | none => (none, s)
        | some (c, file) => (none, { s with fds := (s.fds.install c file).close c })
      else
        match os.conn with
        | none => (none, s)
        | some (conn, file) =>
            let s := { s with fds := s.fds.install conn file }
            let s := s.addConnections socket 1
            s.serveConnection socket sock conn os.forked

end InitSystem

end TrivialInit
