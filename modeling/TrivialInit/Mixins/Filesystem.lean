import TrivialInit.Mixins.ChildContext
import TrivialInit.Mixins.Mount

/-!
# FilesystemMixin — early mounts, and the owners of the runtime directories

`filesystem.hpp` has look-ups of its own for users and groups: they take a C string that may be
null, fall back to root, and catch the exceptions of `std::stoul`.
-/

namespace TrivialInit

/-! ## Look-ups -/

/-- The loop over the columns in `fs_resolve_uid` and `fs_resolve_gid`. -/
def fsReadIdLine (line : List Char) : String × UInt32 :=
  let fields := getFields ':' line
  match fields[2]? with
  | none => (fields.headD "", 0)
  | some field =>
      match stoul field with
      | none => (fields.headD "", 0)
      | some id => (fields.headD "", UInt32.ofNat id)

/-- The loop over the lines in `fs_resolve_uid` and `fs_resolve_gid`. -/
def fsScanIdLines (name : String) : List (List Char) → UInt32
  | [] => 0
  | line :: lines =>
      let (entry, id) := fsReadIdLine line
      if entry = name then id else fsScanIdLines name lines

/-- The common body of `fs_resolve_uid` and `fs_resolve_gid`; a null name is root. -/
def fsResolveId (file : Option String) (name : Option String) : UInt32 :=
  match name with
  | none => 0
  | some name => fsScanIdLines name (getlines ((file.getD "").toList))

/-- `fs_resolve_uid`. -/
def fsResolveUid (passwd : Option String) (name : Option String) : Uid :=
  fsResolveId passwd name

/-- `fs_resolve_gid`. -/
def fsResolveGid (group : Option String) (name : Option String) : Gid :=
  fsResolveId group name

/-! ## Ownership -/

structure RuntimeDir where
  path : String
  mode : Nat
  owner : Option String
  group : Option String
  deriving DecidableEq, Repr

/-- `kRuntimeDirs`; the mode is 0755. -/
def kRuntimeDirs : List RuntimeDir :=
  [⟨"/run/systemd", 493, none, none⟩,
    ⟨"/run/systemd/resolve", 493, some "systemd-resolve", some "systemd-resolve"⟩,
    ⟨"/run/systemd/netif", 493, some "systemd-network", some "systemd-network"⟩,
    ⟨"/run/systemd/netif/links", 493, some "systemd-network", some "systemd-network"⟩,
    ⟨"/run/systemd/netif/leases", 493, some "systemd-network", some "systemd-network"⟩,
    ⟨"/run/systemd/netif/dhcp-server-lease", 493, some "systemd-network", some "systemd-network"⟩,
    ⟨"/run/systemd/journal", 493, none, none⟩,
    ⟨"/run/systemd/ask-password", 493, none, none⟩,
    ⟨"/run/dbus", 493, none, none⟩,
    ⟨"/run/udev", 493, none, none⟩,
    ⟨"/run/uuidd", 493, some "uuidd", some "uuidd"⟩,
    ⟨"/run/systemd/report", 493, none, none⟩]

/-- The body of the loop of `fix_runtime_dir_ownership`: the `chown` call it makes, if any. -/
def chownRuntimeDir (passwd group : Option String) (rd : RuntimeDir) : Option RuntimeDirCall :=
  if rd.owner = none ∧ rd.group = none then none
  else
    let uid := match rd.owner with
      | some owner => fsResolveUid passwd (some owner)
      | none => 0
    let gid := match rd.group with
      | some owner => fsResolveGid group (some owner)
      | none => 0
    if (rd.owner ≠ none ∧ uid = 0) ∨ (rd.group ≠ none ∧ gid = 0) then none
    else some (.chown rd.path uid gid)

/-- The calls in the loop of `fix_runtime_dir_ownership`, on the contents of `/etc/passwd` and
`/etc/group`. -/
def fixRuntimeDirOwnership (passwd group : Option String) : List RuntimeDirCall :=
  kRuntimeDirs.filterMap (chownRuntimeDir passwd group)

/-! ## Early mounts -/

structure MountPoint where
  source : String
  target : String
  fstype : String
  flags : Nat
  data : Option String
  deriving DecidableEq, Repr

/-- `kEarlyMounts`; `MS_NOSUID`, `MS_NODEV` and `MS_NOEXEC` are 2, 4 and 8. -/
def kEarlyMounts : List MountPoint :=
  [⟨"proc", "/proc", "proc", 2 ||| 4 ||| 8, none⟩,
    ⟨"sysfs", "/sys", "sysfs", 2 ||| 4 ||| 8, none⟩,
    ⟨"devtmpfs", "/dev", "devtmpfs", 2, some "mode=0755"⟩,
    ⟨"tmpfs", "/dev/shm", "tmpfs", 2 ||| 4, none⟩,
    ⟨"devpts", "/dev/pts", "devpts", 2 ||| 8, some "gid=5,mode=620"⟩,
    ⟨"tmpfs", "/run", "tmpfs", 2 ||| 4, some "mode=0755"⟩,
    ⟨"cgroup2", "/sys/fs/cgroup", "cgroup2", 2 ||| 4 ||| 8, none⟩,
    ⟨"tmpfs", "/tmp", "tmpfs", 2 ||| 4, some "mode=1777"⟩]

/-- A call of the mixin that changes the file system. -/
inductive FsCall
  | mkdir (path : String) (mode : Nat)
  | mount (call : MountCall)
  | symlink (target link : String)
  | chmod (path : String) (mode : Nat)
  /-- `umount2(target, MNT_DETACH)`. -/
  | umount2 (target : String)
  deriving DecidableEq, Repr

/-- `errno` after a failed `mount`. -/
inductive MountErrno
  | busy
  | other (reason : String)
  deriving DecidableEq, Repr

/-- The calls of one iteration of the loop over `kEarlyMounts`. -/
def MountPoint.calls (mp : MountPoint) : List FsCall :=
  [.mkdir mp.target 493, .mount ⟨mp.source, mp.target, some mp.fstype, mp.flags, mp.data⟩]

/-- One iteration of the loop over `kEarlyMounts`: the value it returns, or the log and `mounted_`
afterwards. -/
def mountEarly (mp : MountPoint) (errno : Option MountErrno) (s : InitSystem)
    (mounted : List String) : Option Int × InitSystem × List String :=
  let source := mp.source
  let target := mp.target
  let fstype := mp.fstype
  match errno with
  | some (.other reason) =>
      let s := s.log .error "fs" s!"mount {source} on {target} failed: {reason}"
      (if target = "/proc" then some 1 else none, s, mounted)
  | _ => (none, s.log .info "fs" s!"Mounted {fstype} on {target}", mounted ++ [target])

/-- The links made in `/dev`. -/
def devLinks : List FsCall :=
  [.symlink "/proc/self/fd" "/dev/fd",
    .symlink "/proc/self/fd/0" "/dev/stdin",
    .symlink "/proc/self/fd/1" "/dev/stdout",
    .symlink "/proc/self/fd/2" "/dev/stderr"]

/-- The loop over `kRuntimeDirs` of `execute(EarlyMount)`; `made` says of a path that `mkdir`
succeeded, or that it failed with `EEXIST`. -/
def makeRuntimeDirs (made : String → Bool) : List FsCall :=
  kRuntimeDirs.flatMap (fun rd =>
    .mkdir rd.path rd.mode :: if made rd.path then [.chmod rd.path rd.mode] else [])

/-- One iteration of the loop of `execute(Shutdown)`, as far as the log is concerned. -/
def unmountEarly (target : String) (error : Option String) (s : InitSystem) : InitSystem :=
  match error with
  | none => s
  | some reason => s.log .warning "fs" s!"umount {target} failed: {reason}"

end TrivialInit
