import TrivialInit.Systemd.UnitFile

/-!
# Mount — mount options

`detail::parse_mount_options` of `unit_exec.hpp`, and the arguments `start_mount` passes to the
`mount` call.
-/

namespace TrivialInit

/-- The table `kFlagMap`, with the numbers of `<sys/mount.h>`. -/
def kFlagMap : List (String × Nat) :=
  [("ro", 1), ("rw", 0), ("nosuid", 2), ("suid", 0), ("nodev", 4), ("dev", 0), ("noexec", 8),
    ("exec", 0), ("sync", 16), ("async", 0), ("remount", 32), ("mand", 64), ("nomand", 0),
    ("dirsync", 128), ("noatime", 1024), ("atime", 0), ("nodiratime", 2048), ("diratime", 0),
    ("bind", 4096), ("rbind", 4096 ||| 16384), ("move", 8192), ("rec", 16384),
    ("shared", 1048576), ("slave", 524288), ("private", 262144), ("unbindable", 131072),
    ("strictatime", 16777216), ("lazytime", 33554432), ("noswap", 0), ("defaults", 0)]

/-- `if (!data.empty()) data += ','; data += token;` -/
def appendOption (data token : String) : String :=
  if data ≠ "" then data ++ "," ++ token else data ++ token

/-- What an iteration of the loop of `parse_mount_options` does with its token. -/
def addMountOption (acc : Nat × String) (token : String) : Nat × String :=
  let (flags, data) := acc
  if (findChar token '=').isSome then (flags, appendOption data token)
  else
    match kFlagMap.lookup token with
    | some value => (flags ||| value, data)
    | none => if token ≠ "" then (flags, appendOption data token) else (flags, data)

/-- The loop of `parse_mount_options`; `sv` is the text that is left. -/
def parseMountOptionsLoop (sv : String) (acc : Nat × String) : Nat × String :=
  if sv = "" then acc
  else
    match findChar sv ',' with
    | none => parseMountOptionsLoop "" (addMountOption acc sv)
    | some comma =>
        parseMountOptionsLoop (dropStr sv (comma + 1)) (addMountOption acc (takeStr sv comma))
termination_by sv.length
decreasing_by
  all_goals
    have hpos : 0 < sv.length := Nat.pos_of_ne_zero (by simpa using ‹¬sv = ""›)
    simp only [length_dropStr, String.length_empty]
    omega

/-- `parse_mount_options`: the flags and the data. -/
def parseMountOptions (opts : String) : Nat × String :=
  parseMountOptionsLoop opts (0, "")

/-- The arguments of the `mount` call; `none` is a null pointer. -/
structure MountCall where
  source : String
  target : String
  fstype : Option String
  flags : Nat
  data : Option String
  deriving DecidableEq, Repr

/-- The call `start_mount` makes for a complete unit. -/
def mountCall (unit : UnitFile) : MountCall :=
  let (flags, data) := parseMountOptions unit.options
  { source := unit.what
    target := unit.where
    fstype := if unit.mountType = "" then none else some unit.mountType
    flags := flags
    data := if data = "" then none else some data }

end TrivialInit
