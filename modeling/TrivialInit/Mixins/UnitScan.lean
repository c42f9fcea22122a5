import Mathlib.Data.Finset.Basic
import TrivialInit.Mixins.UnitParse

/-!
# UnitScanMixin — finding unit files

`execute(UnitDiscovery)` of `unit_scan.hpp`.  A directory is what its listing yields: entries with
distinct names, in any order.  A query without an error code may throw; nothing catches that, so the
phase has no value then.
-/

namespace TrivialInit

def kUnitSearchPaths : List String :=
  ["/etc/systemd/system", "/run/systemd/system", "/usr/lib/systemd/system", "/lib/systemd/system"]

def kSupportedExtensions : List String :=
  [".service", ".target", ".mount", ".socket"]

/-- `is_supported`. -/
def isSupported (filename : String) : Bool :=
  kSupportedExtensions.any (fun ext => ext.toList.isSuffixOf filename.toList)

/-! ## Directories -/

/-- A directory entry.  `is_regular_file` and `is_directory` look through a symlink, and throw (`none`)
when they cannot, as for a symlink that leads to itself; `is_symlink` is known from the listing. -/
structure DirEntry where
  filename : String
  isRegularFile : Option Bool := some false
  isDirectory : Option Bool := some false
  isSymlink : Bool := false
  deriving DecidableEq, Repr

/-- A directory, in the order in which it is listed. -/
structure Directory where
  entries : List DirEntry := []
  /-- The increment of the iterator throws behind the entries. -/
  breaksOff : Bool := false
  distinct : (entries.map DirEntry.filename).Nodup := by decide
  noSlash : ∀ e ∈ entries, '/' ∉ e.filename.toList := by decide

def Directory.empty : Directory := {}

/-- A search directory. -/
inductive SearchDir
  /-- It does not exist or cannot be opened. -/
  | missing
  /-- `exists` throws. -/
  | throws
  | listed (d : Directory)

/-- The answers of the file system to `execute(UnitDiscovery)`.  Each pass lists the search
directories anew. -/
structure ScanAnswers where
  firstListing : String → SearchDir
  secondListing : String → SearchDir := firstListing
  /-- The listing of a `*.wants` or `*.requires` directory. -/
  links : String → Directory := fun _ => .empty
  readSymlink : String → Option String := fun _ => none
  weaklyCanonical : String → Option String := some
  pathExists : String → Bool := fun _ => true

/-- `dir / name`. -/
def joinPath (dir name : String) : String :=
  if name.toList.head? = some '/' then name else dir ++ "/" ++ name

/-! ## The scanner -/

structure UnitScan where
  discoveredPaths : List String := []
  discoveredNames : Finset String := ∅
  journal : Journal := {}

namespace UnitScan

/-- `log` and `log_fmt`. -/
def log (st : UnitScan) (level : LogLevel) (message : String) : UnitScan :=
  { st with
    journal := st.journal.log { level := level, source := "scanner", message := message } }

/-- `has_unit`. -/
def hasUnit (st : UnitScan) (name : String) : Bool :=
  name ∈ st.discoveredNames

/-- `discovered_names_.insert(name); discovered_paths_.push_back(path);` and the log line. -/
def record (st : UnitScan) (name path message : String) : UnitScan :=
  let st := { st with
    discoveredNames := insert name st.discoveredNames
    discoveredPaths := st.discoveredPaths ++ [path] }
  st.log .debug message

/-- The body of the inner loop of pass 1. -/
def scanEntry (dir : String) (st : UnitScan) (entry : DirEntry) : Option UnitScan :=
  entry.isRegularFile.map (fun isRegularFile =>
    if !isRegularFile && !entry.isSymlink then st
    else if !isSupported entry.filename then st
    else if entry.filename ∈ st.discoveredNames then st
    else
      let path := joinPath dir entry.filename
      st.record entry.filename path s!"Found: {path}")

/-- The file an entry of a `*.wants` directory leads to; `none` when a query fails. -/
def linkTarget (os : ScanAnswers) (dir : String) (link : DirEntry) : Option String :=
  let path := joinPath dir link.filename
  if link.isSymlink then
    match os.readSymlink path with
    | none => none
    | some target => os.weaklyCanonical (joinPath dir target)
  else os.weaklyCanonical path

/-- The body of the innermost loop of pass 2. -/
def scanLink (os : ScanAnswers) (dir : String) (st : UnitScan) (link : DirEntry) : UnitScan :=
  match linkTarget os dir link with
  | none => st
  | some target =>
      if !os.pathExists target then st
      else
        let fname := basename target
        if !isSupported fname then st
        else
          let linkFname := if isSupported link.filename then link.filename else fname
          if linkFname ∈ st.discoveredNames then st
          else
            st.record linkFname (joinPath dir link.filename)
              s!"Found (wants): {linkFname} -> {target}"

/-- Is it the name of a `*.wants` or `*.requires` directory? -/
def holdsLinks (dname : String) : Bool :=
  ".wants".toList.isSuffixOf dname.toList || ".requires".toList.isSuffixOf dname.toList

/-- A loop over the entries of a directory. -/
def eachEntry (d : Directory) (visit : UnitScan → DirEntry → Option UnitScan) (st : UnitScan) :
    Option UnitScan :=
  (d.entries.foldlM visit st).bind (fun st => if d.breaksOff then none else some st)

/-- The body of the inner loop of pass 2. -/
def scanWants (os : ScanAnswers) (dir : String) (st : UnitScan) (entry : DirEntry) :
    Option UnitScan :=
  entry.isDirectory.bind (fun isDirectory =>
    if isDirectory && holdsLinks entry.filename then
      let path := joinPath dir entry.filename
      eachEntry (os.links path) (fun st link => some (scanLink os path st link)) st
    else some st)

/-- A loop over the search directories that exist. -/
def eachSearchPath (listing : String → SearchDir)
    (visit : String → UnitScan → DirEntry → Option UnitScan) (st : UnitScan) : Option UnitScan :=
  kUnitSearchPaths.foldlM (fun st dir =>
    match listing dir with
    | .missing => some st
    | .throws => none
    | .listed d => eachEntry d (visit dir) st) st

/-- `execute(UnitDiscovery)`. -/
def executeUnitDiscovery (st : UnitScan) (os : ScanAnswers) : Option UnitScan :=
  let st := st.log .info "Scanning for unit files"
  (eachSearchPath os.firstListing scanEntry st).bind (fun st =>
    (eachSearchPath os.secondListing (scanWants os) st).map (fun st =>
      let count := st.discoveredPaths.length
      st.log .info s!"Discovered {count} unit files"))

end UnitScan

/-- `execute(UnitParse)` behind `execute(UnitDiscovery)`. -/
def UnitScan.parseDiscovered (st : UnitScan) (os : ParseAnswers) : InitSystem :=
  let s : InitSystem := { journal := st.journal }
  s.executeUnitParse st.discoveredPaths os

end TrivialInit
