import TrivialInit.Lib.FirstWins
import TrivialInit.Lib.Throwing
import TrivialInit.Mixins.UnitScan
import TrivialInit.Properties.UnitFields

/-!
# UnitDiscovery — the names and the paths the scanner finds

Both passes of the scanner come across candidates, a name and a path, one after the other, and
record a candidate exactly if its name is new.  So the recorded candidates are the first ones of
their names, unless a query throws (`yields_executeUnitDiscovery`).  The parser takes the name of a
unit from its path:

* scanner and parser agree on the names exactly if no query throws and no entry of a `*.wants`
  directory is recorded under the name of its target;
* a unit file directly in a search directory is found once, in the first directory that has it,
  exactly if no query throws.  An entry that throws anywhere in a search directory, such as a symlink
  that leads to itself, keeps every unit from being found.
-/

namespace TrivialInit

/-! ## Candidates -/

/-- What the scanner comes across: a name, and the path that is recorded for it. -/
structure Candidate where
  name : String
  path : String
  deriving DecidableEq, Repr

/-- A regular file or a symlink. -/
def DirEntry.isFile (entry : DirEntry) : Bool :=
  entry.isRegularFile = some true || entry.isSymlink

/-- A unit file in a search directory. -/
def directCandidate (dir : String) (entry : DirEntry) : Option Candidate :=
  if entry.isFile && isSupported entry.filename then
    some { name := entry.filename, path := joinPath dir entry.filename }
  else none

/-- An entry of a `*.wants` directory that leads to a unit file. -/
def linkCandidate (os : ScanAnswers) (dir : String) (link : DirEntry) : Option Candidate :=
  match UnitScan.linkTarget os dir link with
  | none => none
  | some target =>
      if os.pathExists target && isSupported (basename target) then
        some
          { name := if isSupported link.filename then link.filename else basename target
            path := joinPath dir link.filename }
      else none

namespace ScanAnswers

/-- The entries of a search directory. -/
def entries (listing : String → SearchDir) (dir : String) : List DirEntry :=
  match listing dir with
  | .listed d => d.entries
  | .missing | .throws => []

/-- The candidates of pass 1. -/
def directCandidates (os : ScanAnswers) : List Candidate :=
  kUnitSearchPaths.flatMap (fun dir =>
    (entries os.firstListing dir).filterMap (directCandidate dir))

/-- The candidates in one `*.wants` directory. -/
def wantsCandidates (os : ScanAnswers) (dir : String) (entry : DirEntry) : List Candidate :=
  if entry.isDirectory = some true && UnitScan.holdsLinks entry.filename then
    let path := joinPath dir entry.filename
    (os.links path).entries.filterMap (linkCandidate os path)
  else []

/-- The candidates of pass 2. -/
def linkCandidates (os : ScanAnswers) : List Candidate :=
  kUnitSearchPaths.flatMap (fun dir =>
    (entries os.secondListing dir).flatMap (os.wantsCandidates dir))

/-- All candidates, in the order in which the scanner comes across them. -/
def candidates (os : ScanAnswers) : List Candidate :=
  os.directCandidates ++ os.linkCandidates

/-- The candidates that are recorded: the first one of each name. -/
def found (os : ScanAnswers) : List Candidate :=
  FirstWins.firstWins Candidate.name ∅ os.candidates

end ScanAnswers

/-! ## Queries that throw -/

/-- The loop over the directory comes to its end if the visit of each entry does. -/
def Directory.Ends (d : Directory) (ok : DirEntry → Prop) : Prop :=
  (∀ entry ∈ d.entries, ok entry) ∧ d.breaksOff = false

def SearchDir.Ends (ok : DirEntry → Prop) : SearchDir → Prop
  | .missing => True
  | .throws => False
  | .listed d => d.Ends ok

namespace ScanAnswers

/-- Every listing succeeds. -/
structure ListingsSucceed (os : ScanAnswers) : Prop where
  first : ∀ dir ∈ kUnitSearchPaths, (os.firstListing dir).Ends (fun _ => True)
  second : ∀ dir ∈ kUnitSearchPaths, (os.secondListing dir).Ends (fun _ => True)
  links : ∀ path, (os.links path).breaksOff = false

/-- The visit of an entry in pass 2 comes to its end. -/
def LinksEnd (os : ScanAnswers) (dir : String) (entry : DirEntry) : Prop :=
  entry.isDirectory ≠ none ∧
    (entry.isDirectory = some true → UnitScan.holdsLinks entry.filename = true →
      (os.links (joinPath dir entry.filename)).breaksOff = false)

/-- No query of the scan throws. -/
structure NothingThrows (os : ScanAnswers) : Prop where
  first : ∀ dir ∈ kUnitSearchPaths,
    (os.firstListing dir).Ends (fun entry => entry.isRegularFile ≠ none)
  second : ∀ dir ∈ kUnitSearchPaths, (os.secondListing dir).Ends (os.LinksEnd dir)

instance (dir : SearchDir) (ok : DirEntry → Prop) [DecidablePred ok] : Decidable (dir.Ends ok) :=
  match dir with
  | .missing => .isTrue trivial
  | .throws => .isFalse (fun h => h)
  | .listed _ => inferInstanceAs (Decidable (_ ∧ _))

instance (os : ScanAnswers) (dir : String) : DecidablePred (os.LinksEnd dir) :=
  fun _ => inferInstanceAs (Decidable (_ ∧ _))

instance (os : ScanAnswers) : Decidable os.NothingThrows :=
  decidable_of_iff (_ ∧ _) ⟨fun h => ⟨h.1, h.2⟩, fun h => ⟨h.first, h.second⟩⟩

end ScanAnswers

/-! ## The scanner records the first candidate of each name -/

namespace UnitScan

open FirstWins (collect)
open Throwing (Yields)

/-- The scanner has recorded these names and candidates. -/
def Recorded (found : Finset String × List Candidate) (st : UnitScan) : Prop :=
  st.discoveredNames = found.1 ∧ st.discoveredPaths = found.2.map Candidate.path

theorem recorded_collect {st : UnitScan} {found : Finset String × List Candidate}
    (h : Recorded found st) (c : Candidate) (message : String) :
    Recorded (collect Candidate.name found c)
      (if c.name ∈ st.discoveredNames then st else st.record c.name c.path message) := by
  rw [collect, ← h.1]
  by_cases hc : c.name ∈ st.discoveredNames
  · rw [if_pos hc, if_pos hc]
    exact h
  · rw [if_neg hc, if_neg hc]
    exact ⟨rfl, by simp [record, log, h.2]⟩

theorem yields_scanEntry {st : UnitScan} {found : Finset String × List Candidate}
    (h : Recorded found st) (dir : String) (entry : DirEntry) :
    Yields (entry.isRegularFile ≠ none)
      (Recorded ((directCandidate dir entry).toList.foldl (collect Candidate.name) found))
      (scanEntry dir st entry) := by
  unfold scanEntry directCandidate DirEntry.isFile
  cases hregular : entry.isRegularFile with
  | none => exact fun hne => hne rfl
  | some isRegularFile =>
      refine ⟨Option.some_ne_none _, ?_⟩
      simp only [Option.some.injEq, Bool.decide_eq_true]
      cases hfile : isRegularFile || entry.isSymlink with
      | false =>
          have hneither : (!isRegularFile && !entry.isSymlink) = true := by
            rw [← Bool.not_or, hfile]
            rfl
          simpa [hneither] using h
      | true =>
          have hneither : (!isRegularFile && !entry.isSymlink) = false := by
            rw [← Bool.not_or, hfile]
            rfl
          cases hsupported : isSupported entry.filename with
          | false => simpa [hneither] using h
          | true =>
              simp only [hneither, Bool.and_self, if_true, Bool.not_true, Bool.false_eq_true,
                if_false]
              exact recorded_collect h
                { name := entry.filename, path := joinPath dir entry.filename } _

theorem recorded_scanLink {st : UnitScan} {found : Finset String × List Candidate}
    (h : Recorded found st) (os : ScanAnswers) (dir : String) (link : DirEntry) :
    Recorded ((linkCandidate os dir link).toList.foldl (collect Candidate.name) found)
      (scanLink os dir st link) := by
  unfold scanLink linkCandidate
  cases linkTarget os dir link with
  | none => exact h
  | some target =>
      cases hexists : os.pathExists target with
      | false => simpa [hexists] using h
      | true =>
          cases hsupported : isSupported (basename target) with
          | false => simpa [hexists, hsupported] using h
          | true =>
              simp only [hexists, hsupported, Bool.and_self, if_true, Bool.not_true,
                Bool.false_eq_true, if_false]
              exact recorded_collect h
                { name := if isSupported link.filename then link.filename else basename target
                  path := joinPath dir link.filename } _

/-- A loop over a directory, when the visit of an entry records candidates. -/
theorem yields_eachEntry {st : UnitScan} {found : Finset String × List Candidate}
    (h : Recorded found st) (d : Directory) {visit : UnitScan → DirEntry → Option UnitScan}
    {ok : DirEntry → Prop} {cs : DirEntry → List Candidate}
    (hvisit : ∀ entry (st : UnitScan) found, Recorded found st →
      Yields (ok entry) (Recorded ((cs entry).foldl (collect Candidate.name) found))
        (visit st entry)) :
    Yields (d.Ends ok)
      (Recorded ((d.entries.flatMap cs).foldl (collect Candidate.name) found))
      (eachEntry d visit st) := by
  rw [List.foldl_flatMap]
  have hloop := Yields.foldlM (R := fun st found => Recorded found st) (l := d.entries)
    (fun entry _ st found hst => hvisit entry st found hst) h
  refine hloop.bind (fun st hst => ?_)
  cases d.breaksOff with
  | false => exact ⟨rfl, hst⟩
  | true => exact Bool.noConfusion

theorem yields_scanWants {st : UnitScan} {found : Finset String × List Candidate}
    (h : Recorded found st) (os : ScanAnswers) (dir : String) (entry : DirEntry) :
    Yields (os.LinksEnd dir entry)
      (Recorded ((os.wantsCandidates dir entry).foldl (collect Candidate.name) found))
      (scanWants os dir st entry) := by
  unfold scanWants ScanAnswers.wantsCandidates ScanAnswers.LinksEnd
  cases hdirectory : entry.isDirectory with
  | none => exact fun hends => hends.1 rfl
  | some isDirectory =>
      rw [Option.bind_some]
      cases hlinks : isDirectory && holdsLinks entry.filename with
      | false =>
          have hnot : ¬ (isDirectory = true ∧ holdsLinks entry.filename = true) := by
            simp [← Bool.and_eq_true_iff, hlinks]
          refine ⟨⟨Option.some_ne_none _, fun hdir hholds => ?_⟩, by simpa [hlinks] using h⟩
          exact absurd ⟨Option.some.inj hdir, hholds⟩ hnot
      | true =>
          obtain ⟨rfl, hholds⟩ := Bool.and_eq_true_iff.mp hlinks
          simp only [hholds, if_true, decide_true, Bool.and_self, List.filterMap_eq_flatMap_toList]
          refine (yields_eachEntry h _ (fun link st found hst =>
            Yields.value (recorded_scanLink hst os _ link))).congr ?_
          simp [Directory.Ends]

/-- A pass over the search directories, when the visit of an entry records candidates. -/
theorem yields_eachSearchPath {st : UnitScan} {found : Finset String × List Candidate}
    (h : Recorded found st) (listing : String → SearchDir)
    {visit : String → UnitScan → DirEntry → Option UnitScan} {ok : String → DirEntry → Prop}
    {cs : String → DirEntry → List Candidate}
    (hvisit : ∀ dir entry (st : UnitScan) found, Recorded found st →
      Yields (ok dir entry) (Recorded ((cs dir entry).foldl (collect Candidate.name) found))
        (visit dir st entry)) :
    Yields (∀ dir ∈ kUnitSearchPaths, (listing dir).Ends (ok dir))
      (Recorded ((kUnitSearchPaths.flatMap (fun dir =>
        (ScanAnswers.entries listing dir).flatMap (cs dir))).foldl (collect Candidate.name) found))
      (eachSearchPath listing visit st) := by
  rw [List.foldl_flatMap]
  refine Yields.foldlM (R := fun st found => Recorded found st) ?_ h
  intro dir _ st found hst
  unfold ScanAnswers.entries
  cases listing dir with
  | missing => exact ⟨trivial, hst⟩
  | throws => exact fun hends => hends
  | listed d => exact yields_eachEntry hst d (hvisit dir)

/-- `execute(UnitDiscovery)` comes to its end exactly if no query throws, and then the recorded
candidates are the first ones of their names. -/
theorem yields_executeUnitDiscovery (os : ScanAnswers) (journal : Journal) :
    let start : UnitScan := { journal := journal }
    Yields os.NothingThrows
      (Recorded ((os.candidates.map Candidate.name).toFinset, os.found))
      (start.executeUnitDiscovery os) := by
  intro start
  have hstart : Recorded (∅, []) (start.log .info "Scanning for unit files") := ⟨rfl, rfl⟩
  have hdirect : kUnitSearchPaths.flatMap (fun dir =>
      (ScanAnswers.entries os.firstListing dir).flatMap (fun entry =>
        (directCandidate dir entry).toList)) = os.directCandidates := by
    simp [ScanAnswers.directCandidates, List.filterMap_eq_flatMap_toList]
  have hfirst := yields_eachSearchPath hstart os.firstListing
    (fun dir entry st found hst => yields_scanEntry hst dir entry)
  rw [hdirect] at hfirst
  -- Both passes are one run over all candidates.
  have hboth : (os.directCandidates ++ os.linkCandidates).foldl (collect Candidate.name) (∅, []) =
      ((os.candidates.map Candidate.name).toFinset, os.found) := by
    rw [FirstWins.foldl_collect, List.nil_append, Finset.empty_union]
    rfl
  refine (hfirst.bind (fun st hst => ?_)).congr ⟨fun h => ⟨h.1, h.2⟩, fun h => ⟨h.first, h.second⟩⟩
  have hsecond := yields_eachSearchPath hst os.secondListing
    (fun dir entry st found hst => yields_scanWants hst os dir entry)
  rw [← List.foldl_append] at hsecond
  refine hsecond.map (fun st hst => ?_)
  rw [← hboth]
  exact hst

end UnitScan

/-! ## Names and paths of candidates -/

@[simp] theorem basename_joinPath {dir name : String} (h : '/' ∉ name.toList) :
    basename (joinPath dir name) = name := by
  have hhead : name.toList.head? ≠ some '/' := fun h' => h (List.mem_of_head? h')
  have hpath : joinPath dir name = String.ofList (dir.toList ++ '/' :: name.toList) := by
    rw [joinPath, if_neg hhead]
    apply String.toList_injective
    simp
  rw [basename, hpath, rfindChar_append_cons h]
  simp [dropStr]

/-- Is the name recorded for the path the one the parser derives from it? -/
def Candidate.Agrees (c : Candidate) : Prop :=
  basename c.path = c.name

/-- A candidate has a supported name; and its path has that name, or an unsupported one. -/
structure Candidate.Proper (c : Candidate) : Prop where
  supported : isSupported c.name = true
  agrees : isSupported (basename c.path) = true → c.Agrees

theorem properDirect {os : ScanAnswers} {c : Candidate} (hc : c ∈ os.directCandidates) :
    isSupported c.name = true ∧ c.Agrees := by
  rcases List.mem_flatMap.mp hc with ⟨dir, -, hc⟩
  rcases List.mem_filterMap.mp hc with ⟨entry, hentry, hc⟩
  unfold directCandidate at hc
  split at hc
  next hfile =>
      obtain rfl := Option.some.inj hc
      have hslash : '/' ∉ entry.filename.toList := by
        unfold ScanAnswers.entries at hentry
        cases hdir : os.firstListing dir with
        | listed d => exact d.noSlash entry (by simpa [hdir] using hentry)
        | missing | throws => simp [hdir] at hentry
      exact ⟨(Bool.and_eq_true_iff.mp hfile).2, basename_joinPath hslash⟩
  next => cases hc

theorem properLink {os : ScanAnswers} {c : Candidate} (hc : c ∈ os.linkCandidates) : c.Proper := by
  rcases List.mem_flatMap.mp hc with ⟨dir, -, hc⟩
  rcases List.mem_flatMap.mp hc with ⟨entry, -, hc⟩
  unfold ScanAnswers.wantsCandidates at hc
  split at hc
  next =>
      rcases List.mem_filterMap.mp hc with ⟨link, hlink, hc⟩
      have hslash := (os.links (joinPath dir entry.filename)).noSlash link hlink
      unfold linkCandidate at hc
      split at hc
      next => cases hc
      next target _ =>
          split at hc
          next hfile =>
              obtain rfl := Option.some.inj hc
              have htarget := (Bool.and_eq_true_iff.mp hfile).2
              cases hname : isSupported link.filename with
              | true => exact ⟨by simp [hname], by simp [Candidate.Agrees, hname, hslash]⟩
              | false => exact ⟨by simp [htarget], by simp [hslash, hname]⟩
          next => cases hc
  next => cases hc

theorem properCandidate {os : ScanAnswers} {c : Candidate} (hc : c ∈ os.candidates) : c.Proper := by
  rcases List.mem_append.mp hc with hc | hc
  · exact ⟨(properDirect hc).1, fun _ => (properDirect hc).2⟩
  · exact properLink hc

/-! ## Scanner and parser -/

namespace UnitScan

/-- The parser finds a unit under the last component of every path. -/
theorem isSome_findUnit_parseDiscovered (st : UnitScan) (pos : ParseAnswers) (name : String) :
    ((st.parseDiscovered pos).findUnit name).isSome = true ↔
      name ∈ st.discoveredPaths.map basename := by
  rw [InitSystem.findUnit, parseDiscovered, InitSystem.lookup_executeUnitParse]
  cases hfind : st.discoveredPaths.reverse.find? (fun p => name = basename p) with
  | some path =>
      have hpath := List.mem_reverse.mp (List.mem_of_find?_eq_some hfind)
      have hname : name = basename path := by simpa using List.find?_some hfind
      exact iff_of_true rfl (hname ▸ List.mem_map_of_mem hpath)
  | none =>
      refine iff_of_false (by simp) ?_
      intro hmem
      rcases List.mem_map.mp hmem with ⟨path, hpath, hname⟩
      have hne := List.find?_eq_none.mp hfind path (List.mem_reverse.mpr hpath)
      simp [hname] at hne

end UnitScan

namespace ScanAnswers

/-- Whenever the scanner falls back on the name of a target, because the link's own name is not
supported, that name is known from a candidate before. -/
def FallbackNamesKnown (os : ScanAnswers) : Prop :=
  ∀ before c after, os.candidates = before ++ c :: after →
    isSupported (basename c.path) = false → c.name ∈ before.map Candidate.name

theorem agrees_of_mem_found {os : ScanAnswers} (h : os.FallbackNamesKnown) {c : Candidate}
    (hc : c ∈ os.found) : c.Agrees := by
  have hproper := properCandidate (FirstWins.mem_of_mem_firstWins hc)
  cases hbase : isSupported (basename c.path) with
  | true => exact hproper.agrees hbase
  | false =>
      rcases List.find?_eq_some_iff_append.mp (FirstWins.mem_firstWins.mp hc) with
        ⟨-, before, after, hsplit, hfirst⟩
      rcases List.mem_map.mp (h before c after hsplit hbase) with ⟨c', hc', hname⟩
      have hne := hfirst c' hc'
      simp [hname] at hne

end ScanAnswers

namespace UnitScan

/-- Scanner and parser agree on the names. -/
structure NamesAgree (st : UnitScan) (pos : ParseAnswers) : Prop where
  distinct : (st.discoveredPaths.map basename).Nodup
  same : ∀ name, name ∈ st.discoveredPaths.map basename ↔ name ∈ st.discoveredNames
  parsed : ∀ name,
    st.hasUnit name = true ↔ ((st.parseDiscovered pos).findUnit name).isSome = true

theorem namesAgree_iff {st : UnitScan} {os : ScanAnswers} (pos : ParseAnswers)
    (h : Recorded ((os.candidates.map Candidate.name).toFinset, os.found) st) :
    st.NamesAgree pos ↔ os.FallbackNamesKnown := by
  obtain ⟨hnames, hpaths⟩ := h
  constructor
  · rintro ⟨-, hsame, -⟩ before c after hsplit hbase
    by_contra hfirst
    -- The path is recorded, and no candidate has its unsupported name.
    have hfound : c ∈ os.found := by
      rw [ScanAnswers.found, hsplit]
      exact FirstWins.mem_firstWins_of_first hfirst
    have hmem : basename c.path ∈ st.discoveredNames := by
      refine (hsame _).mp (List.mem_map_of_mem ?_)
      rw [hpaths]
      exact List.mem_map_of_mem hfound
    rw [hnames, List.mem_toFinset] at hmem
    rcases List.mem_map.mp hmem with ⟨c', hc', hname⟩
    have hsupported := (properCandidate hc').supported
    rw [hname, hbase] at hsupported
    cases hsupported
  · intro h
    have hbases : st.discoveredPaths.map basename = os.found.map Candidate.name := by
      rw [hpaths, List.map_map]
      exact List.map_congr_left (fun c hc => ScanAnswers.agrees_of_mem_found h hc)
    have hsame : ∀ name, name ∈ st.discoveredPaths.map basename ↔ name ∈ st.discoveredNames := by
      intro name
      rw [hbases, hnames, List.mem_toFinset]
      exact FirstWins.mem_map_firstWins
    refine ⟨hbases ▸ FirstWins.nodup_map_firstWins _, hsame, fun name => ?_⟩
    rw [isSome_findUnit_parseDiscovered, hsame, hasUnit, decide_eq_true_eq]

end UnitScan

/-- `execute(UnitDiscovery)` comes to its end with the names of the units the parser makes, exactly
if no query throws and no entry of a `*.wants` directory is recorded under the name of its target. -/
theorem executeUnitDiscovery_names_iff (os : ScanAnswers) (pos : ParseAnswers)
    (journal : Journal) :
    let start : UnitScan := { journal := journal }
    (∃ st, start.executeUnitDiscovery os = some st ∧ st.NamesAgree pos) ↔
      os.NothingThrows ∧ os.FallbackNamesKnown :=
  (UnitScan.yields_executeUnitDiscovery os journal).exists_iff
    (fun _ hst => UnitScan.namesAgree_iff pos hst)

/-- A link without an extension, to a unit file outside the search directories. -/
def strayLink : ScanAnswers where
  firstListing dir :=
    if dir = "/etc/systemd/system" then
      .listed { entries := [{ filename := "multi-user.target.wants", isDirectory := some true }] }
    else .missing
  links _ := { entries := [{ filename := "web", isRegularFile := some true, isSymlink := true }] }
  readSymlink _ := some "/opt/web/web.service"

/-- The scanner has `web.service`, and the parser calls the unit `web`. -/
theorem executeUnitDiscovery_names_disagree :
    ¬ ∀ (os : ScanAnswers) (pos : ParseAnswers) (journal : Journal), os.ListingsSucceed →
      let start : UnitScan := { journal := journal }
      ∃ st, start.executeUnitDiscovery os = some st ∧ st.NamesAgree pos := by
  intro h
  have hlistings : strayLink.ListingsSucceed :=
    { first := by decide +kernel
      second := by decide +kernel
      links := fun _ => rfl }
  obtain ⟨st, hst, hagree⟩ := h strayLink { files := fun _ => none } {} hlistings
  have hfound : (({} : UnitScan).executeUnitDiscovery strayLink).map (fun st =>
      (st.discoveredPaths.map basename, decide ("web.service" ∈ st.discoveredNames))) =
        some (["web"], true) := by decide +kernel
  rw [hst, Option.map_some, Option.some.injEq, Prod.mk.injEq, decide_eq_true_eq] at hfound
  have hweb := (hagree.same "web.service").mpr hfound.2
  rw [hfound.1] at hweb
  revert hweb
  decide

/-! ## Search-path priority -/

namespace ScanAnswers

/-- Is there a regular file or symlink of this name directly in the search directory? -/
def holds (os : ScanAnswers) (name dir : String) : Bool :=
  (entries os.firstListing dir).any (fun entry =>
    entry.filename = name && entry.isFile)

/-- The candidate that stands for a file of this name in the search directory. -/
def fileIn (name dir : String) : Candidate :=
  { name := name, path := joinPath dir name }

theorem find?_directCandidate (os : ScanAnswers) {name : String} (hname : isSupported name = true)
    (dir : String) :
    ((entries os.firstListing dir).filterMap (directCandidate dir)).find?
        (fun c => c.name = name) =
      if os.holds name dir then some (fileIn name dir) else none := by
  cases hfind : ((entries os.firstListing dir).filterMap (directCandidate dir)).find?
      (fun c => c.name = name) with
  | some c =>
      rcases List.mem_filterMap.mp (List.mem_of_find?_eq_some hfind) with ⟨entry, hentry, hc⟩
      have hcname : c.name = name := by simpa using List.find?_some hfind
      unfold directCandidate at hc
      split at hc
      next hfile =>
          obtain rfl := Option.some.inj hc
          obtain rfl : entry.filename = name := hcname
          have hholds : os.holds entry.filename dir = true :=
            List.any_eq_true.mpr ⟨entry, hentry, by simpa using (Bool.and_eq_true_iff.mp hfile).1⟩
          rw [if_pos hholds]
          rfl
      next => cases hc
  | none =>
      refine (if_neg ?_).symm
      intro hholds
      rcases List.any_eq_true.mp hholds with ⟨entry, hentry, hfile⟩
      obtain ⟨hentryname, hkind⟩ := Bool.and_eq_true_iff.mp hfile
      obtain rfl : entry.filename = name := by simpa using hentryname
      have hc : directCandidate dir entry = some (fileIn entry.filename dir) := by
        rw [directCandidate, if_pos (by rw [hkind, hname]; rfl)]
        rfl
      have hne := List.find?_eq_none.mp hfind _ (List.mem_filterMap.mpr ⟨entry, hentry, hc⟩)
      simp [fileIn] at hne

/-- The first candidate of a name in pass 1. -/
theorem find?_directCandidates (os : ScanAnswers) {name dir : String} (hname : isSupported name = true)
    (hdir : kUnitSearchPaths.find? (os.holds name) = some dir) :
    os.directCandidates.find? (fun c => c.name = name) = some (fileIn name dir) := by
  have hpick : ∀ dirs : List String, dirs.find? (os.holds name) = some dir →
      dirs.findSome? (fun dir => if os.holds name dir then some (fileIn name dir) else none) =
        some (fileIn name dir) := by
    intro dirs hdirs
    induction dirs with
    | nil => cases hdirs
    | cons d dirs ih =>
        rw [List.findSome?_cons]
        cases hd : os.holds name d with
        | true =>
            rw [List.find?_cons_of_pos hd] at hdirs
            obtain rfl := Option.some.inj hdirs
            rfl
        | false =>
            rw [List.find?_cons_of_neg (by simp [hd])] at hdirs
            exact ih hdirs
  rw [directCandidates, List.find?_flatMap]
  simp only [find?_directCandidate os hname]
  exact hpick _ hdir

/-- Pass 2 comes too late to record the name. -/
theorem filter_found (os : ScanAnswers) {name dir : String} (hname : isSupported name = true)
    (hdir : kUnitSearchPaths.find? (os.holds name) = some dir) :
    os.found.filter (fun c => c.name = name) = [fileIn name dir] := by
  have hfirst : os.candidates.find? (fun c => c.name = name) = some (fileIn name dir) := by
    rw [candidates, List.find?_append, find?_directCandidates os hname hdir]
    rfl
  rw [found, FirstWins.filter_firstWins (Finset.notMem_empty name), hfirst]
  rfl

/-- Only the recorded candidate of the name has a path with this name. -/
theorem basename_of_mem_found {os : ScanAnswers} {name dir : String}
    (hname : isSupported name = true) (hdir : kUnitSearchPaths.find? (os.holds name) = some dir)
    {c : Candidate} (hc : c ∈ os.found) : basename c.path = name ↔ c.name = name := by
  constructor
  · intro h
    have hproper := properCandidate (FirstWins.mem_of_mem_firstWins hc)
    rw [← hproper.agrees (by rw [h, hname]), h]
  · intro h
    have hmem : c ∈ os.found.filter (fun c => c.name = name) := by simp [hc, h]
    rw [filter_found os hname hdir, List.mem_singleton] at hmem
    rw [hmem]
    exact (properDirect (List.mem_of_find?_eq_some (find?_directCandidates os hname hdir))).2

end ScanAnswers

namespace UnitScan

/-- This is the only path for the name, and the unit is read from there. -/
structure FoundOnce (st : UnitScan) (pos : ParseAnswers) (name path : String) : Prop where
  only : st.discoveredPaths.filter (fun path => basename path = name) = [path]
  parsed : ∃ unit, (st.parseDiscovered pos).units.lookup name = some unit ∧ unit.path = path

theorem foundOnce {st : UnitScan} {os : ScanAnswers} (pos : ParseAnswers)
    (h : Recorded ((os.candidates.map Candidate.name).toFinset, os.found) st) {name dir : String}
    (hname : isSupported name = true) (hdir : kUnitSearchPaths.find? (os.holds name) = some dir) :
    st.FoundOnce pos name (joinPath dir name) := by
  obtain ⟨-, hpaths⟩ := h
  have hfilter : st.discoveredPaths.filter (fun path => basename path = name) =
      [joinPath dir name] := by
    rw [hpaths, List.filter_map]
    have hcongr : os.found.filter ((fun path => decide (basename path = name)) ∘ Candidate.path) =
        os.found.filter (fun c => c.name = name) :=
      List.filter_congr (fun c hc => by simp [ScanAnswers.basename_of_mem_found hname hdir hc])
    rw [hcongr, ScanAnswers.filter_found os hname hdir]
    rfl
  refine ⟨hfilter, ?_⟩
  -- The parser keeps the last path of a name; there is only this one.
  have hfind : st.discoveredPaths.reverse.find? (fun p => name = basename p) =
      some (joinPath dir name) := by
    have hswap : (fun p => decide (name = basename p)) = (fun p => decide (basename p = name)) := by
      funext p
      simp [eq_comm]
    rw [hswap, ← List.head?_filter, List.filter_reverse, hfilter]
    rfl
  rw [parseDiscovered, InitSystem.lookup_executeUnitParse, hfind]
  exact ⟨_, rfl, UnitFile.path_parse _ _⟩

end UnitScan

/-- A unit file directly in a search directory is found once, in the first search directory that
has a file of its name, and the unit is read from there, exactly if no query throws. -/
theorem executeUnitDiscovery_priority_iff (os : ScanAnswers) (pos : ParseAnswers)
    (journal : Journal) {name : String} (hname : isSupported name = true)
    (hfile : ∃ dir ∈ kUnitSearchPaths, os.holds name dir = true) :
    let start : UnitScan := { journal := journal }
    (∃ st, start.executeUnitDiscovery os = some st ∧
      ∃ dir, kUnitSearchPaths.find? (os.holds name) = some dir ∧
        st.FoundOnce pos name (joinPath dir name)) ↔
      os.NothingThrows := by
  intro start
  obtain ⟨dir, hdir⟩ : ∃ dir, kUnitSearchPaths.find? (os.holds name) = some dir := by
    rw [← Option.isSome_iff_exists, List.find?_isSome]
    exact hfile
  rw [← and_true os.NothingThrows]
  exact (UnitScan.yields_executeUnitDiscovery os journal).exists_iff
    (fun _ hst => iff_true_intro ⟨dir, hdir, UnitScan.foundOnce pos hst hname hdir⟩)

/-- A file in `/etc` and in `/usr/lib`, which a `*.wants` directory in `/etc` links to. -/
theorem executeUnitDiscovery_priority_iff_sample :
    let os : ScanAnswers :=
      { firstListing := fun dir =>
          if dir = "/etc/systemd/system" then
            .listed { entries := [
              { filename := "multi-user.target.wants", isDirectory := some true },
              { filename := "web.service", isRegularFile := some true }] }
          else if dir = "/usr/lib/systemd/system" then
            .listed { entries := [{ filename := "web.service", isRegularFile := some true }] }
          else .missing
        links := fun _ =>
          { entries := [{ filename := "web.service", isRegularFile := some true, isSymlink := true }] }
        readSymlink := fun _ => some "/usr/lib/systemd/system/web.service" }
    let start : UnitScan := {}
    ∃ st, start.executeUnitDiscovery os = some st ∧
      ∃ dir, kUnitSearchPaths.find? (os.holds "web.service") = some dir ∧
        st.FoundOnce { files := fun _ => none } "web.service" (joinPath dir "web.service") :=
  (executeUnitDiscovery_priority_iff _ { files := fun _ => none } {} (by decide +kernel)
    ⟨"/etc/systemd/system", by decide +kernel, by decide +kernel⟩).mpr (by decide +kernel)

/-- `/etc/systemd/system/web.service` is a symlink to itself. -/
def loopingLink : ScanAnswers where
  firstListing dir :=
    if dir = "/etc/systemd/system" then
      .listed
        { entries := [
            { filename := "web.service"
              isRegularFile := none
              isDirectory := none
              isSymlink := true }] }
    else .missing

/-- The query of the looping symlink throws, and nothing is found. -/
theorem executeUnitDiscovery_throws :
    ¬ ∀ (os : ScanAnswers) (pos : ParseAnswers) (journal : Journal) (name : String),
      os.ListingsSucceed → isSupported name = true →
      (∃ dir ∈ kUnitSearchPaths, os.holds name dir = true) →
      let start : UnitScan := { journal := journal }
      ∃ st, start.executeUnitDiscovery os = some st ∧
        ∃ dir, kUnitSearchPaths.find? (os.holds name) = some dir ∧
          st.FoundOnce pos name (joinPath dir name) := by
  intro h
  have hlistings : loopingLink.ListingsSucceed :=
    { first := by decide +kernel
      second := by decide +kernel
      links := fun _ => rfl }
  obtain ⟨st, hst, -⟩ := h loopingLink { files := fun _ => none } {} "web.service" hlistings
    (by decide +kernel) ⟨"/etc/systemd/system", by decide +kernel, by decide +kernel⟩
  have hthrows : (({} : UnitScan).executeUnitDiscovery loopingLink).isSome = false := by
    decide +kernel
  rw [hst] at hthrows
  cases hthrows

end TrivialInit
