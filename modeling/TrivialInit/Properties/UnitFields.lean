import TrivialInit.Properties.UnitText

/-!
# UnitFields — from a file to a field of its unit

How `execute(UnitParse)` fills one field: the blocks for the other sections leave it alone, and the
block that reads it takes the stored value of its key.  The lemmas are stated for any field, given
as a function `get` on units.

`lookup_executeUnitParse` tells which file a unit comes from.
-/

namespace TrivialInit

/-! ## One parsed unit -/

namespace UnitFile

theorem get_foldl {α β : Type} (get : UnitFile → β) {f : UnitFile → α → UnitFile}
    (h : ∀ unit a, get (f unit a) = get unit) (l : List α) (unit : UnitFile) :
    get (l.foldl f unit) = get unit := by
  induction l generalizing unit with
  | nil => rfl
  | cons a l ih => rw [List.foldl_cons, ih, h]

/-- The loop over the condition keys only changes `conditions` and `assertions`. -/
theorem get_addConditions {β : Type} (get : UnitFile → β)
    (hconditions : ∀ (unit : UnitFile) l, get { unit with conditions := l } = get unit)
    (hassertions : ∀ (unit : UnitFile) l, get { unit with assertions := l } = get unit)
    (uninit : Nat → Bool) (unit : UnitFile) (entry : String × String) :
    get (addConditions uninit unit entry) = get unit := by
  unfold addConditions
  simp only
  split
  · exact get_foldl get (fun u v => by apply hconditions) _ unit
  · split
    · exact get_foldl get (fun u v => by apply hassertions) _ unit
    · rfl

/-- A block that leaves the field alone. -/
theorem get_inSection_of_same {β : Type} (get : UnitFile → β) {sections : Sections}
    {name : String} (block : UnitFile → UnorderedMap String String → UnitFile)
    (h : ∀ unit sec, get (block unit sec) = get unit) (unit : UnitFile) :
    get (inSection sections name block unit) = get unit := by
  unfold inSection
  cases sections.lookup name with
  | none => rfl
  | some sec => exact h unit sec

/-- A block that reads the field from a key. -/
theorem get_inSection_of_read {β : Type} (get : UnitFile → β) {sections : Sections}
    {name key : String} {block : UnitFile → UnorderedMap String String → UnitFile}
    {convert : String → β} {start : β}
    (h : ∀ unit sec, get unit = start → get (block unit sec) = readField sec key convert start)
    {unit : UnitFile} (hstart : get unit = start) :
    get (inSection sections name block unit) =
      ((valueAt sections name key).map convert).getD start := by
  unfold inSection valueAt
  cases sections.lookup name with
  | none => exact hstart
  | some sec =>
      simp only [Option.bind_some]
      rw [h unit sec hstart]
      unfold readField
      cases sec.lookup key <;> rfl

end UnitFile

/-! ## Fields that no section sets -/

namespace UnitFile

/-- A field that none of the blocks assigns. -/
theorem get_parse_of_same {β : Type} (get : UnitFile → β)
    (hunit : ∀ os unit sec, get (parseUnitSection os unit sec) = get unit)
    (hservice : ∀ os ctx unit sec, get (parseServiceSection os ctx unit sec) = get unit)
    (hinstall : ∀ unit sec, get (parseInstallSection unit sec) = get unit)
    (hmount : ∀ unit sec, get (parseMountSection unit sec) = get unit)
    (os : ParseAnswers) (path : String) :
    get (parse os path) = get
      { name := basename path
        path := path
        type := unitTypeFromSuffix (basename path)
        rawSections := parseIni (os.files path) } := by
  unfold parse
  simp only
  rw [get_inSection_of_same get parseMountSection hmount,
    get_inSection_of_same get parseInstallSection hinstall,
    get_inSection_of_same get (parseServiceSection os _) (hservice os _),
    get_inSection_of_same get _ (hunit os)]

theorem name_parseUnitSection (os : ParseAnswers) (unit : UnitFile)
    (sec : UnorderedMap String String) : (parseUnitSection os unit sec).name = unit.name := by
  unfold parseUnitSection
  exact get_foldl UnitFile.name
    (get_addConditions UnitFile.name (fun _ _ => rfl) (fun _ _ => rfl) _) _ _

theorem path_parseUnitSection (os : ParseAnswers) (unit : UnitFile)
    (sec : UnorderedMap String String) : (parseUnitSection os unit sec).path = unit.path := by
  unfold parseUnitSection
  exact get_foldl UnitFile.path
    (get_addConditions UnitFile.path (fun _ _ => rfl) (fun _ _ => rfl) _) _ _

@[simp] theorem name_parse (os : ParseAnswers) (path : String) :
    (parse os path).name = basename path :=
  get_parse_of_same UnitFile.name name_parseUnitSection (fun _ _ _ _ => rfl) (fun _ _ => rfl)
    (fun _ _ => rfl) os path

@[simp] theorem path_parse (os : ParseAnswers) (path : String) : (parse os path).path = path :=
  get_parse_of_same UnitFile.path path_parseUnitSection (fun _ _ _ _ => rfl) (fun _ _ => rfl)
    (fun _ _ => rfl) os path

end UnitFile

/-! ## All units -/

namespace InitSystem

theorem lookup_parseUnit (os : ParseAnswers) (s : InitSystem) (path name : String) :
    (parseUnit os s path).units.lookup name =
      if name = basename path then some (UnitFile.parse os path) else s.units.lookup name := by
  unfold parseUnit
  simp only [UnorderedMap.lookup_insert_eq, UnitFile.name_parse]
  rfl

theorem lookup_foldl_parseUnit (os : ParseAnswers) (paths : List String) (s : InitSystem)
    (name : String) :
    (paths.foldl (parseUnit os) s).units.lookup name =
      match paths.reverse.find? (fun p => name = basename p) with
      | some path => some (UnitFile.parse os path)
      | none => s.units.lookup name := by
  induction paths generalizing s with
  | nil => rfl
  | cons path paths ih =>
      rw [List.foldl_cons, ih, List.reverse_cons, List.find?_append, lookup_parseUnit]
      cases paths.reverse.find? (fun p => name = basename p) with
      | some p => rfl
      | none => by_cases hname : name = basename path <;> simp [hname]

/-- After `execute(UnitParse)` a unit comes from the last path with its name. -/
theorem lookup_executeUnitParse (s : InitSystem) (paths : List String) (os : ParseAnswers)
    (name : String) :
    (s.executeUnitParse paths os).units.lookup name =
      match paths.reverse.find? (fun p => name = basename p) with
      | some path => some (UnitFile.parse os path)
      | none => s.units.lookup name :=
  lookup_foldl_parseUnit os paths _ name

/-- A path that no later path shares its name with. -/
theorem lookup_executeUnitParse_last (s : InitSystem) (os : ParseAnswers)
    (earlier later : List String) (path : String)
    (hlast : ∀ p ∈ later, basename p ≠ basename path) :
    (s.executeUnitParse (earlier ++ path :: later) os).units.lookup (basename path) =
      some (UnitFile.parse os path) := by
  have hnone : later.reverse.find? (fun p => basename path = basename p) = none := by
    rw [List.find?_eq_none]
    intro p hp
    have hne := hlast p (List.mem_reverse.mp hp)
    simpa using fun h => hne h.symm
  rw [lookup_executeUnitParse, List.reverse_append, List.reverse_cons, List.find?_append,
    List.find?_append, hnone]
  simp

end InitSystem

end TrivialInit
