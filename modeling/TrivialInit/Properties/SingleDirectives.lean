import TrivialInit.Properties.Expansion
import TrivialInit.Properties.UnitFields

/-!
# SingleDirectives — directives with one value

`parse_ini` joins the values of every repeated key with `\x1f`.  The readers of list directives take
the join apart again; the readers of directives with one value use it as it is.  So the field of
such a directive comes from the last assignment if there is only one, and otherwise it is computed
from the text of all of them.
-/

namespace TrivialInit

/-! ## The directives -/

/-- The directives with one value that `execute(UnitParse)` reads. -/
inductive SingleDirective
  | description
  | type
  | restart
  | user
  | group
  | workingDirectory
  | runtimeDirectory
  | pidFile
  | dynamicUser
  | what
  | «where»
  | mountType
  | options
  deriving DecidableEq, Repr

/-- The value of a field. -/
inductive FieldValue
  | text (value : String)
  | flag (value : Bool)
  deriving DecidableEq, Repr

namespace SingleDirective

def sec : SingleDirective → String
  | description => "Unit"
  | what | «where» | mountType | options => "Mount"
  | _ => "Service"

def key : SingleDirective → String
  | description => "Description"
  | type => "Type"
  | restart => "Restart"
  | user => "User"
  | group => "Group"
  | workingDirectory => "WorkingDirectory"
  | runtimeDirectory => "RuntimeDirectory"
  | pidFile => "PIDFile"
  | dynamicUser => "DynamicUser"
  | what => "What"
  | «where» => "Where"
  | mountType => "Type"
  | options => "Options"

/-- The field of the parsed unit. -/
def get (unit : UnitFile) : SingleDirective → FieldValue
  | description => .text unit.description
  | type => .text unit.typeStr
  | restart => .text unit.restartPolicy
  | user => .text unit.user
  | group => .text unit.group
  | workingDirectory => .text unit.workingDirectory
  | runtimeDirectory => .text unit.runtimeDirectory
  | pidFile => .text unit.pidFile
  | dynamicUser => .flag unit.dynamicUser
  | what => .text unit.what
  | «where» => .text unit.where
  | mountType => .text unit.mountType
  | options => .text unit.options

/-- `v=="yes"||v=="true"||v=="1"`. -/
def isYes (v : String) : Bool :=
  v = "yes" || v = "true" || v = "1"

/-- How the field is computed from one value. -/
def convert (info : SystemInfo) (ctx : SpecifierContext) : SingleDirective → String → FieldValue
  | workingDirectory, v | runtimeDirectory, v | pidFile, v => .text (resolve info ctx v)
  | dynamicUser, v => .flag (isYes v)
  | _, v => .text v

/-- The field of a unit whose file does not assign the directive. -/
def unset : SingleDirective → FieldValue
  | dynamicUser => .flag false
  | _ => .text ""

theorem sec_cases (d : SingleDirective) : d.sec = "Unit" ∨ d.sec = "Service" ∨ d.sec = "Mount" := by
  cases d <;> simp [sec]

end SingleDirective

/-! ## One parsed unit -/

namespace UnitFile

/-- Reading a field and injecting it into a larger type. -/
theorem map_readField {α β : Type} (g : α → β) (sec : UnorderedMap String String) (key : String)
    (convert : String → α) (default : α) :
    g (readField sec key convert default) =
      readField sec key (fun v => g (convert v)) (g default) := by
  unfold readField
  cases sec.lookup key <;> rfl

section

variable (os : ParseAnswers) (ctx : SpecifierContext) (unit : UnitFile)
  (sec : UnorderedMap String String) {d : SingleDirective}

/-- The block for `[Unit]` up to the loop over the condition keys. -/
theorem single_parseUnitSection (hd : d.sec = "Unit") :
    d.get (parseUnitSection os unit sec) =
      readField sec d.key (d.convert os.info ctx) (d.get unit) := by
  unfold parseUnitSection
  simp only
  rw [get_foldl d.get (get_addConditions d.get (fun _ _ => by cases d <;> rfl)
    (fun _ _ => by cases d <;> rfl) _)]
  cases d <;> first | exact map_readField FieldValue.text .. | simp [SingleDirective.sec] at hd

theorem single_parseUnitSection_of_ne (hd : d.sec ≠ "Unit") :
    d.get (parseUnitSection os unit sec) = d.get unit := by
  unfold parseUnitSection
  simp only
  rw [get_foldl d.get (get_addConditions d.get (fun _ _ => by cases d <;> rfl)
    (fun _ _ => by cases d <;> rfl) _)]
  cases d <;> first | rfl | simp [SingleDirective.sec] at hd

theorem single_parseServiceSection (hd : d.sec = "Service") :
    d.get (parseServiceSection os ctx unit sec) =
      readField sec d.key (d.convert os.info ctx) (d.get unit) := by
  cases d <;> first
    | exact map_readField FieldValue.text ..
    | exact map_readField FieldValue.flag ..
    | simp [SingleDirective.sec] at hd

theorem single_parseServiceSection_of_ne (hd : d.sec ≠ "Service") :
    d.get (parseServiceSection os ctx unit sec) = d.get unit := by
  cases d <;> first | rfl | simp [SingleDirective.sec] at hd

theorem single_parseMountSection (hd : d.sec = "Mount") :
    d.get (parseMountSection unit sec) =
      readField sec d.key (d.convert os.info ctx) (d.get unit) := by
  cases d <;> first | exact map_readField FieldValue.text .. | simp [SingleDirective.sec] at hd

theorem single_parseMountSection_of_ne (hd : d.sec ≠ "Mount") :
    d.get (parseMountSection unit sec) = d.get unit := by
  cases d <;> first | rfl | simp [SingleDirective.sec] at hd

end

/-- The field is computed from the stored value. -/
theorem single_parse (os : ParseAnswers) (path : String) (d : SingleDirective) :
    d.get (parse os path) =
      ((valueAt (parseIni (os.files path)) d.sec d.key).map
        (d.convert os.info (SpecifierContext.ofUnit (basename path) path))).getD d.unset := by
  have hinstall : ∀ unit sec, d.get (parseInstallSection unit sec) = d.get unit := by
    intro unit sec
    cases d <;> rfl
  unfold parse
  simp only
  rcases d.sec_cases with hd | hd | hd
  · rw [get_inSection_of_same d.get parseMountSection
        (fun u s => single_parseMountSection_of_ne u s (by simp [hd])),
      get_inSection_of_same d.get parseInstallSection hinstall,
      get_inSection_of_same d.get (parseServiceSection os _)
        (fun u s => single_parseServiceSection_of_ne os _ u s (by simp [hd])), hd]
    refine get_inSection_of_read d.get ?_ (by cases d <;> rfl)
    intro u s hu
    rw [single_parseUnitSection os _ u s hd, hu]
  · rw [get_inSection_of_same d.get parseMountSection
        (fun u s => single_parseMountSection_of_ne u s (by simp [hd])),
      get_inSection_of_same d.get parseInstallSection hinstall, hd]
    refine get_inSection_of_read d.get ?_ ?_
    · intro u s hu
      rw [single_parseServiceSection os _ u s hd, hu]
    · rw [get_inSection_of_same d.get _
        (fun u s => single_parseUnitSection_of_ne os u s (by simp [hd]))]
      cases d <;> rfl
  · rw [hd]
    refine get_inSection_of_read d.get ?_ ?_
    · intro u s hu
      rw [single_parseMountSection os _ u s hd, hu]
    · rw [get_inSection_of_same d.get parseInstallSection hinstall,
        get_inSection_of_same d.get (parseServiceSection os _)
          (fun u s => single_parseServiceSection_of_ne os _ u s (by simp [hd])),
        get_inSection_of_same d.get _
          (fun u s => single_parseUnitSection_of_ne os u s (by simp [hd]))]
      cases d <;> rfl

end UnitFile

/-! ## Reading a join -/

/-- The join of several values is the last one behind a separator. -/
theorem joinValues_eq_append {earlier : List String} {last : String} (hne : earlier ≠ [])
    (hearlier : ∀ v ∈ earlier, v ≠ "") :
    ∃ front, joinValues (earlier ++ [last]) = front ++ "\x1f" ++ last := by
  refine ⟨joinValues earlier, ?_⟩
  have hjoin : joinValues (earlier ++ [last]) = accumulateValue (joinValues earlier) last := by
    simp [joinValues]
  -- The first value is not empty, and joining only appends.
  have hgrows : ∀ (values : List String) (e : String), e ≠ "" →
      values.foldl accumulateValue e ≠ "" := by
    intro values
    induction values with
    | nil => exact fun e he => he
    | cons v values ih =>
        intro e he
        apply ih
        simp [accumulateValue, he]
  have hfront : joinValues earlier ≠ "" := by
    cases earlier with
    | nil => exact absurd rfl hne
    | cons v values =>
        refine hgrows values (accumulateValue "" v) ?_
        simpa [accumulateValue] using hearlier v (by simp)
  rw [hjoin, accumulateValue, if_neg hfront]

theorem append_separator_ne (front last : String) : front ++ "\x1f" ++ last ≠ last := by
  intro h
  have hlen := congrArg String.length h
  simp only [String.length_append] at hlen
  have hsep : "\x1f".length = 1 := rfl
  omega

theorem resolve_append_separator_ne (info : SystemInfo) (ctx : SpecifierContext)
    (front last : String) : resolve info ctx (front ++ "\x1f" ++ last) ≠ resolve info ctx last := by
  rcases resolveChars_append_cons info ctx (c := '\x1f') (by decide) front.toList with ⟨t, ht⟩
  intro h
  have hchars : resolveChars info ctx (front.toList ++ '\x1f' :: last.toList) =
      resolveChars info ctx last.toList := by
    simpa [resolve] using congrArg String.toList h
  have hlen := congrArg List.length (ht last.toList ▸ hchars)
  simp only [List.length_append, List.length_cons] at hlen
  omega

/-- A text with a separator in it is not one of the affirmative values. -/
theorem isYes_append_separator (front last : String) :
    SingleDirective.isYes (front ++ "\x1f" ++ last) = false := by
  have hne : ∀ word : String, '\x1f' ∉ word.toList → front ++ "\x1f" ++ last ≠ word := by
    rintro word hword rfl
    exact hword (by simp)
  simp [SingleDirective.isYes, hne "yes" (by decide), hne "true" (by decide),
    hne "1" (by decide)]

namespace SingleDirective

/-- The field computed from a join is the one computed from its last value exactly if the directive
is `DynamicUser` and that value is not affirmative. -/
theorem convert_join_iff (info : SystemInfo) (ctx : SpecifierContext) (d : SingleDirective)
    (front last : String) :
    d.convert info ctx (front ++ "\x1f" ++ last) = d.convert info ctx last ↔
      d = dynamicUser ∧ isYes last = false := by
  cases d with
  | dynamicUser =>
      rw [convert, convert, isYes_append_separator, FieldValue.flag.injEq]
      exact ⟨fun h => ⟨rfl, h.symm⟩, fun h => h.2.symm⟩
  | workingDirectory | runtimeDirectory | pidFile =>
      simp only [convert, FieldValue.text.injEq, resolve_append_separator_ne, reduceCtorEq, false_and]
  | _ => simp only [convert, FieldValue.text.injEq, append_separator_ne, reduceCtorEq, false_and]

end SingleDirective

/-! ## The parsed field -/

namespace InitSystem

/-- For a directive with one value that is assigned non-empty values only, the field comes from the
last assignment exactly if there is no earlier one, or the directive is `DynamicUser` and the last
value is not affirmative. -/
theorem executeUnitParse_singleDirectives_iff (s : InitSystem) (os : ParseAnswers)
    (earlierPaths laterPaths : List String) (path : String)
    (hlast : ∀ p ∈ laterPaths, basename p ≠ basename path) (d : SingleDirective)
    (earlier : List String) (last : String)
    (hvalues : valuesOf (assignments (os.files path)) d.sec d.key = earlier ++ [last])
    (hne : ∀ v ∈ earlier ++ [last], v ≠ "") :
    (∃ unit,
      (s.executeUnitParse (earlierPaths ++ path :: laterPaths) os).units.lookup (basename path) =
        some unit ∧
      d.get unit = d.convert os.info (SpecifierContext.ofUnit (basename path) path) last) ↔
    earlier = [] ∨ d = .dynamicUser ∧ SingleDirective.isYes last = false := by
  have hstored : valueAt (parseIni (os.files path)) d.sec d.key =
      some (joinValues (earlier ++ [last])) := by
    rw [valueAt_parseIni, hvalues, storedValue, if_neg (by simp)]
  rw [lookup_executeUnitParse_last s os earlierPaths laterPaths path hlast]
  simp only [Option.some.injEq, exists_eq_left', UnitFile.single_parse, hstored, Option.map_some,
    Option.getD_some]
  by_cases hearlier : earlier = []
  · subst hearlier
    simp [joinValues, accumulateValue]
  · rcases joinValues_eq_append hearlier (fun v hv => hne v (by simp [hv])) with ⟨front, hfront⟩
    rw [hfront, SingleDirective.convert_join_iff]
    simp [hearlier]

/-- `DynamicUser` assigned twice, and the last value is not affirmative. -/
theorem executeUnitParse_singleDirectives_iff_sample :
    let os : ParseAnswers :=
      { files := fun _ => some "[Service]\nDynamicUser=yes\n[Install]\n[Service]\nDynamicUser=no\n" }
    let s : InitSystem := {}
    (∃ unit, (s.executeUnitParse ["/etc/a.service"] os).units.lookup (basename "/etc/a.service") =
        some unit ∧
      SingleDirective.dynamicUser.get unit =
        SingleDirective.dynamicUser.convert os.info
          (SpecifierContext.ofUnit (basename "/etc/a.service") "/etc/a.service") "no") ↔
    ["yes"] = [] ∨
      SingleDirective.dynamicUser = .dynamicUser ∧ SingleDirective.isYes "no" = false :=
  executeUnitParse_singleDirectives_iff {} _ [] [] "/etc/a.service" (by simp) .dynamicUser ["yes"]
    "no" (by decide +kernel) (by decide)

/-- `Restart=no` and `Restart=always` give a policy that is neither. -/
theorem executeUnitParse_singleDirectives_not_last :
    ¬ ∀ (s : InitSystem) (os : ParseAnswers) (path : String) (d : SingleDirective)
        (earlier : List String) (last : String),
      valuesOf (assignments (os.files path)) d.sec d.key = earlier ++ [last] →
      (∀ v ∈ earlier ++ [last], v ≠ "") →
      ∃ unit, (s.executeUnitParse [path] os).units.lookup (basename path) = some unit ∧
        d.get unit = d.convert os.info (SpecifierContext.ofUnit (basename path) path) last := by
  intro h
  let os : ParseAnswers :=
    { files := fun _ => some "[Service]\nRestart=no\nRestart=always\n" }
  obtain ⟨unit, hunit, hget⟩ := h {} os "/etc/a.service" .restart ["no"] "always"
    (by decide +kernel) (by decide)
  have hlookup := lookup_executeUnitParse_last {} os [] [] "/etc/a.service" (by simp)
  rw [List.nil_append] at hlookup
  rw [hlookup] at hunit
  obtain rfl := Option.some.inj hunit
  rw [UnitFile.single_parse] at hget
  revert hget
  decide +kernel

end InitSystem

end TrivialInit
