import TrivialInit.Lib.Words
import TrivialInit.Properties.UnitFields

/-!
# ListDirectives — list directives collect every assignment

`parse_ini` joins the values of a repeated key with `\x1f` and `split_list` takes the join apart.
The words of a join are the words of the joined values, so the field of a list directive is the
concatenation of the words of all its assignments, in file order.
-/

namespace TrivialInit

/-! ## Words of a value -/

/-- The words of a value: maximal runs without space, tab or `\x1f`. -/
def wordsOf (value : String) : List String :=
  (Words.words isListSep value.toList).map String.ofList

/-- The scanner finds the words. -/
theorem splitLoop_eq_words (sep : Char → Bool) (fuel : Nat) (sv : List Char)
    (hfuel : sv.length ≤ fuel) :
    splitLoop sep fuel sv = (Words.words sep sv).map String.ofList := by
  induction fuel generalizing sv with
  | zero =>
      obtain rfl : sv = [] := List.length_eq_zero_iff.mp (Nat.le_zero.mp hfuel)
      rfl
  | succ fuel ih =>
      rw [splitLoop, ← Words.words_dropWhile sv]
      cases hrest : sv.dropWhile sep with
      | nil => rfl
      | cons c rest =>
          have hc : sep c = false := by
            have := List.head?_dropWhile_not sep sv
            simpa [hrest] using this
          -- The word takes at least `c`, and what is left is shorter.
          have hlen : (rest.dropWhile (fun d => !sep d)).length ≤ fuel := by
            have hle := List.length_dropWhile_le (fun d => !sep d) rest
            have hle' := List.length_dropWhile_le sep sv
            rw [hrest, List.length_cons] at hle'
            omega
          have hdrop : (c :: rest).dropWhile (fun d => !sep d) =
              rest.dropWhile (fun d => !sep d) :=
            List.dropWhile_cons_of_pos (by simp [hc])
          rw [Words.words_eq_takeWhile_cons hc, List.map_cons, hdrop]
          simp only [hdrop, ih _ hlen]

theorem splitList_eq_wordsOf (sv : String) : splitList sv = wordsOf sv :=
  splitLoop_eq_words isListSep sv.length sv.toList (le_of_eq String.length_toList)

theorem wordsOf_accumulateValue (existing val : String) :
    wordsOf (accumulateValue existing val) = wordsOf existing ++ wordsOf val := by
  unfold accumulateValue
  by_cases h : existing = ""
  · subst h
    simp [wordsOf]
  · have hlist : (existing ++ "\x1f" ++ val).toList = existing.toList ++ '\x1f' :: val.toList := by
      simp
    rw [if_neg h]
    unfold wordsOf
    rw [hlist, Words.words_append_cons _ _ (by rfl), List.map_append]

/-- No word is lost, merged, doubled or moved by the join. -/
theorem wordsOf_joinValues (values : List String) :
    wordsOf (joinValues values) = values.flatMap wordsOf := by
  have hfold : ∀ e, wordsOf (values.foldl accumulateValue e) =
      wordsOf e ++ values.flatMap wordsOf := by
    induction values with
    | nil => simp
    | cons v values ih =>
        intro e
        rw [List.foldl_cons, ih, wordsOf_accumulateValue, List.flatMap_cons, List.append_assoc]
  exact hfold ""

/-! ## The directives -/

/-- The list directives `execute(UnitParse)` reads. -/
inductive ListDirective
  | wants
  | requires
  | after
  | before
  | conflicts
  | partOf
  | bindsTo
  | wantedBy
  | requiredBy
  deriving DecidableEq, Repr

namespace ListDirective

def sec : ListDirective → String
  | wantedBy | requiredBy => "Install"
  | _ => "Unit"

def key : ListDirective → String
  | wants => "Wants"
  | requires => "Requires"
  | after => "After"
  | before => "Before"
  | conflicts => "Conflicts"
  | partOf => "PartOf"
  | bindsTo => "BindsTo"
  | wantedBy => "WantedBy"
  | requiredBy => "RequiredBy"

/-- The field of the parsed unit. -/
def get (unit : UnitFile) : ListDirective → List String
  | wants => unit.wants
  | requires => unit.requires
  | after => unit.after
  | before => unit.before
  | conflicts => unit.conflicts
  | partOf => unit.partOf
  | bindsTo => unit.bindsTo
  | wantedBy => unit.wantedBy
  | requiredBy => unit.requiredBy

/-- The words of all assignments of the directive in its section, in file order. -/
def wordsIn (file : Option String) (d : ListDirective) : List String :=
  (valuesOf (assignments file) d.sec d.key).flatMap wordsOf

end ListDirective

/-! ## One parsed unit -/

namespace UnitFile

theorem get_parseUnitSection (os : ParseAnswers) (unit : UnitFile)
    (sec : UnorderedMap String String) {d : ListDirective} (hd : d.sec = "Unit") :
    d.get (parseUnitSection os unit sec) = readField sec d.key splitList (d.get unit) := by
  unfold parseUnitSection
  simp only
  rw [get_foldl d.get (get_addConditions d.get (fun _ _ => by cases d <;> rfl)
    (fun _ _ => by cases d <;> rfl) _)]
  cases d <;> first | rfl | simp [ListDirective.sec] at hd

theorem get_parseUnitSection_install (os : ParseAnswers) (unit : UnitFile)
    (sec : UnorderedMap String String) {d : ListDirective} (hd : d.sec = "Install") :
    d.get (parseUnitSection os unit sec) = d.get unit := by
  unfold parseUnitSection
  simp only
  rw [get_foldl d.get (get_addConditions d.get (fun _ _ => by cases d <;> rfl)
    (fun _ _ => by cases d <;> rfl) _)]
  cases d <;> first | rfl | simp [ListDirective.sec] at hd

theorem get_parseInstallSection (unit : UnitFile) (sec : UnorderedMap String String)
    {d : ListDirective} (hd : d.sec = "Install") :
    d.get (parseInstallSection unit sec) = readField sec d.key splitList (d.get unit) := by
  cases d <;> first | rfl | simp [ListDirective.sec] at hd

theorem get_parseInstallSection_unit (unit : UnitFile) (sec : UnorderedMap String String)
    {d : ListDirective} (hd : d.sec = "Unit") :
    d.get (parseInstallSection unit sec) = d.get unit := by
  cases d <;> first | rfl | simp [ListDirective.sec] at hd

theorem sec_cases (d : ListDirective) : d.sec = "Unit" ∨ d.sec = "Install" := by
  cases d <;> simp [ListDirective.sec]

/-- The field is `split_list` of the stored value, or empty. -/
theorem get_parse (os : ParseAnswers) (path : String) (d : ListDirective) :
    d.get (parse os path) =
      ((valueAt (parseIni (os.files path)) d.sec d.key).map splitList).getD [] := by
  unfold parse
  simp only
  rw [get_inSection_of_same d.get parseMountSection (fun u s => by cases d <;> rfl)]
  rcases sec_cases d with hd | hd
  · rw [get_inSection_of_same d.get _ (fun u s => get_parseInstallSection_unit u s hd),
      get_inSection_of_same d.get (parseServiceSection os _) (fun u s => by cases d <;> rfl), hd]
    refine get_inSection_of_read d.get ?_ (by cases d <;> rfl)
    intro u s hu
    rw [get_parseUnitSection os u s hd, hu]
  · rw [hd]
    refine get_inSection_of_read d.get ?_ ?_
    · intro u s hu
      rw [get_parseInstallSection u s hd, hu]
    · rw [get_inSection_of_same d.get (parseServiceSection os _) (fun u s => by cases d <;> rfl),
        get_inSection_of_same d.get _ (fun u s => get_parseUnitSection_install os u s hd)]
      cases d <;> rfl

theorem get_parse_eq_wordsIn (os : ParseAnswers) (path : String) (d : ListDirective) :
    d.get (parse os path) = d.wordsIn (os.files path) := by
  rw [get_parse, valueAt_parseIni]
  unfold storedValue ListDirective.wordsIn
  by_cases h : valuesOf (assignments (os.files path)) d.sec d.key = []
  · simp [h]
  · simp only [h, if_false, Option.map_some, Option.getD_some]
    rw [splitList_eq_wordsOf, wordsOf_joinValues]

end UnitFile

namespace InitSystem

/-- The field of every list directive is the concatenation, in file order over all assignments of
the directive in its section, of the words of the assigned value. -/
theorem executeUnitParse_listDirectives (s : InitSystem) (os : ParseAnswers)
    (earlier later : List String) (path : String)
    (hlast : ∀ p ∈ later, basename p ≠ basename path) (d : ListDirective) :
    ∃ unit,
      (s.executeUnitParse (earlier ++ path :: later) os).units.lookup (basename path) = some unit ∧
      d.get unit = (valuesOf (assignments (os.files path)) d.sec d.key).flatMap
        (fun value => (Words.words isListSep value.toList).map String.ofList) := by
  exact ⟨UnitFile.parse os path, lookup_executeUnitParse_last s os earlier later path hlast,
    UnitFile.get_parse_eq_wordsIn os path d⟩

theorem executeUnitParse_listDirectives_sample :
    let os : ParseAnswers :=
      { files := fun p =>
          if p = "/etc/a.service" then some "[Unit]\nAfter=b.target\tc.target\nAfter=\nAfter=d"
          else none }
    let s : InitSystem := {}
    ∃ unit, (s.executeUnitParse ["/usr/a.service", "/etc/a.service"] os).units.lookup
        (basename "/etc/a.service") = some unit ∧
      ListDirective.after.get unit =
        (valuesOf (assignments (os.files "/etc/a.service")) "Unit" "After").flatMap
          (fun value => (Words.words isListSep value.toList).map String.ofList) :=
  executeUnitParse_listDirectives {} _ ["/usr/a.service"] [] "/etc/a.service" (by simp) .after

end InitSystem

end TrivialInit
