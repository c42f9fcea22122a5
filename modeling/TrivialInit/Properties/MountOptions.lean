import TrivialInit.Lib.Fields
import TrivialInit.Mixins.Mount

/-!
# MountOptions — flags and data of an option string

`parse_mount_options` cuts the options at the commas.  An option of `kFlagMap` adds its bits to the
flags, any other option that is not empty goes into the data, so no option is lost and none is
invented.  Since both kinds are collected option by option, the parts of a text can be parsed apart,
and the data, which has no option of the table left, is its own data.
-/

namespace TrivialInit

open Fields (fields join)

/-! ## One option -/

/-- The bits of an option of the table. -/
def optionFlags (token : String) : Nat :=
  (kFlagMap.lookup token).getD 0

/-- Does the option go into the data? -/
def isDataOption (token : String) : Bool :=
  token ≠ "" && (kFlagMap.lookup token).isNone

/-- The data of an option. -/
def optionData (token : String) : String :=
  if isDataOption token then token else ""

theorem lookup_of_mem_eq {token : String} (h : '=' ∈ token.toList) :
    kFlagMap.lookup token = none := by
  have hkeys : ∀ entry ∈ kFlagMap, '=' ∉ entry.1.toList := by decide
  rw [List.lookup_eq_none_iff]
  intro entry hentry
  have hne : token ≠ entry.1 := by
    rintro rfl
    exact hkeys entry hentry h
  simpa using hne

theorem isDataOption_of_mem_eq {token : String} (h : '=' ∈ token.toList) :
    isDataOption token = true := by
  have hne : token ≠ "" := by
    rintro rfl
    cases h
  simp [isDataOption, hne, lookup_of_mem_eq h]

theorem appendOption_eq (data : String) {token : String} (h : token ≠ "") :
    appendOption data token = join ',' [data, token] := by
  unfold appendOption
  by_cases hdata : data = ""
  · simp [hdata]
  · rw [if_pos hdata, Fields.join_pair hdata h]
    rfl

/-- The three kinds of options, at once. -/
theorem addMountOption_eq (flags : Nat) (data token : String) :
    addMountOption (flags, data) token =
      (flags ||| optionFlags token, join ',' [data, optionData token]) := by
  by_cases heq : '=' ∈ token.toList
  · -- An assignment is data whatever the table says, and the table does not have it.
    have hdata := isDataOption_of_mem_eq heq
    have hne : token ≠ "" := by
      rintro rfl
      cases heq
    simp [addMountOption, (findChar_isSome_iff token '=').mpr heq, optionFlags, optionData, hdata,
      lookup_of_mem_eq heq, appendOption_eq data hne]
  · have hfind : (findChar token '=').isSome = false := by
      rw [Bool.eq_false_iff, ne_eq, findChar_isSome_iff]
      exact heq
    cases hlookup : kFlagMap.lookup token with
    | some value =>
        simp [addMountOption, hfind, hlookup, optionFlags, optionData, isDataOption]
    | none =>
        by_cases hne : token = ""
        · subst hne
          simp [addMountOption, hfind, hlookup, optionFlags, optionData, isDataOption]
        · simp [addMountOption, hfind, hlookup, optionFlags, optionData, isDataOption, hne,
            appendOption_eq data hne]

/-- What an option leaves in the data has no bits, and is its own data. -/
theorem optionData_optionData (token : String) :
    optionFlags (optionData token) = 0 ∧ optionData (optionData token) = optionData token := by
  by_cases hdata : isDataOption token = true
  · have hkept : optionData token = token := if_pos hdata
    rw [hkept]
    simp only [isDataOption, Bool.and_eq_true, Option.isNone_iff_eq_none] at hdata
    refine ⟨?_, hkept⟩
    rw [optionFlags, hdata.2]
    rfl
  · have hempty : optionData token = "" := if_neg hdata
    rw [hempty]
    decide

theorem addMountOption_empty (acc : Nat × String) : addMountOption acc "" = acc := by
  have hlookup : kFlagMap.lookup "" = none := by decide
  rcases acc with ⟨flags, data⟩
  rw [addMountOption_eq]
  simp [optionFlags, optionData, isDataOption, hlookup]

/-! ## All options -/

/-- The bitwise or. -/
def orAll (flags : List Nat) : Nat :=
  flags.foldr (fun value rest => value ||| rest) 0

theorem orAll_append (l r : List Nat) : orAll (l ++ r) = orAll l ||| orAll r := by
  induction l with
  | nil => simp [orAll]
  | cons value l ih =>
      calc
        orAll (value :: l ++ r)
            = value ||| orAll (l ++ r) := rfl
        _ = value ||| (orAll l ||| orAll r) := by rw [ih]
        _ = orAll (value :: l) ||| orAll r := (Nat.or_assoc _ _ _).symm

theorem orAll_eq_zero {flags : List Nat} (h : ∀ value ∈ flags, value = 0) : orAll flags = 0 := by
  induction flags with
  | nil => rfl
  | cons value flags ih =>
      have hrest := ih (fun v hv => h v (List.mem_cons_of_mem value hv))
      calc
        orAll (value :: flags)
            = value ||| orAll flags := rfl
        _ = 0 := by rw [h value List.mem_cons_self, hrest, Nat.or_self]

theorem foldl_addMountOption (tokens : List String) (flags : Nat) (data : String) :
    tokens.foldl addMountOption (flags, data) =
      (flags ||| orAll (tokens.map optionFlags), join ',' (data :: tokens.map optionData)) := by
  induction tokens generalizing flags data with
  | nil => simp [orAll, Fields.join_singleton]
  | cons token tokens ih =>
      have hflags : flags ||| optionFlags token ||| orAll (tokens.map optionFlags) =
          flags ||| orAll ((token :: tokens).map optionFlags) := Nat.or_assoc _ _ _
      rw [List.foldl_cons, addMountOption_eq, ih, hflags, Fields.join_cons_join]
      rfl

theorem parseMountOptionsLoop_empty (acc : Nat × String) :
    parseMountOptionsLoop "" acc = acc := by
  rw [parseMountOptionsLoop, if_pos rfl]

theorem parseMountOptionsLoop_last {field : String} (h : ',' ∉ field.toList)
    (acc : Nat × String) : parseMountOptionsLoop field acc = addMountOption acc field := by
  by_cases hempty : field = ""
  · rw [hempty, parseMountOptionsLoop_empty, addMountOption_empty]
  · have hfind : findChar field ',' = none := findIdx?_eq_none_of_not_mem h
    rw [parseMountOptionsLoop, if_neg hempty, hfind]
    exact parseMountOptionsLoop_empty _

theorem parseMountOptionsLoop_cons {field : String} (h : ',' ∉ field.toList) (rest : String)
    (acc : Nat × String) :
    parseMountOptionsLoop (field ++ String.singleton ',' ++ rest) acc =
      parseMountOptionsLoop rest (addMountOption acc field) := by
  have hne : field ++ String.singleton ',' ++ rest ≠ "" := by simp
  rw [parseMountOptionsLoop, if_neg hne, findChar_separated h]
  dsimp only
  rw [takeStr_separated, dropStr_separated]

/-- The loop goes through the options; the empty one behind a last comma makes no difference. -/
theorem parseMountOptionsLoop_eq_foldl (sv : String) (acc : Nat × String) :
    parseMountOptionsLoop sv acc = (fields ',' sv).foldl addMountOption acc := by
  induction sv using @Fields.induction_fields ',' generalizing acc with
  | last field hfield =>
      rw [parseMountOptionsLoop_last hfield, Fields.fields_of_not_mem hfield]
      rfl
  | cons field rest hfield ih =>
      rw [parseMountOptionsLoop_cons hfield, ih, Fields.fields_cons hfield]
      rfl

theorem parseMountOptions_eq (opts : String) :
    parseMountOptions opts =
      (orAll ((fields ',' opts).map optionFlags), join ',' ((fields ',' opts).map optionData)) := by
  rw [parseMountOptions, parseMountOptionsLoop_eq_foldl, foldl_addMountOption, Nat.zero_or]
  rfl

/-! ## The two kinds -/

/-- Options that are not in the table add no bits. -/
theorem orAll_optionFlags (tokens : List String) :
    orAll (tokens.map optionFlags) = orAll (tokens.filterMap (fun token => kFlagMap.lookup token)) := by
  induction tokens with
  | nil => rfl
  | cons token tokens ih =>
      have hstep : orAll ((token :: tokens).map optionFlags) =
          optionFlags token ||| orAll (tokens.map optionFlags) := rfl
      rw [hstep, ih]
      cases hlookup : kFlagMap.lookup token with
      | none => simp [optionFlags, hlookup]
      | some value =>
          rw [List.filterMap_cons, hlookup, optionFlags, hlookup]
          rfl

/-- The other options that are not empty are what the data is joined from. -/
theorem filter_optionData (tokens : List String) :
    (tokens.map optionData).filter (fun text => text ≠ "") = tokens.filter isDataOption := by
  induction tokens with
  | nil => rfl
  | cons token tokens ih =>
      rw [List.map_cons]
      by_cases hdata : isDataOption token = true
      · have hne : token ≠ "" := by
          rintro rfl
          simp [isDataOption] at hdata
        rw [List.filter_cons_of_pos (by simpa [optionData, hdata] using hne),
          List.filter_cons_of_pos hdata, ih, optionData, if_pos hdata]
      · rw [List.filter_cons_of_neg (by simp [optionData, hdata]),
          List.filter_cons_of_neg hdata, ih]

/-! ## Parts of an option string -/

theorem parseMountOptions_append (a b : String) :
    parseMountOptions (a ++ "," ++ b) =
      ((parseMountOptions a).1 ||| (parseMountOptions b).1,
        join ',' [(parseMountOptions a).2, (parseMountOptions b).2]) := by
  have hfields : fields ',' (a ++ "," ++ b) = fields ',' a ++ fields ',' b :=
    Fields.fields_append a b
  rw [parseMountOptions_eq, parseMountOptions_eq, parseMountOptions_eq, hfields, List.map_append,
    List.map_append, orAll_append, Fields.join_append]

theorem parseMountOptions_data (opts : String) :
    parseMountOptions (parseMountOptions opts).2 = (0, (parseMountOptions opts).2) := by
  let data := (fields ',' opts).map optionData
  have hdata : (parseMountOptions opts).2 = join ',' data := by rw [parseMountOptions_eq]
  have hcomma : ∀ text ∈ data, ',' ∉ text.toList := by
    intro text htext
    obtain ⟨token, htoken, rfl⟩ := List.mem_map.mp htext
    unfold optionData
    split_ifs
    · exact Fields.not_mem_of_mem_fields htoken
    · simp
  -- Every field of the data is empty, or the data of an option.
  have hfield : ∀ field ∈ fields ',' (join ',' data),
      optionFlags field = 0 ∧ optionData field = field := by
    intro field hfield
    by_cases hne : field = ""
    · rw [hne]
      decide
    · obtain ⟨token, -, rfl⟩ := List.mem_map.mp (Fields.mem_of_mem_fields_join hcomma hfield hne)
      exact optionData_optionData token
  have hflags : orAll ((fields ',' (join ',' data)).map optionFlags) = 0 := by
    apply orAll_eq_zero
    intro value hvalue
    obtain ⟨field, hmem, rfl⟩ := List.mem_map.mp hvalue
    exact (hfield field hmem).1
  have hsame : (fields ',' (join ',' data)).map optionData = fields ',' (join ',' data) := by
    calc
      (fields ',' (join ',' data)).map optionData
          = (fields ',' (join ',' data)).map id :=
            List.map_congr_left (fun field hmem => (hfield field hmem).2)
      _ = fields ',' (join ',' data) := List.map_id _
  rw [hdata, parseMountOptions_eq, hflags, hsame, Fields.join_fields_join hcomma]

/-- Every option is a flag of the table or goes into the data, nothing else does, and the parts of
an option string can be parsed apart. -/
theorem parseMountOptions_partition (opts : String) :
    parseMountOptions opts =
        (orAll ((fields ',' opts).filterMap (fun token => kFlagMap.lookup token)),
          ",".intercalate ((fields ',' opts).filter isDataOption)) ∧
      (∀ token ∈ fields ',' opts, '=' ∈ token.toList → isDataOption token = true) ∧
      (∀ b, parseMountOptions (opts ++ "," ++ b) =
        ((parseMountOptions opts).1 ||| (parseMountOptions b).1,
          ",".intercalate ([(parseMountOptions opts).2, (parseMountOptions b).2].filter
            (fun data => data ≠ "")))) ∧
      parseMountOptions (parseMountOptions opts).2 = (0, (parseMountOptions opts).2) := by
  refine ⟨?_, ?_, ?_, ?_⟩
  · rw [parseMountOptions_eq, orAll_optionFlags, join, filter_optionData]
    rfl
  · intro token _ heq
    exact isDataOption_of_mem_eq heq
  · exact parseMountOptions_append opts
  · exact parseMountOptions_data opts

/-! ## The call -/

/-- The data is passed as a null pointer exactly when no option goes into it. -/
theorem data_mountCall_eq_none_iff (unit : UnitFile) :
    (mountCall unit).data = none ↔ ∀ token ∈ fields ',' unit.options, isDataOption token = false := by
  have hdata : (mountCall unit).data = none ↔ (parseMountOptions unit.options).2 = "" := by
    simp [mountCall]
  have hjoin : (parseMountOptions unit.options).2 = "" ↔
      ((fields ',' unit.options).map optionData).filter (fun text => text ≠ "") = [] := by
    rw [parseMountOptions_eq]
    constructor
    · intro hempty
      by_contra hne
      exact Fields.join_ne_empty hne hempty
    · exact Fields.join_eq_empty
  rw [hdata, hjoin, filter_optionData, List.filter_eq_nil_iff]
  simp only [Bool.not_eq_true]

end TrivialInit
