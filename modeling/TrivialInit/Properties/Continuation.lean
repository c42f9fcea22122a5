import TrivialInit.Properties.UnitRoundTrip

/-!
# Continuation — a line may be broken anywhere

`parse_ini` carries the text of continued lines in `accumulated`, and takes an empty carry for none.
An empty carry adds nothing to the line that follows it, so the two cannot be told apart: a line
broken in two is the same logical line (`logicalLines_broken`), wherever it stands.
-/

namespace TrivialInit

/-- The text of a file with these physical lines; the newline of the last one may be missing. -/
def fileText (lines : List String) (newlineAtEnd : Bool) : String :=
  let texts := lines.map String.toList
  String.ofList
    (if newlineAtEnd then texts.flatMap (fun t => t ++ ['\n']) else ['\n'].intercalate texts)

/-! ## Logical lines -/

theorem getLast?_append_backslash (u : String) : (u ++ "\\").toList.getLast? = some '\\' := by
  simp

theorem takeStr_append_backslash (u : String) :
    takeStr (u ++ "\\") ((u ++ "\\").length - 1) = u := by
  rw [← String.toList_inj, takeStr, String.toList_ofList, ← String.length_toList,
    String.toList_append]
  simp

/-- The last character of the broken line is that of its second part. -/
theorem getLast?_of_break {u v : String} (h : v ≠ "" ∨ (u ++ v).toList.getLast? ≠ some '\\') :
    (u ++ v).toList.getLast? = some '\\' ↔ v.toList.getLast? = some '\\' := by
  by_cases hv : v = ""
  · subst hv
    simpa using h
  · have hne : v.toList ≠ [] := by simpa using hv
    rw [String.toList_append, List.getLast?_append_of_ne_nil _ hne]

theorem takeStr_break {u v : String} (hv : v ≠ "") :
    takeStr (u ++ v) ((u ++ v).length - 1) = u ++ takeStr v (v.length - 1) := by
  have hne : v.toList ≠ [] := by simpa using hv
  rw [← String.toList_inj, takeStr, takeStr, String.toList_append, String.toList_append,
    String.toList_ofList, String.toList_ofList, String.length_append, ← String.length_toList,
    ← String.length_toList]
  have hpos := List.length_pos_iff.mpr hne
  rw [Nat.add_sub_assoc hpos, List.take_length_add_append]

theorem logicalLines_break {u v : String} (h : v ≠ "" ∨ (u ++ v).toList.getLast? ≠ some '\\')
    (acc : String) (after : List String) :
    logicalLines acc ((u ++ "\\") :: v :: after) = logicalLines acc ((u ++ v) :: after) := by
  rw [logicalLines_cons, if_pos (getLast?_append_backslash u), takeStr_append_backslash,
    logicalLines_cons, logicalLines_cons]
  by_cases hlast : v.toList.getLast? = some '\\'
  · -- The line itself is continued, and so is its second part.
    have hv : v ≠ "" := by
      rintro rfl
      simp at hlast
    rw [if_pos hlast, if_pos ((getLast?_of_break h).mpr hlast), takeStr_break hv,
      String.append_assoc]
  · rw [if_neg hlast, if_neg (fun hu => hlast ((getLast?_of_break h).mp hu)), String.append_assoc]

/-- Breaking a line changes no logical line, whatever is carried over from the lines before it. -/
theorem logicalLines_broken {u v : String} (h : v ≠ "" ∨ (u ++ v).toList.getLast? ≠ some '\\')
    (acc : String) (before after : List String) :
    logicalLines acc (before ++ (u ++ "\\") :: v :: after) =
      logicalLines acc (before ++ (u ++ v) :: after) := by
  induction before generalizing acc with
  | nil => exact logicalLines_break h acc after
  | cons line before ih =>
      rw [List.cons_append, List.cons_append, logicalLines_cons, logicalLines_cons, ih, ih]

/-! ## The end of the file -/

theorem processLine_empty (st : IniState) : st.processLine "" = st := by
  have hempty : classify "" = .ignored := classify_blank (by simp [BlankLine])
  rw [IniState.processLine_eq, hempty]
  rfl

theorem foldl_processLine_concat_empty (acc : String) (lines : List String) (st : IniState) :
    (logicalLines acc (lines ++ [""])).foldl IniState.processLine st =
      (logicalLines acc lines).foldl IniState.processLine st := by
  rcases logicalLines_concat_empty acc lines with h | h
  · rw [h]
  · rw [h, List.foldl_append, List.foldl_cons, List.foldl_nil, processLine_empty]

/-- The lines `getline` yields are those of the text, but for an empty last one without newline. -/
theorem getlines_fileText {lines : List String} (h : ∀ l ∈ lines, '\n' ∉ l.toList)
    (newlineAtEnd : Bool) :
    lines = (getlines (fileText lines newlineAtEnd).toList).map String.ofList ∨
      lines = (getlines (fileText lines newlineAtEnd).toList).map String.ofList ++ [""] := by
  have htexts : ∀ t ∈ lines.map String.toList, '\n' ∉ t := by
    intro t ht
    obtain ⟨l, hl, rfl⟩ := List.mem_map.mp ht
    exact h l hl
  have hlines : (lines.map String.toList).map String.ofList = lines := by
    simp [Function.comp_def]
  have hall := getlines_printLines htexts
  unfold fileText
  dsimp only
  rw [String.toList_ofList]
  cases newlineAtEnd with
  | true =>
      left
      rw [if_pos rfl, hall, hlines]
  | false =>
      rw [if_neg Bool.false_ne_true]
      by_cases hnil : lines = []
      · subst hnil
        exact Or.inl rfl
      · rw [← intercalate_append_newline (by simpa using hnil)] at hall
        rcases getlines_concat_newline (['\n'].intercalate (lines.map String.toList)) with hl | hl
        · left
          rw [← hl, hall, hlines]
        · right
          rw [hl] at hall
          have hmap := congrArg (List.map String.ofList) hall
          rw [List.map_append, hlines] at hmap
          exact hmap.symm

/-- `parse_ini` processes the logical lines of a file. -/
theorem parseIni_fileText {lines : List String} (h : ∀ l ∈ lines, '\n' ∉ l.toList)
    (newlineAtEnd : Bool) :
    parseIni (some (fileText lines newlineAtEnd)) =
      ((logicalLines "" lines).foldl IniState.processLine {}).sections := by
  rw [parseIni_eq_fileLines]
  rcases getlines_fileText h newlineAtEnd with hlines | hlines
  · rw [fileLines, ← hlines]
  · conv_rhs => rw [hlines, foldl_processLine_concat_empty]
    rfl

/-- Any line of a file may be broken in two, with a backslash at the end of the first part. -/
theorem parseIni_broken {before after : List String} {u v : String} (newlineAtEnd : Bool)
    (hlines : ∀ l ∈ before ++ (u ++ v) :: after, '\n' ∉ l.toList)
    (hbreak : v ≠ "" ∨ (u ++ v).toList.getLast? ≠ some '\\') :
    parseIni (some (fileText (before ++ (u ++ "\\") :: v :: after) newlineAtEnd)) =
      parseIni (some (fileText (before ++ (u ++ v) :: after) newlineAtEnd)) := by
  have hbroken : ∀ l ∈ before ++ (u ++ "\\") :: v :: after, '\n' ∉ l.toList := by
    intro l hl
    have huv := hlines (u ++ v) (by simp)
    rw [String.toList_append, List.mem_append, not_or] at huv
    simp only [List.mem_append, List.mem_cons] at hl hlines
    rcases hl with hl | rfl | rfl | hl
    · exact hlines l (Or.inl hl)
    · simp [huv.1]
    · exact huv.2
    · exact hlines l (Or.inr (Or.inr hl))
  rw [parseIni_fileText hbroken, parseIni_fileText hlines, logicalLines_broken hbreak]

/-- The second part is empty, inside a continuation, at the end of the file. -/
theorem parseIni_broken_sample :
    parseIni (some "[Unit]\nDescription=\\\nx\\\n") = parseIni (some "[Unit]\nDescription=\\\nx") :=
  @parseIni_broken ["[Unit]", "Description=\\"] [] "x" "" false (by decide) (by decide)

end TrivialInit
