import TrivialInit.Properties.UnitText

/-!
# UnitRoundTrip — parsing undoes printing

A list of sections is written as `[name]` and `key=value` lines, with blank lines and comment lines
anywhere between them.  `parseIni_printed` says that `parse_ini` gives back the assignments and
nothing else.
-/

namespace TrivialInit

/-! ## Printed files -/

/-- Text without a blank character at either end. -/
def Trimmed (s : String) : Prop :=
  (∀ c ∈ s.toList.head?, isTrimmed c = false) ∧ (∀ c ∈ s.toList.getLast?, isTrimmed c = false)

/-- A section with its assignments `(key, value)`. -/
structure IniSection where
  name : String
  assigned : List (String × String)
  deriving DecidableEq, Repr

/-- A line of a printed file. -/
inductive PrintedLine
  | header (name : String)
  | assignment (key value : String)
  | filler (text : String)
  deriving DecidableEq, Repr

namespace PrintedLine

def text : PrintedLine → String
  | header name => "[" ++ name ++ "]"
  | assignment key value => key ++ "=" ++ value
  | filler text => text

/-- Neither blank nor a comment. -/
def isContent : PrintedLine → Bool
  | filler _ => false
  | _ => true

end PrintedLine

/-- A blank line: blank characters only. -/
def BlankLine (text : String) : Prop :=
  ∀ c ∈ text.toList, isTrimmed c = true

/-- A comment line that does not end in a backslash. -/
def CommentLine (text : String) : Prop :=
  (∃ indent c rest, text.toList = indent ++ c :: rest ∧ (∀ d ∈ indent, isTrimmed d = true) ∧
    (c = '#' ∨ c = ';')) ∧ text.toList.getLast? ≠ some '\\'

/-- The lines that can be read back. -/
def PrintedLine.Readable : PrintedLine → Prop
  | .header name => '\n' ∉ name.toList
  | .assignment key value =>
      Trimmed key ∧ '\n' ∉ key.toList ∧ '=' ∉ key.toList ∧
        (∀ c ∈ key.toList.head?, c ≠ '[' ∧ c ≠ '#' ∧ c ≠ ';') ∧
        Trimmed value ∧ '\n' ∉ value.toList ∧ value.toList.getLast? ≠ some '\\'
  | .filler text => '\n' ∉ text.toList ∧ (BlankLine text ∨ CommentLine text)

/-- The lines of a section, in order. -/
def IniSection.lines (s : IniSection) : List PrintedLine :=
  .header s.name :: s.assigned.map (fun a => .assignment a.1 a.2)

/-- The text of a file: its lines with a newline between them, and perhaps one at the end. -/
def printed (doc : List PrintedLine) (newlineAtEnd : Bool) : String :=
  String.ofList (['\n'].intercalate (doc.map (fun l => l.text.toList)) ++
    if newlineAtEnd then ['\n'] else [])

/-- The values the sections give to one key, in order. -/
def sectionValues (sections : List IniSection) (sec key : String) : List String :=
  ((sections.filter (fun s => s.name = sec)).flatMap IniSection.assigned).filter
    (fun a => a.1 = key) |>.map Prod.snd

/-! ## Lines -/

theorem getlines_append_newline {line : List Char} (h : '\n' ∉ line) (rest : List Char) :
    getlines (line ++ '\n' :: rest) = line :: getlines rest := by
  induction line with
  | nil => simp [getlines]
  | cons c line ih =>
      have hc : c ≠ '\n' := fun h' => h (h' ▸ List.mem_cons_self)
      have hline : '\n' ∉ line := fun h' => h (List.mem_cons_of_mem _ h')
      simp [getlines, hc, ih hline]

/-- A newline at the end adds no line, or an empty one. -/
theorem getlines_concat_newline (text : List Char) :
    getlines (text ++ ['\n']) = getlines text ∨
      getlines (text ++ ['\n']) = getlines text ++ [[]] := by
  induction text with
  | nil => simp [getlines]
  | cons c text ih =>
      by_cases hc : c = '\n'
      · rcases ih with h | h <;> simp [getlines, hc, h]
      · cases text with
        | nil => simp [getlines, hc]
        | cons d text =>
            -- The text behind `c` has a first line, which `c` joins.
            obtain ⟨line, lines, hl⟩ : ∃ line lines, getlines (d :: text) = line :: lines := by
              by_cases hd : d = '\n'
              · simp [getlines, hd]
              · unfold getlines
                cases getlines text <;> simp [hd]
            rw [hl] at ih
            rw [List.cons_append]
            rcases ih with h | h
            · left
              rw [getlines, getlines, h, hl]
            · right
              rw [getlines, getlines, h, hl]
              simp [hc]

theorem getlines_printLines {texts : List (List Char)} (h : ∀ t ∈ texts, '\n' ∉ t) :
    getlines (texts.flatMap (fun t => t ++ ['\n'])) = texts := by
  induction texts with
  | nil => rfl
  | cons t texts ih =>
      have ht : '\n' ∉ t := h t List.mem_cons_self
      rw [List.flatMap_cons, List.append_assoc, List.singleton_append,
        getlines_append_newline ht, ih (fun t' ht' => h t' (List.mem_cons_of_mem _ ht'))]

theorem intercalate_append_newline {texts : List (List Char)} (h : texts ≠ []) :
    ['\n'].intercalate texts ++ ['\n'] = texts.flatMap (fun t => t ++ ['\n']) := by
  induction texts with
  | nil => exact absurd rfl h
  | cons t texts ih =>
      cases texts with
      | nil => simp
      | cons t' texts => simp [← ih]

/-! ## Classified lines -/

theorem trim_eq_self {s : String} (h : Trimmed s) : trim s = s := by
  have hfront : s.toList.dropWhile isTrimmed = s.toList := by
    cases hs : s.toList with
    | nil => rfl
    | cons c rest =>
        have hc : isTrimmed c = false := h.1 c (by simp [hs])
        simp [hc]
  have hback : s.toList.rdropWhile isTrimmed = s.toList := by
    rw [List.rdropWhile_eq_self_iff]
    intro hne
    have := h.2 _ (List.getLast?_eq_some_getLast hne)
    simp [this]
  unfold trim
  rw [hfront, hback, String.ofList_toList]

theorem trim_blank {s : String} (h : BlankLine s) : trim s = "" := by
  unfold trim
  rw [List.dropWhile_eq_nil_iff.mpr h]
  rfl

theorem classify_blank {text : String} (h : BlankLine text) : classify text = .ignored := by
  simp [classify, trim_blank h]

theorem classify_comment {text : String} (h : CommentLine text) : classify text = .ignored := by
  obtain ⟨⟨indent, c, rest, htext, hindent, hc⟩, -⟩ := h
  have hblank : isTrimmed c = false := by
    rcases hc with rfl | rfl <;> rfl
  have hfront : (trim text).toList.head? = some c := by
    unfold trim
    rw [htext, List.dropWhile_append_of_pos hindent, String.toList_ofList]
    rw [List.dropWhile_cons_of_neg (by simp [hblank])]
    -- Stripping the end keeps the first character, which is not blank.
    obtain ⟨tail, htail⟩ := List.rdropWhile_prefix isTrimmed (l := c :: rest)
    cases hr : (c :: rest).rdropWhile isTrimmed with
    | nil =>
        have := List.rdropWhile_eq_nil_iff.mp hr c List.mem_cons_self
        simp [hblank] at this
    | cons d _ =>
        rw [hr] at htail
        simpa using (List.cons.inj htail).1
  rcases hc with rfl | rfl <;> simp [classify, hfront]

theorem classify_header (name : String) : classify ("[" ++ name ++ "]") = .header name := by
  have hlist : ("[" ++ name ++ "]").toList = '[' :: name.toList ++ [']'] := by
    simp
  have hlast : ("[" ++ name ++ "]").toList.getLast? = some ']' := by
    rw [hlist, List.getLast?_concat]
  have hfront : ("[" ++ name ++ "]").toList.head? = some '[' := by
    rw [hlist]
    rfl
  have htrim : trim ("[" ++ name ++ "]") = "[" ++ name ++ "]" := by
    apply trim_eq_self
    constructor
    · intro c hc
      rw [hfront] at hc
      obtain rfl : '[' = c := by simpa using hc
      rfl
    · intro c hc
      rw [hlast] at hc
      obtain rfl : ']' = c := by simpa using hc
      rfl
  have hlen : ("[" ++ name ++ "]").length - 2 = name.toList.length := by
    have := congrArg List.length hlist
    simp only [List.cons_append, List.length_cons, List.length_append, List.length_nil] at this
    rw [← String.length_toList]
    omega
  have hname : takeStr (dropStr ("[" ++ name ++ "]") 1) (("[" ++ name ++ "]").length - 2) =
      name := by
    rw [hlen]
    simp [takeStr, dropStr]
  have hne : "[" ++ name ++ "]" ≠ "" := by
    intro h
    rw [h] at hfront
    simp at hfront
  simp only [classify, htrim, hfront, hlast, hne, hname]
  simp

/-- An assignment begins as its key does, or with the `=`. -/
theorem head?_assignment {key value : List Char} {c : Char}
    (h : c ∈ (key ++ '=' :: value).head?) : c ∈ key.head? ∨ c = '=' := by
  cases key with
  | nil => exact Or.inr (Option.some.inj h).symm
  | cons d rest => exact Or.inl h

/-- It ends as its value does, or with the `=`. -/
theorem getLast?_assignment {key value : List Char} {c : Char}
    (h : c ∈ (key ++ '=' :: value).getLast?) : c ∈ value.getLast? ∨ c = '=' := by
  rw [List.getLast?_append_cons] at h
  cases value with
  | nil => exact Or.inr (Option.some.inj h).symm
  | cons d rest => exact Or.inl (by simpa using h)

theorem classify_assignment {key value : String}
    (h : (PrintedLine.assignment key value).Readable) :
    classify (key ++ "=" ++ value) = .assignment key value := by
  obtain ⟨hkey, -, hnoEq, hstart, hvalue, -, -⟩ := h
  have hlist : (key ++ "=" ++ value).toList = key.toList ++ '=' :: value.toList := by
    simp
  have htrim : trim (key ++ "=" ++ value) = key ++ "=" ++ value := by
    apply trim_eq_self
    unfold Trimmed
    rw [hlist]
    constructor
    · intro c hc
      rcases head?_assignment hc with hkeyHead | rfl
      · exact hkey.1 c hkeyHead
      · rfl
    · intro c hc
      rcases getLast?_assignment hc with hvalueLast | rfl
      · exact hvalue.2 c hvalueLast
      · rfl
  have hfront : ∀ c ∈ (key ++ "=" ++ value).toList.head?, c ≠ '[' ∧ c ≠ '#' ∧ c ≠ ';' := by
    rw [hlist]
    intro c hc
    rcases head?_assignment hc with hkeyHead | rfl
    · exact hstart c hkeyHead
    · decide
  have hfind : findChar (key ++ "=" ++ value) '=' = some key.length := findChar_separated hnoEq value
  have htake : takeStr (key ++ "=" ++ value) key.length = key := takeStr_separated key '=' value
  have hdrop : dropStr (key ++ "=" ++ value) (key.length + 1) = value :=
    dropStr_separated key '=' value
  have hne : key ++ "=" ++ value ≠ "" := by
    intro h
    rw [h] at hlist
    simp at hlist
  have hnot : ∀ d : Char, d = '[' ∨ d = '#' ∨ d = ';' →
      (key ++ "=" ++ value).toList.head? ≠ some d := by
    intro d hd h
    obtain ⟨h₁, h₂, h₃⟩ := hfront d h
    rcases hd with hd | hd | hd
    · exact h₁ hd
    · exact h₂ hd
    · exact h₃ hd
  simp only [classify, htrim, hfind, htake, hdrop, hne, trim_eq_self hkey, trim_eq_self hvalue,
    hnot '[' (by simp), hnot '#' (by simp), hnot ';' (by simp)]
  simp

/-! ## The assignments of a printed file -/

/-- The assignments a document spells, when the section `cur` is open. -/
def documentAssignments (cur : String) : List PrintedLine → List Assignment
  | [] => []
  | .header name :: rest => documentAssignments name rest
  | .assignment key value :: rest => ⟨cur, key, value⟩ :: documentAssignments cur rest
  | .filler _ :: rest => documentAssignments cur rest

theorem documentAssignments_filter (cur : String) (doc : List PrintedLine) :
    documentAssignments cur (doc.filter PrintedLine.isContent) = documentAssignments cur doc := by
  induction doc generalizing cur with
  | nil => rfl
  | cons line doc ih =>
      cases line with
      | header name => exact ih name
      | assignment key value => exact congrArg (List.cons _) (ih cur)
      | filler text => exact ih cur

theorem documentAssignments_lines (cur name : String) (assigned : List (String × String))
    (rest : List PrintedLine) :
    documentAssignments cur ((IniSection.mk name assigned).lines ++ rest) =
      assigned.map (fun a => ⟨name, a.1, a.2⟩) ++ documentAssignments name rest := by
  unfold IniSection.lines
  rw [List.cons_append, documentAssignments]
  induction assigned with
  | nil => rfl
  | cons a assigned ih => exact congrArg _ ih

theorem documentAssignments_sections (cur : String) (sections : List IniSection) :
    documentAssignments cur (sections.flatMap IniSection.lines) =
      sections.flatMap (fun s => s.assigned.map (fun a => ⟨s.name, a.1, a.2⟩)) := by
  induction sections generalizing cur with
  | nil => rfl
  | cons s sections ih =>
      rw [List.flatMap_cons, List.flatMap_cons, documentAssignments_lines, ih]

/-- A readable line is classified as what it was printed from. -/
theorem assignmentsFrom_text {doc : List PrintedLine} (h : ∀ line ∈ doc, line.Readable)
    (cur : String) :
    assignmentsFrom cur (doc.map PrintedLine.text) = documentAssignments cur doc := by
  induction doc generalizing cur with
  | nil => rfl
  | cons line doc ih =>
      have hline := h line List.mem_cons_self
      have hdoc := ih (fun l hl => h l (List.mem_cons_of_mem _ hl))
      rw [List.map_cons, assignmentsFrom_cons]
      cases line with
      | header name =>
          simp only [PrintedLine.text, classify_header]
          exact hdoc name
      | assignment key value =>
          simp only [PrintedLine.text, classify_assignment hline]
          exact congrArg _ (hdoc cur)
      | filler text =>
          have hignored : classify text = .ignored := by
            rcases hline.2 with hblank | hcomment
            · exact classify_blank hblank
            · exact classify_comment hcomment
          simp only [PrintedLine.text, hignored]
          exact hdoc cur

theorem getLast?_text {line : PrintedLine} (h : line.Readable) :
    line.text.toList.getLast? ≠ some '\\' := by
  cases line with
  | header name =>
      have hlist : ("[" ++ name ++ "]").toList = '[' :: name.toList ++ [']'] := by
        simp
      simp only [PrintedLine.text, hlist, List.getLast?_concat]
      simp
  | assignment key value =>
      have hlist : (key ++ "=" ++ value).toList = key.toList ++ '=' :: value.toList := by
        simp
      simp only [PrintedLine.text, hlist, List.getLast?_append_cons]
      have hvalue := h.2.2.2.2.2.2
      cases hv : value.toList with
      | nil => simp
      | cons d rest =>
          rw [hv] at hvalue
          simpa using hvalue
  | filler text =>
      rcases h.2 with hblank | hcomment
      · intro hlast
        have := hblank _ (List.mem_of_getLast? hlast)
        simp [isTrimmed] at this
      · exact hcomment.2

theorem notMem_text {line : PrintedLine} (h : line.Readable) : '\n' ∉ line.text.toList := by
  cases line with
  | header name =>
      have hname : '\n' ∉ name.toList := h
      simpa [PrintedLine.text] using hname
  | assignment key value =>
      have hkey := h.2.1
      have hvalue := h.2.2.2.2.2.1
      simp [PrintedLine.text, hkey, hvalue]
  | filler text => exact h.1

/-- Without continuation, the logical lines are the physical ones. -/
theorem logicalLines_eq_self {lines : List String}
    (h : ∀ line ∈ lines, line.toList.getLast? ≠ some '\\') : logicalLines "" lines = lines := by
  induction lines with
  | nil => rfl
  | cons line lines ih =>
      rw [logicalLines_cons, if_neg (h line List.mem_cons_self),
        ih (fun l hl => h l (List.mem_cons_of_mem _ hl))]
      simp

/-- An empty last line adds no logical line but an empty one. -/
theorem logicalLines_concat_empty (acc : String) (lines : List String) :
    logicalLines acc (lines ++ [""]) = logicalLines acc lines ∨
      logicalLines acc (lines ++ [""]) = logicalLines acc lines ++ [""] := by
  induction lines generalizing acc with
  | nil =>
      by_cases hacc : acc = ""
      · right
        simp [logicalLines, hacc]
      · left
        simp [logicalLines, hacc]
  | cons line lines ih =>
      rw [List.cons_append, logicalLines_cons, logicalLines_cons]
      split_ifs with hcont
      · exact ih _
      · rcases ih "" with h | h
        · exact Or.inl (congrArg (List.cons (acc ++ line)) h)
        · exact Or.inr (congrArg (List.cons (acc ++ line)) h)

/-- An empty last line says nothing. -/
theorem assignmentsFrom_concat_empty (lines : List String) (cur : String) :
    assignmentsFrom cur (lines ++ [""]) = assignmentsFrom cur lines := by
  induction lines generalizing cur with
  | nil =>
      have hempty : classify "" = .ignored := classify_blank (by simp [BlankLine])
      rw [List.nil_append, assignmentsFrom_cons, hempty]
  | cons line lines ih =>
      rw [List.cons_append, assignmentsFrom_cons, assignmentsFrom_cons]
      cases classify line with
      | ignored => exact ih cur
      | header name => exact ih name
      | assignment key value => exact congrArg _ (ih cur)

/-- A newline at the end of a file changes nothing. -/
theorem assignments_concat_newline (text : List Char) :
    assignments (some (String.ofList (text ++ ['\n']))) =
      assignments (some (String.ofList text)) := by
  unfold assignments fileLines
  simp only [String.toList_ofList]
  rcases getlines_concat_newline text with h | h
  · rw [h]
  · rw [h, List.map_append]
    rcases logicalLines_concat_empty "" ((getlines text).map String.ofList) with hlines | hlines
    · exact congrArg (assignmentsFrom "") hlines
    · exact (congrArg (assignmentsFrom "") hlines).trans (assignmentsFrom_concat_empty _ "")

theorem assignments_printed {doc : List PrintedLine} (h : ∀ line ∈ doc, line.Readable)
    (newlineAtEnd : Bool) :
    assignments (some (printed doc newlineAtEnd)) = documentAssignments "" doc := by
  -- It does not matter whether the last line is terminated.
  have hend : assignments (some (printed doc newlineAtEnd)) =
      assignments (some (printed doc true)) := by
    cases newlineAtEnd with
    | true => rfl
    | false =>
        unfold printed
        simp only [if_true, Bool.false_eq_true, if_false, List.append_nil]
        exact (assignments_concat_newline _).symm
  have hlines : (getlines (printed doc true).toList).map String.ofList = doc.map PrintedLine.text ∨
      doc = [] := by
    by_cases hne : doc = []
    · exact Or.inr hne
    · left
      have htexts : doc.map (fun l => l.text.toList) ≠ [] := by
        simpa using hne
      have hnl : ∀ t ∈ doc.map (fun l => l.text.toList), '\n' ∉ t := by
        intro t ht
        rcases List.mem_map.mp ht with ⟨line, hline, rfl⟩
        exact notMem_text (h line hline)
      unfold printed
      simp only [if_true, String.toList_ofList]
      rw [intercalate_append_newline htexts, getlines_printLines hnl, List.map_map]
      simp
  rw [hend]
  rcases hlines with hlines | rfl
  · unfold assignments fileLines
    simp only [hlines]
    rw [logicalLines_eq_self, assignmentsFrom_text h]
    intro line hline
    rcases List.mem_map.mp hline with ⟨l, hl, rfl⟩
    exact getLast?_text (h l hl)
  · rfl

theorem valuesOf_sections (sections : List IniSection) (sec key : String) :
    valuesOf (sections.flatMap (fun s => s.assigned.map (fun a => ⟨s.name, a.1, a.2⟩))) sec key =
      sectionValues sections sec key := by
  unfold valuesOf sectionValues
  induction sections with
  | nil => rfl
  | cons s sections ih =>
      rw [List.flatMap_cons, List.filter_append, List.map_append, ih]
      by_cases hs : s.name = sec
      · simp [hs, List.filter_map, Function.comp_def]
      · simp [hs, List.filter_map, Function.comp_def]

/-! ## The round trip -/

/-- `parse_ini` gives back what was printed: every assigned key of every section has the values it
was given, joined in file order, and nothing else is stored. -/
theorem parseIni_printed (sections : List IniSection) (doc : List PrintedLine)
    (newlineAtEnd : Bool)
    (hdoc : doc.filter PrintedLine.isContent = sections.flatMap IniSection.lines)
    (hread : ∀ line ∈ doc, line.Readable) :
    let parsed := parseIni (some (printed doc newlineAtEnd))
    (∀ sec key, valueAt parsed sec key =
      let values := sectionValues sections sec key
      if values = [] then none else some (values.foldl accumulateValue "")) ∧
    (∀ sec, sec ∈ parsed ↔ ∃ s ∈ sections, s.name = sec ∧ s.assigned ≠ []) := by
  have has : assignments (some (printed doc newlineAtEnd)) =
      sections.flatMap (fun s => s.assigned.map (fun a => ⟨s.name, a.1, a.2⟩)) := by
    rw [assignments_printed hread, ← documentAssignments_filter, hdoc, documentAssignments_sections]
  constructor
  · intro sec key
    rw [valueAt_parseIni, has, valuesOf_sections]
    rfl
  · intro sec
    rw [mem_parseIni, has]
    constructor
    · rintro ⟨a, ha, rfl⟩
      rcases List.mem_flatMap.mp ha with ⟨s, hs, ha⟩
      rcases List.mem_map.mp ha with ⟨p, hp, rfl⟩
      exact ⟨s, hs, rfl, List.ne_nil_of_mem hp⟩
    · rintro ⟨s, hs, rfl, hne⟩
      obtain ⟨p, hp⟩ := List.exists_mem_of_ne_nil _ hne
      exact ⟨_, List.mem_flatMap.mpr ⟨s, hs, List.mem_map.mpr ⟨p, hp, rfl⟩⟩, rfl⟩

/-- A section opened twice, a value with `=`, `[` and `#`, a blank line and an indented comment. -/
theorem parseIni_printed_sample :
    let sections : List IniSection :=
      [⟨"Unit", [("After", "a.target")]⟩, ⟨"Service", [("ExecStart", "/bin/x [a=#b]"), ("User", "")]⟩,
        ⟨"Unit", [("After", "b.target")]⟩]
    let doc : List PrintedLine :=
      [.filler "  # first", .header "Unit", .assignment "After" "a.target", .filler "\t",
        .header "Service", .assignment "ExecStart" "/bin/x [a=#b]", .assignment "User" "",
        .header "Unit", .assignment "After" "b.target"]
    let parsed := parseIni (some (printed doc false))
    (∀ sec key, valueAt parsed sec key =
      let values := sectionValues sections sec key
      if values = [] then none else some (values.foldl accumulateValue "")) ∧
    (∀ sec, sec ∈ parsed ↔ ∃ s ∈ sections, s.name = sec ∧ s.assigned ≠ []) := by
  refine parseIni_printed _ _ false rfl ?_
  have hcomment : (PrintedLine.filler "  # first").Readable := by
    refine ⟨by decide, Or.inr ⟨⟨"  ".toList, '#', " first".toList, ?_, ?_, Or.inl rfl⟩, ?_⟩⟩
    · decide
    · exact List.all_eq_true.mp (by decide)
    · decide
  have hblank : (PrintedLine.filler "\t").Readable :=
    ⟨by decide, Or.inl (List.all_eq_true.mp (by decide))⟩
  simp only [List.forall_mem_cons]
  refine ⟨hcomment, ?_, ?_, hblank, ?_, ?_, ?_, ?_, ?_, by simp⟩
  all_goals simp [PrintedLine.Readable, Trimmed, isTrimmed]

end TrivialInit
