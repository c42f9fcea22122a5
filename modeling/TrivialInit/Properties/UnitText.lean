import TrivialInit.Lib.Words
import TrivialInit.Mixins.UnitParse

/-!
# UnitText — what a unit file says

`parse_ini` reads physical lines, joins continued ones, classifies each logical line and collects
the values of every key in nested maps.  This module describes its result without the maps:

* `logicalLines` : the lines after continuation;
* `classify`     : a line is ignored, a section header or an assignment;
* `assignments`  : the assignments of a file, in file order, each with its section.

`lookup_parseIni` and `mem_parseIni` say that the maps hold exactly the assignments, the values of
one key joined in file order.  The results about unit files build on these two.
-/

namespace TrivialInit

/-! ## Logical lines -/

/-- Join every line that ends in a backslash with the next one; `acc` is the text carried over. -/
def logicalLines (acc : String) : List String → List String
  | [] => if acc = "" then [] else [acc]
  | line :: rest =>
      if line.toList.getLast? = some '\\' then
        logicalLines (acc ++ takeStr line (line.length - 1)) rest
      else (acc ++ line) :: logicalLines "" rest

theorem logicalLines_cons (acc line : String) (rest : List String) :
    logicalLines acc (line :: rest) =
      if line.toList.getLast? = some '\\' then
        logicalLines (acc ++ takeStr line (line.length - 1)) rest
      else (acc ++ line) :: logicalLines "" rest := rfl

/-- The logical lines of a file. -/
def fileLines (file : Option String) : List String :=
  match file with
  | none => []
  | some text => logicalLines "" ((getlines text.toList).map String.ofList)

/-! ## Classification -/

/-- What `process_line` takes a line for. -/
inductive IniLine
  | ignored
  | header (name : String)
  | assignment (key value : String)
  deriving DecidableEq, Repr

def classify (raw : String) : IniLine :=
  let trimmed := trim raw
  let front := trimmed.toList.head?
  if trimmed = "" ∨ front = some '#' ∨ front = some ';' then .ignored
  else if front = some '[' ∧ trimmed.toList.getLast? = some ']' then
    .header (takeStr (dropStr trimmed 1) (trimmed.length - 2))
  else
    match findChar trimmed '=' with
    | none => .ignored
    | some eq => .assignment (trim (takeStr trimmed eq)) (trim (dropStr trimmed (eq + 1)))

namespace IniState

/-- The effect of a classified line on the parser. -/
def apply (st : IniState) : IniLine → IniState
  | .ignored => st
  | .header name => { st with currentSection := name }
  | .assignment key val => st.assign key val

theorem processLine_eq (st : IniState) (raw : String) :
    st.processLine raw = st.apply (classify raw) := by
  simp only [processLine, classify]
  split
  · rfl
  · split
    · rfl
    · cases findChar (trim raw) '=' <;> rfl

@[simp] theorem accumulated_processLine (st : IniState) (raw : String) :
    (st.processLine raw).accumulated = st.accumulated := by
  rw [processLine_eq]
  cases classify raw <;> rfl

/-- `process_line` does not look at the text carried over. -/
theorem processLine_withAccumulated (st : IniState) (raw acc : String) :
    ({ st with accumulated := acc } : IniState).processLine raw =
      { st.processLine raw with accumulated := acc } := by
  rw [processLine_eq, processLine_eq]
  cases classify raw <;> rfl

theorem foldl_processLine_withAccumulated (lines : List String) (st : IniState) (acc : String) :
    lines.foldl processLine { st with accumulated := acc } =
      { lines.foldl processLine st with accumulated := acc } := by
  induction lines generalizing st with
  | nil => rfl
  | cons line lines ih =>
      rw [List.foldl_cons, processLine_withAccumulated, ih, List.foldl_cons]

/-- What `parse_ini` returns after its loop. -/
def finish (st : IniState) : Sections :=
  (if st.accumulated ≠ "" then st.processLine st.accumulated else st).sections

/-- Reading physical lines with a carry is processing the logical lines. -/
theorem finish_foldl_readLine (lines : List String) (st : IniState) :
    (lines.foldl readLine st).finish =
      ((logicalLines st.accumulated lines).foldl processLine st).sections := by
  induction lines generalizing st with
  | nil =>
      by_cases hacc : st.accumulated = "" <;> simp [finish, logicalLines, hacc]
  | cons line lines ih =>
      rw [List.foldl_cons, ih, logicalLines_cons]
      unfold readLine
      by_cases hcont : line.toList.getLast? = some '\\'
      · simp only [hcont, if_true]
        rw [foldl_processLine_withAccumulated]
      · by_cases hacc : st.accumulated = ""
        · simp [hcont, hacc]
        · simp only [hcont, hacc, if_false, ne_eq, not_false_eq_true, if_true, List.foldl_cons]
          rw [foldl_processLine_withAccumulated]

end IniState

theorem parseIni_eq_fileLines (file : Option String) :
    parseIni file = ((fileLines file).foldl IniState.processLine {}).sections := by
  cases file with
  | none => rfl
  | some text => exact IniState.finish_foldl_readLine _ {}

/-! ## Assignments -/

/-- One assignment of a unit file, with the section it stands in. -/
structure Assignment where
  sec : String
  key : String
  value : String
  deriving DecidableEq, Repr

/-- The assignments of the logical lines, when the section `cur` is open. -/
def assignmentsFrom (cur : String) : List String → List Assignment
  | [] => []
  | line :: rest =>
      match classify line with
      | .ignored => assignmentsFrom cur rest
      | .header name => assignmentsFrom name rest
      | .assignment key value => ⟨cur, key, value⟩ :: assignmentsFrom cur rest

theorem assignmentsFrom_cons (cur line : String) (rest : List String) :
    assignmentsFrom cur (line :: rest) =
      match classify line with
      | .ignored => assignmentsFrom cur rest
      | .header name => assignmentsFrom name rest
      | .assignment key value => ⟨cur, key, value⟩ :: assignmentsFrom cur rest := rfl

/-- The assignments of a file, in file order. -/
def assignments (file : Option String) : List Assignment :=
  assignmentsFrom "" (fileLines file)

/-- The values given to one key of one section, in file order. -/
def valuesOf (as : List Assignment) (sec key : String) : List String :=
  (as.filter (fun a => a.sec = sec ∧ a.key = key)).map Assignment.value

/-- The value `parse_ini` stores for the values of one key. -/
def joinValues (values : List String) : String :=
  values.foldl accumulateValue ""

/-- A key without assignment is not stored. -/
def storedValue (values : List String) : Option String :=
  if values = [] then none else some (joinValues values)

/-! ## The maps hold the assignments -/

/-- The value stored for a key of a section. -/
def valueAt (sections : Sections) (sec key : String) : Option String :=
  (sections.lookup sec).bind (fun m => m.lookup key)

@[simp] theorem valueAt_empty (sec key : String) : valueAt ∅ sec key = none := rfl

theorem valueAt_assign (st : IniState) (key val sec' key' : String) :
    valueAt (st.assign key val).sections sec' key' =
      if sec' = st.currentSection ∧ key' = key then
        some (accumulateValue ((valueAt st.sections st.currentSection key).getD "") val)
      else valueAt st.sections sec' key' := by
  unfold valueAt IniState.assign
  simp only [UnorderedMap.lookup_modify, UnorderedMap.lookup_subscript]
  by_cases hs : sec' = st.currentSection
  · subst hs
    simp only [if_true, true_and, Option.map_some, Option.bind_some, UnorderedMap.lookup_modify,
      UnorderedMap.lookup_subscript]
    -- The section existed before, or it is created empty.
    cases hsec : st.sections.lookup st.currentSection with
    | none => by_cases hk : key' = key <;> simp [hk, default]
    | some m => by_cases hk : key' = key <;> simp [hk, default]
  · simp [hs]

theorem mem_assign (st : IniState) (key val sec' : String) :
    sec' ∈ (st.assign key val).sections ↔ sec' = st.currentSection ∨ sec' ∈ st.sections := by
  simp [IniState.assign]

/-- Assigning `values` to one key, one after the other. -/
def storeAll (old : Option String) (values : List String) : Option String :=
  values.foldl (fun e v => some (accumulateValue (e.getD "") v)) old

theorem storeAll_none (values : List String) : storeAll none values = storedValue values := by
  have hsome : ∀ (values : List String) (e : String),
      storeAll (some e) values = some (values.foldl accumulateValue e) := by
    intro values
    induction values with
    | nil => intro e; rfl
    | cons v values ih => intro e; exact ih (accumulateValue e v)
  cases values with
  | nil => rfl
  | cons v values => exact hsome values (accumulateValue "" v)

theorem valueAt_foldl_processLine (lines : List String) (st : IniState) (sec key : String) :
    valueAt (lines.foldl IniState.processLine st).sections sec key =
      storeAll (valueAt st.sections sec key)
        (valuesOf (assignmentsFrom st.currentSection lines) sec key) := by
  induction lines generalizing st with
  | nil => rfl
  | cons line lines ih =>
      rw [List.foldl_cons, ih, IniState.processLine_eq, assignmentsFrom_cons]
      cases classify line with
      | ignored => rfl
      | header name => rfl
      | assignment k v =>
          have hcur : (st.assign k v).currentSection = st.currentSection := rfl
          simp only [IniState.apply, valueAt_assign, hcur]
          by_cases h : sec = st.currentSection ∧ key = k
          · obtain ⟨rfl, rfl⟩ := h
            simp [valuesOf, storeAll]
          · have h' : ¬ (st.currentSection = sec ∧ k = key) := fun ⟨h1, h2⟩ => h ⟨h1.symm, h2.symm⟩
            simp [valuesOf, h, h']

theorem mem_foldl_processLine (lines : List String) (st : IniState) (sec : String) :
    sec ∈ (lines.foldl IniState.processLine st).sections ↔
      sec ∈ st.sections ∨ ∃ a ∈ assignmentsFrom st.currentSection lines, a.sec = sec := by
  induction lines generalizing st with
  | nil => simp [assignmentsFrom]
  | cons line lines ih =>
      rw [List.foldl_cons, ih, IniState.processLine_eq, assignmentsFrom_cons]
      cases classify line with
      | ignored => rfl
      | header name => rfl
      | assignment k v =>
          have hcur : (st.assign k v).currentSection = st.currentSection := rfl
          simp only [IniState.apply, mem_assign, hcur, List.exists_mem_cons_iff]
          rw [eq_comm (a := sec)]
          tauto

/-- The value stored for a key is the join of the values assigned to it. -/
theorem valueAt_parseIni (file : Option String) (sec key : String) :
    valueAt (parseIni file) sec key = storedValue (valuesOf (assignments file) sec key) := by
  rw [parseIni_eq_fileLines, valueAt_foldl_processLine, ← storeAll_none]
  rfl

/-- A section is stored exactly if something is assigned in it. -/
theorem mem_parseIni (file : Option String) (sec : String) :
    sec ∈ parseIni file ↔ ∃ a ∈ assignments file, a.sec = sec := by
  rw [parseIni_eq_fileLines, mem_foldl_processLine]
  simp [assignments]

end TrivialInit
