import TrivialInit.Properties.CommandLines

/-!
# WrittenCommands — command lines with every argument in quotes

An argument can be written as texts in double or single quotes, one behind the other.  `split_exec`
takes the quotes off again and keeps everything in them.  What it does not keep is an argument with
nothing in its quotes: a word is passed on only if it has a character.
-/

namespace TrivialInit

open QuotedWords (Joined Spells)

/-! ## Writing arguments -/

/-- A text in double quotes or in single quotes, without the quote in it. -/
structure QuotedRun where
  quote : Char
  text : List Char
  isQuote : quote = '"' ∨ quote = '\''
  closed : quote ∉ text

def QuotedRun.written (run : QuotedRun) : List Char :=
  run.quote :: (run.text ++ [run.quote])

/-- An argument in writing; an empty one is still an empty text in quotes. -/
structure WrittenArg where
  runs : List QuotedRun
  nonempty : runs ≠ []

namespace WrittenArg

def written (arg : WrittenArg) : List Char :=
  arg.runs.flatMap QuotedRun.written

def spelled (arg : WrittenArg) : List Char :=
  arg.runs.flatMap QuotedRun.text

def argument (arg : WrittenArg) : String :=
  String.ofList arg.spelled

end WrittenArg

/-- Arguments in writing, joined with spaces and tabs. -/
structure WrittenCommand where
  args : List WrittenArg
  text : String
  joined : Joined isBlank (args.map WrittenArg.written) text.toList

namespace WrittenCommand

def arguments (cmd : WrittenCommand) : List String :=
  cmd.args.map WrittenArg.argument

/-- Joined with one space. -/
def ofArgs (args : List WrittenArg) : WrittenCommand where
  args := args
  text := String.ofList ([' '].intercalate (args.map WrittenArg.written))
  joined := by
    rw [String.toList_ofList]
    exact Joined.intercalate rfl _

end WrittenCommand

/-! ## Taking the quotes off -/

theorem quoteOf_of_isBlank {c : Char} (h : isBlank c = true) : quoteOf c = none := by
  simp only [isBlank, Bool.or_eq_true, decide_eq_true_eq] at h
  rcases h with rfl | rfl <;> rfl

theorem QuotedRun.spells (run : QuotedRun) : Spells isBlank quoteOf run.written run.text := by
  have hmark : quoteOf run.quote = some run.quote := if_pos run.isQuote
  have htext : ∀ c ∈ run.text, quoteOf c ≠ some run.quote := by
    intro c hc hquote
    obtain rfl := (quoteOf_eq_some_iff.mp hquote).2
    exact run.closed hc
  exact Spells.quoted hmark htext

theorem WrittenArg.spells (arg : WrittenArg) :
    Spells isBlank quoteOf arg.written arg.spelled :=
  Spells.flatMap (fun run _ => run.spells)

theorem spells_args (args : List WrittenArg) :
    List.Forall₂ (Spells isBlank quoteOf) (args.map WrittenArg.written)
      (args.map WrittenArg.spelled) := by
  induction args with
  | nil => exact List.Forall₂.nil
  | cons arg args ih => exact List.Forall₂.cons arg.spells ih

theorem filter_map_ofList (words : List (List Char)) :
    (words.map String.ofList).filter (fun arg => arg ≠ "") =
      (words.filter (fun word => !word.isEmpty)).map String.ofList := by
  have hempty : (fun arg => decide (arg ≠ "")) ∘ String.ofList = fun word => !word.isEmpty := by
    funext word
    cases word <;> simp
  rw [List.filter_map, hempty]

/-- `split_exec` finds the arguments that are not empty. -/
theorem splitExec_written (cmd : WrittenCommand) :
    splitExec cmd.text = cmd.arguments.filter (fun arg => arg ≠ "") := by
  have hsplit := QuotedWords.split_joined (fun _ => quoteOf_of_isBlank) cmd.joined
    (spells_args cmd.args)
  calc
    splitExec cmd.text
        = (QuotedWords.split isBlank quoteOf cmd.text.toList none []).map String.ofList :=
          splitExec_eq_split _
    _ = ((cmd.args.map WrittenArg.spelled).filter (fun word => !word.isEmpty)).map
          String.ofList := by rw [hsplit]
    _ = ((cmd.args.map WrittenArg.spelled).map String.ofList).filter (fun arg => arg ≠ "") :=
          (filter_map_ofList _).symm
    _ = cmd.arguments.filter (fun arg => arg ≠ "") := by
          rw [List.map_map]
          rfl

/-- Quoting is undone exactly when no argument is empty. -/
theorem splitExec_undoes_quoting_iff (cmd : WrittenCommand) :
    splitExec cmd.text = cmd.arguments ↔ ∀ arg ∈ cmd.arguments, arg ≠ "" := by
  rw [splitExec_written, List.filter_eq_self]
  simp only [decide_eq_true_eq]

/-- `"/bin/echo" ""` -/
def echoEmpty : WrittenCommand :=
  WrittenCommand.ofArgs
    [⟨[⟨'"', "/bin/echo".toList, Or.inl rfl, by decide⟩], by simp⟩,
      ⟨[⟨'"', [], Or.inl rfl, by simp⟩], by simp⟩]

theorem splitExec_drops_empty_argument :
    echoEmpty.text = "\"/bin/echo\" \"\"" ∧ echoEmpty.arguments = ["/bin/echo", ""] ∧
      splitExec echoEmpty.text = ["/bin/echo"] := by
  refine ⟨?_, ?_, ?_⟩ <;> decide

/-! ## Every list of arguments can be written -/

namespace WrittenArg

/-- One character in quotes. -/
def quoteChar (c : Char) : QuotedRun :=
  if h : c = '"' then ⟨'\'', [c], Or.inr rfl, by simp [h]⟩
  else ⟨'"', [c], Or.inl rfl, by simpa using Ne.symm h⟩

@[simp] theorem text_quoteChar (c : Char) : (quoteChar c).text = [c] := by
  unfold quoteChar
  split_ifs <;> rfl

/-- The argument behind an empty run, character by character. -/
def ofString (arg : String) : WrittenArg where
  runs := ⟨'"', [], Or.inl rfl, by simp⟩ :: arg.toList.map quoteChar
  nonempty := by simp

theorem argument_ofString (arg : String) : (ofString arg).argument = arg := by
  have hspelled : (ofString arg).spelled = arg.toList := by
    simp [ofString, spelled, List.flatMap_map]
  rw [argument, hspelled, String.ofList_toList]

end WrittenArg

namespace WrittenCommand

theorem exists_arguments_eq (args : List String) : ∃ cmd : WrittenCommand, cmd.arguments = args := by
  refine ⟨ofArgs (args.map WrittenArg.ofString), ?_⟩
  have hid : WrittenArg.argument ∘ WrittenArg.ofString = id := by
    funext arg
    exact WrittenArg.argument_ofString arg
  change (args.map WrittenArg.ofString).map WrittenArg.argument = args
  rw [List.map_map, hid, List.map_id]

end WrittenCommand

/-- Command lines can pass on exactly the lists of arguments without an empty one. -/
theorem exists_splitExec_eq_iff (args : List String) :
    (∃ text, splitExec text = args) ↔ ∀ arg ∈ args, arg ≠ "" := by
  constructor
  · rintro ⟨text, rfl⟩ arg harg
    rw [splitExec_eq_split] at harg
    obtain ⟨word, hword, rfl⟩ := List.mem_map.mp harg
    have hne := QuotedWords.ne_nil_of_mem_split _ _ _ hword
    simpa using hne
  · intro hargs
    obtain ⟨cmd, rfl⟩ := WrittenCommand.exists_arguments_eq args
    have hkeep : cmd.arguments.filter (fun arg => arg ≠ "") = cmd.arguments := by
      rw [List.filter_eq_self]
      simpa using hargs
    exact ⟨cmd.text, (splitExec_written cmd).trans hkeep⟩

end TrivialInit
