import TrivialInit.Lib.QuotedWords
import TrivialInit.Mixins.UnitParse
import TrivialInit.Properties.Expansion
import TrivialInit.Properties.ForkCalls

/-!
# CommandLines — the command that is run

`start_service` strips one `-`, expands the specifiers, splits the text into words, and expands the
words behind the first once more; `accept_ready` only splits the text.  This module relates what both
pass on to the words of the text that is expanded once.  The argument counts `%` signs: splitting
keeps them, and every expansion to a text without `%` takes one away.
-/

namespace TrivialInit

open QuotedWords (split)

/-! ## Words of a command line -/

/-- The quote a character opens or closes. -/
def quoteOf (c : Char) : Option Char :=
  if c = '"' ∨ c = '\'' then some c else none

theorem quoteOf_eq_some_iff {c k : Char} : quoteOf c = some k ↔ (c = '"' ∨ c = '\'') ∧ c = k := by
  unfold quoteOf
  split_ifs with hc <;> simp [hc]

theorem quoteOf_of_quoteOf_eq_some {c k : Char} (h : quoteOf c = some k) : quoteOf k = some k := by
  obtain ⟨hc, rfl⟩ := quoteOf_eq_some_iff.mp h
  exact h

theorem splitExecLoop_eq_split (l : List Char) (q : Option Char) (word : List Char)
    (hq : ∀ k, q = some k → quoteOf k = some k) :
    splitExecLoop l q word = (split isBlank quoteOf l q word).map String.ofList := by
  induction l generalizing q word with
  | nil => cases word <;> rfl
  | cons c rest ih =>
      have hafter : ∀ k, QuotedWords.openAfter quoteOf c q = some k → quoteOf k = some k := by
        intro k hk
        rcases QuotedWords.openAfter_eq_some hk with h | h
        · exact hq k h
        · exact quoteOf_of_quoteOf_eq_some h
      rw [QuotedWords.split_cons, List.map_append, ← ih _ _ hafter]
      cases q with
      | some k =>
          have hk := hq k rfl
          by_cases hc : c = k
          · subst hc
            simp [splitExecLoop, QuotedWords.Ends, QuotedWords.Plain, QuotedWords.openAfter,
              QuotedWords.wordAfter, hk]
          · have hne : quoteOf c ≠ some k := fun h => hc (quoteOf_eq_some_iff.mp h).2
            simp [splitExecLoop, QuotedWords.Ends, QuotedWords.Plain, QuotedWords.openAfter,
              QuotedWords.wordAfter, hc, hne]
      | none =>
          by_cases hquote : c = '"' ∨ c = '\''
          · have hc : quoteOf c = some c := if_pos hquote
            simp [splitExecLoop, QuotedWords.Ends, QuotedWords.Plain, QuotedWords.openAfter,
              QuotedWords.wordAfter, hquote, hc]
          · have hc : quoteOf c = none := if_neg hquote
            by_cases hblank : c = ' ' ∨ c = '\t'
            · have hb : isBlank c = true := by simpa [isBlank] using hblank
              cases word <;>
                simp [splitExecLoop, QuotedWords.Ends, QuotedWords.Plain, QuotedWords.openAfter,
                  QuotedWords.wordAfter, QuotedWords.close, hquote, hblank, hc, hb]
            · have hb : isBlank c = false := by simpa [isBlank] using hblank
              simp [splitExecLoop, QuotedWords.Ends, QuotedWords.Plain, QuotedWords.openAfter,
                QuotedWords.wordAfter, hquote, hblank, hc, hb]

/-- `split_exec` is the splitter of `QuotedWords`. -/
theorem splitExec_eq_split (s : String) :
    splitExec s = (split isBlank quoteOf s.toList none []).map String.ofList :=
  splitExecLoop_eq_split _ none [] (by simp)

/-! ## Percent signs of the words -/

/-- The number of `c` in all words. -/
def countIn (c : Char) (words : List String) : Nat :=
  (words.flatMap String.toList).count c

@[simp] theorem countIn_nil (c : Char) : countIn c [] = 0 := rfl

@[simp] theorem countIn_cons (c : Char) (w : String) (words : List String) :
    countIn c (w :: words) = w.toList.count c + countIn c words := by
  rw [countIn, List.flatMap_cons, List.count_append, countIn]

/-- Splitting keeps what is neither a blank nor a quote. -/
theorem countIn_splitExec {c : Char} (hquote : quoteOf c = none) (hblank : isBlank c = false)
    (s : String) : countIn c (splitExec s) = s.toList.count c := by
  have hplain : ∀ d, (d == c) = true → quoteOf d = none ∧ isBlank d = false := by
    intro d hd
    obtain rfl : d = c := by simpa using hd
    exact ⟨hquote, hblank⟩
  have hkeep := QuotedWords.countP_flatten_split hplain s.toList none []
  rw [splitExec_eq_split, countIn, List.flatMap_map]
  simpa [List.flatMap_def, List.count] using hkeep

/-! ## The commands that are passed on -/

/-- `for (auto& a : args) a = spec_resolver_.resolve(a, ctx);` -/
def resolveArgs (info : SystemInfo) (ctx : SpecifierContext) : List String → List String
  | [] => []
  | execPath :: args => execPath :: args.map (resolve info ctx)

theorem commandWords_eq (info : SystemInfo) (ctx : SpecifierContext) (cmd : String) :
    commandWords info ctx cmd =
      headArgs (resolveArgs info ctx (splitExec (resolve info ctx cmd))) := by
  unfold commandWords
  cases splitExec (resolve info ctx cmd) <;> rfl

/-! ## Expanding the arguments once more -/

theorem resolveArgs_eq_iff (info : SystemInfo) (ctx : SpecifierContext) (words : List String) :
    resolveArgs info ctx words = words ↔ ∀ arg ∈ words.tail, resolve info ctx arg = arg := by
  cases words with
  | nil => simp [resolveArgs]
  | cons execPath args =>
      simpa [resolveArgs] using
        List.map_inj_left (l := args) (f := resolve info ctx) (g := id)

theorem count_percent_resolve {info : SystemInfo} {ctx : SpecifierContext}
    (h : PercentFree info ctx) (text : String) :
    (resolve info ctx text).toList.count '%' + (specifiersIn text.toList).length =
      text.toList.count '%' := by
  rw [toList_resolve, count_percent_resolveChars h]

/-- The specifiers in the words behind the first. -/
def argSpecifiers (words : List String) : List Char :=
  words.tail.flatMap (fun arg => specifiersIn arg.toList)

theorem countIn_resolveArgs {info : SystemInfo} {ctx : SpecifierContext}
    (h : PercentFree info ctx) (words : List String) :
    countIn '%' (resolveArgs info ctx words) + (argSpecifiers words).length =
      countIn '%' words := by
  cases words with
  | nil => rfl
  | cons execPath args =>
      have hargs : countIn '%' (args.map (resolve info ctx)) +
          (args.flatMap (fun arg => specifiersIn arg.toList)).length = countIn '%' args := by
        induction args with
        | nil => rfl
        | cons arg args ih =>
            have harg := count_percent_resolve h arg
            simp only [List.map_cons, countIn_cons, List.flatMap_cons, List.length_append]
            omega
      simp only [resolveArgs, countIn_cons, argSpecifiers, List.tail_cons]
      omega

theorem argSpecifiers_eq_nil_iff {words : List String} :
    argSpecifiers words = [] ↔ ∀ arg ∈ words.tail, specifiersIn arg.toList = [] :=
  List.flatMap_eq_nil_iff

theorem resolveArgs_of_argSpecifiers_eq_nil (info : SystemInfo) (ctx : SpecifierContext)
    {words : List String} (h : argSpecifiers words = []) : resolveArgs info ctx words = words := by
  rw [resolveArgs_eq_iff]
  intro arg harg
  exact resolve_of_specifiersIn_eq_nil (argSpecifiers_eq_nil_iff.mp h arg harg)

/-- Without `%` in the values, the second expansion changes nothing exactly if it finds nothing. -/
theorem resolveArgs_eq_iff_of_percentFree {info : SystemInfo} {ctx : SpecifierContext}
    (h : PercentFree info ctx) (words : List String) :
    resolveArgs info ctx words = words ↔ ∀ arg ∈ words.tail, specifiersIn arg.toList = [] := by
  rw [← argSpecifiers_eq_nil_iff]
  constructor
  · intro heq
    have hcount := countIn_resolveArgs h words
    rw [heq] at hcount
    exact List.eq_nil_of_length_eq_zero (by omega)
  · exact resolveArgs_of_argSpecifiers_eq_nil info ctx

/-! ## `start_service` and the words of the text -/

namespace InitSystem

theorem startedCommand_eq_some {name : String} {unit : UnitFile} {os : StartAnswers}
    {words : String × List String} (h : startedCommand name unit os = some words) :
    let ctx := SpecifierContext.ofUnit name unit.path
    words.1 :: words.2 =
      resolveArgs os.info ctx (splitExec (resolve os.info ctx (stripDash unit.execStart).2)) := by
  intro ctx
  unfold startedCommand at h
  cases hpre : startPreCode os.info ctx unit.execStartPre os.pre with
  | some code => simp [ctx, hpre] at h
  | none =>
      simp only [ctx, hpre] at h
      split_ifs at h
      rw [commandWords_eq] at h
      exact (headArgs_inj (w := words.1 :: words.2)).mp h.symm

/-- What `start_service` has passed on is made of the words of the expanded text. -/
theorem words_of_mem_passedCommands {s s' : InitSystem} {name : String} {unit : UnitFile}
    {os : StartAnswers} {pid : Option Pid} (hstart : s.startService name unit os = some (pid, s'))
    {words : String × List String} (hpassed : words ∈ passedCommands s s') :
    let ctx := SpecifierContext.ofUnit name unit.path
    words.1 :: words.2 =
      resolveArgs os.info ctx (splitExec (resolve os.info ctx (stripDash unit.execStart).2)) := by
  rw [passedCommands_startService hstart, Option.mem_toList] at hpassed
  exact startedCommand_eq_some hpassed

/-- What `start_service` passes on are the words of the text expanded once, if no word behind the
first has a specifier in it; and only then, unless a value that is expanded has a `%` in it. -/
theorem startService_words_iff {s s' : InitSystem} {name : String} {unit : UnitFile}
    {os : StartAnswers} {pid : Option Pid} (hstart : s.startService name unit os = some (pid, s'))
    {execPath : String} {args : List String} (hpassed : (execPath, args) ∈ passedCommands s s') :
    let ctx := SpecifierContext.ofUnit name unit.path
    let words := splitExec (resolve os.info ctx (stripDash unit.execStart).2)
    ((∀ arg ∈ words.tail, specifiersIn arg.toList = []) → execPath :: args = words) ∧
      (PercentFree os.info ctx →
        (execPath :: args = words ↔ ∀ arg ∈ words.tail, specifiersIn arg.toList = [])) := by
  intro ctx words
  have hwords : execPath :: args = resolveArgs os.info ctx words :=
    words_of_mem_passedCommands hstart hpassed
  rw [hwords]
  exact ⟨fun h => resolveArgs_of_argSpecifiers_eq_nil _ _ (argSpecifiers_eq_nil_iff.mpr h),
    fun hfree => resolveArgs_eq_iff_of_percentFree hfree _⟩

theorem startService_words_iff_sample :
    let unit : UnitFile := { path := "/etc/a@x.service", execStart := "-/bin/echo %i '100 %%'" }
    let os : StartAnswers := { forked := .error "" }
    let ctx := SpecifierContext.ofUnit "a@x.service" unit.path
    let words := splitExec (resolve os.info ctx (stripDash unit.execStart).2)
    words = ["/bin/echo", "x", "100 %"] ∧
      ((∀ arg ∈ words.tail, specifiersIn arg.toList = []) →
        ["/bin/echo", "x", "100 %"] = words) ∧
      (PercentFree os.info ctx →
        (["/bin/echo", "x", "100 %"] = words ↔
          ∀ arg ∈ words.tail, specifiersIn arg.toList = [])) := by
  intro unit os ctx words
  obtain ⟨⟨pid, s'⟩, hstart⟩ := Option.isSome_iff_exists.mp
    (by decide +kernel : (startService {} "a@x.service" unit os).isSome = true)
  refine ⟨by decide +kernel, startService_words_iff hstart ?_⟩
  rw [passedCommands_startService hstart]
  decide +kernel

/-- The literal percent sign of `%%n` is expanded with the letter behind it. -/
theorem startService_expands_twice :
    ¬ ∀ (s s' : InitSystem) (name : String) (unit : UnitFile) (os : StartAnswers)
        (pid : Option Pid) (execPath : String) (args : List String),
      s.startService name unit os = some (pid, s') → (execPath, args) ∈ passedCommands s s' →
      execPath :: args = splitExec
        (resolve os.info (SpecifierContext.ofUnit name unit.path) (stripDash unit.execStart).2) := by
  intro h
  let unit : UnitFile := { path := "/etc/a.service", execStart := "/bin/echo %%n" }
  obtain ⟨⟨pid, s'⟩, hstart⟩ := Option.isSome_iff_exists.mp
    (by decide +kernel :
      (startService {} "a.service" unit { forked := .error "" }).isSome = true)
  have hpassed : ("/bin/echo", ["a.service"]) ∈ passedCommands {} s' := by
    rw [passedCommands_startService hstart]
    decide +kernel
  have hwords := h {} s' "a.service" unit _ pid _ _ hstart hpassed
  revert hwords
  decide +kernel

end InitSystem

/-! ## `start_service` and `accept_ready` -/

/-- A command without a leading `-`, without specifiers in the text, and without specifiers that
come about when the quotes are dropped. -/
def PlainCommand (text : String) : Prop :=
  text.toList.head? ≠ some '-' ∧ specifiersIn text.toList = [] ∧
    ∀ arg ∈ (splitExec text).tail, specifiersIn arg.toList = []

theorem stripDash_cases (text : String) :
    (text.toList.head? = some '-' ∧ text.toList = '-' :: (stripDash text).2.toList) ∨
      (text.toList.head? ≠ some '-' ∧ (stripDash text).2 = text) := by
  unfold stripDash
  by_cases hdash : text.toList.head? = some '-'
  · refine Or.inl ⟨hdash, ?_⟩
    rw [if_pos hdash]
    cases hlist : text.toList with
    | nil => simp [hlist] at hdash
    | cons c rest =>
        obtain rfl : c = '-' := by simpa [hlist] using hdash
        simp [dropStr, hlist]
  · exact Or.inr ⟨hdash, by rw [if_neg hdash]⟩

theorem words_eq_of_plain (info : SystemInfo) (ctx : SpecifierContext) {text : String}
    (h : PlainCommand text) :
    splitExec text =
      resolveArgs info ctx (splitExec (resolve info ctx (stripDash text).2)) := by
  rcases stripDash_cases text with ⟨hdash, -⟩ | ⟨-, hcmd⟩
  · exact absurd hdash h.1
  · rw [hcmd, resolve_of_specifiersIn_eq_nil h.2.1,
      resolveArgs_of_argSpecifiers_eq_nil info ctx (argSpecifiers_eq_nil_iff.mpr h.2.2)]

theorem plain_of_words_eq {info : SystemInfo} {ctx : SpecifierContext}
    (hfree : PercentFree info ctx) {text : String}
    (h : splitExec text =
      resolveArgs info ctx (splitExec (resolve info ctx (stripDash text).2))) :
    PlainCommand text := by
  have hpercents := countIn_splitExec (c := '%') (by decide) (by decide)
  have hdashes := countIn_splitExec (c := '-') (by decide) (by decide)
  have hcmdcount : (stripDash text).2.toList.count '%' = text.toList.count '%' := by
    rcases stripDash_cases text with ⟨-, hlist⟩ | ⟨-, hcmd⟩
    · rw [hlist, List.count_cons_of_ne (by decide)]
    · rw [hcmd]
  -- Both lists of words have all the `%` signs of the text.
  have htotal := congrArg (countIn '%') h
  have hargs := countIn_resolveArgs hfree (splitExec (resolve info ctx (stripDash text).2))
  have htext := count_percent_resolve hfree (stripDash text).2
  rw [hpercents] at htotal hargs
  have hspecs : specifiersIn (stripDash text).2.toList = [] := by
    apply List.eq_nil_of_length_eq_zero
    omega
  have hargspecs : argSpecifiers (splitExec (resolve info ctx (stripDash text).2)) = [] := by
    apply List.eq_nil_of_length_eq_zero
    omega
  rw [resolveArgs_of_argSpecifiers_eq_nil info ctx hargspecs,
    resolve_of_specifiersIn_eq_nil hspecs] at h
  rw [resolve_of_specifiersIn_eq_nil hspecs] at hargspecs
  rcases stripDash_cases text with ⟨-, hlist⟩ | ⟨hdash, hcmd⟩
  · -- The words of the text have one `-` more.
    have hcount := congrArg (countIn '-') h
    rw [hdashes, hdashes, hlist, List.count_cons_self] at hcount
    omega
  · rw [hcmd] at hspecs hargspecs
    exact ⟨hdash, hspecs, argSpecifiers_eq_nil_iff.mp hargspecs⟩

theorem toList_eq_toList_iff {α : Type*} {o o' : Option α} : o.toList = o'.toList ↔ o = o' := by
  cases o <;> cases o' <;> simp

namespace InitSystem

/-- Both ways of starting a service run the same command if its text is plain; and only then, unless
a value that is expanded has a `%` in it. -/
theorem passedCommands_eq_iff {s : InitSystem} {listenFd : Int} {socket : String}
    (hsocket : s.fdToSocket.lookup listenFd = some socket)
    (hroom : hasCapacity (s.socketUnit socket)) {accepted : AcceptAnswers}
    (hconn : accepted.conn.isSome = true) {name : String} {unit : UnitFile}
    (hpair : s.resolvePair (s.socketUnit socket) = name) (hunit : s.findUnit name = some unit)
    (hexec : unit.execStart ≠ "") {t t' : InitSystem} {os : StartAnswers} {pid : Option Pid}
    (hstart : t.startService name unit os = some (pid, t'))
    (hpre : (runStartPre os.info name unit unit.execStartPre os.pre t).1 = none) :
    (PlainCommand unit.execStart →
      passedCommands s (s.acceptReady listenFd accepted).2 = passedCommands t t') ∧
    (PercentFree os.info (SpecifierContext.ofUnit name unit.path) →
      (passedCommands s (s.acceptReady listenFd accepted).2 = passedCommands t t' ↔
        PlainCommand unit.execStart)) := by
  obtain ⟨conn, hconn⟩ := Option.isSome_iff_exists.mp hconn
  rw [runStartPre_eq] at hpre
  dsimp only at hpre
  rw [passedCommands_acceptReady hsocket hroom hconn, passedCommands_startService hstart]
  -- Each passes on one command at most, and the same one exactly if the words agree.
  have hsame : (s.acceptedCommand (s.socketUnit socket)).toList =
        (startedCommand name unit os).toList ↔
      splitExec unit.execStart = resolveArgs os.info (SpecifierContext.ofUnit name unit.path)
        (splitExec (resolve os.info (SpecifierContext.ofUnit name unit.path)
          (stripDash unit.execStart).2)) := by
    rw [toList_eq_toList_iff, acceptedCommand, hpair, startedCommand, ← headArgs_inj,
      ← commandWords_eq]
    simp only [hunit, hpre, hexec, if_false]
  rw [hsame]
  exact ⟨words_eq_of_plain _ _, fun hfree => ⟨plain_of_words_eq hfree, words_eq_of_plain _ _⟩⟩

/-- A socket unit with a connection to accept, and its service. -/
def acceptingWeb (execStart : String) : InitSystem :=
  let unit : UnitFile := { name := "web.service", execStart := execStart }
  let sock : SocketUnit := { name := "web.socket", accept := true }
  { units := (∅ : UnorderedMap String UnitFile).insert "web.service" unit
    socketUnits := (∅ : UnorderedMap String SocketUnit).insert "web.socket" sock
    fdToSocket := (∅ : UnorderedMap Int String).insert 3 "web.socket" }

theorem passedCommands_eq_iff_sample :
    let s := acceptingWeb "/bin/webd --title 'a b'"
    let accepted : AcceptAnswers := { conn := some (4, 1), forked := .error "" }
    ∃ t', passedCommands s (s.acceptReady 3 accepted).2 = passedCommands s t' ∧
      passedCommands s t' = [("/bin/webd", ["--title", "a b"])] := by
  intro s accepted
  let unit : UnitFile := { name := "web.service", execStart := "/bin/webd --title 'a b'" }
  obtain ⟨⟨pid, t'⟩, hstart⟩ := Option.isSome_iff_exists.mp
    (by decide +kernel :
      (s.startService "web.service" unit { forked := .error "" }).isSome = true)
  refine ⟨t', (passedCommands_eq_iff rfl (by decide +kernel) rfl (by decide +kernel) rfl
    (by decide) hstart rfl).1 ⟨by decide, by decide, by decide⟩, ?_⟩
  rw [passedCommands_startService hstart]
  decide +kernel

/-- With a leading `-`, `accept_ready` takes the `-` for a part of the path. -/
theorem passedCommands_acceptReady_ne :
    ¬ ∀ (s : InitSystem) (listenFd : Int) (socket : String) (accepted : AcceptAnswers)
        (name : String) (unit : UnitFile) (t t' : InitSystem) (os : StartAnswers)
        (pid : Option Pid),
      s.fdToSocket.lookup listenFd = some socket → hasCapacity (s.socketUnit socket) →
      accepted.conn.isSome = true → s.resolvePair (s.socketUnit socket) = name →
      s.findUnit name = some unit → unit.execStart ≠ "" →
      t.startService name unit os = some (pid, t') →
      (runStartPre os.info name unit unit.execStartPre os.pre t).1 = none →
      passedCommands s (s.acceptReady listenFd accepted).2 = passedCommands t t' := by
  intro h
  let s := acceptingWeb "-/bin/webd %n"
  let unit : UnitFile := { name := "web.service", execStart := "-/bin/webd %n" }
  obtain ⟨⟨pid, t'⟩, hstart⟩ := Option.isSome_iff_exists.mp
    (by decide +kernel :
      (s.startService "web.service" unit { forked := .error "" }).isSome = true)
  have hsame := h s 3 "web.socket" { conn := some (4, 1), forked := .error "" } "web.service" unit
    s t' _ pid rfl (by decide +kernel) rfl (by decide +kernel) rfl (by decide) hstart rfl
  rw [passedCommands_startService hstart] at hsame
  revert hsame
  decide +kernel

end InitSystem

end TrivialInit
