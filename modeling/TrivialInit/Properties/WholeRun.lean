import TrivialInit.Properties.MainSteps
import TrivialInit.Properties.ShutdownRequest
import TrivialInit.Properties.StartedPrograms

/-!
# WholeRun — the whole program runs the part that `RunState` describes

Behind its first phases the whole program is, up to the journal, in a state that a run of `RunState`
reaches from the object these phases have left.  The user interface adds log lines to it, and its
end is the only thing it tells the main loop.  So what holds of all runs of `RunState` holds of the
whole program.
-/

namespace TrivialInit

open InitSystem (SameButJournal parsed)

/-! ## The object the first phases leave -/

/-- The units that `execute(UnitParse)` reads from some files. -/
def unitsOf (unitPaths : List String) (files : ParseAnswers) : UnorderedMap String UnitFile :=
  (InitSystem.executeUnitParse {} unitPaths files).units

/-- The paths are those that `execute(UnitDiscovery)` found, and the files were read from them. -/
structure FilesRead (unitPaths : List String) (files : ParseAnswers) (tr : List MainEvent) :
    Prop where
  discovered : ∃ journal os scan, .discoversUnits os ∈ tr ∧
    UnitScan.executeUnitDiscovery { journal := journal } os = some scan ∧
      unitPaths = scan.discoveredPaths
  parsed : .parsesUnits files ∈ tr

theorem FilesRead.concat {unitPaths : List String} {files : ParseAnswers} {tr : List MainEvent}
    (h : FilesRead unitPaths files tr) (e : MainEvent) : FilesRead unitPaths files (tr ++ [e]) := by
  obtain ⟨⟨journal, os, scan, hos, hscan⟩, hparsed⟩ := h
  exact ⟨⟨journal, os, scan, List.mem_append_left _ hos, hscan⟩, List.mem_append_left _ hparsed⟩

/-- What the phases before `execute(UnitExecute)` have been answered. -/
structure Boot where
  journal : Journal
  fds : FdTable
  unitPaths : List String
  files : ParseAnswers
  bind : SocketBindAnswers
  inDegreeOrder : List String

namespace Boot

/-- The object when `execute(UnitExecute)` begins. -/
def object (b : Boot) : InitSystem :=
  (parsed b.journal (unitsOf b.unitPaths b.files) b.fds).boundAndResolved b.bind b.inDegreeOrder

/-- The phases were answered so in the events `tr`. -/
structure ReadFrom (b : Boot) (tr : List MainEvent) : Prop where
  files : FilesRead b.unitPaths b.files tr
  bound : .bindsSockets b.bind ∈ tr
  resolved : .resolvesDependencies b.inDegreeOrder ∈ tr

theorem ReadFrom.concat {b : Boot} {tr : List MainEvent} (h : b.ReadFrom tr) (e : MainEvent) :
    b.ReadFrom (tr ++ [e]) where
  files := h.files.concat e
  bound := List.mem_append_left _ h.bound
  resolved := List.mem_append_left _ h.resolved

end Boot

/-- The loop of `execute(UnitParse)` writes the journal and `units_`, and reads `units_` only. -/
theorem foldl_parseUnit_eq (os : ParseAnswers) (unitPaths : List String) {s s' : InitSystem}
    (h : s'.units = s.units) :
    ∃ journal, unitPaths.foldl (InitSystem.parseUnit os) s' =
      { s' with
        journal := journal
        units := (unitPaths.foldl (InitSystem.parseUnit os) s).units } := by
  -- The two loops run side by side; the units agree before every iteration.
  induction unitPaths generalizing s s' with
  | nil => exact ⟨s'.journal, by rw [List.foldl_nil, List.foldl_nil, ← h]⟩
  | cons path rest ih =>
      have hnext : (InitSystem.parseUnit os s' path).units =
          (InitSystem.parseUnit os s path).units := by
        change s'.units.insert _ _ = s.units.insert _ _
        rw [h]
      obtain ⟨journal, hrest⟩ := ih hnext
      exact ⟨journal, hrest⟩

theorem executeUnitParse_parsed {s : InitSystem} {fds : FdTable}
    (h : SameButJournal { fds := fds } s) (unitPaths : List String) (os : ParseAnswers) :
    ∃ journal, s.executeUnitParse unitPaths os =
      parsed journal (unitsOf unitPaths os) fds := by
  obtain ⟨journal, rfl⟩ := h
  have hunits : (({ fds := fds, journal := journal } : InitSystem).log .info "parser"
      "Parsing unit files").units = (({} : InitSystem).log .info "parser"
      "Parsing unit files").units := rfl
  obtain ⟨journal', hloop⟩ := foldl_parseUnit_eq os unitPaths hunits
  unfold InitSystem.executeUnitParse
  dsimp only
  rw [hloop]
  exact ⟨_, rfl⟩

/-! ## The events of the main program -/

namespace RunEvent

/-- The event, without what the user interface says. -/
def unquit : RunEvent → RunEvent
  | .program a => .program { a with quit := false }
  | e => e

/-- The user interface ends the main loop. -/
def quits : RunEvent → Bool
  | .program a => a.quit
  | _ => false

end RunEvent

namespace MainEvent

def runEvent? : MainEvent → Option RunEvent
  | .runs e _ => some e
  | _ => none

end MainEvent

/-- `handle_input` asks to quit. -/
def Key.Quits (key : Key) : Prop :=
  key = .char 'q' ∨ key = .char 'Q'

/-- The events `es` of a run of `RunState` are those of the whole program; the user interface ends
the main loop only if it runs, the process is not PID 1, and a `q` is among the keys it has read. -/
structure Played (pid : Pid) (noTui : Bool) (tr : List MainEvent) (keys : List Key)
    (es : List RunEvent) : Prop where
  same : es.map RunEvent.unquit = (tr.filterMap MainEvent.runEvent?).map RunEvent.unquit
  quit : ∀ e ∈ es, e.quits = true → pid ≠ 1 ∧ noTui = false ∧ ∃ key ∈ keys, key.Quits

namespace Played

variable {pid : Pid} {noTui : Bool} {tr : List MainEvent} {keys read : List Key}
  {es : List RunEvent}

/-- A step outside the part that `RunState` describes. -/
theorem skips (h : Played pid noTui tr keys es) {e : MainEvent} (he : e.runEvent? = none) :
    Played pid noTui (tr ++ [e]) (keys ++ read) es where
  same := by simp [h.same, he]
  quit := by
    intro e' he' hquits
    obtain ⟨hpid, htui, key, hkey, hq⟩ := h.quit e' he' hquits
    exact ⟨hpid, htui, key, List.mem_append_left _ hkey, hq⟩

theorem plays (h : Played pid noTui tr keys es) {e e' : RunEvent} {os : TuiAnswers}
    (hsame : e'.unquit = e.unquit)
    (hquit : e'.quits = true → pid ≠ 1 ∧ noTui = false ∧ ∃ key ∈ read, key.Quits) :
    Played pid noTui (tr ++ [.runs e os]) (keys ++ read) (es ++ [e']) where
  same := by simp [h.same, hsame, MainEvent.runEvent?]
  quit := by
    intro e'' he'' hquits
    rcases List.mem_append.mp he'' with hold | hnew
    · obtain ⟨hpid, htui, key, hkey, hq⟩ := h.quit e'' hold hquits
      exact ⟨hpid, htui, key, List.mem_append_left _ hkey, hq⟩
    · obtain rfl := List.mem_singleton.mp hnew
      obtain ⟨hpid, htui, key, hkey, hq⟩ := hquit hquits
      exact ⟨hpid, htui, key, List.mem_append_right _ hkey, hq⟩

/-- A raised signal that the run of `RunState` is given was raised in the whole run. -/
theorem raises (h : Played pid noTui tr keys es) {signal : Signal} (hmem : .raises signal ∈ es) :
    ∃ os, .runs (.raises signal) os ∈ tr := by
  have hmap : RunEvent.raises signal ∈ es.map RunEvent.unquit :=
    List.mem_map.mpr ⟨_, hmem, rfl⟩
  rw [h.same] at hmap
  obtain ⟨e, he, hsame⟩ := List.mem_map.mp hmap
  obtain ⟨e', he', hrun⟩ := List.mem_filterMap.mp he
  cases e with
  | raises signal' =>
      obtain rfl := RunEvent.raises.inj hsame
      cases e' with
      | runs e os =>
          obtain rfl := Option.some.inj hrun
          exact ⟨os, he'⟩
      | _ => cases hrun
  | _ => cases hsame

end Played

/-- Only the end of an iteration of the main loop asks whether the user interface has ended. -/
theorem RunState.programStep_unquit {r : RunState} (hpoint : r.point ≠ .restarting [])
    (a : RunAnswer) : r.programStep { a with quit := false } = r.programStep a := by
  obtain ⟨sys, procs, pending, requested, chowned, point⟩ := r
  unfold RunState.programStep
  cases point with
  | restarting ready =>
      cases ready with
      | nil => exact absurd rfl hpoint
      | cons name rest => rfl
  | executing rest =>
      unfold RunState.stepExecuting
      rfl
  | starting call back =>
      unfold RunState.stepStarting
      dsimp only
  | polled events poll =>
      unfold RunState.stepPolled
      rfl
  | draining rest poll =>
      unfold RunState.stepDraining
      rfl
  | reaping rest poll =>
      unfold RunState.stepReaping
      rfl
  | stopping names => cases names <;> rfl
  | _ => dsimp only

/-! ## The invariant -/

/-- What the place `point` of the whole program says about the run of `RunState` that got to `r`. -/
def Continues (r : RunState) : MainPoint → Prop
  | .running r' => RunState.Similar r r'
  | .unmounting s _ => r.point = .returned ∧ SameButJournal r.sys.init s
  | .returned s code => code = 0 ∧ r.point = .returned ∧ SameButJournal r.sys.init s
  | _ => False

/-- Behind the first phases, `RunState` has run from the object they have left. -/
def Ran (pid : Pid) (noTui : Bool) (tr : List MainEvent) (keys : List Key) (point : MainPoint) :
    Prop :=
  ∃ (b : Boot) (es : List RunEvent) (r : RunState), b.ReadFrom tr ∧
    (RunState.boot b.object).run es = some r ∧ Played pid noTui tr keys es ∧ Continues r point

/-- Nothing has been read from the unit files. -/
def Unparsed (s : InitSystem) : Prop :=
  ∃ fds, SameButJournal { fds := fds } s

theorem Unparsed.same {s s' : InitSystem} (h : Unparsed s) (hsame : SameButJournal s s') :
    Unparsed s' := by
  obtain ⟨fds, journal, rfl⟩ := h
  obtain ⟨journal', rfl⟩ := hsame
  exact ⟨fds, journal', rfl⟩

/-- What the events `tr` and the keys `keys` have led to, phase by phase. -/
def Explained (pid : Pid) (noTui : Bool) (tr : List MainEvent) (keys : List Key) : MainPoint → Prop
  | .earlyMount s _ => Unparsed s ∧ Played pid noTui tr keys []
  | .signalSetup s => Unparsed s ∧ Played pid noTui tr keys []
  | .unitDiscovery s => Unparsed s ∧ Played pid noTui tr keys []
  | .unitParse s unitPaths => Unparsed s ∧ Played pid noTui tr keys [] ∧
      ∃ journal os scan, .discoversUnits os ∈ tr ∧
        UnitScan.executeUnitDiscovery { journal := journal } os = some scan ∧
          unitPaths = scan.discoveredPaths
  | .socketBind s => Played pid noTui tr keys [] ∧
      ∃ journal fds unitPaths files, FilesRead unitPaths files tr ∧
        s = parsed journal (unitsOf unitPaths files) fds
  | .dependencyResolve s => Played pid noTui tr keys [] ∧
      ∃ journal fds unitPaths files os, FilesRead unitPaths files tr ∧ .bindsSockets os ∈ tr ∧
        s = ((parsed journal (unitsOf unitPaths files) fds).executeSocketBind os).1
  | .returned s code => code = 1 ∨ Ran pid noTui tr keys (.returned s code)
  | .terminated _ => True
  | point => Ran pid noTui tr keys point

namespace MainState

variable {pid : Pid} {noTui : Bool} {tr : List MainEvent} {m m' : MainState}

/-! ## Steps -/

/-- The user interface asks to quit only if it runs and the user has pressed `q`. -/
theorem tuiTick_quits {s : InitSystem} {os : TuiAnswers} {frame : Option Frame} {goesOn : Bool}
    {tui : Tui} (h : m.tuiTick s os = some (frame, goesOn, tui)) :
    tui.active = m.tui.active ∧
      (goesOn = false → m.tui.active = true ∧ ∃ key, os.key = some key ∧ key.Quits) := by
  unfold tuiTick at h
  split_ifs at h with hactive
  · obtain ⟨⟨t, drawn⟩, hrender, hpair⟩ := Option.map_eq_some_iff.mp h
    -- Drawing a frame changes the scroll position of the table and nothing else.
    obtain ⟨svcScroll, rfl⟩ := Tui.render_eq hrender
    simp only [Prod.mk.injEq] at hpair
    obtain ⟨-, hinput⟩ := hpair
    have hactive' := Tui.active_handleInput { m.tui with svcScroll := svcScroll }
      s.units.entries.length os.key
    rw [hinput] at hactive'
    refine ⟨hactive', fun hgoesOn => ⟨hactive, ?_⟩⟩
    have hquits : (Tui.handleInput { m.tui with svcScroll := svcScroll } s.units.entries.length
        os.key).1 = false := by
      rw [hinput]
      exact hgoesOn
    rcases Tui.handleInput_quits hquits with hkey | hkey
    · exact ⟨_, hkey, Or.inl rfl⟩
    · exact ⟨_, hkey, Or.inr rfl⟩
  · simp only [Option.some.injEq, Prod.mk.injEq] at h
    obtain ⟨-, rfl, rfl⟩ := h
    exact ⟨rfl, fun hgoesOn => by simp at hgoesOn⟩

end MainState

namespace Ran

variable {pid : Pid} {noTui : Bool} {tr : List MainEvent} {keys read : List Key} {r r' : RunState}
  {a : RunAnswer} {e : RunEvent} {os : TuiAnswers}

/-- A step outside the part that `RunState` describes. -/
theorem skips {point point' : MainPoint} (h : Ran pid noTui tr keys point) {e : MainEvent}
    (he : e.runEvent? = none)
    (hnext : ∀ r, Continues r point → Continues r point') :
    Ran pid noTui (tr ++ [e]) (keys ++ read) point' := by
  obtain ⟨b, es, r, hread, hrun, hplayed, hcontinues⟩ := h
  exact ⟨b, es, r, hread.concat e, hrun, hplayed.skips he, hnext r hcontinues⟩

/-- An event that the run of `RunState` answers. -/
theorem answers {point' : MainPoint} (h : Ran pid noTui tr keys (.running r)) (e' : RunEvent)
    (hsame : e'.unquit = e.unquit)
    (hquit : e'.quits = true → pid ≠ 1 ∧ noTui = false ∧ ∃ key ∈ read, key.Quits)
    (hnext : ∀ r₀, RunState.Similar r₀ r → ∃ r₁, r₀.step e' = some r₁ ∧ Continues r₁ point') :
    Ran pid noTui (tr ++ [.runs e os]) (keys ++ read) point' := by
  obtain ⟨b, es, r₀, hread, hrun, hplayed, hsimilar⟩ := h
  -- The run of `RunState` is one event longer.
  obtain ⟨r₁, hstep, hcontinues⟩ := hnext r₀ hsimilar
  have hrun' : (RunState.boot b.object).run (es ++ [e']) = some r₁ :=
    StepRun.run_append_eq_some.mpr ⟨r₀, hrun, StepRun.run_singleton.mpr hstep⟩
  exact ⟨b, es ++ [e'], r₁, hread.concat _, hrun', hplayed.plays hsame hquit, hcontinues⟩

/-- A step that is one of `RunState`. -/
theorem plays (h : Ran pid noTui tr keys (.running r)) (e' : RunEvent)
    (hsame : e'.unquit = e.unquit)
    (hquit : e'.quits = true → pid ≠ 1 ∧ noTui = false ∧ ∃ key ∈ read, key.Quits)
    (hstep : r.step e' = some r') :
    Ran pid noTui (tr ++ [.runs e os]) (keys ++ read) (.running r') := by
  refine h.answers e' hsame hquit (fun r₀ hsimilar => ?_)
  obtain ⟨r₁, hstep₁, hsimilar₁⟩ := hsimilar.symm.step hstep
  exact ⟨r₁, hstep₁, hsimilar₁.symm⟩

/-- The user interface starts with the main loop. -/
theorem entersMainLoop (h : Ran pid noTui tr keys (.running r)) (hpoint : r.point = .executing [])
    {s : InitSystem} (hs : SameButJournal r.sys.init.registerAcceptSockets s) :
    Ran pid noTui (tr ++ [.runs (.program a) os]) (keys ++ read)
      (.running { r with sys := { r.sys with init := s }, point := .loopHead }) := by
  refine h.answers (.program { a with quit := false }) rfl
    (fun hquits => absurd hquits Bool.false_ne_true) (fun r₀ hsimilar => ?_)
  obtain ⟨sys', halike, rfl⟩ := hsimilar
  have hstep : r₀.programStep { a with quit := false } =
      some { r₀ with
        sys := { r₀.sys with
          init := r₀.sys.init.registerAcceptSockets.log .info "init" "Entering main loop" }
        point := .loopHead } := by
    unfold RunState.programStep
    rw [show r₀.point = .executing [] from hpoint]
    rfl
  refine ⟨_, hstep, _, halike.withInit ?_, rfl⟩
  exact (((SameButJournal.refl _).log _ _ _).symm.trans halike.init.registerAcceptSockets).trans hs

/-- `execute(Shutdown)` comes behind the last step of `RunState`. -/
theorem closesSockets (h : Ran pid noTui tr keys (.running r)) (hpoint : r.point = .polled [] .last)
    {s : InitSystem} (hs : SameButJournal r.sys.init.closeAllSockets.1 s) (todo : List String) :
    Ran pid noTui (tr ++ [.runs (.program a) os]) (keys ++ read) (.unmounting s todo) := by
  refine h.answers (.program { a with quit := false }) rfl
    (fun hquits => absurd hquits Bool.false_ne_true) (fun r₀ hsimilar => ?_)
  obtain ⟨sys', halike, rfl⟩ := hsimilar
  have hstep : r₀.programStep { a with quit := false } =
      some { r₀ with
        sys := { r₀.sys with
          init := r₀.sys.init.closeAllSockets.1.log .info "init" "Goodbye." }
        point := .returned } := by
    unfold RunState.programStep
    rw [show r₀.point = .polled [] .last from hpoint]
    rfl
  refine ⟨_, hstep, rfl, ?_⟩
  exact (((SameButJournal.refl _).log _ _ _).symm.trans halike.init.closeAllSockets).trans hs

/-- The units that have been read stay as they are, and so does their order. -/
theorem loaded_step (h : Ran pid noTui tr keys (.running r)) (hstep : r.step e = some r') :
    r'.sys.init.units = r.sys.init.units ∧ r'.sys.init.execOrder = r.sys.init.execOrder := by
  obtain ⟨b, es, r₀, -, hrun, -, hsimilar⟩ := h
  have hboot := StartInv.boot (.boot (parsed_tableInv b.journal (unitsOf b.unitPaths b.files) b.fds
    b.bind b.inDegreeOrder))
  have hloaded : StartInv b.object.units r₀ :=
    StepRun.run_invariant_of_step (fun _ _ _ h hstep => h.step hstep) hboot hrun
  -- The step is one of the run of `RunState`, which keeps both.
  obtain ⟨r₁, hstep₁, hsimilar₁⟩ := hsimilar.symm.step hstep
  have horder := RunState.step_execOrder hloaded.run hstep₁
  have hunits := (hloaded.step hstep₁).loaded.trans hloaded.loaded.symm
  obtain ⟨sys, halike, rfl⟩ := hsimilar
  obtain ⟨sys₁, halike₁, rfl⟩ := hsimilar₁
  obtain ⟨journal, hinit⟩ := halike.init
  obtain ⟨journal₁, hinit₁⟩ := halike₁.init
  constructor
  · calc
      r'.sys.init.units = sys₁.init.units := by rw [hinit₁]
      _ = r₀.sys.init.units := hunits
      _ = sys.init.units := by rw [hinit]
  · calc
      r'.sys.init.execOrder = sys₁.init.execOrder := by rw [hinit₁]
      _ = r₀.sys.init.execOrder := horder
      _ = sys.init.execOrder := by rw [hinit]

end Ran

/-- A step outside the program. -/
theorem Explained.skips {pid : Pid} {noTui : Bool} {tr : List MainEvent} {keys read : List Key}
    {point : MainPoint} (h : Explained pid noTui tr keys point) {e : MainEvent}
    (he : e.runEvent? = none) : Explained pid noTui (tr ++ [e]) (keys ++ read) point := by
  cases point with
  | earlyMount s todo => exact ⟨h.1, h.2.skips he⟩
  | signalSetup s => exact ⟨h.1, h.2.skips he⟩
  | unitDiscovery s => exact ⟨h.1, h.2.skips he⟩
  | unitParse s unitPaths =>
      obtain ⟨hunparsed, hplayed, journal, os, scan, hos, hscan⟩ := h
      exact ⟨hunparsed, hplayed.skips he, journal, os, scan, List.mem_append_left _ hos, hscan⟩
  | socketBind s =>
      obtain ⟨hplayed, journal, fds, unitPaths, files, hread, hs⟩ := h
      exact ⟨hplayed.skips he, journal, fds, unitPaths, files, hread.concat e, hs⟩
  | dependencyResolve s =>
      obtain ⟨hplayed, journal, fds, unitPaths, files, os, hread, hbound, hs⟩ := h
      exact ⟨hplayed.skips he, journal, fds, unitPaths, files, os, hread.concat e,
        List.mem_append_left _ hbound, hs⟩
  | running r => exact Ran.skips h he (fun _ hr => hr)
  | unmounting s todo => exact Ran.skips h he (fun _ hr => hr)
  | returned s code => exact h.imp_right (fun hran => Ran.skips hran he (fun _ hr => hr))
  | terminated s => trivial

structure MainInv (pid : Pid) (noTui : Bool) (tr : List MainEvent) (keys : List Key)
    (m : MainState) : Prop where
  samePid : m.pid = pid
  sameTui : m.noTui = noTui
  tui : m.tui.active = true → noTui = false ∧ pid ≠ 1
  explained : Explained pid noTui tr keys m.point

namespace MainState

variable {pid : Pid} {noTui : Bool} {tr : List MainEvent} {keys : List Key} {m m' : MainState}
  {e : MainEvent}

/-- A plain step, at a place where the user interface says nothing. -/
theorem ran_program {r r' : RunState} {a : RunAnswer} {os : TuiAnswers} {read : List Key}
    (h : Ran pid noTui tr keys (.running r)) (hplain : Plain r) (hr : r.programStep a = some r') :
    Ran pid noTui (tr ++ [.runs (.program a) os]) (keys ++ read) (.running r') := by
  refine h.plays (.program { a with quit := false }) rfl
    (fun hquits => absurd hquits Bool.false_ne_true) ?_
  exact (RunState.programStep_unquit hplain.2.1 a).trans hr

theorem explained_step (h : MainInv pid noTui tr keys m) {point : MainPoint}
    (hpoint : m.point = point) (hstep : MainStep m point e m') :
    Explained pid noTui (tr ++ [e]) (keys ++ m.keysRead e) m'.point := by
  have hexplained := h.explained
  rw [hpoint] at hexplained
  cases hstep with
  | mountsEarly hok hbusy s' hs' => exact ⟨hexplained.1.same hs', hexplained.2.skips rfl⟩
  | skipsEarly hproc s' hs' => exact ⟨hexplained.1.same hs', hexplained.2.skips rfl⟩
  -- A phase that fails ends `run` with 1, and nothing is said about the object.
  | failsEarly hproc s' => exact Or.inl rfl
  | makesRuntimeDirs =>
      exact ⟨hexplained.1.same ((SameButJournal.refl _).log _ _ _), hexplained.2.skips rfl⟩
  | @setsUpSignals s os s' hs' =>
      obtain ⟨⟨_, journal, rfl⟩, hplayed⟩ := hexplained
      obtain ⟨fds, journal', rfl⟩ := hs'
      exact ⟨⟨fds, journal', rfl⟩, hplayed.skips rfl⟩
  | failsSignals s' => exact Or.inl rfl
  | discoversUnits hscan =>
      refine ⟨hexplained.1.same ⟨_, rfl⟩, hexplained.2.skips rfl, ?_⟩
      exact ⟨_, _, _, List.mem_append_right _ (List.mem_singleton_self _), hscan, rfl⟩
  | throwsDiscovery hscan => trivial
  | @parsesUnits s unitPaths os =>
      obtain ⟨⟨fds, hunparsed⟩, hplayed, journal, answers, scan, hos, hscan⟩ := hexplained
      obtain ⟨journal', hparsed⟩ := executeUnitParse_parsed hunparsed unitPaths os
      refine ⟨hplayed.skips rfl, journal', fds, unitPaths, os,
        ⟨⟨journal, answers, scan, ?_, hscan⟩, ?_⟩, hparsed⟩
      · exact List.mem_append_left _ hos
      · exact List.mem_append_right _ (List.mem_singleton_self _)
  | @bindsSockets s os =>
      obtain ⟨hplayed, journal, fds, unitPaths, files, hread, rfl⟩ := hexplained
      refine ⟨hplayed.skips rfl, journal, fds, unitPaths, files, os, hread.concat _, ?_, rfl⟩
      exact List.mem_append_right _ (List.mem_singleton_self _)
  | @resolvesDependencies s inDegreeOrder =>
      obtain ⟨hplayed, journal, fds, unitPaths, files, os, hread, hbound, rfl⟩ := hexplained
      let b : Boot :=
        { journal := journal
          fds := fds
          unitPaths := unitPaths
          files := files
          bind := os
          inDegreeOrder := inDegreeOrder }
      have hobject : SameButJournal b.object
          (b.object.log .info "executor" "Executing units in dependency order") :=
        (SameButJournal.refl b.object).log _ _ _
      refine ⟨b, [], RunState.boot b.object, ⟨hread.concat _, ?_, ?_⟩, rfl, hplayed.skips rfl, ?_⟩
      · exact List.mem_append_left _ hbound
      · exact List.mem_append_right _ (List.mem_singleton_self _)
      · exact ⟨_, (System.Alike.refl { init := b.object }).withInit hobject, rfl⟩
  | @kernel r r' e os hkernel hr =>
      have hquits : e.quits = false := by
        cases e with
        | program a => cases hkernel
        | _ => rfl
      refine hexplained.plays e rfl (fun hquit => ?_) hr
      rw [hquits] at hquit
      cases hquit
  | entersMainLoop hplace s hs => exact hexplained.entersMainLoop hplace hs
  | @ticks r r' a os hplace frame goesOn tui htick quit hquit hr =>
      -- The answer of the user interface takes the place of the one in the event.
      refine hexplained.plays (.program { a with quit := quit }) rfl (fun hquits => ?_) hr
      obtain ⟨hgoesOn, hpid⟩ : goesOn = false ∧ m.pid ≠ 1 := by
        have hboth : (!goesOn && decide (m.pid ≠ 1)) = true := hquit ▸ hquits
        simpa using hboth
      obtain ⟨hactive, key, hkey, hq⟩ := (tuiTick_quits htick).2 hgoesOn
      have hread : key ∈ m.keysRead (.runs (.program a) os) := by
        simp [keysRead, hpoint, hplace, hactive, hkey]
      exact ⟨h.samePid ▸ hpid, (h.tui hactive).1, key, hread, hq⟩
  | plain hplain hr tui htui => exact ran_program hexplained hplain hr
  | closesSockets hplace s hs => exact hexplained.closesSockets hplace hs _
  | unmounts hmounts => exact Ran.skips hexplained rfl (fun r hr => hr)
  | failsUnmount hmounts s' hs' =>
      exact Ran.skips hexplained rfl (fun r hr => ⟨hr.1, hr.2.trans hs'⟩)
  | returns =>
      exact Or.inr (Ran.skips hexplained rfl (fun r hr => ⟨rfl, hr.1, hr.2.log _ _ _⟩))
  | otherMounts => exact h.explained.skips rfl
  | otherUnmounts hmounts => exact h.explained.skips rfl

/-- What a step leaves alone, apart from the place in the program. -/
theorem mainStep_frame {point : MainPoint} (hstep : MainStep m point e m') :
    m'.pid = m.pid ∧ m'.noTui = m.noTui ∧
      (m'.tui.active = true → m.tui.active = true ∨ m.noTui = false ∧ m.pid ≠ 1) := by
  cases hstep with
  | entersMainLoop hplace s hs =>
      refine ⟨rfl, rfl, fun hactive => ?_⟩
      unfold executeTuiStart at hactive
      split_ifs at hactive with hnone
      · exact Or.inl hactive
      · obtain ⟨htui, hpid⟩ := not_or.mp hnone
        exact Or.inr ⟨Bool.eq_false_iff.mpr htui, hpid⟩
  | ticks hplace htick hquit hr =>
      refine ⟨rfl, rfl, fun hactive => Or.inl ?_⟩
      rw [← (tuiTick_quits htick).1]
      dsimp only at hactive
      split_ifs at hactive
      · cases hactive
      · exact hactive
  | plain hplain hr tui htui =>
      refine ⟨rfl, rfl, fun hactive => ?_⟩
      rcases htui with rfl | rfl
      · exact Or.inl hactive
      · cases hactive
  | _ => exact ⟨rfl, rfl, Or.inl⟩

theorem mainInv_step (h : MainInv pid noTui tr keys m) (hstep : m.step e = some m') :
    MainInv pid noTui (tr ++ [e]) (keys ++ m.keysRead e) m' := by
  obtain ⟨m₁, mounts, hm₁, rfl, -⟩ := step_cases hstep
  obtain ⟨hpid, hnoTui, htui⟩ := mainStep_frame hm₁
  exact
    { samePid := hpid.trans h.samePid
      sameTui := hnoTui.trans h.sameTui
      tui := fun hactive =>
        (htui hactive).elim h.tui (fun hallowed => h.sameTui ▸ h.samePid ▸ hallowed)
      explained := (explained_step h rfl hm₁ :
        Explained pid noTui (tr ++ [e]) (keys ++ m.keysRead e) m₁.point) }

theorem mainInv_start (pid : Pid) (noTui : Bool) (mounts : List String) (fds : FdTable) :
    MainInv pid noTui [] [] (start pid noTui mounts fds) where
  samePid := rfl
  sameTui := rfl
  tui := fun hactive => absurd hactive Bool.false_ne_true
  explained := ⟨⟨fds, _, rfl⟩, rfl, by simp⟩

theorem mainInv_run {mounts : List String} {fds : FdTable} {es : List MainEvent}
    (hrun : (start pid noTui mounts fds).run es = some m) :
    MainInv pid noTui es (StepRun.trace step keysRead (start pid noTui mounts fds) es) m :=
  StepRun.run_events_of_step (MainInv pid noTui) (fun _ _ _ _ _ h hstep => mainInv_step h hstep)
    (mainInv_start pid noTui mounts fds) hrun

/-! ## Whole runs -/

end MainState

namespace MainPoint

/-- Behind the first phases, unless they have failed. -/
def begun : MainPoint → Bool
  | .running _ => true
  | .unmounting _ _ => true
  | .returned _ code => decide (code = 0)
  | _ => false

/-- Behind the main loop. -/
def inShutdown : MainPoint → Bool
  | .running r => r.point.inShutdown
  | point => point.begun

end MainPoint

namespace MainState

variable {pid : Pid} {noTui : Bool} {mounts : List String} {fds : FdTable} {m : MainState}

/-- Behind its first phases the whole program is, up to the journal, where a run of `RunState` is
that started with the object they have left and was given the same events.  The display adds only
that it ends the main loop, when it has read a `q` in a process that is not PID 1. -/
theorem refines_run {es : List MainEvent} (hrun : (start pid noTui mounts fds).run es = some m)
    (hbegun : m.point.begun = true) :
    ∃ (b : Boot) (es' : List RunEvent) (r : RunState), b.ReadFrom es ∧
      (RunState.boot b.object).run es' = some r ∧
      Played pid noTui es (StepRun.trace step keysRead (start pid noTui mounts fds) es) es' ∧
      Continues r m.point := by
  have hexplained := (mainInv_run hrun).explained
  cases hpoint : m.point with
  | running r =>
      rw [hpoint] at hexplained
      exact hexplained
  | unmounting s todo =>
      rw [hpoint] at hexplained
      exact hexplained
  | returned s code =>
      rw [hpoint] at hexplained hbegun
      obtain rfl : code = 0 := of_decide_eq_true hbegun
      exact hexplained.resolve_left (by decide)
  | _ =>
      rw [hpoint] at hbegun
      cases hbegun

/-- A machine with one mount unit. -/
def srvListing : ScanAnswers :=
  { firstListing := fun dir =>
      if dir = "/etc/systemd/system" then
        .listed { entries := [{ filename := "srv.mount", isRegularFile := some true }] }
      else .missing }

def srvFiles : ParseAnswers :=
  { files := fun _ => some "[Mount]\nWhat=/dev/sdb1\nWhere=/srv\n" }

def srvMounted : MountAnswers :=
  { alreadyMounted := false
    mountError := none
    mountedOn := ["/srv"] }

/-- Up to the main loop. -/
def srvBoot : List MainEvent :=
  List.replicate 8 (.mountsEarly none) ++
    [ .makesRuntimeDirs (fun _ => true)
    , .setsUpSignals { signalfd := .ok (3, 3), epollCreate := .ok (4, 4) }
    , .discoversUnits srvListing
    , .parsesUnits srvFiles
    , .bindsSockets oneDescriptor
    , .resolvesDependencies ["srv.mount"]
    , .runs (.program { mount := srvMounted }) {}
    , .runs (.program {}) {} ]

/-- One iteration of the main loop, at the end of which the user presses `q`. -/
def srvRun : List MainEvent :=
  srvBoot ++
    [ .runs (.program { polled := some [] }) {}
    , .runs (.program {}) {}
    , .runs (.program {}) { key := some (.char 'q') } ]

theorem refines_run_sample :
    ∃ (b : Boot) (es : List RunEvent) (r : RunState), b.ReadFrom srvRun ∧
      (RunState.boot b.object).run es = some r ∧ es.length = 5 := by
  have hsome : ((start 7 false [] (fun _ => none)).run srvRun).any (fun m => m.point.begun) =
      true := by
    decide +kernel
  obtain ⟨m, hm, hbegun⟩ := (Option.any_eq_true _ _).mp hsome
  obtain ⟨b, es, r, hread, hrun, hplayed, -⟩ := refines_run hm hbegun
  have hlength := congrArg List.length hplayed.same
  rw [List.length_map, List.length_map] at hlength
  exact ⟨b, es, r, hread, hrun, hlength⟩

/-- The whole program leaves its main loop only when `SIGTERM` or `SIGINT` has been raised, or when
the status display has read a `q`; PID 1 has no status display. -/
theorem shutdown_on_request {es : List MainEvent}
    (hrun : (start pid noTui mounts fds).run es = some m) (hshut : m.point.inShutdown = true) :
    (∃ signal os, (signal = .term ∨ signal = .int) ∧ .runs (.raises signal) os ∈ es) ∨
      pid ≠ 1 ∧ noTui = false ∧
        ∃ key ∈ StepRun.trace step keysRead (start pid noTui mounts fds) es, key.Quits := by
  have hbegun : m.point.begun = true := by
    cases hpoint : m.point with
    | running r => rfl
    | _ =>
        rw [hpoint] at hshut
        exact hshut
  obtain ⟨b, es', r, -, hrun', hplayed, hcontinues⟩ := refines_run hrun hbegun
  -- The run of `RunState` is behind its main loop as well.
  have hshut' : r.point.inShutdown = true := by
    cases hpoint : m.point with
    | running r' =>
        rw [hpoint] at hcontinues hshut
        obtain ⟨sys', -, rfl⟩ := hcontinues
        exact hshut
    | unmounting s todo =>
        rw [hpoint] at hcontinues
        rw [hcontinues.1]
        rfl
    | returned s code =>
        rw [hpoint] at hcontinues
        rw [hcontinues.2.1]
        rfl
    | _ =>
        rw [hpoint] at hbegun
        cases hbegun
  obtain ⟨es₁, e, r₁, hpre, -, hasks⟩ := RunState.shutdown_only_on_request b.object hrun' hshut'
  have he : e ∈ es' := hpre.subset (List.mem_append_right _ (List.mem_singleton_self e))
  cases e with
  | raises signal =>
      obtain ⟨os, hos⟩ := hplayed.raises he
      exact Or.inl ⟨signal, os, hasks, hos⟩
  | program a => exact Or.inr (hplayed.quit _ he hasks.2)
  | exits p status => cases hasks
  | adopts p => cases hasks

theorem shutdown_on_request_sample :
    (∃ signal os, (signal = .term ∨ signal = .int) ∧ .runs (.raises signal) os ∈ srvRun) ∨
      7 ≠ 1 ∧ false = false ∧
        ∃ key ∈ StepRun.trace step keysRead (start 7 false [] (fun _ => none)) srvRun,
          key.Quits := by
  have hsome : ((start 7 false [] (fun _ => none)).run srvRun).any
      (fun m => m.point.inShutdown) = true := by
    decide +kernel
  obtain ⟨m, hm, hshut⟩ := (Option.any_eq_true _ _).mp hsome
  exact shutdown_on_request hm hshut

end MainState

end TrivialInit
