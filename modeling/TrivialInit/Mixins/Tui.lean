import TrivialInit.Lib.Viewport
import TrivialInit.Mixins.Process

/-!
# TuiMixin — the status display

`tui.hpp` with `ncurses`.  A frame is what the main window shows: the arguments of the `mvwprintw`
calls that depend on the state, each with its line and its colour pair; a character stands for a
byte.  The windows, the header, the status bar and the titles are left out.
-/

namespace TrivialInit

inductive TuiTab
  | overview
  | services
  | journal
  deriving DecidableEq, Repr

/-- What `getch` returns, apart from `ERR`. -/
inductive Key
  | char (c : Char)
  | down
  | up
  | resize
  | other (code : Nat)
  deriving DecidableEq, Repr

structure Tui where
  active : Bool := false
  currentTab : TuiTab := .overview
  scrollOffset : Int := 0
  selectedRow : Int := 0
  svcScroll : Int := 0
  deriving DecidableEq, Repr

/-! ## Frames -/

/-- A line of the table of units. -/
structure ServiceLine where
  y : Int
  colour : Nat
  name : String
  typeName : String
  state : String
  precision : Int
  description : String
  deriving DecidableEq, Repr

/-- A line of the log; the overview does not show the level. -/
structure JournalLine where
  y : Int
  colour : Nat
  level : Option String
  source : String
  precision : Int
  message : String
  deriving DecidableEq, Repr

inductive Frame
  | overview (unitsLoaded active : Nat) (pid : Pid) (lines : List JournalLine)
  /-- The indicator holds the number of the selected row, from 1 on, and the number of rows. -/
  | services (lines : List ServiceLine) (indicator : Option (Int × Int))
  | journal (lines : List JournalLine)
  deriving DecidableEq, Repr

/-- The colour pair of a line of the log. -/
def LogLevel.colour (level : LogLevel) : Nat :=
  if LogLevel.error.toNat ≤ level.toNat then 2
  else if LogLevel.warning.toNat ≤ level.toNat then 3
  else 5

/-- The table `lvl` of `render_journal`. -/
def LogLevel.label : LogLevel → String
  | .debug => "DBG"
  | .info => "INF"
  | .notice => "NTC"
  | .warning => "WRN"
  | .error => "ERR"
  | .crit => "CRT"

/-- A line of the log, in a window of `w` columns. -/
def JournalEntry.line (e : JournalEntry) (w y : Int) (level : Option String) : JournalLine :=
  { y := y
    colour := e.level.colour
    level := level
    source := e.source
    precision := min (w - 20) e.message.length
    message := e.message }

/-- `type_s`. -/
def UnitType.label : UnitType → String
  | .service => "service"
  | .target => "target"
  | .mount => "mount"
  | _ => "unknown"

/-- The state shown for a unit, and its colour pair. -/
def InitSystem.shownState (s : InitSystem) (name : String) (unit : UnitFile) : String × Nat :=
  if name ∈ s.unitToPid then ("running", 1)
  else if unit.type = .target then ("reached", 1)
  else ("inactive", 5)

/-- The line of the table of units for the unit of number `row`. -/
def Tui.serviceLine (t : Tui) (s : InitSystem) (w row y : Int) (name : String) (unit : UnitFile) :
    ServiceLine :=
  let (state, colour) := s.shownState name unit
  { y := y
    colour := if row = t.selectedRow then 7 else colour
    name := name
    typeName := unit.type.label
    state := state
    precision := min (w - 56) unit.description.length
    description := unit.description }

namespace Tui

/-! ## Drawing -/

/-- `render_overview`, in a window of `h` lines; the log begins at line 10. -/
def renderOverview (s : InitSystem) (pid : Pid) (h w : Int) : Frame :=
  let entries := s.journal.entries
  let y : Int := 10
  let start := max 0 ((entries.length : Int) - (h - y - 1))
  let lines := (Viewport.lines start (h - 1) entries 0 y).map (fun (_, y, e) => e.line w y none)
  .overview s.units.entries.length s.activeCount pid lines

/-- `render_services`; the units are numbered in the order of `all_units()`. -/
def renderServices (t : Tui) (s : InitSystem) (h w : Int) : Tui × Frame :=
  let visibleRows := h - 3
  let total : Int := s.units.entries.length
  -- The window follows the cursor.
  let svcScroll := if t.selectedRow < t.svcScroll then t.selectedRow else t.svcScroll
  let svcScroll :=
    if svcScroll + visibleRows ≤ t.selectedRow then t.selectedRow - visibleRows + 1 else svcScroll
  let t := { t with svcScroll := svcScroll }
  let lines := (Viewport.lines svcScroll (h - 1) s.units.entries 0 2).map (fun (row, y, e) =>
    t.serviceLine s w row y e.1 e.2)
  let indicator := if visibleRows < total then some (t.selectedRow + 1, total) else none
  (t, .services lines indicator)

/-- `render_journal`; `none` is an index out of range. -/
def renderJournal (t : Tui) (s : InitSystem) (h w : Int) : Option Frame :=
  let entries := s.journal.entries
  let visible := h - 2
  let total : Int := entries.length
  let start := max 0 (total - visible - t.scrollOffset)
  let stop := min total (start + visible)
  (Viewport.pick entries start stop).map (fun shown =>
    .journal (shown.mapIdx (fun i e => e.line w (1 + i) (some e.level.label))))

/-- `render`, on a terminal of `height` lines and `width` columns. -/
def render (t : Tui) (s : InitSystem) (pid : Pid) (height width : Int) : Option (Tui × Frame) :=
  match t.currentTab with
  | .overview => some (t, renderOverview s pid (height - 6) width)
  | .services => some (t.renderServices s (height - 6) width)
  | .journal => (t.renderJournal s (height - 6) width).map (fun frame => (t, frame))

/-! ## Input -/

/-- The keys that move down. -/
def moveDown (t : Tui) (totalUnits : Int) : Tui :=
  if t.currentTab = .journal then { t with scrollOffset := max 0 (t.scrollOffset - 1) }
  else { t with selectedRow := min (t.selectedRow + 1) (max 0 (totalUnits - 1)) }

/-- The keys that move up. -/
def moveUp (t : Tui) : Tui :=
  -- There is no upper limit.
  if t.currentTab = .journal then { t with scrollOffset := t.scrollOffset + 1 }
  else { t with selectedRow := max 0 (t.selectedRow - 1) }

/-- `handle_input`; `none` is `ERR`.  The flag is `false` when the user wants to quit. -/
def handleInput (t : Tui) (totalUnits : Int) : Option Key → Bool × Tui
  | none => (true, t)
  | some key =>
      match key with
      | .char 'q' | .char 'Q' => (false, t)
      | .char '1' => (true, { t with currentTab := .overview })
      | .char '2' => (true, { t with currentTab := .services })
      | .char '3' => (true, { t with currentTab := .journal })
      | .char 'j' | .down => (true, t.moveDown totalUnits)
      | .char 'k' | .up => (true, t.moveUp)
      -- `KEY_RESIZE` makes the windows anew; all other keys are ignored.
      | _ => (true, t)

/-- `shutdown_tui`. -/
def shutdown (t : Tui) : Tui :=
  { t with active := false }

/-! ## What the calls leave alone -/

@[simp] theorem active_moveDown (t : Tui) (totalUnits : Int) :
    (t.moveDown totalUnits).active = t.active := by
  unfold moveDown
  split_ifs <;> rfl

@[simp] theorem active_moveUp (t : Tui) : t.moveUp.active = t.active := by
  unfold moveUp
  split_ifs <;> rfl

@[simp] theorem active_handleInput (t : Tui) (totalUnits : Int) (key : Option Key) :
    (t.handleInput totalUnits key).2.active = t.active := by
  unfold handleInput
  split
  · rfl
  · split <;> simp

/-- A frame moves the window over the table of units at most. -/
theorem render_eq {t t' : Tui} {s : InitSystem} {pid : Pid} {height width : Int} {frame : Frame}
    (h : t.render s pid height width = some (t', frame)) :
    ∃ svcScroll, t' = { t with svcScroll := svcScroll } := by
  unfold render at h
  split at h
  · obtain ⟨rfl, -⟩ := Prod.mk.inj (Option.some.inj h)
    exact ⟨t.svcScroll, rfl⟩
  · obtain ⟨rfl, -⟩ := Prod.mk.inj (Option.some.inj h)
    exact ⟨_, rfl⟩
  · obtain ⟨frame', -, hpair⟩ := Option.map_eq_some_iff.mp h
    obtain ⟨rfl, -⟩ := Prod.mk.inj hpair
    exact ⟨t.svcScroll, rfl⟩

/-- Only `q` quits. -/
theorem handleInput_quits {t : Tui} {totalUnits : Int} {key : Option Key}
    (h : (t.handleInput totalUnits key).1 = false) :
    key = some (.char 'q') ∨ key = some (.char 'Q') := by
  unfold handleInput at h
  split at h
  · cases h
  · split at h
    · exact Or.inl rfl
    · exact Or.inr rfl
    all_goals cases h

end Tui

end TrivialInit
