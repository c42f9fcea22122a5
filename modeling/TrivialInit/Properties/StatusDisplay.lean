import TrivialInit.Properties.WholeRun

/-!
# StatusDisplay — what the user interface shows

`handle_input` moves a cursor over the units and scrolls the log, `render` draws a window of either,
and the terminal may change its size between two frames.  In every run the cursor stays on a unit
and no frame reaches beyond a list; so the table of units always shows the selected unit, and the
log is a section without gaps.
-/

namespace TrivialInit

open InitSystem (SameButJournal)

/-! ## The invariant -/

namespace Tui

/-- The cursor is on one of `total` units, or on the first line. -/
structure Within (total : Nat) (t : Tui) : Prop where
  selected_nonneg : 0 ≤ t.selectedRow
  selected_le : t.selectedRow ≤ max 0 ((total : Int) - 1)
  svcScroll_nonneg : 0 ≤ t.svcScroll
  scrollOffset_nonneg : 0 ≤ t.scrollOffset

namespace Within

variable {total : Nat} {t : Tui}

theorem default (total : Nat) : Within total {} where
  selected_nonneg := Int.le_refl 0
  selected_le := Int.le_max_left _ _
  svcScroll_nonneg := Int.le_refl 0
  scrollOffset_nonneg := Int.le_refl 0

theorem activated (h : Within total t) (active : Bool) :
    Within total { t with active := active } :=
  ⟨h.selected_nonneg, h.selected_le, h.svcScroll_nonneg, h.scrollOffset_nonneg⟩

theorem moveDown (h : Within total t) : Within total (t.moveDown total) := by
  obtain ⟨hnonneg, hle, hscroll, hoffset⟩ := h
  unfold Tui.moveDown
  split_ifs
  · exact ⟨hnonneg, hle, hscroll, Int.le_max_left _ _⟩
  · refine ⟨?_, Int.min_le_right _ _, hscroll, hoffset⟩
    dsimp only
    omega

theorem moveUp (h : Within total t) : Within total t.moveUp := by
  obtain ⟨hnonneg, hle, hscroll, hoffset⟩ := h
  unfold Tui.moveUp
  split_ifs
  · refine ⟨hnonneg, hle, hscroll, ?_⟩
    dsimp only
    omega
  · refine ⟨Int.le_max_left _ _, ?_, hscroll, hoffset⟩
    dsimp only
    omega

theorem tab (h : Within total t) (tab : TuiTab) : Within total { t with currentTab := tab } :=
  ⟨h.selected_nonneg, h.selected_le, h.svcScroll_nonneg, h.scrollOffset_nonneg⟩

theorem handleInput (h : Within total t) (key : Option Key) :
    Within total (t.handleInput total key).2 := by
  unfold Tui.handleInput
  split
  · exact h
  · split
    · exact h
    · exact h
    · exact h.tab _
    · exact h.tab _
    · exact h.tab _
    · exact h.moveDown
    · exact h.moveDown
    · exact h.moveUp
    · exact h.moveUp
    · exact h

theorem render {s : InitSystem} (h : Within s.units.entries.length t) {pid : Pid}
    {height width : Int} {t' : Tui} {frame : Frame}
    (hframe : t.render s pid height width = some (t', frame)) :
    Within s.units.entries.length t' := by
  obtain ⟨hnonneg, hle, hscroll, hoffset⟩ := h
  unfold Tui.render at hframe
  split at hframe
  · obtain ⟨rfl, -⟩ := Prod.mk.inj (Option.some.inj hframe)
    exact ⟨hnonneg, hle, hscroll, hoffset⟩
  · obtain ⟨rfl, -⟩ := Prod.mk.inj (Option.some.inj hframe)
    exact ⟨hnonneg, hle, Viewport.follow_nonneg _ hscroll hnonneg, hoffset⟩
  · obtain ⟨frame', -, hpair⟩ := Option.map_eq_some_iff.mp hframe
    obtain ⟨rfl, -⟩ := Prod.mk.inj hpair
    exact ⟨hnonneg, hle, hscroll, hoffset⟩

end Within

end Tui

namespace MainState

variable {pid : Pid} {noTui : Bool} {m m' : MainState}

/-- The units are counted when the user interface has begun. -/
structure DisplayInv (pid : Pid) (noTui : Bool) (m : MainState) : Prop where
  main : ∃ tr keys, MainInv pid noTui tr keys m
  early : m.point.begun = false → m.tui = {}
  within : ∀ r, m.point = .running r → m.tui.Within r.sys.init.units.entries.length

theorem units_maybeFixRuntimeDirs (r : RunState) :
    r.maybeFixRuntimeDirs.sys.init.units = r.sys.init.units := by
  unfold RunState.maybeFixRuntimeDirs
  dsimp only
  split_ifs <;> rfl

theorem within_tuiTick {s : InitSystem} (h : m.tui.Within s.units.entries.length)
    {os : TuiAnswers} {frame : Option Frame} {goesOn : Bool} {tui : Tui}
    (htick : m.tuiTick s os = some (frame, goesOn, tui)) : tui.Within s.units.entries.length := by
  unfold tuiTick at htick
  split_ifs at htick
  · obtain ⟨⟨t, drawn⟩, hrender, hpair⟩ := Option.map_eq_some_iff.mp htick
    simp only [Prod.mk.injEq] at hpair
    obtain ⟨-, hinput⟩ := hpair
    have hnext := (h.render hrender).handleInput os.key
    rwa [hinput] at hnext
  · simp only [Option.some.injEq, Prod.mk.injEq] at htick
    obtain ⟨-, -, rfl⟩ := htick
    exact h

namespace DisplayInv

/-- A step to a place outside the part that `RunState` describes. -/
theorem outside (hmain : ∃ tr keys, MainInv pid noTui tr keys m')
    (hearly : m'.point.begun = false → m'.tui = {})
    (hpoint : ∀ r, m'.point ≠ .running r) : DisplayInv pid noTui m' where
  main := hmain
  early := hearly
  within := fun r hr => absurd hr (hpoint r)

theorem start (pid : Pid) (noTui : Bool) (mounts : List String) (fds : FdTable) :
    DisplayInv pid noTui (MainState.start pid noTui mounts fds) :=
  outside ⟨[], [], mainInv_start pid noTui mounts fds⟩ (fun _ => rfl)
    (fun r hr => by cases hr)

theorem step (h : DisplayInv pid noTui m) {e : MainEvent} (hstep : m.step e = some m') :
    DisplayInv pid noTui m' := by
  obtain ⟨tr, keys, hmain⟩ := h.main
  have hmain' : ∃ tr keys, MainInv pid noTui tr keys m' := ⟨_, _, mainInv_step hmain hstep⟩
  obtain ⟨m₁, mounts, hm₁, rfl, -⟩ := step_cases hstep
  suffices hnext : (m₁.point.begun = false → m₁.tui = {}) ∧
      ∀ r, m₁.point = .running r → m₁.tui.Within r.sys.init.units.entries.length from
    ⟨hmain', hnext.1, hnext.2⟩
  have hexplained := hmain.explained
  have hearly := h.early
  have hwithin := h.within
  generalize hpoint : m.point = point at hm₁ hexplained hearly hwithin
  -- The units stay as they are while the main program runs.
  have hruns : ∀ {r r' : RunState} {e' : RunEvent} {tui : Tui}, point = .running r →
      r.step e' = some r' → tui.Within r.sys.init.units.entries.length →
      ∀ r'', MainPoint.running r' = .running r'' →
        tui.Within r''.sys.init.units.entries.length := by
    intro r r' e' tui hr hstep htui r'' heq
    obtain rfl := MainPoint.running.inj heq
    rw [hr] at hexplained
    rw [(Ran.loaded_step hexplained hstep).1]
    exact htui
  cases hm₁ with
  | resolvesDependencies =>
      refine ⟨fun hfalse => absurd hfalse Bool.noConfusion, fun r hr => ?_⟩
      -- The units are there now, and the display is as it was built.
      rw [hearly rfl]
      exact .default _
  | kernel hkernel hr =>
      exact ⟨fun hfalse => absurd hfalse Bool.noConfusion, hruns rfl hr (hwithin _ rfl)⟩
  | @entersMainLoop r a os hplace s hs =>
      refine ⟨fun hfalse => absurd hfalse Bool.noConfusion, fun r' hr' => ?_⟩
      obtain rfl := MainPoint.running.inj hr'
      obtain ⟨journal, rfl⟩ := hs
      have htui := hwithin r rfl
      unfold executeTuiStart
      split_ifs
      · exact htui
      · exact htui.activated true
  | @ticks r r' a os hplace frame goesOn tui htick quit hquit hr =>
      refine ⟨fun hfalse => absurd hfalse Bool.noConfusion, ?_⟩
      have hr' : r.step (.program { a with quit := quit }) = some r' := hr
      refine hruns rfl hr' ?_
      have htui := within_tuiTick (m := m) (by rw [units_maybeFixRuntimeDirs]; exact hwithin r rfl)
        htick
      rw [units_maybeFixRuntimeDirs] at htui
      dsimp only
      -- The display is shut down, or it goes on.
      split_ifs
      · exact htui.activated false
      · exact htui
  | @plain r r' a os hplain hr tui htui =>
      refine ⟨fun hfalse => absurd hfalse Bool.noConfusion, ?_⟩
      have hr' : r.step (.program a) = some r' := hr
      refine hruns rfl hr' ?_
      rcases htui with rfl | rfl
      · exact hwithin r rfl
      · exact (hwithin r rfl).activated false
  | closesSockets hplace s hs =>
      exact ⟨fun hfalse => absurd hfalse Bool.noConfusion, fun r hr => by cases hr⟩
  | unmounts hmounts =>
      exact ⟨fun hfalse => absurd hfalse Bool.noConfusion, fun r hr => by cases hr⟩
  | failsUnmount hmounts s' hs' =>
      exact ⟨fun hfalse => absurd hfalse Bool.noConfusion, fun r hr => by cases hr⟩
  | returns => exact ⟨fun hfalse => absurd hfalse Bool.noConfusion, fun r hr => by cases hr⟩
  | otherMounts =>
      rw [hpoint]
      exact ⟨hearly, hwithin⟩
  | otherUnmounts hmounts =>
      dsimp only
      rw [hpoint]
      exact ⟨hearly, hwithin⟩
  | _ => exact ⟨fun _ => hearly rfl, fun r hr => by cases hr⟩

end DisplayInv

/-- The cursor is on a unit in every run. -/
theorem within_run {mounts : List String} {fds : FdTable} {es : List MainEvent}
    (hrun : (start pid noTui mounts fds).run es = some m) {r : RunState}
    (hpoint : m.point = .running r) :
    m.tui.Within r.maybeFixRuntimeDirs.sys.init.units.entries.length := by
  have hinv := StepRun.run_invariant_of_step (fun _ _ _ h hstep => DisplayInv.step h hstep)
    (DisplayInv.start pid noTui mounts fds) hrun
  rw [units_maybeFixRuntimeDirs]
  exact hinv.within r hpoint

/-- A frame is what `render` draws. -/
theorem frames_cases {e : RunEvent} {os : TuiAnswers} {frame : Frame}
    (h : frame ∈ m.frames (.runs e os)) :
    ∃ r, m.point = .running r ∧ ∃ t,
      m.tui.render r.maybeFixRuntimeDirs.sys.init m.pid os.height os.width = some (t, frame) := by
  cases e with
  | program a =>
      cases hpoint : m.point with
      | running r =>
          refine ⟨r, rfl, ?_⟩
          simp only [frames, hpoint] at h
          split at h
          · split at h
            · rename_i drawn rest htick
              obtain rfl := List.mem_singleton.mp h
              unfold tuiTick at htick
              split_ifs at htick
              · obtain ⟨⟨t, drawn⟩, hrender, hpair⟩ := Option.map_eq_some_iff.mp htick
                simp only [Prod.mk.injEq, Option.some.injEq] at hpair
                obtain ⟨rfl, -⟩ := hpair
                exact ⟨t, hrender⟩
              · simp at htick
            · cases h
          · cases h
      | _ => simp [frames, hpoint] at h
  | _ => cases h

end MainState

/-! ## The table of units -/

namespace Tui

variable {t : Tui} {s : InitSystem} {h w : Int}

/-- The colour pair of the selected line is used for nothing else. -/
theorem colour_serviceLine (row y : Int) (name : String) (unit : UnitFile) :
    (t.serviceLine s w row y name unit).colour = 7 ↔ row = t.selectedRow := by
  have hother : (s.shownState name unit).2 ≠ 7 := by
    unfold InitSystem.shownState
    split_ifs <;> decide
  unfold serviceLine
  dsimp only
  split_ifs with hrow
  · exact iff_of_true rfl hrow
  · exact iff_of_false hother hrow

/-- A unit is shown as running if it has an entry in `unit_to_pid_`. -/
theorem state_serviceLine (row y : Int) (name : String) (unit : UnitFile) :
    (t.serviceLine s w row y name unit).state = "running" ↔ name ∈ s.unitToPid := by
  unfold serviceLine InitSystem.shownState
  dsimp only
  split_ifs with hpid htarget
  · exact iff_of_true rfl hpid
  · exact iff_of_false (by decide) hpid
  · exact iff_of_false (by decide) hpid

/-- The lines of the table, in one expression. -/
theorem renderServices_eq {first : Int}
    (hfirst : first = Viewport.follow t.svcScroll t.selectedRow (h - 3)) (hnonneg : 0 ≤ first) :
    ∃ indicator, (t.renderServices s h w).2 =
      .services
        (((s.units.entries.drop first.toNat).take (h - 3).toNat).mapIdx (fun i e =>
          t.serviceLine s w (first + i) (2 + i) e.1 e.2))
        indicator := by
  subst hfirst
  have hheight : h - 1 - 2 = h - 3 := by omega
  refine ⟨_, congrArg₂ Frame.services ?_ rfl⟩
  refine (Viewport.map_lines _ hnonneg 2 s.units.entries).trans ?_
  rw [Int.sub_zero, hheight]
  rfl

/-- The overview shows the end of the log. -/
theorem renderOverview_eq (pid : Pid) :
    renderOverview s pid h w = .overview s.units.entries.length s.activeCount pid
      ((Viewport.tail s.journal.entries (h - 11) 0).mapIdx
        (fun i e => e.line w (10 + i) none)) := by
  have hrows : h - 1 - 10 = h - 11 := by omega
  have hstart : max 0 ((s.journal.entries.length : Int) - (h - 10 - 1)) =
      Viewport.tailStart s.journal.entries.length (h - 11) 0 := by
    unfold Viewport.tailStart
    omega
  refine congrArg (Frame.overview _ _ pid) ?_
  refine (Viewport.map_lines _ (Int.le_max_left _ _) 10 s.journal.entries).trans ?_
  rw [Int.sub_zero, hrows, hstart]
  rfl

/-- No index is out of range, whatever the size of the terminal. -/
theorem renderJournal_eq :
    t.renderJournal s h w = some (.journal
      ((Viewport.tail s.journal.entries (h - 2) t.scrollOffset).mapIdx
        (fun i e => e.line w (1 + i) (some e.level.label)))) := by
  unfold renderJournal
  dsimp only
  exact congrArg (Option.map _) (Viewport.pick_tail s.journal.entries (h - 2) t.scrollOffset)

/-- What is drawn on each of the tabs. -/
theorem render_frame {t' : Tui} {pid : Pid} {height width : Int} {frame : Frame}
    (hrender : t.render s pid height width = some (t', frame)) :
    frame = renderOverview s pid (height - 6) width ∨
      frame = (t.renderServices s (height - 6) width).2 ∨
      t.renderJournal s (height - 6) width = some frame := by
  unfold render at hrender
  split at hrender
  · exact Or.inl (congrArg Prod.snd (Option.some.inj hrender)).symm
  · exact Or.inr (Or.inl (congrArg Prod.snd (Option.some.inj hrender)).symm)
  · obtain ⟨frame', hframe, hpair⟩ := Option.map_eq_some_iff.mp hrender
    obtain rfl := congrArg Prod.snd hpair
    exact Or.inr (Or.inr hframe)

/-- Some frame can always be drawn. -/
theorem render_isSome (t : Tui) (s : InitSystem) (pid : Pid) (height width : Int) :
    (t.render s pid height width).isSome = true := by
  unfold render
  split
  · rfl
  · rfl
  · rw [renderJournal_eq]
    rfl

theorem render_services_cases {t' : Tui} {pid : Pid} {height width : Int}
    {lines : List ServiceLine} {indicator : Option (Int × Int)}
    (hrender : t.render s pid height width = some (t', .services lines indicator)) :
    (t.renderServices s (height - 6) width).2 = .services lines indicator := by
  rcases render_frame hrender with hframe | hframe | hframe
  · cases hframe
  · exact hframe.symm
  · rw [renderJournal_eq] at hframe
    cases hframe

theorem render_overview_cases {t' : Tui} {pid p : Pid} {height width : Int} {loaded active : Nat}
    {lines : List JournalLine}
    (hrender : t.render s pid height width = some (t', .overview loaded active p lines)) :
    .overview loaded active p lines = renderOverview s pid (height - 6) width := by
  rcases render_frame hrender with hframe | hframe | hframe
  · exact hframe
  · cases hframe
  · rw [renderJournal_eq] at hframe
    cases hframe

theorem render_journal_cases {t' : Tui} {pid : Pid} {height width : Int}
    {lines : List JournalLine}
    (hrender : t.render s pid height width = some (t', .journal lines)) :
    t.renderJournal s (height - 6) width = some (.journal lines) := by
  rcases render_frame hrender with hframe | hframe | hframe
  · cases hframe
  · cases hframe
  · exact hframe

end Tui

namespace MainState

variable {pid : Pid} {noTui : Bool} {mounts : List String} {fds : FdTable} {m : MainState}
  {r : RunState} {e : RunEvent} {os : TuiAnswers}

/-- In every run the table of units lists consecutive units of `all_units()` inside the border, one
below the other; it highlights the selected unit and no other one, and shows it if there is room for
a line at all; a unit is shown as running exactly if it has an entry in `unit_to_pid_`. -/
theorem services_display {es : List MainEvent}
    (hrun : (start pid noTui mounts fds).run es = some m) (hpoint : m.point = .running r)
    {lines : List ServiceLine} {indicator : Option (Int × Int)}
    (hframe : .services lines indicator ∈ m.frames (.runs e os)) {s : InitSystem}
    (hs : s = r.maybeFixRuntimeDirs.sys.init) :
    ∃ first : Nat,
      lines.map ServiceLine.name = (s.units.keys.drop first).take (os.height - 9).toNat ∧
        (∀ (i : Nat) (line : ServiceLine), lines[i]? = some line →
          line.y = 2 + i ∧ line.y < os.height - 7 ∧
            (line.colour = 7 ↔ m.tui.selectedRow = first + i) ∧
            (line.state = "running" ↔ line.name ∈ s.unitToPid)) ∧
        (9 < os.height → s.units.keys ≠ [] →
          first ≤ m.tui.selectedRow ∧ m.tui.selectedRow < first + lines.length) := by
  subst hs
  obtain ⟨hnonneg, hle, hscroll, -⟩ := within_run hrun hpoint
  obtain ⟨r', hpoint', t', hrender⟩ := frames_cases hframe
  obtain rfl := MainPoint.running.inj (hpoint.symm.trans hpoint')
  have hdrawn := Tui.render_services_cases hrender
  generalize r.maybeFixRuntimeDirs.sys.init = s at *
  have hfirst := Viewport.follow_nonneg (os.height - 6 - 3) hscroll hnonneg
  -- The window has been moved to show the cursor.
  have hlow : 9 < os.height → Viewport.follow m.tui.svcScroll m.tui.selectedRow
      (os.height - 6 - 3) ≤ m.tui.selectedRow := fun hroom =>
    Viewport.follow_le _ _ (by omega)
  have hhigh := Viewport.lt_follow_add m.tui.svcScroll m.tui.selectedRow (os.height - 6 - 3)
  obtain ⟨indicator', heq⟩ := Tui.renderServices_eq (s := s) (w := os.width) rfl hfirst
  obtain ⟨rfl, -⟩ := Frame.services.inj (hdrawn.symm.trans heq)
  generalize Viewport.follow m.tui.svcScroll m.tui.selectedRow (os.height - 6 - 3) = first at *
  have hrows : os.height - 6 - 3 = os.height - 9 := by omega
  rw [hrows] at hhigh ⊢
  have hunits : s.units.keys.length = s.units.entries.length := List.length_map _
  refine ⟨first.toNat, ?_, fun i line hline => ?_, fun hroom hkeys => ?_⟩
  · apply List.ext_getElem?
    intro i
    have hkeys : (s.units.keys.drop first.toNat).take (os.height - 9).toNat =
        ((s.units.entries.drop first.toNat).take (os.height - 9).toNat).map Sigma.fst := by
      rw [AList.keys, List.keys, List.map_take, List.map_drop]
    rw [hkeys, List.getElem?_map, List.getElem?_mapIdx, List.getElem?_map, Option.map_map]
    rfl
  · rw [List.getElem?_mapIdx] at hline
    obtain ⟨unit, hunit, rfl⟩ := Option.map_eq_some_iff.mp hline
    have hi : i < (os.height - 9).toNat := by
      obtain ⟨hlt, -⟩ := List.getElem?_eq_some_iff.mp hunit
      exact lt_of_lt_of_le hlt (List.length_take_le _ _)
    refine ⟨rfl, ?_, ?_, Tui.state_serviceLine _ _ _ _⟩
    · change 2 + (i : Int) < _
      omega
    · rw [Tui.colour_serviceLine, Int.toNat_of_nonneg hfirst]
      exact eq_comm
  · have hpos : 0 < s.units.keys.length := List.length_pos_iff.mpr hkeys
    have hlow := hlow hroom
    rw [List.length_mapIdx, List.length_take, List.length_drop]
    constructor
    · omega
    · omega

/-- The user presses a key, and the next frame is due. -/
def srvLook (key : Char) : List MainEvent :=
  srvBoot ++
    [ .runs (.program { polled := some [] }) {}
    , .runs (.program {}) {}
    , .runs (.program {}) { key := some (.char key) }
    , .runs (.program { polled := some [] }) {}
    , .runs (.program {}) {} ]

def srvTable : List ServiceLine :=
  [{ y := 2
     colour := 7
     name := "srv.mount"
     typeName := "mount"
     state := "inactive"
     precision := 0
     description := "" }]

theorem services_display_sample :
    ∃ (m : MainState) (first : Nat),
      (start 7 false [] (fun _ => none)).run (srvLook '2') = some m ∧
        first ≤ m.tui.selectedRow ∧ m.tui.selectedRow < first + srvTable.length := by
  have hsome : ((start 7 false [] (fun _ => none)).run (srvLook '2')).any
      (fun m => decide (.services srvTable none ∈ m.frames (.runs (.program {}) {}))) = true := by
    decide +kernel
  obtain ⟨m, hm, hmem⟩ := (Option.any_eq_true _ _).mp hsome
  have hframe := of_decide_eq_true hmem
  obtain ⟨r, hpoint, -⟩ := frames_cases hframe
  obtain ⟨first, hnames, -, hselected⟩ := services_display hm hpoint hframe rfl
  refine ⟨m, first, hm, hselected (by decide) (fun hnone => ?_)⟩
  change r.maybeFixRuntimeDirs.sys.init.units.keys = [] at hnone
  rw [hnone] at hnames
  simp [srvTable] at hnames

end MainState

/-! ## The log -/

/-- The lines show a section of the log in a window of `rows` lines that begins at the line `top`:
as much as there is room for, and as many entries as `back` says are newer, if there are enough. -/
structure ShowsLog (entries : List JournalEntry) (w top rows back : Int)
    (level : LogLevel → Option String) (lines : List JournalLine) : Prop where
  section_ : ∃ older shown newer, entries = older ++ shown ++ newer ∧
    lines = shown.mapIdx (fun i e => e.line w (top + i) (level e.level)) ∧
      (0 < rows → (newer.length : Int) = min back (max 0 (entries.length - rows)))
  length : (lines.length : Int) = max 0 (min rows entries.length)

theorem ShowsLog.tail {entries : List JournalEntry} {w top rows back : Int} (hback : 0 ≤ back)
    (level : LogLevel → Option String) :
    ShowsLog entries w top rows back level
      ((Viewport.tail entries rows back).mapIdx
        (fun i e => e.line w (top + i) (level e.level))) where
  section_ := by
    obtain ⟨older, newer, hsplit, hnewer⟩ := Viewport.tail_split entries rows hback
    exact ⟨older, _, newer, hsplit, rfl, hnewer⟩
  length := by
    rw [List.length_mapIdx]
    exact Viewport.length_tail entries hback

namespace MainState

variable {pid : Pid} {noTui : Bool} {mounts : List String} {fds : FdTable} {m : MainState}
  {r : RunState} {e : RunEvent} {os : TuiAnswers}

/-- In every run, and whatever the size of the terminal, no frame reaches beyond the log.  The
overview shows its end, with the number of units and of processes; the tab of the log shows a
section without gaps, as many entries before the end as the user has scrolled back, or else its
beginning. -/
theorem log_display {es : List MainEvent} (hrun : (start pid noTui mounts fds).run es = some m)
    (hpoint : m.point = .running r) {s : InitSystem} (hs : s = r.maybeFixRuntimeDirs.sys.init) :
    (m.tuiTick s os).isSome = true ∧
      (∀ loaded active p lines, .overview loaded active p lines ∈ m.frames (.runs e os) →
        loaded = s.units.keys.length ∧ active = s.activeCount ∧ p = pid ∧
          ShowsLog s.journal.entries os.width 10 (os.height - 17) 0 (fun _ => none) lines) ∧
      ∀ lines, .journal lines ∈ m.frames (.runs e os) →
        ShowsLog s.journal.entries os.width 1 (os.height - 8) m.tui.scrollOffset
          (fun level => some level.label) lines := by
  subst hs
  refine ⟨?_, fun loaded active p lines hframe => ?_, fun lines hframe => ?_⟩
  · unfold tuiTick
    split_ifs
    · rw [Option.isSome_map]
      exact Tui.render_isSome _ _ _ _ _
    · rfl
  · obtain ⟨r', hpoint', t', hrender⟩ := frames_cases hframe
    obtain rfl := MainPoint.running.inj (hpoint.symm.trans hpoint')
    have hdrawn := Tui.render_overview_cases hrender
    have hrows : os.height - 6 - 11 = os.height - 17 := by omega
    rw [Tui.renderOverview_eq, hrows] at hdrawn
    obtain ⟨rfl, rfl, rfl, rfl⟩ := Frame.overview.inj hdrawn
    refine ⟨(List.length_map _).symm, rfl, (mainInv_run hrun).samePid, ?_⟩
    exact ShowsLog.tail (Int.le_refl 0) (fun _ => none)
  · obtain ⟨r', hpoint', t', hrender⟩ := frames_cases hframe
    obtain rfl := MainPoint.running.inj (hpoint.symm.trans hpoint')
    have hdrawn := Tui.render_journal_cases hrender
    have hrows : os.height - 6 - 2 = os.height - 8 := by omega
    rw [Tui.renderJournal_eq, hrows] at hdrawn
    obtain rfl := Frame.journal.inj (Option.some.inj hdrawn)
    exact ShowsLog.tail (within_run hrun hpoint).scrollOffset_nonneg (fun level => some level.label)

def srvLog : List JournalLine :=
  [{ y := 1
     colour := 5
     level := some "INF"
     source := "init"
     precision := 18
     message := "Entering main loop" }]

/-- A terminal of nine lines has room for one entry. -/
theorem log_display_sample :
    ∃ (m : MainState) (entries : List JournalEntry),
      (start 7 false [] (fun _ => none)).run (srvLook '3') = some m ∧
        ShowsLog entries 80 1 1 m.tui.scrollOffset (fun level => some level.label) srvLog := by
  have hsome : ((start 7 false [] (fun _ => none)).run (srvLook '3')).any
      (fun m => decide (.journal srvLog ∈ m.frames (.runs (.program {}) { height := 9 }))) =
        true := by
    decide +kernel
  obtain ⟨m, hm, hmem⟩ := (Option.any_eq_true _ _).mp hsome
  have hframe := of_decide_eq_true hmem
  obtain ⟨r, hpoint, -⟩ := frames_cases hframe
  exact ⟨m, _, hm, (log_display hm hpoint rfl).2.2 srvLog hframe⟩

end MainState

end TrivialInit
