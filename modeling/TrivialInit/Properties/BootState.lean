import TrivialInit.Properties.BoundDescriptors
import TrivialInit.Properties.ProcessTable
import TrivialInit.Run

/-!
# BootState — what the phases before `execute(UnitExecute)` leave

`execute(SocketBind)` writes the journal, the descriptor table and `socket_units_`, and
`execute(DependencyResolve)` writes the journal and `exec_order_`.  So the main program starts with
empty process tables.
-/

namespace TrivialInit

open InitSystem

/-! ## The bind phase -/

/-- Nothing but the journal, the descriptor table and the socket units differs. -/
def SameButSockets (s s' : InitSystem) : Prop :=
  ∃ socketUnits, SameTables { s with socketUnits := socketUnits } s'

theorem sameButSockets_of_sameTables {s s' : InitSystem} (h : SameTables s s') :
    SameButSockets s s' :=
  ⟨s.socketUnits, h⟩

theorem sameButSockets_store {s s' : InitSystem} (h : SameTables s s')
    (socketUnits : UnorderedMap String SocketUnit) :
    SameButSockets s { s' with socketUnits := socketUnits } := by
  obtain ⟨journal, fds, forks, dirs, rfl⟩ := h
  exact ⟨socketUnits, journal, fds, forks, dirs, rfl⟩

theorem SameButSockets.trans {s s' s'' : InitSystem} (h : SameButSockets s s')
    (h' : SameButSockets s' s'') : SameButSockets s s'' := by
  obtain ⟨socketUnits, journal, fds, forks, dirs, rfl⟩ := h
  obtain ⟨socketUnits', journal', fds', forks', dirs', rfl⟩ := h'
  exact ⟨socketUnits', journal', fds', forks', dirs', rfl⟩

theorem bindEntry_tables (sock : SocketUnit) (os : BindAnswers) (le : ListenEntry) (t : Traced) :
    SameTables t.init (bindEntry sock os le t).2.init := by
  unfold bindEntry
  split_ifs
  · exact SameTables.refl _
  · generalize createAndBind sock le os _ = r
    obtain ⟨_ | fd, k⟩ := r
    · exact ⟨_, k.fds, _, _, rfl⟩
    · exact ⟨_, k.fds.setCloexec fd true, _, _, rfl⟩

theorem bindEntries_tables (sock : SocketUnit) (os : Nat → BindAnswers) (listen : List ListenEntry)
    (t : Traced) : SameTables t.init (bindEntries sock os listen t).2.init := by
  induction listen generalizing os t with
  | nil => exact SameTables.refl _
  | cons le rest ih => exact (bindEntry_tables sock (os 0) le t).trans (ih _ _)

theorem bindUnit_tables (os : SocketBindAnswers) (acc : Traced × Nat) (name : String)
    (unit : UnitFile) : SameButSockets acc.1.init (bindUnit os acc name unit).1.init := by
  unfold bindUnit
  dsimp only
  split_ifs
  · exact sameButSockets_of_sameTables (SameTables.refl _)
  · exact sameButSockets_of_sameTables (sameTables_log _ _ _ _)
  · exact sameButSockets_store (sameTables_log _ _ _ _) _
  · exact sameButSockets_store (bindEntries_tables _ _ _ _) _

theorem executeSocketBind_tables (s : InitSystem) (os : SocketBindAnswers) :
    SameButSockets s (s.executeSocketBind os).1 := by
  have hstart : SameButSockets s
      (({ init := s.log .info "socket" "Binding socket units" }, 0) : Traced × Nat).1.init :=
    sameButSockets_of_sameTables (sameTables_log _ _ _ _)
  have hbound := List.foldlRecOn
    (motive := fun acc : Traced × Nat => SameButSockets s acc.1.init)
    (s.log .info "socket" "Binding socket units").units.entries
    (fun acc e => bindUnit os acc e.1 e.2) hstart
    (fun acc hacc e _ => hacc.trans (bindUnit_tables os acc e.1 e.2))
  exact hbound.trans (sameButSockets_of_sameTables (sameTables_log _ _ _ _))

/-! ## Both phases -/

theorem executeDependencyResolve_tables (s : InitSystem) (inDegreeOrder : List String) :
    SameTables { s with execOrder := (resolveOrder s.units inDegreeOrder).order }
      (s.executeDependencyResolve inDegreeOrder) := by
  unfold executeDependencyResolve
  dsimp only
  split_ifs
  · exact ⟨_, s.fds, _, _, rfl⟩
  · exact ⟨_, s.fds, _, _, rfl⟩

/-- The tables of an object that has gone through both phases. -/
theorem boundAndResolved_tables (s : InitSystem) (os : SocketBindAnswers)
    (inDegreeOrder : List String) :
    SameTables
      { s with
        socketUnits := (s.executeSocketBind os).1.socketUnits
        execOrder := (resolveOrder s.units inDegreeOrder).order }
      (s.boundAndResolved os inDegreeOrder) := by
  obtain ⟨socketUnits, journal, fds, forks, dirs, hbind⟩ := executeSocketBind_tables s os
  have hresolve := executeDependencyResolve_tables (s.executeSocketBind os).1 inDegreeOrder
  unfold boundAndResolved
  rw [hbind] at hresolve ⊢
  obtain ⟨journal', fds', forks', dirs', hresolve⟩ := hresolve
  exact ⟨journal', fds', forks', dirs', hresolve⟩

/-- The process tables are empty when the first unit is started. -/
theorem parsed_tableInv (journal : Journal) (units : UnorderedMap String UnitFile) (fds : FdTable)
    (os : SocketBindAnswers) (inDegreeOrder : List String) :
    TableInv { init := (parsed journal units fds).boundAndResolved os inDegreeOrder } := by
  have htables := boundAndResolved_tables (parsed journal units fds) os inDegreeOrder
  have hempty : TableInv { init := parsed journal units fds } :=
    ⟨by simp [parsed], by simp [parsed], by simp [parsed], by simp [parsed]⟩
  exact hempty.congr htables.processes htables.unitToPid htables.exitCallbacks rfl

end TrivialInit
