import TrivialInit.Properties.UnitView

/-!
# Entries — where table entries and pending restarts come from

One inversion lemma for the entries of `processes_` after an event, and one for the entries of
`pending_restarts_`.  Every invariant about single entries follows from them.
-/

namespace TrivialInit

open InitSystem

/-! ## Starting names -/

/-- The names an event can pass to `start_service`. -/
def Event.Starts (sys : System) (name : String) : Event → Prop
  | .executeUnit name' _ => name' = name
  | .processRestarts now _ => name ∈ (sys.init.drainPendingRestarts now).1
  | _ => False

/-- The entry `start_service` makes, when the counters `counts` were stored for the unit. -/
def serviceEntry (pid : Pid) (name : String) (unit : UnitFile) (counts : Option RestartMeta) :
    TrackedProcess :=
  let tp : TrackedProcess :=
    { trackedEntry pid name (parseRestartPolicy unit.restartPolicy) with
      burstLimit := unit.restartLimitBurst
      burstIntervalS := unit.restartLimitInterval }
  tp.withCounts counts

/-- Counters that are stored for some unit, or that a pending restart carries. -/
def Stored (sys : System) (counts : RestartMeta) : Prop :=
  (∃ name, sys.init.restartCounts.lookup name = some counts) ∨
    ∃ pr ∈ sys.init.pendingRestarts, counts = pr.counts

/-! ## Table entries -/

/-- Where the entry `tp` for the child `p` of kind `kind` comes from. -/
inductive EntryOrigin (sys : System) (e : Event) (p : Pid) (kind : ChildKind)
    (tp : TrackedProcess) : Prop
  | kept (entry : sys.init.processes.lookup p = some tp) (child : sys.children.lookup p = some kind)
  | accepted (socket svc : String) (child : kind = .connection socket)
      (entry : tp = trackedEntry p svc .no)
  | started (name : String) (unit : UnitFile) (counts : Option RestartMeta)
      (child : kind = .service) (starts : e.Starts sys name)
      (loaded : System.findService sys.init name = some unit)
      (entry : tp = serviceEntry p name unit counts)
      (stored : ∀ c ∈ counts, Stored sys c)
  /-- `stop_unit` forbids the restart of the process its name points to. -/
  | stopped (name : String) (old : TrackedProcess) (event : e = .stopUnit name)
      (named : sys.init.unitToPid.lookup name = some p)
      (oldEntry : sys.init.processes.lookup p = some old)
      (child : sys.children.lookup p = some kind) (oldName : old.unitName = name)
      (entry : tp = { old with restartPolicy := .no })

section Origins

variable {sys sys' : System} {p : Pid} {kind : ChildKind} {tp : TrackedProcess}

theorem entry_of_startService {name : String} {unit : UnitFile} {os : StartAnswers}
    (hstart : sys.startService name unit os = some sys')
    (htp : sys'.init.processes.lookup p = some tp) (hkind : sys'.children.lookup p = some kind) :
    (sys.init.processes.lookup p = some tp ∧ sys.children.lookup p = some kind) ∨
      (kind = .service ∧ tp = serviceEntry p name unit (sys.init.restartCounts.lookup name)) := by
  rcases System.startService_cases hstart with hfailed | ⟨pid, hstarted⟩
  · rw [hfailed.tables.processes] at htp
    rw [hfailed.children] at hkind
    exact Or.inl ⟨htp, hkind⟩
  · rw [hstarted.lookup_processes] at htp
    rw [hstarted.children, UnorderedMap.lookup_insert_eq] at hkind
    split_ifs at htp hkind with heq
    · subst heq
      exact Or.inr ⟨(Option.some.inj hkind).symm, (Option.some.inj htp).symm⟩
    · exact Or.inl ⟨htp, hkind⟩

theorem stored_of_drained {now : TimePoint} {name : String} {counts : RestartMeta}
    (hcounts : (sys.init.drainPendingRestarts now).2.restartCounts.lookup name = some counts) :
    Stored sys counts := by
  rw [restartCounts_drained] at hcounts
  cases hlast : ((pendingOf sys.init name).filter (PendingRestart.isDue now)).getLast? with
  | none =>
      rw [hlast] at hcounts
      exact Or.inl ⟨name, hcounts⟩
  | some pr =>
      rw [hlast] at hcounts
      have hmem := List.mem_of_mem_filter (List.mem_filter.mp (List.mem_of_getLast? hlast)).1
      exact Or.inr ⟨pr, hmem, (Option.some.inj hcounts).symm⟩

/-- A start hands its stored counters on and keeps the others. -/
theorem restartCounts_of_startService {name : String} {unit : UnitFile} {os : StartAnswers}
    (hstart : sys.startService name unit os = some sys') {m : String} {counts : RestartMeta}
    (hcounts : sys'.init.restartCounts.lookup m = some counts) :
    sys.init.restartCounts.lookup m = some counts := by
  rcases System.startService_cases hstart with hfailed | ⟨pid, hstarted⟩
  · rw [hfailed.tables.restartCounts] at hcounts
    exact hcounts
  · rw [hstarted.restartCounts, UnorderedMap.lookup_erase_eq] at hcounts
    split_ifs at hcounts with heq
    exact hcounts

theorem origin_of_processRestarts {now : TimePoint} {os : Nat → StartAnswers}
    (hstep : sys.step (.processRestarts now os) = some sys') :
    (∀ name counts, sys'.init.restartCounts.lookup name = some counts → Stored sys counts) ∧
      ∀ p kind tp, sys'.init.processes.lookup p = some tp → sys'.children.lookup p = some kind →
        EntryOrigin sys (.processRestarts now os) p kind tp := by
  rcases System.processRestarts_cases hstep with ⟨-, hrun⟩
  -- The state after the drain is the reference: names come from its list, counters from its maps.
  let Inv (ready : List String) (sys₁ : System) : Prop :=
    (∀ name ∈ ready, name ∈ (sys.init.drainPendingRestarts now).1) ∧
    (∀ name counts, sys₁.init.restartCounts.lookup name = some counts → Stored sys counts) ∧
    sys₁.init.units = sys.init.units ∧
    ∀ p kind tp, sys₁.init.processes.lookup p = some tp → sys₁.children.lookup p = some kind →
      EntryOrigin sys (.processRestarts now os) p kind tp
  have hinv : Inv [] sys' := by
    refine System.restartAll_invariant Inv ?_ ?_ ?_ ⟨fun _ h => h, ?_, ?_, ?_⟩ hrun
    · rintro ready sys₁ sys₂ ⟨hnames, hstored, hunits, horigin⟩ hsame
      refine ⟨hnames, ?_, hsame.tables.units.trans hunits, ?_⟩
      · rw [hsame.tables.restartCounts]
        exact hstored
      · rw [hsame.tables.processes, hsame.children]
        exact horigin
    · rintro name rest sys₁ ⟨hnames, hrest⟩ -
      exact ⟨fun name' h => hnames name' (List.mem_cons_of_mem name h), hrest⟩
    · rintro name rest sys₁ sys₂ unit os' ⟨hnames, hstored, hunits, horigin⟩ hfind hstart
      refine ⟨fun name' h => hnames name' (List.mem_cons_of_mem name h), ?_,
        (units_of_startService hstart).trans hunits, ?_⟩
      · intro name' counts hcounts
        exact hstored name' counts (restartCounts_of_startService hstart hcounts)
      · intro p kind tp htp hkind
        rcases entry_of_startService hstart htp hkind with ⟨htp, hkind⟩ | ⟨hkind, htp⟩
        · exact horigin p kind tp htp hkind
        · exact .started name unit _ hkind (hnames name (by simp))
            ((findService_of_units hunits name).symm.trans hfind) htp
            (fun c hc => hstored name c hc)
    · exact fun name counts hcounts => stored_of_drained hcounts
    · exact units_of_drained now
    · intro p kind tp htp hkind
      rw [drainPendingRestarts_eq] at htp
      exact .kept htp hkind
  exact ⟨hinv.2.1, hinv.2.2.2⟩

theorem entry_of_step {e : Event} (hinv : TableInv sys) (hstep : sys.step e = some sys')
    (htp : sys'.init.processes.lookup p = some tp) (hkind : sys'.children.lookup p = some kind) :
    EntryOrigin sys e p kind tp := by
  cases e with
  | executeUnit name os =>
      rcases System.executeUnit_cases hstep with hsame | ⟨unit, hfind, hstart⟩
      · rw [hsame.tables.processes] at htp
        rw [hsame.children] at hkind
        exact .kept htp hkind
      · rcases entry_of_startService hstart htp hkind with ⟨htp, hkind⟩ | ⟨hkind, htp⟩
        · exact .kept htp hkind
        · exact .started name unit _ hkind rfl hfind htp (fun c hc => Or.inl ⟨name, hc⟩)
  | reaped pid status now =>
      have hreaped := System.reaped_cases hstep
      rw [hreaped.lookup_processes] at htp
      split_ifs at htp with heq
      rw [hreaped.children, UnorderedMap.lookup_erase_eq, if_neg heq] at hkind
      exact .kept htp hkind
  | acceptReady listenFd os =>
      rcases System.acceptReady_cases hstep with ⟨-, hnone | ⟨socket, svc, pid, hacc⟩⟩
      · rw [hnone.processes] at htp
        rw [hnone.children] at hkind
        exact .kept htp hkind
      · rw [hacc.lookup_processes] at htp
        rw [hacc.children, UnorderedMap.lookup_insert_eq] at hkind
        split_ifs at htp hkind with heq
        · subst heq
          exact .accepted socket svc (Option.some.inj hkind).symm (Option.some.inj htp).symm
        · exact .kept htp hkind
  | processRestarts now os => exact (origin_of_processRestarts hstep).2 p kind tp htp hkind
  | drainPendingRestarts now =>
      rcases System.drain_cases hstep with ⟨-, rfl⟩
      rw [drainPendingRestarts_eq] at htp
      exact .kept htp hkind
  | stopUnit name =>
      rw [(System.stop_cases hstep).2.1] at hkind
      rw [System.lookup_processes_of_stop hstep] at htp
      split_ifs at htp with hname
      · rcases Option.map_eq_some_iff.mp htp with ⟨old, hold, hold'⟩
        -- `stop_unit` looks the process up by name, and the table says that it carries this name.
        rcases hinv.named name p hname with ⟨tp₀, htp₀, hunit⟩
        rw [hold] at htp₀
        obtain rfl := Option.some.inj htp₀
        exact .stopped name old rfl hname hold hkind hunit hold'.symm
      · exact .kept htp hkind
  | queueRestart name now =>
      rcases System.queue_cases hstep with ⟨-, rfl⟩
      exact .kept htp hkind
  | adopt pid =>
      rcases System.adopt_cases hstep with ⟨hfresh, rfl⟩
      rw [UnorderedMap.lookup_insert_eq] at hkind
      split_ifs at hkind with heq
      · subst heq
        -- An adopted PID is not in the table, which holds children of the kernel only.
        have htracked := (hinv.tracked p).mp (UnorderedMap.mem_of_lookup htp)
        rcases htracked with ⟨kind', hkind', -⟩
        exact absurd (UnorderedMap.mem_of_lookup hkind') hfresh
      · exact .kept htp hkind

/-! ## Pending restarts and stored counters -/

theorem pending_of_step {e : Event} {pr : PendingRestart} (hstep : sys.step e = some sys')
    (hpr : pr ∈ sys'.init.pendingRestarts) :
    pr ∈ sys.init.pendingRestarts ∨
      (∃ name now, e = .queueRestart name now ∧ pr.unitName = name ∧ pr.burstCount = 0) ∨
      ∃ pid status now tp, e = .reaped pid status now ∧
        sys.init.processes.lookup pid = some tp ∧ pr ∈ (exitOutcome tp status now).pending := by
  cases e with
  | executeUnit name os =>
      rcases System.executeUnit_cases hstep with hsame | ⟨unit, -, hstart⟩
      · rw [hsame.tables.pendingRestarts] at hpr
        exact Or.inl hpr
      · rw [pendingRestarts_of_startService hstart] at hpr
        exact Or.inl hpr
  | reaped pid status now =>
      have hreaped := System.reaped_cases hstep
      cases htp : sys.init.processes.lookup pid with
      | none =>
          rw [hreaped.pendingRestarts_of_untracked htp] at hpr
          exact Or.inl hpr
      | some tp =>
          rw [hreaped.pendingRestarts htp] at hpr
          rcases List.mem_append.mp hpr with hold | hnew
          · exact Or.inl hold
          · exact Or.inr (Or.inr ⟨pid, status, now, tp, rfl, htp, hnew⟩)
  | acceptReady listenFd os =>
      rcases System.acceptReady_cases hstep with ⟨-, hnone | ⟨socket, svc, pid, hacc⟩⟩
      · rw [hnone.pendingRestarts] at hpr
        exact Or.inl hpr
      · rw [hacc.pendingRestarts] at hpr
        exact Or.inl hpr
  | processRestarts now os =>
      rw [pendingRestarts_of_processRestarts hstep, drainPendingRestarts_eq] at hpr
      exact Or.inl (List.mem_of_mem_filter hpr)
  | drainPendingRestarts now =>
      rcases System.drain_cases hstep with ⟨-, rfl⟩
      rw [drainPendingRestarts_eq] at hpr
      exact Or.inl (List.mem_of_mem_filter hpr)
  | stopUnit name =>
      rw [(System.stop_cases hstep).1.pendingRestarts] at hpr
      exact Or.inl hpr
  | queueRestart name now =>
      rcases System.queue_cases hstep with ⟨-, rfl⟩
      rcases List.mem_append.mp hpr with hold | hnew
      · exact Or.inl hold
      · rw [List.mem_singleton.mp hnew]
        exact Or.inr (Or.inl ⟨name, now, rfl, rfl, rfl⟩)
  | adopt pid =>
      rcases System.adopt_cases hstep with ⟨-, rfl⟩
      exact Or.inl hpr

theorem stored_of_step {e : Event} {name : String} {counts : RestartMeta}
    (hstep : sys.step e = some sys')
    (hcounts : sys'.init.restartCounts.lookup name = some counts) : Stored sys counts := by
  cases e with
  | executeUnit name' os =>
      rcases System.executeUnit_cases hstep with hsame | ⟨unit, -, hstart⟩
      · rw [hsame.tables.restartCounts] at hcounts
        exact Or.inl ⟨name, hcounts⟩
      · exact Or.inl ⟨name, restartCounts_of_startService hstart hcounts⟩
  | reaped pid status now =>
      rw [(System.reaped_cases hstep).restartCounts] at hcounts
      exact Or.inl ⟨name, hcounts⟩
  | acceptReady listenFd os =>
      rcases System.acceptReady_cases hstep with ⟨-, hnone | ⟨socket, svc, pid, hacc⟩⟩
      · rw [hnone.restartCounts] at hcounts
        exact Or.inl ⟨name, hcounts⟩
      · rw [hacc.restartCounts] at hcounts
        exact Or.inl ⟨name, hcounts⟩
  | processRestarts now os => exact (origin_of_processRestarts hstep).1 name counts hcounts
  | drainPendingRestarts now =>
      rcases System.drain_cases hstep with ⟨-, rfl⟩
      exact stored_of_drained hcounts
  | stopUnit name' =>
      rw [(System.stop_cases hstep).1.restartCounts] at hcounts
      exact Or.inl ⟨name, hcounts⟩
  | queueRestart name' now =>
      rcases System.queue_cases hstep with ⟨-, rfl⟩
      exact Or.inl ⟨name, hcounts⟩
  | adopt pid =>
      rcases System.adopt_cases hstep with ⟨-, rfl⟩
      exact Or.inl ⟨name, hcounts⟩

end Origins

end TrivialInit
