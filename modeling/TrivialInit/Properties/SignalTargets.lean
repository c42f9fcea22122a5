import TrivialInit.Properties.ShutdownProgress

/-!
# SignalTargets — who gets `SIGTERM` and `SIGKILL`

`stop_unit` signals what `unit_to_pid_` says, and the end of `run` kills what `processes_` still
holds.  `TableInv` makes both of them children that were tracked and not reaped yet, so no signal
reaches a PID the kernel has given to another process (`RunState.signal_targets`); and a tracked
child that outlives the shutdown wait has been killed (`RunState.no_survivor`).
-/

namespace TrivialInit

open InitSystem

namespace RunPoint

/-- Behind the loop that sends `SIGKILL`. -/
def afterKill : RunPoint → Bool
  | .polled _ poll => decide (poll = .last)
  | .draining _ poll => decide (poll = .last)
  | .reaping _ poll => decide (poll = .last)
  | .returned => true
  | _ => false

@[simp] theorem afterKill_startedFrom (back : StartedFrom) : back.point.afterKill = false := by
  cases back <;> rfl

end RunPoint

namespace RunState

variable {m m' : RunState} {a : RunAnswer}

/-- The processes the end of the shutdown wait sends `SIGKILL` to. -/
def sigkills (m : RunState) : RunEvent → List Pid
  | .program _ =>
      match m.point with
      | .awaiting i => if i < 50 ∧ 0 < m.sys.init.activeCount then [] else m.sys.init.processes.keys
      | _ => []
  | _ => []

theorem mem_processes_of_sigterms (hinv : RunInv m) {e : RunEvent} {p : Pid}
    (hp : p ∈ m.sigterms e) : p ∈ m.sys.init.processes := by
  cases e with
  | program a =>
      simp only [sigterms] at hp
      split at hp
      · have hlookup := Option.mem_toList.mp hp
        obtain ⟨tp, htp, -⟩ := hinv.table.named _ p hlookup
        exact UnorderedMap.mem_of_lookup htp
      · cases hp
  | _ => cases hp

theorem mem_processes_of_sigkills {e : RunEvent} {p : Pid} (hp : p ∈ m.sigkills e) :
    p ∈ m.sys.init.processes := by
  cases e with
  | program a =>
      simp only [sigkills] at hp
      split at hp
      · split_ifs at hp
        · cases hp
        · exact hp
      · cases hp
  | _ => cases hp

/-- Whatever has happened: a process that is sent `SIGTERM` or `SIGKILL` is a service or a
connection `init` has forked itself, and it has not been reaped, so its PID is still its own. -/
theorem signal_targets (journal : Journal) (units : UnorderedMap String UnitFile) (fds : FdTable)
    (os : SocketBindAnswers) (inDegreeOrder : List String) {es : List RunEvent}
    (hrun : (RunState.boot
      ((parsed journal units fds).boundAndResolved os inDegreeOrder)).run es = some m)
    (e : RunEvent) {p : Pid} (hp : p ∈ m.sigterms e ++ m.sigkills e) :
    p ∈ m.procs ∧ (∃ tp, m.sys.init.processes.lookup p = some tp ∧ tp.pid = p) ∧
      ∃ kind, m.sys.children.lookup p = some kind ∧ kind.isTracked = true := by
  have hinv := (RunInv.boot (parsed_tableInv journal units fds os inDegreeOrder)).run hrun
  have hmem : p ∈ m.sys.init.processes := by
    rcases List.mem_append.mp hp with hterm | hkill
    · exact mem_processes_of_sigterms hinv hterm
    · exact mem_processes_of_sigkills hkill
  obtain ⟨tp, htp⟩ := UnorderedMap.exists_lookup hmem
  obtain ⟨kind, hkind, htracked⟩ := (hinv.table.tracked p).mp hmem
  have hknown := (hinv.known p).mpr (Or.inl (UnorderedMap.mem_of_lookup hkind))
  exact ⟨hknown, ⟨tp, htp, (hinv.table.entry p tp htp).1⟩, kind, hkind, htracked⟩

theorem signal_targets_sample :
    ∃ m, databaseBoot.run (databaseRun ++ [.program {}]) = some m ∧
      m.sigterms (.program {}) = [200] ∧ 200 ∈ m.procs ∧
      m.sys.children.lookup 200 = some .service := by
  have hsome : (databaseBoot.run (databaseRun ++ [.program {}])).any (fun m =>
      decide (m.sigterms (.program {}) = [200]) &&
        decide (m.sys.children.lookup 200 = some .service)) = true := by
    decide +kernel
  obtain ⟨m, hm, hall⟩ := (Option.any_eq_true _ _).mp hsome
  simp only [Bool.and_eq_true, decide_eq_true_eq] at hall
  obtain ⟨hterm, hkind⟩ := hall
  have htarget := signal_targets {} databaseUnits (fun _ => none) oneDescriptor
    ["web.service", "db.service"] hm (.program {}) (p := 200)
    (List.mem_append_left _ (by simp [hterm]))
  exact ⟨m, hm, hterm, htarget.1, hkind⟩

/-! ## Nobody survives -/

theorem programStep_processes (hinv : RunInv m) (h : m.programStep a = some m')
    (htrack : m.point.toTrack = none) {p : Pid} (hp : p ∈ m'.sys.init.processes) :
    p ∈ m.sys.init.processes := by
  have heffect := programStep_effect hinv.will h
  cases heffect with
  | quiet sys chowned point hsys => exact (hsys.mem_processes hinv.table p).mp hp
  | read signal sys shutdown point hpending hsys =>
      exact (hsys.mem_processes hinv.table p).mp hp
  | tracked pid kind sys point hsys hhand => simp [htrack] at hhand
  | reaped pid status sys hchild hexited hsys =>
      rw [hsys.processes] at hp
      exact (AList.mem_erase.mp hp).2
  | _ => exact hp

theorem afterKill_step (hafter : m.point.afterKill = true) (h : m.programStep a = some m') :
    m'.point.afterKill = true := by
  have hcases := programStep_cases h
  generalize hpoint : m.point = point at hcases hafter
  cases hcases with
  | returns => rfl
  | signalled => exact hafter
  | skipsDescriptor hpoll => exact hafter
  | noSignal hpending => exact hafter
  | readsChld hpending => exact hafter
  | readsShutdown hpending hsignal => exact (congrArg RunPoint.afterKill hpoint).trans hafter
  | readsUsr1 hpending => exact (congrArg RunPoint.afterKill hpoint).trans hafter
  | noChild hchild hnone => exact hafter
  | reaps hchild hexited hsys => exact (congrArg RunPoint.afterKill hpoint).trans hafter
  | _ => nomatch hafter

/-- The way behind the loop that sends `SIGKILL` leads through it. -/
theorem enters_afterKill (hbefore : m.point.afterKill = false) (h : m.programStep a = some m') :
    (m'.point.afterKill = false ∧ m.sigkills (.program a) = []) ∨
      (m'.point.afterKill = true ∧ m'.sys = m.sys ∧
        m.sigkills (.program a) = m.sys.init.processes.keys) := by
  have hcases := programStep_cases h
  unfold sigkills
  generalize hpoint : m.point = point at hcases hbefore
  cases hcases with
  | awaits hpoll =>
      obtain ⟨events, -, hnext⟩ := awaiting_cases hpoint h
      rw [hnext]
      dsimp only
      split_ifs with hwait
      · exact Or.inl ⟨rfl, rfl⟩
      · exact Or.inr ⟨rfl, rfl, rfl⟩
  | notStarted htodo hpid hsys => exact Or.inl ⟨by simp, rfl⟩
  | tracks hsys => exact Or.inl ⟨by simp, rfl⟩
  | signalled => exact Or.inl ⟨hbefore, rfl⟩
  | skipsDescriptor hpoll => exact Or.inl ⟨hbefore, rfl⟩
  | noSignal hpending => exact Or.inl ⟨hbefore, rfl⟩
  | readsChld hpending => exact Or.inl ⟨hbefore, rfl⟩
  | readsShutdown hpending hsignal =>
      exact Or.inl ⟨(congrArg RunPoint.afterKill hpoint).trans hbefore, rfl⟩
  | readsUsr1 hpending =>
      exact Or.inl ⟨(congrArg RunPoint.afterKill hpoint).trans hbefore, rfl⟩
  | noChild hchild hnone => exact Or.inl ⟨hbefore, rfl⟩
  | reaps hchild hexited hsys =>
      exact Or.inl ⟨(congrArg RunPoint.afterKill hpoint).trans hbefore, rfl⟩
  | returns => nomatch hbefore
  | _ => exact Or.inl ⟨rfl, rfl⟩

theorem toTrack_of_afterKill {point : RunPoint} (h : point.afterKill = true) :
    point.toTrack = none := by
  cases point <;> first | rfl | nomatch h

theorem sigkills_of_afterKill (h : m.point.afterKill = true) (e : RunEvent) :
    m.sigkills e = [] := by
  cases e with
  | program a =>
      cases hpoint : m.point with
      | awaiting i => simp [hpoint, RunPoint.afterKill] at h
      | _ => simp [sigkills, hpoint]
  | _ => rfl

/-- The processes `tr` have been sent `SIGKILL`. -/
structure KillInv (tr : List Pid) (m : RunState) : Prop where
  run : RunInv m
  nodup : tr.Nodup
  before : m.point.afterKill = false → tr = []
  after : m.point.afterKill = true → ∀ p ∈ m.sys.init.processes, p ∈ tr

theorem KillInv.program {tr : List Pid} (h : KillInv tr m)
    (hstep : m.step (.program a) = some m') : KillInv (tr ++ m.sigkills (.program a)) m' := by
  have hinv := h.run.step hstep
  cases hpoint : m.point.afterKill with
  | true =>
      have hafter := afterKill_step hpoint hstep
      rw [sigkills_of_afterKill hpoint, List.append_nil]
      refine ⟨hinv, h.nodup, fun hnot => by simp [hafter] at hnot, fun _ p hp => ?_⟩
      exact h.after hpoint p
        (programStep_processes h.run hstep (toTrack_of_afterKill hpoint) hp)
  | false =>
      obtain rfl := h.before hpoint
      rw [List.nil_append]
      rcases enters_afterKill hpoint hstep with ⟨hnot, hnone⟩ | ⟨hafter, hsys, hkeys⟩
      · rw [hnone]
        exact ⟨hinv, List.nodup_nil, fun _ => rfl, fun hafter => by simp [hnot] at hafter⟩
      · rw [hkeys]
        refine ⟨hinv, m.sys.init.processes.keys_nodup, fun hnot => ?_, fun _ p hp => hsys ▸ hp⟩
        simp [hafter] at hnot

theorem KillInv.step {tr : List Pid} (h : KillInv tr m) {e : RunEvent}
    (hstep : m.step e = some m') : KillInv (tr ++ m.sigkills e) m' := by
  have hinv := h.run.step hstep
  cases e with
  | program a => exact h.program hstep
  | exits pid status =>
      obtain ⟨-, rfl⟩ := exits_cases hstep
      exact (List.append_nil tr).symm ▸ ⟨hinv, h.nodup, h.before, h.after⟩
  | adopts pid =>
      obtain ⟨-, -, rfl⟩ := adopts_cases hstep
      exact (List.append_nil tr).symm ▸ ⟨hinv, h.nodup, h.before, h.after⟩
  | raises signal =>
      obtain rfl := Option.some.inj hstep
      exact (List.append_nil tr).symm ▸ ⟨hinv, h.nodup, h.before, h.after⟩

/-- `SIGKILL` is sent to nobody twice, and when `run` has returned, every service and every
connection that has not been reaped has been sent it. -/
theorem no_survivor (journal : Journal) (units : UnorderedMap String UnitFile) (fds : FdTable)
    (os : SocketBindAnswers) (inDegreeOrder : List String) {es : List RunEvent}
    (hrun : (RunState.boot
      ((parsed journal units fds).boundAndResolved os inDegreeOrder)).run es = some m) :
    (StepRun.trace RunState.step sigkills (RunState.boot
      ((parsed journal units fds).boundAndResolved os inDegreeOrder)) es).Nodup ∧
    (m.point = .returned → ∀ p kind, m.sys.children.lookup p = some kind →
      kind.isTracked = true → p ∈ StepRun.trace RunState.step sigkills (RunState.boot
        ((parsed journal units fds).boundAndResolved os inDegreeOrder)) es) := by
  have hboot := RunInv.boot (parsed_tableInv journal units fds os inDegreeOrder)
  have hinv : KillInv (StepRun.trace RunState.step sigkills (RunState.boot
      ((parsed journal units fds).boundAndResolved os inDegreeOrder)) es) m :=
    StepRun.run_history_of_step KillInv (fun _ _ _ _ h hstep => h.step hstep)
      ⟨hboot, List.nodup_nil, fun _ => rfl, nofun⟩ hrun
  refine ⟨hinv.nodup, fun hreturned p kind hkind htracked => ?_⟩
  exact hinv.after (by rw [hreturned]; rfl) p ((hinv.run.table.tracked p).mpr ⟨kind, hkind, htracked⟩)

/-- The run of the two services to its end; neither of them exits. -/
def databaseShutdown : List RunEvent :=
  databaseRun ++ List.replicate 106 (.program {})

theorem no_survivor_sample :
    ∃ m, databaseBoot.run databaseShutdown = some m ∧
      (StepRun.trace RunState.step sigkills databaseBoot databaseShutdown).Nodup ∧
      100 ∈ StepRun.trace RunState.step sigkills databaseBoot databaseShutdown := by
  have hsome : (databaseBoot.run databaseShutdown).any (fun m =>
      (match m.point with
        | .returned => true
        | _ => false) &&
        decide (m.sys.children.lookup 100 = some .service)) = true := by
    decide +kernel
  obtain ⟨m, hm, hall⟩ := (Option.any_eq_true _ _).mp hsome
  obtain ⟨hpoint, hkind⟩ := (Bool.and_eq_true _ _).mp hall
  have hreturned : m.point = .returned := by
    split at hpoint
    · assumption
    · nomatch hpoint
  obtain ⟨hnodup, hkilled⟩ := no_survivor {} databaseUnits (fun _ => none) oneDescriptor
    ["web.service", "db.service"] hm
  exact ⟨m, hm, hnodup, hkilled hreturned 100 .service (of_decide_eq_true hkind) rfl⟩

end RunState

end TrivialInit
