import Mathlib.Data.Finset.Card
import TrivialInit.Properties.RunEffects

/-!
# ExitAccounting — no child exit is lost or handled twice

Several exits raise `SIGCHLD` once, and an exit may fall between the `read` that takes the signal
and the last `waitpid`.  `RunInv.wake` says what holds at every point: outside the loop of
`reap_children` an exited child that has not been reaped means that `SIGCHLD` is pending.  So
`drain_signals`, which ends only when no signal is pending, leaves no exited child behind.
-/

namespace TrivialInit

open InitSystem

namespace RunPoint

theorem inHand_of_inDrain {point : RunPoint} (h : point.inDrain = true) : point.inHand = none := by
  cases point <;> first | rfl | nomatch h

theorem inHand_of_toTrack {point : RunPoint} {pid : Pid} (h : point.toTrack = some pid) :
    point.inHand = some pid := by
  cases point <;> first | exact h | nomatch h

theorem inDrain_of_inReap {point : RunPoint} (h : point.inReap = true) : point.inDrain = true := by
  cases point <;> first | rfl | nomatch h

end RunPoint

/-! ## The invariant -/

structure RunInv (m : RunState) : Prop where
  table : TableInv m.sys
  known : ∀ p, p ∈ m.procs ↔ p ∈ m.sys.children ∨ m.point.inHand = some p
  fresh : ∀ p, m.point.inHand = some p → p ∉ m.sys.children
  will : m.WillTrack
  wake : m.point.inReap = false → ∀ p, m.Exited p → .chld ∈ m.pending

theorem RunState.willTrack_of_inHand {m : RunState} (h : m.point.inHand = none) : m.WillTrack := by
  unfold WillTrack
  split <;> first | trivial | simp_all [RunPoint.inHand]

/-- Without a child in hand the children are those the tables know. -/
theorem RunInv.of_noHand {m : RunState} (htable : TableInv m.sys) (hhand : m.point.inHand = none)
    (hknown : ∀ p, p ∈ m.procs ↔ p ∈ m.sys.children)
    (hwake : m.point.inReap = false → ∀ p, m.Exited p → .chld ∈ m.pending) : RunInv m where
  table := htable
  known := by simpa [hhand] using hknown
  fresh := by simp [hhand]
  will := RunState.willTrack_of_inHand hhand
  wake := hwake

theorem RunInv.mem_procs_iff {m : RunState} (h : RunInv m) (hhand : m.point.inHand = none)
    (p : Pid) : p ∈ m.procs ↔ p ∈ m.sys.children := by
  simpa [hhand] using h.known p

/-- After a boot no child is known. -/
theorem RunInv.boot {s : InitSystem} (h : TableInv { init := s }) :
    RunInv (RunState.boot s) := by
  refine .of_noHand h rfl ?_ ?_
  · intro p
    simp [RunState.boot]
  · rintro - p ⟨status, hstatus⟩
    simp [RunState.boot] at hstatus

/-! ## Changes of the exited children -/

namespace RunState

variable {m m' : RunState} {pid p : Pid}

theorem exited_forked (hfresh : pid ∉ m.procs) (hprocs : m'.procs = m.procs.insert pid none) :
    m'.Exited p ↔ m.Exited p := by
  unfold Exited
  simp only [hprocs, UnorderedMap.lookup_insert_eq]
  by_cases heq : p = pid
  · subst heq
    simp [AList.lookup_eq_none.mpr hfresh]
  · simp [heq]

theorem exited_exits {status : WaitStatus} (hprocs : m'.procs = m.procs.insert pid (some status)) :
    m'.Exited p ↔ p = pid ∨ m.Exited p := by
  unfold Exited
  simp only [hprocs, UnorderedMap.lookup_insert_eq]
  by_cases heq : p = pid
  · simp [heq]
  · simp [heq]

theorem exited_erased (hprocs : m'.procs = m.procs.erase pid) :
    m'.Exited p ↔ p ≠ pid ∧ m.Exited p := by
  unfold Exited
  simp only [hprocs, UnorderedMap.lookup_erase_eq]
  by_cases heq : p = pid
  · simp [heq]
  · simp [heq]

end RunState

namespace RunInv

variable {m m' : RunState}

/-- A child in hand is not tracked yet. -/
theorem notMem_processes (h : RunInv m) {p : Pid} (hp : m.point.inHand = some p) :
    p ∉ m.sys.init.processes :=
  h.table.notMem_processes (h.fresh p hp)

theorem program (h : RunInv m) {a : RunAnswer} (heffect : ProgramEffect m a m') : RunInv m' := by
  cases heffect with
  | quiet sys chowned point hsys hhand hhand' hdrain hreap =>
      refine .of_noHand (hsys.tableInv h.table) hhand' ?_ ?_
      · intro p
        rw [hsys.children, h.mem_procs_iff hhand]
      · exact fun _ => h.wake (RunPoint.inReap_of_not_inDrain hdrain)
  | forked pid point hfresh hhand hhand' hdrain hdrain' hwill =>
      refine ⟨h.table, ?_, ?_, hwill, ?_⟩
      · intro p
        simp [hhand', h.mem_procs_iff hhand, eq_comm, or_comm]
      · intro p hp
        obtain rfl : pid = p := Option.some.inj (hhand'.symm.trans hp)
        exact fun hmem => hfresh ((h.known pid).mpr (Or.inl hmem))
      · intro _ p hp
        exact h.wake (RunPoint.inReap_of_not_inDrain hdrain) p
          ((RunState.exited_forked hfresh rfl).mp hp)
  | tracked pid kind sys point hsys hhand hhand' hdrain hdrain' =>
      refine .of_noHand (hsys.tableInv h.table) hhand' ?_ ?_
      · intro p
        rw [h.known p, RunPoint.inHand_of_toTrack hhand]
        simp [hsys.children, eq_comm, or_comm]
      · exact fun _ => h.wake (RunPoint.inReap_of_not_inDrain hdrain)
  | waited pid status point hexited hhand htrack hhand' hdrain hdrain' =>
      refine .of_noHand h.table hhand' ?_ ?_
      · intro p
        have hfresh := h.fresh pid hhand
        simp only [AList.mem_erase, h.known p, hhand, Option.some.injEq]
        constructor
        · rintro ⟨hne, hmem | heq⟩
          · exact hmem
          · exact absurd heq.symm hne
        · intro hmem
          refine ⟨?_, Or.inl hmem⟩
          rintro rfl
          exact hfresh hmem
      · intro _ p hp
        exact h.wake (RunPoint.inReap_of_not_inDrain hdrain) p
          ((RunState.exited_erased rfl).mp hp).2
  | read signal sys shutdown point hpending hsys hdrain hreap hdrain' hreap' =>
      refine .of_noHand (hsys.tableInv h.table) (RunPoint.inHand_of_inDrain hdrain') ?_ ?_
      · intro p
        rw [hsys.children, h.mem_procs_iff (RunPoint.inHand_of_inDrain hdrain)]
      · -- Only `SIGCHLD` is lost by its `read`, and then the children are reaped next.
        intro hnot p hp
        refine Finset.mem_erase.mpr ⟨?_, h.wake hreap p hp⟩
        rintro rfl
        simp [hreap'.mpr rfl] at hnot
  | drained point hpending hdrain hreap hhand' hdrain' =>
      exact .of_noHand h.table hhand' (h.mem_procs_iff (RunPoint.inHand_of_inDrain hdrain))
        (fun _ => h.wake hreap)
  | reaped pid status sys hchild hexited hsys hreap =>
      have hhand := RunPoint.inHand_of_inDrain (RunPoint.inDrain_of_inReap hreap)
      refine .of_noHand (h.table.reaped hsys) hhand ?_ ?_
      · intro p
        simp [hsys.children, h.mem_procs_iff hhand]
      · intro hnot
        simp [hreap] at hnot
  | reapedAll point hchild hnone hreap hdrain' hreap' =>
      have hhand := RunPoint.inHand_of_inDrain (RunPoint.inDrain_of_inReap hreap)
      refine .of_noHand h.table (RunPoint.inHand_of_inDrain hdrain') (h.mem_procs_iff hhand) ?_
      -- An exit after the last `waitpid` raises the signal again.
      exact fun _ p hp => absurd hp (hnone p)

theorem exits (h : RunInv m) {pid : Pid} {status : WaitStatus}
    (hstep : m.step (.exits pid status) = some m') : RunInv m' := by
  obtain ⟨hrunning, rfl⟩ := RunState.exits_cases hstep
  refine ⟨h.table, ?_, h.fresh, h.will, fun _ _ _ => Finset.mem_insert_self _ _⟩
  intro p
  rw [← h.known p, AList.mem_insert]
  constructor
  · rintro (rfl | hp)
    · exact UnorderedMap.mem_of_lookup hrunning
    · exact hp
  · exact Or.inr

theorem adopts (h : RunInv m) {pid : Pid} (hstep : m.step (.adopts pid) = some m') :
    RunInv m' := by
  obtain ⟨hfresh, hnew, rfl⟩ := RunState.adopts_cases hstep
  refine ⟨h.table.adopted hnew, ?_, ?_, h.will, ?_⟩
  · intro p
    simp only [AList.mem_insert, h.known p, or_assoc]
  · intro p hp hmem
    rcases (AList.mem_insert _).mp hmem with rfl | hold
    · exact hfresh ((h.known p).mpr (Or.inr hp))
    · exact h.fresh p hp hold
  · intro hnot p hp
    exact h.wake hnot p ((RunState.exited_forked hfresh rfl).mp hp)

theorem step (h : RunInv m) {e : RunEvent} (hstep : m.step e = some m') : RunInv m' := by
  cases e with
  | exits pid status => exact h.exits hstep
  | adopts pid => exact h.adopts hstep
  | raises signal =>
      obtain rfl := Option.some.inj hstep
      exact ⟨h.table, h.known, h.fresh, h.will,
        fun hnot p hp => Finset.mem_insert_of_mem (h.wake hnot p hp)⟩
  | program a => exact h.program (RunState.programStep_effect h.will hstep)

theorem run (h : RunInv m) {es : List RunEvent} (hrun : m.run es = some m') : RunInv m' :=
  StepRun.run_invariant_of_step (fun _ _ _ h hstep => h.step hstep) h hrun

end RunInv

/-! ## Accounting -/

/-- What is recorded of the exits of tracked children. -/
inductive ExitRecord
  | exited (pid : Pid)
  /-- An iteration of `reap_children` found the child in the process table. -/
  | processed (pid : Pid)
  deriving DecidableEq, Repr

namespace RunState

/-- In the process table, or about to be entered. -/
def Tracked (m : RunState) (p : Pid) : Prop :=
  p ∈ m.sys.init.processes ∨ m.point.toTrack = some p

instance (m : RunState) (p : Pid) : Decidable (m.Tracked p) := by
  unfold Tracked
  infer_instance

def exitRecords (m : RunState) : RunEvent → List ExitRecord
  | .exits pid _ => if m.Tracked pid then [.exited pid] else []
  | .program a =>
      match m.point.inReap, a.child with
      | true, some pid => if pid ∈ m.sys.init.processes then [.processed pid] else []
      | _, _ => []
  | _ => []

/-- The exits of `p` that wait to be processed: one, or none. -/
def outstanding (m : RunState) (p : Pid) : Nat :=
  if m.Tracked p ∧ m.Exited p then 1 else 0

variable {m m' : RunState} {p : Pid}

theorem outstanding_congr (htracked : m'.Tracked p ↔ m.Tracked p)
    (hexited : m'.Exited p ↔ m.Exited p) : m'.outstanding p = m.outstanding p := by
  unfold outstanding
  simp only [htracked, hexited]

theorem outstanding_of_not_exited (h : ¬ m.Exited p) : m.outstanding p = 0 :=
  if_neg (fun hboth => h hboth.2)

theorem outstanding_of_not_tracked (h : ¬ m.Tracked p) : m.outstanding p = 0 :=
  if_neg (fun hboth => h hboth.1)

theorem exitRecords_of_not_inReap {a : RunAnswer} (h : m.point.inReap = false) :
    m.exitRecords (.program a) = [] := by
  simp [exitRecords, h]

end RunState

/-- The balance of one step: what exits is processed now, or waits. -/
def Balanced (m : RunState) (e : RunEvent) (m' : RunState) : Prop :=
  ∀ p, (m.exitRecords e).count (.exited p) + m.outstanding p =
    (m.exitRecords e).count (.processed p) + m'.outstanding p

namespace RunInv

variable {m m' : RunState}

theorem balanced_of_same {e : RunEvent} (hnone : m.exitRecords e = [])
    (hsame : ∀ p, m'.outstanding p = m.outstanding p) : Balanced m e m' := by
  intro p
  simp [hnone, hsame p]

theorem balanced_of_not_inReap {a : RunAnswer} (hreap : m.point.inReap = false)
    (hsame : ∀ p, m'.outstanding p = m.outstanding p) : Balanced m (.program a) m' :=
  balanced_of_same (RunState.exitRecords_of_not_inReap hreap) hsame

theorem balanced_exits {pid : Pid} {status : WaitStatus}
    (hstep : m.step (.exits pid status) = some m') : Balanced m (.exits pid status) m' := by
  obtain ⟨hrunning, hm'⟩ := RunState.exits_cases hstep
  have htracked : ∀ p, m'.Tracked p ↔ m.Tracked p := by
    subst hm'
    exact fun _ => Iff.rfl
  have hexited : ∀ p, m'.Exited p ↔ p = pid ∨ m.Exited p := by
    subst hm'
    exact fun _ => RunState.exited_exits rfl
  have hnot : ¬ m.Exited pid := by
    rintro ⟨status', hstatus⟩
    simp [hrunning] at hstatus
  intro p
  by_cases heq : p = pid
  · subst heq
    by_cases hmem : m.Tracked p
    · simp [RunState.exitRecords, RunState.outstanding, htracked, hexited, hmem, hnot]
    · simp [RunState.exitRecords, RunState.outstanding, htracked, hmem]
  · have hother : pid ≠ p := fun h => heq h.symm
    rw [RunState.outstanding_congr (htracked p) (by simp [hexited, heq])]
    by_cases hmem : m.Tracked pid
    · simp [RunState.exitRecords, hmem, hother]
    · simp [RunState.exitRecords, hmem]

/-- The new child has not exited. -/
theorem outstanding_forked {pid : Pid} {point : RunPoint} (hfresh : pid ∉ m.procs)
    (hhand : m.point.inHand = none) (hhand' : point.inHand = some pid) (p : Pid) :
    ({ m with procs := m.procs.insert pid none, point := point } : RunState).outstanding p =
      m.outstanding p := by
  have hexited : ({ m with procs := m.procs.insert pid none, point := point } :
      RunState).Exited p ↔ m.Exited p := RunState.exited_forked hfresh rfl
  by_cases heq : p = pid
  · have hnot : ¬ m.Exited p := by
      rintro ⟨status, hstatus⟩
      exact hfresh (heq ▸ UnorderedMap.mem_of_lookup hstatus)
    rw [RunState.outstanding_of_not_exited hnot,
      RunState.outstanding_of_not_exited (fun h' => hnot (hexited.mp h'))]
  · refine RunState.outstanding_congr ?_ hexited
    have hother : point.toTrack ≠ some p := by
      intro htrack
      have hhand'' := hhand'.symm.trans (RunPoint.inHand_of_toTrack htrack)
      exact heq (Option.some.inj hhand'').symm
    simp [RunState.Tracked, RunPoint.toTrack_of_inHand hhand, hother]

/-- The command of `ExecStartPre` is never tracked. -/
theorem outstanding_waited (h : RunInv m) {pid : Pid} {point : RunPoint}
    (hhand : m.point.inHand = some pid) (htrack : m.point.toTrack = none)
    (hhand' : point.inHand = none) (p : Pid) :
    ({ m with procs := m.procs.erase pid, point := point } : RunState).outstanding p =
      m.outstanding p := by
  have htracked : ({ m with procs := m.procs.erase pid, point := point } :
      RunState).Tracked p ↔ m.Tracked p := by
    simp [RunState.Tracked, htrack, RunPoint.toTrack_of_inHand hhand']
  have hexited : ({ m with procs := m.procs.erase pid, point := point } :
      RunState).Exited p ↔ p ≠ pid ∧ m.Exited p := RunState.exited_erased rfl
  by_cases heq : p = pid
  · have hnot : ¬ m.Tracked p := by
      simp [RunState.Tracked, htrack, heq, h.notMem_processes hhand]
    rw [RunState.outstanding_of_not_tracked hnot,
      RunState.outstanding_of_not_tracked (fun h' => hnot (htracked.mp h'))]
  · refine RunState.outstanding_congr htracked ?_
    simp [hexited, heq]

/-- What waited is processed. -/
theorem balanced_reaped {a : RunAnswer} {pid : Pid} {status : WaitStatus} {sys : System}
    (hchild : a.child = some pid) (hexited' : m.procs.lookup pid = some (some status))
    (hsys : System.Reaped m.sys pid status a.now sys) (hreap : m.point.inReap = true) :
    Balanced m (.program a) { m with sys := sys, procs := m.procs.erase pid } := by
  have hdrain := RunPoint.inDrain_of_inReap hreap
  have htrack := RunPoint.toTrack_of_inHand (RunPoint.inHand_of_inDrain hdrain)
  have hrecords : m.exitRecords (.program a) =
      if pid ∈ m.sys.init.processes then [.processed pid] else [] := by
    simp [RunState.exitRecords, hreap, hchild]
  intro p
  rw [hrecords]
  have htracked : ({ m with sys := sys, procs := m.procs.erase pid } : RunState).Tracked p ↔
      p ≠ pid ∧ m.Tracked p := by
    simp [RunState.Tracked, htrack, hsys.processes]
  have hexited : ({ m with sys := sys, procs := m.procs.erase pid } : RunState).Exited p ↔
      p ≠ pid ∧ m.Exited p := RunState.exited_erased rfl
  by_cases heq : p = pid
  · subst heq
    have hold : m.Exited p := ⟨status, hexited'⟩
    have hmem : m.Tracked p ↔ p ∈ m.sys.init.processes := by
      simp [RunState.Tracked, htrack]
    rw [RunState.outstanding_of_not_tracked (fun h' => (htracked.mp h').1 rfl)]
    by_cases hin : p ∈ m.sys.init.processes
    · simp [RunState.outstanding, hmem, hin, hold]
    · simp [RunState.outstanding, hmem, hin]
  · have hother : pid ≠ p := fun h => heq h.symm
    rw [RunState.outstanding_congr (htracked.trans (and_iff_right heq))
      (hexited.trans (and_iff_right heq))]
    by_cases hin : pid ∈ m.sys.init.processes
    · simp [hin, hother]
    · simp [hin]

theorem balanced_program (h : RunInv m) {a : RunAnswer} (heffect : ProgramEffect m a m') :
    Balanced m (.program a) m' := by
  cases heffect with
  | quiet sys chowned point hsys hhand hhand' hdrain hreap =>
      refine balanced_of_not_inReap (RunPoint.inReap_of_not_inDrain hdrain) (fun p => ?_)
      refine RunState.outstanding_congr ?_ Iff.rfl
      unfold RunState.Tracked
      simp [hsys.mem_processes h.table, RunPoint.toTrack_of_inHand hhand,
        RunPoint.toTrack_of_inHand hhand']
  | forked pid point hfresh hhand hhand' hdrain hdrain' hwill =>
      exact balanced_of_not_inReap (RunPoint.inReap_of_not_inDrain hdrain)
        (outstanding_forked hfresh hhand hhand')
  | tracked pid kind sys point hsys hhand hhand' hdrain hdrain' =>
      refine balanced_of_not_inReap (RunPoint.inReap_of_not_inDrain hdrain) (fun p => ?_)
      refine RunState.outstanding_congr ?_ Iff.rfl
      simp [RunState.Tracked, hsys.mem_processes h.table, RunPoint.toTrack_of_inHand hhand', hhand,
        or_comm, eq_comm]
  | waited pid status point hexited hhand htrack hhand' hdrain hdrain' =>
      exact balanced_of_not_inReap (RunPoint.inReap_of_not_inDrain hdrain)
        (outstanding_waited h hhand htrack hhand')
  | read signal sys shutdown point hpending hsys hdrain hreap hdrain' hreap' =>
      refine balanced_of_not_inReap hreap (fun p => ?_)
      refine RunState.outstanding_congr ?_ Iff.rfl
      simp [RunState.Tracked, hsys.mem_processes h.table,
        RunPoint.toTrack_of_inHand (RunPoint.inHand_of_inDrain hdrain),
        RunPoint.toTrack_of_inHand (RunPoint.inHand_of_inDrain hdrain')]
  | drained point hpending hdrain hreap hhand' hdrain' =>
      refine balanced_of_not_inReap hreap (fun p => ?_)
      refine RunState.outstanding_congr ?_ Iff.rfl
      simp [RunState.Tracked, RunPoint.toTrack_of_inHand (RunPoint.inHand_of_inDrain hdrain),
        RunPoint.toTrack_of_inHand hhand']
  | reaped pid status sys hchild hexited hsys hreap =>
      exact balanced_reaped hchild hexited hsys hreap
  | reapedAll point hchild hnone hreap hdrain' hreap' =>
      have hdrain := RunPoint.inDrain_of_inReap hreap
      refine balanced_of_same (by simp [RunState.exitRecords, hchild]) ?_
      intro p
      refine RunState.outstanding_congr ?_ Iff.rfl
      simp [RunState.Tracked, RunPoint.toTrack_of_inHand (RunPoint.inHand_of_inDrain hdrain),
        RunPoint.toTrack_of_inHand (RunPoint.inHand_of_inDrain hdrain')]

theorem balanced_step (h : RunInv m) {e : RunEvent} (hstep : m.step e = some m') :
    Balanced m e m' := by
  cases e with
  | exits pid status => exact balanced_exits hstep
  | adopts pid =>
      obtain ⟨hfresh, -, rfl⟩ := RunState.adopts_cases hstep
      refine balanced_of_same rfl ?_
      intro p
      exact RunState.outstanding_congr Iff.rfl (RunState.exited_forked hfresh rfl)
  | raises signal =>
      obtain rfl := Option.some.inj hstep
      exact balanced_of_same rfl (fun _ => RunState.outstanding_congr Iff.rfl Iff.rfl)
  | program a => exact h.balanced_program (RunState.programStep_effect h.will hstep)

end RunInv

/-! ## The end of the drain -/

namespace RunState

variable {m m' : RunState}

/-- The children that have exited and wait for `waitpid`. -/
def exitedCount (m : RunState) : Nat :=
  UnorderedMap.countEntries (fun _ status => status.isSome) m.procs

/-- A bound on the steps `drain_signals` still makes: two for each pending signal, one for each
exited child, and one to leave `reap_children`. -/
def drainWork (m : RunState) : Nat :=
  2 * m.pending.card + m.exitedCount + if m.point.inReap then 1 else 0

theorem drainWork_program {a : RunAnswer} (heffect : ProgramEffect m a m')
    (hdrain : m.point.inDrain = true) (hdrain' : m'.point.inDrain = true) :
    m'.drainWork < m.drainWork := by
  cases heffect with
  | quiet sys chowned point hsys hhand hhand' hout hreap => simp [hout] at hdrain
  | forked pid point hfresh hhand hhand' hout hout' hwill => simp [hout] at hdrain
  | tracked pid kind sys point hsys hhand hhand' hout hout' => simp [hout] at hdrain
  | waited pid status point hexited hhand htrack hhand' hout hout' => simp [hout] at hdrain
  | drained point hpending hin hreap hhand' hout => simp [hout] at hdrain'
  | read signal sys shutdown point hpending hsys hin hreap hin' hreap' =>
      have hcard := Finset.card_erase_lt_of_mem hpending
      have hsame : ({ m with
        sys := sys
        pending := m.pending.erase signal
        shutdownRequested := shutdown
        point := point } : RunState).exitedCount = m.exitedCount := rfl
      simp only [drainWork, hsame, hreap]
      split_ifs <;> omega
  | reaped pid status sys hchild hexited hsys hreap =>
      have hone := UnorderedMap.countEntries_erase
        (fun (_ : Pid) (status : Option WaitStatus) => status.isSome) hexited
      simp only [drainWork, exitedCount]
      simp only [Option.isSome_some, if_true] at hone
      omega
  | reapedAll point hchild hnone hreap hin' hreap' =>
      have hsame : ({ m with point := point } : RunState).exitedCount = m.exitedCount := rfl
      simp [drainWork, hsame, hreap, hreap']

/-- Leaving `drain_signals`, the program leaves no exited child behind. -/
theorem drained_of_program {a : RunAnswer} (h : RunInv m) (heffect : ProgramEffect m a m')
    (hdrain : m.point.inDrain = true) (hdrain' : m'.point.inDrain = false) (p : Pid) :
    ¬ m'.Exited p := by
  cases heffect with
  | drained point hpending hin hreap hhand' hout =>
      intro hp
      have hchld := h.wake hreap p hp
      simp [hpending] at hchld
  | quiet sys chowned point hsys hhand hhand' hout hreap => simp [hout] at hdrain
  | forked pid point hfresh hhand hhand' hout hout' hwill => simp [hout] at hdrain
  | tracked pid kind sys point hsys hhand hhand' hout hout' => simp [hout] at hdrain
  | waited pid status point hexited hhand htrack hhand' hout hout' => simp [hout] at hdrain
  | read signal sys shutdown point hpending hsys hin hreap hin' hreap' => simp [hin'] at hdrain'
  | reaped pid status sys hchild hexited hsys hreap => simp [hdrain] at hdrain'
  | reapedAll point hchild hnone hreap hin' hreap' => simp [hin'] at hdrain'

/-- Inside `drain_signals` no system call blocks. -/
theorem drain_ready (h : RunInv m) (hdrain : m.point.inDrain = true) :
    ∃ a, (m.programStep a).isSome = true := by
  cases hpoint : m.point with
  | draining rest poll =>
      rcases m.pending.eq_empty_or_nonempty with hempty | ⟨signal, hsignal⟩
      · exact ⟨{}, by simp [programStep, hpoint, stepDraining, hempty]⟩
      · refine ⟨{ signal := some signal }, ?_⟩
        cases signal <;> simp [programStep, hpoint, stepDraining, hsignal]
  | reaping rest poll =>
      by_cases hexists : ∃ p, m.Exited p
      · obtain ⟨p, status, hstatus⟩ := hexists
        have hknown := (h.known p).mp (UnorderedMap.mem_of_lookup hstatus)
        simp only [hpoint, RunPoint.inHand, reduceCtorEq, or_false] at hknown
        refine ⟨{ child := some p, now := m.sys.clock }, ?_⟩
        simp [programStep, hpoint, stepReaping, hstatus, System.step, hknown]
      · refine ⟨{}, ?_⟩
        have hnone : ∀ e ∈ m.procs.entries, e.2 = none := by
          intro e he
          by_contra hsome
          obtain ⟨status, hstatus⟩ := Option.ne_none_iff_exists'.mp hsome
          exact hexists ⟨e.1, status, hstatus ▸ UnorderedMap.mem_entries_iff.mp he⟩
        simpa [programStep, hpoint, stepReaping] using hnone
  | _ => simp [hpoint, RunPoint.inDrain] at hdrain

/-- What processing the exit of `p` does. -/
structure ProcessedExit (m : RunState) (p : Pid) (m' : RunState) : Prop where
  /-- The exit callback is called with the exit code. -/
  called : ∃ status, m.procs.lookup p = some (some status) ∧
    m'.sys.init.socketUnits = (m.sys.init.fireExitCallback p status.code).socketUnits
  notCallback : p ∉ m'.sys.init.exitCallbacks
  untracked : p ∉ m'.sys.init.processes
  gone : p ∉ m'.procs

theorem processedExit {a : RunAnswer} {p : Pid} (heffect : ProgramEffect m a m')
    (hrecord : ExitRecord.processed p ∈ m.exitRecords (.program a)) : m.ProcessedExit p m' := by
  cases heffect with
  | reaped pid status sys hchild hexited hsys hreap =>
      simp only [exitRecords, hreap, hchild] at hrecord
      split_ifs at hrecord
      · obtain rfl : p = pid := by simpa using hrecord
        refine ⟨⟨status, hexited, hsys.tables.socketUnits⟩, ?_, ?_, ?_⟩
        · simp [hsys.exitCallbacks]
        · simp [hsys.processes]
        · simp
      · simp at hrecord
  | reapedAll point hchild hnone hreap hin' hreap' => simp [exitRecords, hchild] at hrecord
  | _ => simp_all [exitRecords, RunPoint.inReap_of_not_inDrain]

end RunState

namespace RunInv

variable {m m' : RunState}

/-- Without a step of the kernel, `drain_signals` ends within its work. -/
theorem exists_drained (h : RunInv m) (hdrain : m.point.inDrain = true) {as : List RunAnswer}
    (hrun : m.run (as.map RunEvent.program) = some m') (hlen : m.drainWork < as.length) :
    ∃ t, StepRun.Visits RunState.step m (as.map RunEvent.program) t ∧ t.point.inDrain = false ∧
      ∀ p, ¬ t.Exited p := by
  have hinv : ∀ m e m', RunInv m → (∃ a, e = RunEvent.program a) → m.step e = some m' →
      RunInv m' := fun _ _ _ h _ hstep => h.step hstep
  have hrank : ∀ m e m', RunInv m → m.point.inDrain = true → (∃ a, e = RunEvent.program a) →
      m.step e = some m' → m'.point.inDrain = true → m'.drainWork < m.drainWork := by
    rintro m e m' h hin ⟨a, rfl⟩ hstep hin'
    exact RunState.drainWork_program (RunState.programStep_effect h.will hstep) hin hin'
  have hgood : ∀ e ∈ as.map RunEvent.program, ∃ a, e = RunEvent.program a := by
    intro e he
    obtain ⟨a, -, rfl⟩ := List.mem_map.mp he
    exact ⟨a, rfl⟩
  obtain ⟨es₁, e, t, t', hpre, ht, htinv, hin, hstep, hout⟩ :=
    StepRun.exists_leaving_step RunState.drainWork hinv hrank h hdrain hgood hrun (by simpa)
  obtain ⟨a, rfl⟩ := hgood e (hpre.subset (by simp))
  have hout' : t'.point.inDrain = false := by simpa using hout
  refine ⟨t', ⟨es₁ ++ [.program a], hpre, ?_⟩, hout', ?_⟩
  · exact StepRun.run_append_eq_some.mpr ⟨t, ht, StepRun.run_singleton.mpr hstep⟩
  · intro p
    exact RunState.drained_of_program htinv (RunState.programStep_effect htinv.will hstep) hin
      hout' p

theorem balanced_run {s : InitSystem} (hboot : Booted { init := s }) {es : List RunEvent}
    (hrun : (RunState.boot s).run es = some m) (p : Pid) :
    (StepRun.trace RunState.step RunState.exitRecords (RunState.boot s) es).count (.exited p) =
      (StepRun.trace RunState.step RunState.exitRecords (RunState.boot s) es).count (.processed p) +
        m.outstanding p := by
  let Inv (tr : List ExitRecord) (m : RunState) : Prop :=
    RunInv m ∧ tr.count (.exited p) = tr.count (.processed p) + m.outstanding p
  have hstep : ∀ tr m e m', Inv tr m → True → m.step e = some m' →
      Inv (tr ++ m.exitRecords e) m' := by
    rintro tr m e m' ⟨hinv, hcount⟩ - hm'
    refine ⟨hinv.step hm', ?_⟩
    have hbalance := hinv.balanced_step hm' p
    simp only [List.count_append]
    omega
  have hzero : (RunState.boot s).outstanding p = 0 := by
    refine RunState.outstanding_of_not_exited ?_
    rintro ⟨status, hstatus⟩
    simp [RunState.boot] at hstatus
  have hend := StepRun.run_history_invariant (fun _ _ => True) Inv hstep
    (show Inv [] (RunState.boot s) from ⟨RunInv.boot hboot.tableInv, by simp [hzero]⟩)
    (StepRun.stepsMeet_of_forall _ (fun _ _ => trivial)) hrun
  simpa using hend.2

end RunInv

/-- In every run of the main program no exit of a tracked child is lost, and none is processed
twice: what has exited was processed once or waits, and while it waits outside `drain_signals` the
signal is pending.  `drain_signals` never blocks; left alone it ends within `drainWork` steps, and
when it ends no exited child waits. -/
theorem RunState.run_processes_exits_once {s : InitSystem} {es : List RunEvent} {m : RunState}
    (hboot : Booted { init := s }) (hrun : (RunState.boot s).run es = some m) :
    (m.point.inDrain = false → ∀ p, m.Tracked p → m.Exited p → Signal.chld ∈ m.pending) ∧
    (∀ p, (StepRun.trace RunState.step exitRecords (RunState.boot s) es).count (.exited p) =
      (StepRun.trace RunState.step exitRecords (RunState.boot s) es).count (.processed p) +
        m.outstanding p) ∧
    (∀ a m' p, m.step (.program a) = some m' →
      ExitRecord.processed p ∈ m.exitRecords (.program a) → m.ProcessedExit p m') ∧
    (∀ a m', m.step (.program a) = some m' → m.point.inDrain = true → m'.point.inDrain = false →
      ∀ p, ¬ m'.Exited p) ∧
    (m.point.inDrain = true → ∃ a m', m.step (.program a) = some m') ∧
    (m.point.inDrain = true →
      ∀ (as : List RunAnswer) m', m.run (as.map RunEvent.program) = some m' →
        m.drainWork < as.length →
          ∃ t, StepRun.Visits RunState.step m (as.map RunEvent.program) t ∧
            t.point.inDrain = false ∧ ∀ p, ¬ t.Exited p) := by
  have hinv := (RunInv.boot hboot.tableInv).run hrun
  refine ⟨?_, ?_, ?_, ?_, ?_, ?_⟩
  · intro hout p _ hp
    exact hinv.wake (RunPoint.inReap_of_not_inDrain hout) p hp
  · exact RunInv.balanced_run hboot hrun
  · intro a m' p hstep hrecord
    exact processedExit (programStep_effect hinv.will hstep) hrecord
  · intro a m' hstep hdrain hdrain' p
    exact drained_of_program hinv (programStep_effect hinv.will hstep) hdrain hdrain' p
  · intro hdrain
    obtain ⟨a, hsome⟩ := drain_ready hinv hdrain
    exact ⟨a, Option.isSome_iff_exists.mp hsome⟩
  · intro hdrain as m' hrest hlen
    exact hinv.exists_drained hdrain hrest hlen

/-- A boot that starts the web service. -/
def sampleWebBoot : InitSystem :=
  { sampleBoot.init with execOrder := ["web.service"] }

/-- Two exits, one of them after the signal was read, and one read of the signal. -/
def sampleExits : List RunEvent :=
  [ .program {}
  , .program { forked := .ok 100 }
  , .program {}
  , .adopts 200
  , .program {}
  , .exits 100 (.exited 0)
  , .program { polled := some [.signals] }
  , .program {}
  , .program { signal := some .chld }
  , .exits 200 (.signaled 9)
  , .program { child := some 200, now := 1 }
  , .program { child := some 100, now := 2 } ]

theorem sampleWebBoot_booted : Booted { init := sampleWebBoot } :=
  ⟨rfl, rfl, rfl, rfl, rfl, rfl, sampleBoot_booted.connections⟩

theorem RunState.run_processes_exits_once_sample :
    ∃ m, (RunState.boot sampleWebBoot).run sampleExits = some m ∧
      (StepRun.trace RunState.step exitRecords (RunState.boot sampleWebBoot) sampleExits).count
          (.exited 100) =
        (StepRun.trace RunState.step exitRecords (RunState.boot sampleWebBoot) sampleExits).count
          (.processed 100) + m.outstanding 100 := by
  have hsome : ((RunState.boot sampleWebBoot).run sampleExits).isSome = true := by
    decide +kernel
  obtain ⟨m, hrun⟩ := Option.isSome_iff_exists.mp hsome
  exact ⟨m, hrun, (RunState.run_processes_exits_once sampleWebBoot_booted hrun).2.1 100⟩

end TrivialInit
