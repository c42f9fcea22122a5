import Mathlib.Algebra.Order.Group.Int
import TrivialInit.Properties.UnitView

/-!
# RestartLineage — one unit from its first start to its last restart

A service that is started once, and afterwards only by `process_restarts`, has at most one carrier of
its restart counters at any time: its main process, or one entry of `pending_restarts_`, or (inside
`process_restarts`) one entry of `restart_counts_`.  `Phase` says which one it is.  Along a run the
carrier hands the counters on unchanged, so the exits of the unit are the requests of one fixed-window
limiter (`HistoryOk`).
-/

namespace TrivialInit

open InitSystem

/-! ## What is observed of one unit -/

/-- An exit of a process of the unit: did it reopen the burst window, and what did it lead to? -/
structure ExitObs where
  now : TimePoint
  reset : Bool
  outcome : ExitOutcome
  deriving DecidableEq, Repr

inductive UnitObs
  | exited (e : ExitObs)
  /-- `process_restarts` passes the unit of the due entry `pr` to `start_service`. -/
  | restarted (now : TimePoint) (pr : PendingRestart)
  deriving DecidableEq, Repr

def exitObs (tp : TrackedProcess) (status : WaitStatus) (now : TimePoint) : ExitObs :=
  { now := now
    reset := shouldRestart tp.restartPolicy status.code status.isSignaled && tp.windowExpired now
    outcome := exitOutcome tp status now }

def unitObs (n : String) (sys : System) : Event → List UnitObs
  | .reaped p status now =>
      match sys.init.processes.lookup p with
      | none => []
      | some tp => if tp.unitName = n then [.exited (exitObs tp status now)] else []
  | .processRestarts now _ =>
      if (System.findService sys.init n).isSome then
        ((pendingOf sys.init n).filter (PendingRestart.isDue now)).map (UnitObs.restarted now)
      else []
  | _ => []

/-- All exits, in order. -/
def exits (hist : List UnitObs) : List ExitObs :=
  hist.filterMap (fun o =>
    match o with
    | .exited e => some e
    | .restarted _ _ => none)

def ExitObs.isScheduled (e : ExitObs) : Bool :=
  match e.outcome with
  | .scheduled _ => true
  | _ => false

/-- The scheduled restarts, in order, each with the time of the exit. -/
def schedules (hist : List UnitObs) : List (TimePoint × PendingRestart) :=
  (exits hist).filterMap (fun e =>
    match e.outcome with
    | .scheduled pr => some (e.now, pr)
    | _ => none)

/-- The restarts passed to `start_service`, in order, each with the time of the call. -/
def restarts (hist : List UnitObs) : List (TimePoint × PendingRestart) :=
  hist.filterMap (fun o =>
    match o with
    | .exited _ => none
    | .restarted now pr => some (now, pr))

/-- The request to the limiter, if the policy asks for a restart. -/
def ExitObs.hit (e : ExitObs) : Option (FixedWindow.Hit Int) :=
  match e.outcome with
  | .finished => none
  | .exhausted => some { time := e.now, reset := e.reset, allowed := false }
  | .scheduled _ => some { time := e.now, reset := e.reset, allowed := true }

@[simp] theorem exits_append (hist hist' : List UnitObs) :
    exits (hist ++ hist') = exits hist ++ exits hist' :=
  List.filterMap_append

@[simp] theorem schedules_append (hist hist' : List UnitObs) :
    schedules (hist ++ hist') = schedules hist ++ schedules hist' := by
  simp [schedules]

@[simp] theorem restarts_append (hist hist' : List UnitObs) :
    restarts (hist ++ hist') = restarts hist ++ restarts hist' :=
  List.filterMap_append

@[simp] theorem exits_exited (e : ExitObs) : exits [.exited e] = [e] := rfl

@[simp] theorem exits_restarted (now : TimePoint) (pr : PendingRestart) :
    exits [.restarted now pr] = [] := rfl

@[simp] theorem restarts_exited (e : ExitObs) : restarts [.exited e] = [] := rfl

@[simp] theorem restarts_restarted (now : TimePoint) (pr : PendingRestart) :
    restarts [.restarted now pr] = [(now, pr)] := rfl

/-! ## The limiter inside `reap_children` -/

theorem counters_countExit (tp : TrackedProcess) (now : TimePoint) :
    (tp.countExit now).counters =
      { tp.counters with
        window := tp.counters.window.hit (seconds tp.burstIntervalS) now } := by
  have hexpired : tp.counters.window.expired (seconds tp.burstIntervalS) now =
      tp.windowExpired now := rfl
  rw [FixedWindow.Window.hit, hexpired]
  cases hw : tp.windowExpired now with
  | true =>
      simp only [TrackedProcess.countExit, hw, if_true]
      rfl
  | false =>
      simp only [TrackedProcess.countExit, hw, Bool.false_eq_true, if_false]
      rfl

/-- An exit whose policy asks for a restart is one request to the limiter. -/
theorem hit_exitObs (tp : TrackedProcess) (status : WaitStatus) (now : TimePoint) :
    (exitObs tp status now).hit =
      if shouldRestart tp.restartPolicy status.code status.isSignaled then
        some (tp.counters.window.record (seconds tp.burstIntervalS) tp.burstLimit now)
      else none := by
  have hcounters := counters_countExit tp now
  have hlimit : (tp.countExit now).burstLimit = tp.burstLimit :=
    congrArg Counters.limit hcounters
  have hcount : (tp.countExit now).burstCount =
      (tp.counters.window.hit (seconds tp.burstIntervalS) now).count :=
    congrArg (fun c => c.window.count) hcounters
  cases hshould : shouldRestart tp.restartPolicy status.code status.isSignaled with
  | false => simp [exitObs, ExitObs.hit, exitOutcome, hshould]
  | true =>
      have hreset : (exitObs tp status now).reset =
          tp.counters.window.expired (seconds tp.burstIntervalS) now := by
        simp only [exitObs, hshould, Bool.true_and]
        rfl
      -- `burst_count > burst_limit` is the limiter turning the request down.
      by_cases hburst : (tp.countExit now).burstCount > (tp.countExit now).burstLimit
      · have houtcome : (exitObs tp status now).outcome = .exhausted := by
          simp [exitObs, exitOutcome, hshould, hburst]
        have hallowed : ¬ (tp.counters.window.hit (seconds tp.burstIntervalS) now).count ≤
            tp.burstLimit := by
          omega
        simp only [ExitObs.hit, houtcome, hreset, FixedWindow.Window.record, hallowed, if_true,
          decide_false]
        rfl
      · have houtcome : (exitObs tp status now).outcome =
            .scheduled ((tp.countExit now).pendingRestart now) := by
          simp [exitObs, exitOutcome, hshould, hburst]
        have hallowed : (tp.counters.window.hit (seconds tp.burstIntervalS) now).count ≤
            tp.burstLimit := by
          omega
        simp only [ExitObs.hit, houtcome, hreset, FixedWindow.Window.record, hallowed, if_true,
          decide_true]
        rfl

/-- The back-off after `k` restarts. -/
theorem restartDelay_eq {tp : TrackedProcess} {k : Nat} (hk : tp.restartCount = k) :
    tp.restartDelay = min (100 * 2 ^ min k 13) 600000 := by
  have hexp : (min tp.restartCount 13).toNat = min k 13 := by
    rw [hk]
    omega
  simp only [TrackedProcess.restartDelay, hexp, kBaseDelay, kMaxDelay]

/-- A child whose policy is `no` is not observed, or its exit asks for no restart. -/
theorem unitObs_reaped_cases {n : String} {sys : System} {pid : Pid}
    (hpolicy : ∀ tp, sys.init.processes.lookup pid = some tp → tp.unitName = n →
      tp.restartPolicy = .no) (status : WaitStatus) (now : TimePoint) :
    unitObs n sys (.reaped pid status now) = [] ∨
      ∃ e, unitObs n sys (.reaped pid status now) = [.exited e] ∧ e.outcome = .finished := by
  cases htp : sys.init.processes.lookup pid with
  | none => exact Or.inl (by simp [unitObs, htp])
  | some tp =>
      by_cases hname : tp.unitName = n
      · refine Or.inr ⟨exitObs tp status now, by simp [unitObs, htp, hname], ?_⟩
        exact exitOutcome_of_policy_no (hpolicy tp htp hname) status now
      · exact Or.inl (by simp [unitObs, htp, hname])

/-! ## Histories -/

/-- The window a unit starts with. -/
def initialWindow : FixedWindow.Window Int :=
  { start := 0
    count := 0 }

/-- What holds of the observations of a unit up to time `clock`, when its limiter has the window `w`. -/
structure HistoryOk (limit intervalS : Int) (hist : List UnitObs) (w : FixedWindow.Window Int)
    (clock : TimePoint) : Prop where
  hits : ∃ times : List Int, times.Pairwise (fun s t => s ≤ t) ∧ (∀ t ∈ times, t ≤ clock) ∧
    (exits hist).filterMap ExitObs.hit =
      FixedWindow.hits (seconds intervalS) limit initialWindow times ∧
    w = FixedWindow.after (seconds intervalS) initialWindow times
  schedule : ∀ (k : Nat) (t : TimePoint) (pr : PendingRestart),
    (schedules hist)[k]? = some (t, pr) →
    pr.restartCount = k + 1 ∧ pr.when = t + milliseconds (min (100 * 2 ^ min k 13) 600000)
  restart : ∀ r ∈ restarts hist, r.2.when ≤ r.1
  sublist : ((restarts hist).map Prod.snd).Sublist ((schedules hist).map Prod.snd)
  final : (exits hist).Pairwise (fun e e' => e.outcome = .exhausted → e'.isScheduled = false)

namespace HistoryOk

variable {limit intervalS : Int} {hist : List UnitObs} {w : FixedWindow.Window Int}
  {clock now : TimePoint}

theorem nil (limit intervalS : Int) (clock : TimePoint) :
    HistoryOk limit intervalS [] initialWindow clock where
  hits := ⟨[], List.Pairwise.nil, by simp, rfl, rfl⟩
  schedule := by simp [schedules, exits]
  restart := by simp [restarts]
  sublist := by simp [restarts]
  final := List.Pairwise.nil

theorem later (h : HistoryOk limit intervalS hist w clock) (hle : clock ≤ now) :
    HistoryOk limit intervalS hist w now where
  hits := by
    rcases h.hits with ⟨times, hsorted, hpast, hhits, hw⟩
    exact ⟨times, hsorted, fun t ht => le_trans (hpast t ht) hle, hhits, hw⟩
  schedule := h.schedule
  restart := h.restart
  sublist := h.sublist
  final := h.final

/-- An exit after which no restart is scheduled. -/
theorem exited_unscheduled (h : HistoryOk limit intervalS hist w clock) {e : ExitObs}
    (he : e.isScheduled = false) {w' : FixedWindow.Window Int} {clock' : TimePoint}
    (hhits : ∃ times : List Int, times.Pairwise (fun s t => s ≤ t) ∧ (∀ t ∈ times, t ≤ clock') ∧
      (exits (hist ++ [.exited e])).filterMap ExitObs.hit =
        FixedWindow.hits (seconds intervalS) limit initialWindow times ∧
      w' = FixedWindow.after (seconds intervalS) initialWindow times) :
    HistoryOk limit intervalS (hist ++ [.exited e]) w' clock' := by
  have hschedules : schedules (hist ++ [.exited e]) = schedules hist := by
    have hnone : schedules [.exited e] = [] := by
      cases houtcome : e.outcome with
      | finished => simp [schedules, houtcome]
      | exhausted => simp [schedules, houtcome]
      | scheduled pr => simp [ExitObs.isScheduled, houtcome] at he
    rw [schedules_append, hnone, List.append_nil]
  refine
    { hits := hhits
      schedule := ?_
      restart := ?_
      sublist := ?_
      final := ?_ }
  · rw [hschedules]
    exact h.schedule
  · rw [restarts_append, restarts_exited, List.append_nil]
    exact h.restart
  · rw [restarts_append, restarts_exited, List.append_nil, hschedules]
    exact h.sublist
  · rw [exits_append, exits_exited]
    refine List.pairwise_append.mpr ⟨h.final, List.pairwise_singleton _ _, ?_⟩
    intro e₁ _ e₂ he₂ _
    rw [List.mem_singleton.mp he₂]
    exact he

theorem exited_finished (h : HistoryOk limit intervalS hist w clock) {e : ExitObs}
    (he : e.outcome = .finished) : HistoryOk limit intervalS (hist ++ [.exited e]) w clock := by
  refine h.exited_unscheduled (by simp [ExitObs.isScheduled, he]) ?_
  have hnone : e.hit = none := by
    simp [ExitObs.hit, he]
  simpa [hnone] using h.hits

/-- The limiter counts the exit. -/
theorem hits_append (h : HistoryOk limit intervalS hist w clock) {e : ExitObs} (hle : clock ≤ now)
    (hhit : e.hit = some (w.record (seconds intervalS) limit now)) :
    ∃ times : List Int, times.Pairwise (fun s t => s ≤ t) ∧ (∀ t ∈ times, t ≤ now) ∧
      (exits (hist ++ [.exited e])).filterMap ExitObs.hit =
        FixedWindow.hits (seconds intervalS) limit initialWindow times ∧
      w.hit (seconds intervalS) now =
        FixedWindow.after (seconds intervalS) initialWindow times := by
  rcases h.hits with ⟨times, hsorted, hpast, hhits, rfl⟩
  refine ⟨times ++ [now], ?_, ?_, ?_, ?_⟩
  · refine List.pairwise_append.mpr ⟨hsorted, List.pairwise_singleton _ _, ?_⟩
    intro s hs t ht
    rw [List.mem_singleton.mp ht]
    exact le_trans (hpast s hs) hle
  · intro t ht
    rcases List.mem_append.mp ht with hold | hnew
    · exact le_trans (hpast t hold) hle
    · rw [List.mem_singleton.mp hnew]
  · rw [FixedWindow.hits_append_singleton, ← hhits]
    simp [hhit]
  · rw [FixedWindow.after_append_singleton]

theorem exited_exhausted (h : HistoryOk limit intervalS hist w clock) {e : ExitObs}
    (hle : clock ≤ now) (he : e.outcome = .exhausted)
    (hhit : e.hit = some (w.record (seconds intervalS) limit now)) :
    HistoryOk limit intervalS (hist ++ [.exited e]) (w.hit (seconds intervalS) now) now :=
  h.exited_unscheduled (by simp [ExitObs.isScheduled, he]) (h.hits_append hle hhit)

theorem exited_scheduled (h : HistoryOk limit intervalS hist w clock) {e : ExitObs}
    (hle : clock ≤ now) {pr : PendingRestart} (he : e.outcome = .scheduled pr)
    (hnow : e.now = now) (hhit : e.hit = some (w.record (seconds intervalS) limit now))
    (hlive : ∀ e' ∈ exits hist, e'.outcome ≠ .exhausted)
    (hcount : pr.restartCount = (schedules hist).length + 1)
    (hwhen : pr.when =
      now + milliseconds (min (100 * 2 ^ min (schedules hist).length 13) 600000)) :
    HistoryOk limit intervalS (hist ++ [.exited e]) (w.hit (seconds intervalS) now) now := by
  have hschedules : schedules (hist ++ [.exited e]) = schedules hist ++ [(now, pr)] := by
    have hone : schedules [.exited e] = [(now, pr)] := by
      simp [schedules, he, hnow]
    rw [schedules_append, hone]
  refine
    { hits := h.hits_append hle hhit
      schedule := ?_
      restart := ?_
      sublist := ?_
      final := ?_ }
  · intro k t pr' hk
    rw [hschedules] at hk
    -- An earlier schedule, or the one this exit appends.
    by_cases hlast : k < (schedules hist).length
    · rw [List.getElem?_append_left hlast] at hk
      exact h.schedule k t pr' hk
    · rw [List.getElem?_append_right (Nat.le_of_not_lt hlast)] at hk
      have hzero : k - (schedules hist).length = 0 := by
        by_contra hne
        rw [List.getElem?_eq_none (by simp; omega)] at hk
        cases hk
      have hk' : k = (schedules hist).length := by
        omega
      rw [hzero] at hk
      obtain ⟨rfl, rfl⟩ := Prod.mk.inj (Option.some.inj hk)
      rw [hk']
      exact ⟨hcount, hwhen⟩
  · rw [restarts_append, restarts_exited, List.append_nil]
    exact h.restart
  · rw [restarts_append, restarts_exited, List.append_nil, hschedules, List.map_append]
    exact h.sublist.trans (List.sublist_append_left _ _)
  · rw [exits_append, exits_exited]
    refine List.pairwise_append.mpr ⟨h.final, List.pairwise_singleton _ _, ?_⟩
    -- No earlier exit was exhausted, because the counters are still carried.
    intro e₁ he₁ _ _ hexhausted
    exact absurd hexhausted (hlive e₁ he₁)

/-- The last scheduled restart, which has not been passed on yet, is passed on. -/
theorem restarted (h : HistoryOk limit intervalS hist w clock) {pr : PendingRestart}
    (hdue : pr.when ≤ now) {earlier : List PendingRestart}
    (hlast : (schedules hist).map Prod.snd = earlier ++ [pr])
    (hsub : ((restarts hist).map Prod.snd).Sublist earlier) :
    HistoryOk limit intervalS (hist ++ [.restarted now pr]) w clock := by
  have hexits : exits (hist ++ [.restarted now pr]) = exits hist := by
    simp
  have hschedules : schedules (hist ++ [.restarted now pr]) = schedules hist := by
    simp [schedules]
  refine
    { hits := ?_
      schedule := ?_
      restart := ?_
      sublist := ?_
      final := ?_ }
  · rw [hexits]
    exact h.hits
  · rw [hschedules]
    exact h.schedule
  · intro r hr
    rw [restarts_append, restarts_restarted] at hr
    rcases List.mem_append.mp hr with hold | hnew
    · exact h.restart r hold
    · rw [List.mem_singleton.mp hnew]
      exact hdue
  · rw [hschedules, hlast, restarts_append, restarts_restarted, List.map_append]
    exact hsub.append (List.Sublist.refl _)
  · rw [hexits]
    exact h.final

end HistoryOk

/-! ## Where the counters are -/

/-- The carrier of the counters of `n`.  `ready` lists the names that `process_restarts` still has to
start; between two events it is empty. -/
inductive Phase (n : String) (limit intervalS : Int) (hist : List UnitObs)
    (w : FixedWindow.Window Int) (ready : List String) (sys : System) : Prop
  /-- The main process `p` carries them. -/
  | running (p : Pid) (c : Counters)
      (main : mainCounters sys n = Function.update (fun _ => none) p (some c))
      (pending : pendingOf sys.init n = [])
      (idle : ready.count n = 0)
      (limit_eq : c.limit = limit)
      (interval_eq : c.intervalS = intervalS)
      (count : c.restartCount = (schedules hist).length)
      (window : c.window = w)
      (live : ∀ e ∈ exits hist, e.outcome ≠ .exhausted)
  /-- The pending restart `pr` carries them. -/
  | waiting (pr : PendingRestart) (earlier : List PendingRestart)
      (main : mainCounters sys n = fun _ => none)
      (pending : pendingOf sys.init n = [pr])
      (idle : ready.count n = 0)
      (count : pr.restartCount = (schedules hist).length)
      (window : w = { start := pr.burstWindowStart, count := pr.burstCount })
      (live : ∀ e ∈ exits hist, e.outcome ≠ .exhausted)
      (last : (schedules hist).map Prod.snd = earlier ++ [pr])
      (passed : ((restarts hist).map Prod.snd).Sublist earlier)
  /-- They are in `restart_counts_`, and the unit is about to be started. -/
  | due (counts : RestartMeta)
      (main : mainCounters sys n = fun _ => none)
      (pending : pendingOf sys.init n = [])
      (next : ready.count n = 1)
      (stored : sys.init.restartCounts.lookup n = some counts)
      (count : counts.restartCount = (schedules hist).length)
      (window : w = { start := counts.burstWindowStart, count := counts.burstCount })
      (live : ∀ e ∈ exits hist, e.outcome ≠ .exhausted)
  /-- The unit will not be restarted any more. -/
  | ended
      (main : mainCounters sys n = fun _ => none)
      (pending : pendingOf sys.init n = [])
      (idle : ready.count n = 0)

/-- The unit has been started, and its history is in order. -/
structure Lineage (n : String) (unit : UnitFile) (hist : List UnitObs) (ready : List String)
    (sys : System) : Prop where
  base : BaseInv sys
  loaded : System.findService sys.init n = some unit
  state : ∃ w, HistoryOk unit.restartLimitBurst unit.restartLimitInterval hist w sys.clock ∧
    Phase n unit.restartLimitBurst unit.restartLimitInterval hist w ready sys

theorem Phase.congr {n : String} {limit intervalS : Int} {hist : List UnitObs}
    {w : FixedWindow.Window Int} {ready ready' : List String} {sys sys' : System}
    (h : Phase n limit intervalS hist w ready sys) (hview : SameView n sys sys')
    (hready : ready'.count n = ready.count n) : Phase n limit intervalS hist w ready' sys' := by
  rcases hview with ⟨hmain, hpending, hcounts⟩
  cases h with
  | running p c main pending idle limit_eq interval_eq count window live =>
      exact .running p c (hmain.trans main) (hpending.trans pending) (hready.trans idle) limit_eq
        interval_eq count window live
  | waiting pr earlier main pending idle count window live last passed =>
      exact .waiting pr earlier (hmain.trans main) (hpending.trans pending) (hready.trans idle)
        count window live last passed
  | due counts main pending next stored count window live =>
      exact .due counts (hmain.trans main) (hpending.trans pending) (hready.trans next)
        (hcounts.trans stored) count window live
  | ended main pending idle =>
      exact .ended (hmain.trans main) (hpending.trans pending) (hready.trans idle)

/-- Exits that do not ask for a restart change nothing in the history that `Phase` reads. -/
theorem Phase.exited_finished {n : String} {limit intervalS : Int} {hist : List UnitObs}
    {w : FixedWindow.Window Int} {ready : List String} {sys : System} {e : ExitObs}
    (h : Phase n limit intervalS hist w ready sys) (he : e.outcome = .finished) :
    Phase n limit intervalS (hist ++ [.exited e]) w ready sys := by
  have hschedules : schedules (hist ++ [.exited e]) = schedules hist := by
    simp [schedules, he]
  have hrestarts : restarts (hist ++ [.exited e]) = restarts hist := by
    simp
  have hlive : (∀ e' ∈ exits hist, e'.outcome ≠ .exhausted) →
      ∀ e' ∈ exits (hist ++ [.exited e]), e'.outcome ≠ .exhausted := by
    intro hold e' he'
    rw [exits_append, exits_exited] at he'
    rcases List.mem_append.mp he' with hmem | hmem
    · exact hold e' hmem
    · rw [List.mem_singleton.mp hmem, he]
      simp
  cases h with
  | running p c main pending idle limit_eq interval_eq count window live =>
      exact .running p c main pending idle limit_eq interval_eq (by rw [hschedules, count]) window
        (hlive live)
  | waiting pr earlier main pending idle count window live last passed =>
      exact .waiting pr earlier main pending idle (by rw [hschedules, count]) window (hlive live)
        (by rw [hschedules, last]) (by rw [hrestarts]; exact passed)
  | due counts main pending next stored count window live =>
      exact .due counts main pending next stored (by rw [hschedules, count]) window (hlive live)
  | ended main pending idle => exact .ended main pending idle

namespace Lineage

variable {n : String} {unit : UnitFile} {hist : List UnitObs} {ready : List String}
  {sys sys' : System}

theorem congr (h : Lineage n unit hist ready sys) (hbase : BaseInv sys')
    (hunits : sys'.init.units = sys.init.units) (hview : SameView n sys sys')
    (hclock : sys.clock ≤ sys'.clock) : Lineage n unit hist ready sys' := by
  rcases h.state with ⟨w, hhist, hphase⟩
  exact
    { base := hbase
      loaded := (findService_of_units hunits n).trans h.loaded
      state := ⟨w, hhist.later hclock, hphase.congr hview rfl⟩ }

theorem sameSystem (h : Lineage n unit hist ready sys) (hsame : System.SameSystem sys sys') :
    Lineage n unit hist ready sys' :=
  h.congr (h.base.sameSystem hsame) hsame.tables.units (sameView_of_sameSystem hsame)
    (le_of_eq hsame.clock.symm)

/-! ## Reaping the main process -/

/-- A main process carries the counters, so no other carrier is left. -/
theorem running_of_main (h : Lineage n unit hist [] sys) {p : Pid} {c : Counters}
    (hmain : mainCounters sys n p = some c) :
    HistoryOk unit.restartLimitBurst unit.restartLimitInterval hist c.window sys.clock ∧
      mainCounters sys n = Function.update (fun _ => none) p (some c) ∧
      pendingOf sys.init n = [] ∧ c.limit = unit.restartLimitBurst ∧
      c.intervalS = unit.restartLimitInterval ∧ c.restartCount = (schedules hist).length ∧
      ∀ e ∈ exits hist, e.outcome ≠ .exhausted := by
  -- In the other phases no process of the unit carries counters.
  rcases h.state with ⟨w, hhist, hphase⟩
  cases hphase with
  | waiting pr earlier main => rw [main] at hmain; cases hmain
  | due counts main => rw [main] at hmain; cases hmain
  | ended main => rw [main] at hmain; cases hmain
  | running p' c' main pending idle limit_eq interval_eq count window live =>
      rw [main] at hmain
      have hp : p = p' := by
        by_contra hne
        rw [Function.update_of_ne hne] at hmain
        cases hmain
      subst hp
      rw [Function.update_self] at hmain
      obtain rfl := Option.some.inj hmain
      subst window
      exact ⟨hhist, main, pending, limit_eq, interval_eq, count, live⟩

/-- A scheduled restart takes the counters over, with the exit counted. -/
theorem waiting_of_scheduled {tp : TrackedProcess} {status : WaitStatus} {now : TimePoint}
    {pr : PendingRestart} {clock : TimePoint} (hle : clock ≤ now)
    (hhist : HistoryOk unit.restartLimitBurst unit.restartLimitInterval hist tp.counters.window clock)
    (hcount : tp.restartCount = (schedules hist).length)
    (hinterval : tp.burstIntervalS = unit.restartLimitInterval)
    (hlive : ∀ e ∈ exits hist, e.outcome ≠ .exhausted)
    (houtcome : exitOutcome tp status now = .scheduled pr)
    (hhit : (exitObs tp status now).hit = some
      (tp.counters.window.record (seconds unit.restartLimitInterval) unit.restartLimitBurst now))
    (hmain : mainCounters sys' n = fun _ => none) (hpending : pendingOf sys'.init n = [pr]) :
    HistoryOk unit.restartLimitBurst unit.restartLimitInterval
        (hist ++ [.exited (exitObs tp status now)])
        (tp.counters.window.hit (seconds unit.restartLimitInterval) now) now ∧
      Phase n unit.restartLimitBurst unit.restartLimitInterval
        (hist ++ [.exited (exitObs tp status now)])
        (tp.counters.window.hit (seconds unit.restartLimitInterval) now) [] sys' := by
  have hmem : pr ∈ (exitOutcome tp status now).pending := by
    simp [houtcome, ExitOutcome.pending]
  have hpr := (pending_exitOutcome hmem).1
  have hcounters := counters_countExit tp now
  have hrestartCount : (tp.countExit now).restartCount = (schedules hist).length :=
    (congrArg Counters.restartCount hcounters).trans hcount
  have hwindow : tp.counters.window.hit (seconds unit.restartLimitInterval) now =
      { start := pr.burstWindowStart
        count := pr.burstCount } := by
    have hcounted := congrArg Counters.window hcounters
    rw [hinterval] at hcounted
    rw [hpr]
    exact hcounted.symm
  have hschedules : schedules (hist ++ [.exited (exitObs tp status now)]) =
      schedules hist ++ [(now, pr)] := by
    have hone : schedules [.exited (exitObs tp status now)] = [(now, pr)] := by
      simp [schedules, exitObs, houtcome]
    rw [schedules_append, hone]
  refine ⟨?_, .waiting pr ((schedules hist).map Prod.snd) hmain hpending rfl ?_ hwindow ?_ ?_ ?_⟩
  · -- The delay is computed from the number of restarts so far.
    refine hhist.exited_scheduled hle houtcome rfl hhit hlive ?_ ?_
    · rw [hpr]
      exact congrArg (fun k => k + 1) hrestartCount
    · rw [hpr]
      simp only [TrackedProcess.pendingRestart, restartDelay_eq hrestartCount]
  · rw [hschedules, List.length_append, List.length_singleton, hpr]
    simp [TrackedProcess.pendingRestart, hrestartCount]
  · intro e he
    rw [exits_append, exits_exited] at he
    rcases List.mem_append.mp he with hold | hnew
    · exact hlive e hold
    · rw [List.mem_singleton.mp hnew]
      simp [exitObs, houtcome]
  · rw [hschedules, List.map_append]
    rfl
  · rw [restarts_append, restarts_exited, List.append_nil]
    exact hhist.sublist

/-- The exit of the main process moves the counters into `pending_restarts_`, or ends the lineage. -/
theorem reaped_main (h : Lineage n unit hist [] sys) {pid : Pid} {status : WaitStatus}
    {now : TimePoint} (hreaped : System.Reaped sys pid status now sys') {c : Counters}
    (hmain : mainCounters sys n pid = some c) :
    Lineage n unit (hist ++ unitObs n sys (.reaped pid status now)) [] sys' := by
  rcases h.running_of_main hmain with ⟨hhist, hupdate, hnone, hlimit, hinterval, hcount, hlive⟩
  rcases mainCounters_eq_some.mp hmain with ⟨hkind, tp, htp, hname, rfl⟩
  have hobs : unitObs n sys (.reaped pid status now) = [.exited (exitObs tp status now)] := by
    simp [unitObs, htp, hname]
  have hgone : mainCounters sys' n = fun _ => none := by
    rw [mainCounters_of_reaped hreaped, hupdate, Function.update_idem]
    exact Function.update_eq_self _ _
  have hpending : pendingOf sys'.init n = (exitOutcome tp status now).pending := by
    rw [pendingOf_reaped hreaped htp, hnone, if_pos hname, List.nil_append]
  have hhit := hit_exitObs tp status now
  rw [show tp.burstIntervalS = unit.restartLimitInterval from hinterval,
    show tp.burstLimit = unit.restartLimitBurst from hlimit] at hhit
  -- Unless the process is finished, its exit is a request to the limiter.
  have hrequest : exitOutcome tp status now ≠ .finished → (exitObs tp status now).hit = some
      (tp.counters.window.record (seconds unit.restartLimitInterval) unit.restartLimitBurst now) := by
    intro hne
    have hshould : shouldRestart tp.restartPolicy status.code status.isSignaled = true := by
      by_contra hno
      exact hne (by simp [exitOutcome, hno])
    rw [hhit, if_pos hshould]
  have hstate : ∃ w,
      HistoryOk unit.restartLimitBurst unit.restartLimitInterval
        (hist ++ [.exited (exitObs tp status now)]) w now ∧
      Phase n unit.restartLimitBurst unit.restartLimitInterval
        (hist ++ [.exited (exitObs tp status now)]) w [] sys' := by
    -- Only a scheduled restart hands the counters on.
    cases houtcome : exitOutcome tp status now with
    | finished =>
        rw [houtcome] at hpending
        exact ⟨tp.counters.window, (hhist.exited_finished houtcome).later hreaped.forward,
          .ended hgone hpending rfl⟩
    | exhausted =>
        rw [houtcome] at hpending
        exact ⟨_, hhist.exited_exhausted hreaped.forward houtcome (hrequest (by simp [houtcome])),
          .ended hgone hpending rfl⟩
    | scheduled pr =>
        rw [houtcome] at hpending
        exact ⟨_, waiting_of_scheduled hreaped.forward hhist hcount hinterval hlive houtcome
          (hrequest (by simp [houtcome])) hgone hpending⟩
  rw [hobs]
  exact
    { base := h.base.reaped hreaped
      loaded := (findService_of_units hreaped.units n).trans h.loaded
      state := by
        rw [hreaped.clock]
        exact hstate }

/-- Every other child of the unit serves a connection, and its exit asks for no restart. -/
theorem reaped_other (h : Lineage n unit hist [] sys) {pid : Pid} {status : WaitStatus}
    {now : TimePoint} (hreaped : System.Reaped sys pid status now sys')
    (hmain : mainCounters sys n pid = none) :
    Lineage n unit (hist ++ unitObs n sys (.reaped pid status now)) [] sys' := by
  rcases sameView_of_reaped h.base hreaped hmain with ⟨hview, hpolicy⟩
  have hnext : Lineage n unit hist [] sys' :=
    h.congr (h.base.reaped hreaped) hreaped.units hview (by rw [hreaped.clock]; exact hreaped.forward)
  rcases unitObs_reaped_cases hpolicy status now with hobs | ⟨e, hobs, hfinished⟩
  · rw [hobs, List.append_nil]
    exact hnext
  · -- A child of the same unit that serves a connection is observed, but its policy is `no`.
    rcases hnext.state with ⟨w, hhist, hphase⟩
    rw [hobs]
    exact
      { base := hnext.base
        loaded := hnext.loaded
        state := ⟨w, hhist.exited_finished hfinished, hphase.exited_finished hfinished⟩ }

/-! ## Draining and restarting -/

/-- Draining while no entry of the unit is due. -/
theorem drained_waiting (h : Lineage n unit hist [] sys) {now : TimePoint} (hle : sys.clock ≤ now)
    (hwaiting : ∀ pr ∈ pendingOf sys.init n, pr.isDue now = false) {ready : List String}
    (hready : ready.count n = 0) :
    Lineage n unit hist ready
      { sys with
        init := (sys.init.drainPendingRestarts now).2
        clock := now } := by
  have hview := (sameView_of_drained hwaiting).1
  rcases h.state with ⟨w, hhist, hphase⟩
  exact
    { base := h.base.drained now
      loaded := (findService_of_units (units_of_drained now) n).trans h.loaded
      state := ⟨w, hhist.later hle, hphase.congr hview hready⟩ }

/-- If an entry is due, then it carries the counters. -/
theorem waiting_of_due (h : Lineage n unit hist [] sys) {now : TimePoint}
    (hdue : ¬ ∀ pr ∈ pendingOf sys.init n, pr.isDue now = false) :
    ∃ w pr earlier, HistoryOk unit.restartLimitBurst unit.restartLimitInterval hist w sys.clock ∧
      mainCounters sys n = (fun _ => none) ∧ pendingOf sys.init n = [pr] ∧ pr.isDue now = true ∧
      pr.restartCount = (schedules hist).length ∧
      w = { start := pr.burstWindowStart, count := pr.burstCount } ∧
      (∀ e ∈ exits hist, e.outcome ≠ .exhausted) ∧
      (schedules hist).map Prod.snd = earlier ++ [pr] ∧
      ((restarts hist).map Prod.snd).Sublist earlier := by
  rcases h.state with ⟨w, hhist, hphase⟩
  cases hphase with
  | running p c main pending => simp [pending] at hdue
  | waiting pr earlier main pending idle count window live last passed =>
      have hpr : pr.isDue now = true := by
        simpa [pending] using hdue
      exact ⟨w, pr, earlier, hhist, main, pending, hpr, count, window, live, last, passed⟩
  | due counts main pending next => simp at next
  | ended main pending => simp [pending] at hdue

/-- `drain_pending_restarts` alone: a due entry is forgotten with its counters. -/
theorem drained (h : Lineage n unit hist [] sys) {now : TimePoint} (hle : sys.clock ≤ now) :
    Lineage n unit hist []
      { sys with
        init := (sys.init.drainPendingRestarts now).2
        clock := now } := by
  by_cases hwaiting : ∀ pr ∈ pendingOf sys.init n, pr.isDue now = false
  · exact h.drained_waiting hle hwaiting rfl
  · rcases h.waiting_of_due hwaiting with ⟨w, pr, _, hhist, hmain, hpending, hdue, -⟩
    refine
      { base := h.base.drained now
        loaded := (findService_of_units (units_of_drained now) n).trans h.loaded
        state := ⟨w, hhist.later hle, .ended ?_ ?_ rfl⟩ }
    · rw [mainCounters_drained, hmain]
    · rw [pendingOf_drained, hpending]
      simp [hdue]

/-- The drain of `process_restarts`: a due entry makes the unit due. -/
theorem drained_ready (h : Lineage n unit hist [] sys) {now : TimePoint} {os : Nat → StartAnswers}
    (hle : sys.clock ≤ now) :
    Lineage n unit (hist ++ unitObs n sys (.processRestarts now os))
      (sys.init.drainPendingRestarts now).1
      { sys with
        init := (sys.init.drainPendingRestarts now).2
        clock := now } := by
  have hobs : unitObs n sys (.processRestarts now os) =
      ((pendingOf sys.init n).filter (PendingRestart.isDue now)).map (UnitObs.restarted now) := by
    simp [unitObs, h.loaded]
  rw [hobs]
  -- There is at most one entry of the unit: it is left, or it is the only one taken out.
  by_cases hwaiting : ∀ pr ∈ pendingOf sys.init n, pr.isDue now = false
  · have hnone : (pendingOf sys.init n).filter (PendingRestart.isDue now) = [] := by
      refine List.filter_eq_nil_iff.mpr ?_
      intro pr hpr
      simp [hwaiting pr hpr]
    rw [hnone, List.map_nil, List.append_nil]
    exact h.drained_waiting hle hwaiting (sameView_of_drained hwaiting).2
  · rcases h.waiting_of_due hwaiting with
      ⟨w, pr, earlier, hhist, hmain, hpending, hdue, hcount, hwindow, hlive, hlast, hpassed⟩
    have hone : (pendingOf sys.init n).filter (PendingRestart.isDue now) = [pr] := by
      simp [hpending, hdue]
    have hschedules : schedules (hist ++ [.restarted now pr]) = schedules hist := by
      simp [schedules]
    rw [hone, List.map_singleton]
    refine
      { base := h.base.drained now
        loaded := (findService_of_units (units_of_drained now) n).trans h.loaded
        state := ⟨w, ?_, .due pr.counts ?_ ?_ ?_ ?_ ?_ hwindow ?_⟩ }
    · exact (hhist.later hle).restarted (of_decide_eq_true hdue) hlast hpassed
    · rw [mainCounters_drained, hmain]
    · rw [pendingOf_drained, hpending]
      simp [hdue]
    · rw [count_ready, hone]
      rfl
    · rw [restartCounts_drained, hone]
      rfl
    · rw [hschedules]
      exact hcount
    · simpa using hlive

/-- A start gives the stored counters to the new main process. -/
theorem startService (h : Lineage n unit hist (n :: ready) sys) {os : StartAnswers}
    (hstep : sys.startService n unit os = some sys') : Lineage n unit hist ready sys' := by
  have hbase : BaseInv sys' := h.base.startService hstep
  have hloaded : System.findService sys'.init n = some unit :=
    (findService_of_units (units_of_startService hstep) n).trans h.loaded
  rcases h.state with ⟨w, hhist, hphase⟩
  cases hphase with
  -- Only a unit that is due is still on the list of names.
  | running p c main pending idle => simp at idle
  | waiting pr earlier main pending idle => simp at idle
  | ended main pending idle => simp at idle
  | due counts main pending next stored count window live =>
      have hlast : ready.count n = 0 := by
        simpa using next
      rcases System.startService_cases hstep with hfailed | ⟨pid, hstarted⟩
      -- The start fails: the counters stay in `restart_counts_`, and nothing starts the unit again.
      · have hview : SameView n sys sys' := sameView_of_startFailed hfailed
        exact
          { base := hbase
            loaded := hloaded
            state := ⟨w, by rw [hfailed.clock]; exact hhist,
              .ended (hview.main.trans main) (hview.pending.trans pending) hlast⟩ }
      · let tp := sys.init.startedProcess n unit pid
        refine
          { base := hbase
            loaded := hloaded
            state := ⟨w, by rw [hstarted.clock]; exact hhist,
              .running pid tp.counters ?_ ?_ hlast ?_ ?_ ?_ ?_ live⟩ }
        · rw [mainCounters_of_started hstarted, if_pos rfl, main]
        · simpa only [pendingOf, hstarted.pendingRestarts] using pending
        · simp [tp, startedProcess, TrackedProcess.counters]
        · simp [tp, startedProcess, TrackedProcess.counters]
        · simp [tp, startedProcess, TrackedProcess.counters, stored, TrackedProcess.withCounts, count]
        · simp [tp, startedProcess, TrackedProcess.counters, stored, TrackedProcess.withCounts,
            window]

theorem startOther (h : Lineage n unit hist ready sys) {name : String} {unit' : UnitFile}
    {os : StartAnswers} (hname : name ≠ n) (hstep : sys.startService name unit' os = some sys') :
    Lineage n unit hist ready sys' := by
  refine h.congr (h.base.startService hstep) (units_of_startService hstep)
    (sameView_of_startService hname hstep) (le_of_eq ?_)
  rcases System.startService_cases hstep with hfailed | ⟨pid, hstarted⟩
  · exact hfailed.clock.symm
  · exact hstarted.clock.symm

/-- The names still to be started only matter for `n`. -/
theorem skip (h : Lineage n unit hist ready sys) {ready' : List String}
    (hready : ready'.count n = ready.count n) : Lineage n unit hist ready' sys := by
  rcases h.state with ⟨w, hhist, hphase⟩
  exact
    { base := h.base
      loaded := h.loaded
      state := ⟨w, hhist, hphase.congr (SameView.refl n sys) hready⟩ }

theorem processRestarts (h : Lineage n unit hist [] sys) {now : TimePoint} {os : Nat → StartAnswers}
    (hstep : sys.step (.processRestarts now os) = some sys') :
    Lineage n unit (hist ++ unitObs n sys (.processRestarts now os)) [] sys' := by
  rcases System.processRestarts_cases hstep with ⟨hle, hrun⟩
  refine System.restartAll_invariant
    (Lineage n unit (hist ++ unitObs n sys (.processRestarts now os))) ?_ ?_ ?_
    (h.drained_ready hle) hrun
  · intro ready sys₁ sys₂ hlin hsame
    exact hlin.sameSystem hsame
  · intro name rest sys₁ hlin hnone
    have hname : name ≠ n := by
      rintro rfl
      rw [hlin.loaded] at hnone
      cases hnone
    exact hlin.skip (List.count_cons_of_ne hname).symm
  -- The names of other units pass the carrier by.
  · intro name rest sys₁ sys₂ unit' os' hlin hfind hstart
    by_cases hname : name = n
    · subst hname
      rw [hlin.loaded] at hfind
      obtain rfl := Option.some.inj hfind
      exact hlin.startService hstart
    · exact (hlin.skip (List.count_cons_of_ne hname).symm).startOther hname hstart

end Lineage

/-! ## The steps of a run -/

/-- Does `execute(UnitExecute)` reach the unit? -/
def Event.executes (n : String) : Event → Bool
  | .executeUnit name _ => decide (name = n)
  | _ => false

/-- Is a restart of the unit queued by hand? -/
def Event.queues (n : String) : Event → Bool
  | .queueRestart name _ => decide (name = n)
  | _ => false

section Steps

variable {n : String} {unit : UnitFile} {hist : List UnitObs} {sys sys' : System} {e : Event}

/-- Only reaping and draining can touch the bookkeeping of a unit that is not started or queued. -/
theorem step_view (hexec : e.executes n = false) (hqueue : e.queues n = false)
    (hstep : sys.step e = some sys') :
    (SameView n sys sys' ∧ sys.clock ≤ sys'.clock ∧ unitObs n sys e = []) ∨
      (∃ pid status now, e = .reaped pid status now) ∨ (∃ now, e = .drainPendingRestarts now) ∨
      ∃ now os, e = .processRestarts now os := by
  cases e with
  | executeUnit name os =>
      have hname : name ≠ n := of_decide_eq_false hexec
      rcases System.executeUnit_cases hstep with hsame | ⟨unit', -, hstart⟩
      · exact Or.inl ⟨sameView_of_sameSystem hsame, le_of_eq hsame.clock.symm, rfl⟩
      · refine Or.inl ⟨sameView_of_startService hname hstart, le_of_eq ?_, rfl⟩
        rcases System.startService_cases hstart with hfailed | ⟨pid, hstarted⟩
        · exact hfailed.clock.symm
        · exact hstarted.clock.symm
  | reaped pid status now => exact Or.inr (Or.inl ⟨pid, status, now, rfl⟩)
  | acceptReady listenFd os =>
      refine Or.inl ⟨sameView_of_acceptReady hstep, le_of_eq ?_, rfl⟩
      rcases System.acceptReady_cases hstep with ⟨-, hnone | ⟨socket, svc, pid, hacc⟩⟩
      · exact hnone.clock.symm
      · exact hacc.clock.symm
  | processRestarts now os => exact Or.inr (Or.inr (Or.inr ⟨now, os, rfl⟩))
  | drainPendingRestarts now => exact Or.inr (Or.inr (Or.inl ⟨now, rfl⟩))
  | stopUnit name =>
      exact Or.inl ⟨sameView_of_stopUnit hstep, le_of_eq (System.stop_cases hstep).2.2.symm, rfl⟩
  | queueRestart name now =>
      have hname : name ≠ n := of_decide_eq_false hqueue
      refine Or.inl ⟨sameView_of_queueRestart hname hstep, ?_, rfl⟩
      rcases System.queue_cases hstep with ⟨hle, rfl⟩
      exact hle
  | adopt pid =>
      refine Or.inl ⟨sameView_of_adopt hstep, le_of_eq ?_, rfl⟩
      rcases System.adopt_cases hstep with ⟨-, rfl⟩
      rfl

theorem Lineage.step (h : Lineage n unit hist [] sys) (hexec : e.executes n = false)
    (hqueue : e.queues n = false) (hstep : sys.step e = some sys') :
    Lineage n unit (hist ++ unitObs n sys e) [] sys' := by
  rcases step_view hexec hqueue hstep with
    ⟨hview, hclock, hobs⟩ | ⟨pid, status, now, rfl⟩ | ⟨now, rfl⟩ | ⟨now, os, rfl⟩
  · rw [hobs, List.append_nil]
    exact h.congr (h.base.step hstep) (units_of_step hstep) hview hclock
  · have hreaped := System.reaped_cases hstep
    cases hmain : mainCounters sys n pid with
    | none => exact h.reaped_other hreaped hmain
    | some c => exact h.reaped_main hreaped hmain
  · rcases System.drain_cases hstep with ⟨hle, rfl⟩
    simpa [unitObs] using h.drained hle
  · exact h.processRestarts hstep

/-! ## Before the first start -/

/-- The unit has not been started yet; only connections may have been served. -/
structure Idle (n : String) (unit : UnitFile) (hist : List UnitObs) (sys : System) : Prop where
  base : BaseInv sys
  loaded : System.findService sys.init n = some unit
  main : mainCounters sys n = fun _ => none
  pending : pendingOf sys.init n = []
  counts : sys.init.restartCounts.lookup n = none
  finished : ∀ e ∈ exits hist, e.outcome = .finished
  restarts : restarts hist = []

theorem Booted.idle (h : Booted sys) (hunit : System.findService sys.init n = some unit) :
    Idle n unit [] sys where
  base := h.baseInv
  loaded := hunit
  main := by
    funext p
    exact mainCounters_of_notMem (by simp [h.children]) n
  pending := by simp [pendingOf, h.pendingRestarts]
  counts := by simp [h.restartCounts]
  finished := by simp [exits]
  restarts := rfl

namespace Idle

theorem congr (h : Idle n unit hist sys) (hbase : BaseInv sys')
    (hunits : sys'.init.units = sys.init.units) (hview : SameView n sys sys') :
    Idle n unit hist sys' where
  base := hbase
  loaded := (findService_of_units hunits n).trans h.loaded
  main := hview.main.trans h.main
  pending := hview.pending.trans h.pending
  counts := hview.counts.trans h.counts
  finished := h.finished
  restarts := h.restarts

theorem historyOk (h : Idle n unit hist sys) :
    HistoryOk unit.restartLimitBurst unit.restartLimitInterval hist initialWindow sys.clock := by
  have hhits : (exits hist).filterMap ExitObs.hit = [] := by
    refine List.filterMap_eq_nil_iff.mpr ?_
    intro e he
    simp [ExitObs.hit, h.finished e he]
  have hschedules : schedules hist = [] := by
    refine List.filterMap_eq_nil_iff.mpr ?_
    intro e he
    simp [h.finished e he]
  refine
    { hits := ⟨[], List.Pairwise.nil, by simp, hhits, rfl⟩
      schedule := by simp [hschedules]
      restart := by simp [h.restarts]
      sublist := by simp [h.restarts]
      final := ?_ }
  refine List.pairwise_of_forall_mem_list ?_
  intro e _ e' he' _
  simp [ExitObs.isScheduled, h.finished e' he']

theorem reaped (h : Idle n unit hist sys) {pid : Pid} {status : WaitStatus} {now : TimePoint}
    (hreaped : System.Reaped sys pid status now sys') :
    Idle n unit (hist ++ unitObs n sys (.reaped pid status now)) sys' := by
  have hmain : mainCounters sys n pid = none := by
    rw [h.main]
  rcases sameView_of_reaped h.base hreaped hmain with ⟨hview, hpolicy⟩
  have hnext : Idle n unit hist sys' := h.congr (h.base.reaped hreaped) hreaped.units hview
  rcases unitObs_reaped_cases hpolicy status now with hobs | ⟨e, hobs, hfinished⟩
  · rw [hobs, List.append_nil]
    exact hnext
  · rw [hobs]
    refine { hnext with finished := ?_, restarts := ?_ }
    · intro e' he'
      rw [exits_append, exits_exited] at he'
      rcases List.mem_append.mp he' with hold | hnew
      · exact h.finished e' hold
      · rw [List.mem_singleton.mp hnew]
        exact hfinished
    · rw [restarts_append, restarts_exited, List.append_nil]
      exact h.restarts

theorem processRestarts (h : Idle n unit hist sys) {now : TimePoint} {os : Nat → StartAnswers}
    (hstep : sys.step (.processRestarts now os) = some sys') : Idle n unit hist sys' := by
  rcases System.processRestarts_cases hstep with ⟨-, hrun⟩
  have hwaiting : ∀ pr ∈ pendingOf sys.init n, pr.isDue now = false := by
    simp [h.pending]
  have hview := sameView_of_drained hwaiting
  refine (System.restartAll_invariant
    (fun ready sys₁ => Idle n unit hist sys₁ ∧ ready.count n = 0) ?_ ?_ ?_
    ⟨h.congr (h.base.drained now) (units_of_drained now) hview.1, hview.2⟩ hrun).1
  · rintro ready sys₁ sys₂ ⟨hidle, hready⟩ hsame
    exact ⟨hidle.congr (hidle.base.sameSystem hsame) hsame.tables.units
      (sameView_of_sameSystem hsame), hready⟩
  · rintro name rest sys₁ ⟨hidle, hready⟩ -
    exact ⟨hidle, by rw [List.count_cons] at hready; omega⟩
  · rintro name rest sys₁ sys₂ unit' os' ⟨hidle, hready⟩ - hstart
    have hname : name ≠ n := by
      rintro rfl
      simp at hready
    exact ⟨hidle.congr (hidle.base.startService hstart) (units_of_startService hstart)
      (sameView_of_startService hname hstart), by rw [List.count_cons] at hready; omega⟩

theorem step (h : Idle n unit hist sys) (hexec : e.executes n = false)
    (hqueue : e.queues n = false) (hstep : sys.step e = some sys') :
    Idle n unit (hist ++ unitObs n sys e) sys' := by
  rcases step_view hexec hqueue hstep with
    ⟨hview, -, hobs⟩ | ⟨pid, status, now, rfl⟩ | ⟨now, rfl⟩ | ⟨now, os, rfl⟩
  · rw [hobs, List.append_nil]
    exact h.congr (h.base.step hstep) (units_of_step hstep) hview
  · exact h.reaped (System.reaped_cases hstep)
  · rcases System.drain_cases hstep with ⟨-, rfl⟩
    have hobs : unitObs n sys (.drainPendingRestarts now) = [] := rfl
    rw [hobs, List.append_nil]
    exact h.congr (h.base.drained now) (units_of_drained now)
      (sameView_of_drained (by simp [h.pending])).1
  · have hobs : unitObs n sys (.processRestarts now os) = [] := by
      simp [unitObs, h.pending]
    rw [hobs, List.append_nil]
    exact h.processRestarts hstep

/-- The first start begins the lineage, unless it fails or does not come about. -/
theorem execute (h : Idle n unit hist sys) {os : System.ExecuteAnswers}
    (hstep : sys.step (.executeUnit n os) = some sys') :
    Idle n unit hist sys' ∨ Lineage n unit hist [] sys' := by
  rcases System.executeUnit_cases hstep with hsame | ⟨unit', hfind, hstart⟩
  · exact Or.inl (h.congr (h.base.sameSystem hsame) hsame.tables.units
      (sameView_of_sameSystem hsame))
  · rw [h.loaded] at hfind
    obtain rfl := Option.some.inj hfind
    have hbase : BaseInv sys' := h.base.startService hstart
    have hunits : sys'.init.units = sys.init.units := units_of_startService hstart
    rcases System.startService_cases hstart with hfailed | ⟨pid, hstarted⟩
    · exact Or.inl (h.congr hbase hunits (sameView_of_startFailed hfailed))
    · have hschedules : schedules hist = [] := by
        refine List.filterMap_eq_nil_iff.mpr ?_
        intro e he
        simp [h.finished e he]
      let tp := sys.init.startedProcess n unit pid
      refine Or.inr
        { base := hbase
          loaded := (findService_of_units hunits n).trans h.loaded
          state := ⟨initialWindow, by rw [hstarted.clock]; exact h.historyOk,
            .running pid tp.counters ?_ ?_ rfl ?_ ?_ ?_ ?_ ?_⟩ }
      -- The first process starts with the default counters, since none are stored for the unit.
      · rw [mainCounters_of_started hstarted, if_pos rfl, h.main]
      · simpa only [pendingOf, hstarted.pendingRestarts] using h.pending
      · simp [tp, startedProcess, TrackedProcess.counters]
      · simp [tp, startedProcess, TrackedProcess.counters]
      · simp [tp, startedProcess, TrackedProcess.counters, h.counts, TrackedProcess.withCounts,
          trackedEntry, hschedules]
      · simp [tp, startedProcess, TrackedProcess.counters, h.counts, TrackedProcess.withCounts,
          trackedEntry, initialWindow]
      · intro e he
        simp [h.finished e he]

end Idle

end Steps

/-! ## Whole runs -/

section Runs

variable {n : String} {unit : UnitFile} {hist : List UnitObs} {sys sys' : System} {es : List Event}

theorem Lineage.run (h : Lineage n unit hist [] sys) (hexec : ∀ e ∈ es, e.executes n = false)
    (hqueue : ∀ e ∈ es, e.queues n = false) (hrun : sys.run es = some sys') :
    Lineage n unit (hist ++ StepRun.trace System.step (unitObs n) sys es) [] sys' := by
  refine StepRun.run_history_invariant (fun _ e => e.executes n = false ∧ e.queues n = false)
    (fun hist sys => Lineage n unit hist [] sys) ?_ h
    (StepRun.stepsMeet_of_forall sys (fun e he => ⟨hexec e he, hqueue e he⟩)) hrun
  intro hist sys e sys' hlin hok hstep
  exact hlin.step hok.1 hok.2 hstep

/-- The run splits at the one event that executes the unit. -/
theorem Idle.run (h : Idle n unit hist sys) (hexec : es.countP (Event.executes n) ≤ 1)
    (hqueue : ∀ e ∈ es, e.queues n = false) (hrun : sys.run es = some sys') :
    Idle n unit (hist ++ StepRun.trace System.step (unitObs n) sys es) sys' ∨
      Lineage n unit (hist ++ StepRun.trace System.step (unitObs n) sys es) [] sys' := by
  induction es generalizing sys hist with
  | nil =>
      obtain rfl := Option.some.inj hrun
      exact Or.inl (by simpa using h)
  | cons e es ih =>
      rcases StepRun.run_cons_eq_some.mp hrun with ⟨sys₁, hstep, hrest⟩
      have hqueue' : ∀ e' ∈ es, e'.queues n = false :=
        fun e' he' => hqueue e' (List.mem_cons_of_mem e he')
      rw [StepRun.trace_cons_of_step _ hstep, ← List.append_assoc]
      cases he : e.executes n with
      | false =>
          rw [List.countP_cons_of_neg (by simp [he])] at hexec
          exact ih (h.step he (hqueue e (by simp)) hstep) hexec hqueue' hrest
      | true =>
          -- This event executes the unit, so no later one does.
          rw [List.countP_cons_of_pos he] at hexec
          have hzero : es.countP (Event.executes n) = 0 := by
            omega
          have hexec' : ∀ e' ∈ es, e'.executes n = false := by
            intro e' he'
            simpa using List.countP_eq_zero.mp hzero e' he'
          cases e with
          | executeUnit name os =>
              obtain rfl : name = n := of_decide_eq_true he
              have hobs : unitObs name sys (.executeUnit name os) = [] := rfl
              rw [hobs, List.append_nil]
              -- Without a start the unit stays idle for good; otherwise its lineage begins here.
              rcases h.execute hstep with hidle | hlin
              · exact ih hidle (by omega) hqueue' hrest
              · exact Or.inr (hlin.run hexec' hqueue' hrest)
          | _ => cases he

/-- The history of a unit that is executed at most once and never queued by hand. -/
theorem historyOk_of_run {boot : System} (hboot : Booted boot)
    (hunit : System.findService boot.init n = some unit)
    (hexec : es.countP (Event.executes n) ≤ 1) (hqueue : ∀ e ∈ es, e.queues n = false)
    (hrun : boot.run es = some sys') :
    ∃ w, HistoryOk unit.restartLimitBurst unit.restartLimitInterval
      (StepRun.trace System.step (unitObs n) boot es) w sys'.clock := by
  have hstate := (hboot.idle hunit).run hexec hqueue hrun
  rw [List.nil_append] at hstate
  rcases hstate with hidle | hlin
  · exact ⟨initialWindow, hidle.historyOk⟩
  · rcases hlin.state with ⟨w, hhist, -⟩
    exact ⟨w, hhist⟩

end Runs

end TrivialInit
