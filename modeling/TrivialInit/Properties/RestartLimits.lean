import TrivialInit.Properties.DependencyOrder
import TrivialInit.Properties.RestartLineage

/-!
# RestartLimits — how often and how soon a unit is restarted

Both results are about whole runs from boot in which `execute(UnitExecute)` reaches the unit at most
once and `queue_restart` is not called for it; everything else may happen in any order.  They read
the burst limit and the back-off off the history that `RestartLineage` maintains.
-/

namespace TrivialInit

open InitSystem

/-! ## Requests to the limiter -/

namespace ExitObs

/-- A request carries the time and the reset of its exit, and is allowed if a restart follows. -/
theorem of_hit {e : ExitObs} {h : FixedWindow.Hit Int} (hhit : e.hit = some h) :
    h.time = e.now ∧ h.reset = e.reset ∧ h.allowed = e.isScheduled := by
  unfold hit at hhit
  unfold isScheduled
  cases houtcome : e.outcome with
  | finished => simp [houtcome] at hhit
  | exhausted =>
      simp only [houtcome, Option.some.injEq] at hhit
      subst hhit
      exact ⟨rfl, rfl, rfl⟩
  | scheduled pr =>
      simp only [houtcome, Option.some.injEq] at hhit
      subst hhit
      exact ⟨rfl, rfl, rfl⟩

/-- An exit without a request schedules nothing. -/
theorem isScheduled_of_hit_none {e : ExitObs} (hhit : e.hit = none) : e.isScheduled = false := by
  unfold hit at hhit
  unfold isScheduled
  cases houtcome : e.outcome with
  | finished => rfl
  | exhausted => simp [houtcome] at hhit
  | scheduled pr => simp [houtcome] at hhit

end ExitObs

/-- Counting scheduled exits is counting allowed requests. -/
theorem countP_scheduled_eq (es : List ExitObs) (within : TimePoint → Bool) :
    es.countP (fun e => e.isScheduled && within e.now) =
      (es.filterMap ExitObs.hit).countP (fun h => h.allowed && within h.time) := by
  rw [List.countP_filterMap]
  refine List.countP_congr ?_
  intro e _
  cases hhit : e.hit with
  | none => simp [ExitObs.isScheduled_of_hit_none hhit]
  | some h =>
      rcases ExitObs.of_hit hhit with ⟨htime, -, hallowed⟩
      simp [htime, hallowed]

/-- After the first request of a segment, no request resets the window if no later exit does. -/
theorem hits_tail_not_reset {seg : List ExitObs} (hseg : ∀ e ∈ seg.tail, e.reset = false) :
    ∀ h ∈ (seg.filterMap ExitObs.hit).tail, h.reset = false := by
  have hlater : ∀ h ∈ seg.tail.filterMap ExitObs.hit, h.reset = false := by
    intro h hh
    rcases List.mem_filterMap.mp hh with ⟨e, he, hhit⟩
    rw [(ExitObs.of_hit hhit).2.1]
    exact hseg e he
  cases seg with
  | nil => simp
  | cons e seg =>
      rw [List.filterMap_cons]
      -- If the first exit made no request, even the first request comes from the tail.
      cases e.hit with
      | none => exact fun h hh => hlater h (List.mem_of_mem_tail hh)
      | some h => exact hlater

/-! ## The burst limit -/

/-- How many restarts are scheduled in the closed interval of `intervalS` seconds from `a` on. -/
def scheduledWithin (intervalS : Int) (a : TimePoint) (es : List ExitObs) : Int :=
  es.countP (fun e => e.isScheduled && decide (a ≤ e.now ∧ e.now ≤ a + seconds intervalS))

section Limits

variable {limit intervalS : Int} {hist : List UnitObs} {w : FixedWindow.Window Int}
  {clock : TimePoint}

theorem HistoryOk.scheduled_le_limit (h : HistoryOk limit intervalS hist w clock)
    (hlimit : 0 ≤ limit) {before seg rest : List ExitObs}
    (hsplit : exits hist = before ++ (seg ++ rest)) (hseg : ∀ e ∈ seg.tail, e.reset = false) :
    (seg.countP ExitObs.isScheduled : Int) ≤ limit := by
  rcases h.hits with ⟨times, -, -, hhits, -⟩
  have hcount := countP_scheduled_eq seg (fun _ => true)
  simp only [Bool.and_true] at hcount
  rw [hcount]
  rw [hsplit, List.filterMap_append, List.filterMap_append] at hhits
  exact FixedWindow.countP_allowed_le_limit hlimit (le_refl 0) hhits.symm (hits_tail_not_reset hseg)

theorem HistoryOk.scheduledWithin_le (h : HistoryOk limit intervalS hist w clock)
    (hlimit : 0 ≤ limit) (a : TimePoint) :
    scheduledWithin intervalS a (exits hist) ≤ 2 * limit := by
  rcases h.hits with ⟨times, hsorted, -, hhits, -⟩
  have hcount : scheduledWithin intervalS a (exits hist) =
      FixedWindow.allowedWithin (seconds intervalS) a
        (FixedWindow.hits (seconds intervalS) limit initialWindow times) := by
    rw [← hhits]
    exact congrArg Nat.cast (countP_scheduled_eq (exits hist)
      (fun t => decide (a ≤ t ∧ t ≤ a + seconds intervalS)))
  rw [hcount]
  exact FixedWindow.allowedWithin_le_two_mul hlimit (le_refl 0) hsorted a

end Limits

/-- In every run, `reap_children` schedules at most `limit` restarts of the unit from one reset of
its burst window up to the next, at most `2 * limit` in any closed interval as long as the window,
and none after an exit that found the window exhausted. -/
theorem restarts_rate_limited {boot sys : System} {n : String} {unit : UnitFile} {es : List Event}
    (hboot : Booted boot) (hunit : System.findService boot.init n = some unit)
    (hlimit : 0 ≤ unit.restartLimitBurst) (hexec : es.countP (Event.executes n) ≤ 1)
    (hqueue : ∀ e ∈ es, e.queues n = false) (hrun : boot.run es = some sys) :
    let obs := exits (StepRun.trace System.step (unitObs n) boot es)
    (∀ before seg rest, obs = before ++ (seg ++ rest) → (∀ e ∈ seg.tail, e.reset = false) →
      (seg.countP ExitObs.isScheduled : Int) ≤ unit.restartLimitBurst) ∧
    (∀ a, scheduledWithin unit.restartLimitInterval a obs ≤ 2 * unit.restartLimitBurst) ∧
    obs.Pairwise (fun e e' => e.outcome = .exhausted → e'.isScheduled = false) := by
  rcases historyOk_of_run hboot hunit hexec hqueue hrun with ⟨w, hhist⟩
  refine ⟨?_, ?_, hhist.final⟩
  · intro before seg rest hsplit hseg
    exact hhist.scheduled_le_limit hlimit hsplit hseg
  · exact hhist.scheduledWithin_le hlimit

/-- A service that crashes, is restarted, and crashes again. -/
def sampleCrashes : List Event :=
  [ .executeUnit "web.service" (forkedAs 100),
    .reaped 100 (.exited 1) 1000000000,
    .processRestarts 1200000000 (fun _ => { forked := .ok 101 }),
    .reaped 101 (.signaled 11) 2000000000 ]

theorem restarts_rate_limited_sample :
    ∃ sys, sampleBoot.run sampleCrashes = some sys ∧
      scheduledWithin 10 0
        (exits (StepRun.trace System.step (unitObs "web.service") sampleBoot sampleCrashes)) ≤
          10 := by
  have hsome : (sampleBoot.run sampleCrashes).isSome = true := by
    decide
  rcases Option.isSome_iff_exists.mp hsome with ⟨sys, hrun⟩
  have hweb : System.findService sampleBoot.init "web.service" = some sampleWeb := rfl
  have hlimits := restarts_rate_limited sampleBoot_booted hweb (by decide) (by decide) (by decide)
    hrun
  exact ⟨sys, hrun, hlimits.2.1 0⟩

/-! ## The back-off -/

/-- The number of restarts recorded for `process_restarts` is the number of its calls of
`start_service` for the unit. -/
theorem length_restarts_processRestarts (sys : System) (n : String) (now : TimePoint)
    (os : Nat → StartAnswers) :
    (restarts (unitObs n sys (.processRestarts now os))).length =
      (System.restartCalls (sys.init.drainPendingRestarts now).2
        (sys.init.drainPendingRestarts now).1 os).countP (fun c => decide (c.1 = n)) := by
  have hrestarted : ∀ l : List PendingRestart,
      restarts (l.map (UnitObs.restarted now)) = l.map (fun pr => (now, pr)) := by
    intro l
    simp [restarts, List.filterMap_map]
  rw [System.countP_restartCalls, findService_of_units (units_of_drained now), count_ready]
  unfold unitObs
  dsimp only
  split_ifs with hloaded
  · rw [hrestarted, List.length_map]
  · rfl

/-- Every scheduled restart is a different one: it carries its own number. -/
theorem HistoryOk.nodup_schedules {limit intervalS : Int} {hist : List UnitObs}
    {w : FixedWindow.Window Int} {clock : TimePoint}
    (h : HistoryOk limit intervalS hist w clock) : ((schedules hist).map Prod.snd).Nodup := by
  refine List.nodup_iff_injective_getElem.mpr ?_
  rintro ⟨i, hi⟩ ⟨j, hj⟩ heq
  rw [List.length_map] at hi hj
  have hnumber : ∀ k (hk : k < (schedules hist).length),
      ((schedules hist)[k]).2.restartCount = k + 1 := by
    intro k hk
    exact (h.schedule k _ _ (List.getElem?_eq_getElem hk)).1
  have hsame : ((schedules hist)[i]).2 = ((schedules hist)[j]).2 := by
    simpa using heq
  have hij : (i : Int) + 1 = j + 1 := by
    rw [← hnumber i hi, ← hnumber j hj, hsame]
  have hindex : i = j := by
    omega
  subst hindex
  rfl

/-- The pending restarts that are not due at `now`. -/
def notDue (now : TimePoint) (l : List PendingRestart) : List PendingRestart :=
  l.filter (fun pr => decide (now < pr.when))

/-- In every run, the `k`-th scheduled restart of the unit is passed to `start_service` at most once,
and not before its back-off is over; nothing else is passed on.  Draining, alone or in
`process_restarts`, keeps the pending restarts of all units that are not due, in their order. -/
theorem restarts_backed_off {boot sys : System} {n : String} {unit : UnitFile} {es : List Event}
    (hboot : Booted boot) (hunit : System.findService boot.init n = some unit)
    (hexec : es.countP (Event.executes n) ≤ 1) (hqueue : ∀ e ∈ es, e.queues n = false)
    (hrun : boot.run es = some sys) :
    let hist := StepRun.trace System.step (unitObs n) boot es
    (∀ (k : Nat) (t : TimePoint) (pr : PendingRestart), (schedules hist)[k]? = some (t, pr) →
      (restarts hist).countP (fun r => decide (r.2 = pr)) ≤ 1 ∧
      ∀ r ∈ restarts hist, r.2 = pr → t + milliseconds (min (100 * 2 ^ min k 13) 600000) ≤ r.1) ∧
    ((restarts hist).map Prod.snd).Sublist ((schedules hist).map Prod.snd) ∧
    (∀ now next, sys.step (.drainPendingRestarts now) = some next →
      next.init.pendingRestarts = notDue now sys.init.pendingRestarts) ∧
    ∀ now os next, sys.step (.processRestarts now os) = some next →
      next.init.pendingRestarts = notDue now sys.init.pendingRestarts := by
  rcases historyOk_of_run hboot hunit hexec hqueue hrun with ⟨w, hhist⟩
  have hkept : ∀ now, (sys.init.drainPendingRestarts now).2.pendingRestarts =
      notDue now sys.init.pendingRestarts := by
    intro now
    rw [drainPendingRestarts_eq, notDue]
    refine List.filter_congr ?_
    intro pr _
    simp only [PendingRestart.isDue, ge_iff_le, ← decide_not, not_le]
  refine ⟨?_, hhist.sublist, ?_, ?_⟩
  · intro k t pr hk
    have hwhen := (hhist.schedule k t pr hk).2
    refine ⟨?_, ?_⟩
    -- The entries passed on form a sublist of the scheduled ones, which are all different.
    · have hnodup := hhist.sublist.nodup hhist.nodup_schedules
      have hcount := List.nodup_iff_count_le_one.mp hnodup pr
      rw [List.count, List.countP_map] at hcount
      have hsame : ∀ r ∈ restarts (StepRun.trace System.step (unitObs n) boot es),
          (decide (r.2 = pr) = true ↔ ((fun pr' => pr' == pr) ∘ Prod.snd) r = true) := by
        simp
      rw [List.countP_congr hsame]
      exact hcount
    · intro r hr hpr
      have hdue := hhist.restart r hr
      rw [hpr, hwhen] at hdue
      exact hdue
  · intro now next hstep
    rcases System.drain_cases hstep with ⟨-, rfl⟩
    exact hkept now
  · intro now os next hstep
    rw [pendingRestarts_of_processRestarts hstep, hkept]

theorem restarts_backed_off_sample :
    ∃ sys t pr, sampleBoot.run sampleCrashes = some sys ∧
      (schedules (StepRun.trace System.step (unitObs "web.service") sampleBoot
        sampleCrashes))[1]? = some (t, pr) ∧
      ∀ r ∈ restarts (StepRun.trace System.step (unitObs "web.service") sampleBoot sampleCrashes),
        r.2 = pr → t + milliseconds 200 ≤ r.1 := by
  have hsome : (sampleBoot.run sampleCrashes).isSome = true := by
    decide
  have hsecond : ((schedules (StepRun.trace System.step (unitObs "web.service") sampleBoot
      sampleCrashes))[1]?).isSome = true := by
    decide
  have hweb : System.findService sampleBoot.init "web.service" = some sampleWeb := rfl
  rcases Option.isSome_iff_exists.mp hsome with ⟨sys, hrun⟩
  rcases Option.isSome_iff_exists.mp hsecond with ⟨⟨t, pr⟩, hpr⟩
  have hbackoff := restarts_backed_off sampleBoot_booted hweb (by decide) (by decide) hrun
  exact ⟨sys, t, pr, hrun, hpr, (hbackoff.1 1 t pr hpr).2⟩

/-! ## The runs of the program -/

/-- `execute(UnitExecute)` works through the resolved order, so it reaches a unit at most once. -/
theorem countP_executes_le_one {s : InitSystem} {inDegreeOrder : List String}
    (hiter : inDegreeOrder.Perm (DependencyGraph.build s.units).inDegree.keys)
    (os : Nat → System.ExecuteAnswers) (n : String) :
    (((s.executeDependencyResolve inDegreeOrder).execOrder.zipIdx).map
      (fun p => Event.executeUnit p.1 (os p.2))).countP (Event.executes n) ≤ 1 := by
  have hnodup : (s.executeDependencyResolve inDegreeOrder).execOrder.Nodup := by
    rw [executeDependencyResolve_execOrder]
    exact nodup_resolveOrder hiter
  generalize (s.executeDependencyResolve inDegreeOrder).execOrder = order at hnodup ⊢
  have hnames : (order.zipIdx.map Prod.fst).count n ≤ 1 := by
    rw [List.zipIdx_map_fst]
    exact List.nodup_iff_count_le_one.mp hnodup n
  rw [List.count, List.countP_map] at hnames
  rw [List.countP_map]
  refine le_trans (le_of_eq (List.countP_congr ?_)) hnames
  rintro ⟨name, i⟩ -
  simp [Event.executes]

end TrivialInit
