import TrivialInit.Properties.ShutdownOrder

/-!
# ShutdownRequest — `SIGTERM` and `SIGINT` end the main loop, and nothing else does

`drain_signals` reads until no signal is pending, so the poll that reports the signal descriptor is
the last one of the main loop (`RunState.shutdown_prompt`).  `epoll_wait` leaves the descriptor out
only when it is interrupted or has sixteen other events to report.
-/

namespace TrivialInit

open InitSystem

namespace RunPoint

/-- On the way to the end of `drain_signals`, before the main loop is back at its condition. -/
def readsSignals : RunPoint → Bool
  | .polled events .mainLoop => decide (.signals ∈ events)
  | .accepting _ _ _ rest => decide (.signals ∈ rest)
  | .draining _ .mainLoop => true
  | .reaping _ .mainLoop => true
  | _ => false

end RunPoint

/-- The answer of `epoll_wait` tells of pending signals, if there are any. -/
def Attentive (polled : Option (List PollEvent)) : Prop :=
  ∃ events, polled = some events ∧ (.signals ∈ events ∨ events.length < Poll.mainLoop.maxEvents)

instance : DecidablePred Attentive := fun polled =>
  match polled with
  | none => .isFalse (by rintro ⟨events, h, -⟩; nomatch h)
  | some events =>
      decidable_of_iff (.signals ∈ events ∨ events.length < Poll.mainLoop.maxEvents)
        (by simp [Attentive])

namespace RunState

/-- The answers `epoll_wait` gives in the main loop. -/
def loopPolls (m : RunState) : RunEvent → List (Option (List PollEvent))
  | .program a =>
      match m.point with
      | .loopHead => if m.shutdownRequested then [] else [a.polled]
      | _ => []
  | _ => []

/-- A shutdown was requested, or the signal that requests it waits to be read. -/
def ShutdownAsked (m : RunState) : Prop :=
  m.shutdownRequested = true ∨ .term ∈ m.pending ∨ .int ∈ m.pending

instance (m : RunState) : Decidable m.ShutdownAsked := by
  unfold ShutdownAsked
  infer_instance

/-- The condition of the main loop will not hold any more. -/
def Committed (m : RunState) : Prop :=
  m.shutdownRequested = true ∨ m.point.readsSignals = true ∨ m.point.inShutdown = true

variable {m m' : RunState} {a : RunAnswer}

theorem maybeFixRuntimeDirs_same (m : RunState) :
    m.maybeFixRuntimeDirs.shutdownRequested = m.shutdownRequested ∧
      m.maybeFixRuntimeDirs.pending = m.pending := by
  unfold maybeFixRuntimeDirs
  dsimp only
  split_ifs <;> exact ⟨rfl, rfl⟩

/-- The signal `signal` is read; `SIGTERM` and `SIGINT` request the shutdown. -/
def ReadsOne (m m' : RunState) (signal : Signal) : Prop :=
  signal ∈ m.pending ∧ m'.pending = m.pending.erase signal ∧
    (m'.shutdownRequested = true ∧ (signal = .term ∨ signal = .int) ∨
      m'.shutdownRequested = m.shutdownRequested ∧ signal ≠ .term ∧ signal ≠ .int)

theorem draining_cases {rest : List PollEvent} {poll : Poll}
    (hpoint : m.point = .draining rest poll) (h : m.programStep a = some m') :
    (m.pending = ∅ ∧ m' = { m with point := .polled rest poll }) ∨
      ∃ signal, ReadsOne m m' signal := by
  simp only [programStep, hpoint, stepDraining] at h
  cases hanswer : a.signal with
  | none =>
      simp only [hanswer] at h
      split_ifs at h with hempty
      exact Or.inl ⟨hempty, (Option.some.inj h).symm⟩
  | some signal =>
      simp only [hanswer] at h
      split_ifs at h with hpending
      refine Or.inr ?_
      cases signal with
      | chld =>
          obtain rfl := Option.some.inj h
          exact ⟨.chld, hpending, rfl, Or.inr ⟨rfl, by decide, by decide⟩⟩
      | usr1 =>
          obtain rfl := Option.some.inj h
          exact ⟨.usr1, hpending, rfl, Or.inr ⟨rfl, by decide, by decide⟩⟩
      | term =>
          obtain rfl := Option.some.inj h
          exact ⟨.term, hpending, rfl, Or.inl ⟨rfl, Or.inl rfl⟩⟩
      | int =>
          obtain rfl := Option.some.inj h
          exact ⟨.int, hpending, rfl, Or.inl ⟨rfl, Or.inr rfl⟩⟩

/-- Outside `drain_signals` no signal is read. -/
theorem programStep_signals (h : m.programStep a = some m') :
    (m'.shutdownRequested = m.shutdownRequested ∧ m'.pending = m.pending) ∨
      ∃ signal, ReadsOne m m' signal := by
  have hcases := programStep_cases h
  generalize hpoint : m.point = point at hcases
  have hread : ∀ rest poll, m.point = .draining rest poll →
      (m'.shutdownRequested = m.shutdownRequested ∧ m'.pending = m.pending) ∨
        ∃ signal, ReadsOne m m' signal := by
    intro rest poll hpoint
    rcases draining_cases hpoint h with ⟨-, rfl⟩ | hread
    · exact Or.inl ⟨rfl, rfl⟩
    · exact Or.inr hread
  cases hcases with
  | readsChld hpending => exact hread _ _ hpoint
  | readsUsr1 hpending => exact hread _ _ hpoint
  | readsShutdown hpending hsignal => exact hread _ _ hpoint
  | quits hquit => exact Or.inl m.maybeFixRuntimeDirs_same
  | loops hquit => exact Or.inl m.maybeFixRuntimeDirs_same
  | _ => exact Or.inl ⟨rfl, rfl⟩

/-! ## A request is not forgotten -/

theorem ReadsOne.asked {signal : Signal} (h : ReadsOne m m' signal) (hasked : m.ShutdownAsked) :
    m'.ShutdownAsked := by
  obtain ⟨-, hpending, ⟨hrequested, -⟩ | ⟨hsame, hterm, hint⟩⟩ := h
  · exact Or.inl hrequested
  · rcases hasked with hrequested | hmem | hmem
    · exact Or.inl (hsame.trans hrequested)
    · exact Or.inr (Or.inl (hpending ▸ Finset.mem_erase.mpr ⟨hterm.symm, hmem⟩))
    · exact Or.inr (Or.inr (hpending ▸ Finset.mem_erase.mpr ⟨hint.symm, hmem⟩))

theorem ShutdownAsked.step (hasked : m.ShutdownAsked) {e : RunEvent} (h : m.step e = some m') :
    m'.ShutdownAsked := by
  cases e with
  | exits pid status =>
      obtain ⟨-, rfl⟩ := exits_cases h
      exact hasked.imp_right (Or.imp Finset.mem_insert_of_mem Finset.mem_insert_of_mem)
  | adopts pid =>
      obtain ⟨-, -, rfl⟩ := adopts_cases h
      exact hasked
  | raises signal =>
      obtain rfl := Option.some.inj h
      exact hasked.imp_right (Or.imp Finset.mem_insert_of_mem Finset.mem_insert_of_mem)
  | program a =>
      rcases programStep_signals h with ⟨hrequested, hpending⟩ | ⟨signal, hread⟩
      · unfold ShutdownAsked
        rw [hrequested, hpending]
        exact hasked
      · exact hread.asked hasked

/-- A request stays. -/
theorem requested_step (hrequested : m.shutdownRequested = true)
    (h : m.programStep a = some m') : m'.shutdownRequested = true := by
  rcases programStep_signals h with ⟨hsame, -⟩ | ⟨signal, -, -, ⟨hset, -⟩ | ⟨hsame, -⟩⟩
  · exact hsame.trans hrequested
  · exact hset
  · exact hsame.trans hrequested

theorem readsSignals_step (hasked : m.ShutdownAsked) (hreads : m.point.readsSignals = true)
    (h : m.programStep a = some m') :
    m'.shutdownRequested = true ∨ m'.point.readsSignals = true := by
  have hcases := programStep_cases h
  generalize hpoint : m.point = point at hcases hreads
  cases hcases with
  | signalled =>
      rename_i poll
      cases poll <;> first | exact Or.inr rfl | nomatch hreads
  | forksConnection hpid hfresh => exact Or.inr (by simpa [RunPoint.readsSignals] using hreads)
  | notAccepted hpid hsys => exact Or.inr (by simpa [RunPoint.readsSignals] using hreads)
  | accepts hsys => exact Or.inr (by simpa [RunPoint.readsSignals] using hreads)
  | noSignal hpending =>
      -- The signal has been read already.
      refine Or.inl (hasked.resolve_right ?_)
      simp [hpending]
  | readsChld hpending =>
      rename_i poll
      cases poll <;> first | exact Or.inr rfl | nomatch hreads
  | readsShutdown hpending hsignal => exact Or.inl rfl
  | readsUsr1 hpending => exact Or.inr ((congrArg RunPoint.readsSignals hpoint).trans hreads)
  | noChild hchild hnone =>
      rename_i poll
      cases poll <;> first | exact Or.inr rfl | nomatch hreads
  | reaps hchild hexited hsys =>
      exact Or.inr ((congrArg RunPoint.readsSignals hpoint).trans hreads)
  | skipsDescriptor hpoll =>
      rename_i poll
      cases poll <;> first | exact absurd rfl hpoll | nomatch hreads
  | drainsRestarts hsys => simp [RunPoint.readsSignals] at hreads
  | _ => nomatch hreads

theorem Committed.step (hcommitted : m.Committed) (hasked : m.ShutdownAsked) {e : RunEvent}
    (h : m.step e = some m') : m'.Committed := by
  cases e with
  | exits pid status =>
      obtain ⟨-, rfl⟩ := exits_cases h
      exact hcommitted
  | adopts pid =>
      obtain ⟨-, -, rfl⟩ := adopts_cases h
      exact hcommitted
  | raises signal =>
      obtain rfl := Option.some.inj h
      exact hcommitted
  | program a =>
      rcases hcommitted with hrequested | hreads | hshut
      · exact Or.inl (requested_step hrequested h)
      · exact (readsSignals_step hasked hreads h).imp_right Or.inl
      · exact Or.inr (Or.inr (inShutdown_step hshut h))

theorem not_committed_of_loopPolls {e : RunEvent} (hpolls : m.loopPolls e ≠ []) :
    ¬ m.Committed := by
  cases e with
  | program a =>
      cases hpoint : m.point with
      | loopHead =>
          simp only [loopPolls, hpoint] at hpolls
          split_ifs at hpolls with hrequested
          · exact absurd rfl hpolls
          · simp [Committed, hrequested, hpoint, RunPoint.readsSignals, RunPoint.inShutdown,
              RunPoint.afterStop]
      | _ => simp [loopPolls, hpoint] at hpolls
  | _ => exact absurd rfl hpolls

/-- An attentive poll reports the signal that is pending. -/
theorem committed_of_attentive (hasked : m.ShutdownAsked) {e : RunEvent}
    (h : m.step e = some m') {polled : Option (List PollEvent)}
    (hpolls : m.loopPolls e = [polled]) (hattentive : Attentive polled) : m'.Committed := by
  cases e with
  | program a =>
      cases hpoint : m.point with
      | loopHead =>
          simp only [loopPolls, hpoint] at hpolls
          split_ifs at hpolls with hrequested
          obtain rfl := List.singleton_inj.mp hpolls
          obtain ⟨events, hanswer, hlast⟩ := hattentive
          simp only [RunState.step, programStep, hpoint, hanswer] at h
          rw [if_neg hrequested] at h
          unfold RunState.poll at h
          split_ifs at h with hpossible
          obtain rfl := Option.some.inj h
          obtain ⟨-, hempty | hmem | hfull⟩ := hpossible
          · simp [ShutdownAsked, hrequested, hempty] at hasked
          · exact Or.inr (Or.inl (by simpa [RunPoint.readsSignals] using hmem))
          · have hmem := hlast.resolve_right (by omega)
            exact Or.inr (Or.inl (by simpa [RunPoint.readsSignals] using hmem))
      | _ => simp [loopPolls, hpoint] at hpolls
  | _ => nomatch hpolls

theorem loopPolls_cases (m : RunState) (e : RunEvent) :
    m.loopPolls e = [] ∨ ∃ polled, m.loopPolls e = [polled] := by
  unfold loopPolls
  split
  · split
    · split_ifs
      · exact Or.inl rfl
      · exact Or.inr ⟨_, rfl⟩
    · exact Or.inl rfl
  · exact Or.inl rfl

/-- After a request the polls so far were not attentive, but for the last one when the main loop is
about to end. -/
def AskedInv (tr : List (Option (List PollEvent))) (m : RunState) : Prop :=
  m.ShutdownAsked ∧
    ((∀ polled ∈ tr, ¬ Attentive polled) ∨
      (m.Committed ∧ ∀ polled ∈ tr.dropLast, ¬ Attentive polled))

theorem AskedInv.step {tr : List (Option (List PollEvent))} (h : AskedInv tr m) {e : RunEvent}
    (hstep : m.step e = some m') : AskedInv (tr ++ m.loopPolls e) m' := by
  obtain ⟨hasked, hpolls⟩ := h
  refine ⟨hasked.step hstep, ?_⟩
  rcases m.loopPolls_cases e with hnone | ⟨polled, hone⟩
  · rw [hnone, List.append_nil]
    exact hpolls.imp_right (And.imp_left (fun hcommitted => hcommitted.step hasked hstep))
  · have hnot : ¬ m.Committed := not_committed_of_loopPolls (hone ▸ List.cons_ne_nil _ _)
    have hall := hpolls.resolve_right (fun hboth => hnot hboth.1)
    rw [hone]
    by_cases hattentive : Attentive polled
    · refine Or.inr ⟨committed_of_attentive hasked hstep hone hattentive, ?_⟩
      rw [List.dropLast_concat]
      exact hall
    · refine Or.inl (fun p hp => ?_)
      rcases List.mem_append.mp hp with hold | hnew
      · exact hall p hold
      · exact (List.mem_singleton.mp hnew) ▸ hattentive

/-- When `SIGTERM` or `SIGINT` is pending or has been read, the main loop goes on only behind a poll
that was interrupted or had sixteen other events to report. -/
theorem shutdown_prompt {es : List RunEvent} (hasked : m.ShutdownAsked)
    (hrun : m.run es = some m') :
    ∀ polled ∈ (StepRun.trace RunState.step loopPolls m es).dropLast, ¬ Attentive polled := by
  have hinv := StepRun.run_history_of_step AskedInv (fun _ _ _ _ h hstep => h.step hstep)
    ⟨hasked, Or.inl (List.forall_mem_nil _)⟩ hrun
  obtain ⟨-, hall | ⟨-, hall⟩⟩ := hinv
  · exact fun polled hpolled => hall polled (List.mem_of_mem_dropLast hpolled)
  · exact hall

/-- The first poll is interrupted, and the second one reports `SIGTERM`. -/
def interruptedOnce : List RunEvent :=
  [.program {}, .program {}, .program {}] ++ databaseRun.drop 8

theorem shutdown_prompt_sample :
    ∃ m m', databaseBoot.run (databaseRun.take 8) = some m ∧ m.run interruptedOnce = some m' ∧
      (StepRun.trace RunState.step loopPolls m interruptedOnce).length = 2 ∧
      ∀ polled ∈ (StepRun.trace RunState.step loopPolls m interruptedOnce).dropLast,
        ¬ Attentive polled := by
  have hsome : (databaseBoot.run (databaseRun.take 8)).any (fun m =>
      decide m.ShutdownAsked && (m.run interruptedOnce).isSome &&
        decide ((StepRun.trace RunState.step loopPolls m interruptedOnce).length = 2)) = true := by
    decide +kernel
  obtain ⟨m, hm, hall⟩ := (Option.any_eq_true _ _).mp hsome
  simp only [Bool.and_eq_true, decide_eq_true_eq] at hall
  obtain ⟨⟨hasked, hrest⟩, hlength⟩ := hall
  obtain ⟨m', hm'⟩ := Option.isSome_iff_exists.mp hrest
  exact ⟨m, m', hm, hm', hlength, shutdown_prompt hasked hm'⟩

/-! ## Only a request ends the main loop -/

/-- A signal that asks for the shutdown, or the end of the user interface of a process that is not
PID 1, where the main loop asks for it. -/
def AsksShutdown (m : RunState) : RunEvent → Prop
  | .raises signal => signal = .term ∨ signal = .int
  | .program a => m.point = .restarting [] ∧ a.quit = true
  | _ => False

/-- No request so far. -/
structure Unasked (m : RunState) : Prop where
  asked : ¬ m.ShutdownAsked
  loop : m.point.inShutdown = false

theorem ReadsOne.unasked {signal : Signal} (h : ReadsOne m m' signal)
    (hasked : ¬ m.ShutdownAsked) : ¬ m'.ShutdownAsked := by
  obtain ⟨hmem, hpending, ⟨-, rfl | rfl⟩ | ⟨hsame, -⟩⟩ := h
  · exact absurd (Or.inr (Or.inl hmem)) hasked
  · exact absurd (Or.inr (Or.inr hmem)) hasked
  · unfold ShutdownAsked
    rw [hsame, hpending]
    refine mt (fun hasked' => ?_) hasked
    exact hasked'.imp_right (Or.imp Finset.mem_of_mem_erase Finset.mem_of_mem_erase)

/-- Without a request the main loop ends for the user interface only. -/
theorem programStep_inShutdown (h : m.programStep a = some m') (hunasked : Unasked m)
    (hquit : ¬ m.AsksShutdown (.program a)) : m'.point.inShutdown = false := by
  have hcases := programStep_cases h
  have hloop := hunasked.loop
  generalize hpoint : m.point = point at hcases hloop
  cases hcases with
  | leavesMainLoop hshut => exact absurd (Or.inl hshut) hunasked.asked
  | quits hyes => exact absurd ⟨hpoint, hyes⟩ hquit
  | notStarted htodo hpid hsys => simp
  | tracks hsys => simp
  | signalled => exact hloop
  | skipsDescriptor hpoll => exact hloop
  | noSignal hpending => exact hloop
  | readsChld hpending => exact hloop
  | readsShutdown hpending hsignal => exact (congrArg RunPoint.inShutdown hpoint).trans hloop
  | readsUsr1 hpending => exact (congrArg RunPoint.inShutdown hpoint).trans hloop
  | noChild hchild hnone => exact hloop
  | reaps hchild hexited hsys => exact (congrArg RunPoint.inShutdown hpoint).trans hloop
  | waitedOnce => simp [RunPoint.inShutdown, RunPoint.afterStop] at hloop
  | returns => simp [RunPoint.inShutdown, RunPoint.afterStop] at hloop
  | stoppedAll => simp [RunPoint.inShutdown] at hloop
  | stops => simp [RunPoint.inShutdown] at hloop
  | awaits hpoll => simp [RunPoint.inShutdown, RunPoint.afterStop] at hloop
  | _ => rfl

theorem Unasked.step (h : Unasked m) {e : RunEvent} (hasks : ¬ m.AsksShutdown e)
    (hstep : m.step e = some m') : Unasked m' := by
  cases e with
  | exits pid status =>
      obtain ⟨-, rfl⟩ := exits_cases hstep
      exact ⟨by simpa [ShutdownAsked] using h.asked, h.loop⟩
  | adopts pid =>
      obtain ⟨-, -, rfl⟩ := adopts_cases hstep
      exact ⟨h.asked, h.loop⟩
  | raises signal =>
      obtain rfl := Option.some.inj hstep
      obtain ⟨hterm, hint⟩ := not_or.mp hasks
      -- The raised signal is neither of the two that ask for the shutdown.
      refine ⟨?_, h.loop⟩
      have hasked := h.asked
      simp only [ShutdownAsked, Finset.mem_insert, not_or] at hasked ⊢
      exact ⟨hasked.1, ⟨Ne.symm hterm, hasked.2.1⟩, ⟨Ne.symm hint, hasked.2.2⟩⟩
  | program a =>
      refine ⟨?_, programStep_inShutdown hstep h hasks⟩
      rcases programStep_signals hstep with ⟨hrequested, hpending⟩ | ⟨signal, hread⟩
      · unfold ShutdownAsked
        rw [hrequested, hpending]
        exact h.asked
      · exact hread.unasked h.asked

/-- Whatever the units do: when a run has left the main loop, `SIGTERM` or `SIGINT` has been raised,
or the user interface of a process that is not PID 1 has ended. -/
theorem shutdown_only_on_request (s : InitSystem) {es : List RunEvent}
    (hrun : (RunState.boot s).run es = some m) (hshut : m.point.inShutdown = true) :
    ∃ es₁ e m₁, es₁ ++ [e] <+: es ∧ (RunState.boot s).run es₁ = some m₁ ∧ m₁.AsksShutdown e := by
  have hasked : ¬ StepRun.StepsMeet RunState.step (fun m e => ¬ m.AsksShutdown e)
      (RunState.boot s) es := by
    intro hnone
    have hstart : Unasked (RunState.boot s) := ⟨by simp [ShutdownAsked, RunState.boot], rfl⟩
    have hend := StepRun.run_invariant
      (fun _ _ _ (h : Unasked _) hasks hstep => h.step hasks hstep) hstart hnone hrun
    simp [hend.loop] at hshut
  obtain ⟨es₁, e, m₁, hpre, hm₁, hasks⟩ := StepRun.exists_step_of_not_stepsMeet hasked
  exact ⟨es₁, e, m₁, hpre, hm₁, not_not.mp hasks⟩

theorem shutdown_only_on_request_sample :
    ∃ es₁ e m₁, es₁ ++ [e] <+: databaseRun ++ [.program {}] ∧
      databaseBoot.run es₁ = some m₁ ∧ m₁.AsksShutdown e := by
  have hsome : (databaseBoot.run (databaseRun ++ [.program {}])).any
      (fun m => m.point.inShutdown) = true := by
    decide +kernel
  obtain ⟨m, hm, hshut⟩ := (Option.any_eq_true _ _).mp hsome
  exact shutdown_only_on_request _ hm hshut

end RunState

end TrivialInit
