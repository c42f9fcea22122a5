import TrivialInit.Properties.ChildEnvironment
import TrivialInit.Properties.DescriptorPassing
import TrivialInit.Properties.ForkedChildren
import TrivialInit.Properties.SocketConsumers

/-!
# DescriptorIsolation — what a child can still use when it calls `execvp`

Between two steps the descriptor table of PID 1 is the one the bind phase left: `fork` with sockets
clears `FD_CLOEXEC` and sets it again, and an accepted connection is closed before the next event.
Every descriptor from 3 on is close-on-exec, so a child keeps nothing but what it was passed.  The
passed descriptors are moved down to 3 and above; one that lies below its target may be lost then.
-/

namespace TrivialInit

open InitSystem Handles

/-! ## Close-on-exec -/

namespace FdTable

/-- The table behind a successful `execvp`. -/
def execve (t : FdTable) : FdTable := fun fd =>
  (t fd).filter (fun d => !d.cloexec)

/-- From 3 on every open descriptor is close-on-exec. -/
def Sealed (t : FdTable) : Prop :=
  ∀ fd d, t fd = some d → d.cloexec = false → fd < SD_LISTEN_FDS_START

/-- The files the descriptors of a list refer to. -/
def files (t : FdTable) (fds : List Int) : List Nat :=
  fds.filterMap (fun fd => (t fd).map OpenFd.file)

variable {t : FdTable} {fd : Int} {d : OpenFd}

theorem execve_eq_some : t.execve fd = some d ↔ t fd = some d ∧ d.cloexec = false := by
  simp [execve, Option.filter_eq_some_iff]

theorem file_mem_files {fds : List Int} (hmem : fd ∈ fds) (hd : t fd = some d) :
    d.file ∈ t.files fds :=
  List.mem_filterMap.mpr ⟨fd, hmem, by rw [hd]; rfl⟩

theorem setCloexec_apply (t : FdTable) (fd : Int) (on : Bool) (fd' : Int) :
    t.setCloexec fd on fd' =
      if fd' = fd then (t fd').map (fun d => { d with cloexec := on }) else t fd' := by
  unfold setCloexec
  split_ifs with heq
  · subst heq
    cases h : t fd' with
    | none => exact h
    | some d => simp
  · cases t fd with
    | none => rfl
    | some d => simp [heq]

theorem setCloexecAll_apply (t : FdTable) (fds : List Int) (on : Bool) (fd : Int) :
    t.setCloexecAll fds on fd =
      if fd ∈ fds then (t fd).map (fun d => { d with cloexec := on }) else t fd := by
  induction fds generalizing t with
  | nil => rfl
  | cons fd' fds ih =>
      have hcons : t.setCloexecAll (fd' :: fds) on = (t.setCloexec fd' on).setCloexecAll fds on := rfl
      rw [hcons, ih, setCloexec_apply]
      by_cases heq : fd = fd'
      · subst heq
        cases t fd <;> simp
      · simp [heq]

/-- Clearing and setting the flag changes nothing when it was set before. -/
theorem setCloexecAll_restore {fds : List Int}
    (h : ∀ fd ∈ fds, ∀ d, t fd = some d → d.cloexec = true) :
    (t.setCloexecAll fds false).setCloexecAll fds true = t := by
  funext fd
  rw [setCloexecAll_apply, setCloexecAll_apply]
  split_ifs with hmem
  · cases hd : t fd with
    | none => rfl
    | some d =>
        have hset := h fd hmem d hd
        simp [← hset]
  · rfl

end FdTable

/-! ## The rearrangement keeps nothing else -/

/-- In iteration `i` of the loop: what the entries to come refer to, and what would survive
`execvp`. -/
structure Passing (files : List Nat) (i : Nat) (w : List Int) (t : FdTable) : Prop where
  waiting : ∀ fd ∈ w.drop i, ∀ d, t fd = some d → d.file ∈ files
  kept : ∀ fd d, t fd = some d → d.cloexec = false →
    fd < SD_LISTEN_FDS_START ∨ fd ∈ w.drop i ∨ (fd < SD_LISTEN_FDS_START + i ∧ d.file ∈ files)

/-- An iteration moves its descriptor; no later entry names the old place any more, so that is
closed. -/
theorem rearrangeStep_cases {w w' : List Int} {t t' : FdTable} {i : Nat} (hi : i < w.length)
    (h : rearrangeStep (w, t) i = some (w', t')) :
    t' = moveFd t w[i] (SD_LISTEN_FDS_START + i) ∧ w'.length = w.length ∧
      (∀ fd ∈ w'.drop (i + 1), fd ≠ SD_LISTEN_FDS_START + i → fd ∈ w.drop (i + 1)) ∧
      ∀ fd ∈ w.drop (i + 1), fd ≠ w[i] → fd ∈ w'.drop (i + 1) := by
  have hget : w.getD i (-1) = w[i] := by simp [hi]
  unfold rearrangeStep at h
  simp only [hget] at h
  by_cases heq : w[i] = SD_LISTEN_FDS_START + i
  · simp only [heq, if_true, Option.some.injEq, Prod.mk.injEq] at h
    obtain ⟨rfl, rfl⟩ := h
    exact ⟨by simp [moveFd, heq], rfl, fun fd hfd _ => hfd, fun fd hfd _ => hfd⟩
  · have hclosed : (t.close (SD_LISTEN_FDS_START + i)) w[i] = t w[i] :=
      Function.update_of_ne heq _ _
    simp only [heq, if_false, FdTable.dup2, hclosed] at h
    cases hd : t w[i] with
    | none => simp [hd] at h
    | some d =>
        simp only [hd, Option.some.injEq, Prod.mk.injEq] at h
        obtain ⟨rfl, rfl⟩ := h
        -- The later entries of the new list.
        have hmem : ∀ fd, fd ∈ (w.mapIdx (fun j fd =>
            if i < j ∧ fd = w[i] then SD_LISTEN_FDS_START + (i : Int) else fd)).drop (i + 1) ↔
            ∃ old ∈ w.drop (i + 1),
              fd = if old = w[i] then SD_LISTEN_FDS_START + (i : Int) else old := by
          intro fd
          simp only [List.mem_iff_getElem, List.getElem_drop, List.getElem_mapIdx,
            List.length_drop, List.length_mapIdx]
          constructor
          · rintro ⟨j, hj, rfl⟩
            exact ⟨w[i + 1 + j], ⟨j, hj, rfl⟩, by simp [show i < i + 1 + j by omega]⟩
          · rintro ⟨old, ⟨j, hj, rfl⟩, rfl⟩
            exact ⟨j, hj, by simp [show i < i + 1 + j by omega]⟩
        have hkeep : ((w.mapIdx (fun j fd =>
            if i < j ∧ fd = w[i] then SD_LISTEN_FDS_START + (i : Int) else fd)).drop (i + 1)).any
              (fun fd => decide (fd = w[i])) = false := by
          simp only [List.any_eq_false, decide_eq_true_eq]
          intro fd hfd
          obtain ⟨old, -, rfl⟩ := (hmem fd).mp hfd
          split_ifs with hold
          · exact fun h => heq h.symm
          · exact hold
        refine ⟨?_, by simp, ?_, ?_⟩
        · simp only [hkeep, Bool.false_eq_true, if_false]
          simp [moveFd, heq, hd, FdTable.close]
        · intro fd hfd hne
          obtain ⟨old, hold, rfl⟩ := (hmem fd).mp hfd
          split_ifs at hne ⊢ with hsrc
          · exact absurd rfl hne
          · exact hold
        · intro fd hfd hne
          exact (hmem fd).mpr ⟨fd, hfd, by simp [hne]⟩

theorem Passing.step {files : List Nat} {w w' : List Int} {t t' : FdTable} {i : Nat}
    (h : Passing files i w t) (hi : i < w.length)
    (hstep : rearrangeStep (w, t) i = some (w', t')) : Passing files (i + 1) w' t' := by
  obtain ⟨rfl, -, hlater, hrest⟩ := rearrangeStep_cases hi hstep
  have hdrop : w.drop i = w[i] :: w.drop (i + 1) := List.drop_eq_getElem_cons hi
  -- What the target refers to now is what the source referred to.
  have htarget : ∀ d, moveFd t w[i] (SD_LISTEN_FDS_START + i) (SD_LISTEN_FDS_START + i) = some d →
      d.file ∈ files := by
    intro d hd
    cases hsrc : t w[i] with
    | none =>
        by_cases heq : w[i] = SD_LISTEN_FDS_START + i
        · rw [moveFd, if_pos heq, ← heq, hsrc] at hd
          cases hd
        · have hne : SD_LISTEN_FDS_START + (i : Int) ≠ w[i] := fun h => heq h.symm
          simp [moveFd, heq, hne, hsrc] at hd
    | some d₀ =>
        obtain ⟨d', hd', hfile, -⟩ := moveFd_tgt (SD_LISTEN_FDS_START + i) hsrc
        obtain rfl : d' = d := Option.some.inj (hd'.symm.trans hd)
        rw [hfile]
        exact h.waiting w[i] (hdrop ▸ List.mem_cons_self) d₀ hsrc
  -- Elsewhere only the source has changed, and it is closed.
  have hother : ∀ fd d, fd ≠ SD_LISTEN_FDS_START + i →
      moveFd t w[i] (SD_LISTEN_FDS_START + i) fd = some d → fd ≠ w[i] ∧ t fd = some d := by
    intro fd d hne hd
    by_cases hsrc : fd = w[i]
    · subst hsrc
      simp [moveFd_src hne] at hd
    · exact ⟨hsrc, (moveFd_other hsrc hne).symm.trans hd⟩
  constructor
  · intro fd hfd d hd
    by_cases heq : fd = SD_LISTEN_FDS_START + i
    · subst heq
      exact htarget d hd
    · have hold : fd ∈ w.drop i := hdrop ▸ List.mem_cons_of_mem _ (hlater fd hfd heq)
      exact h.waiting fd hold d (hother fd d heq hd).2
  · intro fd d hd hkept
    by_cases heq : fd = SD_LISTEN_FDS_START + i
    · subst heq
      exact Or.inr (Or.inr ⟨by push_cast; omega, htarget d hd⟩)
    · obtain ⟨hsrc, hd₀⟩ := hother fd d heq hd
      rcases h.kept fd d hd₀ hkept with hstd | hwait | ⟨hlow, hfile⟩
      · exact Or.inl hstd
      · rw [hdrop] at hwait
        have htail := (List.mem_cons.mp hwait).resolve_left hsrc
        exact Or.inr (Or.inl (hrest fd htail hsrc))
      · exact Or.inr (Or.inr ⟨by push_cast; omega, hfile⟩)

theorem Passing.loop {files : List Nat} {fds : List Int} {t : FdTable}
    (h : Passing files 0 fds t) : ∀ i ≤ fds.length, ∀ w t',
      (List.range i).foldlM rearrangeStep (fds, t) = some (w, t') →
      w.length = fds.length ∧ Passing files i w t'
  | 0, _, w, t', hrun => by
      obtain ⟨rfl, rfl⟩ := Prod.mk.inj (Option.some.inj hrun)
      exact ⟨rfl, h⟩
  | i + 1, hi, w, t', hrun => by
      rw [List.range_succ, List.foldlM_append] at hrun
      obtain ⟨⟨w₀, t₀⟩, hrun₀, hlast⟩ := Option.bind_eq_some_iff.mp hrun
      obtain ⟨hlength, hpassing⟩ := Passing.loop h i (by omega) w₀ t₀ hrun₀
      have hstep : rearrangeStep (w₀, t₀) i = some (w, t') := by simpa using hlast
      have hi₀ : i < w₀.length := by omega
      exact ⟨(rearrangeStep_cases hi₀ hstep).2.1.trans hlength, hpassing.step hi₀ hstep⟩

/-- Whatever the list is: what survives `execvp` behind the loop is a standard descriptor, or one of
`3, …, 3 + n - 1` for a file that was passed. -/
theorem rearrangeFds_execve {fds : List Int} {t t' : FdTable}
    (hsealed : ∀ fd d, t fd = some d → d.cloexec = false → fd < SD_LISTEN_FDS_START ∨ fd ∈ fds)
    (h : rearrangeFds fds t = some t') {fd : Int} {d : OpenFd} (hd : t'.execve fd = some d) :
    fd < SD_LISTEN_FDS_START ∨
      (fd < SD_LISTEN_FDS_START + fds.length ∧ d.file ∈ t.files fds) := by
  obtain ⟨⟨w, t₁⟩, hloop, rfl⟩ := Option.map_eq_some_iff.mp h
  have hstart : Passing (t.files fds) 0 fds t := by
    refine ⟨fun fd hfd d hd => FdTable.file_mem_files hfd hd, fun fd d hd hkept => ?_⟩
    exact (hsealed fd d hd hkept).imp_right Or.inl
  obtain ⟨hlength, hpassing⟩ := hstart.loop fds.length (Nat.le_refl _) w t₁ hloop
  obtain ⟨hd₁, hkept⟩ := FdTable.execve_eq_some.mp hd
  rcases hpassing.kept fd d hd₁ hkept with hstd | hwait | hpassed
  · exact Or.inl hstd
  · rw [← hlength, List.drop_length] at hwait
    nomatch hwait
  · exact Or.inr hpassed

/-- Distinct descriptors that are not below their targets all survive `execvp` there. -/
theorem rearrangeFds_keeps {fds : List Int} {t t' : FdTable} (hnd : fds.Nodup)
    (hopen : ∀ fd ∈ fds, (t fd).isSome) (hcleared : ∀ fd ∈ fds, ∀ d, t fd = some d → d.cloexec = false)
    (hle : ∀ i (h : i < fds.length), SD_LISTEN_FDS_START + i ≤ fds[i])
    (h : rearrangeFds fds t = some t') : HandedOver fds t t'.execve := by
  obtain rfl := Option.some.inj ((rearrangeFds_eq_moveAll hnd hopen).symm.trans h)
  intro i hi
  obtain ⟨d, d', hd, hd', hfile, hkept⟩ :=
    (moveAll_of_le hnd hopen hle fds.length (Nat.le_refl _)).1 i hi hi
  have hflag := hkept (hcleared fds[i] (List.getElem_mem hi) d hd)
  exact ⟨d, d', hd, FdTable.execve_eq_some.mpr ⟨hd', hflag⟩, hfile⟩

/-! ## The calls leave the table as it is -/

namespace InitSystem

/-- The listening descriptors are close-on-exec. -/
def ListenersSealed (s : InitSystem) : Prop :=
  ∀ n, ∀ fd ∈ listenFds (s.socketUnit n).listen, ∀ d, s.fds fd = some d → d.cloexec = true

theorem spawn_fds (s : InitSystem) (unitName execPath : String) (args : List String)
    (policy : RestartPolicy) (burstLimit burstIntervalS : Int) (unitCtx : UnitFile)
    (forked : ForkAnswer) :
    (s.spawn unitName execPath args policy burstLimit burstIntervalS unitCtx forked).2.fds =
      s.fds := by
  cases forked <;> rfl

/-- The flags are set again whether `fork` succeeds or not. -/
theorem spawnWithSocketFds_fds (s : InitSystem) (unitName execPath : String) (args : List String)
    (env : SocketEnv) (restart : Bool) (unitCtx : UnitFile) (forked : ForkAnswer)
    (h : ∀ fd ∈ env.fds, ∀ d, s.fds fd = some d → d.cloexec = true) :
    (s.spawnWithSocketFds unitName execPath args env restart unitCtx forked).2.fds = s.fds := by
  cases forked with
  | error reason => exact FdTable.setCloexecAll_restore h
  | ok pid => exact FdTable.setCloexecAll_restore h

theorem applyRestartCount_fds (s : InitSystem) (pid : Pid) (name : String) :
    (s.applyRestartCount pid name).fds = s.fds := by
  unfold applyRestartCount
  cases s.restartCounts.lookup name <;> rfl

theorem launchService_fds (s : InitSystem) (hsealed : s.ListenersSealed) (name : String)
    (unit : UnitFile) (ignoreFail : Bool) (execPath : String) (args : List String)
    (forked : ForkAnswer) :
    (s.launchService name unit ignoreFail execPath args forked).2.fds = s.fds := by
  unfold launchService
  cases henv : s.collectSocketEnv name with
  | none =>
      have hspawn := spawn_fds (s.log .info "executor" s!"Starting service: {name} ({execPath})")
        name execPath args (parseRestartPolicy unit.restartPolicy) unit.restartLimitBurst
        unit.restartLimitInterval unit forked
      dsimp only
      generalize spawn _ _ _ _ _ _ _ _ _ = r at hspawn
      obtain ⟨_ | pid, s'⟩ := r
      · dsimp only
        split_ifs
        · exact hspawn
        · exact hspawn
      · exact (applyRestartCount_fds s' pid name).trans hspawn
  | some env =>
      -- What is passed is close-on-exec in PID 1, and is so again behind the fork.
      have hpassed : ∀ fd ∈ env.fds, ∀ d, s.fds fd = some d → d.cloexec = true := by
        intro fd hfd
        have hmem : fd ∈ passedFds s name := by simpa [passedFds, henv] using hfd
        obtain ⟨n, -, hlisten⟩ := mem_passedFds.mp hmem
        exact hsealed n fd hlisten
      have hspawn := spawnWithSocketFds_fds
        (s.log .info "executor" s!"Socket-activating {name} ({env.fds.length} fd(s))") name execPath
        args env (parseRestartPolicy unit.restartPolicy ≠ .no) unit forked hpassed
      dsimp only
      generalize spawnWithSocketFds _ _ _ _ _ _ _ _ = r at hspawn
      obtain ⟨_ | pid, s'⟩ := r
      · exact hspawn
      · exact (applyRestartCount_fds s' pid name).trans hspawn

theorem startCommands_fds (s : InitSystem) (hsealed : s.ListenersSealed) (name : String)
    (unit : UnitFile) (os : StartAnswers) : (s.startCommands name unit os).2.fds = s.fds := by
  unfold startCommands
  rw [runStartPre_eq]
  dsimp only
  cases startPreCode os.info (SpecifierContext.ofUnit name unit.path) unit.execStartPre os.pre with
  | some code => rfl
  | none =>
      dsimp only
      split_ifs
      · rfl
      · cases commandWords os.info (SpecifierContext.ofUnit name unit.path)
            (stripDash unit.execStart).2 with
        | none => rfl
        | some words =>
            let s' : InitSystem :=
              { s with
                forkCalls :=
                  s.forkCalls ++ startPreCalls os.info name unit s.fds unit.execStartPre os.pre }
            exact launchService_fds s' hsealed _ _ _ _ _ _

theorem startService_fds {s : InitSystem} (hsealed : s.ListenersSealed) {name : String}
    {unit : UnitFile} {os : StartAnswers} {r : Option Pid × InitSystem}
    (h : s.startService name unit os = some r) : r.2.fds = s.fds := by
  obtain ⟨s', hs', rfl⟩ := startService_eq_some h
  obtain ⟨calls, -, rfl⟩ := Option.map_eq_some_iff.mp hs'
  exact startCommands_fds { s with runtimeDirCalls := s.runtimeDirCalls ++ calls } hsealed _ _ _

theorem startMount_fds (s : InitSystem) (name : String) (unit : UnitFile) (os : MountAnswers) :
    (s.startMount name unit os).fds = s.fds := by
  unfold startMount
  dsimp only
  split_ifs
  · rfl
  · rfl
  · cases os.mountError <;> rfl

theorem fireExitCallback_fds (s : InitSystem) (pid : Pid) (code : Int) :
    (s.fireExitCallback pid code).fds = s.fds := by
  unfold fireExitCallback
  cases s.exitCallbacks.lookup pid <;> rfl

theorem reapChild_fds (s : InitSystem) (pid : Pid) (status : WaitStatus) (now : TimePoint) :
    (s.reapChild pid status now).fds = s.fds := by
  unfold reapChild
  dsimp only
  split
  · exact fireExitCallback_fds s pid status.code
  · split_ifs <;> exact fireExitCallback_fds s pid status.code

theorem stopUnit_fds (s : InitSystem) (name : String) : (s.stopUnit name).fds = s.fds := by
  unfold stopUnit
  cases s.unitToPid.lookup name <;> rfl

end InitSystem

namespace System

variable {sys sys' : System}

theorem addChild_fds {kind : ChildKind} {r : Option Pid × InitSystem}
    (h : sys.addChild kind r = some sys') : sys'.init.fds = r.2.fds := by
  obtain ⟨_ | pid, s⟩ := r
  · obtain rfl := Option.some.inj h
    rfl
  · obtain ⟨-, rfl⟩ := addChild_cases h
    rfl

theorem startService_fds (hsealed : sys.init.ListenersSealed) {name : String} {unit : UnitFile}
    {os : StartAnswers} (h : sys.startService name unit os = some sys') :
    sys'.init.fds = sys.init.fds := by
  obtain ⟨r, hr, hadd⟩ := Option.bind_eq_some_iff.mp h
  exact (addChild_fds hadd).trans (InitSystem.startService_fds hsealed hr)

theorem executeUnit_fds (hsealed : sys.init.ListenersSealed) {name : String} {os : ExecuteAnswers}
    (h : sys.executeUnit name os = some sys') : sys'.init.fds = sys.init.fds := by
  unfold executeUnit at h
  dsimp only at h
  split at h
  · exact Option.some.inj h ▸ rfl
  · split_ifs at h
    · exact Option.some.inj h ▸ rfl
    · split at h
      · exact Option.some.inj h ▸ rfl
      · exact Option.some.inj h ▸ rfl
      · split at h
        · exact Option.some.inj h ▸ rfl
        · exact startService_fds hsealed h
        · exact Option.some.inj h ▸ startMount_fds _ _ _ _
        · exact Option.some.inj h ▸ rfl
        · exact Option.some.inj h ▸ rfl

end System


/-! ## What the bind phase opens -/

/-- Every descriptor of `t'` that was not there in `t` is close-on-exec. -/
def FdTable.OpensSealed (t t' : FdTable) : Prop :=
  ∀ fd d, t' fd = some d → t fd = some d ∨ d.cloexec = true

namespace FdTable.OpensSealed

variable {t t' t'' : FdTable}

theorem refl (t : FdTable) : OpensSealed t t :=
  fun _ _ hd => Or.inl hd

theorem trans (h : OpensSealed t t') (h' : OpensSealed t' t'') : OpensSealed t t'' := by
  intro fd d hd
  rcases h' fd d hd with hold | hset
  · exact h fd d hold
  · exact Or.inr hset

theorem isSealed (h : OpensSealed t t') (hsealed : t.Sealed) : t'.Sealed := by
  intro fd d hd hkept
  rcases h fd d hd with hold | hset
  · exact hsealed fd d hold hkept
  · rw [hset] at hkept
    nomatch hkept

/-- Setting the flag on the one descriptor that was opened. -/
theorem of_acquires {fd : Int} (h : Acquires t t' [fd]) : OpensSealed t (t'.setCloexec fd true) := by
  intro fd' d hd
  rw [setCloexec_apply] at hd
  split_ifs at hd with heq
  · obtain ⟨d', -, rfl⟩ := Option.map_eq_some_iff.mp hd
    exact Or.inr rfl
  · exact Or.inl ((h.frame fd' (by simpa using heq)).symm.trans hd)

end FdTable.OpensSealed

theorem bindEntry_opensSealed (sock : SocketUnit) (os : BindAnswers) (le : ListenEntry)
    (t : Traced) : t.init.fds.OpensSealed (bindEntry sock os le t).2.init.fds := by
  have hopens := createAndBind_opens sock le os { fds := t.init.fds, calls := t.calls }
  unfold bindEntry
  split
  · exact .refl _
  · generalize createAndBind _ _ _ _ = r at hopens
    obtain ⟨_ | fd, k⟩ := r
    · have hsame : k.fds = t.init.fds := hopens.failed rfl
      change t.init.fds.OpensSealed k.fds
      exact hsame ▸ .refl _
    · exact .of_acquires (hopens.opened fd rfl).2

theorem bindEntries_opensSealed (sock : SocketUnit) (os : Nat → BindAnswers)
    (listen : List ListenEntry) (t : Traced) :
    t.init.fds.OpensSealed (bindEntries sock os listen t).2.init.fds := by
  induction listen generalizing os t with
  | nil => exact .refl _
  | cons le rest ih =>
      exact (bindEntry_opensSealed sock (os 0) le t).trans (ih (fun i => os (i + 1)) _)

theorem bindUnit_opensSealed (os : SocketBindAnswers) (acc : Traced × Nat) (name : String)
    (unit : UnitFile) : acc.1.init.fds.OpensSealed (bindUnit os acc name unit).1.init.fds := by
  obtain ⟨t, bound⟩ := acc
  unfold bindUnit
  dsimp only
  split_ifs
  · exact .refl _
  · exact .refl _
  · exact .refl _
  · exact bindEntries_opensSealed _ _ _ t

theorem executeSocketBind_opensSealed (s : InitSystem) (os : SocketBindAnswers) :
    s.fds.OpensSealed (s.executeSocketBind os).1.fds :=
  List.foldlRecOn (motive := fun acc : Traced × Nat => s.fds.OpensSealed acc.1.init.fds)
    s.units.entries (fun acc e => bindUnit os acc e.1 e.2) (FdTable.OpensSealed.refl _)
    (fun acc hacc e _ => hacc.trans (bindUnit_opensSealed os acc e.1 e.2))

theorem mem_storedFds {s : InitSystem} {fd : Int} :
    fd ∈ storedFds s.socketUnits ↔ ∃ n, fd ∈ listenFds (s.socketUnit n).listen := by
  unfold storedFds
  rw [List.mem_flatMap]
  constructor
  · rintro ⟨e, he, hfd⟩
    have hsock : s.socketUnit e.1 = e.2 := by
      rw [socketUnit, UnorderedMap.mem_entries_iff.mp he]
      rfl
    exact ⟨e.1, hsock.symm ▸ hfd⟩
  · rintro ⟨n, hfd⟩
    exact ⟨⟨n, s.socketUnit n⟩,
      UnorderedMap.mem_entries_iff.mpr (stored_of_mem_listenFds hfd), hfd⟩

/-- The connection counters do not matter for what is stored. -/
theorem SameListens.nodup_storedFds {s s' : InitSystem} (h : SameListens s s')
    (hnodup : (storedFds s.socketUnits).Nodup) : (storedFds s'.socketUnits).Nodup := by
  have hlisten : ∀ e ∈ s'.socketUnits.entries,
      listenFds e.2.listen = listenFds (s.socketUnit e.1).listen := by
    intro e he
    have hsock : s'.socketUnit e.1 = e.2 := by
      rw [socketUnit, UnorderedMap.mem_entries_iff.mp he]
      rfl
    rw [← hsock, h.listen]
  refine List.nodup_flatMap.mpr ⟨fun e he => ?_, ?_⟩
  · rw [hlisten e he]
    cases hfds : listenFds (s.socketUnit e.1).listen with
    | nil => exact List.nodup_nil
    | cons fd fds =>
        have hfd : fd ∈ listenFds (s.socketUnit e.1).listen := hfds ▸ List.mem_cons_self
        have hmem := UnorderedMap.mem_entries_iff.mpr (stored_of_mem_listenFds hfd)
        exact hfds ▸ (List.nodup_flatMap.mp hnodup).1 _ hmem
  · refine (List.nodupKeys_iff_pairwise.mp s'.socketUnits.nodupKeys).imp_of_mem ?_
    intro e e' he he' hne
    refine List.disjoint_left.mpr (fun fd hfd hfd' => ?_)
    simp only [hlisten e he] at hfd
    simp only [hlisten e' he'] at hfd'
    exact hne (eq_of_mem_listenFds hnodup hfd hfd')

/-- The descriptor table the object `s` was bound on, and what the main program finds. -/
structure BoundOn (t : FdTable) (s : InitSystem) : Prop where
  acquired : Acquires t s.fds (storedFds s.socketUnits)
  opened : t.OpensSealed s.fds

theorem boundAndResolved_boundOn (journal : Journal) (units : UnorderedMap String UnitFile)
    (fds : FdTable) (os : SocketBindAnswers) (inDegreeOrder : List String) :
    BoundOn fds ((parsed journal units fds).boundAndResolved os inDegreeOrder) := by
  have htables := boundAndResolved_tables (parsed journal units fds) os inDegreeOrder
  have hfds : ((parsed journal units fds).boundAndResolved os inDegreeOrder).fds =
      ((parsed journal units fds).executeSocketBind os).1.fds := by
    unfold boundAndResolved executeDependencyResolve
    dsimp only
    split_ifs <;> rfl
  constructor
  · rw [htables.socketUnits, hfds]
    exact (executeSocketBind_storesOpened (parsed journal units fds) os rfl).acquired
  · rw [hfds]
    exact executeSocketBind_opensSealed (parsed journal units fds) os

theorem BoundOn.listenersSealed {t : FdTable} {s : InitSystem} (h : BoundOn t s) :
    s.ListenersSealed := by
  intro n fd hfd d hd
  have hfree := h.acquired.free fd (mem_storedFds.mpr ⟨n, hfd⟩)
  refine (h.opened fd d hd).resolve_left ?_
  simp [hfree]

/-! ## Along a run -/

/-- The descriptor table in a state of the run of `s`, which was bound on `t`. -/
structure FdsInv (t : FdTable) (s : InitSystem) (m : RunState) : Prop where
  sockets : SocketsInv s m
  running : m.point ≠ .returned → m.sys.init.fds = s.fds
  returned : m.point = .returned → m.sys.init.fds = t

namespace FdsInv

variable {t : FdTable} {s : InitSystem} {m m' : RunState}

theorem listenersSealed (h : FdsInv t s m) (hbound : BoundOn t s) (hpoint : m.point ≠ .returned) :
    m.sys.init.ListenersSealed := by
  intro n fd hfd d hd
  rw [(h.sockets.kept hpoint).listen] at hfd
  rw [h.running hpoint] at hd
  exact hbound.listenersSealed n fd hfd d hd

/-- Closing what is stored gives back the table the sockets were bound on. -/
theorem closeAllSockets_fds (h : FdsInv t s m) (hbound : BoundOn t s)
    (hpoint : m.point ≠ .returned) : m.sys.init.closeAllSockets.1.fds = t := by
  have hclosed := (closeEntries_spec (m.sys.init.socketUnits.entries.flatMap
    (fun e => e.2.listen)) { fds := m.sys.init.fds }).1
  rw [listenFds_flatMap] at hclosed
  have hstored : ∀ fd, fd ∈ storedFds m.sys.init.socketUnits ↔ fd ∈ storedFds s.socketUnits := by
    intro fd
    simp only [mem_storedFds, (h.sockets.kept hpoint).listen]
  calc m.sys.init.closeAllSockets.1.fds
      = releaseAll m.sys.init.fds (storedFds m.sys.init.socketUnits) := hclosed
    _ = releaseAll s.fds (storedFds s.socketUnits) := by
        funext fd
        rw [releaseAll_apply, releaseAll_apply, h.running hpoint]
        simp only [hstored]
    _ = t := hbound.acquired.releaseAll_eq

/-- No step of the program but the last one changes the table. -/
theorem programStep_fds (h : FdsInv t s m) (hbound : BoundOn t s) {a : RunAnswer}
    (hstep : m.programStep a = some m') :
    (m'.point ≠ .returned ∧ m'.sys.init.fds = m.sys.init.fds) ∨
      (m'.point = .returned ∧ m'.sys.init.fds = t) := by
  have hpoint := programStep_returned hstep
  have hsealed := h.listenersSealed hbound hpoint
  have hback : ∀ back : StartedFrom, back.point ≠ .returned := by rintro (_ | _) <;> exact nofun
  have hcases := RunState.programStep_cases hstep
  generalize m.point = point at hcases
  cases hcases with
  | executesUnit hservice hsys => exact Or.inl ⟨nofun, System.executeUnit_fds hsealed hsys⟩
  | notStarted htodo hpid hsys => exact Or.inl ⟨hback _, System.startService_fds hsealed hsys⟩
  | tracks hsys => exact Or.inl ⟨hback _, System.startService_fds hsealed hsys⟩
  | notAccepted hpid hsys => exact Or.inl ⟨nofun, (System.acceptReady_cases hsys).1⟩
  | accepts hsys => exact Or.inl ⟨nofun, (System.acceptReady_cases hsys).1⟩
  | drainsRestarts hsys =>
      obtain ⟨-, hnext⟩ := Option.ite_none_right_eq_some.mp hsys
      obtain rfl := Option.some.inj hnext
      exact Or.inl ⟨nofun, rfl⟩
  | readsShutdown hpending hsignal => exact Or.inl ⟨hpoint, rfl⟩
  | readsUsr1 hpending => exact Or.inl ⟨hpoint, rfl⟩
  | reaps hchild hexited hsys =>
      obtain ⟨-, hnext⟩ := Option.ite_none_right_eq_some.mp hsys
      obtain rfl := Option.some.inj hnext
      exact Or.inl ⟨hpoint, reapChild_fds _ _ _ _⟩
  | quits hquit =>
      refine Or.inl ⟨nofun, ?_⟩
      unfold RunState.maybeFixRuntimeDirs
      dsimp only
      split_ifs <;> rfl
  | loops hquit =>
      refine Or.inl ⟨nofun, ?_⟩
      unfold RunState.maybeFixRuntimeDirs
      dsimp only
      split_ifs <;> rfl
  | stops => exact Or.inl ⟨nofun, stopUnit_fds _ _⟩
  | returns => exact Or.inr ⟨rfl, h.closeAllSockets_fds hbound hpoint⟩
  | _ => exact Or.inl ⟨nofun, rfl⟩

theorem step (h : FdsInv t s m) (hbound : BoundOn t s) {e : RunEvent}
    (hstep : m.step e = some m') : FdsInv t s m' := by
  have hsockets := h.sockets.step hstep
  cases e with
  | exits pid status =>
      obtain ⟨-, rfl⟩ := RunState.exits_cases hstep
      exact ⟨hsockets, h.running, h.returned⟩
  | adopts pid =>
      obtain ⟨-, -, rfl⟩ := RunState.adopts_cases hstep
      exact ⟨hsockets, h.running, h.returned⟩
  | raises signal =>
      obtain rfl := Option.some.inj hstep
      exact ⟨hsockets, h.running, h.returned⟩
  | program a =>
      have hrunning := h.running (programStep_returned hstep)
      rcases h.programStep_fds hbound hstep with ⟨hnext, hfds⟩ | ⟨hnext, hfds⟩
      · exact ⟨hsockets, fun _ => hfds.trans hrunning, fun heq => absurd heq hnext⟩
      · exact ⟨hsockets, fun hne => absurd hnext hne, fun _ => hfds⟩

theorem boot (journal : Journal) (units : UnorderedMap String UnitFile) (os : SocketBindAnswers)
    (inDegreeOrder : List String) :
    FdsInv t ((parsed journal units t).boundAndResolved os inDegreeOrder)
      (RunState.boot ((parsed journal units t).boundAndResolved os inDegreeOrder)) where
  sockets :=
    .boot (.boot (parsed_tableInv journal units t os inDegreeOrder))
      (boundAndResolved_tables (parsed journal units t) os inDegreeOrder).fdToSocket
  running := fun _ => rfl
  returned := nofun

end FdsInv

/-- In every state of a run the descriptor table of PID 1 is the one the bind phase left, and when
`run` has returned it is the one the bind phase found.  A state within a call of `start_service` or
`accept_ready` has the table from before the call. -/
theorem RunState.descriptors_kept (journal : Journal) (units : UnorderedMap String UnitFile)
    (fds : FdTable) (os : SocketBindAnswers) (inDegreeOrder : List String) {es : List RunEvent}
    {m : RunState}
    (hrun : (RunState.boot
      ((parsed journal units fds).boundAndResolved os inDegreeOrder)).run es = some m) :
    (m.point ≠ .returned →
      m.sys.init.fds = ((parsed journal units fds).boundAndResolved os inDegreeOrder).fds) ∧
    (m.point = .returned → m.sys.init.fds = fds) := by
  have hbound := boundAndResolved_boundOn journal units fds os inDegreeOrder
  have hinv := StepRun.run_invariant_of_step
    (fun _ _ _ (h : FdsInv fds _ _) hstep => h.step hbound hstep)
    (.boot journal units os inDegreeOrder) hrun
  exact ⟨hinv.running, hinv.returned⟩

theorem RunState.descriptors_kept_sample :
    ∃ m, (RunState.boot ((parsed {} echoUnits (fun _ => none)).boundAndResolved oneDescriptor
        ["echo.socket", "echo.service"])).run echoStart = some m ∧
      m.sys.init.fds = ((parsed {} echoUnits (fun _ => none)).boundAndResolved oneDescriptor
        ["echo.socket", "echo.service"]).fds := by
  have hsome : ((RunState.boot ((parsed {} echoUnits (fun _ => none)).boundAndResolved
      oneDescriptor ["echo.socket", "echo.service"])).run echoStart).any
        (fun m => m.point.afterStop == false) = true := by
    decide +kernel
  obtain ⟨m, hrun, hpoint⟩ := (Option.any_eq_true _ _).mp hsome
  refine ⟨m, hrun, (RunState.descriptors_kept {} echoUnits (fun _ => none) oneDescriptor
    ["echo.socket", "echo.service"] hrun).1 ?_⟩
  intro hreturned
  simp [hreturned, RunPoint.afterStop] at hpoint

/-! ## The children of a run -/

namespace ForkedChild

/-- The sockets the child is passed. -/
def passed (child : ForkedChild) : List Int :=
  (child.env.map SocketEnv.fds).getD []

/-- Behind `execvp` the child has open, besides the standard descriptors, at most as many as it was
passed, from 3 on and each on a file that was passed.  If none of those it was passed was below its
target, the `i`-th file is open at `3 + i`. -/
structure Isolated (child : ForkedChild) : Prop where
  only : ∀ (os : ChildAnswers) (start : ChildState), start.fds = child.fds →
    ∀ path argv last, child.fate os start = .execvp path argv last →
      ∀ fd d, last.fds.execve fd = some d →
        fd < SD_LISTEN_FDS_START ∨
          (fd < SD_LISTEN_FDS_START + child.passed.length ∧ d.file ∈ child.fds.files child.passed)
  each : (∀ i (h : i < child.passed.length), SD_LISTEN_FDS_START + i ≤ child.passed[i]) →
    ∀ (os : ChildAnswers) (start : ChildState), start.fds = child.fds →
      ∀ path argv last, child.fate os start = .execvp path argv last →
        HandedOver child.passed child.fds last.fds.execve

/-- What the fork leaves to the child. -/
structure Prepared (child : ForkedChild) : Prop where
  kept : ∀ fd d, child.fds fd = some d → d.cloexec = false →
    fd < SD_LISTEN_FDS_START ∨ fd ∈ child.passed
  cleared : ∀ fd ∈ child.passed, ∀ d, child.fds fd = some d → d.cloexec = false
  isOpen : ∀ fd ∈ child.passed, (child.fds fd).isSome = true
  nodup : child.passed.Nodup

/-- Only the rearrangement changes the descriptors of a child. -/
theorem fds_of_execvp {child : ForkedChild} {os : ChildAnswers} {start last : ChildState}
    {path : String} {argv : List String} (h : child.fate os start = .execvp path argv last) :
    rearrangeFds child.passed start.fds = some last.fds := by
  unfold fate at h
  cases henv : child.env with
  | none =>
      simp only [henv, spawnChild] at h
      cases hsetup : setupChildContext child.unit os start with
      | none => simp [hsetup] at h
      | some result =>
          obtain ⟨ok, c⟩ := result
          have hfds := ChildState.setupChildContext_fds hsetup
          simp only [hsetup] at h
          split_ifs at h
          obtain ⟨-, -, rfl⟩ := ChildFate.execvp.inj h
          simp [passed, henv, rearrangeFds, hfds]
  | some env =>
      simp only [henv, spawnWithSocketFdsChild] at h
      cases hloop : rearrangeFds env.fds start.fds with
      | none => simp [hloop] at h
      | some fds =>
          simp only [hloop] at h
          split at h
          · cases h
          · rename_i ok c hsetup
            have hfds := ChildState.setupChildContext_fds hsetup
            obtain ⟨-, -, rfl⟩ := ChildFate.execvp.inj h
            -- Neither the variables nor the credentials touch the table.
            simp [passed, henv, hloop, hfds, ChildState.putenv]

theorem Prepared.isolated {child : ForkedChild} (h : child.Prepared) : child.Isolated where
  only := by
    intro os start hstart path argv last hfate fd d hd
    have hloop := fds_of_execvp hfate
    rw [hstart] at hloop
    exact rearrangeFds_execve h.kept hloop hd
  each := by
    intro hle os start hstart path argv last hfate
    have hloop := fds_of_execvp hfate
    rw [hstart] at hloop
    exact rearrangeFds_keeps h.nodup h.isOpen h.cleared hle hloop

end ForkedChild

theorem passedFds_sublist (s : InitSystem) (name : String) :
    (passedFds s name).Sublist (storedFds s.socketUnits) := by
  rw [passedFds_eq]
  exact List.filter_sublist.flatMap _

/-- The parent clears `FD_CLOEXEC` on what it passes. -/
theorem ForkedChild.prepared {child : ForkedChild} {t : FdTable}
    (hfds : child.fds = t.setCloexecAll child.passed false)
    (hkept : ∀ fd d, t fd = some d → d.cloexec = false →
      fd < SD_LISTEN_FDS_START ∨ fd ∈ child.passed)
    (hopen : ∀ fd ∈ child.passed, (t fd).isSome = true) (hnodup : child.passed.Nodup) :
    child.Prepared where
  kept := by
    intro fd d hd hflag
    rw [hfds, FdTable.setCloexecAll_apply] at hd
    split_ifs at hd with hmem
    · exact Or.inr hmem
    · exact hkept fd d hd hflag
  cleared := by
    intro fd hmem d hd
    rw [hfds, FdTable.setCloexecAll_apply, if_pos hmem] at hd
    obtain ⟨d₀, -, rfl⟩ := Option.map_eq_some_iff.mp hd
    rfl
  isOpen := by
    intro fd hmem
    rw [hfds, FdTable.setCloexecAll_apply, if_pos hmem, Option.isSome_map]
    exact hopen fd hmem
  nodup := hnodup

theorem mainChild_fds (s : InitSystem) (name : String) (unit : UnitFile)
    (words : String × List String) :
    (s.mainChild name unit words).fds = s.fds.setCloexecAll (passedFds s name) false := by
  unfold mainChild passedFds
  cases s.collectSocketEnv name <;> rfl

namespace RunState

variable {m : RunState}

/-- A child of a main program that stores distinct open descriptors, and whose descriptors from 3 on
are close-on-exec. -/
theorem Launches.prepared {a : RunAnswer} {pids : List Pid} {children : List ForkedChild}
    (h : Launches m a pids children) (hsealed : m.sys.init.fds.Sealed)
    (hnodup : (storedFds m.sys.init.socketUnits).Nodup)
    (hopen : ∀ fd ∈ storedFds m.sys.init.socketUnits, (m.sys.init.fds fd).isSome = true) :
    ∀ child ∈ children, child.Prepared := by
  intro child hchild
  cases h with
  | none => cases hchild
  | startPre hpoint htodo hwords =>
      obtain rfl := List.mem_singleton.mp hchild
      exact ForkedChild.prepared rfl (fun fd d hd hkept => Or.inl (hsealed fd d hd hkept))
        (fun _ hfd => nomatch hfd) List.nodup_nil
  | @main call back pid words hpoint hwords =>
      obtain rfl := List.mem_singleton.mp hchild
      have hsublist := passedFds_sublist m.sys.init call.name
      exact ForkedChild.prepared (mainChild_fds _ _ _ _)
        (fun fd d hd hkept => Or.inl (hsealed fd d hd hkept))
        (fun fd hfd => hopen fd (hsublist.subset hfd)) (hsublist.nodup hnodup)
  | @connection sock conn file pid unit words hconn hunit hwords =>
      obtain rfl := List.mem_singleton.mp hchild
      refine ForkedChild.prepared rfl (fun fd d hd hkept => ?_) (fun fd hfd => ?_)
        (List.nodup_singleton conn)
      · by_cases heq : fd = conn
        · exact Or.inr (List.mem_singleton.mpr heq)
        · refine Or.inl (hsealed fd d ?_ hkept)
          simpa [FdTable.install, Function.update_of_ne heq] using hd
      · obtain rfl : fd = conn := List.mem_singleton.mp hfd
        simp [FdTable.install]

/-- When the descriptors PID 1 starts with are close-on-exec from 3 on, every program a run starts
has no descriptor above 2 but on a file that was passed to it, and every passed file at its place
when none was passed below it. -/
theorem children_isolated (journal : Journal) (units : UnorderedMap String UnitFile)
    (fds : FdTable) (os : SocketBindAnswers) (inDegreeOrder : List String) (hsealed : fds.Sealed)
    (es : List RunEvent) :
    ∀ child ∈ StepRun.trace RunState.step forkedChildren (RunState.boot
      ((parsed journal units fds).boundAndResolved os inDegreeOrder)) es, child.Isolated := by
  have hbound := boundAndResolved_boundOn journal units fds os inDegreeOrder
  refine StepRun.forall_mem_trace
    (FdsInv fds ((parsed journal units fds).boundAndResolved os inDegreeOrder))
    (fun _ _ _ h hstep => h.step hbound hstep) ?_ (.boot journal units os inDegreeOrder) es
  intro m e hinv child hchild
  cases e with
  | program a =>
      cases hstep : m.programStep a with
      | none => simp [forkedChildren, hstep] at hchild
      | some m' =>
          have hpoint := programStep_returned hstep
          have hfds := hinv.running hpoint
          have hkept := hinv.sockets.kept hpoint
          refine ((programStep_launches hstep).prepared ?_ ?_ ?_ child hchild).isolated
          · rw [hfds]
            exact hbound.opened.isSealed hsealed
          · exact hkept.nodup_storedFds hbound.acquired.nodup
          · intro fd hfd
            rw [hfds]
            refine hbound.acquired.held fd ?_
            simpa only [mem_storedFds, hkept.listen] using hfd
  | _ => exact absurd hchild List.not_mem_nil

/-- The service is passed the listening descriptor. -/
theorem children_isolated_sample :
    (StepRun.trace RunState.step forkedChildren (RunState.boot
      ((parsed {} echoUnits (fun _ => none)).boundAndResolved oneDescriptor
        ["echo.socket", "echo.service"])) echoStart).map ForkedChild.passed = [[3]] ∧
    ∀ child ∈ StepRun.trace RunState.step forkedChildren (RunState.boot
      ((parsed {} echoUnits (fun _ => none)).boundAndResolved oneDescriptor
        ["echo.socket", "echo.service"])) echoStart, child.Isolated :=
  ⟨by decide +kernel,
    children_isolated {} echoUnits (fun _ => none) oneDescriptor ["echo.socket", "echo.service"]
      (fun _ _ hd => nomatch hd) echoStart⟩

end RunState

end TrivialInit
