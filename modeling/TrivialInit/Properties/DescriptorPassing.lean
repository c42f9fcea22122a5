import TrivialInit.Mixins.Socket

/-!
# DescriptorPassing — what the child of `spawn_with_socket_fds` finds at descriptor 3 + i

For pairwise distinct descriptors the rearrangement loop is a sequence of moves
(`rearrangeFds_eq_moveAll`): move `fds[0]` to 3, then `fds[1]` to 4, and so on, where a move closes
its target first and its source afterwards.  A move can therefore destroy a source that is still
waiting, or a target that is already in place, and both happen exactly when some descriptor is
smaller than its target.
-/

namespace TrivialInit

open InitSystem

/-- Move the descriptor `src` to `tgt`. -/
def moveFd (t : FdTable) (src tgt : Int) : FdTable :=
  if src = tgt then t
  else
    Function.update
      (Function.update t tgt ((t src).map (fun d => { d with cloexec := false }))) src none

/-- The first `i` moves of the loop. -/
def moveAll (fds : List Int) (t : FdTable) : Nat → FdTable
  | 0 => t
  | i + 1 => moveFd (moveAll fds t i) (fds.getD i (-1)) (SD_LISTEN_FDS_START + i)

/-- Descriptor `3 + i` of `t'` is open on the file that `fds[i]` refers to in `t`. -/
def HandedOver (fds : List Int) (t t' : FdTable) : Prop :=
  ∀ (i : Nat) (h : i < fds.length), ∃ d d',
    t fds[i] = some d ∧ t' (SD_LISTEN_FDS_START + i) = some d' ∧ d'.file = d.file

/-! ## One move -/

theorem moveFd_src {t : FdTable} {src tgt : Int} (h : src ≠ tgt) : moveFd t src tgt src = none := by
  simp [moveFd, h]

theorem moveFd_other {t : FdTable} {src tgt fd : Int} (hsrc : fd ≠ src) (htgt : fd ≠ tgt) :
    moveFd t src tgt fd = t fd := by
  by_cases h : src = tgt
  · simp [moveFd, h]
  · simp [moveFd, h, Function.update_of_ne hsrc, Function.update_of_ne htgt]

theorem moveFd_tgt {t : FdTable} {src : Int} (tgt : Int) {d : OpenFd} (hd : t src = some d) :
    ∃ d', moveFd t src tgt tgt = some d' ∧ d'.file = d.file ∧
      (d.cloexec = false → d'.cloexec = false) := by
  by_cases h : src = tgt
  · subst h
    exact ⟨d, by simp [moveFd, hd], rfl, id⟩
  · have hne : tgt ≠ src := fun heq => h heq.symm
    exact ⟨{ d with cloexec := false }, by simp [moveFd, h, hne, hd], rfl, fun _ => rfl⟩

/-! ## The loop is a sequence of moves -/

section Loop

variable {fds : List Int} {t : FdTable}

/-- With distinct descriptors nothing in `w` names the moved descriptor again. -/
theorem rearrangeStep_eq_moveFd (hnd : fds.Nodup) {i : Nat} (hi : i < fds.length)
    (hopen : (t fds[i]).isSome) :
    rearrangeStep (fds, t) i = some (fds, moveFd t fds[i] (SD_LISTEN_FDS_START + i)) := by
  have hget : fds.getD i (-1) = fds[i] := by
    simp [hi]
  by_cases heq : fds[i] = SD_LISTEN_FDS_START + i
  · simp [rearrangeStep, moveFd, hi, heq]
  · rcases Option.isSome_iff_exists.mp hopen with ⟨d, hd⟩
    have hsrc : (t.close (SD_LISTEN_FDS_START + i)) fds[i] = some d := by
      simpa [FdTable.close, Function.update_of_ne heq] using hd
    have hdistinct : ∀ j (hj : j < fds.length), i < j → fds[j] ≠ fds[i] := by
      intro j hj hij hsame
      have := (List.Nodup.getElem_inj_iff hnd).mp hsame
      omega
    -- The first inner loop rewrites nothing.
    have hw : fds.mapIdx (fun j fd =>
        if i < j ∧ fd = fds[i] then SD_LISTEN_FDS_START + (i : Int) else fd) = fds := by
      apply List.ext_getElem (by simp)
      intro j h₁ h₂
      have hno : ¬ (i < j ∧ fds[j] = fds[i]) := fun h => hdistinct j h₂ h.1 h.2
      simp [hno]
    -- The second one finds no later use, so the source is closed.
    have hkeep : (fds.drop (i + 1)).any (fun fd => fd = fds[i]) = false := by
      simp only [List.any_eq_false, decide_eq_true_eq]
      intro fd hfd
      rcases List.mem_iff_getElem.mp hfd with ⟨k, hk, rfl⟩
      have hk' : i + 1 + k < fds.length := by
        simp only [List.length_drop] at hk
        omega
      simpa using hdistinct (i + 1 + k) hk' (by omega)
    simp only [rearrangeStep, hget, heq, if_false, FdTable.dup2, hsrc, hw, hkeep,
      Bool.false_eq_true]
    simp [moveFd, heq, hd, FdTable.close]

/-- A waiting source stays open: a move onto it opens it again, and a move closes only its own
source. -/
theorem moveAll_source_open (hnd : fds.Nodup) (hopen : ∀ fd ∈ fds, (t fd).isSome) :
    ∀ i ≤ fds.length, ∀ j (hj : j < fds.length), i ≤ j → (moveAll fds t i fds[j]).isSome
  | 0, _, j, hj, _ => hopen _ (List.getElem_mem hj)
  | i + 1, hi, j, hj, hij => by
      have hget : fds.getD i (-1) = fds[i] := by
        simp [Nat.lt_of_succ_le hi]
      have hne : fds[j] ≠ fds[i] := by
        intro hsame
        have := (List.Nodup.getElem_inj_iff hnd).mp hsame
        omega
      have ih := moveAll_source_open hnd hopen i (by omega)
      rcases Option.isSome_iff_exists.mp (ih i hi (Nat.le_refl i)) with ⟨d, hd⟩
      unfold moveAll
      rw [hget]
      -- A move onto `fds[j]` replaces what it refers to, but leaves it open.
      by_cases htgt : fds[j] = SD_LISTEN_FDS_START + i
      · rcases moveFd_tgt (SD_LISTEN_FDS_START + i) hd with ⟨d', hd', -⟩
        rw [htgt, hd']
        rfl
      · rw [moveFd_other hne htgt]
        exact ih j hj (by omega)

theorem foldlM_rearrangeStep (hnd : fds.Nodup) (hopen : ∀ fd ∈ fds, (t fd).isSome) :
    ∀ i ≤ fds.length,
      (List.range i).foldlM rearrangeStep (fds, t) = some (fds, moveAll fds t i)
  | 0, _ => rfl
  | i + 1, hi => by
      have ih := foldlM_rearrangeStep hnd hopen i (by omega)
      have hsrc := moveAll_source_open hnd hopen i (by omega) i hi (Nat.le_refl i)
      have hstep := rearrangeStep_eq_moveFd hnd hi hsrc
      have hget : fds.getD i (-1) = fds[i] := by
        simp [Nat.lt_of_succ_le hi]
      simp only [List.range_succ, List.foldlM_append, ih, moveAll, hget]
      change (rearrangeStep (fds, moveAll fds t i) i).bind some = _
      simp only [hstep, Option.bind_some]

/-- The loop never fails on distinct open descriptors, and performs the moves in order. -/
theorem rearrangeFds_eq_moveAll (hnd : fds.Nodup) (hopen : ∀ fd ∈ fds, (t fd).isSome) :
    rearrangeFds fds t = some (moveAll fds t fds.length) := by
  simp [rearrangeFds, foldlM_rearrangeStep hnd hopen fds.length (Nat.le_refl _)]

/-! ## When every descriptor is at or above its target -/

theorem moveAll_of_le (hnd : fds.Nodup) (hopen : ∀ fd ∈ fds, (t fd).isSome)
    (hle : ∀ i (h : i < fds.length), SD_LISTEN_FDS_START + i ≤ fds[i]) :
    ∀ i ≤ fds.length,
      (∀ k (hk : k < fds.length), k < i → ∃ d d', t fds[k] = some d ∧
        moveAll fds t i (SD_LISTEN_FDS_START + k) = some d' ∧ d'.file = d.file ∧
          (d.cloexec = false → d'.cloexec = false)) ∧
      (∀ j (hj : j < fds.length), i ≤ j → moveAll fds t i fds[j] = t fds[j])
  | 0, _ => ⟨fun _ _ hk => absurd hk (Nat.not_lt_zero _), fun _ _ _ => rfl⟩
  | i + 1, hi => by
      have hilt : i < fds.length := hi
      rcases moveAll_of_le hnd hopen hle i (by omega) with ⟨hplaced, hwaiting⟩
      have hget : fds.getD i (-1) = fds[i] := by
        simp [hilt]
      rcases Option.isSome_iff_exists.mp (hopen fds[i] (List.getElem_mem hilt)) with ⟨d, hd⟩
      have hsrc : moveAll fds t i fds[i] = some d := (hwaiting i hilt (Nat.le_refl i)).trans hd
      have hlei := hle i hilt
      unfold moveAll
      rw [hget]
      constructor
      -- Target `3 + i` is filled by this move; the earlier targets are below everything it touches.
      · intro k hk hki
        by_cases hik : k = i
        · subst hik
          rcases moveFd_tgt (SD_LISTEN_FDS_START + k) hsrc with ⟨d', hd', hfile⟩
          exact ⟨d, d', hd, hd', hfile⟩
        · rcases hplaced k hk (by omega) with ⟨dk, dk', hdk, hdk', hfile⟩
          have hother : moveFd (moveAll fds t i) fds[i] (SD_LISTEN_FDS_START + i)
              (SD_LISTEN_FDS_START + k) = moveAll fds t i (SD_LISTEN_FDS_START + k) :=
            moveFd_other (by omega) (by omega)
          exact ⟨dk, dk', hdk, hother.trans hdk', hfile⟩
      -- A waiting source is above every target filled so far.
      · intro j hj hij
        have hlej := hle j hj
        have hne : fds[j] ≠ fds[i] := by
          intro hsame
          have := (List.Nodup.getElem_inj_iff hnd).mp hsame
          omega
        rw [moveFd_other hne (by omega)]
        exact hwaiting j hj (by omega)

/-! ## When some descriptor is below its target -/

/-- The source of move `m` is closed by that move; later moves do not reopen it. -/
theorem moveAll_lost_target (hnd : fds.Nodup) {m j : Nat} (hm : m < fds.length)
    (hj : fds[m] = SD_LISTEN_FDS_START + j) (hjm : j < m) :
    ∀ i ≤ fds.length, m < i → moveAll fds t i (SD_LISTEN_FDS_START + j) = none
  | 0, _, hmi => absurd hmi (Nat.not_lt_zero _)
  | i + 1, hi, hmi => by
      have hget : fds.getD i (-1) = fds[i] := by
        simp [Nat.lt_of_succ_le hi]
      unfold moveAll
      rw [hget]
      by_cases him : m = i
      -- Move `m` itself closes `3 + j`.
      · subst him
        have hne : fds[m] ≠ SD_LISTEN_FDS_START + m := by
          rw [hj]
          omega
        simpa [hj] using moveFd_src (t := moveAll fds t m) hne
      -- A later move neither fills `3 + j`, which is too small, nor has it as its source.
      · have hne : SD_LISTEN_FDS_START + (j : Int) ≠ fds[i] := by
          rw [← hj]
          intro hsame
          exact him ((List.Nodup.getElem_inj_iff hnd).mp hsame)
        rw [moveFd_other hne (by omega)]
        exact moveAll_lost_target hnd hm hj hjm i (by omega) (by omega)

/-- The moves hand all descriptors over exactly if none of them was below its target. -/
theorem handedOver_moveAll_iff (hnd : fds.Nodup) (hstart : ∀ fd ∈ fds, SD_LISTEN_FDS_START ≤ fd)
    (hopen : ∀ fd ∈ fds, (t fd).isSome) :
    HandedOver fds t (moveAll fds t fds.length) ↔
      ∀ i (h : i < fds.length), SD_LISTEN_FDS_START + i ≤ fds[i] := by
  constructor
  · intro hover m hm
    by_contra hlt
    -- The target `fds[m]` belongs to an earlier entry, which loses it when `fds[m]` is moved away.
    have hge := hstart fds[m] (List.getElem_mem hm)
    have hj : fds[m] = SD_LISTEN_FDS_START + ((fds[m] - SD_LISTEN_FDS_START).toNat : Int) := by
      omega
    have hjm : (fds[m] - SD_LISTEN_FDS_START).toNat < m := by omega
    rcases hover (fds[m] - SD_LISTEN_FDS_START).toNat (by omega) with ⟨d, d', -, hd', -⟩
    have hnone := moveAll_lost_target (t := t) hnd hm hj hjm fds.length (Nat.le_refl _) hm
    rw [hnone] at hd'
    cases hd'
  · intro hle i hi
    obtain ⟨d, d', hd, hd', hfile, -⟩ :=
      (moveAll_of_le hnd hopen hle fds.length (Nat.le_refl _)).1 i hi hi
    exact ⟨d, d', hd, hd', hfile⟩

end Loop

/-! ## The child of `spawn_with_socket_fds` -/

theorem file_setCloexec (t : FdTable) (fd fd' : Int) (on : Bool) :
    (t.setCloexec fd on fd').map OpenFd.file = (t fd').map OpenFd.file := by
  unfold FdTable.setCloexec
  cases hfd : t fd with
  | none => rfl
  | some d =>
      by_cases heq : fd' = fd
      · subst heq
        simp [hfd]
      · simp [Function.update_of_ne heq]

/-- `FD_CLOEXEC` does not change what a descriptor refers to. -/
theorem file_setCloexecAll (fds : List Int) (t : FdTable) (fd : Int) (on : Bool) :
    (t.setCloexecAll fds on fd).map OpenFd.file = (t fd).map OpenFd.file := by
  unfold FdTable.setCloexecAll
  induction fds generalizing t with
  | nil => rfl
  | cons fd' fds ih => rw [List.foldl_cons, ih, file_setCloexec]

theorem HandedOver.congr {fds : List Int} {t₁ t₂ t' : FdTable}
    (hfile : ∀ fd, (t₁ fd).map OpenFd.file = (t₂ fd).map OpenFd.file)
    (h : HandedOver fds t₁ t') : HandedOver fds t₂ t' := by
  intro i hi
  rcases h i hi with ⟨d, d', hd, hd', hsame⟩
  have hd₂ := hfile fds[i]
  rw [hd, Option.map_some] at hd₂
  rcases Option.map_eq_some_iff.mp hd₂.symm with ⟨e, he, hefile⟩
  exact ⟨e, d', he, hd', hsame.trans hefile.symm⟩

/-- The child finds the files of the init process's own descriptors, under the same condition. -/
theorem rearrangeFds_childFds (s : InitSystem) {env : SocketEnv} (hnd : env.fds.Nodup)
    (hstart : ∀ fd ∈ env.fds, SD_LISTEN_FDS_START ≤ fd)
    (hopen : ∀ fd ∈ env.fds, (s.fds fd).isSome) :
    ∃ t', rearrangeFds env.fds (s.childFds env) = some t' ∧
      (HandedOver env.fds s.fds t' ↔
        ∀ i (h : i < env.fds.length), SD_LISTEN_FDS_START + i ≤ env.fds[i]) := by
  have hfile : ∀ fd, (s.childFds env fd).map OpenFd.file = (s.fds fd).map OpenFd.file :=
    fun fd => file_setCloexecAll env.fds s.fds fd false
  have hchild : ∀ fd ∈ env.fds, (s.childFds env fd).isSome := by
    intro fd hfd
    have hmapped := congrArg Option.isSome (hfile fd)
    rw [Option.isSome_map, Option.isSome_map] at hmapped
    rw [hmapped]
    exact hopen fd hfd
  refine ⟨_, rearrangeFds_eq_moveAll hnd hchild, ?_⟩
  rw [← handedOver_moveAll_iff hnd hstart hchild]
  exact ⟨HandedOver.congr (fun fd => (hfile fd).symm), HandedOver.congr hfile⟩

/-! ## The loop on any table -/

/-- The loop always finishes; afterwards every descriptor `3 + i` refers to the file of `fds[i]`
exactly if no descriptor was below its target. -/
theorem rearrangeFds_handedOver_iff (fds : List Int) (t : FdTable) (hnd : fds.Nodup)
    (hstart : ∀ fd ∈ fds, SD_LISTEN_FDS_START ≤ fd) (hopen : ∀ fd ∈ fds, (t fd).isSome) :
    ∃ t', rearrangeFds fds t = some t' ∧
      (HandedOver fds t t' ↔ ∀ i (h : i < fds.length), SD_LISTEN_FDS_START + i ≤ fds[i]) :=
  ⟨moveAll fds t fds.length, rearrangeFds_eq_moveAll hnd hopen,
    handedOver_moveAll_iff hnd hstart hopen⟩

/-- A table in which descriptors 3 to 8 are open on files 103 to 108. -/
def sampleFds : FdTable := fun fd =>
  if 3 ≤ fd ∧ fd ≤ 8 then some { file := (100 + fd).toNat, cloexec := false } else none

theorem rearrangeFds_handedOver_iff_sample :
    ∃ t', rearrangeFds [5, 6, 8, 7] sampleFds = some t' ∧
      (HandedOver [5, 6, 8, 7] sampleFds t' ↔
        ∀ i (h : i < [(5 : Int), 6, 8, 7].length),
          SD_LISTEN_FDS_START + i ≤ [(5 : Int), 6, 8, 7][i]) :=
  rearrangeFds_handedOver_iff [5, 6, 8, 7] sampleFds (by decide) (by decide) (by decide)

/-- Four listening sockets collected in the order 8, 7, 6, 5: the child ends up without a descriptor
5, although all four are distinct, open and at least 3. -/
theorem rearrangeFds_not_handedOver :
    ¬ ∀ (fds : List Int) (t t' : FdTable), fds.Nodup → (∀ fd ∈ fds, SD_LISTEN_FDS_START ≤ fd) →
        (∀ fd ∈ fds, (t fd).isSome) → rearrangeFds fds t = some t' → HandedOver fds t t' := by
  intro hall
  have hnd : [(8 : Int), 7, 6, 5].Nodup := by decide
  have hstart : ∀ fd ∈ [(8 : Int), 7, 6, 5], SD_LISTEN_FDS_START ≤ fd := by decide
  have hopen : ∀ fd ∈ [(8 : Int), 7, 6, 5], (sampleFds fd).isSome := by decide
  have hrun := rearrangeFds_eq_moveAll (t := sampleFds) hnd hopen
  rcases hall [8, 7, 6, 5] sampleFds _ hnd hstart hopen hrun 2 (by decide) with ⟨d, d', -, hd', -⟩
  have hclosed : moveAll [8, 7, 6, 5] sampleFds 4 (SD_LISTEN_FDS_START + 2) = none := by decide
  cases hclosed.symm.trans hd'

end TrivialInit
