import TrivialInit.Properties.WholeRun

/-!
# EarlyMounts — the early file systems are unmounted again

`execute(EarlyMount)` records what it has mounted, and `execute(Shutdown)` unmounts it in the
reverse order.  No early mount lies inside a later one, so each of them can still be reached when
its turn comes, unless somebody else has been at work or a mount unit has asked to move a mount, and
nothing outside them is touched.
-/

namespace TrivialInit

open MountTable (Reachable)

/-! ## The table of early mounts -/

/-- The places of `kEarlyMounts`. -/
def earlyTargets : List String :=
  kEarlyMounts.map MountPoint.target

/-- No early mount lies inside a later one. -/
theorem earlyTargets_ordered :
    earlyTargets.Pairwise (fun p q => p ≠ q ∧ ¬ PathInside p q) := by
  decide

/-- The place is neither one of an early mount nor inside one. -/
def ApartFromEarly (q : String) : Prop :=
  ∀ p ∈ earlyTargets, q ≠ p ∧ ¬ PathInside q p

instance : DecidablePred ApartFromEarly :=
  fun q => inferInstanceAs (Decidable (∀ p ∈ earlyTargets, q ≠ p ∧ ¬ PathInside q p))

/-- What has been mounted does not lie inside what is mounted next. -/
theorem not_inside_next {done rest : List MountPoint} {mp : MountPoint}
    (h : kEarlyMounts = done ++ mp :: rest) {p : String} (hp : p ∈ done.map MountPoint.target) :
    ¬ PathInside p mp.target := by
  have hordered := earlyTargets_ordered
  rw [earlyTargets, h, List.map_append, List.pairwise_append] at hordered
  exact (hordered.2.2 p hp mp.target (by simp)).2

/-- In the reverse order nothing lies inside what has been unmounted. -/
theorem pairwise_reverse {mounted : List String} (h : mounted.Sublist earlyTargets) :
    mounted.reverse.Pairwise (fun p q => q ≠ p ∧ ¬ PathInside q p) :=
  List.pairwise_reverse.mpr (earlyTargets_ordered.sublist h)

/-! ## The invariant -/

namespace MainPoint

/-- The early mounts to come. -/
def toMount : MainPoint → List MountPoint
  | .earlyMount _ todo => todo
  | _ => []

/-- The places that are still to be unmounted; a failed start leaves them mounted. -/
def toUnmount (mounted : List String) : MainPoint → List String
  | .unmounting _ todo => todo
  | .returned _ code => if code = 0 then [] else mounted.reverse
  | _ => mounted.reverse

/-- What `run` has returned. -/
def exitCode : MainPoint → Option Int
  | .returned _ code => some code
  | _ => none

/-- The object of type `InitSystem`. -/
def object : MainPoint → InitSystem
  | .earlyMount s _ => s
  | .signalSetup s => s
  | .unitDiscovery s => s
  | .unitParse s _ => s
  | .socketBind s => s
  | .dependencyResolve s => s
  | .running r => r.sys.init
  | .unmounting s _ => s
  | .returned s _ => s
  | .terminated s => s

end MainPoint

namespace MainEvent

def isEarlyMount : MainEvent → Bool
  | .mountsEarly _ => true
  | _ => false

def isOtherUnmount : MainEvent → Bool
  | .otherUnmounts _ => true
  | _ => false

end MainEvent

namespace MainState

/-- Nobody else unmounts anything, no mount is moved, and nothing but an early mount is mounted over
a directory that holds an early mount. -/
def Undisturbed (m : MainState) (e : MainEvent) : Prop :=
  e.isOtherUnmount = false ∧ m.placeVacated e = none ∧
    ∀ place ∈ m.placesMounted e,
      e.isEarlyMount = true ∨ ∀ p ∈ earlyTargets, ¬ PathInside p place

instance (m : MainState) (e : MainEvent) : Decidable (m.Undisturbed e) :=
  inferInstanceAs (Decidable (_ ∧ _))

/-- `mounted_` holds early mounts that have had their turn, in the order of the table. -/
def Recorded (m : MainState) : Prop :=
  ∃ done, kEarlyMounts = done ++ m.point.toMount ∧ m.mounted.Sublist (done.map MountPoint.target)

namespace Recorded

variable {m m' : MainState}

theorem sublist (h : Recorded m) : m.mounted.Sublist earlyTargets := by
  obtain ⟨done, hdone, hsub⟩ := h
  refine hsub.trans ?_
  rw [earlyTargets, hdone, List.map_append]
  exact List.sublist_append_left _ _

theorem start (pid : Pid) (noTui : Bool) (mounts : List String) (fds : FdTable) :
    Recorded (MainState.start pid noTui mounts fds) :=
  ⟨[], rfl, List.Sublist.refl []⟩

theorem step (h : Recorded m) {point : MainPoint} (hpoint : m.point = point) {e : MainEvent}
    (hstep : MainStep m point e m') : Recorded m' := by
  obtain ⟨done, hdone, hsub⟩ := h
  rw [hpoint] at hdone
  cases hstep with
  | @mountsEarly s mp rest errno hok hbusy s' hs' =>
      refine ⟨done ++ [mp], by simpa [MainPoint.toMount] using hdone, ?_⟩
      rw [List.map_append]
      exact hsub.append (List.Sublist.refl _)
  | @skipsEarly s mp rest reason hproc s' hs' =>
      refine ⟨done ++ [mp], by simpa [MainPoint.toMount] using hdone, ?_⟩
      rw [List.map_append]
      exact hsub.trans (List.sublist_append_left _ _)
  | @failsEarly s mp rest reason hproc s' =>
      refine ⟨done ++ mp :: rest, by simpa [MainPoint.toMount] using hdone, ?_⟩
      rw [List.map_append]
      exact hsub.trans (List.sublist_append_left _ _)
  | otherMounts => exact ⟨done, hpoint ▸ hdone, hsub⟩
  | otherUnmounts hmounts => exact ⟨done, hpoint ▸ hdone, hsub⟩
  | _ => exact ⟨done, hdone, hsub⟩

end Recorded

/-- The mounts of the system, which carried `mounts` at first, after those of `tr`. -/
structure MountInv (mounts tr : List String) (m : MainState) : Prop where
  recorded : Recorded m
  reach : ∀ p ∈ m.point.toUnmount m.mounted, Reachable PathInside p m.mounts
  count : ∃ gone, m.mounted.reverse = gone ++ m.point.toUnmount m.mounted ∧
    ∀ p, m.mounts.count p + gone.count p ≤ (tr.reverse ++ mounts).count p
  apart : m.mounts.filter ApartFromEarly = (tr.reverse ++ mounts).filter ApartFromEarly

namespace MountInv

variable {mounts tr : List String} {m m' : MainState}

theorem start (pid : Pid) (noTui : Bool) (mounts : List String) (fds : FdTable) :
    MountInv mounts [] (MainState.start pid noTui mounts fds) where
  recorded := .start pid noTui mounts fds
  reach := fun p hp => absurd hp List.not_mem_nil
  count := ⟨[], rfl, fun p => by simp [MainState.start]⟩
  apart := rfl

/-- A step that leaves `mounted_` alone and mounts nothing above an early mount. -/
theorem moves (h : MountInv mounts tr m) {places : List String}
    (hplaces : ∀ q ∈ places, ∀ p ∈ earlyTargets, ¬ PathInside p q) (hrecorded : Recorded m')
    (hmounted : m'.mounted = m.mounted) (hmounts : m'.mounts = places.reverse ++ m.mounts)
    (hunmount : m'.point.toUnmount m.mounted = m.point.toUnmount m.mounted) :
    MountInv mounts (tr ++ places) m' := by
  obtain ⟨gone, hgone, hcount⟩ := h.count
  refine ⟨hrecorded, ?_, ⟨gone, ?_, fun p => ?_⟩, ?_⟩
  · intro p hp
    rw [hmounted, hunmount] at hp
    -- What is still to be unmounted is an early mount, and the new places are not above one.
    have hearly : p ∈ earlyTargets := by
      have hmem : p ∈ m.mounted.reverse := hgone ▸ List.mem_append_right gone hp
      exact h.recorded.sublist.subset (List.mem_reverse.mp hmem)
    rw [hmounts]
    exact MountTable.reachable_append (h.reach p hp)
      (fun q hq => hplaces q (List.mem_reverse.mp hq) p hearly)
  · rw [hmounted, hunmount, hgone]
  · have hp := hcount p
    rw [hmounts, List.reverse_append, List.append_assoc, List.count_append, List.count_append]
    omega
  · rw [hmounts, List.reverse_append, List.append_assoc, List.filter_append, h.apart,
      ← List.filter_append]

/-- An early mount, or one that was there already. -/
theorem mountsEarly (h : MountInv mounts tr m) {s s' : InitSystem} {mp : MountPoint}
    {rest : List MountPoint} (hpoint : m.point = .earlyMount s (mp :: rest)) {places : List String}
    (hplaces : places = [mp.target] ∨
      places = [] ∧ Reachable PathInside mp.target m.mounts)
    (hm' : m' = { m with
      mounted := m.mounted ++ [mp.target]
      mounts := places.reverse ++ m.mounts
      point := .earlyMount s' rest })
    (hrecorded : Recorded m') : MountInv mounts (tr ++ places) m' := by
  subst hm'
  obtain ⟨done, hdone, hsub⟩ := h.recorded
  obtain ⟨gone, hgone, hcount⟩ := h.count
  have hreach := h.reach
  rw [hpoint] at hdone hreach hgone
  -- Nothing has been unmounted yet.
  have hnone : gone = [] := List.self_eq_append_left.mp hgone
  have hbefore : ∀ p ∈ m.mounted, ¬ PathInside p mp.target := fun p hp =>
    not_inside_next hdone (hsub.subset hp)
  have htarget : Reachable PathInside mp.target (places.reverse ++ m.mounts) := by
    rcases hplaces with rfl | ⟨rfl, hreached⟩
    · exact Or.inl rfl
    · exact hreached
  have honly : ∀ q ∈ places.reverse, q = mp.target := by
    rcases hplaces with rfl | ⟨rfl, -⟩
    · simp
    · simp
  refine ⟨hrecorded, ?_, ⟨[], rfl, fun p => ?_⟩, ?_⟩
  · intro p hp
    have hmem : p ∈ (m.mounted ++ [mp.target]).reverse := hp
    rw [List.mem_reverse, List.mem_append, List.mem_singleton] at hmem
    rcases hmem with hmem | rfl
    · exact MountTable.reachable_append (hreach p (List.mem_reverse.mpr hmem))
        (fun q hq => honly q hq ▸ hbefore p hmem)
    · exact htarget
  · have hp := hcount p
    rw [hnone] at hp
    rw [List.reverse_append, List.append_assoc, List.count_append, List.count_append]
    omega
  · rw [List.reverse_append, List.append_assoc, List.filter_append, h.apart, ← List.filter_append]

/-- One iteration of the loop of `execute(Shutdown)`. -/
theorem unmounts (h : MountInv mounts tr m) {s : InitSystem} {target : String}
    {rest left : List String} (hpoint : m.point = .unmounting s (target :: rest))
    (hleft : MountTable.detach PathInside target m.mounts = some left)
    (hrecorded : Recorded { m with mounts := left, point := .unmounting s rest }) :
    MountInv mounts tr { m with mounts := left, point := .unmounting s rest } := by
  obtain ⟨gone, hgone, hcount⟩ := h.count
  have hreach := h.reach
  rw [hpoint] at hreach hgone
  have horder := pairwise_reverse h.recorded.sublist
  rw [hgone] at horder
  have hinner := (List.pairwise_cons.mp (List.pairwise_append.mp horder).2.1).1
  have htarget : target ∈ earlyTargets := by
    have hmem : target ∈ m.mounted.reverse := by
      rw [hgone]
      exact List.mem_append_right gone (List.mem_cons_self)
    exact h.recorded.sublist.subset (List.mem_reverse.mp hmem)
  refine ⟨hrecorded, ?_, ⟨gone ++ [target], ?_, fun p => ?_⟩, ?_⟩
  · intro p hp
    have hp' : p ∈ rest := hp
    have hreachable := hreach p (List.mem_cons_of_mem target hp')
    exact hreachable.detach (hinner p hp').1 (hinner p hp').2 hleft
  · rw [hgone, List.append_assoc]
    rfl
  · have hp := hcount p
    change left.count p + (gone ++ [target]).count p ≤ _
    rw [List.count_append]
    -- The mount that is gone is counted in `gone` now.
    by_cases heq : p = target
    · have hone := MountTable.count_detach hleft
      rw [heq] at hp ⊢
      rw [List.count_singleton_self]
      omega
    · have hle := MountTable.count_detach_le hleft p
      have hzero : [target].count p = 0 := List.count_eq_zero.mpr (by simpa using heq)
      rw [hzero]
      omega
  · exact (MountTable.filter_detach (fun q hq => hq target htarget) hleft).trans h.apart

theorem step (h : MountInv mounts tr m) {e : MainEvent} (hok : Undisturbed m e)
    (hstep : m.step e = some m') :
    MountInv mounts (tr ++ m.placesMounted e) m' ∧ ∀ error, e = .unmounts error → error = none := by
  obtain ⟨m₁, _, hm₁, rfl, hkept⟩ := step_cases hstep
  obtain ⟨hothers, hvacated, hover⟩ := hok
  obtain rfl := hkept hvacated
  have hrecorded : Recorded { m₁ with mounts := (m.placesMounted e).reverse ++ m₁.mounts } :=
    (h.recorded.step rfl hm₁ : Recorded m₁)
  have hplaces : e.isEarlyMount = false →
      ∀ q ∈ m.placesMounted e, ∀ p ∈ earlyTargets, ¬ PathInside p q := by
    intro hother q hq
    refine (hover q hq).resolve_left ?_
    rw [hother]
    exact Bool.false_ne_true
  generalize hpoint : m.point = point at hm₁
  cases hm₁ with
  | @mountsEarly s mp rest errno hnoError hbusy s' hs' =>
      refine ⟨h.mountsEarly hpoint ?_ rfl hrecorded, by simp⟩
      unfold placesMounted mountAnswer
      rw [hpoint]
      cases errno with
      | none => exact Or.inl rfl
      | some errno =>
          cases errno with
          | busy => exact Or.inr ⟨rfl, hbusy rfl⟩
          | other reason => exact absurd rfl (hnoError reason)
  | skipsEarly hproc s' hs' =>
      refine ⟨h.moves ?_ hrecorded rfl rfl (by rw [hpoint]; rfl), by simp⟩
      simp [placesMounted, mountAnswer]
  | failsEarly hproc s' =>
      refine ⟨h.moves ?_ hrecorded rfl rfl (by rw [hpoint]; rfl), by simp⟩
      simp [placesMounted, mountAnswer]
  | @unmounts s target rest mounts hmounts =>
      refine ⟨?_, by simp⟩
      have hnext := h.unmounts hpoint hmounts hrecorded
      rw [← List.append_nil tr] at hnext
      exact hnext
  | @failsUnmount s target rest reason hmounts s' hs' =>
      -- The place can be reached, so the kernel does not refuse.
      have hreach := h.reach target (by simp [hpoint, MainPoint.toUnmount])
      exact absurd hreach (MountTable.detach_eq_none_iff.mp hmounts)
  | otherUnmounts hmounts => exact absurd hothers Bool.noConfusion
  | _ =>
      refine ⟨h.moves (hplaces rfl) hrecorded rfl rfl ?_, by simp⟩
      simp [hpoint, MainPoint.toUnmount]

end MountInv

/-! ## Whole runs -/

/-- Let nobody else unmount anything, no mount be moved, and nothing be mounted over a directory that
holds an early mount.  Then every `umount2` of the shutdown succeeds; the mounts outside the places of
the early mounts, those of the units among them, stay; and when `run` returns 0, each place the
program has recorded carries a mount less than have been made there. -/
theorem unmounts_succeed {pid : Pid} {noTui : Bool} {mounts : List String} {fds : FdTable}
    {es : List MainEvent} {m : MainState}
    (hrun : (start pid noTui mounts fds).run es = some m)
    (hok : StepRun.StepsMeet step Undisturbed (start pid noTui mounts fds) es)
    {table : List String} (htable : table =
      (StepRun.trace step placesMounted (start pid noTui mounts fds) es).reverse ++ mounts) :
    (∀ error, .unmounts error ∈ es → error = none) ∧
      (m.point.exitCode = some 0 → ∀ p ∈ m.mounted, m.mounts.count p < table.count p) ∧
      m.mounts.filter ApartFromEarly = table.filter ApartFromEarly := by
  have hstart := MountInv.start pid noTui mounts fds
  have hend := StepRun.run_history_invariant Undisturbed (MountInv mounts)
    (fun _ _ _ _ h hok hstep => (h.step hok hstep).1) hstart hok hrun
  -- Every event, seen as an observation, meets the second half of the step lemma.
  have herrors : ∀ e ∈ StepRun.trace step (fun _ e => [e]) (start pid noTui mounts fds) es,
      ∀ error, e = .unmounts error → error = none := by
    refine StepRun.forall_mem_trace_of_stepsMeet (fun m => ∃ tr, MountInv mounts tr m)
      ?_ ?_ ⟨[], hstart⟩ hok hrun
    · rintro m e m' ⟨tr, h⟩ hok hstep
      exact ⟨_, (h.step hok hstep).1⟩
    · rintro m e m' ⟨tr, h⟩ hok hstep x hx
      obtain rfl := List.mem_singleton.mp hx
      exact (h.step hok hstep).2
  rw [StepRun.trace_of_event (fun e => [e]) hrun, List.flatMap_singleton'] at herrors
  subst htable
  refine ⟨fun error herror => herrors _ herror error rfl, fun hreturned p hp => ?_, hend.apart⟩
  obtain ⟨gone, hgone, hcount⟩ := hend.count
  have hnone : m.point.toUnmount m.mounted = [] := by
    cases hpoint : m.point with
    | returned s code =>
        rw [hpoint] at hreturned
        exact if_pos (Option.some.inj hreturned)
    | _ =>
        rw [hpoint] at hreturned
        cases hreturned
  have hall : gone = m.mounted.reverse := by
    rw [hgone, hnone, List.append_nil]
  have hpos : 0 < gone.count p := List.count_pos_iff.mpr (hall ▸ List.mem_reverse.mpr hp)
  exact Nat.lt_of_lt_of_le (Nat.lt_add_of_pos_right hpos) (hcount p)

/-- The shutdown after `srvRun`. -/
def srvStop : List MainEvent :=
  [ .runs (.program {}) {}
  , .runs (.program {}) {}
  , .runs (.program { polled := some [] }) {}
  , .runs (.program {}) {} ] ++
    List.replicate 8 (.unmounts none) ++ [.returns]

/-- The mount unit's file system is the one that is left. -/
theorem unmounts_succeed_sample :
    ∃ m : MainState, (start 7 false [] (fun _ => none)).run (srvRun ++ srvStop) = some m ∧
      m.mounts.filter ApartFromEarly = ["/srv"] := by
  have hsome : ((start 7 false [] (fun _ => none)).run (srvRun ++ srvStop)).any
      (fun m => decide (m.point.exitCode = some 0)) = true := by
    decide +kernel
  have hok : StepRun.StepsMeet step Undisturbed (start 7 false [] (fun _ => none))
      (srvRun ++ srvStop) := by
    decide +kernel
  obtain ⟨m, hm, hreturned⟩ := (Option.any_eq_true _ _).mp hsome
  refine ⟨m, hm, ?_⟩
  rw [(unmounts_succeed hm hok rfl).2.2]
  decide +kernel

end MainState

end TrivialInit
