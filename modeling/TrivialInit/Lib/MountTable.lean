import Mathlib.Data.List.Basic
import Mathlib.Data.List.Count

/-!
# MountTable — mounts on top of and inside each other

A mount table lists the places that carry a mount, the newest mount first; `inside p q` says that
the place `p` lies strictly below the place `q`.  A mount hides what is below it, so a place can be
unmounted only if nothing newer is mounted on a place above.  A lazy unmount takes the newest mount
of the place away, together with everything that was mounted below it since.

An unmount leaves every place reachable that is not below, and the rest of the table as it is.  So
places that are unmounted innermost first are all there when their turn comes.
-/

namespace MountTable

variable {α : Type*}

/-- The place `p` carries a mount, and nothing newer is mounted above it. -/
def Reachable (inside : α → α → Prop) (p : α) : List α → Prop
  | [] => False
  | q :: t => q = p ∨ ¬ inside p q ∧ Reachable inside p t

theorem reachable_cons {inside : α → α → Prop} {p q : α} {t : List α} (h : Reachable inside p t)
    (hq : ¬ inside p q) : Reachable inside p (q :: t) :=
  Or.inr ⟨hq, h⟩

theorem reachable_append {inside : α → α → Prop} {p : α} {newer t : List α}
    (h : Reachable inside p t) (hnewer : ∀ q ∈ newer, ¬ inside p q) :
    Reachable inside p (newer ++ t) := by
  induction newer with
  | nil => exact h
  | cons q newer ih =>
      obtain ⟨hq, hrest⟩ := List.forall_mem_cons.mp hnewer
      exact reachable_cons (ih hrest) hq

/-! ## Unmounting -/

variable [DecidableEq α] (inside : α → α → Prop) [DecidableRel inside]

/-- Unmount `p` lazily; `none` when `p` carries no mount that can be reached. -/
def detach (p : α) : List α → Option (List α)
  | [] => none
  | q :: t =>
      if q = p then some t
      -- A newer mount above hides the place.
      else if inside p q then none
      -- A newer mount below goes with it.
      else (detach p t).map (fun t' => if inside q p then t' else q :: t')

variable {inside} {p q : α} {t t' : List α}

theorem detach_cons_ne (hne : q ≠ p) (hin : ¬ inside p q) :
    detach inside p (q :: t) =
      (detach inside p t).map (fun t' => if inside q p then t' else q :: t') := by
  rw [detach, if_neg hne, if_neg hin]

/-- Exactly the reachable places can be unmounted. -/
theorem exists_detach_iff : (∃ t', detach inside p t = some t') ↔ Reachable inside p t := by
  induction t with
  | nil => simp [detach, Reachable]
  | cons q t ih =>
      by_cases heq : q = p
      · simp [detach, Reachable, heq]
      · by_cases hin : inside p q
        · simp [detach, Reachable, heq, hin]
        · rw [detach_cons_ne heq hin]
          simp only [Reachable, heq, hin, false_or, not_false_eq_true, true_and, ← ih]
          simp [Option.map_eq_some_iff]

theorem detach_eq_none_iff : detach inside p t = none ↔ ¬ Reachable inside p t := by
  rw [← exists_detach_iff, ← Option.isSome_iff_exists, Option.isSome_iff_ne_none, not_not]

/-- What an unmount takes away: the newest mount of the place, and the newer mounts below it. -/
theorem detach_spec (h : detach inside p t = some t') :
    ∃ newer older, t = newer ++ p :: older ∧ p ∉ newer ∧
      t' = newer.filter (fun q => !decide (inside q p)) ++ older := by
  -- `newer` is what stands before the first mount of `p`.
  induction t generalizing t' with
  | nil => cases h
  | cons q t ih =>
      by_cases heq : q = p
      · rw [detach, if_pos heq] at h
        obtain rfl := Option.some.inj h
        exact ⟨[], t, by rw [heq, List.nil_append], List.not_mem_nil, rfl⟩
      · by_cases hin : inside p q
        · rw [detach, if_neg heq, if_pos hin] at h
          cases h
        · rw [detach_cons_ne heq hin] at h
          obtain ⟨t₁, ht₁, rfl⟩ := Option.map_eq_some_iff.mp h
          obtain ⟨newer, older, rfl, hnew, rfl⟩ := ih ht₁
          have hnew' : p ∉ q :: newer := by simp [Ne.symm heq, hnew]
          refine ⟨q :: newer, older, rfl, hnew', ?_⟩
          by_cases hbelow : inside q p
          · simp [hbelow]
          · simp [hbelow]

/-- Places that are neither unmounted nor below it are as before. -/
theorem filter_detach {keep : α → Prop} [DecidablePred keep]
    (hkeep : ∀ q, keep q → q ≠ p ∧ ¬ inside q p) (h : detach inside p t = some t') :
    t'.filter keep = t.filter keep := by
  obtain ⟨newer, older, rfl, -, rfl⟩ := detach_spec h
  have hp : ¬ keep p := fun hp => (hkeep p hp).1 rfl
  have hnewer : (newer.filter (fun q => !decide (inside q p))).filter keep =
      newer.filter keep := by
    rw [List.filter_filter]
    apply List.filter_congr
    intro q _
    by_cases hq : keep q
    · simp [hq, (hkeep q hq).2]
    · simp [hq]
  rw [List.filter_append, hnewer, List.filter_append, List.filter_cons_of_neg (by simpa using hp)]

/-- An unmount takes a mount of its place away. -/
theorem count_detach (h : detach inside p t = some t') : t'.count p + 1 ≤ t.count p := by
  obtain ⟨newer, older, rfl, hnew, rfl⟩ := detach_spec h
  have hfilter : (newer.filter (fun q => !decide (inside q p))).count p = 0 :=
    List.count_eq_zero.mpr (fun hmem => hnew (List.mem_of_mem_filter hmem))
  rw [List.count_append, hfilter, List.count_append, List.count_cons_self]
  omega

theorem count_detach_le (h : detach inside p t = some t') (q : α) : t'.count q ≤ t.count q := by
  obtain ⟨newer, older, rfl, -, rfl⟩ := detach_spec h
  have hsub : (newer.filter (fun q => !decide (inside q p)) ++ older).Sublist
      (newer ++ p :: older) :=
    List.Sublist.append List.filter_sublist (List.sublist_cons_self p older)
  exact hsub.count_le q

/-- A place that is not below the unmounted one stays reachable. -/
theorem Reachable.detach (hp : Reachable inside p t) (hne : p ≠ q) (hin : ¬ inside p q)
    (h : MountTable.detach inside q t = some t') : Reachable inside p t' := by
  induction t generalizing t' with
  | nil => cases hp
  | cons r t ih =>
      by_cases heq : r = q
      -- The unmounted mount is the newest one, so `p` is reached through the rest.
      · rw [MountTable.detach, if_pos heq] at h
        obtain rfl := Option.some.inj h
        exact (hp.resolve_left (fun hr => hne (hr.symm.trans heq))).2
      · by_cases habove : inside q r
        · rw [MountTable.detach, if_neg heq, if_pos habove] at h
          cases h
        · rw [detach_cons_ne heq habove] at h
          obtain ⟨t₁, ht₁, rfl⟩ := Option.map_eq_some_iff.mp h
          rcases hp with rfl | ⟨hr, hp⟩
          · rw [if_neg hin]
            exact Or.inl rfl
          · split_ifs
            · exact ih hp ht₁
            · exact reachable_cons (ih hp ht₁) hr

end MountTable
