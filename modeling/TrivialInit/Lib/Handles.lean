import Mathlib.Data.List.Nodup
import Mathlib.Logic.Function.Basic

/-!
# Handles — tables of handles and what a computation acquires

A table maps the handles that are in use to what they stand for.  `Acquires t t' ks` says that going
from `t` to `t'` acquired exactly the handles `ks` and touched no other; such steps compose, and
releasing what was acquired gives back the table one started from.
-/

namespace Handles

variable {κ υ : Type*} {t t' t'' : κ → Option υ} {ks ks' : List κ}

/-- From `t` to `t'` exactly the handles `ks` were acquired, all of them free before. -/
structure Acquires (t t' : κ → Option υ) (ks : List κ) : Prop where
  nodup : ks.Nodup
  free : ∀ k ∈ ks, t k = none
  held : ∀ k ∈ ks, (t' k).isSome
  frame : ∀ k, k ∉ ks → t' k = t k

namespace Acquires

theorem refl (t : κ → Option υ) : Acquires t t [] where
  nodup := List.nodup_nil
  free := by simp
  held := by simp
  frame := fun _ _ => rfl

theorem append (h : Acquires t t' ks) (h' : Acquires t' t'' ks') :
    Acquires t t'' (ks ++ ks') := by
  -- What the second step acquires was free after the first, so it is new.
  have hnew : ∀ k ∈ ks', k ∉ ks := by
    intro k hk' hk
    have hheld := h.held k hk
    simp [h'.free k hk'] at hheld
  refine ⟨?_, ?_, ?_, ?_⟩
  · exact List.nodup_append.mpr ⟨h.nodup, h'.nodup, fun a ha b hb heq => hnew b hb (heq ▸ ha)⟩
  · intro k hk
    rcases List.mem_append.mp hk with hk | hk
    · exact h.free k hk
    · exact (h.frame k (hnew k hk)) ▸ h'.free k hk
  · intro k hk
    by_cases hk' : k ∈ ks'
    · exact h'.held k hk'
    · rw [h'.frame k hk']
      exact h.held k ((List.mem_append.mp hk).resolve_right hk')
  · intro k hk
    obtain ⟨hk, hk'⟩ := not_or.mp (mt List.mem_append.mpr hk)
    exact (h'.frame k hk').trans (h.frame k hk)

theorem perm (h : Acquires t t' ks) (hperm : ks.Perm ks') : Acquires t t' ks' where
  nodup := hperm.nodup_iff.mp h.nodup
  free := fun k hk => h.free k (hperm.mem_iff.mpr hk)
  held := fun k hk => h.held k (hperm.mem_iff.mpr hk)
  frame := fun k hk => h.frame k (fun hk' => hk (hperm.mem_iff.mp hk'))

/-- The acquired handles are those in use now and not before. -/
theorem mem_iff (h : Acquires t t' ks) {k : κ} : k ∈ ks ↔ t k = none ∧ (t' k).isSome := by
  constructor
  · intro hk
    exact ⟨h.free k hk, h.held k hk⟩
  · rintro ⟨hfree, hheld⟩
    by_contra hk
    simp [h.frame k hk, hfree] at hheld

section Update

variable [DecidableEq κ]

theorem single {k : κ} (hfree : t k = none) (v : υ) :
    Acquires t (Function.update t k (some v)) [k] where
  nodup := List.nodup_singleton k
  free := by simpa using hfree
  held := by simp
  frame := fun j hj => Function.update_of_ne (by simpa using hj) _ _

/-- Changing what an acquired handle stands for. -/
theorem update (h : Acquires t t' ks) {k : κ} (hk : k ∈ ks) (v : υ) :
    Acquires t (Function.update t' k (some v)) ks where
  nodup := h.nodup
  free := h.free
  held := by
    intro j hj
    by_cases hjk : j = k
    · simp [hjk]
    · simpa [Function.update_of_ne hjk] using h.held j hj
  frame := by
    intro j hj
    have hne : j ≠ k := by
      rintro rfl
      exact hj hk
    exact (Function.update_of_ne hne _ _).trans (h.frame j hj)

end Update

end Acquires

/-! ## Releasing -/

section Release

variable [DecidableEq κ]

/-- Release the handles of a list, one after the other. -/
def releaseAll (t : κ → Option υ) (ks : List κ) : κ → Option υ :=
  ks.foldl (fun t k => Function.update t k none) t

theorem releaseAll_append (t : κ → Option υ) (ks ks' : List κ) :
    releaseAll t (ks ++ ks') = releaseAll (releaseAll t ks) ks' :=
  List.foldl_append

theorem releaseAll_apply (t : κ → Option υ) (ks : List κ) (k : κ) :
    releaseAll t ks k = if k ∈ ks then none else t k := by
  induction ks generalizing t with
  | nil => rfl
  | cons j ks ih =>
      have hcons := ih (Function.update t j none)
      by_cases hk : k ∈ ks
      · simpa [releaseAll, hk] using hcons
      · by_cases hkj : k = j
        · simpa [releaseAll, hk, hkj] using hcons
        · simpa [releaseAll, hk, hkj] using hcons

/-- Releasing what was acquired undoes the acquisition. -/
theorem Acquires.releaseAll_eq (h : Acquires t t' ks) : releaseAll t' ks = t := by
  funext k
  rw [releaseAll_apply]
  by_cases hk : k ∈ ks
  · simpa [hk] using (h.free k hk).symm
  · simpa [hk] using h.frame k hk

end Release

end Handles
