import Mathlib.Data.List.Nodup
import Mathlib.Data.List.Pairwise

/-!
# Grouping — collecting a list by key, one pass for each key

`group keys key l` makes one pass over `l` for each key and takes the elements with that key.  Every
element is kept, elements with one key keep their order, and the whole list keeps its order exactly
if the keys already appear in the order of the passes (`group_eq_self_iff`).
-/

namespace Grouping

variable {κ α : Type*} [DecidableEq κ]

/-- One pass over `l` for each key. -/
def group (keys : List κ) (key : α → κ) (l : List α) : List α :=
  keys.flatMap (fun k => l.filter (fun x => key x = k))

/-- The keys of `l` appear in the order of the passes. -/
def InPassOrder (keys : List κ) (key : α → κ) (l : List α) : Prop :=
  l.Pairwise (fun x y => keys.idxOf (key x) ≤ keys.idxOf (key y))

instance (keys : List κ) (key : α → κ) (l : List α) : Decidable (InPassOrder keys key l) :=
  inferInstanceAs (Decidable (l.Pairwise _))

variable {keys : List κ} {key : α → κ}

@[simp] theorem group_nil : group keys key [] = [] := by
  simp [group]

/-- A pass that finds nothing in a list finds nothing after an element with another key. -/
theorem filter_key_cons_of_ne {k : κ} {x : α} {l : List α} (h : key x ≠ k) :
    (x :: l).filter (fun y => key y = k) = l.filter (fun y => key y = k) := by
  simp [h]

/-- An element that no other element has to precede stays in front. -/
theorem group_cons (hnodup : keys.Nodup) {x : α} {l : List α} (hx : key x ∈ keys)
    (hfirst : ∀ y ∈ l, keys.idxOf (key x) ≤ keys.idxOf (key y)) :
    group keys key (x :: l) = x :: group keys key l := by
  obtain ⟨before, after, hkeys⟩ := List.append_of_mem hx
  have hnodup' : (before ++ key x :: after).Nodup := hkeys ▸ hnodup
  have hbefore : key x ∉ before := by
    intro hmem
    exact (List.nodup_append.mp hnodup').2.2 _ hmem _ List.mem_cons_self rfl
  have hafter : key x ∉ after :=
    (List.nodup_cons.mp (List.nodup_append.mp hnodup').2.1).1
  -- The passes before the one of `x` find nothing: their keys precede the key of `x`.
  have hnone : ∀ k ∈ before, (x :: l).filter (fun y => key y = k) = [] := by
    intro k hk
    rw [List.filter_eq_nil_iff]
    intro y hy hyk
    have hyk : key y = k := by simpa using hyk
    rcases List.mem_cons.mp hy with rfl | hyl
    · exact hbefore (hyk ▸ hk)
    · have hle := hfirst y hyl
      have hidx : keys.idxOf (key x) = before.length := by
        rw [hkeys, List.idxOf_append_of_notMem hbefore, List.idxOf_cons_self]
        omega
      have hidy : keys.idxOf (key y) < before.length := by
        rw [hkeys, hyk, List.idxOf_append_of_mem hk]
        exact List.idxOf_lt_length_of_mem hk
      omega
  have hnone' : ∀ k ∈ before, l.filter (fun y => key y = k) = [] := by
    intro k hk
    have hne : key x ≠ k := fun h => hbefore (h ▸ hk)
    rw [← filter_key_cons_of_ne hne]
    exact hnone k hk
  have hsame : after.flatMap (fun k => (x :: l).filter (fun y => key y = k)) =
      after.flatMap (fun k => l.filter (fun y => key y = k)) := by
    apply List.flatMap_congr
    intro k hk
    exact filter_key_cons_of_ne (fun h => hafter (h ▸ hk))
  unfold group
  rw [hkeys, List.flatMap_append, List.flatMap_append, List.flatMap_cons, List.flatMap_cons,
    List.flatMap_eq_nil_iff.mpr hnone, List.flatMap_eq_nil_iff.mpr hnone', hsame]
  simp

theorem inPassOrder_group (hnodup : keys.Nodup) (l : List α) :
    InPassOrder keys key (group keys key l) := by
  unfold InPassOrder group
  rw [List.pairwise_flatMap]
  constructor
  · intro k _
    -- Within one pass all keys are equal.
    apply List.pairwise_of_forall_mem_list
    intro x hx y hy
    have hx' : key x = k := by simpa using (List.mem_filter.mp hx).2
    have hy' : key y = k := by simpa using (List.mem_filter.mp hy).2
    simp [hx', hy']
  · rw [List.pairwise_iff_getElem]
    intro i j hi hj hij x hx y hy
    have hx' : key x = keys[i] := by simpa using (List.mem_filter.mp hx).2
    have hy' : key y = keys[j] := by simpa using (List.mem_filter.mp hy).2
    rw [hx', hy', hnodup.idxOf_getElem, hnodup.idxOf_getElem]
    exact Nat.le_of_lt hij

/-- Grouping keeps a list as it is exactly if its keys are in the order of the passes. -/
theorem group_eq_self_iff (hnodup : keys.Nodup) {l : List α} (hl : ∀ x ∈ l, key x ∈ keys) :
    group keys key l = l ↔ InPassOrder keys key l := by
  constructor
  · intro h
    rw [← h]
    exact inPassOrder_group hnodup l
  · intro h
    induction l with
    | nil => exact group_nil
    | cons x l ih =>
        have hpair := List.pairwise_cons.mp h
        rw [group_cons hnodup (hl x List.mem_cons_self) hpair.1,
          ih (fun y hy => hl y (List.mem_cons_of_mem _ hy)) hpair.2]

end Grouping
