import Mathlib.Data.List.Basic
import Mathlib.Data.List.Nodup

/-!
# Positions — one element before another in a list

In a list without duplicates, `a` stands before `b` when `[a, b]` is a sublist.  Sublists go through
`reverse` and `filterMap`, and positions are what a statement is about; the lemmas here lead from one
to the other, and on to the prefixes of the list.
-/

namespace Positions

variable {α β : Type*} [DecidableEq α] [DecidableEq β]

theorem pair_sublist_of_idxOf_lt {l : List α} {a b : α} (hb : b ∈ l)
    (hlt : l.idxOf a < l.idxOf b) : [a, b].Sublist l := by
  have ha : a ∈ l := by
    have hlen := List.idxOf_lt_length_of_mem hb
    exact List.idxOf_lt_length_iff.mp (Nat.lt_trans hlt hlen)
  obtain ⟨s, t, rfl, hnot⟩ := List.eq_append_cons_of_mem ha
  rw [List.idxOf_append_of_notMem hnot, List.idxOf_cons_self] at hlt
  have hbt : b ∈ t := by
    rcases List.mem_append.mp hb with hs | ht
    · have hpos := List.idxOf_lt_length_of_mem hs
      rw [List.idxOf_append_of_mem hs] at hlt
      omega
    · rcases List.mem_cons.mp ht with rfl | ht
      · rw [List.idxOf_append_of_notMem hnot, List.idxOf_cons_self] at hlt
        omega
      · exact ht
  have hpair : [a, b].Sublist (a :: t) := (List.singleton_sublist.mpr hbt).cons_cons a
  exact hpair.trans (List.sublist_append_right s (a :: t))

theorem idxOf_lt_of_pair_sublist {l : List α} {a b : α} (hnodup : l.Nodup)
    (hsub : [a, b].Sublist l) : l.idxOf a < l.idxOf b := by
  induction l with
  | nil => simp at hsub
  | cons c l ih =>
      obtain ⟨hc, hnodup⟩ := List.nodup_cons.mp hnodup
      cases hsub with
      | cons _ hsub =>
          have hne : ∀ x ∈ [a, b], c ≠ x := fun x hx h => hc (h ▸ hsub.subset hx)
          rw [List.idxOf_cons_ne _ (hne a (by simp)), List.idxOf_cons_ne _ (hne b (by simp))]
          exact Nat.succ_lt_succ (ih hnodup hsub)
      | cons_cons _ hsub =>
          have hb : b ∈ l := hsub.subset (by simp)
          have hne : a ≠ b := fun h => hc (h ▸ hb)
          rw [List.idxOf_cons_self, List.idxOf_cons_ne _ hne]
          exact Nat.succ_pos _

/-- The order of two elements in the reversed list, seen through an injective partial map. -/
theorem idxOf_filterMap_reverse {l : List α} {f : α → Option β} {a b : α} {a' b' : β}
    (hb : b ∈ l) (hlt : l.idxOf a < l.idxOf b) (ha' : f a = some a') (hb' : f b = some b')
    (hnodup : (l.reverse.filterMap f).Nodup) :
    (l.reverse.filterMap f).idxOf b' < (l.reverse.filterMap f).idxOf a' := by
  have hpair := ((pair_sublist_of_idxOf_lt hb hlt).reverse).filterMap f
  simp only [List.reverse_cons, List.reverse_nil, List.nil_append, List.singleton_append,
    List.filterMap_cons, ha', hb', List.filterMap_nil] at hpair
  exact idxOf_lt_of_pair_sublist hnodup hpair

/-- A prefix that contains `b` contains what stands before `b`. -/
theorem mem_and_idxOf_lt_of_prefix {l l' : List α} {a b : α} (hpre : l <+: l') (hb : b ∈ l)
    (hlt : l'.idxOf a < l'.idxOf b) : a ∈ l ∧ l.idxOf a < l.idxOf b := by
  have hlen := (hpre.mem_iff_idxOf_lt_length b).mp hb
  have ha : a ∈ l := (hpre.mem_iff_idxOf_lt_length a).mpr (Nat.lt_trans hlt hlen)
  rw [hpre.idxOf_eq_of_mem ha, hpre.idxOf_eq_of_mem hb]
  exact ⟨ha, hlt⟩

end Positions
