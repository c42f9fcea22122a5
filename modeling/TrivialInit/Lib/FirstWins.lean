import Mathlib.Data.Finset.Dedup
import Mathlib.Data.Finset.Union

/-!
# FirstWins — the first element of each key

`firstWins key taken l` keeps the elements of `l` whose key is neither in `taken` nor the key of an
element before.  It is what a loop computes that collects elements under their keys and passes over
the keys it has seen (`foldl_collect`).  An element is kept exactly if it is the first one of its
key, and no two kept elements have the same key.
-/

namespace FirstWins

variable {α κ : Type*} [DecidableEq κ] (key : α → κ)

/-- The elements of `l` whose key is not taken, by `taken` or by an element before. -/
def firstWins (taken : Finset κ) : List α → List α
  | [] => []
  | x :: l =>
      if key x ∈ taken then firstWins taken l else x :: firstWins (insert (key x) taken) l

/-! ## The collecting loop -/

/-- One iteration of a loop that collects elements and the set of their keys. -/
def collect (st : Finset κ × List α) (x : α) : Finset κ × List α :=
  if key x ∈ st.1 then st else (insert (key x) st.1, st.2 ++ [x])

theorem foldl_collect (l : List α) (taken : Finset κ) (acc : List α) :
    l.foldl (collect key) (taken, acc) =
      (taken ∪ (l.map key).toFinset, acc ++ firstWins key taken l) := by
  induction l generalizing taken acc with
  | nil => simp [firstWins]
  | cons x l ih =>
      rw [List.foldl_cons, collect, firstWins]
      by_cases hx : key x ∈ taken
      · simp only [hx, if_true, ih, List.map_cons, List.toFinset_cons]
        rw [Finset.union_insert, Finset.insert_eq_of_mem (Finset.mem_union_left _ hx)]
      · simp only [hx, if_false, ih, List.map_cons, List.toFinset_cons, List.append_assoc,
          List.singleton_append]
        rw [Finset.union_insert, Finset.insert_union]

/-! ## What is kept -/

variable {key}

/-- A taken key has no kept element. -/
theorem filter_firstWins_of_mem {taken : Finset κ} {k : κ} (hk : k ∈ taken) (l : List α) :
    (firstWins key taken l).filter (fun x => key x = k) = [] := by
  induction l generalizing taken with
  | nil => rfl
  | cons x l ih =>
      rw [firstWins]
      by_cases hx : key x ∈ taken
      · rw [if_pos hx, ih hk]
      · have hne : key x ≠ k := fun h => hx (h ▸ hk)
        rw [if_neg hx, List.filter_cons_of_neg (by simpa using hne),
          ih (Finset.mem_insert_of_mem hk)]

/-- The kept element of any other key is the first one. -/
theorem filter_firstWins {taken : Finset κ} {k : κ} (hk : k ∉ taken) (l : List α) :
    (firstWins key taken l).filter (fun x => key x = k) = (l.find? (fun x => key x = k)).toList := by
  induction l generalizing taken with
  | nil => rfl
  | cons x l ih =>
      rw [firstWins]
      by_cases hxk : key x = k
      · subst hxk
        rw [if_neg hk, List.filter_cons_of_pos (by simp),
          filter_firstWins_of_mem (Finset.mem_insert_self _ _), List.find?_cons_of_pos (by simp)]
        rfl
      · rw [List.find?_cons_of_neg (by simpa using hxk)]
        by_cases hx : key x ∈ taken
        · rw [if_pos hx, ih hk]
        · have hk' : k ∉ insert (key x) taken := by simp [hk, Ne.symm hxk]
          rw [if_neg hx, List.filter_cons_of_neg (by simpa using hxk), ih hk']

/-- An element is kept exactly if it is the first one of its key. -/
theorem mem_firstWins {x : α} {l : List α} :
    x ∈ firstWins key ∅ l ↔ l.find? (fun y => key y = key x) = some x := by
  rw [← Option.mem_toList, ← filter_firstWins (Finset.notMem_empty (key x)) l]
  simp

theorem mem_of_mem_firstWins {x : α} {l : List α} (h : x ∈ firstWins key ∅ l) : x ∈ l :=
  List.mem_of_find?_eq_some (mem_firstWins.mp h)

/-- Every key has a kept element. -/
theorem mem_map_firstWins {k : κ} {l : List α} :
    k ∈ (firstWins key ∅ l).map key ↔ k ∈ l.map key := by
  simp only [List.mem_map]
  constructor
  · rintro ⟨x, hx, rfl⟩
    exact ⟨x, mem_of_mem_firstWins hx, rfl⟩
  · rintro ⟨x, hx, rfl⟩
    cases hfind : l.find? (fun y => key y = key x) with
    | none => simpa using List.find?_eq_none.mp hfind x hx
    | some y =>
        have hy : key y = key x := by simpa using List.find?_some hfind
        exact ⟨y, mem_firstWins.mpr (by rw [hy, hfind]), hy⟩

theorem nodup_map_firstWins (l : List α) : ((firstWins key ∅ l).map key).Nodup := by
  rw [List.nodup_iff_count_le_one]
  intro k
  have hcount : ((firstWins key ∅ l).map key).count k =
      ((firstWins key ∅ l).filter (fun x => key x = k)).length := by
    rw [List.count, List.countP_map, List.countP_eq_length_filter]
    rfl
  rw [hcount, filter_firstWins (Finset.notMem_empty k)]
  cases l.find? (fun x => key x = k) <;> simp

/-- An element that no element before shares its key with is kept. -/
theorem mem_firstWins_of_first {before after : List α} {x : α}
    (h : key x ∉ before.map key) : x ∈ firstWins key ∅ (before ++ x :: after) := by
  have hnone : before.find? (fun y => key y = key x) = none := by
    rw [List.find?_eq_none]
    intro y hy
    have hne : key y ≠ key x := fun heq => h (heq ▸ List.mem_map_of_mem hy)
    simpa using hne
  rw [mem_firstWins, List.find?_append, hnone]
  simp

end FirstWins
