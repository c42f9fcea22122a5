import Mathlib.Data.List.DropRight
import Mathlib.Data.List.Basic

/-!
# Words — maximal runs between separators

`words sep l` are the maximal runs of elements of `l` that are not separators, in order.  The
operation turns a separator between two lists into `++`, so it can be computed piece by piece; and
it agrees with a scanner that skips separators, takes a run, and goes on behind it.
-/

namespace Words

variable {α : Type*} {sep : α → Bool}

/-- The maximal runs of `l` without separators. -/
def words (sep : α → Bool) (l : List α) : List (List α) :=
  (l.splitOnP sep).filter (fun w => !w.isEmpty)

/-! ## Splitting at a separator -/

@[simp] theorem words_nil : words sep ([] : List α) = [] := rfl

theorem words_append_cons (l r : List α) {c : α} (hc : sep c = true) :
    words sep (l ++ c :: r) = words sep l ++ words sep r := by
  unfold words
  rw [List.splitOnP_append_cons l r hc, List.filter_append]

theorem words_cons_of_sep {c : α} (hc : sep c = true) (l : List α) :
    words sep (c :: l) = words sep l := by
  simpa using words_append_cons [] l hc

theorem words_dropWhile (l : List α) : words sep (l.dropWhile sep) = words sep l := by
  induction l with
  | nil => rfl
  | cons c l ih =>
      by_cases hc : sep c = true
      · rw [List.dropWhile_cons_of_pos hc, ih, words_cons_of_sep hc]
      · rw [List.dropWhile_cons_of_neg hc]

/-! ## One run -/

theorem words_of_run {l : List α} (hne : l ≠ []) (hl : ∀ c ∈ l, sep c = false) :
    words sep l = [l] := by
  unfold words
  rw [List.splitOnP_eq_singleton hl]
  simp [hne]

/-- A list that does not start with a separator starts with a word. -/
theorem words_eq_takeWhile_cons {c : α} {l : List α} (hc : sep c = false) :
    words sep (c :: l) =
      (c :: l).takeWhile (fun d => !sep d) :: words sep ((c :: l).dropWhile (fun d => !sep d)) := by
  have hrun : ∀ d ∈ (c :: l).takeWhile (fun d => !sep d), sep d = false := by
    intro d hd
    simpa using List.mem_takeWhile_imp hd
  have hne : (c :: l).takeWhile (fun d => !sep d) ≠ [] := by
    simp [hc]
  have hsplit := List.takeWhile_append_dropWhile (p := fun d => !sep d) (l := c :: l)
  -- What follows the run is empty or starts with a separator.
  cases hrest : (c :: l).dropWhile (fun d => !sep d) with
  | nil =>
      rw [hrest, List.append_nil] at hsplit
      rw [words_nil, ← words_of_run hne hrun, hsplit]
  | cons d rest =>
      have hd : sep d = true := by
        have := List.head?_dropWhile_not (fun d => !sep d) (c :: l)
        simpa [hrest] using this
      rw [hrest] at hsplit
      calc words sep (c :: l)
          = words sep ((c :: l).takeWhile (fun d => !sep d) ++ d :: rest) := by rw [hsplit]
        _ = words sep ((c :: l).takeWhile (fun d => !sep d)) ++ words sep rest :=
            words_append_cons _ _ hd
        _ = (c :: l).takeWhile (fun d => !sep d) :: words sep (d :: rest) := by
            rw [words_of_run hne hrun, words_cons_of_sep hd, List.singleton_append]

/-! ## Replacing separators -/

/-- Mapping separators to separators, and everything else to itself, keeps the words. -/
theorem words_map {sep' : α → Bool} {f : α → α} (hsep : ∀ c, sep' c = true → sep (f c) = true)
    (hother : ∀ c, sep' c = false → f c = c ∧ sep c = false) (l : List α) :
    words sep (l.map f) = words sep' l := by
  unfold words
  congr 1
  induction l with
  | nil => rfl
  | cons c l ih =>
      rw [List.map_cons, List.splitOnP_cons_eq_if_modifyHead, List.splitOnP_cons_eq_if_modifyHead,
        ih]
      cases hc : sep' c with
      | true => simp [hsep c hc]
      | false => simp [(hother c hc).1, (hother c hc).2]

end Words
