import Mathlib.Data.List.Basic

/-!
# Viewport — a window of fixed height over a list

A list is longer than the window it is shown in.  This module defines

* `follow`: the first line shown, moved as little as it takes to show the cursor;
* `lines` : a loop that skips the lines above the window and stops at its bottom;
* `pick`  : the elements with given consecutive indices, `none` when one is out of range;
* `tail`  : what a window at the end of a list shows when it is scrolled back;

and says which elements are shown, and where.
-/

namespace Viewport

variable {β : Type*}

/-! ## Following a cursor -/

/-- The first line of a window of `height` lines that is to show the line `cursor`. -/
def follow (first cursor height : Int) : Int :=
  let first := if cursor < first then cursor else first
  if first + height ≤ cursor then cursor - height + 1 else first

theorem follow_le (first cursor : Int) {height : Int} (hheight : 0 < height) :
    follow first cursor height ≤ cursor := by
  unfold follow
  dsimp only
  split_ifs <;> omega

theorem lt_follow_add (first cursor height : Int) :
    cursor < follow first cursor height + height := by
  unfold follow
  dsimp only
  split_ifs <;> omega

theorem follow_nonneg (height : Int) {first cursor : Int} (hfirst : 0 ≤ first)
    (hcursor : 0 ≤ cursor) : 0 ≤ follow first cursor height := by
  unfold follow
  dsimp only
  split_ifs <;> omega

/-! ## The lines of a window -/

/-- Go through a list, from the element number `row` on, and put the elements from number `first`
on below each other, from line `y` on and above the line `bottom`. -/
def lines (first bottom : Int) : List β → Int → Int → List (Int × Int × β)
  | [], _, _ => []
  | b :: bs, row, y =>
      if row < first then lines first bottom bs (row + 1) y
      else if bottom ≤ y then []
      else (row, y, b) :: lines first bottom bs (row + 1) (y + 1)

/-- In the window, every line holds the next element. -/
theorem getElem?_lines_of_le {first bottom : Int} {row : Int} (hrow : first ≤ row) (y : Int)
    (bs : List β) (i : Nat) :
    (lines first bottom bs row y)[i]? =
      if y + i < bottom then bs[i]?.map (fun b => (row + i, y + i, b)) else none := by
  -- From the first line on no element is skipped, so `row` and `y` grow together.
  induction bs generalizing row y i with
  | nil => simp [lines]
  | cons b bs ih =>
      unfold lines
      rw [if_neg (Int.not_lt.mpr hrow)]
      by_cases hy : bottom ≤ y
      · have hout : ¬ y + i < bottom := by omega
        rw [if_pos hy, if_neg hout, List.getElem?_nil]
      · rw [if_neg hy]
        cases i with
        | zero =>
            have hin : y + ((0 : Nat) : Int) < bottom := by omega
            rw [if_pos hin]
            simp
        | succ i =>
            rw [List.getElem?_cons_succ, List.getElem?_cons_succ,
              ih (show first ≤ row + 1 by omega) (y + 1) i]
            have hrow' : row + 1 + (i : Int) = row + ((i + 1 : Nat) : Int) := by omega
            have hy' : y + 1 + (i : Int) = y + ((i + 1 : Nat) : Int) := by omega
            rw [hrow', hy']

/-- The `i`-th line of the window shows the element number `first + i`. -/
theorem getElem?_lines {first bottom : Int} {row : Int} (hrow : row ≤ first) (y : Int)
    (bs : List β) (i : Nat) :
    (lines first bottom bs row y)[i]? =
      if y + i < bottom then
        bs[(first - row).toNat + i]?.map (fun b => (first + i, y + i, b))
      else none := by
  -- Elements above the window are skipped until `row` is `first`.
  induction bs generalizing row with
  | nil => simp [lines]
  | cons b bs ih =>
      by_cases hlt : row < first
      · have hskip : (first - row).toNat + i = (first - (row + 1)).toNat + i + 1 := by omega
        rw [lines, if_pos hlt, ih (show row + 1 ≤ first by omega), hskip, List.getElem?_cons_succ]
      · have heq : row = first := by omega
        have hnone : (first - row).toNat + i = i := by omega
        rw [getElem?_lines_of_le (by omega), hnone, heq]

/-- The window shows consecutive elements, one below the other. -/
theorem map_lines {γ : Type*} (f : Int × Int × β → γ) {first bottom : Int} {row : Int}
    (hrow : row ≤ first) (y : Int) (bs : List β) :
    (lines first bottom bs row y).map f =
      ((bs.drop (first - row).toNat).take (bottom - y).toNat).mapIdx
        (fun i b => f (first + i, y + i, b)) := by
  apply List.ext_getElem?
  intro i
  rw [List.getElem?_map, getElem?_lines hrow, List.getElem?_mapIdx, List.getElem?_take,
    List.getElem?_drop]
  by_cases hy : y + i < bottom
  · have hi : i < (bottom - y).toNat := by omega
    rw [if_pos hy, if_pos hi, Option.map_map]
    rfl
  · have hi : ¬ i < (bottom - y).toNat := by omega
    rw [if_neg hy, if_neg hi, Option.map_none, Option.map_none]

/-! ## Consecutive indices -/

/-- The elements with the indices from `start` to below `stop`. -/
def pick (l : List β) (start stop : Int) : Option (List β) :=
  (List.range (stop - start).toNat).mapM (fun k => l[start.toNat + k]?)

theorem mapM_getElem?_range {l : List β} {start n : Nat} (h : start + n ≤ l.length) :
    (List.range n).mapM (fun k => l[start + k]?) = some ((l.drop start).take n) := by
  induction n with
  | zero => simp
  | succ n ih =>
      have hlt : start + n < l.length := by omega
      have hlast : ((l.drop start)[n]?).toList = [l[start + n]] := by
        rw [List.getElem?_drop, List.getElem?_eq_getElem hlt, Option.toList_some]
      rw [List.range_succ, List.mapM_append, ih (by omega), List.take_add_one, hlast]
      simp [List.getElem?_eq_getElem hlt]

/-- Indices in range pick a section of the list. -/
theorem pick_eq_some {l : List β} {start stop : Int} (hstart : 0 ≤ start)
    (hstop : stop ≤ l.length) :
    pick l start stop = some ((l.drop start.toNat).take (stop - start).toNat) := by
  unfold pick
  by_cases hle : stop ≤ start
  · have hzero : (stop - start).toNat = 0 := by omega
    simp [hzero]
  · exact mapM_getElem?_range (by omega)

/-! ## The end of a list -/

/-- The first index shown by a window of `rows` lines at the end of `total` elements, `back` lines
back. -/
def tailStart (total rows back : Int) : Int :=
  max 0 (total - rows - back)

/-- The elements shown by a window of `rows` lines at the end of a list, `back` lines back. -/
def tail (l : List β) (rows back : Int) : List β :=
  (l.drop (tailStart l.length rows back).toNat).take rows.toNat

/-- The window is full, or it shows everything. -/
theorem length_tail (l : List β) {rows back : Int} (hback : 0 ≤ back) :
    ((tail l rows back).length : Int) = max 0 (min rows l.length) := by
  unfold tail tailStart
  rw [List.length_take, List.length_drop]
  omega

/-- The window shows a section of the list; as many elements as the window is scrolled back come
behind it, if there are enough. -/
theorem tail_split (l : List β) (rows : Int) {back : Int} (hback : 0 ≤ back) :
    ∃ older newer, l = older ++ tail l rows back ++ newer ∧
      (0 < rows → (newer.length : Int) = min back (max 0 (l.length - rows))) := by
  refine ⟨l.take (tailStart l.length rows back).toNat,
    (l.drop (tailStart l.length rows back).toNat).drop rows.toNat, ?_, ?_⟩
  · rw [tail, List.append_assoc, List.take_append_drop, List.take_append_drop]
  · intro hrows
    rw [List.length_drop, List.length_drop]
    unfold tailStart
    omega

/-- The window never reaches beyond the list. -/
theorem pick_tail (l : List β) (rows back : Int) :
    pick l (tailStart l.length rows back)
      (min l.length (tailStart l.length rows back + rows)) = some (tail l rows back) := by
  have hstart : 0 ≤ tailStart l.length rows back := Int.le_max_left _ _
  rw [pick_eq_some hstart (Int.min_le_left _ _)]
  congr 1
  unfold tail
  apply List.take_eq_take_iff.mpr
  rw [List.length_drop]
  unfold tailStart
  omega

end Viewport
