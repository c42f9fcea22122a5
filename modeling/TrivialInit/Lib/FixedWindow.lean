import Mathlib.Algebra.Order.Group.Defs
import Mathlib.Algebra.Order.Sub.Basic
import Mathlib.Algebra.Group.Basic
import Mathlib.Data.List.Basic

/-!
# FixedWindow — a rate limiter with one counting window

The limiter remembers when its current window was opened and how many requests it has counted in it.
A request that comes later than `interval` after the opening opens a new window; the request is then
counted, and allowed while the count does not exceed `limit`.

Times come from any linearly ordered additive group.  The bounds are those of a fixed window: at most
`limit` allowed requests per window, and at most twice as many in any closed interval of the length of
the window, because such an interval meets at most two windows.
-/

namespace FixedWindow

variable {T : Type*}

/-! ## The limiter -/

structure Window (T : Type*) where
  start : T
  count : Int
  deriving DecidableEq, Repr

/-- What the limiter did with one request. -/
structure Hit (T : Type*) where
  time : T
  reset : Bool
  allowed : Bool
  deriving DecidableEq, Repr

/-- How many more requests the window allows. -/
def remaining (limit : Int) (w : Window T) : Int :=
  max (limit - w.count) 0

theorem remaining_nonneg {limit : Int} (w : Window T) : 0 ≤ remaining limit w :=
  le_max_right _ _

theorem remaining_le_limit {limit : Int} {w : Window T} (hlimit : 0 ≤ limit) (hw : 0 ≤ w.count) :
    remaining limit w ≤ limit := by
  unfold remaining
  omega

variable [AddCommGroup T] [LinearOrder T]

namespace Window

def expired (interval : T) (w : Window T) (now : T) : Bool :=
  decide (now - w.start > interval)

/-- The window after a request has been counted. -/
def hit (interval : T) (w : Window T) (now : T) : Window T :=
  if w.expired interval now then { start := now, count := 1 }
  else { w with count := w.count + 1 }

/-- The record of a request. -/
def record (interval : T) (limit : Int) (w : Window T) (now : T) : Hit T :=
  { time := now
    reset := w.expired interval now
    allowed := decide ((w.hit interval now).count ≤ limit) }

end Window

/-- The window after all requests of a list. -/
def after (interval : T) (w : Window T) (times : List T) : Window T :=
  times.foldl (fun w now => w.hit interval now) w

/-- The records of all requests of a list. -/
def hits (interval : T) (limit : Int) : Window T → List T → List (Hit T)
  | _, [] => []
  | w, now :: times => w.record interval limit now :: hits interval limit (w.hit interval now) times

variable {interval : T} {limit : Int}

@[simp] theorem hits_nil (w : Window T) : hits interval limit w [] = [] := rfl

theorem after_append_singleton (w : Window T) (times : List T) (now : T) :
    after interval w (times ++ [now]) = (after interval w times).hit interval now := by
  simp [after]

theorem hits_append_singleton (w : Window T) (times : List T) (now : T) :
    hits interval limit w (times ++ [now]) =
      hits interval limit w times ++ [(after interval w times).record interval limit now] := by
  induction times generalizing w with
  | nil =>
      rfl
  | cons t times ih =>
      rw [List.cons_append, hits, ih]
      rfl

theorem count_hit_nonneg (interval : T) {w : Window T} (hw : 0 ≤ w.count) (now : T) :
    0 ≤ (w.hit interval now).count := by
  unfold Window.hit
  split_ifs
  · exact Int.one_nonneg
  · exact Int.add_nonneg hw Int.one_nonneg

/-! ## One window -/

/-- A request that does not open a window uses up one of the remaining ones. -/
theorem remaining_hit_of_not_expired (limit : Int) {w : Window T} {now : T}
    (hopen : w.expired interval now = false) :
    remaining limit (w.hit interval now) +
        (if (w.record interval limit now).allowed = true then 1 else 0) =
      remaining limit w := by
  have hcount : (w.hit interval now).count = w.count + 1 := by
    simp [Window.hit, hopen]
  simp only [remaining, Window.record, hcount, decide_eq_true_eq]
  split_ifs <;> omega

/-- A request that opens a window leaves at most `limit` for the window together with itself. -/
theorem remaining_hit_of_expired {w : Window T} {now : T} (hlimit : 0 ≤ limit)
    (hnew : w.expired interval now = true) :
    remaining limit (w.hit interval now) +
        (if (w.record interval limit now).allowed = true then 1 else 0) =
      limit := by
  have hcount : (w.hit interval now).count = 1 := by
    simp [Window.hit, hnew]
  simp only [remaining, Window.record, hcount, decide_eq_true_eq]
  split_ifs <;> omega

/-- While no window is opened, no more requests are allowed than remain in the current one. -/
theorem countP_allowed_le_remaining {w : Window T} {times : List T} {seg rest : List (Hit T)}
    (hsplit : hits interval limit w times = seg ++ rest)
    (hseg : ∀ h ∈ seg, h.reset = false) :
    (seg.countP (fun h => h.allowed) : Int) ≤ remaining limit w := by
  induction times generalizing w seg with
  | nil =>
      have hnil : seg = [] := (List.append_eq_nil_iff.mp hsplit.symm).1
      simpa [hnil] using remaining_nonneg w
  | cons now times ih =>
      cases seg with
      | nil =>
          simpa using remaining_nonneg w
      | cons h seg =>
          rcases List.cons_eq_cons.mp hsplit with ⟨rfl, htail⟩
          have hopen : w.expired interval now = false :=
            hseg (w.record interval limit now) (by simp)
          have hrest := ih htail (fun h' hh' => hseg h' (List.mem_cons_of_mem _ hh'))
          have hone := remaining_hit_of_not_expired limit hopen
          rw [List.countP_cons]
          push_cast
          split_ifs at hone ⊢ <;> omega

/-- At most `limit` requests are allowed from one opening of a window to the next. -/
theorem countP_allowed_le_limit (hlimit : 0 ≤ limit) {w : Window T} (hw : 0 ≤ w.count)
    {times : List T} {pre seg rest : List (Hit T)}
    (hsplit : hits interval limit w times = pre ++ (seg ++ rest))
    (hseg : ∀ h ∈ seg.tail, h.reset = false) :
    (seg.countP (fun h => h.allowed) : Int) ≤ limit := by
  induction pre generalizing w times with
  | nil =>
      rw [List.nil_append] at hsplit
      cases seg with
      | nil =>
          simpa using hlimit
      | cons h seg =>
          cases times with
          | nil =>
              cases hsplit
          | cons now times =>
              rcases List.cons_eq_cons.mp hsplit with ⟨rfl, htail⟩
              -- Only the first request of the segment may open a window.
              have hrest := countP_allowed_le_remaining htail hseg
              have hle := remaining_le_limit hlimit hw
              rw [List.countP_cons]
              push_cast
              cases hexp : w.expired interval now with
              | false =>
                  have hone := remaining_hit_of_not_expired limit hexp
                  split_ifs at hone ⊢ <;> omega
              | true =>
                  have hone := remaining_hit_of_expired hlimit hexp
                  split_ifs at hone ⊢ <;> omega
  | cons h pre ih =>
      cases times with
      | nil =>
          cases hsplit
      | cons now times =>
          rcases List.cons_eq_cons.mp hsplit with ⟨-, htail⟩
          exact ih (count_hit_nonneg interval hw now) htail

/-! ## Closed intervals of the length of a window -/

/-- Allowed requests with a time in the closed interval from `a` to `a + interval`. -/
def allowedWithin (interval a : T) (hs : List (Hit T)) : Int :=
  hs.countP (fun h => h.allowed && decide (a ≤ h.time ∧ h.time ≤ a + interval))

theorem allowedWithin_cons (a : T) (h : Hit T) (hs : List (Hit T)) :
    allowedWithin interval a (h :: hs) = allowedWithin interval a hs +
      if h.allowed = true ∧ a ≤ h.time ∧ h.time ≤ a + interval then 1 else 0 := by
  unfold allowedWithin
  rw [List.countP_cons]
  by_cases hin : h.allowed = true ∧ a ≤ h.time ∧ h.time ≤ a + interval
  · simp [hin]
  · simp [hin]

theorem allowedWithin_cons_le (interval a : T) (h : Hit T) (hs : List (Hit T)) :
    allowedWithin interval a (h :: hs) ≤
      allowedWithin interval a hs + if h.allowed = true then 1 else 0 := by
  rw [allowedWithin_cons]
  by_cases hallowed : h.allowed = true
  · simp only [hallowed, true_and, if_true]
    split_ifs <;> omega
  · simp [hallowed]

/-- Nothing is counted once the times have passed the interval. -/
theorem allowedWithin_eq_zero {w : Window T} {times : List T} {a : T}
    (hlate : ∀ t ∈ times, a + interval < t) :
    allowedWithin interval a (hits interval limit w times) = 0 := by
  induction times generalizing w with
  | nil =>
      rfl
  | cons now times ih =>
      have hnow : ¬ now ≤ a + interval := not_le.mpr (hlate now (by simp))
      have hrest := ih (w := w.hit interval now)
        (fun t ht => hlate t (List.mem_cons_of_mem now ht))
      rw [hits, allowedWithin_cons, hrest]
      simp [Window.record, hnow]

variable [IsOrderedAddMonoid T]

/-- A window that was opened inside the interval does not expire inside it. -/
theorem allowedWithin_le_remaining {w : Window T} {times : List T} {a : T}
    (hsorted : times.Pairwise (fun s t => s ≤ t)) (hstart : a ≤ w.start) :
    allowedWithin interval a (hits interval limit w times) ≤ remaining limit w := by
  induction times generalizing w with
  | nil =>
      exact remaining_nonneg w
  | cons now times ih =>
      rcases List.pairwise_cons.mp hsorted with ⟨hfirst, hrest⟩
      -- A request inside the interval falls in the same window; one after it is not counted.
      by_cases hin : now ≤ a + interval
      · have hopen : w.expired interval now = false := by
          have hle : now - w.start ≤ interval := by
            -- The window was opened at or after `a`, and the request comes before `a + interval`.
            calc
              now - w.start ≤ a + interval - w.start := sub_le_sub_right hin _
              _ ≤ a + interval - a := sub_le_sub_left hstart _
              _ = interval := add_sub_cancel_left a interval
          simp [Window.expired, hle]
        have hstart' : a ≤ (w.hit interval now).start := by
          simpa [Window.hit, hopen] using hstart
        have htail := ih hrest hstart'
        have hone := remaining_hit_of_not_expired limit hopen
        have hle := allowedWithin_cons_le interval a (w.record interval limit now)
          (hits interval limit (w.hit interval now) times)
        rw [hits]
        omega
      · have hlate : ∀ t ∈ now :: times, a + interval < t := by
          intro t ht
          rcases List.mem_cons.mp ht with rfl | ht
          · exact not_le.mp hin
          · exact lt_of_lt_of_le (not_le.mp hin) (hfirst t ht)
        rw [allowedWithin_eq_zero hlate]
        exact remaining_nonneg w

/-- Inside the interval a window is opened at most once. -/
theorem allowedWithin_le_remaining_add_limit (hlimit : 0 ≤ limit) {w : Window T} {times : List T}
    {a : T} (hsorted : times.Pairwise (fun s t => s ≤ t)) (hfrom : ∀ t ∈ times, a ≤ t) :
    allowedWithin interval a (hits interval limit w times) ≤ remaining limit w + limit := by
  induction times generalizing w with
  | nil =>
      exact Int.add_nonneg (remaining_nonneg w) hlimit
  | cons now times ih =>
      rcases List.pairwise_cons.mp hsorted with ⟨hfirst, hrest⟩
      have hle := allowedWithin_cons_le interval a (w.record interval limit now)
        (hits interval limit (w.hit interval now) times)
      rw [hits]
      cases hexp : w.expired interval now with
      | false =>
          have htail := ih (w := w.hit interval now) hrest
            (fun t ht => hfrom t (List.mem_cons_of_mem now ht))
          have hone := remaining_hit_of_not_expired limit hexp
          omega
      | true =>
          -- This request opens the one window that the interval can contain the opening of.
          have hstart : a ≤ (w.hit interval now).start := by
            simpa [Window.hit, hexp] using hfrom now (by simp)
          have htail : allowedWithin interval a (hits interval limit (w.hit interval now) times) ≤
              remaining limit (w.hit interval now) :=
            allowedWithin_le_remaining hrest hstart
          have hone := remaining_hit_of_expired hlimit hexp
          have hnonneg : 0 ≤ remaining limit w := remaining_nonneg w
          omega

/-- At most `2 * limit` requests are allowed in a closed interval of the length of a window. -/
theorem allowedWithin_le_two_mul (hlimit : 0 ≤ limit) {w : Window T} (hw : 0 ≤ w.count)
    {times : List T} (hsorted : times.Pairwise (fun s t => s ≤ t)) (a : T) :
    allowedWithin interval a (hits interval limit w times) ≤ 2 * limit := by
  induction times generalizing w with
  | nil =>
      simp only [hits_nil, allowedWithin, List.countP_nil]
      omega
  | cons now times ih =>
      rcases List.pairwise_cons.mp hsorted with ⟨hfirst, hrest⟩
      -- Requests before `a` are not counted; from the first one at or after `a` on, all are.
      by_cases hfrom : a ≤ now
      · have hall : ∀ t ∈ now :: times, a ≤ t := by
          intro t ht
          rcases List.mem_cons.mp ht with rfl | ht
          · exact hfrom
          · exact le_trans hfrom (hfirst t ht)
        have hbound : allowedWithin interval a (hits interval limit w (now :: times)) ≤
            remaining limit w + limit :=
          allowedWithin_le_remaining_add_limit hlimit hsorted hall
        have hle := remaining_le_limit hlimit hw
        omega
      · have htail := ih (count_hit_nonneg interval hw now) hrest
        rw [hits, allowedWithin_cons]
        simpa [Window.record, hfrom] using htail

end FixedWindow
