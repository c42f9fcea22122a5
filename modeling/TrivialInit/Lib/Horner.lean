import Mathlib.Data.Nat.Digits.Defs
import Mathlib.Tactic.Ring

/-!
# Horner — reading digits into a bounded number

Digits are read from the most significant one on, by `v * b + d`.  `value b v digits` is the number
that is written by the digits behind a number `v` that has been read already.  `read` stops when a
step goes beyond the limit.  Since a number only grows while digits are read, it stops exactly when
the number that is written is beyond the limit (`read_eq`).
-/

namespace Horner

variable {b limit : Nat}

/-! ## The number that is written -/

/-- The number written by `digits` behind `v`. -/
def value (b v : Nat) (digits : List Nat) : Nat :=
  v * b ^ digits.length + Nat.ofDigits b digits.reverse

@[simp] theorem value_nil (v : Nat) : value b v [] = v := by
  simp [value]

theorem value_cons (v d : Nat) (digits : List Nat) :
    value b v (d :: digits) = value b (v * b + d) digits := by
  unfold value
  rw [Nat.ofDigits_reverse_cons, List.length_cons]
  ring

theorem value_zero (digits : List Nat) : value b 0 digits = Nat.ofDigits b digits.reverse := by
  rw [value, Nat.zero_mul, Nat.zero_add]

theorem le_value (hb : 0 < b) (v : Nat) (digits : List Nat) : v ≤ value b v digits := by
  calc
    v ≤ v * b ^ digits.length := Nat.le_mul_of_pos_right v (Nat.pow_pos hb)
    _ ≤ value b v digits := Nat.le_add_right _ _

/-! ## Reading -/

/-- Read one digit; `none` is a number beyond the limit. -/
def step (b limit v d : Nat) : Option Nat :=
  if v * b + d ≤ limit then some (v * b + d) else none

theorem le_of_step {v d w : Nat} (h : step b limit v d = some w) : w ≤ limit := by
  unfold step at h
  split_ifs at h with hle
  exact Option.some.inj h ▸ hle

/-- Read all digits. -/
def read (b limit : Nat) : List Nat → Nat → Option Nat
  | [], v => some v
  | d :: digits, v => (step b limit v d).bind (read b limit digits)

theorem read_eq (hb : 0 < b) (digits : List Nat) {v : Nat} (hv : v ≤ limit) :
    read b limit digits v =
      if value b v digits ≤ limit then some (value b v digits) else none := by
  induction digits generalizing v with
  | nil => rw [read, value_nil, if_pos hv]
  | cons d digits ih =>
      rw [read, step, value_cons]
      by_cases hstep : v * b + d ≤ limit
      · rw [if_pos hstep]
        exact ih hstep
      · have hbeyond : ¬ value b (v * b + d) digits ≤ limit := by
          intro h
          exact hstep (Nat.le_trans (le_value hb _ digits) h)
        rw [if_neg hstep, if_neg hbeyond]
        rfl

end Horner
