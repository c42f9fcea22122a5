import TrivialInit.Mixins.ChildContext

/-!
# Numbers — decimal text

What `std::stoul` and `std::from_chars` make of a text of digits: its value, or a failure when the
type is too small for it.
-/

namespace TrivialInit

/-- The number a text of digits denotes. -/
def decimalValue (digits : List Char) : Nat :=
  digits.foldl (fun n c => 10 * n + (c.toNat - '0'.toNat)) 0

/-- A text of decimal digits, at least one. -/
def IsDecimal (digits : List Char) : Prop :=
  digits ≠ [] ∧ ∀ c ∈ digits, isDigit c = true

instance (digits : List Char) : Decidable (IsDecimal digits) :=
  decidable_of_iff (digits ≠ [] ∧ digits.all isDigit = true) (and_congr_right' List.all_eq_true)

theorem isSpace_of_isDigit {c : Char} (h : isDigit c = true) : isSpace c = false := by
  rw [isDigit, decide_eq_true_iff] at h
  by_contra hspace
  simp only [isSpace, Bool.not_eq_false, Bool.or_eq_true, decide_eq_true_eq] at hspace
  rcases hspace with ((((rfl | rfl) | rfl) | rfl) | rfl) | rfl <;> exact absurd h (by decide)

theorem takeWhile_digits {digits : List Char} (h : ∀ c ∈ digits, isDigit c = true) :
    digits.takeWhile isDigit = digits :=
  List.takeWhile_eq_self_iff.mpr h

/-- `std::stoul` on digits fails beyond `ULONG_MAX` only. -/
theorem stoul_of_isDecimal {text : String} (h : IsDecimal text.toList) :
    stoul text =
      if ulongMax < decimalValue text.toList then none else some (decimalValue text.toList) := by
  obtain ⟨hne, hdigits⟩ := h
  have htake := takeWhile_digits hdigits
  unfold stoul
  cases hchars : text.toList with
  | nil => exact absurd hchars hne
  | cons c rest =>
      rw [hchars] at hdigits htake
      have hc := hdigits c List.mem_cons_self
      -- The first character is neither white space nor a sign.
      have hdrop : (c :: rest).dropWhile isSpace = c :: rest := by
        rw [List.dropWhile_cons_of_neg]
        simp [isSpace_of_isDigit hc]
      have hminus : c ≠ '-' := by
        rintro rfl
        exact absurd hc (by decide)
      have hplus : c ≠ '+' := by
        rintro rfl
        exact absurd hc (by decide)
      rw [hdrop]
      dsimp only
      split
      · next heq => exact absurd (List.cons.inj heq).1 hminus
      · next heq => exact absurd (List.cons.inj heq).1 hplus
      · simp [htake, decimalValue]

/-- The digits of the model of `from_chars` are those of `isDigit`, and its sum is their value. -/
theorem foldl_int_decimalValue (digits : List Char) :
    digits.foldl (fun (n : Int) c => 10 * n + ((c.toNat - '0'.toNat : Nat) : Int)) 0 =
      (decimalValue digits : Int) := by
  have hcast : ∀ (l : List Char) (n : Nat),
      l.foldl (fun (n : Int) c => 10 * n + ((c.toNat - '0'.toNat : Nat) : Int)) (n : Int) =
        ((l.foldl (fun n c => 10 * n + (c.toNat - '0'.toNat)) n : Nat) : Int) := by
    intro l
    induction l with
    | nil => exact fun n => rfl
    | cons c l ih =>
        intro n
        rw [List.foldl_cons, List.foldl_cons, ← ih]
        congr 1
  exact hcast digits 0

/-- `std::from_chars` for `int` on digits; beyond `INT_MAX` it leaves the variable alone. -/
theorem fromCharsInt_of_isDecimal {text : String} (h : IsDecimal text.toList) (v : Int) :
    fromCharsInt text v =
      if decimalValue text.toList ≤ 2147483647 then (decimalValue text.toList : Int) else v := by
  obtain ⟨hne, hdigits⟩ := h
  have htake : text.toList.takeWhile (fun c => decide ('0' ≤ c ∧ c ≤ '9')) = text.toList :=
    takeWhile_digits hdigits
  unfold fromCharsInt fromChars
  cases hchars : text.toList with
  | nil => exact absurd hchars hne
  | cons c rest =>
      rw [hchars] at hdigits htake
      have hminus : c ≠ '-' := by
        rintro rfl
        exact absurd (hdigits '-' List.mem_cons_self) (by decide)
      dsimp only
      split
      · next heq => exact absurd (List.cons.inj heq).1 hminus
      · simp only [htake, foldl_int_decimalValue, List.cons_ne_nil, false_or, one_mul]
        split_ifs with hrange hle hle
        · omega
        · rfl
        · rfl
        · omega

end TrivialInit
