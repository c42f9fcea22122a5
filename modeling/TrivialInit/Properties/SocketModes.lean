import TrivialInit.Lib.Horner
import TrivialInit.Mixins.SocketBind

/-!
# SocketModes — octal modes

`parse_octal` reads a mode digit by digit into an `int`.  It returns the mode that is written as long
as the leading digits fit an `int`, with one exception: a text of zeros is taken for a text without
a mode, and gives the default.
-/

namespace TrivialInit

/-! ## Octal text -/

def isOctalDigit (c : Char) : Bool :=
  decide ('0' ≤ c ∧ c ≤ '7')

/-- The number octal digits denote. -/
def octalValue (digits : List Char) : Nat :=
  Nat.ofDigits 8 (digits.reverse.map (fun c => c.toNat - '0'.toNat))

/-- The digits in front of the first other character. -/
def octalPrefix (l : List Char) : List Char :=
  l.takeWhile isOctalDigit

/-- Octal digits, at least one. -/
def isOctal (sv : String) : Bool :=
  sv ≠ "" && sv.toList.all isOctalDigit

/-- The mode a text asks for: its value if it is octal and fits an `int`, else the default. -/
def writtenMode (sv : String) (otherwise : Int) : Int :=
  if isOctal sv = true ∧ octalValue sv.toList ≤ 2147483647 then octalValue sv.toList else otherwise

/-! ## The loop -/

theorem not_octal_iff (c : Char) : (c < '0' ∨ '7' < c) ↔ isOctalDigit c = false := by
  rw [isOctalDigit, decide_eq_false_iff_not, not_and_or, Char.not_le, Char.not_le]

theorem octalDigit_le {c : Char} (h : isOctalDigit c = true) : c.toNat - '0'.toNat ≤ 7 := by
  rw [isOctalDigit, decide_eq_true_iff] at h
  have hle : c.toNat ≤ '7'.toNat := UInt32.le_iff_toNat_le.mp h.2
  exact Nat.sub_le_sub_right hle _

/-- Both operations of a step overflow together. -/
theorem checkedInt_step {v d : Nat} (hv : v ≤ 2147483647) (hd : d ≤ 7) :
    ((checkedInt ((v : Int) * 8)).bind (fun w => checkedInt (w + (d : Int)))) =
      (Horner.step 8 2147483647 v d).map Int.ofNat := by
  unfold Horner.step
  by_cases hstep : v * 8 + d ≤ 2147483647
  · have hmul : checkedInt ((v : Int) * 8) = some ((v : Int) * 8) := if_pos (by omega)
    have hadd : checkedInt ((v : Int) * 8 + d) = some ((v : Int) * 8 + d) := if_pos (by omega)
    rw [if_pos hstep, hmul, Option.bind_some, hadd]
    rfl
  · -- The largest `int` is 7 modulo 8, so no digit can make the difference.
    have hmul : checkedInt ((v : Int) * 8) = none := if_neg (by omega)
    rw [if_neg hstep, hmul]
    rfl

theorem parseOctalLoop_digit {c : Char} (h : isOctalDigit c = true) (l : List Char) {v : Nat}
    (hv : v ≤ 2147483647) (otherwise : Int) :
    parseOctalLoop otherwise (c :: l) v =
      (Horner.step 8 2147483647 v (c.toNat - '0'.toNat)).bind
        (fun v => parseOctalLoop otherwise l v) := by
  have hnot : ¬ (c < '0' ∨ '7' < c) := by
    rw [not_octal_iff, h]
    simp
  calc
    parseOctalLoop otherwise (c :: l) v
        = ((checkedInt ((v : Int) * 8)).bind
            (fun w => checkedInt (w + ((c.toNat - '0'.toNat : Nat) : Int)))).bind
            (parseOctalLoop otherwise l) := by
          rw [parseOctalLoop, if_neg hnot]
          cases checkedInt ((v : Int) * 8) with
          | none => rfl
          | some w =>
              simp only [Option.bind_some]
              cases checkedInt (w + ((c.toNat - '0'.toNat : Nat) : Int)) <;> rfl
    _ = ((Horner.step 8 2147483647 v (c.toNat - '0'.toNat)).map Int.ofNat).bind
          (parseOctalLoop otherwise l) := by rw [checkedInt_step hv (octalDigit_le h)]
    _ = (Horner.step 8 2147483647 v (c.toNat - '0'.toNat)).bind
          (fun v => parseOctalLoop otherwise l v) := by rw [Option.bind_map]; rfl

theorem parseOctalLoop_other {c : Char} (h : isOctalDigit c = false) (l : List Char) (v : Int)
    (otherwise : Int) : parseOctalLoop otherwise (c :: l) v = some otherwise := by
  rw [parseOctalLoop, if_pos ((not_octal_iff c).mpr h)]

/-- What the loop returns behind the digits. -/
def octalResult (l : List Char) (otherwise : Int) (v : Nat) : Int :=
  if l.all isOctalDigit = true ∧ v ≠ 0 then v else otherwise

/-- The loop reads the leading digits. -/
theorem parseOctalLoop_eq (l : List Char) {v : Nat} (hv : v ≤ 2147483647) (otherwise : Int) :
    parseOctalLoop otherwise l v =
      (Horner.read 8 2147483647 ((octalPrefix l).map (fun c => c.toNat - '0'.toNat)) v).map
        (octalResult l otherwise) := by
  induction l generalizing v with
  | nil =>
      rw [parseOctalLoop]
      simp [octalPrefix, Horner.read, octalResult]
  | cons c l ih =>
      cases hc : isOctalDigit c with
      | false =>
          rw [parseOctalLoop_other hc]
          simp [octalPrefix, Horner.read, octalResult, hc]
      | true =>
          have hread : (octalPrefix (c :: l)).map (fun c => c.toNat - '0'.toNat) =
              (c.toNat - '0'.toNat) :: (octalPrefix l).map (fun c => c.toNat - '0'.toNat) := by
            simp [octalPrefix, hc]
          have hresult : octalResult (c :: l) otherwise = octalResult l otherwise := by
            funext v
            simp [octalResult, hc]
          rw [parseOctalLoop_digit hc l hv, hread, hresult, Horner.read]
          cases hstep : Horner.step 8 2147483647 v (c.toNat - '0'.toNat) with
          | none => rfl
          | some w => exact ih (Horner.le_of_step hstep)

/-! ## The function -/

theorem octalValue_eq (l : List Char) :
    octalValue l = Horner.value 8 0 (l.map (fun c => c.toNat - '0'.toNat)) := by
  rw [Horner.value_zero, octalValue, List.map_reverse]

theorem foldl_octal (l : List Char) (v : Nat) :
    l.foldl (fun (v : Int) c => v * 8 + ((c.toNat - '0'.toNat : Nat) : Int)) (v : Int) =
      (Horner.value 8 v (l.map (fun c => c.toNat - '0'.toNat)) : Int) := by
  induction l generalizing v with
  | nil => simp
  | cons c l ih =>
      rw [List.foldl_cons, List.map_cons, Horner.value_cons, ← ih]
      congr 1

theorem parseOctal_eq (sv : String) (otherwise : Int) :
    parseOctal sv otherwise = octalResult sv.toList otherwise (octalValue sv.toList) := by
  have hvalue := foldl_octal sv.toList 0
  rw [← octalValue_eq, Nat.cast_zero] at hvalue
  have hunfold : parseOctal sv otherwise =
      if sv.toList.all isOctalDigit then
        if (octalValue sv.toList : Int) ≠ 0 then (octalValue sv.toList : Int) else otherwise
      else otherwise := by
    rw [← hvalue]
    rfl
  rw [hunfold, octalResult]
  by_cases hall : sv.toList.all isOctalDigit = true
  · simp [hall]
  · simp [hall]

theorem octalPrefix_eq_self {l : List Char} (h : l.all isOctalDigit = true) : octalPrefix l = l := by
  rw [octalPrefix, List.takeWhile_eq_self_iff]
  exact List.all_eq_true.mp h

/-- `parse_octal` overflows if the leading digits are beyond an `int`. -/
theorem parseOctal32_eq (sv : String) (otherwise : Int) :
    parseOctal32 sv otherwise =
      if octalValue (octalPrefix sv.toList) ≤ 2147483647 then some (parseOctal sv otherwise)
      else none := by
  have hresult : octalResult sv.toList otherwise (octalValue (octalPrefix sv.toList)) =
      parseOctal sv otherwise := by
    rw [parseOctal_eq]
    by_cases hall : sv.toList.all isOctalDigit = true
    · rw [octalPrefix_eq_self hall]
    · simp [octalResult, hall]
  have hloop := parseOctalLoop_eq sv.toList (Nat.zero_le 2147483647) otherwise
  rw [Horner.read_eq (by decide) _ (Nat.zero_le _), ← octalValue_eq] at hloop
  rw [← hresult]
  calc
    parseOctalLoop otherwise sv.toList 0
        = (if octalValue (octalPrefix sv.toList) ≤ 2147483647 then
            some (octalValue (octalPrefix sv.toList)) else none).map
            (octalResult sv.toList otherwise) := hloop
    _ = _ := by split_ifs <;> rfl

theorem isOctal_iff (sv : String) :
    isOctal sv = true ↔ sv ≠ "" ∧ sv.toList.all isOctalDigit = true := by
  simp only [isOctal, Bool.and_eq_true, decide_eq_true_eq]

/-- The text of zeros is the one text that is not read as written. -/
theorem parseOctal_eq_writtenMode_iff {sv : String}
    (hfit : octalValue (octalPrefix sv.toList) ≤ 2147483647) (otherwise : Int) :
    parseOctal sv otherwise = writtenMode sv otherwise ↔
      (isOctal sv = true → octalValue sv.toList = 0 → otherwise = 0) := by
  rw [parseOctal_eq]
  by_cases hoctal : isOctal sv = true
  · have hall := ((isOctal_iff sv).mp hoctal).2
    rw [octalPrefix_eq_self hall] at hfit
    have hwritten : writtenMode sv otherwise = octalValue sv.toList := if_pos ⟨hoctal, hfit⟩
    rw [hwritten, octalResult]
    by_cases hzero : octalValue sv.toList = 0
    · simp [hzero, hoctal]
    · simp [hall, hzero]
  · have hwritten : writtenMode sv otherwise = otherwise := if_neg (fun h => hoctal h.1)
    have hdefault : octalResult sv.toList otherwise (octalValue sv.toList) = otherwise := by
      rw [isOctal_iff, not_and_or, not_not] at hoctal
      rcases hoctal with rfl | hall
      · rfl
      · exact if_neg (fun h => hall h.1)
    rw [hwritten, hdefault]
    simp [hoctal]

/-- It returns the mode that is written as long as the leading digits fit an `int` and the mode is
not zero, unless zero is the default. -/
theorem parseOctal32_exact_iff (sv : String) (otherwise : Int) :
    parseOctal32 sv otherwise = some (writtenMode sv otherwise) ↔
      octalValue (octalPrefix sv.toList) ≤ 2147483647 ∧
        (isOctal sv = true → octalValue sv.toList = 0 → otherwise = 0) := by
  rw [parseOctal32_eq]
  by_cases hfit : octalValue (octalPrefix sv.toList) ≤ 2147483647
  · rw [if_pos hfit, Option.some.injEq, parseOctal_eq_writtenMode_iff hfit, and_iff_right hfit]
  · rw [if_neg hfit]
    simp [hfit]

/-- `SocketMode=0000` -/
theorem parseOctal32_opens_closed_mode :
    parseOctal32 "0000" 438 = some 438 ∧ writtenMode "0000" 438 = 0 := by
  decide

/-- Eleven digits; the rest of the text does not matter. -/
example : parseOctal32 "20000000000u" 438 = none := by decide

/-! ## Parsed socket units -/

theorem parseOctal_ne_zero {otherwise : Int} (h : otherwise ≠ 0) (sv : String) :
    parseOctal sv otherwise ≠ 0 := by
  rw [parseOctal_eq, octalResult]
  split_ifs with hvalue
  · exact Int.natCast_ne_zero.mpr hvalue.2
  · exact h

theorem readOption_ne {α : Type} {bad : α} (sec : UnorderedMap String String) (key : String)
    {convert : String → α} {old : α} (hconvert : ∀ v, convert v ≠ bad) (hold : old ≠ bad) :
    readOption sec key convert old ≠ bad := by
  unfold readOption
  dsimp only
  split_ifs
  · exact hold
  · exact hconvert _

/-- No socket unit comes out with a closed mode, whatever it says. -/
theorem parseSocketUnit_modes (unit : UnitFile) :
    (parseSocketUnit unit).socketMode ≠ 0 ∧ (parseSocketUnit unit).directoryMode ≠ 0 := by
  have hsocket : (438 : Int) ≠ 0 := by decide
  have hdirectory : (493 : Int) ≠ 0 := by decide
  unfold parseSocketUnit
  cases unit.rawSections.lookup "Socket" with
  | none => exact ⟨hsocket, hdirectory⟩
  | some sec =>
      constructor
      · exact readOption_ne sec "SocketMode" (parseOctal_ne_zero hsocket) hsocket
      · exact readOption_ne sec "DirectoryMode" (parseOctal_ne_zero hdirectory) hdirectory

end TrivialInit
