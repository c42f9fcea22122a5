import Mathlib.Data.List.Basic

/-!
# JournalMixin — the in-memory log

`log` drops entries below `min_level_` and appends the others.  Timestamps and the copy written to
`stderr` are left out.
-/

namespace TrivialInit

inductive LogLevel
  | debug
  | info
  | notice
  | warning
  | error
  | crit
  deriving DecidableEq, Repr

/-- The underlying value of the `enum class`. -/
def LogLevel.toNat : LogLevel → Nat
  | .debug => 0
  | .info => 1
  | .notice => 2
  | .warning => 3
  | .error => 4
  | .crit => 5

structure JournalEntry where
  level : LogLevel
  source : String
  message : String
  deriving DecidableEq, Repr

structure Journal where
  entries : List JournalEntry := []
  minLevel : LogLevel := .info
  deriving DecidableEq, Repr

namespace Journal

/-- `JournalMixin::log`. -/
def log (j : Journal) (e : JournalEntry) : Journal :=
  if e.level.toNat < j.minLevel.toNat then j else { j with entries := j.entries ++ [e] }

/-- Several calls of `log`, in order. -/
def logAll (j : Journal) (es : List JournalEntry) : Journal :=
  es.foldl log j

@[simp] theorem minLevel_log (j : Journal) (e : JournalEntry) : (j.log e).minLevel = j.minLevel := by
  unfold log
  split <;> rfl

theorem logAll_entries (j : Journal) (es : List JournalEntry) :
    (j.logAll es).entries =
      j.entries ++ es.filter (fun e => !decide (e.level.toNat < j.minLevel.toNat)) := by
  induction es generalizing j with
  | nil =>
      simp [logAll]
  | cons e es ih =>
      have hrec := ih (j.log e)
      rw [minLevel_log] at hrec
      change ((j.log e).logAll es).entries = _
      rw [hrec]
      by_cases h : e.level.toNat < j.minLevel.toNat
      · simp [log, h]
      · simp [log, h, List.append_assoc]

end Journal

end TrivialInit
