import Mathlib.Data.List.Basic

/-!
# Scanning — readers that take a text token by token

A scanner is a function of the text that is left.  It reads a token if the token has the same effect
whatever text follows it.  Tokens that are read one by one can be put together, so a scanner undoes
a printer as soon as it reads what the printer writes for one item.

A scanner that is a loop is given by its pass, which says how to go on, or stops.  `Ends` is what the
loop comes to.
-/

namespace Scanning

variable {α β γ ι σ : Type*}

/-! ## Tokens -/

/-- Whatever follows `token`, it does `act` to what the scan makes of the rest. -/
def Reads (scan : List α → γ) (token : List α) (act : γ → γ) : Prop :=
  ∀ rest, scan (token ++ rest) = act (scan rest)

namespace Reads

variable {scan : List α → γ} {token token' : List α} {act act' : γ → γ}

theorem nil (scan : List α → γ) : Reads scan [] id :=
  fun _ => rfl

theorem append (h : Reads scan token act) (h' : Reads scan token' act') :
    Reads scan (token ++ token') (act ∘ act') := by
  intro rest
  rw [List.append_assoc, h, h']
  rfl

/-- A printed list is read item by item. -/
theorem flatMap {print : ι → List α} {act : ι → γ → γ} {items : List ι}
    (h : ∀ i ∈ items, Reads scan (print i) (act i)) :
    Reads scan (items.flatMap print) (fun k => items.foldr act k) := by
  induction items with
  | nil => exact nil scan
  | cons i items ih =>
      rw [List.flatMap_cons]
      have hhead := h i List.mem_cons_self
      have htail := ih (fun j hj => h j (List.mem_cons_of_mem _ hj))
      exact hhead.append htail

/-- A token at the end of the text. -/
theorem scan_eq (h : Reads scan token act) : scan token = act (scan []) := by
  have hend := h []
  rwa [List.append_nil] at hend

end Reads

/-! ## Scanners that write a text -/

/-- Whatever follows `token`, the scan writes `out` for it. -/
def Writes (scan : List α → List β) (token : List α) (out : List β) : Prop :=
  Reads scan token (out ++ ·)

namespace Writes

variable {scan : List α → List β} {token token' : List α} {out out' : List β}

theorem nil (scan : List α → List β) : Writes scan [] [] :=
  Reads.nil scan

theorem append (h : Writes scan token out) (h' : Writes scan token' out') :
    Writes scan (token ++ token') (out ++ out') := by
  intro rest
  calc
    scan (token ++ token' ++ rest)
        = out ++ (out' ++ scan rest) := Reads.append h h' rest
    _ = out ++ out' ++ scan rest := (List.append_assoc _ _ _).symm

theorem flatMap {print : ι → List α} {out : ι → List β} {items : List ι}
    (h : ∀ i ∈ items, Writes scan (print i) (out i)) :
    Writes scan (items.flatMap print) (items.flatMap out) := by
  induction items with
  | nil => exact nil scan
  | cons i items ih =>
      rw [List.flatMap_cons, List.flatMap_cons]
      have hhead := h i List.mem_cons_self
      have htail := ih (fun j hj => h j (List.mem_cons_of_mem _ hj))
      exact hhead.append htail

theorem scan_eq (h : Writes scan token out) (hnil : scan [] = []) : scan token = out := by
  rw [Reads.scan_eq h, hnil, List.append_nil]

end Writes

/-! ## Loops -/

/-- Go on until a pass stops; `none` when `n` passes are not enough. -/
def loop (pass : σ → Option σ) : Nat → σ → Option σ
  | 0, _ => none
  | n + 1, s =>
      match pass s with
      | none => some s
      | some s' => loop pass n s'

/-- The loop stops in `t`. -/
def Ends (pass : σ → Option σ) (s t : σ) : Prop :=
  ∃ n, loop pass n s = some t

variable {pass : σ → Option σ}

theorem loop_succ (n : Nat) (s : σ) :
    loop pass (n + 1) s =
      match pass s with
      | none => some s
      | some s' => loop pass n s' := rfl

/-- More passes than needed change nothing. -/
theorem loop_of_le {n m : Nat} {s t : σ} (hnm : n ≤ m) (h : loop pass n s = some t) :
    loop pass m s = some t := by
  induction n generalizing m s with
  | zero => cases h
  | succ n ih =>
      obtain ⟨m, rfl⟩ : ∃ m', m = m' + 1 := Nat.exists_eq_succ_of_ne_zero (by omega)
      rw [loop_succ] at h ⊢
      cases hpass : pass s with
      | none => simpa [hpass] using h
      | some s' =>
          rw [hpass] at h
          exact ih (by omega) h

namespace Ends

theorem of_stop {s : σ} (h : pass s = none) : Ends pass s s :=
  ⟨1, by rw [loop_succ, h]⟩

theorem of_pass {s s' t : σ} (h : pass s = some s') (hend : Ends pass s' t) : Ends pass s t := by
  rcases hend with ⟨n, hn⟩
  refine ⟨n + 1, ?_⟩
  rw [loop_succ, h]
  exact hn

theorem unique {s t t' : σ} (h : Ends pass s t) (h' : Ends pass s t') : t = t' := by
  rcases h with ⟨n, hn⟩
  rcases h' with ⟨n', hn'⟩
  have hmax := loop_of_le (Nat.le_max_left n n') hn
  rw [loop_of_le (Nat.le_max_right n n') hn'] at hmax
  exact (Option.some.inj hmax).symm

end Ends

end Scanning
