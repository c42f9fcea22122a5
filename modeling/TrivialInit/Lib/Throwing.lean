import Mathlib.Logic.Basic

/-!
# Throwing — runs that may throw

A run that throws has no value.  `Yields ok post run` says exactly when it does not, and what is
true of its value then.  The rules follow the shape of the run; a loop is compared with one that
does not throw (`Yields.foldlM`).
-/

namespace Throwing

variable {α β σ τ : Type*} {ok ok' : Prop} {post : α → Prop} {post' : β → Prop}

/-- The run has a value exactly if `ok`, and the value satisfies `post`. -/
def Yields (ok : Prop) (post : α → Prop) : Option α → Prop
  | none => ¬ ok
  | some a => ok ∧ post a

namespace Yields

theorem value {a : α} (h : post a) : Yields True post (some a) :=
  ⟨trivial, h⟩

theorem congr {run : Option α} (h : Yields ok post run) (hok : ok ↔ ok') : Yields ok' post run := by
  rwa [propext hok] at h

theorem map {run : Option α} {f : α → β} (h : Yields ok post run)
    (hf : ∀ a, post a → post' (f a)) : Yields ok post' (run.map f) := by
  cases run with
  | none => exact h
  | some a => exact ⟨h.1, hf a h.2⟩

theorem bind {run : Option α} {f : α → Option β} (h : Yields ok post run)
    (hf : ∀ a, post a → Yields ok' post' (f a)) : Yields (ok ∧ ok') post' (run.bind f) := by
  cases run with
  | none => exact fun hboth => h hboth.1
  | some a =>
      have hrest := hf a h.2
      rw [Option.bind_some]
      cases hfa : f a with
      | none =>
          rw [hfa] at hrest
          exact fun hboth => hrest hboth.2
      | some b =>
          rw [hfa] at hrest
          exact ⟨⟨h.1, hrest.1⟩, hrest.2⟩

/-- A loop whose iterations throw, each under its own condition, does what the loop without
exceptions does. -/
theorem foldlM {R : σ → τ → Prop} {f : σ → α → Option σ} {g : τ → α → τ} {ok : α → Prop}
    {l : List α} (hstep : ∀ x ∈ l, ∀ s t, R s t → Yields (ok x) (R · (g t x)) (f s x))
    {s : σ} {t : τ} (h : R s t) :
    Yields (∀ x ∈ l, ok x) (R · (l.foldl g t)) (l.foldlM f s) := by
  induction l generalizing s t with
  | nil => exact ⟨fun x hx => absurd hx List.not_mem_nil, h⟩
  | cons x l ih =>
      have hhead := hstep x List.mem_cons_self s t h
      have htail := fun s' hs' => ih (fun y hy => hstep y (List.mem_cons_of_mem x hy))
        (s := s') (t := g t x) hs'
      exact (hhead.bind htail).congr List.forall_mem_cons.symm

/-- The run has a value with a property exactly if it has a value and `K` holds, when `K` is what the
property comes to for each value. -/
theorem exists_iff {run : Option α} {Q : α → Prop} {K : Prop} (h : Yields ok post run)
    (hQ : ∀ a, post a → (Q a ↔ K)) : (∃ a, run = some a ∧ Q a) ↔ ok ∧ K := by
  cases run with
  | none =>
      constructor
      · rintro ⟨a, ha, -⟩
        cases ha
      · rintro ⟨hok, -⟩
        exact absurd hok h
  | some a =>
      obtain ⟨hok, hpost⟩ : ok ∧ post a := h
      constructor
      · rintro ⟨a', ha', hQa⟩
        obtain rfl := Option.some.inj ha'
        exact ⟨hok, (hQ a hpost).mp hQa⟩
      · rintro ⟨-, hK⟩
        exact ⟨a, rfl, (hQ a hpost).mpr hK⟩

end Yields

end Throwing
