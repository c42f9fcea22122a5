import TrivialInit.Lib.Scanning
import TrivialInit.Systemd.Specifiers

/-!
# Expansion — what `resolve` does to a text

* `specifiersIn` : the registered specifiers the scan of `resolve` meets;
* `resolveChars_of_specifiersIn_eq_nil` : a text without one is left as it is;
* `resolveChars_append_cons` : expansion never reaches over a character that is no specifier;
* `resolve_compositional` : a text is expanded piece by piece, and nothing is lost.
-/

namespace TrivialInit

/-! ## Registered specifiers -/

/-- The keys of the table filled by `register_core_resolvers`. -/
def specifierChars : List Char :=
  ['%', 'n', 'N', 'p', 'P', 'i', 'I', 'f', 'j', 'J', 't', 'S', 'C', 'L', 'E', 'b', 'm', 'H', 'a',
    'v', 'o', 'w', 'W', 'u', 'U', 'g', 'h', 's']

variable (info : SystemInfo) (ctx : SpecifierContext)

theorem resolver?_eq_none_iff (c : Char) : resolver? info ctx c = none ↔ c ∉ specifierChars := by
  constructor
  · intro h hc
    simp only [specifierChars, List.mem_cons, List.not_mem_nil, or_false] at hc
    rcases hc with rfl | rfl | rfl | rfl | rfl | rfl | rfl | rfl | rfl | rfl | rfl | rfl | rfl |
      rfl | rfl | rfl | rfl | rfl | rfl | rfl | rfl | rfl | rfl | rfl | rfl | rfl | rfl | rfl <;>
      simp [resolver?] at h
  · intro hc
    unfold resolver?
    split <;> first | rfl | exact absurd (by decide) hc

/-- The registered specifiers the scan of `resolve` meets, in order. -/
def specifiersIn : List Char → List Char
  | [] => []
  | '%' :: spec :: rest =>
      if spec ∈ specifierChars then spec :: specifiersIn rest else specifiersIn rest
  | _ :: rest => specifiersIn rest

@[simp] theorem specifiersIn_cons_of_ne {c : Char} (hc : c ≠ '%') (rest : List Char) :
    specifiersIn (c :: rest) = specifiersIn rest := by
  rw [specifiersIn]
  simp [hc]

@[simp] theorem resolveChars_nil : resolveChars info ctx [] = [] := rfl

@[simp] theorem resolveChars_percent : resolveChars info ctx ['%'] = ['%'] := rfl

@[simp] theorem resolveChars_cons_of_ne {c : Char} (hc : c ≠ '%') (rest : List Char) :
    resolveChars info ctx (c :: rest) = c :: resolveChars info ctx rest := by
  rw [resolveChars]
  simp [hc]

/-- The value of a registered specifier; other characters have none. -/
def specifierValue (spec : Char) : List Char :=
  ((resolver? info ctx spec).getD "").toList

@[simp] theorem resolveChars_specifier {spec : Char} (hspec : spec ∈ specifierChars)
    (rest : List Char) :
    resolveChars info ctx ('%' :: spec :: rest) =
      specifierValue info ctx spec ++ resolveChars info ctx rest := by
  cases hvalue : resolver? info ctx spec with
  | none => exact absurd hspec ((resolver?_eq_none_iff info ctx spec).mp hvalue)
  | some text => simp [resolveChars, specifierValue, hvalue]

@[simp] theorem resolveChars_unknown {spec : Char} (hspec : spec ∉ specifierChars)
    (rest : List Char) :
    resolveChars info ctx ('%' :: spec :: rest) = '%' :: spec :: resolveChars info ctx rest := by
  have hnone := (resolver?_eq_none_iff info ctx spec).mpr hspec
  simp [resolveChars, hnone]

/-- Induction along the scan of `resolve`. -/
@[elab_as_elim]
theorem scanInduction {motive : List Char → Prop} (nil : motive []) (percent : motive ['%'])
    (specifier : ∀ spec rest, spec ∈ specifierChars → motive rest → motive ('%' :: spec :: rest))
    (unknown : ∀ spec rest, spec ∉ specifierChars → motive rest → motive ('%' :: spec :: rest))
    (other : ∀ c rest, c ≠ '%' → motive rest → motive (c :: rest)) (l : List Char) : motive l := by
  induction l using specifiersIn.induct with
  | case1 => exact nil
  | case2 spec rest hspec ih => exact specifier spec rest hspec ih
  | case3 spec rest hspec ih => exact unknown spec rest hspec ih
  | case4 c rest hother ih =>
      by_cases hc : c = '%'
      · subst hc
        -- The scan only gets here with a `%` at the end of the text.
        cases rest with
        | nil => exact percent
        | cons spec rest => exact absurd rfl (hother spec rest rfl)
      · exact other c rest hc ih

/-! ## Texts that are left alone -/

theorem specifiersIn_of_not_mem {l : List Char} (h : '%' ∉ l) : specifiersIn l = [] := by
  induction l with
  | nil => rfl
  | cons c rest ih =>
      rw [List.mem_cons, not_or] at h
      rw [specifiersIn_cons_of_ne (Ne.symm h.1), ih h.2]

theorem resolveChars_of_specifiersIn_eq_nil (l : List Char) (h : specifiersIn l = []) :
    resolveChars info ctx l = l := by
  induction l using scanInduction with
  | nil => rfl
  | percent => rfl
  | specifier spec rest hspec ih => simp [specifiersIn, hspec] at h
  | unknown spec rest hspec ih =>
      have hrest : specifiersIn rest = [] := by simpa [specifiersIn, hspec] using h
      rw [resolveChars_unknown info ctx hspec, ih hrest]
  | other c rest hc ih =>
      have hrest : specifiersIn rest = [] := by simpa [hc] using h
      rw [resolveChars_cons_of_ne info ctx hc, ih hrest]

/-- Nothing is expanded over a character that is not a specifier. -/
theorem resolveChars_append_cons {c : Char} (hc : c ∉ specifierChars) (l : List Char) :
    ∃ t, ∀ r, resolveChars info ctx (l ++ c :: r) = t ++ c :: resolveChars info ctx r := by
  have hpercent : c ≠ '%' := by
    rintro rfl
    exact hc (by decide)
  induction l using scanInduction with
  | nil => exact ⟨[], fun r => by simp [hpercent]⟩
  | percent => exact ⟨['%'], fun r => by simp [hc]⟩
  | specifier spec rest hspec ih =>
      rcases ih with ⟨t, ht⟩
      exact ⟨specifierValue info ctx spec ++ t, fun r => by simp [hspec, ht]⟩
  | unknown spec rest hspec ih =>
      rcases ih with ⟨t, ht⟩
      exact ⟨'%' :: spec :: t, fun r => by simp [hspec, ht]⟩
  | other d rest hd ih =>
      rcases ih with ⟨t, ht⟩
      exact ⟨d :: t, fun r => by simp [hd, ht]⟩

/-! ## Counting percent signs -/

/-- No specifier but `%%` expands to a text with a `%`. -/
def PercentFree : Prop :=
  ∀ spec, spec ≠ '%' → '%' ∉ specifierValue info ctx spec

variable {info ctx}

/-- Every expansion takes one `%` away. -/
theorem count_percent_resolveChars (h : PercentFree info ctx) (l : List Char) :
    (resolveChars info ctx l).count '%' + (specifiersIn l).length = l.count '%' := by
  induction l using scanInduction with
  | nil => rfl
  | percent => rfl
  | specifier spec rest hspec ih =>
      rw [resolveChars_specifier info ctx hspec, specifiersIn, if_pos hspec, List.count_append,
        List.length_cons, List.count_cons_self]
      by_cases hpercent : spec = '%'
      · subst hpercent
        have hvalue : (specifierValue info ctx '%').count '%' = 1 := by
          simp [specifierValue, resolver?]
        rw [List.count_cons_self]
        omega
      · have hvalue : (specifierValue info ctx spec).count '%' = 0 :=
          List.count_eq_zero.mpr (h spec hpercent)
        rw [List.count_cons_of_ne hpercent]
        omega
  | unknown spec rest hspec ih =>
      have hpercent : spec ≠ '%' := by
        rintro rfl
        exact hspec (by decide)
      rw [resolveChars_unknown info ctx hspec, specifiersIn, if_neg hspec, List.count_cons_self,
        List.count_cons_self, List.count_cons_of_ne hpercent, List.count_cons_of_ne hpercent]
      omega
  | other c rest hc ih =>
      rw [resolveChars_cons_of_ne info ctx hc, specifiersIn_cons_of_ne hc,
        List.count_cons_of_ne hc, List.count_cons_of_ne hc]
      exact ih

/-! ## Texts -/

theorem toList_resolve (input : String) :
    (resolve info ctx input).toList = resolveChars info ctx input.toList := by
  simp [resolve]

theorem resolve_of_specifiersIn_eq_nil {input : String} (h : specifiersIn input.toList = []) :
    resolve info ctx input = input := by
  rw [resolve, resolveChars_of_specifiersIn_eq_nil info ctx _ h, String.ofList_toList]

/-! ## Composition -/

/-- Does the scan end on a `%` that has no character to pair with? -/
def endsUnpaired : List Char → Bool
  | [] => false
  | ['%'] => true
  | '%' :: _ :: rest => endsUnpaired rest
  | _ :: rest => endsUnpaired rest

theorem endsUnpaired_percent_cons (spec : Char) (rest : List Char) :
    endsUnpaired ('%' :: spec :: rest) = endsUnpaired rest := rfl

theorem endsUnpaired_cons_of_ne {c : Char} (hc : c ≠ '%') (rest : List Char) :
    endsUnpaired (c :: rest) = endsUnpaired rest := by
  rw [endsUnpaired]
  · intro h
    exact absurd h hc
  · intro spec rest' h
    exact absurd h hc

variable (info ctx)

/-- Behind a text whose percent signs are all paired, the scan starts afresh. -/
theorem writes_resolveChars {l : List Char} (h : endsUnpaired l = false) :
    Scanning.Writes (resolveChars info ctx) l (resolveChars info ctx l) := by
  intro r
  induction l using scanInduction with
  | nil => rfl
  | percent => cases h
  | specifier spec rest hspec ih =>
      rw [endsUnpaired_percent_cons] at h
      simp only [List.cons_append, resolveChars_specifier info ctx hspec, ih h, List.append_assoc]
  | unknown spec rest hspec ih =>
      rw [endsUnpaired_percent_cons] at h
      simp only [List.cons_append, resolveChars_unknown info ctx hspec, ih h]
  | other c rest hc ih =>
      rw [endsUnpaired_cons_of_ne hc] at h
      simp only [List.cons_append, resolveChars_cons_of_ne info ctx hc, ih h]

theorem resolve_append {a b : String} (h : endsUnpaired a.toList = false) :
    resolve info ctx (a ++ b) = resolve info ctx a ++ resolve info ctx b := by
  rw [← String.toList_inj, String.toList_append, toList_resolve, toList_resolve, toList_resolve,
    String.toList_append]
  exact writes_resolveChars info ctx h b.toList

/-- Every `%` written twice. -/
def doublePercents (s : String) : String :=
  String.ofList (s.toList.flatMap (fun c => if c = '%' then ['%', '%'] else [c]))

theorem resolve_doublePercents (s : String) : resolve info ctx (doublePercents s) = s := by
  have hchar : ∀ c ∈ s.toList, Scanning.Writes (resolveChars info ctx)
      (if c = '%' then ['%', '%'] else [c]) [c] := by
    intro c _ rest
    by_cases hc : c = '%'
    · subst hc
      rfl
    · rw [if_neg hc]
      exact resolveChars_cons_of_ne info ctx hc rest
  have hread := Scanning.Writes.flatMap hchar
  rw [resolve, doublePercents, String.toList_ofList, hread.scan_eq rfl]
  simp

/-- Expansion goes piece by piece, so that nothing expanded is expanded again, and it changes only
registered specifiers. -/
theorem resolve_compositional :
    (∀ a b, endsUnpaired a.toList = false →
      resolve info ctx (a ++ b) = resolve info ctx a ++ resolve info ctx b) ∧
    (∀ s, '%' ∉ s.toList → resolve info ctx s = s) ∧
    (∀ a c b, endsUnpaired a.toList = false → resolver? info ctx c = none →
      resolve info ctx (a ++ String.ofList ['%', c] ++ b) =
        resolve info ctx a ++ String.ofList ['%', c] ++ resolve info ctx b) ∧
    (∀ a, endsUnpaired a.toList = false → resolve info ctx (a ++ "%") = resolve info ctx a ++ "%") ∧
    ∀ s, resolve info ctx (doublePercents s) = s := by
  refine ⟨fun a b h => resolve_append info ctx h, ?_, ?_, ?_, resolve_doublePercents info ctx⟩
  · intro s hs
    exact resolve_of_specifiersIn_eq_nil (specifiersIn_of_not_mem hs)
  · intro a c b ha hc
    have hpair : resolve info ctx (String.ofList ['%', c]) = String.ofList ['%', c] := by
      apply resolve_of_specifiersIn_eq_nil
      have hspec := (resolver?_eq_none_iff info ctx c).mp hc
      simp [specifiersIn, hspec]
    have hpaired : endsUnpaired (String.ofList ['%', c]).toList = false := by
      rw [String.toList_ofList]
      rfl
    rw [String.append_assoc, resolve_append info ctx ha, resolve_append info ctx hpaired, hpair,
      String.append_assoc]
  · intro a ha
    rw [resolve_append info ctx ha]
    rfl

example : resolve {} (SpecifierContext.ofUnit "a@b.service" "") "100%% %i %y %" = "100% b %y %" := by
  decide

end TrivialInit
