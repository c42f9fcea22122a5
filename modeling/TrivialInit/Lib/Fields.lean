import Mathlib.Data.List.Basic

/-!
# Fields — texts with separators

`fields sep text` is what stands between the separators of `text`, in order and with the empty
fields; `join sep texts` writes texts with separators in between and leaves the empty ones out.

* a text is a last field, or a field, a separator and a text (`induction_fields`);
* a separator between two texts becomes `++` (`fields_append`);
* joining can be done in groups (`join_append`);
* what is joined is read back, as far as it is not empty (`fields_join`), so reading and joining
  once more changes nothing (`join_fields_join`).
-/

namespace Fields

variable {sep : Char}

/-! ## Taking a text apart -/

/-- What stands between the separators. -/
def fields (sep : Char) (text : String) : List String :=
  (text.toList.splitOn sep).map String.ofList

/-- A text is a last field, or begins with a field and a separator. -/
theorem induction_fields {motive : String → Prop}
    (last : ∀ field, sep ∉ field.toList → motive field)
    (cons : ∀ field rest, sep ∉ field.toList → motive rest →
      motive (field ++ String.singleton sep ++ rest)) (text : String) : motive text := by
  -- By induction on the length of the text.
  induction hn : text.length using Nat.strongRecOn generalizing text with
  | ind n ih =>
      by_cases hsep : sep ∈ text.toList
      · obtain ⟨l, r, htext, hl⟩ := List.eq_append_cons_of_mem hsep
        have hparts : text = String.ofList l ++ String.singleton sep ++ String.ofList r := by
          rw [← String.toList_inj, htext]
          simp
        have hlength : (String.ofList r).length < n := by
          rw [← hn, hparts]
          simp
        rw [hparts]
        exact cons _ _ (by simpa using hl) (ih _ hlength _ rfl)
      · exact last text hsep

theorem fields_of_not_mem {text : String} (h : sep ∉ text.toList) : fields sep text = [text] := by
  rw [fields, List.splitOn_eq_singleton h]
  simp

/-- A separator between two texts. -/
theorem fields_append (l r : String) :
    fields sep (l ++ String.singleton sep ++ r) = fields sep l ++ fields sep r := by
  have hlist : (l ++ String.singleton sep ++ r).toList = l.toList ++ sep :: r.toList := by simp
  rw [fields, hlist, List.splitOn_append_cons_self, List.map_append]
  rfl

theorem fields_cons {field : String} (h : sep ∉ field.toList) (rest : String) :
    fields sep (field ++ String.singleton sep ++ rest) = field :: fields sep rest := by
  rw [fields_append, fields_of_not_mem h, List.singleton_append]

/-- There is no separator in a field. -/
theorem not_mem_of_mem_fields {text field : String} (h : field ∈ fields sep text) :
    sep ∉ field.toList := by
  induction text using @induction_fields sep with
  | last last hlast =>
      rw [fields_of_not_mem hlast, List.mem_singleton] at h
      exact h ▸ hlast
  | cons first rest hfirst ih =>
      rw [fields_cons hfirst, List.mem_cons] at h
      rcases h with rfl | h
      · exact hfirst
      · exact ih h

/-! ## Putting texts together -/

/-- The texts that are not empty, with separators in between. -/
def join (sep : Char) (texts : List String) : String :=
  (String.singleton sep).intercalate (texts.filter (fun text => text ≠ ""))

@[simp] theorem join_nil : join sep [] = "" := rfl

theorem join_singleton (text : String) : join sep [text] = text := by
  by_cases h : text = ""
  · rw [h]
    rfl
  · simp [join, h]

theorem join_eq_empty {texts : List String} (h : texts.filter (fun text => text ≠ "") = []) :
    join sep texts = "" := by
  rw [join, h]
  rfl

theorem join_ne_empty {texts : List String} (h : texts.filter (fun text => text ≠ "") ≠ []) :
    join sep texts ≠ "" := by
  rw [join]
  cases hkept : texts.filter (fun text => text ≠ "") with
  | nil => exact absurd hkept h
  | cons text rest =>
      have hmem : text ∈ texts.filter (fun text => text ≠ "") :=
        hkept ▸ List.mem_cons_self
      have htext : text ≠ "" := by simpa using (List.mem_filter.mp hmem).2
      cases rest with
      | nil => simpa using htext
      | cons text' rest => simp

theorem join_pair {l r : String} (hl : l ≠ "") (hr : r ≠ "") :
    join sep [l, r] = l ++ String.singleton sep ++ r := by
  simp [join, hl, hr]

@[simp] theorem join_empty_left (text : String) : join sep ["", text] = text :=
  join_singleton text

@[simp] theorem join_empty_right (text : String) : join sep [text, ""] = text := by
  have hfilter : [text, ""].filter (fun text => text ≠ "") =
      [text].filter (fun text => text ≠ "") := by
    simp [List.filter_cons]
  rw [join, hfilter, ← join, join_singleton]

/-- Texts can be joined in groups. -/
theorem join_append (l r : List String) :
    join sep (l ++ r) = join sep [join sep l, join sep r] := by
  by_cases hl : l.filter (fun text => text ≠ "") = []
  · have hgroup : join sep (l ++ r) = join sep r := by
      rw [join, List.filter_append, hl, List.nil_append, join]
    rw [hgroup, join_eq_empty hl, join_empty_left]
  · by_cases hr : r.filter (fun text => text ≠ "") = []
    · have hgroup : join sep (l ++ r) = join sep l := by
        rw [join, List.filter_append, hr, List.append_nil, join]
      rw [hgroup, join_eq_empty hr, join_empty_right]
    · rw [join_pair (join_ne_empty hl) (join_ne_empty hr), join, List.filter_append,
        String.intercalate_append_of_ne_nil hl hr, join, join]

theorem join_cons_join (l r : List String) : join sep (join sep l :: r) = join sep (l ++ r) := by
  calc
    join sep (join sep l :: r)
        = join sep [join sep [join sep l], join sep r] := join_append [join sep l] r
    _ = join sep [join sep l, join sep r] := by rw [join_singleton]
    _ = join sep (l ++ r) := (join_append l r).symm

/-- The texts that are not empty are read back. -/
theorem fields_join {texts : List String} (h : ∀ text ∈ texts, sep ∉ text.toList) :
    (fields sep (join sep texts)).filter (fun text => text ≠ "") =
      texts.filter (fun text => text ≠ "") := by
  by_cases hnil : texts.filter (fun text => text ≠ "") = []
  · rw [join_eq_empty hnil, hnil]
    rfl
  · have hsep : ∀ l ∈ (texts.filter (fun text => text ≠ "")).map String.toList, sep ∉ l := by
      intro l hl
      obtain ⟨text, htext, rfl⟩ := List.mem_map.mp hl
      exact h text (List.mem_filter.mp htext).1
    have hsplit := List.splitOn_intercalate sep hsep (by simpa using hnil)
    have hfields : fields sep (join sep texts) = texts.filter (fun text => text ≠ "") := by
      rw [fields, join, String.toList_intercalate, String.toList_singleton, hsplit, List.map_map]
      simp [Function.comp_def]
    rw [hfields, List.filter_filter]
    simp

theorem mem_of_mem_fields_join {texts : List String} (h : ∀ text ∈ texts, sep ∉ text.toList)
    {field : String} (hfield : field ∈ fields sep (join sep texts)) (hne : field ≠ "") :
    field ∈ texts := by
  have hmem : field ∈ (fields sep (join sep texts)).filter (fun text => text ≠ "") :=
    List.mem_filter.mpr ⟨hfield, by simpa using hne⟩
  rw [fields_join h] at hmem
  exact (List.mem_filter.mp hmem).1

theorem join_fields_join {texts : List String} (h : ∀ text ∈ texts, sep ∉ text.toList) :
    join sep (fields sep (join sep texts)) = join sep texts := by
  rw [join, fields_join h, ← join]

end Fields
