import Mathlib.Data.List.Basic
import Mathlib.Data.List.Flatten

/-!
# QuotedWords — words between blanks, with quotes

`split blank quote l q word` cuts `l` into words at the blanks outside quotes.  Quotes are dropped,
everything inside them is part of the word, and empty words are dropped.  `q` is the quote that is
open and `word` the text read so far, reversed.

* a list can be split piece by piece (`exists_split_append`);
* a piece without anything special at its place goes into the current word (`split_append_of_plain`);
* no character that is neither a blank nor a quote is lost (`countP_flatten_split`);
* splitting does not look at annotations of the characters (`split_map`);
* texts that spell words, joined with blanks, are split into the words that are not empty
  (`split_joined`).
-/

namespace QuotedWords

variable {α β κ : Type*} [DecidableEq κ]

/-! ## The splitter -/

/-- The word read so far, unless it is empty. -/
def close : List α → List (List α)
  | [] => []
  | a :: word => [(a :: word).reverse]

/-- Does the character end the word? -/
def Ends (blank : α → Bool) (quote : α → Option κ) (a : α) (q : Option κ) : Prop :=
  q = none ∧ quote a = none ∧ blank a = true

instance (blank : α → Bool) (quote : α → Option κ) (a : α) (q : Option κ) :
    Decidable (Ends blank quote a q) := by
  unfold Ends
  infer_instance

/-- Does the character go into the word? -/
def Plain (blank : α → Bool) (quote : α → Option κ) (a : α) : Option κ → Prop
  | none => quote a = none ∧ blank a = false
  | some q => quote a ≠ some q

instance (blank : α → Bool) (quote : α → Option κ) (a : α) (q : Option κ) :
    Decidable (Plain blank quote a q) := by
  unfold Plain
  cases q <;> infer_instance

/-- The quote that is open behind a character. -/
def openAfter (quote : α → Option κ) (a : α) : Option κ → Option κ
  | none => quote a
  | some q => if quote a = some q then none else some q

/-- The text read behind a character. -/
def wordAfter (blank : α → Bool) (quote : α → Option κ) (a : α) (q : Option κ) (word : List α) :
    List α :=
  if Plain blank quote a q then a :: word
  else if Ends blank quote a q then []
  else word

/-- The words of a list. -/
def split (blank : α → Bool) (quote : α → Option κ) : List α → Option κ → List α → List (List α)
  | [], _, word => close word
  | a :: rest, q, word =>
      (if Ends blank quote a q then close word else []) ++
        split blank quote rest (openAfter quote a q) (wordAfter blank quote a q word)

variable {blank : α → Bool} {quote : α → Option κ}

theorem split_cons (a : α) (rest : List α) (q : Option κ) (word : List α) :
    split blank quote (a :: rest) q word =
      (if Ends blank quote a q then close word else []) ++
        split blank quote rest (openAfter quote a q) (wordAfter blank quote a q word) := rfl

theorem flatten_close (word : List α) : (close word).flatten = word.reverse := by
  cases word <;> simp [close]

theorem map_close (f : α → β) (word : List α) :
    close (word.map f) = (close word).map (List.map f) := by
  cases word <;> simp [close]

omit [DecidableEq κ] in
theorem not_ends_of_plain {a : α} {q : Option κ} (h : Plain blank quote a q) :
    ¬ Ends blank quote a q := by
  rintro ⟨rfl, -, hb⟩
  simp [h.2] at hb

theorem openAfter_of_plain {a : α} {q : Option κ} (h : Plain blank quote a q) :
    openAfter quote a q = q := by
  cases q with
  | none => exact h.1
  | some k => exact if_neg h

theorem split_cons_of_plain {a : α} {q : Option κ} (h : Plain blank quote a q)
    (rest word : List α) :
    split blank quote (a :: rest) q word = split blank quote rest q (a :: word) := by
  rw [split_cons, if_neg (not_ends_of_plain h), openAfter_of_plain h, wordAfter, if_pos h]
  rfl

/-! ## Pieces -/

theorem split_append_of_plain {q : Option κ} {piece : List α}
    (h : ∀ a ∈ piece, Plain blank quote a q) (rest word : List α) :
    split blank quote (piece ++ rest) q word = split blank quote rest q (piece.reverse ++ word) := by
  induction piece generalizing word with
  | nil => rfl
  | cons a piece ih =>
      rw [List.cons_append, split_cons_of_plain (h a (by simp)),
        ih (fun b hb => h b (List.mem_cons_of_mem a hb)), List.reverse_cons, List.append_assoc,
        List.singleton_append]

theorem openAfter_eq_some {a : α} {q : Option κ} {k : κ} (h : openAfter quote a q = some k) :
    q = some k ∨ quote a = some k := by
  cases q with
  | none => exact Or.inr h
  | some k' =>
      rw [openAfter] at h
      split_ifs at h
      exact Or.inl h

/-- Splitting a piece yields some words, and leaves an open quote and a word for the rest. -/
theorem exists_split_append (piece : List α) (q : Option κ) (word : List α) :
    ∃ front q' word', (∀ k, q' = some k → q = some k ∨ ∃ a ∈ piece, quote a = some k) ∧
      ∀ rest, split blank quote (piece ++ rest) q word =
        front ++ split blank quote rest q' word' := by
  induction piece generalizing q word with
  | nil => exact ⟨[], q, word, fun k hk => Or.inl hk, fun _ => rfl⟩
  | cons a piece ih =>
      obtain ⟨front, q', word', hq', hrest⟩ :=
        ih (openAfter quote a q) (wordAfter blank quote a q word)
      refine ⟨(if Ends blank quote a q then close word else []) ++ front, q', word', ?_, ?_⟩
      · intro k hk
        rcases hq' k hk with h | ⟨b, hb, h⟩
        · rcases openAfter_eq_some h with h | h
          · exact Or.inl h
          · exact Or.inr ⟨a, by simp, h⟩
        · exact Or.inr ⟨b, List.mem_cons_of_mem a hb, h⟩
      · intro rest
        rw [List.cons_append, split_cons, hrest, List.append_assoc]

/-! ## What the words are made of -/

/-- A kind of characters that are neither blanks nor quotes is kept. -/
theorem countP_flatten_split {p : α → Bool} (h : ∀ a, p a = true → quote a = none ∧ blank a = false)
    (l : List α) (q : Option κ) (word : List α) :
    (split blank quote l q word).flatten.countP p = l.countP p + word.countP p := by
  induction l generalizing q word with
  | nil => simp [split, flatten_close]
  | cons a rest ih =>
      rw [split_cons, List.flatten_append, List.countP_append, ih, List.countP_cons]
      by_cases hplain : Plain blank quote a q
      · rw [if_neg (not_ends_of_plain hplain), wordAfter, if_pos hplain, List.countP_cons]
        simp only [List.flatten_nil, List.countP_nil]
        omega
      · -- A character that does not go into the word is none of the kind.
        have hp : p a = false := by
          cases hpa : p a with
          | false => rfl
          | true =>
              obtain ⟨hq, hb⟩ := h a hpa
              cases q with
              | none => exact absurd ⟨hq, hb⟩ hplain
              | some k => exact absurd (by simp [Plain, hq]) hplain
        by_cases hends : Ends blank quote a q
        · simp [wordAfter, hplain, hends, flatten_close, hp]
          omega
        · simp [wordAfter, hplain, hends, hp]

/-- Nothing is added to the words. -/
theorem mem_of_mem_split {a : α} {w : List α} (ha : a ∈ w) (l : List α) (q : Option κ)
    (word : List α) (hw : w ∈ split blank quote l q word) : a ∈ l ∨ a ∈ word := by
  have hclose : ∀ word : List α, w ∈ close word → a ∈ word := by
    intro word hword
    have hflat : a ∈ (close word).flatten := List.mem_flatten_of_mem hword ha
    rwa [flatten_close, List.mem_reverse] at hflat
  induction l generalizing q word with
  | nil => exact Or.inr (hclose word hw)
  | cons b rest ih =>
      rcases List.mem_append.mp hw with hw | hw
      · split_ifs at hw
        · exact Or.inr (hclose word hw)
        · cases hw
      · rcases ih _ _ hw with h | h
        · exact Or.inl (List.mem_cons_of_mem b h)
        · unfold wordAfter at h
          split_ifs at h
          · rcases List.mem_cons.mp h with rfl | h
            · exact Or.inl (by simp)
            · exact Or.inr h
          · cases h
          · exact Or.inr h

/-- No word is empty. -/
theorem ne_nil_of_mem_split {w : List α} (l : List α) (q : Option κ) (word : List α)
    (hw : w ∈ split blank quote l q word) : w ≠ [] := by
  have hclose : ∀ word : List α, w ∈ close word → w ≠ [] := by
    intro word hword
    cases word with
    | nil => cases hword
    | cons a word =>
        obtain rfl := List.mem_singleton.mp hword
        simp
  induction l generalizing q word with
  | nil => exact hclose word hw
  | cons b rest ih =>
      rcases List.mem_append.mp hw with hw | hw
      · split_ifs at hw
        · exact hclose word hw
        · cases hw
      · exact ih _ _ hw

/-! ## Annotated characters -/

/-- Splitting does not look at what `f` forgets. -/
theorem split_map (f : β → α) (l : List β) (q : Option κ) (word : List β) :
    split blank quote (l.map f) q (word.map f) =
      (split (blank ∘ f) (quote ∘ f) l q word).map (List.map f) := by
  induction l generalizing q word with
  | nil => exact map_close f word
  | cons b rest ih =>
      have hword : wordAfter blank quote (f b) q (word.map f) =
          (wordAfter (blank ∘ f) (quote ∘ f) b q word).map f := by
        unfold wordAfter
        cases q <;> (simp only [Plain, Ends, Function.comp_apply]; split_ifs <;> rfl)
      have hends : Ends (blank ∘ f) (quote ∘ f) b q ↔ Ends blank quote (f b) q := Iff.rfl
      rw [List.map_cons, split_cons, split_cons, hword, List.map_append, ← ih]
      by_cases h : Ends blank quote (f b) q
      · rw [if_pos h, if_pos (hends.mpr h), map_close]
        rfl
      · rw [if_neg h, if_neg (fun h' => h (hends.mp h'))]
        rfl

/-! ## Written words -/

theorem split_cons_of_opens {mark : α} {k : κ} (hmark : quote mark = some k)
    (rest word : List α) :
    split blank quote (mark :: rest) none word = split blank quote rest (some k) word := by
  rw [split_cons]
  simp [Ends, Plain, openAfter, wordAfter, hmark]

theorem split_cons_of_closes {mark : α} {k : κ} (hmark : quote mark = some k)
    (rest word : List α) :
    split blank quote (mark :: rest) (some k) word = split blank quote rest none word := by
  rw [split_cons]
  simp [Ends, Plain, openAfter, wordAfter, hmark]

/-- Blanks end the current word, and one blank is as good as many. -/
theorem split_append_of_blank {gap : List α} (hne : gap ≠ [])
    (hgap : ∀ a ∈ gap, blank a = true ∧ quote a = none) (rest word : List α) :
    split blank quote (gap ++ rest) none word = close word ++ split blank quote rest none [] := by
  induction gap generalizing word with
  | nil => exact absurd rfl hne
  | cons a gap ih =>
      obtain ⟨hblank, hquote⟩ := hgap a List.mem_cons_self
      have hstep : split blank quote (a :: (gap ++ rest)) none word =
          close word ++ split blank quote (gap ++ rest) none [] := by
        rw [split_cons]
        simp [Ends, Plain, openAfter, wordAfter, hblank, hquote]
      cases gap with
      | nil => exact hstep
      | cons b gap =>
          have htail := ih (by simp) (fun c hc => hgap c (List.mem_cons_of_mem a hc)) []
          rw [List.cons_append, hstep, htail]
          rfl

/-- Outside quotes, the text puts `word` into the current word, whatever follows it. -/
def Spells (blank : α → Bool) (quote : α → Option κ) (text word : List α) : Prop :=
  ∀ rest before, split blank quote (text ++ rest) none before =
    split blank quote rest none (word.reverse ++ before)

namespace Spells

theorem nil : Spells blank quote [] [] :=
  fun _ _ => rfl

theorem append {text text' word word' : List α} (h : Spells blank quote text word)
    (h' : Spells blank quote text' word') :
    Spells blank quote (text ++ text') (word ++ word') := by
  intro rest before
  calc
    split blank quote (text ++ text' ++ rest) none before
        = split blank quote (text ++ (text' ++ rest)) none before := by rw [List.append_assoc]
    _ = split blank quote (text' ++ rest) none (word.reverse ++ before) := h _ _
    _ = split blank quote rest none (word'.reverse ++ (word.reverse ++ before)) := h' _ _
    _ = split blank quote rest none ((word ++ word').reverse ++ before) := by
        rw [List.reverse_append, List.append_assoc]

/-- A list of texts, one behind the other. -/
theorem flatMap {ι : Type*} {text word : ι → List α} {items : List ι}
    (h : ∀ i ∈ items, Spells blank quote (text i) (word i)) :
    Spells blank quote (items.flatMap text) (items.flatMap word) := by
  induction items with
  | nil => exact nil
  | cons i items ih =>
      have hhead := h i List.mem_cons_self
      have htail := ih (fun j hj => h j (List.mem_cons_of_mem i hj))
      exact hhead.append htail

/-- A quoted text spells itself, whatever blanks and other quotes are in it. -/
theorem quoted {mark : α} {k : κ} (hmark : quote mark = some k) {text : List α}
    (htext : ∀ a ∈ text, quote a ≠ some k) :
    Spells blank quote (mark :: (text ++ [mark])) text := by
  intro rest before
  calc
    split blank quote (mark :: (text ++ [mark]) ++ rest) none before
        = split blank quote (mark :: (text ++ mark :: rest)) none before := by simp
    _ = split blank quote (text ++ mark :: rest) (some k) before := split_cons_of_opens hmark _ _
    _ = split blank quote (mark :: rest) (some k) (text.reverse ++ before) :=
        split_append_of_plain htext _ _
    _ = split blank quote rest none (text.reverse ++ before) := split_cons_of_closes hmark _ _

end Spells

/-- Texts joined with blanks: at least one between any two, none before or behind. -/
inductive Joined (blank : α → Bool) : List (List α) → List α → Prop
  | nil : Joined blank [] []
  | one (text : List α) : Joined blank [text] text
  | cons (text : List α) {gap : List α} {texts : List (List α)} {joined : List α}
      (hne : gap ≠ []) (hgap : ∀ a ∈ gap, blank a = true)
      (hrest : texts ≠ []) (h : Joined blank texts joined) :
      Joined blank (text :: texts) (text ++ (gap ++ joined))

/-- One blank between any two texts. -/
theorem Joined.intercalate {b : α} (hb : blank b = true) (texts : List (List α)) :
    Joined blank texts ([b].intercalate texts) := by
  induction texts with
  | nil => exact nil
  | cons text texts ih =>
      cases texts with
      | nil =>
          rw [List.intercalate_singleton]
          exact one text
      | cons text' texts =>
          rw [List.intercalate_cons_cons, List.append_assoc]
          exact cons text (by simp) (by simpa using hb) (by simp) ih

theorem close_reverse (word : List α) :
    close word.reverse = [word].filter (fun w => !w.isEmpty) := by
  cases word with
  | nil => rfl
  | cons a word =>
      cases hrev : (a :: word).reverse with
      | nil => simp at hrev
      | cons b rest =>
          rw [close, ← hrev, List.reverse_reverse]
          rfl

/-- A text that spells a word, at the end of the line. -/
theorem split_of_spells {text word : List α} (h : Spells blank quote text word) :
    split blank quote text none [] = [word].filter (fun w => !w.isEmpty) := by
  have hend := h [] []
  rw [List.append_nil, List.append_nil] at hend
  rw [hend, split, close_reverse]

/-- The words that are not empty come back. -/
theorem split_joined (hblank : ∀ a, blank a = true → quote a = none) {texts : List (List α)}
    {joined : List α} (hjoined : Joined blank texts joined) {words : List (List α)}
    (hwords : List.Forall₂ (Spells blank quote) texts words) :
    split blank quote joined none [] = words.filter (fun w => !w.isEmpty) := by
  induction hjoined generalizing words with
  | nil =>
      cases hwords
      rfl
  | one text =>
      cases hwords with
      | cons hspell hnil =>
          cases hnil
          exact split_of_spells hspell
  | @cons text gap texts joined hne hgap hrest h ih =>
      cases hwords with
      | @cons _ word _ words hspell htail =>
          calc
            split blank quote (text ++ (gap ++ joined)) none []
                = split blank quote (gap ++ joined) none word.reverse := by
                  rw [hspell, List.append_nil]
            _ = close word.reverse ++ split blank quote joined none [] :=
                split_append_of_blank hne (fun a ha => ⟨hgap a ha, hblank a (hgap a ha)⟩) _ _
            _ = [word].filter (fun w => !w.isEmpty) ++ words.filter (fun w => !w.isEmpty) := by
                rw [close_reverse, ih htail]
            _ = (word :: words).filter (fun w => !w.isEmpty) := by
                rw [← List.filter_append, List.singleton_append]

end QuotedWords
