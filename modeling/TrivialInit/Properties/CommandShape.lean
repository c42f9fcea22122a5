import TrivialInit.Properties.CommandLines
import TrivialInit.Properties.UnitNames

/-!
# CommandShape — how names change the words of a command

Specifiers are expanded before the text is split, so a value with blanks or quotes in it can add,
merge or drop words.  Every character of the expanded text is tagged with the word of the source
text it comes from; splitting does not look at the tags, and they tell which arguments may depend on
the name of the unit.

* Two units get lists of the same shape if every value fits its place (`Fits`).
* All units get lists of the same shape exactly if no specifier depends on the name.
-/

namespace TrivialInit

open QuotedWords (split openAfter Ends Plain)

/-! ## The source text -/

/-- A piece of a text: a character, or a registered specifier. -/
inductive Piece
  | char (c : Char)
  | spec (c : Char)
  deriving DecidableEq, Repr

/-- The pieces the scan of `resolve` takes a text for. -/
def pieces : List Char → List Piece
  | [] => []
  | '%' :: spec :: rest =>
      if spec ∈ specifierChars then .spec spec :: pieces rest
      else .char '%' :: .char spec :: pieces rest
  | c :: rest => .char c :: pieces rest

/-- Every `%` begins a registered specifier. -/
def WellFormed (text : String) : Prop :=
  .char '%' ∉ pieces text.toList

instance (text : String) : Decidable (WellFormed text) :=
  inferInstanceAs (Decidable (_ ∉ _))

/-- A piece with the quote that is open before it in the source text, and the number of the source
word it belongs to. -/
structure PlacedPiece where
  piece : Piece
  quote : Option Char
  word : Nat

def place : List Piece → Option Char → Nat → List PlacedPiece
  | [], _, _ => []
  | .spec s :: rest, q, n => ⟨.spec s, q, n⟩ :: place rest q n
  | .char c :: rest, q, n =>
      ⟨.char c, q, n⟩ ::
        place rest (openAfter quoteOf c q) (if Ends isBlank quoteOf c q then n + 1 else n)

def placed (text : String) : List PlacedPiece :=
  place (pieces text.toList) none 0

/-- Does the source word contain a specifier? -/
def HasSpecifier (text : String) (n : Nat) : Prop :=
  ∃ p ∈ placed text, p.word = n ∧ ∃ s, p.piece = .spec s

/-! ## The expanded text -/

section

variable (info : SystemInfo) (ctx : SpecifierContext)

def Piece.value : Piece → List Char
  | .char c => [c]
  | .spec s => specifierValue info ctx s

/-- The expansion of placed pieces, each character with the source word it comes from. -/
def tagged (ps : List PlacedPiece) : List (Char × Nat) :=
  ps.flatMap (fun p => (p.piece.value info ctx).map (fun c => (c, p.word)))

/-- The words of a list of tagged characters. -/
def splitTagged : List (Char × Nat) → Option Char → List (Char × Nat) → List (List (Char × Nat)) :=
  split (isBlank ∘ Prod.fst) (quoteOf ∘ Prod.fst)

/-- The words of a command line, with the source words their characters come from. -/
def taggedWords (text : String) : List (List (Char × Nat)) :=
  splitTagged (tagged info ctx (placed text)) none []

/-- The command line that is run: the executable and the arguments. -/
def commandLine (text : String) : List String :=
  resolveArgs info ctx (splitExec (resolve info ctx text))

end

/-- The text of a tagged word. -/
def wordText (w : List (Char × Nat)) : String :=
  String.ofList (w.map Prod.fst)

/-- A word without any character of a source word with a specifier. -/
def Clean (text : String) (w : List (Char × Nat)) : Prop :=
  ∀ t ∈ w, ¬ HasSpecifier text t.2

/-- The lines have the same length, and the same clean words of the text. -/
structure SameShape (info : SystemInfo) (ctx₁ ctx₂ : SpecifierContext) (text : String)
    (line₁ line₂ : List String) : Prop where
  length : line₁.length = line₂.length
  clean : ∀ (i : Nat) (w : List (Char × Nat)), (taggedWords info ctx₁ text)[i]? = some w ∨
    (taggedWords info ctx₂ text)[i]? = some w → Clean text w → line₁[i]? = line₂[i]?

/-! ## Tags and texts -/

theorem map_piece_place (ps : List Piece) (q : Option Char) (n : Nat) :
    (place ps q n).map PlacedPiece.piece = ps := by
  induction ps generalizing q n with
  | nil => rfl
  | cons p rest ih => cases p <;> simp [place, ih]

theorem piece_mem_pieces {text : String} {p : PlacedPiece} (hp : p ∈ placed text) :
    p.piece ∈ pieces text.toList := by
  rw [← map_piece_place (pieces text.toList) none 0]
  exact List.mem_map_of_mem hp

theorem resolveChars_eq_flatMap (info : SystemInfo) (ctx : SpecifierContext) (l : List Char) :
    resolveChars info ctx l = (pieces l).flatMap (Piece.value info ctx) := by
  induction l using scanInduction with
  | nil => rfl
  | percent => rfl
  | specifier spec rest hspec ih =>
      rw [resolveChars_specifier info ctx hspec, pieces, if_pos hspec, List.flatMap_cons, ← ih]
      rfl
  | unknown spec rest hspec ih =>
      rw [resolveChars_unknown info ctx hspec, pieces, if_neg hspec, List.flatMap_cons,
        List.flatMap_cons, ← ih]
      rfl
  | other c rest hc ih =>
      rw [resolveChars_cons_of_ne info ctx hc, pieces, List.flatMap_cons, ← ih]
      · rfl
      · intro spec rest' hcons
        exact absurd hcons hc

theorem map_fst_tagged (info : SystemInfo) (ctx : SpecifierContext) (ps : List PlacedPiece) :
    (tagged info ctx ps).map Prod.fst =
      (ps.map PlacedPiece.piece).flatMap (Piece.value info ctx) := by
  unfold tagged
  induction ps with
  | nil => rfl
  | cons p ps ih => simp [Function.comp_def, ih]

/-- The words of the expanded text are the texts of the tagged words. -/
theorem splitExec_resolve (info : SystemInfo) (ctx : SpecifierContext) (text : String) :
    splitExec (resolve info ctx text) = (taggedWords info ctx text).map wordText := by
  have htext : (resolve info ctx text).toList =
      (tagged info ctx (placed text)).map Prod.fst := by
    rw [toList_resolve, resolveChars_eq_flatMap, map_fst_tagged, placed, map_piece_place]
  have hsplit : split isBlank quoteOf ((tagged info ctx (placed text)).map Prod.fst) none [] =
      (taggedWords info ctx text).map (List.map Prod.fst) :=
    QuotedWords.split_map Prod.fst (tagged info ctx (placed text)) none []
  rw [splitExec_eq_split, htext, hsplit, List.map_map]
  rfl

theorem length_commandLine (info : SystemInfo) (ctx : SpecifierContext) (text : String) :
    (commandLine info ctx text).length = (taggedWords info ctx text).length := by
  rw [commandLine, splitExec_resolve]
  cases taggedWords info ctx text <;> simp [resolveArgs]

theorem getElem?_resolveArgs {info : SystemInfo} {ctx : SpecifierContext} {words : List String}
    {i : Nat} {w : String} (hw : words[i]? = some w) (hres : resolve info ctx w = w) :
    (resolveArgs info ctx words)[i]? = some w := by
  cases words with
  | nil => simp at hw
  | cons execPath args =>
      -- The executable is not expanded again.
      cases i with
      | zero => exact hw
      | succ i =>
          rw [List.getElem?_cons_succ] at hw
          rw [resolveArgs, List.getElem?_cons_succ, List.getElem?_map, hw, Option.map_some, hres]

/-- The characters of a clean word stand in the source text. -/
theorem percent_not_mem_of_clean {info : SystemInfo} {ctx : SpecifierContext} {text : String}
    (hwell : WellFormed text) {w : List (Char × Nat)} (hw : w ∈ taggedWords info ctx text)
    (hclean : Clean text w) : '%' ∉ w.map Prod.fst := by
  intro hpercent
  rcases List.mem_map.mp hpercent with ⟨t, ht, hchar⟩
  have htagged : t ∈ tagged info ctx (placed text) := by
    rcases QuotedWords.mem_of_mem_split ht _ _ _ hw with h | h
    · exact h
    · cases h
  rcases List.mem_flatMap.mp htagged with ⟨p, hp, hvalue⟩
  rcases List.mem_map.mp hvalue with ⟨c, hc, rfl⟩
  cases hpiece : p.piece with
  | spec s => exact hclean _ ht ⟨p, hp, rfl, s, hpiece⟩
  | char d =>
      rw [hpiece] at hc
      obtain rfl : c = d := List.mem_singleton.mp hc
      obtain rfl : c = '%' := hchar
      -- The source text has no literal percent sign.
      apply hwell
      rw [← hpiece]
      exact piece_mem_pieces hp

/-- A clean word is passed on as it stands in the source text. -/
theorem getElem?_commandLine_of_clean {info : SystemInfo} {ctx : SpecifierContext} {text : String}
    (hwell : WellFormed text) {i : Nat} {w : List (Char × Nat)}
    (hw : (taggedWords info ctx text)[i]? = some w) (hclean : Clean text w) :
    (commandLine info ctx text)[i]? = some (wordText w) := by
  apply getElem?_resolveArgs
  · rw [splitExec_resolve, List.getElem?_map, hw, Option.map_some]
  · apply resolve_of_specifiersIn_eq_nil
    apply specifiersIn_of_not_mem
    rw [wordText, String.toList_ofList]
    exact percent_not_mem_of_clean hwell (List.mem_of_getElem? hw) hclean

/-! ## Values that fit their places -/

/-- Two words of the same source word, equal unless it has a specifier. -/
structure Matches (dirty : Nat → Prop) (w₁ w₂ : List (Char × Nat)) : Prop where
  word : ∃ n, (∀ t ∈ w₁, t.2 = n) ∧ (∀ t ∈ w₂, t.2 = n) ∧ (dirty n ∨ w₁ = w₂)
  left : w₁ ≠ []
  right : w₂ ≠ []

theorem Matches.symm {dirty : Nat → Prop} {w₁ w₂ : List (Char × Nat)} (h : Matches dirty w₁ w₂) :
    Matches dirty w₂ w₁ := by
  rcases h.word with ⟨n, h₁, h₂, hsame⟩
  exact ⟨⟨n, h₂, h₁, hsame.imp_right Eq.symm⟩, h.right, h.left⟩

theorem Matches.eq_of_clean {text : String} {w₁ w₂ : List (Char × Nat)}
    (h : Matches (HasSpecifier text) w₁ w₂) (hclean : Clean text w₁) : w₁ = w₂ := by
  rcases h.word with ⟨n, hn, -, hdirty | hsame⟩
  · obtain ⟨t, ht⟩ := List.exists_mem_of_ne_nil w₁ h.left
    have hspec : HasSpecifier text t.2 := by rwa [hn t ht]
    exact absurd hspec (hclean t ht)
  · exact hsame

/-- The words read so far in two runs that stand in the same source word. -/
structure InStep (dirty : Nat → Prop) (n : Nat) (w₁ w₂ : List (Char × Nat)) : Prop where
  left : ∀ t ∈ w₁, t.2 = n
  right : ∀ t ∈ w₂, t.2 = n
  nil : w₁ = [] ↔ w₂ = []
  same : dirty n ∨ w₁ = w₂

theorem InStep.init (dirty : Nat → Prop) (n : Nat) : InStep dirty n [] [] :=
  ⟨by simp, by simp, Iff.rfl, Or.inr rfl⟩

theorem InStep.close {dirty : Nat → Prop} {n : Nat} {w₁ w₂ : List (Char × Nat)}
    (h : InStep dirty n w₁ w₂) :
    List.Forall₂ (Matches dirty) (QuotedWords.close w₁) (QuotedWords.close w₂) := by
  cases w₁ with
  | nil =>
      obtain rfl := h.nil.mp rfl
      exact List.Forall₂.nil
  | cons t w₁ =>
      cases w₂ with
      | nil => exact absurd (h.nil.mpr rfl) (by simp)
      | cons u w₂ =>
          refine List.Forall₂.cons ⟨⟨n, ?_, ?_, ?_⟩, by simp, by simp⟩ List.Forall₂.nil
          · intro t' ht'
            exact h.left t' (List.mem_reverse.mp ht')
          · intro u' hu'
            exact h.right u' (List.mem_reverse.mp hu')
          · exact h.same.imp_right (fun heq => by rw [heq])

/-- The same character goes into both words. -/
theorem InStep.cons {dirty : Nat → Prop} {n : Nat} {w₁ w₂ : List (Char × Nat)}
    (h : InStep dirty n w₁ w₂) (c : Char) : InStep dirty n ((c, n) :: w₁) ((c, n) :: w₂) where
  left := List.forall_mem_cons.mpr ⟨rfl, h.left⟩
  right := List.forall_mem_cons.mpr ⟨rfl, h.right⟩
  nil := by simp
  same := h.same.imp_right (fun heq => by rw [heq])

theorem snd_of_mem_values {v : List Char} {n : Nat} {w : List (Char × Nat)}
    (h : ∀ t ∈ w, t.2 = n) : ∀ t ∈ (v.map (fun c => (c, n))).reverse ++ w, t.2 = n := by
  intro t ht
  rcases List.mem_append.mp ht with ht | ht
  · rcases List.mem_map.mp (List.mem_reverse.mp ht) with ⟨c, -, rfl⟩
    rfl
  · exact h t ht

/-- Values of a specifier go into both words. -/
theorem InStep.values {dirty : Nat → Prop} {n : Nat} {w₁ w₂ : List (Char × Nat)}
    (h : InStep dirty n w₁ w₂) (hdirty : dirty n) {v₁ v₂ : List Char} (hnil : v₁ = [] ↔ v₂ = []) :
    InStep dirty n ((v₁.map (fun c => (c, n))).reverse ++ w₁)
      ((v₂.map (fun c => (c, n))).reverse ++ w₂) where
  left := snd_of_mem_values h.left
  right := snd_of_mem_values h.right
  nil := by
    simp only [List.append_eq_nil_iff, List.reverse_eq_nil_iff, List.map_eq_nil_iff, hnil, h.nil]
  same := Or.inl hdirty

/-- The value of a specifier is read as one piece of text in each run, and is empty in both or in
neither. -/
structure FitsPlace (info : SystemInfo) (ctx₁ ctx₂ : SpecifierContext) (p : PlacedPiece) (s : Char) :
    Prop where
  left : ∀ c ∈ specifierValue info ctx₁ s, Plain isBlank quoteOf c p.quote
  right : ∀ c ∈ specifierValue info ctx₂ s, Plain isBlank quoteOf c p.quote
  nil : specifierValue info ctx₁ s = [] ↔ specifierValue info ctx₂ s = []

/-- Every value fits its place. -/
def Fits (info : SystemInfo) (ctx₁ ctx₂ : SpecifierContext) (ps : List PlacedPiece) : Prop :=
  ∀ p ∈ ps, ∀ s, p.piece = .spec s → FitsPlace info ctx₁ ctx₂ p s

theorem splitTagged_values {v : List Char} {q : Option Char} {n : Nat}
    (hplain : ∀ c ∈ v, Plain isBlank quoteOf c q) (rest word : List (Char × Nat)) :
    splitTagged (v.map (fun c => (c, n)) ++ rest) q word =
      splitTagged rest q ((v.map (fun c => (c, n))).reverse ++ word) := by
  apply QuotedWords.split_append_of_plain
  intro t ht
  rcases List.mem_map.mp ht with ⟨c, hc, rfl⟩
  exact hplain c hc

theorem splitTagged_char (c : Char) (q : Option Char) (n : Nat) (rest word : List (Char × Nat)) :
    splitTagged ((c, n) :: rest) q word =
      (if Ends isBlank quoteOf c q then QuotedWords.close word else []) ++
        splitTagged rest (openAfter quoteOf c q)
          (if Plain isBlank quoteOf c q then (c, n) :: word
            else if Ends isBlank quoteOf c q then [] else word) := rfl

/-- Splitting two expansions side by side: both runs are always in the same source word, with the
same quote open. -/
theorem forall₂_splitTagged {info : SystemInfo} {ctx₁ ctx₂ : SpecifierContext} {dirty : Nat → Prop}
    (ps : List Piece) (q : Option Char) (n : Nat) {w₁ w₂ : List (Char × Nat)}
    (hfits : Fits info ctx₁ ctx₂ (place ps q n))
    (hdirty : ∀ p ∈ place ps q n, ∀ s, p.piece = .spec s → dirty p.word)
    (h : InStep dirty n w₁ w₂) :
    List.Forall₂ (Matches dirty) (splitTagged (tagged info ctx₁ (place ps q n)) q w₁)
      (splitTagged (tagged info ctx₂ (place ps q n)) q w₂) := by
  induction ps generalizing q n w₁ w₂ with
  | nil => exact h.close
  | cons p rest ih =>
      cases p with
      | spec s =>
          rw [place] at hfits hdirty ⊢
          have hplace := hfits _ List.mem_cons_self s rfl
          rw [tagged, tagged, List.flatMap_cons, List.flatMap_cons, Piece.value, Piece.value,
            splitTagged_values hplace.left, splitTagged_values hplace.right]
          apply ih
          · exact fun p hp => hfits p (List.mem_cons_of_mem _ hp)
          · exact fun p hp => hdirty p (List.mem_cons_of_mem _ hp)
          -- The values differ, but both go into the word as a whole.
          · exact h.values (hdirty _ List.mem_cons_self s rfl) hplace.nil
      | char c =>
          rw [place] at hfits hdirty ⊢
          rw [tagged, tagged, List.flatMap_cons, List.flatMap_cons, Piece.value, Piece.value,
            List.map_singleton, List.singleton_append, List.singleton_append, splitTagged_char,
            splitTagged_char]
          have hfits' := fun p hp => hfits p (List.mem_cons_of_mem _ hp)
          have hdirty' := fun p hp => hdirty p (List.mem_cons_of_mem _ hp)
          -- A literal character is the same in both runs, and so is what it does.
          by_cases hends : Ends isBlank quoteOf c q
          · have hplain : ¬ Plain isBlank quoteOf c q :=
              fun hplain => QuotedWords.not_ends_of_plain hplain hends
            simp only [if_pos hends, if_neg hplain] at hfits' hdirty' ⊢
            exact List.rel_append h.close (ih _ _ hfits' hdirty' (InStep.init dirty (n + 1)))
          · simp only [if_neg hends, List.nil_append] at hfits' hdirty' ⊢
            apply ih _ _ hfits' hdirty'
            split_ifs with hplain
            · exact h.cons c
            · exact h

theorem exists_getElem?_of_forall₂ {α β : Type*} {r : α → β → Prop} {l₁ : List α} {l₂ : List β}
    (h : List.Forall₂ r l₁ l₂) {i : Nat} {a : α} (ha : l₁[i]? = some a) :
    ∃ b, l₂[i]? = some b ∧ r a b := by
  obtain ⟨hi, rfl⟩ := List.getElem?_eq_some_iff.mp ha
  have hi' : i < l₂.length := h.length_eq ▸ hi
  exact ⟨l₂[i], List.getElem?_eq_getElem hi', h.get hi hi'⟩

theorem getElem?_commandLine_eq {info : SystemInfo} {ctx₁ ctx₂ : SpecifierContext} {text : String}
    (hwell : WellFormed text)
    (hwords : List.Forall₂ (Matches (HasSpecifier text)) (taggedWords info ctx₁ text)
      (taggedWords info ctx₂ text))
    {i : Nat} {w : List (Char × Nat)} (hw : (taggedWords info ctx₁ text)[i]? = some w)
    (hclean : Clean text w) :
    (commandLine info ctx₁ text)[i]? = (commandLine info ctx₂ text)[i]? := by
  obtain ⟨w', hw', hmatch⟩ := exists_getElem?_of_forall₂ hwords hw
  obtain rfl := hmatch.eq_of_clean hclean
  rw [getElem?_commandLine_of_clean hwell hw hclean,
    getElem?_commandLine_of_clean hwell hw' hclean]

/-- If every value fits its place, both units get command lines of the same shape. -/
theorem sameShape_of_fits {info : SystemInfo} {ctx₁ ctx₂ : SpecifierContext} {text : String}
    (hwell : WellFormed text) (hfits : Fits info ctx₁ ctx₂ (placed text)) :
    SameShape info ctx₁ ctx₂ text (commandLine info ctx₁ text) (commandLine info ctx₂ text) := by
  have hwords : List.Forall₂ (Matches (HasSpecifier text)) (taggedWords info ctx₁ text)
      (taggedWords info ctx₂ text) :=
    forall₂_splitTagged _ none 0 hfits (fun p hp s hs => ⟨p, hp, rfl, s, hs⟩) (InStep.init _ 0)
  have hback := hwords.flip.imp (fun _ _ h => Matches.symm h)
  refine ⟨by rw [length_commandLine, length_commandLine, hwords.length_eq], ?_⟩
  rintro i w (hw | hw) hclean
  · exact getElem?_commandLine_eq hwell hwords hw hclean
  · exact (getElem?_commandLine_eq hwell hback hw hclean).symm

/-! ## Specifiers that depend on the name -/

/-- The specifiers that read the name of the unit. -/
def nameSpecifiers : List Char :=
  ['n', 'N', 'p', 'P', 'i', 'I', 'f', 'j', 'J']

/-- No specifier of the text reads the name of the unit. -/
def NameFree (text : String) : Prop :=
  ∀ s ∈ specifiersIn text.toList, s ∉ nameSpecifiers

instance (text : String) : Decidable (NameFree text) :=
  List.decidableBAll (fun s => s ∉ nameSpecifiers) (specifiersIn text.toList)

theorem specifierValue_of_not_mem {s : Char} (hs : s ∉ nameSpecifiers) (info : SystemInfo)
    (ctx₁ ctx₂ : SpecifierContext) : specifierValue info ctx₁ s = specifierValue info ctx₂ s := by
  unfold specifierValue
  congr 2
  unfold resolver?
  split <;> first | exact absurd (by decide) hs | rfl

theorem spec_mem_pieces_iff {s : Char} (l : List Char) :
    .spec s ∈ pieces l ↔ s ∈ specifiersIn l := by
  induction l using scanInduction with
  | nil => simp [pieces, specifiersIn]
  | percent => simp [pieces, specifiersIn]
  | specifier spec rest hspec ih => simp [pieces, specifiersIn, hspec, ih]
  | unknown spec rest hspec ih => simp [pieces, specifiersIn, hspec, ih]
  | other c rest hc ih => simp [pieces, hc, ih]

theorem tagged_of_nameFree {text : String} (hfree : NameFree text) (info : SystemInfo)
    (ctx₁ ctx₂ : SpecifierContext) :
    tagged info ctx₁ (placed text) = tagged info ctx₂ (placed text) := by
  apply List.flatMap_congr
  intro p hp
  have hpiece := piece_mem_pieces hp
  cases hspec : p.piece with
  | char c => rfl
  | spec s =>
      rw [hspec, spec_mem_pieces_iff] at hpiece
      rw [Piece.value, Piece.value, specifierValue_of_not_mem (hfree s hpiece) info ctx₁ ctx₂]

theorem sameShape_of_nameFree {text : String} (hwell : WellFormed text) (hfree : NameFree text)
    (info : SystemInfo) (ctx₁ ctx₂ : SpecifierContext) :
    SameShape info ctx₁ ctx₂ text (commandLine info ctx₁ text) (commandLine info ctx₂ text) := by
  have hwords : taggedWords info ctx₁ text = taggedWords info ctx₂ text := by
    rw [taggedWords, taggedWords, tagged_of_nameFree hfree info ctx₁ ctx₂]
  refine ⟨by rw [length_commandLine, length_commandLine, hwords], ?_⟩
  intro i w hw hclean
  rw [hwords, or_self] at hw
  rw [getElem?_commandLine_of_clean hwell hw hclean, getElem?_commandLine_of_clean hwell
    (by rwa [hwords]) hclean]

/-! ## A name that adds words -/

/-- Ends a word, whatever quote is open. -/
def breaker : List Char :=
  ['x', ' ', '"', 'x', ' ', '\'', 'x', ' ']

def breakers (k : Nat) : List Char :=
  (List.replicate k breaker).flatten

/-- A unit name with a prefix and an instance of `k` breakers. -/
def breakerName (k : Nat) : String :=
  String.ofList (breakers k ++ '@' :: breakers k ++ '.' :: "service".toList)

theorem mem_breaker_of_mem_breakers {c : Char} {k : Nat} (h : c ∈ breakers k) : c ∈ breaker := by
  rcases List.mem_flatten.mp h with ⟨l, hl, hc⟩
  rwa [List.eq_of_mem_replicate hl] at hc

/-- A quote that `split_exec` knows is open, or none. -/
def KnownQuote (q : Option Char) : Prop :=
  ∀ k, q = some k → k = '"' ∨ k = '\''

theorem exists_split_breaker {q : Option Char} (hq : KnownQuote q) (word : List Char) :
    ∃ w q' word', KnownQuote q' ∧
      ∀ rest, split isBlank quoteOf (breaker ++ rest) q word =
        w :: split isBlank quoteOf rest q' word' := by
  cases q with
  | none =>
      -- The first blank ends a word, and the double quote stays open.
      refine ⟨('x' :: word).reverse, some '"', [' ', 'x', '\'', ' ', 'x'], ?_, fun rest => rfl⟩
      rintro k ⟨⟩
      exact Or.inl rfl
  | some c =>
      rcases hq c rfl with rfl | rfl
      -- The quote that is open is closed by its own kind, and the next blank ends a word.
      · refine ⟨('x' :: ' ' :: 'x' :: word).reverse, some '\'', [' ', 'x'], ?_, fun rest => rfl⟩
        rintro k ⟨⟩
        exact Or.inr rfl
      · refine ⟨('x' :: ' ' :: 'x' :: '"' :: ' ' :: 'x' :: word).reverse, none, [], ?_,
          fun rest => rfl⟩
        rintro k ⟨⟩

theorem le_length_split_breakers (k : Nat) {q : Option Char} (hq : KnownQuote q)
    (rest word : List Char) :
    k ≤ (split isBlank quoteOf (breakers k ++ rest) q word).length := by
  induction k generalizing q word with
  | zero => exact Nat.zero_le _
  | succ k ih =>
      obtain ⟨w, q', word', hq', hsplit⟩ := exists_split_breaker hq word
      -- Behind a breaker a known quote is open again, so the induction goes on from any of them.
      have hlist : breakers (k + 1) ++ rest = breaker ++ (breakers k ++ rest) := by
        simp [breakers, List.replicate_succ]
      rw [hlist, hsplit, List.length_cons]
      exact Nat.succ_le_succ (ih hq' word')

theorem unescapeChars_of_not_mem {l : List Char} (h : '\\' ∉ l) : unescapeChars l = l := by
  induction l with
  | nil => rfl
  | cons c rest ih =>
      rw [List.mem_cons, not_or] at h
      rw [unescapeChars, ih h.2]
      rintro a b rest' rfl
      exact absurd rfl h.1

theorem not_mem_breakers {c : Char} (hc : c ∉ breaker) (k : Nat) : c ∉ breakers k :=
  fun h => hc (mem_breaker_of_mem_breakers h)

/-- Every value that depends on the name has the breakers in it. -/
theorem exists_specifierValue_breakerName {s : Char} (hs : s ∈ nameSpecifiers) (info : SystemInfo)
    (path : String) (k : Nat) :
    ∃ pre post, specifierValue info (SpecifierContext.ofUnit (breakerName k) path) s =
      pre ++ breakers k ++ post := by
  have hname : breakerName k =
      String.ofList (breakers k ++ '@' :: (breakers k ++ '.' :: "service".toList)) := by
    rw [breakerName, List.append_assoc, List.cons_append]
  have hctx := ofUnit_template (not_mem_breakers (c := '@') (by decide) k)
    (t := "service".toList) (by decide) (breakers k) path
  have hback : '\\' ∉ breakers k := not_mem_breakers (by decide) k
  have hunescape := unescapeChars_of_not_mem hback
  have hcomponent : rfindChar (String.ofList (breakers k)) '-' = none :=
    rfindChar_eq_none (not_mem_breakers (by decide) k)
  rw [hname, hctx]
  simp only [nameSpecifiers, List.mem_cons, List.not_mem_nil, or_false] at hs
  -- `%n` and `%N` are the whole name; the others are the prefix or the instance.
  rcases hs with rfl | rfl | rfl | rfl | rfl | rfl | rfl | rfl | rfl
  · exact ⟨[], '@' :: (breakers k ++ '.' :: "service".toList),
      by simp [specifierValue, resolver?]⟩
  · have hwhole := unescapeChars_of_not_mem
      (l := breakers k ++ '@' :: (breakers k ++ '.' :: "service".toList)) (by simp [hback])
    refine ⟨[], '@' :: (breakers k ++ '.' :: "service".toList), ?_⟩
    rw [specifierValue, resolver?, Option.getD_some, unitNameUnescape, String.toList_ofList,
      String.toList_ofList, hwhole, List.nil_append]
  · exact ⟨[], [], by simp [specifierValue, resolver?]⟩
  · exact ⟨[], [], by simp [specifierValue, resolver?, unitNameUnescape, hunescape]⟩
  · exact ⟨[], [], by simp [specifierValue, resolver?]⟩
  · exact ⟨[], [], by simp [specifierValue, resolver?, unitNameUnescape, hunescape]⟩
  · by_cases hnil : String.ofList (breakers k) = ""
    · have hlist : breakers k = [] := by simpa using hnil
      exact ⟨[], [], by simp [specifierValue, resolver?, hlist]⟩
    · exact ⟨['/'], [], by simp [specifierValue, resolver?, unitNameUnescape, hunescape, hnil]⟩
  · exact ⟨[], [], by simp [specifierValue, resolver?, SpecifierContext.lastComponent, hcomponent]⟩
  · exact ⟨[], [], by simp [specifierValue, resolver?, SpecifierContext.lastComponent, hcomponent,
      unitNameUnescape, hunescape]⟩

theorem exists_resolveChars_eq {s : Char} (info : SystemInfo) (ctx : SpecifierContext)
    {l : List Char} (hs : s ∈ specifiersIn l) :
    ∃ pre post, resolveChars info ctx l = pre ++ specifierValue info ctx s ++ post := by
  have hpiece := (spec_mem_pieces_iff l).mpr hs
  obtain ⟨before, after, hsplit⟩ := List.append_of_mem hpiece
  refine ⟨before.flatMap (Piece.value info ctx), after.flatMap (Piece.value info ctx), ?_⟩
  rw [resolveChars_eq_flatMap, hsplit, List.flatMap_append, List.flatMap_cons, Piece.value,
    List.append_assoc]

/-- Whatever has been read, a known quote is open, or none. -/
theorem exists_split_prefix (piece : List Char) :
    ∃ front q word, KnownQuote q ∧ ∀ rest, split isBlank quoteOf (piece ++ rest) none [] =
      front ++ split isBlank quoteOf rest q word := by
  obtain ⟨front, q, word, hq, hsplit⟩ :=
    @QuotedWords.exists_split_append Char Char _ isBlank quoteOf piece none []
  refine ⟨front, q, word, ?_, hsplit⟩
  intro c hc
  rcases hq c hc with h | ⟨a, -, ha⟩
  · cases h
  · obtain ⟨h, rfl⟩ := quoteOf_eq_some_iff.mp ha
    exact h

/-- A specifier that depends on the name lets a unit add as many words as it wants. -/
theorem le_length_commandLine {text : String} {s : Char} (hs : s ∈ specifiersIn text.toList)
    (hname : s ∈ nameSpecifiers) (info : SystemInfo) (path : String) (k : Nat) :
    k ≤ (commandLine info (SpecifierContext.ofUnit (breakerName k) path) text).length := by
  obtain ⟨pre, post, hresolve⟩ :=
    exists_resolveChars_eq info (SpecifierContext.ofUnit (breakerName k) path) hs
  obtain ⟨pre', post', hvalue⟩ := exists_specifierValue_breakerName hname info path k
  obtain ⟨front, q, word, hknown, hsplit⟩ := exists_split_prefix (pre ++ pre')
  have hlist : (resolve info (SpecifierContext.ofUnit (breakerName k) path) text).toList =
      (pre ++ pre') ++ (breakers k ++ (post' ++ post)) := by
    rw [toList_resolve, hresolve, hvalue]
    simp only [List.append_assoc]
  -- The breakers cut their words whatever stands before and behind them.
  have hwords := le_length_split_breakers k hknown (post' ++ post) word
  rw [length_commandLine, ← List.length_map wordText, ← splitExec_resolve, splitExec_eq_split,
    hlist, hsplit, List.length_map, List.length_append]
  omega

theorem wellFormed_stripDash {text : String} (hwell : WellFormed text) :
    WellFormed (stripDash text).2 := by
  rcases stripDash_cases text with ⟨-, hlist⟩ | ⟨-, hcmd⟩
  · have hpieces : pieces text.toList = .char '-' :: pieces (stripDash text).2.toList := by
      rw [hlist, pieces]
      intro spec rest hcons
      exact absurd hcons (by decide)
    intro hpercent
    apply hwell
    rw [hpieces]
    exact List.mem_cons_of_mem _ hpercent
  · rwa [hcmd]

namespace InitSystem

/-- A call of `start_service` for the unit that gets behind the `ExecStartPre=` commands passes on
these command lines: one, or none when the text has no word. -/
def Passes (info : SystemInfo) (name : String) (unit : UnitFile) (lines : List (List String)) :
    Prop :=
  ∃ (s s' : InitSystem) (os : StartAnswers) (pid : Option Pid),
    os.info = info ∧ s.startService name unit os = some (pid, s') ∧
      (runStartPre info name unit unit.execStartPre os.pre s).1 = none ∧
      lines = (passedCommands s s').map (fun words => words.1 :: words.2)

theorem Passes.eq_commandLine {info : SystemInfo} {name : String} {unit : UnitFile}
    {lines : List (List String)} (h : Passes info name unit lines) :
    lines = [commandLine info (SpecifierContext.ofUnit name unit.path)
      (stripDash unit.execStart).2].filter (fun line => line ≠ []) := by
  obtain ⟨s, s', os, pid, rfl, hstart, hpre, rfl⟩ := h
  have hcommand : startedCommand name unit os =
      headArgs (commandLine os.info (SpecifierContext.ofUnit name unit.path)
        (stripDash unit.execStart).2) := by
    rw [runStartPre_eq] at hpre
    unfold startedCommand commandLine
    dsimp only at hpre ⊢
    rw [hpre, commandWords_eq]
    split_ifs with hexec
    · rw [hexec]
      rfl
    · rfl
  rw [passedCommands_startService hstart, hcommand]
  cases commandLine os.info (SpecifierContext.ofUnit name unit.path) (stripDash unit.execStart).2 <;>
    rfl

/-- Without a `RuntimeDirectory=` and `ExecStartPre=` nothing keeps the command line from being
passed on. -/
theorem passes_commandLine (info : SystemInfo) (name path text : String)
    (hline : commandLine info (SpecifierContext.ofUnit name path) (stripDash text).2 ≠ []) :
    Passes info name { name := name, path := path, execStart := text }
      [commandLine info (SpecifierContext.ofUnit name path) (stripDash text).2] := by
  let unit : UnitFile := { name := name, path := path, execStart := text }
  let os : StartAnswers := { info := info, forked := .error "" }
  have hstart : startService {} name unit os = some (startCommands {} name unit os) := rfl
  have hpasses : Passes info name unit
      ((passedCommands {} (startCommands {} name unit os).2).map (fun words => words.1 :: words.2)) :=
    ⟨{}, _, os, _, rfl, hstart, rfl, rfl⟩
  have hlines := hpasses.eq_commandLine
  rw [List.filter_cons_of_pos (by simpa using hline), List.filter_nil] at hlines
  exact hlines ▸ hpasses

/-- Whatever unit has this `ExecStart=`: under the two names `start_service` passes on command lines
of one shape, or none under both. -/
def KeepsShape (info : SystemInfo) (text name₁ path₁ name₂ path₂ : String) : Prop :=
  ∀ (unit : UnitFile) (lines₁ lines₂ : List (List String)), unit.execStart = text →
    Passes info name₁ { unit with name := name₁, path := path₁ } lines₁ →
    Passes info name₂ { unit with name := name₂, path := path₂ } lines₂ →
    List.Forall₂ (SameShape info (SpecifierContext.ofUnit name₁ path₁)
      (SpecifierContext.ofUnit name₂ path₂) (stripDash text).2) lines₁ lines₂

theorem keepsShape_of_sameShape {info : SystemInfo} {text name₁ path₁ name₂ path₂ : String}
    (h : SameShape info (SpecifierContext.ofUnit name₁ path₁) (SpecifierContext.ofUnit name₂ path₂)
      (stripDash text).2
      (commandLine info (SpecifierContext.ofUnit name₁ path₁) (stripDash text).2)
      (commandLine info (SpecifierContext.ofUnit name₂ path₂) (stripDash text).2)) :
    KeepsShape info text name₁ path₁ name₂ path₂ := by
  rintro unit lines₁ lines₂ rfl h₁ h₂
  rw [h₁.eq_commandLine, h₂.eq_commandLine]
  have hempty : commandLine info (SpecifierContext.ofUnit name₁ path₁)
        (stripDash unit.execStart).2 = [] ↔
      commandLine info (SpecifierContext.ofUnit name₂ path₂) (stripDash unit.execStart).2 = [] := by
    rw [← List.length_eq_zero_iff, ← List.length_eq_zero_iff, h.length]
  by_cases hnone : commandLine info (SpecifierContext.ofUnit name₁ path₁)
      (stripDash unit.execStart).2 = []
  · simp [hnone, hempty.mp hnone]
  · simpa [hnone, mt hempty.mpr hnone] using h

/-- A specifier that reads the name lets one unit have more words than another. -/
theorem nameFree_of_keepsShape {text : String} {info : SystemInfo}
    (h : ∀ name₁ path₁ name₂ path₂, KeepsShape info text name₁ path₁ name₂ path₂) :
    NameFree (stripDash text).2 := by
  intro s hs hname
  let line (k : Nat) : List String :=
    commandLine info (SpecifierContext.ofUnit (breakerName k) "") (stripDash text).2
  have hmany : ∀ k, k ≤ (line k).length := le_length_commandLine hs hname info ""
  have hpasses : ∀ k, 0 < k →
      Passes info (breakerName k) { execStart := text, name := breakerName k } [line k] := by
    intro k hk
    apply passes_commandLine
    exact List.ne_nil_of_length_pos (hk.trans_le (hmany k))
  -- One breaker more than the other unit has words.
  let n := (line 1).length
  have hshape := h (breakerName (n + 1)) "" (breakerName 1) "" { execStart := text } _ _ rfl
    (hpasses (n + 1) n.succ_pos) (hpasses 1 Nat.one_pos)
  have hlonger := hmany (n + 1)
  rw [(List.forall₂_cons.mp hshape).1.length] at hlonger
  omega

/-- The names of two units never change the shape of a command line exactly if no specifier of the
text reads the name.  For two given names it is enough that the values fit their places. -/
theorem startService_sameShape_iff {text : String} (hwell : WellFormed text) (info : SystemInfo) :
    ((∀ name₁ path₁ name₂ path₂, KeepsShape info text name₁ path₁ name₂ path₂) ↔
        NameFree (stripDash text).2) ∧
      ∀ name₁ path₁ name₂ path₂,
        Fits info (SpecifierContext.ofUnit name₁ path₁) (SpecifierContext.ofUnit name₂ path₂)
          (placed (stripDash text).2) →
        KeepsShape info text name₁ path₁ name₂ path₂ := by
  have hcmd := wellFormed_stripDash hwell
  exact ⟨⟨nameFree_of_keepsShape,
    fun hfree _ _ _ _ => keepsShape_of_sameShape (sameShape_of_nameFree hcmd hfree info _ _)⟩,
    fun _ _ _ _ hfits => keepsShape_of_sameShape (sameShape_of_fits hcmd hfits)⟩

theorem startService_sameShape_iff_sample :
    let info : SystemInfo := { hostname := "box" }
    let text := "-/usr/bin/show --title '%H %t'"
    KeepsShape info text "a@x.service" "/etc/a@x.service" "b@.service" "/etc/b@.service" ∧
      Passes info "a@x.service"
        { name := "a@x.service", path := "/etc/a@x.service", execStart := text }
        [["/usr/bin/show", "--title", "box /run"]] := by
  intro info text
  have hwell : WellFormed text := by decide +kernel
  have hshape := startService_sameShape_iff hwell info
  refine ⟨hshape.1.mpr (by decide +kernel) _ _ _ _, ?_⟩
  have hpasses := passes_commandLine info "a@x.service" "/etc/a@x.service" text
    (by decide +kernel)
  have hline : commandLine info (SpecifierContext.ofUnit "a@x.service" "/etc/a@x.service")
      (stripDash text).2 = ["/usr/bin/show", "--title", "box /run"] := by
    decide +kernel
  rwa [hline] at hpasses

/-- An instance name that unescapes to a blank adds an argument. -/
theorem startService_not_sameShape :
    ¬ ∀ (text : String) (info : SystemInfo) (name₁ path₁ name₂ path₂ : String), WellFormed text →
      KeepsShape info text name₁ path₁ name₂ path₂ := by
  intro h
  have hshape := h "/usr/bin/show %I" {} "show@a.service" "/etc/show@a.service"
    "show@a\\x20b.service" "/etc/show@a\\x20b.service" (by decide +kernel)
    { execStart := "/usr/bin/show %I" } _ _ rfl
    (passes_commandLine {} _ _ _ (by decide +kernel))
    (passes_commandLine {} _ _ _ (by decide +kernel))
  have hlength := (List.forall₂_cons.mp hshape).1.length
  revert hlength
  decide +kernel

end InitSystem

end TrivialInit
