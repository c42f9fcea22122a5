import TrivialInit.Lib.Scanning
import TrivialInit.Properties.EnvironmentLines

/-!
# EnvironmentText — reading back a printed environment

`parse_environment` is a loop over one shared index.  Every pass skips blanks, takes a name up to the
next `=` and then a value, so it takes at least the `=` and the loop ends (`ends_parseEnvironment`).
A pass undoes the printing of one pair, whatever pairs follow it.
-/

namespace TrivialInit

open Scanning (Ends)

/-! ## The loop -/

/-- One pass of the loop of `parse_environment`, on the text that is left and the map; `none` when
the loop stops. -/
def environmentPass (st : List Char × UnorderedMap String String) :
    Option (List Char × UnorderedMap String String) :=
  let raw := st.1.dropWhile isBlank
  match raw.findIdx? (· = '=') with
  | none => none
  | some eq =>
      let (val, rest) := environmentValue (raw.drop (eq + 1))
      some (rest, storePair st.2 (String.ofList (raw.take eq), val))

theorem environmentPass_of_notMem {raw : List Char} (h : '=' ∉ raw.dropWhile isBlank)
    (out : UnorderedMap String String) : environmentPass (raw, out) = none := by
  simp only [environmentPass, findIdx?_eq_none_of_not_mem h]

theorem environmentPass_of_split {raw key rest : List Char}
    (hraw : raw.dropWhile isBlank = key ++ '=' :: rest) (hkey : '=' ∉ key)
    (out : UnorderedMap String String) :
    environmentPass (raw, out) =
      some ((environmentValue rest).2,
        storePair out (String.ofList key, (environmentValue rest).1)) := by
  have hdrop : (key ++ '=' :: rest).drop (key.length + 1) = rest := by
    simp [List.drop_append]
  simp only [environmentPass, hraw, findIdx?_append_cons hkey, hdrop, List.take_left]

/-- A pass takes at least the `=`. -/
theorem environmentPass_length (st st' : List Char × UnorderedMap String String)
    (h : environmentPass st = some st') : st'.1.length < st.1.length := by
  rcases st with ⟨raw, out⟩
  by_cases hmem : '=' ∈ raw.dropWhile isBlank
  · obtain ⟨key, rest, hraw, hkey⟩ := List.eq_append_cons_of_mem hmem
    rw [environmentPass_of_split hraw hkey] at h
    obtain rfl := Option.some.inj h
    have hvalue := environmentValue_length rest
    have hblank := List.length_dropWhile_le isBlank raw
    rw [hraw, List.length_append, List.length_cons] at hblank
    dsimp only
    omega
  · rw [environmentPass_of_notMem hmem] at h
    cases h

theorem ends_parseEnvironmentLoop (fuel : Nat) (raw : List Char) (out : UnorderedMap String String)
    (hfuel : raw.length ≤ fuel) :
    ∃ rest, Ends environmentPass (raw, out) (rest, parseEnvironmentLoop fuel raw out) := by
  induction fuel generalizing raw out with
  | zero =>
      obtain rfl : raw = [] := List.length_eq_zero_iff.mp (Nat.le_zero.mp hfuel)
      exact ⟨[], Ends.of_stop rfl⟩
  | succ fuel ih =>
      by_cases hmem : '=' ∈ raw.dropWhile isBlank
      · obtain ⟨key, rest, hraw, hkey⟩ := List.eq_append_cons_of_mem hmem
        have hpass := environmentPass_of_split hraw hkey out
        have hlen := environmentPass_length _ _ hpass
        obtain ⟨left, hend⟩ := ih _ (storePair out (String.ofList key, (environmentValue rest).1))
          (Nat.le_of_lt_succ (lt_of_lt_of_le hlen hfuel))
        refine ⟨left, ?_⟩
        rw [parseEnvironmentLoop_eq, scanLoop_of_split hraw hkey, List.foldl_cons,
          ← parseEnvironmentLoop_eq]
        exact Ends.of_pass hpass hend
      · refine ⟨raw, ?_⟩
        rw [parseEnvironmentLoop_eq, scanLoop_of_notMem (fuel + 1) hmem]
        exact Ends.of_stop (environmentPass_of_notMem hmem out)

/-- The loop of `parse_environment` ends on every text, with the map that the model gives. -/
theorem ends_parseEnvironment (raw : String) (out : UnorderedMap String String) :
    ∃ rest, Ends environmentPass (raw.toList, out) (rest, parseEnvironment raw out) :=
  ends_parseEnvironmentLoop raw.length raw.toList out (le_of_eq String.length_toList)

/-! ## Printing -/

/-- A pair with the way its value is written, and the blanks that part it from the next pair. -/
structure PrintedPair where
  key : String
  value : String
  quoted : Bool
  blanks : String
  deriving DecidableEq, Repr

/-- Quotes and backslashes are escaped inside quotes. -/
def escapeQuoted (c : Char) : List Char :=
  if c = '"' ∨ c = '\\' then ['\\', c] else [c]

/-- The text of a value. -/
def PrintedPair.valueText (p : PrintedPair) : List Char :=
  if p.quoted then '"' :: p.value.toList.flatMap escapeQuoted ++ ['"'] else p.value.toList

/-- The pairs, with their blanks between them. -/
def environmentText : List PrintedPair → List Char
  | [] => []
  | [p] => p.key.toList ++ '=' :: p.valueText
  | p :: q :: pairs =>
      p.key.toList ++ '=' :: (p.valueText ++ p.blanks.toList ++ environmentText (q :: pairs))

/-- The pairs that can be read back. -/
structure PrintedPair.Readable (p : PrintedPair) : Prop where
  keyNe : p.key ≠ ""
  keyText : '=' ∉ p.key.toList
  keyHead : ∀ c ∈ p.key.toList.head?, isBlank c = false
  bare : p.quoted = false →
    (∀ c ∈ p.value.toList, isBlank c = false) ∧ p.value.toList.head? ≠ some '"'
  blanksNe : p.blanks ≠ ""
  blanksText : ∀ c ∈ p.blanks.toList, isBlank c = true

theorem PrintedPair.readable_iff (p : PrintedPair) :
    (p.key ≠ "" ∧ '=' ∉ p.key.toList ∧ p.key.toList.head?.all (fun c => !isBlank c) = true ∧
      (p.quoted = true ∨ p.value.toList.all (fun c => !isBlank c) = true ∧
        p.value.toList.head? ≠ some '"') ∧
      p.blanks ≠ "" ∧ p.blanks.toList.all isBlank = true) ↔ p.Readable := by
  simp only [Option.all_eq_true, List.all_eq_true, Bool.not_eq_true']
  constructor
  · rintro ⟨hne, htext, hhead, hbare, hblanks, hall⟩
    refine ⟨hne, htext, hhead, ?_, hblanks, hall⟩
    intro hunquoted
    exact hbare.resolve_left (by rw [hunquoted]; exact Bool.false_ne_true)
  · rintro ⟨hne, htext, hhead, hbare, hblanks, hall⟩
    refine ⟨hne, htext, hhead, ?_, hblanks, hall⟩
    cases hquoted : p.quoted
    · exact Or.inr (hbare hquoted)
    · exact Or.inl rfl

instance (p : PrintedPair) : Decidable p.Readable :=
  decidable_of_iff _ p.readable_iff

/-! ## One pair -/

/-- A character of a quoted value, escaped or not, is read as itself. -/
theorem reads_escapeQuoted (c : Char) :
    Scanning.Reads quotedValue (escapeQuoted c) (fun k val => k (c :: val)) := by
  intro rest
  funext val
  unfold escapeQuoted
  split_ifs with hc
  · rfl
  · rw [not_or] at hc
    exact quotedValue_cons hc rest val

theorem quotedValue_escapeQuoted (value rest val : List Char) :
    quotedValue (value.flatMap escapeQuoted ++ '"' :: rest) val = (value.reverse ++ val, rest) := by
  have hread : Scanning.Reads quotedValue (value.flatMap escapeQuoted) _ :=
    Scanning.Reads.flatMap (fun c _ => reads_escapeQuoted c)
  -- The characters come on the accumulator one by one.
  have hfold : ∀ (l val : List Char),
      l.foldr (fun c k val => k (c :: val)) (quotedValue ('"' :: rest)) val =
        (l.reverse ++ val, rest) := by
    intro l
    induction l with
    | nil => exact fun val => rfl
    | cons c l ih =>
        intro val
        rw [List.foldr_cons, ih, List.reverse_cons, List.append_assoc, List.singleton_append]
  rw [hread ('"' :: rest)]
  exact hfold value val

/-- What may follow a value: nothing, or a blank. -/
def EndsValue (rest : List Char) : Prop :=
  ∀ c ∈ rest.head?, isBlank c = true

theorem environmentValue_valueText {p : PrintedPair} (hp : p.Readable) {rest : List Char}
    (hrest : EndsValue rest) : environmentValue (p.valueText ++ rest) = (p.value, rest) := by
  unfold PrintedPair.valueText
  cases hquoted : p.quoted with
  | true =>
      rw [if_pos rfl, List.append_assoc, List.cons_append]
      simp only [environmentValue, List.singleton_append, quotedValue_escapeQuoted,
        List.append_nil, List.reverse_reverse, String.ofList_toList]
  | false =>
      rw [if_neg Bool.false_ne_true]
      obtain ⟨hblank, hhead⟩ := hp.bare hquoted
      have hword : ∀ c ∈ p.value.toList, (!isBlank c) = true := by
        intro c hc
        rw [hblank c hc]
        rfl
      have hbare : (p.value.toList ++ rest).head? ≠ some '"' := by
        cases hvalue : p.value.toList with
        | nil =>
            intro hquote
            exact absurd (hrest '"' hquote) (by decide)
        | cons c value => simpa [hvalue] using hhead
      rw [environmentValue_bare hbare, List.takeWhile_append_of_pos hword,
        List.dropWhile_append_of_pos hword]
      -- The value ends where the blanks begin.
      cases rest with
      | nil => simp
      | cons c rest =>
          have hc : isBlank c = true := hrest c rfl
          simp [hc]

/-- A pass takes the blanks before a pair and the pair. -/
theorem environmentPass_pair {p : PrintedPair} (hp : p.Readable) {blanks rest : List Char}
    (hblanks : ∀ c ∈ blanks, isBlank c = true) (hrest : EndsValue rest)
    (out : UnorderedMap String String) :
    environmentPass (blanks ++ (p.key.toList ++ '=' :: (p.valueText ++ rest)), out) =
      some (rest, out.insert p.key p.value) := by
  have hkey : (p.key.toList ++ '=' :: (p.valueText ++ rest)).dropWhile isBlank =
      p.key.toList ++ '=' :: (p.valueText ++ rest) := by
    cases hchars : p.key.toList with
    | nil => simp [isBlank]
    | cons c key =>
        have hc : isBlank c = false := hp.keyHead c (by rw [hchars]; rfl)
        simp [hc]
  have hraw : (blanks ++ (p.key.toList ++ '=' :: (p.valueText ++ rest))).dropWhile isBlank =
      p.key.toList ++ '=' :: (p.valueText ++ rest) := by
    rw [List.dropWhile_append_of_pos hblanks, hkey]
  rw [environmentPass_of_split hraw hp.keyText, environmentValue_valueText hp hrest,
    String.ofList_toList, storePair, if_neg hp.keyNe]

/-! ## All pairs -/

/-- The map with the pairs inserted in order. -/
def insertPairs (pairs : List PrintedPair) (out : UnorderedMap String String) :
    UnorderedMap String String :=
  (pairs.map (fun p => (p.key, p.value))).foldl (fun m e => m.insert e.1 e.2) out

theorem ends_environmentText {pairs : List PrintedPair} (h : ∀ p ∈ pairs, p.Readable)
    {blanks : List Char} (hblanks : ∀ c ∈ blanks, isBlank c = true)
    (out : UnorderedMap String String) :
    ∃ rest, Ends environmentPass (blanks ++ environmentText pairs, out)
      (rest, insertPairs pairs out) := by
  induction pairs generalizing blanks out with
  | nil =>
      refine ⟨blanks ++ [], Ends.of_stop (environmentPass_of_notMem ?_ out)⟩
      rw [List.dropWhile_append_of_pos hblanks]
      exact List.not_mem_nil
  | cons p pairs ih =>
      have hp := h p List.mem_cons_self
      have hpairs := fun q hq => h q (List.mem_cons_of_mem p hq)
      cases pairs with
      | nil =>
          have hend : EndsValue [] := by simp [EndsValue]
          have hpass := environmentPass_pair hp hblanks hend out
          rw [List.append_nil] at hpass
          exact ⟨[], Ends.of_pass hpass (Ends.of_stop rfl)⟩
      | cons q pairs =>
          -- The blanks behind the pair are skipped by the next pass.
          have hend : EndsValue (p.blanks.toList ++ environmentText (q :: pairs)) := by
            intro c hc
            have hne : p.blanks.toList ≠ [] := by simpa using hp.blanksNe
            rw [List.head?_append_of_ne_nil _ hne] at hc
            exact hp.blanksText c (List.mem_of_mem_head? hc)
          have hpass := environmentPass_pair hp hblanks hend out
          obtain ⟨rest, hrest⟩ := ih hpairs hp.blanksText (out.insert p.key p.value)
          refine ⟨rest, ?_⟩
          rw [environmentText, List.append_assoc]
          exact Ends.of_pass hpass hrest

/-- The value the last pair with the key gives it. -/
def lastValue (pairs : List PrintedPair) (key : String) : Option String :=
  ((pairs.map (fun p => (p.key, p.value))).reverse.find? (fun e => e.1 = key)).map Prod.snd

/-- On a printed list of pairs the loop ends, and it adds exactly the pairs: a key has the value of
its last pair, and a key of no pair keeps what it had. -/
theorem parseEnvironment_printed {pairs : List PrintedPair} (h : ∀ p ∈ pairs, p.Readable)
    (out : UnorderedMap String String) :
    let text := String.ofList (environmentText pairs)
    (∃ rest, Ends environmentPass (text.toList, out) (rest, parseEnvironment text out)) ∧
      ∀ key, (parseEnvironment text out).lookup key = (lastValue pairs key).or (out.lookup key) := by
  intro text
  obtain ⟨rest, hmodel⟩ := ends_parseEnvironment text out
  have hnone : ∀ c ∈ ([] : List Char), isBlank c = true := List.forall_mem_nil _
  obtain ⟨rest', hprinted⟩ := ends_environmentText h hnone out
  have htext : text.toList = environmentText pairs := String.toList_ofList
  rw [List.nil_append, ← htext] at hprinted
  have hsame : parseEnvironment text out = insertPairs pairs out :=
    congrArg Prod.snd (hmodel.unique hprinted)
  refine ⟨⟨rest, hmodel⟩, ?_⟩
  intro key
  rw [hsame, insertPairs, UnorderedMap.lookup_foldl_insert]
  rfl

/-- A key given twice, an empty value, and a quoted value with quotes, a backslash and a blank. -/
def samplePairs : List PrintedPair :=
  [{ key := "A", value := "1", quoted := false, blanks := " \t " },
    { key := "B C", value := "x \"y\\", quoted := true, blanks := " " },
    { key := "A", value := "", quoted := false, blanks := " " },
    { key := "D", value := "a=\"b", quoted := false, blanks := " " }]

example : environmentText samplePairs = "A=1 \t B C=\"x \\\"y\\\\\" A= D=a=\"b".toList := by
  decide

theorem parseEnvironment_printed_sample :
    (parseEnvironment (String.ofList (environmentText samplePairs)) ∅).lookup "B C" =
      some "x \"y\\" := by
  have hreadable : ∀ p ∈ samplePairs, p.Readable := by
    intro p hp
    simp only [samplePairs, List.mem_cons, List.not_mem_nil, or_false] at hp
    rcases hp with rfl | rfl | rfl | rfl <;> decide
  rw [(parseEnvironment_printed hreadable ∅).2 "B C"]
  decide

end TrivialInit
