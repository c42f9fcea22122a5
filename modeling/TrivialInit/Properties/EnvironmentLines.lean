import TrivialInit.Properties.UnitFields

/-!
# EnvironmentLines — repeated `Environment=` lines

`parse_ini` joins the values of repeated `Environment=` lines with `\x1f`, which `parse_environment`
does not take for a separator.  What happens at the boundary depends on how the earlier line ends:
an open value (bare, or quoted without closing quote) runs on into the next line, and after a closed
value the next name begins with `\x1f`.

`executeUnitParse_environment_iff` gives the lists of lines for which the boundary does no harm.
-/

namespace TrivialInit

/-! ## The assignments a text spells -/

/-- Does the quoted value run to the end of the text? -/
def quotedOpen : List Char → Bool
  | [] => true
  | '"' :: _ => false
  | '\\' :: _ :: rest => quotedOpen rest
  | _ :: rest => quotedOpen rest

/-- Does the value that starts here run to the end of the text? -/
def valueOpen : List Char → Bool
  | '"' :: rest => quotedOpen rest
  | raw => raw.all (fun c => !isBlank c)

/-- The names and values `parse_environment` finds, and whether the last value is still open at the
end of the text. -/
def scanLoop : Nat → List Char → List (String × String) × Bool
  | 0, _ => ([], false)
  | fuel + 1, raw =>
      let raw := raw.dropWhile isBlank
      match raw.findIdx? (· = '=') with
      | none => ([], false)
      | some eq =>
          let (val, rest) := environmentValue (raw.drop (eq + 1))
          let (pairs, isOpen) := scanLoop fuel rest
          ((String.ofList (raw.take eq), val) :: pairs, valueOpen (raw.drop (eq + 1)) || isOpen)

def scanEnvironment (raw : String) : List (String × String) × Bool :=
  scanLoop raw.length raw.toList

/-- `if (!key.empty()) out[key] = val;` -/
def storePair (out : UnorderedMap String String) (p : String × String) :
    UnorderedMap String String :=
  if p.1 = "" then out else out.insert p.1 p.2

theorem parseEnvironmentLoop_eq (fuel : Nat) (raw : List Char) (out : UnorderedMap String String) :
    parseEnvironmentLoop fuel raw out = (scanLoop fuel raw).1.foldl storePair out := by
  induction fuel generalizing raw out with
  | zero => rfl
  | succ fuel ih =>
      simp only [parseEnvironmentLoop, scanLoop]
      cases (raw.dropWhile isBlank).findIdx? (· = '=') with
      | none => rfl
      | some eq => exact ih _ _

theorem parseEnvironment_eq (raw : String) (out : UnorderedMap String String) :
    parseEnvironment raw out = (scanEnvironment raw).1.foldl storePair out :=
  parseEnvironmentLoop_eq _ _ out

/-! ## Where a text has its next `=` -/

theorem scanLoop_of_notMem (fuel : Nat) {raw : List Char} (h : '=' ∉ raw.dropWhile isBlank) :
    scanLoop fuel raw = ([], false) := by
  cases fuel with
  | zero => rfl
  | succ fuel => simp only [scanLoop, findIdx?_eq_none_of_not_mem h]

theorem scanLoop_of_split {fuel : Nat} {raw key rest : List Char}
    (hraw : raw.dropWhile isBlank = key ++ '=' :: rest) (hkey : '=' ∉ key) :
    scanLoop (fuel + 1) raw =
      ((String.ofList key, (environmentValue rest).1) ::
          (scanLoop fuel (environmentValue rest).2).1,
        valueOpen rest || (scanLoop fuel (environmentValue rest).2).2) := by
  have hdrop : (key ++ '=' :: rest).drop (key.length + 1) = rest := by
    simp [List.drop_append]
  have htake : (key ++ '=' :: rest).take key.length = key := List.take_left
  simp only [scanLoop, hraw, findIdx?_append_cons hkey, hdrop, htake]

/-! ## One value -/

/-- A character that is neither a quote nor a backslash is taken as it is. -/
theorem quotedValue_cons {d : Char} (hd : d ≠ '"' ∧ d ≠ '\\') (rest val : List Char) :
    quotedValue (d :: rest) val = quotedValue rest (d :: val) := by
  rw [quotedValue.eq_4]
  · exact hd.1
  · exact fun _ _ h => absurd h hd.2

theorem mem_quotedValue_of_mem {c : Char} (raw val : List Char) (h : c ∈ val) :
    c ∈ (quotedValue raw val).1 := by
  fun_induction quotedValue raw val with
  | case1 val => exact h
  | case2 val rest => exact h
  | case3 val d rest ih => exact ih (List.mem_cons_of_mem _ h)
  | case4 val d rest hquote hescape ih => exact ih (List.mem_cons_of_mem _ h)

/-- An open quoted value takes what follows. -/
theorem mem_quotedValue_of_open {raw : List Char} (h : quotedOpen raw = true) {c : Char}
    (hc : c ≠ '"' ∧ c ≠ '\\') (rest val : List Char) :
    c ∈ (quotedValue (raw ++ c :: rest) val).1 := by
  fun_induction quotedOpen raw generalizing val with
  | case1 =>
      rw [List.nil_append, quotedValue_cons hc]
      exact mem_quotedValue_of_mem _ _ List.mem_cons_self
  | case2 raw => simp at h
  | case3 d raw ih => exact ih h (d :: val)
  | case4 d raw hquote hescape ih =>
      by_cases hd : d = '\\'
      · -- A backslash at the end escapes the character that follows.
        subst hd
        cases raw with
        | nil => exact mem_quotedValue_of_mem rest (c :: val) List.mem_cons_self
        | cons e raw => exact absurd rfl (hescape e raw rfl)
      · rw [List.cons_append, quotedValue_cons ⟨hquote, hd⟩]
        exact ih h (d :: val)

/-- A closed quoted value does not see what follows. -/
theorem quotedValue_append {raw : List Char} (h : quotedOpen raw = false) (rest val : List Char) :
    quotedValue (raw ++ rest) val =
      ((quotedValue raw val).1, (quotedValue raw val).2 ++ rest) := by
  fun_induction quotedOpen raw generalizing val with
  | case1 => simp at h
  | case2 raw => rfl
  | case3 d raw ih => exact ih h (d :: val)
  | case4 d raw hquote hescape ih =>
      by_cases hd : d = '\\'
      · subst hd
        cases raw with
        | nil => simp [quotedOpen] at h
        | cons e raw => exact absurd rfl (hescape e raw rfl)
      · rw [List.cons_append, quotedValue_cons ⟨hquote, hd⟩, quotedValue_cons ⟨hquote, hd⟩]
        exact ih h (d :: val)

theorem quotedValue_length (raw val : List Char) :
    (quotedValue raw val).2.length ≤ raw.length := by
  fun_induction quotedValue raw val with
  | case1 val => simp
  | case2 val rest => simp
  | case3 val d rest ih => simp only [List.length_cons]; omega
  | case4 val d rest hquote hescape ih => simp only [List.length_cons]; omega

/-- The characters of a quoted value and of what follows come from the text. -/
theorem mem_of_mem_quotedValue {c : Char} (raw val : List Char) :
    (c ∈ (quotedValue raw val).1 → c ∈ raw ∨ c ∈ val) ∧
      (c ∈ (quotedValue raw val).2 → c ∈ raw) := by
  fun_induction quotedValue raw val with
  | case1 val => simp
  | case2 val rest =>
      simp only [List.mem_cons]
      tauto
  | case3 val d rest ih =>
      simp only [List.mem_cons] at ih ⊢
      tauto
  | case4 val d rest hquote hescape ih =>
      simp only [List.mem_cons] at ih ⊢
      tauto

theorem environmentValue_bare {raw : List Char} (h : raw.head? ≠ some '"') :
    environmentValue raw =
      (String.ofList (raw.takeWhile (fun c => !isBlank c)), raw.dropWhile (fun c => !isBlank c)) := by
  apply environmentValue.eq_2
  rintro rest rfl
  exact h rfl

theorem valueOpen_bare {raw : List Char} (h : raw.head? ≠ some '"') :
    valueOpen raw = raw.all (fun c => !isBlank c) := by
  apply valueOpen.eq_2
  rintro rest rfl
  exact h rfl

/-- A value starts with a quote, or it is bare. -/
theorem value_cases (raw : List Char) :
    (∃ rest, raw = '"' :: rest) ∨ raw.head? ≠ some '"' := by
  cases raw with
  | nil => simp
  | cons c rest =>
      by_cases hc : c = '"'
      · exact Or.inl ⟨rest, by rw [hc]⟩
      · exact Or.inr (by simpa using hc)

theorem environmentValue_length (raw : List Char) :
    (environmentValue raw).2.length ≤ raw.length := by
  rcases value_cases raw with ⟨rest, rfl⟩ | hbare
  · have hlen := quotedValue_length rest []
    exact le_trans hlen (Nat.le_succ _)
  · rw [environmentValue_bare hbare]
    exact List.length_dropWhile_le _ _

theorem mem_of_mem_environmentValue {c : Char} (raw : List Char) :
    (c ∈ (environmentValue raw).1.toList → c ∈ raw) ∧ (c ∈ (environmentValue raw).2 → c ∈ raw) := by
  rcases value_cases raw with ⟨rest, rfl⟩ | hbare
  · have hmem := mem_of_mem_quotedValue (c := c) rest []
    constructor
    · intro hc
      have hval : c ∈ (quotedValue rest []).1 := by simpa [environmentValue] using hc
      have := hmem.1 hval
      simp only [List.not_mem_nil, or_false] at this
      exact List.mem_cons_of_mem _ this
    · exact fun hc => List.mem_cons_of_mem _ (hmem.2 hc)
  · rw [environmentValue_bare hbare, String.toList_ofList]
    exact ⟨fun hc => (List.takeWhile_prefix _).subset hc,
      fun hc => (List.dropWhile_suffix _).subset hc⟩

/-- The separator `\x1f` put behind an open value becomes part of it. -/
theorem mem_environmentValue_of_open {raw : List Char} (h : valueOpen raw = true)
    (rest : List Char) : '\x1f' ∈ (environmentValue (raw ++ '\x1f' :: rest)).1.toList := by
  rcases value_cases raw with ⟨body, rfl⟩ | hbare
  · have hmem := mem_quotedValue_of_open h (c := '\x1f') (by decide) rest []
    simpa [environmentValue] using hmem
  · have hbare' : (raw ++ '\x1f' :: rest).head? ≠ some '"' := by
      cases raw with
      | nil => simp
      | cons c body => simpa using hbare
    rw [valueOpen_bare hbare, List.all_eq_true] at h
    rw [environmentValue_bare hbare', String.toList_ofList, List.takeWhile_append_of_pos h]
    simp [isBlank]

/-- A closed value does not see what follows. -/
theorem environmentValue_append {raw : List Char} (h : valueOpen raw = false)
    (rest : List Char) :
    environmentValue (raw ++ rest) =
      ((environmentValue raw).1, (environmentValue raw).2 ++ rest) := by
  rcases value_cases raw with ⟨body, rfl⟩ | hbare
  · have happ := quotedValue_append h rest []
    simp [environmentValue, happ]
  · rw [valueOpen_bare hbare] at h
    have hne : raw ≠ [] := by
      rintro rfl
      simp at h
    have hbare' : (raw ++ rest).head? ≠ some '"' := by
      rwa [List.head?_append_of_ne_nil _ hne]
    -- The value ends at a blank inside `raw`.
    have hdrop : raw.dropWhile (fun c => !isBlank c) ≠ [] := by
      intro hnil
      rw [List.dropWhile_eq_nil_iff] at hnil
      rw [List.all_eq_true.mpr hnil] at h
      exact absurd h (by simp)
    have htake : (raw ++ rest).takeWhile (fun c => !isBlank c) =
        raw.takeWhile (fun c => !isBlank c) := by
      rw [List.takeWhile_append, if_neg]
      intro hlen
      have hsplit := List.takeWhile_append_dropWhile (p := fun c => !isBlank c) (l := raw)
      have := congrArg List.length hsplit
      rw [List.length_append, hlen] at this
      exact hdrop (List.length_eq_zero_iff.mp (by omega))
    rw [environmentValue_bare hbare, environmentValue_bare hbare', htake, List.dropWhile_append]
    simp [hdrop]

/-! ## Two texts with a separator between them -/

theorem dropWhile_append_separator (t u : List Char) :
    (t ++ '\x1f' :: u).dropWhile isBlank = t.dropWhile isBlank ++ '\x1f' :: u := by
  rw [List.dropWhile_append]
  cases h : t.dropWhile isBlank with
  | nil => simp [isBlank]
  | cons c rest => simp

/-- The case of a first text that has no assignment left. -/
theorem scanLoop_append_of_notMem (n m : Nat) (t u : List Char)
    (hm : (t ++ '\x1f' :: u).length ≤ m) (ht : '=' ∉ t.dropWhile isBlank) :
    ((scanLoop n t).2 = false ∧ '=' ∉ u ∧
        (scanLoop m (t ++ '\x1f' :: u)).1 = (scanLoop n t).1) ∨
      (((scanLoop n t).2 = true ∨ '=' ∈ u) ∧ ∃ p ∈ (scanLoop m (t ++ '\x1f' :: u)).1,
        '\x1f' ∈ p.1.toList ∨ '\x1f' ∈ p.2.toList) := by
  rw [scanLoop_of_notMem n ht]
  by_cases hu : '=' ∈ u
  · obtain ⟨key, rest, rfl, hkey⟩ := List.eq_append_cons_of_mem hu
    -- The next name starts in the first text and ends in the second.
    have hwhole : (t ++ '\x1f' :: (key ++ '=' :: rest)).dropWhile isBlank =
        (t.dropWhile isBlank ++ '\x1f' :: key) ++ '=' :: rest := by
      rw [dropWhile_append_separator, List.append_assoc, List.cons_append]
    have hname : '=' ∉ t.dropWhile isBlank ++ '\x1f' :: key := by
      simp [ht, hkey]
    obtain ⟨m, rfl⟩ : ∃ m', m = m' + 1 := Nat.exists_eq_succ_of_ne_zero (by
      rw [List.length_append, List.length_cons] at hm
      omega)
    rw [scanLoop_of_split hwhole hname]
    exact Or.inr ⟨Or.inr hu, _, List.mem_cons_self, Or.inl (by simp)⟩
  · left
    have hnone : '=' ∉ (t ++ '\x1f' :: u).dropWhile isBlank := by
      rw [dropWhile_append_separator]
      simp [ht, hu]
    exact ⟨rfl, hu, congrArg Prod.fst (scanLoop_of_notMem m hnone)⟩

/-- Either the first text ends outside a value and the second has no `=`, and then the second is
ignored; or a name or a value of the whole contains the separator. -/
theorem scanLoop_append (n m : Nat) (t u : List Char) (hn : t.length ≤ n)
    (hm : (t ++ '\x1f' :: u).length ≤ m) :
    ((scanLoop n t).2 = false ∧ '=' ∉ u ∧
        (scanLoop m (t ++ '\x1f' :: u)).1 = (scanLoop n t).1) ∨
      (((scanLoop n t).2 = true ∨ '=' ∈ u) ∧ ∃ p ∈ (scanLoop m (t ++ '\x1f' :: u)).1,
        '\x1f' ∈ p.1.toList ∨ '\x1f' ∈ p.2.toList) := by
  induction n generalizing m t with
  | zero =>
      obtain rfl : t = [] := List.length_eq_zero_iff.mp (Nat.le_zero.mp hn)
      exact scanLoop_append_of_notMem 0 m [] u hm (by simp)
  | succ n ih =>
      by_cases hmem : '=' ∈ t.dropWhile isBlank
      · obtain ⟨key, rest, ht, hkey⟩ := List.eq_append_cons_of_mem hmem
        have hlen : rest.length < t.length := by
          have hle := List.length_dropWhile_le isBlank t
          rw [ht, List.length_append, List.length_cons] at hle
          omega
        have hwhole : (t ++ '\x1f' :: u).dropWhile isBlank =
            key ++ '=' :: (rest ++ '\x1f' :: u) := by
          rw [dropWhile_append_separator, ht, List.append_assoc, List.cons_append]
        obtain ⟨m, rfl⟩ : ∃ m', m = m' + 1 := Nat.exists_eq_succ_of_ne_zero (by
          rw [List.length_append, List.length_cons] at hm
          omega)
        rw [scanLoop_of_split ht hkey, scanLoop_of_split hwhole hkey]
        cases hopen : valueOpen rest with
        | true =>
            refine Or.inr ⟨Or.inl (by simp), _, List.mem_cons_self, Or.inr ?_⟩
            exact mem_environmentValue_of_open hopen u
        | false =>
            -- The value ends inside the first text, and the scan goes on behind it.
            rw [environmentValue_append hopen]
            have hrest := environmentValue_length rest
            have hm' : ((environmentValue rest).2 ++ '\x1f' :: u).length ≤ m := by
              rw [List.length_append, List.length_cons] at hm ⊢
              omega
            rcases ih m (environmentValue rest).2 (by omega) hm' with
              ⟨hclosed, hu, hsame⟩ | ⟨hbad, p, hp, hsep⟩
            · exact Or.inl ⟨by simpa using hclosed, hu, congrArg (List.cons _) hsame⟩
            · refine Or.inr ⟨?_, p, List.mem_cons_of_mem _ hp, hsep⟩
              simpa using hbad
      · exact scanLoop_append_of_notMem (n + 1) m t u hm hmem

/-! ## The stored value -/

/-- The text of the lines behind the first one, each with its separator. -/
def separated (lines : List String) : List Char :=
  lines.flatMap (fun line => '\x1f' :: line.toList)

theorem foldl_accumulateValue {e : String} (he : e ≠ "") (lines : List String) :
    (lines.foldl accumulateValue e).toList = e.toList ++ separated lines := by
  induction lines generalizing e with
  | nil => simp [separated]
  | cons line lines ih =>
      have hacc : accumulateValue e line = e ++ "\x1f" ++ line := by
        simp [accumulateValue, he]
      have hne : e ++ "\x1f" ++ line ≠ "" := by
        intro h
        have hlist := congrArg String.toList h
        simp at hlist
      rw [List.foldl_cons, hacc, ih hne]
      simp [separated]

/-- Empty values at the beginning leave no trace. -/
theorem joinValues_dropWhile (values : List String) :
    joinValues (values.dropWhile (fun v => v = "")) = joinValues values := by
  induction values with
  | nil => rfl
  | cons v values ih =>
      by_cases hv : v = ""
      · subst hv
        rw [List.dropWhile_cons_of_pos (by simp), ih]
        rfl
      · rw [List.dropWhile_cons_of_neg (by simpa using hv)]

theorem mem_separated {lines : List String} : '=' ∈ separated lines ↔ ∃ r ∈ lines, '=' ∈ r.toList := by
  simp [separated]

/-! ## Separate lines -/

/-- The lines do not run into each other: behind leading empty lines there is at most one line, or
the first line ends outside a value and no later line has a `=`. -/
def LinesSeparate (values : List String) : Prop :=
  match values.dropWhile (fun v => v = "") with
  | [] => True
  | first :: rest =>
      rest = [] ∨ (scanEnvironment first).2 = false ∧ ∀ r ∈ rest, '=' ∉ r.toList

/-- The value, name or text of a pair contains the separator. -/
def Mixed (p : String × String) : Prop :=
  '\x1f' ∈ p.1.toList ∨ '\x1f' ∈ p.2.toList

/-- Names and values come from the text. -/
theorem mem_of_mem_scanLoop {c : Char} (n : Nat) (raw : List Char) {p : String × String}
    (hp : p ∈ (scanLoop n raw).1) (hc : c ∈ p.1.toList ∨ c ∈ p.2.toList) : c ∈ raw := by
  induction n generalizing raw with
  | zero => simp [scanLoop] at hp
  | succ n ih =>
      by_cases hmem : '=' ∈ raw.dropWhile isBlank
      · obtain ⟨key, rest, hraw, hkey⟩ := List.eq_append_cons_of_mem hmem
        have hsub : ∀ d ∈ key ++ '=' :: rest, d ∈ raw := by
          intro d hd
          rw [← hraw] at hd
          exact (List.dropWhile_suffix _).subset hd
        have hrest : ∀ d ∈ rest, d ∈ raw :=
          fun d hd => hsub d (List.mem_append_right _ (List.mem_cons_of_mem _ hd))
        have hvalue := mem_of_mem_environmentValue (c := c) rest
        rw [scanLoop_of_split hraw hkey] at hp
        rcases List.mem_cons.mp hp with rfl | hp
        · rcases hc with hc | hc
          · rw [String.toList_ofList] at hc
            exact hsub c (List.mem_append_left _ hc)
          · exact hrest c (hvalue.1 hc)
        · have hin := ih _ hp
          exact hrest c (hvalue.2 hin)
      · rw [scanLoop_of_notMem _ hmem] at hp
        simp at hp

theorem scanEnvironment_of_notMem {raw : String} (h : '=' ∉ raw.toList) :
    (scanEnvironment raw).1 = [] := by
  have hdrop : '=' ∉ raw.toList.dropWhile isBlank :=
    fun hmem => h ((List.dropWhile_suffix _).subset hmem)
  exact congrArg Prod.fst (scanLoop_of_notMem _ hdrop)

/-- Empty lines in front spell nothing. -/
theorem flatMap_scanEnvironment_dropWhile (values : List String) :
    values.flatMap (fun v => (scanEnvironment v).1) =
      (values.dropWhile (fun v => v = "")).flatMap (fun v => (scanEnvironment v).1) := by
  have hempty : (scanEnvironment "").1 = [] := rfl
  induction values with
  | nil => rfl
  | cons v values ih =>
      by_cases hv : v = ""
      · subst hv
        rw [List.dropWhile_cons_of_pos (by simp), List.flatMap_cons, hempty, List.nil_append, ih]
      · rw [List.dropWhile_cons_of_neg (by simpa using hv)]

/-- Two lines or more are scanned as one text, with the separator behind the first. -/
theorem scanEnvironment_foldl {first : String} (hne : first ≠ "") (r : String)
    (rest : List String) :
    scanEnvironment ((r :: rest).foldl accumulateValue first) =
        scanLoop ((r :: rest).foldl accumulateValue first).length
          (first.toList ++ '\x1f' :: (r.toList ++ separated rest)) ∧
      ((r :: rest).foldl accumulateValue first).length =
        (first.toList ++ '\x1f' :: (r.toList ++ separated rest)).length := by
  have htext := foldl_accumulateValue hne (r :: rest)
  have hu : separated (r :: rest) = '\x1f' :: (r.toList ++ separated rest) := rfl
  constructor
  · unfold scanEnvironment
    rw [htext, hu]
  · rw [← String.length_toList, htext, hu]

/-- The stored value spells the assignments of the first line alone, or it has a mixed pair. -/
theorem scanEnvironment_joinValues {values : List String}
    (hsep : ∀ v ∈ values, '\x1f' ∉ v.toList) :
    (LinesSeparate values ∧
        (scanEnvironment (joinValues values)).1 =
          values.flatMap (fun v => (scanEnvironment v).1) ∧
        ∀ p ∈ (scanEnvironment (joinValues values)).1, ¬ Mixed p) ∨
      (¬ LinesSeparate values ∧ ∃ p ∈ (scanEnvironment (joinValues values)).1, Mixed p) := by
  rw [← joinValues_dropWhile, flatMap_scanEnvironment_dropWhile]
  have hsep' : ∀ v ∈ values.dropWhile (fun v => v = ""), '\x1f' ∉ v.toList :=
    fun v hv => hsep v ((List.dropWhile_suffix _).subset hv)
  have hfirst := List.head?_dropWhile_not (fun v : String => decide (v = "")) values
  unfold LinesSeparate
  cases hvalues : values.dropWhile (fun v => v = "") with
  | nil => exact Or.inl ⟨trivial, rfl, by simp [joinValues, scanEnvironment, scanLoop]⟩
  | cons first rest =>
      rw [hvalues] at hsep' hfirst
      have hne : first ≠ "" := by simpa using hfirst
      have hpure : ∀ p ∈ (scanEnvironment first).1, ¬ Mixed p := by
        intro p hp hmixed
        exact hsep' first List.mem_cons_self (mem_of_mem_scanLoop _ _ hp hmixed)
      have hjoin : joinValues (first :: rest) = rest.foldl accumulateValue first := by
        unfold joinValues
        rw [List.foldl_cons]
        rfl
      rw [hjoin]
      cases rest with
      | nil => exact Or.inl ⟨Or.inl rfl, by simp, hpure⟩
      | cons r rest =>
          obtain ⟨hwhole, hlen⟩ := scanEnvironment_foldl hne r rest
          have heq : '=' ∈ r.toList ++ separated rest ↔ ∃ x ∈ r :: rest, '=' ∈ x.toList := by
            rw [List.mem_append, mem_separated]
            simp
          have hscan := scanLoop_append first.length
            ((r :: rest).foldl accumulateValue first).length first.toList
            (r.toList ++ separated rest) (le_of_eq String.length_toList) (le_of_eq hlen.symm)
          rw [heq] at hscan
          rw [hwhole]
          rcases hscan with ⟨hclosed, hnone, hsame⟩ | ⟨hbad, hmixed⟩
          · have hnone' : ∀ x ∈ r :: rest, '=' ∉ x.toList := fun x hx hmem => hnone ⟨x, hx, hmem⟩
            have hrest : (r :: rest).flatMap (fun v => (scanEnvironment v).1) = [] :=
              List.flatMap_eq_nil_iff.mpr (fun x hx => scanEnvironment_of_notMem (hnone' x hx))
            refine Or.inl ⟨Or.inr ⟨hclosed, hnone'⟩, ?_, ?_⟩
            · rw [hsame, List.flatMap_cons, hrest, List.append_nil]
              rfl
            · rw [hsame]
              exact hpure
          · refine Or.inr ⟨?_, hmixed⟩
            rintro (hnil | ⟨hclosed, hnone⟩)
            · exact absurd hnil (List.cons_ne_nil _ _)
            · rcases hbad with hopen | ⟨x, hx, hmem⟩
              · exact absurd (hclosed.symm.trans hopen) (by simp)
              · exact hnone x hx hmem

/-! ## The environment of a unit -/

/-- The values of all `Environment=` lines of a file. -/
def environmentValues (file : Option String) : List String :=
  valuesOf (assignments file) "Service" "Environment"

namespace UnitFile

theorem environment_parse (os : ParseAnswers) (path : String) :
    (parse os path).environment =
      parseEnvironment (joinValues (environmentValues (os.files path))) ∅ := by
  have hread : (parse os path).environment =
      ((valueAt (parseIni (os.files path)) "Service" "Environment").map
        (fun v => parseEnvironment v ∅)).getD ∅ := by
    unfold parse
    simp only
    rw [get_inSection_of_same UnitFile.environment parseMountSection (fun _ _ => rfl),
      get_inSection_of_same UnitFile.environment parseInstallSection (fun _ _ => rfl)]
    refine get_inSection_of_read UnitFile.environment ?_ ?_
    · intro unit sec hunit
      simp only [parseServiceSection, hunit]
    · refine get_inSection_of_same UnitFile.environment _ (fun unit sec => ?_) _
      exact get_foldl UnitFile.environment
        (get_addConditions UnitFile.environment (fun _ _ => rfl) (fun _ _ => rfl) _) _ _
  rw [hread, valueAt_parseIni]
  unfold storedValue environmentValues
  by_cases h : valuesOf (assignments (os.files path)) "Service" "Environment" = []
  · simp [h, joinValues, parseEnvironment, parseEnvironmentLoop]
  · simp [h]

end UnitFile

/-- Applying `parse_environment` to the lines one after the other. -/
theorem foldl_parseEnvironment (values : List String) (env : UnorderedMap String String) :
    values.foldl (fun env e => parseEnvironment e env) env =
      (values.flatMap (fun v => (scanEnvironment v).1)).foldl storePair env := by
  induction values generalizing env with
  | nil => rfl
  | cons v values ih =>
      rw [List.foldl_cons, ih, List.flatMap_cons, List.foldl_append, parseEnvironment_eq]

namespace InitSystem

/-- The environment of a unit is that of its lines, one after the other, and no variable is spelled
by the text of two lines, exactly if the lines do not run into each other. -/
theorem executeUnitParse_environment_iff (s : InitSystem) (os : ParseAnswers)
    (earlier later : List String) (path : String)
    (hlast : ∀ p ∈ later, basename p ≠ basename path)
    (hsep : ∀ e ∈ environmentValues (os.files path), '\x1f' ∉ e.toList) :
    let values := environmentValues (os.files path)
    ∃ unit,
      (s.executeUnitParse (earlier ++ path :: later) os).units.lookup (basename path) = some unit ∧
      (((∀ name, unit.environment.lookup name =
            (values.foldl (fun env e => parseEnvironment e env) ∅).lookup name) ∧
          ∀ p ∈ (scanEnvironment (joinValues values)).1, ¬ Mixed p) ↔
        LinesSeparate values) := by
  intro values
  refine ⟨UnitFile.parse os path, lookup_executeUnitParse_last s os earlier later path hlast, ?_⟩
  rcases scanEnvironment_joinValues hsep with ⟨hseparate, hsame, hpure⟩ | ⟨hrun, p, hp, hmixed⟩
  · refine iff_of_true ⟨fun name => ?_, hpure⟩ hseparate
    rw [UnitFile.environment_parse, parseEnvironment_eq, hsame, foldl_parseEnvironment]
  · exact iff_of_false (fun h => h.2 p hp hmixed) hrun

/-- A quoted value, and a line without `=` behind it. -/
theorem executeUnitParse_environment_iff_sample :
    let os : ParseAnswers :=
      { files := fun _ => some "[Service]\nEnvironment=A=\"x y\"\nEnvironment=rest\n" }
    let values := environmentValues (os.files "/etc/a.service")
    let s : InitSystem := {}
    ∃ unit,
      (s.executeUnitParse ["/etc/a.service"] os).units.lookup (basename "/etc/a.service") =
        some unit ∧
      (((∀ name, unit.environment.lookup name =
            (values.foldl (fun env e => parseEnvironment e env) ∅).lookup name) ∧
          ∀ p ∈ (scanEnvironment (joinValues values)).1, ¬ Mixed p) ↔
        LinesSeparate values) :=
  executeUnitParse_environment_iff {} _ [] [] "/etc/a.service" (by simp) (by decide +kernel)

/-- Two bare values become one: `B` is lost and the value of `A` contains the second line. -/
theorem executeUnitParse_environment_not_cumulative :
    ¬ ∀ (s : InitSystem) (os : ParseAnswers) (path : String),
      (∀ e ∈ environmentValues (os.files path), '\x1f' ∉ e.toList) →
      ∃ unit, (s.executeUnitParse [path] os).units.lookup (basename path) = some unit ∧
        ∀ name, unit.environment.lookup name =
          ((environmentValues (os.files path)).foldl
            (fun env e => parseEnvironment e env) ∅).lookup name := by
  intro h
  let os : ParseAnswers :=
    { files := fun _ => some "[Service]\nEnvironment=A=1\nEnvironment=B=2\n" }
  obtain ⟨unit, hunit, henv⟩ := h {} os "/etc/a.service" (by decide +kernel)
  have hlookup := lookup_executeUnitParse_last {} os [] [] "/etc/a.service" (by simp)
  rw [List.nil_append] at hlookup
  rw [hlookup] at hunit
  obtain rfl := Option.some.inj hunit
  have hB := henv "B"
  rw [UnitFile.environment_parse] at hB
  revert hB
  decide +kernel

end InitSystem

end TrivialInit
