import TrivialInit.Lib.Scanning
import TrivialInit.Systemd.Specifiers

/-!
# UnitNames — taking a unit name apart, and undoing its escapes

* `ofUnit_decomposes` : the constructor of `SpecifierContext` splits a name without loss, and
  `is_bare_template` classifies every name as the constructor does;
* `unitNameUnescape_written` : `unit_name_unescape` gives back whatever was escaped.
-/

namespace TrivialInit

/-! ## Parts of a name -/

/-- An `@` stands before the last `.` of the name. -/
def AtBeforeDot (name : String) : Prop :=
  ∃ before after type, name.toList = before ++ '@' :: (after ++ '.' :: type) ∧ '.' ∉ type

/-- What a name looks like to the constructor. -/
inductive NameShape : List Char → Prop
  /-- The first `@` comes before the last `.`. -/
  | template {p i t : List Char} (hp : '@' ∉ p) (ht : '.' ∉ t) :
      NameShape (p ++ '@' :: (i ++ '.' :: t))
  | plain {p t : List Char} (hp : '@' ∉ p) (ht : '.' ∉ t) : NameShape (p ++ '.' :: t)
  | noType {p : List Char} (hp : '.' ∉ p) : NameShape p

/-- A list splits at the last occurrence of an element. -/
theorem exists_split_last {c : Char} {l : List Char} (h : c ∈ l) :
    ∃ s t, l = s ++ c :: t ∧ c ∉ t := by
  obtain ⟨t, s, hsplit, ht⟩ := List.eq_append_cons_of_mem (List.mem_reverse.mpr h)
  refine ⟨s.reverse, t.reverse, ?_, by simpa using ht⟩
  have hrev := congrArg List.reverse hsplit
  simpa using hrev

theorem nameShape (l : List Char) : NameShape l := by
  by_cases hdot : '.' ∈ l
  · obtain ⟨s, t, rfl, ht⟩ := exists_split_last hdot
    by_cases hat : '@' ∈ s
    · obtain ⟨p, i, rfl, hp⟩ := List.eq_append_cons_of_mem hat
      rw [List.append_assoc, List.cons_append]
      exact NameShape.template hp ht
    · exact NameShape.plain hat ht
  · exact NameShape.noType hdot

/-- The last `.` is where it is: two splits at it agree. -/
theorem split_last_unique {c : Char} {s t s' t' : List Char} (ht : c ∉ t) (ht' : c ∉ t')
    (h : s ++ c :: t = s' ++ c :: t') : s = s' ∧ t = t' := by
  have hpos := rfindChar_append_cons ht s
  rw [h, rfindChar_append_cons ht' s'] at hpos
  have hlen : s.length = s'.length := (Option.some.inj hpos).symm
  obtain ⟨hs, hrest⟩ := List.append_inj h hlen
  exact ⟨hs, List.tail_eq_of_cons_eq hrest⟩

theorem atBeforeDot_template (p i : List Char) {t : List Char} (ht : '.' ∉ t) :
    AtBeforeDot (String.ofList (p ++ '@' :: (i ++ '.' :: t))) :=
  ⟨p, i, t, String.toList_ofList, ht⟩

theorem not_atBeforeDot_plain {p t : List Char} (hp : '@' ∉ p) (ht : '.' ∉ t) :
    ¬ AtBeforeDot (String.ofList (p ++ '.' :: t)) := by
  rintro ⟨b, a, t', h, ht'⟩
  rw [String.toList_ofList, ← List.cons_append, ← List.append_assoc] at h
  obtain ⟨rfl, -⟩ := split_last_unique ht ht' h
  exact hp (by simp)

theorem not_atBeforeDot_noType {p : List Char} (hp : '.' ∉ p) :
    ¬ AtBeforeDot (String.ofList p) := by
  rintro ⟨b, a, t, h, -⟩
  rw [String.toList_ofList] at h
  exact hp (by simp [h])

/-! ## The two searches -/

theorem findChar_template {p : List Char} (hp : '@' ∉ p) (i t : List Char) :
    findChar (String.ofList (p ++ '@' :: (i ++ '.' :: t))) '@' = some p.length :=
  findChar_append_cons hp (i ++ '.' :: t)

theorem rfindChar_template (p i : List Char) {t : List Char} (ht : '.' ∉ t) :
    rfindChar (String.ofList (p ++ '@' :: (i ++ '.' :: t))) '.' =
      some (p.length + 1 + i.length) := by
  have hsplit : p ++ '@' :: (i ++ '.' :: t) = (p ++ '@' :: i) ++ '.' :: t := by simp
  rw [hsplit, rfindChar_append_cons ht]
  simp only [List.length_append, List.length_cons, Option.some.injEq]
  omega

/-- Without an `@` before the last `.`, the first `@` stands behind it, if there is one. -/
theorem findChar_plain {p : List Char} (hp : '@' ∉ p) (t : List Char) :
    findChar (String.ofList (p ++ '.' :: t)) '@' = none ∨
      ∃ k, findChar (String.ofList (p ++ '.' :: t)) '@' = some (p.length + 1 + k) := by
  by_cases hat : '@' ∈ t
  · obtain ⟨b, a, rfl, hb⟩ := List.eq_append_cons_of_mem hat
    right
    have hsplit : p ++ '.' :: (b ++ '@' :: a) = (p ++ '.' :: b) ++ '@' :: a := by simp
    have hnot : '@' ∉ p ++ '.' :: b := by simp [hp, hb]
    refine ⟨b.length, ?_⟩
    rw [hsplit, findChar_append_cons hnot]
    simp only [List.length_append, List.length_cons, Option.some.injEq]
    omega
  · left
    rw [findChar, String.toList_ofList]
    exact findIdx?_eq_none_of_not_mem (by simp [hp, hat])

/-! ## The constructor -/

theorem ofUnit_template {p t : List Char} (hp : '@' ∉ p) (ht : '.' ∉ t) (i : List Char)
    (path : String) :
    SpecifierContext.ofUnit (String.ofList (p ++ '@' :: (i ++ '.' :: t))) path =
      { unitName := String.ofList (p ++ '@' :: (i ++ '.' :: t))
        unitPath := path
        unitType := String.ofList t
        unitPrefix := String.ofList p
        unitInstance := String.ofList i } := by
  have hlt : p.length < p.length + 1 + i.length := by omega
  have hlen : p.length + 1 + i.length - p.length - 1 = i.length := by omega
  have htype : dropStr (String.ofList (p ++ '@' :: (i ++ '.' :: t)))
      (p.length + 1 + i.length + 1) = String.ofList t := by
    have hsplit : p ++ '@' :: (i ++ '.' :: t) = (p ++ '@' :: i) ++ '.' :: t := by simp
    have hpos : p.length + 1 + i.length = (p ++ '@' :: i).length := by simp; omega
    rw [hsplit, hpos, dropStr_append_cons]
  simp only [SpecifierContext.ofUnit, findChar_template hp i t, rfindChar_template p i ht, hlt,
    if_true, htype, hlen, dropStr_append_cons, takeStr_append]

theorem ofUnit_plain {p t : List Char} (hp : '@' ∉ p) (ht : '.' ∉ t) (path : String) :
    SpecifierContext.ofUnit (String.ofList (p ++ '.' :: t)) path =
      { unitName := String.ofList (p ++ '.' :: t)
        unitPath := path
        unitType := String.ofList t
        unitPrefix := String.ofList p
        unitInstance := "" } := by
  have hdot := rfindChar_append_cons ht p
  rcases findChar_plain hp t with hat | ⟨k, hat⟩
  · simp only [SpecifierContext.ofUnit, hat, hdot, dropStr_append_cons, takeStr_append]
  · have hge : ¬ p.length + 1 + k < p.length := by omega
    simp only [SpecifierContext.ofUnit, hat, hdot, hge, if_false, dropStr_append_cons,
      takeStr_append]

theorem ofUnit_noType {p : List Char} (hp : '.' ∉ p) (path : String) :
    SpecifierContext.ofUnit (String.ofList p) path =
      { unitName := String.ofList p
        unitPath := path
        unitType := ""
        unitPrefix := String.ofList p
        unitInstance := "" } := by
  have hdot := rfindChar_eq_none hp
  cases hat : findChar (String.ofList p) '@' <;>
    simp only [SpecifierContext.ofUnit, hat, hdot]

/-! ## Bare templates -/

theorem isBareTemplate_template {unit : UnitFile} {p i t : List Char} (hp : '@' ∉ p)
    (ht : '.' ∉ t) (hname : unit.name = String.ofList (p ++ '@' :: (i ++ '.' :: t))) :
    unit.isBareTemplate = true ↔ i = [] := by
  unfold UnitFile.isBareTemplate
  rw [hname, findChar_template hp i t, rfindChar_template p i ht]
  rw [decide_eq_true_iff, ← List.length_eq_zero_iff]
  omega

theorem isBareTemplate_plain {unit : UnitFile} {p t : List Char} (hp : '@' ∉ p) (ht : '.' ∉ t)
    (hname : unit.name = String.ofList (p ++ '.' :: t)) : unit.isBareTemplate = false := by
  unfold UnitFile.isBareTemplate
  rw [hname, rfindChar_append_cons ht]
  rcases findChar_plain hp t with hat | ⟨k, hat⟩
  · rw [hat]
  · rw [hat]
    have hne : p.length + 1 + k + 1 ≠ p.length := by omega
    simp [hne]

theorem isBareTemplate_noType {unit : UnitFile} {p : List Char} (hp : '.' ∉ p)
    (hname : unit.name = String.ofList p) : unit.isBareTemplate = false := by
  unfold UnitFile.isBareTemplate
  rw [hname, rfindChar_eq_none hp]
  cases findChar (String.ofList p) '@' <;> rfl

/-- The parts make up the name: it is split at the first `@`, when that stands before the last `.`,
and at the last `.`; and a unit of the name is a bare template exactly if it is split so with an empty
instance. -/
structure Decomposes (name : String) (ctx : SpecifierContext) : Prop where
  template : AtBeforeDot name →
    name = ctx.unitPrefix ++ "@" ++ ctx.unitInstance ++ "." ++ ctx.unitType ∧
      '@' ∉ ctx.unitPrefix.toList ∧ '.' ∉ ctx.unitType.toList
  plain : '.' ∈ name.toList → ¬ AtBeforeDot name →
    name = ctx.unitPrefix ++ "." ++ ctx.unitType ∧ '.' ∉ ctx.unitType.toList
  noType : '.' ∉ name.toList → name = ctx.unitPrefix
  bare : ∀ unit : UnitFile, unit.name = name →
    (unit.isBareTemplate = true ↔ AtBeforeDot name ∧ ctx.unitInstance = "")

/-- The constructor of `SpecifierContext` splits every name without loss. -/
theorem ofUnit_decomposes (name path : String) :
    Decomposes name (SpecifierContext.ofUnit name path) := by
  obtain ⟨l, rfl⟩ : ∃ l, name = String.ofList l := ⟨name.toList, by simp⟩
  cases nameShape l with
  | @template p i t hp ht =>
      rw [ofUnit_template hp ht i path]
      have hat := atBeforeDot_template p i ht
      have hwhole : String.ofList (p ++ '@' :: (i ++ '.' :: t)) =
          String.ofList p ++ "@" ++ String.ofList i ++ "." ++ String.ofList t := by
        simp [← String.toList_inj]
      refine ⟨fun _ => ⟨hwhole, by simpa using hp, by simpa using ht⟩,
        fun _ hno => absurd hat hno, fun hno => absurd hno (by simp), ?_⟩
      intro unit hunit
      rw [isBareTemplate_template hp ht hunit, ← String.ofList_eq_empty_iff]
      exact (and_iff_right hat).symm
  | @plain p t hp ht =>
      rw [ofUnit_plain hp ht path]
      have hno := not_atBeforeDot_plain hp ht
      have hwhole : String.ofList (p ++ '.' :: t) =
          String.ofList p ++ "." ++ String.ofList t := by
        simp [← String.toList_inj]
      refine ⟨fun hat => absurd hat hno, fun _ _ => ⟨hwhole, by simpa using ht⟩,
        fun hdot => absurd hdot (by simp), ?_⟩
      intro unit hunit
      rw [isBareTemplate_plain hp ht hunit]
      exact iff_of_false Bool.false_ne_true (fun h => hno h.1)
  | noType hp =>
      rw [ofUnit_noType hp path]
      have hno := not_atBeforeDot_noType hp
      refine ⟨fun hat => absurd hat hno, fun hdot => absurd hdot (by simpa using hp),
        fun _ => rfl, ?_⟩
      intro unit hunit
      rw [isBareTemplate_noType hp hunit]
      exact iff_of_false Bool.false_ne_true (fun h => hno h.1)

example : (SpecifierContext.ofUnit "a@b@c.d.service" "").unitInstance = "b@c.d" := by
  decide

/-! ## Escapes -/

/-- A byte as a character. -/
def byteChar (b : UInt8) : Char :=
  Char.ofNat b.toNat

/-- How a byte of a name is written: as it is, or as `\xNN` with digits of either case. -/
inductive ByteForm
  | literal
  | escape (upperHigh upperLow : Bool)
  deriving DecidableEq, Repr

def hexDigit (upper : Bool) (n : Nat) : Char :=
  if n < 10 then Char.ofNat (48 + n)
  else if upper then Char.ofNat (55 + n)
  else Char.ofNat (87 + n)

/-- One byte in its written form. -/
def writtenByte (w : UInt8 × ByteForm) : List Char :=
  match w.2 with
  | .literal => [byteChar w.1]
  | .escape upperHigh upperLow =>
      ['\\', 'x', hexDigit upperHigh (w.1.toNat / 16), hexDigit upperLow (w.1.toNat % 16)]

theorem hexValue?_hexDigit : ∀ (upper : Bool), ∀ n < 16, hexValue? (hexDigit upper n) = some n := by
  decide

theorem byteChar_ne_backslash {b : UInt8} (h : b ≠ 92) : byteChar b ≠ '\\' := by
  intro hslash
  have hcode : ∀ n < 256, Char.ofNat n = '\\' → n = 92 := by decide +kernel
  exact h (UInt8.toNat_inj.mp (hcode b.toNat b.toNat_lt hslash))

theorem unescapeChars_cons_of_ne {c : Char} (hc : c ≠ '\\') (rest : List Char) :
    unescapeChars (c :: rest) = c :: unescapeChars rest := by
  rw [unescapeChars]
  simp [hc]

theorem unescapeChars_escape {a b : Char} {x y : Nat} (ha : hexValue? a = some x)
    (hb : hexValue? b = some y) (rest : List Char) :
    unescapeChars ('\\' :: 'x' :: a :: b :: rest) =
      Char.ofNat (16 * x + y) :: unescapeChars rest := by
  simp only [unescapeChars, ha, hb]

/-- Any byte but a backslash may stand for itself, and any byte may be escaped. -/
theorem writes_writtenByte {w : UInt8 × ByteForm} (h : w.1 = 92 → w.2 ≠ .literal) :
    Scanning.Writes unescapeChars (writtenByte w) [byteChar w.1] := by
  intro rest
  rcases w with ⟨b, form⟩
  cases form with
  | literal =>
      have hb : b ≠ 92 := fun hslash => h hslash rfl
      exact unescapeChars_cons_of_ne (byteChar_ne_backslash hb) rest
  | escape upperHigh upperLow =>
      have hlt : b.toNat < 256 := b.toNat_lt
      have hhigh := hexValue?_hexDigit upperHigh (b.toNat / 16) (by omega)
      have hlow := hexValue?_hexDigit upperLow (b.toNat % 16) (by omega)
      have hsum : 16 * (b.toNat / 16) + b.toNat % 16 = b.toNat := by omega
      calc
        unescapeChars (writtenByte (b, .escape upperHigh upperLow) ++ rest)
            = Char.ofNat (16 * (b.toNat / 16) + b.toNat % 16) :: unescapeChars rest :=
              unescapeChars_escape hhigh hlow rest
        _ = byteChar b :: unescapeChars rest := by rw [hsum, byteChar]

/-- Unescaping gives back every byte string, whichever of its bytes were escaped; only a backslash
has to be. -/
theorem unitNameUnescape_written (ws : List (UInt8 × ByteForm))
    (h : ∀ w ∈ ws, w.1 = 92 → w.2 ≠ .literal) :
    unitNameUnescape (String.ofList (ws.flatMap writtenByte)) =
      String.ofList (ws.map (fun w => byteChar w.1)) := by
  have hread : Scanning.Writes unescapeChars (ws.flatMap writtenByte)
      (ws.flatMap (fun w => [byteChar w.1])) :=
    Scanning.Writes.flatMap (fun w hw => writes_writtenByte (h w hw))
  rw [unitNameUnescape, String.toList_ofList, hread.scan_eq rfl, List.map_eq_flatMap]

/-- A backslash, then text that looks like an escape, and one at the end. -/
theorem unitNameUnescape_written_sample :
    unitNameUnescape "\\x5cx2F\\x2f" = "\\x2F/" :=
  unitNameUnescape_written
    [(92, .escape false false), (120, .literal), (50, .literal), (70, .literal),
      (47, .escape false false)] (by decide)

end TrivialInit
