import TrivialInit.Mixins.Filesystem

/-!
# UserLookup — the two look-ups of a user

`lookup_uid` and `fs_resolve_uid` read `/etc/passwd` line by line up to the first one of the user.
They differ in what they do with a third field that is no number: `fs_resolve_uid` catches the
exception of `std::stoul`, and `lookup_uid` lets it out, even for a line of another user.
-/

namespace TrivialInit

/-! ## Lines -/

/-- The text before the first `:` of a line. -/
def firstField (line : List Char) : String :=
  (getFields ':' line).headD ""

/-- The third field of the line, if there is one, is a number. -/
def Legible (line : List Char) : Prop :=
  ∀ field, (getFields ':' line)[2]? = some field → (stoul field).isSome

/-- Every line is legible, up to and including the first one at which the scan stops. -/
def LegibleUpTo (stop : List Char → Prop) (lines : List (List Char)) : Prop :=
  ∀ before line after, lines = before ++ line :: after → (∀ l ∈ before, ¬ stop l) → Legible line

theorem legibleUpTo_nil (stop : List Char → Prop) : LegibleUpTo stop [] := by
  intro before line after h
  simp at h

theorem legibleUpTo_cons (stop : List Char → Prop) (line : List Char) (lines : List (List Char)) :
    LegibleUpTo stop (line :: lines) ↔
      Legible line ∧ (¬ stop line → LegibleUpTo stop lines) := by
  constructor
  · intro h
    refine ⟨h [] line lines rfl (by simp), ?_⟩
    intro hne before l after hlines hbefore
    refine h (line :: before) l after (by rw [hlines]; rfl) ?_
    intro l' hl'
    rcases List.mem_cons.mp hl' with rfl | hl'
    · exact hne
    · exact hbefore l' hl'
  · rintro ⟨hline, hlines⟩ before l after hsplit hbefore
    cases before with
    | nil =>
        obtain ⟨rfl, -⟩ := List.cons.inj hsplit
        exact hline
    | cons l' before =>
        obtain ⟨rfl, hrest⟩ := List.cons.inj hsplit
        exact hlines (hbefore line List.mem_cons_self) before l after hrest
          (fun l' hl' => hbefore l' (List.mem_cons_of_mem _ hl'))

instance (line : List Char) : Decidable (Legible line) :=
  decidable_of_iff ((getFields ':' line)[2]?.all (fun field => (stoul field).isSome) = true)
    (Option.all_eq_true _ _)

instance decidableLegibleUpTo (stop : List Char → Prop) [DecidablePred stop] :
    (lines : List (List Char)) → Decidable (LegibleUpTo stop lines)
  | [] => isTrue (legibleUpTo_nil stop)
  | line :: lines =>
      haveI := decidableLegibleUpTo stop lines
      decidable_of_iff' _ (legibleUpTo_cons stop line lines)

/-- The line is one of this user or group. -/
def IsLineOf (name : String) (line : List Char) : Prop :=
  firstField line = name

instance (name : String) : DecidablePred (IsLineOf name) :=
  fun line => inferInstanceAs (Decidable (firstField line = name))

/-- A legible line says the same to both look-ups. -/
theorem readIdLine_of_legible {line : List Char} (h : Legible line) :
    readIdLine line = some (fsReadIdLine line) := by
  unfold readIdLine fsReadIdLine
  dsimp only
  cases hfield : (getFields ':' line)[2]? with
  | none => rfl
  | some field =>
      obtain ⟨id, hid⟩ := Option.isSome_iff_exists.mp (h field hfield)
      simp only [hid, Option.map_some]

theorem readIdLine_of_not_legible {line : List Char} (h : ¬ Legible line) :
    readIdLine line = none := by
  unfold readIdLine
  dsimp only
  cases hfield : (getFields ':' line)[2]? with
  | none => exact absurd (fun field hsome => by simp [hfield] at hsome) h
  | some field =>
      cases hnumber : stoul field with
      | none => simp [hnumber]
      | some id =>
          refine absurd ?_ h
          intro field' hfield'
          obtain rfl : field = field' := by simpa [hfield] using hfield'
          simp [hnumber]

theorem fst_fsReadIdLine (line : List Char) : (fsReadIdLine line).1 = firstField line := by
  unfold fsReadIdLine firstField
  dsimp only
  cases (getFields ':' line)[2]? with
  | none => rfl
  | some field =>
      dsimp only
      cases stoul field <;> rfl

/-! ## The scans -/

theorem fst_fsReadIdLine_eq_iff (name : String) (line : List Char) :
    (fsReadIdLine line).1 = name ↔ IsLineOf name line := by
  rw [fst_fsReadIdLine, IsLineOf]

theorem fsScanIdLines_cons (name : String) (line : List Char) (lines : List (List Char)) :
    fsScanIdLines name (line :: lines) =
      if IsLineOf name line then (fsReadIdLine line).2 else fsScanIdLines name lines := by
  rw [fsScanIdLines]
  simp only [fst_fsReadIdLine_eq_iff]

/-- Without a line of the user, `fs_resolve_uid` falls back to root. -/
theorem fsScanIdLines_of_absent {name : String} {lines : List (List Char)}
    (h : ∀ l ∈ lines, ¬ IsLineOf name l) : fsScanIdLines name lines = 0 := by
  induction lines with
  | nil => rfl
  | cons line lines ih =>
      rw [fsScanIdLines_cons, if_neg (h line List.mem_cons_self),
        ih (fun l hl => h l (List.mem_cons_of_mem _ hl))]

/-- If the exception is not thrown, the scan finds what its twin finds. -/
theorem scanIdLines_of_legible {name : String} {lines : List (List Char)}
    (h : LegibleUpTo (IsLineOf name) lines) :
    ∃ id, scanIdLines name lines = some id ∧
      ((∃ l ∈ lines, IsLineOf name l) → id = fsScanIdLines name lines) ∧
      ((∀ l ∈ lines, ¬ IsLineOf name l) → id = noId) := by
  induction lines with
  | nil => exact ⟨noId, rfl, by simp, fun _ => rfl⟩
  | cons line lines ih =>
      obtain ⟨hline, hlines⟩ := (legibleUpTo_cons _ line lines).mp h
      rw [scanIdLines, readIdLine_of_legible hline, fsScanIdLines_cons]
      by_cases hname : IsLineOf name line
      · refine ⟨(fsReadIdLine line).2, by simp [fst_fsReadIdLine_eq_iff, hname], by simp [hname], ?_⟩
        intro habsent
        exact absurd hname (habsent line List.mem_cons_self)
      · obtain ⟨id, hid, hfound, habsent⟩ := ih (hlines hname)
        refine ⟨id, by simp [fst_fsReadIdLine_eq_iff, hname, hid], ?_, ?_⟩
        · rintro ⟨l, hl, hlname⟩
          rw [if_neg hname]
          apply hfound
          rcases List.mem_cons.mp hl with rfl | hl
          · exact absurd hlname hname
          · exact ⟨l, hl, hlname⟩
        · exact fun hall => habsent (fun l hl => hall l (List.mem_cons_of_mem _ hl))

theorem scanIdLines_of_not_legible {name : String} {lines : List (List Char)}
    (h : ¬ LegibleUpTo (IsLineOf name) lines) : scanIdLines name lines = none := by
  induction lines with
  | nil => exact absurd (legibleUpTo_nil _) h
  | cons line lines ih =>
      rw [legibleUpTo_cons, Classical.not_and_iff_not_or_not, Classical.not_imp] at h
      rw [scanIdLines]
      by_cases hline : Legible line
      · obtain ⟨hne, hlines⟩ := h.resolve_left (not_not_intro hline)
        rw [readIdLine_of_legible hline]
        have hname : ¬ (fsReadIdLine line).1 = name := by rwa [fst_fsReadIdLine_eq_iff]
        simp only [hname, if_false]
        exact ih hlines
      · rw [readIdLine_of_not_legible hline]

theorem scanIdLines_isSome_iff (name : String) (lines : List (List Char)) :
    (scanIdLines name lines).isSome ↔ LegibleUpTo (IsLineOf name) lines := by
  by_cases h : LegibleUpTo (IsLineOf name) lines
  · obtain ⟨id, hid, -, -⟩ := scanIdLines_of_legible h
    simp [h, hid]
  · simp [h, scanIdLines_of_not_legible h]

/-! ## Agreement -/

/-- The lines of `/etc/passwd`, or of `/etc/group`. -/
def passwdLines (passwd : Option String) : List (List Char) :=
  getlines ((passwd.getD "").toList)

/-- No runtime directory is given to an owner or a group without a line. -/
theorem fixRuntimeDirOwnership_known {passwd group : Option String} {call : RuntimeDirCall}
    (h : call ∈ fixRuntimeDirOwnership passwd group) :
    ∃ rd ∈ kRuntimeDirs, (∃ uid gid, call = .chown rd.path uid gid) ∧
      (∀ owner, rd.owner = some owner → ∃ l ∈ passwdLines passwd, IsLineOf owner l) ∧
      (∀ owner, rd.group = some owner → ∃ l ∈ passwdLines group, IsLineOf owner l) := by
  obtain ⟨rd, hrd, hcall⟩ := List.mem_filterMap.mp h
  have habsent : ∀ file name, fsResolveId file (some name) ≠ 0 →
      ∃ l ∈ passwdLines file, IsLineOf name l := by
    intro file name hne
    by_contra hno
    push Not at hno
    exact hne (fsScanIdLines_of_absent hno)
  unfold chownRuntimeDir at hcall
  dsimp only at hcall
  split_ifs at hcall with hroot hzero
  rw [not_or] at hzero
  refine ⟨rd, hrd, ⟨_, _, (Option.some.inj hcall).symm⟩, ?_, ?_⟩
  · intro owner howner
    refine habsent passwd owner ?_
    intro hid
    exact hzero.1 (by simp [howner, fsResolveUid, hid])
  · intro owner howner
    refine habsent group owner ?_
    intro hid
    exact hzero.2 (by simp [howner, fsResolveGid, hid])

/-- `lookup_uid` returns, and agrees with its twin on a user with a line; for an unknown user the
two return their own fallbacks. -/
structure LookupsAgree (passwd : Option String) (name : String) : Prop where
  returns : (lookupUid passwd name).isSome
  found : (∃ l ∈ passwdLines passwd, IsLineOf name l) →
    lookupUid passwd name = some (fsResolveUid passwd (some name))
  unknown : (∀ l ∈ passwdLines passwd, ¬ IsLineOf name l) →
    lookupUid passwd name = some noId ∧ fsResolveUid passwd (some name) = 0

/-- The look-ups agree exactly if the third field of every line up to that of the user, or of all
lines if there is none, is missing or a number. -/
theorem lookupUid_agrees_iff (passwd : Option String) (name : String) (hname : name ≠ "")
    (hdigits : name.toList.all isDigit = false) :
    LookupsAgree passwd name ↔ LegibleUpTo (IsLineOf name) (passwdLines passwd) := by
  have hlookup : lookupUid passwd name = scanIdLines name (passwdLines passwd) := by
    simp [lookupUid, lookupId, hname, hdigits, passwdLines]
  constructor
  · intro h
    by_contra hno
    have hreturns := h.returns
    rw [hlookup, scanIdLines_of_not_legible hno] at hreturns
    cases hreturns
  · intro h
    obtain ⟨id, hid, hfound, habsent⟩ := scanIdLines_of_legible h
    rw [← hlookup] at hid
    exact
      { returns := by rw [hid]; rfl
        found := by
          intro hline
          rw [hid, hfound hline]
          rfl
        unknown := by
          intro hnone
          refine ⟨by rw [hid, habsent hnone], ?_⟩
          exact fsScanIdLines_of_absent hnone }

/-- A short line, an empty one and one that is not reached do no harm. -/
theorem lookupUid_agrees_iff_sample :
    LookupsAgree (some "nobody\n\nweb:x:33::/:\n+::::::\n") "web" :=
  (lookupUid_agrees_iff _ "web" (by decide) (by decide)).mpr (by decide +kernel)

/-- A compatibility entry in front of the user's line. -/
theorem lookupUid_throws :
    ¬ ∀ (passwd : Option String) (name : String), name ≠ "" →
      name.toList.all isDigit = false → LookupsAgree passwd name := by
  intro h
  have hreturns := (h (some "+::::::\nweb:x:33:33::/:\n") "web" (by decide) (by decide)).returns
  have hnone : lookupUid (some "+::::::\nweb:x:33:33::/:\n") "web" = none := by decide +kernel
  rw [hnone] at hreturns
  cases hreturns

end TrivialInit
