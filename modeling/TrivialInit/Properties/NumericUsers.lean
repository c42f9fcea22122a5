import TrivialInit.Properties.Numbers
import TrivialInit.Properties.Privileges
import TrivialInit.Properties.UserLookup

/-!
# NumericUsers — `User=` with a number

`lookup_uid` reads a user name of digits as an `unsigned long` and casts it to `uid_t`.  A number
that does not fit loses its upper bits; the one that becomes `(uid_t)-1` is taken for an unknown
user, who runs as root; and a number beyond `unsigned long` ends the child with an exception.
-/

namespace TrivialInit

/-! ## The calls of the child -/

/-- `setuid` is called with `n` and with nothing else: whatever it answers, and whatever ids the
child has, it gets the id `n` if that is accepted, and keeps its own otherwise. -/
def CallsSetuid (unit : UnitFile) (os : ChildAnswers) (n : Nat) : Prop :=
  ∃ u : Uid, u.toNat = n ∧ ∀ (answer : Uid → Bool) (child child' : ChildState) (ok : Bool),
    setupChildContext unit { os with setuid := answer } child = some (ok, child') →
      child'.uid = if answer u then u else child.uid

/-- The child runs as user `n`, or not at all. -/
structure RunsAsNumber (unit : UnitFile) (os : ChildAnswers) (n : Nat) (fate : ChildFate) :
    Prop where
  caught : fate ≠ .terminated
  called : ∀ path argv child, fate = .execvp path argv child → CallsSetuid unit os n
  notRoot : 0 < n → ∀ path argv child, fate = .execvp path argv child → child.uid ≠ 0

/-- The name is a number that fits, or no line up to its own has a third field that is no number. -/
def NameReads (file : Option String) (name : String) : Prop :=
  name = "" ∨
    if name.toList.all isDigit then decimalValue name.toList ≤ ulongMax
    else LegibleUpTo (IsLineOf name) (passwdLines file)

/-- The third field of the line is this id; a missing one counts as 0. -/
def IsLineOfId (id : UInt32) (line : List Char) : Prop :=
  (fsReadIdLine line).2 = id

instance (id : UInt32) : DecidablePred (IsLineOfId id) :=
  fun line => inferInstanceAs (Decidable ((fsReadIdLine line).2 = id))

/-- The number is a user id other than `(uid_t)-1`, the group and the lines before the home
directory can be read, and `setuid` does not refuse to leave root. -/
structure NumberFits (unit : UnitFile) (os : ChildAnswers) (n : Nat) (child : ChildState) :
    Prop where
  range : n < 4294967295
  switches : isDynamicUser unit = false
  group : NameReads os.group unit.group
  home : LegibleUpTo (IsLineOfId (UInt32.ofNat n)) (passwdLines os.passwd)
  accepted : n = 0 ∨ os.setuid (UInt32.ofNat n) = true ∨ child.uid ≠ 0

/-! ## The look-ups -/

theorem ne_empty_of_isDecimal {name : String} (h : IsDecimal name.toList) : name ≠ "" := by
  intro hempty
  exact h.1 (by rw [hempty]; rfl)

theorem lookupUid_of_isDecimal (passwd : Option String) {name : String}
    (h : IsDecimal name.toList) :
    lookupUid passwd name =
      if ulongMax < decimalValue name.toList then none
      else some (UInt32.ofNat (decimalValue name.toList)) := by
  have hne := ne_empty_of_isDecimal h
  have hall : name.toList.all isDigit = true := List.all_eq_true.mpr h.2
  rw [lookupUid, lookupId, if_neg hne, if_pos hall, stoul_of_isDecimal h]
  split_ifs <;> rfl

theorem lookupId_isSome_iff (file : Option String) (name : String) :
    (lookupId file name).isSome ↔ NameReads file name := by
  by_cases hname : name = ""
  · simp [lookupId, NameReads, hname]
  · by_cases hdigits : name.toList.all isDigit = true
    · have hdecimal : IsDecimal name.toList :=
        ⟨fun hnil => hname (String.toList_eq_nil_iff.mp hnil), List.all_eq_true.mp hdigits⟩
      have hlookup := lookupUid_of_isDecimal file hdecimal
      rw [lookupUid] at hlookup
      rw [hlookup, NameReads, if_pos hdigits]
      split_ifs with hbig
      · simp [hname, hbig]
      · simp [Nat.le_of_not_lt hbig]
    · rw [lookupId, if_neg hname, if_neg hdigits, NameReads, if_neg hdigits, or_iff_right hname]
      exact scanIdLines_isSome_iff name (passwdLines file)

theorem scanHomeLines_isSome_iff (uid : Uid) (lines : List (List Char)) :
    (scanHomeLines uid lines).isSome ↔ LegibleUpTo (IsLineOfId uid) lines := by
  induction lines with
  | nil => simp [scanHomeLines, legibleUpTo_nil]
  | cons line lines ih =>
      rw [legibleUpTo_cons, scanHomeLines]
      by_cases hline : Legible line
      · obtain ⟨home, hhome⟩ : ∃ home, readHomeLine line = some ((fsReadIdLine line).2, home) := by
          unfold readHomeLine fsReadIdLine
          dsimp only
          cases hfield : (getFields ':' line)[2]? with
          | none => exact ⟨"", rfl⟩
          | some field =>
              obtain ⟨id, hid⟩ := Option.isSome_iff_exists.mp (hline field hfield)
              simp [hid]
        by_cases hstop : IsLineOfId uid line
        · have hid : (fsReadIdLine line).2 = uid := hstop
          simp [hhome, hline, hstop, hid]
        · have hid : ¬ (fsReadIdLine line).2 = uid := hstop
          simp [hhome, hline, hstop, hid, ih]
      · have hnone : readHomeLine line = none := by
          have hread := readIdLine_of_not_legible hline
          unfold readIdLine at hread
          unfold readHomeLine
          dsimp only at hread ⊢
          cases hfield : (getFields ':' line)[2]? with
          | none => simp [hfield] at hread
          | some field =>
              rw [hfield] at hread
              simpa using hread
        simp [hnone, hline]

/-- The exceptions of the look-ups depend on the files as follows. -/
theorem lookupsReturn_iff (unit : UnitFile) (os : ChildAnswers) (u : Uid) :
    LookupsReturn unit os u ↔
      NameReads os.group unit.group ∧ LegibleUpTo (IsLineOfId u) (passwdLines os.passwd) := by
  unfold LookupsReturn
  refine and_congr ?_ (scanHomeLines_isSome_iff u (passwdLines os.passwd))
  rw [← lookupId_isSome_iff, targetGid, lookupGid]
  by_cases hgroup : unit.group = ""
  · simp [hgroup, lookupId]
  · simp [hgroup]

/-- The sentinel is the residue `2^32 - 1`. -/
theorem ofNat_eq_noId_iff (n : Nat) : UInt32.ofNat n = noId ↔ n % 4294967296 = 4294967295 := by
  rw [← UInt32.toNat_inj, UInt32.toNat_ofNat']
  exact Iff.rfl

theorem ofNat_ne_noId {n : Nat} (h : n < 4294967295) : UInt32.ofNat n ≠ noId := by
  rw [Ne, ofNat_eq_noId_iff]
  omega

/-! ## Staying root -/

section

variable {unit : UnitFile} {os : ChildAnswers}

theorem stayRoot_uid (unit : UnitFile) (os : ChildAnswers) (child : ChildState) :
    (stayRoot unit os child).uid = child.uid := by
  have hids : (stayRoot unit os child).ids = child.ids := by
    unfold stayRoot
    dsimp only
    split_ifs <;> simp
  exact congrArg Prod.fst hids

/-- Whether an exception is thrown for the runtime directory depends on the files only. -/
theorem createRuntimeDirectory_isSome_congr (child child' : ChildState) (answer : Uid → Bool) :
    (child.createRuntimeDirectory unit { os with setuid := answer }).isSome =
      (child'.createRuntimeDirectory unit os).isSome := by
  unfold ChildState.createRuntimeDirectory
  rw [Option.isSome_map, Option.isSome_map]

/-- Without a known user to switch to, the child keeps its ids. -/
def StaysRoot (unit : UnitFile) (os : ChildAnswers) : Prop :=
  ∀ answer child, setupChildContext unit { os with setuid := answer } child =
    (child.createRuntimeDirectory unit { os with setuid := answer }).map (fun child =>
      (true, stayRoot unit { os with setuid := answer } child))

theorem staysRoot_of_dynamic (hdyn : isDynamicUser unit = true) : StaysRoot unit os := by
  intro answer child
  unfold setupChildContext
  cases child.createRuntimeDirectory unit { os with setuid := answer } with
  | none => rfl
  | some child' => simp [hdyn]

theorem staysRoot_of_noId (huser : lookupUid os.passwd unit.user = some noId) :
    StaysRoot unit os := by
  intro answer child
  unfold setupChildContext
  cases child.createRuntimeDirectory unit { os with setuid := answer } with
  | none => rfl
  | some child' =>
      dsimp only
      split_ifs <;> simp [huser]

/-- The end of both child branches. -/
def fateOf (path : String) (argv : List String) : Option (Bool × ChildState) → ChildFate
  | none => .terminated
  | some (_, child) => .execvp path argv child

/-- A child that stays root calls `setuid` with nothing. -/
theorem not_runsAsNumber_of_staysRoot (h : StaysRoot unit os) (n : Nat) (child : ChildState)
    (path : String) (argv : List String) :
    ¬ RunsAsNumber unit os n (fateOf path argv (setupChildContext unit os child)) := by
  intro hruns
  cases hdir : child.createRuntimeDirectory unit os with
  | none =>
      have hsetup : setupChildContext unit os child = none := by
        rw [h os.setuid child, hdir]
        rfl
      exact hruns.caught (by rw [hsetup]; rfl)
  | some child₁ =>
      have hsetup : setupChildContext unit os child = some (true, stayRoot unit os child₁) := by
        rw [h os.setuid child, hdir]
        rfl
      obtain ⟨u, -, hcalls⟩ := hruns.called path argv _ (by rw [hsetup]; rfl)
      -- A child with another id keeps that, although the call would have been accepted.
      let other : ChildState := { child with uid := if u = 0 then 1 else 0 }
      have hsome : (other.createRuntimeDirectory unit
          { os with setuid := fun _ => true }).isSome = true := by
        rw [createRuntimeDirectory_isSome_congr other child, hdir]
        rfl
      obtain ⟨other₁, hother⟩ := Option.isSome_iff_exists.mp hsome
      have hsame : other₁.uid = other.uid :=
        congrArg Prod.fst (ChildState.createRuntimeDirectory_ids hother)
      have huid := hcalls (fun _ => true) other _ true (by rw [h, hother]; rfl)
      rw [stayRoot_uid, hsame] at huid
      have hid : (if u = 0 then (1 : Uid) else 0) = u := huid
      split_ifs at hid with hu
      · rw [hu] at hid
        exact absurd hid (by decide)
      · exact hu hid.symm

/-! ## A known user -/

theorem callsSetuid_of_known (hdyn : isDynamicUser unit = false) (hname : unit.user ≠ "") {u : Uid}
    (huser : lookupUid os.passwd unit.user = some u) (hu : u ≠ noId) :
    CallsSetuid unit os u.toNat := by
  refine ⟨u, rfl, ?_⟩
  intro answer child child' ok hsetup
  have huser' : lookupUid ({ os with setuid := answer } : ChildAnswers).passwd unit.user = some u :=
    huser
  have hreturn := (setupChildContext_isSome_iff hdyn hname huser' hu child).mp (by rw [hsetup]; rfl)
  obtain ⟨gid, hgid⟩ := Option.isSome_iff_exists.mp hreturn.1
  have hids := (setupChildContext_ids hdyn hname huser' hu hsetup hgid).2
  exact congrArg Prod.fst hids

/-- The child does not run as its user if the look-up throws, or answers with the sentinel. -/
theorem known_of_runsAsNumber (hnumber : IsDecimal unit.user.toList) {child : ChildState}
    {path : String} {argv : List String}
    (hruns : RunsAsNumber unit os (decimalValue unit.user.toList)
      (fateOf path argv (setupChildContext unit os child))) :
    isDynamicUser unit = false ∧
      lookupUid os.passwd unit.user = some (UInt32.ofNat (decimalValue unit.user.toList)) ∧
      UInt32.ofNat (decimalValue unit.user.toList) ≠ noId := by
  have hlookup := lookupUid_of_isDecimal os.passwd hnumber
  have hname := ne_empty_of_isDecimal hnumber
  have hdyn : isDynamicUser unit = false := by
    by_contra hdyn
    exact not_runsAsNumber_of_staysRoot (staysRoot_of_dynamic (by simpa using hdyn)) _ child path
      argv hruns
  split_ifs at hlookup with hbig
  · have hthrows : setupChildContext unit os child = none := by
      unfold setupChildContext
      cases child.createRuntimeDirectory unit os with
      | none => rfl
      | some child' => simp [hdyn, hname, hlookup]
    exact absurd (by rw [hthrows]; rfl) hruns.caught
  · refine ⟨hdyn, hlookup, ?_⟩
    intro hu
    rw [hu] at hlookup
    exact not_runsAsNumber_of_staysRoot (staysRoot_of_noId hlookup) _ child path argv hruns

theorem numberFits_of_runsAsNumber (hnumber : IsDecimal unit.user.toList) {child : ChildState}
    {path : String} {argv : List String}
    (hruns : RunsAsNumber unit os (decimalValue unit.user.toList)
      (fateOf path argv (setupChildContext unit os child))) :
    NumberFits unit os (decimalValue unit.user.toList) child := by
  obtain ⟨hdyn, hlookup, hu⟩ := known_of_runsAsNumber hnumber hruns
  have hname := ne_empty_of_isDecimal hnumber
  generalize decimalValue unit.user.toList = n at *
  have hreturns : (setupChildContext unit os child).isSome := by
    cases hsetup : setupChildContext unit os child with
    | none => exact absurd (by rw [hsetup]; rfl) hruns.caught
    | some result => rfl
  have hlookups := (setupChildContext_isSome_iff hdyn hname hlookup hu child).mp hreturns
  obtain ⟨hgroup, hhome⟩ := (lookupsReturn_iff _ _ _).mp hlookups
  obtain ⟨⟨ok, child'⟩, hsetup⟩ := Option.isSome_iff_exists.mp hreturns
  have hfate : fateOf path argv (setupChildContext unit os child) = .execvp path argv child' := by
    rw [hsetup]
    rfl
  obtain ⟨u, hn, -⟩ := hruns.called path argv child' hfate
  obtain ⟨gid, hgid⟩ := Option.isSome_iff_exists.mp hlookups.1
  have huid := congrArg Prod.fst (setupChildContext_ids hdyn hname hlookup hu hsetup hgid).2
  refine
    { range := ?_
      switches := hdyn
      group := hgroup
      home := hhome
      accepted := ?_ }
  · have hlt : u.toNat < 4294967296 := u.toNat_lt
    rw [Ne, ofNat_eq_noId_iff] at hu
    omega
  · by_contra hno
    rw [not_or, not_or, not_not] at hno
    obtain ⟨hzero, hrefused, hroot⟩ := hno
    have hnot := hruns.notRoot (Nat.pos_of_ne_zero hzero) path argv child' hfate
    have hid : child'.uid = child.uid := by
      rw [if_neg hrefused] at huid
      exact huid
    exact hnot (hid.trans hroot)

theorem runsAsNumber_of_numberFits (hnumber : IsDecimal unit.user.toList) {child : ChildState}
    (hfits : NumberFits unit os (decimalValue unit.user.toList) child) (path : String)
    (argv : List String) :
    RunsAsNumber unit os (decimalValue unit.user.toList)
      (fateOf path argv (setupChildContext unit os child)) := by
  have hlookup := lookupUid_of_isDecimal os.passwd hnumber
  have hname := ne_empty_of_isDecimal hnumber
  generalize decimalValue unit.user.toList = n at *
  have hrange := hfits.range
  rw [if_neg (by unfold ulongMax; omega)] at hlookup
  have hu := ofNat_ne_noId hrange
  have hvalue : (UInt32.ofNat n).toNat = n := UInt32.toNat_ofNat_of_lt (by
    rw [UInt32.size]
    omega)
  have hlookups : LookupsReturn unit os (UInt32.ofNat n) :=
    (lookupsReturn_iff _ _ _).mpr ⟨hfits.group, hfits.home⟩
  have hsome := (setupChildContext_isSome_iff hfits.switches hname hlookup hu child).mpr hlookups
  obtain ⟨⟨ok, child'⟩, hsetup⟩ := Option.isSome_iff_exists.mp hsome
  obtain ⟨gid, hgid⟩ := Option.isSome_iff_exists.mp hlookups.1
  have huid := congrArg Prod.fst
    (setupChildContext_ids hfits.switches hname hlookup hu hsetup hgid).2
  rw [hsetup]
  refine
    { caught := by simp [fateOf]
      called := ?_
      notRoot := ?_ }
  · intro path' argv' child'' _
    have hcalls := callsSetuid_of_known hfits.switches hname hlookup hu
    rwa [hvalue] at hcalls
  · intro hpos path' argv' child'' hfate
    obtain ⟨-, -, rfl⟩ := ChildFate.execvp.inj hfate
    intro hroot
    have hid : (if os.setuid (UInt32.ofNat n) = true then UInt32.ofNat n else child.uid) = 0 :=
      huid.symm.trans hroot
    split_ifs at hid with haccept
    · have hzero := congrArg UInt32.toNat hid
      rw [hvalue] at hzero
      exact absurd hzero (Nat.ne_of_gt hpos)
    · rcases hfits.accepted with hzero | hset | hother
      · omega
      · exact haccept hset
      · exact hother hid

theorem runsAsNumber_setup_iff (hnumber : IsDecimal unit.user.toList) (child : ChildState)
    (path : String) (argv : List String) :
    RunsAsNumber unit os (decimalValue unit.user.toList)
        (fateOf path argv (setupChildContext unit os child)) ↔
      NumberFits unit os (decimalValue unit.user.toList) child := by
  constructor
  · exact fun hruns => numberFits_of_runsAsNumber hnumber hruns
  · exact fun hfits => runsAsNumber_of_numberFits hnumber hfits path argv

end

/-! ## The two child branches -/

theorem numberFits_congr {unit : UnitFile} {os : ChildAnswers} {n : Nat} {child child' : ChildState}
    (h : child'.uid = child.uid) : NumberFits unit os n child' ↔ NumberFits unit os n child := by
  constructor <;> rintro ⟨hrange, hswitches, hgroup, hhome, haccepted⟩
  · exact ⟨hrange, hswitches, hgroup, hhome, h ▸ haccepted⟩
  · exact ⟨hrange, hswitches, hgroup, hhome, h ▸ haccepted⟩

/-- With a number as its user, a child on either spawn path gets to `execvp` with that user or not at
all, and without an exception, exactly if the number fits. -/
theorem numericUser_iff (unit : UnitFile) (os : ChildAnswers) (child : ChildState)
    (hnumber : IsDecimal unit.user.toList) (execPath : String) (args : List String)
    (env : SocketEnv) :
    let n := decimalValue unit.user.toList
    (RunsAsNumber unit os n (spawnChild execPath args (some unit) os child) ↔
      NumberFits unit os n child) ∧
    (RunsAsNumber unit os n (spawnWithSocketFdsChild execPath args env (some unit) os child) ↔
      ((rearrangeFds env.fds child.fds).isSome → NumberFits unit os n child)) := by
  intro n
  constructor
  · have hspawn : spawnChild execPath args (some unit) os child =
        fateOf execPath (execPath :: args) (setupChildContext unit os child) := by
      rw [spawnChild_some]
      cases setupChildContext unit os child <;> rfl
    rw [hspawn]
    exact runsAsNumber_setup_iff hnumber child execPath (execPath :: args)
  · cases hfds : rearrangeFds env.fds child.fds with
    | none =>
        -- The child exits before it looks at its user.
        have hspawn : spawnWithSocketFdsChild execPath args env (some unit) os child =
            .exited 125 := by
          simp [spawnWithSocketFdsChild, hfds]
        rw [hspawn]
        refine iff_of_true ?_ (by simp)
        exact
          { caught := by simp
            called := by intro path argv child' h; cases h
            notRoot := by intro _ path argv child' h; cases h }
    | some fds =>
        let child₁ : ChildState := { child with fds := fds }
        let child₂ := ((child₁.putenv "LISTEN_PID" (toString child.pid)).putenv "LISTEN_FDS"
          (toString env.fds.length)).putenv "LISTEN_FDNAMES"
            (":".intercalate (env.names.take env.fds.length))
        have hspawn : spawnWithSocketFdsChild execPath args env (some unit) os child =
            fateOf execPath (execPath :: args) (setupChildContext unit os child₂) := by
          simp only [spawnWithSocketFdsChild, hfds]
          cases setupChildContext unit os child₂ <;> rfl
        rw [hspawn, runsAsNumber_setup_iff hnumber]
        simp only [Option.isSome_some, true_imp_iff]
        exact numberFits_congr rfl

/-- A machine without accounts, on which every call of the child succeeds. -/
def noAccounts : ChildAnswers :=
  { passwd := none
    group := none
    setgid := fun _ => true
    initgroups := fun _ gid => some [gid]
    setuid := fun _ => true
    chdir := fun _ => true }

/-- `User=1000`. -/
theorem numericUser_iff_sample :
    RunsAsNumber { user := "1000" } noAccounts 1000
      (spawnChild "/bin/app" [] (some { user := "1000" }) noAccounts
        { pid := 100, uid := 0, gid := 0 }) := by
  have hiff := (numericUser_iff { user := "1000" } noAccounts { pid := 100, uid := 0, gid := 0 }
    (by decide +kernel) "/bin/app" [] { fds := [], names := [] }).1
  refine hiff.mpr ?_
  exact
    { range := by decide +kernel
      switches := by decide
      group := Or.inl rfl
      home := by decide +kernel
      accepted := Or.inr (Or.inl rfl) }

/-- `User=4294967296` is executed as root. -/
theorem numericUser_truncated :
    ¬ ∀ (unit : UnitFile) (os : ChildAnswers) (child : ChildState), isDynamicUser unit = false →
      IsDecimal unit.user.toList → ∀ (execPath : String) (args : List String),
        RunsAsNumber unit os (decimalValue unit.user.toList)
          (spawnChild execPath args (some unit) os child) := by
  intro h
  have hruns := h { user := "4294967296" } noAccounts { pid := 100, uid := 0, gid := 0 }
    (by decide) (by decide +kernel) "/bin/app" []
  have hspawn : ∃ path argv child, spawnChild "/bin/app" [] (some { user := "4294967296" })
      noAccounts { pid := 100, uid := 0, gid := 0 } = .execvp path argv child ∧ child.uid = 0 :=
    ⟨_, _, _, rfl, by decide +kernel⟩
  obtain ⟨path, argv, child, hfate, hroot⟩ := hspawn
  exact hruns.notRoot (by decide +kernel) path argv child hfate hroot

end TrivialInit
