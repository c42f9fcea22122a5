import TrivialInit.Properties.Privileges

/-!
# ChildEnvironment — the variables and the directory a program starts with

A child starts with the environment of PID 1.  What the socket branch and `setup_child_context` add
can be told variable by variable (`Child.execvp_environ`): an `Environment=` assignment goes before
the variables that announce sockets, these before what is inherited, and the variables of the user
only fill what is left.
-/

namespace TrivialInit

/-! ## One call -/

/-- `setenv` accepts the name. -/
def Settable (name : String) : Prop :=
  name ≠ "" ∧ '=' ∉ name.toList

instance (name : String) : Decidable (Settable name) :=
  inferInstanceAs (Decidable (_ ∧ _))

namespace ChildState

variable (child : ChildState) (os : ChildAnswers)

theorem lookup_setenv_overwrite (name value k : String) :
    (child.setenv name value true).environ.lookup k =
      (if k = name then (if Settable name then some value else none) else none).or
        (child.environ.lookup k) := by
  unfold setenv
  by_cases hname : Settable name
  · obtain ⟨hne, hmem⟩ := hname
    have hset : Settable name := ⟨hne, hmem⟩
    simp only [hne, hmem, Bool.true_eq_false, false_and, or_self, if_false, if_pos hset,
      UnorderedMap.lookup_insert_eq]
    split_ifs <;> rfl
  · have hrefused : name = "" ∨ '=' ∈ name.toList ∨ (true = false ∧ name ∈ child.environ) := by
      by_contra h
      push Not at h
      exact hname ⟨h.1, h.2.1⟩
    rw [if_pos hrefused, if_neg hname, ite_self]
    rfl

/-- Without `overwrite` a variable that is set stays as it is. -/
theorem lookup_setenv_keep {name : String} (hname : Settable name) (value k : String) :
    (child.setenv name value false).environ.lookup k =
      (child.environ.lookup k).or (if k = name then some value else none) := by
  obtain ⟨hne, hmem⟩ := hname
  unfold setenv
  by_cases hset : name ∈ child.environ
  · rw [if_pos (Or.inr (Or.inr ⟨rfl, hset⟩))]
    by_cases hk : k = name
    · subst hk
      obtain ⟨v, hv⟩ := UnorderedMap.exists_lookup hset
      rw [hv]
      rfl
    · rw [if_neg hk, Option.or_none]
  · have haccepted : ¬ (name = "" ∨ '=' ∈ name.toList ∨ (false = false ∧ name ∈ child.environ)) := by
      simp [hne, hmem, hset]
    rw [if_neg haccepted]
    simp only [UnorderedMap.lookup_insert_eq]
    by_cases hk : k = name
    · subst hk
      rw [if_pos rfl, if_pos rfl, AList.lookup_eq_none.mpr hset]
      rfl
    · rw [if_neg hk, if_neg hk, Option.or_none]

@[simp] theorem lookup_putenv (name value k : String) :
    (child.putenv name value).environ.lookup k =
      if k = name then some value else child.environ.lookup k :=
  UnorderedMap.lookup_insert_eq child.environ name k value

@[simp] theorem setgid_environ (gid : Gid) : (child.setgid os gid).environ = child.environ := by
  unfold setgid
  split <;> rfl

@[simp] theorem initgroups_environ (user : String) (gid : Gid) :
    (child.initgroups os user gid).environ = child.environ := by
  unfold initgroups
  split <;> rfl

@[simp] theorem setuid_environ (uid : Uid) : (child.setuid os uid).environ = child.environ := by
  unfold setuid
  split <;> rfl

@[simp] theorem chdir_environ (path : String) : (child.chdir os path).environ = child.environ := by
  unfold chdir
  split <;> rfl

@[simp] theorem setgid_cwd (gid : Gid) : (child.setgid os gid).cwd = child.cwd := by
  unfold setgid
  split <;> rfl

@[simp] theorem initgroups_cwd (user : String) (gid : Gid) :
    (child.initgroups os user gid).cwd = child.cwd := by
  unfold initgroups
  split <;> rfl

@[simp] theorem setuid_cwd (uid : Uid) : (child.setuid os uid).cwd = child.cwd := by
  unfold setuid
  split <;> rfl

@[simp] theorem setenv_cwd (name value : String) (overwrite : Bool) :
    (child.setenv name value overwrite).cwd = child.cwd := by
  unfold setenv
  split <;> rfl

@[simp] theorem chdir_cwd (path : String) :
    (child.chdir os path).cwd = if os.chdir path then path else child.cwd := by
  unfold chdir
  split_ifs <;> rfl

@[simp] theorem setgid_fds (gid : Gid) : (child.setgid os gid).fds = child.fds := by
  unfold setgid
  split <;> rfl

@[simp] theorem initgroups_fds (user : String) (gid : Gid) :
    (child.initgroups os user gid).fds = child.fds := by
  unfold initgroups
  split <;> rfl

@[simp] theorem setuid_fds (uid : Uid) : (child.setuid os uid).fds = child.fds := by
  unfold setuid
  split <;> rfl

@[simp] theorem chdir_fds (path : String) : (child.chdir os path).fds = child.fds := by
  unfold chdir
  split <;> rfl

@[simp] theorem setenv_fds (name value : String) (overwrite : Bool) :
    (child.setenv name value overwrite).fds = child.fds := by
  unfold setenv
  split <;> rfl

theorem createRuntimeDirectory_rest {child child' : ChildState} {unit : UnitFile}
    {os : ChildAnswers} (h : child.createRuntimeDirectory unit os = some child') :
    child'.environ = child.environ ∧ child'.cwd = child.cwd ∧ child'.fds = child.fds := by
  obtain ⟨calls, -, rfl⟩ := Option.map_eq_some_iff.mp h
  exact ⟨rfl, rfl, rfl⟩

end ChildState

/-! ## What the unit asks for -/

/-- The value an `Environment=` assignment gives to a variable. -/
def UnitFile.assigned (unit : UnitFile) (k : String) : Option String :=
  if Settable k then unit.environment.lookup k else none

/-- The user `setup_child_context` becomes; `none` is root. -/
def childUser (unit : UnitFile) (os : ChildAnswers) : Option Uid :=
  if isDynamicUser unit = false ∧ unit.user ≠ "" then
    (lookupUid os.passwd unit.user).filter (fun uid => uid ≠ noId)
  else none

/-- The variables that are set for this user. -/
def userVariable (unit : UnitFile) (os : ChildAnswers) (uid : Uid) (k : String) : Option String :=
  if k = "USER" ∨ k = "LOGNAME" then some unit.user
  else if k = "HOME" then lookupHome os.passwd uid
  else none

/-- The directory a child changes to, if the unit or the user asks for one. -/
def askedDirectory (unit : UnitFile) (os : ChildAnswers) : Option String :=
  if unit.workingDirectory ≠ "" then some unit.workingDirectory
  else ((childUser unit os).filter (fun uid => uid ≠ 0)).bind (lookupHome os.passwd)

namespace ChildState

variable {unit : UnitFile} {os : ChildAnswers} {child child' : ChildState}

theorem lookup_setEnvironment (child : ChildState) (unit : UnitFile) (k : String) :
    (child.setEnvironment unit).environ.lookup k =
      (unit.assigned k).or (child.environ.lookup k) := by
  have hread : (child.setEnvironment unit).environ.lookup k =
      ((unit.environment.lookup k).bind (fun v => if Settable k then some v else none)).or
        (child.environ.lookup k) := by
    unfold setEnvironment
    exact UnorderedMap.read_foldl_entries unit.environment
      (fun (c : ChildState) k => c.environ.lookup k) (fun k v => if Settable k then some v else none)
      (fun c e k => lookup_setenv_overwrite c e.1 e.2 k) child k
  rw [hread]
  unfold UnitFile.assigned
  split_ifs with hname
  · rw [Option.bind_fun_some]
  · cases unit.environment.lookup k <;> rfl

@[simp] theorem setEnvironment_cwd (child : ChildState) (unit : UnitFile) :
    (child.setEnvironment unit).cwd = child.cwd :=
  List.foldlRecOn (motive := fun c : ChildState => c.cwd = child.cwd) unit.environment.entries _ rfl
    (fun c hc e _ => (setenv_cwd c e.1 e.2 true).trans hc)

@[simp] theorem setEnvironment_fds (child : ChildState) (unit : UnitFile) :
    (child.setEnvironment unit).fds = child.fds :=
  List.foldlRecOn (motive := fun c : ChildState => c.fds = child.fds) unit.environment.entries _ rfl
    (fun c hc e _ => (setenv_fds c e.1 e.2 true).trans hc)

/-- `setgid`, `initgroups` and `setuid`. -/
def takeCredentials (child : ChildState) (unit : UnitFile) (os : ChildAnswers) (uid : Uid)
    (gid : Gid) : ChildState :=
  ((if gid = noId then child else child.setgid os gid).initgroups os unit.user
    (if gid = noId then 0 else gid)).setuid os uid

/-- `USER`, `LOGNAME` and `HOME`. -/
def setUserVariables (child : ChildState) (unit : UnitFile) (home : String) : ChildState :=
  ((child.setenv "USER" unit.user false).setenv "LOGNAME" unit.user false).setenv "HOME" home false

/-- `chdir` into the directory of the unit, or else of a user that is not root. -/
def enterDirectory (child : ChildState) (unit : UnitFile) (os : ChildAnswers) (uid : Uid)
    (home : String) : ChildState :=
  if unit.workingDirectory ≠ "" then child.chdir os unit.workingDirectory
  else if uid ≠ 0 then child.chdir os home
  else child

theorem becomeUser_eq {uid : Uid} {gid : Gid} {home : String}
    (hgid : targetGid unit os uid = some gid) (hhome : lookupHome os.passwd uid = some home) :
    becomeUser unit os uid child =
      some ((((child.takeCredentials unit os uid gid).setUserVariables unit home).enterDirectory
        unit os uid home).setEnvironment unit) := by
  unfold becomeUser
  rw [hgid, hhome]
  rfl

theorem takeCredentials_rest (child : ChildState) (unit : UnitFile) (os : ChildAnswers) (uid : Uid)
    (gid : Gid) :
    (child.takeCredentials unit os uid gid).environ = child.environ ∧
      (child.takeCredentials unit os uid gid).cwd = child.cwd := by
  unfold takeCredentials
  split_ifs <;> simp

theorem setUserVariables_spec (child : ChildState) (unit : UnitFile) (home : String) :
    (∀ k, (child.setUserVariables unit home).environ.lookup k =
      (child.environ.lookup k).or
        (if k = "USER" ∨ k = "LOGNAME" then some unit.user
          else if k = "HOME" then some home else none)) ∧
      (child.setUserVariables unit home).cwd = child.cwd := by
  unfold setUserVariables
  refine ⟨fun k => ?_, by simp⟩
  rw [lookup_setenv_keep _ (by decide), lookup_setenv_keep _ (by decide),
    lookup_setenv_keep _ (by decide), Option.or_assoc, Option.or_assoc]
  congr 1
  split_ifs <;> simp_all

theorem enterDirectory_spec (child : ChildState) (unit : UnitFile) (os : ChildAnswers) (uid : Uid)
    (home : String) :
    (child.enterDirectory unit os uid home).environ = child.environ ∧
      (child.enterDirectory unit os uid home).cwd =
        ((if unit.workingDirectory ≠ "" then some unit.workingDirectory
          else if uid ≠ 0 then some home else none).filter os.chdir).getD child.cwd := by
  have hcwd : ∀ path, (child.chdir os path).cwd =
      ((some path).filter os.chdir).getD child.cwd := by
    intro path
    rw [chdir_cwd, Option.filter_some]
    split_ifs <;> rfl
  unfold enterDirectory
  split_ifs
  · exact ⟨chdir_environ child os _, hcwd _⟩
  · exact ⟨chdir_environ child os _, hcwd _⟩
  · exact ⟨rfl, rfl⟩

/-- The user's variables do not replace others. -/
theorem becomeUser_spec {uid : Uid} (h : becomeUser unit os uid child = some child') :
    (∀ k, child'.environ.lookup k =
      (unit.assigned k).or ((child.environ.lookup k).or (userVariable unit os uid k))) ∧
    child'.cwd =
      ((if unit.workingDirectory ≠ "" then some unit.workingDirectory
        else if uid ≠ 0 then lookupHome os.passwd uid else none).filter os.chdir).getD
          child.cwd := by
  cases hgid : targetGid unit os uid with
  | none => simp [becomeUser, hgid] at h
  | some gid =>
      cases hhome : lookupHome os.passwd uid with
      | none => simp [becomeUser, hgid, hhome] at h
      | some home =>
          rw [becomeUser_eq hgid hhome] at h
          obtain rfl := Option.some.inj h
          obtain ⟨henviron₁, hcwd₁⟩ := child.takeCredentials_rest unit os uid gid
          obtain ⟨henviron₂, hcwd₂⟩ :=
            (child.takeCredentials unit os uid gid).setUserVariables_spec unit home
          obtain ⟨henviron₃, hcwd₃⟩ :=
            ((child.takeCredentials unit os uid gid).setUserVariables unit home).enterDirectory_spec
              unit os uid home
          refine ⟨fun k => ?_, ?_⟩
          · rw [lookup_setEnvironment, henviron₃, henviron₂, henviron₁, userVariable, hhome]
          · rw [setEnvironment_cwd, hcwd₃, hcwd₂, hcwd₁]

theorem stayRoot_spec (unit : UnitFile) (os : ChildAnswers) (child : ChildState) :
    (∀ k, (stayRoot unit os child).environ.lookup k =
      (unit.assigned k).or (child.environ.lookup k)) ∧
    (stayRoot unit os child).cwd =
      ((if unit.workingDirectory ≠ "" then some unit.workingDirectory else none).filter
        os.chdir).getD child.cwd := by
  unfold stayRoot
  refine ⟨fun k => ?_, ?_⟩
  · rw [lookup_setEnvironment]
    split_ifs <;> simp
  · rw [setEnvironment_cwd]
    split_ifs
    · rw [chdir_cwd, Option.filter_some]
      split_ifs <;> rfl
    · rfl

/-- The two branches of `setup_child_context`, the first one for a user that is known. -/
theorem setupChildContext_cases {ok : Bool}
    (h : setupChildContext unit os child = some (ok, child')) :
    ∃ c, child.createRuntimeDirectory unit os = some c ∧
      match childUser unit os with
      | some uid => becomeUser unit os uid c = some child'
      | none => child' = stayRoot unit os c := by
  unfold setupChildContext at h
  unfold childUser
  cases hdir : child.createRuntimeDirectory unit os with
  | none => simp [hdir] at h
  | some c =>
      refine ⟨c, rfl, ?_⟩
      simp only [hdir] at h
      split_ifs at h ⊢ with hasks
      · cases huser : lookupUid os.passwd unit.user with
        | none => simp [huser] at h
        | some uid =>
            simp only [huser, Option.filter_some] at h ⊢
            split_ifs at h with hknown
            · simp_all
            · simp_all
      · simp_all

/-- The variables and the directory `setup_child_context` leaves. -/
theorem setupChildContext_spec {ok : Bool}
    (h : setupChildContext unit os child = some (ok, child')) :
    (∀ k, child'.environ.lookup k =
      (unit.assigned k).or ((child.environ.lookup k).or
        ((childUser unit os).bind (fun uid => userVariable unit os uid k)))) ∧
    child'.cwd = ((askedDirectory unit os).filter os.chdir).getD child.cwd := by
  obtain ⟨c, hdir, hcases⟩ := setupChildContext_cases h
  obtain ⟨henviron, hcwd, -⟩ := createRuntimeDirectory_rest hdir
  unfold askedDirectory
  cases huser : childUser unit os with
  | none =>
      rw [huser] at hcases
      obtain ⟨hroot, hrootCwd⟩ := stayRoot_spec unit os c
      refine ⟨fun k => ?_, ?_⟩
      · rw [hcases, hroot, henviron, Option.bind_none, Option.or_none]
      · rw [hcases, hrootCwd, hcwd]
        rfl
  | some uid =>
      rw [huser] at hcases
      obtain ⟨huserEnviron, huserCwd⟩ := becomeUser_spec hcases
      refine ⟨fun k => ?_, ?_⟩
      · rw [huserEnviron, henviron, Option.bind_some]
      · rw [huserCwd, hcwd, Option.filter_some]
        congr 2
        split_ifs <;> simp_all

theorem becomeUser_fds {uid : Uid} (h : becomeUser unit os uid child = some child') :
    child'.fds = child.fds := by
  cases hgid : targetGid unit os uid with
  | none => simp [becomeUser, hgid] at h
  | some gid =>
      cases hhome : lookupHome os.passwd uid with
      | none => simp [becomeUser, hgid, hhome] at h
      | some home =>
          rw [becomeUser_eq hgid hhome] at h
          obtain rfl := Option.some.inj h
          unfold enterDirectory setUserVariables takeCredentials
          split_ifs <;> simp

/-- `setup_child_context` opens and closes nothing. -/
theorem setupChildContext_fds {ok : Bool}
    (h : setupChildContext unit os child = some (ok, child')) : child'.fds = child.fds := by
  obtain ⟨c, hdir, hcases⟩ := setupChildContext_cases h
  obtain ⟨-, -, hfds⟩ := createRuntimeDirectory_rest hdir
  cases huser : childUser unit os with
  | none =>
      rw [huser] at hcases
      rw [hcases, stayRoot, setEnvironment_fds]
      split_ifs <;> simp [hfds]
  | some uid =>
      rw [huser] at hcases
      exact (becomeUser_fds hcases).trans hfds

end ChildState

end TrivialInit
