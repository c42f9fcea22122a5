import TrivialInit.Mixins.ChildContext

/-!
# Privileges — the credentials a service is executed with

`setup_child_context` looks at no result of `setgid`, `initgroups` and `setuid`, and always returns
true.  So a child that reaches `execvp` has the ids of its unit exactly if the two calls succeeded,
or had nothing to change.
-/

namespace TrivialInit

/-! ## What the calls do to the ids -/

namespace ChildState

variable (child : ChildState) (os : ChildAnswers)

/-- The user and group id. -/
def ids (child : ChildState) : Uid × Gid :=
  (child.uid, child.gid)

@[simp] theorem setgid_ids (gid : Gid) :
    (child.setgid os gid).ids =
      (child.ids.1, if os.setgid gid then gid else child.ids.2) := by
  unfold setgid
  split <;> simp [ids, *]

@[simp] theorem setuid_ids (uid : Uid) :
    (child.setuid os uid).ids =
      (if os.setuid uid then uid else child.ids.1, child.ids.2) := by
  unfold setuid
  split <;> simp [ids, *]

@[simp] theorem initgroups_ids (user : String) (gid : Gid) :
    (child.initgroups os user gid).ids = child.ids := by
  unfold initgroups
  split <;> rfl

@[simp] theorem chdir_ids (path : String) : (child.chdir os path).ids = child.ids := by
  unfold chdir
  split <;> rfl

@[simp] theorem setenv_ids (name value : String) (overwrite : Bool) :
    (child.setenv name value overwrite).ids = child.ids := by
  unfold setenv
  split <;> rfl

@[simp] theorem putenv_ids (name value : String) : (child.putenv name value).ids = child.ids :=
  rfl

@[simp] theorem setEnvironment_ids (unit : UnitFile) :
    (child.setEnvironment unit).ids = child.ids := by
  unfold setEnvironment
  induction unit.environment.entries generalizing child with
  | nil => rfl
  | cons e entries ih =>
      exact (ih (child.setenv e.1 e.2 true)).trans (setenv_ids child e.1 e.2 true)

theorem createRuntimeDirectory_ids {child child' : ChildState} {unit : UnitFile}
    {os : ChildAnswers} (h : child.createRuntimeDirectory unit os = some child') :
    child'.ids = child.ids := by
  obtain ⟨calls, -, rfl⟩ := Option.map_eq_some_iff.mp h
  rfl

end ChildState

/-! ## The branch for a known user -/

section KnownUser

variable {unit : UnitFile} {os : ChildAnswers} {u : Uid}

/-- No look-up that follows the one of the user ends in an exception. -/
def LookupsReturn (unit : UnitFile) (os : ChildAnswers) (u : Uid) : Prop :=
  (targetGid unit os u).isSome ∧ (lookupHome os.passwd u).isSome

theorem targetGid_ne_noId (hu : u ≠ noId) {gid : Gid} (h : targetGid unit os u = some gid) :
    gid ≠ noId := by
  unfold targetGid at h
  split_ifs at h with hgroup
  · exact Option.some.inj h ▸ hu
  · obtain ⟨found, -, hfound⟩ := Option.map_eq_some_iff.mp h
    split_ifs at hfound with hunknown
    · exact hfound ▸ hu
    · exact hfound ▸ hunknown

/-- With the user known, the directory is created unless the look-up of the group throws. -/
theorem createRuntimeDirectory_isSome (child : ChildState)
    (huser : lookupUid os.passwd unit.user = some u)
    (hgid : (targetGid unit os u).isSome) : (child.createRuntimeDirectory unit os).isSome := by
  unfold ChildState.createRuntimeDirectory
  rw [Option.isSome_map]
  unfold runtimeDirectoryCalls
  unfold targetGid at hgid
  grind

theorem becomeUser_isSome_iff (child : ChildState) :
    (becomeUser unit os u child).isSome ↔ LookupsReturn unit os u := by
  unfold becomeUser LookupsReturn
  cases hgid : targetGid unit os u with
  | none => simp
  | some gid =>
      cases hhome : lookupHome os.passwd u with
      | none => simp
      | some home => simp

/-- `setgid` and `setuid` each set their own id, or fail and leave it. -/
theorem becomeUser_ids {child child' : ChildState} {gid : Gid} (hne : gid ≠ noId)
    (hgid : targetGid unit os u = some gid) (h : becomeUser unit os u child = some child') :
    child'.ids =
      (if os.setuid u then u else child.uid, if os.setgid gid then gid else child.gid) := by
  simp only [becomeUser, hgid, hne, if_false] at h
  cases hhome : lookupHome os.passwd u with
  | none => simp [hhome] at h
  | some home =>
      simp only [hhome, Option.some.injEq] at h
      subst h
      have hcalls : ∀ c : ChildState, (if unit.workingDirectory ≠ "" then
          c.chdir os unit.workingDirectory else if u ≠ 0 then c.chdir os home else c).ids =
            c.ids := by
        intro c
        split_ifs <;> simp
      simp only [ChildState.setEnvironment_ids, hcalls, ChildState.setenv_ids,
        ChildState.setuid_ids, ChildState.initgroups_ids, ChildState.setgid_ids]
      rfl

/-- A known user is looked up again after the runtime directory has been created. -/
theorem setupChildContext_known (hdyn : isDynamicUser unit = false) (hname : unit.user ≠ "")
    (huser : lookupUid os.passwd unit.user = some u) (hu : u ≠ noId) (child : ChildState) :
    setupChildContext unit os child =
      (child.createRuntimeDirectory unit os).bind (fun child =>
        (becomeUser unit os u child).map (fun child => (true, child))) := by
  unfold setupChildContext
  cases child.createRuntimeDirectory unit os with
  | none => rfl
  | some child' => simp [hdyn, hname, huser, hu]

theorem setupChildContext_isSome_iff (hdyn : isDynamicUser unit = false) (hname : unit.user ≠ "")
    (huser : lookupUid os.passwd unit.user = some u) (hu : u ≠ noId) (child : ChildState) :
    (setupChildContext unit os child).isSome ↔ LookupsReturn unit os u := by
  rw [setupChildContext_known hdyn hname huser hu]
  constructor
  · intro h
    cases hdir : child.createRuntimeDirectory unit os with
    | none => simp [hdir] at h
    | some child' => exact (becomeUser_isSome_iff child').mp (by simpa [hdir] using h)
  · intro h
    obtain ⟨child', hdir⟩ := Option.isSome_iff_exists.mp
      (createRuntimeDirectory_isSome child huser h.1)
    simpa [hdir] using (becomeUser_isSome_iff child').mpr h

theorem setupChildContext_ids (hdyn : isDynamicUser unit = false) (hname : unit.user ≠ "")
    (huser : lookupUid os.passwd unit.user = some u) (hu : u ≠ noId) {child child' : ChildState}
    {ok : Bool} (h : setupChildContext unit os child = some (ok, child')) {gid : Gid}
    (hgid : targetGid unit os u = some gid) :
    ok = true ∧ child'.ids =
      (if os.setuid u then u else child.uid, if os.setgid gid then gid else child.gid) := by
  rw [setupChildContext_known hdyn hname huser hu] at h
  obtain ⟨c, hdir, hbecome⟩ := Option.bind_eq_some_iff.mp h
  obtain ⟨c', hc', heq⟩ := Option.map_eq_some_iff.mp hbecome
  obtain ⟨rfl, rfl⟩ := Prod.mk.inj heq
  have hids := becomeUser_ids (targetGid_ne_noId hu hgid) hgid hc'
  have hdirIds := ChildState.createRuntimeDirectory_ids hdir
  obtain ⟨huid, hgid'⟩ := Prod.mk.inj hdirIds
  exact ⟨rfl, by rw [hids, huid, hgid']⟩

end KnownUser

/-! ## Reaching `execvp` -/

/-- The result is always true, so the child of `spawn` never takes its `_exit(126)`. -/
theorem setupChildContext_true {unit : UnitFile} {os : ChildAnswers} {child child' : ChildState}
    {ok : Bool} (h : setupChildContext unit os child = some (ok, child')) : ok = true := by
  unfold setupChildContext at h
  grind [Option.map_eq_some_iff]

theorem spawnChild_some (execPath : String) (args : List String) (unit : UnitFile)
    (os : ChildAnswers) (child : ChildState) :
    spawnChild execPath args (some unit) os child =
      match setupChildContext unit os child with
      | none => .terminated
      | some (_, child) => .execvp execPath (execPath :: args) child := by
  cases hsetup : setupChildContext unit os child with
  | none => simp [spawnChild, hsetup]
  | some result =>
      obtain ⟨ok, child'⟩ := result
      simp [spawnChild, hsetup, setupChildContext_true hsetup]

/-- If it gets to `execvp`, it has this user id and this group id. -/
def ChildFate.RunsAs (fate : ChildFate) (u : Uid) (gid : Option Gid) : Prop :=
  ∀ path argv child, fate = .execvp path argv child → child.uid = u ∧ some child.gid = gid

/-- `setuid` and `setgid` succeed, or the child has their argument as its id already. -/
def CredentialCallsWork (unit : UnitFile) (os : ChildAnswers) (u : Uid) (child : ChildState) :
    Prop :=
  ∀ gid, targetGid unit os u = some gid →
    (os.setuid u = true ∨ child.uid = u) ∧ (os.setgid gid = true ∨ child.gid = gid)

/-- The common end of the two child branches. -/
theorem runsAs_setup_iff {unit : UnitFile} {os : ChildAnswers} {u : Uid}
    (hdyn : isDynamicUser unit = false) (hname : unit.user ≠ "")
    (huser : lookupUid os.passwd unit.user = some u) (hu : u ≠ noId) (child : ChildState)
    (path : String) (argv : List String) {fate : ChildFate}
    (hfate : fate = match setupChildContext unit os child with
      | none => .terminated
      | some (_, child) => .execvp path argv child) :
    fate.RunsAs u (targetGid unit os u) ↔
      (LookupsReturn unit os u → CredentialCallsWork unit os u child) := by
  have hreturn := setupChildContext_isSome_iff hdyn hname huser hu child
  cases hsetup : setupChildContext unit os child with
  | none =>
      -- The child does not get to `execvp`.
      have hno : ¬ LookupsReturn unit os u := by simpa [hsetup] using hreturn.symm.not
      simp [hno, hfate, hsetup, ChildFate.RunsAs]
  | some result =>
      obtain ⟨ok, child'⟩ := result
      have hyes : LookupsReturn unit os u := hreturn.mp (by simp [hsetup])
      obtain ⟨gid, hgid⟩ := Option.isSome_iff_exists.mp hyes.1
      obtain ⟨-, hids⟩ := setupChildContext_ids hdyn hname huser hu hsetup hgid
      obtain ⟨huid', hgid'⟩ := Prod.mk.inj hids
      have hruns : fate.RunsAs u (targetGid unit os u) ↔ child'.uid = u ∧ child'.gid = gid := by
        simp [ChildFate.RunsAs, hfate, hsetup, hgid]
      have hwork : CredentialCallsWork unit os u child ↔
          (os.setuid u = true ∨ child.uid = u) ∧ (os.setgid gid = true ∨ child.gid = gid) := by
        simp [CredentialCallsWork, hgid]
      rw [hruns, hwork, huid', hgid']
      simp only [hyes, true_imp_iff]
      split_ifs <;> simp [*]

/-- A child reaches `execvp` with the user id of its unit and the target group id exactly if
`setuid` and `setgid` succeed or have nothing to change, on both spawn paths. -/
theorem children_run_as_user_iff (unit : UnitFile) (os : ChildAnswers) (u : Uid)
    (hdyn : isDynamicUser unit = false) (hname : unit.user ≠ "")
    (huser : lookupUid os.passwd unit.user = some u) (hu : u ≠ noId)
    (child : ChildState) (execPath : String) (args : List String) (env : SocketEnv) :
    ((spawnChild execPath args (some unit) os child).RunsAs u (targetGid unit os u) ↔
      (LookupsReturn unit os u → CredentialCallsWork unit os u child)) ∧
    ((spawnWithSocketFdsChild execPath args env (some unit) os child).RunsAs u
        (targetGid unit os u) ↔
      ((rearrangeFds env.fds child.fds).isSome → LookupsReturn unit os u →
        CredentialCallsWork unit os u child)) := by
  constructor
  · exact runsAs_setup_iff hdyn hname huser hu child execPath (execPath :: args)
      (spawnChild_some execPath args unit os child)
  · cases hfds : rearrangeFds env.fds child.fds with
    | none => simp [spawnWithSocketFdsChild, hfds, ChildFate.RunsAs]
    | some fds =>
        -- The descriptors and `LISTEN_*` are set before the credentials.
        simp only [spawnWithSocketFdsChild, hfds, Option.isSome_some, true_imp_iff]
        exact (runsAs_setup_iff hdyn hname huser hu _ execPath (execPath :: args) rfl).trans Iff.rfl

/-- A user with the number 1000, whose child may not change its user id. -/
def refusedUid : ChildAnswers :=
  { passwd := some "root:x:0:0::/root:/bin/sh\napp:x:1000:1000::/home/app:/bin/sh\n"
    group := none
    setgid := fun _ => true
    initgroups := fun _ gid => some [gid]
    setuid := fun _ => false
    chdir := fun _ => true }

/-- When `setuid` works, the child of a service with `User=app` runs as user 1000. -/
theorem children_run_as_user_iff_sample :
    (spawnChild "/bin/app" [] (some { user := "app" }) { refusedUid with setuid := fun _ => true }
      { pid := 100, uid := 0, gid := 0 }).RunsAs 1000 (some 1000) := by
  refine (children_run_as_user_iff { user := "app" } { refusedUid with setuid := fun _ => true }
    1000 (by decide) (by decide) (by decide +kernel) (by decide)
    { pid := 100, uid := 0, gid := 0 } "/bin/app" [] { fds := [], names := [] }).1.mpr ?_
  intro _ gid _
  exact ⟨Or.inl rfl, Or.inl rfl⟩

/-- When `setuid` fails, the child executes the service as root. -/
theorem child_runs_as_root :
    ¬ ∀ (unit : UnitFile) (os : ChildAnswers) (u : Uid), isDynamicUser unit = false →
      unit.user ≠ "" → lookupUid os.passwd unit.user = some u → u ≠ noId → u ≠ 0 →
      ∀ (child : ChildState) (execPath : String) (args : List String) (env : SocketEnv),
        (spawnChild execPath args (some unit) os child).RunsAs u (targetGid unit os u) ∧
          (spawnWithSocketFdsChild execPath args env (some unit) os child).RunsAs u
            (targetGid unit os u) := by
  intro h
  have huser : lookupUid refusedUid.passwd "app" = some 1000 := by decide +kernel
  have hruns := (h { user := "app" } refusedUid 1000 (by decide) (by decide) huser (by decide)
    (by decide) { pid := 100, uid := 0, gid := 0 } "/bin/app" [] { fds := [], names := [] }).1
  have hwork := (runsAs_setup_iff (by decide) (by decide) huser (by decide) _ _ _
    (spawnChild_some _ _ _ _ _)).mp hruns ⟨by decide, by decide +kernel⟩
  rcases (hwork 1000 rfl).1 with hset | hsame
  · exact Bool.noConfusion hset
  · exact absurd hsame (by decide)

end TrivialInit
