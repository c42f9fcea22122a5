import TrivialInit.Lib.Handles
import TrivialInit.Mixins.SocketBind

/-!
# BoundDescriptors — no listening descriptor is leaked or closed twice

Each of the seven listener kinds either fails and leaves the descriptor table as it was, or opens
one descriptor (`createAndBind_opens`).  So `execute(SocketBind)` acquires exactly the descriptors
it stores, and `close_all_sockets` releases them.
-/

namespace TrivialInit

open Handles

/-! ## One listen entry -/

/-- One descriptor more than in `t` is open, and the caller holds it. -/
def Holding (t : FdTable) (fd : Int) (k : Kernel) : Prop :=
  0 ≤ fd ∧ Acquires t k.fds [fd]

/-- The function returned a descriptor that is open, or failed and left none open. -/
structure Opens (t : FdTable) (r : Option Int × Kernel) : Prop where
  failed : r.1 = none → r.2.fds = t
  opened : ∀ fd, r.1 = some fd → Holding t fd r.2

namespace Opens

variable {t : FdTable} {k : Kernel} {fd : Int}

theorem fail (h : k.fds = t) : Opens t (none, k) where
  failed := fun _ => h
  opened := fun _ hfd => nomatch hfd

theorem ret (h : Holding t fd k) : Opens t (some fd, k) where
  failed := fun hfd => nomatch hfd
  opened := fun _ hfd => Option.some.inj hfd ▸ h

end Opens

section Listeners

variable {t : FdTable} {k : Kernel} {fd : Int} {sock : SocketUnit} {le : ListenEntry}
  {os : BindAnswers}

theorem openFd_opens (k : Kernel) (c : SocketCall) (os : OpenAnswer) :
    Opens k.fds (k.openFd c os) := by
  unfold Kernel.openFd
  cases hanswer : os.answer k.fds with
  | none => exact Opens.fail rfl
  | some opened =>
      obtain ⟨fd, file⟩ := opened
      obtain ⟨hnonneg, hfree⟩ := os.free k.fds fd file hanswer
      exact Opens.ret ⟨hnonneg, Acquires.single hfree _⟩

/-- The error exits close the descriptor they hold. -/
theorem closeAndFail_opens (h : Holding t fd k) : Opens t (k.closeAndFail fd) :=
  Opens.fail h.2.releaseAll_eq

theorem listenOn_opens (kind : SocketKind) (h : Holding t fd k) :
    Opens t (listenOn sock kind fd os k) := by
  unfold listenOn
  dsimp only
  split_ifs
  · exact Opens.ret h
  · exact closeAndFail_opens h
  · exact Opens.ret h

theorem bindInetOn_opens (kind : SocketKind) (address : SocketAddress) (h : Holding t fd k) :
    Opens t (bindInetOn sock kind fd address os k) := by
  unfold bindInetOn
  dsimp only
  split_ifs
  · exact closeAndFail_opens h
  · exact listenOn_opens kind h

theorem bindUnix_opens (k : Kernel) : Opens k.fds (bindUnix sock le os k) := by
  have hsocket := openFd_opens k (.socket .unix (socketKind le.type) 0) os.socket
  unfold bindUnix
  dsimp only
  generalize k.openFd _ _ = opened at hsocket
  obtain ⟨_ | fd, k'⟩ := opened
  · exact Opens.fail (hsocket.failed rfl)
  · have hold := hsocket.opened fd rfl
    -- The calls on the way to `bind` open and close nothing.
    cases rfindChar le.address '/' <;> dsimp only <;> split_ifs
    all_goals first
      | exact closeAndFail_opens hold
      | exact listenOn_opens _ hold

/-- The IPv4 socket. -/
theorem bindInet4_opens (kind : SocketKind) (address : SocketAddress) (k : Kernel) :
    Opens k.fds (match k.openFd (.socket .inet kind 0) os.socket with
      | (none, k) => (none, k)
      | (some fd, k) => bindInetOn sock kind fd address os k) := by
  have hsocket := openFd_opens k (.socket .inet kind 0) os.socket
  generalize k.openFd _ _ = opened at hsocket
  obtain ⟨_ | fd, k'⟩ := opened
  · exact Opens.fail (hsocket.failed rfl)
  · exact bindInetOn_opens kind address (hsocket.opened fd rfl)

theorem openInet6_opens (os : BindAnswers) (host : String) (kind : SocketKind) (k : Kernel) :
    Opens k.fds (openInet6 host kind os k) := by
  unfold openInet6
  dsimp only
  split_ifs
  · exact openFd_opens k _ _
  · exact Opens.fail rfl

theorem bindInet_opens (k : Kernel) : Opens k.fds (bindInet sock le os k) := by
  have hfirst := openInet6_opens os (parseInetAddr le.address).1 (socketKind le.type) k
  unfold bindInet
  dsimp only
  split
  · exact Opens.fail rfl
  · generalize openInet6 _ _ _ _ = opened at hfirst
    obtain ⟨_ | fd, k'⟩ := opened
    · -- Without an IPv6 socket nothing is open yet.
      exact (hfirst.failed rfl) ▸ bindInet4_opens _ _ k'
    · exact bindInetOn_opens _ _ (hfirst.opened fd rfl)

theorem bindNetlink_opens (k : Kernel) : Opens k.fds (bindNetlink le os k) := by
  have hsocket := openFd_opens k (.socket .netlink .raw (parseNetlinkAddress le.address).1) os.socket
  unfold bindNetlink
  dsimp only
  generalize k.openFd _ _ = opened at hsocket
  obtain ⟨_ | fd, k'⟩ := opened
  · exact Opens.fail (hsocket.failed rfl)
  · have hold := hsocket.opened fd rfl
    dsimp only
    split_ifs
    · exact closeAndFail_opens hold
    · exact Opens.ret hold

theorem createFifo_opens (k : Kernel) : Opens k.fds (createFifo sock le os k) := by
  unfold createFifo
  dsimp only
  split_ifs
  · exact Opens.fail rfl
  · exact openFd_opens ((k.call _).call _) _ _

theorem createAndBind_opens (sock : SocketUnit) (le : ListenEntry) (os : BindAnswers)
    (k : Kernel) : Opens k.fds (createAndBind sock le os k) := by
  unfold createAndBind
  cases le.type <;> dsimp only
  case stream | datagram | sequentialPacket =>
    split_ifs
    · exact bindUnix_opens k
    · exact bindInet_opens k
  case fifo => exact createFifo_opens k
  case special => exact openFd_opens k _ _
  case netlink => exact bindNetlink_opens k
  case messageQueue => exact openFd_opens k _ _

end Listeners

/-! ## One socket unit -/

/-- The descriptors stored in a list of listen entries. -/
def listenFds (listen : List ListenEntry) : List Int :=
  (listen.map (fun le => le.fd)).filter (fun fd => decide (0 ≤ fd))

/-- Every entry holds a descriptor or -1. -/
def FdOrMinusOne (listen : List ListenEntry) : Prop :=
  ∀ le ∈ listen, le.fd = -1 ∨ 0 ≤ le.fd

theorem listenFds_cons (le : ListenEntry) (listen : List ListenEntry) :
    listenFds (le :: listen) = listenFds [le] ++ listenFds listen := by
  unfold listenFds
  simp only [List.map_cons, List.map_nil]
  exact List.filter_append [le.fd] _

theorem listenFds_unbound {listen : List ListenEntry} (h : ∀ le ∈ listen, le.fd = -1) :
    listenFds listen = [] := by
  simp +contextual [listenFds, h]

/-- `set_cloexec` keeps what is open. -/
theorem Holding.setCloexec {t : FdTable} {k : Kernel} {fd : Int} (h : Holding t fd k) (on : Bool) :
    Acquires t (k.fds.setCloexec fd on) [fd] := by
  unfold FdTable.setCloexec
  cases k.fds fd with
  | none => exact h.2
  | some d => exact h.2.update (List.mem_singleton.mpr rfl) _

/-- An entry that was not bound keeps its descriptor -1, and nothing was opened for it. -/
theorem bindEntry_failed (sock : SocketUnit) (os : BindAnswers) (le : ListenEntry) (t : Traced)
    (hfail : (findChar le.address '%').isSome ∨
      (createAndBind sock le os { fds := t.init.fds, calls := t.calls }).1 = none) :
    (bindEntry sock os le t).1 = le ∧ (bindEntry sock os le t).2.init.fds = t.init.fds := by
  have hopens := createAndBind_opens sock le os { fds := t.init.fds, calls := t.calls }
  unfold bindEntry
  split
  · exact ⟨rfl, rfl⟩
  · rename_i haddress
    have hnone := hfail.resolve_left haddress
    generalize createAndBind _ _ _ _ = r at hopens hnone
    obtain ⟨_ | fd, k⟩ := r
    · exact ⟨rfl, hopens.failed rfl⟩
    · nomatch hnone

theorem bindEntry_spec (sock : SocketUnit) (os : BindAnswers) {le : ListenEntry} (t : Traced)
    (hle : le.fd = -1) :
    Acquires t.init.fds (bindEntry sock os le t).2.init.fds
        (listenFds [(bindEntry sock os le t).1]) ∧
      FdOrMinusOne [(bindEntry sock os le t).1] ∧
      (bindEntry sock os le t).2.init.socketUnits = t.init.socketUnits := by
  have hopens := createAndBind_opens sock le os { fds := t.init.fds, calls := t.calls }
  have hnone : listenFds [le] = [] := listenFds_unbound (by simpa using hle)
  have hminus : FdOrMinusOne [le] := by simp [FdOrMinusOne, hle]
  unfold bindEntry
  split
  · exact ⟨hnone ▸ Acquires.refl _, hminus, rfl⟩
  · generalize createAndBind _ _ _ _ = r at hopens
    obtain ⟨_ | fd, k⟩ := r
    · have hsame : k.fds = t.init.fds := hopens.failed rfl
      refine ⟨?_, hminus, rfl⟩
      exact hnone ▸ (hsame ▸ Acquires.refl _ : Acquires t.init.fds k.fds [])
    · have hold : Holding t.init.fds fd k := hopens.opened fd rfl
      have hstored : listenFds [{ le with fd := fd }] = [fd] := by simp [listenFds, hold.1]
      refine ⟨?_, by simp [FdOrMinusOne, hold.1], rfl⟩
      exact hstored ▸ hold.setCloexec true

theorem bindEntries_spec (sock : SocketUnit) (os : Nat → BindAnswers) (listen : List ListenEntry)
    (t : Traced) (hunbound : ∀ le ∈ listen, le.fd = -1) :
    Acquires t.init.fds (bindEntries sock os listen t).2.init.fds
        (listenFds (bindEntries sock os listen t).1) ∧
      FdOrMinusOne (bindEntries sock os listen t).1 ∧
      (bindEntries sock os listen t).2.init.socketUnits = t.init.socketUnits := by
  induction listen generalizing os t with
  | nil => exact ⟨Acquires.refl _, by simp [bindEntries, FdOrMinusOne], rfl⟩
  | cons le rest ih =>
      obtain ⟨hhead, hheadFd, hheadUnits⟩ :=
        bindEntry_spec sock (os 0) t (hunbound le List.mem_cons_self)
      obtain ⟨htail, htailFd, htailUnits⟩ := ih (fun i => os (i + 1)) (bindEntry sock (os 0) le t).2
        (fun le' hle' => hunbound le' (List.mem_cons_of_mem le hle'))
      refine ⟨?_, ?_, htailUnits.trans hheadUnits⟩
      · simp only [bindEntries]
        rw [listenFds_cons]
        exact hhead.append htail
      · exact List.forall_mem_cons.mpr ⟨hheadFd _ (List.mem_singleton.mpr rfl), htailFd⟩

theorem bindSocketUnit_spec (sock : SocketUnit) (os : Nat → BindAnswers) (t : Traced)
    (hunbound : ∀ le ∈ sock.listen, le.fd = -1) :
    Acquires t.init.fds (bindSocketUnit sock os t).2.init.fds
        (listenFds (bindSocketUnit sock os t).1.listen) ∧
      FdOrMinusOne (bindSocketUnit sock os t).1.listen ∧
      (bindSocketUnit sock os t).2.init.socketUnits = t.init.socketUnits :=
  bindEntries_spec sock os sock.listen t hunbound

theorem addListen_unbound {listen : List ListenEntry} (h : ∀ le ∈ listen, le.fd = -1)
    (raw : String) (lt : ListenType) : ∀ le ∈ addListen listen raw lt, le.fd = -1 := by
  unfold addListen
  split
  · exact h
  · intro le hle
    rcases List.mem_append.mp hle with hold | hnew
    · exact h le hold
    · obtain ⟨address, -, rfl⟩ := List.mem_map.mp hnew
      rfl

/-- `parse_socket_unit` and `expand_specifiers` set no descriptor. -/
theorem parsed_unbound (info : SystemInfo) (unit : UnitFile) :
    ∀ le ∈ (expandSpecifiers info (parseSocketUnit unit)).listen, le.fd = -1 := by
  have hparsed : ∀ le ∈ (parseSocketUnit unit).listen, le.fd = -1 := by
    have hpasses : ∀ get : String → String, ∀ le ∈ listenDirectives.foldl
        (fun listen d => addListen listen (get d.1) d.2) [], le.fd = -1 := by
      intro get
      exact List.foldlRecOn listenDirectives (fun listen d => addListen listen (get d.1) d.2)
        (motive := fun listen => ∀ le ∈ listen, le.fd = -1) (List.forall_mem_nil _)
        (fun listen h d _ => addListen_unbound h (get d.1) d.2)
    unfold parseSocketUnit
    cases unit.rawSections.lookup "Socket" with
    | none => exact List.forall_mem_nil _
    | some sec => exact hpasses (fun key => (sec.lookup key).getD "")
  intro le hle
  obtain ⟨le', hle', rfl⟩ := List.mem_map.mp hle
  exact hparsed le' hle'

/-! ## The bind phase -/

/-- The descriptors stored in `socket_units_`. -/
def storedFds (units : UnorderedMap String SocketUnit) : List Int :=
  units.entries.flatMap (fun e => listenFds e.2.listen)

theorem storedFds_insert {units : UnorderedMap String SocketUnit} {name : String}
    (hnew : name ∉ units) (sock : SocketUnit) :
    storedFds (units.insert name sock) = listenFds sock.listen ++ storedFds units := by
  unfold storedFds
  rw [AList.entries_insert_of_notMem hnew]
  rfl

/-- Going from the table `t` to `s`, exactly the stored descriptors have been opened. -/
structure StoresOpened (t : FdTable) (s : InitSystem) : Prop where
  acquired : Acquires t s.fds (storedFds s.socketUnits)
  listens : ∀ e ∈ s.socketUnits.entries, FdOrMinusOne e.2.listen

/-- Storing a unit together with what was opened for it. -/
theorem StoresOpened.insert {t : FdTable} {s s' : InitSystem} (h : StoresOpened t s)
    {name : String} (hnew : name ∉ s.socketUnits) {sock : SocketUnit}
    (hopen : Acquires s.fds s'.fds (listenFds sock.listen)) (hsock : FdOrMinusOne sock.listen)
    (hunits : s'.socketUnits = s.socketUnits.insert name sock) : StoresOpened t s' where
  acquired := by
    rw [hunits, storedFds_insert hnew]
    exact (h.acquired.append hopen).perm List.perm_append_comm
  listens := by
    rw [hunits, AList.entries_insert_of_notMem hnew]
    exact List.forall_mem_cons.mpr ⟨hsock, h.listens⟩

theorem bindUnit_spec (os : SocketBindAnswers) {t : FdTable} {acc : Traced × Nat} {name : String}
    (unit : UnitFile) (h : StoresOpened t acc.1.init) (hnew : name ∉ acc.1.init.socketUnits) :
    StoresOpened t (bindUnit os acc name unit).1.init ∧
      ∀ k, k ∈ (bindUnit os acc name unit).1.init.socketUnits →
        k = name ∨ k ∈ acc.1.init.socketUnits := by
  obtain ⟨tr, bound⟩ := acc
  have hsame : StoresOpened t tr.init ∧
      ∀ k, k ∈ tr.init.socketUnits → k = name ∨ k ∈ tr.init.socketUnits :=
    ⟨h, fun k hk => Or.inr hk⟩
  have hunbound := parsed_unbound os.info unit
  unfold bindUnit
  dsimp only
  split
  · exact hsame
  · split
    · exact ⟨⟨h.acquired, h.listens⟩, hsame.2⟩
    · split
      · -- A unit without a bindable address is stored as it was parsed.
        refine ⟨h.insert hnew ?_ (fun le hle => Or.inl (hunbound le hle)) rfl, ?_⟩
        · exact (listenFds_unbound hunbound).symm ▸ Acquires.refl _
        · exact fun k hk => (AList.mem_insert _).mp hk
      · obtain ⟨hopen, hfds, hunits⟩ := bindSocketUnit_spec _ (os.entries name) tr hunbound
        refine ⟨h.insert hnew hopen hfds ?_, ?_⟩
        · exact congrArg (fun units => AList.insert name _ units) hunits
        · intro k hk
          exact ((AList.mem_insert _).mp hk).imp_right (fun hk' => hunits ▸ hk')

theorem bindUnits_spec (os : SocketBindAnswers) {t : FdTable}
    (entries : List (Sigma fun _ : String => UnitFile)) (hkeys : entries.NodupKeys)
    (acc : Traced × Nat) (h : StoresOpened t acc.1.init)
    (hnew : ∀ e ∈ entries, e.1 ∉ acc.1.init.socketUnits) :
    StoresOpened t (entries.foldl (fun acc e => bindUnit os acc e.1 e.2) acc).1.init := by
  induction entries generalizing acc with
  | nil => exact h
  | cons e rest ih =>
      obtain ⟨hnotin, hrest⟩ := List.nodupKeys_cons.mp hkeys
      obtain ⟨hstep, hunits⟩ := bindUnit_spec os e.2 h (hnew e List.mem_cons_self)
      refine ih hrest _ hstep ?_
      intro e' he' hmem
      rcases hunits e'.1 hmem with heq | hold
      · exact hnotin (heq ▸ List.mem_keys_of_mem he')
      · exact hnew e' (List.mem_cons_of_mem e he') hold

/-- From an empty `socket_units_`, exactly the stored descriptors have been opened. -/
theorem executeSocketBind_storesOpened (s : InitSystem) (os : SocketBindAnswers)
    (hempty : s.socketUnits = ∅) : StoresOpened s.fds (s.executeSocketBind os).1 := by
  have hstart : StoresOpened s.fds (s.log .info "socket" "Binding socket units") := by
    refine ⟨?_, ?_⟩
    · change Acquires s.fds s.fds (storedFds s.socketUnits)
      rw [hempty]
      exact Acquires.refl _
    · change ∀ e ∈ s.socketUnits.entries, _
      simp [hempty]
  have hbound := bindUnits_spec os s.units.entries s.units.nodupKeys
    ({ init := s.log .info "socket" "Binding socket units" }, 0) hstart ?_
  · exact ⟨hbound.acquired, hbound.listens⟩
  · intro e _ hmem
    change e.1 ∈ s.socketUnits at hmem
    simp [hempty] at hmem

/-! ## Closing -/

/-- The arguments of the `close` calls, in order. -/
def closedFds (calls : List SocketCall) : List Int :=
  calls.filterMap (fun c => match c with
    | .close fd => some fd
    | _ => none)

theorem closeEntry_spec (k : Kernel) (le : ListenEntry) :
    (InitSystem.closeEntry k le).fds = releaseAll k.fds (listenFds [le]) ∧
      closedFds (InitSystem.closeEntry k le).calls = closedFds k.calls ++ listenFds [le] := by
  unfold InitSystem.closeEntry
  by_cases hfd : le.fd < 0
  · simp [hfd, listenFds, releaseAll]
  · have hstored : listenFds [le] = [le.fd] := by simp [listenFds, Int.not_lt.mp hfd]
    rw [if_neg hfd, hstored]
    dsimp only
    split_ifs
    · exact ⟨rfl, by simp [closedFds, Kernel.call]⟩
    · exact ⟨rfl, by simp [closedFds, Kernel.call]⟩

theorem closeEntries_spec (listen : List ListenEntry) (k : Kernel) :
    (listen.foldl InitSystem.closeEntry k).fds = releaseAll k.fds (listenFds listen) ∧
      closedFds (listen.foldl InitSystem.closeEntry k).calls =
        closedFds k.calls ++ listenFds listen := by
  induction listen generalizing k with
  | nil => exact ⟨rfl, (List.append_nil _).symm⟩
  | cons le rest ih =>
      obtain ⟨hfds, hcalls⟩ := closeEntry_spec k le
      obtain ⟨ihfds, ihcalls⟩ := ih (InitSystem.closeEntry k le)
      rw [List.foldl_cons, listenFds_cons, releaseAll_append, ← List.append_assoc, ← hfds, ← hcalls]
      exact ⟨ihfds, ihcalls⟩

/-- Without a descriptor there is nothing to do. -/
theorem closeEntries_unbound (listen : List ListenEntry) (k : Kernel)
    (h : ∀ le ∈ listen, le.fd = -1) : listen.foldl InitSystem.closeEntry k = k := by
  induction listen with
  | nil => rfl
  | cons le rest ih =>
      have hle : InitSystem.closeEntry k le = k := by
        simp [InitSystem.closeEntry, h le List.mem_cons_self]
      rw [List.foldl_cons, hle]
      exact ih (fun le' hle' => h le' (List.mem_cons_of_mem le hle'))

theorem listenFds_flatMap (units : UnorderedMap String SocketUnit) :
    listenFds (units.entries.flatMap (fun e => e.2.listen)) = storedFds units := by
  unfold listenFds storedFds
  rw [List.map_flatMap, List.filter_flatMap]
  rfl

theorem closedEntry_fd {le : ListenEntry} (h : le.fd = -1 ∨ 0 ≤ le.fd) :
    (InitSystem.closedEntry le).fd = -1 := by
  unfold InitSystem.closedEntry
  split_ifs with hneg
  · exact h.resolve_right (Int.not_le.mpr hneg)
  · rfl

/-- `close_all_sockets` closes the stored descriptors, each as often as it is stored, and leaves no
descriptor behind that a second run could close. -/
theorem closeAllSockets_spec (s : InitSystem)
    (hfds : ∀ e ∈ s.socketUnits.entries, FdOrMinusOne e.2.listen) :
    closedFds s.closeAllSockets.2 = storedFds s.socketUnits ∧
      s.closeAllSockets.1.fds = releaseAll s.fds (storedFds s.socketUnits) ∧
      (∀ e ∈ s.closeAllSockets.1.socketUnits.entries, ∀ le ∈ e.2.listen, le.fd = -1) ∧
      s.closeAllSockets.1.closeAllSockets.2 = [] := by
  have hspec := closeEntries_spec (s.socketUnits.entries.flatMap (fun e => e.2.listen))
    { fds := s.fds }
  rw [listenFds_flatMap] at hspec
  have hclosed : ∀ e ∈ s.closeAllSockets.1.socketUnits.entries, ∀ le ∈ e.2.listen,
      le.fd = -1 := by
    intro e he le hle
    obtain ⟨e', he', rfl⟩ := List.mem_map.mp he
    obtain ⟨le', hle', rfl⟩ := List.mem_map.mp hle
    exact closedEntry_fd (hfds e' he' le' hle')
  refine ⟨hspec.2, hspec.1, hclosed, ?_⟩
  have hnone := closeEntries_unbound
    (s.closeAllSockets.1.socketUnits.entries.flatMap (fun e => e.2.listen))
    { fds := s.closeAllSockets.1.fds } ?_
  · exact congrArg Kernel.calls hnone
  · intro le hle
    obtain ⟨e, he, hmem⟩ := List.mem_flatMap.mp hle
    exact hclosed e he le hmem

/-! ## The whole life of the descriptors -/

/-- The listen entries of every socket unit. -/
def listens (units : UnorderedMap String SocketUnit) : UnorderedMap String (List ListenEntry) :=
  UnorderedMap.mapValues units (fun sock => sock.listen)

theorem storedFds_eq_listens (units : UnorderedMap String SocketUnit) :
    storedFds units = (listens units).entries.flatMap (fun e => listenFds e.2) := by
  simp [storedFds, listens, List.flatMap_map]

theorem fdOrMinusOne_iff_listens (units : UnorderedMap String SocketUnit) :
    (∀ e ∈ units.entries, FdOrMinusOne e.2.listen) ↔
      ∀ e ∈ (listens units).entries, FdOrMinusOne e.2 := by
  unfold listens
  rw [UnorderedMap.entries_mapValues, List.forall_mem_map]

/-- From an empty `socket_units_`, `execute(SocketBind)` opens and leaves open exactly the pairwise
distinct descriptors it stores; an entry that was not bound has none; and as long as the listen
entries stay as they are, `close_all_sockets` closes each stored descriptor once, and nothing when
it runs again. -/
theorem executeSocketBind_descriptors (s : InitSystem) (os : SocketBindAnswers)
    (hempty : s.socketUnits = ∅) :
    (storedFds (s.executeSocketBind os).1.socketUnits).Nodup ∧
    (∀ fd, fd ∈ storedFds (s.executeSocketBind os).1.socketUnits ↔
      s.fds fd = none ∧ ((s.executeSocketBind os).1.fds fd).isSome) ∧
    (∀ fd, fd ∉ storedFds (s.executeSocketBind os).1.socketUnits →
      (s.executeSocketBind os).1.fds fd = s.fds fd) ∧
    (∀ (sock : SocketUnit) (answers : BindAnswers) (le : ListenEntry) (t : Traced), le.fd = -1 →
      (createAndBind sock le answers { fds := t.init.fds, calls := t.calls }).1 = none →
      (bindEntry sock answers le t).1.fd = -1 ∧
        (bindEntry sock answers le t).2.init.fds = t.init.fds) ∧
    (∀ later : InitSystem,
      listens later.socketUnits = listens (s.executeSocketBind os).1.socketUnits →
      closedFds later.closeAllSockets.2 = storedFds (s.executeSocketBind os).1.socketUnits ∧
      (∀ fd, later.closeAllSockets.1.fds fd =
        if fd ∈ storedFds (s.executeSocketBind os).1.socketUnits then none else later.fds fd) ∧
      (∀ e ∈ later.closeAllSockets.1.socketUnits.entries, ∀ le ∈ e.2.listen, le.fd = -1) ∧
      later.closeAllSockets.1.closeAllSockets.2 = []) := by
  have hopened := executeSocketBind_storesOpened s os hempty
  refine ⟨hopened.acquired.nodup, fun fd => hopened.acquired.mem_iff, hopened.acquired.frame, ?_, ?_⟩
  · intro sock answers le t hle hfail
    obtain ⟨hsame, hfds⟩ := bindEntry_failed sock answers le t (Or.inr hfail)
    exact ⟨hsame.symm ▸ hle, hfds⟩
  · intro later hlater
    have hstored : storedFds later.socketUnits =
        storedFds (s.executeSocketBind os).1.socketUnits := by
      rw [storedFds_eq_listens, storedFds_eq_listens, hlater]
    have hfds : ∀ e ∈ later.socketUnits.entries, FdOrMinusOne e.2.listen := by
      rw [fdOrMinusOne_iff_listens, hlater, ← fdOrMinusOne_iff_listens]
      exact hopened.listens
    obtain ⟨hcalls, htable, hclosed, hagain⟩ := closeAllSockets_spec later hfds
    rw [hstored] at hcalls htable
    refine ⟨hcalls, ?_, hclosed, hagain⟩
    intro fd
    rw [htable]
    exact releaseAll_apply _ _ _

/-- Opens descriptor 3, unless it is open already. -/
def opensThree : OpenAnswer where
  answer := fun t => if t 3 = none then some (3, 0) else none
  free := by
    intro t fd file h
    split_ifs at h with hfree
    cases h
    exact ⟨by decide, hfree⟩

/-- A listening socket and a FIFO, of which one descriptor can be opened. -/
def oneDescriptor : SocketBindAnswers where
  entries := fun _ _ =>
    { socket6 := opensThree
      socket := opensThree
      bind := fun _ => true
      listen := true
      mkfifo := true
      opened := opensThree
      inetPton6 := fun _ => none
      inetAddr := fun _ => none
      error := "Too many open files" }

def listeningUnits : UnorderedMap String UnitFile :=
  (∅ : UnorderedMap String UnitFile).insert "log.socket"
    { name := "log.socket"
      type := .socket
      rawSections := (∅ : Sections).insert "Socket"
        ((∅ : UnorderedMap String String).insert "ListenStream" "/run/log" |>.insert "ListenFIFO"
          "/run/fifo") }

theorem executeSocketBind_descriptors_sample :
    closedFds (({ units := listeningUnits : InitSystem }.executeSocketBind
      oneDescriptor).1.closeAllSockets).2 = [3] := by
  have h := executeSocketBind_descriptors { units := listeningUnits } oneDescriptor rfl
  rw [(h.2.2.2.2 _ rfl).1]
  decide +kernel

end TrivialInit
