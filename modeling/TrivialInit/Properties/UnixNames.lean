import Mathlib.Data.List.TakeDrop
import TrivialInit.Properties.BoundDescriptors

/-!
# UnixNames — the name a Unix socket is bound to

`bind_unix` copies the address to the 108 bytes of `sun_path`, with `strncpy`.  For a path the whole
structure is passed to `bind`, so a long path is cut off without an error.  For an abstract name the
length of the text is passed: the kernel refuses what does not fit, but one length passes with the
last byte replaced.
-/

namespace TrivialInit

/-! ## What was bound -/

/-- The address of the last call of `bind` on a descriptor. -/
def boundAddress (fd : Int) (calls : List SocketCall) : Option SocketAddress :=
  calls.foldl (fun last c =>
    match c with
    | .bind fd' address => if fd' = fd then some address else last
    | _ => last) none

@[simp] theorem boundAddress_append_bind (fd : Int) (calls : List SocketCall)
    (address : SocketAddress) : boundAddress fd (calls ++ [.bind fd address]) = some address := by
  simp [boundAddress]

@[simp] theorem boundAddress_append_listen (fd fd' backlog : Int) (calls : List SocketCall) :
    boundAddress fd (calls ++ [.listen fd' backlog]) = boundAddress fd calls := by
  simp [boundAddress]

@[simp] theorem boundAddress_append_chmod (fd mode : Int) (path : String) (calls : List SocketCall) :
    boundAddress fd (calls ++ [.chmod path mode]) = boundAddress fd calls := by
  simp [boundAddress]

@[simp] theorem Kernel.call_calls (k : Kernel) (c : SocketCall) :
    (k.call c).calls = k.calls ++ [c] := rfl

/-- A descriptor that is returned is bound to this address. -/
def ReturnsBound (address : SocketAddress) (r : Option Int × Kernel) : Prop :=
  ∀ fd, r.1 = some fd → boundAddress fd r.2.calls = some address

section

variable {sock : SocketUnit} {kind : SocketKind} {fd : Int} {os : BindAnswers} {k : Kernel}
  {address : SocketAddress}

theorem listenOn_returnsBound (h : boundAddress fd k.calls = some address) :
    ReturnsBound address (listenOn sock kind fd os k) := by
  intro fd' hfd
  unfold listenOn at hfd ⊢
  dsimp only at hfd ⊢
  split_ifs at hfd ⊢ with hdgram hlisten
  · obtain rfl := Option.some.inj hfd
    exact h
  · cases hfd
  · obtain rfl := Option.some.inj hfd
    simpa using h

theorem listenOn_of_listens (hlisten : os.listen = true) :
    (listenOn sock kind fd os k).1 = some fd := by
  unfold listenOn
  simp only [hlisten, Bool.true_eq_false, if_false]
  split_ifs <;> rfl

end

/-! ## Names in the kernel -/

/-- A name in the Unix domain. -/
inductive UnixName
  | path (bytes : List Char)
  | abstract (bytes : List Char)
  deriving DecidableEq, Repr

/-- The name `bind` gives to a Unix socket: an abstract one consists of the bytes given by the
length, and a path ends at its first NUL. -/
def boundName : SocketAddress → Option UnixName
  | .unix sunPath length =>
      match sunPath.take (length - 2) with
      | '\x00' :: name => some (.abstract name)
      | bytes => some (.path (bytes.takeWhile (· ≠ '\x00')))
  | _ => none

/-- The name an address asks for. -/
def writtenName (address : String) : UnixName :=
  if address.toList.head? = some '@' then .abstract (address.toList.drop 1)
  else .path address.toList

/-- `bind` fails on more than `sizeof(sockaddr_un)` bytes. -/
def RefusesLong (os : BindAnswers) : Prop :=
  ∀ sunPath length, 2 + sunPathSize < length → os.bind (.unix sunPath length) = false

/-- A descriptor that is returned has the name that is written. -/
def BindsWrittenName (address : String) (r : Option Int × Kernel) : Prop :=
  ∀ fd, r.1 = some fd → (boundAddress fd r.2.calls).bind boundName = some (writtenName address)

/-- The address passed to `bind`. -/
def unixAddress (address : String) : SocketAddress :=
  if address.toList.head? = some '@' then
    let name := cStr (dropStr address 1)
    .unix (fillSunPath 1 (sunPathSize - 2) name) (2 + 1 + name.length)
  else .unix (fillSunPath 0 (sunPathSize - 1) (cStr address)) (2 + sunPathSize)

section

variable {sock : SocketUnit} {le : ListenEntry} {os : BindAnswers} {k : Kernel}

theorem bindUnix_returnsBound : ReturnsBound (unixAddress le.address) (bindUnix sock le os k) := by
  unfold bindUnix unixAddress
  dsimp only
  generalize k.openFd _ _ = opened
  obtain ⟨_ | fd, k'⟩ := opened
  · intro fd hfd
    cases hfd
  · dsimp only
    split_ifs
    · intro fd' hfd
      cases hfd
    · exact listenOn_returnsBound (boundAddress_append_bind _ _ _)
    · intro fd' hfd
      cases hfd
    · apply listenOn_returnsBound
      simp only [Kernel.call_calls, boundAddress_append_chmod, boundAddress_append_bind]

theorem bind_of_bindUnix {fd : Int} (h : (bindUnix sock le os k).1 = some fd) :
    os.bind (unixAddress le.address) = true := by
  unfold bindUnix at h
  unfold unixAddress
  dsimp only at h ⊢
  generalize k.openFd _ _ = opened at h
  obtain ⟨_ | fd', k'⟩ := opened
  · cases h
  · dsimp only at h
    split_ifs at h ⊢ with habstract hbind hbind
    · cases h
    · exact Bool.not_eq_false _ ▸ hbind
    · cases h
    · exact Bool.not_eq_false _ ▸ hbind

theorem bindUnix_of_accepted {fd : Int} {file : Nat}
    (hsocket : os.socket.answer k.fds = some (fd, file))
    (hbind : os.bind (unixAddress le.address) = true) (hlisten : os.listen = true) :
    (bindUnix sock le os k).1 = some fd := by
  unfold unixAddress at hbind
  unfold bindUnix Kernel.openFd
  dsimp only at hbind ⊢
  rw [hsocket]
  dsimp only
  split_ifs at hbind ⊢ with habstract hrefused hrefused
  · exact absurd (hbind.symm.trans hrefused) Bool.true_eq_false.mp
  · exact listenOn_of_listens hlisten
  · exact absurd (hbind.symm.trans hrefused) Bool.true_eq_false.mp
  · exact listenOn_of_listens hlisten

end

/-! ## Lengths -/

/-- At most 107 bytes for a path, and any number but 107 for an abstract name. -/
def NameFits (address : String) : Prop :=
  if address.toList.head? = some '@' then address.length ≠ 108 else address.length ≤ 107

instance (address : String) : Decidable (NameFits address) :=
  inferInstanceAs (Decidable (ite _ _ _))

theorem cStr_of_not_mem {s : String} (h : '\x00' ∉ s.toList) : cStr s = s.toList := by
  rw [cStr, List.takeWhile_eq_self_iff]
  intro c hc
  have hne : c ≠ '\x00' := fun hnul => h (hnul ▸ hc)
  simpa using hne

/-- A path is cut off behind 107 bytes. -/
theorem boundName_path {address : String} (hnul : '\x00' ∉ address.toList)
    (hpath : address.toList.head? = some '/') :
    boundName (unixAddress address) = some (.path (address.toList.take 107)) := by
  have hnot : address.toList.head? ≠ some '@' := by
    rw [hpath]
    decide
  rw [unixAddress, if_neg hnot, cStr_of_not_mem hnul]
  obtain ⟨rest, hrest⟩ : ∃ rest, address.toList = '/' :: rest := List.head?_eq_some_iff.mp hpath
  have hcopied : ∀ c ∈ address.toList.take 107, decide (c ≠ '\x00') = true := by
    intro c hc
    have hne : c ≠ '\x00' := fun h => hnul (h ▸ List.mem_of_mem_take hc)
    simpa using hne
  have hlength : (address.toList.take 107).length < 108 :=
    Nat.lt_succ_of_le (List.length_take_le 107 _)
  -- Behind the copied bytes there is at least one NUL.
  obtain ⟨m, hm⟩ : ∃ m, 108 - (address.toList.take 107).length = m + 1 :=
    ⟨107 - (address.toList.take 107).length, by omega⟩
  have hfill : fillSunPath 0 107 address.toList =
      address.toList.take 107 ++ '\x00' :: List.replicate m '\x00' := by
    rw [fillSunPath]
    dsimp only [List.replicate_zero, List.nil_append]
    rw [sunPathSize, hm, List.replicate_succ]
  have htake : (fillSunPath 0 107 address.toList).take 108 = fillSunPath 0 107 address.toList := by
    rw [List.take_of_length_le]
    rw [hfill, List.length_append, List.length_cons, List.length_replicate]
    omega
  have hwhile : (fillSunPath 0 107 address.toList).takeWhile (· ≠ '\x00') =
      address.toList.take 107 := by
    calc
      (fillSunPath 0 107 address.toList).takeWhile (· ≠ '\x00')
          = (address.toList.take 107 ++ '\x00' :: List.replicate m '\x00').takeWhile
              (· ≠ '\x00') := by rw [hfill]
      _ = address.toList.take 107 ++
            ('\x00' :: List.replicate m '\x00').takeWhile (· ≠ '\x00') :=
          List.takeWhile_append_of_pos hcopied
      _ = address.toList.take 107 := by simp
  have hhead : ∀ name, fillSunPath 0 107 address.toList ≠ '\x00' :: name := by
    intro name h
    rw [hfill, hrest] at h
    exact absurd (List.cons.inj h).1 (by decide)
  show boundName (.unix (fillSunPath 0 107 address.toList) (2 + 108)) = _
  rw [boundName, Nat.add_sub_cancel_left, htake]
  split
  · next name h => exact absurd h (hhead name)
  · rw [hwhile]

theorem exists_abstract_name {address : String} (hnul : '\x00' ∉ address.toList)
    (habstract : address.toList.head? = some '@') :
    ∃ name, address.toList = '@' :: name ∧ '\x00' ∉ name ∧ address.length = name.length + 1 := by
  obtain ⟨name, hname⟩ := List.head?_eq_some_iff.mp habstract
  refine ⟨name, hname, ?_, ?_⟩
  · intro hmem
    exact hnul (hname ▸ List.mem_cons_of_mem _ hmem)
  · rw [← String.length_toList, hname, List.length_cons]

theorem unixAddress_abstract {address : String} {name : List Char} (hnul : '\x00' ∉ name)
    (habstract : address.toList = '@' :: name) :
    unixAddress address = .unix (fillSunPath 1 106 name) (2 + 1 + name.length) := by
  have hdrop : (dropStr address 1).toList = name := by
    rw [dropStr, habstract, String.toList_ofList]
    rfl
  have hcStr : cStr (dropStr address 1) = name := by
    rw [cStr_of_not_mem (by rwa [hdrop]), hdrop]
  rw [unixAddress, if_pos (by rw [habstract]; rfl), hcStr]
  rfl

/-- Of an abstract name 106 bytes are copied, and a NUL follows. -/
theorem boundName_abstract {address : String} {name : List Char} (hnul : '\x00' ∉ name)
    (habstract : address.toList = '@' :: name) :
    ∃ tail, boundName (unixAddress address) =
      some (.abstract ((name.take 106 ++ '\x00' :: tail).take name.length)) := by
  have hlength : (name.take 106).length < 107 := Nat.lt_succ_of_le (List.length_take_le 106 _)
  obtain ⟨m, hm⟩ : ∃ m, 108 - (1 + (name.take 106).length) = m + 1 :=
    ⟨106 - (name.take 106).length, by omega⟩
  have hfill : fillSunPath 1 106 name =
      '\x00' :: (name.take 106 ++ '\x00' :: List.replicate m '\x00') := by
    rw [fillSunPath]
    dsimp only [List.replicate_succ, List.replicate_zero, List.cons_append, List.nil_append,
      List.length_cons]
    rw [sunPathSize, Nat.add_comm _ 1, hm, List.replicate_succ]
  have hgiven : 2 + 1 + name.length - 2 = name.length + 1 := by omega
  refine ⟨List.replicate m '\x00', ?_⟩
  rw [unixAddress_abstract hnul habstract, boundName, hfill, hgiven, List.take_succ_cons]
  rfl

theorem boundName_eq_written_iff {address : String} (hnul : '\x00' ∉ address.toList)
    (hfirst : address.toList.head? = some '/' ∨ address.toList.head? = some '@') :
    boundName (unixAddress address) = some (writtenName address) ↔ address.length ≤ 107 := by
  rcases hfirst with hpath | habstract
  · have hnot : address.toList.head? ≠ some '@' := by
      rw [hpath]
      decide
    rw [boundName_path hnul hpath, writtenName, if_neg hnot, Option.some.injEq,
      UnixName.path.injEq, List.take_eq_self_iff, String.length_toList]
  · obtain ⟨name, hname, hnul', hlength⟩ := exists_abstract_name hnul habstract
    obtain ⟨tail, hbound⟩ := boundName_abstract hnul' hname
    rw [hbound, writtenName, if_pos habstract, Option.some.injEq, UnixName.abstract.injEq, hname,
      List.drop_one, List.tail_cons, hlength]
    constructor
    · intro h
      by_contra hlong
      have hcopied : (name.take 106).length = 106 := by
        rw [List.length_take]
        omega
      -- The first byte that was not copied is a NUL.
      have hmem : '\x00' ∈ (name.take 106 ++ '\x00' :: tail).take name.length := by
        rw [List.mem_take_iff_getElem]
        refine ⟨106, ?_, ?_⟩
        · simp only [List.length_append, List.length_cons, hcopied]
          omega
        · rw [List.getElem_append_right (Nat.le_of_eq hcopied)]
          simp [hcopied]
      rw [h] at hmem
      exact hnul' hmem
    · intro h
      have hshort : name.length ≤ 106 := by omega
      rw [List.take_of_length_le hshort, List.take_left]

/-! ## The whole function -/

/-- Opens descriptor 3, and binds what fits into a `sockaddr_un`. -/
def acceptsFitting : BindAnswers :=
  { socket6 := opensThree
    socket := opensThree
    bind := fun address =>
      match address with
      | .unix _ length => decide (length ≤ 2 + sunPathSize)
      | _ => true
    listen := true
    mkfifo := true
    opened := opensThree
    inetPton6 := fun _ => none
    inetAddr := fun _ => none
    error := "" }

theorem acceptsFitting_refusesLong : RefusesLong acceptsFitting := by
  intro sunPath length hlong
  simpa [acceptsFitting] using hlong

/-- If the name does not fit, another one is bound when every call succeeds. -/
theorem not_bindsWrittenName (sock : SocketUnit) {le : ListenEntry}
    (hnul : '\x00' ∉ le.address.toList)
    (hfirst : le.address.toList.head? = some '/' ∨ le.address.toList.head? = some '@')
    (hfits : ¬ NameFits le.address) :
    ¬ BindsWrittenName le.address (bindUnix sock le acceptsFitting { fds := fun _ => none }) := by
  intro hexact
  have hlong : ¬ le.address.length ≤ 107 := by
    unfold NameFits at hfits
    split_ifs at hfits <;> omega
  have hbind : acceptsFitting.bind (unixAddress le.address) = true := by
    by_cases habstract : le.address.toList.head? = some '@'
    · obtain ⟨name, hname, hnul', hlength⟩ := exists_abstract_name hnul habstract
      rw [NameFits, if_pos habstract, not_not] at hfits
      rw [unixAddress_abstract hnul' hname]
      refine decide_eq_true ?_
      rw [sunPathSize]
      omega
    · rw [unixAddress, if_neg habstract]
      rfl
  have hreturned : (bindUnix sock le acceptsFitting { fds := fun _ => none }).1 = some 3 :=
    bindUnix_of_accepted rfl hbind rfl
  have hwritten := hexact 3 hreturned
  rw [bindUnix_returnsBound 3 hreturned, Option.bind_some,
    boundName_eq_written_iff hnul hfirst] at hwritten
  exact hlong hwritten

/-- The written name is bound, or none, exactly if a path has at most 107 bytes and an abstract name
has not exactly 107. -/
theorem bindUnix_exact_iff (sock : SocketUnit) (le : ListenEntry)
    (hnul : '\x00' ∉ le.address.toList)
    (hfirst : le.address.toList.head? = some '/' ∨ le.address.toList.head? = some '@') :
    (∀ os, RefusesLong os → ∀ k, BindsWrittenName le.address (bindUnix sock le os k)) ↔
      NameFits le.address := by
  constructor
  · intro h
    by_contra hfits
    exact not_bindsWrittenName sock hnul hfirst hfits
      (h acceptsFitting acceptsFitting_refusesLong { fds := fun _ => none })
  · intro hfits os hrefuses k fd hreturned
    rw [bindUnix_returnsBound fd hreturned, Option.bind_some, boundName_eq_written_iff hnul hfirst]
    unfold NameFits at hfits
    split_ifs at hfits with habstract
    · obtain ⟨name, hname, hnul', hlength⟩ := exists_abstract_name hnul habstract
      by_contra hlong
      -- A longer name is refused.
      have hrefused := hrefuses (fillSunPath 1 106 name) (2 + 1 + name.length)
        (by rw [sunPathSize]; omega)
      have hbind := bind_of_bindUnix hreturned
      rw [unixAddress_abstract hnul' hname, hrefused] at hbind
      cases hbind
    · exact hfits

theorem bindUnix_exact_iff_sample :
    BindsWrittenName "@/tmp/.X11-unix/X0"
      (bindUnix { name := "x.socket" } { type := .stream, address := "@/tmp/.X11-unix/X0" }
        acceptsFitting { fds := fun _ => none }) :=
  (bindUnix_exact_iff { name := "x.socket" } { type := .stream, address := "@/tmp/.X11-unix/X0" }
    (by decide) (Or.inr (by decide))).mpr (by decide) acceptsFitting acceptsFitting_refusesLong _

/-- A path of 108 bytes loses the last one. -/
theorem bindUnix_truncates :
    ¬ ∀ (sock : SocketUnit) (le : ListenEntry), '\x00' ∉ le.address.toList →
      (le.address.toList.head? = some '/' ∨ le.address.toList.head? = some '@') →
      ∀ os, RefusesLong os → ∀ k, BindsWrittenName le.address (bindUnix sock le os k) := by
  intro h
  let le : ListenEntry :=
    { type := .stream, address := String.ofList ('/' :: List.replicate 107 'a') }
  have hlist : le.address.toList = '/' :: List.replicate 107 'a' := String.toList_ofList
  have hnul : '\x00' ∉ le.address.toList := by
    rw [hlist]
    decide
  have hfirst : le.address.toList.head? = some '/' ∨ le.address.toList.head? = some '@' := by
    rw [hlist]
    exact Or.inl rfl
  refine not_bindsWrittenName { name := "a.socket" } hnul hfirst ?_
    (h { name := "a.socket" } le hnul hfirst acceptsFitting acceptsFitting_refusesLong _)
  rw [NameFits, if_neg (by rw [hlist]; decide), ← String.length_toList, hlist]
  decide

end TrivialInit
