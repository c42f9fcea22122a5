import TrivialInit.Properties.Numbers
import TrivialInit.Properties.UnixNames

/-!
# InetEndpoints — the address and port a socket is bound to

`bind_inet` looks at neither the range of the port nor the results of `inet_pton` and `inet_addr`.
A port beyond 65535 loses its upper bits, a host that is no IPv6 literal becomes the wildcard, and
one that is no IPv4 literal the broadcast address.
-/

namespace TrivialInit

/-! ## Written addresses -/

/-- The forms of a listen address. -/
inductive ListenForm
  | port (digits : String)
  | hostPort (host digits : String)
  | bracketed (host digits : String)
  deriving DecidableEq, Repr

namespace ListenForm

def text : ListenForm → String
  | port digits => digits
  | hostPort host digits => host ++ ":" ++ digits
  | bracketed host digits => "[" ++ host ++ "]:" ++ digits

/-- The host that is written, or nothing. -/
def host : ListenForm → String
  | port _ => ""
  | hostPort host _ => host
  | bracketed host _ => host

def digits : ListenForm → String
  | port digits => digits
  | hostPort _ digits => digits
  | bracketed _ digits => digits

/-- The port that is written. -/
def number (form : ListenForm) : Nat :=
  decimalValue form.digits.toList

/-- The port is decimal, and a host in brackets is of the form with brackets. -/
def WellFormed (form : ListenForm) : Prop :=
  IsDecimal form.digits.toList ∧
    match form with
    | hostPort host _ => ¬ (host.toList.head? = some '[' ∧ host.toList.getLast? = some ']')
    | _ => True

instance : DecidablePred WellFormed
  | port digits => inferInstanceAs (Decidable (IsDecimal digits.toList ∧ True))
  | hostPort host digits => inferInstanceAs (Decidable (IsDecimal digits.toList ∧
      ¬ (host.toList.head? = some '[' ∧ host.toList.getLast? = some ']')))
  | bracketed _ digits => inferInstanceAs (Decidable (IsDecimal digits.toList ∧ True))

/-- No bracket of the host is taken for one around it. -/
def Plain : ListenForm → Prop
  | port _ => True
  | hostPort host _ => host.toList.head? ≠ some '['
  | bracketed host _ => ']' ∉ host.toList

instance : DecidablePred Plain
  | port _ => inferInstanceAs (Decidable True)
  | hostPort host _ => inferInstanceAs (Decidable (host.toList.head? ≠ some '['))
  | bracketed host _ => inferInstanceAs (Decidable (']' ∉ host.toList))

end ListenForm

/-! ## Parsing -/

/-- The text between a bracket at the front and the first closing one. -/
def bracketHost (text : String) : String :=
  String.ofList ((text.toList.drop 1).takeWhile (· ≠ ']'))

/-- The text that begins one character behind the first closing bracket. -/
def bracketPort (text : String) : String :=
  String.ofList (((text.toList.drop 1).dropWhile (· ≠ ']')).drop 2)

theorem takeWhile_ne_append {l : List Char} {c : Char} (h : c ∉ l) (r : List Char) :
    (l ++ c :: r).takeWhile (· ≠ c) = l ∧ (l ++ c :: r).dropWhile (· ≠ c) = c :: r := by
  have hpos : ∀ d ∈ l, decide (d ≠ c) = true := by
    intro d hd
    have hne : d ≠ c := fun hdc => h (hdc ▸ hd)
    simpa using hne
  rw [List.takeWhile_append_of_pos hpos, List.dropWhile_append_of_pos hpos]
  simp

/-- Behind the closing bracket one character is skipped, whatever it is. -/
theorem parseInetAddr_bracket {inner : List Char} (hinner : ']' ∉ inner) (rest : List Char) :
    parseInetAddr (String.ofList ('[' :: inner ++ ']' :: rest)) =
      (String.ofList inner, fromCharsInt (String.ofList (rest.drop 1)) 0) := by
  have hfind : findChar (String.ofList ('[' :: inner ++ ']' :: rest)) ']' =
      some (inner.length + 1) := by
    refine findChar_append_cons ?_ rest
    rw [List.mem_cons, not_or]
    exact ⟨by decide, hinner⟩
  have hhost : takeStr (dropStr (String.ofList ('[' :: inner ++ ']' :: rest)) 1)
      (inner.length + 1 - 1) = String.ofList inner := by
    rw [dropStr, String.toList_ofList, List.cons_append, List.drop_one, List.tail_cons,
      Nat.add_sub_cancel, takeStr_append]
  have hdrop : ('[' :: inner ++ ']' :: rest).drop (inner.length + 1 + 2) = rest.drop 1 := by
    calc
      ('[' :: inner ++ ']' :: rest).drop (inner.length + 1 + 2)
          = (inner ++ ']' :: rest).drop (inner.length + 2) := rfl
      _ = (']' :: rest).drop 2 := List.drop_length_add_append 2
      _ = rest.drop 1 := rfl
  have hport : dropStr (String.ofList ('[' :: inner ++ ']' :: rest)) (inner.length + 1 + 2) =
      String.ofList (rest.drop 1) := by
    rw [dropStr, String.toList_ofList, hdrop]
  rw [parseInetAddr, if_pos (by rw [String.toList_ofList]; rfl), hfind]
  dsimp only
  rw [hhost, hport]
  split_ifs with hlong
  · rfl
  · have hempty : rest.drop 1 = [] := by
      rw [List.drop_eq_nil_iff]
      simp only [String.length_ofList, List.length_append, List.length_cons] at hlong
      omega
    rw [hempty]
    rfl

theorem parseInetAddr_of_bracket {text : String} (hfirst : text.toList.head? = some '[') :
    (parseInetAddr text).2 = fromCharsInt (bracketPort text) 0 ∧
      ((parseInetAddr text).2 ≠ 0 → (parseInetAddr text).1 = bracketHost text) := by
  obtain ⟨body, hbody⟩ := List.head?_eq_some_iff.mp hfirst
  have htext : text = String.ofList ('[' :: body) := by
    rw [← hbody, String.ofList_toList]
  have hdropOne : text.toList.drop 1 = body := by
    rw [hbody]
    rfl
  by_cases hclose : ']' ∈ body
  · obtain ⟨inner, rest, hsplit, hinner⟩ := List.eq_append_cons_of_mem hclose
    obtain ⟨htake, hdrop⟩ := takeWhile_ne_append hinner rest
    have hparse := parseInetAddr_bracket hinner rest
    rw [List.cons_append, ← hsplit, ← htext] at hparse
    rw [hparse, bracketHost, bracketPort, hdropOne, hsplit, htake, hdrop]
    exact ⟨rfl, fun _ => rfl⟩
  · have hfind : findChar text ']' = none := by
      rw [findChar, hbody]
      refine findIdx?_eq_none_of_not_mem ?_
      rw [List.mem_cons, not_or]
      exact ⟨by decide, hclose⟩
    have hparse : parseInetAddr text = ("", 0) := by
      rw [parseInetAddr, if_pos hfirst, hfind]
    have hall : body.dropWhile (· ≠ ']') = [] := by
      rw [List.dropWhile_eq_nil_iff]
      intro c hc
      have hne : c ≠ ']' := fun h => hclose (h ▸ hc)
      simpa using hne
    have hport : bracketPort text = "" := by
      rw [bracketPort, hdropOne, hall]
      rfl
    rw [hparse, hport]
    exact ⟨rfl, fun h => absurd rfl h⟩

/-- An address without stray brackets is taken apart as it is written. -/
theorem parseInetAddr_of_plain {form : ListenForm} (hform : form.WellFormed) (hplain : form.Plain) :
    parseInetAddr form.text =
      (form.host, if form.number ≤ 2147483647 then (form.number : Int) else 0) := by
  have hnumber := fromCharsInt_of_isDecimal hform.1 0
  have hnot : ∀ c, isDigit c = false → c ∉ form.digits.toList := by
    intro c hc hmem
    exact absurd (hform.1.2 c hmem) (by rw [hc]; exact Bool.false_ne_true)
  rw [ListenForm.number, ← hnumber]
  cases form with
  | port digits =>
      have hcolon : rfindChar digits ':' = none := by
        have hnone := rfindChar_eq_none (hnot ':' (by decide))
        rwa [ListenForm.digits, String.ofList_toList] at hnone
      have hfirst : digits.toList.head? ≠ some '[' := by
        intro h
        exact hnot '[' (by decide) (List.mem_of_mem_head? h)
      rw [ListenForm.text, parseInetAddr, if_neg hfirst, hcolon]
      rfl
  | hostPort host digits =>
      have htext : host ++ ":" ++ digits = String.ofList (host.toList ++ ':' :: digits.toList) := by
        rw [← String.toList_inj]
        simp
      have hfirst : (String.ofList (host.toList ++ ':' :: digits.toList)).toList.head? ≠
          some '[' := by
        rw [String.toList_ofList, List.head?_append]
        cases hhost : host.toList.head? with
        | none => simp
        | some c =>
            intro h
            exact hplain (hhost.trans h)
      have hcolon : ':' ∉ digits.toList := hnot ':' (by decide)
      rw [ListenForm.text, htext, parseInetAddr, if_neg hfirst, rfindChar_append_cons hcolon]
      dsimp only
      rw [takeStr_append, dropStr_append_cons, String.ofList_toList, String.ofList_toList]
      rfl
  | bracketed host digits =>
      have htext : "[" ++ host ++ "]:" ++ digits =
          String.ofList ('[' :: host.toList ++ ']' :: ':' :: digits.toList) := by
        rw [← String.toList_inj]
        simp
      rw [ListenForm.text, htext, parseInetAddr_bracket hplain, String.ofList_toList,
        List.drop_one, List.tail_cons, String.ofList_toList]
      rfl

theorem head?_text_of_not_plain {form : ListenForm} (hplain : ¬ form.Plain) :
    form.text.toList.head? = some '[' := by
  cases form with
  | port digits => exact absurd trivial hplain
  | hostPort host digits =>
      rw [ListenForm.Plain, not_not] at hplain
      rw [ListenForm.text, String.toList_append, String.toList_append, List.append_assoc,
        List.head?_append, hplain]
      rfl
  | bracketed host digits => simp [ListenForm.text]

/-! ## Sockets -/

/-- The families `bind_inet` tries. -/
inductive InetFamily
  | inet6
  | inet
  deriving DecidableEq, Repr

namespace InetFamily

/-- The address a host denotes, if it is a literal; no host denotes the wildcard. -/
def literal (os : BindAnswers) (host : String) : InetFamily → Option Nat
  | inet6 => if host = "" then some 0 else os.inetPton6 host
  | inet => if host = "" then some 0 else os.inetAddr host

/-- What a failed conversion leaves: zeros, or `INADDR_NONE`. -/
def onFailure : InetFamily → Nat
  | inet6 => 0
  | inet => 0xffffffff

def socketAddress (address port : Nat) : InetFamily → SocketAddress
  | inet6 => .inet6 address port
  | inet => .inet address port

end InetFamily

/-- An IPv6 socket is tried for no host and for one with a colon, and can be opened. -/
def OpensInet6 (os : BindAnswers) (fds : FdTable) (host : String) : Prop :=
  (host = "" ∨ (findChar host ':').isSome) ∧ (os.socket6.answer fds).isSome

instance (os : BindAnswers) (fds : FdTable) (host : String) : Decidable (OpensInet6 os fds host) :=
  inferInstanceAs (Decidable (_ ∧ _))

/-- The family of the socket that is opened for a host. -/
def openedFamily (os : BindAnswers) (fds : FdTable) (host : String) : Option InetFamily :=
  if OpensInet6 os fds host then some .inet6
  else if (os.socket.answer fds).isSome then some .inet
  else none

section

variable {sock : SocketUnit} {le : ListenEntry} {os : BindAnswers} {k : Kernel} {host : String}
  {port : Int}

theorem bindInet_of_port_zero (hparse : parseInetAddr le.address = (host, port)) (hport : port = 0) :
    (bindInet sock le os k).1 = none := by
  rw [bindInet, hparse]
  dsimp only
  rw [if_pos hport]

theorem openInet6_of_opens (h : OpensInet6 os k.fds host) (kind : SocketKind) :
    ∃ fd k', openInet6 host kind os k = (some fd, k') := by
  obtain ⟨⟨fd, file⟩, hanswer⟩ := Option.isSome_iff_exists.mp h.2
  unfold openInet6 Kernel.openFd
  simp [h.1, hanswer]

theorem openInet6_of_not_opens (h : ¬ OpensInet6 os k.fds host) (kind : SocketKind) :
    ∃ k', openInet6 host kind os k = (none, k') ∧ k'.fds = k.fds := by
  unfold openInet6 Kernel.openFd
  by_cases htried : host = "" ∨ (findChar host ':').isSome = true
  · have hanswer : os.socket6.answer k.fds = none := by simpa [OpensInet6, htried] using h
    exact ⟨k.call (.socket .inet6 kind 0), by simp [htried, hanswer], rfl⟩
  · exact ⟨k, by simp [htried], rfl⟩

/-- A socket that can be opened is bound to what the conversion left, and to 16 bits of the port. -/
theorem bindInet_of_opened (hparse : parseInetAddr le.address = (host, port)) (hport : port ≠ 0)
    {fam : InetFamily} (hfam : openedFamily os k.fds host = some fam) :
    ∃ fd k', bindInet sock le os k = bindInetOn sock (socketKind le.type) fd
      (fam.socketAddress ((fam.literal os host).getD fam.onFailure) (port % 0x10000).toNat)
      os k' := by
  rw [bindInet, hparse]
  dsimp only
  rw [if_neg hport]
  unfold openedFamily at hfam
  split_ifs at hfam with hsix hfour
  · obtain rfl := Option.some.inj hfam
    obtain ⟨fd, k', hopen⟩ := openInet6_of_opens hsix (socketKind le.type)
    refine ⟨fd, k', ?_⟩
    rw [hopen, InetFamily.literal]
    split_ifs <;> rfl
  · obtain rfl := Option.some.inj hfam
    obtain ⟨k', hopen, hfds⟩ := openInet6_of_not_opens hsix (socketKind le.type)
    obtain ⟨⟨fd, file⟩, hanswer⟩ := Option.isSome_iff_exists.mp hfour
    rw [hopen, InetFamily.literal]
    dsimp only
    unfold Kernel.openFd
    rw [hfds, hanswer]
    refine ⟨fd, { k'.call (.socket .inet (socketKind le.type) 0) with
      fds := k.fds.install fd file }, ?_⟩
    split_ifs <;> rfl

theorem bindInet_of_not_opened (hparse : parseInetAddr le.address = (host, port))
    (hfam : openedFamily os k.fds host = none) : (bindInet sock le os k).1 = none := by
  rw [bindInet, hparse]
  dsimp only
  by_cases hport : port = 0
  · rw [if_pos hport]
  · rw [if_neg hport]
    unfold openedFamily at hfam
    split_ifs at hfam with hsix hfour
    obtain ⟨k', hopen, hfds⟩ := openInet6_of_not_opens hsix (socketKind le.type)
    have hanswer : os.socket.answer k.fds = none := by simpa using hfour
    rw [hopen]
    unfold Kernel.openFd
    simp [hfds, hanswer]

theorem bindInetOn_returnsBound (kind : SocketKind) (fd : Int) (address : SocketAddress) :
    ReturnsBound address (bindInetOn sock kind fd address os k) := by
  unfold bindInetOn
  dsimp only
  split_ifs
  · intro fd' hfd
    cases hfd
  · exact listenOn_returnsBound (boundAddress_append_bind _ _ _)

theorem bindInetOn_of_accepted (kind : SocketKind) (fd : Int) {address : SocketAddress}
    (hbind : os.bind address = true) (hlisten : os.listen = true) :
    (bindInetOn sock kind fd address os k).1 = some fd := by
  unfold bindInetOn
  dsimp only
  rw [if_neg (by rw [hbind]; exact Bool.true_eq_false.mp)]
  exact listenOn_of_listens hlisten

end

/-! ## Endpoints -/

/-- The same system, with other answers to `bind` and `listen`. -/
def BindAnswers.answering (os : BindAnswers) (bind : SocketAddress → Bool) (listen : Bool) :
    BindAnswers :=
  { os with bind := bind, listen := listen }

@[simp] theorem literal_answering (os : BindAnswers) (bind : SocketAddress → Bool) (listen : Bool)
    (host : String) (fam : InetFamily) :
    fam.literal (os.answering bind listen) host = fam.literal os host := by
  cases fam <;> rfl

/-- A descriptor that is returned is bound to the written port, and to the address the written host
denotes. -/
def BindsWrittenEndpoint (form : ListenForm) (os : BindAnswers) (r : Option Int × Kernel) : Prop :=
  ∀ fd, r.1 = some fd → ∃ (fam : InetFamily) (address : Nat),
    fam.literal os form.host = some address ∧
    boundAddress fd r.2.calls = some (fam.socketAddress address form.number) ∧
    1 ≤ form.number ∧ form.number ≤ 65535

/-- What is read from the address is what is written, as far as it gets to `bind`. -/
def ReadsEndpoint (form : ListenForm) (os : BindAnswers) (fds : FdTable) (host : String)
    (port : Int) : Prop :=
  port = 0 ∨ openedFamily os fds host = none ∨
    ∃ fam, openedFamily os fds host = some fam ∧ 1 ≤ form.number ∧
      port % 0x10000 = form.number ∧
      fam.literal os form.host = some ((fam.literal os host).getD fam.onFailure)

theorem socketAddress_inj {fam fam' : InetFamily} {address address' port port' : Nat}
    (h : fam.socketAddress address port = fam'.socketAddress address' port') :
    fam = fam' ∧ address = address' ∧ port = port' := by
  cases fam <;> cases fam' <;> simp_all [InetFamily.socketAddress]

/-- With a socket, the endpoint is right exactly if port and address are. -/
theorem bindsWrittenEndpoint_opened_iff (sock : SocketUnit) {le : ListenEntry} {os : BindAnswers}
    {k : Kernel} (form : ListenForm) {host : String} {port : Int} {fam : InetFamily}
    (hparse : parseInetAddr le.address = (host, port)) (hport : port ≠ 0)
    (hfam : openedFamily os k.fds host = some fam) :
    (∀ bind listen, BindsWrittenEndpoint form os
        (bindInet sock le (os.answering bind listen) k)) ↔
      1 ≤ form.number ∧ port % 0x10000 = form.number ∧
        fam.literal os form.host = some ((fam.literal os host).getD fam.onFailure) := by
  have hlow : 0 ≤ port % 0x10000 := Int.emod_nonneg _ (by decide)
  have hhigh : port % 0x10000 < 0x10000 := Int.emod_lt_of_pos _ (by decide)
  have hbound : ∀ bind listen, ∃ fd k', bindInet sock le (os.answering bind listen) k =
      bindInetOn sock (socketKind le.type) fd (fam.socketAddress
        ((fam.literal os host).getD fam.onFailure) (port % 0x10000).toNat)
        (os.answering bind listen) k' := by
    intro bind listen
    have hfam' : openedFamily (os.answering bind listen) k.fds host = some fam := hfam
    obtain ⟨fd, k', hsocket⟩ := bindInet_of_opened hparse hport hfam'
    rw [literal_answering] at hsocket
    exact ⟨fd, k', hsocket⟩
  constructor
  · intro h
    -- Everything is accepted.
    obtain ⟨fd, k', hsocket⟩ := hbound (fun _ => true) true
    have hwritten := h (fun _ => true) true fd
    rw [hsocket] at hwritten
    obtain ⟨fam', address, hliteral, haddress, hpositive, -⟩ :=
      hwritten (bindInetOn_of_accepted _ fd rfl rfl)
    rw [bindInetOn_returnsBound _ _ _ fd (bindInetOn_of_accepted _ fd rfl rfl),
      Option.some.injEq] at haddress
    obtain ⟨rfl, hsame, hnumber⟩ := socketAddress_inj haddress
    exact ⟨hpositive, by omega, hsame ▸ hliteral⟩
  · rintro ⟨hpositive, hnumber, hliteral⟩ bind listen fd hfd
    obtain ⟨fd', k', hsocket⟩ := hbound bind listen
    rw [hsocket] at hfd ⊢
    refine ⟨fam, _, hliteral, ?_, hpositive, by omega⟩
    have hnat : (port % 0x10000).toNat = form.number := by omega
    rw [bindInetOn_returnsBound _ _ _ fd hfd, hnat]

theorem bindsWrittenEndpoint_iff (sock : SocketUnit) {le : ListenEntry} (os : BindAnswers)
    (k : Kernel) (form : ListenForm) {host : String} {port : Int}
    (hparse : parseInetAddr le.address = (host, port)) :
    (∀ bind listen, BindsWrittenEndpoint form os
        (bindInet sock le (os.answering bind listen) k)) ↔
      ReadsEndpoint form os k.fds host port := by
  unfold ReadsEndpoint
  by_cases hport : port = 0
  · refine iff_of_true ?_ (Or.inl hport)
    intro bind listen fd hfd
    rw [bindInet_of_port_zero hparse hport] at hfd
    cases hfd
  · cases hfam : openedFamily os k.fds host with
    | none =>
        refine iff_of_true ?_ (Or.inr (Or.inl rfl))
        intro bind listen fd hfd
        have hnone : openedFamily (os.answering bind listen) k.fds host = none := hfam
        rw [bindInet_of_not_opened hparse hnone] at hfd
        cases hfd
    | some fam =>
        rw [bindsWrittenEndpoint_opened_iff sock form hparse hport hfam]
        simp only [hport, false_or, Option.some.injEq, exists_eq_left', reduceCtorEq]

/-- A port between 1 and 65535, with no host or a literal of the family whose socket is opened; or a
port that is rejected, or no socket.  Behind stray brackets, what is read instead has to agree. -/
def EndpointFits (form : ListenForm) (os : BindAnswers) (fds : FdTable) : Prop :=
  if form.Plain then
    openedFamily os fds form.host = none ∨ form.number = 0 ∨ 2147483647 < form.number ∨
      form.number ≤ 65535 ∧
        ∃ fam, openedFamily os fds form.host = some fam ∧ (fam.literal os form.host).isSome
  else
    ReadsEndpoint form os fds (bracketHost form.text) (fromCharsInt (bracketPort form.text) 0)

theorem readsEndpoint_plain_iff (form : ListenForm) (os : BindAnswers) (fds : FdTable) :
    ReadsEndpoint form os fds form.host
        (if form.number ≤ 2147483647 then (form.number : Int) else 0) ↔
      openedFamily os fds form.host = none ∨ form.number = 0 ∨ 2147483647 < form.number ∨
        form.number ≤ 65535 ∧
          ∃ fam, openedFamily os fds form.host = some fam ∧ (fam.literal os form.host).isSome := by
  have hliteral : ∀ fam : InetFamily, fam.literal os form.host =
      some ((fam.literal os form.host).getD fam.onFailure) ↔ (fam.literal os form.host).isSome := by
    intro fam
    cases fam.literal os form.host <;> simp
  unfold ReadsEndpoint
  simp only [hliteral]
  split_ifs with hint
  · constructor
    · rintro (hzero | hnone | ⟨fam, hfam, hlow, hport, hsome⟩)
      · exact Or.inr (Or.inl (by omega))
      · exact Or.inl hnone
      · exact Or.inr (Or.inr (Or.inr ⟨by omega, fam, hfam, hsome⟩))
    · rintro (hnone | hzero | hbig | ⟨hshort, fam, hfam, hsome⟩)
      · exact Or.inr (Or.inl hnone)
      · exact Or.inl (by omega)
      · omega
      · by_cases hzero : form.number = 0
        · exact Or.inl (by omega)
        · exact Or.inr (Or.inr ⟨fam, hfam, by omega, by omega, hsome⟩)
  · exact iff_of_true (Or.inl rfl) (Or.inr (Or.inr (Or.inl (by omega))))

/-- Every address of one of the forms is a well-formed one. -/
theorem exists_wellFormed (form : ListenForm) (hdecimal : IsDecimal form.digits.toList) :
    ∃ form' : ListenForm, form'.WellFormed ∧ form'.text = form.text := by
  cases form with
  | port digits => exact ⟨.port digits, ⟨hdecimal, trivial⟩, rfl⟩
  | bracketed host digits => exact ⟨.bracketed host digits, ⟨hdecimal, trivial⟩, rfl⟩
  | hostPort host digits =>
      by_cases hbrackets : host.toList.head? = some '[' ∧ host.toList.getLast? = some ']'
      · obtain ⟨rest, hrest⟩ := List.head?_eq_some_iff.mp hbrackets.1
        have hlast := hbrackets.2
        rw [hrest] at hlast
        obtain ⟨inner, hinner⟩ : ∃ inner, rest = inner ++ [']'] := by
          cases rest using List.reverseRecOn with
          | nil => exact absurd hlast (by decide)
          | append_singleton inner c =>
              rw [← List.cons_append, List.getLast?_concat, Option.some.injEq] at hlast
              exact ⟨inner, by rw [hlast]⟩
        refine ⟨.bracketed (String.ofList inner) digits, ⟨hdecimal, trivial⟩, ?_⟩
        rw [← String.toList_inj]
        simp [ListenForm.text, hrest, hinner]
      · exact ⟨.hostPort host digits, ⟨hdecimal, hbrackets⟩, rfl⟩

/-- The written endpoint is bound, or none, exactly if it fits. -/
theorem bindInet_endpoint_iff (sock : SocketUnit) (le : ListenEntry) (os : BindAnswers)
    (k : Kernel) (form : ListenForm) (hform : form.WellFormed) (htext : le.address = form.text) :
    (∀ bind listen, BindsWrittenEndpoint form os
        (bindInet sock le (os.answering bind listen) k)) ↔ EndpointFits form os k.fds := by
  unfold EndpointFits
  split_ifs with hplain
  · have hparse := parseInetAddr_of_plain hform hplain
    rw [← htext] at hparse
    rw [bindsWrittenEndpoint_iff sock os k form hparse, readsEndpoint_plain_iff]
  · obtain ⟨hport, hhost⟩ := parseInetAddr_of_bracket (head?_text_of_not_plain hplain)
    rw [← htext] at hport hhost ⊢
    have hparse : parseInetAddr le.address =
        ((parseInetAddr le.address).1, (parseInetAddr le.address).2) := rfl
    rw [bindsWrittenEndpoint_iff sock os k form hparse, ← hport]
    by_cases hzero : (parseInetAddr le.address).2 = 0
    · exact iff_of_true (Or.inl hzero) (Or.inl hzero)
    · rw [hhost hzero]

/-- Knows the two loopback addresses. -/
def loopbackOnly : BindAnswers :=
  { acceptsFitting with
    inetPton6 := fun host => if host = "::1" then some 1 else none
    inetAddr := fun host => if host = "127.0.0.1" then some 0x7f000001 else none }

theorem bindInet_endpoint_iff_sample :
    BindsWrittenEndpoint (.bracketed "::1" "8080") loopbackOnly
      (bindInet { name := "web.socket" } { type := .stream, address := "[::1]:8080" }
        (loopbackOnly.answering (fun _ => true) true) { fds := fun _ => none }) := by
  refine (bindInet_endpoint_iff { name := "web.socket" }
    { type := .stream, address := "[::1]:8080" } loopbackOnly { fds := fun _ => none }
    (.bracketed "::1" "8080") (by decide) (by decide)).mpr ?_ (fun _ => true) true
  rw [EndpointFits, if_pos (by decide)]
  exact Or.inr (Or.inr (Or.inr ⟨by decide, .inet6, by decide, by decide⟩))

/-- Port 65616 is port 80. -/
theorem bindInet_wraps_port :
    ¬ ∀ (sock : SocketUnit) (le : ListenEntry) (os : BindAnswers) (k : Kernel) (form : ListenForm),
      form.WellFormed → le.address = form.text →
        BindsWrittenEndpoint form os (bindInet sock le os k) := by
  intro h
  let form : ListenForm := .hostPort "127.0.0.1" "65616"
  let le : ListenEntry := { type := .stream, address := "127.0.0.1:65616" }
  have hexact : ∀ bind listen, BindsWrittenEndpoint form loopbackOnly
      (bindInet { name := "web.socket" } le (loopbackOnly.answering bind listen)
        { fds := fun _ => none }) := by
    intro bind listen
    exact h _ le (loopbackOnly.answering bind listen) _ form (by decide) (by decide)
  have hparse : parseInetAddr le.address = ("127.0.0.1", 65616) := by decide
  rcases (bindsWrittenEndpoint_iff _ loopbackOnly _ form hparse).mp hexact with
    hzero | hnone | ⟨fam, hfam, hlow, hport, hliteral⟩
  · exact absurd hzero (by decide)
  · exact absurd hnone (by decide)
  · exact absurd hport (by decide)

end TrivialInit
