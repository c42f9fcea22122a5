import TrivialInit.Mixins.SocketBind
import TrivialInit.Properties.Expansion

/-!
# BindFilter — which listen addresses are bound

Whether a specifier of an address was left unresolved is guessed from the expanded text: first for
the unit (`has_bindable`), then for each entry (`continue`).  Both take any `%` for an unresolved
specifier, also one that `%%`, a value, or the end of the address has put there.
-/

namespace TrivialInit

/-! ## The source text and its expansion -/

/-- The scan of `resolve` meets a specifier that is not registered. -/
def meetsUnregistered : List Char → Bool
  | [] => false
  | '%' :: spec :: rest => decide (spec ∉ specifierChars) || meetsUnregistered rest
  | _ :: rest => meetsUnregistered rest

theorem meetsUnregistered_percent_cons (spec : Char) (rest : List Char) :
    meetsUnregistered ('%' :: spec :: rest) =
      (decide (spec ∉ specifierChars) || meetsUnregistered rest) := rfl

theorem meetsUnregistered_cons_of_ne {c : Char} (hc : c ≠ '%') (rest : List Char) :
    meetsUnregistered (c :: rest) = meetsUnregistered rest := by
  rw [meetsUnregistered]
  intro spec rest' h
  exact absurd h hc

variable (info : SystemInfo) (ctx : SpecifierContext)

/-- Every `%` begins a registered specifier whose value has no `%`. -/
structure Resolves (l : List Char) : Prop where
  registered : meetsUnregistered l = false
  values : ∀ spec ∈ specifiersIn l, '%' ∉ specifierValue info ctx spec
  paired : endsUnpaired l = false

/-- The text consists of registered specifiers without a value. -/
def vanishes : List Char → Bool
  | [] => true
  | '%' :: spec :: rest =>
      decide (spec ∈ specifierChars) && decide (specifierValue info ctx spec = []) && vanishes rest
  | _ :: _ => false

theorem resolves_iff (l : List Char) :
    Resolves info ctx l ↔ meetsUnregistered l = false ∧
      (∀ spec ∈ specifiersIn l, '%' ∉ specifierValue info ctx spec) ∧ endsUnpaired l = false := by
  constructor
  · rintro ⟨hregistered, hvalues, hpaired⟩
    exact ⟨hregistered, hvalues, hpaired⟩
  · rintro ⟨hregistered, hvalues, hpaired⟩
    exact ⟨hregistered, hvalues, hpaired⟩

theorem not_mem_resolveChars_iff (l : List Char) :
    '%' ∉ resolveChars info ctx l ↔ Resolves info ctx l := by
  rw [resolves_iff]
  induction l using scanInduction with
  | nil => simp [meetsUnregistered, specifiersIn, endsUnpaired]
  | percent => simp [endsUnpaired]
  | specifier spec rest hspec ih =>
      rw [resolveChars_specifier info ctx hspec, List.mem_append, not_or, ih,
        meetsUnregistered_percent_cons, endsUnpaired_percent_cons, specifiersIn, if_pos hspec,
        List.forall_mem_cons]
      simp only [hspec, not_true_eq_false, decide_false, Bool.false_or]
      tauto
  | unknown spec rest hspec ih =>
      rw [resolveChars_unknown info ctx hspec, meetsUnregistered_percent_cons]
      simp [hspec]
  | other c rest hc ih =>
      rw [resolveChars_cons_of_ne info ctx hc, List.mem_cons, not_or, ih,
        meetsUnregistered_cons_of_ne hc, endsUnpaired_cons_of_ne hc, specifiersIn_cons_of_ne hc]
      exact and_iff_right (Ne.symm hc)

theorem resolveChars_eq_nil_iff (l : List Char) :
    resolveChars info ctx l = [] ↔ vanishes info ctx l = true := by
  induction l using scanInduction with
  | nil => simp [vanishes]
  | percent => simp [vanishes]
  | specifier spec rest hspec ih =>
      rw [resolveChars_specifier info ctx hspec, List.append_eq_nil_iff, ih, vanishes]
      simp [hspec]
  | unknown spec rest hspec ih =>
      rw [resolveChars_unknown info ctx hspec, vanishes]
      simp [hspec]
  | other c rest hc ih =>
      rw [resolveChars_cons_of_ne info ctx hc, vanishes]
      · simp
      · intro spec rest' h
        exact absurd h hc

theorem findChar_percent_resolve (s : String) :
    (findChar (resolve info ctx s) '%').isSome = false ↔ Resolves info ctx s.toList := by
  rw [Bool.eq_false_iff, Ne, findChar_isSome_iff, toList_resolve, not_mem_resolveChars_iff]

theorem resolve_ne_empty_iff (s : String) :
    resolve info ctx s ≠ "" ↔ vanishes info ctx s.toList = false := by
  rw [Ne, ← String.toList_eq_nil_iff, toList_resolve, resolveChars_eq_nil_iff, Bool.not_eq_true]

/-! ## Calls of `create_and_bind` -/

variable {info ctx}

/-- The loop body of `bind_socket_unit` calls `create_and_bind`: what the system answers for the
entry makes a difference. -/
def CallsCreateAndBind (sock : SocketUnit) (le : ListenEntry) : Prop :=
  ∃ (t : Traced) (os os' : BindAnswers), bindEntry sock os le t ≠ bindEntry sock os' le t

/-- A system that opens nothing, with this text for the reason. -/
def opensNothing (error : String) : BindAnswers :=
  { socket6 := ⟨fun _ => none, fun _ _ _ h => nomatch h⟩
    socket := ⟨fun _ => none, fun _ _ _ h => nomatch h⟩
    bind := fun _ => false
    listen := false
    mkfifo := false
    opened := ⟨fun _ => none, fun _ _ _ h => nomatch h⟩
    inetPton6 := fun _ => none
    inetAddr := fun _ => none
    error := error }

theorem createAndBind_opensNothing (sock : SocketUnit) (le : ListenEntry) (error : String)
    (k : Kernel) : (createAndBind sock le (opensNothing error) k).1 = none := by
  unfold createAndBind
  cases le.type <;> dsimp only
  case stream | datagram | sequentialPacket =>
    split_ifs
    · rfl
    · unfold bindInet openInet6
      dsimp only
      split_ifs <;> rfl
  all_goals rfl

/-- A journal that takes every message. -/
def verbose : Traced :=
  { init := { journal := { minLevel := .debug } } }

/-- The loop body gets past its `continue` exactly if the address has no `%`. -/
theorem callsCreateAndBind_iff (sock : SocketUnit) (le : ListenEntry) :
    CallsCreateAndBind sock le ↔ (findChar le.address '%').isSome = false := by
  constructor
  · rintro ⟨t, os, os', hne⟩
    by_contra hpercent
    rw [Bool.not_eq_false] at hpercent
    exact hne (by rw [bindEntry, bindEntry, if_pos hpercent, if_pos hpercent])
  · intro hclean
    have hlogged : ∀ error,
        (bindEntry sock (opensNothing error) le verbose).2.init.journal.entries =
          [{ level := if le.type = .netlink ∨ le.type = .messageQueue then .warning else .error
             source := "socket"
             message := s!"{sock.name}: failed to bind {le.address}: {error}" }] := by
      intro error
      have hfails := createAndBind_opensNothing sock le error
        { fds := verbose.init.fds, calls := verbose.calls }
      rw [bindEntry, if_neg (by rw [hclean]; exact Bool.false_ne_true)]
      generalize createAndBind _ _ _ _ = r at hfails
      obtain ⟨_ | fd, k⟩ := r
      · dsimp only [logBindFailure]
        split_ifs <;> rfl
      · cases hfails
    refine ⟨verbose, opensNothing "", opensNothing "x", ?_⟩
    intro heq
    have hentries := congrArg (fun r => r.2.init.journal.entries) heq
    have hreason : toString "" = toString "x" := by simpa [hlogged] using hentries
    exact absurd hreason (by decide)

/-- `execute(SocketBind)` calls `bind_socket_unit` on the unit, which it counts, and that calls
`create_and_bind` on the entry with this number. -/
structure Attempts (os : SocketBindAnswers) (acc : Traced × Nat) (name : String) (unit : UnitFile)
    (i : Nat) : Prop where
  counted : (bindUnit os acc name unit).2 = acc.2 + 1
  called : ∃ le, (expandSpecifiers os.info (parseSocketUnit unit)).listen[i]? = some le ∧
    CallsCreateAndBind (expandSpecifiers os.info (parseSocketUnit unit)) le

/-- `bind_socket_unit` is reached with a unit that has no addresses, or a bindable one. -/
theorem bindUnit_counts_iff (os : SocketBindAnswers) (acc : Traced × Nat) (name : String)
    {unit : UnitFile} (htype : unit.type = .socket) :
    (bindUnit os acc name unit).2 = acc.2 + 1 ↔ unit.isBareTemplate = false ∧
      (hasBindable (expandSpecifiers os.info (parseSocketUnit unit)) = true ∨
        (parseSocketUnit unit).listen = []) := by
  obtain ⟨t, bound⟩ := acc
  have hlisten : (expandSpecifiers os.info (parseSocketUnit unit)).listen = [] ↔
      (parseSocketUnit unit).listen = [] := List.map_eq_nil_iff
  rw [bindUnit, ← hlisten]
  simp only [htype, ne_eq, not_true_eq_false, if_false]
  cases hbare : unit.isBareTemplate
  · simp only [Bool.false_eq_true, if_false, true_and]
    split_ifs with hskip
    · simp [hskip.1, hskip.2]
    · rw [not_and_or, Bool.not_eq_false, not_not] at hskip
      exact iff_of_true rfl hskip
  · simp

/-! ## The filter -/

/-- The context in which the addresses of a unit are expanded. -/
def unitContext (unit : UnitFile) : SpecifierContext :=
  SpecifierContext.ofUnit unit.name unit.path

theorem expandSpecifiers_listen (info : SystemInfo) (unit : UnitFile) :
    (expandSpecifiers info (parseSocketUnit unit)).listen =
      (parseSocketUnit unit).listen.map (fun le =>
        { le with address := resolve info (unitContext unit) le.address }) := by
  have hcontext : (parseSocketUnit unit).name = unit.name ∧
      (parseSocketUnit unit).path = unit.path := by
    unfold parseSocketUnit
    cases unit.rawSections.lookup "Socket" <;> exact ⟨rfl, rfl⟩
  rw [expandSpecifiers, hcontext.1, hcontext.2]
  rfl

theorem hasBindable_expandSpecifiers (info : SystemInfo) (unit : UnitFile) :
    hasBindable (expandSpecifiers info (parseSocketUnit unit)) = true ↔
      ∃ le ∈ (parseSocketUnit unit).listen, Resolves info (unitContext unit) le.address.toList ∧
        vanishes info (unitContext unit) le.address.toList = false := by
  rw [hasBindable, expandSpecifiers_listen, List.any_map, List.any_eq_true]
  refine exists_congr ?_
  intro le
  refine and_congr_right ?_
  intro _
  rw [← findChar_percent_resolve, ← resolve_ne_empty_iff]
  simp [and_comm]

theorem attempts_iff (os : SocketBindAnswers) (acc : Traced × Nat) (name : String) {unit : UnitFile}
    (htype : unit.type = .socket) {i : Nat} {le : ListenEntry}
    (hle : (parseSocketUnit unit).listen[i]? = some le) :
    Attempts os acc name unit i ↔ unit.isBareTemplate = false ∧
      Resolves os.info (unitContext unit) le.address.toList ∧
      ∃ le' ∈ (parseSocketUnit unit).listen,
        Resolves os.info (unitContext unit) le'.address.toList ∧
          vanishes os.info (unitContext unit) le'.address.toList = false := by
  have hne : (parseSocketUnit unit).listen ≠ [] := by
    intro hnil
    rw [hnil] at hle
    cases hle
  have hentry : (∃ le, (expandSpecifiers os.info (parseSocketUnit unit)).listen[i]? = some le ∧
      CallsCreateAndBind (expandSpecifiers os.info (parseSocketUnit unit)) le) ↔
        Resolves os.info (unitContext unit) le.address.toList := by
    rw [expandSpecifiers_listen, List.getElem?_map, hle]
    simp only [Option.map_some, Option.some.injEq, exists_eq_left', callsCreateAndBind_iff,
      findChar_percent_resolve]
  have hunit := bindUnit_counts_iff os acc name htype
  rw [or_iff_left hne, hasBindable_expandSpecifiers] at hunit
  constructor
  · rintro ⟨hcounted, hcalled⟩
    exact ⟨(hunit.mp hcounted).1, hentry.mp hcalled, (hunit.mp hcounted).2⟩
  · rintro ⟨hbare, hresolves, hbindable⟩
    exact ⟨hunit.mpr ⟨hbare, hbindable⟩, hentry.mpr hresolves⟩

/-- Exactly the addresses without an unregistered specifier are bound, unless one of these has a `%`
left after expansion, or all of them that have none are empty, or the unit is a template. -/
theorem bindFilter_iff (os : SocketBindAnswers) (acc : Traced × Nat) (name : String)
    (unit : UnitFile) (htype : unit.type = .socket) (i : Nat) (le : ListenEntry)
    (hle : (parseSocketUnit unit).listen[i]? = some le) :
    (Attempts os acc name unit i ↔ meetsUnregistered le.address.toList = false) ↔
      meetsUnregistered le.address.toList = true ∨ unit.isBareTemplate = false ∧
        Resolves os.info (unitContext unit) le.address.toList ∧
        ∃ le' ∈ (parseSocketUnit unit).listen,
          Resolves os.info (unitContext unit) le'.address.toList ∧
            vanishes os.info (unitContext unit) le'.address.toList = false := by
  rw [attempts_iff os acc name htype hle]
  cases hmeets : meetsUnregistered le.address.toList
  · simp
  · have hno : ¬ Resolves os.info (unitContext unit) le.address.toList := by
      intro hresolves
      rw [hresolves.registered] at hmeets
      cases hmeets
    simp [hno]

/-- The unit `zone.socket`, with this `ListenStream=`. -/
def zoneSocket (address : String) : UnitFile :=
  { name := "zone.socket"
    type := .socket
    rawSections := (∅ : Sections).insert "Socket"
      ((∅ : UnorderedMap String String).insert "ListenStream" address) }

def quietAnswers : SocketBindAnswers :=
  { entries := fun _ _ => opensNothing "" }

/-- An IPv6 zone identifier. -/
theorem bindFilter_drops_zone :
    ¬ ∀ (os : SocketBindAnswers) (acc : Traced × Nat) (name : String) (unit : UnitFile),
      unit.type = .socket → unit.isBareTemplate = false → ∀ (i : Nat) (le : ListenEntry),
        (parseSocketUnit unit).listen[i]? = some le →
          (Attempts os acc name unit i ↔ meetsUnregistered le.address.toList = false) := by
  intro h
  have hle : (parseSocketUnit (zoneSocket "[fe80::1%%eth0]:80")).listen[0]? =
      some { type := .stream, address := "[fe80::1%%eth0]:80" } := by decide +kernel
  have hattempts := (h quietAnswers ({ init := {} }, 0) "zone.socket"
    (zoneSocket "[fe80::1%%eth0]:80") rfl (by decide) 0 _ hle).mpr (by decide)
  have hresolves := ((attempts_iff quietAnswers _ _ rfl hle).mp hattempts).2.1
  exact hresolves.values '%' (by decide) (by decide)

/-- `%p` is `zone`. -/
theorem bindFilter_iff_sample :
    Attempts quietAnswers ({ init := {} }, 0) "zone.socket" (zoneSocket "/run/%p.sock") 0 := by
  have hle : (parseSocketUnit (zoneSocket "/run/%p.sock")).listen[0]? =
      some { type := .stream, address := "/run/%p.sock" } := by decide +kernel
  have hspecifiers : specifiersIn "/run/%p.sock".toList = ['p'] := by decide
  have hresolves : Resolves quietAnswers.info (unitContext (zoneSocket "/run/%p.sock"))
      "/run/%p.sock".toList :=
    { registered := by decide
      values := by
        rw [hspecifiers, List.forall_mem_singleton]
        decide
      paired := by decide }
  have hiff := bindFilter_iff quietAnswers ({ init := {} }, 0) "zone.socket"
    (zoneSocket "/run/%p.sock") rfl 0 _ hle
  refine (hiff.mpr (Or.inr ⟨by decide, hresolves, _, List.mem_of_getElem? hle, hresolves, ?_⟩)).mpr
    (by decide)
  decide

end TrivialInit
