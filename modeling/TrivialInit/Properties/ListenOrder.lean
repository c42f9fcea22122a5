import TrivialInit.Lib.Grouping
import TrivialInit.Mixins.SocketBind
import TrivialInit.Properties.ListDirectives

/-!
# ListenOrder — the order of listen addresses

`parse_socket_unit` makes one pass over the `[Socket]` section for each `Listen*` directive, so the
addresses of one directive keep their order but the directives are regrouped.  The `listen` vector
is in file order exactly if the file already has its addresses in the order of the passes.
-/

namespace TrivialInit

/-! ## Configured addresses -/

/-- The directive of a listen type. -/
def ListenType.directive : ListenType → String
  | stream => "ListenStream"
  | datagram => "ListenDatagram"
  | sequentialPacket => "ListenSequentialPacket"
  | fifo => "ListenFIFO"
  | special => "ListenSpecial"
  | netlink => "ListenNetlink"
  | messageQueue => "ListenMessageQueue"

/-- The passes of `parse_socket_unit`, in order. -/
def listenPasses : List ListenType :=
  [.stream, .datagram, .sequentialPacket, .fifo, .special, .netlink, .messageQueue]

/-- The address words of one assignment, each with the type of its directive. -/
def listenWords (a : Assignment) : List (ListenType × String) :=
  match listenPasses.find? (fun t => a.sec = "Socket" ∧ a.key = t.directive) with
  | some t => (wordsOf a.value).map (fun address => (t, address))
  | none => []

/-- The address words of all listen directives of a file, in file order. -/
def configuredListen (file : Option String) : List (ListenType × String) :=
  (assignments file).flatMap listenWords

/-- A freshly parsed entry. -/
def ListenEntry.parsed (w : ListenType × String) : ListenEntry :=
  { type := w.1, address := w.2 }

theorem listenDirectives_eq :
    listenDirectives = listenPasses.map (fun t => (t.directive, t)) := rfl

theorem mem_listenPasses (t : ListenType) : t ∈ listenPasses := by
  cases t <;> decide

theorem nodup_listenPasses : listenPasses.Nodup := by
  decide

theorem directive_injective : Function.Injective ListenType.directive := by
  intro t t' h
  cases t <;> cases t' <;> first | rfl | simp [ListenType.directive] at h

/-! ## One pass -/

/-- The pass for one type keeps the words of its directive and drops all others. -/
theorem filter_listenWords (a : Assignment) (t : ListenType) :
    (listenWords a).filter (fun w => w.1 = t) =
      if a.sec = "Socket" ∧ a.key = t.directive then
        (wordsOf a.value).map (fun address => (t, address))
      else [] := by
  unfold listenWords
  cases hfind : listenPasses.find? (fun t => a.sec = "Socket" ∧ a.key = t.directive) with
  | none =>
      have hno := List.find?_eq_none.mp hfind t (mem_listenPasses t)
      rw [if_neg (by simpa using hno)]
      rfl
  | some t' =>
      have ht' : a.sec = "Socket" ∧ a.key = t'.directive := by
        simpa using List.find?_some hfind
      by_cases h : t' = t
      · subst h
        rw [if_pos ht', List.filter_eq_self]
        intro w hw
        rcases List.mem_map.mp hw with ⟨address, -, rfl⟩
        simp
      · have hne : ¬ (a.sec = "Socket" ∧ a.key = t.directive) := by
          rintro ⟨-, hkey⟩
          exact h (directive_injective (ht'.2.symm.trans hkey))
        rw [if_neg hne, List.filter_eq_nil_iff]
        intro w hw
        rcases List.mem_map.mp hw with ⟨address, -, rfl⟩
        simpa using h

theorem filter_configuredListen (file : Option String) (t : ListenType) :
    (configuredListen file).filter (fun w => w.1 = t) =
      ((valuesOf (assignments file) "Socket" t.directive).flatMap wordsOf).map
        (fun address => (t, address)) := by
  unfold configuredListen valuesOf
  induction assignments file with
  | nil => rfl
  | cons a as ih =>
      rw [List.flatMap_cons, List.filter_append, filter_listenWords, ih]
      by_cases h : a.sec = "Socket" ∧ a.key = t.directive
      · simp [h]
      · simp [h]

/-! ## The passes of the source -/

theorem addListen_eq (listen : List ListenEntry) (raw : String) (lt : ListenType) :
    addListen listen raw lt =
      listen ++ ((wordsOf raw).map (fun address => (lt, address))).map ListenEntry.parsed := by
  unfold addListen
  by_cases hraw : raw = ""
  · subst hraw
    simp [wordsOf]
  · have hwords : Words.words isBlank
          (raw.toList.map (fun c => if c = '\x1f' then ' ' else c)) =
        Words.words isListSep raw.toList := by
      apply Words.words_map
      · intro c hc
        by_cases h : c = '\x1f'
        · simp [h, isBlank]
        · simpa [isListSep, h] using hc
      · intro c hc
        simp only [isListSep, Bool.or_eq_false_iff, decide_eq_false_iff_not] at hc
        simp [hc]
    simp only [hraw, if_false]
    rw [splitLoop_eq_words _ _ _ (le_refl _), hwords]
    simp [wordsOf, ListenEntry.parsed, Function.comp_def]

theorem foldl_addListen (get : String → String) (passes : List ListenType)
    (listen : List ListenEntry) :
    (passes.map (fun t => (t.directive, t))).foldl
        (fun listen d => addListen listen (get d.1) d.2) listen =
      listen ++ (passes.flatMap (fun t =>
        (wordsOf (get t.directive)).map (fun address => (t, address)))).map ListenEntry.parsed := by
  induction passes generalizing listen with
  | nil => simp
  | cons t passes ih =>
      rw [List.map_cons, List.foldl_cons, ih, addListen_eq, List.flatMap_cons, List.map_append,
        List.append_assoc]

theorem storedValue_getD (values : List String) :
    (storedValue values).getD "" = joinValues values := by
  unfold storedValue
  by_cases h : values = []
  · subst h
    rfl
  · simp [h]

/-- The parsed entries are the configured words, regrouped by type. -/
theorem parseSocketUnit_listen (unit : UnitFile) (file : Option String) :
    (parseSocketUnit { unit with rawSections := parseIni file }).listen =
      (Grouping.group listenPasses Prod.fst (configuredListen file)).map ListenEntry.parsed := by
  have hpass : ∀ t : ListenType,
      (configuredListen file).filter (fun w => w.1 = t) =
        (wordsOf ((valueAt (parseIni file) "Socket" t.directive).getD "")).map
          (fun address => (t, address)) := by
    intro t
    rw [filter_configuredListen, valueAt_parseIni, storedValue_getD, wordsOf_joinValues]
  unfold parseSocketUnit Grouping.group
  simp only [hpass]
  cases hsec : (parseIni file).lookup "Socket" with
  | none => simp [valueAt, hsec, wordsOf]
  | some sec =>
      simp only
      rw [listenDirectives_eq, foldl_addListen (fun key => (sec.lookup key).getD "")]
      simp [valueAt, hsec]

/-! ## File order -/

/-- The `listen` vector has one entry for each configured address word, with the type of its
directive and in file order, exactly if the types of the words appear in the order of the passes. -/
theorem parseSocketUnit_listen_iff (unit : UnitFile) (file : Option String) :
    (parseSocketUnit { unit with rawSections := parseIni file }).listen =
        (configuredListen file).map (fun w => { type := w.1, address := w.2 }) ↔
      (configuredListen file).Pairwise
        (fun v w => listenPasses.idxOf v.1 ≤ listenPasses.idxOf w.1) := by
  have hinj : Function.Injective ListenEntry.parsed := by
    rintro ⟨t, address⟩ ⟨t', address'⟩ h
    simpa [ListenEntry.parsed] using h
  have hmap : (configuredListen file).map (fun w => { type := w.1, address := w.2 }) =
      (configuredListen file).map ListenEntry.parsed := rfl
  rw [parseSocketUnit_listen, hmap, (List.map_injective_iff.mpr hinj).eq_iff]
  exact Grouping.group_eq_self_iff nodup_listenPasses (fun w _ => mem_listenPasses w.1)

/-- A datagram socket configured before a stream socket comes after it. -/
theorem parseSocketUnit_not_in_file_order :
    ¬ ∀ (unit : UnitFile) (file : Option String),
      (parseSocketUnit { unit with rawSections := parseIni file }).listen =
        (configuredListen file).map (fun w => { type := w.1, address := w.2 }) := by
  intro h
  have hfile := h {} (some "[Socket]\nListenDatagram=/a\nListenStream=/b\n")
  revert hfile
  decide +kernel

end TrivialInit
