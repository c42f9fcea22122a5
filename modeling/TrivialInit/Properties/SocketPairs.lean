import TrivialInit.Properties.SocketConsumers

/-!
# SocketPairs — which service a socket goes with

The rule is written three times: `resolve_pair` chooses the service of an accepted connection,
`pairs_with` selects the sockets a service is handed, and `paired_service` names the service without
looking at the loaded units.  All three are about one list of names, in the order of preference:
`resolve_pair` takes the first one that is loaded, and the first one of all if none is.
-/

namespace TrivialInit
namespace InitSystem

/-! ## The candidates -/

/-- The names a socket can be paired with, the preferred one first. -/
def pairNames (sock : SocketUnit) : List String :=
  if sock.service ≠ "" then [sock.service]
  else [socketStem sock ++ ".service", socketStem sock ++ "@.service"]

theorem length_pairNames_le (sock : SocketUnit) : (pairNames sock).length ≤ 2 := by
  unfold pairNames
  split_ifs <;> simp

theorem pairsWith_iff {sock : SocketUnit} {svc : String} :
    pairsWith sock svc = true ↔ svc ∈ pairNames sock := by
  unfold pairsWith pairNames
  split_ifs
  · simp only [decide_eq_true_eq, List.mem_singleton]
    exact eq_comm
  · simp only [Bool.or_eq_true, decide_eq_true_eq, List.mem_cons, List.not_mem_nil, or_false]
    exact or_congr eq_comm eq_comm

/-! ## The three functions -/

theorem pairedService_eq (sock : SocketUnit) :
    sock.pairedService =
      if sock.service ≠ "" then sock.service else socketStem sock ++ ".service" := by
  unfold SocketUnit.pairedService socketStem
  split_ifs
  · rfl
  · cases rfindChar sock.name '.' <;> rfl

theorem pairedService_mem (sock : SocketUnit) : sock.pairedService ∈ pairNames sock := by
  rw [pairedService_eq, pairNames]
  split_ifs <;> simp

/-- Is the unit loaded? -/
def isLoaded (s : InitSystem) (svc : String) : Bool :=
  (s.findUnit svc).isSome

theorem resolvePair_eq (s : InitSystem) (sock : SocketUnit) :
    s.resolvePair sock =
      if sock.service ≠ "" then sock.service
      else if s.isLoaded (socketStem sock ++ ".service") then socketStem sock ++ ".service"
      else if s.isLoaded (socketStem sock ++ "@.service") then socketStem sock ++ "@.service"
      else socketStem sock ++ ".service" := rfl

/-- `resolve_pair` takes the first candidate that is loaded. -/
theorem resolvePair_eq_find (s : InitSystem) (sock : SocketUnit) :
    s.resolvePair sock = ((pairNames sock).find? s.isLoaded).getD sock.pairedService := by
  rw [pairedService_eq, resolvePair_eq, pairNames]
  by_cases hservice : sock.service = ""
  · simp only [hservice, ne_eq, not_true_eq_false, if_false, List.find?_cons, List.find?_nil]
    cases s.isLoaded (socketStem sock ++ ".service") with
    | true => rfl
    | false =>
        cases s.isLoaded (socketStem sock ++ "@.service") with
        | true => rfl
        | false => rfl
  · simp only [ne_eq, hservice, not_false_eq_true, if_true, List.find?_cons, List.find?_nil]
    cases s.isLoaded sock.service with
    | true => rfl
    | false => rfl

theorem resolvePair_mem (s : InitSystem) (sock : SocketUnit) :
    s.resolvePair sock ∈ pairNames sock := by
  rw [resolvePair_eq_find]
  cases hfind : (pairNames sock).find? s.isLoaded with
  | none => exact pairedService_mem sock
  | some svc => exact List.mem_of_find?_eq_some hfind

/-- If any candidate is loaded, the chosen one is. -/
theorem isLoaded_resolvePair {s : InitSystem} {sock : SocketUnit} {svc : String}
    (hsvc : svc ∈ pairNames sock) (hloaded : s.isLoaded svc = true) :
    s.isLoaded (s.resolvePair sock) = true := by
  rw [resolvePair_eq_find]
  cases hfind : (pairNames sock).find? s.isLoaded with
  | none => exact absurd hloaded (List.find?_eq_none.mp hfind svc hsvc)
  | some chosen =>
      have hchosen : s.isLoaded chosen = true := List.find?_some hfind
      exact hchosen

/-- The template is chosen when it is loaded and the service of the socket's own name is not. -/
theorem resolvePair_ne_pairedService_iff {s : InitSystem} {sock : SocketUnit} :
    s.resolvePair sock ≠ sock.pairedService ↔
      sock.service = "" ∧ s.isLoaded (socketStem sock ++ ".service") = false ∧
        s.isLoaded (socketStem sock ++ "@.service") = true := by
  rw [resolvePair_eq_find, pairedService_eq, pairNames]
  by_cases hservice : sock.service = ""
  · simp only [hservice, ne_eq, not_true_eq_false, if_false, List.find?_cons, List.find?_nil,
      true_and]
    cases s.isLoaded (socketStem sock ++ ".service") with
    | true => simp
    | false =>
        cases s.isLoaded (socketStem sock ++ "@.service") with
        | true => simp
        | false => simp
  · simp only [ne_eq, hservice, not_false_eq_true, if_true, List.find?_cons, List.find?_nil,
      false_and, iff_false, not_not]
    cases s.isLoaded sock.service with
    | true => rfl
    | false => rfl

/-- The three pairing rules agree. -/
theorem pairing_consistent (s : InitSystem) (sock : SocketUnit) :
    pairsWith sock (s.resolvePair sock) = true ∧
      (∀ svc, pairsWith sock svc = true → (s.findUnit svc).isSome = true →
        (s.findUnit (s.resolvePair sock)).isSome = true) ∧
      (s.resolvePair sock ≠ sock.pairedService ↔
        sock.service = "" ∧ s.findUnit (socketStem sock ++ ".service") = none ∧
          (s.findUnit (socketStem sock ++ "@.service")).isSome = true) ∧
      ∃ names : List String, names.length ≤ 2 ∧ ∀ svc, pairsWith sock svc = true → svc ∈ names := by
  refine ⟨?_, ?_, ?_, ?_⟩
  · exact pairsWith_iff.mpr (resolvePair_mem s sock)
  · intro svc hsvc hloaded
    exact isLoaded_resolvePair (pairsWith_iff.mp hsvc) hloaded
  · rw [resolvePair_ne_pairedService_iff, isLoaded, Option.isSome_eq_false_iff,
      Option.isNone_iff_eq_none]
    rfl
  · exact ⟨pairNames sock, length_pairNames_le sock, fun svc hsvc => pairsWith_iff.mp hsvc⟩

/-! ## The descriptors that are passed on -/

/-- A service chosen for a connection is also passed the listening descriptors of the socket. -/
theorem mem_passedFds_resolvePair {s : InitSystem} {n : String} {fd : Int}
    (hfd : fd ∈ listenFds (s.socketUnit n).listen) :
    fd ∈ passedFds s (s.resolvePair (s.socketUnit n)) :=
  mem_passedFds.mpr ⟨n, pairsWith_iff.mpr (resolvePair_mem s _), hfd⟩

/-- A service that is passed a descriptor is a candidate of a socket that listens on it. -/
theorem exists_mem_pairNames {s : InitSystem} {svc : String} {fd : Int}
    (hfd : fd ∈ passedFds s svc) :
    ∃ n, fd ∈ listenFds (s.socketUnit n).listen ∧ svc ∈ pairNames (s.socketUnit n) := by
  obtain ⟨n, hpairs, hlisten⟩ := mem_passedFds.mp hfd
  exact ⟨n, hlisten, pairsWith_iff.mp hpairs⟩

end InitSystem
end TrivialInit
