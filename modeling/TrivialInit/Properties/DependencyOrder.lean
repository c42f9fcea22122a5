import TrivialInit.Lib.Kahn
import TrivialInit.Mixins.UnitExec

/-!
# DependencyOrder — what `execute(DependencyResolve)` schedules

The two maps the function builds are the successor lists and the in-degrees of one list of edges
(`dependencyEdges`), with one edge for every increment of a counter.  On these maps the ready queue
is a run of Kahn's algorithm, so the scheduled units are the ones from which no dependency cycle can
be reached, each after its dependencies.
-/

open Relation

namespace TrivialInit

/-! ## Dependencies between loaded units -/

/-- The loaded unit `v` lists the loaded unit `d` in `After=` or `Requires=`. -/
def DependsOn (units : UnorderedMap String UnitFile) (v d : String) : Prop :=
  ∃ unit, units.lookup v = some unit ∧ (d ∈ unit.after ∨ d ∈ unit.requires) ∧ d ∈ units

/-- Following dependencies from `v` leads to a unit on a dependency cycle. -/
def ReachesCycle (units : UnorderedMap String UnitFile) (v : String) : Prop :=
  ∃ c, ReflTransGen (DependsOn units) v c ∧ TransGen (DependsOn units) c c

def AcyclicDependencies (units : UnorderedMap String UnitFile) : Prop :=
  ∀ c, ¬ TransGen (DependsOn units) c c

theorem DependsOn.mem_left {units : UnorderedMap String UnitFile} {v d : String}
    (h : DependsOn units v d) : v ∈ units := by
  rcases h with ⟨unit, hunit, -, -⟩
  exact UnorderedMap.mem_of_lookup hunit

/-- An iteration order does not change the dependencies. -/
theorem dependsOn_of_perm {units units' : UnorderedMap String UnitFile}
    (h : units'.entries.Perm units.entries) : DependsOn units' = DependsOn units := by
  have hlookup : ∀ k, units'.lookup k = units.lookup k := fun k => AList.perm_lookup h
  funext v d
  simp only [DependsOn, hlookup, UnorderedMap.mem_iff_of_perm h]

theorem acyclic_iff {units : UnorderedMap String UnitFile} :
    AcyclicDependencies units ↔ ∀ v, v ∈ units → ¬ ReachesCycle units v := by
  constructor
  · rintro h v _ ⟨c, _, hcycle⟩
    exact h c hcycle
  · intro h c hcycle
    -- A unit on a cycle has a dependency, so it is loaded.
    have hmem : c ∈ units := by
      rcases TransGen.head'_iff.mp hcycle with ⟨d, hd, _⟩
      exact hd.mem_left
    exact h c hmem ⟨c, ReflTransGen.refl, hcycle⟩

/-! ## The edges the function counts -/

/-- The edges `(dep, name)` added for one unit, in order. -/
def unitEdges (units : UnorderedMap String UnitFile) (name : String) (unit : UnitFile) :
    List (String × String) :=
  (unit.after.filter (fun dep => decide (dep ∈ units))).map (fun dep => (dep, name)) ++
    (unit.requires.filter (fun dep => decide (dep ∈ units ∧ dep ∉ unit.after))).map
      (fun dep => (dep, name))

def dependencyEdges (units : UnorderedMap String UnitFile) : List (String × String) :=
  units.entries.flatMap (fun e => unitEdges units e.1 e.2)

theorem mem_unitEdges {units : UnorderedMap String UnitFile} {name : String} {unit : UnitFile}
    {d v : String} :
    (d, v) ∈ unitEdges units name unit ↔
      v = name ∧ (d ∈ unit.after ∨ d ∈ unit.requires) ∧ d ∈ units := by
  simp only [unitEdges, List.mem_append, List.mem_map, List.mem_filter, decide_eq_true_eq,
    Prod.mk.injEq]
  constructor
  · rintro (⟨dep, ⟨hafter, hmem⟩, rfl, rfl⟩ | ⟨dep, ⟨hrequires, hmem, -⟩, rfl, rfl⟩)
    · exact ⟨rfl, Or.inl hafter, hmem⟩
    · exact ⟨rfl, Or.inr hrequires, hmem⟩
  · rintro ⟨rfl, hdep, hmem⟩
    by_cases hafter : d ∈ unit.after
    · exact Or.inl ⟨d, ⟨hafter, hmem⟩, rfl, rfl⟩
    · have hrequires : d ∈ unit.requires := hdep.resolve_left hafter
      exact Or.inr ⟨d, ⟨hrequires, hmem, hafter⟩, rfl, rfl⟩

theorem mem_dependencyEdges {units : UnorderedMap String UnitFile} {d v : String} :
    (d, v) ∈ dependencyEdges units ↔ DependsOn units v d := by
  simp only [dependencyEdges, List.mem_flatMap, mem_unitEdges, DependsOn]
  constructor
  · rintro ⟨⟨name, unit⟩, he, rfl, hdep, hmem⟩
    exact ⟨unit, UnorderedMap.mem_entries_iff.mp he, hdep, hmem⟩
  · rintro ⟨unit, hunit, hdep, hmem⟩
    exact ⟨⟨v, unit⟩, UnorderedMap.mem_entries_iff.mpr hunit, rfl, hdep, hmem⟩

/-! ## The maps represent the edges -/

namespace DependencyGraph

/-- `g` has the nodes `names` and the edges `edges`. -/
structure Represents (g : DependencyGraph) (names : List String) (edges : List (String × String)) :
    Prop where
  mem_inDegree : ∀ v, v ∈ g.inDegree ↔ v ∈ names
  inDegree : ∀ v, (g.inDegree.lookup v).getD 0 = (edges.countP (fun e => decide (e.2 = v)) : Int)
  graph : ∀ u, (g.graph.lookup u).getD [] = Kahn.targets edges u

theorem Represents.addNode {g : DependencyGraph} {names : List String} (h : g.Represents names [])
    (name : String) : (g.addNode name).Represents (names ++ [name]) [] where
  mem_inDegree := by
    intro v
    simp [DependencyGraph.addNode, AList.mem_insert, h.mem_inDegree, or_comm]
  inDegree := by
    intro v
    have hv := h.inDegree v
    by_cases hname : v = name
    · simp [DependencyGraph.addNode, UnorderedMap.lookup_insert_eq, hname]
    · simpa [DependencyGraph.addNode, UnorderedMap.lookup_insert_eq, hname] using hv
  graph := by
    intro u
    have hu := h.graph u
    by_cases hname : u = name
    · subst hname
      -- `graph[name]` creates an empty list when an earlier `graph[dep]` has not.
      cases hg : g.graph.lookup u with
      | none =>
          have hdefault : (default : List String) = [] := rfl
          simp [DependencyGraph.addNode, UnorderedMap.lookup_subscript, hg, hdefault]
      | some l =>
          rw [hg] at hu
          simpa [DependencyGraph.addNode, UnorderedMap.lookup_subscript, hg] using hu
    · simpa [DependencyGraph.addNode, UnorderedMap.lookup_subscript, hname] using hu

theorem Represents.addEdge {g : DependencyGraph} {names : List String}
    {edges : List (String × String)} (h : g.Represents names edges) (dep : String) {name : String}
    (hname : name ∈ names) : (g.addEdge dep name).Represents names (edges ++ [(dep, name)]) where
  mem_inDegree := by
    intro v
    simp only [DependencyGraph.addEdge, UnorderedMap.mem_modify, UnorderedMap.mem_subscript,
      h.mem_inDegree]
    constructor
    · rintro (rfl | hv)
      · exact hname
      · exact hv
    · exact Or.inr
  inDegree := by
    intro v
    have hv := h.inDegree v
    -- Every node has its counter already, so `in_degree[name]++` creates none.
    have hmem : name ∈ g.inDegree := (h.mem_inDegree name).mpr hname
    rcases UnorderedMap.exists_lookup hmem with ⟨n, hn⟩
    simp only [DependencyGraph.addEdge, UnorderedMap.subscript_of_mem hmem,
      UnorderedMap.lookup_modify]
    by_cases heq : v = name
    · subst heq
      rw [hn] at hv
      simp only [Option.getD_some] at hv
      simp [hn, hv]
    · have heq' : ¬ name = v := fun h' => heq h'.symm
      simpa [heq, heq'] using hv
  graph := by
    intro u
    have hu := h.graph u
    have htargets : Kahn.targets (edges ++ [(dep, name)]) u =
        Kahn.targets edges u ++ (if dep = u then [name] else []) := by
      by_cases hdep : dep = u <;> simp [Kahn.targets, hdep]
    rw [htargets, ← hu]
    -- Only the list of `dep` grows.
    by_cases hdep : u = dep
    · subst hdep
      have hdefault : (default : List String) = [] := rfl
      cases hg : g.graph.lookup u <;>
        simp [DependencyGraph.addEdge, UnorderedMap.lookup_modify, UnorderedMap.lookup_subscript,
          hg, hdefault]
    · have hdep' : ¬ dep = u := fun h' => hdep h'.symm
      simp [DependencyGraph.addEdge, UnorderedMap.lookup_modify, UnorderedMap.lookup_subscript,
        hdep, hdep']

/-- A loop that adds an edge from each `dep` of a list that passes the test `p`. -/
theorem Represents.foldl_addEdge {names : List String} {name : String} (hname : name ∈ names)
    (p : String → Prop) [DecidablePred p] (deps : List String) {g : DependencyGraph}
    {edges : List (String × String)} (h : g.Represents names edges) :
    (deps.foldl (fun g dep => if p dep then g.addEdge dep name else g) g).Represents names
      (edges ++ (deps.filter (fun dep => decide (p dep))).map (fun dep => (dep, name))) := by
  induction deps generalizing g edges with
  | nil =>
      simpa using h
  | cons dep deps ih =>
      by_cases hp : p dep
      · have hnext := ih (h.addEdge dep hname)
        simpa [hp, List.append_assoc] using hnext
      · simpa [hp] using ih h

theorem Represents.addUnit {names : List String} {g : DependencyGraph}
    {edges : List (String × String)} (h : g.Represents names edges)
    (units : UnorderedMap String UnitFile) {name : String} (hname : name ∈ names)
    (unit : UnitFile) :
    (g.addUnit units name unit).Represents names (edges ++ unitEdges units name unit) := by
  have hafter := h.foldl_addEdge hname (fun dep => dep ∈ units) unit.after
  have hboth := hafter.foldl_addEdge hname (fun dep => dep ∈ units ∧ dep ∉ unit.after)
    unit.requires
  simpa only [DependencyGraph.addUnit, unitEdges, List.append_assoc] using hboth

theorem build_represents (units : UnorderedMap String UnitFile) :
    (build units).Represents units.keys (dependencyEdges units) := by
  have hempty : ({} : DependencyGraph).Represents [] [] :=
    { mem_inDegree := by simp
      inDegree := by simp
      graph := by simp }
  -- The first loop adds all nodes, before the second one adds the edges unit by unit.
  have hnodes : ∀ (l : List (Sigma fun _ : String => UnitFile)) (g : DependencyGraph)
      (names : List String), g.Represents names [] →
      (l.foldl (fun g e => g.addNode e.1) g).Represents (names ++ l.map Sigma.fst) [] := by
    intro l
    induction l with
    | nil =>
        intro g names h
        simpa using h
    | cons e l ih =>
        intro g names h
        simpa [List.append_assoc] using ih _ _ (h.addNode e.1)
  -- Every edge of the second loop ends in a unit, which is a node by then.
  have hedges : ∀ (l : List (Sigma fun _ : String => UnitFile)) (g : DependencyGraph)
      (edges : List (String × String)), (∀ e ∈ l, e.1 ∈ units.keys) →
      g.Represents units.keys edges →
      (l.foldl (fun g e => g.addUnit units e.1 e.2) g).Represents units.keys
        (edges ++ l.flatMap (fun e => unitEdges units e.1 e.2)) := by
    intro l
    induction l with
    | nil =>
        intro g edges _ h
        simpa using h
    | cons e l ih =>
        intro g edges hl h
        have hnext := ih _ _ (fun e' he' => hl e' (List.mem_cons_of_mem e he'))
          (h.addUnit units (hl e (by simp)) e.2)
        simpa [List.append_assoc] using hnext
  have hkeys : units.keys = units.entries.map Sigma.fst := rfl
  have hstart := hnodes units.entries {} [] hempty
  rw [List.nil_append, ← hkeys] at hstart
  have hmem : ∀ e ∈ units.entries, e.1 ∈ units.keys := by
    intro e he
    exact List.mem_map.mpr ⟨e, he, rfl⟩
  simpa only [List.nil_append, build, dependencyEdges] using
    hedges units.entries _ [] hmem hstart

end DependencyGraph

/-! ## The ready queue is Kahn's algorithm -/

namespace ResolveState

/-- The state of the queue loop, with the hash map `in_degree` read as a function. -/
def toKahn (st : ResolveState) : Kahn.State String :=
  { ready := st.ready
    order := st.order
    degree := fun v => (st.inDegree.lookup v).getD 0 }

theorem visit_toKahn (st : ResolveState) (next : String) :
    (st.visit next).toKahn = st.toKahn.visit next := by
  have hdefault : (default : Int) = 0 := rfl
  have hself : ((UnorderedMap.modify (UnorderedMap.subscript st.inDegree next) next
      (fun n => n - 1)).lookup next) = some ((st.inDegree.lookup next).getD 0 - 1) := by
    simp [UnorderedMap.lookup_modify, UnorderedMap.lookup_subscript, hdefault]
  have hdegree : (fun v => ((UnorderedMap.modify (UnorderedMap.subscript st.inDegree next) next
      (fun n => n - 1)).lookup v).getD 0) =
      Function.update st.toKahn.degree next (st.toKahn.degree next - 1) := by
    funext v
    by_cases hv : v = next
    · subst hv
      simp only [hself, Option.getD_some, Function.update_self, toKahn]
    · simp [UnorderedMap.lookup_modify, UnorderedMap.lookup_subscript, hv, toKahn]
  unfold visit Kahn.State.visit
  by_cases hzero : (st.inDegree.lookup next).getD 0 - 1 = 0
  -- The test `--in_degree[next]==0` succeeds on both sides, or on neither.
  · have hkahn : st.toKahn.degree next - 1 = 0 := hzero
    simp only [hself, hzero, if_true, Function.update_self, hkahn]
    rw [hkahn] at hdegree
    simp only [toKahn] at hdegree ⊢
    rw [hdegree]
  · have hkahn : ¬ st.toKahn.degree next - 1 = 0 := hzero
    simp only [hself, Option.some.injEq, hzero, if_false, Function.update_self, hkahn]
    simp only [toKahn] at hdegree ⊢
    rw [hdegree]

theorem foldl_visit_toKahn (l : List String) (st : ResolveState) :
    (l.foldl visit st).toKahn = l.foldl Kahn.State.visit st.toKahn := by
  induction l generalizing st with
  | nil =>
      rfl
  | cons next l ih =>
      rw [List.foldl_cons, List.foldl_cons, ih, visit_toKahn]

theorem loop_toKahn {graph : UnorderedMap String (List String)} {succ : String → List String}
    (hgraph : ∀ u, (graph.lookup u).getD [] = succ u) (fuel : Nat) (st : ResolveState) :
    (loop graph fuel st).toKahn = Kahn.State.loop succ fuel st.toKahn := by
  induction fuel generalizing st with
  | zero =>
      rfl
  | succ fuel ih =>
      cases hready : st.ready with
      | nil =>
          have hready' : st.toKahn.ready = [] := hready
          simp only [loop, hready, Kahn.State.loop, hready']
      | cons cur rest =>
          have hready' : st.toKahn.ready = cur :: rest := hready
          simp only [loop, hready, Kahn.State.loop, hready']
          rw [ih, takeFront, foldl_visit_toKahn, hgraph]
          rfl

end ResolveState

/-- The units, as the vertex set of the dependency graph. -/
def loadedUnits (units : UnorderedMap String UnitFile) : Finset String :=
  units.keys.toFinset

theorem mem_loadedUnits {units : UnorderedMap String UnitFile} {v : String} :
    v ∈ loadedUnits units ↔ v ∈ units := by
  simp [loadedUnits, AList.mem_keys]

theorem dep_iff_dependsOn {units : UnorderedMap String UnitFile} {v d : String} :
    Kahn.Dep (loadedUnits units) (Kahn.targets (dependencyEdges units)) v d ↔
      DependsOn units v d := by
  rw [Kahn.Dep, mem_loadedUnits, Kahn.mem_targets, mem_dependencyEdges]
  constructor
  · exact fun h => h.2
  · intro h
    rcases h with ⟨unit, hunit, hdep, hmem⟩
    exact ⟨hmem, unit, hunit, hdep, hmem⟩

theorem dep_eq_dependsOn (units : UnorderedMap String UnitFile) :
    Kahn.Dep (loadedUnits units) (Kahn.targets (dependencyEdges units)) = DependsOn units := by
  funext v d
  exact propext dep_iff_dependsOn

section Resolve

variable {units : UnorderedMap String UnitFile} {inDegreeOrder : List String}

/-- The state in which the ready queue starts. -/
def resolveStart (units : UnorderedMap String UnitFile) (inDegreeOrder : List String) :
    Kahn.State String :=
  { ready := inDegreeOrder.filter
      (fun name => decide ((DependencyGraph.build units).inDegree.lookup name = some 0))
    order := []
    degree := fun v => ((DependencyGraph.build units).inDegree.lookup v).getD 0 }

theorem resolveOrder_toKahn (units : UnorderedMap String UnitFile) (inDegreeOrder : List String) :
    (resolveOrder units inDegreeOrder).toKahn =
      Kahn.State.loop (Kahn.targets (dependencyEdges units)) units.entries.length
        (resolveStart units inDegreeOrder) :=
  ResolveState.loop_toKahn (DependencyGraph.build_represents units).graph _ _

theorem targets_closed (units : UnorderedMap String UnitFile) :
    ∀ u ∈ loadedUnits units, ∀ v ∈ Kahn.targets (dependencyEdges units) u,
      v ∈ loadedUnits units := by
  intro u _ v hv
  exact mem_loadedUnits.mpr (mem_dependencyEdges.mp (Kahn.mem_targets.mp hv)).mem_left

/-- The queue starts in a state that satisfies the invariant. -/
theorem resolveStart_inv
    (hiter : inDegreeOrder.Perm (DependencyGraph.build units).inDegree.keys) :
    Kahn.Inv (loadedUnits units) (Kahn.targets (dependencyEdges units))
      (resolveStart units inDegreeOrder) := by
  have hbuild := DependencyGraph.build_represents units
  have hsource : ∀ e ∈ dependencyEdges units, e.1 ∈ loadedUnits units := by
    intro e he
    rcases mem_dependencyEdges.mp he with ⟨_, _, _, hmem⟩
    exact mem_loadedUnits.mpr hmem
  -- The queue starts with the vertices of in-degree zero, whatever the iteration order.
  have hready : ∀ v, v ∈ inDegreeOrder.filter
      (fun name => decide ((DependencyGraph.build units).inDegree.lookup name = some 0)) ↔
      v ∈ loadedUnits units ∧ ((DependencyGraph.build units).inDegree.lookup v).getD 0 = 0 := by
    intro v
    rw [List.mem_filter, hiter.mem_iff, ← AList.mem_keys, hbuild.mem_inDegree, mem_loadedUnits,
      ← AList.mem_keys, decide_eq_true_eq]
    constructor
    · rintro ⟨hv, hzero⟩
      exact ⟨hv, by simp [hzero]⟩
    · rintro ⟨hv, hzero⟩
      rcases UnorderedMap.exists_lookup ((hbuild.mem_inDegree v).mpr hv) with ⟨n, hn⟩
      rw [hn, Option.getD_some] at hzero
      exact ⟨hv, by rw [hn, hzero]⟩
  have hnodup : (inDegreeOrder.filter
      (fun name => decide ((DependencyGraph.build units).inDegree.lookup name = some 0))).Nodup :=
    (hiter.nodup_iff.mpr (AList.keys_nodup _)).filter _
  exact Kahn.Inv.init hnodup hready
    (fun v => (hbuild.inDegree v).trans (Kahn.countP_snd_eq_sum hsource v))

/-- The loop ends with an empty queue, in a state that satisfies the invariant. -/
theorem resolveOrder_spec
    (hiter : inDegreeOrder.Perm (DependencyGraph.build units).inDegree.keys) :
    Kahn.Inv (loadedUnits units) (Kahn.targets (dependencyEdges units))
        (resolveOrder units inDegreeOrder).toKahn ∧
      (resolveOrder units inDegreeOrder).ready = [] := by
  -- One iteration per unit is enough fuel.
  have hcard : (loadedUnits units).card ≤
      units.entries.length + (resolveStart units inDegreeOrder).order.length := by
    have hle := List.toFinset_card_le units.keys
    simpa [loadedUnits, AList.keys, List.keys, resolveStart] using hle
  have hloop := (resolveStart_inv hiter).loop (targets_closed units) hcard
  have hempty : (resolveOrder units inDegreeOrder).toKahn.ready = [] := by
    simpa only [resolveOrder_toKahn] using hloop.2
  refine ⟨?_, hempty⟩
  simpa only [resolveOrder_toKahn] using hloop.1

theorem mem_resolveOrder_iff
    (hiter : inDegreeOrder.Perm (DependencyGraph.build units).inDegree.keys) (v : String) :
    v ∈ (resolveOrder units inDegreeOrder).order ↔ v ∈ units ∧ ¬ ReachesCycle units v := by
  rcases resolveOrder_spec hiter with ⟨hinv, hdone⟩
  have hmem := hinv.mem_order_iff hdone v
  rw [dep_eq_dependsOn, mem_loadedUnits] at hmem
  exact hmem

theorem nodup_resolveOrder
    (hiter : inDegreeOrder.Perm (DependencyGraph.build units).inDegree.keys) :
    (resolveOrder units inDegreeOrder).order.Nodup :=
  (List.nodup_append.mp (resolveOrder_spec hiter).1.nodup).1

theorem resolveOrder_before
    (hiter : inDegreeOrder.Perm (DependencyGraph.build units).inDegree.keys) {v d : String}
    (hv : v ∈ (resolveOrder units inDegreeOrder).order) (hdep : DependsOn units v d) :
    d ∈ (resolveOrder units inDegreeOrder).order ∧
      (resolveOrder units inDegreeOrder).order.idxOf d <
        (resolveOrder units inDegreeOrder).order.idxOf v := by
  have hd := dep_iff_dependsOn.mpr hdep
  exact (resolveOrder_spec hiter).1.before d v hd.1 hv hd.2

theorem resolveOrder_perm_iff
    (hiter : inDegreeOrder.Perm (DependencyGraph.build units).inDegree.keys) :
    (resolveOrder units inDegreeOrder).order.Perm units.keys ↔ AcyclicDependencies units := by
  rw [List.perm_ext_iff_of_nodup (nodup_resolveOrder hiter) units.keys_nodup, acyclic_iff]
  simp only [mem_resolveOrder_iff hiter, ← AList.mem_keys]
  constructor
  · intro h v hv
    exact ((h v).mpr hv).2
  · intro h v
    exact ⟨fun hv => hv.1, fun hv => ⟨hv, h v hv⟩⟩

/-- The test in front of the cycle warning is exact. -/
theorem length_resolveOrder_lt_iff
    (hiter : inDegreeOrder.Perm (DependencyGraph.build units).inDegree.keys) :
    (resolveOrder units inDegreeOrder).order.length < units.entries.length ↔
      ¬ AcyclicDependencies units := by
  have hlength : units.entries.length = units.keys.length := by
    simp [AList.keys, List.keys]
  rw [← resolveOrder_perm_iff hiter, hlength]
  constructor
  · intro hlt hperm
    have hle := hperm.length_eq
    omega
  · intro hperm
    by_contra hge
    -- As long as the units, free of duplicates and made of units: a permutation of them.
    have hsub : (resolveOrder units inDegreeOrder).order ⊆ units.keys := by
      intro v hv
      exact ((mem_resolveOrder_iff hiter v).mp hv).1
    have hsubperm := (nodup_resolveOrder hiter).subperm hsub
    exact hperm (hsubperm.perm_of_length_le (by omega))

end Resolve

/-! ## The phase -/

namespace InitSystem

/-- What the phase logs when it has ordered `resolved` of `total` units. -/
def resolveMessages (resolved total : Nat) : List JournalEntry :=
  let starting : JournalEntry :=
    { level := .info
      source := "executor"
      message := "Resolving dependency graph" }
  let finished : JournalEntry :=
    { level := .info
      source := "executor"
      message := s!"Execution order: {resolved} units" }
  starting :: (if resolved < total then [cycleWarning resolved total] else []) ++ [finished]

theorem executeDependencyResolve_execOrder (s : InitSystem) (inDegreeOrder : List String) :
    (s.executeDependencyResolve inDegreeOrder).execOrder =
      (resolveOrder s.units inDegreeOrder).order := by
  unfold executeDependencyResolve log
  dsimp only
  split_ifs <;> rfl

theorem executeDependencyResolve_journal (s : InitSystem) (inDegreeOrder : List String) :
    (s.executeDependencyResolve inDegreeOrder).journal =
      s.journal.logAll
        (resolveMessages (resolveOrder s.units inDegreeOrder).order.length
          s.units.entries.length) := by
  unfold executeDependencyResolve log resolveMessages
  dsimp only
  split_ifs <;> rfl

/-- The execution order has no duplicates, contains units only, and puts every unit after the loaded
units it lists in `After=` and `Requires=`. -/
theorem executeDependencyResolve_respects_dependencies (s : InitSystem)
    (inDegreeOrder : List String)
    (hiter : inDegreeOrder.Perm (DependencyGraph.build s.units).inDegree.keys) :
    (resolveOrder s.units inDegreeOrder).ready = [] ∧
      (s.executeDependencyResolve inDegreeOrder).execOrder.Nodup ∧
      (∀ v, v ∈ (s.executeDependencyResolve inDegreeOrder).execOrder → v ∈ s.units) ∧
      ∀ v unit d, v ∈ (s.executeDependencyResolve inDegreeOrder).execOrder →
        s.units.lookup v = some unit → d ∈ unit.after ∨ d ∈ unit.requires → d ∈ s.units →
        d ∈ (s.executeDependencyResolve inDegreeOrder).execOrder ∧
          (s.executeDependencyResolve inDegreeOrder).execOrder.idxOf d <
            (s.executeDependencyResolve inDegreeOrder).execOrder.idxOf v := by
  rw [executeDependencyResolve_execOrder]
  refine ⟨(resolveOrder_spec hiter).2, nodup_resolveOrder hiter, ?_, ?_⟩
  · intro v hv
    exact ((mem_resolveOrder_iff hiter v).mp hv).1
  · intro v unit d hv hunit hdep hmem
    exact resolveOrder_before hiter hv ⟨unit, hunit, hdep, hmem⟩

/-- A service that names its dependency in both lists, the dependency, and a unit that waits for
itself. -/
def sampleUnits : UnorderedMap String UnitFile :=
  ((∅ : UnorderedMap String UnitFile).insert "db.service" {}).insert "web.service"
    { after := ["db.service", "missing.target", "db.service"]
      requires := ["db.service"] } |>.insert "loop.service" { after := ["loop.service"] }

theorem executeDependencyResolve_respects_dependencies_sample :
    (resolveOrder sampleUnits ["web.service", "loop.service", "db.service"]).order =
        ["db.service", "web.service"] ∧
      ({ units := sampleUnits : InitSystem }.executeDependencyResolve
        ["web.service", "loop.service", "db.service"]).execOrder.Nodup :=
  ⟨by decide,
    (executeDependencyResolve_respects_dependencies { units := sampleUnits }
      ["web.service", "loop.service", "db.service"] (by decide)).2.1⟩

/-- Exactly the units from which no dependency cycle can be reached are scheduled; the warning tells
whether a unit is missing, and the iteration orders of the maps do not matter. -/
theorem executeDependencyResolve_schedules_acyclic_part (s : InitSystem)
    (inDegreeOrder : List String)
    (hiter : inDegreeOrder.Perm (DependencyGraph.build s.units).inDegree.keys) :
    (∀ u, u ∈ (s.executeDependencyResolve inDegreeOrder).execOrder ↔
        u ∈ s.units ∧ ¬ ReachesCycle s.units u) ∧
      ((s.executeDependencyResolve inDegreeOrder).execOrder.Perm s.units.keys ↔
        AcyclicDependencies s.units) ∧
      ((s.executeDependencyResolve inDegreeOrder).execOrder.length < s.units.entries.length ↔
        ¬ AcyclicDependencies s.units) ∧
      (∃ added,
        (s.executeDependencyResolve inDegreeOrder).journal.entries =
          s.journal.entries ++ added ∧
        ((∃ resolved total, cycleWarning resolved total ∈ added) ↔
          ¬ AcyclicDependencies s.units ∧
            s.journal.minLevel.toNat ≤ LogLevel.warning.toNat)) ∧
      ∀ (s₂ : InitSystem) (inDegreeOrder₂ : List String), s₂.units.entries.Perm s.units.entries →
        inDegreeOrder₂.Perm (DependencyGraph.build s₂.units).inDegree.keys →
        ∀ u, u ∈ (s₂.executeDependencyResolve inDegreeOrder₂).execOrder ↔
          u ∈ (s.executeDependencyResolve inDegreeOrder).execOrder := by
  rw [executeDependencyResolve_execOrder]
  have hwarn := length_resolveOrder_lt_iff hiter
  refine ⟨mem_resolveOrder_iff hiter, resolveOrder_perm_iff hiter, hwarn, ?_, ?_⟩
  · have hentries := congrArg Journal.entries (executeDependencyResolve_journal s inDegreeOrder)
    rw [Journal.logAll_entries] at hentries
    refine ⟨_, hentries, ?_⟩
    rw [← hwarn]
    -- The warning is among the messages when units are missing, and kept when its level is.
    simp only [List.mem_filter, Bool.not_eq_true', decide_eq_false_iff_not, not_lt]
    constructor
    · rintro ⟨resolved, total, hmem, hlevel⟩
      refine ⟨?_, hlevel⟩
      by_contra hfull
      simp [resolveMessages, hfull, cycleWarning] at hmem
    · rintro ⟨hlt, hlevel⟩
      refine ⟨(resolveOrder s.units inDegreeOrder).order.length, s.units.entries.length, ?_, hlevel⟩
      simp [resolveMessages, hlt]
  · intro s₂ inDegreeOrder₂ hperm hiter₂ u
    -- Membership and dependencies are read by lookup, which no reordering of the entries changes.
    rw [executeDependencyResolve_execOrder, mem_resolveOrder_iff hiter₂,
      mem_resolveOrder_iff hiter, UnorderedMap.mem_iff_of_perm hperm]
    simp only [ReachesCycle, dependsOn_of_perm hperm]

theorem executeDependencyResolve_schedules_acyclic_part_sample :
    ReachesCycle sampleUnits "loop.service" ∧ ¬ ReachesCycle sampleUnits "web.service" ∧
      ¬ AcyclicDependencies sampleUnits := by
  have h := executeDependencyResolve_schedules_acyclic_part { units := sampleUnits }
    ["web.service", "loop.service", "db.service"] (by decide)
  have hloop : "loop.service" ∉ ({ units := sampleUnits : InitSystem }.executeDependencyResolve
      ["web.service", "loop.service", "db.service"]).execOrder := by
    decide
  have hweb : "web.service" ∈ ({ units := sampleUnits : InitSystem }.executeDependencyResolve
      ["web.service", "loop.service", "db.service"]).execOrder := by
    decide
  refine ⟨?_, ((h.1 "web.service").mp hweb).2, h.2.2.1.mp (by decide)⟩
  by_contra hno
  exact hloop ((h.1 "loop.service").mpr ⟨by decide, hno⟩)

end InitSystem

end TrivialInit
