import TrivialInit.Lib.KahnLevels
import TrivialInit.Properties.DependencyOrder

/-!
# BeforeOrder — what the execution order makes of `Before=`

`execute(DependencyResolve)` reads `After=` and `Requires=` only.  A unit still comes before the
units it lists in `Before=` when its longest chain of dependencies is shorter than theirs, because
the ready queue works level by level; with equal lengths it depends on the iteration order of the
hash maps, and some order puts the two units the other way round.
-/

open Relation

namespace TrivialInit

/-! ## The combined relation -/

/-- `u` is to come before `v`: `v` depends on `u`, or the loaded unit `v` is listed in `Before=` of
`u`. -/
def Precedes (units : UnorderedMap String UnitFile) (u v : String) : Prop :=
  DependsOn units v u ∨ ∃ unit, units.lookup u = some unit ∧ v ∈ unit.before ∧ v ∈ units

def AcyclicPrecedence (units : UnorderedMap String UnitFile) : Prop :=
  ∀ c, ¬ TransGen (Precedes units) c c

theorem AcyclicPrecedence.dependencies {units : UnorderedMap String UnitFile}
    (h : AcyclicPrecedence units) : AcyclicDependencies units := by
  intro c hcycle
  have hmono : ∀ v d, TransGen (DependsOn units) v d → TransGen (Precedes units) d v := by
    intro v d hvd
    induction hvd with
    | single hstep => exact TransGen.single (Or.inl hstep)
    | tail _ hstep ih => exact TransGen.head (Or.inl hstep) ih
  exact h c (hmono c c hcycle)

/-- A rank that grows along the combined relation shows that it is acyclic. -/
theorem AcyclicPrecedence.of_rank {units : UnorderedMap String UnitFile} (rank : String → Nat)
    (hrank : ∀ e ∈ units.entries,
      (∀ d ∈ e.2.after ++ e.2.requires, d ∈ units → rank d < rank e.1) ∧
        ∀ v ∈ e.2.before, v ∈ units → rank e.1 < rank v) : AcyclicPrecedence units := by
  have hstep : ∀ u v, Precedes units u v → rank u < rank v := by
    intro u v h
    rcases h with ⟨unit, hunit, hdep, hu⟩ | ⟨unit, hunit, hbefore, hv⟩
    · exact (hrank _ (UnorderedMap.mem_entries_iff.mpr hunit)).1 u (by simpa using hdep) hu
    · exact (hrank _ (UnorderedMap.mem_entries_iff.mpr hunit)).2 v hbefore hv
  have hmono : ∀ u v, TransGen (Precedes units) u v → rank u < rank v := by
    intro u v huv
    induction huv with
    | single h => exact hstep _ _ h
    | tail _ h ih => exact ih.trans (hstep _ _ h)
  intro c hcycle
  exact lt_irrefl _ (hmono c c hcycle)

/-! ## Levels of the execution order -/

section Levels

variable {units : UnorderedMap String UnitFile} {inDegreeOrder : List String}
  {level : String → Nat}

theorem exists_dependencyLevel (h : AcyclicDependencies units) :
    ∃ level, Kahn.IsLevel (DependsOn units) level := by
  have hdep : ∀ c, ¬ TransGen (Kahn.Dep (loadedUnits units)
      (Kahn.targets (dependencyEdges units))) c c := by
    intro c
    simpa only [dep_eq_dependsOn] using h c
  simpa only [dep_eq_dependsOn] using Kahn.exists_level hdep

/-- Units are executed level by level, in every iteration order. -/
theorem resolveOrder_levels (hlevel : Kahn.IsLevel (DependsOn units) level)
    (hiter : inDegreeOrder.Perm (DependencyGraph.build units).inDegree.keys) :
    (resolveOrder units inDegreeOrder).order.Pairwise (fun x y => level x ≤ level y) := by
  rw [← dep_eq_dependsOn] at hlevel
  have hstart := resolveStart_inv hiter
  have hloop := hstart.loop_levels (targets_closed units) hlevel (hstart.init_levelled hlevel)
    units.entries.length
  rw [← resolveOrder_toKahn] at hloop
  exact (List.pairwise_append.mp hloop).1

/-- A chain of deepest dependencies that the maps are iterated to last is executed last in each of
its levels. -/
theorem resolveOrder_last (hlevel : Kahn.IsLevel (DependsOn units) level) {C : String → Prop}
    (hdeep : ∀ x, C x → level x = 0 ∨ ∃ d, DependsOn units x d ∧ C d ∧ level x = level d + 1)
    (hone : ∀ x y, C x → C y → level x = level y → x = y)
    (hentries : units.entries.Pairwise (fun a b => C a.1 → C b.1))
    (hkeys : inDegreeOrder.Pairwise (fun x y => C x → C y))
    (hiter : inDegreeOrder.Perm (DependencyGraph.build units).inDegree.keys) :
    (resolveOrder units inDegreeOrder).order.Pairwise (fun x y => C x → level x < level y) := by
  -- The edges are listed in the order of the entries they end in.
  have hedges : (dependencyEdges units).Pairwise (fun e f => C e.2 → C f.2) := by
    refine List.pairwise_flatMap.mpr ⟨?_, ?_⟩
    · intro e _
      apply List.pairwise_of_forall_mem_list
      rintro ⟨d, x⟩ hx ⟨d', y⟩ hy hCx
      obtain rfl := (mem_unitEdges.mp hx).1
      obtain rfl := (mem_unitEdges.mp hy).1
      exact hCx
    · refine hentries.imp ?_
      rintro a b hab ⟨d, x⟩ hx ⟨d', y⟩ hy hCx
      obtain rfl := (mem_unitEdges.mp hx).1
      obtain rfl := (mem_unitEdges.mp hy).1
      exact hab hCx
  have hsucc : ∀ u, (Kahn.targets (dependencyEdges units) u).Pairwise (fun x y => C x → C y) := by
    intro u
    exact List.pairwise_map.mpr (hedges.filter _)
  rw [← dep_eq_dependsOn] at hlevel hdeep
  have hstart := resolveStart_inv hiter
  have hlast := hstart.loop_last (targets_closed units) hlevel hdeep hone hsucc
    (hstart.init_levelled hlevel) (hstart.init_last hlevel hone (hkeys.filter _))
    units.entries.length
  rw [← resolveOrder_toKahn] at hlast
  exact (List.pairwise_append.mp hlast).1

end Levels

/-- In a list sorted by `level`, a smaller level comes first. -/
theorem idxOf_lt_of_level {order : List String} {level : String → Nat}
    (hsorted : order.Pairwise (fun x y => level x ≤ level y)) {u v : String} (hu : u ∈ order)
    (hv : v ∈ order) (hlt : level u < level v) : order.idxOf u < order.idxOf v := by
  by_contra hge
  have hule := List.idxOf_lt_length_iff.mpr hu
  have hvle := List.idxOf_lt_length_iff.mpr hv
  rcases Nat.lt_or_eq_of_le (not_lt.mp hge) with hlt' | heq
  · have hle := List.pairwise_iff_getElem.mp hsorted _ _ hvle hule hlt'
    simp only [List.getElem_idxOf] at hle
    omega
  · have hsame : v = u := (List.idxOf_inj hv).mp heq
    subst hsame
    omega

theorem rel_of_idxOf_lt {order : List String} {R : String → String → Prop}
    (hpair : order.Pairwise R) {u v : String} (hv : v ∈ order)
    (hlt : order.idxOf u < order.idxOf v) : R u v := by
  have hvle := List.idxOf_lt_length_iff.mpr hv
  have h := List.pairwise_iff_getElem.mp hpair _ _ (hlt.trans hvle) hvle hlt
  simpa only [List.getElem_idxOf] using h

/-! ## Putting some units last -/

/-- The list with the members of `C` moved to its end. -/
theorem exists_perm_last {β : Type} (l : List β) (C : β → Prop) :
    ∃ l' : List β, l'.Perm l ∧ l'.Pairwise (fun a b => C a → C b) := by
  classical
  refine ⟨l.filter (fun a => !decide (C a)) ++ l.filter (fun a => decide (C a)), ?_, ?_⟩
  · exact List.perm_append_comm.trans (List.filter_append_perm (fun a => decide (C a)) l)
  · refine List.pairwise_append.mpr ⟨?_, ?_, ?_⟩
    · apply List.pairwise_of_forall_mem_list
      intro a ha b _ hCa
      simp [hCa] at ha
    · apply List.pairwise_of_forall_mem_list
      intro a _ b hb _
      simpa using (List.mem_filter.mp hb).2
    · intro a ha b _ hCa
      simp [hCa] at ha

namespace InitSystem

/-- When the combined relation of `After=`, `Requires=` and `Before=` is acyclic, `Before=` is
respected in every iteration order exactly if every loaded unit listed in `Before=` has a longer
chain of dependencies than the unit that lists it. -/
theorem executeDependencyResolve_before_iff (units : UnorderedMap String UnitFile)
    (hacyclic : AcyclicPrecedence units) :
    (∀ (s : InitSystem) (inDegreeOrder : List String), s.units.entries.Perm units.entries →
        inDegreeOrder.Perm (DependencyGraph.build s.units).inDegree.keys →
        ∀ u unit v, units.lookup u = some unit → v ∈ unit.before → v ∈ units →
          u ∈ (s.executeDependencyResolve inDegreeOrder).execOrder ∧
            v ∈ (s.executeDependencyResolve inDegreeOrder).execOrder ∧
            (s.executeDependencyResolve inDegreeOrder).execOrder.idxOf u <
              (s.executeDependencyResolve inDegreeOrder).execOrder.idxOf v) ↔
      ∀ u unit v, units.lookup u = some unit → v ∈ unit.before → v ∈ units →
        ∃ n, Kahn.HasChain (DependsOn units) n v ∧ ¬ Kahn.HasChain (DependsOn units) n u := by
  obtain ⟨level, hlevel⟩ := exists_dependencyLevel hacyclic.dependencies
  simp only [executeDependencyResolve_execOrder, ← hlevel.lt_iff]
  constructor
  · intro h u unit v hunit hbefore hv
    -- Iterate both maps so that `u` comes last in its level.
    obtain ⟨C, hCu, hdeep, hone, -⟩ := hlevel.exists_deepest u
    obtain ⟨entries, hentries, hlast⟩ := exists_perm_last units.entries (fun e => C e.1)
    let units' : UnorderedMap String UnitFile :=
      ⟨entries, (List.perm_nodupKeys hentries).mpr units.nodupKeys⟩
    obtain ⟨inDegreeOrder, hiter, hkeys⟩ :=
      exists_perm_last (DependencyGraph.build units').inDegree.keys C
    have hdep : DependsOn units' = DependsOn units := dependsOn_of_perm hentries
    have horder := h { units := units' } inDegreeOrder hentries hiter u unit v hunit hbefore hv
    have hlevel' : Kahn.IsLevel (DependsOn units') level := hdep ▸ hlevel
    have hpair := resolveOrder_last hlevel' (hdep ▸ hdeep) hone hlast hkeys hiter
    exact rel_of_idxOf_lt hpair horder.2.1 horder.2.2 hCu
  · intro h s inDegreeOrder hperm hiter u unit v hunit hbefore hv
    have hdep : DependsOn s.units = DependsOn units := dependsOn_of_perm hperm
    have hmem : ∀ x, x ∈ units → x ∈ (resolveOrder s.units inDegreeOrder).order := by
      intro x hx
      have hx' : x ∈ s.units := (UnorderedMap.mem_iff_of_perm hperm x).mpr hx
      have hno := acyclic_iff.mp hacyclic.dependencies x hx
      refine (mem_resolveOrder_iff hiter x).mpr ⟨hx', ?_⟩
      simpa only [ReachesCycle, hdep] using hno
    have hu := hmem u (UnorderedMap.mem_of_lookup hunit)
    have hsorted := resolveOrder_levels (hdep ▸ hlevel) hiter
    exact ⟨hu, hmem v hv, idxOf_lt_of_level hsorted hu (hmem v hv) (h u unit v hunit hbefore hv)⟩

/-- `db.service` is to come before `web.service`, which waits for `net.service`. -/
def orderedUnits : UnorderedMap String UnitFile :=
  ((∅ : UnorderedMap String UnitFile).insert "net.service" {}).insert "db.service"
    { before := ["web.service"] } |>.insert "web.service" { after := ["net.service"] }

theorem executeDependencyResolve_before_iff_sample :
    ({ units := orderedUnits : InitSystem }.executeDependencyResolve
        ["web.service", "net.service", "db.service"]).execOrder.idxOf "db.service" <
      ({ units := orderedUnits : InitSystem }.executeDependencyResolve
        ["web.service", "net.service", "db.service"]).execOrder.idxOf "web.service" := by
  have hacyclic : AcyclicPrecedence orderedUnits :=
    AcyclicPrecedence.of_rank
      (fun u => ["net.service", "db.service", "web.service"].idxOf u) (by decide)
  have horder := (executeDependencyResolve_before_iff orderedUnits hacyclic).mpr ?_
    { units := orderedUnits } ["web.service", "net.service", "db.service"] (List.Perm.refl _)
    (by decide) "db.service" { before := ["web.service"] } "web.service" rfl (by decide) (by decide)
  · exact horder.2.2
  · intro u unit v hunit hbefore _
    have hentry : ∀ e ∈ orderedUnits.entries, ∀ v ∈ e.2.before,
        e.1 = "db.service" ∧ v = "web.service" := by decide
    obtain ⟨rfl, rfl⟩ := hentry _ (UnorderedMap.mem_entries_iff.mpr hunit) v hbefore
    refine ⟨1, ⟨"net.service", ⟨_, rfl, by decide, by decide⟩, trivial⟩, ?_⟩
    rintro ⟨d, ⟨unit', hunit', hdep, -⟩, -⟩
    have hnone : ∀ e ∈ orderedUnits.entries, e.1 = "db.service" →
        e.2.after = [] ∧ e.2.requires = [] := by decide
    obtain ⟨hafter, hrequires⟩ : unit'.after = [] ∧ unit'.requires = [] :=
      hnone _ (UnorderedMap.mem_entries_iff.mpr hunit') rfl
    simp [hafter, hrequires] at hdep

/-- `c.service` has to come first, then `a.service`, and `b.service` last. -/
def misorderedUnits : UnorderedMap String UnitFile :=
  ((∅ : UnorderedMap String UnitFile).insert "c.service" {}).insert "b.service" {}
    |>.insert "a.service" { after := ["c.service"], before := ["b.service"] }

/-- `b.service` is started before `a.service`, which lists it in `Before=`. -/
theorem executeDependencyResolve_not_before :
    ¬ ∀ (s : InitSystem) (inDegreeOrder : List String), AcyclicPrecedence s.units →
        inDegreeOrder.Perm (DependencyGraph.build s.units).inDegree.keys →
        ∀ u unit v, s.units.lookup u = some unit → v ∈ unit.before → v ∈ s.units →
          u ∈ (s.executeDependencyResolve inDegreeOrder).execOrder ∧
            v ∈ (s.executeDependencyResolve inDegreeOrder).execOrder ∧
            (s.executeDependencyResolve inDegreeOrder).execOrder.idxOf u <
              (s.executeDependencyResolve inDegreeOrder).execOrder.idxOf v := by
  intro h
  have hacyclic : AcyclicPrecedence misorderedUnits :=
    AcyclicPrecedence.of_rank (fun u => ["c.service", "a.service", "b.service"].idxOf u) (by decide)
  have horder := h { units := misorderedUnits } ["a.service", "b.service", "c.service"] hacyclic
    (by decide) "a.service" { after := ["c.service"], before := ["b.service"] } "b.service" rfl
    (by decide) (by decide)
  revert horder
  decide

end InitSystem

end TrivialInit
