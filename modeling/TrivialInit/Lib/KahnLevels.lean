import TrivialInit.Lib.Kahn

/-!
# KahnLevels — Kahn's algorithm with a first-in-first-out queue

The level of a vertex is the length of its longest chain of dependencies.  Because the queue is
first in, first out, the vertices are emitted level by level (`Inv.loop_levels`).  Within one level
the order depends on the order of the edge lists and of the initial queue: a vertex that comes last
in both, along a chain of dependencies of greatest length, is the last one of its level
(`Inv.loop_last`).
-/

open Relation

namespace Kahn

variable {α : Type*}

/-! ## Levels -/

/-- There is a chain of `n` dependencies that starts at `v`. -/
def HasChain (r : α → α → Prop) : Nat → α → Prop
  | 0, _ => True
  | n + 1, v => ∃ d, r v d ∧ HasChain r n d

theorem HasChain.pred {r : α → α → Prop} {n : Nat} {v : α} (h : HasChain r (n + 1) v) :
    HasChain r n v := by
  induction n generalizing v with
  | zero => trivial
  | succ n ih =>
      rcases h with ⟨d, hd, hchain⟩
      exact ⟨d, hd, ih hchain⟩

theorem HasChain.mono {r : α → α → Prop} {m n : Nat} {v : α} (h : HasChain r n v) (hmn : m ≤ n) :
    HasChain r m v := by
  induction hmn with
  | refl => exact h
  | step _ ih => exact ih h.pred

/-- `level v` is the length of the longest chain of dependencies that starts at `v`. -/
def IsLevel (r : α → α → Prop) (level : α → Nat) : Prop :=
  ∀ n v, HasChain r n v ↔ n ≤ level v

namespace IsLevel

variable {r : α → α → Prop} {level : α → Nat}

theorem lt (h : IsLevel r level) {v d : α} (hd : r v d) : level d < level v :=
  (h (level d + 1) v).mp ⟨d, hd, (h (level d) d).mpr le_rfl⟩

theorem attained (h : IsLevel r level) (v : α) :
    level v = 0 ∨ ∃ d, r v d ∧ level v = level d + 1 := by
  cases hlevel : level v with
  | zero => exact Or.inl rfl
  | succ n =>
      right
      obtain ⟨d, hd, hchain⟩ : HasChain r (n + 1) v := (h (n + 1) v).mpr (le_of_eq hlevel.symm)
      have hle : n ≤ level d := (h n d).mp hchain
      have hlt : level d < n + 1 := by
        simpa [hlevel] using h.lt hd
      exact ⟨d, hd, by omega⟩

/-- A chain that only one of two vertices has tells their levels apart. -/
theorem lt_iff (h : IsLevel r level) {u v : α} :
    level u < level v ↔ ∃ n, HasChain r n v ∧ ¬ HasChain r n u := by
  simp only [h _ _, not_le]
  constructor
  · intro hlt
    exact ⟨level v, le_rfl, hlt⟩
  · rintro ⟨n, hle, hlt⟩
    exact hlt.trans_le hle

/-- From `v`, a chain with one vertex on each level below. -/
theorem exists_deepest (h : IsLevel r level) (v : α) :
    ∃ C : α → Prop, C v ∧
      (∀ x, C x → level x = 0 ∨ ∃ d, r x d ∧ C d ∧ level x = level d + 1) ∧
      (∀ x y, C x → C y → level x = level y → x = y) ∧ ∀ x, C x → level x ≤ level v := by
  induction hlevel : level v generalizing v with
  | zero =>
      refine ⟨fun x => x = v, rfl, ?_, ?_, ?_⟩
      · rintro x rfl
        exact Or.inl hlevel
      · rintro x y rfl rfl _
        rfl
      · rintro x rfl
        exact le_of_eq hlevel
  | succ n ih =>
      rcases h.attained v with hzero | ⟨d, hd, hvd⟩
      · omega
      obtain ⟨C, hCd, hdeep, hone, hbelow⟩ := ih d (by omega)
      refine ⟨fun x => x = v ∨ C x, Or.inl rfl, ?_, ?_, ?_⟩
      · rintro x (rfl | hx)
        · exact Or.inr ⟨d, hd, Or.inr hCd, hvd⟩
        · rcases hdeep x hx with hzero | ⟨d', hd', hCd', hxd'⟩
          · exact Or.inl hzero
          · exact Or.inr ⟨d', hd', Or.inr hCd', hxd'⟩
      -- `v` is above all the others.
      · rintro x y (rfl | hx) (rfl | hy) heq
        · rfl
        · have := hbelow y hy
          omega
        · have := hbelow x hx
          omega
        · exact hone x y hx hy heq
      · rintro x (rfl | hx)
        · exact le_of_eq hlevel
        · exact (hbelow x hx).trans (Nat.le_succ n)

end IsLevel

/-! ## Levels of a finite acyclic relation -/

section Existence

variable {V : Finset α} {succ : α → List α}

theorem wellFounded_dep (hacyclic : ∀ c, ¬ TransGen (Dep V succ) c c) :
    WellFounded (fun d v => Dep V succ v d) := by
  classical
  rw [WellFounded.wellFounded_iff_has_min]
  intro s hs
  by_contra hmin
  -- Without a least element, every element of `s` has a dependency in `s`.
  have hstep : ∀ x ∈ s, ∃ y ∈ s, Dep V succ x y := by
    intro x hx
    by_contra hno
    refine hmin ⟨x, hx, fun y hy hdep => hno ⟨y, hy, hdep⟩⟩
  obtain ⟨x, hx⟩ := hs
  obtain ⟨y, hy, hxy⟩ := hstep x hx
  have hfinite : ∀ z ∈ V.filter (fun z => z ∈ s), ∃ w ∈ V.filter (fun z => z ∈ s),
      Dep V succ z w := by
    intro z hz
    obtain ⟨w, hw, hzw⟩ := hstep z (Finset.mem_filter.mp hz).2
    exact ⟨w, Finset.mem_filter.mpr ⟨hzw.1, hw⟩, hzw⟩
  obtain ⟨c, -, hcycle⟩ :=
    exists_cycle_of_forall_exists hfinite (Finset.mem_filter.mpr ⟨hxy.1, hy⟩)
  exact hacyclic c hcycle

/-- Without cycles, the chains from a vertex have a greatest length. -/
theorem exists_greatest_chain (hacyclic : ∀ c, ¬ TransGen (Dep V succ) c c) (v : α) :
    ∃ n, HasChain (Dep V succ) n v ∧ ∀ m, HasChain (Dep V succ) m v → m ≤ n := by
  classical
  induction v using (wellFounded_dep hacyclic).induction with
  | _ v ih =>
      let bound (d : α) : Nat := if h : Dep V succ v d then Classical.choose (ih d h) else 0
      have hbounded : ∀ m, HasChain (Dep V succ) m v → m ≤ V.sup bound + 1 := by
        intro m hm
        cases m with
        | zero => exact Nat.zero_le _
        | succ m =>
            obtain ⟨d, hd, hchain⟩ := hm
            have hle : m ≤ bound d := by
              simpa [bound, hd] using (Classical.choose_spec (ih d hd)).2 m hchain
            exact Nat.succ_le_succ (hle.trans (Finset.le_sup (f := bound) hd.1))
      refine ⟨Nat.findGreatest (fun n => HasChain (Dep V succ) n v) (V.sup bound + 1), ?_, ?_⟩
      · exact Nat.findGreatest_spec (P := fun n => HasChain (Dep V succ) n v) (Nat.zero_le _) trivial
      · intro m hm
        exact Nat.le_findGreatest (hbounded m hm) hm

theorem exists_level (hacyclic : ∀ c, ¬ TransGen (Dep V succ) c c) :
    ∃ level, IsLevel (Dep V succ) level := by
  choose level hlevel using exists_greatest_chain hacyclic
  refine ⟨level, fun n v => ⟨(hlevel v).2 n, fun hle => (hlevel v).1.mono hle⟩⟩

end Existence

/-! ## Levelled states -/

section Levelled

variable {V : Finset α} {succ : α → List α} {level : α → Nat} {st : State α}

/-- What is emitted or waiting is sorted by level. -/
def Levelled (level : α → Nat) (st : State α) : Prop :=
  (st.order ++ st.ready).Pairwise (fun x y => level x ≤ level y)

/-- In a levelled state, nothing emitted is above the front of the queue. -/
theorem Levelled.le_front (hl : Levelled level st) {cur : α} {rest : List α}
    (hready : st.ready = cur :: rest) {d : α} (hd : d ∈ st.order ++ [cur]) :
    level d ≤ level cur := by
  rcases List.mem_append.mp hd with hd | hd
  · exact (List.pairwise_append.mp hl).2.2 d hd cur (by simp [hready])
  · exact le_of_eq (congrArg level (List.mem_singleton.mp hd))

/-- A vertex whose dependencies have all been emitted is at most one level above the front. -/
theorem Levelled.le_succ_front (hlevel : IsLevel (Dep V succ) level) (hl : Levelled level st)
    {cur : α} {rest : List α} (hready : st.ready = cur :: rest) {x : α}
    (hx : ∀ d, Dep V succ x d → d ∈ st.order ++ [cur]) : level x ≤ level cur + 1 := by
  rcases hlevel.attained x with hzero | ⟨d, hd, hxd⟩
  · omega
  · have := hl.le_front hready (hx d hd)
    omega

end Levelled

/-! ## One iteration -/

section Loop

variable [DecidableEq α] {V : Finset α} {succ : α → List α} {level : α → Nat} {st : State α}

/-- What becomes ready comes in the order of the visited list. -/
theorem State.foldl_visit_sublist (l : List α) (st : State α) :
    ∃ pushed, (l.foldl State.visit st).ready = st.ready ++ pushed ∧ pushed.Sublist l := by
  induction l generalizing st with
  | nil => exact ⟨[], by simp, List.Sublist.refl _⟩
  | cons x l ih =>
      obtain ⟨pushed, hready, hsub⟩ := ih (st.visit x)
      rw [State.visit_ready] at hready
      by_cases hone : st.degree x = 1
      · refine ⟨x :: pushed, ?_, hsub.cons_cons x⟩
        simpa [hone] using hready
      · refine ⟨pushed, ?_, hsub.cons x⟩
        simpa [hone] using hready

theorem takeFront_shape (succ : α → List α) {cur : α} {rest : List α} (hready : st.ready = cur :: rest) :
    ∃ pushed, (st.takeFront succ cur rest).order ++ (st.takeFront succ cur rest).ready =
        (st.order ++ st.ready) ++ pushed ∧
      (st.takeFront succ cur rest).order = st.order ++ [cur] ∧ pushed.Sublist (succ cur) := by
  obtain ⟨pushed, hpushed, hsub⟩ := State.foldl_visit_sublist (succ cur)
    { ready := rest, order := st.order ++ [cur], degree := st.degree }
  have horder := State.takeFront_order succ st cur rest
  have hready' : (st.takeFront succ cur rest).ready = rest ++ pushed := hpushed
  exact ⟨pushed, by simp [hready', hready], horder, hsub⟩

/-- All dependencies of what is emitted or waiting have been emitted. -/
theorem Inv.dep_mem_order (h : Inv V succ st) {x d : α} (hx : x ∈ st.order ++ st.ready)
    (hd : Dep V succ x d) : d ∈ st.order := by
  have hzero : st.degree x = 0 := (h.mem_iff x (h.subset x hx)).mp hx
  exact h.mem_order_of_degree_eq_zero hd.1 hd.2 hzero

/-- A property that every iteration keeps holds after the loop. -/
theorem Inv.loop_induction {P : State α → Prop} (hclosed : ∀ u ∈ V, ∀ v ∈ succ u, v ∈ V)
    (hstep : ∀ st cur rest, Inv V succ st → P st → st.ready = cur :: rest →
      P (st.takeFront succ cur rest))
    (h : Inv V succ st) (hP : P st) (fuel : Nat) : P (State.loop succ fuel st) := by
  induction fuel generalizing st with
  | zero => exact hP
  | succ fuel ih =>
      cases hready : st.ready with
      | nil => simpa [State.loop, hready] using hP
      | cons cur rest =>
          have hnext := ih (h.takeFront hclosed hready) (hstep st cur rest h hP hready)
          simpa [State.loop, hready] using hnext

/-! ## Level by level -/

/-- What an iteration makes ready is exactly one level above the vertex it emits. -/
theorem Inv.level_pushed (hclosed : ∀ u ∈ V, ∀ v ∈ succ u, v ∈ V)
    (hlevel : IsLevel (Dep V succ) level) (h : Inv V succ st) (hl : Levelled level st)
    {cur : α} {rest pushed : List α} (hready : st.ready = cur :: rest)
    (hshape : (st.takeFront succ cur rest).order ++ (st.takeFront succ cur rest).ready =
      (st.order ++ st.ready) ++ pushed)
    (horder : (st.takeFront succ cur rest).order = st.order ++ [cur])
    (hsub : pushed.Sublist (succ cur)) {y : α} (hy : y ∈ pushed) : level y = level cur + 1 := by
  have hcurV := (h.front hready).1
  have hlt : level cur < level y := hlevel.lt ⟨hcurV, hsub.subset hy⟩
  have hdeps : ∀ d, Dep V succ y d → d ∈ st.order ++ [cur] := by
    intro d hd
    have hmem := (h.takeFront hclosed hready).dep_mem_order
      (hshape ▸ List.mem_append_right _ hy) hd
    exact horder ▸ hmem
  have hle := hl.le_succ_front hlevel hready hdeps
  omega

theorem Inv.takeFront_levels (hclosed : ∀ u ∈ V, ∀ v ∈ succ u, v ∈ V)
    (hlevel : IsLevel (Dep V succ) level) (h : Inv V succ st) (hl : Levelled level st)
    {cur : α} {rest : List α} (hready : st.ready = cur :: rest) :
    Levelled level (st.takeFront succ cur rest) := by
  obtain ⟨pushed, hshape, horder, hsub⟩ := takeFront_shape succ hready
  have hpushed : ∀ y ∈ pushed, level y = level cur + 1 :=
    fun y hy => h.level_pushed hclosed hlevel hl hready hshape horder hsub hy
  unfold Levelled
  rw [hshape]
  refine List.pairwise_append.mpr ⟨hl, ?_, ?_⟩
  · apply List.pairwise_of_forall_mem_list
    intro x hx y hy
    exact le_of_eq ((hpushed x hx).trans (hpushed y hy).symm)
  -- Everything before was ready without `cur`, so it is at most one level above it.
  · intro x hx y hy
    rw [hpushed y hy]
    exact hl.le_succ_front hlevel hready
      (fun d hd => List.mem_append_left _ (h.dep_mem_order hx hd))

/-- The queue emits the vertices level by level. -/
theorem Inv.loop_levels (hclosed : ∀ u ∈ V, ∀ v ∈ succ u, v ∈ V)
    (hlevel : IsLevel (Dep V succ) level) (h : Inv V succ st) (hl : Levelled level st)
    (fuel : Nat) : Levelled level (State.loop succ fuel st) :=
  h.loop_induction hclosed
    (fun _ _ _ hinv hlev hready => hinv.takeFront_levels hclosed hlevel hlev hready) hl fuel

/-! ## Last of its level -/

/-- The vertices of `C` are the last ones of their levels so far. -/
def LastIn (C : α → Prop) (level : α → Nat) (st : State α) : Prop :=
  (st.order ++ st.ready).Pairwise (fun x y => C x → level x < level y)

section Last

variable {C : α → Prop}

theorem Inv.takeFront_last (hclosed : ∀ u ∈ V, ∀ v ∈ succ u, v ∈ V)
    (hlevel : IsLevel (Dep V succ) level)
    (hdeep : ∀ x, C x → level x = 0 ∨ ∃ d, Dep V succ x d ∧ C d ∧ level x = level d + 1)
    (hone : ∀ x y, C x → C y → level x = level y → x = y)
    (hsucc : ∀ u, (succ u).Pairwise (fun x y => C x → C y))
    (h : Inv V succ st) (hl : Levelled level st) (hC : LastIn C level st)
    {cur : α} {rest : List α} (hready : st.ready = cur :: rest) :
    LastIn C level (st.takeFront succ cur rest) := by
  obtain ⟨pushed, hshape, horder, hsub⟩ := takeFront_shape succ hready
  have hpushed : ∀ y ∈ pushed, level y = level cur + 1 :=
    fun y hy => h.level_pushed hclosed hlevel hl hready hshape horder hsub hy
  have hnodup : ((st.order ++ st.ready) ++ pushed).Nodup :=
    hshape ▸ (h.takeFront hclosed hready).nodup
  unfold LastIn
  rw [hshape]
  refine List.pairwise_append.mpr ⟨hC, ?_, ?_⟩
  · -- Among the new ones, a member of `C` could only precede another member of its level.
    have hne : pushed.Pairwise (fun x y => x ≠ y) := (List.nodup_append.mp hnodup).2.1
    have hboth := ((hsucc cur).sublist hsub).and hne
    refine hboth.imp_of_mem ?_
    intro x y hx hy hxy hCx
    exact absurd (hone x y hCx (hxy.1 hCx) ((hpushed x hx).trans (hpushed y hy).symm)) hxy.2
  · intro x hx y hy hCx
    rw [hpushed y hy]
    rcases List.mem_append.mp hx with hxorder | hxready
    · have := hl.le_front hready (List.mem_append_left [cur] hxorder)
      omega
    · -- A waiting member of `C` above `cur` has a dependency in `C` on the level of `cur`, which
      -- was emitted before `cur`.
      by_contra hge
      have hle := hl.le_succ_front hlevel hready
        (fun d hd => List.mem_append_left [cur] (h.dep_mem_order hx hd))
      rcases hdeep x hCx with hzero | ⟨d, hd, hCd, hxd⟩
      · omega
      · have hlt := (List.pairwise_append.mp hC).2.2 d (h.dep_mem_order hx hd) cur
          (by simp [hready]) hCd
        omega

/-- A chain of deepest dependencies that comes last in every edge list and in the initial queue is
last in every level. -/
theorem Inv.loop_last (hclosed : ∀ u ∈ V, ∀ v ∈ succ u, v ∈ V)
    (hlevel : IsLevel (Dep V succ) level)
    (hdeep : ∀ x, C x → level x = 0 ∨ ∃ d, Dep V succ x d ∧ C d ∧ level x = level d + 1)
    (hone : ∀ x y, C x → C y → level x = level y → x = y)
    (hsucc : ∀ u, (succ u).Pairwise (fun x y => C x → C y))
    (h : Inv V succ st) (hl : Levelled level st) (hC : LastIn C level st) (fuel : Nat) :
    LastIn C level (State.loop succ fuel st) :=
  (h.loop_induction (P := fun st => Levelled level st ∧ LastIn C level st) hclosed
    (fun _ _ _ hinv hlev hready =>
      ⟨hinv.takeFront_levels hclosed hlevel hlev.1 hready,
        hinv.takeFront_last hclosed hlevel hdeep hone hsucc hlev.1 hlev.2 hready⟩)
    ⟨hl, hC⟩ fuel).2

/-- The initial queue holds the vertices of level zero. -/
theorem Inv.init_levels (hlevel : IsLevel (Dep V succ) level) {ready : List α} {degree : α → Int}
    (h : Inv V succ { ready := ready, order := [], degree := degree }) :
    ∀ x ∈ ready, level x = 0 := by
  intro x hx
  rcases hlevel.attained x with hzero | ⟨d, hd, -⟩
  · exact hzero
  · have hnone := h.dep_mem_order (by simpa using hx) hd
    simp at hnone

theorem Inv.init_levelled (hlevel : IsLevel (Dep V succ) level) {ready : List α} {degree : α → Int}
    (h : Inv V succ { ready := ready, order := [], degree := degree }) :
    Levelled level { ready := ready, order := [], degree := degree } := by
  apply List.pairwise_of_forall_mem_list
  intro x hx y hy
  have hx' := h.init_levels hlevel x (by simpa using hx)
  have hy' := h.init_levels hlevel y (by simpa using hy)
  simp [hx', hy']

theorem Inv.init_last (hlevel : IsLevel (Dep V succ) level)
    (hone : ∀ x y, C x → C y → level x = level y → x = y) {ready : List α} {degree : α → Int}
    (h : Inv V succ { ready := ready, order := [], degree := degree })
    (hready : ready.Pairwise (fun x y => C x → C y)) :
    LastIn C level { ready := ready, order := [], degree := degree } := by
  have hready' : ready.Nodup := by simpa using h.nodup
  have hnodup : ready.Pairwise (fun x y => x ≠ y) := hready'
  have hpair : ready.Pairwise (fun x y => C x → level x < level y) := by
    refine (hready.and hnodup).imp_of_mem ?_
    intro x y hx hy hxy hCx
    have hlev : level x = level y :=
      (h.init_levels hlevel x hx).trans (h.init_levels hlevel y hy).symm
    exact absurd (hone x y hCx (hxy.1 hCx) hlev) hxy.2
  simpa [LastIn] using hpair

end Last

end Loop

end Kahn
