import Mathlib.Algebra.BigOperators.Group.Finset.Piecewise
import Mathlib.Algebra.Order.BigOperators.Group.Finset
import Mathlib.Data.Fintype.Pigeonhole
import Mathlib.Logic.Relation

/-!
# Kahn — topological ordering with in-degree counters

Kahn's algorithm on a multigraph: `succ u` lists the targets of the edges leaving `u`, once for each
edge.  The state keeps the queue of ready vertices, the emitted order, and for every vertex a
counter of incoming edges whose source has not been emitted yet.

For a finite vertex set closed under `succ`, the algorithm empties its queue within one iteration
for each vertex.  The emitted order is free of duplicates and respects every edge, and it contains
exactly the vertices from which no cycle can be reached backwards along the edges.
-/

open Relation

namespace Kahn

variable {α : Type*}

/-! ## Cycles in finite relations -/

/-- In a finite set where every element has an `r`-successor, every element reaches a cycle. -/
theorem exists_cycle_of_forall_exists {r : α → α → Prop} {S : Finset α}
    (hS : ∀ x ∈ S, ∃ y ∈ S, r x y) {x : α} (hx : x ∈ S) :
    ∃ c, ReflTransGen r x c ∧ TransGen r c c := by
  choose! f hfS hfr using hS
  have hmem : ∀ n, f^[n] x ∈ S := by
    intro n
    induction n with
    | zero => exact hx
    | succ n ih =>
        simpa only [Function.iterate_succ_apply'] using hfS _ ih
  have hreach : ∀ m k, ReflTransGen r (f^[m] x) (f^[m + k] x) := by
    intro m k
    -- Walk on from position `m`; one more application of `f` is one more edge.
    induction k with
    | zero => exact ReflTransGen.refl
    | succ k ih =>
        have hstep : r (f^[m + k] x) (f^[m + (k + 1)] x) := by
          simpa only [← Nat.add_assoc, Function.iterate_succ_apply'] using hfr _ (hmem (m + k))
        exact ih.tail hstep
  obtain ⟨m, n, hne, heq⟩ :=
    Finite.exists_ne_map_eq_of_infinite (fun n => (⟨f^[n] x, hmem n⟩ : S))
  have heq' : f^[m] x = f^[n] x := congrArg Subtype.val heq
  -- Two positions of the walk coincide; the part between them is a cycle.
  have hcycle : ∀ m n, m < n → f^[m] x = f^[n] x → TransGen r (f^[m] x) (f^[m] x) := by
    intro m n hlt heq
    obtain ⟨k, rfl⟩ : ∃ k, n = m + 1 + k := ⟨n - (m + 1), by omega⟩
    have hfirst : r (f^[m] x) (f^[m + 1] x) := by
      simpa only [Function.iterate_succ_apply'] using hfr _ (hmem m)
    have hloop : TransGen r (f^[m] x) (f^[m + 1 + k] x) :=
      TransGen.head' hfirst (hreach (m + 1) k)
    rwa [← heq] at hloop
  have hfrom : ∀ m, ReflTransGen r x (f^[m] x) := by
    intro m
    simpa using hreach 0 m
  rcases Nat.lt_or_gt_of_ne hne with hlt | hgt
  · exact ⟨f^[m] x, hfrom m, hcycle m n hlt heq'⟩
  · exact ⟨f^[n] x, hfrom n, hcycle n m hgt heq'.symm⟩

variable [DecidableEq α]

/-! ## Edge lists -/

/-- The targets of the edges that leave `u`, in the order of the edge list. -/
def targets (edges : List (α × α)) (u : α) : List α :=
  (edges.filter (fun e => decide (e.1 = u))).map Prod.snd

@[simp] theorem targets_nil (u : α) : targets ([] : List (α × α)) u = [] := rfl

theorem targets_cons (e : α × α) (edges : List (α × α)) (u : α) :
    targets (e :: edges) u = (if e.1 = u then [e.2] else []) ++ targets edges u := by
  by_cases h : e.1 = u <;> simp [targets, h]

theorem mem_targets {edges : List (α × α)} {u v : α} : v ∈ targets edges u ↔ (u, v) ∈ edges := by
  simp [targets]

/-- The in-degree of `v`, counted once over the edge list and once by sources. -/
theorem countP_snd_eq_sum {V : Finset α} {edges : List (α × α)} (hV : ∀ e ∈ edges, e.1 ∈ V) (v : α) :
    (edges.countP (fun e => decide (e.2 = v)) : Int) =
      ∑ u ∈ V, ((targets edges u).count v : Int) := by
  induction edges with
  | nil =>
      simp
  | cons e edges ih =>
      have hrest := ih (fun e' he' => hV e' (List.mem_cons_of_mem e he'))
      have hone : ∀ u, (((if e.1 = u then [e.2] else []).count v : Nat) : Int) =
          if e.1 = u then (if e.2 = v then 1 else 0) else 0 := by
        intro u
        by_cases hu : e.1 = u <;> by_cases hv : e.2 = v <;> simp [hu, hv]
      have hsum : ∑ u ∈ V, (if e.1 = u then (if e.2 = v then (1 : Int) else 0) else 0) =
          if e.2 = v then 1 else 0 := by
        rw [Finset.sum_ite_eq]
        simp [hV e (by simp)]
      -- The first edge adds one to the in-degree of its target, and to the summand of its source.
      simp only [targets_cons, List.count_append, Int.natCast_add, hone, Finset.sum_add_distrib,
        hsum, ← hrest, List.countP_cons]
      by_cases hv : e.2 = v
      · simp only [hv, decide_true, if_true]
        omega
      · simp [hv]

/-! ## The algorithm -/

structure State (α : Type*) where
  ready : List α
  order : List α
  degree : α → Int

namespace State

/-- One edge into `v` loses its source; `v` becomes ready when it was the last one. -/
def visit (st : State α) (v : α) : State α :=
  let degree := Function.update st.degree v (st.degree v - 1)
  if degree v = 0 then
    { ready := st.ready ++ [v], order := st.order, degree := degree }
  else { st with degree := degree }

/-- Emit the front `cur` of the queue, and visit the targets of its edges. -/
def takeFront (succ : α → List α) (st : State α) (cur : α) (rest : List α) : State α :=
  (succ cur).foldl visit { st with ready := rest, order := st.order ++ [cur] }

/-- At most `fuel` iterations of the queue loop. -/
def loop (succ : α → List α) : Nat → State α → State α
  | 0, st => st
  | fuel + 1, st =>
      match st.ready with
      | [] => st
      | cur :: rest => loop succ fuel (st.takeFront succ cur rest)

/-! ## Visiting the targets of one vertex -/

theorem visit_degree (st : State α) (x v : α) :
    (st.visit x).degree v = st.degree v - if x = v then 1 else 0 := by
  unfold visit
  by_cases h : v = x
  · subst h
    by_cases hz : st.degree v - 1 = 0 <;> simp [hz]
  · have h' : x ≠ v := fun heq => h heq.symm
    by_cases hz : st.degree x - 1 = 0 <;> simp [hz, h, h']

theorem visit_order (st : State α) (x : α) : (st.visit x).order = st.order := by
  unfold visit
  by_cases hz : st.degree x - 1 = 0 <;> simp [hz]

theorem visit_ready (st : State α) (x : α) :
    (st.visit x).ready = st.ready ++ if st.degree x = 1 then [x] else [] := by
  unfold visit
  by_cases hz : st.degree x = 1
  · simp [hz]
  · have hz' : ¬ st.degree x - 1 = 0 := by omega
    simp [hz, hz']

theorem foldl_visit_order (l : List α) (st : State α) : (l.foldl visit st).order = st.order := by
  induction l generalizing st with
  | nil => rfl
  | cons x l ih => exact (ih (st.visit x)).trans (visit_order st x)

/-- Visiting a list of targets lowers each counter by the number of occurrences. -/
theorem foldl_visit_degree (l : List α) (st : State α) (v : α) :
    (l.foldl visit st).degree v = st.degree v - (l.count v : Int) := by
  induction l generalizing st with
  | nil => simp
  | cons x l ih =>
      rw [List.foldl_cons, ih, visit_degree]
      by_cases hxv : x = v
      · subst hxv
        rw [if_pos rfl, List.count_cons_self]
        omega
      · rw [if_neg hxv, List.count_cons_of_ne hxv, sub_zero]

/-- A counter `d` crosses zero in `c + 1` visits: in the first one, or in the others. -/
theorem crosses_succ {d c : Int} (hc : 0 ≤ c) :
    ((if d = 1 then 1 else 0) + if 0 < d - 1 ∧ d - 1 ≤ c then 1 else 0 : Nat) =
      if 0 < d ∧ d ≤ c + 1 then 1 else 0 := by
  -- From one it gets to zero at once, and never crosses zero again.
  by_cases hone : d = 1
  · have hlater : ¬ (0 < d - 1 ∧ d - 1 ≤ c) := by omega
    rw [if_pos hone, if_neg hlater, if_pos (by omega)]
  · have hlater : (0 < d - 1 ∧ d - 1 ≤ c) ↔ (0 < d ∧ d ≤ c + 1) := by omega
    rw [if_neg hone, Nat.zero_add, if_congr hlater rfl rfl]

/-- A vertex becomes ready, once, exactly if its counter crosses zero. -/
theorem foldl_visit_ready (l : List α) (st : State α) :
    ∃ pushed, (l.foldl visit st).ready = st.ready ++ pushed ∧
      ∀ v, pushed.count v = if 0 < st.degree v ∧ st.degree v ≤ (l.count v : Int) then 1 else 0 := by
  induction l generalizing st with
  | nil =>
      refine ⟨[], by simp, ?_⟩
      intro v
      have hno : ¬ (0 < st.degree v ∧ st.degree v ≤ ((0 : Nat) : Int)) := by
        omega
      rw [List.count_nil, if_neg hno]
  | cons x l ih =>
      obtain ⟨pushed, hready, hcount⟩ := ih (st.visit x)
      refine ⟨(if st.degree x = 1 then [x] else []) ++ pushed, ?_, ?_⟩
      · rw [List.foldl_cons, hready, visit_ready, List.append_assoc]
      · intro v
        rw [List.count_append, hcount v, visit_degree]
        by_cases hxv : x = v
        · subst hxv
          have hfirst : (if st.degree x = 1 then [x] else []).count x =
              if st.degree x = 1 then 1 else 0 := by
            split_ifs <;> simp
          have hcons : (((x :: l).count x : Nat) : Int) = (l.count x : Int) + 1 := by
            simp
          rw [hfirst, if_pos rfl, hcons]
          exact crosses_succ (Int.natCast_nonneg _)
        · have hfirst : (if st.degree x = 1 then [x] else []).count v = 0 := by
            split_ifs <;> simp [hxv]
          rw [hfirst, if_neg hxv, sub_zero, Nat.zero_add, List.count_cons_of_ne hxv]

/-- What one iteration does: `pushed` are the targets whose counter came down to zero. -/
theorem takeFront_spec (succ : α → List α) (st : State α) (cur : α) (rest : List α) :
    ∃ pushed,
      (st.takeFront succ cur rest).ready = rest ++ pushed ∧
      pushed.Nodup ∧
      ∀ v, v ∈ pushed ↔ 0 < st.degree v ∧ st.degree v ≤ ((succ cur).count v : Int) := by
  obtain ⟨pushed, hready, hcount⟩ := foldl_visit_ready (succ cur)
    { ready := rest, order := st.order ++ [cur], degree := st.degree }
  refine ⟨pushed, hready, ?_, ?_⟩
  · refine List.nodup_iff_count_le_one.mpr ?_
    intro v
    rw [hcount v]
    split_ifs <;> omega
  · intro v
    rw [← List.count_pos_iff, hcount v]
    split_ifs with hv <;> simp [hv]

@[simp] theorem takeFront_order (succ : α → List α) (st : State α) (cur : α) (rest : List α) :
    (st.takeFront succ cur rest).order = st.order ++ [cur] :=
  foldl_visit_order _ _

theorem takeFront_degree (succ : α → List α) (st : State α) (cur : α) (rest : List α) (v : α) :
    (st.takeFront succ cur rest).degree v = st.degree v - ((succ cur).count v : Int) :=
  foldl_visit_degree _ _ v

end State

/-! ## The invariant of the loop -/

section Loop

variable {V : Finset α} {succ : α → List α}

/-- `st` is reachable: the counters are exact, `ready` holds the vertices whose counter is zero, and
the emitted order respects the edges. -/
structure Inv (V : Finset α) (succ : α → List α) (st : State α) : Prop where
  nodup : (st.order ++ st.ready).Nodup
  subset : ∀ v, v ∈ st.order ++ st.ready → v ∈ V
  degree_eq : ∀ v, st.degree v = ∑ u ∈ V.filter (fun u => u ∉ st.order), ((succ u).count v : Int)
  mem_iff : ∀ v, v ∈ V → (v ∈ st.order ++ st.ready ↔ st.degree v = 0)
  before : ∀ u v, u ∈ V → v ∈ st.order → v ∈ succ u →
    u ∈ st.order ∧ st.order.idxOf u < st.order.idxOf v

/-- The invariant at the start of the loop, when every counter is the in-degree. -/
theorem Inv.init {ready : List α} {degree : α → Int} (hnodup : ready.Nodup)
    (hready : ∀ v, v ∈ ready ↔ v ∈ V ∧ degree v = 0)
    (hdegree : ∀ v, degree v = ∑ u ∈ V, ((succ u).count v : Int)) :
    Inv V succ { ready := ready, order := [], degree := degree } where
  nodup := by simpa using hnodup
  subset := fun v hv => ((hready v).mp (by simpa using hv)).1
  degree_eq := by simpa using hdegree
  mem_iff := by
    intro v hv
    simp [hready, hv]
  before := by
    intro u v _ hv
    simp at hv

/-- A waiting source contributes at most the whole counter. -/
theorem Inv.count_le_degree {st : State α} (h : Inv V succ st) {u : α} (hu : u ∈ V)
    (hu' : u ∉ st.order) (v : α) : ((succ u).count v : Int) ≤ st.degree v := by
  have hmem : u ∈ V.filter (fun u => u ∉ st.order) := by
    simp [hu, hu']
  have hle := Finset.single_le_sum (f := fun u => ((succ u).count v : Int))
    (fun i _ => Int.natCast_nonneg _) hmem
  rwa [← h.degree_eq v] at hle

/-- Once the counter of `v` is zero, every source of an edge into `v` has been emitted. -/
theorem Inv.mem_order_of_degree_eq_zero {st : State α} (h : Inv V succ st) {u v : α} (hu : u ∈ V)
    (hv : v ∈ succ u) (hzero : st.degree v = 0) : u ∈ st.order := by
  by_contra hu'
  have hle := h.count_le_degree hu hu' v
  have hpos : 0 < (succ u).count v := List.count_pos_iff.mpr hv
  omega

/-- The front of the queue has not been emitted, and its counter is zero. -/
theorem Inv.front {st : State α} (h : Inv V succ st) {cur : α} {rest : List α}
    (hready : st.ready = cur :: rest) : cur ∈ V ∧ st.degree cur = 0 ∧ cur ∉ st.order := by
  have hmem : cur ∈ st.order ++ st.ready := by
    simp [hready]
  have hV : cur ∈ V := h.subset cur hmem
  refine ⟨hV, (h.mem_iff cur hV).mp hmem, ?_⟩
  have hnodup := h.nodup
  rw [hready] at hnodup
  exact fun horder => (List.nodup_append.mp hnodup).2.2 cur horder cur (by simp) rfl

/-- Emitting `cur` takes its summand out of every counter. -/
theorem Inv.degree_emit {st : State α} (h : Inv V succ st) {cur : α} (hV : cur ∈ V)
    (horder : cur ∉ st.order) (v : α) :
    st.degree v - ((succ cur).count v : Int) =
      ∑ u ∈ V.filter (fun u => u ∉ st.order ++ [cur]), ((succ u).count v : Int) := by
  have herase : V.filter (fun u => u ∉ st.order ++ [cur]) =
      (V.filter (fun u => u ∉ st.order)).erase cur := by
    ext u
    simp only [Finset.mem_filter, Finset.mem_erase, List.mem_append, List.mem_singleton]
    tauto
  have hmem : cur ∈ V.filter (fun u => u ∉ st.order) := by
    simp [hV, horder]
  rw [herase, Finset.sum_erase_eq_sub hmem, ← h.degree_eq v]

/-- Either `v` was emitted before, or it is `cur`, whose counter is zero. -/
theorem Inv.before_emit {st : State α} (h : Inv V succ st) {cur : α} (horder : cur ∉ st.order)
    (hzero : st.degree cur = 0) {u v : α} (hu : u ∈ V) (hv : v ∈ st.order ++ [cur])
    (huv : v ∈ succ u) :
    u ∈ st.order ++ [cur] ∧ (st.order ++ [cur]).idxOf u < (st.order ++ [cur]).idxOf v := by
  rcases List.mem_append.mp hv with hold | hnew
  · rcases h.before u v hu hold huv with ⟨humem, hlt⟩
    refine ⟨List.mem_append_left _ humem, ?_⟩
    rwa [List.idxOf_append_of_mem humem, List.idxOf_append_of_mem hold]
  · obtain rfl := List.mem_singleton.mp hnew
    have humem : u ∈ st.order := h.mem_order_of_degree_eq_zero hu huv hzero
    refine ⟨List.mem_append_left _ humem, ?_⟩
    rw [List.idxOf_append_of_mem humem, List.idxOf_append_of_notMem horder]
    have hlt : st.order.idxOf u < st.order.length := List.idxOf_lt_length_iff.mpr humem
    omega

theorem Inv.takeFront {st : State α} (hclosed : ∀ u ∈ V, ∀ v ∈ succ u, v ∈ V) (h : Inv V succ st)
    {cur : α} {rest : List α} (hready : st.ready = cur :: rest) :
    Inv V succ (st.takeFront succ cur rest) := by
  obtain ⟨pushed, hready', hpushedNodup, hpushed⟩ := State.takeFront_spec succ st cur rest
  obtain ⟨hcurV, hcurZero, hcurOrder⟩ := h.front hready
  have hsplit : st.order ++ st.ready = (st.order ++ [cur]) ++ rest := by
    simp [hready]
  have hnext : (st.takeFront succ cur rest).order ++ (st.takeFront succ cur rest).ready =
      (st.order ++ st.ready) ++ pushed := by
    rw [State.takeFront_order, hready', hsplit, List.append_assoc, List.append_assoc,
      List.append_assoc]
  refine
    { nodup := ?_
      subset := ?_
      degree_eq := ?_
      mem_iff := ?_
      before := ?_ }
  · -- What is pushed had a positive counter, so it was neither emitted nor waiting before.
    have hfresh : ∀ v, v ∈ st.order ++ st.ready → v ∉ pushed := by
      intro v hv hmem
      have hzero := (h.mem_iff v (h.subset v hv)).mp hv
      have hbounds := (hpushed v).mp hmem
      omega
    rw [hnext]
    refine List.nodup_append.mpr ⟨h.nodup, hpushedNodup, ?_⟩
    intro a ha b hb hab
    exact hfresh a ha (hab ▸ hb)
  -- New entries of the queue are targets of `cur`.
  · intro v hv
    rw [hnext] at hv
    rcases List.mem_append.mp hv with hold | hnew
    · exact h.subset v hold
    · have hbounds := (hpushed v).mp hnew
      have hpos : 0 < (succ cur).count v := by
        omega
      exact hclosed cur hcurV v (List.count_pos_iff.mp hpos)
  · intro v
    rw [State.takeFront_degree, State.takeFront_order]
    exact h.degree_emit hcurV hcurOrder v
  -- Ready now: ready or emitted before, or brought down to zero by the edges of `cur`.
  · intro v hv
    have hle := h.count_le_degree hcurV hcurOrder v
    rw [hnext, State.takeFront_degree, List.mem_append, h.mem_iff v hv, hpushed v]
    omega
  · intro u v hu hv huv
    rw [State.takeFront_order] at hv ⊢
    exact h.before_emit hcurOrder hcurZero hu hv huv

/-- One iteration for each vertex that has not been emitted empties the queue. -/
theorem Inv.loop (hclosed : ∀ u ∈ V, ∀ v ∈ succ u, v ∈ V) {fuel : Nat} {st : State α}
    (h : Inv V succ st) (hfuel : V.card ≤ fuel + st.order.length) :
    Inv V succ (State.loop succ fuel st) ∧ (State.loop succ fuel st).ready = [] := by
  induction fuel generalizing st with
  | zero =>
      -- Out of fuel: the emitted vertices alone already fill `V`, so nothing is waiting.
      refine ⟨h, ?_⟩
      have hle : (st.order ++ st.ready).length ≤ V.card := by
        rw [← List.toFinset_card_of_nodup h.nodup]
        refine Finset.card_le_card ?_
        intro v hv
        exact h.subset v (List.mem_toFinset.mp hv)
      rw [List.length_append] at hle
      have hzero : st.ready.length = 0 := by
        omega
      exact List.eq_nil_of_length_eq_zero hzero
  | succ fuel ih =>
      cases hready : st.ready with
      | nil =>
          simp only [State.loop, hready]
          exact ⟨h, trivial⟩
      | cons cur rest =>
          simp only [State.loop, hready]
          refine ih (h.takeFront hclosed hready) ?_
          rw [State.takeFront_order, List.length_append, List.length_singleton]
          omega

/-! ## What is emitted -/

/-- `v` has an incoming edge from `u`. -/
def Dep (V : Finset α) (succ : α → List α) (v u : α) : Prop :=
  u ∈ V ∧ v ∈ succ u

theorem Inv.mem_order_of_reaches {st : State α} (h : Inv V succ st) {v c : α}
    (hv : v ∈ st.order) (hreach : ReflTransGen (Dep V succ) v c) : c ∈ st.order := by
  induction hreach with
  | refl => exact hv
  | tail _ hstep ih => exact (h.before _ _ hstep.1 ih hstep.2).1

theorem Inv.idxOf_lt_of_transGen {st : State α} (h : Inv V succ st) {v c : α} (hv : v ∈ st.order)
    (hreach : TransGen (Dep V succ) v c) : st.order.idxOf c < st.order.idxOf v := by
  induction hreach with
  | single hstep => exact (h.before _ _ hstep.1 hv hstep.2).2
  | tail hfirst hstep ih =>
      have hmid := h.mem_order_of_reaches hv hfirst.to_reflTransGen
      exact (h.before _ _ hstep.1 hmid hstep.2).2.trans ih

/-- With an empty queue, the emitted vertices are those that reach no cycle. -/
theorem Inv.mem_order_iff {st : State α} (h : Inv V succ st) (hdone : st.ready = []) (v : α) :
    v ∈ st.order ↔
      v ∈ V ∧ ¬ ∃ c, ReflTransGen (Dep V succ) v c ∧ TransGen (Dep V succ) c c := by
  constructor
  · intro hv
    refine ⟨h.subset v (List.mem_append_left _ hv), ?_⟩
    rintro ⟨c, hreach, hcycle⟩
    exact absurd (h.idxOf_lt_of_transGen (h.mem_order_of_reaches hv hreach) hcycle) (lt_irrefl _)
  · rintro ⟨hvV, hacyclic⟩
    by_contra hv
    -- Every vertex left over has an incoming edge from another one left over.
    have hstuck : ∀ x ∈ V.filter (fun u => u ∉ st.order),
        ∃ y ∈ V.filter (fun u => u ∉ st.order), Dep V succ x y := by
      intro x hx
      rcases Finset.mem_filter.mp hx with ⟨hxV, hxOrder⟩
      have hne : st.degree x ≠ 0 := by
        intro hzero
        have hmem := (h.mem_iff x hxV).mpr hzero
        rw [hdone, List.append_nil] at hmem
        exact hxOrder hmem
      rw [h.degree_eq x] at hne
      obtain ⟨y, hy, hcount⟩ := Finset.exists_ne_zero_of_sum_ne_zero hne
      have hpos : 0 < (succ y).count x := by
        omega
      exact ⟨y, hy, (Finset.mem_filter.mp hy).1, List.count_pos_iff.mp hpos⟩
    exact hacyclic (exists_cycle_of_forall_exists hstuck (by simp [hvV, hv]))

end Loop

end Kahn
