import Mathlib.Data.List.AList

/-!
# UnorderedMap — finite maps with an iteration order

A hash map is modelled by Mathlib's `AList`: its entries are a list with pairwise distinct keys,
and the order of that list is the order in which an iteration visits the entries.  A statement
that quantifies over all such maps therefore quantifies over all iteration orders.

This module adds the in-place operations of a C++ `std::unordered_map` (`subscript`, `modify`)
and a counter over the entries (`countEntries`), each with the equations later proofs need.
-/

/-- A finite map from `κ` to `υ`, with an iteration order. -/
abbrev UnorderedMap (κ : Type*) (υ : Type*) := AList (fun _ : κ => υ)

namespace UnorderedMap

variable {κ υ : Type*}

/-! ## Counting entries -/

/-- Number of entries whose key and value satisfy `p`. -/
def countEntries (p : κ → υ → Bool) (m : UnorderedMap κ υ) : Nat :=
  m.entries.countP (fun e => p e.1 e.2)

@[simp] theorem countEntries_empty (p : κ → υ → Bool) :
    countEntries p (∅ : UnorderedMap κ υ) = 0 := rfl

/-- The keys of the entries selected by `p`. -/
def selectedKeys (p : κ → υ → Bool) (m : UnorderedMap κ υ) : List κ :=
  (m.entries.filter (fun e => p e.1 e.2)).map Sigma.fst

theorem length_selectedKeys (p : κ → υ → Bool) (m : UnorderedMap κ υ) :
    (selectedKeys p m).length = countEntries p m := by
  simp [selectedKeys, countEntries, List.countP_eq_length_filter]

theorem nodup_selectedKeys (p : κ → υ → Bool) (m : UnorderedMap κ υ) :
    (selectedKeys p m).Nodup := by
  have hsub : (m.entries.filter (fun e => p e.1 e.2)).Sublist m.entries := List.filter_sublist
  exact (hsub.map Sigma.fst).nodup m.keys_nodup

/-! ## Changing every value -/

/-- Apply `f` to every value, in place. -/
def mapValues {υ' : Type*} (m : UnorderedMap κ υ) (f : υ → υ') : UnorderedMap κ υ' where
  entries := m.entries.map (fun e => ⟨e.1, f e.2⟩)
  nodupKeys := by
    have hkeys : (m.entries.map (fun e => (⟨e.1, f e.2⟩ : Sigma fun _ : κ => υ'))).keys =
        m.entries.keys := by
      simp [List.keys]
    exact (congrArg List.Nodup hkeys).mpr m.nodupKeys

@[simp] theorem entries_mapValues {υ' : Type*} (m : UnorderedMap κ υ) (f : υ → υ') :
    (mapValues m f).entries = m.entries.map (fun e => ⟨e.1, f e.2⟩) := rfl

/-! ## Look-up -/

variable [DecidableEq κ]

theorem mem_entries_iff {m : UnorderedMap κ υ} {k : κ} {v : υ} :
    (⟨k, v⟩ : Sigma fun _ : κ => υ) ∈ m.entries ↔ m.lookup k = some v := by
  rw [← AList.mem_lookup_iff, Option.mem_def]

theorem mem_of_lookup {m : UnorderedMap κ υ} {k : κ} {v : υ} (h : m.lookup k = some v) :
    k ∈ m := by
  rw [← AList.lookup_isSome, h]
  rfl

theorem exists_lookup {m : UnorderedMap κ υ} {k : κ} (h : k ∈ m) : ∃ v, m.lookup k = some v :=
  Option.isSome_iff_exists.mp (AList.lookup_isSome.mpr h)

theorem mem_iff_exists_lookup {m : UnorderedMap κ υ} {k : κ} :
    k ∈ m ↔ ∃ v, m.lookup k = some v :=
  ⟨exists_lookup, fun ⟨_, h⟩ => mem_of_lookup h⟩

/-- Reordering the entries does not change the keys. -/
theorem mem_iff_of_perm {m m' : UnorderedMap κ υ} (h : m'.entries.Perm m.entries) (k : κ) :
    k ∈ m' ↔ k ∈ m := by
  rw [mem_iff_exists_lookup, mem_iff_exists_lookup, AList.perm_lookup h]

theorem lookup_insert_eq (m : UnorderedMap κ υ) (k k' : κ) (v : υ) :
    (m.insert k v).lookup k' = if k' = k then some v else m.lookup k' := by
  by_cases h : k' = k
  · subst h
    simp [AList.lookup_insert]
  · simp [h, AList.lookup_insert_ne h]

/-- Of the pairs inserted one after the other, the last one for a key is found. -/
theorem lookup_foldl_insert (l : List (κ × υ)) (m : UnorderedMap κ υ) (k : κ) :
    (l.foldl (fun m p => m.insert p.1 p.2) m).lookup k =
      ((l.reverse.find? (fun p => p.1 = k)).map Prod.snd).or (m.lookup k) := by
  induction l generalizing m with
  | nil => rfl
  | cons p l ih =>
      rw [List.foldl_cons, ih, List.reverse_cons, List.find?_append, lookup_insert_eq]
      cases l.reverse.find? (fun p => p.1 = k) with
      | some q => rfl
      | none =>
          by_cases hk : k = p.1
          · simp [hk]
          · have hk' : ¬ p.1 = k := fun h => hk h.symm
            simp [hk, hk']

/-- A loop over the entries, each of which settles what is read at its own key. -/
theorem read_foldl_entries {α β : Type*} (m : UnorderedMap κ υ) (read : α → κ → Option β)
    (value : κ → υ → Option β) {step : α → (Sigma fun _ : κ => υ) → α}
    (hstep : ∀ a e k, read (step a e) k =
      (if k = e.1 then value e.1 e.2 else none).or (read a k)) (a : α) (k : κ) :
    read (m.entries.foldl step a) k = ((m.lookup k).bind (value k)).or (read a k) := by
  obtain ⟨entries, hnodup⟩ := m
  change read (entries.foldl step a) k = ((entries.dlookup k).bind (value k)).or (read a k)
  induction entries generalizing a with
  | nil => rfl
  | cons e entries ih =>
      obtain ⟨hnotMem, hrest⟩ := List.nodupKeys_cons.mp hnodup
      rw [List.foldl_cons, ih _ hrest, hstep]
      obtain ⟨k', v⟩ := e
      by_cases hk : k = k'
      · subst hk
        rw [List.dlookup_eq_none.mpr hnotMem, List.dlookup_cons_eq, if_pos rfl]
        rfl
      · rw [List.dlookup_cons_ne _ _ hk, if_neg hk]
        rfl

theorem lookup_erase_eq (m : UnorderedMap κ υ) (k k' : κ) :
    (m.erase k).lookup k' = if k' = k then none else m.lookup k' := by
  by_cases h : k' = k
  · subst h
    simp [AList.lookup_erase]
  · simp [h, AList.lookup_erase_ne h]

theorem erase_of_notMem {m : UnorderedMap κ υ} {k : κ} (h : k ∉ m) : m.erase k = m := by
  apply AList.ext
  exact List.kerase_of_notMem_keys h

theorem countEntries_insert_of_notMem (p : κ → υ → Bool) {m : UnorderedMap κ υ} {k : κ}
    (h : k ∉ m) (v : υ) :
    countEntries p (m.insert k v) = countEntries p m + if p k v then 1 else 0 := by
  unfold countEntries
  rw [AList.entries_insert_of_notMem h, List.countP_cons]

theorem countEntries_insert (p : κ → υ → Bool) (m : UnorderedMap κ υ) (k : κ) (v : υ) :
    countEntries p (m.insert k v) = countEntries p (m.erase k) + if p k v then 1 else 0 := by
  have hentries : (m.insert k v).entries = ⟨k, v⟩ :: (m.erase k).entries := rfl
  unfold countEntries
  rw [hentries, List.countP_cons]

theorem countEntries_erase (p : κ → υ → Bool) {m : UnorderedMap κ υ} {k : κ} {v : υ}
    (h : m.lookup k = some v) :
    countEntries p m = countEntries p (m.erase k) + if p k v then 1 else 0 := by
  have hperm : m.entries.Perm (⟨k, v⟩ :: (m.erase k).entries) := by
    have hmem : k ∈ m.entries.keys := mem_of_lookup h
    -- `kerase` takes one entry out of the list; keys are distinct, so it is the entry of `k`.
    rcases List.exists_of_kerase hmem with ⟨b, l₁, l₂, -, hl, hke⟩
    have hb : m.lookup k = some b := by
      rw [← mem_entries_iff, hl]
      simp
    have hbv : b = v := by
      rw [h] at hb
      exact (Option.some.inj hb).symm
    subst hbv
    have herase : (m.erase k).entries = l₁ ++ l₂ := hke
    rw [hl, herase]
    exact List.perm_middle
  unfold countEntries
  rw [hperm.countP_eq, List.countP_cons]

/-- Counting only depends on `p` at the entries of the map. -/
theorem countEntries_congr {p q : κ → υ → Bool} {m : UnorderedMap κ υ}
    (h : ∀ k v, m.lookup k = some v → p k v = q k v) :
    countEntries p m = countEntries q m := by
  apply List.countP_congr
  intro e he
  have := h e.1 e.2 (mem_entries_iff.mp he)
  simp [this]

theorem countEntries_pos {p : κ → υ → Bool} {m : UnorderedMap κ υ} {k : κ} {v : υ}
    (h : m.lookup k = some v) (hp : p k v = true) : 0 < countEntries p m :=
  List.countP_pos_iff.mpr ⟨⟨k, v⟩, mem_entries_iff.mpr h, hp⟩

theorem mem_selectedKeys {p : κ → υ → Bool} {m : UnorderedMap κ υ} {k : κ} :
    k ∈ selectedKeys p m ↔ ∃ v, m.lookup k = some v ∧ p k v = true := by
  constructor
  · intro hk
    rcases List.mem_map.mp hk with ⟨⟨k', v⟩, he, rfl⟩
    rcases List.mem_filter.mp he with ⟨hmem, hp⟩
    exact ⟨v, mem_entries_iff.mp hmem, hp⟩
  · rintro ⟨v, hv, hp⟩
    exact List.mem_map.mpr ⟨⟨k, v⟩, List.mem_filter.mpr ⟨mem_entries_iff.mpr hv, hp⟩, rfl⟩

/-- Two maps with the same keys selected have the same number of selected entries. -/
theorem countEntries_eq_of_keys {υ' : Type*} {p : κ → υ → Bool} {q : κ → υ' → Bool}
    {m : UnorderedMap κ υ} {m' : UnorderedMap κ υ'}
    (h : ∀ k, (∃ v, m.lookup k = some v ∧ p k v = true) ↔
      (∃ v', m'.lookup k = some v' ∧ q k v' = true)) :
    countEntries p m = countEntries q m' := by
  have hperm : (selectedKeys p m).Perm (selectedKeys q m') := by
    refine (List.perm_ext_iff_of_nodup (nodup_selectedKeys p m) (nodup_selectedKeys q m')).mpr ?_
    intro k
    rw [mem_selectedKeys, mem_selectedKeys]
    exact h k
  rw [← length_selectedKeys, ← length_selectedKeys, hperm.length_eq]

/-! ## In-place update -/

/-- `m[k]`: a missing key is first given the default value. -/
def subscript [Inhabited υ] (m : UnorderedMap κ υ) (k : κ) : UnorderedMap κ υ :=
  if k ∈ m then m else m.insert k default

theorem subscript_of_mem [Inhabited υ] {m : UnorderedMap κ υ} {k : κ} (h : k ∈ m) :
    subscript m k = m := by
  simp [subscript, h]

theorem lookup_subscript [Inhabited υ] (m : UnorderedMap κ υ) (k k' : κ) :
    (subscript m k).lookup k' = if k' = k then some ((m.lookup k).getD default) else m.lookup k' := by
  unfold subscript
  by_cases hk : k ∈ m
  · rcases exists_lookup hk with ⟨v, hv⟩
    by_cases h : k' = k
    · subst h
      simp [hk, hv]
    · simp [hk, h]
  · have hnone : m.lookup k = none := AList.lookup_eq_none.mpr hk
    simp [hk, lookup_insert_eq, hnone]

/-- Reading a key does not change what is read. -/
theorem getD_lookup_subscript [Inhabited υ] (m : UnorderedMap κ υ) (k k' : κ) :
    ((subscript m k).lookup k').getD default = (m.lookup k').getD default := by
  rw [lookup_subscript]
  split_ifs with h
  · rw [h]
    rfl
  · rfl

@[simp] theorem mem_subscript [Inhabited υ] {m : UnorderedMap κ υ} {k k' : κ} :
    k' ∈ subscript m k ↔ k' = k ∨ k' ∈ m := by
  rw [mem_iff_exists_lookup, lookup_subscript, mem_iff_exists_lookup]
  by_cases h : k' = k <;> simp [h]

/-- Apply `f` to the value at `k`, in place; nothing happens when `k` is missing. -/
def modify (m : UnorderedMap κ υ) (k : κ) (f : υ → υ) : UnorderedMap κ υ :=
  match m.lookup k with
  | none => m
  | some v => m.replace k (f v)

private theorem dlookup_kreplace_eq (k k' : κ) (v : υ) :
    ∀ l : List (Sigma fun _ : κ => υ),
      List.dlookup k' (List.kreplace k v l) =
        if k' = k then (List.dlookup k l).map (fun _ => v) else List.dlookup k' l
  | [] => by
      simp [List.kreplace]
  | ⟨a, b⟩ :: l => by
      have ih := dlookup_kreplace_eq k k' v l
      -- The replaced entry is the first of the list, or it is left as it is.
      by_cases hka : k = a
      · subst hka
        by_cases h : k' = k
        · subst h
          simp [List.kreplace, List.lookmap, List.lookmap.go]
        · simp [List.kreplace, List.lookmap, List.lookmap.go, h, List.dlookup_cons_ne]
      · have hcons : List.kreplace k v (⟨a, b⟩ :: l) = ⟨a, b⟩ :: List.kreplace k v l := by
          unfold List.kreplace
          rw [List.lookmap_cons_none]
          simp [hka]
        rw [hcons]
        by_cases h' : k' = a
        · subst h'
          have hne : k' ≠ k := fun h => hka h.symm
          simp [hne]
        · have hne : ∀ (k'' : κ) (l' : List (Sigma fun _ : κ => υ)), k'' ≠ a →
              List.dlookup k'' (⟨a, b⟩ :: l') = List.dlookup k'' l' :=
            fun k'' l' h => List.dlookup_cons_ne l' ⟨a, b⟩ h
          rw [hne k' _ h', hne k' _ h', hne k _ hka, ih]

theorem lookup_modify (m : UnorderedMap κ υ) (k k' : κ) (f : υ → υ) :
    (modify m k f).lookup k' = if k' = k then (m.lookup k).map f else m.lookup k' := by
  unfold modify
  cases hm : m.lookup k with
  | none =>
      by_cases h : k' = k
      · subst h
        simp [hm]
      · simp [h]
  | some v =>
      have hrep : (m.replace k (f v)).lookup k' =
          if k' = k then (m.lookup k).map (fun _ => f v) else m.lookup k' :=
        dlookup_kreplace_eq k k' (f v) m.entries
      simp only [hrep, hm, Option.map_some]

@[simp] theorem keys_modify (m : UnorderedMap κ υ) (k : κ) (f : υ → υ) :
    (modify m k f).keys = m.keys := by
  unfold modify
  cases m.lookup k with
  | none => rfl
  | some v => exact AList.keys_replace k (f v) m

@[simp] theorem mem_modify {m : UnorderedMap κ υ} {k k' : κ} {f : υ → υ} :
    k' ∈ modify m k f ↔ k' ∈ m := by
  rw [AList.mem_keys, keys_modify, ← AList.mem_keys]

theorem modify_insert_self (m : UnorderedMap κ υ) (k : κ) (v : υ) (f : υ → υ) :
    modify (m.insert k v) k f = m.insert k (f v) := by
  unfold modify
  rw [AList.lookup_insert]
  -- A new entry goes to the front, so replacing it does not change the order.
  apply AList.ext
  change List.kreplace k (f v) (m.insert k v).entries = (m.insert k (f v)).entries
  rw [AList.entries_insert, AList.entries_insert]
  simp [List.kreplace, List.lookmap, List.lookmap.go]

end UnorderedMap
