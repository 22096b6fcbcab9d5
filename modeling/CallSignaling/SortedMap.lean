/-!
# Finite maps held in key order

A `SortedMap` is a list of pairs whose keys strictly increase, so a key has at most one value
and listing a map gives its keys in order.

* `SortedMap.get?`, `SortedMap.insert`, `SortedMap.erase`: one key at a time.
* `SortedMap.union`: a second map written over the first.
* `SortedMap.get?_insert`, `SortedMap.get?_filter`: what a look-up sees after an insertion and after
  entries were dropped.
* `SortedMap.entries_of_get?`, `SortedMap.entries_insert`: the entries at a key and at all others.
* `SortedMap.entries_ofList_perm`, `SortedMap.ofList_entries`: the entries of the map of a list.
* `SortedMap.get?_union`: what a look-up sees when a map was written over another.
* `SortedMap.ext_get?`, `SortedMap.union_assoc`: maps with the same look-ups are the same, and so it
  does not matter in which order maps are combined that are written one over the other.
-/

namespace CallSignaling

/-- A finite map whose entries are listed by strictly increasing key. -/
@[ext]
structure SortedMap (κ α : Type) [LT κ] where
  /-- The pairs of the map, by increasing key. -/
  entries : List (κ × α)
  /-- The keys strictly increase. -/
  sorted : entries.Pairwise (fun a b => a.1 < b.1)

namespace SortedMap

variable {κ α β : Type} [LE κ] [LT κ] [DecidableLT κ] [Std.IsLinearOrder κ] [Std.LawfulOrderLT κ]

omit [LE κ] [DecidableLT κ] [Std.IsLinearOrder κ] [Std.LawfulOrderLT κ] in
instance [DecidableEq κ] [DecidableEq α] : DecidableEq (SortedMap κ α) := fun m n =>
  decidable_of_iff (m.entries = n.entries) SortedMap.ext_iff.symm

/-- The map without entries. -/
def empty : SortedMap κ α := ⟨[], .nil⟩

instance : EmptyCollection (SortedMap κ α) := ⟨empty⟩

instance : Inhabited (SortedMap κ α) := ⟨∅⟩

/-- The number of entries. -/
def size (m : SortedMap κ α) : Nat := m.entries.length

/-- Whether the map has no entries. -/
def isEmpty (m : SortedMap κ α) : Bool := m.entries.isEmpty

/-- The keys, in increasing order. -/
def keys (m : SortedMap κ α) : List κ := m.entries.map (·.1)

/-! ### Lists of pairs in key order -/

/-- The value at `k` in a list of pairs by increasing key. -/
def lookup (k : κ) : List (κ × α) → Option α
  | [] => none
  | (k', v) :: rest => if k < k' then none else if k' < k then lookup k rest else some v

/-- The list with `v` at `k`, in place of what was there. -/
def place (k : κ) (v : α) : List (κ × α) → List (κ × α)
  | [] => [(k, v)]
  | (k', v') :: rest =>
    if k < k' then (k, v) :: (k', v') :: rest
    else if k' < k then (k', v') :: place k v rest
    else (k, v) :: rest

omit [LE κ] [Std.IsLinearOrder κ] [Std.LawfulOrderLT κ] in
theorem mem_place {k : κ} {v : α} {p : κ × α} {l : List (κ × α)} (h : p ∈ place k v l) :
    p = (k, v) ∨ p ∈ l := by
  induction l with
  | nil => simpa [place] using h
  | cons q rest ih =>
    unfold place at h
    split at h
    · simpa using h
    · split at h
      · rcases List.mem_cons.1 h with rfl | h
        · simp
        · rcases ih h with h | h <;> simp [h]
      · rcases List.mem_cons.1 h with rfl | h <;> simp [*]

theorem place_sorted {k : κ} {v : α} {l : List (κ × α)}
    (h : l.Pairwise (fun a b => a.1 < b.1)) : (place k v l).Pairwise (fun a b => a.1 < b.1) := by
  induction l with
  | nil => simp [place]
  | cons q rest ih =>
    obtain ⟨k', v'⟩ := q
    have ⟨hq, hrest⟩ := List.pairwise_cons.1 h
    unfold place
    split
    · rename_i hlt
      refine List.pairwise_cons.2 ⟨fun p hp => ?_, h⟩
      rcases List.mem_cons.1 hp with rfl | hp
      · exact hlt
      · exact Std.lt_trans hlt (hq p hp)
    · split
      · rename_i hgt
        refine List.pairwise_cons.2 ⟨fun p hp => ?_, ih hrest⟩
        rcases mem_place hp with rfl | hp
        · exact hgt
        · exact hq p hp
      · rename_i h₁ h₂
        have hk : k = k' := by
          rcases Std.lt_trichotomy k k' with h | h | h
          · exact absurd h h₁
          · exact h
          · exact absurd h h₂
        subst hk
        exact List.pairwise_cons.2 ⟨hq, hrest⟩

theorem lookup_place (k j : κ) (v : α) (l : List (κ × α)) :
    lookup j (place k v l) =
      if k < j then lookup j l else if j < k then lookup j l else some v := by
  induction l with
  | nil => grind [lookup, place, Std.lt_irrefl, Std.lt_trans, Std.lt_trichotomy]
  | cons q rest ih =>
    obtain ⟨k', v'⟩ := q
    have tr := @Std.lt_trans κ _ _
    have tri := @Std.lt_trichotomy κ _ _
    grind [lookup, place, Std.lt_irrefl]

/-! ### Operations -/

/-- The value at `k`, if there is one. -/
def get? (m : SortedMap κ α) (k : κ) : Option α := lookup k m.entries

/-- Whether there is a value at `k`. -/
def contains (m : SortedMap κ α) (k : κ) : Bool := (m.get? k).isSome

/-- The map with `v` at `k`, in place of what was there. -/
def insert (m : SortedMap κ α) (k : κ) (v : α) : SortedMap κ α :=
  ⟨place k v m.entries, place_sorted m.sorted⟩

/-- The map without the entries that `keep` refuses. -/
def filter (m : SortedMap κ α) (keep : κ → α → Bool) : SortedMap κ α :=
  ⟨m.entries.filter fun p => keep p.1 p.2, m.sorted.filter _⟩

/-- The map with nothing at `k`. -/
def erase (m : SortedMap κ α) (k : κ) : SortedMap κ α :=
  m.filter fun j _ => decide (j < k) || decide (k < j)

/-- The map `n` written over the map `m`. -/
def union (m n : SortedMap κ α) : SortedMap κ α :=
  n.entries.foldl (fun acc p => acc.insert p.1 p.2) m

/-- The map of a list of pairs, in which a later pair replaces an earlier one with its key. -/
def ofList (l : List (κ × α)) : SortedMap κ α :=
  l.foldl (fun acc p => acc.insert p.1 p.2) ∅

/-- Every value passed through `f`. -/
def mapValues (f : α → β) (m : SortedMap κ α) : SortedMap κ β :=
  ⟨m.entries.map fun p => (p.1, f p.2), m.sorted.map _ fun _ _ h => h⟩

/-! ### Look-ups -/

omit [LE κ] [Std.IsLinearOrder κ] [Std.LawfulOrderLT κ] in
@[simp] theorem get?_empty (k : κ) : (∅ : SortedMap κ α).get? k = none := rfl

theorem get?_insert (m : SortedMap κ α) (k j : κ) (v : α) :
    (m.insert k v).get? j = if k < j then m.get? j else if j < k then m.get? j else some v :=
  lookup_place k j v m.entries

@[simp] theorem get?_insert_self (m : SortedMap κ α) (k : κ) (v : α) :
    (m.insert k v).get? k = some v := by
  simp [get?_insert, Std.lt_irrefl]

theorem get?_insert_of_ne (m : SortedMap κ α) {k j : κ} (v : α) (h : j ≠ k) :
    (m.insert k v).get? j = m.get? j := by
  rw [get?_insert]
  rcases Std.lt_trichotomy k j with h' | h' | h'
  · simp [h']
  · exact absurd h'.symm h
  · split <;> simp_all

/-! ### Entries and look-ups -/

theorem lookup_eq_some_iff {k : κ} {v : α} {l : List (κ × α)}
    (h : l.Pairwise (fun a b => a.1 < b.1)) : lookup k l = some v ↔ (k, v) ∈ l := by
  induction l with
  | nil => simp [lookup]
  | cons q rest ih =>
    obtain ⟨k', v'⟩ := q
    have ⟨hq, hrest⟩ := List.pairwise_cons.1 h
    rw [lookup, List.mem_cons, Prod.mk.injEq]
    rcases Std.lt_trichotomy k k' with hlt | rfl | hgt
    · have hne : k ≠ k' := fun he => Std.lt_irrefl (he ▸ hlt)
      have hmem : (k, v) ∉ rest := fun hm => Std.lt_irrefl (Std.lt_trans hlt (hq _ hm))
      simp [hlt, hne, hmem]
    · have hmem : (k, v) ∉ rest := fun hm => Std.lt_irrefl (hq (k, v) hm)
      simp [Std.lt_irrefl, hmem, eq_comm]
    · have hne : k ≠ k' := fun he => Std.lt_irrefl (he ▸ hgt)
      have hnlt : ¬ k < k' := fun hlt => Std.lt_irrefl (Std.lt_trans hlt hgt)
      simp [hgt, hne, hnlt, ih hrest]

theorem get?_eq_some_iff {m : SortedMap κ α} {k : κ} {v : α} :
    m.get? k = some v ↔ (k, v) ∈ m.entries :=
  lookup_eq_some_iff m.sorted

omit [DecidableLT κ] [Std.IsLinearOrder κ] in
theorem nodup_keys (m : SortedMap κ α) : m.keys.Nodup := by
  refine List.pairwise_map.2 (m.sorted.imp fun hlt heq => ?_)
  exact Std.lt_irrefl (heq ▸ hlt)

theorem get?_filter (m : SortedMap κ α) (keep : κ → α → Bool) (k : κ) :
    (m.filter keep).get? k = (m.get? k).filter (keep k) := by
  apply Option.ext
  intro v
  rw [get?_eq_some_iff, Option.filter_eq_some_iff, get?_eq_some_iff]
  simp [filter]

theorem filter_erase {m : SortedMap κ α} {keep : κ → α → Bool} {k : κ} {v : α}
    (h : m.get? k = some v) (hkeep : keep k v = false) :
    (m.erase k).filter keep = m.filter keep := by
  ext1
  simp only [erase, filter, List.filter_filter]
  refine List.filter_congr fun p hp => ?_
  rcases Std.lt_trichotomy p.1 k with hlt | heq | hgt
  · simp [hlt]
  · have hp' : m.get? k = some p.2 := get?_eq_some_iff.2 (heq ▸ hp)
    rw [h] at hp'
    cases hp'
    simp [heq, hkeep]
  · simp [hgt]

theorem size_filter_lt {m : SortedMap κ α} {keep : κ → α → Bool} {k : κ} {v : α}
    (h : m.get? k = some v) (hkeep : keep k v = false) : (m.filter keep).size < m.size := by
  have hmem := get?_eq_some_iff.1 h
  exact List.length_filter_lt_length_iff_exists.2 ⟨(k, v), hmem, by simp [hkeep]⟩

omit [LE κ] [DecidableLT κ] [Std.IsLinearOrder κ] [Std.LawfulOrderLT κ] in
theorem isEmpty_iff {m : SortedMap κ α} : m.isEmpty = true ↔ m = ∅ := by
  rw [SortedMap.ext_iff]
  exact List.isEmpty_iff

theorem eq_empty_iff {m : SortedMap κ α} : m = ∅ ↔ ∀ k, m.get? k = none := by
  constructor
  · rintro rfl k
    rfl
  · intro h
    ext1
    refine List.eq_nil_iff_forall_not_mem.2 fun p hp => ?_
    have := get?_eq_some_iff.2 hp
    simp [h p.1] at this

/-! ### Without a key -/

@[simp] theorem get?_erase_self (m : SortedMap κ α) (k : κ) : (m.erase k).get? k = none := by
  rw [erase, get?_filter]
  cases m.get? k with
  | none => rfl
  | some v => simp [Std.lt_irrefl]

theorem get?_erase_of_ne (m : SortedMap κ α) {k j : κ} (h : j ≠ k) :
    (m.erase k).get? j = m.get? j := by
  rw [erase, get?_filter]
  cases m.get? j with
  | none => rfl
  | some v =>
    rcases Std.lt_trichotomy j k with hlt | heq | hgt
    · simp [hlt]
    · exact absurd heq h
    · simp [hgt]

omit [DecidableLT κ] [Std.IsLinearOrder κ] in
theorem nodup_entries (m : SortedMap κ α) : m.entries.Nodup :=
  (List.pairwise_map.1 m.nodup_keys).imp fun hne heq => hne (congrArg Prod.fst heq)

/-- A map that has `v` at `k` and otherwise agrees with `m` has one entry more than `m` without
`k`. -/
theorem entries_perm_cons {m n : SortedMap κ α} {k : κ} {v : α} (hk : n.get? k = some v)
    (h : ∀ j, j ≠ k → n.get? j = m.get? j) : n.entries.Perm ((k, v) :: (m.erase k).entries) := by
  have hnot : (k, v) ∉ (m.erase k).entries := fun hmem => by
    have hget := get?_eq_some_iff.2 hmem
    rw [get?_erase_self] at hget
    cases hget
  refine (List.perm_ext_iff_of_nodup n.nodup_entries
    (List.nodup_cons.2 ⟨hnot, (m.erase k).nodup_entries⟩)).2 fun p => ?_
  rw [List.mem_cons, ← get?_eq_some_iff, ← get?_eq_some_iff]
  by_cases hp : p.1 = k
  · rw [hp, hk, get?_erase_self]
    constructor
    · intro hv
      exact .inl (Prod.ext hp (Option.some.inj hv).symm)
    · rintro (rfl | hnone)
      · rfl
      · cases hnone
  · have hne : p ≠ (k, v) := fun heq => hp (congrArg Prod.fst heq)
    rw [h p.1 hp, get?_erase_of_ne m hp]
    simp [hne]

theorem entries_insert (m : SortedMap κ α) (k : κ) (v : α) :
    (m.insert k v).entries.Perm ((k, v) :: (m.erase k).entries) :=
  entries_perm_cons (get?_insert_self m k v) fun _ => get?_insert_of_ne m v

theorem entries_of_get? {m : SortedMap κ α} {k : κ} {v : α} (h : m.get? k = some v) :
    m.entries.Perm ((k, v) :: (m.erase k).entries) :=
  entries_perm_cons h fun _ _ => rfl

theorem erase_of_get? {m : SortedMap κ α} {k : κ} (h : m.get? k = none) : m.erase k = m := by
  ext1
  refine List.filter_eq_self.2 fun p hp => ?_
  rcases Std.lt_trichotomy p.1 k with hlt | heq | hgt
  · simp [hlt]
  · have hget := get?_eq_some_iff.2 hp
    rw [heq, h] at hget
    cases hget
  · simp [hgt]

omit [DecidableLT κ] in
/-- Maps with the same entries in any order are the same. -/
theorem eq_of_entries_perm {m n : SortedMap κ α} (h : m.entries.Perm n.entries) : m = n := by
  ext1
  refine h.eq_of_pairwise (fun a b _ _ hab hba => ?_) m.sorted n.sorted
  exact absurd (Std.lt_trans hab hba) Std.lt_irrefl

/-- A map is determined by its look-ups. -/
theorem ext_get? {m n : SortedMap κ α} (h : ∀ k, m.get? k = n.get? k) : m = n := by
  refine eq_of_entries_perm ?_
  refine (List.perm_ext_iff_of_nodup m.nodup_entries n.nodup_entries).2 fun p => ?_
  rw [← get?_eq_some_iff, ← get?_eq_some_iff, h]

/-! ### Entries of a list -/

theorem entries_foldl_insert {l : List (κ × α)} {m : SortedMap κ α} (h : (l.map Prod.fst).Nodup)
    (hm : ∀ p ∈ l, m.get? p.1 = none) :
    (l.foldl (fun acc p => acc.insert p.1 p.2) m).entries.Perm (l ++ m.entries) := by
  induction l generalizing m with
  | nil => exact .refl _
  | cons p l ih =>
    have ⟨hp, hl⟩ := List.nodup_cons.1 h
    have hnone := hm p List.mem_cons_self
    have hrest : ∀ q ∈ l, (m.insert p.1 p.2).get? q.1 = none := by
      intro q hq
      have hne : q.1 ≠ p.1 := fun heq => hp (heq ▸ List.mem_map_of_mem hq)
      rw [get?_insert_of_ne m p.2 hne]
      exact hm q (List.mem_cons_of_mem p hq)
    have hinsert : (m.insert p.1 p.2).entries.Perm (p :: m.entries) := by
      have hperm := entries_insert m p.1 p.2
      rwa [erase_of_get? hnone] at hperm
    exact (ih hl hrest).trans ((hinsert.append_left l).trans List.perm_middle)

/-- Without repeated keys the map of a list has the pairs of the list. -/
theorem entries_ofList_perm {l : List (κ × α)} (h : (l.map Prod.fst).Nodup) :
    (ofList l).entries.Perm l := by
  have hperm := entries_foldl_insert (m := ∅) h fun p _ => get?_empty p.1
  rwa [show (∅ : SortedMap κ α).entries = [] from rfl, List.append_nil] at hperm

theorem ofList_entries (m : SortedMap κ α) : ofList m.entries = m :=
  eq_of_entries_perm (entries_ofList_perm m.nodup_keys)

/-- A list with the keys of its map in their order is that of the entries. -/
theorem eq_entries_of_ofList {l : List (κ × α)} {m : SortedMap κ α} (h : ofList l = m)
    (hkeys : l.map Prod.fst = m.keys) : l = m.entries := by
  have hm : (l.map Prod.fst).Pairwise (· < ·) := by
    rw [hkeys, keys]
    exact List.pairwise_map.2 m.sorted
  have hl : ofList l = ⟨l, List.pairwise_map.1 hm⟩ := ofList_entries ⟨l, _⟩
  rw [← h, hl]

theorem mem_foldl_insert {l : List (κ × α)}
    {m : SortedMap κ α} {p : κ × α}
    (h : p ∈ (l.foldl (fun acc p => acc.insert p.1 p.2) m).entries) : p ∈ l ∨ p ∈ m.entries := by
  induction l generalizing m with
  | nil => exact .inr h
  | cons q l ih =>
    rcases ih h with hl | hm
    · exact .inl (List.mem_cons_of_mem q hl)
    · rcases mem_place hm with rfl | hm
      · exact .inl List.mem_cons_self
      · exact .inr hm

theorem mem_of_mem_ofList {l : List (κ × α)} {p : κ × α} (h : p ∈ (ofList l).entries) : p ∈ l :=
  (mem_foldl_insert h).resolve_right List.not_mem_nil

/-! ### One map over another -/

theorem mem_union {m n : SortedMap κ α} {p : κ × α} (h : p ∈ (m.union n).entries) :
    p ∈ n.entries ∨ p ∈ m.entries :=
  mem_foldl_insert h

theorem get?_foldl_insert {l : List (κ × α)} (h : l.Pairwise (fun a b => a.1 < b.1))
    (m : SortedMap κ α) (k : κ) :
    (l.foldl (fun acc p => acc.insert p.1 p.2) m).get? k = (lookup k l).or (m.get? k) := by
  induction l generalizing m with
  | nil => rfl
  | cons q l ih =>
    obtain ⟨j, v⟩ := q
    have ⟨hq, hl⟩ := List.pairwise_cons.1 h
    rw [List.foldl_cons, ih hl, get?_insert, lookup]
    rcases Std.lt_trichotomy k j with hlt | rfl | hgt
    · have hnlt : ¬ j < k := fun hgt => Std.lt_irrefl (Std.lt_trans hlt hgt)
      have hnone : lookup k l = none := Option.eq_none_iff_forall_ne_some.2 fun w hw =>
        Std.lt_irrefl (Std.lt_trans hlt (hq (k, w) ((lookup_eq_some_iff hl).1 hw)))
      simp [hlt, hnlt, hnone]
    · have hnone : lookup k l = none := Option.eq_none_iff_forall_ne_some.2 fun w hw =>
        Std.lt_irrefl (hq (k, w) ((lookup_eq_some_iff hl).1 hw))
      simp [Std.lt_irrefl, hnone]
    · have hnlt : ¬ k < j := fun hlt => Std.lt_irrefl (Std.lt_trans hlt hgt)
      simp [hgt, hnlt]

/-- The map written last decides. -/
theorem get?_union (m n : SortedMap κ α) (k : κ) :
    (m.union n).get? k = (n.get? k).or (m.get? k) :=
  get?_foldl_insert n.sorted m k

theorem empty_union (m : SortedMap κ α) : (∅ : SortedMap κ α).union m = m := by
  refine ext_get? fun k => ?_
  rw [get?_union, get?_empty, Option.or_none]

theorem union_assoc (l m n : SortedMap κ α) : (l.union m).union n = l.union (m.union n) := by
  refine ext_get? fun k => ?_
  simp only [get?_union, Option.or_assoc]

end SortedMap

end CallSignaling
