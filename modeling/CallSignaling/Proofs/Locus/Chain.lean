import CallSignaling.Locus.Snapshot

/-!
# Chains of changes

* `Locus.Delta.Chain p ds`: the changes `ds` lead upwards from position `p` without a gap, each of
  them starting where the one before it ends.
* `Locus.Delta.stop p ds`: the position after `ds`, from `p` on.
* `Locus.Snapshot.trail s ds`: the copies that `s` becomes, one for each of the changes `ds`.

In a chain the base position determines the change (`Chain.eq_of_base`), and the target positions
increase strictly (`Chain.pairwise_target`).
-/

namespace CallSignaling.Locus

namespace Delta

/-- The changes lead upwards from `p`, each from where the one before it ends. -/
def Chain : UInt64 → List Delta → Prop
  | _, [] => True
  | p, d :: ds => d.base = p ∧ p < d.target ∧ Chain d.target ds

/-- The position after `ds`, from `p` on. -/
def stop (p : UInt64) : List Delta → UInt64
  | [] => p
  | d :: ds => stop d.target ds

@[simp] theorem chain_nil (p : UInt64) : Chain p [] := trivial

theorem chain_cons {p : UInt64} {d : Delta} {ds : List Delta} :
    Chain p (d :: ds) ↔ d.base = p ∧ p < d.target ∧ Chain d.target ds := Iff.rfl

@[simp] theorem stop_nil (p : UInt64) : stop p [] = p := rfl

@[simp] theorem stop_cons (p : UInt64) (d : Delta) (ds : List Delta) :
    stop p (d :: ds) = stop d.target ds := rfl

theorem chain_append {p : UInt64} {xs ys : List Delta} :
    Chain p (xs ++ ys) ↔ Chain p xs ∧ Chain (stop p xs) ys := by
  induction xs generalizing p with
  | nil => simp
  | cons d xs ih => simp only [List.cons_append, chain_cons, stop_cons, ih, and_assoc]

theorem stop_append (p : UInt64) (xs ys : List Delta) :
    stop p (xs ++ ys) = stop (stop p xs) ys := by
  induction xs generalizing p with
  | nil => rfl
  | cons d xs ih => exact ih d.target

section Chain

variable {p : UInt64} {ds : List Delta} {d e : Delta}

theorem Chain.le_stop (h : Chain p ds) : p ≤ stop p ds := by
  induction ds generalizing p with
  | nil => exact UInt64.le_refl p
  | cons d ds ih => exact UInt64.le_trans (UInt64.le_of_lt h.2.1) (ih h.2.2)

theorem Chain.lt_target (h : Chain p ds) (hd : d ∈ ds) : p < d.target := by
  induction ds generalizing p with
  | nil => cases hd
  | cons e ds ih =>
    rcases List.mem_cons.1 hd with rfl | hd
    · exact h.2.1
    · exact UInt64.lt_trans h.2.1 (ih h.2.2 hd)

theorem Chain.target_le_stop (h : Chain p ds) (hd : d ∈ ds) : d.target ≤ stop p ds := by
  induction ds generalizing p with
  | nil => cases hd
  | cons e ds ih =>
    rcases List.mem_cons.1 hd with rfl | hd
    · exact h.2.2.le_stop
    · exact ih h.2.2 hd

theorem Chain.le_base (h : Chain p ds) (hd : d ∈ ds) : p ≤ d.base := by
  induction ds generalizing p with
  | nil => cases hd
  | cons e ds ih =>
    rcases List.mem_cons.1 hd with rfl | hd
    · exact UInt64.le_of_eq h.1.symm
    · exact UInt64.le_trans (UInt64.le_of_lt h.2.1) (ih h.2.2 hd)

/-- A change of a chain is in its later part or leads no further than the earlier one. -/
theorem Chain.mem_or_le {front rest : List Delta} (h : Chain p (front ++ rest))
    (hd : d ∈ front ++ rest) : d ∈ rest ∨ d.target ≤ stop p front := by
  rcases List.mem_append.1 hd with hd | hd
  · exact .inr ((chain_append.1 h).1.target_le_stop hd)
  · exact .inl hd

/-- The target positions of a chain increase strictly. -/
theorem Chain.pairwise_target (h : Chain p ds) :
    ds.Pairwise (fun d e => d.target < e.target) := by
  induction ds generalizing p with
  | nil => exact .nil
  | cons d ds ih => exact List.pairwise_cons.2 ⟨fun e he => h.2.2.lt_target he, ih h.2.2⟩

/-- The change of a chain that starts where the chain does is its first one. -/
theorem Chain.eq_head (h : Chain p (e :: ds)) (hd : d ∈ e :: ds) (hp : d.base = p) : d = e := by
  rcases List.mem_cons.1 hd with rfl | hd
  · rfl
  · have hle := h.2.2.le_base hd
    exact absurd (hp ▸ hle) (UInt64.not_le.2 h.2.1)

/-- The base position determines the change of a chain. -/
theorem Chain.eq_of_base (h : Chain p ds) (hd : d ∈ ds) (he : e ∈ ds) (hb : d.base = e.base) :
    d = e := by
  induction ds generalizing p with
  | nil => cases hd
  | cons f ds ih =>
    by_cases hp : d.base = p
    · rw [h.eq_head hd hp, h.eq_head he (hb ▸ hp)]
    · have hf : f.base = p := h.1
      rcases List.mem_cons.1 hd with rfl | hd
      · exact absurd hf hp
      rcases List.mem_cons.1 he with rfl | he
      · exact absurd (hb.trans hf) hp
      exact ih h.2.2 hd he

end Chain

end Delta

namespace Snapshot

@[simp] theorem position_apply (s : Snapshot) (d : Delta) : (s.apply d).position = d.target := rfl

@[simp] theorem position_merge (s part : Snapshot) : (s.merge part).position = part.position := rfl

/-- The copies that `s` becomes, one for each change. -/
def trail (s : Snapshot) : List Delta → List Snapshot
  | [] => []
  | d :: ds => s.apply d :: (s.apply d).trail ds

theorem trail_append (s : Snapshot) (xs ys : List Delta) :
    s.trail (xs ++ ys) = s.trail xs ++ (xs.foldl apply s).trail ys := by
  induction xs generalizing s with
  | nil => rfl
  | cons d xs ih => simp [trail, ih]

theorem scanl_apply (s : Snapshot) (ds : List Delta) :
    ds.scanl apply s = s :: s.trail ds := by
  induction ds generalizing s with
  | nil => rfl
  | cons d ds ih => rw [List.scanl_cons, ih, trail]

theorem position_foldl_apply (s : Snapshot) (ds : List Delta) :
    (ds.foldl apply s).position = Delta.stop s.position ds := by
  induction ds generalizing s with
  | nil => rfl
  | cons d ds ih => rw [List.foldl_cons, ih, Delta.stop_cons, position_apply]

end Snapshot

end CallSignaling.Locus
