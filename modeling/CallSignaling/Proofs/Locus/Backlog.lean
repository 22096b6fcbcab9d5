import CallSignaling.Proofs.Locus.Chain

/-!
# Changes that have their turn

A replica applies the changes that wait as long as one of them starts where the working copy is.

* `Locus.Backlog`: changes that wait, by base position.
* `Locus.Backlog.beyond`: what leads beyond a position.
* `Locus.Backlog.takeTurns`: the changes that have their turn one after another from a position on,
  and what still waits after them, with a bound on the number of turns.
* `Locus.Backlog.Drains`: the same as a relation without a bound.

As many turns as there are changes that wait are enough (`drains_takeTurns`).  If every change waits
under its own base position and leads beyond where the turns start, then the changes that have their
turn form a chain (`Drains.chain`), and what is left leads beyond its end (`Drains.ahead`).
-/

namespace CallSignaling.Locus

/-- The changes that wait, by base position. -/
abbrev Backlog := SortedMap UInt64 Delta

namespace Backlog

/-- What leads beyond position `p`. -/
def beyond (p : UInt64) (w : Backlog) : Backlog := w.filter fun _ d => p < d.target

/-- The changes that have their turn from position `p` on, at most `n` of them, and what still waits
after them. -/
def takeTurns : Nat → UInt64 → Backlog → List Delta × Backlog
  | 0, _, w => ([], w)
  | n + 1, p, w =>
    match w.get? p with
    | none => ([], w)
    | some d =>
      let (ds, rest) := takeTurns n d.target (beyond d.target w)
      (d :: ds, rest)

/-- From position `p` on the changes `ds` have their turn, and then none of those that still wait
has. -/
inductive Drains : UInt64 → Backlog → List Delta → Backlog → Prop
  | rest {p : UInt64} {w : Backlog} (h : w.get? p = none) : Drains p w [] w
  | turn {p : UInt64} {w rest : Backlog} {d : Delta} {ds : List Delta} (h : w.get? p = some d)
      (hrest : Drains d.target (beyond d.target w) ds rest) : Drains p w (d :: ds) rest

theorem get?_beyond_eq_some {p b : UInt64} {w : Backlog} {d : Delta} :
    (beyond p w).get? b = some d ↔ w.get? b = some d ∧ p < d.target := by
  rw [beyond, SortedMap.get?_filter, Option.filter_eq_some_iff, decide_eq_true_iff]

theorem get?_beyond_of_none {p b : UInt64} {w : Backlog} (h : w.get? b = none) :
    (beyond p w).get? b = none := by
  rw [beyond, SortedMap.get?_filter, h, Option.filter_none]

theorem size_beyond_lt {p : UInt64} {w : Backlog} {d : Delta} (h : w.get? p = some d) :
    (beyond d.target w).size < w.size :=
  SortedMap.size_filter_lt h (by simp)

theorem beyond_beyond (p : UInt64) (w : Backlog) : beyond p (beyond p w) = beyond p w := by
  ext1
  simp [beyond, SortedMap.filter, List.filter_filter]

/-- As many turns as there are changes that wait are enough. -/
theorem drains_takeTurns {n : Nat} {p : UInt64} {w : Backlog} (hn : w.size ≤ n) :
    Drains p w (takeTurns n p w).1 (takeTurns n p w).2 := by
  -- a turn leaves fewer changes that wait, so that the bound with one turn less is enough for them
  induction n generalizing p w with
  | zero =>
    refine .rest ?_
    have hw : w = ∅ := SortedMap.ext (List.length_eq_zero_iff.1 (Nat.le_zero.1 hn))
    rw [hw, SortedMap.get?_empty]
  | succ n ih =>
    rw [takeTurns]
    split
    · rename_i h
      exact .rest h
    · rename_i d h
      have hlt := size_beyond_lt h
      exact .turn h (ih (by omega))

/-- The changes that have their turn from position `p` on. -/
def turns (p : UInt64) (w : Backlog) : List Delta := (takeTurns w.size p w).1

/-- What still waits after the changes that have their turn from position `p` on. -/
def left (p : UInt64) (w : Backlog) : Backlog := (takeTurns w.size p w).2

theorem drains_turns (p : UInt64) (w : Backlog) : Drains p w (turns p w) (left p w) :=
  drains_takeTurns (Nat.le_refl _)

theorem Drains.unique {p : UInt64} {w rest rest' : Backlog} {ds ds' : List Delta}
    (h : Drains p w ds rest) (h' : Drains p w ds' rest') : ds = ds' ∧ rest = rest' := by
  -- what waits at the position decides which of the two rules applies
  induction h generalizing ds' with
  | rest hn =>
    cases h' with
    | rest => exact ⟨rfl, rfl⟩
    | turn hs => rw [hn] at hs; cases hs
  | turn hs _ ih =>
    cases h' with
    | rest hn => rw [hn] at hs; cases hs
    | turn hs' hrest' =>
      rw [hs] at hs'
      cases hs'
      obtain ⟨rfl, rfl⟩ := ih hrest'
      exact ⟨rfl, rfl⟩

theorem turns_of_none {p : UInt64} {w : Backlog} (h : w.get? p = none) : turns p w = [] :=
  ((drains_turns p w).unique (.rest h)).1

theorem turns_of_some {p : UInt64} {w : Backlog} {d : Delta} (h : w.get? p = some d) :
    turns p w = d :: turns d.target (beyond d.target w) :=
  ((drains_turns p w).unique (.turn h (drains_turns _ _))).1

/-- The change that has its turn does not lead beyond where it ends. -/
theorem beyond_erase {p : UInt64} {w : Backlog} {d : Delta} (h : w.get? p = some d) :
    beyond d.target (w.erase p) = beyond d.target w :=
  SortedMap.filter_erase h (by simp)

/-! ### Backlogs in order -/

/-- Every change waits under its own base position. -/
def Keyed (w : Backlog) : Prop := ∀ b d, w.get? b = some d → d.base = b

/-- Every change leads beyond `p`. -/
def Ahead (p : UInt64) (w : Backlog) : Prop := ∀ b d, w.get? b = some d → p < d.target

theorem keyed_beyond {w : Backlog} (p : UInt64) (h : Keyed w) : Keyed (beyond p w) :=
  fun b d hd => h b d (get?_beyond_eq_some.1 hd).1

theorem ahead_beyond (p : UInt64) (w : Backlog) : Ahead p (beyond p w) :=
  fun _ _ hd => (get?_beyond_eq_some.1 hd).2

theorem keyed_insert {w : Backlog} {d : Delta} (h : Keyed w) : Keyed (w.insert d.base d) := by
  intro b e he
  by_cases hb : b = d.base
  · rw [hb, SortedMap.get?_insert_self] at he
    cases he
    exact hb.symm
  · rw [SortedMap.get?_insert_of_ne _ _ hb] at he
    exact h b e he

theorem ahead_insert {p : UInt64} {w : Backlog} {d : Delta} (h : Ahead p w) (hd : p < d.target) :
    Ahead p (w.insert d.base d) := by
  intro b e he
  by_cases hb : b = d.base
  · rw [hb, SortedMap.get?_insert_self] at he
    cases he
    exact hd
  · rw [SortedMap.get?_insert_of_ne _ _ hb] at he
    exact h b e he

section Drains

variable {p : UInt64} {w rest : Backlog} {ds : List Delta}

/-- What is left has waited before. -/
theorem Drains.get?_rest (h : Drains p w ds rest) {b : UInt64} {d : Delta}
    (hd : rest.get? b = some d) : w.get? b = some d := by
  induction h with
  | rest => exact hd
  | turn _ _ ih => exact (get?_beyond_eq_some.1 (ih hd)).1

/-- Nothing that is left has its turn. -/
theorem Drains.get?_stop (h : Drains p w ds rest) : rest.get? (Delta.stop p ds) = none := by
  induction h with
  | rest hn => exact hn
  | turn _ _ ih => exact ih

theorem Drains.ahead (h : Drains p w ds rest) (ha : Ahead p w) :
    Ahead (Delta.stop p ds) rest := by
  induction h with
  | rest => exact ha
  | turn _ _ ih => exact ih (ahead_beyond _ _)

/-- The changes that have their turn lead upwards without a gap. -/
theorem Drains.chain (h : Drains p w ds rest) (hk : Keyed w) (ha : Ahead p w) :
    Delta.Chain p ds := by
  induction h with
  | rest => exact Delta.chain_nil _
  | turn hd _ ih =>
    exact ⟨hk _ _ hd, ha _ _ hd, ih (keyed_beyond _ hk) (ahead_beyond _ _)⟩

end Drains

end Backlog

end CallSignaling.Locus
