import CallSignaling.Proofs.Locus.Course
import Mathlib.Data.List.Induction

/-!
# Changes one by one and at once

Changes reach a working copy one by one, or at once as the partial copy that a fetch brings.

* `Locus.Delta.part`: a change as a partial copy.
* `Locus.Delta.batch`: changes as one partial copy.

A change is written over a copy as a partial copy is (`apply_eq_merge`), and it does not matter in
which order partial copies are put together (`merge_assoc`), so that both ways lead to the same copy
and leave the replica in the same state (`batch_agrees`).
-/

namespace CallSignaling.Locus

/-! ### Copies over copies -/

namespace Delta

/-- The change as a partial copy. -/
def part (d : Delta) : Snapshot :=
  { sequence := d.sequence, syncUrl := d.syncUrl, state := d.payload }

/-- The changes as one partial copy: without an address of its own, at the position of the last
change, with the `syncUrl` that is named last and the fields of all changes, of which a later one
replaces an earlier one. -/
def batch (ds : List Delta) (h : ds ≠ []) : Snapshot :=
  { url := ""
    sequence := (ds.getLast h).sequence
    syncUrl := (ds.filterMap (·.syncUrl)).getLast?
    state := ds.foldl (fun fields d => fields.union d.payload) ∅ }

end Delta

namespace Snapshot

theorem apply_eq_merge (s : Snapshot) (d : Delta) : s.apply d = s.merge d.part := rfl

/-- It does not matter in which order partial copies are put together: of the addresses, the last one
that is there stays. -/
theorem merge_assoc (s p q : Snapshot) : (s.merge p).merge q = s.merge (p.merge q) := by
  have hurl : (if q.url.isEmpty then if p.url.isEmpty then s.url else p.url else q.url) =
      if (if q.url.isEmpty then p.url else q.url).isEmpty then s.url
      else if q.url.isEmpty then p.url else q.url := by
    by_cases hq : q.url.isEmpty <;> simp [hq]
  simp only [merge, mk.injEq]
  exact ⟨hurl, trivial, Option.or_assoc.symm, SortedMap.union_assoc _ _ _⟩

end Snapshot

/-! ### Batches -/

namespace Delta

/-- The last value among changes is that of the change at the end, if it has one. -/
theorem getLast?_filterMap_concat {α : Type} (f : Delta → Option α) (ds : List Delta) (d : Delta) :
    ((ds ++ [d]).filterMap f).getLast? = (f d).or (ds.filterMap f).getLast? := by
  rw [List.filterMap_append, List.getLast?_append]
  cases h : f d <;> simp [h]

theorem batch_singleton (d : Delta) : batch [d] (List.cons_ne_nil d []) = d.part := by
  have hsyncUrl : ([d].filterMap (·.syncUrl)).getLast? = d.syncUrl :=
    (getLast?_filterMap_concat (·.syncUrl) [] d).trans (Option.or_none)
  rw [batch, part, hsyncUrl]
  exact congrArg (Snapshot.mk _ _ _) (SortedMap.empty_union d.payload)

/-- A change that follows is merged into the batch. -/
theorem batch_concat {ds : List Delta} (h : ds ≠ []) (d : Delta) :
    batch (ds ++ [d]) (List.append_ne_nil_of_left_ne_nil h [d]) = (batch ds h).merge d.part := by
  rw [batch, getLast?_filterMap_concat, List.getLast_concat, List.foldl_append]
  rfl

/-- The last change that has a field decides about it. -/
theorem get?_batch {ds : List Delta} (h : ds ≠ []) (k : String) :
    (batch ds h).state.get? k = (ds.filterMap (·.payload.get? k)).getLast? := by
  induction ds using List.reverseRecOn with
  | nil => exact absurd rfl h
  | append_singleton ds d ih =>
    rw [getLast?_filterMap_concat]
    by_cases hds : ds = []
    · subst hds
      exact (congrArg (·.state.get? k) (batch_singleton d)).trans Option.or_none.symm
    · rw [batch_concat hds, ← ih hds]
      exact SortedMap.get?_union _ _ k

end Delta

/-- Changes that are written one by one are written at once by their batch. -/
theorem Snapshot.foldl_apply {ds : List Delta} (h : ds ≠ []) (s : Snapshot) :
    ds.foldl apply s = s.merge (Delta.batch ds h) := by
  induction ds using List.reverseRecOn with
  | nil => exact absurd rfl h
  | append_singleton ds d ih =>
    rw [List.foldl_append, List.foldl_cons, List.foldl_nil]
    by_cases hds : ds = []
    · subst hds
      rw [List.foldl_nil, apply_eq_merge, ← Delta.batch_singleton]
      rfl
    · rw [ih hds, apply_eq_merge, merge_assoc, Delta.batch_concat hds]

namespace Replica

/-- Applying changes one by one changes the working copy alone. -/
theorem runAll_applyDelta {r : Replica} {copy : Snapshot} (hc : r.workingCopy = some copy)
    (ds : List Delta) :
    (Outcome.runAll applyDelta ds r).state =
      { r with workingCopy := some (ds.foldl Snapshot.apply copy) } := by
  induction ds generalizing r copy with
  | nil =>
    show r = _
    rw [List.foldl_nil, ← hc]
  | cons d ds ih =>
    rw [Outcome.runAll, Outcome.andThen_state, applyDelta_state d hc, ih rfl]
    rfl

/-- The reply with a partial copy leads to where the replica would be with that copy taken and what
has its turn applied. -/
theorem step_partial (draw : Nat) (body : Snapshot) {r : Replica} {copy : Snapshot}
    (hf : r.syncInFlight = some .delta) (hc : r.workingCopy = some copy) :
    (SyncEffect.copies (r.step draw (.syncResult .delta (.ok (some body)))).effects).head? =
        some (copy.merge body) ∧
      (r.step draw (.syncResult .delta (.ok (some body)))).state =
        (settle draw { r with
          syncInFlight := none, workingCopy := some (copy.merge body) }).state := by
  have hcourse := course_step draw (.syncResult .delta (.ok (some body))) r
  generalize r.step draw (.syncResult .delta (.ok (some body))) = o at hcourse
  have hadopt : (r.adopt .delta body).workingCopy = some (copy.merge body) := by
    simp only [adopt, hc]
  cases hcourse with
  | unexpected hne => exact absurd hf hne
  | fetched _ hcopy _ ho =>
    obtain rfl := Option.some.inj (hadopt.symm.trans hcopy)
    rw [ho.copies, ho.state, (moves_settle draw rfl).state]
    exact ⟨rfl, rfl⟩

end Replica

/-- **Changes one by one and at once come to the same**: a copy with changes applied in turn is the
copy with their batch merged into it, in which the last change that has a field decides about it;
and partial copies may be merged with one another first.  Hence a replica that fetches what changed
and gets the batch publishes the copy with all these changes, and then is in the state in which it
would be had it applied them one by one. -/
theorem batch_agrees :
    (∀ (s : Snapshot) (ds : List Delta) (h : ds ≠ []),
      ds.foldl Snapshot.apply s = s.merge (Delta.batch ds h) ∧
        ∀ k, (Delta.batch ds h).state.get? k = (ds.filterMap (·.payload.get? k)).getLast?) ∧
      (∀ s p q : Snapshot, (s.merge p).merge q = s.merge (p.merge q)) ∧
      ∀ (draw : Nat) (r : Replica) (copy : Snapshot) (ds : List Delta) (h : ds ≠ []),
        r.syncInFlight = some .delta → r.workingCopy = some copy →
        let o := r.step draw (.syncResult .delta (.ok (some (Delta.batch ds h))))
        (SyncEffect.copies o.effects).head? = some (ds.foldl Snapshot.apply copy) ∧
          o.state = ((Outcome.runAll Replica.applyDelta ds { r with syncInFlight := none }).andThen
            (Replica.settle draw)).state := by
  refine ⟨fun s ds h => ⟨Snapshot.foldl_apply h s, Delta.get?_batch h⟩, Snapshot.merge_assoc, ?_⟩
  intro draw r copy ds h hf hc o
  have hc' : { r with syncInFlight := none : Replica }.workingCopy = some copy := hc
  obtain ⟨hcopies, hstate⟩ := Replica.step_partial draw (Delta.batch ds h) hf hc
  rw [← Snapshot.foldl_apply h copy] at hcopies hstate
  refine ⟨hcopies, hstate.trans ?_⟩
  rw [Outcome.andThen_state, Replica.runAll_applyDelta hc' ds]

/-- Two changes with a field in common, of which the first one names where to fetch from now on. -/
def twoChanges : List Delta :=
  [{ Delta.range 10 20 with
      syncUrl := some "n", payload := .ofList [("a", .bool true), ("b", .bool true)] },
    { Delta.range 20 30 with payload := .ofList [("b", .bool false)] }]

/-- The reply to a fetch brings both changes at once. -/
theorem batch_agrees_twoChanges :
    let copy : Snapshot := { url := "u", sequence := .range 1 10, syncUrl := some "s" }
    let r : Replica := {
      limits := ⟨5, 2000, 1000⟩, workingCopy := some copy, syncInFlight := some .delta }
    let body := Delta.batch twoChanges (List.cons_ne_nil _ _)
    let o := r.step 0 (.syncResult .delta (.ok (some body)))
    (body.url = "" ∧ body.position = 30 ∧ body.syncUrl = some "n") ∧
      (body.state.get? "a" = some (.bool true) ∧ body.state.get? "b" = some (.bool false)) ∧
      (r.syncInFlight = some .delta ∧ r.workingCopy = some copy) ∧
      (SyncEffect.copies o.effects).head? = some (twoChanges.foldl Snapshot.apply copy) ∧
      twoChanges.foldl Snapshot.apply copy = copy.merge body := by
  intro copy r body o
  obtain ⟨hmerge, -, hreply⟩ := batch_agrees
  obtain ⟨hcopy, hlookup⟩ := hmerge copy twoChanges (List.cons_ne_nil _ _)
  obtain ⟨hpublished, -⟩ := hreply 0 r copy twoChanges (List.cons_ne_nil _ _) rfl rfl
  exact ⟨⟨rfl, rfl, rfl⟩, ⟨(hlookup "a").trans rfl, (hlookup "b").trans rfl⟩, ⟨rfl, rfl⟩,
    hpublished, hcopy⟩

end CallSignaling.Locus
