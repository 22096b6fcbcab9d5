import CallSignaling.Proofs.Locus.WellFormed

/-!
# Where the working copy goes

The position of the working copy rises as long as no step takes the copy back.

* `Locus.Replica.Rewinds`: an input puts a copy that lies behind the one held in its place, and no
  change that waits starts there.
* `Locus.Replica.appliedOver`: the changes that a run applies.
* `Locus.Replica.Ascends`: the position never decreases from one step of a run to the next.
* `Locus.Replica.NeverRewinds`: no step of a run takes the copy back.

The position decreases at exactly the steps that take the copy back, and without them no change is
applied whose target position a change before it has reached.
-/

namespace CallSignaling.Locus.Replica

open Backlog

/-! ### One step -/

/-- The input puts a copy that lies behind the one held in its place, and no change that waits
starts there. -/
def Rewinds (input : SyncInput) (r : Replica) : Prop :=
  ∃ copy last, r.adopted? input = some copy ∧ r.lastApplied = some last ∧ copy.position < last ∧
    r.pending.get? copy.position = none

theorem chain_turnsFrom {r : Replica} (hk : Keyed r.pending) (p : UInt64) :
    Delta.Chain p (r.turnsFrom p) :=
  (drains_turns p _).chain (keyed_beyond p hk) (ahead_beyond p _)

/-- From a copy that is adopted on, the step applies what has its turn. -/
theorem applied_of_adopted {input : SyncInput} {r : Replica} {copy : Snapshot}
    (h : r.adopted? input = some copy) : r.applied input = r.turnsFrom copy.position := by
  cases input with
  | full snapshot =>
    by_cases ha : r.Accepts snapshot
    · rw [adopted?, if_pos ha] at h
      cases h
      exact if_pos ha
    · rw [adopted?, if_neg ha] at h
      cases h
  | delta d => cases h
  | stallTimeout => cases h
  | syncResult kind result =>
    rcases result with e | (_ | fetched)
    · cases h
    · cases h
    · by_cases hf : r.syncInFlight = some kind
      · obtain ⟨copy', hadopt, hp⟩ := adopt_spec kind fetched r
        rw [adopted?, if_pos hf, hadopt] at h
        cases h
        rw [applied, if_pos hf, hp]
      · rw [adopted?, if_neg hf] at h
        cases h

/-- The changes that a step applies lead upwards from the copy adopted, or else from the one held.
-/
theorem chain_applied {input : SyncInput} {r : Replica} {copy : Snapshot} (hk : Keyed r.pending)
    (h : (r.adopted? input).or r.workingCopy = some copy) :
    Delta.Chain copy.position (r.applied input) := by
  cases hadopted : r.adopted? input with
  | some copy' =>
    rw [hadopted] at h
    cases h
    rw [applied_of_adopted hadopted]
    exact chain_turnsFrom hk _
  | none =>
    rw [hadopted, Option.none_or] at h
    have hl := lastApplied_of_copy h
    unfold applied
    -- with nothing adopted, only a change that is next and an empty reply apply anything
    split
    · rename_i snapshot
      split
      · rename_i ha
        rw [adopted?, if_pos ha] at hadopted
        cases hadopted
      · exact Delta.chain_nil _
    · rename_i d
      split
      · rename_i hn
        have hbase : copy.position = d.base := Option.some.inj (hl.symm.trans hn.2.2.1)
        exact ⟨hbase.symm, hbase ▸ hn.2.2.2, chain_turnsFrom hk _⟩
      · exact Delta.chain_nil _
    · exact Delta.chain_nil _
    · rename_i kind fetched
      split
      · rename_i hf
        obtain ⟨copy', hadopt, _⟩ := adopt_spec kind fetched r
        rw [adopted?, if_pos hf, hadopt] at hadopted
        cases hadopted
      · exact Delta.chain_nil _
    · split
      · rw [hl]
        exact chain_turnsFrom hk _
      · exact Delta.chain_nil _
    · exact Delta.chain_nil _

/-- Without a copy held or adopted nothing is applied. -/
theorem applied_of_none {input : SyncInput} {r : Replica}
    (h : (r.adopted? input).or r.workingCopy = none) : r.applied input = [] := by
  obtain ⟨hadopted, hc⟩ := Option.or_eq_none_iff.1 h
  have hl : r.lastApplied = none := by rw [lastApplied, hc]; rfl
  cases input with
  | full snapshot =>
    refine if_neg fun ha => ?_
    rw [adopted?, if_pos ha] at hadopted
    cases hadopted
  | delta d =>
    refine if_neg fun hn => ?_
    have hbase := hn.2.2.1
    rw [hl] at hbase
    cases hbase
  | stallTimeout => rfl
  | syncResult kind result =>
    rcases result with e | (_ | fetched)
    · rfl
    · rw [applied, hl]
      split <;> rfl
    · refine if_neg fun hf => ?_
      obtain ⟨copy, hadopt, _⟩ := adopt_spec kind fetched r
      rw [adopted?, if_pos hf, hadopt] at hadopted
      cases hadopted

/-- The position after a step. -/
theorem lastApplied_step (draw : Nat) {input : SyncInput} {r : Replica} {copy : Snapshot}
    (h : (r.adopted? input).or r.workingCopy = some copy) :
    (r.step draw input).state.lastApplied =
      some (Delta.stop copy.position (r.applied input)) := by
  rw [lastApplied, (step_moves draw input r).2.1, h, Option.map_some, Option.map_some,
    ← Snapshot.position_foldl_apply]

/-- If a change waits at the copy adopted then it is applied, and whatever is applied leads beyond
the copy held, even if the copy adopted lies behind it. -/
theorem applied_of_waiting {input : SyncInput} {r : Replica} {copy : Snapshot} {last : UInt64}
    {d : Delta} (hr : WellFormed r) (hl : r.lastApplied = some last)
    (hadopted : r.adopted? input = some copy) (hlt : copy.position < last)
    (hget : r.pending.get? copy.position = some d) :
    d ∈ r.applied input ∧ ∀ e ∈ r.applied input, last < e.target := by
  obtain ⟨held, hheld, hpos⟩ := Option.map_eq_some_iff.1 hl
  have hd : last < d.target := hpos ▸ hr.ahead held hheld _ _ hget
  have happlied : r.applied input =
      d :: turns d.target (beyond d.target (beyond copy.position r.pending)) := by
    rw [applied_of_adopted hadopted, turnsFrom]
    exact turns_of_some (get?_beyond_eq_some.2 ⟨hget, UInt64.lt_trans hlt hd⟩)
  have hchain : Delta.Chain copy.position (r.applied input) := by
    rw [applied_of_adopted hadopted]
    exact chain_turnsFrom hr.keyed _
  rw [happlied] at hchain ⊢
  refine ⟨List.mem_cons_self, fun e he => ?_⟩
  rcases List.mem_cons.1 he with rfl | he
  · exact hd
  · exact UInt64.lt_trans hd (hchain.2.2.lt_target he)

/-- The position of the working copy falls at the steps that take it back, and otherwise rises to or
beyond the targets of the changes applied, all of which lie beyond where it was. -/
theorem position_step (draw : Nat) {input : SyncInput} {r : Replica} {last : UInt64}
    (hr : WellFormed r) (hl : r.lastApplied = some last) :
    ∃ last', (r.step draw input).state.lastApplied = some last' ∧
      (r.Rewinds input → last' < last) ∧
      (¬ r.Rewinds input → last ≤ last' ∧
        ∀ d ∈ r.applied input, last < d.target ∧ d.target ≤ last') := by
  obtain ⟨held, hheld, hpos⟩ := Option.map_eq_some_iff.1 hl
  cases hadopted : r.adopted? input with
  | none =>
    have hcopy : (r.adopted? input).or r.workingCopy = some held := by
      rw [hadopted, hheld]
      rfl
    have hchain := chain_applied hr.keyed hcopy
    refine ⟨_, lastApplied_step draw hcopy, ?_, ?_⟩
    · rintro ⟨copy, _, h, -⟩
      rw [hadopted] at h
      cases h
    · intro _
      rw [← hpos]
      exact ⟨hchain.le_stop, fun d hd => ⟨hchain.lt_target hd, hchain.target_le_stop hd⟩⟩
  | some copy =>
    have hcopy : (r.adopted? input).or r.workingCopy = some copy := by
      rw [hadopted]
      rfl
    have hchain := chain_applied hr.keyed hcopy
    refine ⟨_, lastApplied_step draw hcopy, ?_, ?_⟩
    · rintro ⟨copy', last', h, hlast', hlt, hnone⟩
      rw [hadopted] at h
      cases h
      rw [hl] at hlast'
      cases hlast'
      rw [applied_of_adopted hadopted, turnsFrom, turns_of_none (get?_beyond_of_none hnone)]
      exact hlt
    · intro hnot
      by_cases hle : last ≤ copy.position
      · exact ⟨UInt64.le_trans hle hchain.le_stop, fun d hd =>
          ⟨UInt64.lt_of_le_of_lt hle (hchain.lt_target hd), hchain.target_le_stop hd⟩⟩
      · -- the copy adopted lies behind, so that a change has to wait there
        have hlt := UInt64.not_le.1 hle
        cases hget : r.pending.get? copy.position with
        | none => exact absurd ⟨copy, last, hadopted, hl, hlt, hget⟩ hnot
        | some d =>
          obtain ⟨hd, hup⟩ := applied_of_waiting hr hl hadopted hlt hget
          refine ⟨?_, fun e he => ⟨hup e he, hchain.target_le_stop he⟩⟩
          exact UInt64.le_trans (UInt64.le_of_lt (hup d hd)) (hchain.target_le_stop hd)

/-! ### Runs -/

/-- The changes that a run applies, in turn. -/
def appliedOver : List (Nat × SyncInput) → Replica → List Delta
  | [], _ => []
  | input :: inputs, r =>
    r.applied input.2 ++ appliedOver inputs (r.step input.1 input.2).state

/-- The position of the working copy never decreases from one step of a run to the next. -/
def Ascends : List (Nat × SyncInput) → Replica → Prop
  | [], _ => True
  | input :: inputs, r =>
    (∀ p, r.lastApplied = some p →
        ∃ q, (r.step input.1 input.2).state.lastApplied = some q ∧ p ≤ q) ∧
      Ascends inputs (r.step input.1 input.2).state

/-- No step of a run takes the working copy back. -/
def NeverRewinds : List (Nat × SyncInput) → Replica → Prop
  | [], _ => True
  | input :: inputs, r =>
    ¬ r.Rewinds input.2 ∧ NeverRewinds inputs (r.step input.1 input.2).state

theorem not_rewinds_of_ascends {inputs : List (Nat × SyncInput)} {r : Replica} (hr : WellFormed r)
    (h : Ascends inputs r) : NeverRewinds inputs r := by
  induction inputs generalizing r with
  | nil => trivial
  | cons input inputs ih =>
    refine ⟨fun hrewinds => ?_, ih (wellFormed_step input.1 input.2 hr) h.2⟩
    obtain ⟨_, last, _, hl, _, _⟩ := id hrewinds
    obtain ⟨last', hl', hfalls, -⟩ := position_step input.1 hr hl
    obtain ⟨q, hq, hle⟩ := h.1 last hl
    have heq : last' = q := Option.some.inj (hl'.symm.trans hq)
    exact UInt64.not_le.2 (hfalls hrewinds) (heq ▸ hle)

theorem ascends_of_neverRewinds {inputs : List (Nat × SyncInput)} {r : Replica}
    (hr : WellFormed r) (h : NeverRewinds inputs r) : Ascends inputs r := by
  induction inputs generalizing r with
  | nil => trivial
  | cons input inputs ih =>
    refine ⟨fun last hl => ?_, ih (wellFormed_step input.1 input.2 hr) h.2⟩
    obtain ⟨last', hl', -, hrises⟩ := position_step input.1 hr hl
    exact ⟨last', hl', (hrises h.1).1⟩

/-- The changes that a step applies lead strictly upwards, and no further than the position after
the step. -/
theorem pairwise_applied (draw : Nat) (input : SyncInput) {r : Replica} (hr : WellFormed r) :
    (r.applied input).Pairwise (fun d e => d.target < e.target) ∧
      ∀ d ∈ r.applied input,
        ∃ last, (r.step draw input).state.lastApplied = some last ∧ d.target ≤ last := by
  cases hcopy : (r.adopted? input).or r.workingCopy with
  | none =>
    rw [applied_of_none hcopy]
    exact ⟨.nil, fun d hd => absurd hd List.not_mem_nil⟩
  | some copy =>
    have hchain := chain_applied hr.keyed hcopy
    exact ⟨hchain.pairwise_target, fun d hd =>
      ⟨_, lastApplied_step draw hcopy, hchain.target_le_stop hd⟩⟩

/-- Without a step that takes the copy back, every change applied leads beyond where the working
copy was and beyond every change applied before it. -/
theorem appliedOver_of_neverRewinds {inputs : List (Nat × SyncInput)} {r : Replica}
    (hr : WellFormed r) (h : NeverRewinds inputs r) :
    (∀ last, r.lastApplied = some last → ∀ d ∈ appliedOver inputs r, last < d.target) ∧
      (appliedOver inputs r).Pairwise (fun d e => d.target < e.target) := by
  induction inputs generalizing r with
  | nil => exact ⟨fun _ _ d hd => absurd hd List.not_mem_nil, .nil⟩
  | cons input inputs ih =>
    obtain ⟨hbeyond, hlater⟩ := ih (wellFormed_step input.1 input.2 hr) h.2
    obtain ⟨hnow, hreached⟩ := pairwise_applied input.1 input.2 hr
    constructor
    · intro last hl d hd
      obtain ⟨last', hl', -, hrises⟩ := position_step input.1 hr hl
      obtain ⟨hle, htargets⟩ := hrises h.1
      rcases List.mem_append.1 hd with hd | hd
      · exact (htargets d hd).1
      · exact UInt64.lt_of_le_of_lt hle (hbeyond last' hl' d hd)
    · -- the position after the step separates what it applies from what is applied later
      refine List.pairwise_append.2 ⟨hnow, hlater, fun d hd e he => ?_⟩
      obtain ⟨last, hl, hle⟩ := hreached d hd
      exact UInt64.lt_of_le_of_lt hle (hbeyond last hl e he)

/-- **When the position never moves back**: in a run from a new replica the position never decreases
from one step to the next, and no change is applied whose target an earlier one has reached, if and
only if no step puts a copy behind the one held in its place at which no change waits. -/
theorem ascends_iff_neverRewinds (limits : Limits) (inputs : List (Nat × SyncInput)) :
    (Ascends inputs { limits } ∧
        (appliedOver inputs { limits }).Pairwise (fun d e => d.target < e.target)) ↔
      NeverRewinds inputs { limits } := by
  have hr := wellFormed_new limits
  constructor
  · rintro ⟨h, -⟩
    exact not_rewinds_of_ascends hr h
  · intro h
    exact ⟨ascends_of_neverRewinds hr h, (appliedOver_of_neverRewinds hr h).2⟩

/-- A fetch for a gap brings the copy that the replica started from, a change before the gap having
been applied meanwhile, and then this change arrives again. -/
def staleReply : List (Nat × SyncInput) :=
  let copy : Snapshot := { url := "u", sequence := .range 1 10, syncUrl := some "s" }
  [(0, .full copy), (0, .delta (.range 10 20)), (0, .delta (.range 30 40)), (0, .stallTimeout),
    (0, .syncResult .delta (.ok (some copy))), (0, .delta (.range 10 20))]

/-- The stale reply takes the position from 20 back to 10, and the change is applied twice. -/
theorem staleReply_rewinds :
    let r : Replica := { limits := ⟨5, 2000, 1000⟩ }
    (run (staleReply.take 4) r).state.lastApplied = some 20 ∧
      (run (staleReply.take 5) r).state.lastApplied = some 10 ∧
      ¬ Ascends staleReply r ∧
      (appliedOver staleReply r).map Delta.target = [20, 20] ∧
      ¬ (appliedOver staleReply r).Pairwise (fun d e => d.target < e.target) := by
  intro r
  have htargets : (appliedOver staleReply r).map Delta.target = [20, 20] := by decide +kernel
  refine ⟨by decide +kernel, by decide +kernel, ?_, htargets, ?_⟩
  · rintro ⟨-, -, -, -, hfifth, -⟩
    obtain ⟨q, hq, hle⟩ := hfifth 20 (by decide +kernel)
    have hten : (10 : UInt64) = q := Option.some.inj (Eq.trans (by decide +kernel) hq)
    exact absurd hle (hten ▸ by decide)
  · intro hpairwise
    have h := List.pairwise_map.2 hpairwise
    rw [htargets] at h
    exact absurd h (by decide)

end CallSignaling.Locus.Replica
