import CallSignaling.Proofs.Locus.Position
import Mathlib.Data.List.Perm.Basic

/-!
# What becomes of every change

A change that arrives comes to wait or is settled at once, and what waits is settled later: it is
applied, it is found stale, it is dropped with the meeting, or another change with its base position
takes its place.

* `Locus.Fate`: what becomes of a change that does not wait any more.
* `Locus.Backlog.fates`: the fates of changes while those that have their turn are applied.
* `Locus.Replica.fates`, `Locus.Replica.fatesOver`: the changes that a step and a run settle, each
  with its fate.
* `Locus.Replica.Accounts`: an outcome settles the given changes among those that arrived or waited
  and counts each of them.  The parts of a step do so, and `Accounts.andThen` puts them together.

Main statement: in every run, the changes that were settled and those that wait are the ones that
arrived or waited at its start, and each fate is counted (`accounts_run`).
-/

namespace CallSignaling

namespace Locus

/-- What becomes of a change that does not wait any more. -/
inductive Fate where
  | applied
  /-- It does not lead beyond the working copy. -/
  | stale
  /-- The meeting is given up. -/
  | dropped
  /-- Another change with its base position waits in its place. -/
  | replaced
  deriving DecidableEq

/-- How a fate is counted.  A change whose place is taken is not. -/
def Fate.action? : Fate → Option Metric.DeltaAction
  | applied => some .applied
  | stale => some .stale
  | dropped => some .dropped
  | replaced => none

end Locus

/-- How a measurement counts a change that is settled. -/
def Metric.settled? : Metric → Option Metric.DeltaAction
  | .delta .buffered => none
  | .delta action => some action
  | _ => none

namespace Locus

/-- The change that arrives with an input. -/
def SyncInput.change? : SyncInput → Option Delta
  | .delta d => some d
  | _ => none

namespace Backlog

/-- The changes that wait. -/
def changes (w : Backlog) : List Delta := w.entries.map Prod.snd

/-- The changes that do not lead beyond `p`. -/
def behind (p : UInt64) (w : Backlog) : List Delta := changes (w.filter fun _ d => d.target ≤ p)

/-- What becomes of changes while those that have their turn from `p` on are applied, at most `n` of
them. -/
def fates : Nat → UInt64 → Backlog → List (Delta × Fate)
  | 0, _, _ => []
  | n + 1, p, w =>
    match w.get? p with
    | none => []
    | some d =>
      (d, .applied) ::
        ((behind d.target (w.erase p)).map (·, .stale) ++ fates n d.target (beyond d.target w))

theorem mem_changes {w : Backlog} {d : Delta} : d ∈ changes w ↔ ∃ b, w.get? b = some d := by
  simp [changes, SortedMap.get?_eq_some_iff]

theorem get?_of_mem_changes {w : Backlog} {d : Delta} (hk : Keyed w) (hd : d ∈ changes w) :
    w.get? d.base = some d := by
  obtain ⟨b, hget⟩ := mem_changes.1 hd
  rwa [hk b d hget]

theorem mem_behind {p : UInt64} {w : Backlog} {d : Delta} :
    d ∈ behind p w ↔ d.target ≤ p ∧ d ∈ changes w := by
  simp only [behind, mem_changes, SortedMap.get?_filter, Option.filter_eq_some_iff,
    decide_eq_true_iff, exists_and_right, and_comm]

theorem changes_of_get? {p : UInt64} {w : Backlog} {d : Delta} (h : w.get? p = some d) :
    (changes w).Perm (d :: changes (w.erase p)) :=
  (SortedMap.entries_of_get? h).map Prod.snd

/-- A change that comes to wait takes the place of what waited there. -/
theorem changes_insert (d : Delta) (w : Backlog) :
    ((w.get? d.base).toList ++ changes (w.insert d.base d)).Perm (d :: changes w) := by
  have hinsert := (SortedMap.entries_insert w d.base d).map Prod.snd
  cases h : w.get? d.base with
  | none =>
    rw [SortedMap.erase_of_get? h] at hinsert
    exact hinsert
  | some e =>
    have hplace := (changes_of_get? h).symm
    exact ((hinsert.cons e).trans (.swap d e _)).trans (hplace.cons d)

/-- What does not lead beyond a position and what does are all. -/
theorem behind_append_beyond (p : UInt64) (w : Backlog) :
    (behind p w ++ changes (beyond p w)).Perm (changes w) := by
  have hsplit := List.filter_append_perm (fun e : UInt64 × Delta => decide (e.2.target ≤ p))
    w.entries
  have hnot : (fun e : UInt64 × Delta => !decide (e.2.target ≤ p)) =
      fun e => decide (p < e.2.target) := by
    funext e
    rw [← decide_not, decide_eq_decide]
    exact UInt64.not_le
  rw [hnot] at hsplit
  rw [behind, changes, changes, ← List.map_append]
  exact hsplit.map Prod.snd

theorem behind_beyond (p : UInt64) (w : Backlog) : behind p (beyond p w) = [] := by
  refine List.eq_nil_iff_forall_not_mem.2 fun d hd => ?_
  obtain ⟨hle, hmem⟩ := mem_behind.1 hd
  obtain ⟨b, hget⟩ := mem_changes.1 hmem
  exact UInt64.not_lt.2 hle (get?_beyond_eq_some.1 hget).2

theorem length_behind (p : UInt64) (w : Backlog) :
    (behind p w).length = w.size - (beyond p w).size := by
  have hlength := (behind_append_beyond p w).length_eq
  simp only [List.length_append, changes, List.length_map] at hlength
  have hsize : (behind p w).length + (beyond p w).size = w.size := hlength
  omega

end Backlog

namespace Replica

open Backlog

/-- The fates of what waits when the working copy comes to position `p`. -/
def fatesFrom (p : UInt64) (r : Replica) : List (Delta × Fate) :=
  (behind p r.pending).map (·, .stale) ++
    Backlog.fates (beyond p r.pending).size p (beyond p r.pending)

/-- The fate of the change in whose place `d` comes to wait. -/
def displaced (d : Delta) (r : Replica) : List (Delta × Fate) :=
  (r.pending.get? d.base).toList.map (·, .replaced)

/-- The fates of what waits when the meeting is given up. -/
def forsaken (r : Replica) : List (Delta × Fate) :=
  if r.destroyed then [] else (changes r.pending).map (·, .dropped)

/-- The fates of what waits when a fetch failed.  After that of a partial copy the whole state is
fetched if it is known from where. -/
def abandoned (kind : SyncKind) (r : Replica) : List (Delta × Fate) :=
  match kind with
  | .delta => if r.fullSyncUrl? = none then r.forsaken else []
  | .full => r.forsaken

/-- The changes that a step settles, each with its fate. -/
def fates (input : SyncInput) (r : Replica) : List (Delta × Fate) :=
  match input with
  | .full snapshot => if r.Accepts snapshot then r.fatesFrom snapshot.position else []
  | .delta d =>
    if r.destroyed then [(d, .dropped)]
    else
      match r.lastApplied with
      | none => r.displaced d
      | some last =>
        if d.target ≤ last then [(d, .stale)]
        else if r.syncInFlight.isSome || d.base ≠ last then r.displaced d
        else (d, .applied) :: r.fatesFrom d.target
  | .stallTimeout => []
  | .syncResult kind (.ok (some fetched)) =>
    if r.syncInFlight = some kind then r.fatesFrom fetched.position else []
  | .syncResult kind (.ok none) =>
    if r.syncInFlight = some kind then (r.lastApplied.map r.fatesFrom).getD [] else []
  | .syncResult kind (.error _) => if r.syncInFlight = some kind then r.abandoned kind else []

/-! ### Parts of a step -/

/-- The outcome settles the changes of `settled` among those that `arrived` or waited, and counts
each of them. -/
structure Accounts (arrived : List Delta) (r : Replica) (settled : List (Delta × Fate))
    (o : Outcome Replica SyncEffect) : Prop where
  balance : (settled.map Prod.fst ++ changes o.state.pending).Perm (arrived ++ changes r.pending)
  counted : o.metrics.filterMap Metric.settled? = settled.filterMap (·.2.action?)

/-- An outcome that leaves what waits alone settles nothing. -/
theorem Accounts.of_pending {r : Replica} {o : Outcome Replica SyncEffect}
    (hpending : o.state.pending = r.pending) (hmetrics : o.metrics.filterMap Metric.settled? = []) :
    Accounts [] r [] o :=
  ⟨by rw [hpending]; exact .refl _, hmetrics⟩

theorem Accounts.stay (r : Replica) : Accounts [] r [] (.stay r) := .of_pending rfl rfl

theorem Accounts.andThen {r : Replica} {o : Outcome Replica SyncEffect}
    {f : Replica → Outcome Replica SyncEffect} {before after : List Delta}
    {settled settled' : List (Delta × Fate)} (h : Accounts before r settled o)
    (hf : Accounts after o.state settled' (f o.state)) :
    Accounts (before ++ after) r (settled ++ settled') (o.andThen f) where
  balance := by
    rw [List.map_append, List.append_assoc, Outcome.andThen_state]
    calc (settled.map Prod.fst ++ (settled'.map Prod.fst ++ changes (f o.state).state.pending)).Perm
          (settled.map Prod.fst ++ (after ++ changes o.state.pending)) := hf.balance.append_left _
      List.Perm _ (after ++ (settled.map Prod.fst ++ changes o.state.pending)) :=
        List.perm_append_comm_assoc _ _ _
      List.Perm _ (after ++ (before ++ changes r.pending)) := h.balance.append_left after
      List.Perm _ (before ++ (after ++ changes r.pending)) := List.perm_append_comm_assoc _ _ _
      _ = before ++ after ++ changes r.pending := (List.append_assoc _ _ _).symm
  counted := by
    rw [Outcome.andThen_metrics, List.filterMap_append, List.filterMap_append, h.counted,
      hf.counted]

/-- Nothing arrives in the second part. -/
theorem Accounts.andThen_nil {r : Replica} {o : Outcome Replica SyncEffect}
    {f : Replica → Outcome Replica SyncEffect} {arrived : List Delta}
    {settled settled' : List (Delta × Fate)} (h : Accounts arrived r settled o)
    (hf : Accounts [] o.state settled' (f o.state)) :
    Accounts arrived r (settled ++ settled') (o.andThen f) :=
  List.append_nil arrived ▸ h.andThen hf

/-- The second part settles nothing. -/
theorem Accounts.andThen_quiet {r : Replica} {o : Outcome Replica SyncEffect}
    {f : Replica → Outcome Replica SyncEffect} {arrived : List Delta}
    {settled : List (Delta × Fate)} (h : Accounts arrived r settled o)
    (hf : Accounts [] o.state [] (f o.state)) : Accounts arrived r settled (o.andThen f) :=
  List.append_nil settled ▸ h.andThen_nil hf

/-- The first part settles nothing. -/
theorem Accounts.after_quiet {r : Replica} {o : Outcome Replica SyncEffect}
    {f : Replica → Outcome Replica SyncEffect} {arrived : List Delta}
    {settled : List (Delta × Fate)} (h : Accounts [] r [] o)
    (hf : Accounts arrived o.state settled (f o.state)) :
    Accounts arrived r settled (o.andThen f) :=
  h.andThen hf

theorem accounts_armTimer (draw : Nat) (r : Replica) : Accounts [] r [] (r.armTimer draw) := by
  refine .of_pending ?_ ?_
  · rw [armTimer_state]
  · unfold armTimer
    split <;> rfl

theorem accounts_cancelTimer (r : Replica) : Accounts [] r [] r.cancelTimer := by
  refine .of_pending ?_ ?_
  · rw [cancelTimer_state]
  · unfold cancelTimer
    split <;> rfl

theorem accounts_startFetch (url : String) (kind : SyncKind) (r : Replica) :
    Accounts [] r [] (r.cancelTimer.andThen (startFetch url kind)) :=
  (accounts_cancelTimer r).andThen_quiet (.of_pending rfl rfl)

/-- Giving up settles whatever waits. -/
theorem accounts_giveUp (r : Replica) : Accounts [] r r.forsaken r.giveUp := by
  unfold giveUp forsaken
  split
  · exact .stay r
  · have hcancel := accounts_cancelTimer { r with destroyed := true }
    refine Accounts.after_quiet ⟨hcancel.balance, hcancel.counted⟩ ?_
    rw [cancelTimer_state]
    refine ⟨?_, ?_⟩
    · rw [List.map_map]
      show ((changes r.pending).map id ++ []).Perm (changes r.pending)
      rw [List.map_id, List.append_nil]
    · show (List.replicate r.pending.size (Metric.delta .dropped)).filterMap Metric.settled? = _
      rw [List.filterMap_map, List.filterMap_replicate]
      simp [Metric.settled?, Fate.action?, changes, Function.comp_def, SortedMap.size]

theorem accounts_startFullSync (r : Replica) :
    Accounts [] r (if r.fullSyncUrl? = none then r.forsaken else []) r.startFullSync := by
  unfold startFullSync
  cases h : r.fullSyncUrl? with
  | none => exact accounts_giveUp r
  | some url => exact accounts_startFetch url .full r

theorem accounts_startSync (draw : Nat) (r : Replica) : Accounts [] r [] (r.startSync draw) := by
  unfold startSync
  split
  · exact .stay r
  · split
    · exact .stay r
    · split
      · exact accounts_startFetch _ .delta r
      · split
        · exact accounts_armTimer draw r
        · -- a replica that does not know where to fetch goes on waiting and does not give up
          rename_i hurl
          have hfull := accounts_startFullSync r
          rwa [if_neg (by simpa using hurl)] at hfull

theorem accounts_reevaluate (draw : Nat) (r : Replica) : Accounts [] r [] (r.reevaluate draw) := by
  unfold reevaluate
  split
  · exact .stay r
  · split
    · exact accounts_cancelTimer r
    · split
      · exact accounts_startSync draw r
      · exact accounts_armTimer draw r

/-- A change that comes to wait settles the one in whose place it does. -/
theorem accounts_buffer (d : Delta) (r : Replica) : Accounts [d] r (r.displaced d) (r.buffer d) := by
  refine ⟨?_, ?_⟩
  · rw [displaced, List.map_map]
    show ((r.pending.get? d.base).toList.map id ++ _).Perm _
    rw [List.map_id]
    exact changes_insert d r.pending
  · rw [displaced, List.filterMap_map]
    cases r.pending.get? d.base <;> rfl

theorem accounts_discardSuperseded {r : Replica} {copy : Snapshot}
    (hc : r.workingCopy = some copy) :
    Accounts [] r ((behind copy.position r.pending).map (·, .stale)) r.discardSuperseded := by
  refine ⟨?_, ?_⟩
  · rw [discardSuperseded_state hc, List.map_map]
    show ((behind copy.position r.pending).map id ++ _).Perm _
    rw [List.map_id]
    exact behind_append_beyond copy.position r.pending
  · have hmetrics : r.discardSuperseded.metrics =
        List.replicate (behind copy.position r.pending).length (.delta .stale) := by
      rw [discardSuperseded, lastApplied_of_copy hc, length_behind]
      rfl
    rw [hmetrics, List.filterMap_map, List.filterMap_replicate]
    simp [Metric.settled?, Fate.action?, Function.comp_def]

theorem accounts_applyDelta {r : Replica} {copy : Snapshot} (d : Delta)
    (hc : r.workingCopy = some copy) : Accounts [d] r [(d, .applied)] (r.applyDelta d) := by
  refine ⟨?_, ?_⟩
  · rw [applyDelta_state d hc]
    exact .refl _
  · rw [applyDelta, hc]
    rfl

/-- A turn settles the change that has it and what does not lead beyond that. -/
theorem accounts_turn {r : Replica} {copy : Snapshot} {d : Delta} (hc : r.workingCopy = some copy)
    (hd : r.pending.get? copy.position = some d) :
    let o := (applyDelta d { r with pending := r.pending.erase copy.position }).andThen
      discardSuperseded
    o.state =
        { r with
          workingCopy := some (copy.apply d)
          pending := beyond d.target r.pending } ∧
      Accounts [] r
        ((d, .applied) :: (behind d.target (r.pending.erase copy.position)).map (·, .stale)) o := by
  intro o
  have hc' : { r with pending := r.pending.erase copy.position : Replica }.workingCopy
      = some copy := hc
  have hstate := applyDelta_state d hc'
  constructor
  · rw [Outcome.andThen_state, hstate, discardSuperseded_state rfl]
    simp only [Snapshot.position_apply, beyond_erase hd]
  · have happly := accounts_applyDelta d hc'
    have hturn : Accounts [] r [(d, .applied)]
        (applyDelta d { r with pending := r.pending.erase copy.position }) :=
      ⟨happly.balance.trans (changes_of_get? hd).symm, happly.counted⟩
    refine hturn.andThen_nil ?_
    rw [hstate]
    have hdiscard := accounts_discardSuperseded (r := { r with
      workingCopy := some (copy.apply d)
      pending := r.pending.erase copy.position }) rfl
    exact hdiscard

theorem accounts_drainAtMost {n : Nat} {r : Replica} {copy : Snapshot}
    (hc : r.workingCopy = some copy) :
    Accounts [] r (Backlog.fates n copy.position r.pending) (drainAtMost n r) := by
  -- one turn of the replica is one turn of the backlog
  induction n generalizing r copy with
  | zero => exact .stay r
  | succ n ih =>
    rw [drainAtMost, lastApplied_of_copy hc, Backlog.fates]
    cases hd : r.pending.get? copy.position with
    | none =>
      simp only [hd]
      exact .stay r
    | some d =>
      simp only [hd]
      obtain ⟨hstate, hturn⟩ := accounts_turn hc hd
      refine hturn.andThen_nil ?_
      rw [hstate]
      have hc' : { r with
          workingCopy := some (copy.apply d)
          pending := beyond d.target r.pending : Replica }.workingCopy = some (copy.apply d) := rfl
      exact ih hc'

theorem accounts_settle (draw : Nat) {r : Replica} {copy : Snapshot}
    (hc : r.workingCopy = some copy) :
    Accounts [] r (r.fatesFrom copy.position) (r.settle draw) := by
  have hdrain : Accounts [] r (r.fatesFrom copy.position) r.drain := by
    refine (accounts_discardSuperseded hc).andThen_nil ?_
    rw [discardSuperseded_state hc]
    exact accounts_drainAtMost (r := { r with pending := beyond copy.position r.pending }) hc
  exact hdrain.andThen_quiet (accounts_reevaluate draw r.drain.state)

/-! ### Steps -/

theorem accounts_onFull (draw : Nat) (snapshot : Snapshot) (r : Replica) :
    Accounts [] r (r.fates (.full snapshot)) (r.onFull draw snapshot) := by
  rw [fates, onFull]
  by_cases ha : r.Accepts snapshot
  · have hpublish : Accounts [] r [] { r with workingCopy := some snapshot : Replica }.publish :=
      .of_pending rfl rfl
    have hsettle := accounts_settle draw (r := { r with workingCopy := some snapshot }) rfl
    rw [if_pos ha, if_neg (Bool.eq_false_iff.1 ha.1)]
    simp only [ha.2]
    exact hpublish.after_quiet hsettle
  · rw [if_neg ha]
    split
    · exact .stay r
    · rename_i hd
      split
      · rename_i hcmp
        exact absurd ⟨by simpa using hd, hcmp⟩ ha
      · exact .stay r
      · exact accounts_startSync draw r

theorem accounts_onDelta (draw : Nat) (d : Delta) (r : Replica) :
    Accounts [d] r (r.fates (.delta d)) (r.onDelta draw d) := by
  rw [fates, onDelta]
  by_cases hd : r.destroyed = true
  · rw [if_pos hd, if_pos hd]
    exact ⟨.refl _, rfl⟩
  · rw [if_neg hd, if_neg hd]
    cases hc : r.workingCopy with
    | none =>
      have hl : r.lastApplied = none := by rw [lastApplied, hc]; rfl
      simp only [hl]
      exact accounts_buffer d r
    | some copy =>
      simp only [lastApplied_of_copy hc]
      split
      · exact ⟨.refl _, rfl⟩
      · split
        · exact (accounts_buffer d r).andThen_quiet
            (accounts_reevaluate draw (r.buffer d).state)
        · refine (accounts_applyDelta d hc).andThen_nil ?_
          rw [applyDelta_state d hc]
          have hsettle := accounts_settle draw (r := { r with
            workingCopy := some (copy.apply d) }) rfl
          exact hsettle

theorem accounts_onStallTimeout (draw : Nat) (r : Replica) :
    Accounts [] r (r.fates .stallTimeout) (r.onStallTimeout draw) := by
  rw [fates, onStallTimeout]
  split
  · exact .of_pending rfl rfl
  · have hsync := accounts_startSync draw { r with stallTimerArmed := false }
    exact ⟨hsync.balance, hsync.counted⟩

/-- A copy that a fetch brought settles what does not lead beyond it before the replica settles. -/
theorem accounts_adopt (draw : Nat) (kind : SyncKind) (fetched : Snapshot) (r : Replica) :
    Accounts [] r (r.fatesFrom fetched.position)
      (((r.adopt kind fetched).publish.andThen discardSuperseded).andThen (settle draw)) := by
  obtain ⟨copy, hadopt, hp⟩ := adopt_spec kind fetched r
  rw [hadopt, ← hp]
  have hpublish : Accounts [] r [] { r with workingCopy := some copy : Replica }.publish :=
    .of_pending rfl rfl
  have hdiscard := hpublish.after_quiet
    (accounts_discardSuperseded (r := { r with workingCopy := some copy }) rfl)
  have hsettle := accounts_settle draw (r := { r with
    workingCopy := some copy
    pending := beyond copy.position r.pending }) rfl
  -- nothing is left that would not lead beyond the copy
  rw [fatesFrom, behind_beyond, beyond_beyond] at hsettle
  refine hdiscard.andThen_nil ?_
  rw [Outcome.andThen_state, show { r with workingCopy := some copy : Replica }.publish.state = _
    from rfl, discardSuperseded_state rfl]
  exact hsettle

theorem accounts_onSyncResult (draw : Nat) (kind : SyncKind)
    (result : Except TransportError (Option Snapshot)) (r : Replica) :
    Accounts [] r (r.fates (.syncResult kind result)) (r.onSyncResult draw kind result) := by
  have hquiet : ∀ succeeded, Accounts [] r []
      { state := { r with syncInFlight := none }, metrics := [.resync kind succeeded] } :=
    fun _ => .of_pending rfl rfl
  rw [onSyncResult]
  by_cases hf : r.syncInFlight = some kind
  · rw [if_neg (not_not_intro hf)]
    rcases result with e | _ | fetched
    · rw [fates, if_pos hf]
      refine (hquiet false).after_quiet ?_
      cases kind with
      | delta => exact accounts_startFullSync { r with syncInFlight := none }
      | full => exact accounts_giveUp { r with syncInFlight := none }
    · rw [fates, if_pos hf]
      refine (hquiet true).after_quiet ?_
      rw [Outcome.stay_andThen]
      rcases Option.eq_none_or_eq_some r.workingCopy with hc | ⟨copy, hc⟩
      · have hl : r.lastApplied = none := by rw [lastApplied, hc]; rfl
        have hsettle := settle_of_none draw (r := { r with syncInFlight := none }) hc
        rw [hl]
        exact hsettle ▸ .stay _
      · rw [lastApplied_of_copy hc]
        exact accounts_settle draw (r := { r with syncInFlight := none }) hc
    · rw [fates, if_pos hf]
      exact (hquiet true).after_quiet
        (accounts_adopt draw kind fetched { r with syncInFlight := none })
  · rw [if_pos hf]
    rcases result with e | _ | fetched <;> rw [fates, if_neg hf] <;> exact .stay r

/-- **Every step settles the changes of `fates`** among those that arrived or waited. -/
theorem accounts_step (draw : Nat) (input : SyncInput) (r : Replica) :
    Accounts input.change?.toList r (r.fates input) (r.step draw input) := by
  cases input with
  | full snapshot => exact accounts_onFull draw snapshot r
  | delta d => exact accounts_onDelta draw d r
  | stallTimeout => exact accounts_onStallTimeout draw r
  | syncResult kind result => exact accounts_onSyncResult draw kind result r

/-! ### Runs -/

/-- The changes that arrive with inputs, in turn. -/
def arrived (inputs : List (Nat × SyncInput)) : List Delta := inputs.filterMap (·.2.change?)

theorem arrived_cons (input : Nat × SyncInput) (inputs : List (Nat × SyncInput)) :
    arrived (input :: inputs) = input.2.change?.toList ++ arrived inputs := by
  rw [arrived, List.filterMap_cons]
  cases input.2.change? <;> rfl

theorem arrived_append (xs ys : List (Nat × SyncInput)) :
    arrived (xs ++ ys) = arrived xs ++ arrived ys :=
  List.filterMap_append

/-- The changes that a run settles, each with its fate. -/
def fatesOver : List (Nat × SyncInput) → Replica → List (Delta × Fate)
  | [], _ => []
  | input :: inputs, r => r.fates input.2 ++ fatesOver inputs (r.step input.1 input.2).state

/-- **Every run settles the changes of `fatesOver`** among those that arrived or waited. -/
theorem accounts_run (inputs : List (Nat × SyncInput)) (r : Replica) :
    Accounts (arrived inputs) r (fatesOver inputs r) (run inputs r) := by
  induction inputs generalizing r with
  | nil => exact .stay r
  | cons input inputs ih =>
    rw [run_cons, fatesOver, arrived_cons]
    exact (accounts_step input.1 input.2 r).andThen (ih _)

end Replica

end Locus

end CallSignaling
