import CallSignaling.Locus.Replica
import CallSignaling.Proofs.Locus.Backlog

/-!
# What a step of a replica comes to

* `Locus.Replica.Moves`: the outcome of a step that takes a copy for the working copy and lets the
  waiting changes have their turn.
* `Locus.Replica.Upkeep`: the outcome of a step that only starts and stops the timer and fetches.
* `Locus.Replica.Course`: what a step comes to, one case for each way through it.
* `Locus.Replica.adopted?`: the copy that an input puts in place of the working copy.
* `Locus.Replica.applied`: the changes that a step applies.

Main statements: every step takes one of the courses (`course_step`); it leaves the copy held or
adopted with the changes of `applied` on it, and publishes the copy adopted and then one copy for
each of these changes (`step_moves`); and what every step keeps holds after every run
(`run_induction`).
-/

namespace CallSignaling.Locus

namespace SyncEffect

/-- The copy that an effect publishes. -/
def copy? : SyncEffect → Option Snapshot
  | applied copy => some copy
  | _ => none

/-- The copies that effects publish, in turn. -/
def copies (effects : List SyncEffect) : List Snapshot := effects.filterMap copy?

@[simp] theorem copies_append (xs ys : List SyncEffect) :
    copies (xs ++ ys) = copies xs ++ copies ys :=
  List.filterMap_append

@[simp] theorem copies_map_applied (cs : List Snapshot) : copies (cs.map applied) = cs := by
  rw [copies, List.filterMap_map]
  exact List.filterMap_some

end SyncEffect

namespace Replica

open Backlog

/-! ### Draining the buffer -/

theorem lastApplied_of_copy {r : Replica} {copy : Snapshot} (hc : r.workingCopy = some copy) :
    r.lastApplied = some copy.position := by
  rw [lastApplied, hc]
  rfl

theorem discardSuperseded_state {r : Replica} {copy : Snapshot} (hc : r.workingCopy = some copy) :
    r.discardSuperseded.state = { r with pending := beyond copy.position r.pending } := by
  rw [discardSuperseded, lastApplied_of_copy hc]
  rfl

theorem discardSuperseded_effects (r : Replica) : r.discardSuperseded.effects = [] := by
  rw [discardSuperseded]
  split <;> rfl

theorem applyDelta_state {r : Replica} {copy : Snapshot} (d : Delta)
    (hc : r.workingCopy = some copy) :
    (r.applyDelta d).state = { r with workingCopy := some (copy.apply d) } := by
  rw [applyDelta, hc]
  rfl

theorem applyDelta_effects {r : Replica} {copy : Snapshot} (d : Delta)
    (hc : r.workingCopy = some copy) : (r.applyDelta d).effects = [.applied (copy.apply d)] := by
  rw [applyDelta, hc]
  rfl

theorem drainAtMost_of_none {n : Nat} {r : Replica} {copy : Snapshot}
    (hc : r.workingCopy = some copy) (hd : r.pending.get? copy.position = none) :
    drainAtMost n r = .stay r := by
  cases n with
  | zero => rfl
  | succ n =>
    rw [drainAtMost, lastApplied_of_copy hc]
    simp only [hd]

/-- One turn leads to the copy with the change, and what does not lead beyond it is dropped. -/
theorem drainAtMost_of_some {n : Nat} {r : Replica} {copy : Snapshot} {d : Delta}
    (hc : r.workingCopy = some copy) (hd : r.pending.get? copy.position = some d) :
    ∃ metrics, drainAtMost (n + 1) r =
      Outcome.andThen
        { state := { r with
            workingCopy := some (copy.apply d)
            pending := beyond d.target r.pending }
          effects := [.applied (copy.apply d)]
          metrics }
        (drainAtMost n) := by
  rw [drainAtMost, lastApplied_of_copy hc]
  simp only [hd]
  have hc' : { r with pending := r.pending.erase copy.position : Replica }.workingCopy
      = some copy := hc
  refine ⟨_, congrArg (Outcome.andThen · (drainAtMost n)) (Outcome.ext ?_ ?_ rfl)⟩
  · rw [Outcome.andThen_state, applyDelta_state d hc', discardSuperseded_state rfl]
    simp only [Snapshot.position_apply, beyond_erase hd]
  · rw [Outcome.andThen_effects, applyDelta_effects d hc',
      discardSuperseded_effects, List.append_nil]

theorem drainAtMost_spec {n : Nat} {r : Replica} {copy : Snapshot}
    (hc : r.workingCopy = some copy) :
    (drainAtMost n r).state =
        { r with
          workingCopy := some ((takeTurns n copy.position r.pending).1.foldl Snapshot.apply copy)
          pending := (takeTurns n copy.position r.pending).2 } ∧
      (drainAtMost n r).effects =
        (copy.trail (takeTurns n copy.position r.pending).1).map .applied := by
  -- one turn of the replica is one turn of the backlog, from the copy with the change on
  induction n generalizing r copy with
  | zero =>
    refine ⟨?_, rfl⟩
    show r = _
    rw [takeTurns, List.foldl_nil, ← hc]
  | succ n ih =>
    rw [takeTurns]
    cases hd : r.pending.get? copy.position with
    | none =>
      rw [drainAtMost_of_none hc hd]
      refine ⟨?_, rfl⟩
      show r = _
      rw [List.foldl_nil, ← hc]
    | some d =>
      obtain ⟨metrics, heq⟩ := drainAtMost_of_some (n := n) hc hd
      have hc' : { r with
          workingCopy := some (copy.apply d)
          pending := beyond d.target r.pending : Replica }.workingCopy = some (copy.apply d) := rfl
      obtain ⟨hstate, heffects⟩ := ih hc'
      rw [heq, Outcome.andThen_state, Outcome.andThen_effects, hstate, heffects]
      exact ⟨rfl, rfl⟩

/-- The changes that have their turn once the working copy is at position `p`. -/
def turnsFrom (p : UInt64) (r : Replica) : List Delta := turns p (beyond p r.pending)

/-- The replica that holds `copy` with the changes on it that have their turn from there on. -/
def caughtUp (copy : Snapshot) (r : Replica) : Replica :=
  { r with
    workingCopy := some ((r.turnsFrom copy.position).foldl Snapshot.apply copy)
    pending := left copy.position (beyond copy.position r.pending) }

/-- The outcome `o` publishes `lead`, takes `copy` for the working copy, publishes it anew for each
of the changes that have their turn from there on, and decides about the rest. -/
structure Moves (draw : Nat) (r : Replica) (lead : List Snapshot) (copy : Snapshot)
    (o : Outcome Replica SyncEffect) : Prop where
  state : o.state = ((r.caughtUp copy).reevaluate draw).state
  effects : o.effects =
    (lead ++ copy.trail (r.turnsFrom copy.position)).map .applied
      ++ ((r.caughtUp copy).reevaluate draw).effects

theorem moves_settle (draw : Nat) {r : Replica} {copy : Snapshot}
    (hc : r.workingCopy = some copy) : Moves draw r [] copy (r.settle draw) := by
  have hc' : { r with pending := beyond copy.position r.pending : Replica }.workingCopy
      = some copy := hc
  obtain ⟨hstate, heffects⟩ := drainAtMost_spec
    (n := (beyond copy.position r.pending).size) hc'
  have hdrained : r.drain.state = r.caughtUp copy := by
    rw [drain, Outcome.andThen_state, discardSuperseded_state hc, hstate]
    rfl
  constructor
  · rw [settle, Outcome.andThen_state, hdrained]
  · rw [settle, Outcome.andThen_effects, hdrained, drain, Outcome.andThen_effects,
      discardSuperseded_effects, discardSuperseded_state hc, heffects]
    rfl

/-- A step that takes and publishes `copy` and then settles, whether or not it has dropped what does
not lead beyond `copy`. -/
theorem Moves.of_publish {draw : Nat} {r : Replica} {copy : Snapshot} {w : Backlog}
    {o : Outcome Replica SyncEffect}
    (hstate : o.state = { r with workingCopy := some copy, pending := w })
    (hw : beyond copy.position w = beyond copy.position r.pending)
    (heffects : o.effects = [.applied copy]) :
    Moves draw r [copy] copy (o.andThen (settle draw)) := by
  have h := moves_settle draw (r := { r with workingCopy := some copy, pending := w }) rfl
  have hcaught :
      caughtUp copy { r with workingCopy := some copy, pending := w } = r.caughtUp copy := by
    simp only [caughtUp, turnsFrom, hw]
  constructor
  · rw [Outcome.andThen_state, hstate, h.state, hcaught]
  · rw [Outcome.andThen_effects, hstate, heffects, h.effects, hcaught]
    simp only [turnsFrom, hw]
    rfl

theorem settle_of_none (draw : Nat) {r : Replica} (hc : r.workingCopy = none) :
    r.settle draw = .stay r := by
  have hl : r.lastApplied = none := by rw [lastApplied, hc]; rfl
  have hdrain : ∀ n, drainAtMost n r = .stay r := by
    intro n
    cases n with
    | zero => rfl
    | succ n => rw [drainAtMost, hl]
  rw [settle, drain, discardSuperseded, hl]
  simp only [Outcome.stay_andThen, hdrain, reevaluate, hc]
  simp

/-! ### Upkeep -/

/-- A step that leaves the working copy and the limits alone and publishes nothing. -/
structure Upkeep (r : Replica) (o : Outcome Replica SyncEffect) : Prop where
  workingCopy : o.state.workingCopy = r.workingCopy
  limits : o.state.limits = r.limits
  copies : SyncEffect.copies o.effects = []

theorem Upkeep.stay (r : Replica) : Upkeep r (.stay r) := ⟨rfl, rfl, rfl⟩

theorem Upkeep.andThen {r : Replica} {o : Outcome Replica SyncEffect}
    {f : Replica → Outcome Replica SyncEffect} (h : Upkeep r o) (hf : ∀ s, Upkeep s (f s)) :
    Upkeep r (o.andThen f) where
  workingCopy := (hf o.state).workingCopy.trans h.workingCopy
  limits := (hf o.state).limits.trans h.limits
  copies := by
    rw [Outcome.andThen_effects, SyncEffect.copies_append, h.copies, (hf o.state).copies]
    rfl

theorem armTimer_state (draw : Nat) (r : Replica) :
    (r.armTimer draw).state = { r with stallTimerArmed := true } := by
  unfold armTimer
  split
  · rename_i h
    rw [Outcome.stay_state, ← h]
  · rfl

theorem cancelTimer_state (r : Replica) :
    r.cancelTimer.state = { r with stallTimerArmed := false } := by
  unfold cancelTimer
  split
  · rfl
  · rename_i h
    rw [Outcome.stay_state, ← Bool.eq_false_iff.2 h]

theorem giveUp_state {r : Replica} (hd : r.destroyed = false) :
    r.giveUp.state =
      { r with destroyed := true, stallTimerArmed := false, pending := ∅ } := by
  unfold giveUp
  rw [hd, if_neg Bool.false_ne_true, Outcome.andThen_state, cancelTimer_state]

theorem startFetch_state (url : String) (kind : SyncKind) (r : Replica) :
    (r.cancelTimer.andThen (startFetch url kind)).state =
      { r with stallTimerArmed := false, syncInFlight := some kind } := by
  rw [Outcome.andThen_state, cancelTimer_state]
  rfl

theorem upkeep_armTimer (draw : Nat) (r : Replica) : Upkeep r (r.armTimer draw) := by
  unfold armTimer
  split
  · exact .stay r
  · exact ⟨rfl, rfl, rfl⟩

theorem upkeep_cancelTimer (r : Replica) : Upkeep r r.cancelTimer := by
  unfold cancelTimer
  split
  · exact ⟨rfl, rfl, rfl⟩
  · exact .stay r

theorem upkeep_startFetch (url : String) (kind : SyncKind) (r : Replica) :
    Upkeep r (r.startFetch url kind) := ⟨rfl, rfl, rfl⟩

theorem upkeep_giveUp (r : Replica) : Upkeep r r.giveUp := by
  unfold giveUp
  split
  · exact .stay r
  · have h := upkeep_cancelTimer { r with destroyed := true }
    refine Upkeep.andThen ⟨h.workingCopy, h.limits, h.copies⟩ fun s => ⟨rfl, rfl, rfl⟩

theorem upkeep_startFullSync (r : Replica) : Upkeep r r.startFullSync := by
  unfold startFullSync
  split
  · exact upkeep_giveUp r
  · exact (upkeep_cancelTimer r).andThen (upkeep_startFetch _ _)

theorem upkeep_startSync (draw : Nat) (r : Replica) : Upkeep r (r.startSync draw) := by
  unfold startSync
  split
  · exact .stay r
  · split
    · exact .stay r
    · split
      · exact (upkeep_cancelTimer r).andThen (upkeep_startFetch _ _)
      · split
        · exact upkeep_armTimer draw r
        · exact upkeep_startFullSync r

theorem upkeep_reevaluate (draw : Nat) (r : Replica) : Upkeep r (r.reevaluate draw) := by
  unfold reevaluate
  split
  · exact .stay r
  · split
    · exact upkeep_cancelTimer r
    · split
      · exact upkeep_startSync draw r
      · exact upkeep_armTimer draw r

/-! ### Steps -/

/-- Whether a whole copy that arrives takes the place of the working copy. -/
def Accepts (r : Replica) (snapshot : Snapshot) : Prop :=
  r.destroyed = false ∧
    (r.workingCopy.map fun copy => copy.sequence.compare snapshot.sequence).getD .useIncoming
      = .useIncoming

instance (r : Replica) (snapshot : Snapshot) : Decidable (r.Accepts snapshot) :=
  inferInstanceAs (Decidable (_ ∧ _))

/-- Whether a change that arrives has its turn at once. -/
def IsNext (r : Replica) (d : Delta) : Prop :=
  r.destroyed = false ∧ r.syncInFlight = none ∧ r.lastApplied = some d.base ∧ d.base < d.target

instance (r : Replica) (d : Delta) : Decidable (r.IsNext d) :=
  inferInstanceAs (Decidable (_ ∧ _ ∧ _ ∧ _))

/-- The copy that an input puts in place of the working copy: a whole copy that is accepted, or what
the fetch under way brought, a partial copy merged into the one held. -/
def adopted? (input : SyncInput) (r : Replica) : Option Snapshot :=
  match input with
  | .full snapshot => if r.Accepts snapshot then some snapshot else none
  | .syncResult kind (.ok (some fetched)) =>
    if r.syncInFlight = some kind then (r.adopt kind fetched).workingCopy else none
  | _ => none

/-- The changes that a step applies, in turn. -/
def applied (input : SyncInput) (r : Replica) : List Delta :=
  match input with
  | .full snapshot => if r.Accepts snapshot then r.turnsFrom snapshot.position else []
  | .delta d => if r.IsNext d then d :: r.turnsFrom d.target else []
  | .stallTimeout => []
  | .syncResult kind (.ok (some fetched)) =>
    if r.syncInFlight = some kind then r.turnsFrom fetched.position else []
  | .syncResult kind (.ok none) =>
    if r.syncInFlight = some kind then (r.lastApplied.map r.turnsFrom).getD [] else []
  | .syncResult _ (.error _) => []

theorem adopt_spec (kind : SyncKind) (fetched : Snapshot) (r : Replica) :
    ∃ copy, r.adopt kind fetched = { r with workingCopy := some copy } ∧
      copy.position = fetched.position := by
  unfold adopt
  split
  · exact ⟨_, rfl, Snapshot.position_merge _ _⟩
  · exact ⟨_, rfl, rfl⟩

theorem adopt_syncInFlight (kind : SyncKind) (fetched : Snapshot) (r : Replica)
    (flight : Option SyncKind) :
    adopt kind fetched { r with syncInFlight := flight } =
      { r.adopt kind fetched with syncInFlight := flight } := by
  obtain ⟨limits, workingCopy, pending, syncInFlight, armed, destroyed⟩ := r
  cases kind <;> cases workingCopy <;> rfl

/-- What a step comes to, with what decides it. -/
inductive Course (draw : Nat) (r : Replica) : SyncInput → Outcome Replica SyncEffect → Prop
  | accepted {snapshot : Snapshot} {o : Outcome Replica SyncEffect} (h : r.Accepts snapshot)
      (ho : Moves draw r [snapshot] snapshot o) : Course draw r (.full snapshot) o
  | refused {snapshot : Snapshot} (h : ¬ r.Accepts snapshot) :
      Course draw r (.full snapshot) (.stay r)
  | diverged {snapshot : Snapshot} (h : ¬ r.Accepts snapshot) :
      Course draw r (.full snapshot) (r.startSync draw)
  | dropped {d : Delta} (h : r.destroyed = true) :
      Course draw r (.delta d) { state := r, metrics := [.delta .dropped] }
  | early {d : Delta} (hd : r.destroyed = false) (hc : r.workingCopy = none) :
      Course draw r (.delta d) (r.buffer d)
  | stale {d : Delta} {copy : Snapshot} (hd : r.destroyed = false)
      (hc : r.workingCopy = some copy) (h : d.target ≤ copy.position) :
      Course draw r (.delta d) { state := r, metrics := [.delta .stale] }
  | waits {d : Delta} {copy : Snapshot} (hd : r.destroyed = false)
      (hc : r.workingCopy = some copy) (hlt : copy.position < d.target)
      (h : r.syncInFlight ≠ none ∨ d.base ≠ copy.position) :
      Course draw r (.delta d) ((r.buffer d).andThen (reevaluate draw))
  | turn {d : Delta} {copy : Snapshot} {o : Outcome Replica SyncEffect}
      (hc : r.workingCopy = some copy) (h : r.IsNext d)
      (ho : Moves draw r [copy.apply d] (copy.apply d) o) : Course draw r (.delta d) o
  | idle (h : r.destroyed = true ∨ r.pending = ∅) :
      Course draw r .stallTimeout (.stay { r with stallTimerArmed := false })
  | stalled (hd : r.destroyed = false) (hp : r.pending ≠ ∅) :
      Course draw r .stallTimeout (startSync draw { r with stallTimerArmed := false })
  | unexpected {kind : SyncKind} {result : Except TransportError (Option Snapshot)}
      (h : r.syncInFlight ≠ some kind) : Course draw r (.syncResult kind result) (.stay r)
  | fetched {kind : SyncKind} {snapshot copy : Snapshot} {o : Outcome Replica SyncEffect}
      (h : r.syncInFlight = some kind) (hc : (r.adopt kind snapshot).workingCopy = some copy)
      (hp : copy.position = snapshot.position)
      (ho : Moves draw { r with syncInFlight := none } [copy] copy o) :
      Course draw r (.syncResult kind (.ok (some snapshot))) o
  | unchanged {kind : SyncKind} {copy : Snapshot} {o : Outcome Replica SyncEffect}
      (h : r.syncInFlight = some kind) (hc : r.workingCopy = some copy)
      (ho : Moves draw { r with syncInFlight := none } [] copy o) :
      Course draw r (.syncResult kind (.ok none)) o
  | unheld {kind : SyncKind} (h : r.syncInFlight = some kind) (hc : r.workingCopy = none) :
      Course draw r (.syncResult kind (.ok none))
        { state := { r with syncInFlight := none }, metrics := [.resync kind true] }
  | narrowFailed {e : TransportError} (h : r.syncInFlight = some .delta) :
      Course draw r (.syncResult .delta (.error e))
        (Outcome.andThen
          { state := { r with syncInFlight := none }, metrics := [.resync .delta false] }
          startFullSync)
  | fullFailed {e : TransportError} (h : r.syncInFlight = some .full) :
      Course draw r (.syncResult .full (.error e))
        (Outcome.andThen
          { state := { r with syncInFlight := none }, metrics := [.resync .full false] } giveUp)

theorem course_onFull (draw : Nat) (snapshot : Snapshot) (r : Replica) :
    Course draw r (.full snapshot) (r.onFull draw snapshot) := by
  unfold onFull
  split
  · rename_i hd
    exact .refused fun h => by simp [h.1] at hd
  · rename_i hd
    split
    · rename_i hcmp
      exact .accepted ⟨by simpa using hd, hcmp⟩ (.of_publish rfl rfl rfl)
    · rename_i hcmp
      exact .refused fun h => by rw [h.2] at hcmp; cases hcmp
    · rename_i hcmp
      exact .diverged fun h => by rw [h.2] at hcmp; cases hcmp

theorem course_onDelta (draw : Nat) (d : Delta) (r : Replica) :
    Course draw r (.delta d) (r.onDelta draw d) := by
  unfold onDelta
  split
  · exact .dropped ‹_›
  · rename_i hd
    have hd : r.destroyed = false := by simpa using hd
    cases hc : r.workingCopy with
    | none =>
      simp only [lastApplied, hc, Option.map_none]
      exact .early hd hc
    | some copy =>
      simp only [lastApplied_of_copy hc]
      split
      · exact .stale hd hc ‹_›
      · rename_i hlt
        have hlt := UInt64.not_le.1 hlt
        split
        · rename_i h
          simp only [Bool.or_eq_true, decide_eq_true_iff, Option.isSome_iff_ne_none] at h
          exact .waits hd hc hlt h
        · rename_i h
          simp only [Bool.or_eq_true, decide_eq_true_iff, Option.isSome_iff_ne_none, not_or,
            Classical.not_not, ne_eq] at h
          refine .turn hc ⟨hd, h.1, ?_, h.2 ▸ hlt⟩
            (.of_publish (applyDelta_state d hc) rfl (applyDelta_effects d hc))
          rw [lastApplied_of_copy hc, h.2]

theorem course_onStallTimeout (draw : Nat) (r : Replica) :
    Course draw r .stallTimeout (r.onStallTimeout draw) := by
  unfold onStallTimeout
  simp only
  split
  · rename_i h
    simp only [Bool.or_eq_true, SortedMap.isEmpty_iff] at h
    exact .idle h
  · rename_i h
    simp only [Bool.or_eq_true, SortedMap.isEmpty_iff, not_or, Bool.not_eq_true] at h
    exact .stalled h.1 h.2

theorem course_onSyncResult (draw : Nat) (kind : SyncKind)
    (result : Except TransportError (Option Snapshot)) (r : Replica) :
    Course draw r (.syncResult kind result) (r.onSyncResult draw kind result) := by
  unfold onSyncResult
  split
  · exact .unexpected ‹_›
  · rename_i h
    have h : r.syncInFlight = some kind := Classical.not_not.1 h
    cases result with
    | ok fetched =>
      cases fetched with
      | some snapshot =>
        obtain ⟨copy, hadopt, hp⟩ := adopt_spec kind snapshot { r with syncInFlight := none }
        have hc := congrArg workingCopy hadopt
        rw [adopt_syncInFlight] at hc
        refine .fetched h hc hp ?_
        show Moves _ _ _ _ (Outcome.andThen _ fun r =>
          ((r.adopt kind snapshot).publish.andThen discardSuperseded).andThen (settle draw))
        -- what does not lead beyond the copy is dropped here and again when the replica settles
        rw [← Outcome.andThen_assoc]
        refine .of_publish ?_ (beyond_beyond _ _) ?_
        · simp only [Outcome.andThen_state, hadopt]
          exact discardSuperseded_state rfl
        · simp only [Outcome.andThen_effects, hadopt, discardSuperseded_effects]
          rfl
      | none =>
        show Course _ _ _ (Outcome.andThen _ fun r => (Outcome.stay r).andThen (settle draw))
        simp only [Outcome.stay_andThen]
        rcases Option.eq_none_or_eq_some r.workingCopy with hc | ⟨copy, hc⟩
        · have hstay := settle_of_none draw (r := { r with syncInFlight := none }) hc
          simp only [Outcome.andThen, hstay]
          exact .unheld h hc
        · have hmoves := moves_settle draw (r := { r with syncInFlight := none }) hc
          exact .unchanged h hc ⟨hmoves.state, hmoves.effects⟩
    | error e =>
      cases kind with
      | delta => exact .narrowFailed h
      | full => exact .fullFailed h

theorem course_step (draw : Nat) (input : SyncInput) (r : Replica) :
    Course draw r input (r.step draw input) := by
  cases input with
  | full snapshot => exact course_onFull draw snapshot r
  | delta d => exact course_onDelta draw d r
  | stallTimeout => exact course_onStallTimeout draw r
  | syncResult kind result => exact course_onSyncResult draw kind result r

/-! ### The working copy after a step -/

theorem not_isNext_of_stale {r : Replica} {d : Delta} {copy : Snapshot}
    (hc : r.workingCopy = some copy) (h : d.target ≤ copy.position) : ¬ r.IsNext d := by
  intro hn
  have hbase : copy.position = d.base := by
    have hl := hn.2.2.1
    rw [lastApplied_of_copy hc] at hl
    exact Option.some.inj hl
  exact UInt64.not_lt.2 (hbase ▸ h) hn.2.2.2

theorem not_isNext_of_waits {r : Replica} {d : Delta} {copy : Snapshot}
    (hc : r.workingCopy = some copy) (h : r.syncInFlight ≠ none ∨ d.base ≠ copy.position) :
    ¬ r.IsNext d := by
  rintro ⟨-, hf, hl, -⟩
  rw [lastApplied_of_copy hc] at hl
  rcases h with h | h
  · exact h hf
  · exact h (Option.some.inj hl).symm

/-- What a step that applies and adopts nothing amounts to. -/
theorem Upkeep.moves {input : SyncInput} {r : Replica} {o : Outcome Replica SyncEffect}
    (h : Upkeep r o) (hadopted : r.adopted? input = none) (happlied : r.applied input = []) :
    o.state.limits = r.limits ∧
      o.state.workingCopy =
        ((r.adopted? input).or r.workingCopy).map ((r.applied input).foldl Snapshot.apply) ∧
      SyncEffect.copies o.effects =
        (r.adopted? input).toList ++
          (((r.adopted? input).or r.workingCopy).map (·.trail (r.applied input))).getD [] := by
  refine ⟨h.limits, ?_⟩
  rw [hadopted, happlied, h.workingCopy, h.copies, Option.none_or]
  cases r.workingCopy <;> exact ⟨rfl, rfl⟩

theorem Moves.workingCopy {draw : Nat} {r : Replica} {lead : List Snapshot} {copy : Snapshot}
    {o : Outcome Replica SyncEffect} (h : Moves draw r lead copy o) :
    o.state.workingCopy = some ((r.turnsFrom copy.position).foldl Snapshot.apply copy) := by
  rw [h.state, (upkeep_reevaluate draw _).workingCopy]
  rfl

theorem Moves.limits {draw : Nat} {r : Replica} {lead : List Snapshot} {copy : Snapshot}
    {o : Outcome Replica SyncEffect} (h : Moves draw r lead copy o) :
    o.state.limits = r.limits := by
  rw [h.state, (upkeep_reevaluate draw _).limits]
  rfl

theorem Moves.copies {draw : Nat} {r : Replica} {lead : List Snapshot} {copy : Snapshot}
    {o : Outcome Replica SyncEffect} (h : Moves draw r lead copy o) :
    SyncEffect.copies o.effects = lead ++ copy.trail (r.turnsFrom copy.position) := by
  rw [h.effects, SyncEffect.copies_append, SyncEffect.copies_map_applied,
    (upkeep_reevaluate draw _).copies, List.append_nil]

/-- The working copy after a step, and the copies that the step publishes. -/
theorem step_moves (draw : Nat) (input : SyncInput) (r : Replica) :
    (r.step draw input).state.limits = r.limits ∧
      (r.step draw input).state.workingCopy =
        ((r.adopted? input).or r.workingCopy).map ((r.applied input).foldl Snapshot.apply) ∧
      SyncEffect.copies (r.step draw input).effects =
        (r.adopted? input).toList ++
          (((r.adopted? input).or r.workingCopy).map (·.trail (r.applied input))).getD [] := by
  have h := course_step draw input r
  generalize r.step draw input = o at h
  -- the courses with `Moves` change the copy; in all others there is only upkeep
  cases h with
  | accepted h ho =>
    rw [ho.workingCopy, ho.copies, adopted?, applied, if_pos h, if_pos h]
    exact ⟨ho.limits, rfl, rfl⟩
  | refused h => exact (Upkeep.stay r).moves (if_neg h) (if_neg h)
  | diverged h => exact (upkeep_startSync draw r).moves (if_neg h) (if_neg h)
  | dropped h =>
    exact Upkeep.moves ⟨rfl, rfl, rfl⟩ rfl (if_neg fun hn => by simp [hn.1] at h)
  | early hd hc =>
    refine Upkeep.moves ⟨rfl, rfl, rfl⟩ rfl (if_neg fun hn => ?_)
    have hl := hn.2.2.1
    rw [lastApplied, hc] at hl
    cases hl
  | stale hd hc h => exact Upkeep.moves ⟨rfl, rfl, rfl⟩ rfl (if_neg (not_isNext_of_stale hc h))
  | waits hd hc hlt h =>
    exact Upkeep.moves (Upkeep.andThen ⟨rfl, rfl, rfl⟩ (upkeep_reevaluate draw)) rfl
      (if_neg (not_isNext_of_waits hc h))
  | @turn d copy _ hc h ho =>
    have hadopted : r.adopted? (.delta d) = none := rfl
    rw [ho.workingCopy, ho.copies, hadopted, applied, if_pos h, hc]
    exact ⟨ho.limits, rfl, rfl⟩
  | idle h => exact Upkeep.moves (r := r) ⟨rfl, rfl, rfl⟩ rfl rfl
  | stalled hd hp =>
    have hup := upkeep_startSync draw { r with stallTimerArmed := false }
    exact Upkeep.moves ⟨hup.workingCopy, hup.limits, hup.copies⟩ rfl rfl
  | @unexpected kind result h =>
    rcases result with e | (_ | fetched)
    · exact (Upkeep.stay r).moves rfl rfl
    · exact (Upkeep.stay r).moves rfl (if_neg h)
    · exact (Upkeep.stay r).moves (if_neg h) (if_neg h)
  | @fetched kind snapshot copy _ h hc hp ho =>
    rw [ho.workingCopy, ho.copies, adopted?, applied, if_pos h, if_pos h, hc, hp]
    exact ⟨ho.limits, rfl, rfl⟩
  | @unchanged kind copy _ h hc ho =>
    have hadopted : r.adopted? (.syncResult kind (.ok none)) = none := rfl
    rw [ho.workingCopy, ho.copies, hadopted, applied, if_pos h, hc, lastApplied_of_copy hc]
    exact ⟨ho.limits, rfl, rfl⟩
  | @unheld kind h hc =>
    have happlied : r.applied (.syncResult kind (.ok none)) = [] := by
      rw [applied, if_pos h, lastApplied, hc]
      rfl
    exact Upkeep.moves (r := r) ⟨rfl, rfl, rfl⟩ rfl happlied
  | narrowFailed h =>
    have hup := upkeep_startFullSync { r with syncInFlight := none }
    exact Upkeep.moves ⟨hup.workingCopy, hup.limits, hup.copies⟩ rfl rfl
  | fullFailed h =>
    have hup := upkeep_giveUp { r with syncInFlight := none }
    exact Upkeep.moves ⟨hup.workingCopy, hup.limits, hup.copies⟩ rfl rfl

/-! ### Runs -/

theorem run_eq (inputs : List (Nat × SyncInput)) (r : Replica) :
    run inputs r = Outcome.runAll (fun input => step input.1 input.2) inputs r := by
  rw [run, Outcome.foldl_andThen, Outcome.stay_andThen]

@[simp] theorem run_nil (r : Replica) : run [] r = .stay r := rfl

theorem run_cons (input : Nat × SyncInput) (inputs : List (Nat × SyncInput)) (r : Replica) :
    run (input :: inputs) r = (r.step input.1 input.2).andThen (run inputs) := by
  rw [run, List.foldl_cons, Outcome.stay_andThen, Outcome.foldl_andThen]
  exact congrArg (Outcome.andThen _) (funext fun s => (run_eq inputs s).symm)

theorem run_append (xs ys : List (Nat × SyncInput)) (r : Replica) :
    run (xs ++ ys) r = (run xs r).andThen (run ys) := by
  rw [run_eq, Outcome.runAll_append, ← run_eq]
  exact congrArg (Outcome.andThen _) (funext fun s => (run_eq ys s).symm)

/-- What every step keeps holds after every run. -/
theorem run_induction {P : Replica → Prop}
    (hstep : ∀ draw input r, P r → P (r.step draw input).state)
    (inputs : List (Nat × SyncInput)) {r : Replica} (h : P r) : P (run inputs r).state := by
  rw [run_eq]
  exact Outcome.runAll_induction (fun input => hstep input.1 input.2) inputs h

theorem limits_run (inputs : List (Nat × SyncInput)) (r : Replica) :
    (run inputs r).state.limits = r.limits :=
  run_induction (P := fun s => s.limits = r.limits)
    (fun draw input s hs => (step_moves draw input s).1.trans hs) inputs rfl

end Replica

end CallSignaling.Locus
