import CallSignaling.Proofs.Locus.Course

/-!
# A replica never gets stuck

* `Locus.Replica.Sound`: what holds between the parts of a replica even in the middle of a step.
* `Locus.Replica.Settled`: besides, no change that waits has its turn.
* `Locus.Replica.WellFormed`: besides, somebody looks after what waits: the timer runs or a fetch is
  under way, and a backlog that is too long is fetched if it is known from where.

Deciding about what waits makes a settled replica well formed (`wellFormed_reevaluate`), every step
keeps it so (`wellFormed_step`), and hence every run from a new replica does.
-/

namespace CallSignaling.Locus.Replica

open Backlog

/-- What holds between the parts of a replica even in the middle of a step. -/
structure Sound (r : Replica) : Prop where
  /-- Every change waits under its own base position. -/
  keyed : Keyed r.pending
  /-- Every change that waits leads beyond the working copy. -/
  ahead : ∀ copy, r.workingCopy = some copy → Ahead copy.position r.pending
  /-- Before there is a working copy nothing runs. -/
  fresh : r.workingCopy = none →
    r.stallTimerArmed = false ∧ r.syncInFlight = none ∧ r.destroyed = false
  /-- The timer does not run during a fetch. -/
  exclusive : r.syncInFlight ≠ none → r.stallTimerArmed = false
  /-- Once the meeting is given up nothing waits or runs. -/
  dead : r.destroyed = true →
    r.pending = ∅ ∧ r.stallTimerArmed = false ∧ r.syncInFlight = none

/-- A sound replica in which no change that waits has its turn. -/
structure Settled (r : Replica) : Prop extends Sound r where
  /-- Unless a fetch is under way, no change that waits starts where the working copy is. -/
  blocked : ∀ copy, r.workingCopy = some copy → r.syncInFlight = none → r.destroyed = false →
    ∀ b d, r.pending.get? b = some d → d.base ≠ copy.position

/-- A settled replica in which somebody looks after what waits. -/
structure WellFormed (r : Replica) : Prop extends Settled r where
  /-- If changes wait, either the timer runs or a fetch is under way, and not both. -/
  watched : r.workingCopy ≠ none → r.destroyed = false → r.pending ≠ ∅ →
    (r.stallTimerArmed = true ∧ r.syncInFlight = none) ∨
      (r.stallTimerArmed = false ∧ r.syncInFlight ≠ none)
  /-- Without a fetch, too many changes wait only if it is not known where to fetch. -/
  bounded : ∀ copy, r.workingCopy = some copy → r.destroyed = false → r.syncInFlight = none →
    r.limits.maxOutOfOrder < r.pending.size → copy.syncUrl = none ∧ copy.url = ""

theorem Sound.workingCopy_ne_none {r : Replica} (h : Sound r) (hf : r.syncInFlight ≠ none) :
    r.workingCopy ≠ none :=
  fun hc => hf (h.fresh hc).2.1

theorem Sound.destroyed_eq_false {r : Replica} (h : Sound r) (hf : r.syncInFlight ≠ none) :
    r.destroyed = false :=
  Bool.eq_false_iff.2 fun hd => hf (h.dead hd).2.2

/-! ### Ways to be looked after -/

/-- Without a working copy there is nothing to look after. -/
theorem Sound.wellFormed_of_none {r : Replica} (h : Sound r) (hc : r.workingCopy = none) :
    WellFormed r where
  toSound := h
  blocked := fun copy hcopy => by rw [hc] at hcopy; cases hcopy
  watched := fun hne => absurd hc hne
  bounded := fun copy hcopy => by rw [hc] at hcopy; cases hcopy

theorem Settled.wellFormed_of_busy {r : Replica} (h : Settled r)
    (hbusy : r.syncInFlight ≠ none ∨ r.destroyed = true) : WellFormed r where
  toSettled := h
  watched := by
    intro _ hd _
    rcases hbusy with hf | hd'
    · exact .inr ⟨h.exclusive hf, hf⟩
    · rw [hd] at hd'
      cases hd'
  bounded := by
    intro _ _ hd hf
    rcases hbusy with hf' | hd'
    · exact absurd hf hf'
    · rw [hd] at hd'
      cases hd'

theorem Settled.wellFormed_of_empty {r : Replica} (h : Settled r) (hp : r.pending = ∅) :
    WellFormed r where
  toSettled := h
  watched := fun _ _ hne => absurd hp hne
  bounded := fun _ _ _ _ hlt => by rw [hp] at hlt; cases hlt

/-- A fetch looks after what waits. -/
theorem Sound.wellFormed_fetching {r : Replica} (h : Sound r) (hc : r.workingCopy ≠ none)
    (hd : r.destroyed = false) (kind : SyncKind) :
    WellFormed { r with stallTimerArmed := false, syncInFlight := some kind } := by
  refine Settled.wellFormed_of_busy ?_ (.inl (Option.some_ne_none kind))
  exact {
    keyed := h.keyed
    ahead := h.ahead
    fresh := fun hn => absurd hn hc
    exclusive := fun _ => rfl
    dead := fun hd' => by rw [hd] at hd'; cases hd'
    blocked := fun _ _ hf => by cases hf }

/-- The timer looks after what waits, as long as not too much of it does. -/
theorem Settled.wellFormed_armed {r : Replica} (h : Settled r) (hc : r.workingCopy ≠ none)
    (hd : r.destroyed = false) (hf : r.syncInFlight = none)
    (hbound : ∀ copy, r.workingCopy = some copy →
      r.limits.maxOutOfOrder < r.pending.size → copy.syncUrl = none ∧ copy.url = "") :
    WellFormed { r with stallTimerArmed := true } where
  keyed := h.keyed
  ahead := h.ahead
  fresh := fun hn => absurd hn hc
  exclusive := fun hf' => absurd hf hf'
  dead := fun hd' => by rw [hd] at hd'; cases hd'
  blocked := h.blocked
  watched := fun _ _ _ => .inl ⟨rfl, hf⟩
  bounded := fun copy hcopy _ _ => hbound copy hcopy

theorem Settled.disarmed {r : Replica} (h : Settled r) :
    Settled { r with stallTimerArmed := false } where
  keyed := h.keyed
  ahead := h.ahead
  fresh := fun hc => ⟨rfl, (h.fresh hc).2⟩
  exclusive := fun _ => rfl
  dead := fun hd => ⟨(h.dead hd).1, rfl, (h.dead hd).2.2⟩
  blocked := h.blocked

/-! ### Upkeep -/

theorem wellFormed_giveUp {r : Replica} (hc : r.workingCopy ≠ none) (hd : r.destroyed = false)
    (hf : r.syncInFlight = none) : WellFormed r.giveUp.state := by
  rw [giveUp_state hd]
  refine Settled.wellFormed_of_busy ?_ (.inr rfl)
  exact {
    keyed := fun _ _ hg => by cases hg
    ahead := fun _ _ _ _ hg => by cases hg
    fresh := fun hn => absurd hn hc
    exclusive := fun _ => rfl
    dead := fun _ => ⟨rfl, rfl, hf⟩
    blocked := fun _ _ _ hd' => by cases hd' }

theorem wellFormed_startFullSync {r : Replica} (h : Sound r) (hc : r.workingCopy ≠ none)
    (hd : r.destroyed = false) (hf : r.syncInFlight = none) :
    WellFormed r.startFullSync.state := by
  unfold startFullSync
  split
  · exact wellFormed_giveUp hc hd hf
  · rw [startFetch_state]
    exact h.wellFormed_fetching hc hd .full

theorem url_eq_empty_of_fullSyncUrl? {r : Replica} {copy : Snapshot}
    (hc : r.workingCopy = some copy) (h : r.fullSyncUrl?.isNone = true) : copy.url = "" := by
  rw [fullSyncUrl?, hc, Option.map_some, Option.filter_some] at h
  by_cases he : copy.url.isEmpty
  · simpa using he
  · simp [he] at h

theorem wellFormed_startSync (draw : Nat) {r : Replica} (h : Settled r) :
    WellFormed (r.startSync draw).state := by
  unfold startSync
  split
  · rename_i hbusy
    rw [Bool.or_eq_true, Option.isSome_iff_ne_none] at hbusy
    exact h.wellFormed_of_busy hbusy
  · rename_i hbusy
    rw [Bool.or_eq_true, Option.isSome_iff_ne_none, not_or, Classical.not_not,
      Bool.not_eq_true] at hbusy
    obtain ⟨hf, hd⟩ := hbusy
    split
    · rename_i hc
      exact h.wellFormed_of_none hc
    · rename_i copy hc
      have hne : r.workingCopy ≠ none := by rw [hc]; exact Option.some_ne_none copy
      split
      · rw [startFetch_state]
        exact h.wellFormed_fetching hne hd .delta
      · rename_i hsync
        split
        · rename_i hfull
          rw [armTimer_state]
          refine h.wellFormed_armed hne hd hf fun copy' hcopy' _ => ?_
          rw [hc] at hcopy'
          cases hcopy'
          exact ⟨hsync, url_eq_empty_of_fullSyncUrl? hc hfull⟩
        · exact wellFormed_startFullSync h.toSound hne hd hf

/-- Deciding about what waits makes a settled replica well formed. -/
theorem wellFormed_reevaluate (draw : Nat) {r : Replica} (h : Settled r) :
    WellFormed (r.reevaluate draw).state := by
  unfold reevaluate
  split
  · rename_i hbusy
    rw [Bool.or_eq_true, Bool.or_eq_true, Option.isSome_iff_ne_none, Option.isNone_iff_eq_none]
      at hbusy
    -- nothing is decided: someone else is in charge, or there is no copy to look after
    rcases hbusy with (hd | hf) | hc
    · exact h.wellFormed_of_busy (.inr hd)
    · exact h.wellFormed_of_busy (.inl hf)
    · exact h.wellFormed_of_none hc
  · rename_i hbusy
    rw [Bool.or_eq_true, Bool.or_eq_true, Option.isSome_iff_ne_none, Option.isNone_iff_eq_none,
      not_or, not_or, Classical.not_not, Bool.not_eq_true] at hbusy
    obtain ⟨⟨hd, hf⟩, hc⟩ := hbusy
    split
    · rename_i hp
      rw [cancelTimer_state]
      exact h.disarmed.wellFormed_of_empty (SortedMap.isEmpty_iff.1 hp)
    · split
      · exact wellFormed_startSync draw h
      · rename_i hle
        rw [armTimer_state]
        exact h.wellFormed_armed hc hd hf fun _ _ hlt => absurd hlt hle

/-! ### Steps -/

theorem caughtUp_position (copy : Snapshot) (r : Replica) :
    ((r.turnsFrom copy.position).foldl Snapshot.apply copy).position =
      Delta.stop copy.position (r.turnsFrom copy.position) :=
  Snapshot.position_foldl_apply copy _

/-- The replica that has taken a copy and applied what has its turn is settled. -/
theorem settled_caughtUp {r : Replica} (copy : Snapshot) (hk : Keyed r.pending)
    (hd : r.destroyed = false) (hx : r.syncInFlight ≠ none → r.stallTimerArmed = false) :
    Settled (r.caughtUp copy) := by
  have hdrains := drains_turns copy.position (beyond copy.position r.pending)
  refine {
    keyed := fun b d hg => hk b d (get?_beyond_eq_some.1 (hdrains.get?_rest hg)).1
    ahead := ?_
    fresh := fun hc => by cases hc
    exclusive := hx
    dead := fun hd' => absurd hd' (Bool.eq_false_iff.1 hd)
    blocked := ?_ }
  · intro copy' hcopy'
    cases hcopy'
    rw [caughtUp_position]
    exact hdrains.ahead (ahead_beyond _ _)
  · intro copy' hcopy' _ _ b d hg hb
    cases hcopy'
    -- a change with the final position as its base would wait there, and would have had its turn
    have hkeyed := hk b d (get?_beyond_eq_some.1 (hdrains.get?_rest hg)).1
    have hstop := hdrains.get?_stop
    rw [caughtUp_position] at hb
    rw [← hkeyed, hb] at hg
    exact Option.some_ne_none d (hg.symm.trans hstop)

theorem wellFormed_of_moves {draw : Nat} {r : Replica} {lead : List Snapshot} {copy : Snapshot}
    {o : Outcome Replica SyncEffect} (ho : Moves draw r lead copy o) (hk : Keyed r.pending)
    (hd : r.destroyed = false) (hx : r.syncInFlight ≠ none → r.stallTimerArmed = false) :
    WellFormed o.state := by
  rw [ho.state]
  exact wellFormed_reevaluate draw (settled_caughtUp copy hk hd hx)

theorem sound_buffer {r : Replica} {d : Delta} (h : Sound r) (hd : r.destroyed = false)
    (ha : ∀ copy, r.workingCopy = some copy → copy.position < d.target) :
    Sound (r.buffer d).state where
  keyed := keyed_insert h.keyed
  ahead := fun copy hc => ahead_insert (h.ahead copy hc) (ha copy hc)
  fresh := h.fresh
  exclusive := h.exclusive
  dead := fun hd' => absurd hd' (Bool.eq_false_iff.1 hd)

/-- A change that waits because it does not have its turn leaves a settled replica settled. -/
theorem settled_buffer {r : Replica} {d : Delta} {copy : Snapshot} (h : Settled r)
    (hd : r.destroyed = false) (hc : r.workingCopy = some copy) (hlt : copy.position < d.target)
    (hwait : r.syncInFlight ≠ none ∨ d.base ≠ copy.position) : Settled (r.buffer d).state := by
  have hsound : Sound (r.buffer d).state := by
    refine sound_buffer h.toSound hd fun copy' hcopy' => ?_
    rw [hc] at hcopy'
    cases hcopy'
    exact hlt
  refine { toSound := hsound, blocked := ?_ }
  intro copy' hcopy' hf _ b e hg
  have hcopy : r.workingCopy = some copy' := hcopy'
  rw [hc] at hcopy
  cases hcopy
  by_cases hb : b = d.base
  · have hget : (r.pending.insert d.base d).get? b = some e := hg
    rw [hb, SortedMap.get?_insert_self] at hget
    cases hget
    rcases hwait with hf' | hne
    · exact absurd hf hf'
    · exact hne
  · have hget : (r.pending.insert d.base d).get? b = some e := hg
    rw [SortedMap.get?_insert_of_ne _ _ hb] at hget
    exact h.blocked copy hc hf hd b e hget

/-- Every step keeps a replica well formed. -/
theorem wellFormed_step (draw : Nat) (input : SyncInput) {r : Replica} (h : WellFormed r) :
    WellFormed (r.step draw input).state := by
  have hcourse := course_step draw input r
  generalize r.step draw input = o at hcourse
  -- a step that moves the copy settles anew; all others are settled as before, or become busy
  cases hcourse with
  | accepted ha ho => exact wellFormed_of_moves ho h.keyed ha.1 h.exclusive
  | refused => exact h
  | diverged => exact wellFormed_startSync draw h.toSettled
  | dropped => exact h
  | early hd hc =>
    refine (sound_buffer h.toSound hd fun copy hcopy => ?_).wellFormed_of_none hc
    rw [hc] at hcopy
    cases hcopy
  | stale => exact h
  | waits hd hc hlt hwait =>
    rw [Outcome.andThen_state]
    exact wellFormed_reevaluate draw (settled_buffer h.toSettled hd hc hlt hwait)
  | turn hc hn ho => exact wellFormed_of_moves ho h.keyed hn.1 h.exclusive
  | idle hidle =>
    rcases hidle with hd | hp
    · exact h.toSettled.disarmed.wellFormed_of_busy (.inr hd)
    · exact h.toSettled.disarmed.wellFormed_of_empty hp
  | stalled => exact wellFormed_startSync draw h.toSettled.disarmed
  | unexpected => exact h
  | fetched hf _ _ ho =>
    have hd := h.destroyed_eq_false (hf ▸ Option.some_ne_none _)
    exact wellFormed_of_moves ho h.keyed hd fun hne => absurd rfl hne
  | unchanged hf _ ho =>
    have hd := h.destroyed_eq_false (hf ▸ Option.some_ne_none _)
    exact wellFormed_of_moves ho h.keyed hd fun hne => absurd rfl hne
  | unheld hf hc => exact absurd hc (h.workingCopy_ne_none (hf ▸ Option.some_ne_none _))
  | narrowFailed hf =>
    have hne : r.syncInFlight ≠ none := hf ▸ Option.some_ne_none _
    have hsound : Sound { r with syncInFlight := none } := {
      keyed := h.keyed
      ahead := h.ahead
      fresh := fun hc => absurd hc (h.workingCopy_ne_none hne)
      exclusive := fun hne' => absurd rfl hne'
      dead := fun hd => absurd hd (Bool.eq_false_iff.1 (h.destroyed_eq_false hne)) }
    exact wellFormed_startFullSync hsound (h.workingCopy_ne_none hne) (h.destroyed_eq_false hne) rfl
  | fullFailed hf =>
    have hne : r.syncInFlight ≠ none := hf ▸ Option.some_ne_none _
    exact wellFormed_giveUp (r := { r with syncInFlight := none }) (h.workingCopy_ne_none hne)
      (h.destroyed_eq_false hne) rfl

theorem wellFormed_new (limits : Limits) : WellFormed { limits } := by
  have hsound : Sound { limits } := {
    keyed := fun _ _ hg => by cases hg
    ahead := fun _ hc => by cases hc
    fresh := fun _ => ⟨rfl, rfl, rfl⟩
    exclusive := fun hf => absurd rfl hf
    dead := fun hd => by cases hd }
  exact hsound.wellFormed_of_none rfl

theorem wellFormed_run (limits : Limits) (inputs : List (Nat × SyncInput)) :
    WellFormed (run inputs { limits }).state :=
  run_induction (fun draw input _ h => wellFormed_step draw input h) inputs (wellFormed_new limits)

/-- **A replica never gets stuck**: whatever arrives in whatever order, the backlog stays in order
and somebody looks after it. -/
theorem never_stuck (limits : Limits) (inputs : List (Nat × SyncInput)) :
    WellFormed (run inputs { limits }).state ∧ (run inputs { limits }).state.limits = limits :=
  ⟨wellFormed_run limits inputs, limits_run inputs { limits }⟩

end CallSignaling.Locus.Replica
