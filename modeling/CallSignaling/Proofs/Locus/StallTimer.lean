import CallSignaling.Proofs.Locus.Course

/-!
# The stall timer among the effects

The owner of a replica runs the stall timer and knows of it by the effects of the replica only,
which stop and start it, several times in one step if need be.

* `Locus.SyncEffect.timerAfter`: whether the timer of one who does what effects say runs after them.
* `Locus.Replica.TellsTimer`: an outcome whose effects say whether the timer of the replica runs.
* `Locus.Replica.timerBefore`: whether the timer runs when an input comes in, which it does not if
  the input is that it fired.

Main statement: the effects of every step say whether the timer runs after it (`timer_step`).
-/

namespace CallSignaling.Locus

/-! ### Timers of others -/

namespace SyncEffect

/-- Whether the timer runs once an effect is carried out. -/
def timer (running : Bool) : SyncEffect → Bool
  | armStallTimer _ => true
  | cancelStallTimer | destroy _ => false
  | applied _ | fetch _ _ => running

/-- Whether the timer runs once effects are carried out in turn. -/
def timerAfter (effects : List SyncEffect) (running : Bool) : Bool := effects.foldl timer running

@[simp] theorem timerAfter_append (xs ys : List SyncEffect) (running : Bool) :
    timerAfter (xs ++ ys) running = timerAfter ys (timerAfter xs running) :=
  List.foldl_append

/-- Publishing does not touch the timer. -/
@[simp] theorem timerAfter_map_applied (copies : List Snapshot) (running : Bool) :
    timerAfter (copies.map applied) running = running := by
  induction copies with
  | nil => rfl
  | cons copy copies ih => exact ih

end SyncEffect

namespace Replica

open SyncEffect

/-! ### Parts of a step -/

/-- The effects of the outcome say whether the timer of the replica runs. -/
def TellsTimer (r : Replica) (o : Outcome Replica SyncEffect) : Prop :=
  o.state.stallTimerArmed = timerAfter o.effects r.stallTimerArmed

theorem TellsTimer.stay (r : Replica) : TellsTimer r (.stay r) := rfl

theorem TellsTimer.andThen {r : Replica} {o : Outcome Replica SyncEffect}
    {f : Replica → Outcome Replica SyncEffect} (h : TellsTimer r o)
    (hf : TellsTimer o.state (f o.state)) : TellsTimer r (o.andThen f) := by
  unfold TellsTimer at h hf ⊢
  rw [Outcome.andThen_state, Outcome.andThen_effects, timerAfter_append, hf, h]

theorem tellsTimer_armTimer (draw : Nat) (r : Replica) : TellsTimer r (r.armTimer draw) := by
  unfold armTimer
  split
  · exact .stay r
  · rfl

theorem tellsTimer_cancelTimer (r : Replica) : TellsTimer r r.cancelTimer := by
  unfold cancelTimer
  split
  · rfl
  · exact .stay r

theorem tellsTimer_startFetch (url : String) (kind : SyncKind) (r : Replica) :
    TellsTimer r (r.cancelTimer.andThen (startFetch url kind)) :=
  (tellsTimer_cancelTimer r).andThen rfl

theorem tellsTimer_giveUp (r : Replica) : TellsTimer r r.giveUp := by
  unfold giveUp
  split
  · exact .stay r
  · -- the timer has been stopped before the meeting is given up
    refine (tellsTimer_cancelTimer { r with destroyed := true }).andThen ?_
    rw [cancelTimer_state]
    rfl

theorem tellsTimer_startFullSync (r : Replica) : TellsTimer r r.startFullSync := by
  unfold startFullSync
  split
  · exact tellsTimer_giveUp r
  · exact tellsTimer_startFetch _ .full r

theorem tellsTimer_startSync (draw : Nat) (r : Replica) : TellsTimer r (r.startSync draw) := by
  unfold startSync
  split
  · exact .stay r
  · split
    · exact .stay r
    · split
      · exact tellsTimer_startFetch _ .delta r
      · split
        · exact tellsTimer_armTimer draw r
        · exact tellsTimer_startFullSync r

theorem tellsTimer_reevaluate (draw : Nat) (r : Replica) : TellsTimer r (r.reevaluate draw) := by
  unfold reevaluate
  split
  · exact .stay r
  · split
    · exact tellsTimer_cancelTimer r
    · split
      · exact tellsTimer_startSync draw r
      · exact tellsTimer_armTimer draw r

theorem Moves.tellsTimer {draw : Nat} {r : Replica} {lead : List Snapshot} {copy : Snapshot}
    {o : Outcome Replica SyncEffect} (ho : Moves draw r lead copy o) : TellsTimer r o := by
  have h : timerAfter ((r.caughtUp copy).reevaluate draw).effects r.stallTimerArmed =
      ((r.caughtUp copy).reevaluate draw).state.stallTimerArmed :=
    (tellsTimer_reevaluate draw (r.caughtUp copy)).symm
  rw [TellsTimer, ho.state, ho.effects, timerAfter_append, timerAfter_map_applied, h]

/-! ### Steps -/

/-- Whether the timer runs when an input comes in.  Once it has fired it does not. -/
def timerBefore (r : Replica) : SyncInput → Bool
  | .stallTimeout => false
  | .full _ | .delta _ | .syncResult _ _ => r.stallTimerArmed

/-- The effects of a step say whether the timer runs after it. -/
theorem timer_step (draw : Nat) (input : SyncInput) (r : Replica) :
    (r.step draw input).state.stallTimerArmed =
      timerAfter (r.step draw input).effects (r.timerBefore input) := by
  have hcourse := course_step draw input r
  generalize r.step draw input = o at hcourse
  cases hcourse with
  | accepted _ ho => exact ho.tellsTimer
  | refused => rfl
  | diverged => exact tellsTimer_startSync draw r
  | dropped => rfl
  | early => rfl
  | stale => rfl
  | @waits d _ _ _ _ _ =>
    have h : TellsTimer r (r.buffer d) := rfl
    exact h.andThen (tellsTimer_reevaluate draw _)
  | turn _ _ ho => exact ho.tellsTimer
  | idle => rfl
  | stalled => exact tellsTimer_startSync draw { r with stallTimerArmed := false }
  | unexpected => rfl
  | fetched _ _ _ ho => exact ho.tellsTimer
  | unchanged _ _ ho => exact ho.tellsTimer
  | unheld => rfl
  | narrowFailed => exact tellsTimer_startFullSync { r with syncInFlight := none }
  | fullFailed => exact tellsTimer_giveUp { r with syncInFlight := none }

end Replica

end CallSignaling.Locus
