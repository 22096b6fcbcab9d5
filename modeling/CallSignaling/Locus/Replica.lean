import CallSignaling.Outcome
import CallSignaling.Text.Quoted

/-!
# A working copy kept in step with the server

A replica applies changes in order.  A change that does not start where the working copy is waits in
a buffer under its base position.  If the gap stays open for too long, or too many changes wait, the
replica fetches what it is missing.

* `Locus.Replica`: the working copy, the buffer, and whether a timer runs or a fetch is under way.
* `Locus.SyncEffect`: what the replica asks its owner for.
* `Locus.Replica.onFull`, `Locus.Replica.onDelta`, `Locus.Replica.onStallTimeout`,
  `Locus.Replica.onSyncResult`: the four things that can happen to it.
* `Locus.Replica.step`, `Locus.Replica.run`: the same as one function of an input, and of a list.
-/

namespace CallSignaling.Locus

/-- What the replica asks for. -/
inductive SyncEffect where
  /-- Publish the working copy. -/
  | applied (copy : Snapshot)
  /-- Start the stall timer, in milliseconds. -/
  | armStallTimer (delay : Nat)
  | cancelStallTimer
  /-- Fetch from `url` and report the result. -/
  | fetch (url : String) (kind : SyncKind)
  /-- Give the meeting up. -/
  | destroy (reason : DestroyReason)
  deriving Inhabited

/-- The limits of a replica, times in milliseconds. -/
structure Limits where
  /-- How many changes may wait without a fetch. -/
  maxOutOfOrder : Nat
  /-- How long a gap may stay open. -/
  stallTimeout : Nat
  /-- The longest random delay added to it. -/
  stallJitter : Nat
  deriving DecidableEq, Repr, Inhabited

/-- A working copy with the changes that wait for their turn. -/
structure Replica where
  limits : Limits
  workingCopy : Option Snapshot := none
  /-- The changes that wait, by base position. -/
  pending : SortedMap UInt64 Delta := ∅
  syncInFlight : Option SyncKind := none
  stallTimerArmed : Bool := false
  destroyed : Bool := false
  deriving Inhabited

/-- What can happen to a replica. -/
inductive SyncInput where
  /-- A whole copy arrived. -/
  | full (snapshot : Snapshot)
  /-- A change arrived. -/
  | delta (d : Delta)
  /-- The stall timer fired. -/
  | stallTimeout
  /-- A fetch ended.  An empty result says that there is nothing newer. -/
  | syncResult (kind : SyncKind) (result : Except TransportError (Option Snapshot))
  deriving Inhabited

namespace Replica

/-- The position of the working copy. -/
def lastApplied (r : Replica) : Option UInt64 := r.workingCopy.map (·.position)

/-- Where the whole state can be fetched. -/
def fullSyncUrl? (r : Replica) : Option String :=
  (r.workingCopy.map (·.url)).filter (!·.isEmpty)

/-! ### Building blocks -/

/-- Publishes the working copy. -/
def publish (r : Replica) : Outcome Replica SyncEffect :=
  { state := r, effects := (r.workingCopy.map SyncEffect.applied).toList }

/-- Starts the stall timer unless it runs.  The random part of the delay is the draw, or the longest
one if the draw exceeds it. -/
def armTimer (draw : Nat) (r : Replica) : Outcome Replica SyncEffect :=
  if r.stallTimerArmed then .stay r
  else
    { state := { r with stallTimerArmed := true }
      effects := [.armStallTimer (r.limits.stallTimeout + min draw r.limits.stallJitter)] }

/-- Stops the stall timer if it runs. -/
def cancelTimer (r : Replica) : Outcome Replica SyncEffect :=
  if r.stallTimerArmed then
    { state := { r with stallTimerArmed := false }, effects := [.cancelStallTimer] }
  else .stay r

/-- Asks for a fetch. -/
def startFetch (url : String) (kind : SyncKind) (r : Replica) : Outcome Replica SyncEffect :=
  { state := { r with syncInFlight := some kind }, effects := [.fetch url kind] }

/-- Gives the meeting up and drops what waits. -/
def giveUp (r : Replica) : Outcome Replica SyncEffect :=
  if r.destroyed then .stay r
  else
    (cancelTimer { r with destroyed := true }).andThen fun r =>
      { state := { r with pending := ∅ }
        effects := [.destroy .syncFailed]
        metrics := List.replicate r.pending.size (.delta .dropped) }

/-- Fetches the whole state, or gives up if it is not known from where. -/
def startFullSync (r : Replica) : Outcome Replica SyncEffect :=
  match r.fullSyncUrl? with
  | none => r.giveUp
  | some url => r.cancelTimer.andThen (startFetch url .full)

/-- Fetches what changed if it is known from where, else the whole state.  Without any address the
replica goes on waiting. -/
def startSync (draw : Nat) (r : Replica) : Outcome Replica SyncEffect :=
  if r.syncInFlight.isSome || r.destroyed then .stay r
  else
    match r.workingCopy with
    | none => .stay r
    | some copy =>
      match copy.syncUrl with
      | some url => r.cancelTimer.andThen (startFetch url .delta)
      | none => if r.fullSyncUrl?.isNone then r.armTimer draw else r.startFullSync

/-- Lets a change wait, in place of one with the same base position. -/
def buffer (d : Delta) (r : Replica) : Outcome Replica SyncEffect :=
  { state := { r with pending := r.pending.insert d.base d }, metrics := [.delta .buffered] }

/-- Applies a change to the working copy and publishes it. -/
def applyDelta (d : Delta) (r : Replica) : Outcome Replica SyncEffect :=
  match r.workingCopy with
  | none => .stay r
  | some copy =>
    Outcome.andThen
      { state := { r with workingCopy := some (copy.apply d) }, metrics := [.delta .applied] }
      publish

/-- Drops what waits but would not lead beyond the working copy. -/
def discardSuperseded (r : Replica) : Outcome Replica SyncEffect :=
  match r.lastApplied with
  | none => .stay r
  | some last =>
    let kept := r.pending.filter fun _ d => last < d.target
    { state := { r with pending := kept }
      metrics := List.replicate (r.pending.size - kept.size) (.delta .stale) }

/-- Applies the changes that have their turn, at most `fuel` of them. -/
def drainAtMost : Nat → Replica → Outcome Replica SyncEffect
  | 0, r => .stay r
  | fuel + 1, r =>
    match r.lastApplied with
    | none => .stay r
    | some last =>
      match r.pending.get? last with
      | none => .stay r
      | some next =>
        (applyDelta next { r with pending := r.pending.erase last }).andThen discardSuperseded
          |>.andThen (drainAtMost fuel)

/-- Applies the changes that have their turn.  Each of them leaves the buffer. -/
def drain (r : Replica) : Outcome Replica SyncEffect :=
  r.discardSuperseded.andThen fun r => drainAtMost r.pending.size r

/-- Decides between waiting, starting the timer and fetching. -/
def reevaluate (draw : Nat) (r : Replica) : Outcome Replica SyncEffect :=
  if r.destroyed || r.syncInFlight.isSome || r.workingCopy.isNone then .stay r
  else if r.pending.isEmpty then r.cancelTimer
  else if r.limits.maxOutOfOrder < r.pending.size then r.startSync draw
  else r.armTimer draw

/-- Applies what has its turn and decides what to do with the rest. -/
def settle (draw : Nat) (r : Replica) : Outcome Replica SyncEffect :=
  r.drain.andThen (reevaluate draw)

/-! ### Inputs -/

/-- A whole copy arrived. -/
def onFull (draw : Nat) (snapshot : Snapshot) (r : Replica) : Outcome Replica SyncEffect :=
  if r.destroyed then .stay r
  else
    match (r.workingCopy.map fun copy => copy.sequence.compare snapshot.sequence).getD
        .useIncoming with
    | .useIncoming =>
      (publish { r with workingCopy := some snapshot }).andThen (settle draw)
    | .useCurrent => .stay r
    | .desync => r.startSync draw

/-- A change arrived. -/
def onDelta (draw : Nat) (d : Delta) (r : Replica) : Outcome Replica SyncEffect :=
  if r.destroyed then { state := r, metrics := [.delta .dropped] }
  else
    match r.lastApplied with
    | none => r.buffer d
    | some last =>
      if d.target ≤ last then { state := r, metrics := [.delta .stale] }
      else if r.syncInFlight.isSome || d.base ≠ last then (r.buffer d).andThen (reevaluate draw)
      else (r.applyDelta d).andThen (settle draw)

/-- The stall timer fired. -/
def onStallTimeout (draw : Nat) (r : Replica) : Outcome Replica SyncEffect :=
  let r := { r with stallTimerArmed := false }
  if r.destroyed || r.pending.isEmpty then .stay r else r.startSync draw

/-- The working copy after a fetch: a partial copy is merged into the one held. -/
def adopt (kind : SyncKind) (fetched : Snapshot) (r : Replica) : Replica :=
  match kind, r.workingCopy with
  | .delta, some copy => { r with workingCopy := some (copy.merge fetched) }
  | _, _ => { r with workingCopy := some fetched }

/-- A fetch of the kind under way ended. -/
def onSyncResult (draw : Nat) (kind : SyncKind) (result : Except TransportError (Option Snapshot))
    (r : Replica) : Outcome Replica SyncEffect :=
  if r.syncInFlight ≠ some kind then .stay r
  else
    let r := { r with syncInFlight := none }
    match result with
    | .ok fetched =>
      Outcome.andThen { state := r, metrics := [.resync kind true] } fun r =>
        let adopted := match fetched with
          | some snapshot => (r.adopt kind snapshot).publish.andThen discardSuperseded
          | none => .stay r
        adopted.andThen (settle draw)
    | .error _ =>
      Outcome.andThen { state := r, metrics := [.resync kind false] } fun r =>
        match kind with
        | .delta => r.startFullSync
        | .full => r.giveUp

/-- The replica after an input, with the draw for the timer that the input may start. -/
def step (draw : Nat) (input : SyncInput) (r : Replica) : Outcome Replica SyncEffect :=
  match input with
  | .full snapshot => r.onFull draw snapshot
  | .delta d => r.onDelta draw d
  | .stallTimeout => r.onStallTimeout draw
  | .syncResult kind result => r.onSyncResult draw kind result

/-- The replica after inputs in turn, each with its draw. -/
def run (inputs : List (Nat × SyncInput)) (r : Replica) : Outcome Replica SyncEffect :=
  inputs.foldl (fun o input => o.andThen (step input.1 input.2)) (.stay r)

/-! ### Description -/

/-- A description for logs: the meeting, the position, how many changes wait, and the state of the
resync. -/
def describe (meeting : String) (r : Replica) : String :=
  let position := match r.lastApplied with
    | some n => "Some(" ++ toString n.toNat ++ ")"
    | none => "None"
  let sync := match r.syncInFlight with
    | some .delta => "Some(Delta)"
    | some .full => "Some(Full)"
    | none => "None"
  String.join
    ["DeltaSynchronizer \x7b meeting_id: CorrelationId(", Text.quoted meeting,
      "), last_applied: ", position, ", pending: ", toString r.pending.size,
      ", sync_in_flight: ", sync, ", destroyed: ", if r.destroyed then "true" else "false",
      ", .. \x7d"]

end Replica

end CallSignaling.Locus
