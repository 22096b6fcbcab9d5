import CallSignaling.Error
import CallSignaling.SortedMap
import CallSignaling.Locus.Snapshot
import CallSignaling.Media.Request
import CallSignaling.Roap.Exchange

/-!
# Metrics

Every operation returns the measurements it makes.  Their labels are taken from small closed types,
never from identifiers.

* `Metric`: one measurement.
* `Metric.samples`: the series that a measurement writes to.
* `Metric.report`: the last state of every series after a run.
-/

namespace CallSignaling

/-- What happened to a delta on arrival or in the buffer. -/
inductive Metric.DeltaAction where
  | applied
  | buffered
  | stale
  | dropped
  deriving DecidableEq, Repr, Inhabited

/-- The step of giving or taking an answer that failed. -/
inductive Metric.AnswerStage where
  | build
  | apply
  | send
  deriving DecidableEq, Repr, Inhabited

/-- How an attempt at relay discovery ended. -/
inductive Metric.TurnOutcome where
  | success
  | failure
  | skipped
  deriving DecidableEq, Repr, Inhabited

/-- The two sorts of actor. -/
inductive ActorType where
  | controller
  | meeting
  deriving DecidableEq, Repr, Inhabited

/-- A measurement. -/
inductive Metric where
  | glare (winner : Roap.Side)
  | answerFailure (stage : Metric.AnswerStage)
  | protocolViolation
  | exchangeFinished
  | duplicateMessage
  | turnDiscovery (outcome : Metric.TurnOutcome)
  | turnOkRequired
  | turnResponseMissing
  /-- A request was answered, with an error of the given kind if there is one. -/
  | mediaRequest (kind : Media.RequestKind) (failure : Option TransportError.Kind)
  | mediaRequestCoalesced (kind : Media.RequestKind)
  | delta (action : Metric.DeltaAction)
  | resync (kind : Locus.SyncKind) (succeeded : Bool)
  | meetingDestroyed (reason : Locus.DestroyReason)
  | meetingsActive (count : Nat)
  | mailboxDepth (actor : ActorType) (depth : Nat)
  | actorPanic (actor : ActorType)
  deriving DecidableEq, Repr, Inhabited

/-- The name of an action. -/
def Metric.DeltaAction.name : Metric.DeltaAction → String
  | applied => "applied"
  | buffered => "buffered"
  | stale => "stale"
  | dropped => "dropped"

/-- The name of a stage. -/
def Metric.AnswerStage.name : Metric.AnswerStage → String
  | build => "build"
  | apply => "apply"
  | send => "send"

/-- The stage at which negotiation failed. -/
def Metric.AnswerStage.ofError : NegotiationError → Metric.AnswerStage
  | .buildAnswer _ => build
  | .applyAnswer _ => apply

/-- The name of an outcome. -/
def Metric.TurnOutcome.name : Metric.TurnOutcome → String
  | success => "success"
  | failure => "failure"
  | skipped => "skipped"

/-- The name of a sort of actor. -/
def ActorType.name : ActorType → String
  | controller => "controller"
  | meeting => "meeting"

/-- What a measurement does to a series. -/
inductive Metric.Update where
  /-- Counts one more. -/
  | count
  /-- Sets the level. -/
  | level (value : Nat)
  /-- Adds one observation to a distribution. -/
  | observe
  deriving DecidableEq, Repr, Inhabited

/-- The state of a series. -/
inductive Metric.Reading where
  | counter (total : Nat)
  | gauge (value : Nat)
  | histogram (observations : Nat)
  deriving DecidableEq, Repr, Inhabited

namespace Metric

/-- A series by its name and labels, as `name` or `name{label=value,label=value}`. -/
def seriesKey (name : String) (labels : List (String × String)) : String :=
  if labels.isEmpty then name
  else name ++ "\x7b" ++ String.intercalate "," (labels.map fun l => l.1 ++ "=" ++ l.2) ++ "\x7d"

/-- The series that a measurement writes to, and what it writes.  Labels are in the order of their
text. -/
def samples : Metric → List (String × Update)
  | glare winner => [(seriesKey "signaling_roap_glare_total" [("winner", winner.name)], .count)]
  | answerFailure stage =>
    [(seriesKey "signaling_roap_answer_failures_total" [("stage", stage.name)], .count)]
  | protocolViolation => [("signaling_roap_protocol_violations_total", .count)]
  | exchangeFinished => [("signaling_roap_sequences_finished_total", .count)]
  | duplicateMessage => [("signaling_roap_duplicates_total", .count)]
  | turnDiscovery outcome =>
    [(seriesKey "signaling_turn_discovery_total" [("outcome", outcome.name)], .count)]
  | turnOkRequired => [("signaling_turn_discovery_ok_required_total", .count)]
  | turnResponseMissing => [("signaling_turn_discovery_http_response_missing_total", .count)]
  | mediaRequest kind failure =>
    let status := match failure with
      | none => "success"
      | some failure => failure.name
    [(seriesKey "signaling_media_requests_total" [("kind", kind.name), ("status", status)], .count),
      (seriesKey "signaling_media_request_duration_seconds" [("kind", kind.name)], .observe)]
  | mediaRequestCoalesced kind =>
    [(seriesKey "signaling_media_requests_coalesced_total" [("kind", kind.name)], .count)]
  | delta action => [(seriesKey "signaling_locus_deltas_total" [("action", action.name)], .count)]
  | resync kind succeeded =>
    let status := if succeeded then "success" else "failure"
    [(seriesKey "signaling_locus_sync_total" [("kind", kind.name), ("status", status)], .count)]
  | meetingDestroyed reason =>
    [(seriesKey "signaling_meetings_destroyed_total" [("reason", reason.name)], .count)]
  | meetingsActive count => [("signaling_meetings_active", .level count)]
  | mailboxDepth actor depth =>
    [(seriesKey "signaling_actor_mailbox_depth" [("actor_type", actor.name)], .level depth)]
  | actorPanic actor =>
    [(seriesKey "signaling_actor_panics_total" [("actor_type", actor.name)], .count)]

/-- A series after an update. -/
def Reading.update : Option Reading → Update → Reading
  | some (.counter n), .count => .counter (n + 1)
  | _, .count => .counter 1
  | _, .level n => .gauge n
  | some (.histogram n), .observe => .histogram (n + 1)
  | _, .observe => .histogram 1

/-- The last state of every series written to. -/
def report (metrics : List Metric) : SortedMap String Reading :=
  (metrics.flatMap samples).foldl
    (fun readings s => readings.insert s.1 (Reading.update (readings.get? s.1) s.2)) ∅

end Metric

end CallSignaling
