import CallSignaling.Media.Outbox
import CallSignaling.Turn.Slot

/-!
# Relay discovery

Before the first offer a client asks the service for a relay server.  The response stands in the
reply to the request or is pushed later, and is acknowledged if the service expects it.  Discovery
never fails outward: a failed attempt ends without a server.

* `Turn.Discovery`: the settings and the pending exchange.
* `Turn.Effect`: what a call of discovery asks for while it is under way.
* `Turn.Discovery.discover`, `Turn.Discovery.onReply`, `Turn.Discovery.onCompletion`,
  `Turn.Discovery.onAcknowledged`: the steps of a call.
* `Turn.Discovery.generate`, `Turn.Discovery.httpResponse`: discovery by somebody who sends the
  request and receives the reply themselves.
* `Turn.Discovery.respond`, `Turn.Discovery.abort`: a pushed response, and giving up.
-/

namespace CallSignaling.Turn

open Media (Request Response)
open Roap (Message)

/-- Why no attempt is made. -/
inductive SkipReason where
  | reachability
  | config
  | alreadyInProgress
  | missingHttpResponse
  deriving DecidableEq, Repr, Inhabited

/-- The wording of a reason. -/
def SkipReason.name : SkipReason → String
  | reachability => "reachability"
  | config => "config"
  | alreadyInProgress => "already in progress"
  | missingHttpResponse => "missing http response"

/-- How an attempt ends. -/
inductive Result where
  | found (info : Info)
  | skipped (reason : SkipReason)
  | failed
  deriving DecidableEq

/-- Where a call goes on when its request is answered. -/
inductive Stage where
  /-- The request for discovery was sent. -/
  | requested (generation : Nat)
  /-- The acknowledgement was sent. -/
  | acknowledged (generation : Nat) (info : Info)
  deriving DecidableEq

/-- What a call asks for. -/
inductive Effect where
  /-- Submit a request and go on at `stage` with what becomes of it. -/
  | send (request : Request) (stage : Stage)
  /-- Wait for the completion of an exchange, for as long as the settings allow. -/
  | await (generation : Nat)
  /-- Hand a completion to the call that waits for it. -/
  | wake (generation : Nat) (completion : Completion)
  /-- The call returns. -/
  | done (result : Except TurnError Result)

/-- The discovery of a meeting. -/
structure Discovery where
  enabled : Bool := true
  slot : Slot := {}
  deriving Inhabited

namespace Discovery

/-- Whether an exchange is pending. -/
def inProgress (d : Discovery) : Bool := d.slot.pending.isSome

/-- Why an attempt is not made.  Being reachable does not count for a forced one. -/
def skipReason? (forced reachable : Bool) (d : Discovery) : Option SkipReason :=
  if !d.enabled then some .config
  else if reachable && !forced then some .reachability
  else none

/-- The call returns that it skipped the attempt, and counts it. -/
def skip (reason : SkipReason) (d : Discovery) : Outcome Discovery Effect :=
  { state := d, effects := [.done (.ok (.skipped reason))], metrics := [.turnDiscovery .skipped] }

/-- The exchange ends and the call returns its result. -/
def finish (generation : Nat) (outcome : Except TurnError Info) (d : Discovery) :
    Outcome Discovery Effect :=
  let d := { d with slot := d.slot.finish generation }
  match outcome with
  | .ok info =>
    { state := d, effects := [.done (.ok (.found info))], metrics := [.turnDiscovery .success] }
  | .error _ =>
    { state := d, effects := [.done (.ok .failed)], metrics := [.turnDiscovery .failure] }

/-- Takes a message as the response to the pending exchange.  With none pending, or after its first
response, nothing happens. -/
def respond (message : Message) (source : String) (d : Discovery) : Outcome Discovery Effect :=
  let completion := resolve message source
  let (slot, waiting) := d.slot.deliver completion
  { state := { d with slot }
    effects := (waiting.map fun generation => Effect.wake generation completion).toList }

/-- Tells whoever waits for the pending exchange that it is given up. -/
def wakeAborted (d : Discovery) : List Effect :=
  (d.slot.waiting?.map fun generation => Effect.wake generation (.error .aborted)).toList

/-- The completion of the call's exchange is there. -/
def onCompletion (generation : Nat) (completion : Completion) (d : Discovery) :
    Outcome Discovery Effect :=
  match completion with
  | .error e => d.finish generation (.error e)
  | .ok resolved =>
    if resolved.okRequired then
      { state := d
        effects :=
          [.send (.roap (.ok Roap.turnSeq)) (.acknowledged generation resolved.info)]
        metrics := [.turnOkRequired] }
    else d.finish generation (.ok resolved.info)

/-- Takes the completion of the call's exchange or waits for it. -/
def awaitCompletion (generation : Nat) (d : Discovery) : Outcome Discovery Effect :=
  let (slot, reception) := d.slot.receive generation
  let d := { d with slot }
  match reception with
  | .gone => d.finish generation (.error .aborted)
  | .waits => { state := d, effects := [.await generation] }
  | .completed completion => d.onCompletion generation completion

/-- The wait for the completion took too long. -/
def onTimeout (generation : Nat) (d : Discovery) : Outcome Discovery Effect :=
  d.finish generation (.error .timeout)

/-- The request for discovery was answered.  A reply without a response leaves the call waiting for
a pushed one. -/
def onReply (generation : Nat) (reply : Except TransportError Response) (d : Discovery) :
    Outcome Discovery Effect :=
  match reply with
  | .error e => d.finish generation (.error (.transport e))
  | .ok response =>
    match response.embedded? with
    | .ok (some message) =>
      (d.respond message fromHttpResponse).andThen (awaitCompletion generation)
    | .ok none =>
      Outcome.andThen { state := d, metrics := [.turnResponseMissing] } (awaitCompletion generation)
    | .error e => d.finish generation (.error (.malformed e.message))

/-- The acknowledgement was answered. -/
def onAcknowledged (generation : Nat) (info : Info) (reply : Except TransportError Response)
    (d : Discovery) : Outcome Discovery Effect :=
  match reply with
  | .error e => d.finish generation (.error (.transport e))
  | .ok _ => d.finish generation (.ok info)

/-- What a call sent was answered. -/
def onAnswer (stage : Stage) (reply : Except TransportError Response) (d : Discovery) :
    Outcome Discovery Effect :=
  match stage with
  | .requested generation => d.onReply generation reply
  | .acknowledged generation info => d.onAcknowledged generation info reply

/-- A call of discovery starts. -/
def discover (reconnecting forced reachable : Bool) (d : Discovery) : Outcome Discovery Effect :=
  match d.skipReason? forced reachable with
  | some reason => d.skip reason
  | none =>
    match d.slot.begin? with
    | none => d.skip .alreadyInProgress
    | some (generation, slot) =>
      let request := if reconnecting then Request.roapReconnecting .turnRequest
        else Request.roap .turnRequest
      { state := { d with slot }, effects := [.send request (.requested generation)] }

/-- The request for somebody who sends it themselves, or why there is none. -/
def generate (forced reachable : Bool) (d : Discovery) : Discovery × Except SkipReason Message :=
  match d.slot.begin? with
  | none => (d, .error .alreadyInProgress)
  | some (_, slot) =>
    match d.skipReason? forced reachable with
    | some reason => (d, .error reason)
    | none => ({ d with slot }, .ok .turnRequest)

/-- Takes the reply that somebody else received.  A missing one, and one without a response, leave
the exchange pending; one that cannot be read ends it, also for another call that waits for it. -/
def httpResponse (reply : Option Response) (d : Discovery) : Outcome Discovery Effect :=
  match d.slot.pending, reply with
  | none, _ => { state := d, effects := [.done (.error .notInProgress)] }
  | some _, none => { state := d, effects := [.done (.ok (.skipped .missingHttpResponse))] }
  | some p, some response =>
    match response.embedded? with
    | .ok none =>
      { state := d, effects := [.done (.ok (.skipped .missingHttpResponse))],
        metrics := [.turnResponseMissing] }
    | .error e =>
      Outcome.andThen { state := d, effects := d.wakeAborted }
        (finish p.generation (.error (.malformed e.message)))
    | .ok (some message) =>
      (d.respond message fromHttpResponse).andThen (awaitCompletion p.generation)

/-- Gives up the pending exchange.  Whoever waits for its completion hears of it. -/
def abort (d : Discovery) : Outcome Discovery Effect :=
  { state := { d with slot := d.slot.abort }, effects := d.wakeAborted }

end Discovery

end CallSignaling.Turn
