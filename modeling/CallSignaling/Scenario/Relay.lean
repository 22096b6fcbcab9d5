import CallSignaling.Scenario.Wire

/-!
# Calls of relay discovery

* `Scenario.World.settleRelay`: carries out what relay discovery asks for.
* `Scenario.World.callRelay`: a call comes, or a response that is pushed.
* `Scenario.World.completeRelay`, `Scenario.World.expireRelay`: a call that waited goes on.
* `Scenario.World.discover`, `Scenario.World.generate`, `Scenario.World.handOver`: the calls of a
  client.
-/

namespace CallSignaling.Scenario.World

open Media (Response)
open Roap (Message)
open Turn (Discovery)

/-- A call of relay discovery comes to an end. -/
def concludeRelay (call : RelayCall) (result : Except TurnError Turn.Result) (w : World) : World :=
  match call.caller with
  | .discover call => w.conclude call (.discovered (result.toOption.getD .failed))
  | .handOver call => w.conclude call (.handed result)

/-- A call waits for the completion of an exchange, for as long as the settings allow. -/
def awaitRelay (line generation : Nat) (call : RelayCall) (w : World) : World :=
  let timeout := w.settings.turnDiscoveryTimeout * 1000
  let w := w.modifyLine line fun l =>
    { l with waits := l.waits ++ [{ generation, call, deadline := w.now + timeout }] }
  if timeout = 0 then w.next (.expired line generation call) else w

/-- Whoever waits for the completion of an exchange goes on with it. -/
def wakeRelay (line generation : Nat) (completion : Turn.Completion) (w : World) : World :=
  match w.lines[line]? with
  | none => w
  | some l =>
    (l.waits.filter (·.generation = generation)).foldl
      (fun w wait => w.later (.completed line generation wait.call completion))
      (w.modifyLine line fun l => { l with waits := l.waits.filter (·.generation ≠ generation) })

/-- Carries out an effect of relay discovery, on behalf of a call if there is one. -/
def onRelayEffect (line : Nat) (call : Option RelayCall) (w : World) : Turn.Effect → World
  | .wake generation completion => w.wakeRelay line generation completion
  | .send request stage =>
    match call with
    | some call => w.submitRequest line request (.relay call stage)
    | none => w
  | .await generation =>
    match call with
    | some call => w.awaitRelay line generation call
    | none => w
  | .done result =>
    match call with
    | some call => w.concludeRelay call result
    | none => w

/-- Keeps the new state of relay discovery and carries out what it asks for. -/
def settleRelay (line : Nat) (call : Option RelayCall)
    (step : Discovery → Outcome Discovery Turn.Effect) (w : World) : World :=
  match w.lines[line]? with
  | none => w
  | some l =>
    let o := step l.discovery
    o.effects.foldl (onRelayEffect line call)
      ((w.modifyLine line fun l => { l with discovery := o.state }).measure o.metrics)

/-- A call comes to relay discovery, or a response that is pushed. -/
def callRelay (line : Nat) (caller : Option RelayCaller)
    (step : Discovery → Outcome Discovery Turn.Effect) (w : World) : World :=
  match w.lines[line]? with
  | none => w
  | some l =>
    (w.modifyLine line fun l => { l with relayCalls := l.relayCalls + 1 }).settleRelay line
      (caller.map fun caller => { place := l.relayCalls, caller }) step

/-- A call goes on with the completion of its exchange. -/
def completeRelay (line generation : Nat) (call : RelayCall) (completion : Turn.Completion) :
    World → World :=
  settleRelay line (some call) (·.onCompletion generation completion)

/-- A call has waited for too long, unless the completion came just now. -/
def expireRelay (line generation : Nat) (call : RelayCall) (w : World) : World :=
  let isThis := fun wait : Wait => wait.generation = generation && wait.call = call
  match w.lines[line]? with
  | none => w
  | some l =>
    if l.waits.any isThis then
      w.modifyLine line (fun l => { l with waits := l.waits.filter (!isThis ·) })
        |>.settleRelay line (some call) (·.onTimeout generation)
    else w

/-- A client runs relay discovery. -/
def discover (line call : Nat) (reconnecting forced : Bool) (w : World) : World :=
  w.callRelay line (some (.discover call))
    (·.discover reconnecting forced w.environment.reachable)

/-- A client takes the request for relay discovery to send it itself. -/
def generate (line call : Nat) (forced : Bool) (w : World) : World :=
  match w.lines[line]? with
  | none => w
  | some l =>
    let (discovery, result) := l.discovery.generate forced w.environment.reachable
    (w.modifyLine line fun l => { l with discovery }).conclude call (.generated result)

/-- A client hands over the reply that it received. -/
def handOver (line call : Nat) (reply : Option Response) : World → World :=
  callRelay line (some (.handOver call)) (·.httpResponse reply)

/-- A pushed message goes to relay discovery. -/
def pushRelay (line : Nat) (message : Message) : World → World :=
  callRelay line none (·.respond message Turn.fromPush)

/-- Relay discovery is given up. -/
def abortRelay (line : Nat) : World → World := settleRelay line none (·.abort)

end CallSignaling.Scenario.World
