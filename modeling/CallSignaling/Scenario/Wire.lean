import CallSignaling.Scenario.World

/-!
# Requests on the wire

* `Scenario.World.submitRequest`: a request goes into the outbox of a line.
* `Scenario.World.launch`, `Scenario.World.dispatch`: the next request goes to the server.
* `Scenario.World.depart`: a request has passed the server's gate and is answered.
-/

namespace CallSignaling.Scenario.World

open Media (Outbox)

/-- Carries out an effect of the outbox of a line. -/
def onOutboxEffect (line : Nat) (w : World) : Outbox.Effect Waiter → World
  | .startDispatch => w.later (.dispatch line)
  | .answer waiter result => w.later (.answered line waiter result)

/-- Keeps the new state of an outbox and carries out what it asks for. -/
def settleOutbox (line : Nat) (o : Outcome (Outbox Waiter) (Outbox.Effect Waiter)) (w : World) :
    World :=
  o.effects.foldl (onOutboxEffect line)
    ((w.modifyLine line fun l => { l with outbox := o.state }).measure o.metrics)

/-- A request goes into the outbox of a line. -/
def submitRequest (line : Nat) (request : Media.Request) (waiter : Waiter) (w : World) : World :=
  match w.lines[line]? with
  | some l => w.settleOutbox line (l.outbox.submit request waiter)
  | none => w

/-- An entry leaves the outbox of a line, and its request comes to the server.  It waits there at the
gate, unless sending it crashes. -/
def launch (line : Nat) (outbox : Outbox Waiter) (entry : Outbox.Entry Waiter)
    (request : Media.OutboundRequest) (w : World) : World :=
  let (server, crashes) := w.environment.server.arrive
  let (gate, passes) := if crashes then (server.gate, false) else server.gate.enter line
  let server := { server with gate }
  let w := { w with environment := { w.environment with server } }.notice (.sent request)
  if crashes then w.settleOutbox line (outbox.crash entry)
  else
    let w := w.modifyLine line fun l => { l with onWire := some entry }
    if passes then w.next (.depart line) else w

/-- The next request of a line goes to the server. -/
def dispatch (line : Nat) (w : World) : World :=
  match w.lines[line]? with
  | none => w
  | some l =>
    let (outbox, taken) := l.outbox.take l.name
    let w := w.modifyLine line fun l => { l with outbox }
    match taken with
    | none => w
    | some (entry, request) => w.launch line outbox entry request

/-- The request of a line has passed the server's gate.  The answer goes to all who wait for it, and
the next request follows. -/
def depart (line : Nat) (w : World) : World :=
  match w.lines[line]? with
  | none => w
  | some l =>
    match l.onWire with
    | none => w
    | some entry =>
      let (server, result) := w.environment.server.answer
      { w with environment := { w.environment with server } }
        |>.modifyLine line (fun l => { l with onWire := none })
        |>.settleOutbox line (l.outbox.finish entry result)
        |>.next (.dispatch line)

end CallSignaling.Scenario.World
