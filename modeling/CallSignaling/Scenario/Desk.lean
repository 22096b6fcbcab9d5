import CallSignaling.Scenario.Actor

/-!
# The actor of the switchboard

The desk takes one message after the other.  After each it looks for meetings that have ended by
themselves; while it rests it does not.  Once cancelled it stops all meetings and then ends.

* `Scenario.World.postDesk`: a message is posted to the desk.
* `Scenario.World.runDesk`: the desk takes its next message, or rests.
* `Scenario.World.viewed`: the desk has the reply of a meeting that it asked.
* `Scenario.World.cancelDesk`: the desk is to stop.
-/

namespace CallSignaling.Scenario.World

/-- A requester has its reply.  A client remembers the meetings that it found. -/
def tellRequester (requester : Requester) (reply : Switchboard.Reply) (w : World) : World :=
  match requester, reply with
  | .call call, .found name line =>
    (w.modifyDesk fun d => { d with handles := d.handles.insert name line }).conclude call
      (.switchboard reply)
  | .route call action, .found _ line => w.later (.forward line call action)
  | .call call, _ | .route call _, _ => w.conclude call (.switchboard reply)

/-- A message goes to the desk, unless it has stopped. -/
def postDesk (input : Switchboard.Input Requester) (w : World) : World :=
  match w.desk with
  | some { hasEnded := false, .. } =>
    (w.modifyDesk fun d => { d with mailbox := d.mailbox ++ [input] }).scheduleDesk
  | _ => w.tellRequester input.caller (.refused .sendClosed)

/-- The desk is to stop, and all meetings with it. -/
def cancelDesk (w : World) : World :=
  (List.range w.lines.length).foldl (fun w line => w.cancelActor line)
    ((w.modifyDesk fun d => { d with cancelled := true }).scheduleDesk)

/-- Carries out an effect of the switchboard. -/
def onSwitchboardEffect (w : World) : Switchboard.Effect Requester → World
  | .reply requester reply => w.tellRequester requester reply
  | .start name _ => w.startMeeting name
  | .cancel line => w.cancelActor line
  | .ask line requester =>
    (w.modifyDesk fun d => { d with isAsking := true }).post line (.switchboard requester) .view
  | .cancelAll => w.cancelDesk

/-- Keeps the new state of the switchboard and carries out what it asks for. -/
def settleSwitchboard
    (step : Switchboard → Outcome Switchboard (Switchboard.Effect Requester)) (w : World) : World :=
  match w.desk with
  | none => w
  | some d =>
    let o := step d.switchboard
    o.effects.foldl onSwitchboardEffect
      ((w.modifyDesk fun d => { d with switchboard := o.state }).measure o.metrics)

/-- Meetings that have ended leave the switchboard. -/
def reap (w : World) : World :=
  w.settleSwitchboard (·.reap fun line => (w.actor? line).bind (·.ending))

/-- The desk rests. -/
def restDesk (w : World) : World := w.modifyDesk fun d => { d with isScheduled := false }

/-- After a message the desk looks for meetings that have ended, unless it waits for a reply. -/
def afterMessage (w : World) : World :=
  if w.desk.any (·.isAsking) then w.restDesk else w.reap.next .desk

/-- The desk has stopped.  Whoever waits for it finds it closed. -/
def endDesk (w : World) : World :=
  match w.desk with
  | none => w
  | some d =>
    d.mailbox.foldl (fun w input => w.tellRequester input.caller (.refused .replyClosed))
      (w.modifyDesk fun d => { d with hasEnded := true, mailbox := [] })

/-- The desk waits until its meetings have stopped. -/
def awaitStop (w : World) : World :=
  let w := w.settleSwitchboard (·.release fun line => ((w.actor? line).bind (·.ending)).isSome)
  if w.desk.any (·.switchboard.meetings.isEmpty) then w.endDesk else w.restDesk

/-- The desk takes its next message, or rests. -/
def runDesk (w : World) : World :=
  match w.desk with
  | none => w
  | some d =>
    if d.hasEnded then w
    else if d.isAsking then w.restDesk
    else if d.isStopping then w.awaitStop
    else if d.cancelled then
      (w.modifyDesk fun d => { d with isStopping := true }).settleSwitchboard (·.beginStop)
        |>.next .desk
    else
      match d.mailbox with
      | [] => w.restDesk
      | input :: mailbox =>
        let (switchboard, metrics) := d.switchboard.received mailbox.length
        (w.modifyDesk fun d => { d with mailbox, switchboard }).measure metrics
          |>.settleSwitchboard (·.step input)
          |>.afterMessage

/-- The desk has the reply of the meeting that it asked.  A reply that it does not wait for has no
effect. -/
def viewed (requester : Requester) (view : Except SignalingError Meeting.View) (w : World) :
    World :=
  if w.desk.any (·.isAsking) then
    (w.modifyDesk fun d => { d with isAsking := false, isScheduled := true }).settleSwitchboard
        (·.onView requester view)
      |>.afterMessage
  else w

end CallSignaling.Scenario.World
