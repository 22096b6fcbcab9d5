import CallSignaling.Scenario.Relay

/-!
# Actors of meetings

The actor of a meeting takes one input after the other: its cancellation before all, then the stall
timer, the results of its tasks, and the messages in its mailbox.

* `Scenario.World.tell`, `Scenario.World.post`: a caller has its reply, and a message is posted.
* `Scenario.World.giveOut`, `Scenario.World.beginTask`, `Scenario.World.resumeTask`,
  `Scenario.World.finishTask`: the work that an actor gives out.
* `Scenario.World.carryOut`: what a meeting asks for is done in order, up to a crash.
* `Scenario.World.endActor`: an actor stops or crashes.
* `Scenario.World.runActor`: an actor takes its next input.
-/

namespace CallSignaling.Scenario

/-- What a reply says to one who asked for a view. -/
def viewOfReply? : Meeting.Reply → Option (Except SignalingError Meeting.View)
  | .view view => some (.ok view)
  | .refused error => some (.error error)
  | .done | .sent _ => none

/-- The next input of an actor, the actor without it, and what is measured on the way. -/
def Actor.takeInput? (now : Nat) (a : Actor) :
    Option (Meeting.Input Caller × Actor × List Metric) :=
  if a.cancelled then some (.cancel, a, [])
  else if a.meeting.stallDeadline.any (· ≤ now) then some (.stallTimeout, a, [])
  else
    match a.results, a.mailbox with
    | input :: results, _ => some (input, { a with results }, [])
    | [], input :: mailbox =>
      let (meeting, metrics) := a.meeting.received mailbox.length
      some (input, { a with mailbox, meeting }, metrics)
    | [], [] => none

namespace World

/-! ### Replies and messages -/

/-- A caller has its reply. -/
def tell (caller : Caller) (reply : Meeting.Reply) (w : World) : World :=
  match caller with
  | .call call => w.conclude call (.meeting reply)
  | .busy call =>
    match viewOfReply? reply with
    | some view => w.conclude call (.busy (view.map (·.isBusy)))
    | none => w
  | .switchboard requester =>
    match viewOfReply? reply with
    | some view => w.later (.viewed requester view)
    | none => w

/-- Callers find that their meeting has stopped. -/
def tellClosed (callers : List Caller) (w : World) : World :=
  callers.foldl (fun w caller => w.tell caller (.refused .replyClosed)) w

/-- A message of a caller goes to the mailbox of a meeting, unless the meeting has stopped. -/
def post (line : Nat) (caller : Caller) (input : Caller → Meeting.Input Caller) (w : World) :
    World :=
  match w.actor? line with
  | some { ending := none, .. } =>
    w.modifyActor line (fun a => { a with mailbox := a.mailbox ++ [input caller] })
      |>.scheduleActor line
  | _ => w.tell caller (.refused .sendClosed)

/-! ### Tasks -/

/-- The actor of a line gives work out. -/
def giveOut (line : Nat) (work : Work) (w : World) : World :=
  let task : Task := { id := w.nextTask, line, work }
  { w with tasks := w.tasks ++ [task], nextTask := w.nextTask + 1 }.later (.begin w.nextTask)

/-- The task with a number, unless it was finished or dropped. -/
def task? (id : Nat) (w : World) : Option Task := w.tasks.find? (·.id = id)

/-- A task is over. -/
def removeTask (task : Task) (w : World) : World :=
  { w with tasks := w.tasks.filter (·.id ≠ task.id) }

/-- A task has its result. -/
def finishTask (task : Task) (result : Meeting.Input Caller) (w : World) : World :=
  (w.removeTask task).modifyActor task.line (fun a => { a with results := a.results ++ [result] })
    |>.scheduleActor task.line

/-- Puts the tasks that pass a gate on the agenda. -/
def resumeLater (ids : List Nat) (w : World) : World :=
  (ids.filterMap (w.task? ·)).foldl (fun w task => w.later (.resume task)) w

/-- Adds permits at the negotiator. -/
def releaseNegotiator (n : Nat) (w : World) : World :=
  let negotiator := w.environment.negotiator
  let (gate, passing) := negotiator.gate.release n
  { w with environment := { w.environment with negotiator := { negotiator with gate } } }
    |>.resumeLater passing

/-- Adds permits at the archive. -/
def releaseArchive (n : Nat) (w : World) : World :=
  let archive := w.environment.archive
  let (gate, passing) := archive.gate.release n
  { w with environment := { w.environment with archive := { archive with gate } } }
    |>.resumeLater passing

/-- A task comes to the negotiator. -/
def enterNegotiator (task : Task) (w : World) : World :=
  let negotiator := w.environment.negotiator
  let (gate, passes) := negotiator.gate.enter task.id
  let w := { w with environment := { w.environment with negotiator := { negotiator with gate } } }
  if passes then w.next (.resume task) else w

/-- A task comes to the archive. -/
def enterArchive (task : Task) (w : World) : World :=
  let archive := w.environment.archive
  let (gate, passes) := archive.gate.enter task.id
  let w := { w with environment := { w.environment with archive := { archive with gate } } }
  if passes then w.next (.resume task) else w

/-- The name of the meeting of a line. -/
def nameOf (line : Nat) (w : World) : String := (w.lines[line]?.map (·.name)).getD ""

/-- A task begins. -/
def beginTask (id : Nat) (w : World) : World :=
  match w.task? id with
  | none => w
  | some task =>
    match task.work with
    | .build _ offer => (w.notice (.build offer)).enterNegotiator task
    | .apply _ answer => (w.notice (.apply answer)).enterNegotiator task
    | .fetch url _ => (w.notice (.fetch url)).enterArchive task
    | .send message _ => w.submitRequest task.line (.roap message) (.task task.id)
    | .destroy reason =>
      (w.notice (.destroy (w.nameOf task.line) reason)).finishTask task .destroyed

/-- A task has passed the gate of the negotiator, where it may crash. -/
def negotiate (task : Task) (result : Meeting.Input Caller) (w : World) : World :=
  if w.environment.negotiator.crashes then (w.removeTask task).scheduleActor task.line
  else w.finishTask task result

/-- A task goes on behind its gate. -/
def workOn (task : Task) (w : World) : World :=
  match task.work with
  | .build seq offer => w.negotiate task (.answerBuilt seq (w.environment.negotiator.build offer))
  | .apply seq answer =>
    w.negotiate task (.answerApplied seq (w.environment.negotiator.apply answer))
  | .fetch _ kind =>
    let (archive, result) := w.environment.archive.fetch?
    let w := { w with environment := { w.environment with archive } }
    match result with
    | some result => w.finishTask task (.syncCompleted kind result)
    | none => w
  | .send _ _ | .destroy _ => w

/-- The permit of a task that was dropped behind its gate is free again. -/
def returnPermit (task : Task) (w : World) : World :=
  match task.work with
  | .build _ _ | .apply _ _ => w.releaseNegotiator 1
  | .fetch _ _ => w.releaseArchive 1
  | .send _ _ | .destroy _ => w

/-- A task has passed its gate, and may have been dropped since. -/
def resumeTask (task : Task) (w : World) : World :=
  match w.task? task.id with
  | some task => w.workOn task
  | none => w.returnPermit task

/-- The message that a task sent was answered. -/
def answerTask (id : Nat) (result : Except TransportError Media.Response) (w : World) : World :=
  match w.task? id with
  | some task =>
    match task.work with
    | .send message caller => w.finishTask task (.sent message result caller)
    | _ => w
  | none => w

/-- Who waits for what a task sends. -/
def callerOf? (task : Task) : Option Caller :=
  match task.work with
  | .send _ caller => caller
  | _ => none

/-- The tasks of a line are dropped.  Those who wait for what they send find the meeting stopped. -/
def dropTasks (line : Nat) (w : World) : World :=
  let dropped := w.tasks.filter (·.line = line)
  let isDropped := fun id => dropped.any (·.id = id)
  let environment := w.environment
  let negotiator :=
    { environment.negotiator with gate := environment.negotiator.gate.leave isDropped }
  let archive := { environment.archive with gate := environment.archive.gate.leave isDropped }
  { w with
    tasks := w.tasks.filter (·.line ≠ line)
    environment := { environment with negotiator, archive } }
    |>.tellClosed (dropped.filterMap callerOf?)

/-! ### The actor -/

/-- An actor has ended.  Whoever waits for it finds it stopped. -/
def endActor (line : Nat) (ending : Ending) (w : World) : World :=
  match w.actor? line with
  | none => w
  | some a =>
    w.modifyActor line (fun a => { a with ending := some ending, mailbox := [], results := [] })
      |>.tellClosed ((a.results ++ a.mailbox).filterMap (·.caller?))
      |>.scheduleDesk

/-- Carries out an effect of a meeting.  Whoever asked for what it crashes over finds it stopped. -/
def onMeetingEffect (line : Nat) (w : World) : Meeting.Effect Caller → World
  | .reply caller reply => w.tell caller reply
  | .turnResponse message => w.pushRelay line message
  | .buildAnswer seq offer => w.giveOut line (.build seq offer)
  | .applyAnswer seq answer => w.giveOut line (.apply seq answer)
  | .send message caller => w.giveOut line (.send message caller)
  | .fetch url kind => w.giveOut line (.fetch url kind)
  | .destroy reason => w.giveOut line (.destroy reason)
  | .announceFinished seq => w.notice (.finished (w.nameOf line) seq)
  | .publish copy => w.notice (.applied (w.nameOf line) copy)
  | .abortTurn => w.abortRelay line
  | .dropTasks => w.dropTasks line
  | .crash caller => w.tellClosed [caller]

/-- The event that the environment notices while an effect is carried out. -/
def eventOf? (line : Nat) (w : World) : Meeting.Effect Caller → Option Event
  | .announceFinished seq => some (.finished (w.nameOf line) seq)
  | .publish copy => some (.applied (w.nameOf line) copy)
  | _ => none

/-- Whether the actor crashes over an effect of its meeting: the meeting does, or the environment
when it notices. -/
def crashesOn (line : Nat) (effect : Meeting.Effect Caller) (w : World) : Bool :=
  effect.isCrash || (w.eventOf? line effect).any (w.environment.crashesOn ·)

/-- Carries out the effects of a meeting in order.  If the actor crashes the rest is not done. -/
def carryOut (line : Nat) : List (Meeting.Effect Caller) → World → World
  | [], w => w
  | effect :: rest, w =>
    let crashes := w.crashesOn line effect
    let w := w.onMeetingEffect line effect
    if crashes then
      (w.dropTasks line).tellClosed (rest.filterMap (·.caller?)) |>.endActor line .crashed
    else carryOut line rest w

/-- The actor of a line takes its next input, or rests. -/
def runActor (line : Nat) (w : World) : World :=
  match w.actor? line with
  | none => w
  | some a =>
    if a.ending.isSome then w
    else
      match a.takeInput? w.now with
      | none =>
        { w with rests := w.rests + 1 }.modifyActor line fun a =>
          { a with isScheduled := false, idleSince := w.rests }
      | some (input, a, metrics) =>
        let o := a.meeting.step w.now w.environment.draw input
        let w := (w.modifyActor line fun _ => { a with meeting := o.state })
          |>.measure (metrics ++ o.metrics)
          |>.carryOut line o.effects
        match input with
        | .cancel => w.endActor line .stopped
        | _ => w.next (.actor line)

/-- The actor of a line is to stop. -/
def cancelActor (line : Nat) (w : World) : World :=
  (w.modifyActor line fun a => { a with cancelled := true }).scheduleActor line

end World

end CallSignaling.Scenario
