import CallSignaling.Scenario.Desk

/-!
# Runs of a scenario

* `Scenario.Step`: what a client or the environment does next.
* `Scenario.World.perform`: a step is done.
* `Scenario.World.settle`: everything goes on until it waits for something from outside.
* `Scenario.World.advance`: time passes.
* `Scenario.World.run`: a step, and everything that follows from it.
-/

namespace CallSignaling.Scenario

open Locus (Delta Snapshot)
open Media (Response)
open Roap (Message)

/-- What a client asks of a meeting. -/
inductive MeetingCall where
  | send (request : Media.Request)
  | mute (audio video : Option Bool)
  | discover (reconnecting forced : Bool)
  | generate (forced : Bool)
  | handOver (reply : Option Response)
  /-- A message of the relay service was pushed. -/
  | push (message : Message)
  | abort
  /-- Whether relay discovery would be skipped. -/
  | isSkipped
  | submit (action : Roap.Action)
  | offer (sdps : List String) (tieBreaker : UInt32)
  | roap (message : Message)
  | delta (d : Delta)
  | full (snapshot : Snapshot)
  | isBusy
  | view
  | cancel
  deriving Inhabited

/-- What a client asks of the switchboard. -/
inductive DeskCall where
  | create (name : String)
  | find (name : String)
  | summarize (name : String)
  | remove (name : String)
  | route (name : String) (action : Roap.Action)
  | status
  | shutdown
  | cancel
  /-- The client forgets a meeting. -/
  | forget (name : String)
  deriving Inhabited

/-- A step of a scenario. -/
inductive Step where
  /-- So many milliseconds pass. -/
  | advance (ms : Nat)
  | releaseServer (permits : Nat)
  | releaseNegotiator (permits : Nat)
  | releaseArchive (permits : Nat)
  /-- The server has one more answer in its script. -/
  | script (result : Except TransportError Response)
  | setReachable (value : Bool)
  /-- A client asks something of a meeting that it knows by name. -/
  | meeting (name : String) (call : MeetingCall)
  | desk (call : DeskCall)

namespace World

/-! ### The agenda -/

/-- A job goes on. -/
def perform (job : Job) (w : World) : World :=
  match job with
  | .dispatch line => w.dispatch line
  | .depart line => w.depart line
  | .answered _ (.call call) result => w.conclude call (.response result)
  | .answered _ (.mute call) result =>
    w.conclude call (.muted (result.mapError .transport))
  | .answered line (.relay call stage) result =>
    w.settleRelay line (some call) (·.onAnswer stage result)
  | .answered _ (.task id) result => w.answerTask id result
  | .completed line generation call completion => w.completeRelay line generation call completion
  | .expired line generation call => w.expireRelay line generation call
  | .begin id => w.beginTask id
  | .resume task => w.resumeTask task
  | .actor line => w.runActor line
  | .forward line call action => w.post line (.call call) (.submit action)
  | .viewed requester view => w.viewed requester view
  | .desk => w.runDesk

/-- At most `fuel` jobs go on, one after the other. -/
def settleWithin : Nat → World → World
  | 0, w => w
  | fuel + 1, w =>
    match w.agenda with
    | [] => w
    | job :: agenda => settleWithin fuel ({ w with agenda }.perform job)

/-- How many jobs one step may lead to. -/
def patience : Nat := 1000000

/-- Everything goes on until it waits for something from outside. -/
def settle : World → World := settleWithin patience

end World

/-! ### Time -/

/-- A job that is due. -/
structure Due where
  deadline : Nat
  /-- The order of jobs with one deadline. -/
  order : Nat := 0
  job : Job

/-- Whether a job goes on no later than another. -/
def Due.isBefore (a b : Due) : Bool :=
  a.deadline < b.deadline || (a.deadline = b.deadline && a.order ≤ b.order)

/-- What is due on a line at the time `now`. -/
def Line.due (now line : Nat) (l : Line) : List Due :=
  let expired := (l.waits.filter (·.deadline ≤ now)).map fun wait =>
    { deadline := wait.deadline, job := .expired line wait.generation wait.call }
  let stalled := (l.actor.bind fun a =>
    (a.meeting.stallDeadline.filter (· ≤ now)).map fun deadline =>
      { deadline, order := a.idleSince, job := .actor line }).toList
  expired ++ stalled

namespace World

/-- A job that is due goes to the agenda. -/
def goOn (w : World) (due : Due) : World :=
  match due.job with
  | .actor line => w.scheduleActor line
  | job => w.later job

/-- Time passes, and what is due goes on in the order of its deadlines.  Of two actors with one
deadline the one that has rested for longer is first. -/
def advance (ms : Nat) (w : World) : World :=
  let w := { w with now := w.now + ms }
  let due := w.lines.zipIdx.flatMap fun (l, line) => l.due w.now line
  (due.mergeSort Due.isBefore).foldl goOn w

/-! ### Steps -/

/-- A client asks something of the meeting of a line. -/
def callMeeting (line call : Nat) (c : MeetingCall) (w : World) : World :=
  match c with
  | .send request => w.submitRequest line request (.call call)
  | .mute audio video => w.submitRequest line (.mute audio video) (.mute call)
  | .discover reconnecting forced => w.discover line call reconnecting forced
  | .generate forced => w.generate line call forced
  | .handOver reply => w.handOver line call reply
  | .push message => (w.pushRelay line message).conclude call .nothing
  | .abort => (w.abortRelay line).conclude call .nothing
  | .isSkipped =>
    let skips := (w.lines[line]?.bind fun l =>
      l.discovery.skipReason? false w.environment.reachable).isSome
    w.conclude call (.flag skips)
  | .submit action => w.post line (.call call) (.submit action)
  | .offer sdps tieBreaker => w.post line (.call call) (.sendOffer sdps tieBreaker)
  | .roap message => w.post line (.call call) (.sendRoap message)
  | .delta d => w.post line (.call call) (.delta d)
  | .full snapshot => w.post line (.call call) (.full snapshot)
  | .isBusy => w.post line (.busy call) .view
  | .view => w.post line (.call call) .view
  | .cancel => (w.cancelActor line).conclude call .nothing

/-- A client asks something of the switchboard. -/
def callDesk (call : Nat) (c : DeskCall) (w : World) : World :=
  match c with
  | .create name => w.postDesk (.create name (.call call))
  | .find name => w.postDesk (.find name (.call call))
  | .summarize name => w.postDesk (.summarize name (.call call))
  | .remove name => w.postDesk (.remove name (.call call))
  | .route name action => w.postDesk (.find name (.route call action))
  | .status => w.postDesk (.status (.call call))
  | .shutdown => w.postDesk (.shutdown (.call call))
  | .cancel => w.cancelDesk.conclude call .nothing
  | .forget name =>
    (w.modifyDesk fun d => { d with handles := d.handles.erase name }).conclude call .nothing

/-- The line of a meeting that the client knows.  Without a switchboard there is only one. -/
def lineOf? (name : String) (w : World) : Option Nat :=
  match w.desk with
  | some d => d.handles.get? name
  | none => some 0

/-- Adds permits at the server. -/
def releaseServer (n : Nat) (w : World) : World :=
  let server := w.environment.server
  let (gate, passing) := server.gate.release n
  passing.foldl (fun w line => w.later (.depart line))
    { w with environment := { w.environment with server := { server with gate } } }

/-- A step is done.  Its call is known by the number `call`. -/
def begin (call : Nat) (step : Step) (w : World) : World :=
  match step with
  | .advance ms => (w.advance ms).conclude call .nothing
  | .releaseServer n => (w.releaseServer n).conclude call .nothing
  | .releaseNegotiator n => (w.releaseNegotiator n).conclude call .nothing
  | .releaseArchive n => (w.releaseArchive n).conclude call .nothing
  | .script result =>
    let server := w.environment.server
    { w with
        environment :=
          { w.environment with server := { server with script := server.script ++ [result] } } }
      |>.conclude call .nothing
  | .setReachable value =>
    { w with environment := { w.environment with reachable := value } }.conclude call .nothing
  | .meeting name c =>
    match w.lineOf? name with
    | some line => w.callMeeting line call c
    | none => w.conclude call .unknownMeeting
  | .desk c => w.callDesk call c

/-- A step and everything that follows from it.  What came of earlier steps is cleared away. -/
def run (call : Nat) (step : Step) (w : World) : World :=
  ({ w with events := [], answers := [] }.begin call step).settle

end World

end CallSignaling.Scenario
