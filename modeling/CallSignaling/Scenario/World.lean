import CallSignaling.Meeting.Basic
import CallSignaling.Scenario.Environment
import CallSignaling.Settings
import CallSignaling.Switchboard
import CallSignaling.Turn.Discovery

/-!
# The world of a scenario

A scenario plays on a clock that moves only when told.  Whatever is ready to go on stands on an
agenda and goes on in its turn; whatever waits stands where its wait is ended: at a gate, in an
outbox, in a mailbox or with a deadline.

* `Scenario.Answer`: what a call comes to.
* `Scenario.Line`: a meeting's way to the server, with the actor of the meeting if there is one.
* `Scenario.Desk`: the actor of a switchboard.
* `Scenario.Task`: work that an actor has given out.
* `Scenario.Job`: an entry of the agenda.
* `Scenario.World`: all of it.
-/

namespace CallSignaling.Scenario

open Media (Response)
open Roap (Message)

/-! ### Calls and those who wait -/

/-- What a call comes to. -/
inductive Answer where
  /-- The call has nothing to tell. -/
  | nothing
  | flag (value : Bool)
  /-- A request was answered. -/
  | response (result : Except TransportError Response)
  /-- A request that sets mute state was answered. -/
  | muted (result : Except SignalingError Response)
  /-- Relay discovery ended. -/
  | discovered (result : Turn.Result)
  /-- The request for relay discovery, or why there is none. -/
  | generated (result : Except Turn.SkipReason Message)
  /-- A reply was handed to relay discovery. -/
  | handed (result : Except TurnError Turn.Result)
  | meeting (reply : Meeting.Reply)
  /-- Whether a meeting is busy. -/
  | busy (result : Except SignalingError Bool)
  | switchboard (reply : Switchboard.Reply)
  /-- The meeting is not known to the caller. -/
  | unknownMeeting

/-- One who waits for the reply of a switchboard. -/
inductive Requester where
  | call (call : Nat)
  /-- A call that passes an action on to the meeting it asked for. -/
  | route (call : Nat) (action : Roap.Action)
  deriving Inhabited

/-- One who waits for the reply of a meeting. -/
inductive Caller where
  | call (call : Nat)
  /-- A call that asks no more than whether the meeting is busy. -/
  | busy (call : Nat)
  /-- The switchboard, which asks on behalf of somebody else. -/
  | switchboard (requester : Requester)
  deriving Inhabited

/-- Who calls relay discovery. -/
inductive RelayCaller where
  | discover (call : Nat)
  | handOver (call : Nat)
  deriving DecidableEq, Repr

/-- A call of relay discovery. -/
structure RelayCall where
  /-- Its place among the calls and the pushed responses that came to its line. -/
  place : Nat
  caller : RelayCaller
  deriving DecidableEq, Repr

/-- One who waits for the answer to a media request. -/
inductive Waiter where
  | call (call : Nat)
  /-- A call that sets mute state. -/
  | mute (call : Nat)
  | relay (call : RelayCall) (stage : Turn.Stage)
  | task (id : Nat)

/-! ### Actors and tasks -/

/-- What a task does. -/
inductive Work where
  | build (seq : UInt64) (offer : Message)
  | apply (seq : UInt64) (answer : Message)
  | send (message : Message) (caller : Option Caller)
  | fetch (url : String) (kind : Locus.SyncKind)
  | destroy (reason : Locus.DestroyReason)
  deriving Inhabited

/-- Work that the actor of a line has given out. -/
structure Task where
  id : Nat
  line : Nat
  work : Work
  deriving Inhabited

/-- The actor of a meeting. -/
structure Actor where
  meeting : Meeting
  mailbox : List (Meeting.Input Caller) := []
  /-- The results of tasks that were not yet taken. -/
  results : List (Meeting.Input Caller) := []
  cancelled : Bool := false
  ending : Option Ending := none
  /-- Whether the actor stands on the agenda. -/
  isScheduled : Bool := false
  /-- When the actor had nothing to do last, counted over all actors. -/
  idleSince : Nat := 0
  deriving Inhabited

/-- A call of relay discovery that waits for the completion of its exchange. -/
structure Wait where
  generation : Nat
  call : RelayCall
  deadline : Nat

/-- A meeting's way to the server. -/
structure Line where
  /-- The name of the meeting. -/
  name : String
  outbox : Media.Outbox Waiter := {}
  discovery : Turn.Discovery := {}
  /-- The entry whose request is at the server. -/
  onWire : Option (Media.Outbox.Entry Waiter) := none
  waits : List Wait := []
  /-- How many calls of relay discovery, and pushed responses, came to the line. -/
  relayCalls : Nat := 0
  actor : Option Actor := none
  deriving Inhabited

/-- The actor of a switchboard. -/
structure Desk where
  switchboard : Switchboard := {}
  mailbox : List (Switchboard.Input Requester) := []
  cancelled : Bool := false
  /-- Whether it waits for the reply of a meeting. -/
  isAsking : Bool := false
  /-- Whether it waits for its meetings to stop. -/
  isStopping : Bool := false
  hasEnded : Bool := false
  /-- Whether it stands on the agenda. -/
  isScheduled : Bool := false
  /-- The instance of every meeting as the client knows it. -/
  handles : SortedMap String Nat := ∅
  deriving Inhabited

/-! ### The world -/

/-- What is ready to go on. -/
inductive Job where
  /-- The outbox of a line sends its next request. -/
  | dispatch (line : Nat)
  /-- The request of a line has passed the server's gate. -/
  | depart (line : Nat)
  /-- One who waits for the answer to a request of a line has it. -/
  | answered (line : Nat) (waiter : Waiter) (result : Except TransportError Response)
  /-- The exchange that a call of relay discovery waits for is complete. -/
  | completed (line : Nat) (generation : Nat) (call : RelayCall) (completion : Turn.Completion)
  /-- A call of relay discovery has waited for too long. -/
  | expired (line : Nat) (generation : Nat) (call : RelayCall)
  | begin (task : Nat)
  /-- A task has passed its gate. -/
  | resume (task : Task)
  /-- The actor of a line looks for what it has to do. -/
  | actor (line : Nat)
  /-- An action is passed on to the meeting that a call has asked for. -/
  | forward (line : Nat) (call : Nat) (action : Roap.Action)
  /-- The switchboard has the reply of a meeting. -/
  | viewed (requester : Requester) (view : Except SignalingError Meeting.View)
  /-- The switchboard looks for what it has to do. -/
  | desk

/-- Everything in a scenario. -/
structure World where
  environment : Environment := {}
  settings : Settings
  /-- The time, in milliseconds. -/
  now : Nat := 0
  lines : List Line := []
  desk : Option Desk := none
  tasks : List Task := []
  nextTask : Nat := 0
  /-- How often actors had nothing to do. -/
  rests : Nat := 0
  agenda : List Job := []
  /-- What the environment noticed. -/
  events : List Event := []
  /-- The calls that came to an end, with what they came to. -/
  answers : List (Nat × Answer) := []
  metrics : List Metric := []
  deriving Inhabited

namespace World

/-- Puts a job at the end of the agenda. -/
def later (job : Job) (w : World) : World := { w with agenda := w.agenda ++ [job] }

/-- Puts a job in front of the agenda. -/
def next (job : Job) (w : World) : World := { w with agenda := job :: w.agenda }

/-- Keeps measurements. -/
def measure (metrics : List Metric) (w : World) : World :=
  { w with metrics := w.metrics ++ metrics }

/-- Lets the environment notice an event. -/
def notice (event : Event) (w : World) : World := { w with events := w.events ++ [event] }

/-- A call comes to an end. -/
def conclude (call : Nat) (answer : Answer) (w : World) : World :=
  { w with answers := w.answers ++ [(call, answer)] }

/-- Changes a line. -/
def modifyLine (line : Nat) (f : Line → Line) (w : World) : World :=
  { w with lines := w.lines.modify line f }

/-- The actor of a line. -/
def actor? (line : Nat) (w : World) : Option Actor := w.lines[line]?.bind (·.actor)

/-- Changes the actor of a line. -/
def modifyActor (line : Nat) (f : Actor → Actor) : World → World :=
  modifyLine line fun l => { l with actor := l.actor.map f }

/-- Changes the actor of the switchboard. -/
def modifyDesk (f : Desk → Desk) (w : World) : World := { w with desk := w.desk.map f }

/-- Opens a line. -/
def openLine (name : String) (actor : Option Actor) (w : World) : World :=
  { w with
    lines := w.lines ++
      [{ name, actor, discovery := { enabled := w.settings.turnDiscoveryEnabled } }] }

/-- A new meeting with its actor. -/
def startMeeting (name : String) (w : World) : World :=
  w.openLine name <| some
    { meeting := .create name w.settings.limits w.environment.negotiator.kind.ownsMedia }

/-- The actor of a line goes to the agenda unless it stands there. -/
def scheduleActor (line : Nat) (w : World) : World :=
  match w.actor? line with
  | some a =>
    if a.isScheduled || a.ending.isSome then w
    else (w.modifyActor line fun a => { a with isScheduled := true }).later (.actor line)
  | none => w

/-- The actor of the switchboard goes to the agenda unless it stands there. -/
def scheduleDesk (w : World) : World :=
  match w.desk with
  | some d =>
    if d.isScheduled || d.hasEnded then w
    else (w.modifyDesk fun d => { d with isScheduled := true }).later .desk
  | none => w

end World

end CallSignaling.Scenario
