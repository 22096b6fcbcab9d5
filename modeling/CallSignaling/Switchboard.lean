import CallSignaling.Meeting.Basic

/-!
# The switchboard

The switchboard is the way in: it starts meetings, finds them by name and stops them.  Each start
of a meeting is an instance with a number of its own, so a meeting started again is told apart from
the one that stopped.

* `Switchboard`: the table of meetings.
* `Switchboard.Input`, `Switchboard.Effect`: what is asked of it and what it asks for.
* `Switchboard.step`: the switchboard after an input.
* `Switchboard.reap`: instances that ended by themselves leave the table.
* `Switchboard.beginStop`, `Switchboard.release`: the end of all meetings.
-/

namespace CallSignaling

/-- A summary of a meeting. -/
structure Meeting.Summary where
  meeting : String
  isBusy : Bool
  lastSeq : UInt64
  position : Option UInt64
  destroyed : Bool
  deriving DecidableEq, Repr, Inhabited

/-- The summary in what a meeting shows of itself. -/
def Meeting.View.summary (v : Meeting.View) : Meeting.Summary :=
  { meeting := v.meeting
    isBusy := v.isBusy
    lastSeq := v.lastSeq
    position := v.position
    destroyed := v.destroyed }

/-- How an instance of a meeting ended. -/
inductive Ending where
  | stopped
  | crashed
  deriving DecidableEq, Repr, Inhabited

/-- The meetings in service. -/
structure Switchboard where
  /-- The instance of every meeting in service. -/
  meetings : SortedMap String Nat := ∅
  /-- Whether meetings are taken on. -/
  accepting : Bool := true
  /-- The number of the next instance. -/
  nextInstance : Nat := 0
  tally : ActorTally := {}
  mailbox : MailboxMonitor := { actor := .controller }
  deriving Inhabited

/-- What is asked of a switchboard by a caller `κ`. -/
inductive Switchboard.Input (κ : Type) where
  | create (name : String) (caller : κ)
  | find (name : String) (caller : κ)
  | summarize (name : String) (caller : κ)
  | remove (name : String) (caller : κ)
  | status (caller : κ)
  | shutdown (caller : κ)
  deriving Inhabited

/-- Who asks. -/
def Switchboard.Input.caller {κ : Type} : Switchboard.Input κ → κ
  | create _ caller | find _ caller | summarize _ caller | remove _ caller | status caller
  | shutdown caller => caller

/-- The state of a switchboard. -/
structure Switchboard.Status where
  meetings : Nat
  draining : Bool
  mailboxDepth : Nat
  deriving DecidableEq, Repr, Inhabited

/-- What a caller is told. -/
inductive Switchboard.Reply where
  | done
  /-- The instance of a meeting. -/
  | found (name : String) (instanceId : Nat)
  | summary (summary : Meeting.Summary)
  | status (status : Switchboard.Status)
  | refused (error : SignalingError)
  deriving Inhabited

/-- What a switchboard asks for. -/
inductive Switchboard.Effect (κ : Type) where
  | reply (caller : κ) (reply : Switchboard.Reply)
  | start (name : String) (instanceId : Nat)
  | cancel (instanceId : Nat)
  /-- Ask an instance what it shows of itself, and wait for its reply. -/
  | ask (instanceId : Nat) (caller : κ)
  /-- Stop this switchboard and with it all meetings. -/
  | cancelAll
  deriving Inhabited

namespace Switchboard

variable {κ : Type}

/-- A message was taken from the mailbox while `queued` others waited. -/
def received (queued : Nat) (s : Switchboard) : Switchboard × List Metric :=
  let (mailbox, metrics) := s.mailbox.received queued
  ({ s with mailbox }, metrics)

/-- The state of a switchboard. -/
def currentStatus (s : Switchboard) : Status :=
  { meetings := s.meetings.size, draining := !s.accepting, mailboxDepth := s.mailbox.depth }

/-- A meeting leaves the table. -/
def drop (name : String) (s : Switchboard) : Outcome Switchboard (Effect κ) :=
  let (tally, metrics) := s.tally.meetingRemoved
  { state := { s with meetings := s.meetings.erase name, tally }, metrics }

/-- A refusal. -/
def refuse (caller : κ) (error : SignalingError) (s : Switchboard) :
    Outcome Switchboard (Effect κ) :=
  { state := s, effects := [.reply caller (.refused error)] }

/-- A meeting is to start. -/
def create (name : String) (caller : κ) (s : Switchboard) : Outcome Switchboard (Effect κ) :=
  if !s.accepting then s.refuse caller .draining
  else if s.meetings.contains name then s.refuse caller (.conflict "Meeting already exists")
  else
    let (tally, metrics) := s.tally.meetingCreated
    { state :=
        { s with
          meetings := s.meetings.insert name s.nextInstance
          nextInstance := s.nextInstance + 1
          tally }
      effects := [.start name s.nextInstance, .reply caller (.found name s.nextInstance)]
      metrics }

/-- The switchboard after an input. -/
def step (input : Input κ) (s : Switchboard) : Outcome Switchboard (Effect κ) :=
  match input with
  | .create name caller => s.create name caller
  | .find name caller =>
    match s.meetings.get? name with
    | none => s.refuse caller (.meetingNotFound name)
    | some i => { state := s, effects := [.reply caller (.found name i)] }
  | .summarize name caller =>
    match s.meetings.get? name with
    | none => s.refuse caller (.meetingNotFound name)
    | some i => { state := s, effects := [.ask i caller] }
  | .remove name caller =>
    match s.meetings.get? name with
    | none => s.refuse caller (.meetingNotFound name)
    | some i =>
      Outcome.andThen { state := s, effects := [.cancel i] } (drop name)
        |>.andThen fun s => { state := s, effects := [.reply caller .done] }
  | .status caller => { state := s, effects := [.reply caller (.status s.currentStatus)] }
  | .shutdown caller =>
    { state := { s with accepting := false }, effects := [.cancelAll, .reply caller .done] }

/-- An instance answered, or could not be asked. -/
def onView (caller : κ) (view : Except SignalingError Meeting.View) (s : Switchboard) :
    Outcome Switchboard (Effect κ) :=
  match view with
  | .ok view => { state := s, effects := [.reply caller (.summary view.summary)] }
  | .error e => s.refuse caller e

/-- Instances that ended by themselves leave the table.  Crashes are counted. -/
def reap (ending? : Nat → Option Ending) (s : Switchboard) : Outcome Switchboard (Effect κ) :=
  s.meetings.entries.foldl
    (fun acc entry =>
      match ending? entry.2 with
      | none => acc
      | some .stopped => acc.andThen (drop entry.1)
      | some .crashed =>
        acc.andThen fun s =>
          let (tally, metrics) := s.tally.panicked .meeting
          Outcome.andThen { state := { s with tally }, metrics } (drop entry.1))
    (.stay s)

/-- All meetings are to stop. -/
def beginStop (s : Switchboard) : Outcome Switchboard (Effect κ) :=
  { state := { s with accepting := false }
    effects := s.meetings.entries.map fun entry => .cancel entry.2 }

/-- Instances that have ended leave the table while the switchboard stops. -/
def release (hasEnded : Nat → Bool) (s : Switchboard) : Outcome Switchboard (Effect κ) :=
  s.meetings.entries.foldl
    (fun acc entry => if hasEnded entry.2 then acc.andThen (drop entry.1) else acc) (.stay s)

end Switchboard

end CallSignaling
