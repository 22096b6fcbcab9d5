import CallSignaling.Metric

/-!
# Mailboxes and counts of actors

* `MailboxMonitor`: how many messages waited behind the one taken last, and the most so far.
* `MailboxMonitor.level`: how alarming that is, by the thresholds of the actor's type.
* `ActorTally`: the meetings that live and the actors that crashed.
-/

namespace CallSignaling

/-- How alarming the depth of a mailbox is. -/
inductive MailboxLevel where
  | normal
  | warning
  | critical
  deriving DecidableEq, Repr, Inhabited

/-- The name of a level. -/
def MailboxLevel.name : MailboxLevel → String
  | normal => "normal"
  | warning => "warning"
  | critical => "critical"

namespace ActorType

/-- The greatest depth that is normal. -/
def normalThreshold : ActorType → Nat
  | controller => 50
  | meeting => 100

/-- The greatest depth that is not critical. -/
def warningThreshold : ActorType → Nat
  | controller => 200
  | meeting => 500

/-- The level of a depth. -/
def level (actor : ActorType) (depth : Nat) : MailboxLevel :=
  if actor.warningThreshold < depth then .critical
  else if actor.normalThreshold < depth then .warning
  else .normal

end ActorType

/-- What is known of one mailbox. -/
structure MailboxMonitor where
  actor : ActorType
  /-- The messages that waited when the last one was taken. -/
  depth : Nat := 0
  peak : Nat := 0
  processed : Nat := 0
  deriving DecidableEq, Repr, Inhabited

namespace MailboxMonitor

/-- A message was taken while `queued` others waited. -/
def received (m : MailboxMonitor) (queued : Nat) : MailboxMonitor × List Metric :=
  ({ m with depth := queued, peak := max m.peak queued, processed := m.processed + 1 },
    [.mailboxDepth m.actor queued])

/-- How alarming the depth is. -/
def level (m : MailboxMonitor) : MailboxLevel := m.actor.level m.depth

end MailboxMonitor

/-- Counts of actors. -/
structure ActorTally where
  activeMeetings : Nat := 0
  panics : Nat := 0
  deriving DecidableEq, Repr, Inhabited

namespace ActorTally

/-- A meeting was created. -/
def meetingCreated (t : ActorTally) : ActorTally × List Metric :=
  ({ t with activeMeetings := t.activeMeetings + 1 }, [.meetingsActive (t.activeMeetings + 1)])

/-- A meeting was removed. -/
def meetingRemoved (t : ActorTally) : ActorTally × List Metric :=
  ({ t with activeMeetings := t.activeMeetings - 1 }, [.meetingsActive (t.activeMeetings - 1)])

/-- An actor crashed. -/
def panicked (t : ActorTally) (actor : ActorType) : ActorTally × List Metric :=
  ({ t with panics := t.panics + 1 }, [.actorPanic actor])

end ActorTally

end CallSignaling
