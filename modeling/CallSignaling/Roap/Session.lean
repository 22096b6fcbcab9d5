import CallSignaling.Roap.Exchange
import CallSignaling.SortedMap

/-!
# Exchanges of all meetings

The table holds one session for each meeting, and a session the meeting's exchanges by sequence
number with a count of those that have not finished.  Whatever is missing is created on the way.

* `Roap.Session`, `Roap.SessionTable`: the exchanges of one meeting and of all.
* `Roap.SessionTable.openSession`, `Roap.SessionTable.openExchange`: creation.
* `Roap.SessionTable.modify`: a change of one exchange.
* `Roap.SessionTable.finish`: the end of an exchange, which is announced once.
* `Roap.SessionTable.dropExchange`, `Roap.SessionTable.dropSession`: removal.
* `Roap.SessionTable.isBusy`: whether the count of a meeting is positive.
-/

namespace CallSignaling.Roap

/-- The exchanges of a meeting. -/
structure Session where
  exchanges : SortedMap UInt64 Exchange := ∅
  /-- The exchanges created and not yet finished. -/
  active : Nat := 0
  deriving DecidableEq, Inhabited

/-- The exchanges of all meetings. -/
structure SessionTable where
  sessions : SortedMap String Session := ∅
  deriving DecidableEq, Inhabited

namespace Session

/-- The session with an exchange `seq`, a new one if there was none. -/
def openExchange (s : Session) (seq : UInt64) : Session :=
  if s.exchanges.contains seq then s
  else { exchanges := s.exchanges.insert seq {}, active := s.active + 1 }

/-- The exchange with a sequence number. -/
def exchange? (s : Session) (seq : UInt64) : Option Exchange := s.exchanges.get? seq

/-- The session with a change of an exchange that is there. -/
def modify (s : Session) (seq : UInt64) (f : Exchange → Exchange) : Session :=
  match s.exchange? seq with
  | some x => { s with exchanges := s.exchanges.insert seq (f x) }
  | none => s

/-- Marks an exchange finished.  The result says whether this call did it. -/
def finish (s : Session) (seq : UInt64) : Session × Bool :=
  match s.exchange? seq with
  | some x =>
    if x.finished then (s, false)
    else
      ({ exchanges := s.exchanges.insert seq { x with finished := true }, active := s.active - 1 },
        true)
  | none => (s, false)

/-- The session without an exchange.  One that had not finished is counted no more. -/
def dropExchange (s : Session) (seq : UInt64) : Session :=
  match s.exchange? seq with
  | some x =>
    { exchanges := s.exchanges.erase seq, active := if x.finished then s.active else s.active - 1 }
  | none => s

end Session

namespace SessionTable

/-- The session of a meeting. -/
def session? (t : SessionTable) (meeting : String) : Option Session := t.sessions.get? meeting

/-- The exchange of a meeting with a sequence number. -/
def exchange? (t : SessionTable) (meeting : String) (seq : UInt64) : Option Exchange :=
  (t.session? meeting).bind (·.exchange? seq)

/-- The table with a change of the session of a meeting, if it has one. -/
def onSession (t : SessionTable) (meeting : String) (f : Session → Session) : SessionTable :=
  match t.session? meeting with
  | some s => { sessions := t.sessions.insert meeting (f s) }
  | none => t

/-- The table with a session for a meeting, a new one if there was none. -/
def openSession (t : SessionTable) (meeting : String) : SessionTable :=
  if t.sessions.contains meeting then t else { sessions := t.sessions.insert meeting {} }

/-- The table with an exchange, a new one if there was none. -/
def openExchange (t : SessionTable) (meeting : String) (seq : UInt64) : SessionTable :=
  (t.openSession meeting).onSession meeting (·.openExchange seq)

/-- The table with a change of an exchange that is there. -/
def modify (t : SessionTable) (meeting : String) (seq : UInt64) (f : Exchange → Exchange) :
    SessionTable :=
  t.onSession meeting (·.modify seq f)

/-- The table without the session of a meeting. -/
def dropSession (t : SessionTable) (meeting : String) : SessionTable :=
  { sessions := t.sessions.erase meeting }

/-- The table without an exchange. -/
def dropExchange (t : SessionTable) (meeting : String) (seq : UInt64) : SessionTable :=
  t.onSession meeting (·.dropExchange seq)

/-- Whether a meeting has an exchange that has not finished. -/
def isBusy (t : SessionTable) (meeting : String) : Bool :=
  match t.session? meeting with
  | some s => 0 < s.active
  | none => false

/-- Marks an exchange finished.  The result says whether this call did it. -/
def finish (t : SessionTable) (meeting : String) (seq : UInt64) : SessionTable × Bool :=
  match t.session? meeting with
  | some s =>
    let (s, done) := s.finish seq
    ({ sessions := t.sessions.insert meeting s }, done)
  | none => (t, false)

end SessionTable

end CallSignaling.Roap
