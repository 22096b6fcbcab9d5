import CallSignaling.Error
import CallSignaling.Locus.Snapshot
import CallSignaling.Media.Response
import CallSignaling.Media.Request
import CallSignaling.Scenario.Gate

/-!
# The environment of a client

In a scenario the client's environment follows a script: it holds requests back, answers them from a
list, refuses them or crashes.

* `Scenario.Server`: answers media requests.
* `Scenario.Negotiator`: builds and applies answers.
* `Scenario.Archive`: hands out copies of the state.
* `Scenario.Event`: what the environment notices.
* `Scenario.Environment`: all of it.
-/

namespace CallSignaling.Scenario

open Locus (DestroyReason Snapshot)
open Media (OutboundRequest Response)
open Roap (Message)

/-- The server, which answers one request after the other. -/
structure Server where
  /-- Where the requests of meetings wait, known by the numbers of their lines. -/
  gate : Gate Nat := {}
  /-- The answers to the next requests. -/
  script : List (Except TransportError Response) := []
  /-- The answer once the script is used up. -/
  fallback : Except TransportError Response := .ok {}
  /-- The request, counted from one, at which sending crashes. -/
  crashAt : Option Nat := none
  requests : Nat := 0
  deriving Inhabited

namespace Server

/-- A request arrives.  The result says whether sending it crashes. -/
def arrive (s : Server) : Server × Bool :=
  ({ s with requests := s.requests + 1 }, s.crashAt = some (s.requests + 1))

/-- The answer to the request that has passed the gate. -/
def answer (s : Server) : Server × Except TransportError Response :=
  match s.script with
  | [] => (s, s.fallback)
  | reply :: rest => ({ s with script := rest }, reply)

end Server

/-- What a negotiator does. -/
inductive Negotiator.Kind where
  /-- Builds answers to the peer's offers. -/
  | answers
  /-- Applies the peer's answers. -/
  | applies
  /-- Is to build answers and refuses. -/
  | refusesOffers
  /-- Is to apply answers and refuses. -/
  | refusesAnswers
  deriving DecidableEq, Repr, Inhabited

/-- Whether a negotiator builds answers. -/
def Negotiator.Kind.ownsMedia : Negotiator.Kind → Bool
  | answers | refusesOffers => true
  | applies | refusesAnswers => false

/-- The negotiator of the media. -/
structure Negotiator where
  kind : Negotiator.Kind := .answers
  /-- Where tasks wait, known by their numbers. -/
  gate : Gate Nat := {}
  /-- Whether a task that passes the gate crashes. -/
  crashes : Bool := false
  deriving Inhabited

namespace Negotiator

/-- The answer to an offer. -/
def build (offer : Message) (n : Negotiator) : Except NegotiationError (List String) :=
  match n.kind with
  | .refusesOffers =>
    .error (.buildAnswer ("mock refused offer seq " ++ toString offer.seq.toNat))
  | _ => .ok ["v=0 mock-answer"]

/-- What becomes of an answer that is to be applied. -/
def apply (answer : Message) (n : Negotiator) : Except NegotiationError Unit :=
  match n.kind with
  | .refusesAnswers =>
    .error (.applyAnswer ("mock refused answer seq " ++ toString answer.seq.toNat))
  | _ => .ok ()

end Negotiator

/-- Where copies of the state are fetched. -/
structure Archive where
  /-- Where tasks wait, known by their numbers. -/
  gate : Gate Nat := {}
  /-- The results of the next fetches.  Further fetches never end. -/
  script : List (Except TransportError (Option Snapshot)) := []
  deriving Inhabited

/-- The result of the fetch that has passed the gate, if it ever ends. -/
def Archive.fetch? (a : Archive) : Archive × Option (Except TransportError (Option Snapshot)) :=
  match a.script with
  | [] => (a, none)
  | result :: rest => ({ a with script := rest }, some result)

/-- What the environment notices. -/
inductive Event where
  | sent (request : OutboundRequest)
  | build (offer : Message)
  | apply (answer : Message)
  | fetch (url : String)
  | destroy (meeting : String) (reason : DestroyReason)
  | finished (meeting : String) (seq : UInt64)
  | applied (meeting : String) (copy : Snapshot)
  deriving Inhabited

/-- The environment of a client. -/
structure Environment where
  server : Server := {}
  negotiator : Negotiator := {}
  archive : Archive := {}
  /-- Whether a public cluster can be reached. -/
  reachable : Bool := false
  /-- The random part of every delay, in milliseconds. -/
  draw : Nat := 0
  /-- The exchange whose end crashes the meeting that announces it. -/
  crashOnFinished : Option UInt64 := none
  /-- The position whose copy crashes the meeting that publishes it. -/
  crashOnApplied : Option UInt64 := none
  deriving Inhabited

/-- Whether noticing an event crashes the meeting that it comes from. -/
def Environment.crashesOn (event : Event) (e : Environment) : Bool :=
  match event with
  | .finished _ seq => e.crashOnFinished = some seq
  | .applied _ copy => e.crashOnApplied = some copy.position
  | _ => false

end CallSignaling.Scenario
