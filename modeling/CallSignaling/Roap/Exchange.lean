import CallSignaling.Roap.Message

/-!
# One offer/answer exchange

An exchange starts with an offer from either side, goes on with the answer of the other side and
ends with the acknowledgement of the answer.  If both sides offer at once, the offer with the
smaller tie breaker stays.

* `Roap.Phase`, `Roap.Signal`, `Roap.Phase.next`: where an exchange stands and how messages move it.
* `Roap.glareWinner`: which of two offers stays.
* `Roap.Exchange`: a phase, the messages stored so far, and whether the exchange has ever finished.
* `Roap.Exchange.store`, `Roap.Exchange.step`, `Roap.Exchange.resolveGlare?`: its operations.
-/

namespace CallSignaling.Roap

/-- One of the two sides of an exchange. -/
inductive Side where
  | own
  | peer
  deriving DecidableEq, Repr, Inhabited

/-- The name of a side. -/
def Side.name : Side → String
  | own => "local"
  | peer => "remote"

/-- Where an exchange stands. -/
inductive Phase where
  /-- Nothing is under way, at first and again after the end. -/
  | idle
  /-- The peer offered, an answer is owed. -/
  | owesAnswer
  /-- The answer is sent, its acknowledgement is awaited. -/
  | awaitsOk
  /-- An offer is sent, its answer is awaited. -/
  | awaitsAnswer
  /-- The peer answered, an acknowledgement is owed. -/
  | owesOk
  /-- Both sides offered. -/
  | glare
  /-- The protocol was violated.  Only dropping the exchange leaves this phase. -/
  | failed
  deriving DecidableEq, Repr, Inhabited

namespace Phase

/-- All phases. -/
def all : List Phase := [idle, owesAnswer, awaitsOk, awaitsAnswer, owesOk, glare, failed]

/-- The name of a phase. -/
def name : Phase → String
  | idle => "INIT"
  | owesAnswer => "WAIT_TX_ANSWER"
  | awaitsOk => "WAIT_RX_OK"
  | awaitsAnswer => "WAIT_RX_ANSWER"
  | owesOk => "WAIT_TX_OK"
  | glare => "GLARE"
  | failed => "ERROR"

end Phase

/-- What a message of an exchange is to it. -/
inductive Part where
  | offer
  | answer
  | ok
  | error
  deriving DecidableEq, Repr, Inhabited

namespace Part

/-- All parts. -/
def all : List Part := [offer, answer, ok, error]

/-- The name of a part. -/
def name : Part → String
  | offer => "OFFER"
  | answer => "ANSWER"
  | ok => "OK"
  | error => "ERROR"

end Part

/-- The part that a message plays.  Messages of relay discovery play none. -/
def MessageKind.part? : MessageKind → Option Part
  | .offer => some .offer
  | .answer => some .answer
  | .ok => some .ok
  | .error => some .error
  | .turnRequest | .turnResponse => none

/-- What moves an exchange. -/
inductive Signal where
  | received (part : Part)
  | sent (part : Part)
  | glareResolved (winner : Side)
  deriving DecidableEq, Repr, Inhabited

namespace Signal

/-- All signals. -/
def all : List Signal :=
  Part.all.map received ++ Part.all.map sent ++ [glareResolved .own, glareResolved .peer]

/-- The name of a signal. -/
def name : Signal → String
  | received part => "RX_" ++ part.name
  | sent part => "TX_" ++ part.name
  | glareResolved .own => "GLARE_RESOLVED_LOCAL"
  | glareResolved .peer => "GLARE_RESOLVED_REMOTE"

/-- The signal of a message that comes from the given side. -/
def ofMessage? (kind : MessageKind) : Side → Option Signal
  | .own => kind.part?.map sent
  | .peer => kind.part?.map received

end Signal

/-- The phase after a signal.  Errors and signals that are not expected end in `failed`, except that
an exchange at rest lets late messages pass. -/
def Phase.next : Phase → Signal → Phase
  | failed, _ => failed
  | _, .received .error => failed
  | _, .sent .error => failed
  | idle, .received .offer => owesAnswer
  | idle, .sent .offer => awaitsAnswer
  | idle, _ => idle
  | owesAnswer, .sent .answer => awaitsOk
  | owesAnswer, .sent .offer => glare
  | awaitsOk, .received .ok => idle
  | awaitsAnswer, .received .answer => owesOk
  | awaitsAnswer, .received .offer => glare
  | owesOk, .sent .ok => idle
  | glare, .glareResolved .peer => owesAnswer
  | glare, .glareResolved .own => awaitsAnswer
  | _, _ => failed

/-- The side whose offer stays.  The smaller tie breaker wins, a missing one counts as zero, and of
two equal ones the peer's wins. -/
def glareWinner (own peer : Option UInt32) : Side :=
  if own.getD 0 < peer.getD 0 then .own else .peer

/-- A place for a message in an exchange. -/
inductive Slot where
  | part (part : Part)
  /-- The second of two offers. -/
  | glareOffer
  deriving DecidableEq, Repr, Inhabited

namespace Slot

/-- All slots. -/
def all : List Slot := Part.all.map part ++ [glareOffer]

/-- The name of a slot. -/
def name : Slot → String
  | part p => p.name
  | glareOffer => "GLARE_OFFER"

end Slot

/-- A message with the side that it came from. -/
structure Stored where
  message : Message
  side : Side
  deriving DecidableEq, Repr, Inhabited

/-- What came of storing a message. -/
inductive StoreOutcome where
  | stored
  /-- There was an offer already, so the message went to the second place. -/
  | glareDetected
  /-- The message is not part of an exchange. -/
  | ignored
  deriving DecidableEq, Repr, Inhabited

/-- The name of an outcome. -/
def StoreOutcome.name : StoreOutcome → String
  | stored => "stored"
  | glareDetected => "glare_detected"
  | ignored => "ignored"

/-- An exchange. -/
structure Exchange where
  phase : Phase := .idle
  offer : Option Stored := none
  answer : Option Stored := none
  ok : Option Stored := none
  error : Option Stored := none
  glareOffer : Option Stored := none
  /-- Whether the end of the exchange has been announced. -/
  finished : Bool := false
  deriving DecidableEq, Repr, Inhabited

namespace Exchange

/-- What a slot holds. -/
def stored? (x : Exchange) : Slot → Option Stored
  | .part .offer => x.offer
  | .part .answer => x.answer
  | .part .ok => x.ok
  | .part .error => x.error
  | .glareOffer => x.glareOffer

/-- The exchange with a message in a slot. -/
def put (x : Exchange) (slot : Slot) (m : Stored) : Exchange :=
  match slot with
  | .part .offer => { x with offer := some m }
  | .part .answer => { x with answer := some m }
  | .part .ok => { x with ok := some m }
  | .part .error => { x with error := some m }
  | .glareOffer => { x with glareOffer := some m }

/-- Stores a message.  A second offer goes to a place of its own. -/
def store (x : Exchange) (message : Message) (side : Side) : Exchange × StoreOutcome :=
  match message.kind.part? with
  | none => (x, .ignored)
  | some part =>
    if part = .offer && x.offer.isSome then (x.put .glareOffer ⟨message, side⟩, .glareDetected)
    else (x.put (.part part) ⟨message, side⟩, .stored)

/-- The exchange after a signal. -/
def step (x : Exchange) (signal : Signal) : Exchange := { x with phase := x.phase.next signal }

/-- Leaves one of two offers in the first place, and says whose it is.  Without two offers there is
nothing to decide. -/
def resolveGlare? (x : Exchange) : Option (Exchange × Side) := do
  let first ← x.offer
  let second ← x.glareOffer
  let (own, peer) := match first.side with
    | .peer => (second, first)
    | .own => (first, second)
  let winner := glareWinner own.message.tieBreaker peer.message.tieBreaker
  let kept := match winner with
    | .own => own
    | .peer => peer
  return ({ x with offer := some kept, glareOffer := none }, winner)

/-- The exchange in the phase that only dropping it leaves. -/
def fail (x : Exchange) : Exchange := { x with phase := .failed }

end Exchange

end CallSignaling.Roap
