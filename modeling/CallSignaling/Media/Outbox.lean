import CallSignaling.Media.Response
import CallSignaling.Outcome

/-!
# One media request at a time

All requests of a meeting go through an outbox.  One of them is on the wire at a time; the others
wait, and a request that only sets mute state joins whatever is sent next.  Those who joined share
the reply.  Mute state is filled in when a request is sent, so it is always the latest.

* `Media.Request`: a request as submitted.
* `Media.Outbox`: the waiting entries, each with those who wait for its reply.
* `Media.Outbox.submit`: a request comes in.
* `Media.Outbox.take`: the next entry leaves for the wire, or the dispatcher ends.
* `Media.Outbox.finish`: the reply to an entry goes to all who wait for it.
-/

namespace CallSignaling.Media

open Roap (Message)

/-- A request as submitted. -/
structure Request where
  message : Option Message := none
  /-- The mute state to set, where it is to change. -/
  audioMuted : Option Bool := none
  videoMuted : Option Bool := none
  /-- Whether a new media connection is wanted. -/
  reconnecting : Bool := false
  deriving DecidableEq, Repr, Inhabited

namespace Request

/-- A request that carries a message. -/
def roap (message : Message) : Request := { message := some message }

/-- A request that carries a message and wants a new media connection. -/
def roapReconnecting (message : Message) : Request :=
  { message := some message, reconnecting := true }

/-- A request that sets mute state only. -/
def mute (audio video : Option Bool) : Request := { audioMuted := audio, videoMuted := video }

/-- The kind of a request. -/
def kind (r : Request) : RequestKind := if r.message.isSome then .roap else .localMute

/-- The payload of a request. -/
def payload (r : Request) : Payload :=
  match r.message with
  | some message => .roap message
  | none => .localMute

end Request

/-- A waiting request with those who wait for its reply. -/
structure Outbox.Entry (ω : Type) where
  request : Request
  waiters : List ω
  deriving Inhabited

/-- The requests of a meeting that wait, and what is known for the next one. -/
structure Outbox (ω : Type) where
  queue : List (Outbox.Entry ω) := []
  /-- Whether a dispatcher is at work. -/
  inFlight : Bool := false
  /-- The mute state asked for last, if ever. -/
  audioMuted : Option Bool := none
  videoMuted : Option Bool := none
  /-- The media id that the server assigned last. -/
  mediaId : String := ""
  deriving Inhabited

/-- What the outbox asks for. -/
inductive Outbox.Effect (ω : Type) where
  /-- Start a dispatcher. -/
  | startDispatch
  /-- Tell one who waits what became of the request. -/
  | answer (waiter : ω) (result : Except TransportError Response)
  deriving Inhabited

namespace Outbox

variable {ω : Type}

/-- Keeps the mute state that a request asks for. -/
def recordMutes (request : Request) (o : Outbox ω) : Outbox ω :=
  { o with
    audioMuted := request.audioMuted.or o.audioMuted
    videoMuted := request.videoMuted.or o.videoMuted }

/-- Whether an entry sets mute state only. -/
def Entry.isMute (e : Entry ω) : Bool := e.request.kind = .localMute

/-- Puts a request into the queue.  A mute joins the first entry; a message takes the mutes that
wait with it to the end.  The result says whether entries were joined. -/
def enqueue (request : Request) (waiter : ω) (queue : List (Entry ω)) : List (Entry ω) × Bool :=
  match request.kind, queue with
  | .localMute, [] => ([⟨request, [waiter]⟩], false)
  | .localMute, first :: rest =>
    ({ first with waiters := first.waiters ++ [waiter] } :: rest, true)
  | .roap, queue =>
    let mutes := queue.filter Entry.isMute
    (queue.filter (!·.isMute) ++ [⟨request, waiter :: mutes.flatMap (·.waiters)⟩], !mutes.isEmpty)

/-- A request comes in.  The first one starts a dispatcher. -/
def submit (request : Request) (waiter : ω) (o : Outbox ω) : Outcome (Outbox ω) (Effect ω) :=
  let (queue, joined) := enqueue request waiter o.queue
  { state := { o.recordMutes request with queue, inFlight := true }
    effects := if o.inFlight then [] else [.startDispatch]
    metrics := if joined then [.mediaRequestCoalesced request.kind] else [] }

/-- The wire form of a request.  What was never asked for is muted. -/
def outbound (meeting : String) (request : Request) (o : Outbox ω) : OutboundRequest :=
  { meetingId := meeting
    mediaId := if request.reconnecting then "" else o.mediaId
    audioMuted := o.audioMuted.getD true
    videoMuted := o.videoMuted.getD true
    payload := request.payload }

/-- The first entry leaves for the wire.  Without one the dispatcher ends. -/
def take (meeting : String) (o : Outbox ω) : Outbox ω × Option (Entry ω × OutboundRequest) :=
  match o.queue with
  | [] => ({ o with inFlight := false }, none)
  | entry :: rest => ({ o with queue := rest }, some (entry, o.outbound meeting entry.request))

/-- The reply to an entry is there. -/
def finish (entry : Entry ω) (result : Except TransportError Response) (o : Outbox ω) :
    Outcome (Outbox ω) (Effect ω) :=
  { state :=
      match result with
      | .ok response => { o with mediaId := response.mediaId?.getD o.mediaId }
      | .error _ => o
    effects := entry.waiters.map fun waiter => .answer waiter result
    metrics :=
      match result with
      | .ok _ => [.mediaRequest entry.request.kind none]
      | .error e => [.mediaRequest entry.request.kind (some e.kind)] }

/-- The dispatcher crashed while an entry was on the wire.  Nobody replaces it. -/
def crash (entry : Entry ω) (o : Outbox ω) : Outcome (Outbox ω) (Effect ω) :=
  { state := o, effects := entry.waiters.map fun waiter => .answer waiter (.error .cancelled) }

end Outbox

end CallSignaling.Media
