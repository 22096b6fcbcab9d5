import CallSignaling.Roap.Message

/-!
# Media requests on the wire

* `Media.RequestKind`: whether a request carries a message.
* `Media.Payload`: what a request carries besides the mute state, a message or nothing.
* `Media.OutboundRequest`: a request as it is sent.
* `Media.OutboundRequest.toJson`, `Media.OutboundRequest.ofDocument?`: the wire form.
-/

namespace CallSignaling.Media

open Roap (Message)

/-- The two kinds of request. -/
inductive RequestKind where
  /-- The request carries a message. -/
  | roap
  /-- The request carries mute state only. -/
  | localMute
  deriving DecidableEq, Repr, Inhabited

/-- The name of a kind. -/
def RequestKind.name : RequestKind → String
  | roap => "roap"
  | localMute => "local_mute"

/-- What a request carries besides the mute state. -/
inductive Payload where
  | roap (message : Message)
  | localMute
  deriving DecidableEq, Repr, Inhabited

/-- A request as it is sent. -/
structure OutboundRequest where
  meetingId : String
  /-- The media connection that the request concerns, empty for a new one. -/
  mediaId : String
  audioMuted : Bool
  videoMuted : Bool
  payload : Payload
  deriving DecidableEq, Repr, Inhabited

namespace Payload

/-- The message carried, if any. -/
def message? : Payload → Option Message
  | roap message => some message
  | localMute => none

/-- The payload as an object tagged by its `type`. -/
def toJson : Payload → Json
  | roap message => .object [("type", .string "roap"), ("roapMessage", message.toJson)]
  | localMute => .object [("type", .string "localMute")]

/-- The payload in an object that stands in another one.  The members besides the tag are kept as
values until the tag is known, so all of them have to be fit to be kept. -/
def ofMembers? (members : List (Option String × Document)) : Option Payload := do
  let _ ← Document.memberValues? (Document.nestingLimit - 2)
    (members.filter fun m => m.1 ≠ some "type")
  match ← (← Document.member? "type" members).bind Document.text? with
  | "roap" => return .roap (← (← Document.member? "roapMessage" members).bind Message.ofDocument?)
  | "localMute" => return .localMute
  | _ => none

/-- The payload that a document says: a tagged object, or a list of the tag and the message.  The
message of a list has to be fit to be kept, too. -/
def ofDocument? : Document → Option Payload
  | .object members => ofMembers? members
  | .array [.string (some "roap"), message] => do
    let _ ← message.value? (Document.nestingLimit - 2)
    return .roap (← Message.ofDocument? message)
  | .array [.string (some "localMute")] => some .localMute
  | _ => none

end Payload

namespace OutboundRequest

/-- The request as an object. -/
def toJson (r : OutboundRequest) : Json :=
  .object
    [("meetingId", .string r.meetingId), ("mediaId", .string r.mediaId),
      ("audioMuted", .bool r.audioMuted), ("videoMuted", .bool r.videoMuted),
      ("payload", r.payload.toJson)]

/-- The request that a document says. -/
def ofDocument? (d : Document) : Option OutboundRequest := do
  match ← d.fields? ["meetingId", "mediaId", "audioMuted", "videoMuted", "payload"] with
  | [meetingId, mediaId, audioMuted, videoMuted, payload] =>
    return {
      meetingId := ← Document.required Document.text? meetingId
      mediaId := ← Document.required Document.text? mediaId
      audioMuted := ← Document.required Document.flag? audioMuted
      videoMuted := ← Document.required Document.flag? videoMuted
      payload := ← Document.required Payload.ofDocument? payload }
  | _ => none

end OutboundRequest

end CallSignaling.Media
