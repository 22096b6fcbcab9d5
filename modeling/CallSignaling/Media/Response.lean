import CallSignaling.Json.Printer
import CallSignaling.Roap.Message

/-!
# Replies to media requests

* `Media.Response`: the server's reply, with the state of the call and the media connections.
* `Media.Response.embedding`: a reply that carries a message.  The message stands as JSON text in
  the `remoteSdp` of the first connection.
* `Media.Response.embedded?`: the message that a reply carries.
* `Media.Response.toJson`, `Media.Response.ofDocument?`: the wire form.
-/

namespace CallSignaling.Media

open Roap (Message)

/-- One media connection. -/
structure Connection where
  mediaId : String := ""
  /-- JSON text of an object that may hold a `roapMessage`. -/
  remoteSdp : Option String := none
  deriving DecidableEq, Repr, Inhabited

/-- The server's reply to a media request. -/
structure Response where
  /-- The state of the call, as the server sent it. -/
  locus : Option Json := none
  connections : List Connection := []
  deriving Inhabited, Repr

/-- What stands in a connection's `remoteSdp` cannot be read. -/
structure MalformedEmbedding where
  deriving DecidableEq, Repr

/-- The wording of the error. -/
def MalformedEmbedding.message (_ : MalformedEmbedding) : String := "remoteSdp cannot be read"

namespace Connection

/-- The connection as an object. -/
def toJson (c : Connection) : Json :=
  .object <| ("mediaId", .string c.mediaId)
    :: (c.remoteSdp.map fun s => ("remoteSdp", Json.string s)).toList

/-- The connection that a document says. -/
def ofDocument? (d : Document) : Option Connection := do
  match ← d.fields? ["mediaId", "remoteSdp"] with
  | [mediaId, remoteSdp] =>
    return {
      mediaId := ← Document.withDefault Document.text? "" mediaId
      remoteSdp := ← Document.whenPresent Document.text? remoteSdp }
  | _ => none

end Connection

namespace Response

/-- The reply as an object. -/
def toJson (r : Response) : Json :=
  .object <| (r.locus.map fun j => ("locus", j)).toList
    ++ [("mediaConnections", .array (r.connections.map Connection.toJson))]

/-- The reply that a document says. -/
def ofDocument? (d : Document) : Option Response := do
  match ← d.fields? ["locus", "mediaConnections"] with
  | [locus, connections] =>
    return {
      locus := ← Document.whenPresent (Document.value? (Document.nestingLimit - 1)) locus
      connections := ← Document.withDefault (Document.list? Connection.ofDocument?) [] connections }
  | _ => none

/-- A reply with one connection that carries `message`. -/
def embedding (mediaId : String) (message : Message) : Response :=
  let body := Json.object [("roapMessage", message.toJson)]
  { connections := [{ mediaId, remoteSdp := some body.canonical.text }] }

/-- The message in the text of a `remoteSdp`: a field that may be `null`, and may be missing from an
object but not from a list. -/
def messageOfText? (text : String) : Option (Option Message) := do
  match ← Document.ofText? text with
  | .array [] => none
  | d =>
    match ← d.fields? ["roapMessage"] with
    | [message] => Document.whenPresent Message.ofDocument? message
    | _ => none

/-- The message that the first connection carries, if any. -/
def embedded? (r : Response) : Except MalformedEmbedding (Option Message) :=
  match r.connections.head?.bind (·.remoteSdp) with
  | none => .ok none
  | some text =>
    if text.isEmpty then .ok none
    else
      match messageOfText? text with
      | some message => .ok message
      | none => .error {}

/-- The media id that the server assigned: that of the first connection, unless it is empty. -/
def mediaId? (r : Response) : Option String :=
  (r.connections.head?.map (·.mediaId)).filter (!·.isEmpty)

end Response

end CallSignaling.Media
