import CallSignaling.Json.Record

/-!
# ROAP messages

Offers, answers, acknowledgements and errors of one media exchange carry the exchange's `seq`; the
messages of relay discovery carry the reserved `seq` zero.

* `Roap.MessageKind`, `Roap.Message`: a message and its kind.
* `Roap.Message.offer`, …, `Roap.Message.turnResponse`: the messages of each kind.
* `Roap.Message.hasHeader`, `Roap.Message.headerValue?`: headers by name.
* `Roap.Message.toJson`, `Roap.Message.ofDocument?`: the wire form.
-/

namespace CallSignaling.Roap

/-- The kind of a message. -/
inductive MessageKind where
  | offer
  | answer
  | ok
  | error
  | turnRequest
  | turnResponse
  deriving DecidableEq, Repr, Inhabited

namespace MessageKind

/-- All kinds. -/
def all : List MessageKind := [offer, answer, ok, error, turnRequest, turnResponse]

/-- The name on the wire. -/
def name : MessageKind → String
  | offer => "OFFER"
  | answer => "ANSWER"
  | ok => "OK"
  | error => "ERROR"
  | turnRequest => "TURN_DISCOVERY_REQUEST"
  | turnResponse => "TURN_DISCOVERY_RESPONSE"

/-- Whether messages of the kind belong to relay discovery. -/
def isTurn : MessageKind → Bool
  | turnRequest | turnResponse => true
  | _ => false

/-- The kind with a name. -/
def ofName? (s : String) : Option MessageKind := all.find? (·.name = s)

/-- A kind is read from its name, or from an object whose only member has that name and says
`null`. -/
def ofDocument? : Document → Option MessageKind
  | .string (some s) => ofName? s
  | .object [(some s, .null)] => ofName? s
  | _ => none

end MessageKind

/-- The version that messages carry unless they say otherwise. -/
def protocolVersion : String := "2"

/-- The sequence number of relay discovery. -/
def turnSeq : UInt64 := 0

/-- The header that asks for the reply inside the response to the request. -/
def includeAnswerInHttpResponse : String := "includeAnswerInHttpResponse"

/-- The header by which a peer says that it expects no closing acknowledgement. -/
def noOkInTransaction : String := "noOkInTransaction"

/-- A message. -/
structure Message where
  kind : MessageKind
  version : String := protocolVersion
  seq : UInt64
  sdps : List String := []
  tieBreaker : Option UInt32 := none
  headers : List String := []
  errorType : Option String := none
  errorCause : Option String := none
  deriving DecidableEq, Repr, Inhabited

namespace Message

/-- An offer. -/
def offer (seq : UInt64) (sdps : List String) (tieBreaker : UInt32) : Message :=
  { kind := .offer, seq, sdps, tieBreaker := some tieBreaker }

/-- The answer to the offer with the same sequence number. -/
def answer (seq : UInt64) (sdps : List String) : Message := { kind := .answer, seq, sdps }

/-- An acknowledgement. -/
def ok (seq : UInt64) : Message := { kind := .ok, seq }

/-- An error of the given type. -/
def error (seq : UInt64) (errorType : String) : Message :=
  { kind := .error, seq, errorType := some errorType }

/-- A request for relay discovery, which wants its reply in the response and no acknowledgement. -/
def turnRequest : Message :=
  { kind := .turnRequest, seq := turnSeq,
    headers := [includeAnswerInHttpResponse, noOkInTransaction] }

/-- A response to relay discovery. -/
def turnResponse (headers : List String) : Message :=
  { kind := .turnResponse, seq := turnSeq, headers }

/-- Whether a header is exactly `name`. -/
def hasHeader (m : Message) (name : String) : Bool := m.headers.contains name

/-- What follows `name=` in the first header that starts with it. -/
def headerValue? (m : Message) (name : String) : Option String :=
  m.headers.findSome? fun header =>
    ((name.toList ++ ['=']).isPrefixOf? header.toList).map String.ofList

/-! ### Wire form -/

/-- The names of the fields, in order. -/
def fieldNames : List String :=
  ["messageType", "version", "seq", "sdps", "tieBreaker", "headers", "errorType", "errorCause"]

/-- A list under a name, left out when empty. -/
def listMember (name : String) (values : List String) : List (String × Json) :=
  if values.isEmpty then [] else [(name, .strings values)]

/-- The message as an object.  Empty lists and absent fields are left out. -/
def toJson (m : Message) : Json :=
  .object <|
    [("messageType", .string m.kind.name), ("version", .string m.version),
      ("seq", .nat m.seq.toNat)]
    ++ listMember "sdps" m.sdps
    ++ (m.tieBreaker.map fun n => ("tieBreaker", Json.nat n.toNat)).toList
    ++ listMember "headers" m.headers
    ++ (m.errorType.map fun s => ("errorType", Json.string s)).toList
    ++ (m.errorCause.map fun s => ("errorCause", Json.string s)).toList

/-- The message that a document says. -/
def ofDocument? (d : Document) : Option Message := do
  match ← d.fields? fieldNames with
  | [kind, version, seq, sdps, tieBreaker, headers, errorType, errorCause] =>
    return {
      kind := ← Document.required MessageKind.ofDocument? kind
      version := ← Document.withDefault Document.text? protocolVersion version
      seq := ← Document.required Document.word64? seq
      sdps := ← Document.withDefault (Document.list? Document.text?) [] sdps
      tieBreaker := ← Document.whenPresent Document.word32? tieBreaker
      headers := ← Document.withDefault (Document.list? Document.text?) [] headers
      errorType := ← Document.whenPresent Document.text? errorType
      errorCause := ← Document.whenPresent Document.text? errorCause }
  | _ => none

end Message

end CallSignaling.Roap
