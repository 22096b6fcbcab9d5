/-!
# Errors

Every error is a cause; its wording is one function of the cause.

* `TransportError`: a request, or a fetch of the state, did not succeed.
* `NegotiationError`: an answer could not be built or applied.
* `TurnError`: relay discovery did not succeed.
* `SignalingError`: what a caller of the library gets to see.
-/

namespace CallSignaling

/-- Why a request failed, without the details. -/
inductive TransportError.Kind where
  | network
  | status
  | timeout
  | serialization
  | cancelled
  deriving DecidableEq, Repr, Inhabited

/-- The short name of a kind. -/
def TransportError.Kind.name : TransportError.Kind → String
  | network => "network"
  | status => "status"
  | timeout => "timeout"
  | serialization => "serialization"
  | cancelled => "cancelled"

/-- Why a request failed. -/
inductive TransportError where
  /-- The connection failed. -/
  | network (message : String)
  /-- The server answered with a status other than success. -/
  | status (code : Nat) (message : String)
  /-- The request took too long. -/
  | timeout
  /-- What was sent or received could not be encoded or decoded. -/
  | serialization (message : String)
  /-- The request was dropped before it had a result. -/
  | cancelled
  deriving DecidableEq, Repr, Inhabited

namespace TransportError

/-- The kind of an error. -/
def kind : TransportError → Kind
  | network _ => .network
  | status _ _ => .status
  | timeout => .timeout
  | serialization _ => .serialization
  | cancelled => .cancelled

/-- The wording of an error. -/
def message : TransportError → String
  | network text => "Network error: " ++ text
  | status code text => "HTTP status " ++ toString code ++ ": " ++ text
  | timeout => "Request timed out"
  | serialization text => "Serialization error: " ++ text
  | cancelled => "Request cancelled"

end TransportError

/-- Why an answer is not in force. -/
inductive NegotiationError where
  /-- An answer to a remote offer could not be built. -/
  | buildAnswer (message : String)
  /-- A remote answer could not be applied. -/
  | applyAnswer (message : String)
  deriving DecidableEq, Repr, Inhabited

namespace NegotiationError

/-- The stage at which negotiation failed. -/
def stage : NegotiationError → String
  | buildAnswer _ => "build"
  | applyAnswer _ => "apply"

/-- The wording of an error. -/
def message : NegotiationError → String
  | buildAnswer text => "Failed to build answer: " ++ text
  | applyAnswer text => "Failed to apply answer: " ++ text

end NegotiationError

/-- Why relay discovery failed.  The `source` of a response says which way it came. -/
inductive TurnError where
  /-- A response was handed over while nothing was waiting for it. -/
  | notInProgress
  | timeout
  | unexpectedMessageType (source messageType : String)
  | missingHeaders (source : String)
  | malformed (text : String)
  | transport (cause : TransportError)
  | aborted
  deriving DecidableEq, Repr, Inhabited

namespace TurnError

/-- The short name of the reason. -/
def reason : TurnError → String
  | notInProgress => "not_in_progress"
  | timeout => "timeout"
  | unexpectedMessageType _ _ => "unexpected_message_type"
  | missingHeaders _ => "missing_headers"
  | malformed _ => "malformed"
  | transport _ => "transport"
  | aborted => "aborted"

/-- The wording of an error. -/
def message : TurnError → String
  | notInProgress => "TURN discovery is not in progress"
  | timeout => "Timed out waiting for TURN_DISCOVERY_RESPONSE"
  | unexpectedMessageType source messageType =>
    "TURN_DISCOVERY_RESPONSE " ++ source ++ " has unexpected messageType: " ++ messageType
  | missingHeaders source => "TURN_DISCOVERY_RESPONSE " ++ source ++ " missing some headers"
  | malformed text => "Malformed TURN discovery response: " ++ text
  | transport cause => "TURN discovery request failed: " ++ cause.message
  | aborted => "TURN discovery aborted"

end TurnError

/-- What a caller gets to see when a request of theirs cannot be served. -/
inductive SignalingError where
  | config (message : String)
  | meetingNotFound (meeting : String)
  | conflict (message : String)
  /-- No meetings are taken on any more. -/
  | draining
  | transport (cause : TransportError)
  | negotiation (cause : NegotiationError)
  | turnDiscovery (cause : TurnError)
  | internal (message : String)
  deriving DecidableEq, Repr, Inhabited

namespace SignalingError

/-- The name of the class of an error. -/
def kind : SignalingError → String
  | config _ => "Config"
  | meetingNotFound _ => "MeetingNotFound"
  | conflict _ => "Conflict"
  | draining => "Draining"
  | transport _ => "Transport"
  | negotiation _ => "Negotiation"
  | turnDiscovery _ => "TurnDiscovery"
  | internal _ => "Internal"

/-- The wording of an error. -/
def message : SignalingError → String
  | config text => "Configuration error: " ++ text
  | meetingNotFound meeting => "Meeting not found: " ++ meeting
  | conflict text => "Conflict: " ++ text
  | draining => "Signaling controller is draining"
  | transport cause => "Transport error: " ++ cause.message
  | negotiation cause => "Negotiation error: " ++ cause.message
  | turnDiscovery cause => "TURN discovery error: " ++ cause.message
  | internal text => "Internal error: " ++ text

/-- A message could not be handed to a meeting that has stopped. -/
def sendClosed : SignalingError := .internal "channel send failed: channel closed"

/-- A meeting stopped before it replied. -/
def replyClosed : SignalingError := .internal "response receive failed: channel closed"

end SignalingError

end CallSignaling
