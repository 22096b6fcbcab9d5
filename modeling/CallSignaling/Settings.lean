import CallSignaling.Locus.Replica
import CallSignaling.Text.Quoted

/-!
# Settings

Settings come from named variables.  A variable that is missing or cannot be read leaves the
default; three of the numbers must not be zero.

* `Settings`: the settings with their defaults.
* `Settings.ofVars`: the settings that variables give.
* `Settings.describe`: a description for logs.
* `Settings.word?`: the decimal numbers of 64 bits.
-/

namespace CallSignaling

/-- Why settings are refused. -/
inductive SettingsError where
  /-- The variable `name` is zero. -/
  | mustBePositive (name : String)
  deriving DecidableEq, Repr, Inhabited

/-- The wording of an error. -/
def SettingsError.message : SettingsError → String
  | mustBePositive name => "Invalid configuration value: " ++ name ++ " must be greater than 0"

/-- The settings of a client. -/
structure Settings where
  /-- The name of the client in logs. -/
  clientId : String
  turnDiscoveryEnabled : Bool := true
  /-- How long to wait for a response to relay discovery, in seconds. -/
  turnDiscoveryTimeout : Nat := 10
  /-- How many changes of the state may wait without a fetch. -/
  maxOutOfOrderDeltas : Nat := 5
  /-- How long a gap in the state may stay open, in milliseconds. -/
  stallTimeout : Nat := 2000
  /-- The longest random delay added to it, in milliseconds. -/
  stallJitter : Nat := 1000
  /-- The messages that may wait for a meeting. -/
  meetingChannelBuffer : Nat := 500
  deriving DecidableEq, Repr, Inhabited

namespace Settings

/-- The client's name where none is given: the host and eight digits of a fresh identifier. -/
def defaultClientId (host : Option String) (suffix : String) : String :=
  "signaling-" ++ host.getD "unknown" ++ "-" ++ suffix

/-- The number written by decimal digits with at most one plus sign before them, if it fits into 64
bits. -/
def word? (s : String) : Option Nat :=
  let digits := match s.toList with
    | '+' :: rest => rest
    | all => all
  if digits.isEmpty || !digits.all Char.isDigit then none
  else
    let n := digitsValue digits
    if n < UInt64.size then some n else none

/-- The truth value `true` or `false`. -/
def flag? : String → Option Bool
  | "true" => some true
  | "false" => some false
  | _ => none

/-- The number in a variable, or the default. -/
def wordVar (vars : String → Option String) (name : String) (default : Nat) : Nat :=
  ((vars name).bind word?).getD default

/-- The number in a variable, or the default, unless it is zero. -/
def positiveVar (vars : String → Option String) (name : String) (default : Nat) :
    Except SettingsError Nat :=
  let n := wordVar vars name default
  if n = 0 then .error (.mustBePositive name) else .ok n

/-- The settings that variables give.  `freshId` is the client's name if no variable gives one. -/
def ofVars (vars : String → Option String) (freshId : String) : Except SettingsError Settings := do
  let base : Settings := { clientId := (vars "SIGNALING_CLIENT_ID").getD freshId }
  let turnDiscoveryEnabled :=
    ((vars "SIGNALING_TURN_DISCOVERY_ENABLED").bind flag?).getD base.turnDiscoveryEnabled
  let turnDiscoveryTimeout ←
    positiveVar vars "SIGNALING_TURN_DISCOVERY_TIMEOUT_SECONDS" base.turnDiscoveryTimeout
  let maxOutOfOrderDeltas ←
    positiveVar vars "LOCUS_MAX_OUT_OF_ORDER_DELTAS" base.maxOutOfOrderDeltas
  let stallTimeout := wordVar vars "LOCUS_STALL_TIMEOUT_MS" base.stallTimeout
  let stallJitter := wordVar vars "LOCUS_STALL_JITTER_MS" base.stallJitter
  let meetingChannelBuffer ←
    positiveVar vars "SIGNALING_MEETING_CHANNEL_BUFFER" base.meetingChannelBuffer
  return { base with
    turnDiscoveryEnabled, turnDiscoveryTimeout, maxOutOfOrderDeltas, stallTimeout, stallJitter,
    meetingChannelBuffer }

/-- The limits that the settings put on a replica of the state. -/
def limits (s : Settings) : Locus.Limits :=
  { maxOutOfOrder := s.maxOutOfOrderDeltas
    stallTimeout := s.stallTimeout
    stallJitter := s.stallJitter }

/-- A description for logs. -/
def describe (s : Settings) : String :=
  String.join
    ["Config \x7b client_id: ", Text.quoted s.clientId,
      ", turn_discovery_enabled: ", if s.turnDiscoveryEnabled then "true" else "false",
      ", turn_discovery_timeout_secs: ", toString s.turnDiscoveryTimeout,
      ", max_out_of_order_deltas: ", toString s.maxOutOfOrderDeltas,
      ", stall_timeout_ms: ", toString s.stallTimeout,
      ", stall_jitter_ms: ", toString s.stallJitter,
      ", meeting_channel_buffer: ", toString s.meetingChannelBuffer, " \x7d"]

end Settings

end CallSignaling
