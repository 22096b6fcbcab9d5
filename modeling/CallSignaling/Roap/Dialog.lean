import CallSignaling.Outcome
import CallSignaling.Roap.Session

/-!
# The dialog of a meeting with its peer

A dialog takes messages into the exchanges they belong to and answers with the effects that its
owner has to carry out.  What comes of an effect is reported back as another action.

* `Roap.Action`, `Roap.Effect`: what is asked of a dialog and what it asks for.
* `Roap.Dialog.submit`: one action, with the effects and the measurements it gives rise to.
-/

namespace CallSignaling.Roap

/-- What is asked of a dialog. -/
inductive Action where
  /-- A message came from the server. -/
  | receive (message : Message)
  /-- A message is about to be sent. -/
  | send (message : Message)
  /-- A message that was sent has been acknowledged by the server. -/
  | sendSuccess (message : Message)
  /-- The participant left the call. -/
  | callLeave
  /-- One exchange is to be dropped. -/
  | reset (seq : UInt64)
  deriving DecidableEq, Repr, Inhabited

/-- What a dialog asks for. -/
inductive Effect where
  /-- Build an answer to `offer` and send it. -/
  | sendAnswer (seq : UInt64) (offer : Message)
  /-- Apply `answer` and send an acknowledgement. -/
  | applyAnswerAndSendOk (seq : UInt64) (answer : Message)
  /-- An exchange came to its end, for the first time since it was created. -/
  | sequenceFinished (seq : UInt64)
  deriving DecidableEq, Repr, Inhabited

/-- The dialog of one meeting. -/
structure Dialog where
  meeting : String
  table : SessionTable := {}
  /-- Number and kind of the message received last, by which a repeated one is known. -/
  lastReceived : Option (UInt64 × MessageKind) := none
  deriving DecidableEq, Inhabited

namespace Dialog

/-- Whether an exchange of the meeting has not finished. -/
def isBusy (d : Dialog) : Bool := d.table.isBusy d.meeting

/-- The exchange with a sequence number. -/
def exchange? (d : Dialog) (seq : UInt64) : Option Exchange :=
  d.table.exchange? d.meeting seq

/-- The phase of the exchange with a sequence number. -/
def phase? (d : Dialog) (seq : UInt64) : Option Phase := (d.exchange? seq).map (·.phase)

/-- The dialog with a change of an exchange. -/
def modify (d : Dialog) (seq : UInt64) (f : Exchange → Exchange) : Dialog :=
  { d with table := d.table.modify d.meeting seq f }

/-- Decides glare in an exchange that is in it. -/
def settleGlare (seq : UInt64) (d : Dialog) : Outcome Dialog Effect :=
  let x := (d.exchange? seq).getD {}
  if x.phase = .glare then
    match x.resolveGlare? with
    | some (settled, winner) =>
      { state := d.modify seq fun _ => settled.step (.glareResolved winner)
        metrics := [.glare winner] }
    | none => { state := d.modify seq Exchange.fail, metrics := [.protocolViolation] }
  else .stay d

/-- What the phase of an exchange asks for.  The side that owns the media answers offers; the other
one acknowledges answers. -/
def perform (seq : UInt64) (ownsMedia : Bool) (d : Dialog) : Outcome Dialog Effect :=
  let x := (d.exchange? seq).getD {}
  match x.phase with
  | .idle =>
    let (table, first) := d.table.finish d.meeting seq
    if first then
      { state := { d with table }, effects := [.sequenceFinished seq],
        metrics := [.exchangeFinished] }
    else .stay d
  | .owesAnswer =>
    match ownsMedia, x.offer with
    | true, some offer => { state := d, effects := [.sendAnswer offer.message.seq offer.message] }
    | _, _ => .stay d
  | .owesOk =>
    match ownsMedia, x.answer with
    | false, some answer => { state := d, effects := [.applyAnswerAndSendOk seq answer.message] }
    | _, _ => .stay d
  | .awaitsOk | .awaitsAnswer | .glare | .failed => .stay d

/-- Stores a message in its exchange, a new one if there was none, and moves the exchange. -/
def advance (message : Message) (side : Side) (signal : Signal) (d : Dialog) :
    Outcome Dialog Effect :=
  let d := { d with table := d.table.openExchange d.meeting message.seq }
  let before := (d.exchange? message.seq).getD {}
  let after := (before.store message side).1.step signal
  { state := d.modify message.seq fun _ => after
    metrics :=
      if after.phase = .failed && before.phase ≠ .failed then [.protocolViolation] else [] }

/-- Takes a message into its exchange and asks for what is due then. -/
def execute (message : Message) (side : Side) (ownsMedia : Bool) (d : Dialog) :
    Outcome Dialog Effect :=
  match Signal.ofMessage? message.kind side with
  | none => .stay d
  | some signal =>
    (d.advance message side signal).andThen (settleGlare message.seq)
      |>.andThen (perform message.seq ownsMedia)

/-- Carries out an action.  A message received with the number and kind of the one before it is
dropped. -/
def submit (d : Dialog) (action : Action) (ownsMedia : Bool) : Outcome Dialog Effect :=
  match action with
  | .receive message =>
    if d.lastReceived = some (message.seq, message.kind) then
      { state := d, metrics := [.duplicateMessage] }
    else
      { d with lastReceived := some (message.seq, message.kind) }.execute message .peer ownsMedia
  | .send message => d.execute message .own ownsMedia
  | .sendSuccess _ => .stay d
  | .callLeave =>
    .stay { d with table := d.table.dropSession d.meeting, lastReceived := none }
  | .reset seq => .stay { d with table := d.table.dropExchange d.meeting seq }

end Dialog

end CallSignaling.Roap
