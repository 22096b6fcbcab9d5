import CallSignaling.Actor.Mailbox
import CallSignaling.Locus.Replica
import CallSignaling.Media.Response
import CallSignaling.Roap.Dialog

/-!
# A meeting

A meeting owns the dialog with its peer and the replica of its state.  Whatever takes time
(building or applying an answer, sending a message, fetching the state) is asked for as an effect
and comes back as an input, so each input is handled in one go.

* `Meeting`: the state of a meeting.
* `Meeting.Input`, `Meeting.Effect`: what happens to a meeting and what it asks for.
* `Meeting.transmit`: a message is recorded and sent.
* `Meeting.step`: the meeting after an input.
* `Meeting.view`: what a meeting shows of itself.
-/

namespace CallSignaling

open Locus (Delta Replica Snapshot SyncEffect SyncKind)
open Media (Response)
open Roap (Dialog Message)

/-- The state of a meeting. -/
structure Meeting where
  dialog : Dialog
  replica : Replica
  /-- Whether answers are built here.  Otherwise answers of the peer are applied here. -/
  ownsMedia : Bool := true
  /-- The highest sequence number of a message that the server acknowledged. -/
  lastSeq : UInt64 := 0
  /-- The sequence number of an offer that is being sent. -/
  offerInFlight : Option UInt64 := none
  /-- When the stall timer fires, in milliseconds. -/
  stallDeadline : Option Nat := none
  mailbox : MailboxMonitor := { actor := .meeting }
  deriving Inhabited

/-- What a meeting shows of itself. -/
structure Meeting.View where
  meeting : String
  isBusy : Bool
  lastSeq : UInt64
  /-- The phase of the exchange `lastSeq`, if there is one. -/
  lastPhase : Option Roap.Phase
  exchanges : Nat
  position : Option UInt64
  copy : Option Snapshot
  pendingDeltas : Nat
  syncInFlight : Option SyncKind
  stallTimerArmed : Bool
  destroyed : Bool
  deriving Inhabited

/-- What a caller is told. -/
inductive Meeting.Reply where
  /-- The request was carried out. -/
  | done
  /-- The message with the sequence number was sent. -/
  | sent (seq : UInt64)
  | refused (error : SignalingError)
  | view (view : Meeting.View)
  deriving Inhabited

/-- What happens to a meeting.  Callers that want a reply are known by a `κ`. -/
inductive Meeting.Input (κ : Type) where
  | submit (action : Roap.Action) (caller : κ)
  | sendOffer (sdps : List String) (tieBreaker : UInt32) (caller : κ)
  | sendRoap (message : Message) (caller : κ)
  | delta (d : Delta) (caller : κ)
  | full (snapshot : Snapshot) (caller : κ)
  | view (caller : κ)
  | stallTimeout
  | answerBuilt (seq : UInt64) (result : Except NegotiationError (List String))
  | answerApplied (seq : UInt64) (result : Except NegotiationError Unit)
  | sent (message : Message) (result : Except TransportError Response) (caller : Option κ)
  | syncCompleted (kind : SyncKind) (result : Except TransportError (Option Snapshot))
  /-- The owner of the meetings was told to give this one up. -/
  | destroyed
  /-- The meeting is to stop. -/
  | cancel
  deriving Inhabited

/-- Who waits for the reply to an input. -/
def Meeting.Input.caller? {κ : Type} : Meeting.Input κ → Option κ
  | submit _ caller | sendOffer _ _ caller | sendRoap _ caller | delta _ caller | full _ caller
  | view caller => some caller
  | sent _ _ caller => caller
  | stallTimeout | answerBuilt _ _ | answerApplied _ _ | syncCompleted _ _ | destroyed
  | cancel => none

/-- What a meeting asks for. -/
inductive Meeting.Effect (κ : Type) where
  | reply (caller : κ) (reply : Meeting.Reply)
  /-- Hand a pushed message to relay discovery. -/
  | turnResponse (message : Message)
  | buildAnswer (seq : UInt64) (offer : Message)
  | applyAnswer (seq : UInt64) (answer : Message)
  /-- Send a message and report what became of it, with the caller to be told. -/
  | send (message : Message) (caller : Option κ)
  | fetch (url : String) (kind : SyncKind)
  | destroy (reason : Locus.DestroyReason)
  /-- Announce the end of an exchange. -/
  | announceFinished (seq : UInt64)
  /-- Publish the working copy of the state. -/
  | publish (copy : Snapshot)
  /-- Give up relay discovery. -/
  | abortTurn
  /-- Drop everything that is under way. -/
  | dropTasks
  /-- The meeting crashes over the request of a caller. -/
  | crash (caller : κ)
  deriving Inhabited

/-- Who waits until an effect is carried out. -/
def Meeting.Effect.caller? {κ : Type} : Meeting.Effect κ → Option κ
  | reply caller _ | crash caller => some caller
  | send _ caller => caller
  | _ => none

/-- Whether an effect is the crash of the meeting. -/
def Meeting.Effect.isCrash {κ : Type} : Meeting.Effect κ → Bool
  | crash _ => true
  | _ => false

namespace Meeting

variable {κ : Type}

/-- A new meeting. -/
def create (name : String) (limits : Locus.Limits) (ownsMedia : Bool) : Meeting :=
  { dialog := { meeting := name }, replica := { limits }, ownsMedia }

/-- The name of a meeting. -/
def name (m : Meeting) : String := m.dialog.meeting

/-- What a meeting shows of itself. -/
def view (m : Meeting) : View :=
  { meeting := m.name
    isBusy := m.dialog.isBusy
    lastSeq := m.lastSeq
    lastPhase := m.dialog.phase? m.lastSeq
    exchanges := ((m.dialog.table.session? m.name).map (·.exchanges.size)).getD 0
    position := m.replica.lastApplied
    copy := m.replica.workingCopy
    pendingDeltas := m.replica.pending.size
    syncInFlight := m.replica.syncInFlight
    stallTimerArmed := m.stallDeadline.isSome
    destroyed := m.replica.destroyed }

/-- A message was taken from the mailbox while `queued` others waited. -/
def received (queued : Nat) (m : Meeting) : Meeting × List Metric :=
  let (mailbox, metrics) := m.mailbox.received queued
  ({ m with mailbox }, metrics)

/-! ### Exchanges -/

/-- The effect that stands for one of the dialog. -/
def ofRoapEffect : Roap.Effect → Effect κ
  | .sendAnswer seq offer => .buildAnswer seq offer
  | .applyAnswerAndSendOk seq answer => .applyAnswer seq answer
  | .sequenceFinished seq => .announceFinished seq

/-- Passes an action to the dialog. -/
def converse (action : Roap.Action) (m : Meeting) : Outcome Meeting (Effect κ) :=
  let o := m.dialog.submit action m.ownsMedia
  { state := { m with dialog := o.state }
    effects := o.effects.map ofRoapEffect
    metrics := o.metrics }

/-- Records a message and sends it. -/
def transmit (message : Message) (caller : Option κ) (m : Meeting) : Outcome Meeting (Effect κ) :=
  (m.converse (.send message)).andThen fun m =>
    { state := m, effects := [.send message caller] }

/-- An outcome that only asks for effects. -/
def ask (effects : List (Effect κ)) (m : Meeting) : Outcome Meeting (Effect κ) :=
  { state := m, effects }

/-- An action comes in.  Messages of relay discovery go there; a response is handed over, a request
is of no concern. -/
def onSubmit (action : Roap.Action) (m : Meeting) : Outcome Meeting (Effect κ) :=
  match action with
  | .receive message =>
    match message.kind with
    | .turnResponse => m.ask [.turnResponse message]
    | .turnRequest => .stay m
    | _ => m.converse action
  | .callLeave => { m with offerInFlight := none }.converse action
  | _ => m.converse action

/-- The number after another one.  The highest one that there is has none. -/
def nextNumber? (n : UInt64) : Option UInt64 :=
  if n.toNat + 1 < UInt64.size then some (n + 1) else none

/-- An offer is to be sent.  It gets the number after the last acknowledged one, and only one at a
time is under way.  Nothing is in place for the case that there is no such number: the addition
overflows, which ends the meeting. -/
def onSendOffer (sdps : List String) (tieBreaker : UInt32) (caller : κ) (m : Meeting) :
    Outcome Meeting (Effect κ) :=
  match m.offerInFlight with
  | some _ => m.ask [.reply caller (.refused (.conflict "Local offer already in flight"))]
  | none =>
    match nextNumber? m.lastSeq with
    | some seq =>
      { m with offerInFlight := some seq }.transmit (.offer seq sdps tieBreaker) (some caller)
    | none => m.ask [.crash caller]

/-- An answer was built.  It is sent if it is still owed. -/
def onAnswerBuilt (seq : UInt64) (result : Except NegotiationError (List String)) (m : Meeting) :
    Outcome Meeting (Effect κ) :=
  match result with
  | .ok sdps =>
    if m.dialog.phase? seq = some .owesAnswer then m.transmit (.answer seq sdps) none
    else .stay m
  | .error e => { state := m, metrics := [.answerFailure (.ofError e)] }

/-- An answer was applied.  It is acknowledged if that is still owed. -/
def onAnswerApplied (seq : UInt64) (result : Except NegotiationError Unit) (m : Meeting) :
    Outcome Meeting (Effect κ) :=
  match result with
  | .ok () =>
    if m.dialog.phase? seq = some .owesOk then m.transmit (.ok seq) none else .stay m
  | .error e => { state := m, metrics := [.answerFailure (.ofError e)] }

/-- The meeting when a message could not be sent.  An offer that nobody will answer is dropped. -/
def onSendFailure (message : Message) (m : Meeting) : Outcome Meeting (Effect κ) :=
  match message.kind with
  | .answer | .ok => { state := m, metrics := [.answerFailure .send] }
  | .offer =>
    if m.dialog.phase? message.seq = some .awaitsAnswer then
      m.converse (.reset message.seq)
    else .stay m
  | _ => .stay m

/-- A message was sent, or could not be sent. -/
def onSent (message : Message) (result : Except TransportError Response) (caller : Option κ)
    (m : Meeting) : Outcome Meeting (Effect κ) :=
  let m :=
    if message.kind = .offer && m.offerInFlight = some message.seq then
      { m with offerInFlight := none }
    else m
  let reply := fun r (m : Meeting) => m.ask (caller.map fun c => Effect.reply c r).toList
  match result with
  | .ok _ =>
    ({ m with lastSeq := max m.lastSeq message.seq }.converse (.sendSuccess message)).andThen
      (reply (.sent message.seq))
  | .error e => (m.onSendFailure message).andThen (reply (.refused (.transport e)))

/-! ### The state of the call -/

/-- Carries out an effect of the replica at time `now`. -/
def onSyncEffect (now : Nat) (effect : SyncEffect) (m : Meeting) : Outcome Meeting (Effect κ) :=
  match effect with
  | .applied copy => m.ask [.publish copy]
  | .armStallTimer delay => .stay { m with stallDeadline := some (now + delay) }
  | .cancelStallTimer => .stay { m with stallDeadline := none }
  | .fetch url kind => m.ask [.fetch url kind]
  | .destroy reason =>
    { state := { m with stallDeadline := none }
      effects := [.destroy reason]
      metrics := [.meetingDestroyed reason] }

/-- Passes an input to the replica and carries out its effects. -/
def synchronize (now draw : Nat) (input : Locus.SyncInput) (m : Meeting) :
    Outcome Meeting (Effect κ) :=
  let o := m.replica.step draw input
  o.effects.foldl (fun acc effect => acc.andThen (onSyncEffect now effect))
    { state := { m with replica := o.state }, metrics := o.metrics }

/-! ### Inputs -/

/-- The meeting after an input at time `now`, with the draw for the timer that it may start. -/
def step (now draw : Nat) (input : Input κ) (m : Meeting) : Outcome Meeting (Effect κ) :=
  match input with
  | .submit action caller => (m.onSubmit action).andThen (ask [.reply caller .done])
  | .sendOffer sdps tieBreaker caller => m.onSendOffer sdps tieBreaker caller
  | .sendRoap message caller => m.transmit message (some caller)
  | .delta d caller => (m.synchronize now draw (.delta d)).andThen (ask [.reply caller .done])
  | .full snapshot caller =>
    (m.synchronize now draw (.full snapshot)).andThen (ask [.reply caller .done])
  | .view caller => m.ask [.reply caller (.view m.view)]
  | .stallTimeout => { m with stallDeadline := none }.synchronize now draw .stallTimeout
  | .answerBuilt seq result => m.onAnswerBuilt seq result
  | .answerApplied seq result => m.onAnswerApplied seq result
  | .sent message result caller => m.onSent message result caller
  | .syncCompleted kind result => m.synchronize now draw (.syncResult kind result)
  | .destroyed => .stay m
  | .cancel => { m with stallDeadline := none }.ask [.abortTurn, .dropTasks]

end Meeting

end CallSignaling
