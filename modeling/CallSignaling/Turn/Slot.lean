import CallSignaling.Error
import CallSignaling.Roap.Message
import CallSignaling.Secret

/-!
# The pending relay exchange

At most one exchange with the relay service is pending.  Exchanges are numbered, so what concerns an
old one never ends a newer one.

* `Turn.Info`, `Turn.Resolved`: what a response tells.
* `Turn.resolve`: the response that a message is.
* `Turn.Slot`: the exchange that is pending, with the place for its completion.
* `Turn.Slot.begin?`, `Turn.Slot.finish`: an exchange starts and ends.
* `Turn.Slot.deliver`, `Turn.Slot.receive`: its completion is put in and taken out.
* `Turn.Slot.waiting?`, `Turn.Slot.abort`: who waits, and the exchange is given up.
-/

namespace CallSignaling.Turn

open Roap (Message)

/-- A relay server. -/
structure Info where
  url : String
  username : String
  password : Secret
  deriving DecidableEq

/-- What a response tells. -/
structure Resolved where
  info : Info
  /-- Whether the service expects an acknowledgement. -/
  okRequired : Bool
  deriving DecidableEq

/-- What an exchange comes to. -/
abbrev Completion := Except TurnError Resolved

/-- Where a response came from when it stood in the response to a request. -/
def fromHttpResponse : String := "in http response"

/-- Where a response came from when the service sent it by itself. -/
def fromPush : String := "through push channel"

/-- The response that a message is.  It has to name the server, the user and the password. -/
def resolve (message : Message) (source : String) : Completion :=
  if message.kind ≠ .turnResponse then
    .error (.unexpectedMessageType source message.kind.name)
  else
    match message.headerValue? "x-cisco-turn-url", message.headerValue? "x-cisco-turn-username",
        message.headerValue? "x-cisco-turn-password" with
    | some url, some username, some password =>
      .ok {
        info := { url, username, password := .ofText password }
        okRequired := !message.hasHeader Roap.noOkInTransaction }
    | _, _, _ => .error (.missingHeaders source)

/-- The place for the completion of an exchange. -/
inductive Inbox where
  /-- Nothing was put in, nobody waits. -/
  | empty
  /-- The completion is there, nobody has taken it. -/
  | full (completion : Completion)
  /-- Somebody waits for the completion, or has taken it. -/
  | taken
  deriving Inhabited

/-- A pending exchange. -/
structure Pending where
  generation : Nat
  /-- Whether the completion is still to be put in. -/
  isOpen : Bool := true
  inbox : Inbox := .empty
  deriving Inhabited

/-- The pending exchange, if any. -/
structure Slot where
  /-- The number of the next exchange.  It is not bounded here: it grows by one with every exchange,
  and a word of 64 bits would hold the numbers of 2 ^ 64 of them. -/
  nextGeneration : Nat := 0
  pending : Option Pending := none
  deriving Inhabited

/-- What becomes of a completion that is put in or taken out. -/
inductive Reception where
  /-- The exchange is not pending, or its completion was taken before. -/
  | gone
  /-- The completion has to be waited for. -/
  | waits
  | completed (completion : Completion)
  deriving Inhabited

namespace Slot

/-- Starts an exchange unless one is pending. -/
def begin? (s : Slot) : Option (Nat × Slot) :=
  match s.pending with
  | some _ => none
  | none =>
    some (s.nextGeneration,
      { nextGeneration := s.nextGeneration + 1
        pending := some { generation := s.nextGeneration } })

/-- Ends an exchange if it is the pending one. -/
def finish (generation : Nat) (s : Slot) : Slot :=
  match s.pending with
  | some p => if p.generation = generation then { s with pending := none } else s
  | none => s

/-- Puts in the completion of the pending exchange, once.  The result names the exchange if somebody
waits for it. -/
def deliver (completion : Completion) (s : Slot) : Slot × Option Nat :=
  match s.pending with
  | some p =>
    if p.isOpen then
      match p.inbox with
      | .taken => ({ s with pending := some { p with isOpen := false } }, some p.generation)
      | _ =>
        ({ s with pending := some { p with isOpen := false, inbox := .full completion } }, none)
    else (s, none)
  | none => (s, none)

/-- Takes out the completion of an exchange, or starts to wait for it. -/
def receive (generation : Nat) (s : Slot) : Slot × Reception :=
  match s.pending with
  | some p =>
    if p.generation = generation then
      let s := { s with pending := some { p with inbox := .taken } }
      match p.inbox with
      | .empty => (s, .waits)
      | .full completion => (s, .completed completion)
      | .taken => (s, .gone)
    else (s, .gone)
  | none => (s, .gone)

/-- The pending exchange if somebody waits for its completion. -/
def waiting? (s : Slot) : Option Nat :=
  s.pending.bind fun p =>
    match p.isOpen, p.inbox with
    | true, .taken => some p.generation
    | _, _ => none

/-- Gives up the pending exchange. -/
def abort (s : Slot) : Slot := { s with pending := none }

end Slot

end CallSignaling.Turn
