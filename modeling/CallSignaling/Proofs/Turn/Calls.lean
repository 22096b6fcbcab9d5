import CallSignaling.Proofs.Media.Ledger
import CallSignaling.Proofs.Turn.Steps

/-!
# Calls of discovery at once

Any number of calls of one discovery are under way, pushed responses come in, and requests travel
over the meeting's line, which others use too.  An event is one step of one of them, so that every
interleaving of their work is a list of events.

* `Turn.Call`: a call with the point that it has come to.
* `Turn.Calls`: a discovery with its calls, the line and the history of the exchanges.
* `Turn.Calls.Cue`: why a call goes on.
* `Turn.Calls.Event`: what can happen.
* `Turn.Calls.step`, `Turn.Calls.run`: the calls after an event, and after a list of them.

No step reads the history.  Exchanges are written down by comparing the slot before a step and after
it.
-/

namespace CallSignaling.Turn

open Media (Response)
open Roap (Message)

/-- Who makes a call. -/
inductive Origin where
  /-- Somebody asks for a relay server. -/
  | discover
  /-- Somebody hands over the reply to a request that they sent themselves. -/
  | handOver
  /-- The service pushes a response. -/
  | push
  deriving DecidableEq

/-- The exchange that a call which has come to a point is busy with. -/
def Point.exchange? : Point → Option Nat
  | sent stage => some stage.generation
  | responding own _ _ | delivering own _ _ => own
  | receiving generation | waiting generation | completed generation _ | finishing generation _ =>
    some generation
  | returned _ | handled => none

/-- The completion that a call is about to put in. -/
def Point.carried? : Point → Option (Nat × Completion)
  | delivering _ claimed completion => some (claimed, completion)
  | _ => none

/-- What the next step of a call adds to the responses and the completions. -/
def Point.news (s : Slot) : Point → History
  | responding _ message source => { handled := s.generation?.toList.map (·, message, source) }
  | delivering _ claimed completion => { completions := [(claimed, completion)] }
  | _ => {}

/-- A call that is under way or over. -/
structure Call where
  origin : Origin
  /-- The exchange that the call opened, or was handed a reply for. -/
  exchange : Option Nat
  point : Point
  metrics : List Metric

namespace Call

/-- A call that starts with a move. -/
def start (origin : Origin) (m : Move) : Call :=
  { origin, exchange := m.point.exchange?, point := m.point, metrics := m.outcome.metrics }

/-- A call after a move. -/
def move (m : Move) (c : Call) : Call :=
  { c with point := m.point, metrics := c.metrics ++ m.outcome.metrics }

/-- A completion reaches a call if it waits for that. -/
def wake (generation : Nat) (completion : Completion) (c : Call) : Call :=
  match c.point with
  | .waiting own =>
    if own = generation then { c with point := .completed generation completion } else c
  | _ => c

end Call

/-- Who waits for the answer to a request: a call at a stage, or somebody else. -/
inductive Client where
  | call (i : Nat) (stage : Stage)
  | other (number : Nat)
  deriving DecidableEq

/-- A discovery at work. -/
structure Calls where
  discovery : Discovery := {}
  calls : List Call := []
  /-- The requests of the meeting. -/
  line : Media.Ledger Client := {}
  history : History := {}

namespace Calls

/-- Why a call goes on. -/
inductive Cue where
  /-- It takes its next step. -/
  | go
  /-- Its request has been answered. -/
  | answer
  /-- It has waited too long. -/
  | expire
  /-- Nobody is left who could complete the exchange that it waits for. -/
  | hangUp

/-- What can happen.  A call has the place in which it started.  Whether a public cluster is
reachable is found out before the slot is held, so it is given with the event. -/
inductive Event where
  | discover (reconnecting forced reachable : Bool)
  | handOver (reply : Option Response)
  | push (message : Message) (source : String)
  /-- The request is made for somebody who sends it themselves.  That call looks at the slot twice, to
  see whether an exchange is pending and to begin one.  Only the second look changes the slot, and it
  asks again whether one is pending, so the event stands where the second look is: whatever happened
  since the first one, the slot after it is the same.  A call that returns at the first look, or
  because the attempt is skipped, changes nothing at all. -/
  | generate (forced reachable : Bool)
  | abort
  | call (i : Nat) (cue : Cue)
  /-- Something happens on the line, except that a call submits a request. -/
  | wire (event : Media.Traffic.Event Client)

/-- The slot of the discovery. -/
def slot (x : Calls) : Slot := x.discovery.slot

/-- The completions that calls are about to put in. -/
def carriedBy (calls : List Call) : List (Nat × Completion) := calls.filterMap (·.point.carried?)

/-- The answer to the request that a call sent. -/
def reply? (i : Nat) (stage : Stage) (x : Calls) : Option (Except TransportError Response) :=
  (x.line.traffic.answered.find? (·.1 = .call i stage)).map (·.2)

/-- Whether nobody is left who could complete an exchange. -/
def isCut (generation : Nat) (x : Calls) : Bool :=
  x.slot.open? ≠ some generation && (carriedBy x.calls).all (·.1 ≠ generation)

/-- The move of a call that is given a cue. -/
def cued (i : Nat) (cue : Cue) (point : Point) (x : Calls) : Option Move :=
  match cue, point with
  | .go, point => some (point.go x.discovery)
  | .answer, .sent stage => (x.reply? i stage).map (stage.answered · x.discovery)
  | .expire, .waiting generation =>
    some ⟨.stay x.discovery, .finishing generation (.error .timeout)⟩
  | .hangUp, .waiting generation =>
    if x.isCut generation then
      some ⟨.stay x.discovery, .finishing generation (.error .aborted)⟩
    else none
  | _, _ => none

/-- The calls after an effect. -/
def wakeBy (calls : List Call) : Effect → List Call
  | .wake generation completion => calls.map (Call.wake generation completion)
  | _ => calls

/-- The line after an effect of the call in place `i`. -/
def submitBy (meeting : String) (i : Nat) (line : Media.Ledger Client) :
    Effect → Media.Ledger Client
  | .send request stage => line.step meeting (.submit request (.call i stage))
  | _ => line

/-- Keeps what a step of the call in place `i` comes to, with the calls as they are after it and
what it adds to the responses and the completions. -/
def settle (meeting : String) (i : Nat) (o : Outcome Discovery Effect) (calls : List Call)
    (news : History) (x : Calls) : Calls :=
  { discovery := o.state
    calls := o.effects.foldl wakeBy calls
    line := o.effects.foldl (submitBy meeting i) x.line
    history := x.history.append (.recorded x.slot o.state.slot news) }

/-- A call starts. -/
def begin (meeting : String) (origin : Origin) (m : Move) (x : Calls) : Calls :=
  x.settle meeting x.calls.length m.outcome (x.calls ++ [.start origin m]) {}

/-- The calls after an event.  What nobody is ready for does not happen. -/
def step (meeting : String) (event : Event) (x : Calls) : Calls :=
  match event with
  | .discover reconnecting forced reachable =>
    x.begin meeting .discover (x.discovery.start reconnecting forced reachable)
  | .handOver reply => x.begin meeting .handOver (x.discovery.handOver reply)
  | .push message source =>
    x.begin meeting .push ⟨.stay x.discovery, .responding none message source⟩
  | .generate forced reachable =>
    x.settle meeting x.calls.length (.stay (x.discovery.generate forced reachable).1) x.calls {}
  | .abort =>
    x.settle meeting x.calls.length x.discovery.abort x.calls
      { completions := x.slot.open?.toList.map (·, .error .aborted) }
  | .call i cue =>
    match x.calls[i]? with
    | some call =>
      match x.cued i cue call.point with
      | some m =>
        x.settle meeting i m.outcome (x.calls.set i (call.move m)) (call.point.news x.slot)
      | none => x
    | none => x
  | .wire (.submit _ (.call _ _)) => x
  | .wire event => { x with line := x.line.step meeting event }

/-- The calls after events in turn. -/
def run (meeting : String) (events : List Event) (x : Calls) : Calls :=
  events.foldl (fun x event => x.step meeting event) x

@[simp] theorem run_nil (meeting : String) (x : Calls) : x.run meeting [] = x := rfl

@[simp] theorem run_cons (meeting : String) (event : Event) (events : List Event) (x : Calls) :
    x.run meeting (event :: events) = (x.step meeting event).run meeting events := rfl

theorem run_append (meeting : String) (before after : List Event) (x : Calls) :
    run meeting (before ++ after) x = run meeting after (run meeting before x) :=
  List.foldl_append

theorem mem_of_reply? {x : Calls} {i : Nat} {stage : Stage}
    {reply : Except TransportError Response} (h : x.reply? i stage = some reply) :
    (.call i stage, reply) ∈ x.line.traffic.answered := by
  obtain ⟨answer, hfind, rfl⟩ := Option.map_eq_some_iff.1 h
  have hclient : answer.1 = .call i stage := by simpa using List.find?_some hfind
  rw [← hclient]
  exact List.mem_of_find?_eq_some hfind

/-- A call takes its next step, or learns the answer to its request, or gives up waiting. -/
theorem cued_cases {i : Nat} {cue : Cue} {point : Point} {x : Calls} {m : Move}
    (hm : x.cued i cue point = some m) :
    (cue = .go ∧ m = point.go x.discovery) ∨
      (∃ stage reply, point = .sent stage ∧
        (.call i stage, reply) ∈ x.line.traffic.answered ∧
        m = stage.answered reply x.discovery) ∨
      ∃ generation e, point = .waiting generation ∧
        m = ⟨.stay x.discovery, .finishing generation (.error e)⟩ := by
  unfold cued at hm
  split at hm
  · exact .inl ⟨rfl, (Option.some.inj hm).symm⟩
  · obtain ⟨reply, hreply, rfl⟩ := Option.map_eq_some_iff.1 hm
    exact .inr (.inl ⟨_, reply, rfl, mem_of_reply? hreply, rfl⟩)
  · exact .inr (.inr ⟨_, _, rfl, (Option.some.inj hm).symm⟩)
  · obtain ⟨-, hm⟩ := Option.ite_none_right_eq_some.1 hm
    exact .inr (.inr ⟨_, _, rfl, (Option.some.inj hm).symm⟩)
  · cases hm

/-- A call either goes on or is not ready for the cue. -/
theorem step_call (meeting : String) (i : Nat) (cue : Cue) (x : Calls) :
    x.step meeting (.call i cue) = x ∨
      ∃ call m, x.calls[i]? = some call ∧ x.cued i cue call.point = some m ∧
        x.step meeting (.call i cue) =
          x.settle meeting i m.outcome (x.calls.set i (call.move m)) (call.point.news x.slot) := by
  rw [step]
  cases hcall : x.calls[i]? with
  | none => exact .inl rfl
  | some call =>
    cases hm : x.cued i cue call.point with
    | none => exact .inl (by simp only [hm])
    | some m => exact .inr ⟨call, m, rfl, hm, by simp only [hm]⟩

/-- What every event keeps holds after every run. -/
theorem run_induction {P : Calls → Prop} {meeting : String}
    (hstep : ∀ event x, P x → P (x.step meeting event)) (events : List Event) {x : Calls}
    (h : P x) : P (x.run meeting events) := by
  induction events generalizing x with
  | nil => exact h
  | cons event events ih => exact ih (hstep event x h)

end Calls

end CallSignaling.Turn
