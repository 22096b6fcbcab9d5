import CallSignaling.Proofs.Turn.Grounds

/-!
# Operations of discovery as events in turn

An operation of `Turn.Discovery` does in one go what a call does in several steps, between which
others may come in.  Where nobody does, the steps come to the same.

* `Turn.Calls.Arrives`: what everything looks like after a move of a call that nothing interrupted.
* `Turn.Calls.Arrives.go`: the next step of the call is the next move.
* `Turn.Asks`: an operation wakes others first, and then asks for one thing more at most.

Main statement: a call that takes its steps in turn does what the operation does
(`operations_at_once`).
-/

namespace CallSignaling.Turn

open Media (Response)
open Roap (Message)

/-- A call before its first step. -/
def Call.fresh (origin : Origin) (exchange : Option Nat) : Call :=
  { origin, exchange, point := .handled, metrics := [] }

/-! ### What operations ask for -/

/-- Effects that wake others, and then leave the call where the last one says. -/
def Asks (effects : List Effect) : Prop :=
  ∃ wakes last, effects = wakes ++ Option.toList last ∧ (∀ e ∈ wakes, e.point? = none) ∧
    ∀ e ∈ last, e.point? ≠ none

namespace Asks

variable {effects wakes : List Effect}

theorem one {e : Effect} (h : e.point? ≠ none) : Asks [e] :=
  ⟨[], some e, rfl, List.forall_mem_nil _, fun _ he => Option.some.inj he ▸ h⟩

theorem after (hwakes : ∀ e ∈ wakes, e.point? = none) (h : Asks effects) :
    Asks (wakes ++ effects) := by
  obtain ⟨more, last, rfl, hmore, hlast⟩ := h
  exact ⟨wakes ++ more, last, (List.append_assoc ..).symm, List.forall_mem_append.2 ⟨hwakes, hmore⟩,
    hlast⟩

end Asks

namespace Discovery

theorem asks_finish (generation : Nat) (outcome : Except TurnError Info) (d : Discovery) :
    Asks (d.finish generation outcome).effects := by
  cases outcome <;> exact .one (Option.some_ne_none _)

theorem asks_onCompletion (generation : Nat) (completion : Completion) (d : Discovery) :
    Asks (d.onCompletion generation completion).effects := by
  unfold onCompletion
  split
  · exact asks_finish _ _ d
  · split
    · exact .one (Option.some_ne_none _)
    · exact asks_finish _ _ d

theorem asks_awaitCompletion (generation : Nat) (d : Discovery) :
    Asks (d.awaitCompletion generation).effects := by
  unfold awaitCompletion
  simp only
  split
  · exact asks_finish _ _ _
  · exact .one (Option.some_ne_none _)
  · exact asks_onCompletion _ _ _

/-- A response wakes whoever waits, and then the call takes the completion of its own exchange. -/
theorem asks_respond_await (generation : Nat) (message : Message) (source : String)
    (d : Discovery) :
    Asks ((d.respond message source).andThen (awaitCompletion generation)).effects := by
  rw [Outcome.andThen_effects]
  exact (asks_awaitCompletion generation _).after (Move.point?_respond message source d)

theorem asks_onAnswer (stage : Stage) (reply : Except TransportError Response) (d : Discovery) :
    Asks (d.onAnswer stage reply).effects := by
  cases stage with
  | acknowledged generation info => cases reply <;> exact asks_finish _ _ d
  | requested generation =>
    cases reply with
    | error e => exact asks_finish _ _ d
    | ok response =>
      simp only [onAnswer, onReply]
      split
      · exact asks_respond_await generation _ _ d
      · rw [Outcome.andThen_effects]
        exact (asks_awaitCompletion generation d).after (List.forall_mem_nil _)
      · exact asks_finish _ _ d

theorem asks_discover (reconnecting forced reachable : Bool) (d : Discovery) :
    Asks (d.discover reconnecting forced reachable).effects := by
  rcases d.start_cases reconnecting forced reachable with
    ⟨reason, hm⟩ | ⟨_, _, _, -, -, hm⟩ <;> rw [start] at hm
  · have heffects := congrArg (·.outcome.effects) hm
    exact heffects ▸ .one (Option.some_ne_none _)
  · have heffects := congrArg (·.outcome.effects) hm
    exact heffects ▸ .one (Option.some_ne_none _)

theorem asks_httpResponse (reply : Option Response) (d : Discovery) :
    Asks (d.httpResponse reply).effects := by
  unfold httpResponse
  split
  · exact .one (Option.some_ne_none _)
  · exact .one (Option.some_ne_none _)
  · split
    · exact .one (Option.some_ne_none _)
    · rw [Outcome.andThen_effects]
      exact (asks_finish _ _ d).after d.point?_wakeAborted
    · exact asks_respond_await _ _ _ d

end Discovery

namespace Calls

/-! ### Uninterrupted moves -/

/-- An effect of the next step of a call does not reach the call itself. -/
theorem wake_go {d : Discovery} {point : Point} {generation : Nat} {completion : Completion}
    (h : .wake generation completion ∈ (point.go d).outcome.effects) {c : Call}
    (hc : c.point = (point.go d).point) : c.wake generation completion = c := by
  have hquiet : ∀ own, c.point = Point.afterResponse own → c.wake generation completion = c := by
    intro own hown
    rw [Call.wake, hown]
    cases own <;> rfl
  cases point with
  | responding own message source =>
    revert h
    simp only [Point.go]
    rcases d.slot.claim with ⟨slot, _ | claimed⟩ <;> exact fun h => absurd h List.not_mem_nil
  | delivering own claimed completion' => exact hquiet own hc
  | receiving own =>
    revert h
    simp only [Point.go]
    rcases d.slot.receive own with ⟨slot, _ | _ | _⟩ <;> simp [Outcome.stay]
  | completed own completion' =>
    revert h
    cases completion' with
    | error e => exact fun h => absurd h List.not_mem_nil
    | ok resolved =>
      simp only [Point.go]
      split <;> simp [Outcome.stay]
  | finishing own outcome => cases outcome <;> simp [Point.go, Discovery.finish] at h
  | sent | waiting | returned | handled => cases h

theorem foldl_wakeBy_set {effects : List Effect} {c : Call}
    (h : ∀ generation completion, .wake generation completion ∈ effects →
      c.wake generation completion = c) (calls : List Call) (i : Nat) :
    effects.foldl wakeBy (calls.set i c) = (effects.foldl wakeBy calls).set i c := by
  induction effects generalizing calls with
  | nil => rfl
  | cons e effects ih =>
    have hone : wakeBy (calls.set i c) e = (wakeBy calls e).set i c := by
      cases e with
      | wake generation completion =>
        rw [wakeBy, wakeBy, List.map_set, h generation completion List.mem_cons_self]
      | _ => rfl
    rw [List.foldl_cons, List.foldl_cons, hone]
    exact ih (fun g completion hmem => h g completion (List.mem_cons_of_mem e hmem)) _

theorem length_foldl_wakeBy (effects : List Effect) (calls : List Call) :
    (effects.foldl wakeBy calls).length = calls.length := by
  induction effects generalizing calls with
  | nil => rfl
  | cons e effects ih =>
    rw [List.foldl_cons, ih]
    cases e <;> simp [wakeBy]

/-- Everything after a move of the call in place `i`, if nothing came in between.  Before it the
calls were `calls`, with `call` in that place, and the line was `line`. -/
structure Arrives (meeting : String) (i : Nat) (call : Call) (calls : List Call)
    (line : Media.Ledger Client) (m : Move) (x : Calls) : Prop where
  discovery : x.discovery = m.outcome.state
  calls : x.calls = (m.outcome.effects.foldl wakeBy calls).set i (call.move m)
  line : x.line = m.outcome.effects.foldl (submitBy meeting i) line

section Arrives

variable {meeting : String} {i : Nat} {call : Call} {calls : List Call}
  {line : Media.Ledger Client} {m : Move} {x : Calls}

theorem Arrives.getElem? (h : Arrives meeting i call calls line m x) (hi : i < calls.length) :
    x.calls[i]? = some (call.move m) := by
  rw [h.calls, List.getElem?_set_self]
  rwa [length_foldl_wakeBy]

/-- The next step of the call is the next move. -/
theorem Arrives.go (h : Arrives meeting i call calls line m x) (hi : i < calls.length) :
    Arrives meeting i call calls line m.next (x.step meeting (.call i .go)) := by
  have hstep : x.step meeting (.call i .go) =
      x.settle meeting i (m.point.go m.outcome.state).outcome
        (x.calls.set i ((call.move m).move (m.point.go m.outcome.state)))
        ((call.move m).point.news x.slot) := by
    simp only [step, h.getElem? hi, cued, h.discovery]
    rfl
  have hmove : (call.move m).move (m.point.go m.outcome.state) = call.move m.next := by
    simp [Call.move, Move.next]
  rw [hstep, hmove]
  refine ⟨rfl, ?_, ?_⟩
  · have heffects : m.next.outcome.effects =
        m.outcome.effects ++ (m.point.go m.outcome.state).outcome.effects := rfl
    rw [heffects, List.foldl_append, settle, h.calls, List.set_set]
    exact foldl_wakeBy_set (fun g completion hmem => wake_go hmem rfl) _ i
  · rw [settle, h.line]
    exact (List.foldl_append).symm

theorem Arrives.run (h : Arrives meeting i call calls line m x) (hi : i < calls.length) (n : Nat) :
    Arrives meeting i call calls line (Move.next^[n] m)
      (x.run meeting (List.replicate n (.call i .go))) := by
  induction n generalizing m x with
  | zero => exact h
  | succ n ih => exact ih (h.go hi)

end Arrives

variable {meeting : String} {i : Nat} {call : Call} {x : Calls}

theorem lt_length (h : x.calls[i]? = some call) : i < x.calls.length :=
  (List.getElem?_eq_some_iff.1 h).1

/-- A call at a point that it has come to. -/
theorem arrives_here {point : Point} (hcall : x.calls[i]? = some call)
    (hpoint : call.point = point) :
    Arrives meeting i call x.calls x.line ⟨.stay x.discovery, point⟩ x := by
  have hmove : call.move ⟨.stay x.discovery, point⟩ = call := by
    rw [Call.move, ← hpoint]
    simp
  obtain ⟨hi, hget⟩ := List.getElem?_eq_some_iff.1 hcall
  refine ⟨rfl, ?_, rfl⟩
  rw [hmove, ← hget]
  exact (List.set_getElem_self hi).symm

/-- A call that is given a cue, and wakes nobody at first. -/
theorem arrives_cue {cue : Cue} {m : Move} (hcall : x.calls[i]? = some call)
    (hm : x.cued i cue call.point = some m) (hquiet : m.outcome.effects = []) :
    Arrives meeting i call x.calls x.line m (x.step meeting (.call i cue)) := by
  have hstep : x.step meeting (.call i cue) =
      x.settle meeting i m.outcome (x.calls.set i (call.move m)) (call.point.news x.slot) := by
    simp only [step, hcall, hm]
  rw [hstep]
  exact ⟨rfl, by rw [settle, hquiet]; rfl, rfl⟩

/-- A call that starts, and wakes nobody at first. -/
theorem arrives_begin {origin : Origin} {m : Move}
    (hquiet : ∀ generation completion, .wake generation completion ∉ m.outcome.effects) :
    Arrives meeting x.calls.length (.fresh origin m.point.exchange?)
      (x.calls ++ [.fresh origin m.point.exchange?]) x.line m (x.begin meeting origin m) := by
  let call := Call.fresh origin m.point.exchange?
  have hset : x.calls ++ [.start origin m] =
    (x.calls ++ [call]).set x.calls.length (call.move m) := by
    simp [call, Call.fresh, Call.start, Call.move]
  refine ⟨rfl, ?_, rfl⟩
  rw [begin, settle, hset]
  exact foldl_wakeBy_set (fun g completion hmem => absurd hmem (hquiet g completion)) _ _

/-- The events of a call that goes on until it waits for something or returns. -/
def toRest (i : Nat) : List Event := List.replicate Discovery.stepsToRest (.call i .go)

/-- Somebody hands over a reply, and nothing comes in between until the call rests. -/
theorem arrives_handOver (reply : Option Response) :
    let call := Call.fresh .handOver (x.discovery.handOver reply).point.exchange?
    Arrives meeting x.calls.length call (x.calls ++ [call]) x.line
      (Move.next^[Discovery.stepsToRest] (x.discovery.handOver reply))
      (x.run meeting (.handOver reply :: toRest x.calls.length)) := by
  refine (arrives_begin fun g completion hmem => ?_).run (by simp) _
  rcases x.discovery.handOver_cases reply with
    ⟨result, metrics, -, hm⟩ | ⟨_, point, -, -, hm⟩ <;> rw [hm] at hmem
  · simp at hmem
  · exact absurd hmem List.not_mem_nil

/-- **Calls without anything in between are operations of discovery**: a call that learns the answer
to its request, or the completion of its exchange, or has waited for too long, and then takes its
steps in turn, does what the operation does.  So does a call that starts, and a response that is
pushed.  A reply that is handed over does, too, but for those who wait for an exchange that ends by
it: in the operation they hear of the end, here they find it out. -/
theorem operations_at_once (meeting : String) (x : Calls) :
    (∀ i call, x.calls[i]? = some call →
      (∀ stage reply, call.point = .sent stage → x.reply? i stage = some reply →
        Arrives meeting i call x.calls x.line (.of (x.discovery.onAnswer stage reply))
          (x.run meeting (.call i .answer :: toRest i))) ∧
      (∀ generation completion, call.point = .completed generation completion →
        Arrives meeting i call x.calls x.line (.of (x.discovery.onCompletion generation completion))
          (x.run meeting (toRest i))) ∧
      ∀ generation, call.point = .waiting generation →
        Arrives meeting i call x.calls x.line (.of (x.discovery.onTimeout generation))
          (x.run meeting (.call i .expire :: toRest i))) ∧
    (∀ reconnecting forced reachable,
      let m := Move.of (x.discovery.discover reconnecting forced reachable)
      let call := Call.fresh .discover m.point.exchange?
      Arrives meeting x.calls.length call (x.calls ++ [call]) x.line m
        (x.run meeting [.discover reconnecting forced reachable])) ∧
    (∀ message source,
      let call := Call.fresh .push none
      Arrives meeting x.calls.length call (x.calls ++ [call]) x.line
        (.of (x.discovery.respond message source))
        (x.run meeting (.push message source :: toRest x.calls.length))) ∧
    ∀ reply, ∃ m : Move,
      Move.of (x.discovery.httpResponse reply) =
        ⟨Outcome.andThen { state := x.discovery, effects := x.discovery.hungUp reply }
          fun _ => m.outcome, m.point⟩ ∧
      let call := Call.fresh .handOver (x.discovery.handOver reply).point.exchange?
      Arrives meeting x.calls.length call (x.calls ++ [call]) x.line m
        (x.run meeting (.handOver reply :: toRest x.calls.length)) := by
  have hlength : ∀ call : Call, x.calls.length < (x.calls ++ [call]).length := by simp
  refine ⟨fun i call hcall => ⟨fun stage reply hpoint hreply => ?_,
    fun generation completion hpoint => ?_, fun generation hpoint => ?_⟩,
    fun reconnecting forced reachable => ?_, fun message source => ?_, fun reply => ?_⟩
  · have hm : x.cued i .answer call.point = some (stage.answered reply x.discovery) := by
      rw [hpoint, cued, hreply, Option.map_some]
    rw [Discovery.onAnswer_eq]
    exact (arrives_cue hcall hm (stage.answered_spec reply x.discovery).2.1).run (lt_length hcall) _
  · rw [Discovery.onCompletion_eq]
    exact (arrives_here hcall hpoint).run (lt_length hcall) _
  · have hm : x.cued i .expire call.point =
        some ⟨.stay x.discovery, .finishing generation (.error .timeout)⟩ := by
      rw [hpoint]
      rfl
    rw [Discovery.onTimeout_eq]
    exact (arrives_cue hcall hm rfl).run (lt_length hcall) _
  · refine arrives_begin fun g completion hmem => ?_
    rcases x.discovery.start_cases reconnecting forced reachable with
      ⟨reason, hm⟩ | ⟨_, _, _, -, -, hm⟩ <;> rw [Discovery.start] at hm <;> rw [hm] at hmem
    · simp [Discovery.skip] at hmem
    · simp at hmem
  · have hquiet : ∀ generation completion, Effect.wake generation completion ∉
        (Outcome.stay x.discovery : Outcome Discovery Effect).effects :=
      fun _ _ => List.not_mem_nil
    rw [Discovery.respond_eq]
    exact (@arrives_begin meeting x .push ⟨_, .responding none message source⟩ hquiet).run
      (hlength _) _
  · exact ⟨_, Discovery.httpResponse_eq reply x.discovery, arrives_handOver reply⟩

end Calls
end CallSignaling.Turn
