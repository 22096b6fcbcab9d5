import CallSignaling.Proofs.Turn.Exchanges
import CallSignaling.Turn.Discovery

/-!
# The steps of a call of discovery

A call of discovery holds the slot several times, and others may do so in between.  Its steps are
what it does while it holds the slot once.

* `Turn.Point`: what a call does next.
* `Turn.Move`: what a step comes to, with the point after it.
* `Turn.Point.go`, `Turn.Stage.answered`: the steps of a call that is under way.
* `Turn.Discovery.start`, `Turn.Discovery.handOver`: the first steps.
* `Turn.Move.of`: an operation of `Turn.Discovery` as a single move, which leaves the call at the
  point that its effects say.

The operations are these steps without anything in between (`onAnswer_eq`, `respond_eq`,
`onCompletion_eq`, `onTimeout_eq`, `httpResponse_eq`).
-/

namespace CallSignaling.Turn

open Media (Request Response)
open Roap (Message)

/-- What a call does next. -/
inductive Point where
  /-- Go on at `stage` when its request is answered. -/
  | sent (stage : Stage)
  /-- Take a message as a response, and then wait for the completion of its own exchange if it has
  one. -/
  | responding (own : Option Nat) (message : Message) (source : String)
  /-- Put in the completion of the exchange that it claimed. -/
  | delivering (own : Option Nat) (claimed : Nat) (completion : Completion)
  /-- Take the completion of its exchange out of the slot. -/
  | receiving (generation : Nat)
  /-- Wait for the completion. -/
  | waiting (generation : Nat)
  | completed (generation : Nat) (completion : Completion)
  /-- End its exchange and return. -/
  | finishing (generation : Nat) (outcome : Except TurnError Info)
  | returned (result : Except TurnError Result)
  /-- Nothing is left to do for a pushed response. -/
  | handled

/-- What a step of a call comes to. -/
structure Move where
  outcome : Outcome Discovery Effect
  point : Point

/-- The exchange that a stage belongs to. -/
def Stage.generation : Stage → Nat
  | requested generation => generation
  | acknowledged generation _ => generation

/-- The message that is answered at a stage. -/
def Stage.message : Stage → Message
  | requested _ => .turnRequest
  | acknowledged _ _ => .ok Roap.turnSeq

/-- What a call returns that ended its exchange. -/
def Result.ofOutcome : Except TurnError Info → Result
  | .ok info => .found info
  | .error _ => .failed

namespace Point

/-- Where a call goes on when its response is dealt with. -/
def afterResponse : Option Nat → Point
  | some generation => receiving generation
  | none => handled

/-- The next step of a call, unless it waits for something or has returned. -/
def go (d : Discovery) : Point → Move
  | responding own message source =>
    match d.slot.claim with
    | (slot, some claimed) =>
      ⟨.stay { d with slot }, delivering own claimed (resolve message source)⟩
    | (slot, none) => ⟨.stay { d with slot }, afterResponse own⟩
  | delivering own claimed completion =>
    let (slot, waiter) := d.slot.put claimed completion
    ⟨{ state := { d with slot }
       effects := (waiter.map fun generation => Effect.wake generation completion).toList },
      afterResponse own⟩
  | receiving generation =>
    let (slot, reception) := d.slot.receive generation
    let d := { d with slot }
    match reception with
    | .gone => ⟨.stay d, finishing generation (.error .aborted)⟩
    | .waits => ⟨{ state := d, effects := [.await generation] }, waiting generation⟩
    | .completed completion => ⟨.stay d, completed generation completion⟩
  | completed generation (.error e) => ⟨.stay d, finishing generation (.error e)⟩
  | completed generation (.ok resolved) =>
    if resolved.okRequired then
      let stage := Stage.acknowledged generation resolved.info
      ⟨{ state := d, effects := [.send (.roap stage.message) stage], metrics := [.turnOkRequired] },
        sent stage⟩
    else ⟨.stay d, finishing generation (.ok resolved.info)⟩
  | finishing generation outcome =>
    ⟨d.finish generation outcome, returned (.ok (Result.ofOutcome outcome))⟩
  | point => ⟨.stay d, point⟩

end Point

/-- The step after a move. -/
def Move.next (m : Move) : Move :=
  let further := m.point.go m.outcome.state
  ⟨m.outcome.andThen fun _ => further.outcome, further.point⟩

/-- What was sent at a stage is answered. -/
def Stage.answered (reply : Except TransportError Response) (d : Discovery) : Stage → Move
  | requested generation =>
    match reply with
    | .error e => ⟨.stay d, .finishing generation (.error (.transport e))⟩
    | .ok response =>
      match response.embedded? with
      | .ok (some message) =>
        ⟨.stay d, .responding (some generation) message fromHttpResponse⟩
      | .ok none =>
        ⟨{ state := d, metrics := [.turnResponseMissing] }, .receiving generation⟩
      | .error e => ⟨.stay d, .finishing generation (.error (.malformed e.message))⟩
  | acknowledged generation info =>
    match reply with
    | .error e => ⟨.stay d, .finishing generation (.error (.transport e))⟩
    | .ok _ => ⟨.stay d, .finishing generation (.ok info)⟩

/-- The point of a call that asked for an effect. -/
def Effect.point? : Effect → Option Point
  | send _ stage => some (.sent stage)
  | await generation => some (.waiting generation)
  | wake _ _ => none
  | done result => some (.returned result)

/-- Where the effects of an operation leave a call. -/
def Point.resumed (effects : List Effect) : Point :=
  (effects.findSome? Effect.point?).getD .handled

/-- An operation as a single move. -/
def Move.of (o : Outcome Discovery Effect) : Move := ⟨o, .resumed o.effects⟩

namespace Discovery

/-- A call of discovery starts. -/
def start (reconnecting forced reachable : Bool) (d : Discovery) : Move :=
  .of (d.discover reconnecting forced reachable)

/-- Somebody else hands over the reply that they received. -/
def handOver (reply : Option Response) (d : Discovery) : Move :=
  match d.slot.generation?, reply with
  | none, _ =>
    ⟨{ state := d, effects := [.done (.error .notInProgress)] }, .returned (.error .notInProgress)⟩
  | some _, none => skipped []
  | some generation, some response =>
    match response.embedded? with
    | .ok none => skipped [.turnResponseMissing]
    | .error e => ⟨.stay d, .finishing generation (.error (.malformed e.message))⟩
    | .ok (some message) =>
      ⟨.stay d, .responding (some generation) message fromHttpResponse⟩
where
  skipped (metrics : List Metric) : Move :=
    let result := .ok (.skipped .missingHttpResponse)
    ⟨{ state := d, effects := [.done result], metrics }, .returned result⟩

/-- Whatever a call returns, it ends its own exchange. -/
theorem slot_finish (generation : Nat) (outcome : Except TurnError Info) (d : Discovery) :
    (d.finish generation outcome).state.slot = d.slot.finish generation := by
  cases outcome <;> rfl

/-- Whoever waits for an exchange that ends because of a reply that cannot be read. -/
def hungUp (reply : Option Response) (d : Discovery) : List Effect :=
  match reply.map Response.embedded? with
  | some (.error _) => d.wakeAborted
  | _ => []

/-- A reply that is handed over hangs up on nobody, or on whoever waits for the exchange that it
ends. -/
theorem hungUp_cases (reply : Option Response) (d : Discovery) :
    d.hungUp reply = [] ∨ ∃ generation e, d.hungUp reply = [.wake generation (.error .aborted)] ∧
      d.slot.generation? = some generation ∧
      d.handOver reply = ⟨.stay d, .finishing generation (.error e)⟩ := by
  unfold hungUp
  split
  · rename_i e hembedded
    obtain ⟨response, rfl, herror⟩ := Option.map_eq_some_iff.1 hembedded
    cases hwaiting : d.slot.waiting? with
    | none =>
      left
      rw [wakeAborted, hwaiting]
      rfl
    | some generation =>
      obtain ⟨p, hpending, hp⟩ := Option.bind_eq_some_iff.1 hwaiting
      have hgeneration : d.slot.generation? = some generation := by
        rw [Slot.generation?, hpending]
        split at hp
        · exact hp
        · cases hp
      refine .inr ⟨generation, .malformed e.message, ?_, hgeneration, ?_⟩
      · rw [wakeAborted, hwaiting]
        rfl
      · unfold handOver
        simp only [hgeneration, herror]
  · exact .inl rfl

/-- A call either skips the attempt or opens an exchange and sends the request. -/
theorem start_cases (reconnecting forced reachable : Bool) (d : Discovery) :
    (∃ reason, d.start reconnecting forced reachable =
        ⟨d.skip reason, .returned (.ok (.skipped reason))⟩) ∨
      ∃ generation slot request, d.slot.begin? = some (generation, slot) ∧
        request.message = some .turnRequest ∧
        d.start reconnecting forced reachable =
          ⟨{ state := { d with slot }, effects := [.send request (.requested generation)] },
            .sent (.requested generation)⟩ := by
  rw [start, discover]
  cases d.skipReason? forced reachable with
  | some reason => exact .inl ⟨reason, rfl⟩
  | none =>
    cases h : d.slot.begin? with
    | none => exact .inl ⟨.alreadyInProgress, rfl⟩
    | some begun =>
      refine .inr ⟨begun.1, begun.2, _, rfl, ?_, rfl⟩
      cases reconnecting <;> rfl

/-- A request for somebody else opens an exchange or there is none. -/
theorem generate_cases (forced reachable : Bool) (d : Discovery) :
    (d.generate forced reachable).1 = d ∨ ∃ generation slot,
      d.slot.begin? = some (generation, slot) ∧
        (d.generate forced reachable).1 = { d with slot } := by
  rw [generate]
  cases h : d.slot.begin? with
  | none => exact .inl rfl
  | some begun =>
    cases d.skipReason? forced reachable with
    | some reason => exact .inl rfl
    | none => exact .inr ⟨begun.1, begun.2, rfl, rfl⟩

/-- A reply that is handed over ends the call, or is a response to the pending exchange or the end
of it. -/
theorem handOver_cases (reply : Option Response) (d : Discovery) :
    (∃ result metrics, (∀ info, result ≠ .ok (.found info)) ∧
      d.handOver reply = ⟨{ state := d, effects := [.done result], metrics }, .returned result⟩) ∨
      ∃ generation point, d.slot.generation? = some generation ∧
        ((∃ message, point = .responding (some generation) message fromHttpResponse) ∨
          ∃ e, point = .finishing generation (.error e)) ∧
        d.handOver reply = ⟨.stay d, point⟩ := by
  unfold handOver
  cases d.slot.generation? with
  | none => exact .inl ⟨.error .notInProgress, [], nofun, rfl⟩
  | some g =>
    cases reply with
    | none => exact .inl ⟨.ok (.skipped .missingHttpResponse), [], nofun, rfl⟩
    | some response =>
      simp only
      cases response.embedded? with
      | error e => exact .inr ⟨g, _, rfl, .inr ⟨_, rfl⟩, rfl⟩
      | ok embedded =>
        cases embedded with
        | none => exact .inl ⟨.ok (.skipped .missingHttpResponse), _, nofun, rfl⟩
        | some message => exact .inr ⟨g, _, rfl, .inl ⟨message, rfl⟩, rfl⟩

end Discovery

/-! ### The operations are steps in turn -/

namespace Move

variable {o : Outcome Discovery Effect} {generation : Nat}

/-- An operation after what has happened already. -/
def after (o : Outcome Discovery Effect) (f : Discovery → Outcome Discovery Effect) : Move :=
  ⟨o.andThen f, .resumed (f o.state).effects⟩

theorem after_stay (d : Discovery) (f : Discovery → Outcome Discovery Effect) :
    after (.stay d) f = of (f d) := by
  rw [after, Outcome.stay_andThen]
  rfl

/-- Where a call is left depends on the last operation, if those before only woke others. -/
theorem of_andThen (h : ∀ e ∈ o.effects, e.point? = none)
    (f : Discovery → Outcome Discovery Effect) : of (o.andThen f) = after o f := by
  rw [of, after, Point.resumed, Outcome.andThen_effects, List.findSome?_append,
    List.findSome?_eq_none_iff.2 h, Option.none_or, Point.resumed]

/-- A step that only goes on to another point. -/
theorem next_stay {point point' : Point} (h : point.go o.state = ⟨.stay o.state, point'⟩) :
    next ⟨o, point⟩ = ⟨o, point'⟩ := by
  simp [next, h, Outcome.andThen, Outcome.stay]

theorem iterate_of_rest {point : Point} (h : ∀ d, point.go d = ⟨.stay d, point⟩) (n : Nat) :
    next^[n] ⟨o, point⟩ = ⟨o, point⟩ :=
  Function.iterate_fixed (next_stay (h o.state)) n

theorem iterate_returned (result : Except TurnError Result) (n : Nat) :
    next^[n] ⟨o, .returned result⟩ = ⟨o, .returned result⟩ :=
  iterate_of_rest (fun _ => rfl) n

theorem iterate_finishing (outcome : Except TurnError Info) (n : Nat) :
    next^[n + 1] ⟨o, .finishing generation outcome⟩ =
      after o (Discovery.finish generation outcome) := by
  rw [Function.iterate_succ_apply]
  refine (iterate_returned _ n).trans ?_
  cases outcome <;> rfl

theorem iterate_completed (completion : Completion) (n : Nat) :
    next^[n + 2] ⟨o, .completed generation completion⟩ =
      after o (Discovery.onCompletion generation completion) := by
  rw [Function.iterate_succ_apply]
  cases completion with
  | error e =>
    rw [next_stay rfl, iterate_finishing]
    rfl
  | ok resolved =>
    cases h : resolved.okRequired with
    | true =>
      rw [next, Point.go, if_pos h, iterate_of_rest fun _ => rfl]
      simp [after, Outcome.andThen, Discovery.onCompletion, h, Stage.message, Point.resumed,
        Effect.point?]
    | false =>
      have hgo : (Point.completed generation (.ok resolved)).go o.state =
          ⟨.stay o.state, .finishing generation (.ok resolved.info)⟩ := by
        rw [Point.go, if_neg (Bool.eq_false_iff.1 h)]
      rw [next_stay hgo, iterate_finishing]
      simp [after, Outcome.andThen, Discovery.onCompletion, h]

theorem iterate_receiving (n : Nat) :
    next^[n + 3] ⟨o, .receiving generation⟩ =
      after o (Discovery.awaitCompletion generation) := by
  rw [Function.iterate_succ_apply, next, Point.go]
  cases hreceive : o.state.slot.receive generation with
  | mk slot reception =>
    cases reception with
    | gone =>
      rw [iterate_finishing]
      simp [after, Outcome.andThen, Discovery.awaitCompletion, hreceive]
    | waits =>
      rw [iterate_of_rest fun _ => rfl]
      simp [after, Outcome.andThen, Discovery.awaitCompletion, hreceive, Point.resumed,
        Effect.point?]
    | completed completion =>
      rw [iterate_completed]
      simp [after, Outcome.andThen, Discovery.awaitCompletion, hreceive]

/-- A response is dealt with in two steps, or in one if it comes too late. -/
theorem iterate_responding (own : Option Nat) (message : Message) (source : String) (n : Nat) :
    ∃ k, n ≤ k ∧ next^[n + 2] ⟨o, .responding own message source⟩ =
      next^[k] ⟨o.andThen (Discovery.respond message source), .afterResponse own⟩ := by
  cases hclaim : o.state.slot.claim with
  | mk slot claimed =>
    cases claimed with
    | none =>
      refine ⟨n + 1, Nat.le_succ n, ?_⟩
      rw [Function.iterate_succ_apply, next, Point.go]
      simp [Outcome.andThen, Outcome.stay, Discovery.respond, Slot.deliver_eq, hclaim]
    | some g =>
      refine ⟨n, Nat.le_refl n, ?_⟩
      rw [Function.iterate_succ_apply, Function.iterate_succ_apply, next, next, Point.go]
      simp [Point.go, Outcome.andThen, Outcome.stay, Discovery.respond, Slot.deliver_eq, hclaim]

/-- A response only wakes whoever waits for it. -/
theorem point?_respond (message : Message) (source : String) (d : Discovery) :
    ∀ e ∈ (d.respond message source).effects, e.point? = none := by
  intro e he
  obtain ⟨g, -, rfl⟩ := Option.map_eq_some_iff.1 (Option.mem_toList.1 he)
  rfl

theorem iterate_responding_some (d : Discovery) (message : Message) (source : String) (n : Nat) :
    next^[n + 5] ⟨.stay d, .responding (some generation) message source⟩ =
      of ((d.respond message source).andThen (Discovery.awaitCompletion generation)) := by
  obtain ⟨k, hk, hnext⟩ :=
    iterate_responding (o := .stay d) (some generation) message source (n + 3)
  obtain ⟨j, rfl⟩ := Nat.exists_eq_add_of_le' hk
  rw [hnext, Outcome.stay_andThen, of_andThen (point?_respond message source d)]
  exact iterate_receiving (j + n)

end Move

namespace Discovery

/-- How many steps a call takes at most until it waits for something or returns. -/
def stepsToRest : Nat := 5

theorem respond_eq (message : Message) (source : String) (d : Discovery) :
    .of (d.respond message source) =
      Move.next^[stepsToRest] ⟨.stay d, .responding none message source⟩ := by
  obtain ⟨k, -, hnext⟩ := Move.iterate_responding (o := .stay d) none message source 3
  have hnone := List.findSome?_eq_none_iff.2 (Move.point?_respond message source d)
  rw [stepsToRest, hnext, Move.iterate_of_rest fun _ => rfl, Outcome.stay_andThen, Move.of,
    Point.resumed, hnone]
  rfl

theorem onCompletion_eq (generation : Nat) (completion : Completion) (d : Discovery) :
    .of (d.onCompletion generation completion) =
      Move.next^[stepsToRest] ⟨.stay d, .completed generation completion⟩ := by
  rw [stepsToRest, Move.iterate_completed, Move.after_stay]

theorem finish_eq (generation : Nat) (outcome : Except TurnError Info) (d : Discovery) :
    .of (d.finish generation outcome) =
      Move.next^[stepsToRest] ⟨.stay d, .finishing generation outcome⟩ := by
  rw [stepsToRest, Move.iterate_finishing, Move.after_stay]

theorem onTimeout_eq (generation : Nat) (d : Discovery) :
    .of (d.onTimeout generation) =
      Move.next^[stepsToRest] ⟨.stay d, .finishing generation (.error .timeout)⟩ :=
  finish_eq generation (.error .timeout) d

theorem onAnswer_eq (stage : Stage) (reply : Except TransportError Response) (d : Discovery) :
    .of (d.onAnswer stage reply) = Move.next^[stepsToRest] (stage.answered reply d) := by
  rw [stepsToRest]
  cases stage with
  | requested generation =>
    cases reply with
    | error e =>
      rw [Stage.answered, Move.iterate_finishing, Move.after_stay]
      rfl
    | ok response =>
      rw [onAnswer, onReply, Stage.answered]
      cases h : response.embedded? with
      | error e => simp only [Move.iterate_finishing, Move.after_stay]
      | ok embedded =>
        cases embedded with
        | none =>
          simp only [Move.iterate_receiving]
          exact Move.of_andThen (List.forall_mem_nil _) _
        | some message => simp only [Move.iterate_responding_some]
  | acknowledged generation info =>
    cases reply with
    | error e =>
      rw [Stage.answered, Move.iterate_finishing, Move.after_stay]
      rfl
    | ok response =>
      rw [Stage.answered, Move.iterate_finishing, Move.after_stay]
      rfl

theorem point?_wakeAborted (d : Discovery) : ∀ e ∈ d.wakeAborted, e.point? = none := by
  intro e he
  obtain ⟨g, -, rfl⟩ := Option.map_eq_some_iff.1 (Option.mem_toList.1 he)
  rfl

/-- A reply that is handed over is dealt with in steps, too.  If it cannot be read, whoever waits
for the exchange hears of that before the exchange ends. -/
theorem httpResponse_eq (reply : Option Response) (d : Discovery) :
    let m := Move.next^[stepsToRest] (d.handOver reply)
    .of (d.httpResponse reply) =
      (⟨Outcome.andThen { state := d, effects := d.hungUp reply } fun _ => m.outcome, m.point⟩ :
        Move) := by
  unfold stepsToRest httpResponse handOver
  rw [Slot.generation?]
  cases hpending : d.slot.pending with
  | none =>
    have hquiet : d.hungUp reply = [] := by
      rw [hungUp, wakeAborted, Slot.waiting?, hpending]
      split <;> rfl
    rw [hquiet, Option.map_none]
    simp only [Move.iterate_returned]
    rfl
  | some p =>
    rw [Option.map_some, hungUp]
    cases reply with
    | none =>
      simp only [handOver.skipped, Move.iterate_returned]
      rfl
    | some response =>
      simp only [Option.map_some]
      cases h : response.embedded? with
      | error e =>
        simp only [Move.iterate_finishing, Move.after_stay]
        exact Move.of_andThen d.point?_wakeAborted _
      | ok embedded =>
        cases embedded with
        | none =>
          simp only [handOver.skipped, Move.iterate_returned]
          rfl
        | some message =>
          simp only [Move.iterate_responding_some]
          rfl

/-- Where somebody waits for an exchange that ends by a reply, they hear of it before it ends. -/
theorem httpResponse_of_hungUp {reply : Option Response} {d : Discovery} {generation : Nat}
    {e : TurnError} (hhung : d.hungUp reply = [.wake generation (.error .aborted)])
    (hreply : d.handOver reply = ⟨.stay d, .finishing generation (.error e)⟩) :
    d.httpResponse reply =
      Outcome.andThen { state := d, effects := [.wake generation (.error .aborted)] }
        (finish generation (.error e)) := by
  have heq := congrArg Move.outcome (httpResponse_eq reply d)
  rw [hreply, ← finish_eq, hhung] at heq
  exact heq

/-- Where nobody waits for the exchange, a reply is dealt with in steps. -/
theorem httpResponse_of_nobody {reply : Option Response} {d : Discovery} (h : d.hungUp reply = []) :
    .of (d.httpResponse reply) = Move.next^[stepsToRest] (d.handOver reply) := by
  rw [httpResponse_eq, h]
  rfl

end Discovery

end CallSignaling.Turn
