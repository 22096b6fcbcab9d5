import CallSignaling.Proofs.Roap.Lookup
import CallSignaling.Roap.Dialog

/-!
# What a dialog does is what its exchanges do

* `Roap.Exchange.advance`, `Roap.Exchange.settleGlare`, `Roap.Exchange.perform`, `Roap.Exchange.take`:
  the parts of a step of a dialog, on the one exchange that they are about.
* `Roap.Dialog.Follows`: an outcome of a dialog that is the outcome of one of its exchanges.
* `Roap.Dialog.taken?`: the message that an action brings into its exchange.
* `Roap.Action.Drops`, `Roap.Action.Concerns`: whether an action removes an exchange, and whether it
  has to do with it at all.
* `Roap.Dialog.run`: actions in turn.
* `Roap.Dialog.concerning`: those of them that have to do with one exchange.

Main statements: every part of a step follows the exchange (`follows_advance`,
`follows_settleGlare`, `follows_perform`), so an action with a message to take does what the
exchange of the message does (`follows_submit`); all other actions at most remove exchanges
(`submit_of_none`).  So an exchange that is there after an action was there before or has taken a
message (`of_exchange?_submit`), and only actions that concern it change it
(`exchange?_run_of_concerning_nil`).
-/

namespace CallSignaling.Roap

/-! ### Steps of one exchange -/

namespace Exchange

/-- Stores a message and moves by its signal. -/
def advance (message : Message) (side : Side) (signal : Signal) (x : Exchange) :
    Outcome Exchange Effect :=
  let after := (x.store message side).1.step signal
  { state := after
    metrics :=
      if after.phase = .failed && x.phase ≠ .failed then [.protocolViolation] else [] }

/-- Decides glare, if both sides offered. -/
def settleGlare (x : Exchange) : Outcome Exchange Effect :=
  if x.phase = .glare then
    match x.resolveGlare? with
    | some (settled, winner) =>
      { state := settled.step (.glareResolved winner), metrics := [.glare winner] }
    | none => { state := x.fail, metrics := [.protocolViolation] }
  else .stay x

/-- Asks for what the phase makes due, and ends at rest, the first time with an announcement. -/
def perform (seq : UInt64) (ownsMedia : Bool) (x : Exchange) : Outcome Exchange Effect :=
  match x.phase with
  | .idle =>
    if x.finished then .stay x
    else
      { state := { x with finished := true }, effects := [.sequenceFinished seq],
        metrics := [.exchangeFinished] }
  | .owesAnswer =>
    match ownsMedia, x.offer with
    | true, some offer => { state := x, effects := [.sendAnswer offer.message.seq offer.message] }
    | _, _ => .stay x
  | .owesOk =>
    match ownsMedia, x.answer with
    | false, some answer => { state := x, effects := [.applyAnswerAndSendOk seq answer.message] }
    | _, _ => .stay x
  | .awaitsOk | .awaitsAnswer | .glare | .failed => .stay x

/-- Only rest changes an exchange for what is due, and then it has finished. -/
theorem perform_state (x : Exchange) (seq : UInt64) (ownsMedia : Bool) :
    (x.perform seq ownsMedia).state =
      if x.phase = .idle then { x with finished := true } else x := by
  obtain ⟨phase, offer, answer, ok, error, glareOffer, finished⟩ := x
  cases phase with
  | idle => cases finished <;> rfl
  | owesAnswer => cases ownsMedia <;> cases offer <;> rfl
  | owesOk => cases ownsMedia <;> cases answer <;> rfl
  | awaitsOk => rfl
  | awaitsAnswer => rfl
  | glare => rfl
  | failed => rfl

/-- Takes a message in and does what is due then. -/
def take (message : Message) (side : Side) (signal : Signal) (ownsMedia : Bool) (x : Exchange) :
    Outcome Exchange Effect :=
  (x.advance message side signal).andThen settleGlare
    |>.andThen (perform message.seq ownsMedia)

end Exchange

namespace Dialog

/-! ### Outcomes that follow an exchange -/

theorem exchange?_new (meeting : String) (seq : UInt64) : exchange? { meeting } seq = none := rfl

theorem exchange?_modify (d : Dialog) (seq other : UInt64) (f : Exchange → Exchange) :
    (d.modify seq f).exchange? other =
      if other = seq then (d.exchange? seq).map f else d.exchange? other := by
  unfold exchange? modify
  simpa using d.table.exchange?_modify d.meeting d.meeting seq other f

theorem exchange?_openExchange (d : Dialog) (seq other : UInt64) :
    exchange? { d with table := d.table.openExchange d.meeting seq } other =
      if other = seq then some ((d.exchange? seq).getD {}) else d.exchange? other := by
  unfold exchange?
  simpa using d.table.exchange?_openExchange d.meeting d.meeting seq other

theorem exchange?_finish (d : Dialog) (seq other : UInt64) :
    exchange? { d with table := (d.table.finish d.meeting seq).1 } other =
      if other = seq then (d.exchange? seq).map fun x => { x with finished := true }
      else d.exchange? other := by
  unfold exchange?
  simpa using d.table.exchange?_finish d.meeting d.meeting seq other

theorem exchange?_dropExchange (d : Dialog) (seq other : UInt64) :
    exchange? { d with table := d.table.dropExchange d.meeting seq } other =
      if other = seq then none else d.exchange? other := by
  unfold exchange?
  simpa using d.table.exchange?_dropExchange d.meeting d.meeting seq other

/-- The outcome `o` of a dialog is the outcome `p` of its exchange `seq`, put in place. -/
structure Follows (d : Dialog) (seq : UInt64) (o : Outcome Dialog Effect)
    (p : Outcome Exchange Effect) : Prop where
  meeting : o.state.meeting = d.meeting
  lastReceived : o.state.lastReceived = d.lastReceived
  exchange : ∀ other, o.state.exchange? other =
    if other = seq then some p.state else d.exchange? other
  effects : o.effects = p.effects
  metrics : o.metrics = p.metrics

theorem Follows.exchange_self {d : Dialog} {seq : UInt64} {o : Outcome Dialog Effect}
    {p : Outcome Exchange Effect} (h : Follows d seq o p) : o.state.exchange? seq = some p.state := by
  rw [h.exchange, if_pos rfl]

theorem Follows.stay {d : Dialog} {seq : UInt64} {x : Exchange} (hx : d.exchange? seq = some x) :
    Follows d seq (.stay d) (.stay x) where
  meeting := rfl
  lastReceived := rfl
  exchange other := by
    split
    · rw [‹other = seq›]
      exact hx
    · rfl
  effects := rfl
  metrics := rfl

theorem Follows.andThen {d : Dialog} {seq : UInt64} {o : Outcome Dialog Effect}
    {p : Outcome Exchange Effect} {f : Dialog → Outcome Dialog Effect}
    {g : Exchange → Outcome Exchange Effect} (h : Follows d seq o p)
    (hf : Follows o.state seq (f o.state) (g p.state)) :
    Follows d seq (o.andThen f) (p.andThen g) where
  meeting := hf.meeting.trans h.meeting
  lastReceived := hf.lastReceived.trans h.lastReceived
  exchange other := by
    rw [Outcome.andThen_state, Outcome.andThen_state, hf.exchange, h.exchange]
    split <;> rfl
  effects := by rw [Outcome.andThen_effects, h.effects, hf.effects, Outcome.andThen_effects]
  metrics := by rw [Outcome.andThen_metrics, h.metrics, hf.metrics, Outcome.andThen_metrics]

theorem follows_advance (d : Dialog) (message : Message) (side : Side) (signal : Signal) :
    Follows d message.seq (d.advance message side signal)
      (((d.exchange? message.seq).getD {}).advance message side signal) where
  meeting := rfl
  lastReceived := rfl
  exchange other := by
    rw [advance, exchange?_modify, exchange?_openExchange, exchange?_openExchange, if_pos rfl,
      Option.map_some]
    split <;> rfl
  effects := rfl
  metrics := by
    rw [advance, Exchange.advance]
    simp only [exchange?_openExchange, if_pos, Option.getD_some]

theorem follows_settleGlare {d : Dialog} {seq : UInt64} {x : Exchange}
    (hx : d.exchange? seq = some x) : Follows d seq (d.settleGlare seq) x.settleGlare := by
  have hput : ∀ (f : Exchange → Exchange) (y : Exchange) (metrics : List Metric), f x = y →
      Follows d seq { state := d.modify seq f, metrics } { state := y, metrics } := by
    intro f y metrics hy
    refine ⟨rfl, rfl, fun other => ?_, rfl, rfl⟩
    rw [exchange?_modify, hx, Option.map_some, hy]
  unfold settleGlare Exchange.settleGlare
  simp only [hx, Option.getD_some]
  split
  · cases x.resolveGlare? with
    | none => exact hput _ _ _ rfl
    | some settled => exact hput _ _ _ rfl
  · exact .stay hx

theorem follows_perform {d : Dialog} {seq : UInt64} {x : Exchange}
    (hx : d.exchange? seq = some x) (ownsMedia : Bool) :
    Follows d seq (d.perform seq ownsMedia) (x.perform seq ownsMedia) := by
  have hask : ∀ effects, Follows d seq { state := d, effects } { state := x, effects } := by
    intro effects
    exact ⟨rfl, rfl, (Follows.stay hx).exchange, rfl, rfl⟩
  have hfirst : (d.table.finish d.meeting seq).2 = !x.finished := by
    have h := d.table.finish_snd d.meeting seq
    rwa [show d.table.exchange? d.meeting seq = some x from hx] at h
  unfold perform Exchange.perform
  simp only [hx, Option.getD_some]
  cases hp : x.phase with
  | idle =>
    rw [hfirst]
    cases hf : x.finished with
    | true => exact .stay hx
    | false =>
      refine ⟨rfl, rfl, fun other => ?_, rfl, rfl⟩
      show exchange? { d with table := (d.table.finish d.meeting seq).1 } other = _
      rw [exchange?_finish, hx, Option.map_some, hp]
      rfl
  | owesAnswer =>
    cases ownsMedia <;> cases x.offer <;> first | exact .stay hx | exact hask _
  | owesOk =>
    cases ownsMedia <;> cases x.answer <;> first | exact .stay hx | exact hask _
  | awaitsOk => exact .stay hx
  | awaitsAnswer => exact .stay hx
  | glare => exact .stay hx
  | failed => exact .stay hx

/-- What an exchange makes of a message, its dialog makes of it. -/
theorem follows_execute (d : Dialog) {message : Message} {side : Side} {signal : Signal}
    (h : Signal.ofMessage? message.kind side = some signal) (ownsMedia : Bool) :
    Follows d message.seq (d.execute message side ownsMedia)
      (((d.exchange? message.seq).getD {}).take message side signal ownsMedia) := by
  have hadvance := follows_advance d message side signal
  have hsettle := hadvance.andThen (follows_settleGlare hadvance.exchange_self)
  have hperform := hsettle.andThen (follows_perform hsettle.exchange_self ownsMedia)
  rwa [execute, h]

end Dialog

/-! ### Actions -/

/-- Whether an action removes an exchange. -/
def Action.Drops (seq : UInt64) : Action → Prop
  | .callLeave => True
  | .reset dropped => seq = dropped
  | .receive _ | .send _ | .sendSuccess _ => False

instance Action.decidableDrops (seq : UInt64) : (action : Action) → Decidable (action.Drops seq)
  | .callLeave => inferInstanceAs (Decidable True)
  | .reset dropped => inferInstanceAs (Decidable (seq = dropped))
  | .receive _ | .send _ | .sendSuccess _ => inferInstanceAs (Decidable False)

/-- Whether an action is about an exchange, or about all of them. -/
def Action.Concerns (seq : UInt64) : Action → Prop
  | .receive message | .send message | .sendSuccess message => message.seq = seq
  | .callLeave => True
  | .reset dropped => seq = dropped

instance Action.decidableConcerns (seq : UInt64) :
    (action : Action) → Decidable (action.Concerns seq)
  | .receive message | .send message | .sendSuccess message =>
    inferInstanceAs (Decidable (message.seq = seq))
  | .callLeave => inferInstanceAs (Decidable True)
  | .reset dropped => inferInstanceAs (Decidable (seq = dropped))

theorem Action.Drops.concerns {seq : UInt64} {action : Action} (h : action.Drops seq) :
    action.Concerns seq := by
  cases action with
  | receive message => cases h
  | send message => cases h
  | sendSuccess message => cases h
  | callLeave => trivial
  | reset dropped => exact h

/-- The action that brings a message from a side. -/
def Action.bring (message : Message) : Side → Action
  | .own => .send message
  | .peer => .receive message

@[simp] theorem Action.concerns_bring_iff {seq : UInt64} {message : Message} {side : Side} :
    (bring message side).Concerns seq ↔ message.seq = seq := by
  cases side <;> rfl

namespace Dialog

/-- The dialog that knows the message of an action as the last one received. -/
def noted (d : Dialog) : Action → Dialog
  | .receive message => { d with lastReceived := some (message.seq, message.kind) }
  | .send _ | .sendSuccess _ | .callLeave | .reset _ => d

/-- The message that an action brings into its exchange, with its side and its signal.  A message
that repeats the one before is not taken, and neither is one of relay discovery. -/
def taken? (d : Dialog) : Action → Option (Message × Side × Signal)
  | .receive message =>
    if d.lastReceived = some (message.seq, message.kind) then none
    else (Signal.ofMessage? message.kind .peer).map (message, .peer, ·)
  | .send message => (Signal.ofMessage? message.kind .own).map (message, .own, ·)
  | .sendSuccess _ | .callLeave | .reset _ => none

@[simp] theorem exchange?_noted (d : Dialog) (action : Action) (seq : UInt64) :
    (d.noted action).exchange? seq = d.exchange? seq := by
  cases action <;> rfl

theorem execute_of_none (d : Dialog) {message : Message} {side : Side}
    (h : Signal.ofMessage? message.kind side = none) (ownsMedia : Bool) :
    d.execute message side ownsMedia = .stay d := by
  rw [execute, h]

/-- A message that is taken is the one that the action brings, with the signal of its kind and
side. -/
theorem of_taken {d : Dialog} {action : Action} {message : Message} {side : Side}
    {signal : Signal} (h : d.taken? action = some (message, side, signal)) :
    action = .bring message side ∧ Signal.ofMessage? message.kind side = some signal := by
  cases action with
  | receive m =>
    rw [taken?] at h
    split at h
    · cases h
    · obtain ⟨signal, hsignal, heq⟩ := Option.map_eq_some_iff.1 h
      cases heq
      exact ⟨rfl, hsignal⟩
  | send m =>
    obtain ⟨signal, hsignal, heq⟩ := Option.map_eq_some_iff.1 h
    cases heq
    exact ⟨rfl, hsignal⟩
  | sendSuccess m => cases h
  | callLeave => cases h
  | reset seq => cases h

theorem ofMessage?_of_taken {d : Dialog} {action : Action} {message : Message} {side : Side}
    {signal : Signal} (h : d.taken? action = some (message, side, signal)) :
    Signal.ofMessage? message.kind side = some signal :=
  (of_taken h).2

theorem of_taken_receive {d : Dialog} {m message : Message} {side : Side} {signal : Signal}
    (h : d.taken? (.receive m) = some (message, side, signal)) :
    message = m ∧ side = .peer ∧ (m.kind = .offer → signal = .received .offer) := by
  obtain ⟨haction, hsignal⟩ := of_taken h
  cases side with
  | own => cases haction
  | peer =>
    cases haction
    refine ⟨rfl, rfl, fun hkind => ?_⟩
    rw [hkind] at hsignal
    cases hsignal
    rfl

/-- No exchange is removed by a message that is taken. -/
theorem not_drops_of_taken {d : Dialog} {action : Action} {taken : Message × Side × Signal}
    (h : d.taken? action = some taken) (seq : UInt64) : ¬ action.Drops seq := by
  obtain ⟨message, side, signal⟩ := taken
  rw [(of_taken h).1]
  cases side with
  | own => exact id
  | peer => exact id

/-- An action with a message to take does what the exchange of the message does. -/
theorem follows_submit {d : Dialog} {action : Action} {message : Message} {side : Side}
    {signal : Signal} (h : d.taken? action = some (message, side, signal)) (ownsMedia : Bool) :
    Follows (d.noted action) message.seq (d.submit action ownsMedia)
      (((d.exchange? message.seq).getD {}).take message side signal ownsMedia) := by
  have hsignal := ofMessage?_of_taken h
  cases action with
  | receive m =>
    rw [taken?] at h
    split at h
    · cases h
    · rename_i hnew
      obtain ⟨signal, -, heq⟩ := Option.map_eq_some_iff.1 h
      cases heq
      rw [submit, if_neg hnew]
      exact follows_execute _ hsignal ownsMedia
  | send m =>
    obtain ⟨signal, -, heq⟩ := Option.map_eq_some_iff.1 h
    cases heq
    exact follows_execute d hsignal ownsMedia
  | sendSuccess m => cases h
  | callLeave => cases h
  | reset seq => cases h

/-- An action without a message to take asks for nothing and at most removes exchanges. -/
theorem submit_of_none {d : Dialog} {action : Action} (h : d.taken? action = none)
    (ownsMedia : Bool) :
    (d.submit action ownsMedia).effects = [] ∧
      ∀ seq, (d.submit action ownsMedia).state.exchange? seq =
        if action.Drops seq then none else d.exchange? seq := by
  cases action with
  | receive m =>
    rw [taken?] at h
    rw [submit]
    split
    · exact ⟨rfl, fun seq => rfl⟩
    · rename_i hnew
      rw [if_neg hnew, Option.map_eq_none_iff] at h
      rw [execute_of_none _ h]
      exact ⟨rfl, fun seq => rfl⟩
  | send m =>
    rw [submit, execute_of_none d (Option.map_eq_none_iff.1 h)]
    exact ⟨rfl, fun seq => rfl⟩
  | sendSuccess m => exact ⟨rfl, fun seq => rfl⟩
  | callLeave =>
    refine ⟨rfl, fun seq => ?_⟩
    show (d.table.dropSession d.meeting).exchange? d.meeting seq = _
    rw [SessionTable.exchange?_dropSession, if_pos rfl]
    exact (if_pos trivial).symm
  | reset dropped =>
    refine ⟨rfl, fun seq => ?_⟩
    show exchange? { d with table := d.table.dropExchange d.meeting dropped } seq = _
    rw [exchange?_dropExchange]
    rfl

theorem exchange?_of_drops {d : Dialog} {action : Action} {seq : UInt64} (h : action.Drops seq)
    (ownsMedia : Bool) : (d.submit action ownsMedia).state.exchange? seq = none := by
  cases htaken : d.taken? action with
  | none => rw [(submit_of_none htaken ownsMedia).2, if_pos h]
  | some taken => exact absurd h (not_drops_of_taken htaken seq)

/-- An exchange that is there after an action was there before or has taken the message of the
action. -/
theorem of_exchange?_submit {d : Dialog} {action : Action} {ownsMedia : Bool} {seq : UInt64}
    {x : Exchange} (hx : (d.submit action ownsMedia).state.exchange? seq = some x) :
    d.exchange? seq = some x ∨
      ∃ message side signal, d.taken? action = some (message, side, signal) ∧ message.seq = seq ∧
        x = (((d.exchange? seq).getD {}).take message side signal ownsMedia).state := by
  cases htaken : d.taken? action with
  | none =>
    rw [(submit_of_none htaken ownsMedia).2] at hx
    split at hx
    · cases hx
    · exact .inl hx
  | some taken =>
    obtain ⟨message, side, signal⟩ := taken
    rw [(follows_submit htaken ownsMedia).exchange] at hx
    split at hx
    · rename_i hseq
      cases hx
      exact .inr ⟨message, side, signal, rfl, hseq.symm, by rw [hseq]⟩
    · rw [exchange?_noted] at hx
      exact .inl hx

/-- An action that does not concern an exchange leaves it alone. -/
theorem exchange?_of_not_concerns {d : Dialog} {action : Action} {seq : UInt64}
    (h : ¬ action.Concerns seq) (ownsMedia : Bool) :
    (d.submit action ownsMedia).state.exchange? seq = d.exchange? seq := by
  cases htaken : d.taken? action with
  | none => rw [(submit_of_none htaken ownsMedia).2, if_neg fun hdrops => h hdrops.concerns]
  | some taken =>
    obtain ⟨message, side, signal⟩ := taken
    have hseq : message.seq ≠ seq := by
      rwa [(of_taken htaken).1, Action.concerns_bring_iff] at h
    rw [(follows_submit htaken ownsMedia).exchange, if_neg hseq.symm, exchange?_noted]

/-- Only leaving the call has a message forgotten that was received. -/
theorem lastReceived_submit {d : Dialog} {action : Action} (h : action ≠ .callLeave)
    (ownsMedia : Bool) :
    (d.submit action ownsMedia).state.lastReceived = (d.noted action).lastReceived := by
  cases htaken : d.taken? action with
  | some taken => exact (follows_submit htaken ownsMedia).lastReceived
  | none =>
    cases action with
    | receive m =>
      rw [taken?] at htaken
      rw [submit]
      split
      · assumption
      · rename_i hnew
        rw [if_neg hnew, Option.map_eq_none_iff] at htaken
        rw [execute_of_none _ htaken]
        rfl
    | send m =>
      rw [submit, execute_of_none d (Option.map_eq_none_iff.1 htaken)]
      rfl
    | sendSuccess m => rfl
    | callLeave => exact absurd rfl h
    | reset seq => rfl

/-! ### Runs -/

/-- The dialog after actions in turn, each with whether the media is owned. -/
def run (steps : List (Action × Bool)) (d : Dialog) : Outcome Dialog Effect :=
  Outcome.runAll (fun step d => d.submit step.1 step.2) steps d

theorem run_cons (step : Action × Bool) (steps : List (Action × Bool)) (d : Dialog) :
    run (step :: steps) d = (d.submit step.1 step.2).andThen (run steps) := rfl

theorem run_append (xs ys : List (Action × Bool)) (d : Dialog) :
    run (xs ++ ys) d = (run xs d).andThen (run ys) :=
  Outcome.runAll_append _ xs ys d

theorem run_concat_state (steps : List (Action × Bool)) (step : Action × Bool) (d : Dialog) :
    (run (steps ++ [step]) d).state = ((run steps d).state.submit step.1 step.2).state := by
  rw [run_append, Outcome.andThen_state]
  rfl

/-- The actions of a run that concern an exchange, in turn. -/
def concerning (seq : UInt64) (steps : List (Action × Bool)) : List Action :=
  (steps.filter fun step => step.1.Concerns seq).map (·.1)

theorem concerning_eq_nil_iff {seq : UInt64} {steps : List (Action × Bool)} :
    concerning seq steps = [] ↔ ∀ step ∈ steps, ¬ step.1.Concerns seq := by
  simp [concerning, List.filter_eq_nil_iff]

/-- The first action of a run that concerns an exchange has only others before it. -/
theorem of_concerning_eq_cons {seq : UInt64} {steps : List (Action × Bool)} {action : Action}
    {rest : List Action} (h : concerning seq steps = action :: rest) :
    ∃ before ownsMedia after, steps = before ++ (action, ownsMedia) :: after ∧
      action.Concerns seq ∧ concerning seq before = [] ∧ concerning seq after = rest := by
  obtain ⟨⟨first, ownsMedia⟩, tail, hfilter, rfl, hrest⟩ := List.map_eq_cons_iff.1 h
  obtain ⟨before, after, rfl, hbefore, hfirst, rfl⟩ := List.filter_eq_cons_iff.1 hfilter
  refine ⟨before, ownsMedia, after, rfl, by simpa using hfirst, ?_, hrest⟩
  rw [concerning_eq_nil_iff]
  simpa using hbefore

/-- Actions that do not concern an exchange leave it alone. -/
theorem exchange?_run_of_concerning_nil {seq : UInt64} {steps : List (Action × Bool)}
    (h : concerning seq steps = []) (d : Dialog) :
    (run steps d).state.exchange? seq = d.exchange? seq := by
  rw [concerning_eq_nil_iff] at h
  induction steps generalizing d with
  | nil => rfl
  | cons step steps ih =>
    obtain ⟨hstep, hsteps⟩ := List.forall_mem_cons.1 h
    rw [run_cons, Outcome.andThen_state, ih hsteps, exchange?_of_not_concerns hstep]

/-- Actions that do not concern an exchange bring no message of it. -/
theorem lastReceived_run_of_concerning_nil {seq : UInt64} {steps : List (Action × Bool)}
    (h : concerning seq steps = []) {d : Dialog} {kind : MessageKind}
    (hd : d.lastReceived ≠ some (seq, kind)) :
    (run steps d).state.lastReceived ≠ some (seq, kind) := by
  rw [concerning_eq_nil_iff] at h
  induction steps generalizing d with
  | nil => exact hd
  | cons step steps ih =>
    obtain ⟨hstep, hsteps⟩ := List.forall_mem_cons.1 h
    refine ih hsteps ?_
    have hstays : step.1 ≠ .callLeave := by
      intro heq
      rw [heq] at hstep
      exact hstep trivial
    rw [lastReceived_submit hstays]
    generalize step.1 = action at hstep
    cases action with
    | receive m =>
      intro heq
      cases heq
      exact hstep rfl
    | send m => exact hd
    | sendSuccess m => exact hd
    | callLeave => exact hd
    | reset dropped => exact hd

end Dialog

end CallSignaling.Roap
