import CallSignaling.Meeting.Basic
import CallSignaling.Proofs.Roap.Course

/-!
# What an input does to a meeting

A meeting talks with its peer and keeps a replica, and an input is for one of the two.  Of the talk
there are the dialog, which takes an input as at most one action, and the numbers of the messages
sent.

* `Meeting.action?`: the action that an input is to the dialog.
* `Meeting.sends?`: the message that an input makes the meeting send, with who waits for that.
* `Meeting.Counter`: the last number acknowledged and the number of the offer under way.
* `Meeting.Effect.isSync`, `Meeting.Effect.isSend`: the effects that the replica gives rise to, and
  those that send a message.
* `Meeting.Aside`, `Meeting.Spec`: what an input comes to.

Main statements: what every input comes to (`spec_step`), and from it which answers are to be built
(`buildAnswer_mem_step_iff`), which message is to be sent (`filter_isSend_step`), which caller is
told of a message that was sent (`of_reply_sent_mem_step`) and what makes a meeting crash
(`any_isCrash_step_iff`).
-/

namespace CallSignaling.Meeting

open Roap (Message)

variable {κ : Type}

/-! ### The replica -/

/-- Whether an effect is one that the replica gives rise to. -/
def Effect.isSync : Effect κ → Bool
  | fetch _ _ | destroy _ | publish _ => true
  | _ => false

/-- Of the meeting an effect of the replica changes the deadline only. -/
theorem onSyncEffect_state (now : Nat) (effect : Locus.SyncEffect) (m : Meeting) :
    ∃ deadline, (m.onSyncEffect now effect : Outcome Meeting (Effect κ)).state =
      { m with stallDeadline := deadline } := by
  cases effect with
  | applied copy => exact ⟨m.stallDeadline, rfl⟩
  | armStallTimer delay => exact ⟨some (now + delay), rfl⟩
  | cancelStallTimer => exact ⟨none, rfl⟩
  | fetch url kind => exact ⟨m.stallDeadline, rfl⟩
  | destroy reason => exact ⟨none, rfl⟩

theorem isSync_of_mem_onSyncEffect {now : Nat} {effect : Locus.SyncEffect} {m : Meeting}
    {e : Effect κ} (h : e ∈ (m.onSyncEffect now effect).effects) : e.isSync = true := by
  cases effect with
  | applied copy => rw [List.mem_singleton.1 h]; rfl
  | armStallTimer delay => cases h
  | cancelStallTimer => cases h
  | fetch url kind => rw [List.mem_singleton.1 h]; rfl
  | destroy reason => rw [List.mem_singleton.1 h]; rfl

theorem synchronize_eq (now draw : Nat) (input : Locus.SyncInput) (m : Meeting) :
    (m.synchronize now draw input : Outcome Meeting (Effect κ)) =
      Outcome.andThen
        { state := { m with replica := (m.replica.step draw input).state }
          metrics := (m.replica.step draw input).metrics }
        (Outcome.runAll (onSyncEffect now) (m.replica.step draw input).effects) :=
  Outcome.foldl_andThen _ _ _

/-- What is for the replica leaves the talk with the peer alone. -/
theorem synchronize_state (now draw : Nat) (input : Locus.SyncInput) (m : Meeting) :
    ∃ replica deadline, (m.synchronize now draw input : Outcome Meeting (Effect κ)).state =
      { m with replica := replica, stallDeadline := deadline } := by
  let Talks := fun s : Meeting =>
    ∃ replica deadline, s = { m with replica := replica, stallDeadline := deadline }
  have hstep : ∀ effect s, Talks s →
      Talks (s.onSyncEffect now effect : Outcome Meeting (Effect κ)).state := by
    rintro effect _ ⟨replica, deadline, rfl⟩
    obtain ⟨deadline, heq⟩ := onSyncEffect_state (κ := κ) now effect
      { m with replica := replica, stallDeadline := deadline }
    exact ⟨replica, deadline, heq⟩
  rw [synchronize_eq]
  exact Outcome.runAll_induction (P := Talks) hstep _ ⟨_, m.stallDeadline, rfl⟩

theorem isSync_of_mem_synchronize {now draw : Nat} {input : Locus.SyncInput} {m : Meeting}
    {e : Effect κ} (h : e ∈ (m.synchronize now draw input).effects) : e.isSync = true := by
  rw [synchronize_eq] at h
  exact Outcome.of_mem_runAll_effects (fun _ _ _ => isSync_of_mem_onSyncEffect) h

/-- Whether an effect is a message to send. -/
def Effect.isSend : Effect κ → Bool
  | send _ _ => true
  | _ => false

/-! ### The numbers -/

theorem nextNumber?_eq_some_iff {n k : UInt64} :
    nextNumber? n = some k ↔ n.toNat + 1 < UInt64.size ∧ k = n + 1 := by
  rw [nextNumber?, Option.ite_none_right_eq_some, Option.some.injEq, eq_comm (a := k)]

theorem nextNumber?_eq_none_iff {n : UInt64} :
    nextNumber? n = none ↔ ¬ n.toNat + 1 < UInt64.size := by
  simp [nextNumber?]

/-- The numbers that a meeting keeps of the messages it sends. -/
structure Counter where
  /-- The highest number of a message that was acknowledged. -/
  lastSeq : UInt64 := 0
  /-- The number of an offer under way. -/
  offerInFlight : Option UInt64 := none
  deriving DecidableEq

/-- The numbers that a meeting keeps. -/
def counter (m : Meeting) : Counter := { lastSeq := m.lastSeq, offerInFlight := m.offerInFlight }

/-- The number of an offer that is asked for now, if one is sent. -/
def Counter.offerNumber? (c : Counter) : Option UInt64 :=
  match c.offerInFlight with
  | some _ => none
  | none => nextNumber? c.lastSeq

theorem Counter.offerNumber?_eq_some_iff {c : Counter} {seq : UInt64} :
    c.offerNumber? = some seq ↔
      c.offerInFlight = none ∧ c.lastSeq.toNat + 1 < UInt64.size ∧ seq = c.lastSeq + 1 := by
  cases hguard : c.offerInFlight <;> simp [offerNumber?, hguard, nextNumber?_eq_some_iff]

/-! ### The dialog -/

/-- The action that an input is to the dialog, if it is one. -/
def action? (m : Meeting) : Input κ → Option Roap.Action
  | .submit action _ =>
    match action with
    | .receive message => if message.kind.isTurn then none else some action
    | _ => some action
  | .sendOffer sdps tieBreaker _ =>
    m.counter.offerNumber?.map fun seq => .send (.offer seq sdps tieBreaker)
  | .sendRoap message _ => some (.send message)
  | .answerBuilt seq (.ok sdps) =>
    if m.dialog.phase? seq = some .owesAnswer then some (.send (.answer seq sdps)) else none
  | .answerApplied seq (.ok ()) =>
    if m.dialog.phase? seq = some .owesOk then some (.send (.ok seq)) else none
  | .sent message (.ok _) _ => some (.sendSuccess message)
  | .sent message (.error _) _ =>
    if message.kind = .offer ∧ m.dialog.phase? message.seq = some .awaitsAnswer then
      some (.reset message.seq)
    else none
  | _ => none

theorem action?_sendOffer {m : Meeting} {seq : UInt64} (h : m.counter.offerNumber? = some seq)
    {sdps : List String} {tieBreaker : UInt32} {caller : κ} :
    m.action? (.sendOffer sdps tieBreaker caller) =
      some (.send (.offer seq sdps tieBreaker)) := by
  rw [action?, h, Option.map_some]

/-- The message that an input makes the meeting send, with who waits for that. -/
def sends? (m : Meeting) : Input κ → Option (Message × Option κ)
  | .sendOffer sdps tieBreaker caller =>
    m.counter.offerNumber?.map fun seq => (.offer seq sdps tieBreaker, some caller)
  | .sendRoap message caller => some (message, some caller)
  | .answerBuilt seq (.ok sdps) =>
    if m.dialog.phase? seq = some .owesAnswer then some (.answer seq sdps, none) else none
  | .answerApplied seq (.ok ()) =>
    if m.dialog.phase? seq = some .owesOk then some (.ok seq, none) else none
  | _ => none

/-- What the dialog makes of an input. -/
def converses (m : Meeting) (input : Input κ) : Outcome Roap.Dialog Roap.Effect :=
  match m.action? input with
  | some action => m.dialog.submit action m.ownsMedia
  | none => .stay m.dialog

theorem converses_of_some {m : Meeting} {input : Input κ} {action : Roap.Action}
    (h : m.action? input = some action) :
    m.converses input = m.dialog.submit action m.ownsMedia := by
  rw [converses, h]

theorem converses_of_none {m : Meeting} {input : Input κ} (h : m.action? input = none) :
    m.converses input = .stay m.dialog := by
  rw [converses, h]

/-- The numbers after an input. -/
def Counter.after (input : Input κ) (c : Counter) : Counter :=
  match input with
  | .submit .callLeave _ => { c with offerInFlight := none }
  | .sendOffer _ _ _ => { c with offerInFlight := c.offerInFlight.or (nextNumber? c.lastSeq) }
  | .sent message result _ =>
    { lastSeq := match result with
        | .ok _ => max c.lastSeq message.seq
        | .error _ => c.lastSeq
      offerInFlight :=
        if message.kind = .offer && c.offerInFlight = some message.seq then none
        else c.offerInFlight }
  | _ => c

theorem Counter.after_sendOffer {c : Counter} {seq : UInt64} (h : c.offerNumber? = some seq)
    {sdps : List String} {tieBreaker : UInt32} {caller : κ} :
    c.after (.sendOffer sdps tieBreaker caller) = { c with offerInFlight := some seq } := by
  obtain ⟨hfree, hfits, rfl⟩ := offerNumber?_eq_some_iff.1 h
  rw [after, hfree, nextNumber?_eq_some_iff.2 ⟨hfits, rfl⟩, Option.none_or]

/-- The numbers after inputs in turn. -/
def Counter.afterAll (inputs : List (Input κ)) (c : Counter) : Counter :=
  inputs.foldl (fun c input => c.after input) c

/-- The numbers of a new meeting after inputs in turn. -/
def Counter.ofInputs (inputs : List (Input κ)) : Counter := afterAll inputs {}

theorem Counter.ofInputs_append (xs ys : List (Input κ)) :
    ofInputs (xs ++ ys) = (ofInputs xs).afterAll ys :=
  List.foldl_append

/-! ### What an input comes to -/

/-- What an input can lead to beside what the dialog asks for and the message that is sent. -/
inductive Aside (input : Input κ) : Effect κ → Prop
  | sync {e : Effect κ} (h : e.isSync = true) : Aside input e
  | turnResponse (message : Message) : Aside input (.turnResponse message)
  /-- A caller is told that its message was sent. -/
  | told {message : Message} {response : Media.Response} {caller : κ}
      (h : input = .sent message (.ok response) (some caller)) :
      Aside input (.reply caller (.sent message.seq))
  /-- A caller is told something else. -/
  | replied {caller : κ} {reply : Reply} (hcaller : input.caller? = some caller)
      (h : ∀ seq, reply ≠ .sent seq) : Aside input (.reply caller reply)
  | stopped {e : Effect κ} (h : e = .abortTurn ∨ e = .dropTasks) : Aside input e
  /-- There is no number for a local offer. -/
  | crashed {sdps : List String} {tieBreaker : UInt32} {caller : κ}
      (h : input = .sendOffer sdps tieBreaker caller) : Aside input (.crash caller)

/-- What an input comes to: an action on the dialog, a change of the numbers, perhaps a message to
send, and asides. -/
structure Spec (m : Meeting) (input : Input κ) (o : Outcome Meeting (Effect κ)) : Prop where
  dialog : o.state.dialog = (m.converses input).state
  ownsMedia : o.state.ownsMedia = m.ownsMedia
  counter : o.state.counter = m.counter.after input
  effects : ∃ asides, o.effects =
    (m.converses input).effects.map ofRoapEffect ++
      ((m.sends? input).map fun s => Effect.send s.1 s.2).toList ++ asides ∧
    ∀ e ∈ asides, Aside input e

section Spec

variable {m m' : Meeting} {input : Input κ}

/-- Asides may follow. -/
theorem Spec.andThen_ask {o : Outcome Meeting (Effect κ)} (h : Spec m input o)
    {asides : List (Effect κ)} (hasides : ∀ e ∈ asides, Aside input e) :
    Spec m input (o.andThen (ask asides)) := by
  obtain ⟨before, heffects, hbefore⟩ := h.effects
  refine ⟨h.dialog, h.ownsMedia, h.counter, before ++ asides, ?_, ?_⟩
  · rw [Outcome.andThen_effects, heffects, List.append_assoc]
    rfl
  · exact fun e he => (List.mem_append.1 he).elim (hbefore e) (hasides e)

/-- An input that leaves the talk alone. -/
theorem spec_stay (haction : m.action? input = none) (hsends : m.sends? input = none)
    (hdialog : m'.dialog = m.dialog) (howns : m'.ownsMedia = m.ownsMedia)
    (hcounter : m'.counter = m.counter.after input) (metrics : List Metric) :
    Spec m input { state := m', metrics } := by
  refine ⟨?_, howns, hcounter, [], ?_, by simp⟩
  · rw [converses_of_none haction]
    exact hdialog
  · rw [converses_of_none haction, hsends]
    rfl

/-- An input that leads to an aside only. -/
theorem spec_ask (haction : m.action? input = none) (hsends : m.sends? input = none)
    (hdialog : m'.dialog = m.dialog) (howns : m'.ownsMedia = m.ownsMedia)
    (hcounter : m'.counter = m.counter.after input) {asides : List (Effect κ)}
    (hasides : ∀ e ∈ asides, Aside input e) : Spec m input (m'.ask asides) :=
  (spec_stay haction hsends hdialog howns hcounter []).andThen_ask hasides

/-- An input that is an action on the dialog. -/
theorem spec_converse {action : Roap.Action} (haction : m.action? input = some action)
    (hsends : m.sends? input = none) (hdialog : m'.dialog = m.dialog)
    (howns : m'.ownsMedia = m.ownsMedia) (hcounter : m'.counter = m.counter.after input) :
    Spec m input (m'.converse action) := by
  refine ⟨?_, howns, hcounter, [], ?_, by simp⟩
  · rw [converses_of_some haction, converse, hdialog, howns]
  · rw [converses_of_some haction, converse, hdialog, howns, hsends, Option.map_none,
      Option.toList_none, List.append_nil, List.append_nil]

/-- An input that makes the meeting send a message. -/
theorem spec_transmit {message : Message} {caller : Option κ}
    (haction : m.action? input = some (.send message))
    (hsends : m.sends? input = some (message, caller)) (hdialog : m'.dialog = m.dialog)
    (howns : m'.ownsMedia = m.ownsMedia) (hcounter : m'.counter = m.counter.after input) :
    Spec m input (m'.transmit message caller) := by
  refine ⟨?_, howns, hcounter, [], ?_, by simp⟩
  · rw [converses_of_some haction, transmit, Outcome.andThen_state, converse, hdialog, howns]
  · rw [converses_of_some haction, transmit, Outcome.andThen_effects, converse, hdialog, howns,
      hsends, List.append_nil]
    rfl

/-- An input for the replica is none of the talk with the peer. -/
theorem spec_synchronize (now draw : Nat) (syncInput : Locus.SyncInput)
    (haction : m.action? input = none) (hsends : m.sends? input = none)
    (hdialog : m'.dialog = m.dialog) (howns : m'.ownsMedia = m.ownsMedia)
    (hcounter : m'.counter = m.counter.after input) :
    Spec m input (m'.synchronize now draw syncInput) := by
  obtain ⟨replica, deadline, hstate⟩ := synchronize_state (κ := κ) now draw syncInput m'
  refine ⟨?_, ?_, ?_, ?_⟩
  · rw [hstate, converses_of_none haction]
    exact hdialog
  · rw [hstate]
    exact howns
  · rw [hstate]
    exact hcounter
  · rw [converses_of_none haction, hsends]
    exact ⟨_, rfl, fun e he => .sync (isSync_of_mem_synchronize he)⟩

end Spec

theorem spec_onSubmit (m : Meeting) (action : Roap.Action) (caller : κ) :
    Spec m (.submit action caller) (m.onSubmit action) := by
  cases action with
  | receive message =>
    have haction : m.action? (.submit (.receive message) caller) =
        if message.kind.isTurn then none else some (.receive message) := rfl
    rw [onSubmit]
    cases hkind : message.kind with
    | turnResponse =>
      rw [hkind] at haction
      exact spec_ask haction rfl rfl rfl rfl (List.forall_mem_singleton.2 (.turnResponse message))
    | turnRequest =>
      rw [hkind] at haction
      exact spec_stay haction rfl rfl rfl rfl []
    | offer => rw [hkind] at haction; exact spec_converse haction rfl rfl rfl rfl
    | answer => rw [hkind] at haction; exact spec_converse haction rfl rfl rfl rfl
    | ok => rw [hkind] at haction; exact spec_converse haction rfl rfl rfl rfl
    | error => rw [hkind] at haction; exact spec_converse haction rfl rfl rfl rfl
  | send message => exact spec_converse rfl rfl rfl rfl rfl
  | sendSuccess message => exact spec_converse rfl rfl rfl rfl rfl
  | callLeave => exact spec_converse rfl rfl rfl rfl rfl
  | reset seq => exact spec_converse rfl rfl rfl rfl rfl

theorem spec_onSendOffer (m : Meeting) (sdps : List String) (tieBreaker : UInt32) (caller : κ) :
    Spec m (.sendOffer sdps tieBreaker caller) (m.onSendOffer sdps tieBreaker caller) := by
  have hcounter : m.counter.after (.sendOffer sdps tieBreaker caller) =
      { m.counter with offerInFlight := m.offerInFlight.or (nextNumber? m.lastSeq) } := rfl
  rw [onSendOffer]
  cases hguard : m.offerInFlight with
  | some seq =>
    have hnone : m.counter.offerNumber? = none := by simp [Counter.offerNumber?, counter, hguard]
    refine spec_ask (by rw [action?, hnone]; rfl) (by rw [sends?, hnone]; rfl) rfl rfl ?_
      (List.forall_mem_singleton.2 (.replied rfl fun seq => nofun))
    rw [hcounter, hguard]
    simp [counter, hguard]
  | none =>
    have hnumber : m.counter.offerNumber? = nextNumber? m.lastSeq := by
      simp [Counter.offerNumber?, counter, hguard]
    cases hnext : nextNumber? m.lastSeq with
    | some seq =>
      rw [hnext] at hnumber
      refine spec_transmit (action?_sendOffer hnumber) (by rw [sends?, hnumber]; rfl) rfl rfl ?_
      rw [hcounter, hguard, hnext]
      rfl
    | none =>
      rw [hnext] at hnumber
      refine spec_ask (by rw [action?, hnumber]; rfl) (by rw [sends?, hnumber]; rfl) rfl rfl ?_
        (List.forall_mem_singleton.2 (.crashed rfl))
      rw [hcounter, hguard, hnext]
      simp [counter, hguard]

theorem spec_onAnswerBuilt (m : Meeting) (seq : UInt64)
    (result : Except NegotiationError (List String)) :
    Spec m (.answerBuilt seq result : Input κ) (m.onAnswerBuilt seq result) := by
  cases result with
  | error e => exact spec_stay rfl rfl rfl rfl rfl _
  | ok sdps =>
    simp only [onAnswerBuilt]
    split
    · rename_i howed
      exact spec_transmit (if_pos howed) (if_pos howed) rfl rfl rfl
    · rename_i howed
      exact spec_stay (by exact if_neg howed) (by exact if_neg howed) rfl rfl rfl []

theorem spec_onAnswerApplied (m : Meeting) (seq : UInt64)
    (result : Except NegotiationError Unit) :
    Spec m (.answerApplied seq result : Input κ) (m.onAnswerApplied seq result) := by
  cases result with
  | error e => exact spec_stay rfl rfl rfl rfl rfl _
  | ok done =>
    simp only [onAnswerApplied]
    split
    · rename_i howed
      exact spec_transmit (if_pos howed) (if_pos howed) rfl rfl rfl
    · rename_i howed
      exact spec_stay (by exact if_neg howed) (by exact if_neg howed) rfl rfl rfl []

theorem spec_onSendFailure {m m' : Meeting} {message : Message} {e : TransportError}
    {caller : Option κ} (hdialog : m'.dialog = m.dialog) (howns : m'.ownsMedia = m.ownsMedia)
    (hcounter : m'.counter = m.counter.after (.sent message (.error e) caller)) :
    Spec m (.sent message (.error e) caller) (m'.onSendFailure message) := by
  have hstay : (¬ (message.kind = .offer ∧ m.dialog.phase? message.seq = some .awaitsAnswer)) →
      ∀ metrics, Spec m (.sent message (.error e) caller) { state := m', metrics } := fun h =>
    spec_stay (if_neg h) rfl hdialog howns hcounter
  rw [onSendFailure, hdialog]
  cases hkind : message.kind with
  | answer => exact hstay (by simp [hkind]) _
  | ok => exact hstay (by simp [hkind]) _
  | error => exact hstay (by simp [hkind]) []
  | turnRequest => exact hstay (by simp [hkind]) []
  | turnResponse => exact hstay (by simp [hkind]) []
  | offer =>
    dsimp only
    split
    · rename_i hawaits
      exact spec_converse (if_pos ⟨hkind, hawaits⟩) rfl hdialog howns hcounter
    · rename_i hawaits
      exact hstay (by simp [hawaits]) []

theorem spec_onSent (m : Meeting) (message : Message)
    (result : Except TransportError Media.Response) (caller : Option κ) :
    Spec m (.sent message result caller) (m.onSent message result caller) := by
  -- the guard is taken away first, whatever the result
  obtain ⟨guard, hguard, hfreed⟩ : ∃ guard,
      guard = (if message.kind = .offer && m.offerInFlight = some message.seq then none
        else m.offerInFlight) ∧
      (if message.kind = .offer && m.offerInFlight = some message.seq then
        { m with offerInFlight := none } else m) = { m with offerInFlight := guard } := by
    split
    · exact ⟨none, rfl, rfl⟩
    · exact ⟨m.offerInFlight, rfl, rfl⟩
  simp only [onSent, hfreed]
  cases result with
  | ok response =>
    have hspec : Spec m (.sent message (.ok response) caller)
        (converse (.sendSuccess message)
          { m with lastSeq := max m.lastSeq message.seq, offerInFlight := guard }) :=
      spec_converse rfl rfl rfl rfl (by rw [counter, hguard]; rfl)
    refine hspec.andThen_ask ?_
    cases caller with
    | none => simp
    | some caller => exact List.forall_mem_singleton.2 (.told rfl)
  | error e =>
    have hspec : Spec m (.sent message (.error e) caller)
        (onSendFailure message { m with offerInFlight := guard }) :=
      spec_onSendFailure rfl rfl (by rw [counter, hguard]; rfl)
    refine hspec.andThen_ask ?_
    cases caller with
    | none => simp
    | some caller => exact List.forall_mem_singleton.2 (.replied rfl fun seq => nofun)

theorem spec_step (now draw : Nat) (input : Input κ) (m : Meeting) :
    Spec m input (m.step now draw input) := by
  have hdone : ∀ {caller : κ}, input.caller? = some caller →
      ∀ e ∈ [Effect.reply caller .done], Aside input e := by
    intro caller hcaller
    exact List.forall_mem_singleton.2 (.replied hcaller fun seq => nofun)
  cases input with
  | submit action caller => exact (spec_onSubmit m action caller).andThen_ask (hdone rfl)
  | sendOffer sdps tieBreaker caller => exact spec_onSendOffer m sdps tieBreaker caller
  | sendRoap message caller => exact spec_transmit rfl rfl rfl rfl rfl
  | delta d caller => exact (spec_synchronize _ _ _ rfl rfl rfl rfl rfl).andThen_ask (hdone rfl)
  | full snapshot caller =>
    exact (spec_synchronize _ _ _ rfl rfl rfl rfl rfl).andThen_ask (hdone rfl)
  | view caller =>
    exact spec_ask rfl rfl rfl rfl rfl (List.forall_mem_singleton.2 (.replied rfl fun seq => nofun))
  | stallTimeout => exact spec_synchronize _ _ _ rfl rfl rfl rfl rfl
  | answerBuilt seq result => exact spec_onAnswerBuilt m seq result
  | answerApplied seq result => exact spec_onAnswerApplied m seq result
  | sent message result caller => exact spec_onSent m message result caller
  | syncCompleted kind result => exact spec_synchronize _ _ _ rfl rfl rfl rfl rfl
  | destroyed => exact spec_stay rfl rfl rfl rfl rfl []
  | cancel =>
    have hasides : ∀ e ∈ [Effect.abortTurn, .dropTasks], Aside (.cancel : Input κ) e :=
      fun e he => .stopped (by simpa using he)
    refine spec_ask ?_ ?_ ?_ ?_ ?_ hasides <;> rfl

/-! ### What an input asks for -/

section Effects

variable {now draw : Nat} {input : Input κ} {m : Meeting}

theorem dialog_step : (m.step now draw input).state.dialog = (m.converses input).state :=
  (spec_step now draw input m).dialog

theorem ownsMedia_step : (m.step now draw input).state.ownsMedia = m.ownsMedia :=
  (spec_step now draw input m).ownsMedia

theorem counter_step : (m.step now draw input).state.counter = m.counter.after input :=
  (spec_step now draw input m).counter

/-- An answer is built if the dialog asks for one. -/
theorem buildAnswer_mem_step_iff {seq : UInt64} {offer : Message} :
    .buildAnswer seq offer ∈ (m.step now draw input).effects ↔
      .sendAnswer seq offer ∈ (m.converses input).effects := by
  obtain ⟨asides, heffects, hasides⟩ := (spec_step now draw input m).effects
  have hof : ∀ e : Roap.Effect, (ofRoapEffect e : Effect κ) = .buildAnswer seq offer ↔
      e = .sendAnswer seq offer := by
    intro e
    cases e <;> simp [ofRoapEffect]
  have haside : (.buildAnswer seq offer : Effect κ) ∉ asides := by
    intro hmem
    rcases hasides _ hmem with h | _ | _ | _ | h | _ <;> simp [Effect.isSync] at h
  rw [heffects]
  simp [haside, hof]

/-- What is sent is what the input makes the meeting send. -/
theorem filter_isSend_step :
    (m.step now draw input).effects.filter Effect.isSend =
      ((m.sends? input).map fun s => Effect.send s.1 s.2).toList := by
  obtain ⟨asides, heffects, hasides⟩ := (spec_step now draw input m).effects
  have hdialog : ((m.converses input).effects.map ofRoapEffect).filter
      (Effect.isSend : Effect κ → Bool) = [] := by
    rw [List.filter_map, List.filter_eq_nil_iff.2, List.map_nil]
    intro e _
    cases e <;> simp [ofRoapEffect, Effect.isSend]
  have hrest : asides.filter Effect.isSend = [] := by
    rw [List.filter_eq_nil_iff]
    intro e he
    rcases hasides e he with h | _ | _ | _ | (rfl | rfl) | _
    · cases e <;> simp_all [Effect.isSync, Effect.isSend]
    all_goals simp [Effect.isSend]
  rw [heffects, List.filter_append, List.filter_append, hdialog, hrest]
  cases m.sends? input <;> rfl

theorem send_mem_step_iff {message : Message} {caller : Option κ} :
    .send message caller ∈ (m.step now draw input).effects ↔
      m.sends? input = some (message, caller) := by
  have hmem : .send message caller ∈ (m.step now draw input).effects.filter Effect.isSend ↔
      m.sends? input = some (message, caller) := by
    rw [filter_isSend_step]
    simp
  rw [← hmem, List.mem_filter]
  exact ⟨fun h => ⟨h, rfl⟩, And.left⟩

/-- A caller is told of a message that was sent when the message has been acknowledged. -/
theorem of_reply_sent_mem_step {caller : κ} {seq : UInt64}
    (h : .reply caller (.sent seq) ∈ (m.step now draw input).effects) :
    ∃ message response, input = .sent message (.ok response) (some caller) ∧ message.seq = seq := by
  obtain ⟨asides, heffects, hasides⟩ := (spec_step now draw input m).effects
  have hof : ∀ e : Roap.Effect, (ofRoapEffect e : Effect κ) ≠ .reply caller (.sent seq) := by
    intro e
    cases e <;> simp [ofRoapEffect]
  rw [heffects] at h
  have hmem : .reply caller (.sent seq) ∈ asides := by simpa [hof] using h
  generalize he : (.reply caller (.sent seq) : Effect κ) = e at hmem
  cases hasides e hmem with
  | sync hsync =>
    rw [← he] at hsync
    cases hsync
  | turnResponse message => cases he
  | told hinput =>
    cases he
    exact ⟨_, _, hinput, rfl⟩
  | replied _ hother =>
    cases he
    exact absurd rfl (hother seq)
  | stopped hstopped =>
    rw [← he] at hstopped
    simp at hstopped
  | crashed hinput => cases he

/-- A local offer crashes the meeting if none is under way and there is no number for it. -/
theorem any_isCrash_onSendOffer (sdps : List String) (tieBreaker : UInt32) (caller : κ)
    (m : Meeting) :
    (m.onSendOffer sdps tieBreaker caller).effects.any Effect.isCrash = true ↔
      m.offerInFlight = none ∧ nextNumber? m.lastSeq = none := by
  have htransmit : ∀ (message : Message) (m : Meeting),
      (m.transmit message (some caller)).effects.any Effect.isCrash = false := by
    intro message m
    have hdialog : (m.converse (.send message) : Outcome Meeting (Effect κ)).effects.any
        Effect.isCrash = false := by
      rw [converse, List.any_map, List.any_eq_false]
      intro e _
      cases e <;> simp [ofRoapEffect, Effect.isCrash]
    rw [transmit, Outcome.andThen_effects, List.any_append, hdialog]
    rfl
  rw [onSendOffer]
  cases hguard : m.offerInFlight with
  | some seq => simp [ask, Effect.isCrash]
  | none =>
    cases hnext : nextNumber? m.lastSeq with
    | some seq => simp [htransmit]
    | none => simp [ask, Effect.isCrash]

/-- A meeting crashes over nothing but a local offer. -/
theorem of_crash_mem_step {caller : κ} (h : .crash caller ∈ (m.step now draw input).effects) :
    ∃ sdps tieBreaker, input = .sendOffer sdps tieBreaker caller := by
  obtain ⟨asides, heffects, hasides⟩ := (spec_step now draw input m).effects
  have hof : ∀ e : Roap.Effect, (ofRoapEffect e : Effect κ) ≠ .crash caller := by
    intro e
    cases e <;> simp [ofRoapEffect]
  rw [heffects] at h
  have hmem : .crash caller ∈ asides := by simpa [hof] using h
  generalize he : (.crash caller : Effect κ) = e at hmem
  cases hasides e hmem with
  | sync hsync =>
    rw [← he] at hsync
    cases hsync
  | turnResponse message => cases he
  | told hinput => cases he
  | replied _ hother => cases he
  | stopped hstopped =>
    rw [← he] at hstopped
    simp at hstopped
  | crashed hinput =>
    cases he
    exact ⟨_, _, hinput⟩

/-- What makes a meeting crash. -/
theorem any_isCrash_step_iff :
    (m.step now draw input).effects.any Effect.isCrash = true ↔
      (∃ sdps tieBreaker caller, input = .sendOffer sdps tieBreaker caller) ∧
        m.offerInFlight = none ∧ nextNumber? m.lastSeq = none := by
  constructor
  · intro h
    obtain ⟨e, hmem, hcrash⟩ := List.any_eq_true.1 h
    cases e with
    | crash caller =>
      obtain ⟨sdps, tieBreaker, rfl⟩ := of_crash_mem_step hmem
      exact ⟨⟨_, _, _, rfl⟩, (any_isCrash_onSendOffer sdps tieBreaker caller m).1 h⟩
    | _ => cases hcrash
  · rintro ⟨⟨sdps, tieBreaker, caller, rfl⟩, hnone⟩
    exact (any_isCrash_onSendOffer sdps tieBreaker caller m).2 hnone

end Effects

end CallSignaling.Meeting
