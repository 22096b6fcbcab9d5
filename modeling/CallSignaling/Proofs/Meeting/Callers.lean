import CallSignaling.Proofs.Meeting.Activity

/-!
# What a meeting does not look at

A meeting does the same whoever calls it and however full its mailbox is.

* `Meeting.Input.map`, `Meeting.Effect.map`: inputs and effects with other callers.
* `Meeting.withMailbox`: a meeting with another mailbox.
* `Meeting.Alike`: two outcomes with different callers and mailboxes.
* `Meeting.Input.anonymous`, `Meeting.Effect.anonymous`: inputs and effects with nobody named.

Main statements: `step_alike`, and `step_anonymous` for two meetings of which neither is given by
the other.
-/

namespace CallSignaling.Meeting

open Roap (Message)

variable {κ μ : Type}

/-- An input with other callers. -/
def Input.map (f : κ → μ) : Input κ → Input μ
  | submit action caller => .submit action (f caller)
  | sendOffer sdps tieBreaker caller => .sendOffer sdps tieBreaker (f caller)
  | sendRoap message caller => .sendRoap message (f caller)
  | delta d caller => .delta d (f caller)
  | full snapshot caller => .full snapshot (f caller)
  | view caller => .view (f caller)
  | stallTimeout => .stallTimeout
  | answerBuilt seq result => .answerBuilt seq result
  | answerApplied seq result => .answerApplied seq result
  | sent message result caller => .sent message result (caller.map f)
  | syncCompleted kind result => .syncCompleted kind result
  | destroyed => .destroyed
  | cancel => .cancel

/-- An effect with other callers. -/
def Effect.map (f : κ → μ) : Effect κ → Effect μ
  | reply caller r => .reply (f caller) r
  | turnResponse message => .turnResponse message
  | buildAnswer seq offer => .buildAnswer seq offer
  | applyAnswer seq answer => .applyAnswer seq answer
  | send message caller => .send message (caller.map f)
  | fetch url kind => .fetch url kind
  | destroy reason => .destroy reason
  | announceFinished seq => .announceFinished seq
  | publish copy => .publish copy
  | abortTurn => .abortTurn
  | dropTasks => .dropTasks
  | crash caller => .crash (f caller)

/-- A meeting with another mailbox. -/
def withMailbox (b : MailboxMonitor) (m : Meeting) : Meeting := { m with mailbox := b }

@[simp] theorem withMailbox_dialog (b : MailboxMonitor) (m : Meeting) :
    (m.withMailbox b).dialog = m.dialog := rfl

@[simp] theorem withMailbox_lastSeq (b : MailboxMonitor) (m : Meeting) :
    (m.withMailbox b).lastSeq = m.lastSeq := rfl

@[simp] theorem withMailbox_offerInFlight (b : MailboxMonitor) (m : Meeting) :
    (m.withMailbox b).offerInFlight = m.offerInFlight := rfl

/-- The second outcome is the first one with other callers and another mailbox. -/
structure Alike (f : κ → μ) (b : MailboxMonitor) (o : Outcome Meeting (Effect κ))
    (o' : Outcome Meeting (Effect μ)) : Prop where
  state : o'.state = o.state.withMailbox b
  effects : o'.effects = o.effects.map (Effect.map f)

section

variable {f : κ → μ} {b : MailboxMonitor} {m : Meeting}

theorem Alike.andThen {o : Outcome Meeting (Effect κ)} {o' : Outcome Meeting (Effect μ)}
    (h : Alike f b o o') {g : Meeting → Outcome Meeting (Effect κ)}
    {g' : Meeting → Outcome Meeting (Effect μ)} (hg : ∀ n, Alike f b (g n) (g' (n.withMailbox b))) :
    Alike f b (o.andThen g) (o'.andThen g') := by
  have hnext := hg o.state
  rw [← h.state] at hnext
  refine ⟨hnext.state, ?_⟩
  rw [Outcome.andThen_effects, Outcome.andThen_effects, List.map_append, h.effects, hnext.effects]

theorem alike_ask (effects : List (Effect κ)) :
    Alike f b (m.ask effects) ((m.withMailbox b).ask (effects.map (Effect.map f))) :=
  ⟨rfl, rfl⟩

theorem alike_stay : Alike f b (.stay m) (.stay (m.withMailbox b)) := ⟨rfl, rfl⟩

theorem alike_converse (action : Roap.Action) :
    Alike f b (m.converse action) ((m.withMailbox b).converse action) := by
  refine ⟨rfl, ?_⟩
  have hmap : ∀ e : Roap.Effect, Effect.map f (ofRoapEffect e) = ofRoapEffect e := by
    intro e
    cases e <;> rfl
  simp only [converse, List.map_map, Function.comp_def, hmap]
  rfl

theorem alike_transmit (message : Message) (caller : Option κ) :
    Alike f b (m.transmit message caller)
      ((m.withMailbox b).transmit message (caller.map f)) :=
  (alike_converse _).andThen fun _ => ⟨rfl, rfl⟩

theorem alike_onSubmit (action : Roap.Action) :
    Alike f b (m.onSubmit action) ((m.withMailbox b).onSubmit action) := by
  unfold onSubmit
  split
  · split
    · exact alike_ask _
    · exact alike_stay
    · exact alike_converse _
  · exact alike_converse _
  · exact alike_converse _

theorem alike_onSendOffer (sdps : List String) (tieBreaker : UInt32) (caller : κ) :
    Alike f b (m.onSendOffer sdps tieBreaker caller)
      ((m.withMailbox b).onSendOffer sdps tieBreaker (f caller)) := by
  rw [onSendOffer, onSendOffer, withMailbox_offerInFlight, withMailbox_lastSeq]
  cases m.offerInFlight with
  | some _ => exact alike_ask _
  | none =>
    cases nextNumber? m.lastSeq with
    | some seq => exact alike_transmit _ (some caller)
    | none => exact alike_ask _

theorem alike_onAnswerBuilt (seq : UInt64) (result : Except NegotiationError (List String)) :
    Alike f b (m.onAnswerBuilt seq result) ((m.withMailbox b).onAnswerBuilt seq result) := by
  cases result with
  | ok sdps =>
    simp only [onAnswerBuilt]
    rw [withMailbox_dialog]
    split
    · exact alike_transmit _ none
    · exact alike_stay
  | error e => exact ⟨rfl, rfl⟩

theorem alike_onAnswerApplied (seq : UInt64) (result : Except NegotiationError Unit) :
    Alike f b (m.onAnswerApplied seq result) ((m.withMailbox b).onAnswerApplied seq result) := by
  cases result with
  | ok _ =>
    simp only [onAnswerApplied]
    rw [withMailbox_dialog]
    split
    · exact alike_transmit _ none
    · exact alike_stay
  | error e => exact ⟨rfl, rfl⟩

theorem alike_onSendFailure (message : Message) :
    Alike f b (m.onSendFailure message) ((m.withMailbox b).onSendFailure message) := by
  rw [onSendFailure, onSendFailure, withMailbox_dialog]
  cases message.kind with
  | answer | ok => exact ⟨rfl, rfl⟩
  | offer =>
    simp only
    split
    · exact alike_converse _
    · exact alike_stay
  | _ => exact alike_stay

/-- The meeting when it hears of a message that was sent.  If that is the offer under way, there is
none any more. -/
def landed (message : Message) (m : Meeting) : Meeting :=
  if message.kind = .offer && m.offerInFlight = some message.seq then
    { m with offerInFlight := none }
  else m

theorem landed_withMailbox (message : Message) :
    (m.withMailbox b).landed message = (m.landed message).withMailbox b := by
  rw [landed, landed, withMailbox_offerInFlight]
  split <;> rfl

theorem alike_replies (caller : Option κ) (r : Reply) (n : Meeting) :
    Alike f b (n.ask (caller.map fun c => Effect.reply c r).toList)
      ((n.withMailbox b).ask ((caller.map f).map fun c => Effect.reply c r).toList) := by
  cases caller <;> exact alike_ask _

theorem alike_onSent (message : Message) (result : Except TransportError Media.Response)
    (caller : Option κ) :
    Alike f b (m.onSent message result caller)
      ((m.withMailbox b).onSent message result (caller.map f)) := by
  cases result with
  | ok response =>
    have honSent : ∀ {ν : Type} (caller : Option ν) (m : Meeting),
        m.onSent message (.ok response) caller =
          (({ m.landed message with
              lastSeq := max (m.landed message).lastSeq message.seq }.converse
            (.sendSuccess message)).andThen fun n =>
            n.ask (caller.map fun c => Effect.reply c (.sent message.seq)).toList) := fun _ _ => rfl
    rw [honSent, honSent, landed_withMailbox]
    exact (alike_converse _).andThen (alike_replies caller _)
  | error e =>
    have honSent : ∀ {ν : Type} (caller : Option ν) (m : Meeting),
        m.onSent message (.error e) caller =
          (((m.landed message).onSendFailure message).andThen fun n =>
            n.ask (caller.map fun c => Effect.reply c (.refused (.transport e))).toList) :=
      fun _ _ => rfl
    rw [honSent, honSent, landed_withMailbox]
    exact (alike_onSendFailure message).andThen (alike_replies caller _)

theorem alike_onSyncEffect (now : Nat) (effect : Locus.SyncEffect) :
    Alike f b (m.onSyncEffect now effect) ((m.withMailbox b).onSyncEffect now effect) := by
  cases effect with
  | applied copy => exact alike_ask _
  | armStallTimer delay => exact alike_stay
  | cancelStallTimer => exact alike_stay
  | fetch url kind => exact alike_ask _
  | destroy reason => exact ⟨rfl, rfl⟩

theorem alike_synchronize (now draw : Nat) (input : Locus.SyncInput) :
    Alike f b (m.synchronize now draw input) ((m.withMailbox b).synchronize now draw input) := by
  have hfold : ∀ (effects : List Locus.SyncEffect) (o : Outcome Meeting (Effect κ))
      (o' : Outcome Meeting (Effect μ)), Alike f b o o' →
      Alike f b (effects.foldl (fun acc e => acc.andThen (onSyncEffect now e)) o)
        (effects.foldl (fun acc e => acc.andThen (onSyncEffect now e)) o') := by
    intro effects
    induction effects with
    | nil => exact fun _ _ h => h
    | cons e effects ih => exact fun _ _ h => ih _ _ (h.andThen fun _ => alike_onSyncEffect now e)
  exact hfold _ _ _ ⟨rfl, rfl⟩

/-- **A meeting does the same whoever calls and however full its mailbox is.** -/
theorem step_alike (f : κ → μ) (b : MailboxMonitor) (now draw : Nat) (input : Input κ)
    (m : Meeting) :
    Alike f b (m.step now draw input) ((m.withMailbox b).step now draw (input.map f)) := by
  cases input with
  | submit action caller => exact (alike_onSubmit action).andThen fun _ => alike_ask _
  | sendOffer sdps tieBreaker caller => exact alike_onSendOffer sdps tieBreaker caller
  | sendRoap message caller => exact alike_transmit message (some caller)
  | delta d caller => exact (alike_synchronize now draw _).andThen fun _ => alike_ask _
  | full snapshot caller => exact (alike_synchronize now draw _).andThen fun _ => alike_ask _
  | view caller => exact alike_ask _
  | stallTimeout => exact alike_synchronize now draw _
  | answerBuilt seq result => exact alike_onAnswerBuilt seq result
  | answerApplied seq result => exact alike_onAnswerApplied seq result
  | sent message result caller => exact alike_onSent message result caller
  | syncCompleted kind result => exact alike_synchronize now draw _
  | destroyed => exact alike_stay
  | cancel => exact alike_ask _

end

/-! ### Nobody named -/

/-- An input of which nobody knows who asks. -/
def Input.anonymous (input : Input κ) : Input Unit := input.map fun _ => ()

/-- An effect of which nobody knows whom it is for. -/
def Effect.anonymous (effect : Effect κ) : Effect Unit := effect.map fun _ => ()

@[simp] theorem Request.anonymous_input (request : Request) (caller : κ) :
    (request.input caller).anonymous = request.input () := by
  cases request <;> rfl

@[simp] theorem Effect.isWork_anonymous (effect : Effect κ) :
    effect.anonymous.isWork = effect.isWork := by
  cases effect <;> rfl

@[simp] theorem Effect.isCrash_anonymous (effect : Effect κ) :
    effect.anonymous.isCrash = effect.isCrash := by
  cases effect <;> rfl

theorem Effect.input?_anonymous (effect : Effect κ) (report : Report) :
    effect.anonymous.input? report = (effect.input? report).map Input.anonymous := by
  cases effect <;> cases report <;> rfl

/-- Two meetings that differ in the mailbox do the same about inputs that differ in the caller. -/
theorem step_anonymous {input : Input κ} {input' : Input μ} {m m' : Meeting}
    (hinput : input.anonymous = input'.anonymous) (hm : m' = m.withMailbox m'.mailbox)
    (now draw : Nat) :
    (m'.step now draw input').state =
        (m.step now draw input).state.withMailbox (m'.step now draw input').state.mailbox ∧
      (m'.step now draw input').effects.map Effect.anonymous =
        (m.step now draw input).effects.map Effect.anonymous := by
  have h : Alike (fun _ => ()) m'.mailbox (m.step now draw input)
      (m'.step now draw input.anonymous) := by
    have halike := step_alike (fun _ => ()) m'.mailbox now draw input m
    rwa [← hm] at halike
  have h' : Alike (fun _ => ()) m'.mailbox (m'.step now draw input')
      (m'.step now draw input.anonymous) := by
    rw [hinput]
    exact step_alike (fun _ => ()) m'.mailbox now draw input' m'
  have hstate := congrArg (withMailbox (m'.step now draw input').state.mailbox)
    (h'.state.symm.trans h.state)
  exact ⟨hstate, h'.effects.symm.trans h.effects⟩

end CallSignaling.Meeting
