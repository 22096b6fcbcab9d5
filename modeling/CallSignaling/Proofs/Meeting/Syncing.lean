import CallSignaling.Proofs.Locus.Recovery
import CallSignaling.Proofs.Locus.StallTimer
import CallSignaling.Proofs.Meeting.Activity

/-!
# A meeting serves its replica

The replica says what is to be done, and the meeting does it: it runs the timer, has the fetches
made, publishes the copies and asks for its own end.  What the replica believes of the timer and of
the fetch under way is kept twice, by the replica and by the meeting, and has to agree.

* `Meeting.Input.sync?`: what an input is to the replica, if it is for that.
* `Meeting.ofSyncEffect?`: what the meeting asks for on behalf of its replica.
* `Meeting.syncs`: what the replica makes of an input of the meeting.
* `Meeting.Serves`: an outcome of the meeting that is one of the replica carried out.
* `Meeting.Activity.InStep`: the meeting at work agrees with its replica.
* `Meeting.Activity.KeepsFetches`: no fetch crashes in the course of a run.

Every input is served (`serves_step`), every occurrence that is not the crash of a fetch keeps the
meeting in step (`InStep.step`), and hence every run without such crashes does
(`carries_out_faithfully`).
-/

namespace CallSignaling.Meeting

open Locus (DestroyReason Replica Snapshot SyncEffect SyncInput SyncKind)

variable {κ : Type}

/-! ### Inputs and effects of the replica -/

/-- What an input is to the replica, if it is for that. -/
def Input.sync? : Input κ → Option SyncInput
  | delta d _ => some (.delta d)
  | full snapshot _ => some (.full snapshot)
  | stallTimeout => some .stallTimeout
  | syncCompleted kind result => some (.syncResult kind result)
  | submit _ _ | sendOffer _ _ _ | sendRoap _ _ | view _ | answerBuilt _ _ | answerApplied _ _
  | sent _ _ _ | destroyed | cancel => none

/-- What a meeting asks for on behalf of its replica.  The timer it runs itself. -/
def ofSyncEffect? : SyncEffect → Option (Effect κ)
  | .applied copy => some (.publish copy)
  | .fetch url kind => some (.fetch url kind)
  | .destroy reason => some (.destroy reason)
  | .armStallTimer _ | .cancelStallTimer => none

/-- What the replica makes of an input of the meeting. -/
def syncs (draw : Nat) (input : Input κ) (m : Meeting) : Outcome Replica SyncEffect :=
  match input.sync? with
  | some sync => m.replica.step draw sync
  | none => .stay m.replica

theorem syncs_of_some {draw : Nat} {input : Input κ} {m : Meeting} {sync : SyncInput}
    (h : input.sync? = some sync) : m.syncs draw input = m.replica.step draw sync := by
  rw [syncs, h]

theorem syncs_of_none {draw : Nat} {input : Input κ} {m : Meeting} (h : input.sync? = none) :
    m.syncs draw input = .stay m.replica := by
  rw [syncs, h]

/-- The copy that an effect publishes. -/
def Effect.copy? : Effect κ → Option Snapshot
  | publish copy => some copy
  | _ => none

/-- What an effect fetches. -/
def Effect.fetchKind? : Effect κ → Option SyncKind
  | fetch _ kind => some kind
  | _ => none

/-- The reason for which an effect asks for the end of the meeting. -/
def Effect.destroyReason? : Effect κ → Option DestroyReason
  | destroy reason => some reason
  | _ => none

/-- What is seen only of the effects on behalf of the replica is seen of what the replica asked for.
-/
theorem filterMap_of_filter {β : Type} {f : Effect κ → Option β} {g : SyncEffect → Option β}
    (hf : ∀ e, e.isSync = false → f e = none) (hg : ∀ e, (ofSyncEffect? e).bind f = g e)
    {effects : List (Effect κ)} {syncEffects : List SyncEffect}
    (h : effects.filter Effect.isSync = syncEffects.filterMap ofSyncEffect?) :
    effects.filterMap f = syncEffects.filterMap g := by
  have hsync : (effects.filter Effect.isSync).filterMap f = effects.filterMap f := by
    rw [List.filterMap_filter]
    refine congrArg (List.filterMap · effects) (funext fun e => ?_)
    cases he : e.isSync with
    | true => rfl
    | false => exact (hf e he).symm
  rw [← hsync, h, List.filterMap_filterMap]
  exact congrArg (List.filterMap · syncEffects) (funext hg)

section Projections

variable {effects : List (Effect κ)} {syncEffects : List SyncEffect}

theorem copies_of_filter (h : effects.filter Effect.isSync = syncEffects.filterMap ofSyncEffect?) :
    effects.filterMap Effect.copy? = SyncEffect.copies syncEffects :=
  filterMap_of_filter (fun e he => by cases e <;> first | rfl | cases he)
    (fun e => by cases e <;> rfl) h

theorem fetchKinds_of_filter
    (h : effects.filter Effect.isSync = syncEffects.filterMap ofSyncEffect?) :
    effects.filterMap Effect.fetchKind? = (SyncEffect.fetches syncEffects).map Prod.snd := by
  rw [SyncEffect.fetches, List.map_filterMap]
  exact filterMap_of_filter (fun e he => by cases e <;> first | rfl | cases he)
    (fun e => by cases e <;> rfl) h

theorem destroyReasons_of_filter
    (h : effects.filter Effect.isSync = syncEffects.filterMap ofSyncEffect?) :
    effects.filterMap Effect.destroyReason? = SyncEffect.ends syncEffects :=
  filterMap_of_filter (fun e he => by cases e <;> first | rfl | cases he)
    (fun e => by cases e <;> rfl) h

end Projections

/-- Fetches are work. -/
theorem fetchKinds_filter_isWork (effects : List (Effect κ)) :
    (effects.filter Effect.isWork).filterMap Effect.fetchKind? =
      effects.filterMap Effect.fetchKind? := by
  rw [List.filterMap_filter]
  exact congrArg (List.filterMap · effects) (funext fun e => by cases e <;> rfl)

/-! ### Carrying out what the replica asks for -/

theorem onSyncEffect_timer (now : Nat) (effect : SyncEffect) (m : Meeting) :
    (m.onSyncEffect now effect : Outcome Meeting (Effect κ)).state.stallDeadline.isSome =
      SyncEffect.timer m.stallDeadline.isSome effect := by
  cases effect <;> rfl

theorem onSyncEffect_effects (now : Nat) (effect : SyncEffect) (m : Meeting) :
    (m.onSyncEffect now effect : Outcome Meeting (Effect κ)).effects =
      (ofSyncEffect? effect).toList := by
  cases effect <;> rfl

theorem onSyncEffect_replica (now : Nat) (effect : SyncEffect) (m : Meeting) :
    (m.onSyncEffect now effect : Outcome Meeting (Effect κ)).state.replica = m.replica := by
  cases effect <;> rfl

/-- Effects of the replica carried out in turn. -/
theorem runAll_onSyncEffect (now : Nat) (effects : List SyncEffect) (m : Meeting) :
    let o : Outcome Meeting (Effect κ) := Outcome.runAll (onSyncEffect now) effects m
    o.state.replica = m.replica ∧ o.effects = effects.filterMap ofSyncEffect? ∧
      o.state.stallDeadline.isSome = SyncEffect.timerAfter effects m.stallDeadline.isSome := by
  induction effects generalizing m with
  | nil => exact ⟨rfl, rfl, rfl⟩
  | cons effect effects ih =>
    obtain ⟨hreplica, heffects, htimer⟩ :=
      ih (m.onSyncEffect now effect : Outcome Meeting (Effect κ)).state
    refine ⟨hreplica.trans (onSyncEffect_replica now effect m), ?_, ?_⟩
    · rw [Outcome.runAll, Outcome.andThen_effects, heffects, onSyncEffect_effects,
        List.filterMap_cons]
      cases ofSyncEffect? effect <;> rfl
    · rw [Outcome.runAll, Outcome.andThen_state, htimer, onSyncEffect_timer]
      rfl

/-- What is for the replica is passed on, and what that asks for is carried out. -/
theorem synchronize_spec (now draw : Nat) (input : SyncInput) (m : Meeting) :
    let o : Outcome Meeting (Effect κ) := m.synchronize now draw input
    let r := m.replica.step draw input
    o.state.replica = r.state ∧ o.effects = r.effects.filterMap ofSyncEffect? ∧
      o.state.stallDeadline.isSome =
        SyncEffect.timerAfter r.effects m.stallDeadline.isSome := by
  intro o r
  obtain ⟨hreplica, heffects, htimer⟩ :=
    runAll_onSyncEffect (κ := κ) now r.effects { m with replica := r.state }
  have ho : o = _ := synchronize_eq now draw input m
  rw [ho, Outcome.andThen_state, Outcome.andThen_effects]
  exact ⟨hreplica, heffects, htimer⟩

/-! ### What is not for the replica -/

/-- An outcome that has nothing to do with the replica. -/
structure Quiet (m : Meeting) (o : Outcome Meeting (Effect κ)) : Prop where
  replica : o.state.replica = m.replica
  deadline : o.state.stallDeadline = m.stallDeadline
  effects : o.effects.filter Effect.isSync = []

theorem Quiet.andThen {m : Meeting} {o : Outcome Meeting (Effect κ)}
    {f : Meeting → Outcome Meeting (Effect κ)} (h : Quiet m o) (hf : Quiet o.state (f o.state)) :
    Quiet m (o.andThen f) where
  replica := hf.replica.trans h.replica
  deadline := hf.deadline.trans h.deadline
  effects := by rw [Outcome.andThen_effects, List.filter_append, h.effects, hf.effects]; rfl

theorem quiet_converse (action : Roap.Action) (m : Meeting) :
    Quiet m (m.converse action : Outcome Meeting (Effect κ)) where
  replica := rfl
  deadline := rfl
  effects := by
    refine List.filter_eq_nil_iff.2 fun e he => ?_
    obtain ⟨effect, -, rfl⟩ := List.mem_map.1 he
    cases effect <;> exact Bool.false_ne_true

theorem quiet_transmit (message : Roap.Message) (caller : Option κ) (m : Meeting) :
    Quiet m (m.transmit message caller) :=
  (quiet_converse (.send message) m).andThen ⟨rfl, rfl, rfl⟩

theorem quiet_onSubmit (action : Roap.Action) (m : Meeting) :
    Quiet m (m.onSubmit action : Outcome Meeting (Effect κ)) := by
  unfold onSubmit
  split
  · split
    · exact ⟨rfl, rfl, rfl⟩
    · exact ⟨rfl, rfl, rfl⟩
    · exact quiet_converse _ m
  · have h := quiet_converse (κ := κ) .callLeave { m with offerInFlight := none }
    exact ⟨h.replica, h.deadline, h.effects⟩
  · exact quiet_converse action m

theorem quiet_onSendOffer (sdps : List String) (tieBreaker : UInt32) (caller : κ) (m : Meeting) :
    Quiet m (m.onSendOffer sdps tieBreaker caller) := by
  unfold onSendOffer
  split
  · exact ⟨rfl, rfl, rfl⟩
  · split
    · rename_i seq _
      have h := quiet_transmit (.offer seq sdps tieBreaker) (some caller)
        { m with offerInFlight := some seq }
      exact ⟨h.replica, h.deadline, h.effects⟩
    · exact ⟨rfl, rfl, rfl⟩

theorem quiet_onAnswerBuilt (seq : UInt64) (result : Except NegotiationError (List String))
    (m : Meeting) : Quiet m (m.onAnswerBuilt seq result : Outcome Meeting (Effect κ)) := by
  unfold onAnswerBuilt
  split
  · split
    · exact quiet_transmit _ none m
    · exact ⟨rfl, rfl, rfl⟩
  · exact ⟨rfl, rfl, rfl⟩

theorem quiet_onAnswerApplied (seq : UInt64) (result : Except NegotiationError Unit)
    (m : Meeting) : Quiet m (m.onAnswerApplied seq result : Outcome Meeting (Effect κ)) := by
  unfold onAnswerApplied
  split
  · split
    · exact quiet_transmit _ none m
    · exact ⟨rfl, rfl, rfl⟩
  · exact ⟨rfl, rfl, rfl⟩

theorem quiet_onSendFailure (message : Roap.Message) (m : Meeting) :
    Quiet m (m.onSendFailure message : Outcome Meeting (Effect κ)) := by
  unfold onSendFailure
  split
  · exact ⟨rfl, rfl, rfl⟩
  · exact ⟨rfl, rfl, rfl⟩
  · split
    · exact quiet_converse _ m
    · exact ⟨rfl, rfl, rfl⟩
  · exact ⟨rfl, rfl, rfl⟩

/-- What a caller is told has nothing to do with the replica. -/
theorem quiet_replies (caller : Option κ) (reply : Reply) (m : Meeting) :
    Quiet m (m.ask (caller.map fun c => Effect.reply c reply).toList) := by
  cases caller <;> exact ⟨rfl, rfl, rfl⟩

theorem quiet_onSent (message : Roap.Message)
    (result : Except TransportError Media.Response) (caller : Option κ) (m : Meeting) :
    Quiet m (m.onSent message result caller) := by
  unfold onSent
  -- the number of the offer under way is no concern of the replica
  have hfree : ∀ (m' : Meeting) (o : Outcome Meeting (Effect κ)),
      m'.replica = m.replica → m'.stallDeadline = m.stallDeadline → Quiet m' o → Quiet m o :=
    fun m' o hreplica hdeadline h =>
      ⟨h.replica.trans hreplica, h.deadline.trans hdeadline, h.effects⟩
  split <;> cases result with
  | ok response =>
    refine hfree _ _ ?_ ?_ ((quiet_converse (.sendSuccess message) _).andThen
      (quiet_replies caller _ _)) <;> rfl
  | error e =>
    refine hfree _ _ ?_ ?_ ((quiet_onSendFailure message _).andThen
      (quiet_replies caller _ _)) <;> rfl

/-! ### Inputs -/

/-- An outcome that is one of the replica carried out, with the timer that the replica believes in.
-/
structure Serves (draw : Nat) (m : Meeting) (input : Input κ) (o : Outcome Meeting (Effect κ)) :
    Prop where
  replica : o.state.replica = (m.syncs draw input).state
  effects : o.effects.filter Effect.isSync =
    (m.syncs draw input).effects.filterMap ofSyncEffect?
  timer : input ≠ .cancel → m.stallDeadline.isSome = m.replica.stallTimerArmed →
    o.state.stallDeadline.isSome = o.state.replica.stallTimerArmed

theorem filter_isSync_ofSyncEffect? (effects : List SyncEffect) :
    (effects.filterMap (ofSyncEffect? (κ := κ))).filter Effect.isSync =
      effects.filterMap ofSyncEffect? := by
  refine List.filter_eq_self.2 fun e he => ?_
  obtain ⟨effect, -, heffect⟩ := List.mem_filterMap.1 he
  cases effect <;> cases heffect <;> rfl

section Serves

variable {now draw : Nat} {m m' : Meeting} {input : Input κ} {o : Outcome Meeting (Effect κ)}

theorem Quiet.serves (h : Quiet m o) (hnone : input.sync? = none) : Serves draw m input o where
  replica := by rw [syncs_of_none hnone]; exact h.replica
  effects := by rw [syncs_of_none hnone]; exact h.effects
  timer := by
    intro _ htimer
    rw [h.deadline, h.replica, htimer]

/-- Callers are told afterwards. -/
theorem Serves.andThen_reply (h : Serves draw m input o) (caller : κ) (reply : Reply) :
    Serves draw m input (o.andThen (ask [.reply caller reply])) where
  replica := h.replica
  effects := by
    rw [Outcome.andThen_effects, List.filter_append, h.effects]
    exact List.append_nil _
  timer := h.timer

/-- What is for the replica is carried out, if the meeting knows whether the timer runs. -/
theorem serves_synchronize {sync : SyncInput} (hsync : input.sync? = some sync)
    (hreplica : m'.replica = m.replica)
    (hbefore : m.stallDeadline.isSome = m.replica.stallTimerArmed →
      m'.stallDeadline.isSome = m.replica.timerBefore sync) :
    Serves draw m input (m'.synchronize now draw sync) := by
  obtain ⟨hstate, heffects, htimer⟩ := synchronize_spec (κ := κ) now draw sync m'
  rw [hreplica] at hstate heffects htimer
  refine ⟨?_, ?_, fun _ h => ?_⟩
  · rw [syncs_of_some hsync, hstate]
  · rw [syncs_of_some hsync, heffects, filter_isSync_ofSyncEffect?]
  · rw [htimer, hstate, hbefore h, Locus.Replica.timer_step]

end Serves

theorem serves_step (now draw : Nat) (input : Input κ) (m : Meeting) :
    Serves draw m input (m.step now draw input) := by
  cases input with
  | submit action caller =>
    have hreply : Quiet (m.onSubmit action : Outcome Meeting (Effect κ)).state
        ((m.onSubmit action : Outcome Meeting (Effect κ)).state.ask [.reply caller .done]) :=
      ⟨rfl, rfl, rfl⟩
    exact ((quiet_onSubmit action m).andThen hreply).serves rfl
  | sendOffer sdps tieBreaker caller => exact (quiet_onSendOffer sdps tieBreaker caller m).serves rfl
  | sendRoap message caller => exact (quiet_transmit message (some caller) m).serves rfl
  | delta d caller => exact (serves_synchronize rfl rfl id).andThen_reply caller .done
  | full snapshot caller => exact (serves_synchronize rfl rfl id).andThen_reply caller .done
  | view caller => exact Quiet.serves ⟨rfl, rfl, rfl⟩ rfl
  | stallTimeout =>
    -- the deadline is gone before the replica hears that the timer fired
    exact serves_synchronize rfl rfl fun _ => rfl
  | answerBuilt seq result => exact (quiet_onAnswerBuilt seq result m).serves rfl
  | answerApplied seq result => exact (quiet_onAnswerApplied seq result m).serves rfl
  | sent message result caller => exact (quiet_onSent message result caller m).serves rfl
  | syncCompleted kind result => exact serves_synchronize rfl rfl id
  | destroyed => exact Quiet.serves ⟨rfl, rfl, rfl⟩ rfl
  | cancel => exact ⟨rfl, rfl, fun h => absurd rfl h⟩

/-- The fetch that is still under way when an input has been heard. -/
def flightHeard (input : Input κ) (m : Meeting) : Option SyncKind :=
  match input.sync? with
  | some sync => (m.replica.heard sync).syncInFlight
  | none => m.replica.syncInFlight

/-- The fetch under way after an input is still under way or was asked for by it. -/
theorem Serves.flight {draw : Nat} {m : Meeting} {input : Input κ} {o : Outcome Meeting (Effect κ)}
    (h : Serves draw m input o) (hm : m.replica.WellFormed) :
    o.state.replica.syncInFlight.toList =
      (m.flightHeard input).toList ++ o.effects.filterMap Effect.fetchKind? := by
  rw [fetchKinds_of_filter h.effects, h.replica, flightHeard, syncs]
  cases hsync : input.sync? with
  | some sync => exact Locus.Replica.flight_step draw sync hm
  | none => exact (List.append_nil _).symm

namespace Activity

/-! ### Fetches under way -/

section EraseIdx

variable {α β : Type} {f : α → Option β} {xs : List α} {i : Nat} {x : α}

theorem filterMap_of_getElem? (hx : xs[i]? = some x) :
    xs.filterMap f = (xs.take i).filterMap f ++ (f x).toList ++ (xs.drop (i + 1)).filterMap f := by
  obtain ⟨hi, rfl⟩ := List.getElem?_eq_some_iff.1 hx
  have hsplit : xs = xs.take i ++ xs[i] :: xs.drop (i + 1) := by
    rw [← List.drop_eq_getElem_cons hi, List.take_append_drop]
  conv_lhs => rw [hsplit, List.filterMap_append, List.filterMap_cons]
  cases f xs[i] <;> simp

/-- Without an element that is not seen all is seen that was seen. -/
theorem filterMap_eraseIdx_of_none (hx : xs[i]? = some x) (hfx : f x = none) :
    (xs.eraseIdx i).filterMap f = xs.filterMap f := by
  rw [filterMap_of_getElem? hx, hfx, List.eraseIdx_eq_take_drop_succ, List.filterMap_append,
    Option.toList_none, List.append_nil]

/-- Without the only element that is seen nothing is seen. -/
theorem filterMap_eraseIdx_of_some {y : β} {seen : Option β} (hx : xs[i]? = some x)
    (hfx : f x = some y) (hseen : xs.filterMap f = seen.toList) :
    seen = some y ∧ (xs.eraseIdx i).filterMap f = [] := by
  rw [filterMap_of_getElem? hx, hfx, Option.toList_some, List.append_assoc] at hseen
  rw [List.eraseIdx_eq_take_drop_succ, List.filterMap_append]
  cases seen with
  | none => cases (List.append_eq_nil_iff.1 hseen).2
  | some z =>
    rcases List.append_eq_singleton_iff.1 hseen with ⟨hbefore, hafter⟩ | ⟨-, hafter⟩
    · obtain ⟨rfl, hrest⟩ := List.cons.inj hafter
      rw [hbefore, List.nil_append]
      exact ⟨rfl, hrest⟩
    · cases hafter

end EraseIdx

/-- Work that comes back as the result of a fetch is a fetch, and other work is none. -/
theorem fetchKind?_of_input? {task : Effect Nat} {report : Report} {input : Input Nat}
    (h : task.input? report = some input) :
    (∃ kind result, task.fetchKind? = some kind ∧ input = .syncCompleted kind result) ∨
      task.fetchKind? = none ∧ input.sync? = none := by
  cases task <;> cases report <;> cases h
  case fetch.fetched url kind result => exact .inl ⟨kind, result, rfl, rfl⟩
  all_goals exact .inr ⟨rfl, rfl⟩

/-- An input takes the fetch away that it is the result of. -/
theorem Source.fetching {a : Activity} {input : Input Nat} {tasks : List (Effect Nat)}
    (hsource : Source a input tasks)
    (h : a.tasks.filterMap Effect.fetchKind? = a.meeting.replica.syncInFlight.toList) :
    tasks.filterMap Effect.fetchKind? = (a.meeting.flightHeard input).toList := by
  cases hsource with
  | request request => cases request <;> exact h
  | timer => exact h
  | stop => exact h
  | report htask hinput =>
    rcases fetchKind?_of_input? hinput with ⟨kind, result, hkind, rfl⟩ | ⟨hkind, hsync⟩
    · obtain ⟨hflight, hrest⟩ := filterMap_eraseIdx_of_some htask hkind h
      have hheard : a.meeting.flightHeard (.syncCompleted kind result : Input Nat) =
          (if a.meeting.replica.syncInFlight = some kind then
            { a.meeting.replica with syncInFlight := none }
          else a.meeting.replica).syncInFlight := rfl
      rw [hrest, hheard, if_pos hflight]
      rfl
    · rw [filterMap_eraseIdx_of_none htask hkind, flightHeard, hsync]
      exact h

/-- Whether what is lost in an occurrence is a fetch. -/
def losesFetch (o : Occurrence) (a : Activity) : Bool :=
  match o.event with
  | .crash i => ((a.tasks[i]?).bind Effect.fetchKind?).isSome
  | .call _ | .stallTimeout | .report _ _ | .cancel => false

/-- No fetch crashes in the course of a run. -/
def KeepsFetches : List Occurrence → Activity → Prop
  | [], _ => True
  | o :: later, a => a.losesFetch o = false ∧ KeepsFetches later (a.step o)

/-! ### Staying in step -/

/-- The meeting has done all that its replica asked for, runs the timer that the replica believes
in, and makes the fetch that the replica waits for. -/
structure InStep (limits : Locus.Limits) (a : Activity) : Prop where
  history : ∃ inputs : List (Nat × SyncInput),
    inputs.map Prod.snd = a.past.filterMap Input.sync? ∧
      a.meeting.replica = (Replica.run inputs { limits }).state ∧
      a.effects.filter Effect.isSync =
        (Replica.run inputs { limits }).effects.filterMap ofSyncEffect?
  timer : a.hasEnded = false →
    a.meeting.stallDeadline.isSome = a.meeting.replica.stallTimerArmed
  fetching : a.hasEnded = false →
    a.tasks.filterMap Effect.fetchKind? = a.meeting.replica.syncInFlight.toList

theorem inStep_start (name : String) (limits : Locus.Limits) (ownsMedia : Bool) :
    InStep limits (start name limits ownsMedia) :=
  ⟨⟨[], rfl, rfl, rfl⟩, fun _ => rfl, fun _ => rfl⟩

section InStep

variable {limits : Locus.Limits} {a : Activity}

theorem InStep.wellFormed (h : InStep limits a) : a.meeting.replica.WellFormed := by
  obtain ⟨inputs, -, hreplica, -⟩ := h.history
  rw [hreplica]
  exact Locus.Replica.wellFormed_run limits inputs

/-- The history of the replica goes on with what an input is to it. -/
theorem InStep.history_handle (h : InStep limits a) (now draw : Nat) (input : Input Nat)
    (tasks : List (Effect Nat)) :
    let b := handle now draw input { a with tasks := tasks }
    ∃ inputs : List (Nat × SyncInput),
      inputs.map Prod.snd = b.past.filterMap Input.sync? ∧
        b.meeting.replica = (Replica.run inputs { limits }).state ∧
        b.effects.filter Effect.isSync =
          (Replica.run inputs { limits }).effects.filterMap ofSyncEffect? := by
  intro b
  obtain ⟨inputs, hinputs, hreplica, heffects⟩ := h.history
  have hserves := serves_step now draw input a.meeting
  have hpast : b.past.filterMap Input.sync? =
      a.past.filterMap Input.sync? ++ input.sync?.toList := by
    have hlast : b.past = a.past ++ [input] := rfl
    rw [hlast, List.filterMap_append, List.filterMap_cons]
    cases input.sync? <;> rfl
  have hasked : b.effects.filter Effect.isSync =
      a.effects.filter Effect.isSync ++
        (a.meeting.syncs draw input).effects.filterMap ofSyncEffect? := by
    have hlast : b.effects = a.effects ++ (a.meeting.step now draw input).effects := rfl
    rw [hlast, List.filter_append, hserves.effects]
  have hstate : b.meeting.replica = (a.meeting.syncs draw input).state := hserves.replica
  refine ⟨inputs ++ (input.sync?.map (draw, ·)).toList, ?_, ?_, ?_⟩
  · rw [hpast, List.map_append, hinputs]
    cases input.sync? <;> rfl
  · rw [hstate, Replica.run_append, Outcome.andThen_state, ← hreplica, syncs]
    cases input.sync? <;> rfl
  · rw [hasked, heffects, Replica.run_append, Outcome.andThen_effects, List.filterMap_append,
      ← hreplica, syncs]
    cases input.sync? with
    | none => rfl
    | some sync =>
      rw [Option.map_some, Option.toList_some, Replica.run_cons, Outcome.andThen_effects,
        Replica.run_nil, Outcome.stay_effects, List.append_nil]

theorem InStep.handle (h : InStep limits a) {now draw : Nat} {input : Input Nat}
    {tasks : List (Effect Nat)} (hsource : Source a input tasks) (hinput : input ≠ .cancel) :
    InStep limits (handle now draw input { a with tasks := tasks }) where
  history := h.history_handle now draw input tasks
  timer hgoing := (serves_step now draw input a.meeting).timer hinput (h.timer hgoing)
  fetching hgoing := by
    have htasks : (Activity.handle now draw input { a with tasks := tasks }).tasks =
        tasks ++ (a.meeting.step now draw input).effects.filter Effect.isWork := rfl
    have hflight := (serves_step now draw input a.meeting).flight h.wellFormed
    rw [htasks, List.filterMap_append, fetchKinds_filter_isWork,
      hsource.fetching (h.fetching hgoing)]
    exact hflight.symm

/-- Of a meeting that has stopped only the history matters. -/
theorem InStep.stop_handle (h : InStep limits a) (now draw : Nat) (input : Input Nat)
    (tasks : List (Effect Nat)) :
    InStep limits (Activity.handle now draw input { a with tasks := tasks }).stop where
  history := h.history_handle now draw input tasks
  timer hgoing := by cases hgoing
  fetching hgoing := by cases hgoing

theorem InStep.take (h : InStep limits a) {now draw : Nat} {input : Input Nat}
    {tasks : List (Effect Nat)} (hsource : Source a input tasks) (hinput : input ≠ .cancel) :
    InStep limits (take now draw input { a with tasks := tasks }) := by
  rw [Activity.take]
  split
  · exact h.stop_handle now draw input tasks
  · exact h.handle hsource hinput

/-- Without work that is no fetch the meeting stays in step. -/
theorem InStep.lose (h : InStep limits a) {i : Nat}
    (hkeeps : ((a.tasks[i]?).bind Effect.fetchKind?).isSome = false) :
    InStep limits { a with tasks := a.tasks.eraseIdx i } where
  history := h.history
  timer := h.timer
  fetching hgoing := by
    have hrest : (a.tasks.eraseIdx i).filterMap Effect.fetchKind? =
        a.tasks.filterMap Effect.fetchKind? := by
      cases htask : a.tasks[i]? with
      | none => rw [List.eraseIdx_of_length_le (List.getElem?_eq_none_iff.1 htask)]
      | some task =>
        rw [htask] at hkeeps
        exact filterMap_eraseIdx_of_none htask (Option.isNone_iff_eq_none.1 (by simpa using hkeeps))
    exact hrest.trans (h.fetching hgoing)

theorem InStep.step (h : InStep limits a) {o : Occurrence} (hkeeps : a.losesFetch o = false) :
    InStep limits (a.step o) := by
  rw [losesFetch] at hkeeps
  rw [Activity.step]
  split
  · exact h
  · cases hevent : o.event with
    | call request => exact h.take (.request request) (by cases request <;> simp [Request.input])
    | stallTimeout =>
      dsimp only
      split
      · exact h.take .timer (by simp)
      · exact h
    | report i report =>
      dsimp only
      split
      · rename_i input hreport
        obtain ⟨task, htask, hinput⟩ := Option.bind_eq_some_iff.1 hreport
        refine h.take (.report htask hinput) ?_
        rintro rfl
        cases task <;> cases report <;> cases hinput
      · exact h
    | crash i =>
      rw [hevent] at hkeeps
      exact h.lose hkeeps
    | cancel => exact h.stop_handle o.now o.draw .cancel a.tasks

theorem InStep.run (occurrences : List Occurrence) (h : InStep limits a)
    (hkeeps : KeepsFetches occurrences a) : InStep limits (a.run occurrences) := by
  induction occurrences generalizing a with
  | nil => exact h
  | cons o occurrences ih =>
    rw [run_cons]
    exact ih (h.step hkeeps.1) hkeeps.2

end InStep

/-- **A meeting carries out faithfully what its replica asks for.**  In every run in which no fetch
crashes, as long as the meeting has not stopped:

* the stall timer runs exactly if the replica believes that it does;
* of the work under way one is a fetch if the replica waits for one, which is of that kind, and none
  is otherwise;
* hence whatever comes of a fetch is what the replica waits for;
* the replica has taken what came in for it, in that order, and the meeting asked for what the
  replica asked for, in that order; in particular the copies published are those that the replica
  had published;
* the end of the meeting was asked for at most once. -/
theorem carries_out_faithfully (name : String) (limits : Locus.Limits) (ownsMedia : Bool)
    (occurrences : List Occurrence)
    (hkeeps : KeepsFetches occurrences (start name limits ownsMedia))
    (hgoing : ((start name limits ownsMedia).run occurrences).hasEnded = false) :
    let a := (start name limits ownsMedia).run occurrences
    (a.meeting.stallDeadline.isSome = true ↔ a.meeting.replica.stallTimerArmed = true) ∧
      a.tasks.filterMap Effect.fetchKind? = a.meeting.replica.syncInFlight.toList ∧
      (∀ (i : Nat) (task : Effect Nat) (report : Report) (kind : SyncKind)
        (result : Except TransportError (Option Snapshot)),
        a.tasks[i]? = some task → task.input? report = some (.syncCompleted kind result) →
          a.meeting.replica.Answers (.syncResult kind result)) ∧
      (∃ inputs : List (Nat × SyncInput),
        let o := Replica.run inputs { limits }
        inputs.map Prod.snd = a.past.filterMap Input.sync? ∧ a.meeting.replica = o.state ∧
          a.effects.filter Effect.isSync = o.effects.filterMap ofSyncEffect? ∧
          a.effects.filterMap Effect.copy? = SyncEffect.copies o.effects) ∧
      (a.effects.filterMap Effect.destroyReason?).length ≤ 1 := by
  intro a
  have hstep : InStep limits a := (inStep_start name limits ownsMedia).run occurrences hkeeps
  have hfetching := hstep.fetching hgoing
  obtain ⟨inputs, hinputs, hreplica, heffects⟩ := hstep.history
  refine ⟨by rw [hstep.timer hgoing], hfetching, ?_, ?_, ?_⟩
  · intro i task report kind result htask hinput
    rcases fetchKind?_of_input? hinput with ⟨kind', result', hkind, heq⟩ | ⟨-, hnone⟩
    · cases heq
      exact (filterMap_eraseIdx_of_some htask hkind hfetching).1
    · cases hnone
  · exact ⟨inputs, hinputs, hreplica, heffects, copies_of_filter heffects⟩
  · have hends : (SyncEffect.ends (Replica.run inputs { limits }).effects).length =
        (Replica.run inputs { limits }).state.destroyed.toNat :=
      Locus.Replica.count_ends_run inputs (Locus.Replica.wellFormed_new limits)
    rw [destroyReasons_of_filter heffects]
    exact hends ▸ Bool.toNat_le _

/-- A gap stays open until the timer fires, an offer is lost meanwhile, and the fetch of what
changed fails. -/
def stalled : List Occurrence :=
  [{ event := .call (.full { url := "u", sequence := .range 1 10, syncUrl := some "s" }) },
    { event := .call (.delta (.range 20 30)) },
    { event := .call (.sendOffer ["sdp"] 1) },
    { event := .crash 0 },
    { event := .stallTimeout, now := 2000 },
    { event := .report 0 (.fetched (.error .timeout)) }]

/-- After that the whole state is fetched, and the timer does not run. -/
theorem carries_out_faithfully_stalled :
    let a := (start "m" ⟨5, 2000, 1000⟩ true).run stalled
    KeepsFetches stalled (start "m" ⟨5, 2000, 1000⟩ true) ∧ a.hasEnded = false ∧
      a.tasks.filterMap Effect.fetchKind? = [.full] ∧ a.meeting.stallDeadline.isSome = false := by
  have hkeeps : KeepsFetches stalled (start "m" ⟨5, 2000, 1000⟩ true) :=
    ⟨rfl, rfl, rfl, rfl, rfl, rfl, trivial⟩
  have hgoing : ((start "m" ⟨5, 2000, 1000⟩ true).run stalled).hasEnded = false := rfl
  have hfull : ((start "m" ⟨5, 2000, 1000⟩ true).run stalled).meeting.replica.syncInFlight =
      some .full := by
    decide +kernel
  have hdisarmed : ((start "m" ⟨5, 2000, 1000⟩ true).run stalled).meeting.replica.stallTimerArmed =
      false := by
    decide +kernel
  obtain ⟨htimer, hfetching, -⟩ :=
    carries_out_faithfully "m" ⟨5, 2000, 1000⟩ true stalled hkeeps hgoing
  refine ⟨hkeeps, hgoing, ?_, ?_⟩
  · rw [hfetching, hfull]
    rfl
  · rw [Bool.eq_false_iff]
    intro harmed
    rw [htimer, hdisarmed] at harmed
    cases harmed

end Activity

end CallSignaling.Meeting
