import CallSignaling.Proofs.Scenario.Changes

/-!
# Moves of a scenario

Between two steps of a client a scenario does one job after the other.  A move is what the theorems
about its parts see as one event or less: a change, a use of relay discovery, a round of the desk, a
job that is taken from the agenda, a dispatcher that takes an entry, and what an actor does about an
input.

* `Scenario.Stage`: where the scenario is between two moves.
* `Scenario.Move`, `Scenario.Moves`: a move, and a number of them in turn.
* `Scenario.World.IsNew`, `Scenario.World.play`: how a scenario begins, and steps of clients in
  turn.

Whatever happens in a step is made of moves (`moves_run`), so what every move keeps holds of every
scenario (`play_induction`).
-/

namespace CallSignaling.Scenario

open Relation (ReflTransGen)

/-- The work that an effect asks for. -/
def Work.ofEffect? : Meeting.Effect Caller → Option Work
  | .buildAnswer seq offer => some (.build seq offer)
  | .applyAnswer seq answer => some (.apply seq answer)
  | .send message caller => some (.send message caller)
  | .fetch url kind => some (.fetch url kind)
  | .destroy reason => some (.destroy reason)
  | _ => none

/-- How an actor ends after an input that has led to effects, if it does. -/
def endingAfter? (input : Meeting.Input Caller) (effects : List (Meeting.Effect Caller)) :
    Option Ending :=
  match input with
  | .cancel => some .stopped
  | _ => if effects.any Meeting.Effect.isCrash then some .crashed else none

/-- Where a scenario is between two moves. -/
inductive Stage where
  | idle
  /-- A job was taken from the agenda and is to be done. -/
  | hand (job : Job)
  /-- The actor of a line has taken an input.  It has yet to give work out, and to end if it ends by
  the input. -/
  | acting (line : Nat) (owed : List Work) (ending : Option Ending)

/-- The jobs at hand. -/
def Stage.jobs : Stage → List Job
  | hand job => [job]
  | idle | acting _ _ _ => []

/-- What the relay discovery of a line does in one go. -/
inductive RelayMove (line : Nat) : World × Stage → World × Stage → Prop
  | discover {w : World} {g : Stage} (call : Nat) (reconnecting forced : Bool) :
      RelayMove line (w, g) (w.discover line call reconnecting forced, g)
  | generate {w : World} {g : Stage} (call : Nat) (forced : Bool) :
      RelayMove line (w, g) (w.generate line call forced, g)
  | handOver {w : World} {g : Stage} (call : Nat) (reply : Option Media.Response) :
      RelayMove line (w, g) (w.handOver line call reply, g)
  | push {w : World} {g : Stage} (message : Roap.Message) :
      RelayMove line (w, g) (w.pushRelay line message, g)
  | abort {w : World} {g : Stage} : RelayMove line (w, g) (w.abortRelay line, g)
  | expire {w : World} {g : Stage} (generation : Nat) (call : RelayCall) :
      RelayMove line (w, g) (w.expireRelay line generation call, g)
  | answered {w : World} (call : RelayCall) (stage : Turn.Stage)
      (result : Except TransportError Media.Response) :
      RelayMove line (w, .hand (.answered line (.relay call stage) result))
        (w.settleRelay line (some call) (·.onAnswer stage result), .idle)
  | completed {w : World} (generation : Nat) (call : RelayCall) (completion : Turn.Completion) :
      RelayMove line (w, .hand (.completed line generation call completion))
        (w.completeRelay line generation call completion, .idle)

/-- What the desk does in one go. -/
inductive DeskMove : World → World → Prop
  | run {w : World} : DeskMove w w.runDesk
  | view {w : World} (requester : Requester) (view : Except SignalingError Meeting.View) :
      DeskMove w (w.viewed requester view)
  | cancel {w : World} : DeskMove w w.cancelDesk

/-- One move. -/
inductive Move : World × Stage → World × Stage → Prop
  | change {w w' : World} {g : Stage} (h : Change (fun _ => False) False w w') : Move (w, g) (w', g)
  | relay {line : Nat} {p q : World × Stage} (h : RelayMove line p q) : Move p q
  | desk {w w' : World} (h : DeskMove w w') : Move (w, .idle) (w', .idle)
  /-- A job is taken from the agenda. -/
  | pop {w : World} {job : Job} {agenda : List Job} (h : w.agenda = job :: agenda) :
      Move (w, .idle) ({ w with agenda }, .hand job)
  /-- A job is done, or there is nothing left to do for it. -/
  | drop {w : World} (job : Job) : Move (w, .hand job) (w, .idle)
  | dispatch {w : World} (line : Nat) :
      Move (w, .hand (.dispatch line)) (w.dispatch line, .idle)
  /-- An actor takes its next input. -/
  | take {w : World} {line : Nat} {a a' : Actor} {input : Meeting.Input Caller}
      {metrics : List Metric} {o : Outcome Meeting (Meeting.Effect Caller)}
      (hactor : w.actor? line = some a) (hending : a.ending = none)
      (htake : a.takeInput? w.now = some (input, a', metrics))
      (ho : a'.meeting.step w.now w.environment.draw input = o) :
      Move (w, .idle)
        (w.modifyActor line fun _ => { a' with meeting := o.state },
          .acting line (o.effects.filterMap Work.ofEffect?) (endingAfter? input o.effects))
  | giveOut {w : World} {line : Nat} {work : Work} {owed : List Work} {ending : Option Ending} :
      Move (w, .acting line (work :: owed) ending)
        (w.giveOut line work, .acting line owed ending)
  | rest {w : World} {line : Nat} {owed : List Work} :
      Move (w, .acting line owed none) (w, .idle)
  /-- An actor ends, as it is to, or because it crashes in its environment. -/
  | finish {w : World} {line : Nat} {owed : List Work} {ends : Option Ending} {ending : Ending}
      (h : ending = .crashed ∨ ends = some ending) :
      Move (w, .acting line owed ends)
        (w.modifyActor line fun a =>
          { a with ending := some ending, mailbox := [], results := [] }, .idle)
  /-- There is no such actor. -/
  | gone {w : World} {line : Nat} {owed : List Work} {ends : Option Ending}
      (h : w.actor? line = none) : Move (w, .acting line owed ends) (w, .idle)

/-- Moves in turn. -/
def Moves : World × Stage → World × Stage → Prop := ReflTransGen Move

/-! ### Changes among the moves -/

theorem RelayMove.changes {books : Prop} {line : Nat} {p q : World × Stage}
    (h : RelayMove line p q) : Changes (Eq line) books p.1 q.1 := by
  cases h with
  | discover | handOver | push => exact World.changes_callRelay rfl _ _ _
  | abort | answered | completed => exact World.changes_settleRelay rfl _ _ _
  | generate call forced => exact World.changes_generate rfl call forced _
  | expire generation call => exact World.changes_expireRelay rfl generation call _

theorem DeskMove.changes {relays : Nat → Prop} {w w' : World} (h : DeskMove w w') :
    Changes relays True w w' := by
  cases h with
  | run => exact World.changes_runDesk trivial w
  | view requester view => exact World.changes_viewed trivial requester view w
  | cancel => exact World.changes_cancelDesk trivial w

/-- A use of relay discovery leaves the scenario where it is, or is all that there is to a job. -/
theorem RelayMove.stage {line : Nat} {p q : World × Stage} (h : RelayMove line p q) :
    q.2 = p.2 ∨ (∃ job, p.2 = .hand job) ∧ q.2 = .idle := by
  cases h with
  | discover | generate | handOver | push | abort | expire => exact .inl rfl
  | answered | completed => exact .inr ⟨⟨_, rfl⟩, rfl⟩

theorem RelayMove.jobs {line : Nat} {p q : World × Stage} (h : RelayMove line p q) :
    q.2.jobs = [] ∨ q.2.jobs = p.2.jobs :=
  h.stage.symm.imp (fun hg => congrArg Stage.jobs hg.2) (congrArg Stage.jobs)

/-- The settings of a scenario stay, and so does the kind of its negotiator. -/
theorem Move.settings {p q : World × Stage} (h : Move p q) :
    q.1.settings = p.1.settings ∧
      q.1.environment.negotiator.kind = p.1.environment.negotiator.kind := by
  cases h with
  | change h => exact World.settings_of_change h
  | relay h => exact World.settings_of_changes (@RelayMove.changes False _ _ _ h)
  | desk h => exact World.settings_of_changes (@DeskMove.changes (fun _ => False) _ _ h)
  | @dispatch w line =>
    have hwire := World.wireOnly_dispatch line w
    exact ⟨hwire.settings, congrArg (·.kind) hwire.negotiator⟩
  | _ => exact ⟨rfl, rfl⟩

namespace Moves

variable {p q r : World × Stage} {w w' : World} {g : Stage}

theorem refl (p : World × Stage) : Moves p p := ReflTransGen.refl

theorem trans (h₁ : Moves p q) (h₂ : Moves q r) : Moves p r := ReflTransGen.trans h₁ h₂

theorem one (h : Move p q) : Moves p q := ReflTransGen.single h

/-- Moves before others, of which the last ones say what they lead to. -/
theorem after (h₂ : Moves q r) (h₁ : Moves p q) : Moves p r := h₁.trans h₂

theorem changes (h : Changes (fun _ => False) False w w') : Moves (w, g) (w', g) := by
  induction h with
  | refl => exact refl _
  | tail _ hchange ih => exact ih.trans (one (.change hchange))

theorem relay {line : Nat} (h : RelayMove line p q) : Moves p q := one (.relay h)

end Moves

namespace World

/-! ### Actors -/

theorem moves_onMeetingEffect (line : Nat) (effect : Meeting.Effect Caller) (owed : List Work)
    (ending : Option Ending) (w : World) :
    Moves (w, .acting line ((Work.ofEffect? effect).toList ++ owed) ending)
      (w.onMeetingEffect line effect, .acting line owed ending) := by
  cases effect with
  | reply caller reply => exact .changes (changes_tell caller reply w)
  | turnResponse message => exact .relay (.push message)
  | buildAnswer seq offer => exact .one .giveOut
  | applyAnswer seq answer => exact .one .giveOut
  | send message caller => exact .one .giveOut
  | fetch url kind => exact .one .giveOut
  | destroy reason => exact .one .giveOut
  | announceFinished seq => exact .changes (changes_notice _ w)
  | publish copy => exact .changes (changes_notice _ w)
  | abortTurn => exact .relay .abort
  | dropTasks => exact .changes (changes_dropTasks line w)
  | crash caller => exact .changes (changes_tellClosed [caller] w)

theorem moves_endActor {line : Nat} {ends : Option Ending} {ending : Ending}
    (h : ending = .crashed ∨ ends = some ending) (owed : List Work) (w : World) :
    Moves (w, .acting line owed ends) (w.endActor line ending, .idle) := by
  unfold endActor
  split
  · rename_i hactor
    exact .one (.gone hactor)
  · exact .after (.changes (.after (changes_scheduleDesk _) (changes_tellClosed _ _)))
      (.one (.finish h))

/-- The effects of a meeting are carried out to the end, or the actor crashes. -/
theorem moves_carryOut (line : Nat) (effects : List (Meeting.Effect Caller))
    (ending : Option Ending) (w : World) :
    Moves (w, .acting line (effects.filterMap Work.ofEffect?) ending)
        (w.carryOut line effects, .idle) ∨
      effects.any Meeting.Effect.isCrash = false ∧
        Moves (w, .acting line (effects.filterMap Work.ofEffect?) ending)
          (w.carryOut line effects, .acting line [] ending) := by
  induction effects generalizing w with
  | nil => exact .inr ⟨rfl, .refl _⟩
  | cons effect rest ih =>
    have howed : (effect :: rest).filterMap Work.ofEffect? =
        (Work.ofEffect? effect).toList ++ rest.filterMap Work.ofEffect? := by
      rw [List.filterMap_cons]
      cases Work.ofEffect? effect <;> rfl
    have hfirst := moves_onMeetingEffect line effect (rest.filterMap Work.ofEffect?) ending w
    rw [howed]
    simp only [carryOut]
    cases hcrash : w.crashesOn line effect with
    | true =>
      refine .inl (.after (moves_endActor (.inl rfl) _ _) (.after (.changes ?_) hfirst))
      exact .after (changes_tellClosed _ _) (changes_dropTasks line _)
    | false =>
      have hquiet : effect.isCrash = false := (Bool.or_eq_false_iff.1 hcrash).1
      rcases ih (w.onMeetingEffect line effect) with h | ⟨hrest, h⟩
      · exact .inl (hfirst.trans h)
      · exact .inr ⟨by rw [List.any_cons, hquiet, hrest]; rfl, hfirst.trans h⟩

/-- The effects of the input that stops an actor do not crash it. -/
theorem moves_carryOut_cancel (line : Nat) (owed : List Work) (ending : Option Ending) (w : World) :
    Moves (w, .acting line owed ending)
      (w.carryOut line [.abortTurn, .dropTasks], .acting line owed ending) := by
  have hcarry : w.carryOut line [.abortTurn, .dropTasks] = (w.abortRelay line).dropTasks line := rfl
  rw [hcarry]
  exact .after (.changes (changes_dropTasks line _)) (.relay .abort)

theorem moves_runActor (line : Nat) (w : World) :
    Moves (w, .idle) (w.runActor line, .idle) := by
  unfold runActor
  split
  · exact .refl _
  · rename_i a hactor
    split
    · exact .refl _
    · rename_i hending
      have hending : a.ending = none := by simpa using hending
      split
      · have hrests : w.Aside { w with rests := w.rests + 1 } :=
          ⟨rfl, rfl, rfl, rfl, rfl, .refl _, List.prefix_rfl⟩
        exact .changes (.after (.one (.shift line fun _ => ⟨rfl, rfl, rfl, rfl, rfl⟩))
          (.aside hrests))
      · rename_i input a' metrics htake
        have hmeasure : ∀ o : Outcome Meeting (Meeting.Effect Caller), ∀ v g,
            Moves (v, g) (v.measure (metrics ++ o.metrics), g) :=
          fun o v g => .changes (changes_measure _ v)
        simp only
        split
        · exact .after (.after (moves_endActor (.inr rfl) _ _) (moves_carryOut_cancel line _ _ _))
            ((Moves.one (.take hactor hending htake rfl)).trans (hmeasure _ _ _))
        · rename_i hcancel
          generalize ho : a'.meeting.step w.now w.environment.draw input = o
          have htaken := (Moves.one (.take hactor hending htake ho)).trans (hmeasure o _ _)
          refine .after (.changes (changes_next rfl _)) ?_
          rcases moves_carryOut line o.effects (endingAfter? input o.effects) _ with h | ⟨hquiet, h⟩
          · exact htaken.trans h
          · have hnone : endingAfter? input o.effects = none := by
              unfold endingAfter?
              split
              · exact absurd rfl hcancel
              · rw [hquiet, if_neg Bool.false_ne_true]
            rw [hnone] at htaken h
            exact (htaken.trans h).trans (.one .rest)

/-! ### Jobs and steps -/

theorem moves_perform (job : Job) (w : World) :
    Moves (w, .hand job) (w.perform job, .idle) := by
  have hdrop : ∀ {v : World}, Changes (fun _ => False) False w v →
    Moves (w, .hand job) (v, .idle) :=
    fun h => .after (.changes h) (.one (.drop job))
  cases job with
  | dispatch line => exact .one (.dispatch line)
  | depart line => exact hdrop (.one (.depart line))
  | answered line waiter result =>
    cases waiter with
    | call call => exact hdrop (changes_conclude _ _ w)
    | mute call => exact hdrop (changes_conclude _ _ w)
    | relay call stage => exact .relay (.answered call stage result)
    | task id => exact hdrop (changes_answerTask id result w)
  | completed line generation call completion =>
    exact .relay (.completed generation call completion)
  | expired line generation call =>
    exact .after (.one (.drop _)) (.relay (.expire generation call))
  | begin id => exact hdrop (changes_beginTask id w)
  | resume task => exact hdrop (changes_resumeTask task w)
  | actor line => exact .after (moves_runActor line w) (.one (.drop _))
  | forward line call action => exact hdrop (changes_post line (.call call) (.submit action) w)
  | viewed requester view => exact .after (.one (.desk (.view requester view))) (.one (.drop _))
  | desk => exact .after (.one (.desk .run)) (.one (.drop _))

theorem moves_settleWithin (fuel : Nat) (w : World) :
    Moves (w, .idle) (w.settleWithin fuel, .idle) := by
  induction fuel generalizing w with
  | zero => exact .refl _
  | succ fuel ih =>
    rw [settleWithin]
    split
    · exact .refl _
    · rename_i job agenda hagenda
      exact ((Moves.one (.pop hagenda)).trans (moves_perform job _)).trans (ih _)

theorem moves_callMeeting (line call : Nat) (c : MeetingCall) (w : World) :
    Moves (w, .idle) (w.callMeeting line call c, .idle) := by
  cases c with
  | send request => exact .changes (.one (.submit line request nofun))
  | mute audio video => exact .changes (.one (.submit line _ nofun))
  | discover reconnecting forced => exact .relay (.discover call reconnecting forced)
  | generate forced => exact .relay (.generate call forced)
  | handOver reply => exact .relay (.handOver call reply)
  | push message =>
    exact .after (.changes (changes_conclude _ _ _)) (.relay (.push message))
  | abort => exact .after (.changes (changes_conclude _ _ _)) (.relay .abort)
  | isSkipped => exact .changes (changes_conclude _ _ w)
  | submit action => exact .changes (changes_post line _ (.submit action) w)
  | offer sdps tieBreaker => exact .changes (changes_post line _ (.sendOffer sdps tieBreaker) w)
  | roap message => exact .changes (changes_post line _ (.sendRoap message) w)
  | delta d => exact .changes (changes_post line _ (.delta d) w)
  | full snapshot => exact .changes (changes_post line _ (.full snapshot) w)
  | isBusy => exact .changes (changes_post line _ .view w)
  | view => exact .changes (changes_post line _ .view w)
  | cancel => exact .changes (.after (changes_conclude _ _ _) (changes_cancelActor line w))

theorem moves_callDesk (call : Nat) (c : DeskCall) (w : World) :
    Moves (w, .idle) (w.callDesk call c, .idle) := by
  cases c with
  | cancel => exact .after (.changes (changes_conclude _ _ _)) (.one (.desk .cancel))
  | forget name =>
    exact .changes (.after (changes_conclude _ _ _)
      (.one (.mark fun _ => ⟨rfl, rfl, rfl, rfl, rfl⟩)))
  | create | find | summarize | remove | route | status | shutdown =>
    exact .changes (changes_postDesk _ w)

theorem moves_begin (call : Nat) (step : Step) (w : World) :
    Moves (w, .idle) (w.begin call step, .idle) := by
  cases step with
  | advance ms => exact .changes (.after (changes_conclude _ _ _) (changes_advance ms w))
  | releaseServer n => exact .changes (.after (changes_conclude _ _ _) (changes_releaseServer n w))
  | releaseNegotiator n =>
    exact .changes (.after (changes_conclude _ _ _) (changes_releaseNegotiator n w))
  | releaseArchive n =>
    exact .changes (.after (changes_conclude _ _ _) (changes_releaseArchive n w))
  | script result => exact .changes (.after (changes_conclude _ _ _) (changes_environment rfl))
  | setReachable value =>
    exact .changes (.after (changes_conclude _ _ _) (changes_environment rfl))
  | meeting name c =>
    rw [begin]
    split
    · exact moves_callMeeting _ call c w
    · exact .changes (changes_conclude _ _ w)
  | desk c => exact moves_callDesk call c w

/-- The world without what came of earlier steps. -/
def cleared (w : World) : World := { w with events := [], answers := [] }

/-- **A step of a client is made of moves.** -/
theorem moves_run (call : Nat) (step : Step) (w : World) :
    Moves (w.cleared, .idle) (w.run call step, .idle) :=
  (moves_begin call step _).trans (moves_settleWithin _ _)

/-- How a scenario begins: with a way to the server, with a meeting, or with a switchboard. -/
inductive IsNew : World → Prop
  | line (environment : Environment) (settings : Settings) (name : String) :
      IsNew (openLine name none { environment, settings })
  | meeting (environment : Environment) (settings : Settings) (name : String) :
      IsNew (startMeeting name { environment, settings })
  | desk (environment : Environment) (settings : Settings) :
      IsNew { environment, settings, desk := some {} }

/-- Steps of clients in turn, each with the number of its call. -/
def play (steps : List (Nat × Step)) (w : World) : World :=
  steps.foldl (fun w s => w.run s.1 s.2) w

/-- What every move keeps, and the world when it is cleared, holds of every scenario. -/
theorem play_induction {P : World × Stage → Prop}
    (hmove : ∀ p q, Move p q → P p → P q) (hclear : ∀ w, P (w, .idle) → P (w.cleared, .idle))
    (steps : List (Nat × Step)) {w : World} (h : P (w, .idle)) : P (w.play steps, .idle) := by
  induction steps generalizing w with
  | nil => exact h
  | cons s steps ih =>
    refine ih (w := w.run s.1 s.2) ?_
    have hmoves := moves_run s.1 s.2 w
    generalize (w.run s.1 s.2, Stage.idle) = q at hmoves ⊢
    induction hmoves with
    | refl => exact hclear w h
    | tail _ hm ihm => exact hmove _ _ hm ihm

theorem settings_play (steps : List (Nat × Step)) (w : World) :
    (w.play steps).settings = w.settings ∧
      (w.play steps).environment.negotiator.kind = w.environment.negotiator.kind :=
  play_induction (P := fun p => p.1.settings = w.settings ∧
      p.1.environment.negotiator.kind = w.environment.negotiator.kind)
    (fun _ _ hmove hp => ⟨hmove.settings.1.trans hp.1, hmove.settings.2.trans hp.2⟩)
    (fun _ h => h) steps ⟨rfl, rfl⟩

end World

end CallSignaling.Scenario
