import CallSignaling.Proofs.Meeting.Offering
import CallSignaling.Proofs.Roap.Progress

/-!
# Local offers that could not be sent

Nobody answers an offer that was not sent, so its exchange is removed if an answer is awaited in it.
Which offer the answer is awaited to is not looked at.

* `Meeting.Activity.since`: the actions on the dialog between two points of a run.
* `Meeting.Activity.Opened`, `Meeting.Activity.Found`, `Meeting.Activity.Replaced`: how an exchange
  that is there came about, seen from the request for a local offer.

Main statement: if the exchange is removed, it was opened by the offer, or it was there before, or
it was removed in between and opened again by another own offer (`failed_offer_removes`).
-/

namespace CallSignaling.Meeting

open Roap (Message)

/-- An offer that could not be sent has its exchange removed if an answer is awaited there. -/
theorem exchange?_sent_error {κ : Type} (m : Meeting) {offer : Message}
    (hkind : offer.kind = .offer) (e : TransportError) (caller : Option κ) (other : UInt64) :
    (m.converses (.sent offer (.error e) caller)).state.exchange? other =
      if other = offer.seq ∧ m.dialog.phase? offer.seq = some .awaitsAnswer then none
      else m.dialog.exchange? other := by
  have haction : m.action? (.sent offer (.error e) caller) =
      if m.dialog.phase? offer.seq = some .awaitsAnswer then some (.reset offer.seq) else none := by
    simp [action?, hkind]
  by_cases hawaits : m.dialog.phase? offer.seq = some .awaitsAnswer
  · rw [if_pos hawaits] at haction
    rw [converses_of_some haction, (Roap.Dialog.submit_of_none rfl m.ownsMedia).2]
    exact if_congr (and_iff_left hawaits).symm rfl rfl
  · rw [if_neg hawaits] at haction
    rw [converses_of_none haction]
    simp [hawaits]

namespace Activity

/-- The actions on the dialog from `a` on, where `b` comes later in the run. -/
def since (a b : Activity) : List (Roap.Action × Bool) := b.actions.drop a.actions.length

section

variable (a b : Activity) (seq : UInt64)

/-- The exchange was not there at `a`, and it has not been removed since. -/
def Opened : Prop :=
  a.meeting.dialog.exchange? seq = none ∧ ∀ step ∈ a.since b, ¬ step.1.Drops seq

/-- The exchange owed an answer at `a` or was at rest, and it has not been removed since. -/
def Found : Prop :=
  (a.meeting.dialog.phase? seq = some .owesAnswer ∨ a.meeting.dialog.phase? seq = some .idle) ∧
    ∀ step ∈ a.since b, ¬ step.1.Drops seq

/-- The exchange was removed after `a`, and then the own side offered in it again. -/
def Replaced : Prop :=
  ∃ earlier dropping later, a.since b = earlier ++ dropping :: later ∧ dropping.1.Drops seq ∧
    (∀ step ∈ later, ¬ step.1.Drops seq) ∧
    ∃ offer ownsMedia, (.send offer, ownsMedia) ∈ later ∧ offer.kind = .offer ∧ offer.seq = seq

end

section Sending

variable {name : String} {ownsMedia : Bool} {a : Activity}

/-- A local offer that is under way was accepted when it was asked for, and recorded first. -/
theorem of_sending (h : Faithful name ownsMedia a) {o : Occurrence} {between : List Occurrence}
    {sdps : List String} {tieBreaker : UInt32} (ho : o.event = .call (.sendOffer sdps tieBreaker))
    (htraced : (a.run (o :: between)).Traced) {message : Message}
    (hsending : .send message (some a.past.length) ∈ (a.run (o :: between)).tasks) :
    message = .offer (a.meeting.lastSeq + 1) sdps tieBreaker ∧
      ∃ later,
        (a.run (o :: between)).actions = a.actions ++ (.send message, ownsMedia) :: later := by
  obtain ⟨input, hinput, -, hmessage⟩ := htraced.tasks message _ hsending
  by_cases hended : a.hasEnded = true
  · rw [run_of_hasEnded hended] at hinput
    simp at hinput
  have hstep : a.step o = a.take o.now o.draw (.sendOffer sdps tieBreaker a.past.length) := by
    rw [step, if_neg hended, ho]
    rfl
  obtain ⟨⟨inputs, hpast⟩, later, hactions⟩ := history_run (a.step o) between
  rw [← run_cons, hstep] at hpast hactions
  have hpast' : (a.run (o :: between)).past =
      a.past ++ .sendOffer sdps tieBreaker a.past.length :: inputs := by
    rw [← hpast, (history_take ..).1, List.append_assoc, List.singleton_append]
  rw [hpast', List.getElem?_append_right le_rfl, Nat.sub_self, List.getElem?_cons_zero,
    Option.some.injEq] at hinput
  rw [hpast', List.take_left, ← h.counter, ← hinput] at hmessage
  obtain ⟨seq, hnumber, rfl⟩ := Option.map_eq_some_iff.1 hmessage
  obtain ⟨-, -, rfl⟩ := Counter.offerNumber?_eq_some_iff.1 hnumber
  refine ⟨rfl, later, ?_⟩
  rw [← hactions, (history_take ..).2, action?_sendOffer hnumber, h.ownsMedia, List.append_assoc]
  rfl

/-- What was found was there, and what was replaced has been removed. -/
theorem not_opened_of_found_or_replaced {b : Activity} {seq : UInt64}
    (h : Found a b seq ∨ Replaced a b seq) : ¬ Opened a b seq := by
  rintro ⟨hnone, hkept⟩
  rcases h with ⟨hphase, -⟩ | ⟨earlier, dropping, later, hsince, hdrops, -⟩
  · simp [Roap.Dialog.phase?, hnone] at hphase
  · exact hkept dropping (by simp [hsince]) hdrops

/-- An exchange that awaits an answer some time after an own offer was opened by that, found, or
replaced since. -/
theorem found_or_replaced {b : Activity} (h : Faithful name ownsMedia a) {offer : Message}
    (hkind : offer.kind = .offer) {later : List (Roap.Action × Bool)}
    (hsince : a.since b = (.send offer, ownsMedia) :: later)
    (hdialog : b.meeting.dialog = (Roap.Dialog.run (a.since b) a.meeting.dialog).state)
    (hawaits : b.meeting.dialog.phase? offer.seq = some .awaitsAnswer)
    (hopened : ¬ Opened a b offer.seq) : Found a b offer.seq ∨ Replaced a b offer.seq := by
  rw [hdialog] at hawaits
  by_cases hdrops : ∃ step ∈ a.since b, step.1.Drops offer.seq
  · obtain ⟨earlier, dropping, rest, heq, hdropping, hkept⟩ := Roap.Dialog.exists_last_drop hdrops
    refine .inr ⟨earlier, dropping, rest, heq, hdropping, hkept, ?_⟩
    rw [heq, Roap.Dialog.run_append, Outcome.andThen_state, Roap.Dialog.run_cons,
      Outcome.andThen_state] at hawaits
    refine Roap.Dialog.exists_own_offer rest ?_ hawaits
    rw [Roap.Dialog.phase?, Roap.Dialog.exchange?_of_drops hdropping]
    simp
  · have hkept : ∀ step ∈ a.since b, ¬ step.1.Drops offer.seq :=
      fun step hmem hstep => hdrops ⟨step, hmem, hstep⟩
    have hthere : a.meeting.dialog.exchange? offer.seq ≠ none :=
      fun hnone => hopened ⟨hnone, hkept⟩
    refine .inl ⟨?_, hkept⟩
    rw [hsince] at hawaits hkept
    exact Roap.Dialog.phase?_of_awaitsAnswer h.coherent hkind hthere
      (List.forall_mem_cons.1 hkept).2 hawaits

end Sending

/-- **When a local offer could not be sent, its exchange is removed if an answer is awaited in it.**
Nothing else changes, and the highest number acknowledged stays.  Unless the exchange was opened by
this offer, it either was there when the offer was asked for, owing an answer or at rest, or it has
been removed since and opened again by another own offer. -/
theorem failed_offer_removes (name : String) (limits : Locus.Limits) (ownsMedia : Bool)
    (before between : List Occurrence) (sdps : List String) (tieBreaker : UInt32) (now draw : Nat)
    (message : Message) :
    let a := (start name limits ownsMedia).run before
    let b := a.run ({ event := .call (.sendOffer sdps tieBreaker), now, draw } :: between)
    let seq := a.meeting.lastSeq + 1
    .send message (some a.past.length) ∈ b.tasks →
      message = .offer seq sdps tieBreaker ∧
        (∀ now draw e,
          let after := (b.meeting.step now draw
            (.sent message (.error e) (some a.past.length))).state
          after.lastSeq = b.meeting.lastSeq ∧
            ∀ other, after.dialog.exchange? other =
              if other = seq ∧ b.meeting.dialog.phase? seq = some .awaitsAnswer then none
              else b.meeting.dialog.exchange? other) ∧
        (b.meeting.dialog.phase? seq = some .awaitsAnswer →
          (¬ Opened a b seq ↔ Found a b seq ∨ Replaced a b seq)) := by
  intro a b seq hsending
  have hfaithful : Faithful name ownsMedia a :=
    faithful_run (faithful_start name limits ownsMedia) before
  have hlater : Faithful name ownsMedia b := faithful_run hfaithful _
  have htraced : b.Traced := by
    have h := traced_run name limits ownsMedia
      (before ++ { event := .call (.sendOffer sdps tieBreaker), now, draw } :: between)
    rwa [run_append] at h
  obtain ⟨rfl, later, hactions⟩ := of_sending hfaithful rfl htraced hsending
  have hsince : a.since b = (.send (.offer seq sdps tieBreaker), ownsMedia) :: later := by
    rw [since, hactions, List.drop_left]
  have hdialog : b.meeting.dialog = (Roap.Dialog.run (a.since b) a.meeting.dialog).state := by
    rw [hlater.dialog, hactions, Roap.Dialog.run_append, ← hsince, Outcome.andThen_state,
      ← hfaithful.dialog]
  refine ⟨rfl, fun now draw e => ⟨?_, fun other => ?_⟩, fun hawaits => ⟨?_, ?_⟩⟩
  · exact congrArg Counter.lastSeq (counter_step (m := b.meeting))
  · rw [dialog_step]
    exact exchange?_sent_error b.meeting rfl e _ other
  · exact found_or_replaced hfaithful rfl hsince hdialog hawaits
  · exact not_opened_of_found_or_replaced

/-- A local offer is asked for. -/
def offering (sdp : String) (tieBreaker : UInt32) : Occurrence :=
  { event := .call (.sendOffer [sdp] tieBreaker) }

/-- The meeting when a first local offer has been sent. -/
def firstSent : Activity :=
  (start "m" ⟨5, 2000, 1000⟩ true).run
    [offering "first" 1, { event := .report 0 (.sent (.ok default)) }]

/-- The meeting when a second local offer is under way. -/
def secondUnderWay : Activity := firstSent.run [offering "second" 2]

/-- The second offer could not be sent, and the exchange that it opened is removed. -/
theorem failed_offer_removes_second :
    let after := (secondUnderWay.meeting.step 0 0
      (.sent (.offer 2 ["second"] 2) (.error .timeout) (some firstSent.past.length))).state
    .send (.offer 2 ["second"] 2) (some firstSent.past.length) ∈ secondUnderWay.tasks ∧
      Opened firstSent secondUnderWay 2 ∧ after.dialog.exchange? 2 = none ∧
      after.dialog.exchange? 1 = secondUnderWay.meeting.dialog.exchange? 1 := by
  have htasks : secondUnderWay.tasks = [.send (.offer 2 ["second"] 2) (some 2)] := rfl
  have hsince : firstSent.since secondUnderWay = [(.send (.offer 2 ["second"] 2), true)] := rfl
  have hnone : firstSent.meeting.dialog.exchange? 2 = none := by decide +kernel
  have hawaits : secondUnderWay.meeting.dialog.phase? 2 = some .awaitsAnswer := by decide +kernel
  have hsending : .send (.offer 2 ["second"] 2) (some firstSent.past.length) ∈
      secondUnderWay.tasks := by
    rw [htasks]
    exact List.mem_singleton_self _
  have hafter := ((failed_offer_removes "m" ⟨5, 2000, 1000⟩ true
    [offering "first" 1, { event := .report 0 (.sent (.ok default)) }] [] ["second"] 2 0 0 _
    hsending).2.1 0 0 .timeout).2
  refine ⟨hsending, ⟨hnone, ?_⟩, ?_, ?_⟩
  · rw [hsince]
    exact List.forall_mem_singleton.2 id
  · exact (hafter 2).trans (if_pos ⟨rfl, hawaits⟩)
  · exact (hafter 1).trans (if_neg fun h => absurd h.1 (by decide))

/-- The meeting when the peer has offered and waits for the answer. -/
def peerWaits : Activity :=
  (start "m" ⟨5, 2000, 1000⟩ true).run
    [{ event := .call (.submit (.receive (.offer 1 ["peer"] 9))) }]

/-- The meeting when a local offer is under way that is to stay instead of the peer's. -/
def ownStays : Activity := peerWaits.run [offering "own" 1]

/-- The meeting when the call was left after the second local offer, and a third one is under
way. -/
def thirdUnderWay : Activity :=
  firstSent.run [offering "second" 2, { event := .call (.submit .callLeave) }, offering "third" 3]

/-- The work at the place `i` was a message, and that could not be sent. -/
def unsent (i : Nat) : Occurrence := { event := .report i (.sent (.error .timeout)) }

/-- A local offer that was to stay instead of the peer's could not be sent, and the exchange is
removed in which the peer waits for an answer.  An offer from before the call was left could not be
sent, and the exchange is removed that the next one opened, which is still under way. -/
theorem failed_offer_removes_others :
    (peerWaits.meeting.dialog.phase? 1 = some .owesAnswer ∧ ¬ Opened peerWaits ownStays 1 ∧
      ownStays.tasks = [.buildAnswer 1 (.offer 1 ["peer"] 9), .send (.offer 1 ["own"] 1) (some 1)] ∧
      (ownStays.step (unsent 1)).meeting.dialog.exchange? 1 = none) ∧
    thirdUnderWay.meeting.dialog.offer? 2 = some (.offer 2 ["third"] 3) ∧
      ¬ Opened firstSent thirdUnderWay 2 ∧
      thirdUnderWay.tasks =
        [.send (.offer 2 ["second"] 2) (some 2), .send (.offer 2 ["third"] 3) (some 4)] ∧
      (thirdUnderWay.step (unsent 0)).meeting.dialog.exchange? 2 = none := by
  have howes : peerWaits.meeting.dialog.phase? 1 = some .owesAnswer := by decide +kernel
  have hgone : (ownStays.step (unsent 1)).meeting.dialog.exchange? 1 = none := by decide +kernel
  have hoffer : thirdUnderWay.meeting.dialog.offer? 2 = some (.offer 2 ["third"] 3) := by
    decide +kernel
  have hgone' : (thirdUnderWay.step (unsent 0)).meeting.dialog.exchange? 2 = none := by
    decide +kernel
  have hsince : firstSent.since thirdUnderWay =
      [(.send (.offer 2 ["second"] 2), true), (.callLeave, true),
        (.send (.offer 2 ["third"] 3), true)] := rfl
  refine ⟨⟨howes, ?_, rfl, hgone⟩, hoffer, ?_, rfl, hgone'⟩
  · exact not_opened_of_found_or_replaced (.inl ⟨.inl howes, by decide⟩)
  · rintro ⟨-, hkept⟩
    rw [hsince] at hkept
    exact hkept (.callLeave, true) (by simp) trivial

end Activity

end CallSignaling.Meeting
