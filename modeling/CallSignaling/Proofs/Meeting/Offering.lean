import CallSignaling.Proofs.Meeting.Numbering
import CallSignaling.Proofs.Roap.Offers

/-!
# Where a local offer lands

A local offer gets the number after the highest one acknowledged, whatever exchanges there are.  An
exchange with this number that is at rest is opened again, and one that is under way fails unless it
owes an answer.  Both happen only after the exchange was disturbed: by an own message, which then
was not acknowledged, or by a message of the peer that came out of turn (`sendOffer_lands`).

* `Meeting.Activity.Disturbed`: whether an exchange was disturbed and has been there since.
-/

namespace CallSignaling.Meeting

open Roap (Message)

namespace Activity

/-- An action on the dialog brought the exchange `seq` a message other than the offer by which the
peer opens it, and the exchange has not been removed since. -/
def Disturbed (name : String) (a : Activity) (seq : UInt64) : Prop :=
  ∃ earlier action later, a.actions = earlier ++ action :: later ∧
    (Roap.Dialog.run earlier { meeting := name }).state.Disturbs seq action.1 ∧
    ∀ action' ∈ later, ¬ action'.1.Drops seq

theorem owesAtMost_or_disturbed {name : String} {ownsMedia : Bool} {a : Activity}
    (h : Faithful name ownsMedia a) (seq : UInt64) :
    a.meeting.dialog.OwesAtMost seq ∨ a.Disturbed name seq := by
  obtain ⟨earlier, life, hactions, hlife⟩ := Roap.Dialog.exists_life name seq a.actions
  by_cases howes : a.meeting.dialog.OwesAtMost seq
  · exact .inl howes
  · rw [h.dialog, hactions] at howes
    obtain ⟨before, action, after, rfl, hdisturbs⟩ := Roap.Dialog.exists_disturbs hlife howes
    refine .inr ⟨earlier ++ before, action, after, ?_, hdisturbs, ?_⟩
    · rw [hactions, List.append_assoc]
    · exact fun action' hmem => hlife.kept action' (by simp [hmem])

/-- What was acknowledged so far has no higher number than the highest. -/
theorem not_acknowledges {name : String} {ownsMedia : Bool} {a : Activity}
    (h : Faithful name ownsMedia a) (hlast : a.meeting.lastSeq.toNat + 1 < UInt64.size)
    {input : Input Nat} (hmem : input ∈ a.past) : ¬ input.Acknowledges (a.meeting.lastSeq + 1) := by
  intro hacknowledges
  have hle : a.meeting.lastSeq + 1 ≤ a.meeting.counter.lastSeq := by
    rw [h.counter]
    exact Counter.le_lastSeq_afterAll_iff.2 (.inr ⟨input, hmem, hacknowledges⟩)
  have hnat := UInt64.le_iff_toNat_le.1 hle
  rw [toNat_add_one hlast] at hnat
  exact absurd hnat (Nat.not_succ_le_self _)

/-- A local offer is an offer of the own side for the exchange with its number. -/
theorem follows_sendOffer {m : Meeting} {seq : UInt64} (h : m.counter.offerNumber? = some seq)
    (sdps : List String) (tieBreaker : UInt32) (caller : Nat) :
    Roap.Dialog.Follows m.dialog seq
      (m.converses (.sendOffer sdps tieBreaker caller : Input Nat))
      (((m.dialog.exchange? seq).getD {}).take (.offer seq sdps tieBreaker) .own (.sent .offer)
        m.ownsMedia) := by
  have hsignal : Roap.Signal.ofMessage? (Message.offer seq sdps tieBreaker).kind .own =
      some (.sent .offer) := rfl
  rw [converses_of_some (action?_sendOffer h)]
  exact Roap.Dialog.follows_execute m.dialog hsignal m.ownsMedia

/-- When a local offer is accepted, and numbers have not run out, no message with its number or a
higher one has been acknowledged.  The exchange with its number is not there or owes an answer,
unless it was disturbed.  The offer leaves all other exchanges alone, and it fails its own exactly
if that is under way and does not owe an answer. -/
theorem sendOffer_lands (name : String) (limits : Locus.Limits) (ownsMedia : Bool)
    (occurrences : List Occurrence) :
    let a := (start name limits ownsMedia).run occurrences
    let dialog := a.meeting.dialog
    let seq := a.meeting.lastSeq + 1
    a.meeting.offerInFlight = none → a.meeting.lastSeq.toNat + 1 < UInt64.size →
      (∀ input ∈ a.past, ¬ input.Acknowledges seq) ∧
        (dialog.exchange? seq = none ∨ dialog.phase? seq = some .owesAnswer ∨
          a.Disturbed name seq) ∧
        ∀ now draw sdps tieBreaker caller,
          let after := (a.meeting.step now draw
            (.sendOffer sdps tieBreaker caller : Input Nat)).state.dialog
          (∀ other, other ≠ seq → after.exchange? other = dialog.exchange? other) ∧
            ∃ phase, after.phase? seq = some phase ∧
              Roap.Exchange.OfferLeads ((dialog.phase? seq).getD .idle) phase := by
  intro a dialog seq hfree hlast
  have hfaithful : Faithful name ownsMedia a :=
    faithful_run (faithful_start name limits ownsMedia) occurrences
  refine ⟨fun input => not_acknowledges hfaithful hlast, ?_, ?_⟩
  · exact or_assoc.1 (owesAtMost_or_disturbed hfaithful seq)
  · intro now draw sdps tieBreaker caller after
    have hnumber : a.meeting.counter.offerNumber? = some seq :=
      Counter.offerNumber?_eq_some_iff.2 ⟨hfree, hlast, rfl⟩
    have hfollows := follows_sendOffer hnumber sdps tieBreaker caller
    have hafter : after = (a.meeting.converses (.sendOffer sdps tieBreaker caller)).state :=
      dialog_step
    rw [hafter]
    refine ⟨fun other hother => by rw [hfollows.exchange, if_neg hother], ?_⟩
    have hkind : (Message.offer seq sdps tieBreaker).kind = .offer := rfl
    have hoffered := Roap.Exchange.offered_of_coherent (hfaithful.coherent.getD seq)
    have hleads := Roap.Exchange.take_own_offer hoffered hkind a.meeting.ownsMedia
    have hbefore : (dialog.phase? seq).getD .idle = ((dialog.exchange? seq).getD {}).phase := by
      rw [Roap.Dialog.phase?]
      cases dialog.exchange? seq <;> rfl
    rw [hbefore]
    exact ⟨_, congrArg (Option.map _) hfollows.exchange_self, hleads⟩

/-- The peer opens the exchange 1 and waits for the answer. -/
def peerOffered : List Occurrence := [{ event := .call (.submit (.receive (.offer 1 ["peer"] 5))) }]

/-- An own offer with the larger tie breaker gives way to the peer's, to which an answer is still
owed. -/
theorem sendOffer_lands_peerOffered :
    let a := (start "m" ⟨5, 2000, 1000⟩ true).run peerOffered
    let after := (a.meeting.step 0 0 (.sendOffer ["own"] 9 1 : Input Nat)).state.dialog
    a.meeting.offerInFlight = none ∧ a.meeting.lastSeq.toNat + 1 < UInt64.size ∧
      a.meeting.dialog.phase? 1 = some .owesAnswer ∧
      ∃ phase, after.phase? 1 = some phase ∧ Roap.Exchange.OfferLeads .owesAnswer phase := by
  intro a after
  have hfree : a.meeting.offerInFlight = none := rfl
  have hlast : a.meeting.lastSeq.toNat + 1 < UInt64.size := by decide
  have howes : a.meeting.dialog.phase? 1 = some .owesAnswer := by decide
  refine ⟨hfree, hlast, howes, ?_⟩
  exact ((sendOffer_lands "m" ⟨5, 2000, 1000⟩ true peerOffered hfree hlast).2.2 0 0 ["own"] 9 1).2

/-- The peer opens the exchange 1, and the answer to it is under way. -/
def answerUnderWay : List Occurrence :=
  [{ event := .call (.submit (.receive (.offer 1 ["peer"] 5))) },
    { event := .report 0 (.built (.ok ["answer"])) }]

/-- A local offer gets the number 1 as well and fails the exchange. -/
theorem answerUnderWay_failed :
    let a := (start "m" ⟨5, 2000, 1000⟩ true).run answerUnderWay
    let o := a.meeting.step 0 0 (.sendOffer ["own"] 9 2 : Input Nat)
    a.meeting.offerInFlight = none ∧ a.meeting.lastSeq = 0 ∧
      a.meeting.dialog.phase? 1 = some .awaitsOk ∧
      o.effects = [.send (.offer 1 ["own"] 9) (some 2)] ∧
      o.state.dialog.phase? 1 = some .failed :=
  ⟨rfl, rfl, rfl, rfl, rfl⟩

end Activity

end CallSignaling.Meeting
