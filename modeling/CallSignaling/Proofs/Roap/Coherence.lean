import CallSignaling.Proofs.Roap.Course
import CallSignaling.Proofs.Roap.Exchange

/-!
# The places of an exchange fit its phase

* `Roap.Exchange.Fits`: what the places of an exchange hold in each phase.
* `Roap.Exchange.Offered`: there are offers where the phase speaks of them.
* `Roap.Exchange.Coherent`: the invariant of the exchanges of a dialog.
* `Roap.Dialog.Strands`: whether an action comes upon glare without two offers.

Exchanges that have finished can be driven again with the messages of their first life still in
place, so they are only `Offered`; exchanges that have not finished also `Fits`.
-/

namespace CallSignaling.Roap

namespace Exchange

/-- Whether a place holds a message that plays a part and is from a side. -/
def Holds (place : Option Stored) (part : Part) (side : Side) : Prop :=
  ∃ message, place = some ⟨message, side⟩ ∧ message.kind.part? = some part

theorem holds_some_iff {s : Stored} {part : Part} {side : Side} :
    Holds (some s) part side ↔ s.side = side ∧ s.message.kind.part? = some part := by
  constructor
  · rintro ⟨message, heq, hkind⟩
    cases heq
    exact ⟨rfl, hkind⟩
  · rintro ⟨rfl, hkind⟩
    exact ⟨s.message, rfl, hkind⟩

theorem Holds.isSome {place : Option Stored} {part : Part} {side : Side}
    (h : Holds place part side) : place.isSome = true := by
  obtain ⟨message, rfl, -⟩ := h
  rfl

/-- What the places hold in each phase. -/
def Fits (x : Exchange) : Prop :=
  match x.phase with
  | .idle | .failed => True
  | .owesAnswer => Holds x.offer .offer .peer ∧ x.glareOffer = none
  | .awaitsAnswer => Holds x.offer .offer .own ∧ x.glareOffer = none
  | .owesOk => Holds x.answer .answer .peer ∧ x.glareOffer = none
  | .awaitsOk => Holds x.answer .answer .own ∧ x.glareOffer = none
  | .glare =>
    Holds x.offer .offer .peer ∧ Holds x.glareOffer .offer .own ∨
      Holds x.offer .offer .own ∧ Holds x.glareOffer .offer .peer

/-- There is an offer while an answer is owed or awaited, and there are two in glare. -/
structure Offered (x : Exchange) : Prop where
  offer : x.phase = .owesAnswer ∨ x.phase = .awaitsAnswer ∨ x.phase = .glare →
    x.offer.isSome = true
  glareOffer : x.phase = .glare → x.glareOffer.isSome = true

/-- An exchange that is new, or under way and fitting. -/
def Ready (x : Exchange) : Prop := x = {} ∨ x.phase ≠ .idle ∧ x.Fits

/-- The invariant of an exchange between the actions on its dialog. -/
structure Coherent (x : Exchange) : Prop where
  settled : x.phase ≠ .glare
  offered : x.Offered
  live : x.finished = false → x.phase ≠ .idle ∧ x.Fits

theorem offered_of_coherent {x : Exchange} (h : x = {} ∨ x.Coherent) : x.Offered := by
  rcases h with rfl | hcoherent
  · exact ⟨by simp, by simp⟩
  · exact hcoherent.offered

theorem Offered.resolveGlare?_ne_none {x : Exchange} (h : x.Offered) (hglare : x.phase = .glare) :
    x.resolveGlare? ≠ none := by
  intro hnone
  have hoffer := h.offer (.inr (.inr hglare))
  have hsecond := h.glareOffer hglare
  rcases resolveGlare?_eq_none_iff.1 hnone with heq | heq
  · simp [heq] at hoffer
  · simp [heq] at hsecond

theorem Ready.clear {x : Exchange} (h : x.Ready) (hidle : x.phase = .idle) :
    x.offer = none ∧ x.glareOffer = none := by
  obtain rfl : x = {} := h.resolve_right fun hlive => hlive.1 hidle
  exact ⟨rfl, rfl⟩

theorem Ready.fits {x : Exchange} (h : x.Ready) (hphase : x.phase ≠ .idle) : x.Fits := by
  rcases h with rfl | hlive
  · exact absurd rfl hphase
  · exact hlive.2

/-! ### Storing a message -/

section Store

variable {x : Exchange} {message : Message} (side : Side)

theorem store_first_offer (hkind : message.kind.part? = some .offer) (h : x.offer = none) :
    Holds (x.store message side).1.offer .offer side ∧
      (x.store message side).1.glareOffer = x.glareOffer := by
  rw [store_offer_of_none side hkind h]
  exact ⟨⟨message, rfl, hkind⟩, rfl⟩

theorem store_second_offer (hkind : message.kind.part? = some .offer)
    (h : x.offer.isSome = true) :
    (x.store message side).1.offer = x.offer ∧
      Holds (x.store message side).1.glareOffer .offer side := by
  obtain ⟨first, hfirst⟩ := Option.isSome_iff_exists.1 h
  rw [store_offer_of_some side hkind hfirst]
  exact ⟨rfl, message, rfl, hkind⟩

theorem store_answer (hkind : message.kind.part? = some .answer) :
    Holds (x.store message side).1.answer .answer side ∧
      (x.store message side).1.glareOffer = x.glareOffer := by
  rw [store_of_ne_offer side hkind (by simp)]
  exact ⟨⟨message, rfl, hkind⟩, rfl⟩

end Store

/-! ### Moving by the signal of a message -/

section Advance

variable {x : Exchange} {message : Message} {side : Side} {signal : Signal}

theorem advance_phase (x : Exchange) (message : Message) (side : Side) (signal : Signal) :
    (x.advance message side signal).state.phase = x.phase.next signal :=
  congrArg (Phase.next · signal) (x.store_keeps message side).1

theorem advance_finished (x : Exchange) (message : Message) (side : Side) (signal : Signal) :
    (x.advance message side signal).state.finished = x.finished :=
  (x.store_keeps message side).2

/-- In glare the message was an offer, and there was an offer before it. -/
theorem of_advance_glare (h : x.Offered)
    (hsignal : Signal.ofMessage? message.kind side = some signal)
    (hglare : (x.advance message side signal).state.phase = .glare) :
    message.kind.part? = some .offer ∧ x.offer.isSome = true := by
  rw [advance_phase] at hglare
  obtain ⟨hphase, rfl⟩ | ⟨hphase, rfl⟩ := Phase.of_next_glare hglare
  · exact ⟨(Signal.sent_of_message hsignal).2, h.offer (.inl hphase)⟩
  · exact ⟨(Signal.received_of_message hsignal).2, h.offer (.inr (.inl hphase))⟩

theorem offered_advance (h : x.Offered)
    (hsignal : Signal.ofMessage? message.kind side = some signal) :
    (x.advance message side signal).state.Offered where
  offer := by
    -- an answer is owed or awaited after an offer only, and glare is between offers
    have hoffer : message.kind.part? = some .offer →
        (x.advance message side signal).state.offer.isSome = true :=
      offer_isSome_store side
    rintro (hphase | hphase | hphase)
    · rw [advance_phase] at hphase
      obtain ⟨-, rfl⟩ | ⟨-, rfl⟩ := Phase.of_next_owesAnswer hphase
      · exact hoffer (Signal.received_of_message hsignal).2
      · exact absurd hsignal Signal.ofMessage?_ne_glareResolved
    · rw [advance_phase] at hphase
      obtain ⟨-, rfl⟩ | ⟨-, rfl⟩ := Phase.of_next_awaitsAnswer hphase
      · exact hoffer (Signal.sent_of_message hsignal).2
      · exact absurd hsignal Signal.ofMessage?_ne_glareResolved
    · exact hoffer (of_advance_glare h hsignal hphase).1
  glareOffer := by
    intro hphase
    obtain ⟨hkind, hoffer⟩ := of_advance_glare h hsignal hphase
    exact (store_second_offer side hkind hoffer).2.isSome

/-- An exchange that fits goes on fitting, if an offer that opens it finds no offers in it. -/
theorem fits_advance (hfits : x.phase ≠ .idle → x.Fits)
    (hclear : x.phase = .idle → message.kind.part? = some .offer →
      x.offer = none ∧ x.glareOffer = none)
    (hsignal : Signal.ofMessage? message.kind side = some signal) :
    (x.advance message side signal).state.Fits := by
  have hphase := advance_phase x message side signal
  unfold Fits at hfits ⊢
  rw [hphase]
  -- each phase but rest and failure is entered by one message only
  cases hnext : x.phase.next signal with
  | idle => trivial
  | failed => trivial
  | owesAnswer =>
    obtain ⟨hidle, rfl⟩ | ⟨-, rfl⟩ := Phase.of_next_owesAnswer hnext
    · obtain ⟨rfl, hkind⟩ := Signal.received_of_message hsignal
      obtain ⟨hoffer, hglare⟩ := hclear hidle hkind
      obtain ⟨hfirst, hsecond⟩ := store_first_offer .peer hkind hoffer
      exact ⟨hfirst, hsecond.trans hglare⟩
    · exact absurd hsignal Signal.ofMessage?_ne_glareResolved
  | awaitsAnswer =>
    obtain ⟨hidle, rfl⟩ | ⟨-, rfl⟩ := Phase.of_next_awaitsAnswer hnext
    · obtain ⟨rfl, hkind⟩ := Signal.sent_of_message hsignal
      obtain ⟨hoffer, hglare⟩ := hclear hidle hkind
      obtain ⟨hfirst, hsecond⟩ := store_first_offer .own hkind hoffer
      exact ⟨hfirst, hsecond.trans hglare⟩
    · exact absurd hsignal Signal.ofMessage?_ne_glareResolved
  | owesOk =>
    obtain ⟨hbefore, rfl⟩ := Phase.of_next_owesOk hnext
    obtain ⟨rfl, hkind⟩ := Signal.received_of_message hsignal
    rw [hbefore] at hfits
    obtain ⟨hanswer, hglare⟩ := store_answer (x := x) .peer hkind
    exact ⟨hanswer, hglare.trans (hfits (by simp)).2⟩
  | awaitsOk =>
    obtain ⟨hbefore, rfl⟩ := Phase.of_next_awaitsOk hnext
    obtain ⟨rfl, hkind⟩ := Signal.sent_of_message hsignal
    rw [hbefore] at hfits
    obtain ⟨hanswer, hglare⟩ := store_answer (x := x) .own hkind
    exact ⟨hanswer, hglare.trans (hfits (by simp)).2⟩
  | glare =>
    obtain ⟨hbefore, rfl⟩ | ⟨hbefore, rfl⟩ := Phase.of_next_glare hnext
    · obtain ⟨rfl, hkind⟩ := Signal.sent_of_message hsignal
      rw [hbefore] at hfits
      have hfirst := (hfits (by simp)).1
      obtain ⟨hoffer, hglare⟩ := store_second_offer .own hkind hfirst.isSome
      rw [← hoffer] at hfirst
      exact .inl ⟨hfirst, hglare⟩
    · obtain ⟨rfl, hkind⟩ := Signal.received_of_message hsignal
      rw [hbefore] at hfits
      have hfirst := (hfits (by simp)).1
      obtain ⟨hoffer, hglare⟩ := store_second_offer .peer hkind hfirst.isSome
      rw [← hoffer] at hfirst
      exact .inr ⟨hfirst, hglare⟩

end Advance

/-! ### Settling glare -/

theorem settleGlare_of_ne {x : Exchange} (h : x.phase ≠ .glare) : x.settleGlare = .stay x :=
  if_neg h

/-- Out of glare with two offers an answer is owed or awaited, and one of the offers stays. -/
theorem settleGlare_of_offered {x : Exchange} (h : x.Offered) (hglare : x.phase = .glare) :
    ∃ first second kept winner, x.offer = some first ∧ x.glareOffer = some second ∧
      x.settleGlare.state =
        { x with
          phase := Phase.glare.next (.glareResolved winner)
          offer := some kept
          glareOffer := none } ∧
      (kept = first ∨ kept = second) ∧ (first.side ≠ second.side → kept.side = winner) := by
  cases hresolved : x.resolveGlare? with
  | none => exact absurd hresolved (h.resolveGlare?_ne_none hglare)
  | some resolved =>
    obtain ⟨y, winner⟩ := resolved
    obtain ⟨first, second, kept, hfirst, hsecond, rfl, hkept, hsides⟩ :=
      of_resolveGlare? hresolved
    refine ⟨first, second, kept, winner, hfirst, hsecond, ?_, hkept, hsides⟩
    rw [settleGlare, if_pos hglare, hresolved]
    simp only [step, hglare]

theorem settleGlare_phase {x : Exchange} (h : x.Offered) : x.settleGlare.state.phase ≠ .glare := by
  by_cases hglare : x.phase = .glare
  · obtain ⟨_, _, _, winner, -, -, hstate, -⟩ := settleGlare_of_offered h hglare
    rw [hstate]
    cases winner <;> simp [Phase.next]
  · rwa [settleGlare_of_ne hglare]

theorem offered_settleGlare {x : Exchange} (h : x.Offered) : x.settleGlare.state.Offered := by
  by_cases hglare : x.phase = .glare
  · obtain ⟨_, _, _, winner, -, -, hstate, -⟩ := settleGlare_of_offered h hglare
    rw [hstate]
    refine ⟨fun _ => rfl, fun hphase => ?_⟩
    cases winner <;> cases hphase
  · rwa [settleGlare_of_ne hglare]

theorem fits_settleGlare {x : Exchange} (hoffered : x.Offered) (h : x.Fits) :
    x.settleGlare.state.Fits := by
  by_cases hglare : x.phase = .glare
  · obtain ⟨first, second, kept, winner, hfirst, hsecond, hstate, hkept, hsides⟩ :=
      settleGlare_of_offered hoffered hglare
    rw [Fits, hglare, hfirst, hsecond] at h
    have hboth : first.side ≠ second.side ∧ first.message.kind.part? = some .offer ∧
        second.message.kind.part? = some .offer := by
      rcases h with ⟨hone, hother⟩ | ⟨hone, hother⟩ <;>
        rw [holds_some_iff] at hone hother <;> simp [hone, hother]
    have hkind : kept.message.kind.part? = some .offer := by
      rcases hkept with rfl | rfl
      · exact hboth.2.1
      · exact hboth.2.2
    have hholds : Holds (some kept) .offer winner :=
      holds_some_iff.2 ⟨hsides hboth.1, hkind⟩
    rw [hstate]
    cases winner with
    | own => exact ⟨hholds, rfl⟩
    | peer => exact ⟨hholds, rfl⟩
  · rwa [settleGlare_of_ne hglare]

/-- Settling glare ends nothing. -/
theorem settleGlare_finished (x : Exchange) : x.settleGlare.state.finished = x.finished := by
  unfold settleGlare
  split
  · cases hresolved : x.resolveGlare? with
    | none => rfl
    | some resolved =>
      obtain ⟨_, _, _, -, -, hstate, -⟩ := of_resolveGlare? hresolved
      simp [hstate, step]
  · rfl

/-! ### Taking a message in -/

/-- After a message has been taken in a new or a coherent exchange is coherent. -/
theorem coherent_take {x : Exchange} {message : Message} {side : Side} {signal : Signal}
    (h : x = {} ∨ x.Coherent) (hsignal : Signal.ofMessage? message.kind side = some signal)
    (ownsMedia : Bool) : (x.take message side signal ownsMedia).state.Coherent := by
  have hoffered := offered_of_coherent h
  have hready : x.finished = false → x.Ready := by
    intro hf
    rcases h with rfl | hcoherent
    · exact .inl rfl
    · exact .inr (hcoherent.live hf)
  have hadvanced := offered_advance hoffered hsignal
  have hsettled := offered_settleGlare hadvanced
  have hfinished := (settleGlare_finished _).trans (x.advance_finished message side signal)
  rw [take, Outcome.andThen_state, Outcome.andThen_state, perform_state]
  split
  · rename_i hidle
    exact ⟨settleGlare_phase hadvanced, ⟨hsettled.offer, hsettled.glareOffer⟩, by simp⟩
  · rename_i hlive
    refine ⟨settleGlare_phase hadvanced, hsettled, fun hf => ⟨hlive, ?_⟩⟩
    have hr := hready (hfinished.symm.trans hf)
    exact fits_settleGlare hadvanced
      (fits_advance hr.fits (fun hidle _ => hr.clear hidle) hsignal)

end Exchange

namespace Dialog

/-- All exchanges of the meeting are coherent. -/
def Coherent (d : Dialog) : Prop := ∀ seq x, d.exchange? seq = some x → x.Coherent

theorem coherent_new (meeting : String) : Coherent { meeting } := by
  intro seq x hx
  rw [exchange?_new] at hx
  cases hx

theorem Coherent.getD {d : Dialog} (h : d.Coherent) (seq : UInt64) :
    (d.exchange? seq).getD {} = {} ∨ ((d.exchange? seq).getD {}).Coherent := by
  cases hx : d.exchange? seq with
  | none => exact .inl rfl
  | some x => exact .inr (h seq x hx)

theorem coherent_submit {d : Dialog} (h : d.Coherent) (action : Action) (ownsMedia : Bool) :
    (d.submit action ownsMedia).state.Coherent := by
  intro seq x hx
  rcases of_exchange?_submit hx with hx | ⟨message, side, signal, htaken, rfl, rfl⟩
  · exact h seq x hx
  · exact Exchange.coherent_take (h.getD message.seq) (ofMessage?_of_taken htaken) ownsMedia

theorem coherent_run (steps : List (Action × Bool)) {d : Dialog} (h : d.Coherent) :
    (run steps d).state.Coherent :=
  Outcome.runAll_induction (P := Coherent) (fun step _ hd => coherent_submit hd step.1 step.2)
    steps h

/-- Whether glare is found without two offers when the message of an action has been stored. -/
def Strands (d : Dialog) (action : Action) : Prop :=
  ∃ message side signal x, d.taken? action = some (message, side, signal) ∧
    ((d.noted action).advance message side signal).state.exchange? message.seq = some x ∧
    x.phase = .glare ∧ x.resolveGlare? = none

theorem Coherent.not_strands {d : Dialog} (h : d.Coherent) (action : Action) :
    ¬ d.Strands action := by
  rintro ⟨message, side, signal, x, htaken, hx, hglare, hnone⟩
  rw [(follows_advance (d.noted action) message side signal).exchange_self, exchange?_noted,
    Option.some.injEq] at hx
  have hadvanced := Exchange.offered_advance (Exchange.offered_of_coherent (h.getD message.seq))
    (ofMessage?_of_taken htaken)
  rw [hx] at hadvanced
  exact hadvanced.resolveGlare?_ne_none hglare hnone

/-- After any actions on a new dialog no exchange is in glare, one that has not finished is not at
rest and its places hold what its phase is about, and no action comes upon glare without two
offers. -/
theorem run_coherent (meeting : String) (steps : List (Action × Bool)) :
    let d := (run steps { meeting }).state
    (∀ seq x, d.exchange? seq = some x →
        x.phase ≠ .glare ∧ (x.finished = false → x.phase ≠ .idle ∧ x.Fits)) ∧
      ∀ action, ¬ d.Strands action := by
  intro d
  have hcoherent : d.Coherent := coherent_run steps (coherent_new meeting)
  refine ⟨fun seq x hx => ?_, hcoherent.not_strands⟩
  have h := hcoherent seq x hx
  exact ⟨h.settled, h.live⟩

end Dialog

end CallSignaling.Roap
