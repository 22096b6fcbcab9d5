import CallSignaling.Proofs.Roap.Offers

/-!
# Answers belong to offers of the peer

The side that owns the media is asked to answer the offer that an exchange holds in the first place.
That is an offer of the peer, the one just received if one was, as long as no exchange is opened
again that came to rest with its offer still in place: then the old offer is the one to be answered,
whoever made it.

* `Roap.Exchange.InOrder`: an exchange whose places fit, without a second offer at rest.
* `Roap.Exchange.Reopens`: whether a message opens an exchange that still holds an offer.
* `Roap.Dialog.Revives`: whether an action does so.
* `Roap.Dialog.Unrevived`: a life in which no action does.

Main statements: until it is opened again an exchange is in order and its offers are those that were
brought (`traced_run`), so what is answered is what the peer offered; opening it again has the old
offer answered (`answers_fit_unless_revived`).
-/

namespace CallSignaling.Roap

/-! ### Exchanges in order -/

namespace Exchange

/-- The places of an exchange fit its phase, and at rest it holds no second offer. -/
structure InOrder (x : Exchange) : Prop where
  fits : x.Fits
  rest : x.phase = .idle → x.glareOffer = none

/-- Whether a message is an offer for an exchange that is at rest and still holds one. -/
def Reopens (x : Exchange) (message : Message) : Prop :=
  message.kind = .offer ∧ x.phase = .idle ∧ x.offer ≠ none

theorem inOrder_new : InOrder {} where
  fits := trivial
  rest _ := rfl

section Take

variable {x : Exchange} {message : Message} {side : Side} {signal : Signal}

theorem inOrder_advance (h : x.InOrder) (hnew : ¬ x.Reopens message)
    (hsignal : Signal.ofMessage? message.kind side = some signal) :
    (x.advance message side signal).state.InOrder where
  fits := by
    refine fits_advance (fun _ => h.fits) (fun hidle hkind => ⟨?_, h.rest hidle⟩) hsignal
    by_contra hoffer
    exact hnew ⟨MessageKind.part?_eq_offer_iff.1 hkind, hidle, hoffer⟩
  rest := by
    intro hidle
    rw [advance_phase] at hidle
    -- rest is not reached by an offer, and where it is reached from no second offer is held
    obtain ⟨hbefore, hreceived, hsent⟩ := Phase.of_next_idle hidle
    have hkind : message.kind ≠ .offer := by
      intro hkind
      rw [hkind] at hsignal
      cases side with
      | own =>
        cases hsignal
        exact hsent rfl
      | peer =>
        cases hsignal
        exact hreceived rfl
    have hclear : x.glareOffer = none := by
      have hfits := h.fits
      rcases hbefore with hbefore | hbefore | hbefore
      · exact h.rest hbefore
      · rw [Fits, hbefore] at hfits
        exact hfits.2
      · rw [Fits, hbefore] at hfits
        exact hfits.2
    exact (glareOffer_store side hkind).trans hclear

theorem inOrder_settleGlare (hoffered : x.Offered) (h : x.InOrder) :
    x.settleGlare.state.InOrder where
  fits := fits_settleGlare hoffered h.fits
  rest := by
    by_cases hglare : x.phase = .glare
    · intro hidle
      rcases settleGlare_phase_of_glare hoffered hglare with hphase | hphase
      · rw [hphase] at hidle
        cases hidle
      · rw [hphase] at hidle
        cases hidle
    · rw [settleGlare_of_ne hglare]
      exact h.rest

/-- Taking a message in leaves an exchange in order, unless the message opens it again. -/
theorem inOrder_take (hoffered : x.Offered) (h : x.InOrder) (hnew : ¬ x.Reopens message)
    (hsignal : Signal.ofMessage? message.kind side = some signal) (ownsMedia : Bool) :
    (x.take message side signal ownsMedia).state.InOrder := by
  have hsettled := inOrder_settleGlare (offered_advance hoffered hsignal)
    (inOrder_advance h hnew hsignal)
  rw [take, Outcome.andThen_state, Outcome.andThen_state, perform_state]
  split
  · exact ⟨hsettled.fits, hsettled.rest⟩
  · exact hsettled

/-- Where an offer of the peer may come, an exchange in order holds no other offer of the peer. -/
theorem no_offer_of_peer (h : x.InOrder) (hnew : ¬ x.Reopens message)
    (hkind : message.kind = .offer) (hphase : x.phase = .idle ∨ x.phase = .awaitsAnswer) :
    x.EachOffer fun s => s.side ≠ .peer := by
  rcases hphase with hidle | hawaits
  · refine eachOffer_of_none ?_ (h.rest hidle)
    by_contra hoffer
    exact hnew ⟨hkind, hidle, hoffer⟩
  · have hfits := h.fits
    rw [Fits, hawaits] at hfits
    obtain ⟨⟨own, hoffer, -⟩, hglare⟩ := hfits
    rintro s (hs | hs)
    · rw [hoffer] at hs
      cases hs
      simp
    · rw [hglare] at hs
      cases hs

/-- When an answer is owed after an offer of the peer has been received, it is that offer that is to
be answered. -/
theorem offer_of_received (hoffered : x.Offered) (h : x.InOrder) (hnew : ¬ x.Reopens message)
    (hkind : message.kind = .offer) (ownsMedia : Bool)
    (hphase : (x.take message .peer (.received .offer) ownsMedia).state.phase = .owesAnswer) :
    (x.take message .peer (.received .offer) ownsMedia).state.offer = some ⟨message, .peer⟩ := by
  have hsignal : Signal.ofMessage? message.kind .peer = some (.received .offer) := by
    rw [hkind]
    rfl
  have hexpected : x.phase.next (.received .offer) ≠ .failed := by
    intro hfailed
    rw [take_phase_of_ne _ _ _ _ _ (by simp [hfailed]), hfailed] at hphase
    cases hphase
  -- so the one offer of the peer that is there in the end is this one
  have hbefore : x.EachOffer fun s => s.side = .peer → s.message = message :=
    (no_offer_of_peer h hnew hkind (Phase.of_next_received_offer hexpected)).mono
      fun s hne hpeer => absurd hpeer hne
  have hafter : (x.take message .peer (.received .offer) ownsMedia).state.EachOffer
      fun s => s.side = .peer → s.message = message :=
    eachOffer_take hbefore (fun _ => rfl) (.received .offer) ownsMedia
  have hfits := (inOrder_take hoffered h hnew hsignal ownsMedia).fits
  rw [Fits, hphase] at hfits
  obtain ⟨⟨kept, hkept, -⟩, -⟩ := hfits
  rw [hkept, ← hafter ⟨kept, .peer⟩ (.inl hkept) rfl]

/-- An offer of the peer that opens an exchange again has the old offer answered. -/
theorem effects_of_reopens {s : Stored} (hkind : message.kind = .offer) (hidle : x.phase = .idle)
    (hoffer : x.offer = some s) :
    (x.take message .peer (.received .offer) true).effects =
      [.sendAnswer s.message.seq s.message] := by
  have hpart : message.kind.part? = some .offer := MessageKind.part?_eq_offer_iff.2 hkind
  have hphase : (x.advance message .peer (.received .offer)).state.phase = .owesAnswer := by
    rw [advance_phase, hidle]
    rfl
  have hkept : (x.advance message .peer (.received .offer)).state.offer = some s := by
    rw [advance, store_offer_of_some .peer hpart hoffer]
    exact hoffer
  rw [take_effects, settleGlare_of_ne (by rw [hphase]; simp), Outcome.stay_state]
  simp only [perform, hphase, hkept]

end Take

end Exchange

namespace Dialog

/-! ### Exchanges of a dialog -/

/-- Whether an action takes an offer into an exchange that is at rest and still holds one. -/
def Revives (d : Dialog) (seq : UInt64) (action : Action) : Prop :=
  ∃ message side signal, d.taken? action = some (message, side, signal) ∧ message.seq = seq ∧
    ((d.exchange? seq).getD {}).Reopens message

/-- Whether no action in the life of an exchange opens it again after it has come to rest with its
offer in place. -/
def Unrevived (meeting : String) (seq : UInt64) (earlier life : List (Action × Bool)) : Prop :=
  ∀ before step after, life = before ++ step :: after →
    ¬ (run (earlier ++ before) { meeting }).state.Revives seq step.1

theorem not_revives_of_none {d : Dialog} {seq : UInt64} (h : d.exchange? seq = none)
    (action : Action) : ¬ d.Revives seq action := by
  rintro ⟨message, side, signal, -, -, hreopens⟩
  rw [h] at hreopens
  exact hreopens.2.2 rfl

theorem unrevived_singleton {meeting : String} {seq : UInt64} {earlier : List (Action × Bool)}
    (habsent : (run earlier { meeting }).state.exchange? seq = none) (step : Action × Bool) :
    Unrevived meeting seq earlier [step] := by
  intro before step' after heq
  cases before with
  | nil =>
    rw [List.append_nil]
    exact not_revives_of_none habsent step'.1
  | cons first before => simp at heq

/-- An exchange, if it is there, is in order, and its offers are from the actions `past`. -/
def Traced (d : Dialog) (seq : UInt64) (past : List Action) : Prop :=
  ∀ x, d.exchange? seq = some x →
    x.InOrder ∧ x.EachOffer fun s => .bring s.message s.side ∈ past

theorem traced_of_none {d : Dialog} {seq : UInt64} (h : d.exchange? seq = none)
    (past : List Action) : d.Traced seq past := by
  intro x hx
  rw [h] at hx
  cases hx

theorem Traced.getD {d : Dialog} {seq : UInt64} {past : List Action} (h : d.Traced seq past) :
    ((d.exchange? seq).getD {}).InOrder ∧
      ((d.exchange? seq).getD {}).EachOffer fun s => .bring s.message s.side ∈ past := by
  cases hx : d.exchange? seq with
  | none => exact ⟨Exchange.inOrder_new, Exchange.eachOffer_of_none rfl rfl⟩
  | some x => exact h x hx

theorem traced_submit {d : Dialog} {seq : UInt64} {past : List Action} {action : Action}
    (hd : d.Coherent) (h : d.Traced seq past) (hnew : ¬ d.Revives seq action) (ownsMedia : Bool) :
    (d.submit action ownsMedia).state.Traced seq (past ++ [action]) := by
  intro x hx
  rcases of_exchange?_submit hx with hx | ⟨message, side, signal, htaken, rfl, rfl⟩
  · obtain ⟨horder, htraced⟩ := h x hx
    exact ⟨horder, htraced.mono fun s => List.mem_append_left _⟩
  · obtain ⟨haction, hsignal⟩ := of_taken htaken
    obtain ⟨horder, htraced⟩ := h.getD
    have hoffered := Exchange.offered_of_coherent (hd.getD message.seq)
    have hfresh : ¬ ((d.exchange? message.seq).getD {}).Reopens message :=
      fun hreopens => hnew ⟨message, side, signal, htaken, rfl, hreopens⟩
    refine ⟨Exchange.inOrder_take hoffered horder hfresh hsignal ownsMedia, ?_⟩
    have hlater := htraced.mono fun s => List.mem_append_left [action]
    refine Exchange.eachOffer_take hlater ?_ signal ownsMedia
    rw [haction]
    exact List.mem_append_right _ (List.mem_singleton.2 rfl)

theorem Unrevived.of_append {meeting : String} {seq : UInt64}
    {earlier life more : List (Action × Bool)} (h : Unrevived meeting seq earlier (life ++ more)) :
    Unrevived meeting seq earlier life := by
  intro before step after heq
  exact h before step (after ++ more) (by rw [heq, List.append_assoc, List.cons_append])

/-- Until it is opened again an exchange is in order, and its offers are those of its life. -/
theorem traced_run {meeting : String} {seq : UInt64} {earlier life : List (Action × Bool)}
    (habsent : (run earlier { meeting }).state.exchange? seq = none)
    (h : Unrevived meeting seq earlier life) :
    (run (earlier ++ life) { meeting }).state.Traced seq (life.map (·.1)) := by
  -- from the end of the life, since each action is judged by what came before it
  induction life using List.reverseRecOn with
  | nil =>
    rw [List.append_nil]
    exact traced_of_none habsent _
  | append_singleton life step ih =>
    have hcoherent := coherent_run (earlier ++ life) (coherent_new meeting)
    rw [← List.append_assoc, run_concat_state, List.map_append]
    exact traced_submit hcoherent (ih h.of_append) (h life step [] rfl) step.2

/-! ### Answers -/

section Answer

variable {d : Dialog} {seq : UInt64} {past : List Action} {action : Action} {ownsMedia : Bool}
variable {offer m : Message}

/-- What is asked to be answered was received, if the exchange is in order then. -/
theorem receive_mem_of_sendAnswer_mem (hnumbered : d.Numbered)
    (h : (d.submit action ownsMedia).state.Traced seq past)
    (hmem : .sendAnswer seq offer ∈ (d.submit action ownsMedia).effects) :
    offer.kind = .offer ∧ .receive offer ∈ past := by
  obtain ⟨hphase, hoffer⟩ := of_sendAnswer_mem_submit hnumbered hmem
  obtain ⟨x, hx, howes⟩ := Option.map_eq_some_iff.1 hphase
  obtain ⟨horder, htraced⟩ := h x hx
  have hfits := horder.fits
  rw [Exchange.Fits, howes] at hfits
  obtain ⟨⟨held, hheld, hpart⟩, -⟩ := hfits
  rw [offer?, hx, Option.bind_some, hheld, Option.map_some, Option.some.injEq] at hoffer
  subst hoffer
  exact ⟨MessageKind.part?_eq_offer_iff.1 hpart, htraced ⟨held, .peer⟩ (.inl hheld)⟩

/-- When an offer is received and there is something to be answered, it is that offer, unless it
opens the exchange again. -/
theorem eq_of_sendAnswer_mem_receive (hcoherent : d.Coherent) (hnumbered : d.Numbered)
    (h : d.Traced seq past) (hnew : ¬ d.Revives seq (.receive m)) (hkind : m.kind = .offer)
    (hmem : .sendAnswer seq offer ∈ (d.submit (.receive m) ownsMedia).effects) : offer = m := by
  cases htaken : d.taken? (.receive m) with
  | none =>
    rw [(submit_of_none htaken ownsMedia).1] at hmem
    cases hmem
  | some taken =>
    obtain ⟨message, side, signal⟩ := taken
    obtain ⟨rfl, rfl, hsignal⟩ := of_taken_receive htaken
    obtain rfl := hsignal hkind
    rw [(follows_submit htaken ownsMedia).effects, Exchange.sendAnswer_mem_take_iff] at hmem
    obtain ⟨-, hphase, s, hs, rfl, rfl⟩ := hmem
    have hseq : s.message.seq = message.seq :=
      Exchange.numbered_take (hnumbered.getD message.seq) .peer (.received .offer) ownsMedia s
        (.inl hs)
    rw [hseq] at h hnew
    have hfresh : ¬ ((d.exchange? message.seq).getD {}).Reopens message :=
      fun hreopens => hnew ⟨message, .peer, .received .offer, htaken, rfl, hreopens⟩
    have hoffered := Exchange.offered_of_coherent (hcoherent.getD message.seq)
    have hoffer :=
      Exchange.offer_of_received hoffered h.getD.1 hfresh hkind ownsMedia hphase
    rw [hoffer] at hs
    cases hs
    rfl

/-- An offer that opens an exchange again has the old offer answered. -/
theorem effects_of_revives (hnumbered : d.Numbered) (h : d.Revives m.seq (.receive m))
    (hoffer : d.offer? m.seq = some offer) :
    (d.submit (.receive m) true).effects = [.sendAnswer m.seq offer] := by
  obtain ⟨message, side, signal, htaken, -, hkind, hidle, -⟩ := h
  obtain ⟨s, hs, rfl⟩ := Option.map_eq_some_iff.1 hoffer
  obtain ⟨x, hx, hheld⟩ := Option.bind_eq_some_iff.1 hs
  have hseq : s.message.seq = m.seq := hnumbered m.seq x hx s (.inl hheld)
  obtain ⟨rfl, rfl, hsignal⟩ := of_taken_receive htaken
  obtain rfl := hsignal hkind
  rw [hx, Option.getD_some] at hidle
  rw [(follows_submit htaken true).effects, hx, Option.getD_some,
    Exchange.effects_of_reopens hkind hidle hheld, hseq]

end Answer

/-- **What is asked to be answered is an offer of the peer, unless an exchange is opened again.**
In the life of an exchange in which no offer is taken while it is at rest with an old offer in
place, only offers received in that life are to be answered, and after an offer has been received
only that one.  An offer received while the exchange is at rest with an old offer in place has the
old one answered instead. -/
theorem answers_fit_unless_revived (meeting : String) :
    (∀ seq earlier life action ownsMedia offer,
        Life meeting seq earlier (life ++ [(action, ownsMedia)]) →
        Unrevived meeting seq earlier (life ++ [(action, ownsMedia)]) →
        .sendAnswer seq offer ∈
          ((run (earlier ++ life) { meeting }).state.submit action ownsMedia).effects →
        offer.kind = .offer ∧ .receive offer ∈ life.map (·.1) ++ [action] ∧
          ∀ m, action = .receive m → m.kind = .offer → offer = m) ∧
      ∀ steps m old,
        let d := (run steps { meeting }).state
        d.Revives m.seq (.receive m) → d.offer? m.seq = some old →
          (d.submit (.receive m) true).effects = [.sendAnswer m.seq old] := by
  constructor
  · intro seq earlier life action ownsMedia offer hlife hunrevived hmem
    have hcoherent := coherent_run (earlier ++ life) (coherent_new meeting)
    have hnumbered := numbered_run (earlier ++ life) (numbered_new meeting)
    have htraced := traced_run hlife.absent hunrevived.of_append
    have hnew := hunrevived life (action, ownsMedia) [] rfl
    obtain ⟨hkind, hreceived⟩ := receive_mem_of_sendAnswer_mem hnumbered
      (traced_submit hcoherent htraced hnew ownsMedia) hmem
    refine ⟨hkind, hreceived, ?_⟩
    rintro m rfl hoffer
    exact eq_of_sendAnswer_mem_receive hcoherent hnumbered htraced hnew hoffer hmem
  · intro steps m old d
    exact effects_of_revives (numbered_run steps (numbered_new meeting))

/-- The first offer for an exchange is the one to be answered. -/
theorem answers_fit_unless_revived_firstOffer :
    let peer := Message.offer 1 ["peer"] 5
    .sendAnswer 1 peer ∈ (submit { meeting := "m" } (.receive peer) true).effects ∧
      .receive peer ∈ [Action.receive peer] ∧
      ∀ m, Action.receive peer = .receive m → m.kind = .offer → peer = m := by
  intro peer
  have hlife : Life "m" 1 [] [(.receive peer, true)] :=
    ⟨exchange?_new "m" 1, by simp [Action.Drops]⟩
  have hunrevived := unrevived_singleton hlife.absent (.receive peer, true)
  have hmem : .sendAnswer 1 peer ∈ (submit { meeting := "m" } (.receive peer) true).effects := by
    decide +kernel
  obtain ⟨-, hreceived, hsame⟩ :=
    (answers_fit_unless_revived "m").1 1 [] [] (.receive peer) true peer hlife hunrevived hmem
  exact ⟨hmem, hreceived, hsame⟩

/-- After an own offer, its answer and the acknowledgement, an offer of the peer with the same
number has the own offer answered. -/
theorem reopened_answers_own_offer :
    let own := Message.offer 1 ["own"] 9
    let peer := Message.offer 1 ["peer"] 5
    let steps := [(.send own, true), (.receive (.answer 1 ["answer"]), true), (.send (.ok 1), true)]
    ((run steps { meeting := "m" }).state.submit (.receive peer) true).effects =
        [.sendAnswer 1 own] ∧
      own ≠ peer := by
  decide +kernel

end Dialog

end CallSignaling.Roap
