import CallSignaling.Proofs.Roap.Completion

/-!
# The offer of an exchange

* `Roap.Exchange.EachOffer`: what holds of all offers of an exchange.
* `Roap.Exchange.Numbered`: the offers of an exchange carry its number.
* `Roap.Dialog.offer?`: the offer that an exchange holds.
* `Roap.Dialog.Disturbs`: whether an action takes a message of an exchange other than the offer by
  which the peer opens it.

Main statements: the side that owns the media is asked for an answer to the offer that the exchange
holds then (`of_sendAnswer_mem_submit`), and no exchange comes to owe an answer that is not asked
for (`exchange_or_sendAnswer`); an exchange that does not owe an answer was disturbed
(`exists_disturbs`); and an offer of the own side fails an exchange unless that is at rest or owes
an answer (`take_own_offer`).
-/

namespace CallSignaling.Roap

namespace Exchange

/-! ### What holds of each offer -/

section EachOffer

variable {P : Stored → Prop} {x : Exchange} {message : Message}

/-- Whether a property holds of each offer of an exchange. -/
def EachOffer (P : Stored → Prop) (x : Exchange) : Prop :=
  ∀ s, x.offer = some s ∨ x.glareOffer = some s → P s

theorem EachOffer.mono {Q : Stored → Prop} (h : x.EachOffer P) (himp : ∀ s, P s → Q s) :
    x.EachOffer Q := by
  intro s hs
  exact himp s (h s hs)

theorem eachOffer_of_none (hoffer : x.offer = none) (hglare : x.glareOffer = none) :
    x.EachOffer P := by
  intro s hs
  simp [hoffer, hglare] at hs

theorem eachOffer_store (h : x.EachOffer P) {side : Side} (hnew : P ⟨message, side⟩) :
    (x.store message side).1.EachOffer P := by
  cases hkind : message.kind.part? with
  | none =>
    rw [store, hkind]
    exact h
  | some part =>
    by_cases hpart : part = .offer
    · subst hpart
      cases hoffer : x.offer with
      | none =>
        rw [store_offer_of_none side hkind hoffer]
        rintro s (hs | hs)
        · cases hs
          exact hnew
        · exact h s (.inr hs)
      | some first =>
        rw [store_offer_of_some side hkind hoffer]
        rintro s (hs | hs)
        · exact h s (.inl hs)
        · cases hs
          exact hnew
    · rw [store_of_ne_offer side hkind hpart]
      cases part with
      | offer => exact absurd rfl hpart
      | answer => exact h
      | ok => exact h
      | error => exact h

theorem eachOffer_settleGlare (h : x.EachOffer P) : x.settleGlare.state.EachOffer P := by
  unfold settleGlare
  split
  · cases hresolved : x.resolveGlare? with
    | none => exact h
    | some resolved =>
      obtain ⟨first, second, kept, hfirst, hsecond, hstate, hkept, -⟩ :=
        of_resolveGlare? hresolved
      rintro s (hs | hs)
      · -- the offer that stays is one of the two
        have hs' : kept = s := by simpa [step, hstate] using hs
        subst hs'
        rcases hkept with rfl | rfl
        · exact h _ (.inl hfirst)
        · exact h _ (.inr hsecond)
      · simp [step, hstate] at hs
  · exact h

/-- What holds of the offers of an exchange and of a message holds of the offers when the message
has been taken in. -/
theorem eachOffer_take (h : x.EachOffer P) {side : Side} (hnew : P ⟨message, side⟩)
    (signal : Signal) (ownsMedia : Bool) :
    (x.take message side signal ownsMedia).state.EachOffer P := by
  have hsettled := eachOffer_settleGlare (x := (x.advance message side signal).state)
    (eachOffer_store h hnew)
  rw [take, Outcome.andThen_state, Outcome.andThen_state, perform_state]
  split
  · exact hsettled
  · exact hsettled

end EachOffer

/-! ### Offers carry the number of their exchange -/

/-- The offers of an exchange carry the number `seq`. -/
def Numbered (seq : UInt64) (x : Exchange) : Prop :=
  ∀ s, x.offer = some s ∨ x.glareOffer = some s → s.message.seq = seq

theorem numbered_new (seq : UInt64) : Numbered seq {} :=
  eachOffer_of_none (P := fun s => s.message.seq = seq) rfl rfl

theorem numbered_take {x : Exchange} {message : Message} (h : x.Numbered message.seq)
    (side : Side) (signal : Signal) (ownsMedia : Bool) :
    (x.take message side signal ownsMedia).state.Numbered message.seq :=
  eachOffer_take (P := fun s => s.message.seq = message.seq) h rfl signal ownsMedia

/-! ### Answers that are asked for -/

theorem sendAnswer_mem_perform_iff {x : Exchange} {seq own : UInt64} {ownsMedia : Bool}
    {offer : Message} :
    .sendAnswer seq offer ∈ (x.perform own ownsMedia).effects ↔
      ownsMedia = true ∧ x.phase = .owesAnswer ∧
        ∃ s, x.offer = some s ∧ s.message.seq = seq ∧ s.message = offer := by
  obtain ⟨phase, first, answer, ok, error, glareOffer, finished⟩ := x
  cases phase with
  | idle => cases finished <;> simp [perform]
  | owesAnswer =>
    cases ownsMedia <;> cases first <;>
      simp [perform, eq_comm (a := seq), eq_comm (a := offer)]
  | owesOk => cases ownsMedia <;> cases answer <;> simp [perform]
  | awaitsOk => simp [perform]
  | awaitsAnswer => simp [perform]
  | glare => simp [perform]
  | failed => simp [perform]

/-- The side that owns the media is asked for an answer to the offer that is held then. -/
theorem sendAnswer_mem_take_iff {x : Exchange} {message : Message} {side : Side} {signal : Signal}
    {ownsMedia : Bool} {seq : UInt64} {offer : Message} :
    .sendAnswer seq offer ∈ (x.take message side signal ownsMedia).effects ↔
      ownsMedia = true ∧ (x.take message side signal ownsMedia).state.phase = .owesAnswer ∧
        ∃ s, (x.take message side signal ownsMedia).state.offer = some s ∧ s.message.seq = seq ∧
          s.message = offer := by
  have hoffer : (x.take message side signal ownsMedia).state.offer =
      (x.advance message side signal).state.settleGlare.state.offer := by
    rw [take, Outcome.andThen_state, Outcome.andThen_state, perform_state]
    split <;> rfl
  rw [take_effects, take_phase, hoffer, sendAnswer_mem_perform_iff]

/-! ### An offer of the own side -/

theorem settleGlare_phase_of_glare {x : Exchange} (h : x.Offered) (hglare : x.phase = .glare) :
    x.settleGlare.state.phase = .owesAnswer ∨ x.settleGlare.state.phase = .awaitsAnswer := by
  obtain ⟨_, _, _, winner, -, -, hstate, -⟩ := settleGlare_of_offered h hglare
  rw [hstate]
  cases winner with
  | own => exact .inr rfl
  | peer => exact .inl rfl

/-- Where an own offer can take an exchange that is in the phase `before`. -/
def OfferLeads (before after : Phase) : Prop :=
  match before with
  | .idle => after = .awaitsAnswer
  | .owesAnswer => after = .owesAnswer ∨ after = .awaitsAnswer
  | .awaitsOk | .awaitsAnswer | .owesOk | .glare | .failed => after = .failed

theorem take_own_offer {x : Exchange} {message : Message} (h : x.Offered)
    (hkind : message.kind = .offer) (ownsMedia : Bool) :
    OfferLeads x.phase (x.take message .own (.sent .offer) ownsMedia).state.phase := by
  have hsignal : Signal.ofMessage? message.kind .own = some (.sent .offer) := by rw [hkind]; rfl
  have hsettled : ∀ p, x.phase.next (.sent .offer) = p → p ≠ .glare →
      (x.take message .own (.sent .offer) ownsMedia).state.phase = p := by
    rintro p rfl hne
    exact take_phase_of_ne x message .own (.sent .offer) ownsMedia hne
  unfold OfferLeads
  cases hphase : x.phase with
  | idle => exact hsettled _ (by rw [hphase]; rfl) (by simp)
  | owesAnswer =>
    rw [take_phase]
    exact settleGlare_phase_of_glare (offered_advance h hsignal)
      (by rw [advance_phase, hphase]; rfl)
  | awaitsOk => exact hsettled _ (by rw [hphase]; rfl) (by simp)
  | awaitsAnswer => exact hsettled _ (by rw [hphase]; rfl) (by simp)
  | owesOk => exact hsettled _ (by rw [hphase]; rfl) (by simp)
  | glare => exact hsettled _ (by rw [hphase]; rfl) (by simp)
  | failed => exact hsettled _ (by rw [hphase]; rfl) (by simp)

/-- The offer by which the peer opens an exchange leaves it owing an answer. -/
theorem take_opening (message : Message) (ownsMedia : Bool) :
    (Exchange.take message .peer (.received .offer) ownsMedia {}).state.phase = .owesAnswer :=
  take_phase_of_ne {} message .peer (.received .offer) ownsMedia (by simp [Phase.next])

/-- An answer is awaited after an offer of the own side only. -/
theorem of_take_awaitsAnswer {x : Exchange} {message : Message} {side : Side} {signal : Signal}
    {ownsMedia : Bool} (hsignal : Signal.ofMessage? message.kind side = some signal)
    (h : (x.take message side signal ownsMedia).state.phase = .awaitsAnswer) :
    x.phase = .awaitsAnswer ∨ side = .own ∧ message.kind = .offer := by
  have hown : signal = .sent .offer → side = .own ∧ message.kind = .offer := by
    rintro rfl
    exact (Signal.sent_of_message hsignal).imp_right MessageKind.part?_eq_offer_iff.1
  by_cases hglare : x.phase.next signal = .glare
  · rcases Phase.of_next_glare hglare with ⟨-, hsent⟩ | ⟨hphase, -⟩
    · exact .inr (hown hsent)
    · exact .inl hphase
  · rw [take_phase_of_ne x message side signal ownsMedia hglare] at h
    rcases Phase.of_next_awaitsAnswer h with ⟨-, hsent⟩ | ⟨-, rfl⟩
    · exact .inr (hown hsent)
    · exact absurd hsignal Signal.ofMessage?_ne_glareResolved

end Exchange

namespace Dialog

/-! ### Offers of a dialog -/

/-- The offer that an exchange holds. -/
def offer? (d : Dialog) (seq : UInt64) : Option Message :=
  ((d.exchange? seq).bind (·.offer)).map (·.message)

/-- The offers of all exchanges carry their numbers. -/
def Numbered (d : Dialog) : Prop := ∀ seq x, d.exchange? seq = some x → x.Numbered seq

theorem numbered_new (meeting : String) : Numbered { meeting } := by
  intro seq x hx
  rw [exchange?_new] at hx
  cases hx

theorem Numbered.getD {d : Dialog} (h : d.Numbered) (seq : UInt64) :
    ((d.exchange? seq).getD {}).Numbered seq := by
  cases hx : d.exchange? seq with
  | none => exact Exchange.numbered_new seq
  | some x => exact h seq x hx

theorem numbered_submit {d : Dialog} (h : d.Numbered) (action : Action) (ownsMedia : Bool) :
    (d.submit action ownsMedia).state.Numbered := by
  intro seq x hx
  rcases of_exchange?_submit hx with hx | ⟨message, side, signal, -, rfl, rfl⟩
  · exact h seq x hx
  · exact Exchange.numbered_take (h.getD message.seq) side signal ownsMedia

theorem numbered_run (steps : List (Action × Bool)) {d : Dialog} (h : d.Numbered) :
    (run steps d).state.Numbered :=
  Outcome.runAll_induction (P := Numbered) (fun step _ hd => numbered_submit hd step.1 step.2)
    steps h

/-- What is asked for is an answer to the offer that the exchange holds then. -/
theorem of_sendAnswer_mem_submit {d : Dialog} (h : d.Numbered) {action : Action} {ownsMedia : Bool}
    {seq : UInt64} {offer : Message}
    (hmem : .sendAnswer seq offer ∈ (d.submit action ownsMedia).effects) :
    (d.submit action ownsMedia).state.phase? seq = some .owesAnswer ∧
      (d.submit action ownsMedia).state.offer? seq = some offer := by
  cases htaken : d.taken? action with
  | none =>
    rw [(submit_of_none htaken ownsMedia).1] at hmem
    cases hmem
  | some taken =>
    obtain ⟨message, side, signal⟩ := taken
    have hfollows := follows_submit htaken ownsMedia
    rw [hfollows.effects, Exchange.sendAnswer_mem_take_iff] at hmem
    obtain ⟨-, hphase, s, hs, rfl, rfl⟩ := hmem
    have hseq : s.message.seq = message.seq :=
      Exchange.numbered_take (h.getD message.seq) side signal ownsMedia s (.inl hs)
    rw [phase?, offer?, hseq, hfollows.exchange_self]
    exact ⟨congrArg some hphase, by rw [Option.bind_some, hs, Option.map_some]⟩

/-- An exchange that owes an answer was left alone, or is asked for the answer. -/
theorem exchange_or_sendAnswer {d : Dialog} (hcoherent : d.Coherent) (hnumbered : d.Numbered)
    (action : Action) {seq : UInt64}
    (hphase : (d.submit action true).state.phase? seq = some .owesAnswer) :
    (d.submit action true).state.exchange? seq = d.exchange? seq ∨
      ∃ offer, .sendAnswer seq offer ∈ (d.submit action true).effects := by
  cases htaken : d.taken? action with
  | none =>
    refine .inl ?_
    rw [phase?] at hphase
    rw [(submit_of_none htaken true).2] at hphase ⊢
    split at hphase
    · cases hphase
    · rename_i hkept
      exact if_neg hkept
  | some taken =>
    obtain ⟨message, side, signal⟩ := taken
    have hfollows := follows_submit htaken true
    by_cases hseq : seq = message.seq
    · refine .inr ?_
      subst hseq
      rw [phase?, hfollows.exchange_self, Option.map_some, Option.some.injEq] at hphase
      have htake := Exchange.coherent_take (hcoherent.getD message.seq)
        (ofMessage?_of_taken htaken) true
      obtain ⟨s, hs⟩ := Option.isSome_iff_exists.1 (htake.offered.offer (.inl hphase))
      have hnumber := Exchange.numbered_take (hnumbered.getD message.seq) side signal true s
        (.inl hs)
      refine ⟨s.message, ?_⟩
      rw [hfollows.effects, Exchange.sendAnswer_mem_take_iff]
      exact ⟨rfl, hphase, s, hs, hnumber, rfl⟩
    · refine .inl ?_
      rw [hfollows.exchange, if_neg hseq, exchange?_noted]

/-! ### Exchanges that await an answer -/

/-- An exchange comes to await an answer by an offer of the own side only. -/
theorem of_submit_awaitsAnswer {d : Dialog} {action : Action} {ownsMedia : Bool} {seq : UInt64}
    (hd : d.phase? seq ≠ some .awaitsAnswer)
    (h : (d.submit action ownsMedia).state.phase? seq = some .awaitsAnswer) :
    ∃ offer, action = .send offer ∧ offer.kind = .offer ∧ offer.seq = seq := by
  obtain ⟨x, hx, hphase⟩ := Option.map_eq_some_iff.1 h
  rcases of_exchange?_submit hx with hold | ⟨message, side, signal, htaken, rfl, rfl⟩
  · exact absurd (Option.map_eq_some_iff.2 ⟨x, hold, hphase⟩) hd
  · obtain ⟨haction, hsignal⟩ := of_taken htaken
    rcases Exchange.of_take_awaitsAnswer hsignal hphase with hbefore | ⟨rfl, hkind⟩
    · rw [phase?] at hd
      cases hy : d.exchange? message.seq with
      | none => simp [hy] at hbefore
      | some y => simp_all
    · exact ⟨message, haction, hkind, rfl⟩

theorem exists_own_offer {seq : UInt64} (steps : List (Action × Bool)) {d : Dialog}
    (hd : d.phase? seq ≠ some .awaitsAnswer)
    (h : (run steps d).state.phase? seq = some .awaitsAnswer) :
    ∃ offer ownsMedia, (.send offer, ownsMedia) ∈ steps ∧ offer.kind = .offer ∧
      offer.seq = seq := by
  induction steps generalizing d with
  | nil => exact absurd h hd
  | cons step steps ih =>
    by_cases hstep : (d.submit step.1 step.2).state.phase? seq = some .awaitsAnswer
    · obtain ⟨offer, haction, hoffer⟩ := of_submit_awaitsAnswer hd hstep
      exact ⟨offer, step.2, by simp [← haction], hoffer⟩
    · obtain ⟨offer, ownsMedia, hmem, hoffer⟩ := ih hstep h
      exact ⟨offer, ownsMedia, .tail _ hmem, hoffer⟩

/-! ### Exchanges that are not disturbed -/

/-- Whether an action takes a message of the exchange other than the offer by which the peer opens
it. -/
def Disturbs (d : Dialog) (seq : UInt64) (action : Action) : Prop :=
  ∃ message side signal, d.taken? action = some (message, side, signal) ∧ message.seq = seq ∧
    (side = .own ∨ message.kind ≠ .offer ∨ d.exchange? seq ≠ none)

/-- Whether an exchange, if it is there, owes an answer. -/
def OwesAtMost (d : Dialog) (seq : UInt64) : Prop :=
  d.exchange? seq = none ∨ d.phase? seq = some .owesAnswer

theorem owesAtMost_submit {d : Dialog} {seq : UInt64} {action : Action} (h : d.OwesAtMost seq)
    (hkept : ¬ action.Drops seq) (hundisturbed : ¬ d.Disturbs seq action) (ownsMedia : Bool) :
    (d.submit action ownsMedia).state.OwesAtMost seq := by
  have hsame : ∀ e : Dialog, e.exchange? seq = d.exchange? seq → e.OwesAtMost seq := by
    intro e he
    rwa [OwesAtMost, phase?, he]
  cases htaken : d.taken? action with
  | none =>
    refine hsame _ ?_
    rw [(submit_of_none htaken ownsMedia).2, if_neg hkept]
  | some taken =>
    obtain ⟨message, side, signal⟩ := taken
    have hfollows := follows_submit htaken ownsMedia
    by_cases hseq : seq = message.seq
    · subst hseq
      -- all that is left is the peer's offer for a new exchange
      have hnot : ¬ (side = .own ∨ message.kind ≠ .offer ∨ d.exchange? message.seq ≠ none) :=
        fun hor => hundisturbed ⟨message, side, signal, htaken, rfl, hor⟩
      obtain ⟨hside, hkind, hnone⟩ :
          side ≠ .own ∧ message.kind = .offer ∧ d.exchange? message.seq = none := by
        simpa only [not_or, not_not] using hnot
      obtain rfl : side = .peer := by
        cases side with
        | own => exact absurd rfl hside
        | peer => rfl
      have hsignal := ofMessage?_of_taken htaken
      rw [hkind] at hsignal
      cases hsignal
      refine .inr ?_
      rw [phase?, hfollows.exchange_self, hnone]
      exact congrArg some (Exchange.take_opening message ownsMedia)
    · refine hsame _ ?_
      rw [hfollows.exchange, if_neg hseq, exchange?_noted]

theorem owesAtMost_run {seq : UInt64} (steps : List (Action × Bool)) {d : Dialog}
    (h : d.OwesAtMost seq) (hkept : ∀ step ∈ steps, ¬ step.1.Drops seq)
    (hundisturbed : ∀ before step after, steps = before ++ step :: after →
      ¬ (run before d).state.Disturbs seq step.1) :
    (run steps d).state.OwesAtMost seq := by
  induction steps generalizing d with
  | nil => exact h
  | cons step steps ih =>
    obtain ⟨hstep, hsteps⟩ := List.forall_mem_cons.1 hkept
    have hfirst := owesAtMost_submit h hstep (hundisturbed [] step steps rfl) step.2
    refine ih hfirst hsteps fun before step' after heq => ?_
    exact hundisturbed (step :: before) step' after (by rw [heq]; rfl)

/-- An exchange that is there in its life and does not owe an answer was disturbed. -/
theorem exists_disturbs {meeting : String} {seq : UInt64} {earlier life : List (Action × Bool)}
    (hlife : Life meeting seq earlier life)
    (h : ¬ (run (earlier ++ life) { meeting }).state.OwesAtMost seq) :
    ∃ before step after, life = before ++ step :: after ∧
      (run (earlier ++ before) { meeting }).state.Disturbs seq step.1 := by
  by_contra hnone
  refine h ?_
  rw [run_append]
  refine owesAtMost_run life (.inl hlife.absent) hlife.kept fun before step after heq => ?_
  intro hdisturbs
  refine hnone ⟨before, step, after, heq, ?_⟩
  rwa [run_append]

end Dialog

end CallSignaling.Roap
