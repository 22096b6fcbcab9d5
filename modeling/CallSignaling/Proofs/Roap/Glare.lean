import CallSignaling.Proofs.Roap.Course
import CallSignaling.Proofs.Roap.Exchange

/-!
# Offers that cross

When both peers open one exchange, each of them sends its own offer and receives the other's, in
either order.

* `Roap.Exchange.opened`: an exchange that one offer has opened.
* `Roap.Exchange.crossed`: what is left of two offers.
* `Roap.Exchange.Agree`: whether two peers go on with the same offer.
* `Roap.Dialog.Fresh`: whether an exchange is not there and an offer for it would be taken.
* `Roap.Crosses`: whether an own offer and one of the peer are all that concerns an exchange in a
  run.

Main statements: whatever else happens meanwhile, crossing offers leave what the winning one alone
would have left, in either order (`exchange?_run_of_crosses`, `crossed_in_either_order`); and the
peers agree on the winner unless the tie breakers are equal, since then each of them lets the other
one win (`agree_iff_tieBreakers_differ`).
-/

namespace CallSignaling.Roap

/-! ### Two offers of one exchange -/

namespace Exchange

/-- The exchange that an offer opens. -/
def opened (message : Message) (side : Side) : Exchange where
  phase :=
    match side with
    | .own => .awaitsAnswer
    | .peer => .owesAnswer
  offer := some ⟨message, side⟩

/-- The exchange that crossing offers leave. -/
def crossed (own peer : Message) : Exchange :=
  if own.tieBreaker.getD 0 < peer.tieBreaker.getD 0 then opened own .own else opened peer .peer

section Offers

variable {own peer : Message} (ownsMedia : Bool)

theorem take_first {message : Message} {side : Side} {signal : Signal}
    (hkind : message.kind = .offer)
    (hsignal : Signal.ofMessage? message.kind side = some signal) :
    (take message side signal ownsMedia {}).state = opened message side := by
  rw [take, Outcome.andThen_state, Outcome.andThen_state, perform_state, advance,
    store_offer_of_none side (congrArg MessageKind.part? hkind) rfl]
  rw [hkind] at hsignal
  cases side with
  | own =>
    cases hsignal
    rfl
  | peer =>
    cases hsignal
    rfl

theorem take_own_after_peer (hown : own.kind = .offer) :
    ((opened peer .peer).take own .own (.sent .offer) ownsMedia).state = crossed own peer := by
  rw [take, Outcome.andThen_state, Outcome.andThen_state, perform_state, advance,
    store_offer_of_some .own (congrArg MessageKind.part? hown) rfl]
  by_cases hwins : own.tieBreaker.getD 0 < peer.tieBreaker.getD 0 <;>
    simp [settleGlare, resolveGlare?, opened, crossed, glareWinner, step, Phase.next, hwins]

theorem take_peer_after_own (hpeer : peer.kind = .offer) :
    ((opened own .own).take peer .peer (.received .offer) ownsMedia).state =
      crossed own peer := by
  rw [take, Outcome.andThen_state, Outcome.andThen_state, perform_state, advance,
    store_offer_of_some .peer (congrArg MessageKind.part? hpeer) rfl]
  by_cases hwins : own.tieBreaker.getD 0 < peer.tieBreaker.getD 0 <;>
    simp [settleGlare, resolveGlare?, opened, crossed, glareWinner, step, Phase.next, hwins]

end Offers

/-! ### Agreement -/

/-- Whether an exchange goes on with an offer: with an own one while its answer is awaited, with one
of the peer while its answer is owed. -/
def GoesOnWith (x : Exchange) (message : Message) (side : Side) : Prop :=
  x.offer = some ⟨message, side⟩ ∧ x.phase = (opened message side).phase

/-- Whether two peers go on with the same offer, which is the own one of one of them. -/
def Agree (x y : Exchange) : Prop :=
  ∃ message, x.GoesOnWith message .own ∧ y.GoesOnWith message .peer ∨
    x.GoesOnWith message .peer ∧ y.GoesOnWith message .own

theorem goesOnWith_opened (message : Message) (side : Side) :
    (opened message side).GoesOnWith message side :=
  ⟨rfl, rfl⟩

/-- Two peers do not agree if each of them goes on with what it received. -/
theorem not_agree_of_peer (a b : Message) : ¬ Agree (opened b .peer) (opened a .peer) := by
  rintro ⟨message, ⟨⟨hoffer, -⟩, -⟩ | ⟨-, hoffer, -⟩⟩
  · cases hoffer
  · cases hoffer

theorem agree_crossed_iff (a b : Message) :
    Agree (crossed a b) (crossed b a) ↔ a.tieBreaker.getD 0 ≠ b.tieBreaker.getD 0 := by
  unfold crossed
  by_cases heq : a.tieBreaker.getD 0 = b.tieBreaker.getD 0
  · rw [heq, if_neg (UInt32.lt_irrefl _), if_neg (UInt32.lt_irrefl _)]
    exact iff_of_false (not_agree_of_peer a b) (not_not_intro rfl)
  · refine iff_of_true ?_ heq
    rcases UInt32.lt_or_lt_of_ne heq with hlt | hgt
    · rw [if_pos hlt, if_neg (UInt32.lt_asymm hlt)]
      exact ⟨a, .inl ⟨goesOnWith_opened a .own, goesOnWith_opened a .peer⟩⟩
    · rw [if_neg (UInt32.lt_asymm hgt), if_pos hgt]
      exact ⟨b, .inr ⟨goesOnWith_opened b .peer, goesOnWith_opened b .own⟩⟩

end Exchange

/-! ### Crossing offers in a run -/

/-- Whether the offers `own` and `peer` are sent and received, in either order, and nothing else in
the run concerns their exchange. -/
def Crosses (seq : UInt64) (own peer : Message) (steps : List (Action × Bool)) : Prop :=
  Dialog.concerning seq steps = [.send own, .receive peer] ∨
    Dialog.concerning seq steps = [.receive peer, .send own]

namespace Dialog

/-- Whether an exchange is not there, and the message received last is no offer for it. -/
structure Fresh (d : Dialog) (seq : UInt64) : Prop where
  absent : d.exchange? seq = none
  unheard : d.lastReceived ≠ some (seq, .offer)

theorem fresh_new (meeting : String) (seq : UInt64) : Fresh { meeting } seq where
  absent := exchange?_new meeting seq
  unheard := by simp

theorem taken?_bring {d : Dialog} {message : Message} {side : Side} {signal : Signal}
    (hsignal : Signal.ofMessage? message.kind side = some signal)
    (hunheard : side = .peer → d.lastReceived ≠ some (message.seq, message.kind)) :
    d.taken? (.bring message side) = some (message, side, signal) := by
  cases side with
  | own => rw [Action.bring, taken?, hsignal, Option.map_some]
  | peer => rw [Action.bring, taken?, if_neg (hunheard rfl), hsignal, Option.map_some]

/-- A run whose first action about an exchange brings an offer goes on from where the exchange has
taken the offer. -/
theorem exists_of_concerning_eq_bring {d : Dialog} {seq : UInt64} {steps : List (Action × Bool)}
    {message : Message} (side : Side) {signal : Signal} {rest : List Action}
    (h : concerning seq steps = .bring message side :: rest) (hkind : message.kind = .offer)
    (hsignal : Signal.ofMessage? message.kind side = some signal)
    (hunheard : side = .peer → d.lastReceived ≠ some (seq, .offer)) :
    ∃ (e : Dialog) (ownsMedia : Bool) (after : List (Action × Bool)),
      (run steps d).state = (run after e).state ∧ concerning seq after = rest ∧
      e.exchange? seq =
        some (((d.exchange? seq).getD {}).take message side signal ownsMedia).state ∧
      (side = .own → d.lastReceived ≠ some (seq, .offer) →
        e.lastReceived ≠ some (seq, .offer)) := by
  obtain ⟨before, ownsMedia, after, rfl, hconcerns, hbefore, hafter⟩ := of_concerning_eq_cons h
  obtain rfl := Action.concerns_bring_iff.1 hconcerns
  have hexchange := exchange?_run_of_concerning_nil hbefore d
  have hkept : d.lastReceived ≠ some (message.seq, .offer) →
      (run before d).state.lastReceived ≠ some (message.seq, .offer) :=
    lastReceived_run_of_concerning_nil hbefore
  have htaken : (run before d).state.taken? (.bring message side) = some (message, side, signal) :=
    taken?_bring hsignal fun hside => hkind.symm ▸ hkept (hunheard hside)
  have hfollows := follows_submit htaken ownsMedia
  refine ⟨_, ownsMedia, after, ?_, hafter, hexchange ▸ hfollows.exchange_self, ?_⟩
  · rw [run_append, Outcome.andThen_state, run_cons, Outcome.andThen_state]
  · rintro rfl hd
    rw [hfollows.lastReceived]
    exact hkept hd

/-- If two offers from different sides are all that concerns a fresh exchange, the second one is
taken where the first one has opened the exchange. -/
theorem exchange?_run_of_two {d : Dialog} {seq : UInt64} {steps : List (Action × Bool)}
    {first second : Message} {side other : Side} {signal signal' : Signal} (hd : d.Fresh seq)
    (h : concerning seq steps = [.bring first side, .bring second other])
    (hfirst : first.kind = .offer) (hsecond : second.kind = .offer) (hsides : side ≠ other)
    (hsignal : Signal.ofMessage? first.kind side = some signal)
    (hsignal' : Signal.ofMessage? second.kind other = some signal') :
    ∃ ownsMedia, (run steps d).state.exchange? seq =
      some ((Exchange.opened first side).take second other signal' ownsMedia).state := by
  obtain ⟨e, owns, mid, hrun, hmid, hopened, hunheard⟩ :=
    exists_of_concerning_eq_bring side h hfirst hsignal fun _ => hd.unheard
  rw [hd.absent, Option.getD_none, Exchange.take_first owns hfirst hsignal] at hopened
  have hunheard' : other = .peer → e.lastReceived ≠ some (seq, .offer) := by
    rintro rfl
    cases side with
    | own => exact hunheard rfl hd.unheard
    | peer => exact absurd rfl hsides
  obtain ⟨f, owns', last, hrun', hlast, htaken, -⟩ :=
    exists_of_concerning_eq_bring other hmid hsecond hsignal' hunheard'
  rw [hopened, Option.getD_some] at htaken
  exact ⟨owns', by rw [hrun, hrun', exchange?_run_of_concerning_nil hlast, htaken]⟩

/-- Crossing offers leave what the winning one alone would have left, in either order and whatever
happens to other exchanges meanwhile. -/
theorem exchange?_run_of_crosses {d : Dialog} {seq : UInt64} {own peer : Message}
    {steps : List (Action × Bool)} (hd : d.Fresh seq) (hown : own.kind = .offer)
    (hpeer : peer.kind = .offer) (h : Crosses seq own peer steps) :
    (run steps d).state.exchange? seq = some (.crossed own peer) := by
  have hsent : Signal.ofMessage? own.kind .own = some (.sent .offer) := by rw [hown]; rfl
  have hreceived : Signal.ofMessage? peer.kind .peer = some (.received .offer) := by rw [hpeer]; rfl
  rcases h with h | h
  · obtain ⟨ownsMedia, hrun⟩ :=
      exchange?_run_of_two hd h hown hpeer (by simp) hsent hreceived
    rw [hrun, Exchange.take_peer_after_own ownsMedia hpeer]
  · obtain ⟨ownsMedia, hrun⟩ :=
      exchange?_run_of_two hd h hpeer hown (by simp) hreceived hsent
    rw [hrun, Exchange.take_own_after_peer ownsMedia hown]

/-- **Glare is resolved alike in either order.**  Where an exchange is fresh, sending an offer
before one of the peer is received and receiving it first leave the same exchange, whatever else is
done to other exchanges before, between and after: the answer to the own offer is awaited if its tie
breaker is the smaller one, and an answer to the peer's offer is owed otherwise. -/
theorem crossed_in_either_order {d : Dialog} {seq : UInt64} {own peer : Message}
    {first second : List (Action × Bool)} (hd : d.Fresh seq) (hown : own.kind = .offer)
    (hpeer : peer.kind = .offer) (hfirst : concerning seq first = [.send own, .receive peer])
    (hsecond : concerning seq second = [.receive peer, .send own]) :
    (run first d).state.exchange? seq = (run second d).state.exchange? seq ∧
      (run second d).state.exchange? seq =
        some
          (if own.tieBreaker.getD 0 < peer.tieBreaker.getD 0 then
            { phase := .awaitsAnswer, offer := some ⟨own, .own⟩ }
          else { phase := .owesAnswer, offer := some ⟨peer, .peer⟩ }) := by
  have h := exchange?_run_of_crosses hd hown hpeer (.inl hfirst)
  have h' := exchange?_run_of_crosses hd hown hpeer (.inr hsecond)
  exact ⟨h.trans h'.symm, h'⟩

/-- An offer with the smaller tie breaker comes from the peer, among messages of other exchanges. -/
theorem crossed_in_either_order_peerWins :
    let own := Message.offer 1 ["own"] 5
    let peer := Message.offer 1 ["peer"] 3
    let first := [(.send own, true), (.receive (.offer 2 ["other"] 1), true), (.receive peer, true)]
    let second := [(.reset 3, true), (.receive peer, false), (.sendSuccess (.ok 2), true),
      (.send own, true)]
    (run first { meeting := "m" }).state.exchange? 1 =
        (run second { meeting := "m" }).state.exchange? 1 ∧
      (run second { meeting := "m" }).state.exchange? 1 =
        some { phase := .owesAnswer, offer := some ⟨peer, .peer⟩ } := by
  intro own peer first second
  have hown : own.kind = .offer := rfl
  have hpeer : peer.kind = .offer := rfl
  have hfirst : concerning 1 first = [.send own, .receive peer] := rfl
  have hsecond : concerning 1 second = [.receive peer, .send own] := rfl
  exact crossed_in_either_order (fresh_new "m" 1) hown hpeer hfirst hsecond

/-- **Peers agree on the winner of glare unless the tie breakers are equal.**  Where an exchange is
fresh with both of two peers and one sends what the other receives, in any order on each side and
whatever is done to other exchanges, just one of the offers stays with both of them if the tie
breakers differ.  If they are equal each peer goes on with the offer of the other one. -/
theorem agree_iff_tieBreakers_differ {d e : Dialog} {seq : UInt64} {a b : Message}
    {steps steps' : List (Action × Bool)} (hd : d.Fresh seq) (he : e.Fresh seq)
    (ha : a.kind = .offer) (hb : b.kind = .offer) (hsteps : Crosses seq a b steps)
    (hsteps' : Crosses seq b a steps') :
    ∃ x y, (run steps d).state.exchange? seq = some x ∧
      (run steps' e).state.exchange? seq = some y ∧
      (x.Agree y ↔ a.tieBreaker.getD 0 ≠ b.tieBreaker.getD 0) ∧
      (a.tieBreaker.getD 0 = b.tieBreaker.getD 0 →
        x.GoesOnWith b .peer ∧ y.GoesOnWith a .peer) := by
  refine ⟨_, _, exchange?_run_of_crosses hd ha hb hsteps,
    exchange?_run_of_crosses he hb ha hsteps', Exchange.agree_crossed_iff a b, fun heq => ?_⟩
  unfold Exchange.crossed
  rw [heq, if_neg (UInt32.lt_irrefl _), if_neg (UInt32.lt_irrefl _)]
  exact ⟨Exchange.goesOnWith_opened b .peer, Exchange.goesOnWith_opened a .peer⟩

/-- Two new dialogs with tie breakers that differ, each of which sends before it receives. -/
theorem agree_iff_tieBreakers_differ_bothSendFirst :
    let a := Message.offer 1 ["a"] 3
    let b := Message.offer 1 ["b"] 5
    ∃ x y,
      (run [(.send a, true), (.receive b, true)] { meeting := "m" }).state.exchange? 1 = some x ∧
      (run [(.send b, true), (.receive a, true)] { meeting := "m" }).state.exchange? 1 = some y ∧
      (x.Agree y ↔ (3 : UInt32) ≠ 5) ∧
      ((3 : UInt32) = 5 → x.GoesOnWith b .peer ∧ y.GoesOnWith a .peer) := by
  intro a b
  have ha : a.kind = .offer := rfl
  have hb : b.kind = .offer := rfl
  have hsteps : Crosses 1 a b [(.send a, true), (.receive b, true)] := .inl rfl
  have hsteps' : Crosses 1 b a [(.send b, true), (.receive a, true)] := .inl rfl
  exact agree_iff_tieBreakers_differ (fresh_new "m" 1) (fresh_new "m" 1) ha hb hsteps hsteps'

/-- Two offers with one tie breaker: each peer keeps the offer of the other one and owes the answer
to it. -/
theorem equalTieBreakers_disagree :
    let a := Message.offer 1 ["a"] 7
    let b := Message.offer 1 ["b"] 7
    (run [(.send a, true), (.receive b, true)] { meeting := "m" }).state.exchange? 1 =
        some (.opened b .peer) ∧
      (run [(.send b, true), (.receive a, true)] { meeting := "m" }).state.exchange? 1 =
        some (.opened a .peer) ∧
      ¬ Exchange.Agree (.opened b .peer) (.opened a .peer) :=
  ⟨rfl, rfl, Exchange.not_agree_of_peer _ _⟩

end Dialog

end CallSignaling.Roap
