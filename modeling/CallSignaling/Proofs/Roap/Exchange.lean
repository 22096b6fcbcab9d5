import CallSignaling.Roap.Exchange

/-!
# How an exchange gets where it is

* `Roap.Phase.Leads`: what leads from a phase to another one.
* `Roap.Phase.of_next_owesAnswer` and its like: what leads to rest and to each phase in which something
  is awaited or owed.
* `Roap.Signal.received_of_message`, `Roap.Signal.sent_of_message`: the message behind a signal.
* `Roap.Exchange.store_offer_of_none`, `Roap.Exchange.store_offer_of_some`,
  `Roap.Exchange.store_of_ne_offer`: what storing a message changes; `Roap.Exchange.store_keeps`: what
  it leaves alone.
* `Roap.Exchange.resolveGlare?_eq_none_iff`, `Roap.Exchange.of_resolveGlare?`: when glare cannot be
  resolved, and what resolving it leaves.
-/

namespace CallSignaling.Roap

/-! ### Phases -/

namespace Phase

/-- What leads from a phase to another one, one case for each signal that is expected. -/
inductive Leads : Phase → Signal → Phase → Prop
  | rests {s : Signal} (hreceived : s ≠ .received .offer) (hsent : s ≠ .sent .offer) :
      Leads idle s idle
  | receivesOffer : Leads idle (.received .offer) owesAnswer
  | sendsOffer : Leads idle (.sent .offer) awaitsAnswer
  | sendsAnswer : Leads owesAnswer (.sent .answer) awaitsOk
  | receivesOk : Leads awaitsOk (.received .ok) idle
  | receivesAnswer : Leads awaitsAnswer (.received .answer) owesOk
  | sendsOk : Leads owesOk (.sent .ok) idle
  | offersToo : Leads owesAnswer (.sent .offer) glare
  | peerOffersToo : Leads awaitsAnswer (.received .offer) glare
  | yields : Leads glare (.glareResolved .peer) owesAnswer
  | prevails : Leads glare (.glareResolved .own) awaitsAnswer
  | fails {p : Phase} {s : Signal} : Leads p s failed

theorem leads_next (p : Phase) (s : Signal) : Leads p s (p.next s) := by
  unfold next
  split
  case h_6 hreceived hsent => exact .rests hreceived hsent
  all_goals constructor

theorem of_next_owesAnswer {p : Phase} {s : Signal} (h : p.next s = .owesAnswer) :
    p = .idle ∧ s = .received .offer ∨ p = .glare ∧ s = .glareResolved .peer := by
  have hleads := h ▸ leads_next p s
  cases hleads with
  | receivesOffer => exact .inl ⟨rfl, rfl⟩
  | yields => exact .inr ⟨rfl, rfl⟩

theorem of_next_awaitsAnswer {p : Phase} {s : Signal} (h : p.next s = .awaitsAnswer) :
    p = .idle ∧ s = .sent .offer ∨ p = .glare ∧ s = .glareResolved .own := by
  have hleads := h ▸ leads_next p s
  cases hleads with
  | sendsOffer => exact .inl ⟨rfl, rfl⟩
  | prevails => exact .inr ⟨rfl, rfl⟩

theorem of_next_awaitsOk {p : Phase} {s : Signal} (h : p.next s = .awaitsOk) :
    p = .owesAnswer ∧ s = .sent .answer := by
  have hleads := h ▸ leads_next p s
  cases hleads with
  | sendsAnswer => exact ⟨rfl, rfl⟩

theorem of_next_owesOk {p : Phase} {s : Signal} (h : p.next s = .owesOk) :
    p = .awaitsAnswer ∧ s = .received .answer := by
  have hleads := h ▸ leads_next p s
  cases hleads with
  | receivesAnswer => exact ⟨rfl, rfl⟩

theorem of_next_glare {p : Phase} {s : Signal} (h : p.next s = .glare) :
    p = .owesAnswer ∧ s = .sent .offer ∨ p = .awaitsAnswer ∧ s = .received .offer := by
  have hleads := h ▸ leads_next p s
  cases hleads with
  | offersToo => exact .inl ⟨rfl, rfl⟩
  | peerOffersToo => exact .inr ⟨rfl, rfl⟩

theorem of_next_idle {p : Phase} {s : Signal} (h : p.next s = .idle) :
    (p = .idle ∨ p = .awaitsOk ∨ p = .owesOk) ∧ s ≠ .received .offer ∧ s ≠ .sent .offer := by
  have hleads := h ▸ leads_next p s
  cases hleads with
  | rests hreceived hsent => exact ⟨.inl rfl, hreceived, hsent⟩
  | receivesOk => exact ⟨.inr (.inl rfl), by simp, by simp⟩
  | sendsOk => exact ⟨.inr (.inr rfl), by simp, by simp⟩

/-- An offer of the peer is expected at rest and while an answer is awaited. -/
theorem of_next_received_offer {p : Phase} (h : p.next (.received .offer) ≠ .failed) :
    p = .idle ∨ p = .awaitsAnswer := by
  cases p <;> simp_all [next]

end Phase

/-! ### Signals -/

namespace Signal

theorem received_of_message {kind : MessageKind} {side : Side} {part : Part}
    (h : ofMessage? kind side = some (.received part)) : side = .peer ∧ kind.part? = some part := by
  cases side with
  | own =>
    obtain ⟨_, -, hsent⟩ := Option.map_eq_some_iff.1 h
    cases hsent
  | peer =>
    obtain ⟨_, hpart, hreceived⟩ := Option.map_eq_some_iff.1 h
    cases hreceived
    exact ⟨rfl, hpart⟩

theorem sent_of_message {kind : MessageKind} {side : Side} {part : Part}
    (h : ofMessage? kind side = some (.sent part)) : side = .own ∧ kind.part? = some part := by
  cases side with
  | own =>
    obtain ⟨_, hpart, hsent⟩ := Option.map_eq_some_iff.1 h
    cases hsent
    exact ⟨rfl, hpart⟩
  | peer =>
    obtain ⟨_, -, hreceived⟩ := Option.map_eq_some_iff.1 h
    cases hreceived

/-- Glare is not decided by a message. -/
theorem ofMessage?_ne_glareResolved {kind : MessageKind} {side winner : Side} :
    ofMessage? kind side ≠ some (.glareResolved winner) := by
  intro h
  cases side <;> simp [ofMessage?] at h

end Signal

/-! ### Stored messages -/

theorem MessageKind.part?_eq_offer_iff {kind : MessageKind} :
    kind.part? = some .offer ↔ kind = .offer := by
  cases kind <;> simp [part?]

namespace Exchange

/-- A first offer has the first place. -/
theorem store_offer_of_none {x : Exchange} {message : Message} (side : Side)
    (hkind : message.kind.part? = some .offer) (h : x.offer = none) :
    (x.store message side).1 = { x with offer := some ⟨message, side⟩ } := by
  simp [store, hkind, h, put]

/-- A further offer has the second place. -/
theorem store_offer_of_some {x : Exchange} {message : Message} (side : Side) {first : Stored}
    (hkind : message.kind.part? = some .offer) (h : x.offer = some first) :
    (x.store message side).1 = { x with glareOffer := some ⟨message, side⟩ } := by
  simp [store, hkind, h, put]

theorem store_of_ne_offer {x : Exchange} {message : Message} (side : Side) {part : Part}
    (hkind : message.kind.part? = some part) (h : part ≠ .offer) :
    (x.store message side).1 = x.put (.part part) ⟨message, side⟩ := by
  simp [store, hkind, h]

theorem glareOffer_store {x : Exchange} {message : Message} (side : Side)
    (hkind : message.kind ≠ .offer) : (x.store message side).1.glareOffer = x.glareOffer := by
  cases hpart : message.kind.part? with
  | none => rw [store, hpart]
  | some part =>
    have hne : part ≠ .offer := by
      rintro rfl
      exact hkind (MessageKind.part?_eq_offer_iff.1 hpart)
    rw [store_of_ne_offer side hpart hne]
    cases part with
    | offer => exact absurd rfl hne
    | answer => rfl
    | ok => rfl
    | error => rfl

theorem offer_isSome_store {x : Exchange} {message : Message} (side : Side)
    (hkind : message.kind.part? = some .offer) : (x.store message side).1.offer.isSome = true := by
  cases h : x.offer with
  | none => simp [store_offer_of_none side hkind h]
  | some first => simp [store_offer_of_some side hkind h, h]

/-- Storing a message moves and ends nothing. -/
theorem store_keeps (x : Exchange) (message : Message) (side : Side) :
    (x.store message side).1.phase = x.phase ∧ (x.store message side).1.finished = x.finished := by
  unfold store
  split
  · exact ⟨rfl, rfl⟩
  · rename_i part _
    split
    · exact ⟨rfl, rfl⟩
    · cases part <;> exact ⟨rfl, rfl⟩

/-! ### Glare -/

/-- With two offers glare can be resolved. -/
theorem resolveGlare?_eq_none_iff {x : Exchange} :
    x.resolveGlare? = none ↔ x.offer = none ∨ x.glareOffer = none := by
  unfold resolveGlare?
  cases x.offer <;> cases x.glareOffer <;> simp

/-- One of the two offers stays.  If they are from both sides, it is the winner's. -/
theorem of_resolveGlare? {x y : Exchange} {winner : Side}
    (h : x.resolveGlare? = some (y, winner)) :
    ∃ first second kept, x.offer = some first ∧ x.glareOffer = some second ∧
      y = { x with offer := some kept, glareOffer := none } ∧ (kept = first ∨ kept = second) ∧
      (first.side ≠ second.side → kept.side = winner) := by
  simp only [resolveGlare?, Option.bind_eq_bind, Option.bind_eq_some_iff, Option.pure_def] at h
  obtain ⟨first, hfirst, second, hsecond, heq⟩ := h
  cases heq
  refine ⟨first, second, _, hfirst, hsecond, rfl, ?_, ?_⟩
  · cases first.side <;> cases glareWinner _ _ <;> simp
  · intro hsides
    cases hside : first.side <;> cases hother : second.side <;> grind

end Exchange

end CallSignaling.Roap
