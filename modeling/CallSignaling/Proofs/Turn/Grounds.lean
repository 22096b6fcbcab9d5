import CallSignaling.Proofs.Media.Delivery
import CallSignaling.Proofs.Turn.Calls

/-!
# What calls go by

A call of discovery knows its exchange, the completion that reached it, and the answers to what it
sent.  What it does next rests on these, and they stay true whatever others do.

* `Turn.Tracked.go`: the steps of a call keep the slot and its history together.
* `Turn.Earned`: what has to be true for a server to be returned.
* `Turn.Point.Grounded`: what is true when a call has come to a point.
* `Turn.Call.Sound`: a call is where it may be.  Whatever happens keeps it so: `Call.Sound.go`,
  `Call.Sound.replied`, `Call.Sound.wake` and `Call.Sound.later`.
* `Turn.LineSound`: what calls sent is what was put on the wire for them (`LineSound.trip`).
-/

namespace CallSignaling.Turn

open Media (Response)
open Roap (Message)

/-! ### The slot -/

@[simp] theorem Point.carried?_afterResponse (own : Option Nat) :
    (afterResponse own).carried? = none := by
  cases own <;> rfl

/-- The answer to a request only tells a call where to go on. -/
theorem Stage.answered_spec (stage : Stage) (reply : Except TransportError Response)
    (d : Discovery) :
    (stage.answered reply d).outcome.state = d ∧ (stage.answered reply d).outcome.effects = [] ∧
      (stage.answered reply d).point.carried? = none := by
  rcases stage with g | ⟨g, info⟩
  · rcases reply with e | response
    · exact ⟨rfl, rfl, rfl⟩
    · simp only [Stage.answered]
      rcases response.embedded? with e | _ | message <;> exact ⟨rfl, rfl, rfl⟩
  · cases reply <;> exact ⟨rfl, rfl, rfl⟩

namespace Tracked

variable {d : Discovery} {h : History} {carried : List (Nat × Completion)}

/-- A step that leaves what the slot shows writes nothing down. -/
theorem same {s t : Slot} (ht : Tracked s h carried) (hst : s.Keeps t) :
    Tracked t (h.append (.recorded s t {})) carried := by
  rw [History.recorded_of_same hst.next hst.generation]
  exact (History.append_nil h).symm ▸ ht.keep hst (.refl _)

/-- The steps of a call keep the slot and its history together. -/
theorem go (point : Point) (ht : Tracked d.slot h (point.carried?.toList ++ carried)) :
    Tracked (point.go d).outcome.state.slot
      (h.append (.recorded d.slot (point.go d).outcome.state.slot (point.news d.slot)))
      ((point.go d).point.carried?.toList ++ carried) := by
  cases point with
  | responding own message source =>
    rcases d.slot.claim_cases with ⟨hclosed, hclaim⟩ | ⟨g, t, hopen, hclaim, hnext, hgen, -, -⟩
    · simp only [Point.go, hclaim, Outcome.stay_state, Point.carried?_afterResponse]
      rw [History.recorded_of_same rfl rfl]
      exact ht.ignore hclosed message source
    · have hresponse := ht.respond hclaim message source
      simp only [Point.go, hclaim, Outcome.stay_state]
      rw [History.recorded_of_same hnext hgen, Point.news, Slot.generation?_of_open? hopen]
      exact hresponse
  | delivering own claimed completion =>
    obtain ⟨hnext, hgen, -⟩ := d.slot.put_spec claimed completion
    have hput := ht.put
    simp only [Point.go, Point.carried?_afterResponse]
    rw [History.recorded_of_same hnext hgen]
    exact hput
  | receiving generation =>
    obtain ⟨hkeeps, -⟩ := d.slot.receive_spec generation
    have hsame := ht.same hkeeps
    simp only [Point.go]
    cases hreceive : d.slot.receive generation with
    | mk slot reception =>
      rw [hreceive] at hsame
      cases reception <;> exact hsame
  | completed generation completion =>
    have hsame := ht.same (.refl d.slot)
    cases completion with
    | error e => exact hsame
    | ok resolved =>
      rw [Point.go]
      split <;> exact hsame
  | finishing generation outcome =>
    simp only [Point.go, Discovery.slot_finish, Point.news]
    rcases d.slot.finish_cases generation with ⟨-, hfinish⟩ | ⟨hgen, hfinish⟩
    · rw [hfinish]
      exact ht.same (.refl d.slot)
    · rw [hfinish, History.recorded_clear]
      exact ht.clear (List.nil_sublist _)
  | sent stage => exact ht.same (.refl d.slot)
  | waiting generation => exact ht.same (.refl d.slot)
  | returned result => exact ht.same (.refl d.slot)
  | handled => exact ht.same (.refl d.slot)

end Tracked

/-! ### A call -/

/-- How a result is counted. -/
def Result.outcome : Result → Metric.TurnOutcome
  | found _ => .success
  | skipped _ => .skipped
  | failed => .failure

/-- The outcomes of discovery that measurements count. -/
def turnOutcomes (metrics : List Metric) : List Metric.TurnOutcome :=
  metrics.filterMap fun
    | .turnDiscovery outcome => some outcome
    | _ => none

/-- Whether a call that has come to a point has returned. -/
def Point.returns : Point → Bool
  | returned _ => true
  | _ => false

/-- The outcomes that a call has counted when it comes to a point. -/
def Point.outcomes : Point → List Metric.TurnOutcome
  | returned (.ok result) => [result.outcome]
  | _ => []

/-- Who has been answered what. -/
abbrev Answers := List (Client × Except TransportError Response)

/-- The first response to an exchange names a server, and was acknowledged by the call in place `i`
if that was expected. -/
def Earned (h : History) (answered : Answers) (i generation : Nat) (info : Info) : Prop :=
  ∃ resolved, h.resolution? generation = some (.ok resolved) ∧ resolved.info = info ∧
    (resolved.okRequired = true →
      ∃ reply, (.call i (.acknowledged generation info), .ok reply) ∈ answered)

/-- What a call in place `i` goes by at a point. -/
def Point.Grounded (h : History) (answered : Answers) (i : Nat) (exchange : Option Nat) :
    Point → Prop
  | sent (.acknowledged generation info) =>
    ∃ resolved, h.resolution? generation = some (.ok resolved) ∧ resolved.info = info
  | completed generation completion => (generation, completion) ∈ h.completions
  | finishing generation (.ok info) => Earned h answered i generation info
  | returned (.ok (.found info)) =>
    ∃ generation, exchange = some generation ∧ Earned h answered i generation info
  | _ => True

/-- A call in place `i` is where it may be. -/
structure Call.Sound (h : History) (answered : Answers) (i : Nat) (c : Call) : Prop where
  /-- Until it returns it is busy with its own exchange. -/
  own : c.point.exchange? = c.exchange ∨ ∃ result, c.point = .returned result
  opened : ∀ g ∈ c.exchange, g ∈ h.opened
  grounded : c.point.Grounded h answered i c.exchange
  counted : c.origin = .discover → turnOutcomes c.metrics = c.point.outcomes
  /-- Discovery never fails outward, and its exchange is over when it returns. -/
  ended : c.origin = .discover → ∀ result, c.point = .returned result →
    (∃ r, result = .ok r) ∧ ∀ g ∈ c.exchange, g ∈ h.ended

theorem Earned.later {h news : History} {answered answered' : Answers} {i g : Nat} {info : Info}
    (he : Earned h answered i g info) (hsub : answered ⊆ answered') :
    Earned (h.append news) answered' i g info := by
  obtain ⟨resolved, hres, hinfo, hack⟩ := he
  refine ⟨resolved, History.resolution?_append hres, hinfo, fun hok => ?_⟩
  obtain ⟨reply, hreply⟩ := hack hok
  exact ⟨reply, hsub hreply⟩

theorem Point.Grounded.later {h news : History} {answered answered' : Answers} {i : Nat}
    {exchange : Option Nat} {point : Point} (hp : point.Grounded h answered i exchange)
    (hsub : answered ⊆ answered') : point.Grounded (h.append news) answered' i exchange := by
  unfold Grounded at hp ⊢
  split at hp
  · obtain ⟨resolved, hres, hinfo⟩ := hp
    exact ⟨resolved, History.resolution?_append hres, hinfo⟩
  · exact List.mem_append_left _ hp
  · exact hp.later hsub
  · obtain ⟨generation, hexchange, hearned⟩ := hp
    exact ⟨generation, hexchange, hearned.later hsub⟩
  · trivial

namespace Call.Sound

variable {h : History} {answered : Answers} {i : Nat} {c : Call}

/-- What a call goes by stays true. -/
theorem later {news : History} {answered' : Answers} (hc : c.Sound h answered i)
    (hsub : answered ⊆ answered') : c.Sound (h.append news) answered' i where
  own := hc.own
  opened := fun g hg => List.mem_append_left _ (hc.opened g hg)
  grounded := hc.grounded.later hsub
  counted := hc.counted
  ended := fun horigin result hresult =>
    (hc.ended horigin result hresult).imp_right fun hended g hg =>
      List.mem_append_left _ (hended g hg)

/-- A call that does not ask for a server may start anywhere that rests on what is known. -/
theorem start {origin : Origin} {m : Move} (horigin : origin ≠ .discover)
    (hopened : ∀ g ∈ m.point.exchange?, g ∈ h.opened)
    (hgrounded : m.point.Grounded h answered i m.point.exchange?) :
    (Call.start origin m).Sound h answered i where
  own := .inl rfl
  opened := hopened
  grounded := hgrounded
  counted := fun h => absurd h horigin
  ended := fun h => absurd h horigin

theorem mono {answered' : Answers} (hc : c.Sound h answered i) (hsub : answered ⊆ answered') :
    c.Sound h answered' i := by
  have hlater : c.Sound (h.append {}) answered' i := hc.later hsub
  rwa [History.append_nil] at hlater

/-- A completion that was put in may reach the call. -/
theorem wake {g : Nat} {completion : Completion} (hc : c.Sound h answered i)
    (hmem : (g, completion) ∈ h.completions) : (c.wake g completion).Sound h answered i := by
  unfold Call.wake
  split
  · rename_i own hpoint
    split
    · rename_i hown
      have hexchange : c.exchange = some g := by
        rcases hc.own with hexchange | ⟨result, hreturned⟩
        · rw [← hexchange, hpoint, ← hown]
          rfl
        · rw [hreturned] at hpoint
          cases hpoint
      refine ⟨.inl hexchange.symm, hc.opened, hmem, fun horigin => ?_, fun _ _ h => by cases h⟩
      rw [hc.counted horigin, hpoint]
      rfl
    · exact hc
  · exact hc

/-- The exchange of a call that has not returned is that of its point. -/
theorem exchange_eq (hc : c.Sound h answered i) (hpoint : c.point.returns = false) :
    c.point.exchange? = c.exchange := by
  rcases hc.own with hown | ⟨result, hreturned⟩
  · exact hown
  · rw [hreturned] at hpoint
    cases hpoint

/-- A call that goes on is where it may be, if its new point is that of the same exchange, rests on
what is known, and is counted. -/
theorem move {m : Move} {news : History} (hc : c.Sound h answered i)
    (hpoint : c.point.returns = false)
    (hown : m.point.exchange? = c.point.exchange? ∨ ∃ result, m.point = .returned result)
    (hgrounded : m.point.Grounded (h.append news) answered i c.exchange)
    (hcounted : turnOutcomes m.outcome.metrics = m.point.outcomes)
    (hover : ∀ result, m.point = .returned result →
      (∃ r, result = .ok r) ∧ ∀ g ∈ c.exchange, g ∈ (h.append news).ended) :
    (c.move m).Sound (h.append news) answered i where
  own := hown.imp_left (Eq.trans · (hc.exchange_eq hpoint))
  opened := fun g hg => List.mem_append_left _ (hc.opened g hg)
  grounded := hgrounded
  counted := fun horigin => by
    have hnone : c.point.outcomes = [] := by
      cases h : c.point with
      | returned result =>
        rw [h] at hpoint
        cases hpoint
      | _ => rfl
    rw [turnOutcomes, Call.move, List.filterMap_append, ← turnOutcomes, ← turnOutcomes,
      hc.counted horigin, hnone, hcounted]
    rfl
  ended := fun _ => hover

/-- The same for a call that does not return. -/
theorem advance {m : Move} {news : History} (hc : c.Sound h answered i)
    (hpoint : c.point.returns = false) (hnext : m.point.returns = false)
    (hown : m.point.exchange? = c.point.exchange?)
    (hgrounded : m.point.Grounded (h.append news) answered i c.exchange)
    (hcounted : turnOutcomes m.outcome.metrics = m.point.outcomes) :
    (c.move m).Sound (h.append news) answered i := by
  refine hc.move hpoint (.inl hown) hgrounded hcounted fun result hresult => ?_
  rw [hresult] at hnext
  cases hnext

/-- A call that stays where it is. -/
theorem stay {d : Discovery} {news : History} (hc : c.Sound h answered i) :
    (c.move ⟨.stay d, c.point⟩).Sound (h.append news) answered i := by
  have hsame : c.move ⟨.stay d, c.point⟩ = c := by
    rw [Call.move, Outcome.stay_metrics, List.append_nil]
  rw [hsame]
  exact hc.later (List.Subset.refl _)

/-- The steps of a call lead it where it may be. -/
theorem go {d : Discovery} {carried : List (Nat × Completion)}
    (ht : Tracked d.slot h (c.point.carried?.toList ++ carried)) (hc : c.Sound h answered i) :
    (c.move (c.point.go d)).Sound
      (h.append (.recorded d.slot (c.point.go d).outcome.state.slot (c.point.news d.slot)))
      answered i := by
  have ht' := ht.go c.point
  obtain ⟨origin, exchange, point, metrics⟩ := c
  cases point with
  | responding own message source =>
    rcases d.slot.claim_cases with ⟨-, hclaim⟩ | ⟨g, t, -, hclaim, -⟩
    · simp only [Point.go, hclaim]
      cases own <;> exact hc.advance rfl rfl rfl trivial rfl
    · simp only [Point.go, hclaim]
      exact hc.advance rfl rfl rfl trivial rfl
  | delivering own claimed completion =>
    simp only [Point.go]
    cases own <;> exact hc.advance rfl rfl rfl trivial rfl
  | receiving generation =>
    have hreceive := (d.slot.receive_spec generation).2
    simp only [Point.go]
    cases h : d.slot.receive generation with
    | mk slot reception =>
      rw [h] at hreceive
      cases reception with
      | gone => exact hc.advance rfl rfl rfl trivial rfl
      | waits => exact hc.advance rfl rfl rfl trivial rfl
      | completed completion =>
        have hfull := ht.full _ (hreceive completion rfl)
        exact hc.advance rfl rfl rfl (List.mem_append_left _ hfull) rfl
  | completed generation completion =>
    have hmem : (generation, completion) ∈ h.completions := hc.grounded
    cases completion with
    | error e => exact hc.advance rfl rfl rfl trivial rfl
    | ok resolved =>
      -- an exchange given up before any response has another completion
      have hres : h.resolution? generation = some (.ok resolved) := by
        refine (ht.settled _ hmem).resolve_right ?_
        rintro ⟨haborted, -⟩
        cases haborted
      simp only [Point.go]
      split
      · exact hc.advance rfl rfl rfl ⟨resolved, History.resolution?_append hres, rfl⟩ rfl
      · rename_i hok
        refine hc.advance rfl rfl rfl ⟨resolved, ?_, rfl, fun h => absurd h hok⟩ rfl
        exact History.resolution?_append hres
  | finishing generation outcome =>
    have hexchange : some generation = exchange := hc.exchange_eq rfl
    have hnot : (d.finish generation outcome).state.slot.generation? ≠ some generation := by
      rw [Discovery.slot_finish]
      exact d.slot.generation?_finish generation
    refine hc.move rfl (.inr ⟨_, rfl⟩) ?_ ?_ fun result hresult => ?_
    · cases outcome with
      | error e => trivial
      | ok info => exact ⟨generation, hexchange.symm, hc.grounded.later (List.Subset.refl _)⟩
    · cases outcome <;> rfl
    · cases hresult
      refine ⟨⟨_, rfl⟩, fun g hg => ?_⟩
      obtain rfl : generation = g := Option.some.inj (hexchange.trans hg)
      exact ht'.mem_ended (List.mem_append_left _ (hc.opened _ hg)) hnot
  | sent stage => exact hc.stay
  | waiting generation => exact hc.stay
  | returned result => exact hc.stay
  | handled => exact hc.stay

/-- The answer to its request leads a call where it may be. -/
theorem replied {d : Discovery} {stage : Stage} {reply : Except TransportError Response}
    {news : History} (hpoint : c.point = .sent stage) (hreply : (.call i stage, reply) ∈ answered)
    (hc : c.Sound h answered i) :
    (c.move (stage.answered reply d)).Sound (h.append news) answered i := by
  obtain ⟨origin, exchange, point, metrics⟩ := c
  cases hpoint
  cases stage with
  | requested generation =>
    cases reply with
    | error e => exact hc.advance rfl rfl rfl trivial rfl
    | ok response =>
      simp only [Stage.answered]
      cases response.embedded? with
      | error e => exact hc.advance rfl rfl rfl trivial rfl
      | ok embedded => cases embedded <;> exact hc.advance rfl rfl rfl trivial rfl
  | acknowledged generation info =>
    cases reply with
    | error e => exact hc.advance rfl rfl rfl trivial rfl
    | ok response =>
      obtain ⟨resolved, hres, hinfo⟩ := hc.grounded
      refine hc.advance rfl rfl rfl ⟨resolved, ?_, hinfo, fun _ => ⟨response, hreply⟩⟩ rfl
      exact History.resolution?_append hres

/-- A call that has waited in vain gives up. -/
theorem giveUp {d : Discovery} {generation : Nat} {e : TurnError} {news : History}
    (hpoint : c.point = .waiting generation) (hc : c.Sound h answered i) :
    (c.move ⟨.stay d, .finishing generation (.error e)⟩).Sound (h.append news) answered i := by
  obtain ⟨origin, exchange, point, metrics⟩ := c
  cases hpoint
  exact hc.advance rfl rfl rfl trivial rfl

end Call.Sound

/-! ### The line -/

/-- The line of the meeting works, and calls send on it what belongs to their stages. -/
structure LineSound (line : Media.Ledger Client) : Prop where
  sound : line.Sound
  delivered : line.Delivered
  orderly : ∃ messages, line.traffic.Orderly messages
  messages : ∀ request i stage, .submit request (.call i stage) ∈ line.past →
    request.message = some stage.message

namespace LineSound

variable {line : Media.Ledger Client}

theorem new : LineSound {} where
  sound := Media.Ledger.sound_run "" []
  delivered := Media.Ledger.delivered_new
  orderly := ⟨[], Media.Traffic.orderly_new⟩
  messages := fun _ _ _ h => absurd h List.not_mem_nil

theorem step (meeting : String) {event : Media.Traffic.Event Client} (hl : LineSound line)
    (hevent : ∀ request i stage, event = .submit request (.call i stage) →
      request.message = some stage.message) : LineSound (line.step meeting event) := by
  obtain ⟨messages, horderly⟩ := hl.orderly
  refine ⟨Media.Ledger.sound_step meeting event hl.sound,
    Media.Ledger.delivered_step meeting event horderly hl.delivered,
    ⟨_, Media.Traffic.orderly_step meeting event horderly⟩, fun request i stage hmem => ?_⟩
  rcases List.mem_append.1 hmem with hmem | hmem
  · exact hl.messages request i stage hmem
  · exact hevent request i stage (List.mem_singleton.1 hmem).symm

/-- Whoever has been answered stays so. -/
theorem answered_step (meeting : String) (event : Media.Traffic.Event Client) :
    line.traffic.answered ⊆ (line.step meeting event).traffic.answered := by
  have hcourse := Media.Ledger.course_step meeting event line
  generalize line.step meeting event = line' at hcourse
  cases hcourse with
  | answered hd => exact List.subset_append_left _ _
  | _ => exact List.Subset.refl _

/-- A call whose request was answered with success had its message on the wire. -/
theorem trip {i : Nat} {stage : Stage} {reply : Except TransportError Response}
    (hl : LineSound line) (hreply : (.call i stage, reply) ∈ line.traffic.answered) :
    ∃ trip ∈ line.trips, .call i stage ∈ trip.entry.waiters ∧
      trip.request.payload = .roap stage.message ∧ trip.result = some reply := by
  obtain ⟨trip, htrip, hcaller, hresult, -⟩ := hl.delivered.trip hreply
  obtain ⟨hpast, hbacked, hpayload⟩ := hl.sound.trips trip htrip
  obtain ⟨request, hsubmitted, hmessage⟩ := hbacked _ hcaller
  have hown := hl.messages request i stage (hpast.subset hsubmitted)
  exact ⟨trip, htrip, hcaller, hpayload _ (hmessage _ hown), hresult⟩

end LineSound

end CallSignaling.Turn
