import CallSignaling.Proofs.Media.Embedding
import CallSignaling.Proofs.Turn.Safety

/-!
# Replies that come too late

The reply to the request by which a call opened its exchange may come when that exchange has been
given up and another one is pending.

* `Turn.Point.deals`: whether a call that has come to a point deals with a response.
* `Turn.Calls.Replied`: the message in the reply to the request of an exchange.
* `Turn.Calls.Misdirects`: such a message is about to complete another exchange.
* `Turn.Calls.RepliesLate`: a call takes such a message as a response after its exchange has ended
  and while a newer one waits for its first response.

Main statements: what a call of discovery deals with is the message in the reply to its own request
(`repliesOnly_run`), and a run misdirects a message exactly if a reply comes too late in it
(`misdirects_iff_repliesLate`).  There is such a run, and in it a call returns the server that the
reply to another call names (`lateReply_misdirected`).
-/

namespace CallSignaling.Turn

open Media (Response)
open Roap (Message)

/-! ### The pending exchange is the newest -/

/-- The pending exchange is the one that was opened last. -/
def Slot.Newest (s : Slot) : Prop := ∀ g, s.generation? = some g → g + 1 = s.nextGeneration

theorem Slot.newest_begin {s t : Slot} {g : Nat} (h : s.begin? = some (g, t)) : t.Newest := by
  obtain ⟨next, _ | p⟩ := s
  · cases h
    intro g hg
    cases hg
    rfl
  · cases h

/-- Nothing else changes the numbers, except that the pending exchange may end. -/
structure Slot.Numbers (s t : Slot) : Prop where
  next : t.nextGeneration = s.nextGeneration
  generation : ∀ g, t.generation? = some g → s.generation? = some g

theorem Slot.Numbers.refl (s : Slot) : s.Numbers s := ⟨rfl, fun _ => id⟩

theorem Slot.Numbers.of_eq {s t : Slot} (hnext : t.nextGeneration = s.nextGeneration)
    (hgen : t.generation? = s.generation?) : s.Numbers t :=
  ⟨hnext, fun _ hg => hgen ▸ hg⟩

theorem Slot.Numbers.newest {s t : Slot} (h : s.Numbers t) (hs : s.Newest) : t.Newest := by
  intro g hg
  rw [h.next]
  exact hs g (h.generation g hg)

theorem Slot.numbers_finish (g : Nat) (s : Slot) : s.Numbers (s.finish g) := by
  rcases s.finish_cases g with ⟨-, hfinish⟩ | ⟨-, hfinish⟩ <;> rw [hfinish]
  · exact .refl s
  · exact ⟨rfl, fun _ hg => by cases hg⟩

theorem Point.numbers_go (point : Point) (d : Discovery) :
    d.slot.Numbers (point.go d).outcome.state.slot := by
  cases point with
  | responding own message source =>
    simp only [go]
    rcases d.slot.claim_cases with ⟨-, hclaim⟩ | ⟨g, t, -, hclaim, hnext, hgen, -⟩ <;> rw [hclaim]
    · exact .refl d.slot
    · exact .of_eq hnext hgen
  | delivering own claimed completion =>
    obtain ⟨hnext, hgen, -⟩ := d.slot.put_spec claimed completion
    exact .of_eq hnext hgen
  | receiving generation =>
    obtain ⟨hkeeps, -⟩ := d.slot.receive_spec generation
    simp only [go]
    cases hreceive : d.slot.receive generation with
    | mk slot reception =>
      rw [hreceive] at hkeeps
      cases reception <;> exact .of_eq hkeeps.next hkeeps.generation
  | completed generation completion =>
    cases completion with
    | error e => exact .refl d.slot
    | ok resolved =>
      rw [go]
      split <;> exact .refl d.slot
  | finishing generation outcome =>
    simp only [go, Discovery.slot_finish]
    exact d.slot.numbers_finish generation
  | sent stage => exact .refl d.slot
  | waiting generation => exact .refl d.slot
  | returned result => exact .refl d.slot
  | handled => exact .refl d.slot

/-! ### Points at which a call deals with a response -/

/-- Whether a call takes a response, or puts in what it took. -/
def Point.deals : Point → Bool
  | responding _ _ _ | delivering _ _ _ => true
  | _ => false

theorem Point.deals_afterResponse (own : Option Nat) : (afterResponse own).deals = false := by
  cases own <;> rfl

/-- By its next step a call deals with a response only if it took that before and claimed the
pending exchange for it. -/
theorem Point.of_deals_go {point : Point} {d : Discovery} (h : (point.go d).point.deals = true) :
    ∃ own message source g, point = .responding own message source ∧ d.slot.open? = some g ∧
      (point.go d).point = .delivering own g (resolve message source) := by
  cases point with
  | responding own message source =>
    rcases d.slot.claim_cases with ⟨-, hclaim⟩ | ⟨g, t, hopen, hclaim, -⟩
    · simp only [go, hclaim, deals_afterResponse] at h
      cases h
    · refine ⟨own, message, source, g, rfl, hopen, ?_⟩
      simp only [go, hclaim]
  | delivering own claimed completion =>
    simp only [go, deals_afterResponse] at h
    cases h
  | receiving generation =>
    simp only [go] at h
    cases hreceive : d.slot.receive generation with
    | mk slot reception =>
      rw [hreceive] at h
      cases reception <;> cases h
  | completed generation completion =>
    cases completion with
    | error e => cases h
    | ok resolved =>
      simp only [go] at h
      split at h <;> cases h
  | finishing generation outcome => cases h
  | sent stage => cases h
  | waiting generation => cases h
  | returned result => cases h
  | handled => cases h

/-- Once its request is answered, a call deals with a response if the reply carries one. -/
theorem Stage.of_deals_answered {stage : Stage} {reply : Except TransportError Response}
    {d : Discovery} (h : (stage.answered reply d).point.deals = true) :
    ∃ g response message, stage = .requested g ∧ reply = .ok response ∧
      response.embedded? = .ok (some message) ∧
      (stage.answered reply d).point = .responding (some g) message fromHttpResponse := by
  rcases stage with g | ⟨g, info⟩
  · rcases reply with e | response
    · cases h
    · rcases hembedded : response.embedded? with e | _ | message
      · simp only [answered, hembedded] at h
        cases h
      · simp only [answered, hembedded] at h
        cases h
      · refine ⟨g, response, message, rfl, rfl, hembedded, ?_⟩
        simp only [answered, hembedded]
  · cases reply <;> cases h

namespace Calls

variable {meeting : String} {x : Calls}

theorem newest_step {event : Event} (h : x.slot.Newest) : (x.step meeting event).slot.Newest := by
  cases event with
  | discover reconnecting forced reachable =>
    rw [step]
    rcases x.discovery.start_cases reconnecting forced reachable with
      ⟨reason, hm⟩ | ⟨g, slot, request, hbegin, -, hm⟩ <;> rw [hm]
    · exact h
    · exact Slot.newest_begin hbegin
  | handOver reply =>
    rw [step]
    rcases x.discovery.handOver_cases reply with
      ⟨result, metrics, -, hm⟩ | ⟨g, point, -, -, hm⟩ <;> rw [hm] <;> exact h
  | push message source => exact h
  | generate forced reachable =>
    rw [step]
    rcases x.discovery.generate_cases forced reachable with hd | ⟨g, slot, hbegin, hd⟩ <;> rw [hd]
    · exact h
    · exact Slot.newest_begin hbegin
  | abort => exact fun g hg => by cases hg
  | call i cue =>
    rcases step_call meeting i cue x with hidle | ⟨call, m, hcall, hm, hstep⟩
    · rwa [hidle]
    · rw [hstep]
      rcases cued_cases hm with ⟨-, rfl⟩ | ⟨stage, reply, -, -, rfl⟩ | ⟨g, e, -, rfl⟩
      · exact (call.point.numbers_go x.discovery).newest h
      · obtain ⟨hstate, -⟩ := stage.answered_spec reply x.discovery
        rw [slot, settle, hstate]
        exact h
      · exact h
  | wire event =>
    cases event with
    | submit request client => cases client <;> exact h
    | _ => exact h

/-- Effects leave a call as it is, or complete it if it waits. -/
theorem getElem?_wakeBy {effects : List Effect} {calls : List Call} {j : Nat} {c : Call}
    (h : (effects.foldl wakeBy calls)[j]? = some c) :
    calls[j]? = some c ∨ c.point.deals = false := by
  induction effects generalizing calls with
  | nil => exact .inl h
  | cons e effects ih =>
    rw [List.foldl_cons] at h
    rcases ih h with hnext | hdeals
    · cases e with
      | wake generation completion =>
        rw [wakeBy, List.getElem?_map] at hnext
        obtain ⟨before, hbefore, rfl⟩ := Option.map_eq_some_iff.1 hnext
        unfold Call.wake
        split
        · split
          · exact .inr rfl
          · exact .inl hbefore
        · exact .inl hbefore
      | send request stage => exact .inl hnext
      | await generation => exact .inl hnext
      | done result => exact .inl hnext
    · exact .inr hdeals

/-- A call that deals with a response after a step did so before, or the step led it there, or it
was not started to ask for a server. -/
theorem of_deals_step {event : Event} {j : Nat} {c : Call}
    (h : (x.step meeting event).calls[j]? = some c) (hdeals : c.point.deals = true)
    (horigin : c.origin = .discover) :
    x.calls[j]? = some c ∨ ∃ cue call m, event = .call j cue ∧ x.calls[j]? = some call ∧
      x.cued j cue call.point = some m ∧ c = call.move m := by
  have hsettle {i : Nat} {o : Outcome Discovery Effect} {calls : List Call} {news : History}
      (hc : (x.settle meeting i o calls news).calls[j]? = some c) : calls[j]? = some c := by
    rcases getElem?_wakeBy hc with hbefore | hnot
    · exact hbefore
    · rw [hdeals] at hnot
      cases hnot
  have hbegin {origin : Origin} {m : Move} (hc : (x.begin meeting origin m).calls[j]? = some c)
      (hm : origin = .discover → m.point.deals = false) : x.calls[j]? = some c := by
    have hlast := hsettle hc
    rw [List.getElem?_append] at hlast
    split at hlast
    · exact hlast
    · -- the call has just started
      rw [List.getElem?_singleton] at hlast
      split at hlast
      · cases hlast
        have hnot : (Call.start origin m).point.deals = false := hm horigin
        rw [hdeals] at hnot
        cases hnot
      · cases hlast
  cases event with
  | discover reconnecting forced reachable =>
    refine .inl (hbegin h fun _ => ?_)
    rcases x.discovery.start_cases reconnecting forced reachable with
      ⟨reason, hm⟩ | ⟨g, slot, request, -, -, hm⟩ <;> rw [hm] <;> rfl
  | handOver reply => exact .inl (hbegin h fun horigin => by cases horigin)
  | push message source => exact .inl (hbegin h fun horigin => by cases horigin)
  | generate forced reachable => exact .inl (hsettle h)
  | abort => exact .inl (hsettle h)
  | call i cue =>
    rcases step_call meeting i cue x with hidle | ⟨call, m, hcall, hm, hstep⟩
    · rw [hidle] at h
      exact .inl h
    · rw [hstep] at h
      have hset := hsettle h
      by_cases hij : i = j
      · subst hij
        obtain ⟨hlt, -⟩ := List.getElem?_eq_some_iff.1 hcall
        rw [List.getElem?_set_self hlt] at hset
        cases hset
        exact .inr ⟨cue, call, m, rfl, hcall, hm, rfl⟩
      · rw [List.getElem?_set_ne hij] at hset
        exact .inl hset
  | wire event =>
    cases event with
    | submit request client => cases client <;> exact .inl h
    | _ => exact .inl h

/-! ### Replies -/

/-- Whoever has been answered stays so. -/
theorem answered_step (meeting : String) (event : Event) (x : Calls) :
    x.line.traffic.answered ⊆ (x.step meeting event).line.traffic.answered := by
  have hsettle (i : Nat) (o : Outcome Discovery Effect) (calls : List Call) (news : History) :
      x.line.traffic.answered ⊆ (x.settle meeting i o calls news).line.traffic.answered := by
    show _ ⊆ (o.effects.foldl (submitBy meeting i) x.line).traffic.answered
    generalize x.line = line
    induction o.effects generalizing line with
    | nil => exact List.Subset.refl _
    | cons e effects ih =>
      refine List.Subset.trans ?_ (ih _)
      cases e with
      | send request stage => exact LineSound.answered_step meeting _
      | wake generation completion => exact List.Subset.refl _
      | await generation => exact List.Subset.refl _
      | done result => exact List.Subset.refl _
  cases event with
  | call i cue =>
    rcases step_call meeting i cue x with hidle | ⟨call, m, -, -, hstep⟩
    · rw [hidle]
      exact List.Subset.refl _
    · rw [hstep]
      exact hsettle ..
  | wire event =>
    cases event with
    | submit request client =>
      cases client with
      | call i stage => exact List.Subset.refl _
      | other number => exact LineSound.answered_step meeting _
    | _ => exact LineSound.answered_step meeting _
  | discover reconnecting forced reachable => exact hsettle ..
  | handOver reply => exact hsettle ..
  | push message source => exact hsettle ..
  | generate forced reachable => exact hsettle ..
  | abort => exact hsettle ..

/-- The reply to the request by which the call in place `i` opened exchange `g` carries
`message`. -/
def Replied (i g : Nat) (message : Message) (x : Calls) : Prop :=
  ∃ response, (.call i (.requested g), .ok response) ∈ x.line.traffic.answered ∧
    response.embedded? = .ok (some message)

theorem Replied.step {i g : Nat} {message : Message} (h : x.Replied i g message)
    (meeting : String) (event : Event) : (x.step meeting event).Replied i g message := by
  obtain ⟨response, hanswered, hembedded⟩ := h
  exact ⟨response, answered_step meeting event x hanswered, hembedded⟩

/-- A call of discovery in place `i` deals with the message in the reply to its request. -/
def DealsWith (i g : Nat) (message : Message) (point : Point) (x : Calls) : Prop :=
  x.Replied i g message ∧
    (point = .responding (some g) message fromHttpResponse ∨
      ∃ claimed, point = .delivering (some g) claimed (resolve message fromHttpResponse))

/-- What the calls of discovery deal with are the messages in the replies to their requests. -/
def RepliesOnly (x : Calls) : Prop :=
  ∀ (i : Nat) (call : Call), x.calls[i]? = some call → call.origin = .discover →
    call.point.deals = true → ∃ g message, x.DealsWith i g message call.point

/-- If a call of discovery takes a response then that is the message in the reply to its request. -/
theorem RepliesOnly.replied {i : Nat} {call : Call} {own : Option Nat} {message : Message}
    {source : String} (h : x.RepliesOnly) (hcall : x.calls[i]? = some call)
    (horigin : call.origin = .discover) (hpoint : call.point = .responding own message source) :
    ∃ g, own = some g ∧ source = fromHttpResponse ∧ x.Replied i g message := by
  have hdeals : call.point.deals = true := by
    rw [hpoint]
    rfl
  obtain ⟨g, message', hreplied, hresponding | ⟨claimed, hdelivering⟩⟩ :=
    h i call hcall horigin hdeals
  · rw [hpoint] at hresponding
    cases hresponding
    exact ⟨g, rfl, rfl, hreplied⟩
  · rw [hpoint] at hdelivering
    cases hdelivering

theorem repliesOnly_step (meeting : String) (event : Event) (h : x.RepliesOnly) :
    (x.step meeting event).RepliesOnly := by
  intro i c hc horigin hdeals
  rcases of_deals_step hc hdeals horigin with hbefore | ⟨cue, call, m, rfl, hcall, hm, rfl⟩
  · obtain ⟨g, message, hreplied, hpoint⟩ := h i c hbefore horigin hdeals
    exact ⟨g, message, hreplied.step meeting event, hpoint⟩
  · rcases cued_cases hm with ⟨-, rfl⟩ | ⟨stage, reply, -, hanswered, rfl⟩ | ⟨g, e, -, rfl⟩
    · obtain ⟨own, message, source, claimed, hpoint, -, hnext⟩ := Point.of_deals_go hdeals
      obtain ⟨g, rfl, rfl, hreplied⟩ := h.replied hcall horigin hpoint
      exact ⟨g, message, hreplied.step meeting _, .inr ⟨claimed, hnext⟩⟩
    · obtain ⟨g, response, message, rfl, rfl, hembedded, hnext⟩ := Stage.of_deals_answered hdeals
      have hreplied : x.Replied i g message := ⟨response, hanswered, hembedded⟩
      exact ⟨g, message, hreplied.step meeting _, .inl hnext⟩
    · cases hdeals

theorem repliesOnly_run (meeting : String) (enabled : Bool) (events : List Event) :
    (run meeting events { discovery := { enabled } }).RepliesOnly :=
  run_induction (fun event _ => repliesOnly_step meeting event) events
    fun _ _ hcall => by cases hcall

/-! ### Late replies -/

/-- What is needed to tell a late reply from others. -/
structure Consistent (x : Calls) : Prop where
  sound : x.Sound
  newest : x.slot.Newest
  repliesOnly : x.RepliesOnly

theorem consistent_run (meeting : String) (enabled : Bool) (events : List Event) :
    (run meeting events { discovery := { enabled } }).Consistent where
  sound := sound_run meeting enabled events
  newest := run_induction (P := fun x => x.slot.Newest) (fun _ _ h => newest_step h) events
    fun _ hg => by cases hg
  repliesOnly := repliesOnly_run meeting enabled events

/-- The message in the reply to the request of an exchange is about to complete another one. -/
def Misdirects (x : Calls) : Prop :=
  ∃ i call own other message, x.calls[i]? = some call ∧ call.origin = .discover ∧
    x.Replied i own message ∧
    call.point = .delivering (some own) other (resolve message fromHttpResponse) ∧ other ≠ own

/-- The call in place `i` takes the message in the reply to its request as a response, though its
exchange has ended and a newer one waits for the first response. -/
def RepliesLate (i : Nat) (x : Calls) : Prop :=
  ∃ call own other message, x.calls[i]? = some call ∧ call.origin = .discover ∧
    x.Replied i own message ∧ call.point = .responding (some own) message fromHttpResponse ∧
    own ∈ x.history.ended ∧ x.slot.open? = some other ∧ own < other

/-- A call takes the message in the reply to its request as a response. -/
theorem step_answer {i g : Nat} {call : Call} {response : Response} {message : Message}
    (hcall : x.calls[i]? = some call) (hpoint : call.point = .sent (.requested g))
    (hreply : x.reply? i (.requested g) = some (.ok response))
    (hembedded : response.embedded? = .ok (some message)) :
    x.step meeting (.call i .answer) =
      { x with
        calls := x.calls.set i
          { call with point := .responding (some g) message fromHttpResponse } } := by
  have hmove : (Stage.requested g).answered (.ok response) x.discovery =
      ⟨.stay x.discovery, .responding (some g) message fromHttpResponse⟩ := by
    simp only [Stage.answered, hembedded]
  have hnews : x.history.append (History.recorded x.slot x.slot (call.point.news x.slot)) =
      x.history := by
    rw [History.recorded_of_same rfl rfl, hpoint]
    exact x.history.append_nil
  simp only [step, hcall, hpoint, cued, hreply, Option.map_some, hmove, settle, Call.move,
    Outcome.stay_state, Outcome.stay_effects, Outcome.stay_metrics, List.foldl_nil, List.append_nil]
  rw [hpoint] at hnews
  exact congrArg (fun h => ({ x with calls := _, history := h } : Calls)) hnews

section Responding

variable {i : Nat} {call : Call} {own : Option Nat} {message : Message} {source : String} {g : Nat}

/-- The response goes to the pending exchange, whichever that is. -/
theorem step_claim (hcall : x.calls[i]? = some call)
    (hpoint : call.point = .responding own message source) (hopen : x.slot.open? = some g) :
    (x.step meeting (.call i .go)).calls[i]? =
      some { call with point := .delivering own g (resolve message source) } ∧
    (x.step meeting (.call i .go)).history.completions = x.history.completions := by
  obtain ⟨hlt, -⟩ := List.getElem?_eq_some_iff.1 hcall
  rcases x.discovery.slot.claim_cases with ⟨hnone, -⟩ | ⟨g', t, hsome, hclaim, -⟩
  · rw [show x.discovery.slot.open? = some g from hopen] at hnone
    cases hnone
  · rw [show x.discovery.slot.open? = some g from hopen] at hsome
    cases hsome
    have hmove : call.point.go x.discovery =
        ⟨.stay { x.discovery with slot := t }, .delivering own g (resolve message source)⟩ := by
      rw [hpoint, Point.go, hclaim]
    simp only [step, hcall, cued, hmove, settle, Call.move, Outcome.stay_state,
      Outcome.stay_effects, Outcome.stay_metrics, List.foldl_nil, List.append_nil]
    refine ⟨List.getElem?_set_self hlt, ?_⟩
    rw [hpoint]
    exact List.append_nil _

/-- The completion that was claimed for an exchange is put in. -/
theorem step_put {completion : Completion} (hcall : x.calls[i]? = some call)
    (hpoint : call.point = .delivering own g completion) :
    (x.step meeting (.call i .go)).history.completions =
      x.history.completions ++ [(g, completion)] := by
  simp only [step, hcall, cued, settle, hpoint, Point.news]
  rfl

/-- If the response of a call goes to another exchange then that is a newer one. -/
theorem Consistent.own_or_newer {own : Nat} (h : x.Consistent) (hcall : x.calls[i]? = some call)
    (hpoint : call.point = .responding (some own) message source)
    (hopen : x.slot.open? = some g) : g = own ∨ own ∈ x.history.ended ∧ own < g := by
  have hc := h.sound.calls i call hcall
  have hpending := Slot.generation?_of_open? hopen
  have hexchange : call.exchange = some own := by
    rw [← hc.exchange_eq (by rw [hpoint]; rfl), hpoint]
    rfl
  have hopened : own ∈ x.history.opened := hc.opened own hexchange
  by_cases hg : g = own
  · exact .inl hg
  · right
    have hne : x.slot.generation? ≠ some own := by
      rw [hpending]
      exact fun heq => hg (Option.some.inj heq)
    have hlast := h.newest g hpending
    have hlt := hopened
    rw [h.sound.tracked.numbered, List.mem_range] at hlt
    exact ⟨h.sound.tracked.mem_ended hopened hne, by omega⟩

end Responding

/-- A late reply completes the newer exchange. -/
theorem misdirects_of_repliesLate {i : Nat} (h : x.RepliesLate i) :
    (x.step meeting (.call i .go)).Misdirects := by
  obtain ⟨call, own, other, message, hcall, horigin, hreplied, hpoint, -, hopen, hlt⟩ := h
  obtain ⟨hnext, -⟩ := step_claim hcall hpoint hopen
  exact ⟨i, _, own, other, message, hnext, horigin, hreplied.step meeting _, rfl,
    Nat.ne_of_gt hlt⟩

/-- Nothing but a late reply does so. -/
theorem repliesLate_of_misdirects {event : Event} (h : x.Consistent)
    (hmisdirects : (x.step meeting event).Misdirects) :
    x.Misdirects ∨ ∃ i, event = .call i .go ∧ x.RepliesLate i := by
  obtain ⟨i, c, own, other, message, hc, horigin, -, hpoint, hne⟩ := hmisdirects
  have hdeals : c.point.deals = true := by
    rw [hpoint]
    rfl
  rcases of_deals_step hc hdeals horigin with hbefore | ⟨cue, call, m, rfl, hcall, hm, rfl⟩
  · obtain ⟨g, message', hreplied, hresponding | ⟨claimed, hdelivering⟩⟩ :=
      h.repliesOnly i c hbefore horigin hdeals
    · rw [hpoint] at hresponding
      cases hresponding
    · obtain ⟨hown, rfl, -⟩ := Point.delivering.inj (hdelivering.symm.trans hpoint)
      cases hown
      exact .inl ⟨i, c, own, claimed, message', hbefore, horigin, hreplied, hdelivering, hne⟩
  · rcases cued_cases hm with ⟨rfl, rfl⟩ | ⟨stage, reply, -, -, rfl⟩ | ⟨g, e, -, rfl⟩
    · obtain ⟨own', message', source, g, hresponding, hopen, hnext⟩ := Point.of_deals_go hdeals
      obtain ⟨rfl, rfl, -⟩ := Point.delivering.inj (hnext.symm.trans hpoint)
      obtain ⟨own, hown, rfl, hreplied⟩ := h.repliesOnly.replied hcall horigin hresponding
      cases hown
      obtain ⟨hended, hlt⟩ := (h.own_or_newer hcall hresponding hopen).resolve_left hne
      exact .inr ⟨i, rfl, call, _, _, _, hcall, horigin, hreplied, hresponding, hended, hopen, hlt⟩
    · obtain ⟨g, response, message', -, -, -, hnext⟩ := Stage.of_deals_answered hdeals
      rw [show (call.move _).point = _ from hnext] at hpoint
      cases hpoint
    · cases hpoint

/-! ### Runs -/

theorem run_take_succ (meeting : String) (events : List Event) (n : Nat) (x : Calls) :
    x.run meeting (events.take (n + 1)) =
      (x.run meeting (events.take n)).run meeting events[n]?.toList := by
  rw [List.take_add_one, run_append]

/-- Where a message is misdirected, a reply came too late before. -/
theorem exists_repliesLate (meeting : String) (enabled : Bool) (events : List Event) {n : Nat}
    (h : (run meeting (events.take n) { discovery := { enabled } }).Misdirects) :
    ∃ m i, events[m]? = some (.call i .go) ∧
      (run meeting (events.take m) { discovery := { enabled } }).RepliesLate i := by
  induction n with
  | zero =>
    obtain ⟨i, call, -, -, -, hcall, -⟩ := h
    cases hcall
  | succ n ih =>
    rw [run_take_succ] at h
    cases hevent : events[n]? with
    | none =>
      rw [hevent] at h
      exact ih h
    | some event =>
      rw [hevent] at h
      rcases repliesLate_of_misdirects (consistent_run meeting enabled _) h with
        hbefore | ⟨i, rfl, hlate⟩
      · exact ih hbefore
      · exact ⟨n, i, hevent, hlate⟩

/-- **When a reply completes another exchange than its own**: in a run of a discovery, the message
in the reply to the request of an exchange completes another one exactly if a call takes it as a
response when its exchange has ended and a newer one waits for the first response.  At all times
the response of a call of discovery is the message in the reply to its own request; with no exchange
waiting for one it completes none, and otherwise it completes the one that waits, which is its own
or a newer one. -/
theorem misdirects_iff_repliesLate (meeting : String) (enabled : Bool) (events : List Event) :
    let x (n : Nat) := run meeting (events.take n) { discovery := { enabled } }
    ((∃ n, (x n).Misdirects) ↔
        ∃ n i, events[n]? = some (.call i .go) ∧ (x n).RepliesLate i) ∧
      ∀ n i call own message source, (x n).calls[i]? = some call → call.origin = .discover →
        call.point = .responding (some own) message source →
        let y := (x n).step meeting (.call i .go)
        (x n).Replied i own message ∧
          ((x n).slot.open? = none →
            y.slot = (x n).slot ∧ y.history.completions = (x n).history.completions ∧
              y.calls[i]? = some { call with point := .receiving own }) ∧
          ∀ g, (x n).slot.open? = some g →
            (g = own ∨ own ∈ (x n).history.ended ∧ own < g) ∧
              (y.step meeting (.call i .go)).history.completions =
                (x n).history.completions ++ [(g, resolve message source)] := by
  intro x
  have hx (n : Nat) : (x n).Consistent := consistent_run meeting enabled (events.take n)
  refine ⟨⟨?_, ?_⟩, fun n i call own message source hcall horigin hpoint => ?_⟩
  · rintro ⟨n, hn⟩
    exact exists_repliesLate meeting enabled events hn
  · rintro ⟨n, i, hevent, hlate⟩
    refine ⟨n + 1, ?_⟩
    have hnext : x (n + 1) = (x n).run meeting events[n]?.toList := run_take_succ ..
    rw [hnext, hevent]
    exact misdirects_of_repliesLate hlate
  · refine ⟨?_, fun hclosed => ?_, fun g hopen => ⟨?_, ?_⟩⟩
    · obtain ⟨g, hown, -, hreplied⟩ := (hx n).repliesOnly.replied hcall horigin hpoint
      cases hown
      exact hreplied
    · obtain ⟨hlt, -⟩ := List.getElem?_eq_some_iff.1 hcall
      rw [step_late hcall hpoint hclosed]
      exact ⟨rfl, List.append_nil _, List.getElem?_set_self hlt⟩
    · exact (hx n).own_or_newer hcall hpoint hopen
    · obtain ⟨hnext, hsame⟩ := step_claim hcall hpoint hopen
      rw [step_put hnext rfl, hsame]

/-- A response that names a server and declines the acknowledgement. -/
def lateResponse : Message :=
  .turnResponse ["x-cisco-turn-url=u", "x-cisco-turn-username=n", "x-cisco-turn-password=p",
    Roap.noOkInTransaction]

/-- The request of a call is on the wire, its exchange is given up, another call opens one, and the
first request is answered with a response. -/
def abortedBeforeReply : List Event :=
  [.discover false false false, .wire (.take 0), .abort, .discover false false false,
    .wire (.reply 0 (.ok (.embedding "" lateResponse))), .wire (.answer 0)]

/-- The first call goes on, and then the second one with a reply that carries nothing. -/
def bothReturn : List Event :=
  [.call 0 .go, .call 0 .go, .call 0 .go, .call 0 .go, .wire (.take 0), .wire (.reply 0 (.ok {})),
    .wire (.answer 0), .call 1 .answer, .call 1 .go, .call 1 .go, .call 1 .go]

/-- The first call has taken the response in the reply. -/
def taken : Calls :=
  let x := run "m" abortedBeforeReply {}
  { x with
    calls := x.calls.set 0
      { origin := .discover, exchange := some 0, metrics := []
        point := .responding (some 0) lateResponse fromHttpResponse } }

theorem step_abortedBeforeReply :
    (run "m" abortedBeforeReply {}).step "m" (.call 0 .answer) = taken := by
  have hcall : (run "m" abortedBeforeReply {}).calls[0]? =
      some ⟨.discover, some 0, .sent (.requested 0), []⟩ := rfl
  exact step_answer hcall rfl rfl (Response.embedded?_embedding "" lateResponse)

/-- The first call takes the response, and then both calls go on. -/
def lateReply : List Event := abortedBeforeReply ++ .call 0 .answer :: bothReturn

theorem run_lateReply : run "m" lateReply {} = run "m" bothReturn taken := by
  rw [lateReply, run_append, run_cons, step_abortedBeforeReply]

/-- The second call returns the server that the late reply to the first one names, which fails. -/
theorem lateReply_misdirected :
    let y := run "m" lateReply {}
    let info : Info := { url := "u", username := "n", password := .ofText "p" }
    (∃ n, (run "m" (lateReply.take n) {}).Misdirects) ∧
      y.Replied 0 0 lateResponse ∧ 0 ∈ y.history.ended ∧
      (1, resolve lateResponse fromHttpResponse) ∈ y.history.completions ∧
      y.calls.map Call.exchange = [some 0, some 1] ∧
      y.calls.map Call.point = [.returned (.ok .failed), .returned (.ok (.found info))] := by
  have hembedded := Response.embedded?_embedding "" lateResponse
  have hreplied : taken.Replied 0 0 lateResponse := ⟨_, List.mem_singleton_self _, hembedded⟩
  have hlate : taken.RepliesLate 0 :=
    ⟨_, 0, 1, lateResponse, rfl, rfl, hreplied, rfl, List.mem_singleton_self _, rfl, by decide⟩
  intro y info
  have hy : y = run "m" bothReturn taken := run_lateReply
  refine ⟨⟨8, ?_⟩, ?_, ?_, ?_, ?_, ?_⟩
  · have htake : lateReply.take 8 = abortedBeforeReply ++ [.call 0 .answer, .call 0 .go] := rfl
    rw [htake, run_append, run_cons, run_cons, run_nil, step_abortedBeforeReply]
    exact misdirects_of_repliesLate hlate
  · rw [hy]
    exact ⟨_, List.mem_cons_self, hembedded⟩
  · rw [hy]
    exact List.mem_cons_self
  · rw [hy]
    exact List.mem_cons_of_mem _ List.mem_cons_self
  · rw [hy]
    rfl
  · rw [hy]
    rfl

end Calls

end CallSignaling.Turn
