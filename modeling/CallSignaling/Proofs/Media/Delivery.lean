import CallSignaling.Proofs.Media.Dispatch
import CallSignaling.Proofs.Media.Ledger
import Mathlib.Data.List.Nodup
import Mathlib.Data.List.Pairwise

/-!
# Everyone is answered by the request that took theirs along

* `Media.Outbox.callers`: those who wait for the replies to entries.
* `Media.Traffic.everyone`: those who wait, those whose entry a dispatcher has taken, and those who
  have been answered.
* `Media.Outbox.Entry.Backed`: those who wait for an entry have submitted requests, and the message
  of such a request is the entry's.
* `Media.Ledger.Split`, `Media.Ledger.Settles`: the trips that are over and those under way, and what
  an event means to them.
* `Media.Ledger.Delivered`: who has been answered, by the trips that are over.

Every event keeps everyone in one place (`everyone_step`), the entries backed (`backed_step`) and
the answers those of the trips (`delivered_step`), so that every interleaving does.
-/

namespace CallSignaling.Media

open Roap (Message)
open Traffic (Event)

/-! ### Who waits -/

namespace Outbox

variable {ω : Type}

/-- Those who wait for the replies to entries. -/
def callers (queue : List (Entry ω)) : List ω := queue.flatMap (·.waiters)

/-- Those who wait for a mute and those who wait for a message are all who wait. -/
theorem callers_filter_isMute (queue : List (Entry ω)) :
    (callers (queue.filter (!·.isMute)) ++ callers (queue.filter Entry.isMute)).Perm
      (callers queue) := by
  refine List.perm_append_comm.trans ?_
  rw [callers, callers, ← List.flatMap_append]
  exact (List.filter_append_perm Entry.isMute queue).flatMap_right _

/-- Whoever comes in waits, with all who waited before. -/
theorem callers_enqueue (request : Request) (caller : ω) (queue : List (Entry ω)) :
    (callers (enqueue request caller queue).1).Perm (callers queue ++ [caller]) := by
  unfold enqueue
  split
  · exact .refl _
  · rename_i first rest _
    show ((first.waiters ++ [caller]) ++ callers rest).Perm
      ((first.waiters ++ callers rest) ++ [caller])
    rw [List.append_assoc, List.append_assoc]
    exact List.perm_append_comm.append_left _
  · -- those who wait for mutes move to the end, behind the new caller
    show (callers (List.filter _ _ ++ [_])).Perm _
    rw [callers, List.flatMap_append, List.flatMap_singleton]
    refine List.perm_middle.trans (.trans (.cons _ (callers_filter_isMute _)) ?_)
    exact (List.perm_append_singleton _ _).symm

/-- Everyone who waits for the entry has submitted a request, and if that carried a message it is
the message of the entry. -/
def Entry.Backed (past : List (Event ω)) (entry : Entry ω) : Prop :=
  ∀ caller ∈ entry.waiters, ∃ request, .submit request caller ∈ past ∧
    ∀ message, request.message = some message → entry.request.message = some message

theorem Entry.Backed.mono {past events : List (Event ω)} {entry : Entry ω}
    (h : entry.Backed past) : entry.Backed (past ++ events) := by
  intro caller hcaller
  obtain ⟨request, hmem, hmessage⟩ := h caller hcaller
  exact ⟨request, List.mem_append_left _ hmem, hmessage⟩

/-- Whoever waits for a mute has submitted a mute. -/
theorem Entry.Backed.mute {past : List (Event ω)} {entry : Entry ω} (h : entry.Backed past)
    (hmute : entry.isMute = true) {caller : ω} (hcaller : caller ∈ entry.waiters) :
    ∃ request, .submit request caller ∈ past ∧ request.message = none := by
  obtain ⟨request, hmem, hmessage⟩ := h caller hcaller
  refine ⟨request, hmem, Option.eq_none_iff_forall_ne_some.2 fun message heq => ?_⟩
  have hnone := Request.message_eq_none (of_decide_eq_true hmute)
  rw [hmessage message heq] at hnone
  cases hnone

/-- A request that comes in leaves the entries backed. -/
theorem backed_enqueue {past : List (Event ω)} {request : Request} {caller : ω}
    {queue : List (Entry ω)} (hmem : .submit request caller ∈ past)
    (h : ∀ entry ∈ queue, entry.Backed past) :
    ∀ entry ∈ (enqueue request caller queue).1, entry.Backed past := by
  intro entry hentry
  unfold enqueue at hentry
  split at hentry
  · rw [List.mem_singleton.1 hentry]
    intro c hc
    rw [List.mem_singleton.1 hc]
    exact ⟨request, hmem, fun _ => id⟩
  · rename_i first rest hkind
    rcases List.mem_cons.1 hentry with rfl | hrest
    · intro c hc
      rcases List.mem_append.1 hc with hc | hc
      · exact h first List.mem_cons_self c hc
      · rw [List.mem_singleton.1 hc]
        refine ⟨request, hmem, fun message hmessage => ?_⟩
        rw [Request.message_eq_none hkind] at hmessage
        cases hmessage
    · exact h entry (List.mem_cons_of_mem _ hrest)
  · rcases List.mem_append.1 hentry with hkept | hnew
    · exact h entry (List.mem_filter.1 hkept).1
    · rw [List.mem_singleton.1 hnew]
      intro c hc
      rcases List.mem_cons.1 hc with rfl | hc
      · exact ⟨request, hmem, fun _ => id⟩
      · -- those who come along submitted mutes
        obtain ⟨mute, hmute, hc⟩ := List.mem_flatMap.1 hc
        obtain ⟨hqueue, hmute⟩ := List.mem_filter.1 hmute
        obtain ⟨own, hown, hnone⟩ := (h mute hqueue).mute hmute hc
        refine ⟨own, hown, fun message hmessage => ?_⟩
        rw [hnone] at hmessage
        cases hmessage

/-- The request that is built for an entry with a message carries the message. -/
theorem payload_outbound {meeting : String} {request : Request} {message : Message}
    (h : request.message = some message) (o : Outbox ω) :
    (o.outbound meeting request).payload = .roap message := by
  rw [outbound, Request.payload, h]

end Outbox

/-! ### Where everyone is -/

namespace Dispatcher

variable {ω : Type}

/-- The entry that a dispatcher has taken and not answered yet, with its result if that is there. -/
def held : Dispatcher ω → List (Outbox.Entry ω × Option (Except TransportError Response))
  | taking => []
  | sending entry => [(entry, none)]
  | answering entry result => [(entry, some result)]

end Dispatcher

namespace Traffic

variable {ω : Type}

/-- The caller who submits a request. -/
def Event.caller? : Event ω → Option ω
  | submit _ caller => some caller
  | _ => none

/-- Those who submit requests, in turn. -/
def callers (events : List (Event ω)) : List ω := events.filterMap Event.caller?

/-- The entries that dispatchers have taken and not answered yet, with their results. -/
def held (t : Traffic ω) : List (Outbox.Entry ω × Option (Except TransportError Response)) :=
  t.dispatchers.flatMap Dispatcher.held

/-- Those whose entry a dispatcher has taken and not answered yet. -/
def inHand (t : Traffic ω) : List ω := t.held.flatMap (·.1.waiters)

/-- Whoever has submitted a request, wherever it is. -/
def everyone (t : Traffic ω) : List ω :=
  Outbox.callers t.outbox.queue ++ t.inHand ++ t.answered.map Prod.fst

theorem callers_cons (event : Event ω) (events : List (Event ω)) :
    callers (event :: events) = event.caller?.toList ++ callers events := by
  rw [callers, List.filterMap_cons]
  cases event.caller? <;> rfl

theorem mem_callers {events : List (Event ω)} {request : Request} {caller : ω}
    (h : .submit request caller ∈ events) : caller ∈ callers events :=
  List.mem_filterMap.2 ⟨_, h, rfl⟩

/-- A caller who submits once submits one request. -/
theorem request_eq {events : List (Event ω)} {r s : Request} {caller : ω}
    (hnodup : (callers events).Nodup) (hr : .submit r caller ∈ events)
    (hs : .submit s caller ∈ events) : r = s := by
  induction events with
  | nil => cases hr
  | cons event events ih =>
    rcases List.mem_cons.1 hr with rfl | hr'
    · rcases List.mem_cons.1 hs with heq | hs'
      · cases heq
        rfl
      · exact absurd (mem_callers hs') (List.nodup_cons.1 hnodup).1
    · rcases List.mem_cons.1 hs with rfl | hs'
      · exact absurd (mem_callers hr') (List.nodup_cons.1 hnodup).1
      · exact ih (hnodup.sublist ((List.sublist_cons_self event events).filterMap _)) hr' hs'

theorem callers_rounds (results : List (Except TransportError Response)) :
    callers (rounds results : List (Event ω)) = [] := by
  induction results with
  | nil => rfl
  | cons result results ih => exact ih

/-- Whoever submits a request waits, and nobody else moves. -/
theorem everyone_submit (request : Request) (caller : ω) (t : Traffic ω) :
    (Outbox.callers (t.outbox.submit request caller).state.queue ++ t.inHand ++
      t.answered.map Prod.fst).Perm (t.everyone ++ [caller]) := by
  have hqueue := Outbox.callers_enqueue request caller t.outbox.queue
  have hlast : ([caller] ++ (t.inHand ++ t.answered.map Prod.fst)).Perm
      (t.inHand ++ t.answered.map Prod.fst ++ [caller]) := List.perm_append_comm
  rw [everyone, List.append_assoc, List.append_assoc, List.append_assoc]
  refine (hqueue.append_right _).trans ?_
  rw [List.append_assoc, ← List.append_assoc t.inHand]
  exact hlast.append_left _

/-- Every event leaves everyone in one place, with the caller that it adds. -/
theorem everyone_step (meeting : String) (event : Event ω) {messages : List Message}
    {t : Traffic ω} (h : Orderly messages t) :
    (t.step meeting event).everyone.Perm (t.everyone ++ event.caller?.toList) := by
  have hcourse := course_step meeting event t
  generalize t.step meeting event = t' at hcourse
  cases hcourse with
  | @started request caller hfly =>
    have hhand : ∀ o, inHand { t with outbox := o, dispatchers := t.dispatchers ++ [.taking] } =
        t.inHand := by
      intro o
      simp [inHand, held, Dispatcher.held]
    rw [everyone, hhand]
    exact everyone_submit request caller t
  | @queued request caller hfly => exact everyone_submit request caller t
  | idle hidle =>
    have hnone : event.caller? = none := by
      cases event with
      | submit request caller => exact absurd rfl (hidle request caller)
      | _ => rfl
    rw [hnone, Option.toList_none, List.append_nil]
  | ended hd hq =>
    obtain ⟨rfl, honly, -⟩ := h.dispatchers_eq hd
    simp [everyone, inHand, held, honly, Dispatcher.held, Event.caller?]
  | @departed i entry rest hd hq =>
    -- those of the first entry pass from the queue into the hand
    obtain ⟨rfl, honly, -⟩ := h.dispatchers_eq hd
    simp only [everyone, inHand, held, honly, hq, Outbox.callers, Dispatcher.held, Event.caller?,
      List.set_cons_zero, List.flatMap_cons, List.flatMap_nil, List.append_nil, Option.toList_none]
    exact List.perm_append_comm.append_right _
  | replied hd =>
    obtain ⟨rfl, honly, -⟩ := h.dispatchers_eq hd
    simp [everyone, inHand, held, honly, Dispatcher.held, Event.caller?]
  | @answered i entry result hd =>
    -- those in the hand are answered
    obtain ⟨rfl, honly, -⟩ := h.dispatchers_eq hd
    have hfst : (entry.waiters.map fun caller => (caller, result)).map Prod.fst = entry.waiters := by
      rw [List.map_map]
      exact List.map_id _
    simp only [everyone, inHand, held, honly, Dispatcher.held, Event.caller?, Outbox.finish_queue,
      List.set_cons_zero, List.flatMap_cons, List.flatMap_nil, List.append_nil, List.map_append,
      hfst, Option.toList_none, List.append_assoc]
    exact List.perm_append_comm.append_left _

theorem everyone_run (meeting : String) (events : List (Event ω)) {messages : List Message}
    {t : Traffic ω} (h : Orderly messages t) :
    (t.run meeting events).everyone.Perm (t.everyone ++ callers events) := by
  induction events generalizing messages t with
  | nil => rw [run_nil, callers, List.filterMap_nil, List.append_nil]
  | cons event events ih =>
    rw [run_cons, callers_cons, ← List.append_assoc]
    exact (ih (orderly_step meeting event h)).trans ((everyone_step meeting event h).append_right _)

end Traffic

/-! ### What the trips carry -/

/-- Everyone on the trip has submitted before its request was built, and the request carries the
message of the entry. -/
structure Trip.Sound {ω : Type} (events : List (Event ω)) (trip : Trip ω) : Prop where
  past : trip.past <+: events
  backed : trip.entry.Backed trip.past
  payload : ∀ message, trip.entry.request.message = some message →
    trip.request.payload = .roap message

namespace Ledger

variable {ω : Type}

/-- Everyone who waits or is on a trip has submitted what is sent for them, and the trips are what
was sent. -/
structure Sound (l : Ledger ω) : Prop where
  queue : ∀ entry ∈ l.traffic.outbox.queue, entry.Backed l.past
  trips : ∀ trip ∈ l.trips, trip.Sound l.past
  sent : l.trips.map Trip.request = l.traffic.sent

/-- What is sound stays so when nothing but time goes by. -/
theorem Sound.later {l : Ledger ω} (h : Sound l) (events : List (Event ω)) :
    (∀ entry ∈ l.traffic.outbox.queue, entry.Backed (l.past ++ events)) ∧
      ∀ trip ∈ l.trips, trip.Sound (l.past ++ events) :=
  ⟨fun entry hentry => (h.queue entry hentry).mono, fun trip htrip =>
    { h.trips trip htrip with past := (h.trips trip htrip).past.trans (List.prefix_append _ _) }⟩

theorem sound_step (meeting : String) (event : Event ω) {l : Ledger ω} (h : Sound l) :
    Sound (l.step meeting event) := by
  have hcourse := course_step meeting event l
  generalize l.step meeting event = l' at hcourse
  obtain ⟨hqueue, htrips⟩ := h.later [event]
  cases hcourse with
  | @submitted request caller started hstarted =>
    have hmem : .submit request caller ∈ l.past ++ [.submit request caller] :=
      List.mem_append_right _ (List.mem_singleton.2 rfl)
    exact ⟨Outbox.backed_enqueue hmem hqueue, htrips, h.sent⟩
  | idle hidle => exact ⟨hqueue, htrips, h.sent⟩
  | ended hd hq => exact ⟨hqueue, htrips, h.sent⟩
  | @departed i entry rest hd hq =>
    rw [hq] at hqueue
    refine ⟨fun e he => hqueue e (List.mem_cons_of_mem _ he), fun trip htrip => ?_, ?_⟩
    · rcases List.mem_append.1 htrip with hold | hnew
      · exact htrips trip hold
      · rw [List.mem_singleton.1 hnew]
        refine ⟨List.prefix_append _ _, h.queue entry ?_, fun message hmessage => ?_⟩
        · rw [hq]
          exact List.mem_cons_self
        · exact Outbox.payload_outbound hmessage _
    · rw [List.map_append, h.sent]
      rfl
  | @replied i entry result hd =>
    refine ⟨hqueue, fun trip htrip => ?_, ?_⟩
    · obtain ⟨open_, hopen, rfl⟩ := List.mem_map.1 htrip
      exact ⟨(htrips open_ hopen).past, (htrips open_ hopen).backed, (htrips open_ hopen).payload⟩
    · rw [List.map_map]
      exact h.sent
  | answered hd =>
    refine ⟨?_, htrips, h.sent⟩
    rw [Outbox.finish_queue]
    exact hqueue

/-! ### Who has been answered -/

end Ledger

namespace Trip

variable {ω : Type}

/-- What became of the entry. -/
def outcome (trip : Trip ω) : Outbox.Entry ω × Option (Except TransportError Response) :=
  (trip.entry, trip.result)

/-- The answers that a trip brings to those on it. -/
def answers (trip : Trip ω) : List (ω × Except TransportError Response) :=
  match trip.result with
  | some result => trip.entry.waiters.map fun caller => (caller, result)
  | none => []

theorem close_of_isSome {trip : Trip ω} {result : Except TransportError Response}
    (h : trip.result.isSome) : trip.close result = trip := by
  obtain ⟨own, hown⟩ := Option.isSome_iff_exists.1 h
  rw [close, hown, Option.some_or, ← hown]

/-- A result that arrives leaves alone the trips that have one. -/
theorem map_close_of_isSome {trips : List (Trip ω)} (h : ∀ trip ∈ trips, trip.result.isSome)
    (result : Except TransportError Response) : trips.map (close result) = trips :=
  (List.map_congr_left fun trip htrip => close_of_isSome (h trip htrip)).trans (List.map_id _)

end Trip

namespace Ledger

variable {ω : Type}

/-- The trips are those that are over and those that dispatchers are busy with. -/
structure Split (l : Ledger ω) (finished underWay : List (Trip ω)) : Prop where
  trips : l.trips = finished ++ underWay
  finished : ∀ trip ∈ finished, trip.result.isSome
  held : underWay.map Trip.outcome = l.traffic.held

/-- What an event means to trips of which those in `finished` are over: these stay over and nobody
is answered, or one more is over and everyone on it is. -/
inductive Settles (l l' : Ledger ω) (finished : List (Trip ω)) : Prop
  | none {underWay : List (Trip ω)} (hsplit : l'.Split finished underWay)
      (hanswered : l'.traffic.answered = l.traffic.answered)
      (hmediaId : l'.traffic.outbox.mediaId = l.traffic.outbox.mediaId)
  | one {trip : Trip ω} {result : Except TransportError Response}
      (hresult : trip.result = some result) (hsplit : l'.Split (finished ++ [trip]) [])
      (hanswered : l'.traffic.answered = l.traffic.answered ++ trip.answers)
      (houtbox : l'.traffic.outbox = (l.traffic.outbox.finish trip.entry result).state)

section Split

variable {l : Ledger ω} {finished underWay : List (Trip ω)}

theorem Split.of_taking (h : l.Split finished underWay)
    (honly : l.traffic.dispatchers = [.taking]) : underWay = [] := by
  have hheld := h.held
  rw [Traffic.held, honly] at hheld
  exact List.map_eq_nil_iff.1 hheld

/-- The one trip under way is that of the entry in hand. -/
theorem Split.of_held (h : l.Split finished underWay) {entry : Outbox.Entry ω}
    {result : Option (Except TransportError Response)} (hhand : l.traffic.held = [(entry, result)]) :
    ∃ trip, underWay = [trip] ∧ trip.entry = entry ∧ trip.result = result := by
  obtain ⟨trip, rfl, houtcome⟩ := List.map_eq_singleton_iff.1 (h.held.trans hhand)
  obtain ⟨hentry, hresult⟩ := Prod.mk.inj houtcome
  exact ⟨trip, rfl, hentry, hresult⟩

/-- A result that arrives closes the trip under way. -/
theorem Split.map_close (h : l.Split finished underWay) {trip : Trip ω} (hone : underWay = [trip])
    (result : Except TransportError Response) :
    l.trips.map (Trip.close result) = finished ++ [trip.close result] := by
  rw [h.trips, hone, List.map_append, Trip.map_close_of_isSome h.finished]
  rfl

/-- Every event leaves the trips split: each event of a dispatcher is that of the only one. -/
theorem Split.settles (h : l.Split finished underWay) (meeting : String) (event : Event ω)
    {messages : List Message} (horderly : l.traffic.Orderly messages) :
    l.Settles (l.step meeting event) finished := by
  have hcourse := course_step meeting event l
  generalize l.step meeting event = l' at hcourse
  cases hcourse with
  | @submitted request caller started hstarted =>
    refine .none ⟨h.trips, h.finished, h.held.trans ?_⟩ rfl rfl
    rw [Traffic.held, Traffic.held, List.flatMap_append, hstarted]
    split <;> simp [Dispatcher.held]
  | idle hidle => exact .none ⟨h.trips, h.finished, h.held⟩ rfl rfl
  | ended hd hq =>
    obtain ⟨rfl, honly, -⟩ := horderly.dispatchers_eq hd
    refine .none ⟨h.trips, h.finished, ?_⟩ rfl rfl
    rw [h.of_taking honly, Traffic.held, honly]
    rfl
  | @departed i entry rest hd hq =>
    obtain ⟨rfl, honly, -⟩ := horderly.dispatchers_eq hd
    obtain rfl := h.of_taking honly
    refine @Settles.none _ _ _ _ [l.embark meeting entry] ⟨?_, h.finished, ?_⟩ rfl rfl
    · rw [h.trips, List.append_nil]
    · rw [Traffic.held, honly]
      rfl
  | @replied i entry result hd =>
    obtain ⟨rfl, honly, -⟩ := horderly.dispatchers_eq hd
    obtain ⟨trip, hone, rfl, hnone⟩ := h.of_held (by rw [Traffic.held, honly]; rfl)
    refine .none ⟨h.map_close hone result, h.finished, ?_⟩ rfl rfl
    rw [Traffic.held, honly, List.map_singleton, Trip.outcome, Trip.close, hnone]
    rfl
  | @answered i entry result hd =>
    obtain ⟨rfl, honly, -⟩ := horderly.dispatchers_eq hd
    obtain ⟨trip, rfl, rfl, hsome⟩ := h.of_held (by rw [Traffic.held, honly]; rfl)
    refine .one hsome ⟨?_, ?_, ?_⟩ ?_ rfl
    · rw [h.trips, List.append_nil]
    · refine List.forall_mem_append.2 ⟨h.finished, List.forall_mem_singleton.2 ?_⟩
      rw [hsome]
      rfl
    · rw [Traffic.held, honly]
      rfl
    · rw [Trip.answers, hsome]

end Split

/-- Everyone on a trip that is over got the answer that it brought, and nobody else got one. -/
def Delivered (l : Ledger ω) : Prop :=
  ∃ finished underWay, l.Split finished underWay ∧
    l.traffic.answered = finished.flatMap Trip.answers

theorem delivered_step (meeting : String) (event : Event ω) {messages : List Message}
    {l : Ledger ω} (horderly : l.traffic.Orderly messages) (h : Delivered l) :
    Delivered (l.step meeting event) := by
  obtain ⟨finished, underWay, hsplit, hanswered⟩ := h
  cases hsplit.settles meeting event horderly with
  | none hsplit hsame => exact ⟨_, _, hsplit, hsame.trans hanswered⟩
  | one hresult hsplit hmore =>
    refine ⟨_, _, hsplit, ?_⟩
    rw [hmore, hanswered, List.flatMap_append, List.flatMap_singleton]

/-- Whoever got an answer was on a trip that brought it to all on it. -/
theorem Delivered.trip {l : Ledger ω} (h : Delivered l) {caller : ω}
    {result : Except TransportError Response} (hanswer : (caller, result) ∈ l.traffic.answered) :
    ∃ trip ∈ l.trips, caller ∈ trip.entry.waiters ∧ trip.result = some result ∧
      ∀ other ∈ trip.entry.waiters, (other, result) ∈ l.traffic.answered := by
  obtain ⟨finished, underWay, hsplit, hanswered⟩ := h
  rw [hanswered] at hanswer
  obtain ⟨trip, htrip, hmem⟩ := List.mem_flatMap.1 hanswer
  rw [Trip.answers] at hmem
  split at hmem
  · rename_i own hown
    obtain ⟨caller', hcaller, heq⟩ := List.mem_map.1 hmem
    obtain ⟨rfl, rfl⟩ := Prod.mk.inj heq
    refine ⟨trip, ?_, hcaller, hown, fun other hother => ?_⟩
    · rw [hsplit.trips]
      exact List.mem_append_left _ htrip
    · rw [hanswered]
      refine List.mem_flatMap.2 ⟨trip, htrip, ?_⟩
      rw [Trip.answers, hown]
      exact List.mem_map.2 ⟨other, hother, rfl⟩
  · cases hmem

/-- Those on the trips are those who have been answered or are in hand. -/
theorem Delivered.onTrips {l : Ledger ω} (h : Delivered l) :
    l.trips.flatMap (·.entry.waiters) = l.traffic.answered.map Prod.fst ++ l.traffic.inHand := by
  obtain ⟨finished, underWay, hsplit, hanswered⟩ := h
  rw [hsplit.trips, List.flatMap_append, hanswered, Traffic.inHand, ← hsplit.held, List.map_flatMap,
    List.flatMap_map]
  congr 1
  refine List.flatMap_congr fun trip htrip => ?_
  obtain ⟨result, hresult⟩ := Option.isSome_iff_exists.1 (hsplit.finished trip htrip)
  rw [Trip.answers, hresult, List.map_map]
  exact (List.map_id _).symm

/-! ### Histories from the start -/

theorem sound_run (meeting : String) (events : List (Event ω)) :
    Sound (run meeting events ({} : Ledger ω)) :=
  run_induction (P := Sound) (fun event _ => sound_step meeting event) events
    ⟨fun _ h => absurd h List.not_mem_nil, fun _ h => absurd h List.not_mem_nil, rfl⟩

theorem split_new : Split ({} : Ledger ω) [] [] :=
  ⟨rfl, fun _ h => absurd h List.not_mem_nil, rfl⟩

theorem delivered_new : Delivered ({} : Ledger ω) := ⟨[], [], split_new, rfl⟩

theorem delivered_run (meeting : String) (events : List (Event ω)) :
    Delivered (run meeting events ({} : Ledger ω)) := by
  refine (run_induction (P := fun l => Delivered l ∧ ∃ messages, l.traffic.Orderly messages)
    (fun event l h => ?_) events ⟨delivered_new, [], Traffic.orderly_new⟩).1
  obtain ⟨hdelivered, messages, horderly⟩ := h
  exact ⟨delivered_step meeting event horderly hdelivered, _,
    Traffic.orderly_step meeting event horderly⟩

/-- When everyone is in one place nobody is on two trips. -/
theorem Delivered.trip_eq {l : Ledger ω} (h : Delivered l) (hnodup : l.traffic.everyone.Nodup)
    {trip other : Trip ω} (htrip : trip ∈ l.trips) (hother : other ∈ l.trips) {caller : ω}
    (hcaller : caller ∈ trip.entry.waiters) (hcaller' : caller ∈ other.entry.waiters) :
    other = trip := by
  have honTrips : (l.trips.flatMap (·.entry.waiters)).Nodup := by
    rw [h.onTrips]
    rw [Traffic.everyone, List.append_assoc] at hnodup
    exact List.perm_append_comm.nodup_iff.1 (hnodup.sublist (List.sublist_append_right _ _))
  have : Std.Symm (Function.onFun List.Disjoint fun trip : Trip ω => trip.entry.waiters) :=
    ⟨fun _ _ => List.disjoint_symm⟩
  by_contra hne
  exact (List.nodup_flatMap.1 honTrips).2.forall hother htrip hne hcaller' hcaller

end Ledger

namespace Traffic

variable {ω : Type}

theorem everyone_run_new (meeting : String) (events : List (Event ω)) :
    (run meeting events ({} : Traffic ω)).everyone.Perm (callers events) :=
  everyone_run meeting events orderly_new

/-- Once no round is left everyone has been answered. -/
theorem Orderly.everyone_eq {messages : List Message} {t : Traffic ω} (h : Orderly messages t)
    (hrest : t.roundsLeft = 0) : t.everyone = t.answered.map Prod.fst := by
  obtain ⟨hnone, -, hq⟩ := h.nothing_left hrest
  rw [everyone, inHand, held, hnone, hq]
  rfl

/-- **Everyone is answered once, by the request that took theirs along**: whatever callers and
dispatchers do in whatever order, callers who are told apart wait, are in hand or have been
answered, each in one place.  Whoever has been answered was on one trip, the result is that of the
trip's request, and all on the trip have it.  The request of a trip was built after those on it had
submitted theirs, and carries the message of any of them who had one.  The dispatcher's own rounds
get everyone answered. -/
theorem answered_once (meeting : String) (events : List (Event ω))
    (hcallers : (callers events).Nodup) :
    let t := run meeting events {}
    let trips := (Ledger.run meeting events {}).trips
    (Outbox.callers t.outbox.queue ++ t.inHand ++ t.answered.map Prod.fst).Perm (callers events) ∧
      trips.map Trip.request = t.sent ∧
      (∀ caller result, (caller, result) ∈ t.answered →
        ∃ trip ∈ trips, caller ∈ trip.entry.waiters ∧ trip.result = some result ∧
          (∀ other ∈ trips, caller ∈ other.entry.waiters → other = trip) ∧
          ∀ other ∈ trip.entry.waiters, (other, result) ∈ t.answered) ∧
      (∀ trip ∈ trips, trip.past <+: events ∧
        ∀ caller ∈ trip.entry.waiters, ∀ request, .submit request caller ∈ events →
          .submit request caller ∈ trip.past ∧
          ∀ message, request.message = some message → trip.request.payload = .roap message) ∧
      ∀ results, t.outbox.queue.length + 2 ≤ results.length →
        ((t.run meeting (rounds results)).answered.map Prod.fst).Perm (callers events) := by
  intro t trips
  have horderly : Orderly (submittedMessages events) t := orderly_run_new meeting events
  have hsound : (Ledger.run meeting events {}).Sound := Ledger.sound_run meeting events
  have hdelivered : (Ledger.run meeting events {}).Delivered := Ledger.delivered_run meeting events
  have htraffic : (Ledger.run meeting events {}).traffic = t := Ledger.traffic_run meeting events {}
  have hpast : (Ledger.run meeting events ({} : Ledger ω)).past = events :=
    Ledger.past_run meeting events {}
  have heveryone : t.everyone.Perm (callers events) := everyone_run_new meeting events
  refine ⟨heveryone, ?_, ?_, ?_, ?_⟩
  · rw [← htraffic]
    exact hsound.sent
  · intro caller result hanswer
    rw [← htraffic] at hanswer heveryone
    obtain ⟨trip, htrip, hcaller, hresult, hcompany⟩ := hdelivered.trip hanswer
    rw [htraffic] at hcompany
    exact ⟨trip, htrip, hcaller, hresult,
      fun other hother => hdelivered.trip_eq (heveryone.nodup_iff.2 hcallers) htrip hother hcaller,
      hcompany⟩
  · intro trip htrip
    obtain ⟨hbefore, hbacked, hpayload⟩ := hsound.trips trip htrip
    rw [hpast] at hbefore
    refine ⟨hbefore, fun caller hcaller request hrequest => ?_⟩
    obtain ⟨own, hown, hmessage⟩ := hbacked caller hcaller
    obtain rfl := request_eq hcallers (hbefore.subset hown) hrequest
    exact ⟨hown, fun message heq => hpayload message (hmessage message heq)⟩
  · intro results hlen
    have hleft : (t.run meeting (rounds results)).roundsLeft = 0 := by
      rw [roundsLeft_rounds meeting results horderly]
      have hle := t.roundsLeft_le
      omega
    have hall := everyone_run meeting (rounds results) horderly
    rw [(orderly_run meeting (rounds results) horderly).everyone_eq hleft, callers_rounds,
      List.append_nil] at hall
    exact hall.trans heveryone

/-- While a request is on its way a mute waits and then an offer takes it along, with which it
fails. -/
def offerTakesMute : List (Event Nat) :=
  [.submit (.mute (some false) none) 0, .take 0, .submit (.mute none (some false)) 1,
    .submit (.roap { kind := .offer, seq := 1 }) 2, .reply 0 (.ok {}), .answer 0, .take 0,
    .reply 0 (.error .cancelled), .answer 0]

/-- The offer takes the mute along, and both fail with it. -/
theorem answered_once_offerTakesMute :
    let trips := (Ledger.run "m" offerTakesMute {}).trips
    let answered := (run "m" offerTakesMute {}).answered
    (callers offerTakesMute).Nodup ∧
      (trips.map (·.entry.waiters) = [[0], [2, 1]] ∧ (1, .error .cancelled) ∈ answered) ∧
      ∃ trip ∈ trips, 1 ∈ trip.entry.waiters ∧ trip.result = some (.error .cancelled) ∧
        .submit (.mute none (some false)) 1 ∈ trip.past ∧
        ∀ other ∈ trip.entry.waiters, (other, .error .cancelled) ∈ answered := by
  intro trips answered
  have hnodup : (callers offerTakesMute).Nodup := by decide
  have hanswered : answered =
      [(0, .ok {}), (2, .error .cancelled), (1, .error .cancelled)] := rfl
  have hanswer : (1, .error .cancelled) ∈ answered := by
    rw [hanswered]
    simp
  obtain ⟨-, -, hresults, hbuilt, -⟩ := answered_once "m" offerTakesMute hnodup
  obtain ⟨trip, htrip, hcaller, hresult, -, hcompany⟩ := hresults 1 _ hanswer
  have hmem : .submit (.mute none (some false)) 1 ∈ offerTakesMute := by simp [offerTakesMute]
  obtain ⟨hpast, -⟩ := (hbuilt trip htrip).2 1 hcaller _ hmem
  exact ⟨hnodup, ⟨rfl, hanswer⟩, trip, htrip, hcaller, hresult, hpast, hcompany⟩

end Traffic

end CallSignaling.Media
