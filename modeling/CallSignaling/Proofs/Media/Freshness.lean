import CallSignaling.Proofs.Media.Delivery

/-!
# Requests carry the latest values

Mute state and media id are filled in when a request is built, however long it has waited.  So what
a request carries is said in terms of what had happened by then: the mute state that was asked for
last, by whichever request, and the media id that came back last.

* `Media.Traffic.lastAsked`: the mute state that the requests among events ask for last.
* `Media.Trip.mediaId?`, `Media.lastAssigned`: the media id that a trip brought back, and the last
  one of those from several trips.
* `Media.Trip.Latest`: what the request of a trip carries.
* `Media.Ledger.Knows`, `Media.Ledger.Assigned`, `Media.Ledger.CarriedLatest`: the mute state, the
  media id and the trips, which together make a ledger `Media.Ledger.Fresh`.

Every event keeps the ledger fresh (`fresh_step`), so that every request carries the latest values
(`carries_latest`).
-/

namespace CallSignaling.Media

open Roap (Message)
open Traffic (Event)

variable {ω : Type}

/-! ### What was asked for and assigned -/

namespace Traffic

/-- The mute state that an event asks for, by one of the two fields of a request. -/
def Event.mute? (mute : Request → Option Bool) : Event ω → Option Bool
  | submit request _ => mute request
  | _ => none

/-- The mute state that the requests among events ask for last. -/
def lastAsked (mute : Request → Option Bool) (events : List (Event ω)) : Option Bool :=
  (events.filterMap (Event.mute? mute)).getLast?

theorem lastAsked_concat (mute : Request → Option Bool) (events : List (Event ω))
    (event : Event ω) :
    lastAsked mute (events ++ [event]) = (event.mute? mute).or (lastAsked mute events) := by
  rw [lastAsked, List.filterMap_append, List.getLast?_append]
  cases h : event.mute? mute <;> simp [h, lastAsked]

/-- An event that submits nothing asks for no mute state. -/
theorem lastAsked_of_idle (mute : Request → Option Bool) (events : List (Event ω))
    {event : Event ω} (h : ∀ request caller, event ≠ .submit request caller) :
    lastAsked mute (events ++ [event]) = lastAsked mute events := by
  have hnone : event.mute? mute = none := by
    cases event with
    | submit request caller => exact absurd rfl (h request caller)
    | take _ | reply _ _ | answer _ => rfl
  rw [lastAsked_concat, hnone, Option.none_or]

end Traffic

/-- The media id that a trip brought back: that of the first connection, unless it is empty. -/
def Trip.mediaId? (trip : Trip ω) : Option String :=
  match trip.result with
  | some (.ok response) =>
    match response.connections with
    | connection :: _ => if connection.mediaId = "" then none else some connection.mediaId
    | [] => none
  | _ => none

/-- The media id that trips brought back last. -/
def lastAssigned (trips : List (Trip ω)) : Option String := (trips.filterMap Trip.mediaId?).getLast?

theorem lastAssigned_concat (trips : List (Trip ω)) (trip : Trip ω) :
    lastAssigned (trips ++ [trip]) = trip.mediaId?.or (lastAssigned trips) := by
  rw [lastAssigned, List.filterMap_append, List.getLast?_append]
  cases h : trip.mediaId? <;> simp [h, lastAssigned]

theorem Trip.mediaId?_of_ok {trip : Trip ω} {response : Response}
    (h : trip.result = some (.ok response)) : trip.mediaId? = response.mediaId? := by
  obtain ⟨locus, connections⟩ := response
  simp only [mediaId?, h, Response.mediaId?]
  cases connections with
  | nil => rfl
  | cons connection rest =>
    by_cases he : connection.mediaId = "" <;> simp [he, Option.filter_some]

theorem Trip.mediaId?_of_error {trip : Trip ω} {e : TransportError}
    (h : trip.result = some (.error e)) : trip.mediaId? = none := by
  rw [mediaId?, h]

/-- After the reply to a trip the outbox knows the media id that came back last. -/
theorem Outbox.finish_mediaId {trip : Trip ω} {result : Except TransportError Response}
    (h : trip.result = some result) (entry : Entry ω) (o : Outbox ω) :
    (o.finish entry result).state.mediaId = trip.mediaId?.getD o.mediaId := by
  cases result with
  | ok response =>
    rw [Trip.mediaId?_of_ok h]
    rfl
  | error e =>
    rw [Trip.mediaId?_of_error h]
    rfl

/-! ### What a request carries -/

/-- The request of an entry has been submitted. -/
def Outbox.Entry.Submitted (past : List (Event ω)) (entry : Entry ω) : Prop :=
  ∃ caller, .submit entry.request caller ∈ past

theorem Outbox.Entry.Submitted.mono {past events : List (Event ω)} {entry : Entry ω}
    (h : entry.Submitted past) : entry.Submitted (past ++ events) := by
  obtain ⟨caller, hmem⟩ := h
  exact ⟨caller, List.mem_append_left _ hmem⟩

/-- A request that comes in leaves the requests of the entries submitted ones. -/
theorem Outbox.submitted_enqueue {past : List (Event ω)} {request : Request} {caller : ω}
    {queue : List (Entry ω)} (hmem : .submit request caller ∈ past)
    (h : ∀ entry ∈ queue, entry.Submitted past) :
    ∀ entry ∈ (enqueue request caller queue).1, entry.Submitted past := by
  intro entry hentry
  unfold enqueue at hentry
  split at hentry
  · rw [List.mem_singleton.1 hentry]
    exact ⟨caller, hmem⟩
  · rename_i first rest _
    rcases List.mem_cons.1 hentry with rfl | hrest
    · exact h first List.mem_cons_self
    · exact h entry (List.mem_cons_of_mem _ hrest)
  · rcases List.mem_append.1 hentry with hkept | hnew
    · exact h entry (List.mem_filter.1 hkept).1
    · rw [List.mem_singleton.1 hnew]
      exact ⟨caller, hmem⟩

/-- The request of a trip that began after other trips carries a submitted request with the mute
state asked for last before it was built, and the media id that those trips brought back last. -/
structure Trip.Latest (before : List (Trip ω)) (trip : Trip ω) : Prop where
  earlier : ∀ other ∈ before, other.result.isSome
  submitted : trip.entry.Submitted trip.past
  payload : trip.request.payload = trip.entry.request.payload
  audio : trip.request.audioMuted =
    (Traffic.lastAsked Request.audioMuted trip.past).getD true
  video : trip.request.videoMuted =
    (Traffic.lastAsked Request.videoMuted trip.past).getD true
  mediaId : trip.request.mediaId =
    if trip.entry.request.reconnecting then "" else (lastAssigned before).getD ""

theorem Trip.Latest.close {before : List (Trip ω)} {trip : Trip ω} (h : trip.Latest before)
    (result : Except TransportError Response) :
    (trip.close result).Latest (before.map (Trip.close result)) := by
  rw [Trip.map_close_of_isSome h.earlier]
  exact ⟨h.earlier, h.submitted, h.payload, h.audio, h.video, h.mediaId⟩

/-! ### What is known for the next request -/

namespace Ledger

/-- What is known for the next request was asked for last, and what waits was submitted. -/
structure Knows (l : Ledger ω) : Prop where
  queue : ∀ entry ∈ l.traffic.outbox.queue, entry.Submitted l.past
  audio : l.traffic.outbox.audioMuted = Traffic.lastAsked Request.audioMuted l.past
  video : l.traffic.outbox.videoMuted = Traffic.lastAsked Request.videoMuted l.past

/-- The media id is that of the trips whose result has been passed on. -/
def Assigned (l : Ledger ω) : Prop :=
  ∃ finished underWay, l.Split finished underWay ∧
    l.traffic.outbox.mediaId = (lastAssigned finished).getD ""

/-- Every trip carried the latest. -/
def CarriedLatest (l : Ledger ω) : Prop :=
  ∀ before trip after, l.trips = before ++ trip :: after → trip.Latest before

/-- What is known for the next request is the latest, and the trips so far carried the latest. -/
structure Fresh (l : Ledger ω) : Prop where
  knows : Knows l
  assigned : Assigned l
  trips : CarriedLatest l

theorem fresh_new : Fresh ({} : Ledger ω) where
  knows := ⟨fun _ h => absurd h List.not_mem_nil, rfl, rfl⟩
  assigned := ⟨[], [], split_new, rfl⟩
  trips := fun before trip after h => by simp at h

/-- A request that comes in is what was asked for last. -/
theorem Knows.submitted {l : Ledger ω} (h : Knows l) (meeting : String) (request : Request)
    (caller : ω) : Knows (l.step meeting (.submit request caller)) := by
  have hcourse := course_step meeting (.submit request caller) l
  generalize l.step meeting (.submit request caller) = l' at hcourse
  cases hcourse with
  | submitted hstarted =>
    have hmem : .submit request caller ∈ l.past ++ [.submit request caller] :=
      List.mem_append_right _ (List.mem_singleton.2 rfl)
    refine ⟨Outbox.submitted_enqueue hmem fun entry hentry => (h.queue entry hentry).mono, ?_, ?_⟩
    · rw [Traffic.lastAsked_concat, ← h.audio]
      rfl
    · rw [Traffic.lastAsked_concat, ← h.video]
      rfl
  | idle hidle => exact absurd rfl (hidle request caller)

/-- Nothing else asks for mute state or adds to what waits. -/
theorem Knows.quiet {l l' : Ledger ω} (h : Knows l) {event : Event ω}
    (hidle : ∀ request caller, event ≠ .submit request caller) (hpast : l'.past = l.past ++ [event])
    (hqueue : l'.traffic.outbox.queue ⊆ l.traffic.outbox.queue)
    (haudio : l'.traffic.outbox.audioMuted = l.traffic.outbox.audioMuted)
    (hvideo : l'.traffic.outbox.videoMuted = l.traffic.outbox.videoMuted) : Knows l' where
  queue entry hentry := hpast ▸ (h.queue entry (hqueue hentry)).mono
  audio := by rw [haudio, h.audio, hpast, Traffic.lastAsked_of_idle _ _ hidle]
  video := by rw [hvideo, h.video, hpast, Traffic.lastAsked_of_idle _ _ hidle]

theorem Knows.step {l : Ledger ω} (h : Knows l) (meeting : String) (event : Event ω) :
    Knows (l.step meeting event) := by
  have hcourse := course_step meeting event l
  have hsubmitted := h.submitted meeting
  generalize hl' : l.step meeting event = l' at hcourse
  cases hcourse with
  | @submitted request caller => exact hl' ▸ hsubmitted request caller
  | idle hidle => exact h.quiet hidle rfl (List.Subset.refl _) rfl rfl
  | ended => exact h.quiet (by simp) rfl (List.Subset.refl _) rfl rfl
  | departed hd hq =>
    exact h.quiet (by simp) rfl (fun e he => hq ▸ List.mem_cons_of_mem _ he) rfl rfl
  | replied => exact h.quiet (by simp) rfl (List.Subset.refl _) rfl rfl
  | @answered i entry result =>
    refine h.quiet (by simp) rfl ?_ ?_ ?_ <;> cases result <;> simp [Outbox.finish]

/-- The media id changes when a result is passed on, with the trips that are over. -/
theorem Assigned.step {l : Ledger ω} (h : Assigned l) (meeting : String) (event : Event ω)
    {messages : List Message} (horderly : l.traffic.Orderly messages) :
    Assigned (l.step meeting event) := by
  obtain ⟨finished, underWay, hsplit, hmediaId⟩ := h
  cases hsplit.settles meeting event horderly with
  | none hsplit _ hsame => exact ⟨_, _, hsplit, hsame.trans hmediaId⟩
  | @one trip result hresult hsplit _ houtbox =>
    refine ⟨_, _, hsplit, ?_⟩
    rw [houtbox, Outbox.finish_mediaId hresult, hmediaId, lastAssigned_concat]
    cases trip.mediaId? <;> rfl

/-- The trip that begins when nothing is in hand carries the latest values. -/
theorem Fresh.latest_embark {l : Ledger ω} (h : Fresh l) (honly : l.traffic.dispatchers = [.taking])
    {entry : Outbox.Entry ω} (hentry : entry ∈ l.traffic.outbox.queue) (meeting : String) :
    (l.embark meeting entry).Latest l.trips := by
  obtain ⟨finished, underWay, hsplit, hmediaId⟩ := h.assigned
  have htrips := hsplit.trips
  rw [hsplit.of_taking honly, List.append_nil] at htrips
  exact {
    earlier := htrips ▸ hsplit.finished
    submitted := h.knows.queue entry hentry
    payload := rfl
    audio := congrArg (Option.getD · true) h.knows.audio
    video := congrArg (Option.getD · true) h.knows.video
    mediaId := by rw [htrips, ← hmediaId]; rfl }

/-- One more trip that carries the latest. -/
theorem CarriedLatest.concat {l l' : Ledger ω} (h : CarriedLatest l) {last : Trip ω}
    (hlast : last.Latest l.trips) (htrips : l'.trips = l.trips ++ [last]) : CarriedLatest l' := by
  intro before trip after hsplit
  rw [htrips] at hsplit
  -- the trip is one of those before, or the one that begins
  rcases List.eq_nil_or_concat after with rfl | ⟨after, other, rfl⟩
  · obtain ⟨rfl, heq⟩ := List.append_inj' hsplit rfl
    cases heq
    exact hlast
  · rw [List.concat_eq_append, ← List.cons_append, ← List.append_assoc] at hsplit
    exact h before trip after (List.append_inj' hsplit rfl).1

/-- A result changes nothing of what was carried. -/
theorem CarriedLatest.close {l l' : Ledger ω} (h : CarriedLatest l)
    {result : Except TransportError Response} (htrips : l'.trips = l.trips.map (Trip.close result)) :
    CarriedLatest l' := by
  intro before trip after hsplit
  rw [htrips] at hsplit
  obtain ⟨before', rest, htrips', rfl, hrest⟩ := List.map_eq_append_iff.1 hsplit
  obtain ⟨own, after', rfl, rfl, -⟩ := List.map_eq_cons_iff.1 hrest
  exact (h before' own after' htrips').close result

theorem Fresh.carriedLatest_step {l : Ledger ω} (h : Fresh l) (meeting : String) (event : Event ω)
    {messages : List Message} (horderly : l.traffic.Orderly messages) :
    CarriedLatest (l.step meeting event) := by
  have hcourse := course_step meeting event l
  generalize l.step meeting event = l' at hcourse
  cases hcourse with
  | departed hd hq =>
    obtain ⟨rfl, honly, -⟩ := horderly.dispatchers_eq hd
    exact h.trips.concat (h.latest_embark honly (hq ▸ List.mem_cons_self) meeting) rfl
  | replied => exact h.trips.close rfl
  | submitted | idle | ended | answered => exact h.trips

theorem fresh_step (meeting : String) (event : Event ω) {messages : List Message}
    {l : Ledger ω} (horderly : l.traffic.Orderly messages) (h : Fresh l) :
    Fresh (l.step meeting event) where
  knows := h.knows.step meeting event
  assigned := h.assigned.step meeting event horderly
  trips := h.carriedLatest_step meeting event horderly

theorem fresh_run (meeting : String) (events : List (Event ω)) :
    Fresh (run meeting events ({} : Ledger ω)) := by
  refine (run_induction (P := fun l => Fresh l ∧ ∃ messages, l.traffic.Orderly messages)
    (fun event l h => ?_) events ⟨fresh_new, [], Traffic.orderly_new⟩).1
  obtain ⟨hfresh, messages, horderly⟩ := h
  exact ⟨fresh_step meeting event horderly hfresh, _,
    Traffic.orderly_step meeting event horderly⟩

end Ledger

/-- **Every request carries the latest values**: whatever callers and dispatchers do in whatever
order, the requests sent are those of the trips.  Each was built for a request that had been
submitted, and carries its message.  Its mute state is what any request submitted before it was
built asked for last, and muted if none did.  When it was built the requests sent before it had been
answered, and its media id is the last one that came back for them, unless it is for a new
connection. -/
theorem Traffic.carries_latest (meeting : String) (events : List (Event ω)) :
    let trips := (Ledger.run meeting events ({} : Ledger ω)).trips
    trips.map Trip.request = (run meeting events ({} : Traffic ω)).sent ∧
      ∀ before trip after, trips = before ++ trip :: after →
        trip.past <+: events ∧
          (∃ caller, .submit trip.entry.request caller ∈ trip.past) ∧
          trip.request.payload = trip.entry.request.payload ∧
          trip.request.audioMuted = (lastAsked Request.audioMuted trip.past).getD true ∧
          trip.request.videoMuted = (lastAsked Request.videoMuted trip.past).getD true ∧
          (∀ other ∈ before, other.result.isSome) ∧
          trip.request.mediaId =
            if trip.entry.request.reconnecting then "" else (lastAssigned before).getD "" := by
  intro trips
  have hsound : (Ledger.run meeting events ({} : Ledger ω)).Sound := Ledger.sound_run meeting events
  have htraffic : (Ledger.run meeting events ({} : Ledger ω)).traffic = run meeting events {} :=
    Ledger.traffic_run meeting events {}
  have hpast : (Ledger.run meeting events ({} : Ledger ω)).past = events :=
    Ledger.past_run meeting events {}
  refine ⟨?_, fun before trip after hsplit => ?_⟩
  · rw [← htraffic]
    exact hsound.sent
  · have hmem : trip ∈ trips := by simp [hsplit]
    have hlatest := (Ledger.fresh_run meeting events).trips before trip after hsplit
    exact ⟨hpast ▸ (hsound.trips trip hmem).past, hlatest.submitted, hlatest.payload,
      hlatest.audio, hlatest.video, hlatest.earlier, hlatest.mediaId⟩

/-- The first request is sent before any is answered.  The second one was submitted before the mute
state changed and is built after the first one was answered. -/
example :
    (Traffic.run "m"
        [.submit (.roap { kind := .offer, seq := 1 }) 0, .take 0,
          .submit (.roap { kind := .answer, seq := 1 }) 1, .submit (.mute (some false) none) 2,
          .reply 0 (.ok { connections := [{ mediaId := "c" }] }), .answer 0, .take 0]
        ({} : Traffic Nat)).sent.map (fun r => (r.audioMuted, r.videoMuted, r.mediaId)) =
      [(true, true, ""), (false, true, "c")] := rfl

end CallSignaling.Media
