import CallSignaling.Proofs.Media.Traffic
import Mathlib.Data.List.InsertIdx

/-!
# Other names for those who wait

An outbox does not look at those who wait for its replies.  What is said of an outbox whose callers
have some names holds when they are called by others.

* `Media.Outbox.Entry.map`, `Media.Outbox.map`: an outbox with other names.
* `Media.Dispatcher.map`, `Media.Traffic.map`, `Media.Traffic.Event.map`: traffic with other names,
  and what happens to it.

Events with other names lead to the traffic with other names (`step_map`, `run_map`).
-/

namespace CallSignaling.Media

variable {ω ω' : Type} (f : ω → ω')

namespace Outbox

/-- An entry with other names for those who wait for it. -/
def Entry.map (e : Entry ω) : Entry ω' := { request := e.request, waiters := e.waiters.map f }

/-- An outbox with other names for those who wait. -/
def map (o : Outbox ω) : Outbox ω' :=
  { queue := o.queue.map (Entry.map f)
    inFlight := o.inFlight
    audioMuted := o.audioMuted
    videoMuted := o.videoMuted
    mediaId := o.mediaId }

theorem flatMap_waiters_map (queue : List (Entry ω)) :
    (queue.map (Entry.map f)).flatMap (·.waiters) = (queue.flatMap (·.waiters)).map f := by
  rw [List.flatMap_map, List.map_flatMap]
  rfl

theorem filter_isMute_map (queue : List (Entry ω)) :
    (queue.map (Entry.map f)).filter Entry.isMute = (queue.filter Entry.isMute).map (Entry.map f) :=
  List.filter_map

theorem filter_not_isMute_map (queue : List (Entry ω)) :
    (queue.map (Entry.map f)).filter (!·.isMute) = (queue.filter (!·.isMute)).map (Entry.map f) :=
  List.filter_map

theorem enqueue_map (request : Request) (waiter : ω) (queue : List (Entry ω)) :
    enqueue request (f waiter) (queue.map (Entry.map f)) =
      ((enqueue request waiter queue).1.map (Entry.map f), (enqueue request waiter queue).2) := by
  unfold enqueue
  cases request.kind with
  | localMute =>
    cases queue with
    | nil => rfl
    | cons first rest => simp [Entry.map]
  | roap =>
    simp only [filter_isMute_map, filter_not_isMute_map, flatMap_waiters_map, List.map_append,
      List.isEmpty_map]
    rfl

theorem state_submit_map (request : Request) (waiter : ω) (o : Outbox ω) :
    ((o.map f).submit request (f waiter)).state = (o.submit request waiter).state.map f := by
  simp only [submit, recordMutes, map, enqueue_map]

theorem state_finish_map (entry : Entry ω) (result : Except TransportError Response)
    (o : Outbox ω) :
    ((o.map f).finish (entry.map f) result).state = (o.finish entry result).state.map f := by
  cases result <;> rfl

end Outbox

/-- A dispatcher of an outbox with other names. -/
def Dispatcher.map : Dispatcher ω → Dispatcher ω'
  | taking => .taking
  | sending entry => .sending (entry.map f)
  | answering entry result => .answering (entry.map f) result

namespace Traffic

/-- An event with another name for the caller. -/
def Event.map : Event ω → Event ω'
  | submit request waiter => .submit request (f waiter)
  | take i => .take i
  | reply i result => .reply i result
  | answer i => .answer i

/-- Traffic with other names for those who wait. -/
def map (t : Traffic ω) : Traffic ω' :=
  { outbox := t.outbox.map f
    dispatchers := t.dispatchers.map (Dispatcher.map f)
    sent := t.sent
    answered := t.answered.map (Prod.map f id) }

theorem getElem?_dispatchers_map {t : Traffic ω} {i : Nat} {d : Dispatcher ω}
    (h : t.dispatchers[i]? = some d) : (t.map f).dispatchers[i]? = some (d.map f) := by
  rw [map, List.getElem?_map, h]
  rfl

theorem step_map (meeting : String) (event : Event ω) (t : Traffic ω) :
    (t.map f).step meeting (event.map f) = (t.step meeting event).map f := by
  cases event with
  | submit request waiter =>
    have hstate := Outbox.state_submit_map f request waiter t.outbox
    have heffects : ((t.map f).outbox.submit request (f waiter)).effects =
        if t.outbox.inFlight then [] else [.startDispatch] := rfl
    have hown : (t.outbox.submit request waiter).effects =
        if t.outbox.inFlight then [] else [.startDispatch] := rfl
    simp only [Event.map, step, settle, heffects, hown]
    split <;> simp [map, perform, hstate, Dispatcher.map]
  | take i =>
    simp only [Event.map, step]
    cases hd : t.dispatchers[i]? with
    | none => simp [map, hd]
    | some d =>
      rw [getElem?_dispatchers_map f hd]
      cases d with
      | taking =>
        cases hq : t.outbox.queue with
        | nil =>
          have hq' : (t.map f).outbox.queue = [] := by simp [map, Outbox.map, hq]
          simp only [Dispatcher.map, Outbox.take_of_nil hq, Outbox.take_of_nil hq']
          simp [map, Outbox.map, List.eraseIdx_map]
        | cons entry rest =>
          have hq' : (t.map f).outbox.queue = entry.map f :: rest.map (Outbox.Entry.map f) := by
            simp [map, Outbox.map, hq]
          simp only [Dispatcher.map, Outbox.take_of_cons hq, Outbox.take_of_cons hq']
          simp only [map, Outbox.map, List.map_set, Dispatcher.map]
          rfl
      | sending | answering => rfl
  | reply i result =>
    simp only [Event.map, step]
    cases hd : t.dispatchers[i]? with
    | none => simp [map, hd]
    | some d =>
      rw [getElem?_dispatchers_map f hd]
      cases d with
      | sending entry => simp [map, List.map_set, Dispatcher.map]
      | taking | answering => rfl
  | answer i =>
    simp only [Event.map, step]
    cases hd : t.dispatchers[i]? with
    | none => simp [map, hd]
    | some d =>
      rw [getElem?_dispatchers_map f hd]
      cases d with
      | answering entry result =>
        simp only [Dispatcher.map, settle, Outbox.finish_effects, foldl_perform_answer]
        have houtbox := Outbox.state_finish_map f entry result t.outbox
        simp only [map, ← houtbox, List.map_set, List.map_append, List.map_map, Dispatcher.map,
          Outbox.Entry.map]
        rfl
      | taking | sending => rfl

theorem run_map (meeting : String) (events : List (Event ω)) (t : Traffic ω) :
    (t.map f).run meeting (events.map (Event.map f)) = (t.run meeting events).map f := by
  induction events generalizing t with
  | nil => rfl
  | cons event events ih => rw [List.map_cons, run_cons, run_cons, step_map, ih]

end Traffic

end CallSignaling.Media
