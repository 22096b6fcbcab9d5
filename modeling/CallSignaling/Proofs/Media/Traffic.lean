import CallSignaling.Media.Outbox

/-!
# Callers and dispatchers at an outbox

Callers submit requests at any time, and dispatchers send what waits.  An event is what one of them
does while it holds the outbox, or the arrival of a reply, so that every interleaving of their work
is a list of events.

* `Media.Dispatcher`: what a dispatcher is about to do.
* `Media.Traffic`: an outbox with its dispatchers, what was sent and what was answered.
* `Media.Traffic.step`, `Media.Traffic.run`: the traffic after an event, and after a list of them.
* `Media.Traffic.Course`: what an event comes to, one case for each way through it.
-/

namespace CallSignaling.Media

namespace Outbox

variable {ω : Type}

theorem take_of_nil {meeting : String} {o : Outbox ω} (hq : o.queue = []) :
    o.take meeting = ({ o with inFlight := false }, none) := by
  unfold take
  split
  · rfl
  · rename_i h
    rw [hq] at h
    cases h

theorem take_of_cons {meeting : String} {o : Outbox ω} {entry : Entry ω} {rest : List (Entry ω)}
    (hq : o.queue = entry :: rest) :
    o.take meeting =
      ({ o with queue := rest }, some (entry, o.outbound meeting entry.request)) := by
  unfold take
  split
  · rename_i h
    rw [hq] at h
    cases h
  · rename_i h
    rw [hq] at h
    cases h
    rfl

theorem finish_effects (entry : Entry ω) (result : Except TransportError Response) (o : Outbox ω) :
    (o.finish entry result).effects = entry.waiters.map fun waiter => .answer waiter result := rfl

end Outbox

/-- What a dispatcher is about to do. -/
inductive Dispatcher (ω : Type) where
  /-- Take the next entry.  This is how a dispatcher starts, however late it comes to it. -/
  | taking
  /-- Wait for the reply to an entry on the wire. -/
  | sending (entry : Outbox.Entry ω)
  /-- Pass the reply on. -/
  | answering (entry : Outbox.Entry ω) (result : Except TransportError Response)
  deriving Inhabited

/-- Whether a request of the dispatcher is on the wire. -/
def Dispatcher.isSending {ω : Type} : Dispatcher ω → Bool
  | sending _ => true
  | _ => false

/-- An outbox with all who are at work on it. -/
structure Traffic (ω : Type) where
  outbox : Outbox ω := {}
  /-- The dispatchers that have been started and have not ended. -/
  dispatchers : List (Dispatcher ω) := []
  /-- The requests that were put on the wire, in turn. -/
  sent : List OutboundRequest := []
  /-- Those who got their result, in turn. -/
  answered : List (ω × Except TransportError Response) := []
  deriving Inhabited

namespace Traffic

variable {ω : Type}

/-- What can happen.  An event of a dispatcher has the place of the dispatcher. -/
inductive Event (ω : Type) where
  /-- A caller submits a request. -/
  | submit (request : Request) (waiter : ω)
  /-- A dispatcher takes the next entry, or ends. -/
  | take (i : Nat)
  /-- The reply to a dispatcher's request arrives. -/
  | reply (i : Nat) (result : Except TransportError Response)
  /-- A dispatcher passes its reply on. -/
  | answer (i : Nat)
  deriving Inhabited

/-- Carries out what the outbox asks for. -/
def perform (t : Traffic ω) : Outbox.Effect ω → Traffic ω
  | .startDispatch => { t with dispatchers := t.dispatchers ++ [.taking] }
  | .answer waiter result => { t with answered := t.answered ++ [(waiter, result)] }

/-- Keeps the new state of the outbox and carries out what it asks for. -/
def settle (o : Outcome (Outbox ω) (Outbox.Effect ω)) (t : Traffic ω) : Traffic ω :=
  o.effects.foldl perform { t with outbox := o.state }

/-- The traffic after an event.  An event of a dispatcher that is about to do something else does
not happen. -/
def step (meeting : String) (event : Event ω) (t : Traffic ω) : Traffic ω :=
  match event with
  | .submit request waiter => t.settle (t.outbox.submit request waiter)
  | .take i =>
    match t.dispatchers[i]? with
    | some .taking =>
      match t.outbox.take meeting with
      | (outbox, none) => { t with outbox, dispatchers := t.dispatchers.eraseIdx i }
      | (outbox, some (entry, request)) =>
        { t with
          outbox
          dispatchers := t.dispatchers.set i (.sending entry)
          sent := t.sent ++ [request] }
    | _ => t
  | .reply i result =>
    match t.dispatchers[i]? with
    | some (.sending entry) =>
      { t with dispatchers := t.dispatchers.set i (.answering entry result) }
    | _ => t
  | .answer i =>
    match t.dispatchers[i]? with
    | some (.answering entry result) =>
      settle (t.outbox.finish entry result)
        { t with dispatchers := t.dispatchers.set i .taking }
    | _ => t

/-- The traffic after events in turn. -/
def run (meeting : String) (events : List (Event ω)) (t : Traffic ω) : Traffic ω :=
  events.foldl (fun t event => t.step meeting event) t

@[simp] theorem run_nil (meeting : String) (t : Traffic ω) : t.run meeting [] = t := rfl

@[simp] theorem run_cons (meeting : String) (event : Event ω) (events : List (Event ω))
    (t : Traffic ω) : t.run meeting (event :: events) = (t.step meeting event).run meeting events :=
  rfl

theorem run_append (meeting : String) (xs ys : List (Event ω)) (t : Traffic ω) :
    t.run meeting (xs ++ ys) = (t.run meeting xs).run meeting ys :=
  List.foldl_append

/-! ### What an event comes to -/

/-- What an event comes to, with what decides it. -/
inductive Course (meeting : String) (t : Traffic ω) : Event ω → Traffic ω → Prop
  | started {request : Request} {waiter : ω} (h : t.outbox.inFlight = false) :
      Course meeting t (.submit request waiter)
        { t with
          outbox := (t.outbox.submit request waiter).state
          dispatchers := t.dispatchers ++ [.taking] }
  | queued {request : Request} {waiter : ω} (h : t.outbox.inFlight = true) :
      Course meeting t (.submit request waiter)
        { t with outbox := (t.outbox.submit request waiter).state }
  | idle {event : Event ω} (h : ∀ request waiter, event ≠ .submit request waiter) :
      Course meeting t event t
  | ended {i : Nat} (h : t.dispatchers[i]? = some .taking) (hq : t.outbox.queue = []) :
      Course meeting t (.take i)
        { t with
          outbox := { t.outbox with inFlight := false }
          dispatchers := t.dispatchers.eraseIdx i }
  | departed {i : Nat} {entry : Outbox.Entry ω} {rest : List (Outbox.Entry ω)}
      (h : t.dispatchers[i]? = some .taking) (hq : t.outbox.queue = entry :: rest) :
      Course meeting t (.take i)
        { t with
          outbox := { t.outbox with queue := rest }
          dispatchers := t.dispatchers.set i (.sending entry)
          sent := t.sent ++ [t.outbox.outbound meeting entry.request] }
  | replied {i : Nat} {entry : Outbox.Entry ω} {result : Except TransportError Response}
      (h : t.dispatchers[i]? = some (.sending entry)) :
      Course meeting t (.reply i result)
        { t with dispatchers := t.dispatchers.set i (.answering entry result) }
  | answered {i : Nat} {entry : Outbox.Entry ω} {result : Except TransportError Response}
      (h : t.dispatchers[i]? = some (.answering entry result)) :
      Course meeting t (.answer i)
        { t with
          outbox := (t.outbox.finish entry result).state
          dispatchers := t.dispatchers.set i .taking
          answered := t.answered ++ entry.waiters.map fun waiter => (waiter, result) }

theorem foldl_perform_answer (waiters : List ω) (result : Except TransportError Response)
    (t : Traffic ω) :
    (waiters.map fun waiter => Outbox.Effect.answer waiter result).foldl perform t =
      { t with answered := t.answered ++ waiters.map fun waiter => (waiter, result) } := by
  induction waiters generalizing t with
  | nil => simp
  | cons waiter waiters ih =>
    rw [List.map_cons, List.foldl_cons, ih, perform, List.map_cons, List.append_assoc]
    rfl

theorem course_step (meeting : String) (event : Event ω) (t : Traffic ω) :
    Course meeting t event (t.step meeting event) := by
  cases event with
  | submit request waiter =>
    by_cases h : t.outbox.inFlight = true
    · -- the dispatcher at work will see the request
      have heq : t.step meeting (.submit request waiter) =
          { t with outbox := (t.outbox.submit request waiter).state } := by
        rw [step, settle, Outbox.submit, if_pos h]
        rfl
      rw [heq]
      exact .queued h
    · have heq : t.step meeting (.submit request waiter) =
          { t with
            outbox := (t.outbox.submit request waiter).state
            dispatchers := t.dispatchers ++ [.taking] } := by
        rw [step, settle, Outbox.submit, if_neg h]
        rfl
      rw [heq]
      exact .started (Bool.eq_false_iff.2 h)
  | take i =>
    rw [step]
    split
    · rename_i h
      cases hq : t.outbox.queue with
      | nil =>
        simp only [Outbox.take_of_nil hq]
        exact .ended h hq
      | cons entry rest =>
        simp only [Outbox.take_of_cons hq]
        exact .departed h hq
    · exact .idle fun _ _ => nofun
  | reply i result =>
    rw [step]
    split
    · exact .replied ‹_›
    · exact .idle fun _ _ => nofun
  | answer i =>
    rw [step]
    split
    · rename_i entry result h
      rw [settle, Outbox.finish_effects, foldl_perform_answer]
      exact .answered h
    · exact .idle fun _ _ => nofun

end Traffic

end CallSignaling.Media
