import CallSignaling.Proofs.Media.Traffic

/-!
# The history of an outbox

What is said about a request on the wire refers to what had happened before it was built, and to
the reply that comes back for it.  The traffic keeps neither, so its history is written down beside
it.

* `Media.Trip`: an entry that left for the wire, with the request that was built for it, the events
  before that and, once it is there, the result.
* `Media.Ledger`: traffic with the events so far and the trips they led to.
* `Media.Ledger.step`, `Media.Ledger.run`: the ledger after an event, and after a list of them.
* `Media.Ledger.Course`: what an event comes to, one case for each way through it.

Writing the history down does not change the traffic (`traffic_run`), and the events so far are
those of the run (`past_run`).
-/

namespace CallSignaling.Media

/-- An entry that left for the wire. -/
structure Trip (ω : Type) where
  entry : Outbox.Entry ω
  /-- The request that was put on the wire. -/
  request : OutboundRequest
  /-- What had happened before the request was built. -/
  past : List (Traffic.Event ω)
  /-- The result of the request, once it is there. -/
  result : Option (Except TransportError Response) := none

/-- A result arrives.  A trip that has one keeps it. -/
def Trip.close {ω : Type} (result : Except TransportError Response) (trip : Trip ω) : Trip ω :=
  { trip with result := trip.result.or (some result) }

/-- Traffic with its history. -/
structure Ledger (ω : Type) where
  traffic : Traffic ω := {}
  past : List (Traffic.Event ω) := []
  trips : List (Trip ω) := []

namespace Ledger

open Traffic (Event)

variable {ω : Type}

/-- The trip that begins when an entry leaves. -/
def embark (meeting : String) (entry : Outbox.Entry ω) (l : Ledger ω) : Trip ω :=
  { entry, request := l.traffic.outbox.outbound meeting entry.request, past := l.past }

/-- The trips after an event: one more if an entry leaves, and the one under way closed if a reply
arrives. -/
def record (meeting : String) (event : Event ω) (l : Ledger ω) : List (Trip ω) :=
  match event with
  | .take i =>
    match l.traffic.dispatchers[i]? with
    | some .taking =>
      match (l.traffic.outbox.take meeting).2 with
      | some (entry, request) => l.trips ++ [{ entry, request, past := l.past }]
      | none => l.trips
    | _ => l.trips
  | .reply i result =>
    match l.traffic.dispatchers[i]? with
    | some (.sending _) => l.trips.map (Trip.close result)
    | _ => l.trips
  | _ => l.trips

/-- The ledger after an event. -/
def step (meeting : String) (event : Event ω) (l : Ledger ω) : Ledger ω :=
  { traffic := l.traffic.step meeting event
    past := l.past ++ [event]
    trips := l.record meeting event }

/-- The ledger after events in turn. -/
def run (meeting : String) (events : List (Event ω)) (l : Ledger ω) : Ledger ω :=
  events.foldl (fun l event => l.step meeting event) l

@[simp] theorem run_nil (meeting : String) (l : Ledger ω) : l.run meeting [] = l := rfl

@[simp] theorem run_cons (meeting : String) (event : Event ω) (events : List (Event ω))
    (l : Ledger ω) : l.run meeting (event :: events) = (l.step meeting event).run meeting events :=
  rfl

theorem traffic_run (meeting : String) (events : List (Event ω)) (l : Ledger ω) :
    (l.run meeting events).traffic = l.traffic.run meeting events := by
  induction events generalizing l with
  | nil => rfl
  | cons event events ih => rw [run_cons, ih, Traffic.run_cons, step]

theorem past_run (meeting : String) (events : List (Event ω)) (l : Ledger ω) :
    (l.run meeting events).past = l.past ++ events := by
  induction events generalizing l with
  | nil => exact (List.append_nil _).symm
  | cons event events ih => rw [run_cons, ih, step, List.append_assoc, List.singleton_append]

/-- What every event keeps holds after every run. -/
theorem run_induction {P : Ledger ω → Prop} {meeting : String}
    (hstep : ∀ event l, P l → P (l.step meeting event)) (events : List (Event ω)) {l : Ledger ω}
    (h : P l) : P (l.run meeting events) := by
  induction events generalizing l with
  | nil => exact h
  | cons event events ih => exact ih (hstep event l h)

/-! ### What an event comes to -/

/-- What an event comes to, with what decides it. -/
inductive Course (meeting : String) (l : Ledger ω) : Event ω → Ledger ω → Prop
  /-- A request comes in, and a dispatcher starts unless one is at work. -/
  | submitted {request : Request} {caller : ω} {started : List (Dispatcher ω)}
      (h : started = if l.traffic.outbox.inFlight then [] else [.taking]) :
      Course meeting l (.submit request caller)
        { l with
          traffic := { l.traffic with
            outbox := (l.traffic.outbox.submit request caller).state
            dispatchers := l.traffic.dispatchers ++ started }
          past := l.past ++ [.submit request caller] }
  | idle {event : Event ω} (h : ∀ request caller, event ≠ .submit request caller) :
      Course meeting l event { l with past := l.past ++ [event] }
  | ended {i : Nat} (h : l.traffic.dispatchers[i]? = some .taking)
      (hq : l.traffic.outbox.queue = []) :
      Course meeting l (.take i)
        { l with
          traffic := { l.traffic with
            outbox := { l.traffic.outbox with inFlight := false }
            dispatchers := l.traffic.dispatchers.eraseIdx i }
          past := l.past ++ [.take i] }
  | departed {i : Nat} {entry : Outbox.Entry ω} {rest : List (Outbox.Entry ω)}
      (h : l.traffic.dispatchers[i]? = some .taking)
      (hq : l.traffic.outbox.queue = entry :: rest) :
      Course meeting l (.take i)
        { traffic := { l.traffic with
            outbox := { l.traffic.outbox with queue := rest }
            dispatchers := l.traffic.dispatchers.set i (.sending entry)
            sent := l.traffic.sent ++ [l.traffic.outbox.outbound meeting entry.request] }
          past := l.past ++ [.take i]
          trips := l.trips ++ [l.embark meeting entry] }
  | replied {i : Nat} {entry : Outbox.Entry ω} {result : Except TransportError Response}
      (h : l.traffic.dispatchers[i]? = some (.sending entry)) :
      Course meeting l (.reply i result)
        { traffic := { l.traffic with
            dispatchers := l.traffic.dispatchers.set i (.answering entry result) }
          past := l.past ++ [.reply i result]
          trips := l.trips.map (Trip.close result) }
  | answered {i : Nat} {entry : Outbox.Entry ω} {result : Except TransportError Response}
      (h : l.traffic.dispatchers[i]? = some (.answering entry result)) :
      Course meeting l (.answer i)
        { l with
          traffic := { l.traffic with
            outbox := (l.traffic.outbox.finish entry result).state
            dispatchers := l.traffic.dispatchers.set i .taking
            answered := l.traffic.answered ++ entry.waiters.map fun caller => (caller, result) }
          past := l.past ++ [.answer i] }

/-- An event that a dispatcher is not ready for changes nothing but the past. -/
theorem step_of_idle {meeting : String} {event : Event ω} {l : Ledger ω}
    (ht : l.traffic.step meeting event = l.traffic) (hr : l.record meeting event = l.trips) :
    l.step meeting event = { l with past := l.past ++ [event] } := by
  rw [step, ht, hr]

theorem course_step (meeting : String) (event : Event ω) (l : Ledger ω) :
    Course meeting l event (l.step meeting event) := by
  cases event with
  | submit request caller =>
    have hcourse := Traffic.course_step meeting (.submit request caller) l.traffic
    rw [step]
    generalize l.traffic.step meeting (.submit request caller) = t at hcourse
    cases hcourse with
    | started hfly => exact .submitted (by rw [hfly]; rfl)
    | queued hfly =>
      have h : Course meeting l (.submit request caller)
          { l with
            traffic := { l.traffic with
              outbox := (l.traffic.outbox.submit request caller).state
              dispatchers := l.traffic.dispatchers ++ [] }
            past := l.past ++ [.submit request caller] } := .submitted (by rw [hfly]; rfl)
      rwa [List.append_nil] at h
    | idle hidle => exact absurd rfl (hidle request caller)
  | take i =>
    by_cases hd : l.traffic.dispatchers[i]? = some .taking
    · cases hq : l.traffic.outbox.queue with
      | nil =>
        simp only [step, Traffic.step, record, hd, Outbox.take_of_nil hq]
        exact .ended hd hq
      | cons entry rest =>
        simp only [step, Traffic.step, record, hd, Outbox.take_of_cons hq]
        exact .departed hd hq
    · rw [step_of_idle]
      · exact .idle (by simp)
      · rw [Traffic.step]
        split
        · contradiction
        · rfl
      · rw [record]
        split
        · contradiction
        · rfl
  | reply i result =>
    by_cases hd : ∃ entry, l.traffic.dispatchers[i]? = some (.sending entry)
    · obtain ⟨entry, hd⟩ := hd
      simp only [step, Traffic.step, record, hd]
      exact .replied hd
    · rw [step_of_idle]
      · exact .idle (by simp)
      · rw [Traffic.step]
        split
        · exact absurd ⟨_, ‹_›⟩ hd
        · rfl
      · rw [record]
        split
        · exact absurd ⟨_, ‹_›⟩ hd
        · rfl
  | answer i =>
    have hcourse := Traffic.course_step meeting (.answer i) l.traffic
    rw [step]
    generalize l.traffic.step meeting (.answer i) = t at hcourse
    cases hcourse with
    | idle hidle => exact .idle hidle
    | answered hd => exact .answered hd

end Ledger

end CallSignaling.Media
