import CallSignaling.Proofs.Media.Traffic

/-!
# One dispatcher, and messages in order

* `Media.Outbox.messages`: the messages of the entries that wait.
* `Media.Traffic.Orderly`: there is a dispatcher just while the outbox is in flight, the outbox is
  in flight if something waits, and the messages sent and those that wait are the ones submitted.
* `Media.Traffic.rounds`: a dispatcher sends one entry after the other, whatever the replies.

Every event keeps the traffic orderly (`orderly_step`), hence every interleaving does
(`orderly_run`).  From orderly traffic a dispatcher needs no more than its own events to send all
that waits and to come to its end (`roundsLeft_rounds`).
-/

namespace CallSignaling.Media

open Roap (Message)

/-! ### Messages that wait -/

namespace Request

/-- A request that sets mute state only carries no message. -/
theorem message_eq_none {request : Request} (h : request.kind = .localMute) :
    request.message = none := by
  unfold kind at h
  split at h
  · cases h
  · exact Option.not_isSome_iff_eq_none.1 ‹_›

end Request

namespace Outbox

variable {ω : Type}

/-- The messages of entries. -/
def messages (queue : List (Entry ω)) : List Message := queue.filterMap (·.request.message)

theorem messages_cons (entry : Entry ω) (queue : List (Entry ω)) :
    messages (entry :: queue) = entry.request.message.toList ++ messages queue := by
  unfold messages
  cases h : entry.request.message with
  | none =>
    rw [List.filterMap_cons, h]
    rfl
  | some message =>
    rw [List.filterMap_cons, h]
    rfl

theorem messages_append (xs ys : List (Entry ω)) :
    messages (xs ++ ys) = messages xs ++ messages ys :=
  List.filterMap_append

/-- The mutes that wait carry no message. -/
theorem messages_filter_isMute (queue : List (Entry ω)) :
    messages (queue.filter (!·.isMute)) = messages queue := by
  induction queue with
  | nil => rfl
  | cons entry queue ih =>
    cases h : entry.isMute with
    | false => rw [List.filter_cons_of_pos (by simp [h]), messages_cons, messages_cons, ih]
    | true =>
      have hnone := Request.message_eq_none (of_decide_eq_true h)
      rw [List.filter_cons_of_neg (by simp [h]), messages_cons, hnone, ih]
      rfl

/-- A request that comes in adds its message at the end. -/
theorem messages_enqueue (request : Request) (waiter : ω) (queue : List (Entry ω)) :
    messages (enqueue request waiter queue).1 = messages queue ++ request.message.toList := by
  unfold enqueue
  split
  · show messages [_] = [] ++ _
    rw [messages_cons, List.nil_append]
    exact List.append_nil _
  · rename_i first rest h
    show messages (_ :: rest) = _
    rw [messages_cons, messages_cons, Request.message_eq_none h, Option.toList_none,
      List.append_nil]
  · show messages (List.filter _ _ ++ [_]) = _
    rw [messages_append, messages_filter_isMute, messages_cons]
    exact congrArg _ (List.append_nil _)

/-- A request on the wire carries the message that was submitted with it. -/
theorem message_outbound (meeting : String) (request : Request) (o : Outbox ω) :
    (o.outbound meeting request).payload.message? = request.message := by
  unfold outbound Request.payload
  cases request.message <;> rfl

theorem submit_queue (request : Request) (waiter : ω) (o : Outbox ω) :
    (o.submit request waiter).state.queue = (enqueue request waiter o.queue).1 := rfl

theorem finish_queue (entry : Entry ω) (result : Except TransportError Response) (o : Outbox ω) :
    (o.finish entry result).state.queue = o.queue := by
  cases result <;> rfl

theorem finish_inFlight (entry : Entry ω) (result : Except TransportError Response)
    (o : Outbox ω) : (o.finish entry result).state.inFlight = o.inFlight := by
  cases result <;> rfl

end Outbox

namespace Traffic

variable {ω : Type}

/-- The message that an event submits. -/
def Event.message? : Event ω → Option Message
  | submit request _ => request.message
  | _ => none

/-- The messages that events submit, in turn. -/
def submittedMessages (events : List (Event ω)) : List Message := events.filterMap Event.message?

/-- The messages that were put on the wire, in turn. -/
def sentMessages (t : Traffic ω) : List Message := t.sent.filterMap (·.payload.message?)

/-! ### Orderly traffic -/

/-- One dispatcher is at work as long as there is something to do, and `messages` are those
submitted, in turn. -/
structure Orderly (messages : List Message) (t : Traffic ω) : Prop where
  /-- There is one dispatcher while the outbox is in flight, and none otherwise. -/
  alone : t.dispatchers.length = if t.outbox.inFlight then 1 else 0
  /-- If something waits the outbox is in flight. -/
  awake : t.outbox.queue ≠ [] → t.outbox.inFlight = true
  /-- What was sent and what waits are the messages submitted. -/
  inOrder : t.sentMessages ++ Outbox.messages t.outbox.queue = messages

/-- Who is at work is the only dispatcher, and the outbox is in flight. -/
theorem Orderly.dispatchers_eq {messages : List Message} {t : Traffic ω} {i : Nat}
    {d : Dispatcher ω} (h : Orderly messages t) (hd : t.dispatchers[i]? = some d) :
    i = 0 ∧ t.dispatchers = [d] ∧ t.outbox.inFlight = true := by
  have hlen := h.alone
  cases hfly : t.outbox.inFlight with
  | false =>
    rw [hfly, if_neg Bool.false_ne_true] at hlen
    rw [List.length_eq_zero_iff.1 hlen] at hd
    cases hd
  | true =>
    rw [hfly, if_pos rfl] at hlen
    obtain ⟨d', hd'⟩ := List.length_eq_one_iff.1 hlen
    rw [hd'] at hd ⊢
    cases i with
    | zero =>
      cases hd
      exact ⟨rfl, rfl, rfl⟩
    | succ i => cases hd

/-- Traffic with a dispatcher at work is orderly if its messages are in order. -/
theorem Orderly.of_inFlight {messages : List Message} {t : Traffic ω}
    (hlen : t.dispatchers.length = 1) (hfly : t.outbox.inFlight = true)
    (horder : t.sentMessages ++ Outbox.messages t.outbox.queue = messages) :
    Orderly messages t where
  alone := by rw [hlen, hfly, if_pos rfl]
  awake := fun _ => hfly
  inOrder := horder

/-- The message of a request that comes in is the last one. -/
theorem messages_submit {messages : List Message} {t : Traffic ω} (request : Request) (waiter : ω)
    (h : Orderly messages t) :
    t.sentMessages ++ Outbox.messages (t.outbox.submit request waiter).state.queue =
      messages ++ request.message.toList := by
  rw [Outbox.submit_queue, Outbox.messages_enqueue, ← List.append_assoc, h.inOrder]

/-- The message of an entry that departs passes from the queue to the wire. -/
theorem messages_depart (meeting : String) {messages : List Message} {t : Traffic ω}
    {entry : Outbox.Entry ω} {rest : List (Outbox.Entry ω)} (h : Orderly messages t)
    (hq : t.outbox.queue = entry :: rest) :
    (t.sent ++ [t.outbox.outbound meeting entry.request]).filterMap (·.payload.message?)
        ++ Outbox.messages rest = messages := by
  rw [← h.inOrder, hq, sentMessages, Outbox.messages_cons,
    ← Outbox.message_outbound meeting entry.request t.outbox, List.filterMap_append,
    List.append_assoc, List.filterMap_cons]
  cases (t.outbox.outbound meeting entry.request).payload.message? <;> rfl

/-- Every event keeps the traffic orderly. -/
theorem orderly_step (meeting : String) (event : Event ω) {messages : List Message}
    {t : Traffic ω} (h : Orderly messages t) :
    Orderly (messages ++ event.message?.toList) (t.step meeting event) := by
  have hcourse := course_step meeting event t
  generalize t.step meeting event = t' at hcourse
  -- a dispatcher that does something is the only one, so that its place is the first
  cases hcourse with
  | @started request waiter hfly =>
    refine .of_inFlight ?_ rfl (messages_submit request waiter h)
    rw [List.length_append, h.alone, hfly]
    rfl
  | @queued request waiter hfly =>
    refine .of_inFlight ?_ rfl (messages_submit request waiter h)
    rw [h.alone, hfly]
    rfl
  | idle hidle =>
    have hnone : event.message? = none := by
      cases event with
      | submit request waiter => exact absurd rfl (hidle request waiter)
      | _ => rfl
    rw [hnone, Option.toList_none, List.append_nil]
    exact h
  | ended hd hq =>
    obtain ⟨rfl, honly, -⟩ := h.dispatchers_eq hd
    show Orderly (messages ++ []) _
    rw [List.append_nil, honly]
    exact ⟨rfl, fun hne => absurd hq hne, h.inOrder⟩
  | departed hd hq =>
    obtain ⟨rfl, honly, hfly⟩ := h.dispatchers_eq hd
    show Orderly (messages ++ []) _
    rw [List.append_nil, honly]
    exact .of_inFlight rfl hfly (messages_depart meeting h hq)
  | replied hd =>
    obtain ⟨rfl, honly, hfly⟩ := h.dispatchers_eq hd
    show Orderly (messages ++ []) _
    rw [List.append_nil, honly]
    exact .of_inFlight rfl hfly h.inOrder
  | @answered i entry result hd =>
    obtain ⟨rfl, honly, hfly⟩ := h.dispatchers_eq hd
    show Orderly (messages ++ []) _
    rw [List.append_nil, honly]
    refine .of_inFlight rfl ?_ ?_
    · rw [Outbox.finish_inFlight, hfly]
    · rw [Outbox.finish_queue]
      exact h.inOrder

theorem orderly_run (meeting : String) (events : List (Event ω)) {messages : List Message}
    {t : Traffic ω} (h : Orderly messages t) :
    Orderly (messages ++ submittedMessages events) (t.run meeting events) := by
  induction events generalizing messages t with
  | nil =>
    rw [submittedMessages, List.filterMap_nil, List.append_nil]
    exact h
  | cons event events ih =>
    have hcons : submittedMessages (event :: events) =
        event.message?.toList ++ submittedMessages events := by
      rw [submittedMessages, List.filterMap_cons]
      cases event.message? <;> rfl
    rw [hcons, ← List.append_assoc, run_cons]
    exact ih (orderly_step meeting event h)

theorem orderly_new : Orderly [] ({} : Traffic ω) := ⟨rfl, fun hne => absurd rfl hne, rfl⟩

theorem orderly_run_new (meeting : String) (events : List (Event ω)) :
    Orderly (submittedMessages events) (run meeting events {}) :=
  orderly_run meeting events orderly_new

/-! ### Rounds of the dispatcher -/

/-- What the dispatcher does about one entry, with the reply that arrives meanwhile. -/
def round (result : Except TransportError Response) : List (Event ω) :=
  [.take 0, .reply 0 result, .answer 0]

/-- The dispatcher sends one entry after the other. -/
def rounds (results : List (Except TransportError Response)) : List (Event ω) :=
  results.flatMap round

/-- How many rounds it takes until the dispatcher ends: one for each entry that waits, one to end,
and one for an entry that is already on its way. -/
def roundsLeft (t : Traffic ω) : Nat :=
  match t.dispatchers with
  | [] => 0
  | [.taking] => t.outbox.queue.length + 1
  | _ => t.outbox.queue.length + 2

theorem roundsLeft_le (t : Traffic ω) : t.roundsLeft ≤ t.outbox.queue.length + 2 := by
  unfold roundsLeft
  split <;> omega

theorem submittedMessages_rounds (results : List (Except TransportError Response)) :
    submittedMessages (rounds results : List (Event ω)) = [] := by
  induction results with
  | nil => rfl
  | cons result results ih => exact ih

/-- A round brings the dispatcher one round closer to its end. -/
theorem roundsLeft_round (meeting : String) (result : Except TransportError Response)
    {messages : List Message} {t : Traffic ω} (h : Orderly messages t) :
    (t.run meeting (round result)).roundsLeft = t.roundsLeft - 1 := by
  cases hd : t.dispatchers with
  | nil => simp [round, step, roundsLeft, hd]
  | cons d rest =>
    obtain ⟨-, honly, -⟩ := h.dispatchers_eq (i := 0) (by rw [hd]; rfl)
    -- the events of the round that do not fit what the dispatcher is about to do change nothing
    cases d with
    | taking =>
      cases hq : t.outbox.queue with
      | nil => simp [round, step, roundsLeft, honly, hq, Outbox.take_of_nil hq]
      | cons entry queue =>
        simp [round, step, roundsLeft, honly, hq, Outbox.take_of_cons hq, settle,
          Outbox.finish_effects, foldl_perform_answer, Outbox.finish_queue]
    | sending entry =>
      simp [round, step, roundsLeft, honly, settle, Outbox.finish_effects, foldl_perform_answer,
        Outbox.finish_queue]
    | answering entry result =>
      simp [round, step, roundsLeft, honly, settle, Outbox.finish_effects, foldl_perform_answer,
        Outbox.finish_queue]

/-- Without anything else happening the dispatcher comes to its end. -/
theorem roundsLeft_rounds (meeting : String) (results : List (Except TransportError Response))
    {messages : List Message} {t : Traffic ω} (h : Orderly messages t) :
    (t.run meeting (rounds results)).roundsLeft = t.roundsLeft - results.length := by
  induction results generalizing t with
  | nil => rfl
  | cons result results ih =>
    have hround : Orderly messages (t.run meeting (round result)) := by
      have hrun := orderly_run meeting (round result) h
      rwa [show submittedMessages (round result : List (Event ω)) = [] from rfl,
        List.append_nil] at hrun
    rw [rounds, List.flatMap_cons, run_append]
    show (run meeting (rounds results) _).roundsLeft = _
    rw [ih hround, roundsLeft_round meeting result h, List.length_cons]
    omega

/-- Nothing waits unless the outbox is in flight. -/
theorem Orderly.nothing_waits {messages : List Message} {t : Traffic ω} (h : Orderly messages t)
    (hrest : t.outbox.inFlight = false) : t.outbox.queue = [] := by
  cases hq : t.outbox.queue with
  | nil => rfl
  | cons entry rest =>
    have hawake := h.awake (by rw [hq]; exact List.cons_ne_nil entry rest)
    rw [hrest] at hawake
    cases hawake

/-- When no round is left nobody is at work and nothing waits. -/
theorem Orderly.nothing_left {messages : List Message} {t : Traffic ω} (h : Orderly messages t)
    (hrest : t.roundsLeft = 0) :
    t.dispatchers = [] ∧ t.outbox.inFlight = false ∧ t.outbox.queue = [] := by
  have hnone : t.dispatchers = [] := by
    unfold roundsLeft at hrest
    split at hrest
    · assumption
    · omega
    · omega
  have hfly : t.outbox.inFlight = false := by
    have hlen := h.alone
    rw [hnone] at hlen
    refine Bool.eq_false_iff.2 fun hfly => ?_
    rw [hfly] at hlen
    cases hlen
  exact ⟨hnone, hfly, h.nothing_waits hfly⟩

/-- Traffic in which no round is left is at rest, and everything has been sent. -/
theorem Orderly.at_rest {messages : List Message} {t : Traffic ω} (h : Orderly messages t)
    (hrest : t.roundsLeft = 0) : t.outbox.inFlight = false ∧ t.sentMessages = messages := by
  obtain ⟨-, hfly, hq⟩ := h.nothing_left hrest
  refine ⟨hfly, ?_⟩
  have horder := h.inOrder
  rwa [hq, Outbox.messages, List.filterMap_nil, List.append_nil] at horder

/-- **One request at a time, and every message in its turn**: whatever callers and dispatchers do
in whatever order, at most one request is on the wire; there is one dispatcher while the outbox is
in flight and none otherwise; if something waits the outbox is in flight; and the messages sent,
followed by those that wait, are the messages submitted.  The dispatcher's own rounds bring the
outbox to rest, and then all messages submitted have been sent. -/
theorem one_at_a_time (meeting : String) (events : List (Event ω)) :
    let t := run meeting events {}
    (t.dispatchers.filter Dispatcher.isSending).length ≤ 1 ∧
      t.dispatchers.length = (if t.outbox.inFlight then 1 else 0) ∧
      (t.outbox.queue ≠ [] → t.outbox.inFlight = true) ∧
      t.sentMessages ++ Outbox.messages t.outbox.queue = submittedMessages events ∧
      ∀ results, t.outbox.queue.length + 2 ≤ results.length →
        (t.run meeting (rounds results)).outbox.inFlight = false ∧
          (t.run meeting (rounds results)).sentMessages = submittedMessages events := by
  intro t
  have h : Orderly (submittedMessages events) t := orderly_run_new meeting events
  refine ⟨?_, h.alone, h.awake, h.inOrder, fun results hlen => ?_⟩
  · -- even all dispatchers together are at most one
    refine Nat.le_trans (List.length_filter_le _ _) ?_
    rw [h.alone]
    split <;> omega
  · have hrun := orderly_run meeting (rounds results) h
    rw [submittedMessages_rounds, List.append_nil] at hrun
    refine hrun.at_rest ?_
    rw [roundsLeft_rounds meeting results h]
    have hle := t.roundsLeft_le
    omega

end Traffic

end CallSignaling.Media
