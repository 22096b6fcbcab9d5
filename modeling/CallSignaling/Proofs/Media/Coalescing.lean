import CallSignaling.Proofs.Media.Dispatch

/-!
# How much waits

Mutes join what waits, so that only messages make the queue longer.

* `Media.Outbox.Coalesced`: nothing waits, or a single mute, or messages only.
* `Media.Outbox.Gathered`: what waits after so many messages and so many mutes came in.
* `Media.Traffic.Event.submits`: an event submits a request of a kind.

Every request that comes in keeps the queue coalesced (`coalesced_enqueue`), and as long as no entry
leaves the queue gathers what is submitted (`gathered_run`).  What waits and what was sent since are
together what waited (`sends_run`), so that the numbers of both are known (`coalescing_bound`).
-/

namespace CallSignaling.Media

/-! ### The queue -/

/-- A request carries a message unless it sets mute state only. -/
theorem Request.length_message (request : Request) :
    request.message.toList.length = if request.kind = .roap then 1 else 0 := by
  unfold kind
  cases request.message <;> rfl

namespace Outbox

variable {ω : Type}

/-- Nothing waits, or a single mute, or messages only. -/
inductive Coalesced : List (Entry ω) → Prop
  | nothing : Coalesced []
  | mute {entry : Entry ω} (h : entry.isMute = true) : Coalesced [entry]
  | messages {queue : List (Entry ω)} (h : ∀ entry ∈ queue, entry.isMute = false) :
      Coalesced queue

/-- A mute that comes in waits alone or joins the first entry; a message leaves no mute behind. -/
theorem coalesced_enqueue (request : Request) (waiter : ω) {queue : List (Entry ω)}
    (h : Coalesced queue) : Coalesced (enqueue request waiter queue).1 := by
  unfold enqueue
  split
  · rename_i hkind
    exact .mute (decide_eq_true hkind)
  · rename_i first rest _
    cases h with
    | mute hmute => exact .mute hmute
    | messages hall =>
      refine .messages fun entry hentry => ?_
      rcases List.mem_cons.1 hentry with rfl | hrest
      · exact hall first List.mem_cons_self
      · exact hall entry (List.mem_cons_of_mem first hrest)
  · rename_i hkind
    refine .messages fun entry hentry => ?_
    rcases List.mem_append.1 hentry with hkept | hnew
    · exact Bool.not_eq_true' _ ▸ (List.mem_filter.1 hkept).2
    · rw [List.mem_singleton.1 hnew, Entry.isMute, hkind]
      rfl

theorem enqueue_ne_nil (request : Request) (waiter : ω) (queue : List (Entry ω)) :
    (enqueue request waiter queue).1 ≠ [] := by
  unfold enqueue
  split
  · exact List.cons_ne_nil _ _
  · exact List.cons_ne_nil _ _
  · exact List.append_ne_nil_of_right_ne_nil _ (List.cons_ne_nil _ _)

/-- Entries that all carry messages are as many as their messages. -/
theorem length_messages {queue : List (Entry ω)} (h : ∀ entry ∈ queue, entry.isMute = false) :
    (messages queue).length = queue.length := by
  induction queue with
  | nil => rfl
  | cons entry queue ih =>
    have hkind : entry.request.kind = .roap := by
      have hentry := of_decide_eq_false (h entry List.mem_cons_self)
      cases hkind : entry.request.kind with
      | roap => rfl
      | localMute => exact absurd hkind hentry
    rw [messages_cons, List.length_append, Request.length_message, if_pos hkind, List.length_cons,
      ih fun e he => h e (List.mem_cons_of_mem entry he), Nat.add_comm]

/-- What waits after `k` messages and `m` mutes came in. -/
structure Gathered (k m : Nat) (queue : List (Entry ω)) : Prop where
  coalesced : Coalesced queue
  messages : (messages queue).length = k
  nonempty : queue = [] ↔ k = 0 ∧ m = 0

theorem gathered_nil : Gathered 0 0 ([] : List (Entry ω)) :=
  ⟨.nothing, rfl, iff_of_true rfl ⟨rfl, rfl⟩⟩

theorem gathered_enqueue {k m : Nat} (request : Request) (waiter : ω) {queue : List (Entry ω)}
    (h : Gathered k m queue) :
    Gathered (k + if request.kind = .roap then 1 else 0)
      (m + if request.kind = .localMute then 1 else 0) (enqueue request waiter queue).1 where
  coalesced := coalesced_enqueue request waiter h.coalesced
  messages := by
    rw [messages_enqueue, List.length_append, h.messages, Request.length_message]
  nonempty := by
    refine iff_of_false (enqueue_ne_nil request waiter queue) ?_
    cases request.kind <;> simp

/-- The number of entries is that of the messages; without any, one entry stands for all mutes. -/
theorem Gathered.length_eq {k m : Nat} {queue : List (Entry ω)} (h : Gathered k m queue) :
    queue.length = if 0 < k then k else min m 1 := by
  obtain ⟨hcoalesced, hmessages, hnonempty⟩ := h
  cases hcoalesced with
  | nothing =>
    obtain ⟨rfl, rfl⟩ := hnonempty.1 rfl
    rfl
  | @mute entry hmute =>
    have hnone := Request.message_eq_none (of_decide_eq_true hmute)
    rw [messages_cons, hnone] at hmessages
    obtain rfl : k = 0 := hmessages.symm
    have hm : m ≠ 0 := fun hm => List.cons_ne_nil entry [] (hnonempty.2 ⟨rfl, hm⟩)
    show 1 = min m 1
    omega
  | messages hall =>
    rw [length_messages hall] at hmessages
    split
    · exact hmessages
    · have hnil := List.length_eq_zero_iff.1 (show queue.length = 0 by omega)
      have hm := (hnonempty.1 hnil).2
      omega

end Outbox

/-! ### Events -/

namespace Traffic

open Outbox (Gathered Coalesced)

variable {ω : Type}

/-- Whether an event submits a request of the kind. -/
def Event.submits (kind : RequestKind) : Event ω → Bool
  | submit request _ => request.kind = kind
  | _ => false

theorem coalesced_step (meeting : String) (event : Event ω) {t : Traffic ω}
    (h : Coalesced t.outbox.queue) : Coalesced (t.step meeting event).outbox.queue := by
  have hcourse := course_step meeting event t
  generalize t.step meeting event = t' at hcourse
  cases hcourse with
  | started | queued => exact Outbox.coalesced_enqueue _ _ h
  | idle | ended | replied => exact h
  | departed _ hq =>
    rw [hq] at h
    cases h with
    | mute => exact .nothing
    | messages hall => exact .messages fun entry hentry => hall entry (List.mem_cons_of_mem _ hentry)
  | answered =>
    rw [Outbox.finish_queue]
    exact h

theorem coalesced_run (meeting : String) (events : List (Event ω)) {t : Traffic ω}
    (h : Coalesced t.outbox.queue) : Coalesced (t.run meeting events).outbox.queue := by
  induction events generalizing t with
  | nil => exact h
  | cons event events ih => exact ih (coalesced_step meeting event h)

/-- Unless an entry may leave, an event adds to the queue what it submits, and nothing is sent. -/
theorem gathered_step (meeting : String) {event : Event ω} {k m : Nat} {t : Traffic ω}
    (hstay : ∀ i, event ≠ .take i) (h : Gathered k m t.outbox.queue) :
    Gathered (k + if event.submits .roap then 1 else 0)
        (m + if event.submits .localMute then 1 else 0) (t.step meeting event).outbox.queue ∧
      (t.step meeting event).sent = t.sent := by
  have hcourse := course_step meeting event t
  generalize t.step meeting event = t' at hcourse
  cases hcourse with
  | started | queued =>
    refine ⟨?_, rfl⟩
    simp only [Event.submits, decide_eq_true_eq]
    exact Outbox.gathered_enqueue _ _ h
  | idle hidle =>
    have hnone : ∀ kind, event.submits kind = false := by
      intro kind
      cases event with
      | submit request waiter => exact absurd rfl (hidle request waiter)
      | _ => rfl
    rw [hnone, hnone]
    exact ⟨h, rfl⟩
  | ended | departed => exact absurd rfl (hstay _)
  | replied => exact ⟨h, rfl⟩
  | answered =>
    rw [Outbox.finish_queue]
    exact ⟨h, rfl⟩

theorem gathered_run (meeting : String) {events : List (Event ω)} {k m : Nat} {t : Traffic ω}
    (hstay : ∀ i, .take i ∉ events) (h : Gathered k m t.outbox.queue) :
    Gathered (k + events.countP (Event.submits .roap))
        (m + events.countP (Event.submits .localMute)) (t.run meeting events).outbox.queue ∧
      (t.run meeting events).sent = t.sent := by
  induction events generalizing k m t with
  | nil => exact ⟨h, rfl⟩
  | cons event events ih =>
    have hevent : ∀ i, event ≠ .take i := fun i heq => hstay i (heq ▸ List.mem_cons_self)
    obtain ⟨hnow, hsent⟩ := gathered_step meeting hevent h
    obtain ⟨hlater, hsent'⟩ := ih (fun i hi => hstay i (List.mem_cons_of_mem event hi)) hnow
    have hcount : ∀ kind n, n + (event :: events).countP (Event.submits kind) =
        n + (if event.submits kind then 1 else 0) + events.countP (Event.submits kind) := by
      intro kind n
      rw [List.countP_cons]
      omega
    rw [hcount, hcount]
    exact ⟨hlater, hsent'.trans hsent⟩

/-- Unless something is submitted, what an event sends has waited before. -/
theorem sends_step (meeting : String) {event : Event ω} (t : Traffic ω)
    (hidle : ∀ request waiter, event ≠ .submit request waiter) :
    ∃ further, (t.step meeting event).sent = t.sent ++ further ∧
      further.length + (t.step meeting event).outbox.queue.length = t.outbox.queue.length := by
  have hcourse := course_step meeting event t
  generalize t.step meeting event = t' at hcourse
  cases hcourse with
  | started | queued => exact absurd rfl (hidle _ _)
  | departed _ hq => exact ⟨[_], rfl, by rw [hq, List.length_cons, Nat.add_comm]; rfl⟩
  | idle | ended | replied => exact ⟨[], (List.append_nil _).symm, Nat.zero_add _⟩
  | answered =>
    rw [Outbox.finish_queue]
    exact ⟨[], (List.append_nil _).symm, Nat.zero_add _⟩

theorem sends_run (meeting : String) {events : List (Event ω)} (t : Traffic ω)
    (hidle : ∀ request waiter, .submit request waiter ∉ events) :
    ∃ further, (t.run meeting events).sent = t.sent ++ further ∧
      further.length + (t.run meeting events).outbox.queue.length = t.outbox.queue.length := by
  induction events generalizing t with
  | nil => exact ⟨[], (List.append_nil _).symm, Nat.zero_add _⟩
  | cons event events ih =>
    obtain ⟨now, hsent, hlength⟩ := sends_step meeting t
      fun request waiter heq => hidle request waiter (heq ▸ List.mem_cons_self)
    obtain ⟨later, hsent', hlength'⟩ := ih (t.step meeting event)
      fun request waiter hmem => hidle request waiter (List.mem_cons_of_mem event hmem)
    refine ⟨now ++ later, ?_, ?_⟩
    · rw [run_cons, hsent', hsent, List.append_assoc]
    · rw [run_cons, List.length_append, Nat.add_assoc, hlength', hlength]

/-- **Only messages lengthen the queue**: in every state nothing waits, or a single mute, or
messages only.  Let nothing wait, as when the first request is on the wire, and let `k` messages and
`m` mutes come in, in any order and with any values, before another entry leaves.  Then `k` entries
wait, or a single one for all mutes if there is no message.  If nothing more is submitted, what is
sent from then on are these entries: no more at any time, all of them once the outbox is at rest,
and the dispatcher's own rounds bring it there. -/
theorem coalescing_bound (meeting : String) (before : List (Event ω)) :
    let t := run meeting before {}
    (t.outbox.queue = [] ∨ (∃ entry, t.outbox.queue = [entry] ∧ entry.isMute = true) ∨
        ∀ entry ∈ t.outbox.queue, entry.isMute = false) ∧
      (t.outbox.queue = [] → ∀ between : List (Event ω), (∀ i, .take i ∉ between) →
        let k := between.countP (Event.submits .roap)
        let m := between.countP (Event.submits .localMute)
        let waiting := if 0 < k then k else min m 1
        let t' := t.run meeting between
        t'.outbox.queue.length = waiting ∧ t'.sent = t.sent ∧
          (∀ later, (∀ request waiter, .submit request waiter ∉ later) →
            ∃ further, (t'.run meeting later).sent = t.sent ++ further ∧
              further.length + (t'.run meeting later).outbox.queue.length = waiting ∧
              ((t'.run meeting later).outbox.inFlight = false → further.length = waiting)) ∧
          ∀ results, waiting + 2 ≤ results.length →
            (t'.run meeting (rounds results)).outbox.inFlight = false) := by
  intro t
  have horderly : Orderly (submittedMessages before) t := orderly_run_new meeting before
  have hcoalesced : Coalesced t.outbox.queue := coalesced_run meeting before .nothing
  refine ⟨?_, fun hnone between hstay => ?_⟩
  · generalize t.outbox.queue = queue at hcoalesced
    cases hcoalesced with
    | nothing => exact .inl rfl
    | mute h => exact .inr (.inl ⟨_, rfl, h⟩)
    | messages h => exact .inr (.inr h)
  intro k m waiting t'
  have horderly' : Orderly (submittedMessages before ++ submittedMessages between) t' :=
    orderly_run meeting between horderly
  obtain ⟨hgathered, hsent⟩ :=
    gathered_run meeting hstay (hnone ▸ Outbox.gathered_nil : Gathered 0 0 t.outbox.queue)
  have hwaiting : t'.outbox.queue.length = waiting := by
    have hlength := hgathered.length_eq
    rwa [Nat.zero_add, Nat.zero_add] at hlength
  refine ⟨hwaiting, hsent, fun later hidle => ?_, fun results hlen => ?_⟩
  · obtain ⟨further, hfurther, hlength⟩ := sends_run meeting t' hidle
    rw [hwaiting] at hlength
    refine ⟨further, hsent ▸ hfurther, hlength, fun hrest => ?_⟩
    rwa [(orderly_run meeting later horderly').nothing_waits hrest, List.length_nil,
      Nat.add_zero] at hlength
  · have hleft : (t'.run meeting (rounds results)).roundsLeft = 0 := by
      rw [roundsLeft_rounds meeting results horderly']
      have hle := t'.roundsLeft_le
      omega
    exact ((orderly_run meeting (rounds results) horderly').nothing_left hleft).2.1

/-- A request is on its way. -/
def oneOnTheWire : List (Event Nat) :=
  [.submit (.roap { kind := .offer, seq := 1 }) 0, .take 0]

/-- Two mutes, a message, a mute and a message, and the reply somewhere in between. -/
def mixedRequests : List (Event Nat) :=
  [.submit (.mute (some false) none) 1, .submit (.mute none (some false)) 2,
    .submit (.roap { kind := .ok, seq := 1 }) 3, .reply 0 (.ok {}),
    .submit (.mute (some true) (some true)) 4, .submit (.roap { kind := .offer, seq := 2 }) 5]

/-- Of the five requests two are left, which are sent in two more rounds. -/
theorem coalescing_bound_mixed :
    let t := run "m" oneOnTheWire {}
    let t' := t.run "m" mixedRequests
    (t.outbox.queue = [] ∧ t.dispatchers.any Dispatcher.isSending = true ∧
        ∀ i, .take i ∉ mixedRequests) ∧
      t'.outbox.queue.length = 2 ∧
      ∃ further, (t'.run "m" (rounds (List.replicate 4 (.ok {})))).sent = t.sent ++ further ∧
        further.length = 2 := by
  intro t t'
  have hstay : ∀ i, .take i ∉ mixedRequests := by simp [mixedRequests]
  obtain ⟨-, hwaiting⟩ := coalescing_bound "m" oneOnTheWire
  obtain ⟨hlength, -, hsends, hrest⟩ := hwaiting rfl mixedRequests hstay
  obtain ⟨further, hfurther, -, hall⟩ :=
    hsends (rounds (List.replicate 4 (.ok {}))) (by simp [rounds, round])
  exact ⟨⟨rfl, rfl, hstay⟩, hlength, further, hfurther, hall (hrest _ (by decide))⟩

end Traffic

end CallSignaling.Media
