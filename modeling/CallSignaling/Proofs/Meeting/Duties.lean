import CallSignaling.Proofs.Meeting.Activity
import CallSignaling.Proofs.Roap.Completion

/-!
# What a meeting owes its peer

To an offer of the peer a meeting owes an answer, and to an answer an acknowledgement.  Both take
work before they can be sent, and while it is done the peer goes on, exchanges are removed, and more
work can be given out for the same exchange.

* `Meeting.Duty`: what a meeting sends without being asked by a caller.
* `Meeting.Input.isReport`: whether an input reports on work.
* `Meeting.Activity.owes`, `Meeting.Activity.entries`: whether an exchange is at the point where
  something is owed, and how often it gets there in a run.
* `Meeting.Activity.paid`: how often it was sent.

Main statements: a report leaves an exchange alone, settles what it owes or removes it
(`phase?_report`); what is sent in an exchange and still owed in it is no more than what came to be
owed (`paid_run`); and both over every run (`duties_within_protocol`).
-/

namespace CallSignaling.Meeting

open Roap (Message MessageKind)

/-! ### Duties -/

/-- What a meeting owes its peer and sends without being asked by a caller. -/
inductive Duty where
  | answer
  | ok
  deriving DecidableEq

namespace Duty

variable {κ : Type}

/-- The phase of an exchange in which it is owed. -/
def due : Duty → Roap.Phase
  | answer => .owesAnswer
  | ok => .owesOk

/-- The phase of the exchange when it has been sent. -/
def settled : Duty → Roap.Phase
  | answer => .awaitsOk
  | ok => .idle

/-- What it is to the exchange. -/
def part : Duty → Roap.Part
  | answer => .answer
  | ok => .ok

/-- The message that is sent.  Only an answer has something to say. -/
def message (seq : UInt64) (sdps : List String) : Duty → Message
  | answer => .answer seq sdps
  | ok => .ok seq

/-- The report that the message can be sent. -/
def prepared (seq : UInt64) (sdps : List String) : Duty → Input κ
  | answer => .answerBuilt seq (.ok sdps)
  | ok => .answerApplied seq (.ok ())

/-- The report that the message could not be prepared. -/
def unprepared (seq : UInt64) (e : NegotiationError) : Duty → Input κ
  | answer => .answerBuilt seq (.error e)
  | ok => .answerApplied seq (.error e)

@[simp] theorem message_seq (duty : Duty) (seq : UInt64) (sdps : List String) :
    (duty.message seq sdps).seq = seq := by
  cases duty <;> rfl

theorem part?_message (duty : Duty) (seq : UInt64) (sdps : List String) :
    (duty.message seq sdps).kind.part? = some duty.part := by
  cases duty <;> rfl

theorem signal_message (duty : Duty) (seq : UInt64) (sdps : List String) :
    Roap.Signal.ofMessage? (duty.message seq sdps).kind .own = some (.sent duty.part) := by
  cases duty <;> rfl

theorem next_due (duty : Duty) : duty.due.next (.sent duty.part) = duty.settled := by
  cases duty <;> rfl

theorem settled_ne_due (duty : Duty) : duty.settled ≠ duty.due := by
  cases duty <;> simp [settled, due]

theorem settled_ne_failed (duty : Duty) : duty.settled ≠ .failed := by
  cases duty <;> simp [settled]

/-- Whether an effect sends it in the exchange `seq`, with no caller who waits for that. -/
def pays (duty : Duty) (seq : UInt64) : Effect κ → Bool
  | .send message none => message.kind.part? = some duty.part && message.seq = seq
  | _ => false

end Duty

section Step

variable {κ : Type} {m : Meeting} {input : Input κ}

theorem sends?_prepared {duty : Duty} {seq : UInt64} {sdps : List String}
    (h : m.dialog.phase? seq = some duty.due) :
    m.sends? (duty.prepared seq sdps : Input κ) = some (duty.message seq sdps, none) := by
  cases duty with
  | answer => exact if_pos h
  | ok => exact if_pos h

theorem action?_prepared {duty : Duty} {seq : UInt64} {sdps : List String}
    (h : m.dialog.phase? seq = some duty.due) :
    m.action? (duty.prepared seq sdps : Input κ) = some (.send (duty.message seq sdps)) := by
  cases duty with
  | answer => exact if_pos h
  | ok => exact if_pos h

/-- What is owed is settled when it can be sent, and nothing else changes. -/
theorem phase?_prepared {duty : Duty} {seq : UInt64} (sdps : List String)
    (h : m.dialog.phase? seq = some duty.due) :
    (m.converses (duty.prepared seq sdps : Input κ)).state.phase? seq = some duty.settled ∧
      ∀ other, other ≠ seq → (m.converses (duty.prepared seq sdps : Input κ)).state.phase? other =
        m.dialog.phase? other := by
  obtain ⟨x, hx, hphase⟩ := Option.map_eq_some_iff.1 h
  have hfollows := Roap.Dialog.follows_execute m.dialog (duty.signal_message seq sdps) m.ownsMedia
  have hsettled : x.phase.next (.sent duty.part) = duty.settled := by
    rw [hphase, duty.next_due]
  rw [converses_of_some (action?_prepared h), Roap.Dialog.submit]
  simp only [Duty.message_seq, hx, Option.getD_some] at hfollows
  refine ⟨?_, fun other hother => ?_⟩
  · rw [Roap.Dialog.phase?, hfollows.exchange_self, Option.map_some,
      Roap.Exchange.take_phase_of_ne, hsettled]
    rw [hsettled]
    cases duty <;> simp [Duty.settled]
  · rw [Roap.Dialog.phase?, hfollows.exchange, if_neg hother, Roap.Dialog.phase?]

/-! ### Reports -/

/-- Whether an input reports on work. -/
def Input.isReport : Input κ → Bool
  | answerBuilt _ _ | answerApplied _ _ | sent _ _ _ | syncCompleted _ _ | destroyed => true
  | _ => false

theorem Duty.isReport_prepared (duty : Duty) {seq : UInt64} {sdps : List String} :
    (duty.prepared seq sdps : Input κ).isReport = true := by
  cases duty <;> rfl

theorem Duty.action?_unprepared (duty : Duty) {seq : UInt64} {e : NegotiationError} :
    m.action? (duty.unprepared seq e : Input κ) = none := by
  cases duty <;> rfl

/-- What can be sent is sent if it is owed; any other report sends nothing and brings the dialog no
message. -/
theorem report_cases (h : input.isReport = true) :
    (∃ (duty : Duty) (seq : UInt64) (sdps : List String), input = duty.prepared seq sdps ∧
        m.dialog.phase? seq = some duty.due) ∨
      m.sends? input = none ∧
        ∀ action, m.action? input = some action → m.dialog.taken? action = none := by
  cases input with
  | answerBuilt seq result =>
    cases result with
    | error e => exact .inr (by simp [sends?, action?])
    | ok sdps =>
      by_cases hdue : m.dialog.phase? seq = some .owesAnswer
      · exact .inl ⟨.answer, seq, sdps, rfl, hdue⟩
      · exact .inr (by simp [sends?, action?, hdue])
  | answerApplied seq result =>
    cases result with
    | error e => exact .inr (by simp [sends?, action?])
    | ok done =>
      by_cases hdue : m.dialog.phase? seq = some .owesOk
      · exact .inl ⟨.ok, seq, [], rfl, hdue⟩
      · exact .inr (by simp [sends?, action?, hdue])
  | sent message result caller =>
    refine .inr ⟨rfl, fun action haction => ?_⟩
    cases result with
    | ok response =>
      cases haction
      rfl
    | error e =>
      rw [action?] at haction
      split at haction <;> cases haction
      rfl
  | syncCompleted kind result => exact .inr (by simp [sends?, action?])
  | destroyed => exact .inr (by simp [sends?, action?])
  | _ => cases h

/-- A report makes the meeting send what it prepared, if that is owed, and no caller waits for
it. -/
theorem sends?_report_iff {message : Message} {caller : Option κ} :
    input.isReport = true ∧ m.sends? input = some (message, caller) ↔
      caller = none ∧ ∃ (duty : Duty) (sdps : List String),
        input = duty.prepared message.seq sdps ∧ message = duty.message message.seq sdps ∧
          m.dialog.phase? message.seq = some duty.due := by
  constructor
  · rintro ⟨hreport, hsends⟩
    rcases report_cases (m := m) hreport with ⟨duty, seq, sdps, rfl, hdue⟩ | ⟨hnone, -⟩
    · rw [sends?_prepared hdue] at hsends
      cases hsends
      refine ⟨rfl, duty, sdps, ?_⟩
      rw [duty.message_seq]
      exact ⟨rfl, rfl, hdue⟩
    · rw [hnone] at hsends
      cases hsends
  · rintro ⟨rfl, duty, sdps, rfl, hmessage, hdue⟩
    refine ⟨duty.isReport_prepared, ?_⟩
    rw [sends?_prepared hdue, ← hmessage]

/-- Only reports make the meeting send a message that no caller waits for. -/
theorem isReport_of_sends?_none {message : Message} (h : m.sends? input = some (message, none)) :
    input.isReport = true := by
  cases input with
  | sendOffer sdps tieBreaker caller =>
    obtain ⟨seq, -, heq⟩ := Option.map_eq_some_iff.1 h
    cases heq
  | _ => first | rfl | cases h

/-- A report leaves an exchange where it is, removes it, or settles what it owes. -/
theorem phase?_report (h : input.isReport = true) (seq : UInt64) :
    (m.converses input).state.phase? seq = m.dialog.phase? seq ∨
      (m.converses input).state.phase? seq = none ∨
      ∃ duty : Duty, m.dialog.phase? seq = some duty.due ∧
        (m.converses input).state.phase? seq = some duty.settled := by
  rcases report_cases (m := m) h with ⟨duty, own, sdps, rfl, hdue⟩ | ⟨-, hnone⟩
  · obtain ⟨hsettled, hothers⟩ := phase?_prepared (κ := κ) sdps hdue
    by_cases hseq : seq = own
    · subst hseq
      exact .inr (.inr ⟨duty, hdue, hsettled⟩)
    · exact .inl (hothers seq hseq)
  · cases haction : m.action? input with
    | none =>
      rw [converses_of_none haction]
      exact .inl rfl
    | some action =>
      have hexchange := (Roap.Dialog.submit_of_none (hnone action haction) m.ownsMedia).2 seq
      rw [converses_of_some haction, Roap.Dialog.phase?, hexchange]
      split
      · exact .inr (.inl rfl)
      · exact .inl rfl

end Step

namespace Activity

/-! ### What is owed and what is sent -/

/-- Whether something is owed in an exchange. -/
def owes (duty : Duty) (seq : UInt64) (a : Activity) : Bool :=
  a.meeting.dialog.phase? seq = some duty.due

/-- How often it was sent in an exchange. -/
def paid (duty : Duty) (seq : UInt64) (a : Activity) : Nat := a.effects.countP (duty.pays seq)

/-- How often an exchange gets to the point in a run where something is owed. -/
def entries (duty : Duty) (seq : UInt64) : List Occurrence → Activity → Nat
  | [], _ => 0
  | o :: later, a =>
    (!a.owes duty seq && (a.step o).owes duty seq).toNat + entries duty seq later (a.step o)

section Handle

variable {duty : Duty} {seq : UInt64} {a : Activity}

theorem of_pays {e : Effect Nat} (h : duty.pays seq e = true) :
    ∃ message, e = .send message none ∧ message.kind.part? = some duty.part ∧
      message.seq = seq := by
  cases e with
  | send message caller =>
    cases caller with
    | none => exact ⟨message, rfl, by simpa [Duty.pays] using h⟩
    | some caller => cases h
  | _ => cases h

/-- An input makes the meeting send at most one message. -/
theorem countP_pays_le (duty : Duty) (seq : UInt64) (now draw : Nat) (input : Input Nat)
    (m : Meeting) :
    (m.step now draw input).effects.countP (duty.pays seq) ≤ 1 := by
  have hsend : ∀ e ∈ (m.step now draw input).effects, duty.pays seq e = true →
      e.isSend = true := by
    intro e _ hpays
    obtain ⟨message, rfl, -⟩ := of_pays hpays
    rfl
  calc (m.step now draw input).effects.countP (duty.pays seq)
      ≤ (m.step now draw input).effects.countP Effect.isSend := List.countP_mono_left hsend
    _ = ((m.step now draw input).effects.filter Effect.isSend).length :=
        List.countP_eq_length_filter
    _ ≤ 1 := by
        rw [filter_isSend_step]
        cases m.sends? input <;> simp

/-- What is sent was owed and is settled. -/
theorem settled_of_pays {now draw : Nat} {input : Input Nat} {m : Meeting}
    (h : 0 < (m.step now draw input).effects.countP (duty.pays seq)) :
    m.dialog.phase? seq = some duty.due ∧
      (m.converses input).state.phase? seq = some duty.settled := by
  obtain ⟨e, hmem, hpays⟩ := List.countP_pos_iff.1 h
  obtain ⟨message, rfl, hpart, rfl⟩ := of_pays hpays
  have hsends := send_mem_step_iff.1 hmem
  obtain ⟨-, duty', sdps, rfl, hmessage, hdue⟩ :=
    sends?_report_iff.1 ⟨isReport_of_sends?_none hsends, hsends⟩
  have hsame : duty' = duty := by
    rw [hmessage, Duty.part?_message] at hpart
    cases duty <;> cases duty' <;> first | rfl | cases hpart
  subst hsame
  exact ⟨hdue, (phase?_prepared sdps hdue).1⟩

/-- What is sent and still owed after an input was owed before, or the exchange has just got
there. -/
theorem paid_handle (now draw : Nat) (input : Input Nat) (tasks : List (Effect Nat)) :
    let b := handle now draw input { a with tasks := tasks }
    b.paid duty seq + (b.owes duty seq).toNat ≤
      a.paid duty seq + (a.owes duty seq).toNat +
        (!a.owes duty seq && b.owes duty seq).toNat := by
  intro b
  have hpaid : b.paid duty seq = a.paid duty seq +
      (a.meeting.step now draw input).effects.countP (duty.pays seq) := List.countP_append
  have hphase : b.meeting.dialog.phase? seq = (a.meeting.converses input).state.phase? seq :=
    congrArg (Roap.Dialog.phase? · seq) (dialog_handle now draw input _)
  rw [hpaid]
  rcases Nat.eq_zero_or_pos
    ((a.meeting.step now draw input).effects.countP (duty.pays seq)) with hnone | hsome
  · rw [hnone]
    cases a.owes duty seq <;> cases b.owes duty seq <;> simp
  · have hone := countP_pays_le duty seq now draw input a.meeting
    obtain ⟨hdue, hsettled⟩ := settled_of_pays hsome
    have howed : a.owes duty seq = true := decide_eq_true hdue
    have hfree : b.owes duty seq = false := by
      rw [owes, hphase, hsettled, decide_eq_false_iff_not, Option.some.injEq]
      exact duty.settled_ne_due
    rw [howed, hfree]
    simpa using hone

theorem paid_step (duty : Duty) (seq : UInt64) (a : Activity) (o : Occurrence) :
    (a.step o).paid duty seq + ((a.step o).owes duty seq).toNat ≤
      a.paid duty seq + (a.owes duty seq).toNat +
        (!a.owes duty seq && (a.step o).owes duty seq).toNat := by
  have hcourse := course_step o a
  generalize a.step o = b at hcourse
  cases hcourse with
  | idle => exact Nat.le_add_right _ _
  | handled hsource => exact paid_handle _ _ _ _
  | lost i => exact Nat.le_add_right _ _
  | ended hsource => exact paid_handle _ _ _ _

/-- In a run no more is sent than was owed before it and came to be owed in it. -/
theorem paid_run (later : List Occurrence) :
    (a.run later).paid duty seq + ((a.run later).owes duty seq).toNat ≤
      a.paid duty seq + (a.owes duty seq).toNat + entries duty seq later a := by
  induction later generalizing a with
  | nil => exact Nat.le_add_right _ _
  | cons o later ih =>
    have hstep := paid_step duty seq a o
    have hrest := ih (a := a.step o)
    rw [run_cons, entries]
    omega

end Handle

/-- **What a meeting sends by itself keeps to the protocol.**  From every state that is reached:

* a report on work fails no exchange;
* it makes the meeting send what it prepared exactly if that is owed then, and with that the
  exchange is settled;
* in any further run no more answers, and no more acknowledgements, are sent in an exchange than are
  owed in it at first and come to be owed;
* when nothing could be prepared the dialog stays as it is. -/
theorem duties_within_protocol (name : String) (limits : Locus.Limits) (ownsMedia : Bool)
    (occurrences : List Occurrence) :
    let a := (start name limits ownsMedia).run occurrences
    (∀ now draw (input : Input Nat) seq, input.isReport = true →
        (a.meeting.step now draw input).state.dialog.phase? seq = some .failed →
          a.meeting.dialog.phase? seq = some .failed) ∧
      (∀ now draw (input : Input Nat) message caller,
        input.isReport = true ∧
            .send message caller ∈ (a.meeting.step now draw input).effects ↔
          caller = none ∧ ∃ (duty : Duty) (sdps : List String),
            input = duty.prepared message.seq sdps ∧ message = duty.message message.seq sdps ∧
              a.meeting.dialog.phase? message.seq = some duty.due ∧
              (a.meeting.step now draw input).state.dialog.phase? message.seq =
                some duty.settled) ∧
      (∀ duty seq later, (a.run later).paid duty seq + ((a.run later).owes duty seq).toNat ≤
        a.paid duty seq + (a.owes duty seq).toNat + entries duty seq later a) ∧
      ∀ now draw (duty : Duty) seq e,
        (a.meeting.step now draw (duty.unprepared seq e : Input Nat)).state.dialog =
          a.meeting.dialog := by
  intro a
  refine ⟨?_, ?_, fun duty seq later => paid_run later, ?_⟩
  · intro now draw input seq hreport hfailed
    rw [dialog_step] at hfailed
    rcases phase?_report hreport seq with hsame | hgone | ⟨duty, -, hsettled⟩
    · rwa [← hsame]
    · rw [hgone] at hfailed
      cases hfailed
    · rw [hsettled, Option.some.injEq] at hfailed
      exact absurd hfailed duty.settled_ne_failed
  · intro now draw input message caller
    rw [dialog_step, send_mem_step_iff, sends?_report_iff]
    constructor
    · rintro ⟨hcaller, duty, sdps, rfl, hmessage, hdue⟩
      exact ⟨hcaller, duty, sdps, rfl, hmessage, hdue, (phase?_prepared sdps hdue).1⟩
    · rintro ⟨hcaller, duty, sdps, rfl, hmessage, hdue, -⟩
      exact ⟨hcaller, duty, sdps, rfl, hmessage, hdue⟩
  · intro now draw duty seq e
    rw [dialog_step, converses_of_none duty.action?_unprepared]
    rfl

/-- The peer offers, an own offer gives way to that, and both times an answer is to be built. -/
def builtTwice : List Occurrence :=
  [{ event := .call (.submit (.receive (.offer 1 ["peer"] 5))) },
    { event := .call (.sendOffer ["own"] 9) },
    { event := .report 0 (.built (.ok ["first"])) },
    { event := .report 0 (.built (.ok ["second"])) }]

example :
    let a := start "m" ⟨5, 2000, 1000⟩ true
    (a.run (builtTwice.take 2)).tasks =
        [.buildAnswer 1 (.offer 1 ["peer"] 5), .buildAnswer 1 (.offer 1 ["peer"] 5),
          .send (.offer 1 ["own"] 9) (some 1)] ∧
      (a.run builtTwice).paid .answer 1 = 1 ∧ entries .answer 1 builtTwice a = 1 :=
  ⟨rfl, rfl, rfl⟩

end Activity

end CallSignaling.Meeting
