import CallSignaling.Proofs.Meeting.Activity
import CallSignaling.Proofs.Roap.Offers

/-!
# Answers and the offers they are to

An answer is built while other things happen, and when it is there the meeting only looks whether
the exchange owes one.  By then the exchange can hold another offer than the one that the answer was
built to: it was dropped and opened again, or glare put the other side's offer in the place.

* `Meeting.Activity.AnswersFit`: whether every answer under way, were it built now and sent, would
  be to the offer that its exchange holds.
* `Meeting.Activity.Overlaps`: whether answers to two offers of one exchange are under way.

Main statement: the answers fit at all times exactly if at no time answers to two offers of one
exchange are under way (`answersFit_iff_not_overlaps`).
-/

namespace CallSignaling.Meeting

open Roap (Message)

/-! ### Answers that the dialog asks for -/

section Converses

variable {κ : Type} {m : Meeting} {input : Input κ}

theorem of_sendAnswer_mem_converses (howns : m.ownsMedia = true) (hnumbered : m.dialog.Numbered)
    {seq : UInt64} {offer : Message} (h : .sendAnswer seq offer ∈ (m.converses input).effects) :
    (m.converses input).state.phase? seq = some .owesAnswer ∧
      (m.converses input).state.offer? seq = some offer := by
  unfold converses at h ⊢
  split at h
  · rw [howns] at h ⊢
    exact Roap.Dialog.of_sendAnswer_mem_submit hnumbered h
  · cases h

theorem exchange_or_sendAnswer_converses (howns : m.ownsMedia = true)
    (hcoherent : m.dialog.Coherent) (hnumbered : m.dialog.Numbered) {seq : UInt64}
    (hphase : (m.converses input).state.phase? seq = some .owesAnswer) :
    (m.converses input).state.exchange? seq = m.dialog.exchange? seq ∨
      ∃ offer, .sendAnswer seq offer ∈ (m.converses input).effects := by
  unfold converses at hphase ⊢
  split at hphase
  · rw [howns] at hphase ⊢
    exact Roap.Dialog.exchange_or_sendAnswer hcoherent hnumbered _ hphase
  · exact .inl rfl

end Converses

namespace Activity

/-- Every answer under way would, were it built now and sent, be to the offer that its exchange
holds. -/
def AnswersFit (a : Activity) : Prop :=
  ∀ seq offer, .buildAnswer seq offer ∈ a.tasks → ∀ now draw sdps,
    .send (.answer seq sdps) none ∈
        (a.meeting.step now draw (.answerBuilt seq (.ok sdps) : Input Nat)).effects →
      a.meeting.dialog.offer? seq = some offer

/-- Answers to two offers of one exchange are under way. -/
def Overlaps (a : Activity) : Prop :=
  ∃ seq offer other, offer ≠ other ∧ .buildAnswer seq offer ∈ a.tasks ∧
    .buildAnswer seq other ∈ a.tasks

/-- An answer that was built is sent if it is still owed. -/
theorem answersFit_iff {a : Activity} :
    a.AnswersFit ↔ ∀ seq offer, .buildAnswer seq offer ∈ a.tasks →
      a.meeting.dialog.phase? seq = some .owesAnswer →
        a.meeting.dialog.offer? seq = some offer := by
  constructor
  · intro h seq offer htask howed
    refine h seq offer htask 0 0 [] (send_mem_step_iff.2 ?_)
    exact if_pos howed
  · intro h seq offer htask now draw sdps hsent
    have hsends := send_mem_step_iff.1 hsent
    rw [sends?] at hsends
    split at hsends
    · exact h seq offer htask ‹_›
    · cases hsends

/-! ### One occurrence -/

/-- The offers of the exchanges carry their numbers. -/
theorem Faithful.numbered {name : String} {ownsMedia : Bool} {a : Activity}
    (h : Faithful name ownsMedia a) : a.meeting.dialog.Numbered := by
  rw [h.dialog]
  exact Roap.Dialog.numbered_run a.actions (Roap.Dialog.numbered_new name)

theorem buildAnswer_mem_handle_iff {a : Activity} {now draw : Nat} {input : Input Nat}
    {seq : UInt64} {offer : Message} :
    .buildAnswer seq offer ∈ (a.handle now draw input).tasks ↔
      .buildAnswer seq offer ∈ a.tasks ∨
        .sendAnswer seq offer ∈ (a.meeting.converses input).effects := by
  rw [handle, List.mem_append, List.mem_filter, buildAnswer_mem_step_iff]
  simp [Effect.isWork]

section Tasks

variable {a : Activity} {tasks : List (Effect Nat)}

theorem AnswersFit.of_sublist (h : a.AnswersFit) (htasks : tasks.Sublist a.tasks)
    (hasEnded : Bool) : AnswersFit { a with tasks := tasks, hasEnded := hasEnded } :=
  fun seq offer hmem => h seq offer (htasks.subset hmem)

theorem Overlaps.of_sublist {hasEnded : Bool} (htasks : tasks.Sublist a.tasks)
    (h : Overlaps { a with tasks := tasks, hasEnded := hasEnded }) : a.Overlaps := by
  obtain ⟨seq, offer, other, hne, hoffer, hother⟩ := h
  exact ⟨seq, offer, other, hne, htasks.subset hoffer, htasks.subset hother⟩

theorem answersFit_of_nil (h : a.tasks = []) : a.AnswersFit := by
  intro seq offer hmem
  rw [h] at hmem
  cases hmem

theorem not_overlaps_of_nil (h : a.tasks = []) : ¬ a.Overlaps := by
  rintro ⟨seq, offer, other, -, hmem, -⟩
  rw [h] at hmem
  cases hmem

end Tasks

section Handle

variable {name : String} {a : Activity} {now draw : Nat} {input : Input Nat}

/-- Answers that fit still do unless one more is asked for to another offer. -/
theorem answersFit_handle (h : Faithful name true a) (hfit : a.AnswersFit)
    (hapart : ¬ (a.handle now draw input).Overlaps) : (a.handle now draw input).AnswersFit := by
  rw [answersFit_iff] at hfit ⊢
  intro seq offer htask hphase
  rw [dialog_handle] at hphase ⊢
  rcases exchange_or_sendAnswer_converses h.ownsMedia h.coherent h.numbered hphase
    with hsame | ⟨asked, hasked⟩
  · rcases buildAnswer_mem_handle_iff.1 htask with hold | hnew
    · have hoffer : (a.meeting.converses input).state.offer? seq = a.meeting.dialog.offer? seq := by
        rw [Roap.Dialog.offer?, hsame, Roap.Dialog.offer?]
      rw [hoffer]
      refine hfit seq offer hold ?_
      rwa [Roap.Dialog.phase?, hsame] at hphase
    · exact (of_sendAnswer_mem_converses h.ownsMedia h.numbered hnew).2
  · -- the answer that is asked for now is to the offer held, and it is the only one
    have hoffer := (of_sendAnswer_mem_converses h.ownsMedia h.numbered hasked).2
    rw [hoffer]
    by_contra hne
    exact hapart ⟨seq, offer, asked, fun heq => hne (by rw [heq]), htask,
      buildAnswer_mem_handle_iff.2 (.inr hasked)⟩

/-- An answer that is asked for is to the offer held, so a second one to another offer does not
fit. -/
theorem not_overlaps_handle (h : Faithful name true a) (hapart : ¬ a.Overlaps)
    (hfit : (a.handle now draw input).AnswersFit) : ¬ (a.handle now draw input).Overlaps := by
  rintro ⟨seq, offer, other, hne, hoffer, hother⟩
  have hsame : (a.meeting.converses input).state.phase? seq = some .owesAnswer → False := by
    intro hphase
    rw [answersFit_iff, dialog_handle] at hfit
    have heq := (hfit seq offer hoffer hphase).symm.trans (hfit seq other hother hphase)
    exact hne (Option.some.inj heq)
  rcases buildAnswer_mem_handle_iff.1 hoffer with hold | hnew
  · rcases buildAnswer_mem_handle_iff.1 hother with hold' | hnew
    · exact hapart ⟨seq, offer, other, hne, hold, hold'⟩
    · exact hsame (of_sendAnswer_mem_converses h.ownsMedia h.numbered hnew).1
  · exact hsame (of_sendAnswer_mem_converses h.ownsMedia h.numbered hnew).1

theorem answersFit_step_iff (h : Faithful name true a) (hfit : a.AnswersFit)
    (hapart : ¬ a.Overlaps) (o : Occurrence) :
    (a.step o).AnswersFit ↔ ¬ (a.step o).Overlaps := by
  have hcourse := course_step o a
  generalize a.step o = b at hcourse
  cases hcourse with
  | idle => exact ⟨fun _ => hapart, fun _ => hfit⟩
  | handled hsource =>
    rename_i input tasks
    have hleft := h.with_tasks tasks a.hasEnded
    constructor
    · exact not_overlaps_handle hleft fun hboth => hapart (hboth.of_sublist hsource.sublist)
    · exact answersFit_handle hleft (hfit.of_sublist hsource.sublist a.hasEnded)
  | lost i =>
    have hless := List.eraseIdx_sublist a.tasks i
    exact ⟨fun _ hboth => hapart (hboth.of_sublist hless),
      fun _ => hfit.of_sublist hless a.hasEnded⟩
  | ended hsource => exact ⟨fun _ => not_overlaps_of_nil rfl, fun _ => answersFit_of_nil rfl⟩

end Handle

/-! ### Runs -/

/-- What holds at all times holds at the start and at all times after the first occurrence. -/
theorem forall_run_take_cons {P : Activity → Prop} {o : Occurrence}
    {occurrences : List Occurrence} {a : Activity} :
    (∀ n, P (a.run ((o :: occurrences).take n))) ↔
      P a ∧ ∀ n, P ((a.step o).run (occurrences.take n)) := by
  constructor
  · exact fun h => ⟨h 0, fun n => h (n + 1)⟩
  · rintro ⟨hfirst, hrest⟩ (_ | n)
    · exact hfirst
    · exact hrest n

theorem answersFit_run_iff {name : String} (occurrences : List Occurrence) {a : Activity}
    (h : Faithful name true a) (hfit : a.AnswersFit) (hapart : ¬ a.Overlaps) :
    (∀ n, (a.run (occurrences.take n)).AnswersFit) ↔
      ∀ n, ¬ (a.run (occurrences.take n)).Overlaps := by
  induction occurrences generalizing a with
  | nil => simp [hfit, hapart]
  | cons o occurrences ih =>
    have hstep := answersFit_step_iff h hfit hapart o
    have hnext : (a.step o).AnswersFit → ((∀ n, ((a.step o).run (occurrences.take n)).AnswersFit) ↔
        ∀ n, ¬ ((a.step o).run (occurrences.take n)).Overlaps) := fun hfit =>
      ih (faithful_run h [o]) hfit (hstep.1 hfit)
    rw [forall_run_take_cons (P := AnswersFit), forall_run_take_cons (P := fun a => ¬ a.Overlaps)]
    constructor
    · rintro ⟨-, hrest⟩
      exact ⟨hapart, (hnext (hrest 0)).1 hrest⟩
    · rintro ⟨-, hrest⟩
      exact ⟨hfit, (hnext (hstep.2 (hrest 0))).2 hrest⟩

/-- In every run of a meeting that owns the media, the answers that are sent are at all times to the
offers that their exchanges hold, exactly if at no time answers to two offers of one exchange are
under way. -/
theorem answersFit_iff_not_overlaps (name : String) (limits : Locus.Limits)
    (occurrences : List Occurrence) :
    let a := start name limits true
    (∀ n, (a.run (occurrences.take n)).AnswersFit) ↔
      ∀ n, ¬ (a.run (occurrences.take n)).Overlaps :=
  answersFit_run_iff occurrences (faithful_start name limits true) (answersFit_of_nil rfl)
    (not_overlaps_of_nil rfl)

/-- The peer offers, the call is left, and the peer offers again. -/
def reoffer : List Occurrence :=
  [{ event := .call (.submit (.receive (.offer 1 ["first"] 5))) },
    { event := .call (.submit .callLeave) },
    { event := .call (.submit (.receive (.offer 1 ["second"] 5))) }]

/-- The answer that was built to the first offer is sent though the exchange holds the second. -/
theorem reoffer_misanswered :
    let a := (start "m" ⟨5, 2000, 1000⟩ true).run reoffer
    let built := a.step { event := .report 0 (.built (.ok ["to the first"])) }
    a.tasks = [.buildAnswer 1 (.offer 1 ["first"] 5), .buildAnswer 1 (.offer 1 ["second"] 5)] ∧
      a.meeting.dialog.offer? 1 = some (.offer 1 ["second"] 5) ∧
      built.effects = a.effects ++ [.send (.answer 1 ["to the first"]) none] ∧ ¬ a.AnswersFit := by
  refine ⟨rfl, rfl, rfl, fun hfit => ?_⟩
  have hoffer := answersFit_iff.1 hfit 1 (.offer 1 ["first"] 5) (List.mem_of_getElem? (i := 0) rfl)
    rfl
  have hsame : Message.offer 1 ["second"] 5 = .offer 1 ["first"] 5 := Option.some.inj hoffer
  exact absurd hsame (by decide)

end Activity

end CallSignaling.Meeting
