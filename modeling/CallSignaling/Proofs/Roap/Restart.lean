import CallSignaling.Proofs.Roap.Course
import Mathlib.Data.List.Induction

/-!
# Exchanges that start over

When an exchange has been removed, a message for it opens a new one.  But a dialog goes on knowing
the message that it received last, also when the exchange of that message is removed, and drops the
next one with the same number and kind.

* `Roap.Action.KeepsLast`: the actions that leave the message received last alone.
* `Roap.Dialog.Heard`: the message received last in a run since the call was left.
* `Roap.Dialog.restart`: an exchange is removed and a message received for it.
* `Roap.Dialog.StartsOver`: whether that comes to what it comes to in a new dialog.

Main statement: an exchange starts over unless the message repeats the one that was received last
(`startsOver_iff_not_heard`).
-/

namespace CallSignaling.Roap

/-- Whether an action leaves the message alone that a dialog knows as the last one received. -/
def Action.KeepsLast : Action → Prop
  | .send _ | .sendSuccess _ | .reset _ => True
  | .receive _ | .callLeave => False

namespace Dialog

/-! ### The message received last -/

theorem lastReceived_of_keepsLast {action : Action} (h : action.KeepsLast) (d : Dialog)
    (ownsMedia : Bool) : (d.submit action ownsMedia).state.lastReceived = d.lastReceived := by
  have hstays : action ≠ .callLeave := by
    rintro rfl
    exact h
  rw [lastReceived_submit hstays]
  cases action with
  | receive m => cases h
  | send m => rfl
  | sendSuccess m => rfl
  | callLeave => cases h
  | reset seq => rfl

/-- Whether a message with a number and a kind was the last one received in a run, and the call has
not been left since. -/
def Heard (steps : List (Action × Bool)) (seq : UInt64) (kind : MessageKind) : Prop :=
  ∃ before message ownsMedia after, steps = before ++ (.receive message, ownsMedia) :: after ∧
    message.seq = seq ∧ message.kind = kind ∧ ∀ step ∈ after, step.1.KeepsLast

theorem heard_concat_iff {steps : List (Action × Bool)} {step : Action × Bool} {seq : UInt64}
    {kind : MessageKind} :
    Heard (steps ++ [step]) seq kind ↔
      (∃ message, step.1 = .receive message ∧ message.seq = seq ∧ message.kind = kind) ∨
        step.1.KeepsLast ∧ Heard steps seq kind := by
  constructor
  · rintro ⟨before, message, ownsMedia, after, heq, hseq, hkind, hafter⟩
    cases after using List.reverseRecOn with
    | nil =>
      obtain ⟨-, rfl⟩ := List.append_singleton_inj.1 heq
      exact .inl ⟨message, rfl, hseq, hkind⟩
    | append_singleton after last =>
      rw [← List.cons_append, ← List.append_assoc] at heq
      obtain ⟨rfl, rfl⟩ := List.append_singleton_inj.1 heq
      have hboth := List.forall_mem_append.1 hafter
      exact .inr ⟨hboth.2 step (by simp), before, message, ownsMedia, after, rfl, hseq, hkind,
        hboth.1⟩
  · rintro (⟨message, hreceive, hseq, hkind⟩ | ⟨hkeeps, before, message, ownsMedia, after, rfl,
      hseq, hkind, hafter⟩)
    · exact ⟨steps, message, step.2, [], by rw [← hreceive], hseq, hkind, by simp⟩
    · refine ⟨before, message, ownsMedia, after ++ [step], by simp, hseq, hkind, ?_⟩
      exact List.forall_mem_append.2 ⟨hafter, List.forall_mem_singleton.2 hkeeps⟩

/-- What a dialog knows as the last message is what was received last, until the call is left. -/
theorem lastReceived_run_iff (meeting : String) {steps : List (Action × Bool)} {seq : UInt64}
    {kind : MessageKind} :
    (run steps { meeting }).state.lastReceived = some (seq, kind) ↔ Heard steps seq kind := by
  induction steps using List.reverseRecOn with
  | nil => simp [run, Outcome.runAll, Heard]
  | append_singleton steps step ih =>
    rw [run_concat_state, heard_concat_iff]
    obtain ⟨action, ownsMedia⟩ := step
    have hkeeps : action.KeepsLast → _ := fun h =>
      lastReceived_of_keepsLast h (run steps { meeting }).state ownsMedia
    cases action with
    | receive m =>
      rw [lastReceived_submit (by simp)]
      simp [noted, Action.KeepsLast]
    | callLeave => simp [submit, Action.KeepsLast]
    | send m => simp [hkeeps trivial, ih, Action.KeepsLast]
    | sendSuccess m => simp [hkeeps trivial, ih, Action.KeepsLast]
    | reset dropped => simp [hkeeps trivial, ih, Action.KeepsLast]

/-! ### Starting over -/

/-- An exchange is removed, and then a message is received for it. -/
def restart (d : Dialog) (message : Message) (ownsMedia : Bool) : Outcome Dialog Effect :=
  (d.submit (.reset message.seq) ownsMedia).andThen (·.submit (.receive message) ownsMedia)

/-- Whether a message that is received when its exchange has been removed leads to the effects and
the exchange to which it leads in a new dialog. -/
def StartsOver (d : Dialog) (message : Message) (ownsMedia : Bool) : Prop :=
  let first := submit { meeting := d.meeting } (.receive message) ownsMedia
  (d.restart message ownsMedia).effects = first.effects ∧
    (d.restart message ownsMedia).state.exchange? message.seq = first.state.exchange? message.seq

section Restart

variable {d : Dialog} {message : Message} {ownsMedia : Bool}

/-- A message that is not known is received alike wherever its exchange is not there. -/
theorem receive_of_absent {e : Dialog} (hd : d.exchange? message.seq = none)
    (he : e.exchange? message.seq = none)
    (hnew : d.lastReceived ≠ some (message.seq, message.kind))
    (hnew' : e.lastReceived ≠ some (message.seq, message.kind)) :
    (d.submit (.receive message) ownsMedia).effects =
        (e.submit (.receive message) ownsMedia).effects ∧
      (d.submit (.receive message) ownsMedia).state.exchange? message.seq =
        (e.submit (.receive message) ownsMedia).state.exchange? message.seq := by
  have hsame : e.taken? (.receive message) = d.taken? (.receive message) := by
    rw [taken?, taken?, if_neg hnew, if_neg hnew']
  cases htaken : d.taken? (.receive message) with
  | none =>
    obtain ⟨heffects, hexchange⟩ := submit_of_none htaken ownsMedia
    obtain ⟨heffects', hexchange'⟩ := submit_of_none (hsame.trans htaken) ownsMedia
    rw [heffects, heffects', hexchange, hexchange', hd, he]
    exact ⟨rfl, rfl⟩
  | some taken =>
    obtain ⟨m, side, signal⟩ := taken
    have hfollows := follows_submit htaken ownsMedia
    have hfollows' := follows_submit (hsame.trans htaken) ownsMedia
    obtain ⟨rfl, -⟩ := of_taken_receive htaken
    rw [hfollows.effects, hfollows'.effects, hfollows.exchange_self, hfollows'.exchange_self, hd,
      he]
    exact ⟨rfl, rfl⟩

theorem exchange?_reset (d : Dialog) (seq : UInt64) (ownsMedia : Bool) :
    (d.submit (.reset seq) ownsMedia).state.exchange? seq = none := by
  have hdrops : (Action.reset seq).Drops seq := rfl
  exact exchange?_of_drops hdrops ownsMedia

theorem startsOver_of_ne (h : d.lastReceived ≠ some (message.seq, message.kind)) :
    d.StartsOver message ownsMedia :=
  receive_of_absent (exchange?_reset d message.seq ownsMedia) (exchange?_new d.meeting message.seq)
    h (by simp)

/-- A message that repeats the one received last is lost. -/
theorem restart_of_eq (h : d.lastReceived = some (message.seq, message.kind)) :
    (d.restart message ownsMedia).effects = [] ∧
      (d.restart message ownsMedia).state.exchange? message.seq = none := by
  have htaken : (d.submit (.reset message.seq) ownsMedia).state.taken? (.receive message) = none :=
    if_pos h
  obtain ⟨heffects, hexchange⟩ := submit_of_none htaken ownsMedia
  rw [restart, Outcome.andThen_effects, Outcome.andThen_state, heffects, hexchange]
  exact ⟨rfl, exchange?_reset d message.seq ownsMedia⟩

/-- In a new dialog all messages are taken but those of relay discovery. -/
theorem taken?_first_eq_none_iff (meeting : String) :
    taken? { meeting } (.receive message) = none ↔ message.kind.isTurn = true := by
  cases hkind : message.kind <;>
    simp [taken?, Signal.ofMessage?, MessageKind.part?, MessageKind.isTurn, hkind]

/-- A repetition of the message received last makes a difference unless it would not be taken
anyway. -/
theorem startsOver_iff_of_eq (h : d.lastReceived = some (message.seq, message.kind)) :
    d.StartsOver message ownsMedia ↔ message.kind.isTurn = true := by
  obtain ⟨heffects, hexchange⟩ : (d.restart message ownsMedia).effects = [] ∧
      (d.restart message ownsMedia).state.exchange? message.seq = none := restart_of_eq h
  rw [StartsOver, heffects, hexchange, ← taken?_first_eq_none_iff d.meeting]
  cases htaken : taken? { meeting := d.meeting } (.receive message) with
  | none =>
    obtain ⟨hfirst, hexchange'⟩ := submit_of_none htaken ownsMedia
    rw [hfirst, hexchange']
    exact iff_of_true ⟨rfl, rfl⟩ rfl
  | some taken =>
    obtain ⟨m, side, signal⟩ := taken
    obtain ⟨rfl, -⟩ := of_taken_receive htaken
    rw [(follows_submit htaken ownsMedia).exchange_self]
    exact iff_of_false (fun hsame => by cases hsame.2) (by simp)

end Restart

/-- **An exchange that is removed starts over unless the message that comes next repeats the one
received last.**  A repetition is lost, also if the exchange has been removed in between: nothing is
asked for, and there is no exchange. -/
theorem startsOver_iff_not_heard (meeting : String) (steps : List (Action × Bool))
    (message : Message) (ownsMedia : Bool) :
    let d := (run steps { meeting }).state
    (d.StartsOver message ownsMedia ↔
        message.kind.isTurn = true ∨ ¬ Heard steps message.seq message.kind) ∧
      (Heard steps message.seq message.kind →
        (d.restart message ownsMedia).effects = [] ∧
          (d.restart message ownsMedia).state.exchange? message.seq = none) := by
  intro d
  rw [← lastReceived_run_iff meeting]
  refine ⟨?_, restart_of_eq⟩
  by_cases hlast : d.lastReceived = some (message.seq, message.kind)
  · rw [startsOver_iff_of_eq hlast, or_iff_left (not_not_intro hlast)]
  · exact iff_of_true (startsOver_of_ne hlast) (.inr hlast)

/-- The peer offers, the exchange is removed, and the peer offers again: the offer is lost, though a
new dialog would ask for an answer to it. -/
theorem offerAgain_lost :
    let offer := Message.offer 1 ["peer"] 5
    let d := (run [(.receive offer, true)] { meeting := "m" }).state
    (d.restart offer true).effects = [] ∧
      (submit { meeting := "m" } (.receive offer) true).effects = [.sendAnswer 1 offer] ∧
      ¬ d.StartsOver offer true := by
  intro offer d
  have hlost : (d.restart offer true).effects = [] := by decide +kernel
  have hfirst : (submit { meeting := "m" } (.receive offer) true).effects =
      [.sendAnswer 1 offer] := by
    decide +kernel
  have hlast : d.lastReceived = some (offer.seq, offer.kind) := by decide +kernel
  exact ⟨hlost, hfirst, fun h => absurd ((startsOver_iff_of_eq hlast).1 h) (by decide)⟩

end Dialog

end CallSignaling.Roap
