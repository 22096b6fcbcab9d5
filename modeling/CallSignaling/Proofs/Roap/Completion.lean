import CallSignaling.Proofs.Roap.Coherence
import Mathlib.Data.List.Induction

/-!
# The end of an exchange is announced once

* `Roap.Dialog.hasFinished`: whether an exchange is there and its end has been announced.
* `Roap.Dialog.Life`: a run cut in two where an exchange is not there yet, the second part without
  its removal.

An action that does not remove an exchange announces its end exactly if it sets the mark for that
(`count_submit`), so in a life as many ends are announced as the mark says (`count_run`).  That an
action which leaves an exchange at rest has announced its end rests on the coherence of dialogs: an
exchange at rest that is not marked is never left behind.
-/

namespace CallSignaling.Roap

namespace Exchange

theorem settleGlare_effects (x : Exchange) : x.settleGlare.effects = [] := by
  unfold settleGlare
  split
  · cases x.resolveGlare? with
    | none => rfl
    | some settled => rfl
  · rfl

theorem count_perform (x : Exchange) (seq other : UInt64) (ownsMedia : Bool) :
    (x.perform seq ownsMedia).effects.count (.sequenceFinished other) =
      if other = seq ∧ x.phase = .idle ∧ x.finished = false then 1 else 0 := by
  obtain ⟨phase, offer, answer, ok, error, glareOffer, finished⟩ := x
  cases phase with
  | idle => cases finished <;> simp [perform, List.count_singleton, eq_comm (a := seq)]
  | owesAnswer => cases ownsMedia <;> cases offer <;> simp [perform]
  | owesOk => cases ownsMedia <;> cases answer <;> simp [perform]
  | awaitsOk => simp [perform]
  | awaitsAnswer => simp [perform]
  | glare => simp [perform]
  | failed => simp [perform]

section Take

variable (x : Exchange) (message : Message) (side : Side) (signal : Signal) (ownsMedia : Bool)

/-- Only what is due at the end is asked for. -/
theorem take_effects :
    (x.take message side signal ownsMedia).effects =
      ((x.advance message side signal).state.settleGlare.state.perform message.seq
        ownsMedia).effects := by
  rw [take, Outcome.andThen_effects, Outcome.andThen_effects, settleGlare_effects]
  rfl

/-- What is due at the end moves nothing. -/
theorem take_phase :
    (x.take message side signal ownsMedia).state.phase =
      (x.advance message side signal).state.settleGlare.state.phase := by
  rw [take, Outcome.andThen_state, Outcome.andThen_state, perform_state]
  split <;> rfl

/-- Where there is no glare to settle the message alone decides the phase. -/
theorem take_phase_of_ne (h : x.phase.next signal ≠ .glare) :
    (x.take message side signal ownsMedia).state.phase = x.phase.next signal := by
  rw [take_phase, settleGlare_of_ne (by rwa [advance_phase]), Outcome.stay_state, advance_phase]

/-- What a message leads to is announced of its own exchange only, at rest and if that has not been
before. -/
theorem count_take (seq : UInt64) :
    (x.take message side signal ownsMedia).effects.count (.sequenceFinished seq) =
      if seq = message.seq ∧ (x.take message side signal ownsMedia).state.phase = .idle ∧
        x.finished = false then 1 else 0 := by
  rw [take_effects, take_phase, count_perform, settleGlare_finished, advance_finished]

end Take

theorem mem_take_iff {x : Exchange} {message : Message} {side : Side} {signal : Signal}
    {ownsMedia : Bool} {seq : UInt64} :
    .sequenceFinished seq ∈ (x.take message side signal ownsMedia).effects ↔
      seq = message.seq ∧ (x.take message side signal ownsMedia).state.phase = .idle ∧
        x.finished = false := by
  rw [← List.count_pos_iff, count_take]
  split <;> simp [*]

theorem finished_take (x : Exchange) (message : Message) (side : Side) (signal : Signal)
    (ownsMedia : Bool) :
    (x.take message side signal ownsMedia).state.finished =
      (decide ((x.take message side signal ownsMedia).state.phase = .idle) || x.finished) := by
  rw [take, Outcome.andThen_state, Outcome.andThen_state, perform_state]
  split
  · simp [*]
  · simp [*, settleGlare_finished, advance_finished]

end Exchange

namespace Dialog

/-! ### One action -/

/-- Whether an exchange of the meeting is there and its end has been announced. -/
def hasFinished (d : Dialog) (seq : UInt64) : Bool := (d.exchange? seq).any (·.finished)

theorem hasFinished_eq (d : Dialog) (seq : UInt64) :
    d.hasFinished seq = ((d.exchange? seq).getD {}).finished := by
  unfold hasFinished
  cases d.exchange? seq <;> rfl

theorem hasFinished_eq_false_iff {d : Dialog} {seq : UInt64} :
    d.hasFinished seq = false ↔ ∀ x, d.exchange? seq = some x → x.finished = false := by
  unfold hasFinished
  cases d.exchange? seq <;> simp

/-- Unless it removes the exchange, an action announces its end exactly if it marks it. -/
theorem count_submit {d : Dialog} {action : Action} {seq : UInt64} (h : ¬ action.Drops seq)
    (ownsMedia : Bool) :
    (d.submit action ownsMedia).effects.count (.sequenceFinished seq) +
        (d.hasFinished seq).toNat =
      ((d.submit action ownsMedia).state.hasFinished seq).toNat := by
  rw [hasFinished_eq, hasFinished_eq]
  cases htaken : d.taken? action with
  | none =>
    obtain ⟨heffects, hexchange⟩ := submit_of_none htaken ownsMedia
    rw [heffects, hexchange, if_neg h]
    exact Nat.zero_add _
  | some taken =>
    obtain ⟨message, side, signal⟩ := taken
    have hfollows := follows_submit htaken ownsMedia
    rw [hfollows.effects, hfollows.exchange, Exchange.count_take, exchange?_noted]
    by_cases hseq : seq = message.seq
    · rw [if_pos hseq, Option.getD_some, Exchange.finished_take, hseq]
      generalize Exchange.take message side signal ownsMedia _ = o
      by_cases hidle : o.state.phase = .idle <;>
        cases ((d.exchange? message.seq).getD {}).finished <;> simp [hidle]
    · rw [if_neg hseq, if_neg fun hboth => hseq hboth.1, Nat.zero_add]

/-- An action announces the end of an exchange exactly if it leaves it at rest, and the end has not
been announced before. -/
theorem mem_submit_iff {d : Dialog} (h : d.Coherent) (action : Action) (ownsMedia : Bool)
    (seq : UInt64) :
    .sequenceFinished seq ∈ (d.submit action ownsMedia).effects ↔
      (∀ x, d.exchange? seq = some x → x.finished = false) ∧
        (d.submit action ownsMedia).state.phase? seq = some .idle := by
  have hlive : (∀ x, d.exchange? seq = some x → x.finished = false) →
      d.phase? seq ≠ some .idle := by
    intro hunfinished hidle
    obtain ⟨x, hx, hphase⟩ := Option.map_eq_some_iff.1 hidle
    exact ((h seq x hx).live (hunfinished x hx)).1 hphase
  rw [phase?]
  cases htaken : d.taken? action with
  | none =>
    obtain ⟨heffects, hexchange⟩ := submit_of_none htaken ownsMedia
    rw [heffects, hexchange]
    split
    · simp
    · simpa [phase?] using hlive
  | some taken =>
    obtain ⟨message, side, signal⟩ := taken
    have hfollows := follows_submit htaken ownsMedia
    rw [hfollows.effects, hfollows.exchange, Exchange.mem_take_iff, exchange?_noted]
    by_cases hseq : seq = message.seq
    · rw [if_pos hseq, Option.map_some, Option.some.injEq, ← hasFinished_eq,
        hasFinished_eq_false_iff, ← hseq]
      simp [and_comm]
    · simpa [hseq, phase?] using hlive

/-! ### Lives -/

theorem count_run (seq : UInt64) (steps : List (Action × Bool)) (d : Dialog)
    (h : ∀ step ∈ steps, ¬ step.1.Drops seq) :
    (run steps d).effects.count (.sequenceFinished seq) + (d.hasFinished seq).toNat =
      ((run steps d).state.hasFinished seq).toNat := by
  induction steps generalizing d with
  | nil => exact Nat.zero_add _
  | cons step steps ih =>
    obtain ⟨hstep, hsteps⟩ := List.forall_mem_cons.1 h
    have hfirst := count_submit (d := d) hstep step.2
    have hrest := ih (d.submit step.1 step.2).state hsteps
    rw [run_cons, Outcome.andThen_effects, Outcome.andThen_state, List.count_append]
    omega

/-- The exchange `seq` is not there after the actions `earlier` on a new dialog, and the actions
`life` that follow do not remove it. -/
structure Life (meeting : String) (seq : UInt64) (earlier life : List (Action × Bool)) : Prop where
  absent : (run earlier { meeting }).state.exchange? seq = none
  kept : ∀ step ∈ life, ¬ step.1.Drops seq

/-- A run that removes an exchange does so for the last time somewhere. -/
theorem exists_last_drop {seq : UInt64} {steps : List (Action × Bool)}
    (h : ∃ step ∈ steps, step.1.Drops seq) :
    ∃ earlier step later, steps = earlier ++ step :: later ∧ step.1.Drops seq ∧
      ∀ step' ∈ later, ¬ step'.1.Drops seq := by
  induction steps using List.reverseRecOn with
  | nil => simp at h
  | append_singleton steps step ih =>
    by_cases hdrops : step.1.Drops seq
    · exact ⟨steps, step, [], rfl, hdrops, by simp⟩
    · have hbefore : ∃ step ∈ steps, step.1.Drops seq := by
        simpa [or_and_right, exists_or, hdrops] using h
      obtain ⟨earlier, dropping, later, rfl, hdropping, hlater⟩ := ih hbefore
      refine ⟨earlier, dropping, later ++ [step], by simp, hdropping, ?_⟩
      exact List.forall_mem_append.2 ⟨hlater, List.forall_mem_singleton.2 hdrops⟩

/-- Every run ends in a life of every exchange. -/
theorem exists_life (meeting : String) (seq : UInt64) (steps : List (Action × Bool)) :
    ∃ earlier life, steps = earlier ++ life ∧ Life meeting seq earlier life := by
  by_cases hdrops : ∃ step ∈ steps, step.1.Drops seq
  · obtain ⟨earlier, step, later, rfl, hstep, hlater⟩ := exists_last_drop hdrops
    refine ⟨earlier ++ [step], later, by simp, ?_, hlater⟩
    rw [run_concat_state]
    exact exchange?_of_drops hstep step.2
  · exact ⟨[], steps, rfl, exchange?_new meeting seq,
      fun step hmem hstep => hdrops ⟨step, hmem, hstep⟩⟩

/-- An action announces the end of an exchange exactly if the exchange was not there or had not
finished and is at rest then.  In a life of an exchange its end is announced at most once, and
exactly if it has finished. -/
theorem announced_once (meeting : String) :
    (∀ steps action ownsMedia seq,
        let d := (run steps { meeting }).state
        let o := d.submit action ownsMedia
        .sequenceFinished seq ∈ o.effects ↔
          (∀ x, d.exchange? seq = some x → x.finished = false) ∧
            o.state.phase? seq = some .idle) ∧
      (∀ seq earlier life, Life meeting seq earlier life →
        let o := run life (run earlier { meeting }).state
        o.effects.count (.sequenceFinished seq) ≤ 1 ∧
          ∀ x, o.state.exchange? seq = some x →
            (x.finished = true ↔ .sequenceFinished seq ∈ o.effects)) ∧
      ∀ seq steps, ∃ earlier life, steps = earlier ++ life ∧ Life meeting seq earlier life := by
  refine ⟨?_, ?_, exists_life meeting⟩
  · intro steps action ownsMedia seq
    exact mem_submit_iff (coherent_run steps (coherent_new meeting)) action ownsMedia seq
  · intro seq earlier life hlife o
    have hcount := count_run seq life (run earlier { meeting }).state hlife.kept
    rw [hasFinished, hlife.absent, Option.any_none, Bool.toNat_false, Nat.add_zero] at hcount
    refine ⟨hcount ▸ Bool.toNat_le _, fun x hx => ?_⟩
    rw [hasFinished, hx, Option.any_some] at hcount
    rw [← List.count_pos_iff, hcount]
    cases x.finished <;> simp

end Dialog

end CallSignaling.Roap
