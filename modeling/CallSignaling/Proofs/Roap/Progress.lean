import CallSignaling.Proofs.Roap.Accounting
import CallSignaling.Proofs.Roap.Offers

/-!
# Exchanges in progress

A dialog is busy while it has an exchange that has never finished.  An exchange that has finished
stays, and an offer or an error takes it out of rest again; nobody counts it then.

* `Roap.Dialog.InProgress`: whether an exchange is there and not at rest.
* `Roap.Dialog.Rouses`: whether an action takes an exchange out of rest.
* `Roap.Dialog.Roused`: whether an exchange has been taken out of rest in a run, and been there
  since.

Main statements: an exchange that is not at rest has finished exactly if it was roused
(`finished_iff_roused`), so a dialog is busy exactly if an exchange is in progress that was not
roused (`isBusy_iff_not_roused`).  Failure is the phase that only removal ends (`failed_run`).
-/

namespace CallSignaling.Roap

/-! ### Failure and rest -/

namespace Exchange

variable {x : Exchange} {message : Message} {side : Side} {signal : Signal}

theorem take_of_failed (h : x.phase = .failed) (ownsMedia : Bool) :
    (x.take message side signal ownsMedia).state.phase = .failed := by
  have hnext : x.phase.next signal = .failed := by rw [h, Phase.next]
  rw [take_phase_of_ne _ _ _ _ _ (by simp [hnext]), hnext]

/-- An exchange at rest lets all messages pass but offers and errors. -/
theorem take_idle_iff (h : x.phase = .idle)
    (hsignal : Signal.ofMessage? message.kind side = some signal) (ownsMedia : Bool) :
    (x.take message side signal ownsMedia).state.phase = .idle ↔
      message.kind ≠ .offer ∧ message.kind ≠ .error := by
  have hphase : (x.take message side signal ownsMedia).state.phase = Phase.idle.next signal := by
    rw [take_phase_of_ne, h]
    rw [h]
    intro hglare
    rcases Phase.of_next_glare hglare with ⟨hidle, -⟩ | ⟨hidle, -⟩ <;> cases hidle
  rw [hphase]
  cases hkind : message.kind <;> cases side <;> rw [hkind] at hsignal <;> cases hsignal <;>
    simp [Phase.next]

end Exchange

namespace Dialog

theorem getD_phase {d : Dialog} {seq : UInt64} {phase : Phase} (h : d.phase? seq = some phase) :
    ((d.exchange? seq).getD {}).phase = phase := by
  obtain ⟨x, hx, rfl⟩ := Option.map_eq_some_iff.1 h
  rw [hx, Option.getD_some]

/-- An exchange that has failed stays so until it is removed. -/
theorem failed_submit {d : Dialog} {seq : UInt64} {action : Action}
    (h : d.phase? seq = some .failed) (hkept : ¬ action.Drops seq) (ownsMedia : Bool) :
    (d.submit action ownsMedia).state.phase? seq = some .failed := by
  rw [phase?]
  cases htaken : d.taken? action with
  | none => rwa [(submit_of_none htaken ownsMedia).2, if_neg hkept]
  | some taken =>
    obtain ⟨message, side, signal⟩ := taken
    rw [(follows_submit htaken ownsMedia).exchange]
    split
    · rename_i hseq
      subst hseq
      rw [Option.map_some, Exchange.take_of_failed (getD_phase h)]
    · rwa [exchange?_noted]

theorem failed_run {seq : UInt64} (steps : List (Action × Bool)) {d : Dialog}
    (h : d.phase? seq = some .failed) (hkept : ∀ step ∈ steps, ¬ step.1.Drops seq) :
    (run steps d).state.phase? seq = some .failed := by
  induction steps generalizing d with
  | nil => exact h
  | cons step steps ih =>
    obtain ⟨hstep, hsteps⟩ := List.forall_mem_cons.1 hkept
    exact ih (failed_submit h hstep step.2) hsteps

/-- An exchange that was there when the own side offered, and in which an answer is awaited later,
owed an answer at the time of the offer or was at rest. -/
theorem phase?_of_awaitsAnswer {d : Dialog} (h : d.Coherent) {offer : Message}
    (hkind : offer.kind = .offer) (hthere : d.exchange? offer.seq ≠ none) {ownsMedia : Bool}
    {later : List (Action × Bool)} (hkept : ∀ step ∈ later, ¬ step.1.Drops offer.seq)
    (hawaits : (run ((.send offer, ownsMedia) :: later) d).state.phase? offer.seq =
      some .awaitsAnswer) :
    d.phase? offer.seq = some .owesAnswer ∨ d.phase? offer.seq = some .idle := by
  obtain ⟨x, hx⟩ := Option.ne_none_iff_exists'.1 hthere
  have hsignal : Signal.ofMessage? offer.kind .own = some (.sent .offer) := by
    rw [hkind]
    rfl
  have hfollows := follows_execute d hsignal ownsMedia
  have hleads := Exchange.take_own_offer (Exchange.offered_of_coherent (.inr (h _ x hx))) hkind
    ownsMedia
  -- a failure would have lasted
  have hlives : (d.submit (.send offer) ownsMedia).state.phase? offer.seq ≠ some .failed := by
    intro hfailed
    have hlast := failed_run later hfailed hkept
    rw [run_cons, Outcome.andThen_state, hlast] at hawaits
    cases hawaits
  rw [submit, phase?, hfollows.exchange_self, hx, Option.getD_some, Option.map_some] at hlives
  rw [phase?, hx, Option.map_some]
  cases hphase : x.phase with
  | owesAnswer => exact .inl rfl
  | idle => exact .inr rfl
  | _ =>
    rw [hphase] at hleads
    exact absurd (congrArg some hleads) hlives

/-! ### The count of a dialog -/

section Counted

variable {d : Dialog} (h : d.table.Counted)
include h

theorem counted_put {seq : UInt64} {y : Exchange}
    (hy : y.finished = ((d.exchange? seq).getD {}).finished) :
    (d.modify seq fun _ => y).table.Counted := by
  refine SessionTable.counted_modify h d.meeting seq fun x hx => ?_
  rw [hy, exchange?, hx, Option.getD_some]

theorem counted_advance (message : Message) (side : Side) (signal : Signal) :
    (d.advance message side signal).state.table.Counted :=
  counted_put (SessionTable.counted_openExchange h d.meeting message.seq)
    (Exchange.store_keeps _ message side).2

theorem counted_settleGlare (seq : UInt64) : (d.settleGlare seq).state.table.Counted := by
  unfold settleGlare
  dsimp only
  split
  · split
    · rename_i settled winner hresolved
      obtain ⟨_, _, _, -, -, hsettled, -⟩ := Exchange.of_resolveGlare? hresolved
      exact counted_put h (by simp [hsettled, Exchange.step])
    · exact SessionTable.counted_modify h d.meeting seq fun x _ => rfl
  · exact h

theorem counted_perform (seq : UInt64) (ownsMedia : Bool) :
    (d.perform seq ownsMedia).state.table.Counted := by
  unfold perform
  dsimp only
  split
  · split
    · exact SessionTable.counted_finish h d.meeting seq
    · exact h
  · split <;> exact h
  · split <;> exact h
  all_goals exact h

theorem counted_execute (message : Message) (side : Side) (ownsMedia : Bool) :
    (d.execute message side ownsMedia).state.table.Counted := by
  cases hsignal : Signal.ofMessage? message.kind side with
  | none => rwa [execute_of_none d hsignal]
  | some signal =>
    have hadvanced := counted_advance h message side signal
    have hsettled := counted_settleGlare hadvanced message.seq
    simp only [execute, hsignal, Outcome.andThen_state]
    exact counted_perform hsettled message.seq ownsMedia

theorem counted_submit (action : Action) (ownsMedia : Bool) :
    (d.submit action ownsMedia).state.table.Counted := by
  cases action with
  | receive message =>
    have hnoted : (d.noted (.receive message)).table.Counted := h
    rw [submit]
    split
    · exact h
    · exact counted_execute hnoted message .peer ownsMedia
  | send message => exact counted_execute h message .own ownsMedia
  | sendSuccess message => exact h
  | callLeave => exact SessionTable.counted_dropSession h d.meeting
  | reset seq => exact SessionTable.counted_dropExchange h d.meeting seq

theorem isBusy_iff_unfinished :
    d.isBusy = true ↔ ∃ seq x, d.exchange? seq = some x ∧ x.finished = false :=
  SessionTable.isBusy_iff h d.meeting

end Counted

theorem counted_run (meeting : String) (steps : List (Action × Bool)) :
    (run steps { meeting }).state.table.Counted :=
  Outcome.runAll_induction (P := fun d : Dialog => d.table.Counted)
    (fun step _ hd => counted_submit hd step.1 step.2) steps SessionTable.counted_new

/-! ### Exchanges that are roused -/

/-- Whether an exchange is there and not at rest. -/
def InProgress (d : Dialog) (seq : UInt64) : Prop :=
  ∃ phase, d.phase? seq = some phase ∧ phase ≠ .idle

/-- Whether an action takes an exchange that is at rest out of it. -/
def Rouses (d : Dialog) (seq : UInt64) (step : Action × Bool) : Prop :=
  d.phase? seq = some .idle ∧ (d.submit step.1 step.2).state.InProgress seq

/-- Whether an exchange has been taken out of rest in a run, and not been removed since. -/
def Roused (meeting : String) (steps : List (Action × Bool)) (seq : UInt64) : Prop :=
  ∃ before step after, steps = before ++ step :: after ∧
    (run before { meeting }).state.Rouses seq step ∧ ∀ step ∈ after, ¬ step.1.Drops seq

/-- What rouses an exchange is an offer or an error. -/
theorem rouses_iff {d : Dialog} {seq : UInt64} {step : Action × Bool} :
    d.Rouses seq step ↔ d.phase? seq = some .idle ∧
      ∃ message side signal, d.taken? step.1 = some (message, side, signal) ∧ message.seq = seq ∧
        (message.kind = .offer ∨ message.kind = .error) := by
  refine and_congr_right fun hidle => ?_
  constructor
  · rintro ⟨phase, hphase, hne⟩
    obtain ⟨x, hx, rfl⟩ := Option.map_eq_some_iff.1 hphase
    rcases of_exchange?_submit hx with hx | ⟨message, side, signal, htaken, rfl, rfl⟩
    · rw [phase?, hx, Option.map_some, Option.some.injEq] at hidle
      exact absurd hidle hne
    · rw [Ne, Exchange.take_idle_iff (getD_phase hidle) (ofMessage?_of_taken htaken)] at hne
      exact ⟨message, side, signal, htaken, rfl, by tauto⟩
  · rintro ⟨message, side, signal, htaken, rfl, hkind⟩
    refine ⟨_, congrArg (Option.map _) (follows_submit htaken step.2).exchange_self, ?_⟩
    rw [Ne, Exchange.take_idle_iff (getD_phase hidle) (ofMessage?_of_taken htaken)]
    tauto

theorem Roused.append {meeting : String} {steps : List (Action × Bool)} {seq : UInt64}
    (h : Roused meeting steps seq) {step : Action × Bool} (hkept : ¬ step.1.Drops seq) :
    Roused meeting (steps ++ [step]) seq := by
  obtain ⟨before, rousing, after, rfl, hrouses, hafter⟩ := h
  refine ⟨before, rousing, after ++ [step], by simp, hrouses, ?_⟩
  intro step' hmem
  rcases List.mem_append.1 hmem with hmem | hmem
  · exact hafter step' hmem
  · rwa [List.mem_singleton.1 hmem]

/-- An exchange that has finished and is not at rest was roused. -/
theorem roused_of_finished {meeting : String} {steps : List (Action × Bool)} {seq : UInt64}
    {x : Exchange} (hx : (run steps { meeting }).state.exchange? seq = some x)
    (hfinished : x.finished = true) (hphase : x.phase ≠ .idle) : Roused meeting steps seq := by
  -- from the end of the run, to the last action that took the exchange out of rest
  induction steps using List.reverseRecOn generalizing x with
  | nil => cases hx
  | append_singleton steps step ih =>
    rw [run_concat_state] at hx
    have hkept : ¬ step.1.Drops seq := by
      intro hdrops
      rw [exchange?_of_drops hdrops step.2] at hx
      cases hx
    rcases of_exchange?_submit hx with hold | ⟨message, side, signal, htaken, rfl, rfl⟩
    · exact (ih hold hfinished hphase).append hkept
    · rw [Exchange.finished_take, decide_eq_false hphase, Bool.false_or] at hfinished
      cases hy : (run steps { meeting }).state.exchange? message.seq with
      | none => simp [hy] at hfinished
      | some y =>
        rw [hy, Option.getD_some] at hfinished
        by_cases hidle : y.phase = .idle
        · refine ⟨steps, step, [], rfl, ⟨by rw [phase?, hy, Option.map_some, hidle], ?_⟩, by simp⟩
          exact ⟨_, congrArg (Option.map _) hx, hphase⟩
        · exact (ih hy hfinished hidle).append hkept

/-- An exchange that was roused has finished. -/
theorem Roused.hasFinished {meeting : String} {steps : List (Action × Bool)} {seq : UInt64}
    (h : Roused meeting steps seq) : (run steps { meeting }).state.hasFinished seq = true := by
  obtain ⟨before, step, after, rfl, ⟨hidle, phase, hphase, -⟩, hafter⟩ := h
  have hfinished : (run before { meeting }).state.hasFinished seq = true := by
    obtain ⟨x, hx, hrest⟩ := Option.map_eq_some_iff.1 hidle
    have hlive := (coherent_run before (coherent_new meeting) seq x hx).live
    rw [Dialog.hasFinished, hx, Option.any_some]
    by_contra hunfinished
    exact (hlive (eq_false_of_ne_true hunfinished)).1 hrest
  have hkept : ∀ step' ∈ step :: after, ¬ step'.1.Drops seq := by
    refine List.forall_mem_cons.2 ⟨fun hdrops => ?_, hafter⟩
    rw [phase?, exchange?_of_drops hdrops step.2] at hphase
    cases hphase
  have hcount := count_run seq (step :: after) (run before { meeting }).state hkept
  rw [hfinished] at hcount
  rw [run_append, Outcome.andThen_state]
  generalize (run (step :: after) (run before { meeting }).state).state = d at hcount ⊢
  cases hd : d.hasFinished seq with
  | true => rfl
  | false => simp [hd] at hcount

theorem finished_iff_roused {meeting : String} {steps : List (Action × Bool)} {seq : UInt64}
    {x : Exchange} (hx : (run steps { meeting }).state.exchange? seq = some x)
    (hphase : x.phase ≠ .idle) : x.finished = true ↔ Roused meeting steps seq := by
  refine ⟨fun hfinished => roused_of_finished hx hfinished hphase, fun h => ?_⟩
  have hfinished := h.hasFinished
  rwa [hasFinished, hx, Option.any_some] at hfinished

/-- **A dialog is busy exactly if an exchange is there that has never finished, and that is one in
progress that was not roused.**  An exchange that has come to rest is taken out of it by offers and
errors only, and does not count then. -/
theorem isBusy_iff_not_roused (meeting : String) (steps : List (Action × Bool)) :
    let d := (run steps { meeting }).state
    (d.isBusy = true ↔ ∃ seq x, d.exchange? seq = some x ∧ x.finished = false) ∧
      (d.isBusy = true ↔ ∃ seq, d.InProgress seq ∧ ¬ Roused meeting steps seq) ∧
      ∀ seq step, d.Rouses seq step ↔ d.phase? seq = some .idle ∧
        ∃ message side signal, d.taken? step.1 = some (message, side, signal) ∧
          message.seq = seq ∧ (message.kind = .offer ∨ message.kind = .error) := by
  intro d
  have hunfinished := isBusy_iff_unfinished (counted_run meeting steps)
  refine ⟨hunfinished, ?_, fun seq step => rouses_iff⟩
  have hcoherent : d.Coherent := coherent_run steps (coherent_new meeting)
  rw [hunfinished]
  constructor
  · rintro ⟨seq, x, hx, hunfinished⟩
    have hphase := ((hcoherent seq x hx).live hunfinished).1
    refine ⟨seq, ⟨x.phase, congrArg (Option.map _) hx, hphase⟩, ?_⟩
    rw [← finished_iff_roused hx hphase, hunfinished]
    exact Bool.false_ne_true
  · rintro ⟨seq, ⟨phase, hphase, hne⟩, hroused⟩
    obtain ⟨x, hx, rfl⟩ := Option.map_eq_some_iff.1 hphase
    rw [← finished_iff_roused hx hne] at hroused
    exact ⟨seq, x, hx, eq_false_of_ne_true hroused⟩

/-- A late answer opens an exchange that has finished at once.  The offer that comes next rouses it,
and the dialog is not busy though it owes an answer. -/
theorem strayAnswer_not_busy :
    let steps := [(Action.receive (.answer 1 ["late"]), true),
      (.receive (.offer 1 ["peer"] 5), true)]
    let d := (run steps { meeting := "m" }).state
    d.phase? 1 = some .owesAnswer ∧ d.isBusy = false ∧
      ¬ (d.isBusy = true ↔ ∃ seq, d.InProgress seq) := by
  intro steps d
  have howes : d.phase? 1 = some .owesAnswer := by decide +kernel
  have hbusy : d.isBusy = false := by decide +kernel
  refine ⟨howes, hbusy, fun h => ?_⟩
  rw [h.2 ⟨1, .owesAnswer, howes, by simp⟩] at hbusy
  cases hbusy

end Dialog

end CallSignaling.Roap
