import CallSignaling.Proofs.Counters
import CallSignaling.Proofs.Roap.Progress
import Mathlib.Data.Set.Card

/-!
# Exchanges that fail

An exchange fails by an error and by every signal that its phase does not expect, never by glare:
there are two offers to decide between whenever there is glare.  It stays where it is until it is
removed, asks for nothing, and if it has not finished the dialog is busy with it.  Each failure is
measured once.

* `Roap.Effect.Mentions`: whether an effect is about an exchange.
* `Roap.Phase.Expects`: the signals that are expected in a phase.
* `Roap.Dialog.Fails`: whether an exchange fails by an action.
* `Roap.Dialog.failures`: the failures of a run, each with its place in the run.

Main statement: `Roap.Dialog.failures_last_and_count`.
-/

namespace CallSignaling.Roap

/-- Whether an effect carries the number of an exchange, or a message that does. -/
def Effect.Mentions (seq : UInt64) : Effect → Prop
  | .sendAnswer number message | .applyAnswerAndSendOk number message =>
    number = seq ∨ message.seq = seq
  | .sequenceFinished number => number = seq

/-! ### Signals that are expected -/

namespace Phase

/-- What is expected in each phase, errors apart. -/
def Expects : Phase → Signal → Prop
  | idle, _ => True
  | owesAnswer, signal => signal = .sent .answer ∨ signal = .sent .offer
  | awaitsOk, signal => signal = .received .ok
  | awaitsAnswer, signal => signal = .received .answer ∨ signal = .received .offer
  | owesOk, signal => signal = .sent .ok
  | glare, signal => ∃ winner, signal = .glareResolved winner
  | failed, _ => False

/-- An error fails every phase, and so does what is not expected. -/
theorem next_eq_failed_iff (p : Phase) (s : Signal) :
    p.next s = .failed ↔ s = .received .error ∨ s = .sent .error ∨ ¬ p.Expects s := by
  cases p with
  | glare => rcases s with part | part | winner <;> (try cases part) <;> (try cases winner) <;>
      simp [next, Expects]
  | _ => rcases s with part | part | winner <;> (try cases part) <;> simp [next, Expects]

end Phase

/-- The signal of a message is an error exactly if the message is one. -/
theorem Signal.error_iff {kind : MessageKind} {side : Side} {signal : Signal}
    (h : ofMessage? kind side = some signal) :
    signal = .received .error ∨ signal = .sent .error ↔ kind = .error := by
  cases side <;> cases kind <;> cases h <;> simp

namespace Exchange

/-! ### Messages in exchanges -/

section Take

variable {x : Exchange} {message : Message} {side : Side} {signal : Signal}

theorem settleGlare_answer (x : Exchange) : x.settleGlare.state.answer = x.answer := by
  unfold settleGlare
  split
  · cases hresolved : x.resolveGlare? with
    | none => rfl
    | some resolved =>
      obtain ⟨_, _, _, -, -, hstate, -⟩ := of_resolveGlare? hresolved
      simp [hstate, step]
  · rfl

theorem answer_store (x : Exchange) (message : Message) (side : Side) :
    (x.store message side).1.answer = x.answer ∨
      (x.store message side).1.answer = some ⟨message, side⟩ := by
  rw [store]
  split
  · exact .inl rfl
  · rename_i part _
    split
    · exact .inl rfl
    · cases part with
      | answer => exact .inr rfl
      | offer => exact .inl rfl
      | ok => exact .inl rfl
      | error => exact .inl rfl

/-- The offers and the answer of an exchange carry the number `seq`. -/
structure AllNumbered (seq : UInt64) (x : Exchange) : Prop where
  offers : x.Numbered seq
  answer : ∀ s, x.answer = some s → s.message.seq = seq

theorem allNumbered_new (seq : UInt64) : AllNumbered seq {} where
  offers := numbered_new seq
  answer := by
    rintro s ⟨⟩

/-- A message that is taken in has the number of its exchange. -/
theorem allNumbered_settled (h : x.AllNumbered message.seq) (side : Side) (signal : Signal) :
    (x.advance message side signal).state.settleGlare.state.AllNumbered message.seq where
  offers := eachOffer_settleGlare (P := fun s => s.message.seq = message.seq)
    (eachOffer_store h.offers rfl)
  answer := by
    intro s hs
    rw [settleGlare_answer] at hs
    rcases answer_store x message side with hanswer | hanswer
    · exact h.answer s (hanswer.symm.trans hs)
    · cases hanswer.symm.trans hs
      rfl

theorem allNumbered_take (h : x.AllNumbered message.seq) (side : Side) (signal : Signal)
    (ownsMedia : Bool) :
    (x.take message side signal ownsMedia).state.AllNumbered message.seq := by
  have hsettled := allNumbered_settled h side signal
  rw [take, Outcome.andThen_state, Outcome.andThen_state, perform_state]
  split
  · exact ⟨hsettled.offers, hsettled.answer⟩
  · exact hsettled

/-- What an exchange asks for is about itself. -/
theorem of_mentions_perform {seq : UInt64} (hnumbered : x.AllNumbered seq) {ownsMedia : Bool}
    {effect : Effect} (hmem : effect ∈ (x.perform seq ownsMedia).effects) {other : UInt64}
    (h : effect.Mentions other) : other = seq := by
  obtain ⟨phase, offer, answer, ok, error, glareOffer, finished⟩ := x
  cases phase with
  | idle =>
    cases finished with
    | true => cases hmem
    | false =>
      cases List.mem_singleton.1 hmem
      exact h.symm
  | owesAnswer =>
    cases ownsMedia with
    | false => cases hmem
    | true =>
      cases offer with
      | none => cases hmem
      | some s =>
        cases List.mem_singleton.1 hmem
        have hseq : s.message.seq = seq := hnumbered.offers s (.inl rfl)
        rcases h with h | h <;> exact h.symm.trans hseq
  | owesOk =>
    cases ownsMedia with
    | true => cases hmem
    | false =>
      cases answer with
      | none => cases hmem
      | some s =>
        cases List.mem_singleton.1 hmem
        rcases h with h | h
        · exact h.symm
        · exact h.symm.trans (hnumbered.answer s rfl)
  | awaitsOk => cases hmem
  | awaitsAnswer => cases hmem
  | glare => cases hmem
  | failed => cases hmem

/-! ### The failure of an exchange -/

theorem perform_of_failed (h : x.phase = .failed) (seq : UInt64) (ownsMedia : Bool) :
    x.perform seq ownsMedia = .stay x := by
  simp only [perform, h]

/-- Glare comes to nothing but an answer that is owed or awaited. -/
theorem take_failed_iff (h : x.Offered)
    (hsignal : Signal.ofMessage? message.kind side = some signal) (ownsMedia : Bool) :
    (x.take message side signal ownsMedia).state.phase = .failed ↔
      x.phase.next signal = .failed := by
  by_cases hglare : x.phase.next signal = .glare
  · have hadvanced := offered_advance h hsignal
    have hsettled := settleGlare_phase_of_glare hadvanced
      ((x.advance_phase message side signal).trans hglare)
    rw [take_phase, hglare]
    rcases hsettled with hphase | hphase <;> simp [hphase]
  · rw [take_phase_of_ne x message side signal ownsMedia hglare]

/-- An exchange that has failed asks for nothing. -/
theorem take_effects_of_failed {ownsMedia : Bool}
    (hfailed : (x.take message side signal ownsMedia).state.phase = .failed) :
    (x.take message side signal ownsMedia).effects = [] := by
  rw [take_phase] at hfailed
  rw [take_effects, perform_of_failed hfailed]
  rfl

theorem settleGlare_violations (h : x.Offered) :
    x.settleGlare.metrics.count .protocolViolation = 0 := by
  unfold settleGlare
  split
  · rename_i hglare
    cases hresolved : x.resolveGlare? with
    | none => exact absurd hresolved (h.resolveGlare?_ne_none hglare)
    | some resolved => rfl
  · rfl

theorem perform_violations (x : Exchange) (seq : UInt64) (ownsMedia : Bool) :
    (x.perform seq ownsMedia).metrics.count .protocolViolation = 0 := by
  obtain ⟨phase, offer, answer, ok, error, glareOffer, finished⟩ := x
  cases phase with
  | idle => cases finished <;> rfl
  | owesAnswer => cases ownsMedia <;> cases offer <;> rfl
  | owesOk => cases ownsMedia <;> cases answer <;> rfl
  | _ => rfl

/-- A violation is measured when an exchange fails, and only then. -/
theorem take_violations (h : x.Offered)
    (hsignal : Signal.ofMessage? message.kind side = some signal) (ownsMedia : Bool) :
    (x.take message side signal ownsMedia).metrics.count .protocolViolation =
      if x.phase ≠ .failed ∧ (x.take message side signal ownsMedia).state.phase = .failed then 1
      else 0 := by
  have hsettled := settleGlare_violations (offered_advance h hsignal)
  have hadvanced : (x.advance message side signal).metrics.count .protocolViolation =
      if x.phase ≠ .failed ∧ x.phase.next signal = .failed then 1 else 0 := by
    rw [← x.advance_phase message side signal]
    unfold advance
    by_cases hbefore : x.phase = .failed <;>
      by_cases hafter : ((x.store message side).1.step signal).phase = .failed <;>
      simp [hbefore, hafter]
  simp only [take_failed_iff h hsignal]
  rw [take, Outcome.andThen_metrics, Outcome.andThen_metrics, List.count_append,
    List.count_append, hsettled, perform_violations, hadvanced, Nat.add_zero]

end Take

end Exchange

namespace Dialog

/-! ### The failure of an exchange of a dialog -/

/-- The offers and answers of all exchanges carry their numbers. -/
def AllNumbered (d : Dialog) : Prop := ∀ seq x, d.exchange? seq = some x → x.AllNumbered seq

theorem allNumbered_new (meeting : String) : AllNumbered { meeting } := by
  intro seq x hx
  rw [exchange?_new] at hx
  cases hx

theorem AllNumbered.getD {d : Dialog} (h : d.AllNumbered) (seq : UInt64) :
    ((d.exchange? seq).getD {}).AllNumbered seq := by
  cases hx : d.exchange? seq with
  | none => exact Exchange.allNumbered_new seq
  | some x => exact h seq x hx

theorem allNumbered_submit {d : Dialog} (h : d.AllNumbered) (action : Action)
    (ownsMedia : Bool) : (d.submit action ownsMedia).state.AllNumbered := by
  intro seq x hx
  rcases of_exchange?_submit hx with hx | ⟨message, side, signal, -, rfl, rfl⟩
  · exact h seq x hx
  · exact Exchange.allNumbered_take (h.getD message.seq) side signal ownsMedia

theorem allNumbered_run (steps : List (Action × Bool)) {d : Dialog} (h : d.AllNumbered) :
    (run steps d).state.AllNumbered :=
  Outcome.runAll_induction (P := AllNumbered)
    (fun step _ hd => allNumbered_submit hd step.1 step.2) steps h

theorem phase_getD (d : Dialog) (seq : UInt64) :
    ((d.exchange? seq).getD {}).phase = (d.phase? seq).getD .idle := by
  rw [phase?]
  cases d.exchange? seq <;> rfl

/-- Whether an exchange fails by an action. -/
def Fails (d : Dialog) (step : Action × Bool) (seq : UInt64) : Prop :=
  d.phase? seq ≠ some .failed ∧ (d.submit step.1 step.2).state.phase? seq = some .failed

/-- An exchange fails by taking a message that is an error or not expected. -/
theorem fails_iff {d : Dialog} (h : d.Coherent) {step : Action × Bool} {seq : UInt64} :
    d.Fails step seq ↔ d.phase? seq ≠ some .failed ∧
      ∃ message side signal, d.taken? step.1 = some (message, side, signal) ∧ message.seq = seq ∧
        (message.kind = .error ∨ ¬ ((d.phase? seq).getD .idle).Expects signal) := by
  have htake : ∀ {message side signal}, d.taken? step.1 = some (message, side, signal) →
      ((((d.exchange? message.seq).getD {}).take message side signal step.2).state.phase = .failed ↔
        message.kind = .error ∨ ¬ ((d.phase? message.seq).getD .idle).Expects signal) := by
    intro message side signal htaken
    have hsignal := ofMessage?_of_taken htaken
    rw [Exchange.take_failed_iff (Exchange.offered_of_coherent (h.getD message.seq)) hsignal,
      Phase.next_eq_failed_iff, phase_getD, ← or_assoc, Signal.error_iff hsignal]
  refine and_congr_right fun hbefore => ?_
  constructor
  · intro hafter
    obtain ⟨x, hx, hphase⟩ := Option.map_eq_some_iff.1 hafter
    rcases of_exchange?_submit hx with hx | ⟨message, side, signal, htaken, rfl, rfl⟩
    · exact absurd (Option.map_eq_some_iff.2 ⟨x, hx, hphase⟩) hbefore
    · exact ⟨message, side, signal, htaken, rfl, (htake htaken).1 hphase⟩
  · rintro ⟨message, side, signal, htaken, rfl, hkind⟩
    rw [phase?, (follows_submit htaken step.2).exchange_self, Option.map_some,
      (htake htaken).2 hkind]

theorem effects_of_fails {d : Dialog} (h : d.Coherent) {step : Action × Bool} {seq : UInt64}
    (hfails : d.Fails step seq) : (d.submit step.1 step.2).effects = [] := by
  obtain ⟨-, message, side, signal, htaken, rfl, -⟩ := (fails_iff h).1 hfails
  have hfollows := follows_submit htaken step.2
  have hafter := hfails.2
  rw [phase?, hfollows.exchange_self, Option.map_some, Option.some.injEq] at hafter
  rw [hfollows.effects, Exchange.take_effects_of_failed hafter]

/-- No message, no violation. -/
theorem violations_of_none {d : Dialog} {action : Action} (h : d.taken? action = none)
    (ownsMedia : Bool) : (d.submit action ownsMedia).metrics.count .protocolViolation = 0 := by
  cases action with
  | receive m =>
    rw [taken?] at h
    rw [submit]
    split
    · rfl
    · rename_i hnew
      rw [if_neg hnew, Option.map_eq_none_iff] at h
      rw [execute_of_none _ h]
      rfl
  | send m =>
    rw [submit, execute_of_none d (Option.map_eq_none_iff.1 h)]
    rfl
  | sendSuccess m => rfl
  | callLeave => rfl
  | reset seq => rfl

/-- As many violations are measured in an action as exchanges fail by it, one or none. -/
theorem encard_fails {d : Dialog} (h : d.Coherent) (step : Action × Bool) :
    {seq | d.Fails step seq}.encard =
      ((d.submit step.1 step.2).metrics.count .protocolViolation : ℕ) := by
  cases htaken : d.taken? step.1 with
  | none =>
    have hnone : {seq | d.Fails step seq} = ∅ := by
      refine Set.eq_empty_of_forall_notMem fun seq hfails => ?_
      obtain ⟨-, _, _, _, hsome, -⟩ := (fails_iff h).1 hfails
      rw [htaken] at hsome
      cases hsome
    rw [hnone, violations_of_none htaken, Set.encard_empty, Nat.cast_zero]
  | some taken =>
    obtain ⟨message, side, signal⟩ := taken
    have hfollows := follows_submit htaken step.2
    have hself : ∀ seq, d.Fails step seq → seq = message.seq := by
      intro seq hfails
      obtain ⟨-, _, _, _, hsome, hseq, -⟩ := (fails_iff h).1 hfails
      rw [htaken] at hsome
      cases hsome
      exact hseq.symm
    have hiff : d.Fails step message.seq ↔ ((d.exchange? message.seq).getD {}).phase ≠ .failed ∧
        (((d.exchange? message.seq).getD {}).take message side signal step.2).state.phase =
          .failed := by
      rw [Fails, phase?, phase?, hfollows.exchange_self, Option.map_some, Option.some.injEq]
      refine and_congr_left fun _ => ?_
      cases d.exchange? message.seq <;> simp
    rw [hfollows.metrics, Exchange.take_violations
      (Exchange.offered_of_coherent (h.getD message.seq)) (ofMessage?_of_taken htaken)]
    by_cases hfails : d.Fails step message.seq
    · have hone : {seq | d.Fails step seq} = {message.seq} :=
        Set.ext fun seq => ⟨hself seq, fun heq => (Set.mem_singleton_iff.1 heq) ▸ hfails⟩
      rw [hone, if_pos (hiff.1 hfails), Set.encard_singleton, Nat.cast_one]
    · have hnone : {seq | d.Fails step seq} = ∅ :=
        Set.eq_empty_of_forall_notMem fun seq hseq => hfails (hself seq hseq ▸ hseq)
      rw [hnone, if_neg (mt hiff.2 hfails), Set.encard_empty, Nat.cast_zero]

/-! ### The failures of a run -/

/-- The failures of a run: which action, counted from the start, and which exchange. -/
def failures (steps : List (Action × Bool)) (d : Dialog) : Set (ℕ × UInt64) :=
  {p | ∃ step, steps[p.1]? = some step ∧ (run (steps.take p.1) d).state.Fails step p.2}

theorem failures_cons (step : Action × Bool) (steps : List (Action × Bool)) (d : Dialog) :
    failures (step :: steps) d =
      Prod.mk 0 '' {seq | d.Fails step seq} ∪
        Prod.map Nat.succ id '' failures steps (d.submit step.1 step.2).state := by
  ext ⟨n, seq⟩
  cases n with
  | zero =>
    have hfirst : (0, seq) ∈ failures (step :: steps) d ↔ d.Fails step seq := by
      constructor
      · rintro ⟨_, hstep, hfails⟩
        cases hstep
        exact hfails
      · exact fun hfails => ⟨step, rfl, hfails⟩
    rw [hfirst]
    simp
  | succ n => simp [failures, run_cons]

theorem encard_failures (steps : List (Action × Bool)) {d : Dialog} (h : d.Coherent) :
    (failures steps d).encard = ((run steps d).metrics.count .protocolViolation : ℕ) := by
  induction steps generalizing d with
  | nil => simp [failures, run, Outcome.runAll]
  | cons step steps ih =>
    have hdisjoint : Disjoint (Prod.mk 0 '' {seq | d.Fails step seq})
        (Prod.map Nat.succ id '' failures steps (d.submit step.1 step.2).state) := by
      rw [Set.disjoint_left]
      rintro - ⟨seq, -, rfl⟩ ⟨p, -, hp⟩
      simp [Prod.map] at hp
    have hinjective : (Prod.map Nat.succ id : ℕ × UInt64 → ℕ × UInt64).Injective :=
      Nat.succ_injective.prodMap Function.injective_id
    rw [failures_cons, Set.encard_union_eq hdisjoint, (Prod.mk_right_injective 0).encard_image,
      hinjective.encard_image, encard_fails h, ih (coherent_submit h step.1 step.2), run_cons,
      Outcome.andThen_metrics, List.count_append, Nat.cast_add]

/-! ### What follows a failure -/

/-- An exchange that has failed is asked for nothing by an action. -/
theorem not_mentions_submit {d : Dialog} (hnumbered : d.AllNumbered) {seq : UInt64}
    (h : d.phase? seq = some .failed) (action : Action) (ownsMedia : Bool) :
    ∀ effect ∈ (d.submit action ownsMedia).effects, ¬ effect.Mentions seq := by
  intro effect hmem hmentions
  cases htaken : d.taken? action with
  | none =>
    rw [(submit_of_none htaken ownsMedia).1] at hmem
    cases hmem
  | some taken =>
    obtain ⟨message, side, signal⟩ := taken
    rw [(follows_submit htaken ownsMedia).effects] at hmem
    -- what is asked for is about the exchange of the message, which has failed then
    have hseq : seq = message.seq := by
      rw [Exchange.take_effects] at hmem
      exact Exchange.of_mentions_perform
        (Exchange.allNumbered_settled (hnumbered.getD message.seq) side signal) hmem hmentions
    rw [hseq] at h
    rw [Exchange.take_effects_of_failed (Exchange.take_of_failed (getD_phase h) ownsMedia)] at hmem
    cases hmem

/-- An exchange that has failed does not finish. -/
theorem hasFinished_submit {d : Dialog} {seq : UInt64} (h : d.phase? seq = some .failed)
    {action : Action} (hkept : ¬ action.Drops seq) (ownsMedia : Bool) :
    (d.submit action ownsMedia).state.hasFinished seq = d.hasFinished seq := by
  cases htaken : d.taken? action with
  | none => rw [hasFinished, (submit_of_none htaken ownsMedia).2, if_neg hkept, ← hasFinished]
  | some taken =>
    obtain ⟨message, side, signal⟩ := taken
    rw [hasFinished, (follows_submit htaken ownsMedia).exchange]
    split
    · rename_i hseq
      subst hseq
      rw [Option.any_some, Exchange.finished_take, Exchange.take_of_failed (getD_phase h),
        hasFinished_eq]
      rfl
    · rw [exchange?_noted, ← hasFinished]

theorem not_mentions_run {seq : UInt64} (steps : List (Action × Bool)) {d : Dialog}
    (hnumbered : d.AllNumbered) (h : d.phase? seq = some .failed)
    (hkept : ∀ step ∈ steps, ¬ step.1.Drops seq) :
    ∀ effect ∈ (run steps d).effects, ¬ effect.Mentions seq := by
  induction steps generalizing d with
  | nil => simp [run, Outcome.runAll]
  | cons step steps ih =>
    obtain ⟨hstep, hsteps⟩ := List.forall_mem_cons.1 hkept
    rw [run_cons, Outcome.andThen_effects, List.forall_mem_append]
    exact ⟨not_mentions_submit hnumbered h step.1 step.2,
      ih (allNumbered_submit hnumbered step.1 step.2) (failed_submit h hstep step.2) hsteps⟩

theorem hasFinished_run {seq : UInt64} (steps : List (Action × Bool)) {d : Dialog}
    (h : d.phase? seq = some .failed) (hkept : ∀ step ∈ steps, ¬ step.1.Drops seq) :
    (run steps d).state.hasFinished seq = d.hasFinished seq := by
  induction steps generalizing d with
  | nil => rfl
  | cons step steps ih =>
    obtain ⟨hstep, hsteps⟩ := List.forall_mem_cons.1 hkept
    rw [run_cons, Outcome.andThen_state, ih (failed_submit h hstep step.2) hsteps,
      hasFinished_submit h hstep]

/-- A dialog is busy with an exchange that has failed and not finished. -/
theorem isBusy_of_failed {d : Dialog} (hcounted : d.table.Counted) {seq : UInt64}
    (h : d.phase? seq = some .failed) (hunfinished : d.hasFinished seq = false) :
    d.isBusy = true := by
  obtain ⟨x, hx, -⟩ := Option.map_eq_some_iff.1 h
  exact (isBusy_iff_unfinished hcounted).2
    ⟨seq, x, hx, hasFinished_eq_false_iff.1 hunfinished x hx⟩

/-- After any run from a new dialog an exchange that has failed stays so until an action removes it;
in the meantime nothing mentions it that is asked for, and the dialog is busy if it has not
finished.  An exchange fails by taking a message that is an error or not expected in its phase, and
nothing is asked for then.  The counter of violations shows how often an exchange failed. -/
theorem failures_last_and_count (meeting : String) (steps : List (Action × Bool)) :
    let d := (run steps { meeting }).state
    (∀ seq, d.phase? seq = some .failed →
        ∀ later, (∀ step ∈ later, ¬ step.1.Drops seq) →
          let o := run later d
          o.state.phase? seq = some .failed ∧ (∀ effect ∈ o.effects, ¬ effect.Mentions seq) ∧
            (d.hasFinished seq = false → o.state.isBusy = true)) ∧
      (∀ step seq,
        (d.Fails step seq ↔ d.phase? seq ≠ some .failed ∧
          ∃ message side signal, d.taken? step.1 = some (message, side, signal) ∧
            message.seq = seq ∧
            (message.kind = .error ∨ ¬ ((d.phase? seq).getD .idle).Expects signal)) ∧
        (d.Fails step seq → (d.submit step.1 step.2).effects = [])) ∧
      (Metric.counter "signaling_roap_protocol_violations_total"
          (run steps { meeting }).metrics : ℕ∞) = (failures steps { meeting }).encard := by
  intro d
  have hcoherent : d.Coherent := coherent_run steps (coherent_new meeting)
  have hnumbered : d.AllNumbered := allNumbered_run steps (allNumbered_new meeting)
  refine ⟨?_, fun step seq => ⟨fails_iff hcoherent, effects_of_fails hcoherent⟩, ?_⟩
  · intro seq hfailed later hkept o
    have hstays := failed_run later hfailed hkept
    refine ⟨hstays, not_mentions_run later hnumbered hfailed hkept, fun hunfinished => ?_⟩
    have hcounted : o.state.table.Counted := by
      have hrun := counted_run meeting (steps ++ later)
      rwa [run_append] at hrun
    exact isBusy_of_failed hcounted hstays ((hasFinished_run later hfailed hkept).trans hunfinished)
  · rw [encard_failures steps (coherent_new meeting)]
    exact congrArg _ (Metric.counter_violation _)

/-- An acknowledgement where an answer is awaited fails the exchange, and nothing takes it back. -/
example :
    let steps := [(Action.send (.offer 1 ["own"] 5), true), (.receive (.ok 1), true),
      (.receive (.answer 1 ["peer"]), true)]
    let d := (run steps { meeting := "m" }).state
    d.phase? 1 = some .failed ∧ d.isBusy = true := by
  decide +kernel

end Dialog

end CallSignaling.Roap
