import CallSignaling.Proofs.Locus.Reordering
import CallSignaling.Proofs.Locus.WellFormed
import Mathlib.Data.List.Induction

/-!
# Fetches and the end of a replica

A fetch is asked for while none is under way, and its result is taken before the next one.  Giving
the meeting up is the last thing that a replica asks for.

* `Locus.SyncEffect.fetches`, `Locus.SyncEffect.ends`: the fetches that effects ask for, and the
  reasons for which they give the meeting up.
* `Locus.Replica.Answers`: whether an input is the result of the fetch under way.
* `Locus.Replica.Hopeless`: whether it is a failure after which there is nothing left to try.
* `Locus.Replica.Asks`, `Locus.Replica.GivesUp`: what a step asks of others.

Main statements: a step gives up exactly after a hopeless failure, and otherwise asks for at most
one fetch (`givesUp_step`, `asks_step`); hence every result is that of the fetch asked for last, and
after the end nothing happens any more (`fetches_paired_end_final`).
-/

namespace CallSignaling.Locus

/-! ### Fetches and ends among effects -/

namespace SyncEffect

/-- The fetch that an effect asks for. -/
def fetch? : SyncEffect → Option (String × SyncKind)
  | fetch url kind => some (url, kind)
  | _ => none

/-- The reason for which an effect gives the meeting up. -/
def destroy? : SyncEffect → Option DestroyReason
  | destroy reason => some reason
  | _ => none

/-- The fetches that effects ask for, in turn. -/
def fetches (effects : List SyncEffect) : List (String × SyncKind) := effects.filterMap fetch?

/-- The reasons for which effects give the meeting up, in turn. -/
def ends (effects : List SyncEffect) : List DestroyReason := effects.filterMap destroy?

@[simp] theorem fetches_append (xs ys : List SyncEffect) :
    fetches (xs ++ ys) = fetches xs ++ fetches ys :=
  List.filterMap_append

@[simp] theorem ends_append (xs ys : List SyncEffect) : ends (xs ++ ys) = ends xs ++ ends ys :=
  List.filterMap_append

theorem mem_ends {effects : List SyncEffect} {reason : DestroyReason} :
    reason ∈ ends effects ↔ .destroy reason ∈ effects := by
  rw [ends, List.mem_filterMap]
  constructor
  · rintro ⟨e, he, hreason⟩
    cases e with
    | destroy other =>
      cases hreason
      exact he
    | applied | armStallTimer | cancelStallTimer | fetch => cases hreason
  · intro h
    exact ⟨_, h, rfl⟩

theorem fetches_of_local {effects : List SyncEffect} (h : ∀ e ∈ effects, e.Local) :
    fetches effects = [] := by
  refine List.filterMap_eq_nil_iff.2 fun e he => ?_
  have hlocal := h e he
  cases e with
  | fetch => cases hlocal
  | applied | armStallTimer | cancelStallTimer | destroy => rfl

theorem ends_of_local {effects : List SyncEffect} (h : ∀ e ∈ effects, e.Local) :
    ends effects = [] := by
  refine List.filterMap_eq_nil_iff.2 fun e he => ?_
  have hlocal := h e he
  cases e with
  | destroy => cases hlocal
  | applied | armStallTimer | cancelStallTimer | fetch => rfl

theorem local_map_applied (copies : List Snapshot) : ∀ e ∈ copies.map applied, e.Local := by
  intro e he
  obtain ⟨_, -, rfl⟩ := List.mem_map.1 he
  trivial

end SyncEffect

namespace Replica

open SyncEffect

/-! ### Parts of a step -/

/-- The outcome gives nothing up, and asks for one fetch if none was under way, or for none. -/
inductive Asks (r : Replica) (o : Outcome Replica SyncEffect) : Prop
  | nothing (hflight : o.state.syncInFlight = r.syncInFlight)
      (hdestroyed : o.state.destroyed = r.destroyed) (hlocal : ∀ e ∈ o.effects, e.Local)
  | fetch {url : String} {kind : SyncKind} (hfree : r.syncInFlight = none)
      (hflight : o.state.syncInFlight = some kind) (hdestroyed : o.state.destroyed = r.destroyed)
      (hfetches : fetches o.effects = [(url, kind)]) (hends : ends o.effects = [])

/-- The outcome gives the meeting up, once and for all. -/
structure GivesUp (r : Replica) (o : Outcome Replica SyncEffect) : Prop where
  live : r.destroyed = false
  flight : o.state.syncInFlight = r.syncInFlight
  destroyed : o.state.destroyed = true
  effects : o.effects = [.destroy .syncFailed]

theorem Asks.stay (r : Replica) : Asks r (.stay r) :=
  .nothing rfl rfl fun e he => by cases he

/-- What is asked for after a part that asks for nothing. -/
theorem Asks.after_local {r : Replica} {o : Outcome Replica SyncEffect}
    {f : Replica → Outcome Replica SyncEffect} (hflight : o.state.syncInFlight = r.syncInFlight)
    (hdestroyed : o.state.destroyed = r.destroyed) (hlocal : ∀ e ∈ o.effects, e.Local)
    (h : Asks o.state (f o.state)) : Asks r (o.andThen f) := by
  cases h with
  | nothing hflight' hdestroyed' hlocal' =>
    refine .nothing (hflight'.trans hflight) (hdestroyed'.trans hdestroyed) fun e he => ?_
    rcases List.mem_append.1 he with he | he
    · exact hlocal e he
    · exact hlocal' e he
  | @fetch url kind hfree hflight' hdestroyed' hfetches hends =>
    have hfetches' : fetches (o.andThen f).effects = [(url, kind)] := by
      rw [Outcome.andThen_effects, fetches_append, fetches_of_local hlocal, hfetches]
      rfl
    have hends' : ends (o.andThen f).effects = [] := by
      rw [Outcome.andThen_effects, ends_append, ends_of_local hlocal, hends]
      rfl
    exact .fetch (hflight.symm.trans hfree) hflight' (hdestroyed'.trans hdestroyed) hfetches' hends'

theorem Asks.of_eq {r : Replica} {o o' : Outcome Replica SyncEffect} (h : Asks r o)
    (hstate : o'.state = o.state) (heffects : o'.effects = o.effects) : Asks r o' := by
  cases h with
  | nothing hflight hdestroyed hlocal =>
    exact .nothing (hstate ▸ hflight) (hstate ▸ hdestroyed) (heffects ▸ hlocal)
  | fetch hfree hflight hdestroyed hfetches hends =>
    exact .fetch hfree (hstate ▸ hflight) (hstate ▸ hdestroyed) (heffects ▸ hfetches)
      (heffects ▸ hends)

theorem asks_armTimer (draw : Nat) (r : Replica) : Asks r (r.armTimer draw) := by
  refine .nothing ?_ ?_ (armTimer_local draw r)
  · rw [armTimer_state]
  · rw [armTimer_state]

theorem asks_cancelTimer (r : Replica) : Asks r r.cancelTimer := by
  refine .nothing ?_ ?_ (cancelTimer_local r)
  · rw [cancelTimer_state]
  · rw [cancelTimer_state]

theorem asks_startFetch (url : String) (kind : SyncKind) {r : Replica}
    (hfree : r.syncInFlight = none) : Asks r (r.cancelTimer.andThen (startFetch url kind)) := by
  refine .after_local ?_ ?_ (cancelTimer_local r) (.fetch ?_ rfl rfl rfl rfl)
  · rw [cancelTimer_state]
  · rw [cancelTimer_state]
  · rw [cancelTimer_state]
    exact hfree

theorem asks_startSync (draw : Nat) (r : Replica) : Asks r (r.startSync draw) := by
  unfold startSync
  split
  · exact .stay r
  · rename_i hbusy
    rw [Bool.or_eq_true, Option.isSome_iff_ne_none, not_or, Classical.not_not] at hbusy
    split
    · exact .stay r
    · split
      · exact asks_startFetch _ .delta hbusy.1
      · split
        · exact asks_armTimer draw r
        · -- here it is known where to fetch the whole state
          rename_i hurl
          rw [Option.isNone_iff_eq_none] at hurl
          obtain ⟨url, hurl⟩ := Option.ne_none_iff_exists'.1 hurl
          rw [startFullSync, hurl]
          exact asks_startFetch url .full hbusy.1

theorem asks_reevaluate (draw : Nat) (r : Replica) : Asks r (r.reevaluate draw) := by
  unfold reevaluate
  split
  · exact .stay r
  · split
    · exact asks_cancelTimer r
    · split
      · exact asks_startSync draw r
      · exact asks_armTimer draw r

theorem Moves.asks {draw : Nat} {r : Replica} {lead : List Snapshot} {copy : Snapshot}
    {o : Outcome Replica SyncEffect} (ho : Moves draw r lead copy o) : Asks r o := by
  have h : Asks r (Outcome.andThen
      { state := r.caughtUp copy
        effects := (lead ++ copy.trail (r.turnsFrom copy.position)).map .applied }
      (reevaluate draw)) :=
    .after_local rfl rfl (local_map_applied _) (asks_reevaluate draw _)
  exact h.of_eq ho.state ho.effects

theorem giveUp_effects {r : Replica} (hd : r.destroyed = false) (ha : r.stallTimerArmed = false) :
    r.giveUp.effects = [.destroy .syncFailed] := by
  have harmed : ¬ { r with destroyed := true : Replica }.stallTimerArmed = true :=
    Bool.eq_false_iff.1 ha
  rw [giveUp, hd, if_neg Bool.false_ne_true, Outcome.andThen_effects, cancelTimer, if_neg harmed]
  rfl

theorem givesUp_giveUp {r : Replica} (hd : r.destroyed = false) (ha : r.stallTimerArmed = false) :
    GivesUp r r.giveUp where
  live := hd
  flight := by rw [giveUp_state hd]
  destroyed := by rw [giveUp_state hd]
  effects := giveUp_effects hd ha

section FullSync

variable {r : Replica} {copy : Snapshot}

theorem startFullSync_of_url (hc : r.workingCopy = some copy) (hurl : copy.url ≠ "") :
    r.startFullSync = r.cancelTimer.andThen (startFetch copy.url .full) := by
  have hsome : r.fullSyncUrl? = some copy.url := by simp [fullSyncUrl?, hc, hurl]
  rw [startFullSync, hsome]

theorem startFullSync_of_no_url (hc : r.workingCopy = some copy) (hurl : copy.url = "") :
    r.startFullSync = r.giveUp := by
  have hnone : r.fullSyncUrl? = none := by simp [fullSyncUrl?, hc, hurl]
  rw [startFullSync, hnone]

end FullSync

/-! ### Steps -/

/-- Whether an input is the result of the fetch under way. -/
def Answers (r : Replica) : SyncInput → Prop
  | .syncResult kind _ => r.syncInFlight = some kind
  | .full _ | .delta _ | .stallTimeout => False

instance decidableAnswers (r : Replica) : (input : SyncInput) → Decidable (r.Answers input)
  | .syncResult kind _ => inferInstanceAs (Decidable (r.syncInFlight = some kind))
  | .full _ | .delta _ | .stallTimeout => inferInstanceAs (Decidable False)

/-- Whether the fetch under way failed and there is nothing left to try: it was for the whole state,
or it is not known where to fetch that. -/
def Hopeless (r : Replica) : SyncInput → Prop
  | .syncResult .full (.error _) => r.syncInFlight = some .full
  | .syncResult .delta (.error _) =>
    r.syncInFlight = some .delta ∧ ∃ copy, r.workingCopy = some copy ∧ copy.url = ""
  | _ => False

/-- The replica without the fetch that an input answers. -/
def heard (r : Replica) : SyncInput → Replica
  | .syncResult kind _ =>
    if r.syncInFlight = some kind then { r with syncInFlight := none } else r
  | .full _ | .delta _ | .stallTimeout => r

section Step

variable {r : Replica} {input : SyncInput}

theorem step_fullFailed (draw : Nat) (e : TransportError) (hf : r.syncInFlight = some .full) :
    r.step draw (.syncResult .full (.error e)) =
      Outcome.andThen
        { state := { r with syncInFlight := none }, metrics := [.resync .full false] } giveUp := by
  rw [step, onSyncResult, if_neg (not_not_intro hf)]

theorem step_narrowFailed (draw : Nat) (e : TransportError) (hf : r.syncInFlight = some .delta) :
    r.step draw (.syncResult .delta (.error e)) =
      Outcome.andThen
        { state := { r with syncInFlight := none }, metrics := [.resync .delta false] }
        startFullSync := by
  rw [step, onSyncResult, if_neg (not_not_intro hf)]

/-- A hopeless failure is the end. -/
theorem givesUp_step (draw : Nat) (hr : WellFormed r) (h : r.Hopeless input) :
    GivesUp (r.heard input) (r.step draw input) := by
  have hend : r.syncInFlight ≠ none →
      GivesUp { r with syncInFlight := none } (giveUp { r with syncInFlight := none }) :=
    fun hne => givesUp_giveUp (hr.destroyed_eq_false hne) (hr.exclusive hne)
  unfold Hopeless at h
  split at h
  · rename_i e
    obtain ⟨hlive, hflight, hdestroyed, heffects⟩ := hend (h ▸ Option.some_ne_none _)
    rw [heard, if_pos h, step_fullFailed draw e h]
    exact ⟨hlive, hflight, hdestroyed, heffects⟩
  · rename_i e
    obtain ⟨hf, copy, hc, hurl⟩ := h
    rw [← startFullSync_of_no_url (r := { r with syncInFlight := none }) hc hurl] at hend
    obtain ⟨hlive, hflight, hdestroyed, heffects⟩ := hend (hf ▸ Option.some_ne_none _)
    rw [heard, if_pos hf, step_narrowFailed draw e hf]
    exact ⟨hlive, hflight, hdestroyed, heffects⟩
  · cases h

/-- When the fetch of what changed has failed, the whole state is fetched. -/
theorem narrowFailed_effects (draw : Nat) (e : TransportError) (hr : WellFormed r)
    (hf : r.syncInFlight = some .delta) {copy : Snapshot} (hc : r.workingCopy = some copy)
    (hurl : copy.url ≠ "") :
    (r.step draw (.syncResult .delta (.error e))).effects = [.fetch copy.url .full] := by
  have hdisarmed : ¬ { r with syncInFlight := none : Replica }.stallTimerArmed = true :=
    Bool.eq_false_iff.1 (hr.exclusive (hf ▸ Option.some_ne_none _))
  rw [step_narrowFailed draw e hf, Outcome.andThen_effects,
    startFullSync_of_url (r := { r with syncInFlight := none }) hc hurl, cancelTimer,
    if_neg hdisarmed]
  rfl

/-- Without a hopeless failure a step asks for one fetch at most, and gives nothing up. -/
theorem asks_step (draw : Nat) (hr : WellFormed r) (h : ¬ r.Hopeless input) :
    Asks (r.heard input) (r.step draw input) := by
  have hcourse := course_step draw input r
  generalize r.step draw input = o at hcourse
  -- a result that is taken leaves no fetch under way, so that the next one can be asked for
  cases hcourse with
  | accepted _ ho => exact ho.asks
  | refused => exact .stay r
  | diverged => exact asks_startSync draw r
  | dropped => exact (Asks.stay r).of_eq rfl rfl
  | early => exact .nothing rfl rfl fun e he => by cases he
  | stale => exact (Asks.stay r).of_eq rfl rfl
  | waits => exact .after_local rfl rfl (fun e he => by cases he) (asks_reevaluate draw _)
  | turn _ _ ho => exact ho.asks
  | idle => exact .nothing rfl rfl fun e he => by cases he
  | stalled =>
    cases asks_startSync draw { r with stallTimerArmed := false } with
    | nothing hflight hdestroyed hlocal => exact .nothing hflight hdestroyed hlocal
    | fetch hfree hflight hdestroyed hfetches hends =>
      exact .fetch hfree hflight hdestroyed hfetches hends
  | unexpected hf =>
    rw [heard, if_neg hf]
    exact .stay r
  | fetched hf _ _ ho =>
    rw [heard, if_pos hf]
    exact ho.asks
  | unchanged hf _ ho =>
    rw [heard, if_pos hf]
    exact ho.asks
  | unheld hf =>
    rw [heard, if_pos hf]
    exact .nothing rfl rfl fun e he => by cases he
  | narrowFailed hf =>
    obtain ⟨copy, hc⟩ := Option.ne_none_iff_exists'.1
      (hr.workingCopy_ne_none (hf ▸ Option.some_ne_none _))
    have hurl : copy.url ≠ "" := fun hurl => h ⟨hf, copy, hc, hurl⟩
    rw [heard, if_pos hf]
    refine .after_local rfl rfl (fun e he => by cases he) ?_
    rw [startFullSync_of_url (r := { r with syncInFlight := none }) hc hurl]
    exact asks_startFetch copy.url .full rfl
  | fullFailed hf => exact absurd hf h

/-! ### The account of a step -/

theorem heard_syncInFlight (r : Replica) (input : SyncInput) :
    (r.heard input).syncInFlight = if r.Answers input then none else r.syncInFlight := by
  cases input with
  | syncResult kind result =>
    rw [heard]
    by_cases hf : r.syncInFlight = some kind
    · rw [if_pos hf, if_pos (show r.Answers (.syncResult kind result) from hf)]
    · rw [if_neg hf, if_neg (show ¬ r.Answers (.syncResult kind result) from hf)]
  | full => rfl
  | delta => rfl
  | stallTimeout => rfl

theorem heard_destroyed (r : Replica) (input : SyncInput) :
    (r.heard input).destroyed = r.destroyed := by
  cases input with
  | syncResult kind result =>
    rw [heard]
    split <;> rfl
  | full => rfl
  | delta => rfl
  | stallTimeout => rfl

/-- How many fetches are under way. -/
def underWay (r : Replica) : Nat := if r.syncInFlight = none then 0 else 1

theorem underWay_of_none (h : r.syncInFlight = none) : r.underWay = 0 := if_pos h

theorem underWay_of_some {kind : SyncKind} (h : r.syncInFlight = some kind) : r.underWay = 1 :=
  if_neg (h ▸ Option.some_ne_none kind)

theorem underWay_of_eq {s : Replica} (h : r.syncInFlight = s.syncInFlight) :
    r.underWay = s.underWay := by
  rw [underWay, h, underWay]

/-- An answer takes a fetch away. -/
theorem underWay_heard (r : Replica) (input : SyncInput) :
    r.underWay = (if r.Answers input then 1 else 0) + (r.heard input).underWay := by
  have hheard := heard_syncInFlight r input
  by_cases h : r.Answers input
  · rw [if_pos h] at hheard
    rw [if_pos h, underWay_of_none hheard]
    cases input with
    | syncResult kind result => exact underWay_of_some h
    | full | delta | stallTimeout => cases h
  · rw [if_neg h] at hheard
    rw [if_neg h, Nat.zero_add, underWay_of_eq hheard]

theorem fetches_step (draw : Nat) (input : SyncInput) (hr : WellFormed r) :
    (fetches (r.step draw input).effects).length + r.underWay =
      (if r.Answers input then 1 else 0) + (r.step draw input).state.underWay := by
  rw [underWay_heard r input]
  by_cases h : r.Hopeless input
  · have hend := givesUp_step draw hr h
    rw [hend.effects, underWay_of_eq hend.flight]
    exact Nat.zero_add _
  · cases asks_step draw hr h with
    | nothing hflight hdestroyed hlocal =>
      rw [fetches_of_local hlocal, underWay_of_eq hflight]
      exact Nat.zero_add _
    | fetch hfree hflight hdestroyed hfetches hends =>
      rw [hfetches, underWay_of_none hfree, underWay_of_some hflight]
      exact Nat.add_comm _ _

/-- A fetch that is under way after a step is the last one asked for, or was under way before. -/
theorem lastFetch_step (draw : Nat) (input : SyncInput) (hr : WellFormed r) {kind : SyncKind}
    (hkind : (r.step draw input).state.syncInFlight = some kind) :
    (∃ url, fetches (r.step draw input).effects = [(url, kind)]) ∨
      fetches (r.step draw input).effects = [] ∧ r.syncInFlight = some kind := by
  have hbefore : (r.heard input).syncInFlight = some kind → r.syncInFlight = some kind := by
    rw [heard_syncInFlight]
    intro h
    split at h
    · cases h
    · exact h
  by_cases h : r.Hopeless input
  · have hend := givesUp_step draw hr h
    rw [hend.effects]
    exact .inr ⟨rfl, hbefore (hend.flight ▸ hkind)⟩
  · cases asks_step draw hr h with
    | nothing hflight hdestroyed hlocal =>
      exact .inr ⟨fetches_of_local hlocal, hbefore (hflight ▸ hkind)⟩
    | @fetch url asked hfree hflight hdestroyed hfetches hends =>
      obtain rfl : asked = kind := Option.some.inj (hflight.symm.trans hkind)
      exact .inl ⟨url, hfetches⟩

/-- The fetch under way after a step is the one that the step asked for, or else the one that it
found under way and did not hear of. -/
theorem flight_step (draw : Nat) (input : SyncInput) (hr : WellFormed r) :
    (r.step draw input).state.syncInFlight.toList =
      (r.heard input).syncInFlight.toList ++
        (fetches (r.step draw input).effects).map Prod.snd := by
  by_cases h : r.Hopeless input
  · have hend := givesUp_step draw hr h
    rw [hend.effects, hend.flight]
    exact (List.append_nil _).symm
  · cases asks_step draw hr h with
    | nothing hflight hdestroyed hlocal =>
      rw [fetches_of_local hlocal, hflight]
      exact (List.append_nil _).symm
    | fetch hfree hflight hdestroyed hfetches hends =>
      rw [hfetches, hfree, hflight]
      rfl

/-- A step gives the meeting up exactly after a hopeless failure. -/
theorem ends_step (draw : Nat) (input : SyncInput) (hr : WellFormed r) :
    (r.Hopeless input → ends (r.step draw input).effects = [.syncFailed] ∧ r.destroyed = false ∧
        (r.step draw input).state.destroyed = true) ∧
      (¬ r.Hopeless input → ends (r.step draw input).effects = [] ∧
        (r.step draw input).state.destroyed = r.destroyed) := by
  constructor
  · intro h
    have hend := givesUp_step draw hr h
    rw [hend.effects]
    exact ⟨rfl, heard_destroyed r input ▸ hend.live, hend.destroyed⟩
  · intro h
    rw [← heard_destroyed r input]
    cases asks_step draw hr h with
    | nothing hflight hdestroyed hlocal => exact ⟨ends_of_local hlocal, hdestroyed⟩
    | fetch hfree hflight hdestroyed hfetches hends => exact ⟨hends, hdestroyed⟩

theorem count_ends_step (draw : Nat) (input : SyncInput) (hr : WellFormed r) :
    (ends (r.step draw input).effects).length + r.destroyed.toNat =
      (r.step draw input).state.destroyed.toNat := by
  obtain ⟨hend, hgo⟩ := ends_step draw input hr
  by_cases h : r.Hopeless input
  · obtain ⟨hends, hlive, hdestroyed⟩ := hend h
    rw [hends, hlive, hdestroyed]
    rfl
  · obtain ⟨hends, hdestroyed⟩ := hgo h
    rw [hends, hdestroyed]
    exact Nat.zero_add _

/-- Once the meeting is given up nothing happens any more. -/
theorem step_of_destroyed (draw : Nat) (input : SyncInput) (hr : WellFormed r)
    (hd : r.destroyed = true) :
    (r.step draw input).state = r ∧ (r.step draw input).effects = [] := by
  obtain ⟨hp, ha, hf⟩ := hr.dead hd
  have hlive : r.destroyed ≠ false := fun h => by
    rw [hd] at h
    cases h
  have hnone : ∀ kind, r.syncInFlight ≠ some kind := fun kind h => by
    rw [hf] at h
    cases h
  have hcourse := course_step draw input r
  generalize r.step draw input = o at hcourse
  cases hcourse with
  | accepted h => exact absurd h.1 hlive
  | refused => exact ⟨rfl, rfl⟩
  | diverged =>
    rw [startSync, if_pos (by rw [hd, Bool.or_true])]
    exact ⟨rfl, rfl⟩
  | dropped => exact ⟨rfl, rfl⟩
  | early h => exact absurd h hlive
  | stale h => exact absurd h hlive
  | waits h => exact absurd h hlive
  | turn _ h => exact absurd h.1 hlive
  | idle =>
    refine ⟨?_, rfl⟩
    rw [Outcome.stay_state, ← ha]
  | stalled h => exact absurd h hlive
  | unexpected => exact ⟨rfl, rfl⟩
  | fetched h => exact absurd h (hnone _)
  | unchanged h => exact absurd h (hnone _)
  | unheld h => exact absurd h (hnone _)
  | narrowFailed h => exact absurd h (hnone _)
  | fullFailed h => exact absurd h (hnone _)

end Step

/-! ### Runs -/

/-- How many of the inputs of a run are results of the fetch then under way. -/
def answered : List (Nat × SyncInput) → Replica → Nat
  | [], _ => 0
  | input :: inputs, r =>
    (if r.Answers input.2 then 1 else 0) + answered inputs (r.step input.1 input.2).state

section Run

variable {r : Replica}

/-- What is asked for and under way at the start is answered or under way at the end. -/
theorem fetches_run (inputs : List (Nat × SyncInput)) (hr : WellFormed r) :
    (fetches (run inputs r).effects).length + r.underWay =
      answered inputs r + (run inputs r).state.underWay := by
  induction inputs generalizing r with
  | nil => rfl
  | cons input inputs ih =>
    have hfirst := fetches_step input.1 input.2 hr
    have hrest := ih (wellFormed_step input.1 input.2 hr)
    rw [run_cons, Outcome.andThen_effects, Outcome.andThen_state, fetches_append,
      List.length_append, answered]
    omega

theorem count_ends_run (inputs : List (Nat × SyncInput)) (hr : WellFormed r) :
    (ends (run inputs r).effects).length + r.destroyed.toNat =
      (run inputs r).state.destroyed.toNat := by
  induction inputs generalizing r with
  | nil => exact Nat.zero_add _
  | cons input inputs ih =>
    have hfirst := count_ends_step input.1 input.2 hr
    have hrest := ih (wellFormed_step input.1 input.2 hr)
    rw [run_cons, Outcome.andThen_effects, Outcome.andThen_state, ends_append, List.length_append]
    omega

theorem run_of_destroyed (inputs : List (Nat × SyncInput)) (hr : WellFormed r)
    (hd : r.destroyed = true) : (run inputs r).state = r ∧ (run inputs r).effects = [] := by
  induction inputs with
  | nil => exact ⟨rfl, rfl⟩
  | cons input inputs ih =>
    obtain ⟨hstate, heffects⟩ := step_of_destroyed input.1 input.2 hr hd
    rw [run_cons, Outcome.andThen_state, Outcome.andThen_effects, hstate, heffects]
    exact ih

end Run

/-- The fetch under way is the one asked for last. -/
theorem lastFetch_run (limits : Limits) (inputs : List (Nat × SyncInput)) {kind : SyncKind}
    (hkind : (run inputs { limits }).state.syncInFlight = some kind) :
    ∃ url, (fetches (run inputs { limits }).effects).getLast? = some (url, kind) := by
  induction inputs using List.reverseRecOn with
  | nil => cases hkind
  | append_singleton inputs input ih =>
    have hr := wellFormed_run limits inputs
    rw [run_append, Outcome.andThen_state, run_cons, Outcome.andThen_state] at hkind
    rw [run_append, Outcome.andThen_effects, fetches_append, run_cons, Outcome.andThen_effects,
      run_nil, Outcome.stay_effects, List.append_nil]
    rcases lastFetch_step input.1 input.2 hr hkind with ⟨url, hfetches⟩ | ⟨hfetches, hbefore⟩
    · exact ⟨url, by rw [hfetches, List.getLast?_concat]⟩
    · rw [hfetches, List.append_nil]
      exact ih hbefore

/-- **Fetches come in pairs with their results, and the end is final.**  In every run as many
fetches are asked for as are answered, and one more while one is under way, which is the one asked
for last.  A result that is not of the fetch under way is ignored.  The meeting is given up at most
once, exactly when the fetch of the whole state fails, or that of what changed and no address is
known; with an address the whole state is fetched instead.  Once it is given up nothing happens any
more. -/
theorem fetches_paired_end_final (limits : Limits) (inputs : List (Nat × SyncInput)) :
    let o := run inputs { limits }
    let r := o.state
    (fetches o.effects).length = answered inputs { limits } + r.underWay ∧
      (∀ kind, r.syncInFlight = some kind →
        ∃ url, (fetches o.effects).getLast? = some (url, kind)) ∧
      (∀ draw kind result, r.syncInFlight ≠ some kind →
        r.step draw (.syncResult kind result) = .stay r) ∧
      (ends o.effects).length ≤ 1 ∧
      (∀ draw input reason, .destroy reason ∈ (r.step draw input).effects ↔ r.Hopeless input) ∧
      (∀ draw e, r.syncInFlight = some .delta → ∃ copy, r.workingCopy = some copy ∧
        (copy.url ≠ "" →
          (r.step draw (.syncResult .delta (.error e))).effects = [.fetch copy.url .full])) ∧
      (∀ reason, .destroy reason ∈ o.effects →
        ∀ more, (run more r).state = r ∧ (run more r).effects = []) := by
  intro o r
  have hr : WellFormed r := wellFormed_run limits inputs
  have hends : (ends o.effects).length = r.destroyed.toNat :=
    count_ends_run inputs (wellFormed_new limits)
  refine ⟨fetches_run inputs (wellFormed_new limits), fun kind => lastFetch_run limits inputs,
    ?_, hends ▸ Bool.toNat_le _, ?_, ?_, ?_⟩
  · intro draw kind result hf
    exact if_pos hf
  · intro draw input reason
    obtain ⟨hend, hgo⟩ := ends_step draw input hr
    rw [← mem_ends]
    by_cases h : r.Hopeless input
    · rw [(hend h).1]
      cases reason
      simp [h]
    · rw [(hgo h).1]
      simp [h]
  · intro draw e hf
    obtain ⟨copy, hc⟩ := Option.ne_none_iff_exists'.1
      (hr.workingCopy_ne_none (hf ▸ Option.some_ne_none _))
    exact ⟨copy, hc, narrowFailed_effects draw e hr hf hc⟩
  · intro reason hreason more
    have hpos := List.length_pos_of_mem (mem_ends.2 hreason)
    rw [hends] at hpos
    cases hd : r.destroyed with
    | true => exact run_of_destroyed more hr hd
    | false =>
      rw [hd] at hpos
      exact absurd hpos (Nat.lt_irrefl 0)

end Replica

end CallSignaling.Locus
