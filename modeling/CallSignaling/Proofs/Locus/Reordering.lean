import CallSignaling.Proofs.Locus.Course
import Mathlib.Data.List.Perm.Subperm
import Mathlib.Tactic.Tauto

/-!
# Changes that arrive in any order

A replica that receives one copy and a chain of changes that starts there ends up with all changes
applied, each of them once and in the order of the chain, whatever the order in which they arrive
and however often.

* `Locus.Backlog.Waiting`: what waits is what has arrived of a part of the chain.
* `Locus.Replica.Awaits`: the state before the copy has arrived.
* `Locus.Replica.Follows`: the state afterwards, in terms of the rest of the chain.
* `Locus.Replica.Advances`: an outcome takes the next part of the rest in turn, possibly none.
* `Locus.Replica.Arrivals`: one copy and changes arrive and nothing else does.

Every arrival advances along the chain (`follows_delta`), hence so do all of them (`follows_run`),
and nothing can remain of the chain once all of it has arrived (`Follows.rest_eq_nil`).
-/

namespace CallSignaling.Locus

/-! ### What waits of a chain -/

namespace Backlog

/-- What waits is what has been `seen` of `rest`. -/
def Waiting (rest seen : List Delta) (w : Backlog) : Prop :=
  ∀ b d, w.get? b = some d ↔ d ∈ rest ∧ d ∈ seen ∧ d.base = b

section Waiting

variable {p : UInt64} {rest seen : List Delta} {w : Backlog} {d : Delta}

theorem Waiting.size_le (h : Waiting rest seen w) : w.size ≤ rest.length := by
  have hkeys : w.keys ⊆ rest.map Delta.base := by
    intro b hb
    obtain ⟨⟨b', d⟩, hd, rfl⟩ := List.mem_map.1 hb
    obtain ⟨hrest, -, hbase⟩ := (h b' d).1 (SortedMap.get?_eq_some_iff.2 hd)
    exact List.mem_map.2 ⟨d, hrest, hbase⟩
  have hle := (List.subperm_of_subset w.nodup_keys hkeys).length_le
  rwa [SortedMap.keys, List.length_map, List.length_map] at hle

/-- A change that does not wait can be left out. -/
theorem Waiting.tail (h : Waiting (d :: rest) seen w) (hd : w.get? d.base = none) :
    Waiting rest seen w := by
  intro b e
  rw [h b e, List.mem_cons]
  constructor
  · rintro ⟨rfl | he, hseen, rfl⟩
    · rw [(h e.base e).2 ⟨List.mem_cons_self, hseen, rfl⟩] at hd
      cases hd
    · exact ⟨he, hseen, rfl⟩
  · rintro ⟨he, hseen⟩
    exact ⟨.inr he, hseen⟩

/-- If none of them has its turn, all but the first change of a chain may wait. -/
theorem Waiting.size_le_pred (h : Waiting rest seen w) (hchain : Delta.Chain p rest)
    (hp : w.get? p = none) : w.size ≤ rest.length - 1 := by
  cases rest with
  | nil => exact h.size_le
  | cons d rest =>
    have htail : Waiting rest seen w := h.tail (hchain.1 ▸ hp)
    exact htail.size_le

/-- A change that is not among the rest does not come to wait. -/
theorem Waiting.seen_append (h : Waiting rest seen w) (hd : d ∉ rest) :
    Waiting rest (seen ++ [d]) w := by
  intro b e
  rw [h b e, List.mem_append, List.mem_singleton]
  constructor
  · rintro ⟨he, hseen, hb⟩
    exact ⟨he, .inl hseen, hb⟩
  · rintro ⟨he, hseen | rfl, hb⟩
    · exact ⟨he, hseen, hb⟩
    · exact absurd he hd

theorem Waiting.insert (h : Waiting rest seen w) (hchain : Delta.Chain p rest) (hd : d ∈ rest) :
    Waiting rest (seen ++ [d]) (w.insert d.base d) := by
  intro b e
  rw [List.mem_append, List.mem_singleton]
  by_cases hb : b = d.base
  · -- what waited under this base is replaced, and it was the same change
    subst hb
    rw [SortedMap.get?_insert_self, Option.some.injEq]
    constructor
    · rintro rfl
      exact ⟨hd, .inr rfl, rfl⟩
    · rintro ⟨he, -, hbase⟩
      exact (hchain.eq_of_base he hd hbase).symm
  · rw [SortedMap.get?_insert_of_ne _ _ hb, h b e]
    constructor
    · rintro ⟨he, hseen, hbase⟩
      exact ⟨he, .inl hseen, hbase⟩
    · rintro ⟨he, hseen | rfl, hbase⟩
      · exact ⟨he, hseen, hbase⟩
      · exact absurd hbase.symm hb

/-- What waits of a chain leads beyond where the chain starts. -/
theorem Waiting.beyond (h : Waiting rest seen w) (hchain : Delta.Chain p rest) :
    Waiting rest seen (beyond p w) := by
  intro b e
  rw [get?_beyond_eq_some, h b e]
  exact ⟨And.left, fun he => ⟨he, hchain.lt_target he.1⟩⟩

/-- What leads beyond the first change of a chain is what waits of the others. -/
theorem Waiting.beyond_head (h : Waiting (d :: rest) seen w) (hchain : Delta.Chain p (d :: rest)) :
    Waiting rest seen (Backlog.beyond d.target w) := by
  intro b e
  rw [get?_beyond_eq_some, h b e, List.mem_cons]
  constructor
  · rintro ⟨⟨rfl | he, hseen⟩, hlt⟩
    · exact absurd hlt (UInt64.lt_irrefl _)
    · exact ⟨he, hseen⟩
  · rintro ⟨he, hseen⟩
    exact ⟨⟨.inr he, hseen⟩, hchain.2.2.lt_target he⟩

/-- The changes that have their turn are the next ones of the chain. -/
theorem Drains.split {ds : List Delta} {w' : Backlog} (h : Drains p w ds w')
    (hw : Waiting rest seen w) (hchain : Delta.Chain p rest) :
    ∃ later, rest = ds ++ later ∧ Waiting later seen w' := by
  induction h generalizing rest with
  | rest => exact ⟨rest, rfl, hw⟩
  | @turn p w w' d ds hd _ ih =>
    obtain ⟨hmem, -, hbase⟩ := (hw p d).1 hd
    cases rest with
    | nil => cases hmem
    | cons e rest =>
      -- only the first of the rest starts at the position
      obtain rfl : d = e := hchain.eq_head hmem hbase
      obtain ⟨later, rfl, hlater⟩ := ih (hw.beyond_head hchain) hchain.2.2
      exact ⟨later, rfl, hlater⟩

end Waiting

end Backlog

/-- The effect neither fetches nor gives the meeting up. -/
def SyncEffect.Local : SyncEffect → Prop
  | fetch _ _ => False
  | destroy _ => False
  | _ => True

namespace Replica

open Backlog

/-! ### States -/

/-- Nothing has arrived but the changes `seen`, which are among `ds`. -/
structure Awaits (ds seen : List Delta) (r : Replica) : Prop where
  workingCopy : r.workingCopy = none
  syncInFlight : r.syncInFlight = none
  destroyed : r.destroyed = false
  short : ds.length - 1 ≤ r.limits.maxOutOfOrder
  waiting : Waiting ds seen r.pending

/-- The replica holds `copy`, the chain `rest` starts there, and what has been `seen` of it waits.
-/
structure Follows (copy : Snapshot) (rest seen : List Delta) (r : Replica) : Prop where
  workingCopy : r.workingCopy = some copy
  syncInFlight : r.syncInFlight = none
  destroyed : r.destroyed = false
  chain : Delta.Chain copy.position rest
  short : rest.length - 1 ≤ r.limits.maxOutOfOrder
  waiting : Waiting rest seen r.pending
  /-- No change that waits has its turn. -/
  blocked : r.pending.get? copy.position = none
  armed : r.stallTimerArmed = !r.pending.isEmpty

/-- If all of the rest has been seen then there is no rest. -/
theorem Follows.rest_eq_nil {copy : Snapshot} {rest seen : List Delta} {r : Replica}
    (h : Follows copy rest seen r) (hseen : ∀ d ∈ rest, d ∈ seen) : rest = [] := by
  cases rest with
  | nil => rfl
  | cons d rest =>
    have hget : r.pending.get? copy.position = some d :=
      (h.waiting copy.position d).2 ⟨List.mem_cons_self, hseen d List.mem_cons_self, h.chain.1⟩
    rw [h.blocked] at hget
    cases hget

/-- What the outcome takes from the chain is either still to come or lies behind the copy. -/
theorem mem_later_or_le {copy : Snapshot} {turns later : List Delta} {d : Delta}
    (hchain : Delta.Chain copy.position (turns ++ later)) (hd : d ∈ turns ++ later) :
    d ∈ later ∨ d.target ≤ (turns.foldl Snapshot.apply copy).position := by
  rw [Snapshot.position_foldl_apply]
  exact hchain.mem_or_le hd

/-- The outcome publishes `lead`, takes the next part of `rest` in turn, possibly none, and does
nothing but what is local. -/
def Advances (lead : List Snapshot) (copy : Snapshot) (rest seen : List Delta)
    (o : Outcome Replica SyncEffect) : Prop :=
  ∃ turns later, rest = turns ++ later ∧
    Follows (turns.foldl Snapshot.apply copy) later seen o.state ∧
    SyncEffect.copies o.effects = lead ++ copy.trail turns ∧ ∀ e ∈ o.effects, e.Local

theorem Follows.advances {copy : Snapshot} {rest seen : List Delta} {r : Replica}
    (h : Follows copy rest seen r) : Advances [] copy rest seen (.stay r) :=
  ⟨[], rest, rfl, h, rfl, fun e he => by cases he⟩

theorem Advances.andThen {lead : List Snapshot} {copy : Snapshot} {rest seen seen' : List Delta}
    {o : Outcome Replica SyncEffect} {f : Replica → Outcome Replica SyncEffect}
    (h : Advances lead copy rest seen o)
    (hf : ∀ turns later, rest = turns ++ later →
      Follows (turns.foldl Snapshot.apply copy) later seen o.state →
      Advances [] (turns.foldl Snapshot.apply copy) later seen' (f o.state)) :
    Advances lead copy rest seen' (o.andThen f) := by
  obtain ⟨turns, later, hrest, hnow, hcopies, hlocal⟩ := h
  obtain ⟨turns', later', hrest', hthen, hcopies', hlocal'⟩ := hf turns later hrest hnow
  refine ⟨turns ++ turns', later', ?_, ?_, ?_, ?_⟩
  · rw [hrest, hrest', List.append_assoc]
  · rw [List.foldl_append]
    exact hthen
  · rw [Outcome.andThen_effects, SyncEffect.copies_append, hcopies, hcopies', List.nil_append,
      Snapshot.trail_append, List.append_assoc]
  · intro e he
    rw [Outcome.andThen_effects, List.mem_append] at he
    rcases he with he | he
    · exact hlocal e he
    · exact hlocal' e he

/-- A step before that asks for nothing does not matter. -/
theorem Advances.of_quiet {lead : List Snapshot} {copy : Snapshot} {rest seen : List Delta}
    {o : Outcome Replica SyncEffect} {f : Replica → Outcome Replica SyncEffect}
    (ho : o.effects = []) (h : Advances lead copy rest seen (f o.state)) :
    Advances lead copy rest seen (o.andThen f) := by
  unfold Advances
  rw [Outcome.andThen_state, Outcome.andThen_effects, ho, List.nil_append]
  exact h

/-! ### Steps -/

theorem cancelTimer_local (r : Replica) : ∀ e ∈ r.cancelTimer.effects, e.Local := by
  unfold cancelTimer
  split
  · intro e he
    rw [List.mem_singleton.1 he]
    trivial
  · intro e he
    cases he

theorem armTimer_local (draw : Nat) (r : Replica) : ∀ e ∈ (r.armTimer draw).effects, e.Local := by
  unfold armTimer
  split
  · intro e he
    cases he
  · intro e he
    rw [List.mem_singleton.1 he]
    trivial

/-- With few changes waiting only the timer is started or stopped. -/
theorem reevaluate_of_le {r : Replica} {copy : Snapshot} (draw : Nat)
    (hc : r.workingCopy = some copy) (hf : r.syncInFlight = none) (hd : r.destroyed = false)
    (hle : r.pending.size ≤ r.limits.maxOutOfOrder) :
    (r.reevaluate draw).state = { r with stallTimerArmed := !r.pending.isEmpty } ∧
      ∀ e ∈ (r.reevaluate draw).effects, e.Local := by
  have hidle : (r.destroyed || r.syncInFlight.isSome || r.workingCopy.isNone) = false := by
    rw [hd, hf, hc]
    rfl
  unfold reevaluate
  rw [hidle, if_neg Bool.false_ne_true, if_neg (Nat.not_lt.2 hle)]
  by_cases hp : r.pending.isEmpty = true
  · rw [if_pos hp, cancelTimer_state, hp]
    exact ⟨rfl, cancelTimer_local r⟩
  · rw [if_neg hp, armTimer_state, Bool.eq_false_iff.2 hp]
    exact ⟨rfl, armTimer_local draw r⟩

/-- Taking a copy at which the rest of the chain starts leads further along the chain. -/
theorem Moves.advances {draw : Nat} {r : Replica} {lead : List Snapshot} {copy : Snapshot}
    {rest seen : List Delta} {o : Outcome Replica SyncEffect} (ho : Moves draw r lead copy o)
    (hf : r.syncInFlight = none) (hd : r.destroyed = false)
    (hchain : Delta.Chain copy.position rest) (hshort : rest.length - 1 ≤ r.limits.maxOutOfOrder)
    (hw : Waiting rest seen r.pending) : Advances lead copy rest seen o := by
  -- what has its turn is the next part of the rest, and what is left waits of the later changes
  have hdrains := drains_turns copy.position (beyond copy.position r.pending)
  obtain ⟨later, hrest, hlater⟩ := hdrains.split (hw.beyond hchain) hchain
  have hposition := Snapshot.position_foldl_apply copy (r.turnsFrom copy.position)
  have hstop := hdrains.get?_stop
  rw [hrest, Delta.chain_append] at hchain
  rw [hrest, List.length_append] at hshort
  have hsize : (r.caughtUp copy).pending.size ≤ (r.caughtUp copy).limits.maxOutOfOrder := by
    have hle : (r.caughtUp copy).pending.size ≤ later.length - 1 :=
      hlater.size_le_pred hchain.2 hstop
    have hlimits : (r.caughtUp copy).limits = r.limits := rfl
    rw [hlimits]
    omega
  obtain ⟨hstate, hlocal⟩ := reevaluate_of_le draw (r := r.caughtUp copy) rfl hf hd hsize
  refine ⟨r.turnsFrom copy.position, later, hrest, ?_, ho.copies, ?_⟩
  · rw [ho.state, hstate]
    exact {
      workingCopy := rfl
      syncInFlight := hf
      destroyed := hd
      chain := hposition ▸ hchain.2
      short := Nat.le_trans (by omega) hshort
      waiting := hlater
      blocked := hposition ▸ hstop
      armed := rfl }
  · intro e he
    rw [ho.effects, List.mem_append] at he
    rcases he with he | he
    · obtain ⟨c, -, rfl⟩ := List.mem_map.1 he
      trivial
    · exact hlocal e he

/-- Before the copy has arrived a change only comes to wait. -/
theorem awaits_delta (draw : Nat) {p : UInt64} {ds seen : List Delta} {d : Delta} {r : Replica}
    (h : Awaits ds seen r) (hchain : Delta.Chain p ds) (hd : d ∈ ds) :
    Awaits ds (seen ++ [d]) (r.step draw (.delta d)).state ∧
      (r.step draw (.delta d)).effects = [] := by
  have hstep : r.step draw (.delta d) = r.buffer d := by
    rw [step, onDelta, h.destroyed, if_neg Bool.false_ne_true, lastApplied, h.workingCopy]
    rfl
  rw [hstep]
  exact ⟨⟨h.workingCopy, h.syncInFlight, h.destroyed, h.short, h.waiting.insert hchain hd⟩, rfl⟩

/-- The copy takes the first part of the chain with it. -/
theorem awaits_full (draw : Nat) {s : Snapshot} {ds seen : List Delta} {r : Replica}
    (h : Awaits ds seen r) (hchain : Delta.Chain s.position ds) :
    Advances [s] s ds seen (r.step draw (.full s)) := by
  have haccepts : r.Accepts s := by
    refine ⟨h.destroyed, ?_⟩
    rw [h.workingCopy]
    rfl
  have hcourse := course_step draw (.full s) r
  generalize r.step draw (.full s) = o at hcourse
  cases hcourse with
  | accepted _ ho => exact ho.advances h.syncInFlight h.destroyed hchain h.short h.waiting
  | refused hn => exact absurd haccepts hn
  | diverged hn => exact absurd haccepts hn

/-- A change of the rest that does not have its turn comes to wait. -/
theorem follows_buffer (draw : Nat) {copy : Snapshot} {rest seen : List Delta} {d : Delta}
    {r : Replica} (h : Follows copy rest seen r) (hd : d ∈ rest) (hne : d.base ≠ copy.position) :
    Advances [] copy rest (seen ++ [d]) ((r.buffer d).andThen (reevaluate draw)) := by
  have hwaiting := h.waiting.insert h.chain hd
  have hblocked : (r.pending.insert d.base d).get? copy.position = none := by
    rw [SortedMap.get?_insert_of_ne _ _ (Ne.symm hne)]
    exact h.blocked
  have hsize : (r.buffer d).state.pending.size ≤ (r.buffer d).state.limits.maxOutOfOrder :=
    Nat.le_trans (hwaiting.size_le_pred h.chain hblocked) h.short
  obtain ⟨hstate, hlocal⟩ := reevaluate_of_le draw (r := (r.buffer d).state) h.workingCopy
    h.syncInFlight h.destroyed hsize
  refine ⟨[], rest, rfl, ?_, (upkeep_reevaluate draw (r.buffer d).state).copies, hlocal⟩
  rw [Outcome.andThen_state, hstate]
  exact ⟨h.workingCopy, h.syncInFlight, h.destroyed, h.chain, h.short, hwaiting, hblocked, rfl⟩

/-- The first change of the rest takes with it what follows it in the chain and waits. -/
theorem follows_turn {draw : Nat} {copy : Snapshot} {rest seen : List Delta} {d : Delta}
    {r : Replica} {o : Outcome Replica SyncEffect} (h : Follows copy (d :: rest) seen r)
    (ho : Moves draw r [copy.apply d] (copy.apply d) o) :
    Advances [] copy (d :: rest) (seen ++ [d]) o := by
  have hbase : d.base = copy.position := h.chain.1
  have hchain : Delta.Chain d.target rest := h.chain.2.2
  have hnot : d ∉ rest := fun hmem => UInt64.lt_irrefl _ (hchain.lt_target hmem)
  have hwaiting : Waiting rest (seen ++ [d]) r.pending :=
    (h.waiting.tail (hbase ▸ h.blocked)).seen_append hnot
  have hshort : rest.length - 1 ≤ r.limits.maxOutOfOrder := Nat.le_trans (by simp) h.short
  obtain ⟨turns, later, rfl, hfollows, hcopies, hlocal⟩ :=
    ho.advances h.syncInFlight h.destroyed hchain hshort hwaiting
  exact ⟨d :: turns, later, rfl, hfollows, hcopies, hlocal⟩

/-- A change of the chain takes the next part of the rest in turn, which may be empty. -/
theorem follows_delta (draw : Nat) {copy : Snapshot} {rest seen : List Delta} {d : Delta}
    {r : Replica} (h : Follows copy rest seen r) (hd : d ∈ rest ∨ d.target ≤ copy.position) :
    Advances [] copy rest (seen ++ [d]) (r.step draw (.delta d)) := by
  have hcourse := course_step draw (.delta d) r
  generalize r.step draw (.delta d) = o at hcourse
  cases hcourse with
  | dropped hdead =>
    rw [h.destroyed] at hdead
    cases hdead
  | early _ hc =>
    rw [h.workingCopy] at hc
    cases hc
  | stale _ hc hle =>
    rw [h.workingCopy] at hc
    cases hc
    -- a redelivery of a change that has been applied
    have hnot : d ∉ rest := fun hmem => UInt64.not_lt.2 hle (h.chain.lt_target hmem)
    exact ⟨[], rest, rfl, { h with waiting := h.waiting.seen_append hnot }, rfl,
      fun e he => by cases he⟩
  | waits _ hc hlt hwait =>
    rw [h.workingCopy] at hc
    cases hc
    exact follows_buffer draw h (hd.resolve_right (UInt64.not_le.2 hlt))
      (hwait.resolve_left fun hf => hf h.syncInFlight)
  | turn hc hn ho =>
    rw [h.workingCopy] at hc
    cases hc
    have hbase : copy.position = d.base := by
      have hl := hn.2.2.1
      rw [lastApplied_of_copy h.workingCopy] at hl
      exact Option.some.inj hl
    have hmem : d ∈ rest := hd.resolve_right (UInt64.not_le.2 (hbase ▸ hn.2.2.2))
    cases rest with
    | nil => cases hmem
    | cons e rest =>
      obtain rfl : d = e := h.chain.eq_head hmem hbase.symm
      exact follows_turn h ho

/-! ### Runs -/

/-- Changes as inputs, each with its draw. -/
def deltaInputs (arrivals : List (Nat × Delta)) : List (Nat × SyncInput) :=
  arrivals.map fun a => (a.1, .delta a.2)

theorem deltaInputs_cons (a : Nat × Delta) (arrivals : List (Nat × Delta)) :
    deltaInputs (a :: arrivals) = (a.1, .delta a.2) :: deltaInputs arrivals := rfl

/-- If every change of `ds` that arrives is only noted then a run of them asks for nothing. -/
theorem quiet_run {P : List Delta → Replica → Prop} {ds seen : List Delta}
    {arrivals : List (Nat × Delta)} {r : Replica}
    (hstep : ∀ draw seen d s, P seen s → d ∈ ds →
      P (seen ++ [d]) (step draw (.delta d) s).state ∧ (step draw (.delta d) s).effects = [])
    (h : P seen r) (harrivals : ∀ a ∈ arrivals, a.2 ∈ ds) :
    P (seen ++ arrivals.map Prod.snd) (run (deltaInputs arrivals) r).state ∧
      (run (deltaInputs arrivals) r).effects = [] := by
  induction arrivals generalizing seen r with
  | nil =>
    rw [List.map_nil, List.append_nil]
    exact ⟨h, rfl⟩
  | cons a arrivals ih =>
    obtain ⟨hnow, heffects⟩ := hstep a.1 seen a.2 r h (harrivals a List.mem_cons_self)
    obtain ⟨hlater, hrest⟩ := ih hnow fun b hb => harrivals b (List.mem_cons_of_mem a hb)
    rw [deltaInputs_cons, run_cons, Outcome.andThen_state, Outcome.andThen_effects, heffects,
      List.map_cons, List.append_cons]
    exact ⟨hlater, hrest⟩

theorem awaits_run {p : UInt64} {ds seen : List Delta} {arrivals : List (Nat × Delta)}
    {r : Replica} (h : Awaits ds seen r) (hchain : Delta.Chain p ds)
    (harrivals : ∀ a ∈ arrivals, a.2 ∈ ds) :
    Awaits ds (seen ++ arrivals.map Prod.snd) (run (deltaInputs arrivals) r).state ∧
      (run (deltaInputs arrivals) r).effects = [] :=
  quiet_run (fun draw _ _ _ hs hd => awaits_delta draw hs hchain hd) h harrivals

/-- However many changes of the chain arrive, they take the next part of the rest in turn. -/
theorem follows_run {copy : Snapshot} {rest seen : List Delta} {arrivals : List (Nat × Delta)}
    {r : Replica} (h : Follows copy rest seen r)
    (harrivals : ∀ a ∈ arrivals, a.2 ∈ rest ∨ a.2.target ≤ copy.position) :
    Advances [] copy rest (seen ++ arrivals.map Prod.snd) (run (deltaInputs arrivals) r) := by
  induction arrivals generalizing copy rest seen r with
  | nil =>
    rw [List.map_nil, List.append_nil]
    exact h.advances
  | cons a arrivals ih =>
    rw [deltaInputs_cons, run_cons, List.map_cons, List.append_cons]
    refine (follows_delta a.1 h (harrivals a List.mem_cons_self)).andThen ?_
    intro turns later hrest hnow
    refine ih hnow fun b hb => ?_
    have hchain := h.chain
    rcases harrivals b (List.mem_cons_of_mem a hb) with hmem | hle
    · rw [hrest] at hchain hmem
      exact mem_later_or_le hchain hmem
    · rw [hrest, Delta.chain_append] at hchain
      rw [Snapshot.position_foldl_apply]
      exact .inr (UInt64.le_trans hle hchain.1.le_stop)

/-- The copy `s` arrives once and the changes `ds` arrive in some order, each of them at least once,
and nothing else does. -/
def Arrivals (s : Snapshot) (ds : List Delta) (trace : List (Nat × SyncInput)) : Prop :=
  ∃ before draw after, trace = deltaInputs before ++ (draw, .full s) :: deltaInputs after ∧
    ∀ d, d ∈ ds ↔ d ∈ (before ++ after).map Prod.snd

theorem awaits_new {ds : List Delta} {limits : Limits}
    (hshort : ds.length - 1 ≤ limits.maxOutOfOrder) : Awaits ds [] { limits } := by
  refine ⟨rfl, rfl, rfl, hshort, fun b d => ?_⟩
  constructor
  · intro hget
    cases hget
  · rintro ⟨-, hseen, -⟩
    cases hseen

/-- The arrivals bring the whole chain and take some part of it in turn, after the copy. -/
theorem advances_arrivals {limits : Limits} {s : Snapshot} {ds : List Delta}
    {trace : List (Nat × SyncInput)} (hchain : Delta.Chain s.position ds)
    (hshort : ds.length - 1 ≤ limits.maxOutOfOrder) (htrace : Arrivals s ds trace) :
    ∃ seen, (∀ d ∈ ds, d ∈ seen) ∧ Advances [s] s ds seen (run trace { limits }) := by
  obtain ⟨before, draw, after, rfl, harrived⟩ := htrace
  have hmem : ∀ a ∈ before ++ after, a.2 ∈ ds := fun a ha =>
    (harrived a.2).2 (List.mem_map.2 ⟨a, ha, rfl⟩)
  obtain ⟨hearly, heffects⟩ := awaits_run (awaits_new hshort) hchain
    fun a ha => hmem a (List.mem_append_left after ha)
  rw [List.nil_append] at hearly
  refine ⟨before.map Prod.snd ++ after.map Prod.snd, fun d hd => ?_, ?_⟩
  · rw [← List.map_append]
    exact (harrived d).1 hd
  · rw [run_append]
    refine .of_quiet heffects ?_
    rw [run_cons]
    refine (awaits_full draw hearly hchain).andThen ?_
    intro turns later hds hnow
    refine follows_run hnow fun a ha => ?_
    have hin := hmem a (List.mem_append_right before ha)
    rw [hds] at hchain hin
    exact mem_later_or_le hchain hin

/-- **The order of arrival does not matter**: a new replica that receives a copy and a chain of
changes, not more of which may be early than are allowed to wait, publishes the copy and then the
copy after each of the changes in the order of the chain, without a fetch, and ends up with all of
them applied and nothing left to wait for. -/
theorem run_arrivals {limits : Limits} {s : Snapshot} {ds : List Delta}
    {trace : List (Nat × SyncInput)} (hchain : Delta.Chain s.position ds)
    (hshort : ds.length - 1 ≤ limits.maxOutOfOrder) (htrace : Arrivals s ds trace) :
    SyncEffect.copies (run trace { limits }).effects = ds.scanl Snapshot.apply s ∧
      (∀ e ∈ (run trace { limits }).effects, e.Local) ∧
      (run trace { limits }).state.workingCopy = some (ds.foldl Snapshot.apply s) ∧
      (run trace { limits }).state.pending = ∅ ∧
      (run trace { limits }).state.stallTimerArmed = false := by
  obtain ⟨seen, hseen, turns, later, hds, hend, hcopies, hlocal⟩ :=
    advances_arrivals hchain hshort htrace
  -- all of the chain has arrived, so none of it is left
  obtain rfl : later = [] := by
    refine hend.rest_eq_nil fun d hd => hseen d ?_
    rw [hds]
    exact List.mem_append_right turns hd
  rw [List.append_nil] at hds
  subst hds
  have hpending : (run trace { limits }).state.pending = ∅ := by
    refine SortedMap.eq_empty_iff.2 fun b => Option.eq_none_iff_forall_ne_some.2 fun d hget => ?_
    exact List.not_mem_nil ((hend.waiting b d).1 hget).1
  refine ⟨?_, hlocal, hend.workingCopy, hpending, ?_⟩
  · rw [hcopies, Snapshot.scanl_apply]
    rfl
  · rw [hend.armed, hpending]
    rfl

/-- Three changes, the last two of them before the copy, and the first two of them twice. -/
theorem run_arrivals_backwards :
    let s : Snapshot := { sequence := .range 1 10 }
    let ds : List Delta := [.range 10 20, .range 20 30, .range 30 40]
    let trace : List (Nat × SyncInput) :=
      [(7, .delta (.range 30 40)), (7, .delta (.range 20 30)), (7, .full s),
        (7, .delta (.range 20 30)), (7, .delta (.range 10 20)), (7, .delta (.range 10 20))]
    let limits : Limits := ⟨2, 2000, 1000⟩
    Delta.Chain s.position ds ∧ ds.length - 1 ≤ limits.maxOutOfOrder ∧ Arrivals s ds trace ∧
      SyncEffect.copies (run trace { limits }).effects = ds.scanl Snapshot.apply s ∧
      (∀ e ∈ (run trace { limits }).effects, e.Local) ∧
      (run trace { limits }).state.workingCopy = some (ds.foldl Snapshot.apply s) ∧
      (run trace { limits }).state.pending = ∅ ∧
      (run trace { limits }).state.stallTimerArmed = false := by
  intro s ds trace limits
  have hchain : Delta.Chain s.position ds :=
    ⟨by decide, by decide, by decide, by decide, by decide, by decide, trivial⟩
  have hshort : ds.length - 1 ≤ limits.maxOutOfOrder := by decide
  have htrace : Arrivals s ds trace := by
    refine ⟨[(7, .range 30 40), (7, .range 20 30)], 7,
      [(7, .range 20 30), (7, .range 10 20), (7, .range 10 20)], rfl, fun d => ?_⟩
    simp only [ds, List.cons_append, List.nil_append, List.map_cons, List.map_nil, List.mem_cons,
      List.not_mem_nil, or_false]
    tauto
  exact ⟨hchain, hshort, htrace, run_arrivals hchain hshort htrace⟩

end Replica

end CallSignaling.Locus
