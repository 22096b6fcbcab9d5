import CallSignaling.Proofs.Counters
import CallSignaling.Proofs.Locus.Fates

/-!
# No change gets lost

* `Locus.Fate.among`: the changes with a fate.
* `Locus.Replica.Holds`: what a fate says of a change.

Main statements: a step applies what `applied` says and nothing else (`among_applied_fates`), a fate
is what it says (`holds_fates`), a change stops waiting for one of four reasons (`waits_or_fated`),
and hence every change that arrived is accounted for (`every_change_accounted`).
-/

namespace CallSignaling.Locus

/-! ### Fates as classes -/

namespace Fate

/-- The changes with this fate, in turn. -/
def among (fate : Fate) (settled : List (Delta × Fate)) : List Delta :=
  (settled.filter (·.2 = fate)).map Prod.fst

theorem among_append (fate : Fate) (xs ys : List (Delta × Fate)) :
    fate.among (xs ++ ys) = fate.among xs ++ fate.among ys := by
  rw [among, List.filter_append, List.map_append]
  rfl

theorem among_map (fate other : Fate) (ds : List Delta) :
    fate.among (ds.map (·, other)) = if other = fate then ds else [] := by
  induction ds with
  | nil => exact (ite_self _).symm
  | cons d ds ih =>
    rw [List.map_cons, among, List.filter_cons]
    by_cases h : other = fate
    · rw [if_pos h] at ih
      rw [if_pos h, if_pos (decide_eq_true h), List.map_cons]
      exact congrArg (List.cons d) ih
    · rw [if_neg h] at ih
      rw [if_neg h, if_neg (by simpa using h)]
      exact ih

/-- The classes of the four fates are all there is, each change in one of them. -/
theorem perm_classes (settled : List (Delta × Fate)) :
    (applied.among settled ++ (stale.among settled ++ (dropped.among settled ++
      replaced.among settled))).Perm (settled.map Prod.fst) := by
  induction settled with
  | nil => exact .refl _
  | cons c settled ih =>
    obtain ⟨d, fate⟩ := c
    -- the change heads the class of its fate
    cases fate with
    | applied => exact ih.cons d
    | stale => exact List.perm_middle.trans (ih.cons d)
    | dropped => exact ((List.perm_middle.append_left _).trans List.perm_middle).trans (ih.cons d)
    | replaced =>
      exact (((List.perm_middle.append_left _).append_left _).trans
        ((List.perm_middle.append_left _).trans List.perm_middle)).trans (ih.cons d)

theorem action?_injective {fate other : Fate} {action : Metric.DeltaAction}
    (h : fate.action? = some action) (hother : other.action? = some action) : other = fate := by
  cases fate <;> cases h <;> cases other <;> first | rfl | cases hother

/-- A fate that is counted is counted once for each change. -/
theorem count_action {fate : Fate} {action : Metric.DeltaAction} (h : fate.action? = some action)
    (settled : List (Delta × Fate)) :
    (settled.filterMap (·.2.action?)).count action = (fate.among settled).length := by
  rw [List.count_filterMap, among, List.length_map, ← List.countP_eq_length_filter]
  refine List.countP_congr fun c _ => ?_
  rw [beq_iff_eq, decide_eq_true_iff]
  constructor
  · exact action?_injective h
  · rintro rfl
    exact h

end Fate

/-- Every action but to let a change wait settles it. -/
theorem settled?_eq_some_iff {m : Metric} {action : Metric.DeltaAction} (h : action ≠ .buffered) :
    m.settled? = some action ↔ m = .delta action := by
  cases m with
  | delta other =>
    cases other with
    | buffered => simp [Metric.settled?, Ne.symm h]
    | applied | stale | dropped => simp [Metric.settled?]
  | _ => simp [Metric.settled?]

theorem count_settled {action : Metric.DeltaAction} (h : action ≠ .buffered)
    (metrics : List Metric) :
    (metrics.filterMap Metric.settled?).count action = metrics.count (.delta action) := by
  rw [List.count_filterMap, List.count]
  refine List.countP_congr fun m _ => ?_
  rw [beq_iff_eq, beq_iff_eq]
  exact settled?_eq_some_iff h

namespace Replica

open Backlog

/-! ### What a step settles -/

section Delta

variable {r : Replica} {d : Delta} {copy : Snapshot}

theorem fates_dropped (hd : r.destroyed = true) : r.fates (.delta d) = [(d, .dropped)] := by
  rw [fates, if_pos hd]

theorem fates_early (hd : r.destroyed = false) (hc : r.workingCopy = none) :
    r.fates (.delta d) = r.displaced d := by
  rw [fates, if_neg (Bool.eq_false_iff.1 hd), lastApplied, hc]
  rfl

theorem fates_stale (hd : r.destroyed = false) (hc : r.workingCopy = some copy)
    (hle : d.target ≤ copy.position) : r.fates (.delta d) = [(d, .stale)] := by
  rw [fates, if_neg (Bool.eq_false_iff.1 hd), lastApplied_of_copy hc]
  simp only [if_pos hle]

theorem fates_waits (hd : r.destroyed = false) (hc : r.workingCopy = some copy)
    (hlt : copy.position < d.target) (h : r.syncInFlight ≠ none ∨ d.base ≠ copy.position) :
    r.fates (.delta d) = r.displaced d := by
  have hwait : (r.syncInFlight.isSome || d.base ≠ copy.position) = true := by
    rw [Bool.or_eq_true, Option.isSome_iff_ne_none, decide_eq_true_iff]
    exact h
  rw [fates, if_neg (Bool.eq_false_iff.1 hd), lastApplied_of_copy hc]
  simp only [if_neg (UInt64.not_le.2 hlt), if_pos hwait]

theorem fates_turn (h : r.IsNext d) :
    r.fates (.delta d) = (d, .applied) :: r.fatesFrom d.target := by
  obtain ⟨hd, hf, hl, hlt⟩ := h
  have hnow : ¬ (r.syncInFlight.isSome || d.base ≠ d.base) = true := by
    rw [hf]
    simp
  rw [fates, if_neg (Bool.eq_false_iff.1 hd), hl]
  simp only [if_neg (UInt64.not_le.2 hlt), if_neg hnow]

theorem not_isNext_of_none (hc : r.workingCopy = none) : ¬ r.IsNext d := by
  intro hn
  have hl := hn.2.2.1
  rw [lastApplied, hc] at hl
  cases hl

end Delta

/-- A copy that is adopted settles what does not lead beyond it, and what has its turn then. -/
theorem fates_of_adopted {input : SyncInput} {r : Replica} {copy : Snapshot}
    (h : r.adopted? input = some copy) : r.fates input = r.fatesFrom copy.position := by
  cases input with
  | full snapshot =>
    by_cases ha : r.Accepts snapshot
    · rw [adopted?, if_pos ha] at h
      cases h
      exact if_pos ha
    · rw [adopted?, if_neg ha] at h
      cases h
  | delta d => cases h
  | stallTimeout => cases h
  | syncResult kind result =>
    rcases result with e | _ | fetched
    · cases h
    · cases h
    · by_cases hf : r.syncInFlight = some kind
      · obtain ⟨copy', hadopt, hp⟩ := adopt_spec kind fetched r
        rw [adopted?, if_pos hf, hadopt] at h
        cases h
        rw [fates, if_pos hf, hp]
      · rw [adopted?, if_neg hf] at h
        cases h

/-! ### What is applied -/

theorem among_applied_backlogFates (n : Nat) (p : UInt64) (w : Backlog) :
    Fate.applied.among (Backlog.fates n p w) = (takeTurns n p w).1 := by
  induction n generalizing p w with
  | zero => rfl
  | succ n ih =>
    rw [Backlog.fates, takeTurns]
    cases w.get? p with
    | none => rfl
    | some d =>
      show d :: Fate.applied.among (_ ++ _) = d :: _
      rw [Fate.among_append, Fate.among_map, if_neg (by decide), List.nil_append, ih]

theorem among_applied_fatesFrom (p : UInt64) (r : Replica) :
    Fate.applied.among (r.fatesFrom p) = r.turnsFrom p := by
  rw [fatesFrom, Fate.among_append, Fate.among_map, if_neg (by decide), List.nil_append,
    among_applied_backlogFates]
  rfl

theorem among_applied_forsaken (r : Replica) : Fate.applied.among r.forsaken = [] := by
  unfold forsaken
  split
  · rfl
  · rw [Fate.among_map, if_neg (by decide)]

theorem among_applied_displaced (d : Delta) (r : Replica) :
    Fate.applied.among (r.displaced d) = [] := by
  rw [displaced, Fate.among_map, if_neg (by decide)]

theorem among_applied_fates_delta (d : Delta) (r : Replica) :
    Fate.applied.among (r.fates (.delta d)) = r.applied (.delta d) := by
  have hcourse := course_step 0 (.delta d) r
  generalize r.step 0 (.delta d) = o at hcourse
  cases hcourse with
  | dropped hd =>
    rw [fates_dropped hd, applied, if_neg fun hn : r.IsNext d => Bool.eq_false_iff.1 hn.1 hd]
    rfl
  | early hd hc =>
    rw [fates_early hd hc, applied, if_neg (not_isNext_of_none hc), among_applied_displaced]
  | stale hd hc hle =>
    rw [fates_stale hd hc hle, applied, if_neg (not_isNext_of_stale hc hle)]
    rfl
  | waits hd hc hlt hwait =>
    rw [fates_waits hd hc hlt hwait, applied, if_neg (not_isNext_of_waits hc hwait),
      among_applied_displaced]
  | turn hc hn =>
    rw [fates_turn hn, applied, if_pos hn]
    exact congrArg (List.cons d) (among_applied_fatesFrom d.target r)

/-- Among the changes that a step settles, those of `applied` are applied. -/
theorem among_applied_fates (input : SyncInput) (r : Replica) :
    Fate.applied.among (r.fates input) = r.applied input := by
  cases input with
  | full snapshot =>
    rw [fates, applied]
    split
    · exact among_applied_fatesFrom _ r
    · rfl
  | delta d => exact among_applied_fates_delta d r
  | stallTimeout => rfl
  | syncResult kind result =>
    rcases result with e | _ | fetched
    · rw [fates, applied]
      split
      · cases kind with
        | delta =>
          rw [abandoned]
          split
          · exact among_applied_forsaken r
          · rfl
        | full => exact among_applied_forsaken r
      · rfl
    · rw [fates, applied]
      split
      · cases r.lastApplied with
        | none => rfl
        | some last => exact among_applied_fatesFrom last r
      · rfl
    · rw [fates, applied]
      split
      · exact among_applied_fatesFrom _ r
      · rfl

theorem among_applied_fatesOver (inputs : List (Nat × SyncInput)) (r : Replica) :
    Fate.applied.among (fatesOver inputs r) = appliedOver inputs r := by
  induction inputs generalizing r with
  | nil => rfl
  | cons input inputs ih =>
    rw [fatesOver, appliedOver, Fate.among_append, among_applied_fates, ih]

/-! ### A fate is what it says -/

/-- What a fate says of a change that a step settles. -/
def Holds (draw : Nat) (input : SyncInput) (r : Replica) (d : Delta) : Fate → Prop
  | .applied => d ∈ r.applied input
  | .stale => ∃ last, (r.step draw input).state.lastApplied = some last ∧ d.target ≤ last
  | .dropped => (r.step draw input).state.destroyed = true
  | .replaced => ∃ e, input = .delta e ∧ e.base = d.base ∧
      (r.step draw input).state.pending.get? d.base = some e

/-- While changes have their turn, whatever is settled is applied or lies behind where the turns
end. -/
theorem mem_backlogFates {n : Nat} {p : UInt64} {w : Backlog} {c : Delta × Fate} (hn : w.size ≤ n)
    (hk : Keyed w) (ha : Ahead p w) (hc : c ∈ Backlog.fates n p w) :
    c.2 = .applied ∨ c.2 = .stale ∧ c.1.target ≤ Delta.stop p (takeTurns n p w).1 := by
  induction n generalizing p w with
  | zero => cases hc
  | succ n ih =>
    rw [Backlog.fates] at hc
    rw [takeTurns]
    cases hget : w.get? p with
    | none =>
      rw [hget] at hc
      cases hc
    | some d =>
      rw [hget] at hc
      have hn' : (beyond d.target w).size ≤ n := by
        have hlt := size_beyond_lt hget
        omega
      have hk' := keyed_beyond d.target hk
      have ha' := ahead_beyond d.target w
      have hstop : d.target ≤ Delta.stop d.target (takeTurns n d.target (beyond d.target w)).1 :=
        ((drains_takeTurns hn').chain hk' ha').le_stop
      rcases List.mem_cons.1 hc with rfl | hc
      · exact .inl rfl
      · rcases List.mem_append.1 hc with hc | hc
        · obtain ⟨e, he, rfl⟩ := List.mem_map.1 hc
          exact .inr ⟨rfl, UInt64.le_trans (mem_behind.1 he).1 hstop⟩
        · exact ih hn' hk' ha' hc

/-- The fates of what waits hold at a step that comes to `p` and lets it have its turns. -/
theorem holds_fatesFrom {draw : Nat} {input : SyncInput} {r : Replica} {p : UInt64}
    (hk : Keyed r.pending)
    (hl : (r.step draw input).state.lastApplied = some (Delta.stop p (r.turnsFrom p)))
    (happlied : ∀ d ∈ r.turnsFrom p, d ∈ r.applied input) :
    ∀ c ∈ r.fatesFrom p, r.Holds draw input c.1 c.2 := by
  intro c hc
  have hkeyed := keyed_beyond p hk
  have hahead := ahead_beyond p r.pending
  rcases List.mem_append.1 hc with hbehind | hturns
  · obtain ⟨d, hd, rfl⟩ := List.mem_map.1 hbehind
    exact ⟨_, hl, UInt64.le_trans (mem_behind.1 hd).1 (chain_turnsFrom hk p).le_stop⟩
  · rcases mem_backlogFates (Nat.le_refl _) hkeyed hahead hturns with hfate | ⟨hfate, hle⟩
    · obtain ⟨d, fate⟩ := c
      cases hfate
      refine happlied d ?_
      rw [← among_applied_fatesFrom]
      exact List.mem_map.2 ⟨(d, .applied), List.mem_filter.2 ⟨hc, rfl⟩, rfl⟩
    · obtain ⟨d, fate⟩ := c
      cases hfate
      exact ⟨_, hl, hle⟩

theorem holds_displaced {draw : Nat} {r : Replica} {d : Delta} (hr : WellFormed r)
    (hwaits : d ∈ changes (r.step draw (.delta d)).state.pending) :
    ∀ c ∈ r.displaced d, r.Holds draw (.delta d) c.1 c.2 := by
  intro c hc
  obtain ⟨e, he, rfl⟩ := List.mem_map.1 hc
  have hbase : e.base = d.base := hr.keyed _ e (Option.mem_toList.1 he)
  have hget := get?_of_mem_changes (wellFormed_step draw (.delta d) hr).keyed hwaits
  exact ⟨d, rfl, hbase.symm, hbase ▸ hget⟩

theorem destroyed_giveUp (r : Replica) : r.giveUp.state.destroyed = true := by
  by_cases hd : r.destroyed = true
  · rw [giveUp, if_pos hd]
    exact hd
  · rw [giveUp_state (Bool.eq_false_iff.2 hd)]

theorem holds_forsaken {draw : Nat} {input : SyncInput} {r : Replica}
    (hd : (r.step draw input).state.destroyed = true) :
    ∀ c ∈ r.forsaken, r.Holds draw input c.1 c.2 := by
  intro c hc
  unfold forsaken at hc
  split at hc
  · cases hc
  · obtain ⟨d, -, rfl⟩ := List.mem_map.1 hc
    exact hd

theorem holds_fates_delta (draw : Nat) (d : Delta) {r : Replica} (hr : WellFormed r) :
    ∀ c ∈ r.fates (.delta d), r.Holds draw (.delta d) c.1 c.2 := by
  have hcourse := course_step draw (.delta d) r
  generalize hstep : r.step draw (.delta d) = o at hcourse
  cases hcourse with
  | dropped hd =>
    rw [fates_dropped hd]
    intro c hc
    rw [List.mem_singleton.1 hc]
    show (r.step draw (.delta d)).state.destroyed = true
    rw [hstep]
    exact hd
  | early hd hc =>
    rw [fates_early hd hc]
    refine holds_displaced hr ?_
    rw [hstep]
    exact mem_changes.2 ⟨d.base, SortedMap.get?_insert_self ..⟩
  | stale hd hc hle =>
    rw [fates_stale hd hc hle]
    intro c hmem
    rw [List.mem_singleton.1 hmem]
    refine ⟨_, ?_, hle⟩
    rw [hstep]
    exact lastApplied_of_copy hc
  | waits hd hc hlt hwait =>
    rw [fates_waits hd hc hlt hwait]
    refine holds_displaced hr ?_
    rw [hstep, Outcome.andThen_state]
    -- deciding about what waits leaves it alone
    refine (accounts_reevaluate draw (r.buffer d).state).balance.mem_iff.2 ?_
    exact mem_changes.2 ⟨d.base, SortedMap.get?_insert_self ..⟩
  | turn hc hn =>
    have happlied : r.applied (.delta d) = d :: r.turnsFrom d.target := if_pos hn
    have hcopy : (r.adopted? (.delta d)).or r.workingCopy = some _ := hc
    have hl := lastApplied_step draw hcopy
    rw [happlied] at hl
    rw [fates_turn hn]
    intro c hmem
    rcases List.mem_cons.1 hmem with rfl | hmem
    · show d ∈ r.applied (.delta d)
      rw [happlied]
      exact List.mem_cons_self
    · refine holds_fatesFrom hr.keyed hl (fun e he => ?_) c hmem
      rw [happlied]
      exact List.mem_cons_of_mem d he

/-- If a failed fetch settles what waits then the meeting is given up. -/
theorem holds_abandoned (draw : Nat) (e : TransportError) {kind : SyncKind} {r : Replica}
    (hf : r.syncInFlight = some kind) :
    ∀ c ∈ r.abandoned kind, r.Holds draw (.syncResult kind (.error e)) c.1 c.2 := by
  cases kind with
  | delta =>
    unfold abandoned
    simp only
    split
    · rename_i hurl
      refine holds_forsaken ?_
      have hurl' : fullSyncUrl? { r with syncInFlight := none } = none := hurl
      have hstep : (r.step draw (.syncResult .delta (.error e))).state =
          (startFullSync { r with syncInFlight := none }).state := by
        rw [step, onSyncResult, if_neg (not_not_intro hf)]
        rfl
      rw [hstep, startFullSync, hurl']
      exact destroyed_giveUp _
    · exact fun c hc => absurd hc List.not_mem_nil
  | full =>
    refine holds_forsaken ?_
    have hstep : (r.step draw (.syncResult .full (.error e))).state =
        (giveUp { r with syncInFlight := none }).state := by
      rw [step, onSyncResult, if_neg (not_not_intro hf)]
      rfl
    rw [hstep]
    exact destroyed_giveUp _

/-- **A fate is what it says.** -/
theorem holds_fates (draw : Nat) (input : SyncInput) {r : Replica} (hr : WellFormed r) :
    ∀ c ∈ r.fates input, r.Holds draw input c.1 c.2 := by
  cases hadopted : r.adopted? input with
  | some copy =>
    have happlied := applied_of_adopted hadopted
    have hcopy : (r.adopted? input).or r.workingCopy = some copy := by
      rw [hadopted]
      rfl
    have hl := lastApplied_step draw hcopy
    rw [happlied] at hl
    rw [fates_of_adopted hadopted]
    exact holds_fatesFrom hr.keyed hl fun d hd => happlied ▸ hd
  | none =>
    cases input with
    | full snapshot =>
      have hnot : ¬ r.Accepts snapshot := fun ha => by
        rw [adopted?, if_pos ha] at hadopted
        cases hadopted
      rw [fates, if_neg hnot]
      exact fun c hc => absurd hc List.not_mem_nil
    | delta d => exact holds_fates_delta draw d hr
    | stallTimeout => exact fun c hc => absurd hc List.not_mem_nil
    | syncResult kind result =>
      by_cases hf : r.syncInFlight = some kind
      · rcases result with e | _ | fetched
        · rw [fates, if_pos hf]
          exact holds_abandoned draw e hf
        · obtain ⟨copy, hc⟩ : ∃ copy, r.workingCopy = some copy :=
            Option.ne_none_iff_exists'.1 (hr.workingCopy_ne_none (hf ▸ Option.some_ne_none kind))
          have hcopy : (r.adopted? (.syncResult kind (.ok none))).or r.workingCopy = some copy := hc
          have hl := lastApplied_step draw hcopy
          have happlied : r.applied (.syncResult kind (.ok none)) = r.turnsFrom copy.position := by
            rw [applied, if_pos hf, lastApplied_of_copy hc]
            rfl
          rw [happlied] at hl
          rw [fates, if_pos hf, lastApplied_of_copy hc]
          exact holds_fatesFrom hr.keyed hl fun d hd => happlied ▸ hd
        · obtain ⟨copy, hadopt, -⟩ := adopt_spec kind fetched r
          rw [adopted?, if_pos hf, hadopt] at hadopted
          cases hadopted
      · have hnil : r.fates (.syncResult kind result) = [] := by
          rcases result with e | _ | fetched <;> rw [fates, if_neg hf]
        rw [hnil]
        exact fun c hc => absurd hc List.not_mem_nil

/-- **A change goes on waiting, or a fate settles it** and holds: it is applied, it lies behind the
working copy, another change with its base position waits there, or the meeting is given up. -/
theorem waits_or_fated (draw : Nat) (input : SyncInput) {r : Replica} (hr : WellFormed r)
    {b : UInt64} {d : Delta} (h : r.pending.get? b = some d) :
    (r.step draw input).state.pending.get? b = some d ∨
      ∃ fate, (d, fate) ∈ r.fates input ∧ r.Holds draw input d fate := by
  have hmem : d ∈ input.change?.toList ++ changes r.pending :=
    List.mem_append_right _ (mem_changes.2 ⟨b, h⟩)
  rcases List.mem_append.1 ((accounts_step draw input r).balance.mem_iff.2 hmem) with hd | hd
  · obtain ⟨⟨_, fate⟩, hfate, rfl⟩ := List.mem_map.1 hd
    exact .inr ⟨fate, hfate, holds_fates draw input hr _ hfate⟩
  · have hget := get?_of_mem_changes (wellFormed_step draw input hr).keyed hd
    rw [hr.keyed b d h] at hget
    exact .inl hget

/-! ### Runs -/

theorem fatesOver_append (xs ys : List (Nat × SyncInput)) (r : Replica) :
    fatesOver (xs ++ ys) r = fatesOver xs r ++ fatesOver ys (run xs r).state := by
  induction xs generalizing r with
  | nil => rfl
  | cons x xs ih =>
    rw [List.cons_append, fatesOver, fatesOver, ih, List.append_assoc, run_cons,
      Outcome.andThen_state]

theorem count_fatesOver {fate : Fate} {action : Metric.DeltaAction}
    (h : fate.action? = some action) (inputs : List (Nat × SyncInput)) (r : Replica) :
    Metric.counter (Metric.deltaSeries action) (run inputs r).metrics =
      (fate.among (fatesOver inputs r)).length := by
  have hnot : action ≠ .buffered := by
    rintro rfl
    cases fate <;> cases h
  rw [Metric.counter_delta, ← count_settled hnot, (accounts_run inputs r).counted,
    Fate.count_action h]

/-- **No change gets lost.**  At every moment the changes that arrived are those that were applied,
were found stale, were dropped or were replaced, and those that wait, each of them in one of these
classes as often as it arrived.  The counters of the changes show the sizes of the classes.  And
with whatever happens next, what is settled joins the class of its fate, the fate is what it says,
and whatever else waits goes on waiting where it did. -/
theorem every_change_accounted (limits : Limits) (inputs : List (Nat × SyncInput)) :
    let o := run inputs { limits }
    let settled := fatesOver inputs { limits }
    (Fate.applied.among settled ++ (Fate.stale.among settled ++ (Fate.dropped.among settled ++
        (Fate.replaced.among settled ++ changes o.state.pending)))).Perm (arrived inputs) ∧
      (arrived inputs).length =
        (Fate.applied.among settled).length + (Fate.stale.among settled).length +
          (Fate.dropped.among settled).length + o.state.pending.size +
          (Fate.replaced.among settled).length ∧
      Fate.applied.among settled = appliedOver inputs { limits } ∧
      (∀ fate action, Fate.action? fate = some action →
        Metric.counter (Metric.deltaSeries action) o.metrics = (fate.among settled).length) ∧
      ∀ draw input,
        fatesOver (inputs ++ [(draw, input)]) { limits } = settled ++ o.state.fates input ∧
          (∀ c ∈ o.state.fates input, o.state.Holds draw input c.1 c.2) ∧
          ∀ b d, o.state.pending.get? b = some d →
            (o.state.step draw input).state.pending.get? b = some d ∨
              ∃ fate, (d, fate) ∈ o.state.fates input := by
  intro o settled
  have hr : WellFormed o.state := wellFormed_run limits inputs
  have hbalance : (settled.map Prod.fst ++ changes o.state.pending).Perm (arrived inputs) := by
    have h := (accounts_run inputs { limits }).balance
    rwa [show changes ({ limits } : Replica).pending = [] from rfl, List.append_nil] at h
  have hclasses := ((Fate.perm_classes settled).append_right (changes o.state.pending)).trans
    hbalance
  simp only [List.append_assoc] at hclasses
  refine ⟨hclasses, ?_, among_applied_fatesOver inputs _, ?_, ?_⟩
  · have hlength := hclasses.length_eq
    have hsize : (changes o.state.pending).length = o.state.pending.size := List.length_map _
    simp only [List.length_append, hsize] at hlength
    omega
  · intro fate action h
    exact count_fatesOver h inputs { limits }
  · intro draw input
    refine ⟨?_, holds_fates draw input hr, ?_⟩
    · rw [fatesOver_append, fatesOver, fatesOver, List.append_nil]
    · intro b d hget
      rcases waits_or_fated draw input hr hget with hstill | ⟨fate, hfate, -⟩
      · exact .inl hstill
      · exact .inr ⟨fate, hfate⟩

end Replica

end CallSignaling.Locus
