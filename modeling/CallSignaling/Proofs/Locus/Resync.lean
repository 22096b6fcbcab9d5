import CallSignaling.Proofs.Locus.Fates
import CallSignaling.Proofs.Locus.Reordering

/-!
# Nothing gets lost while a fetch is under way

Changes that arrive during a fetch wait.  The answer takes those with it that have their turn from
there on, and those that arrive later follow.

* `Locus.Snapshot.refresh`: the copy after the answer to a fetch.
* `Locus.Replica.Fetches`: the state during a fetch, in terms of the rest of the chain.
* `Locus.Replica.Resync`: a fetch is under way and is answered, and changes of a chain arrive before
  and after the answer.

During the fetch a change is only noted (`fetches_delta`), the answer advances along the chain
(`fetches_answer`), and hence a resync takes the rest of the chain in turn, each change of it once
(`resync_takes_rest`).
-/

namespace CallSignaling.Locus

/-- The copy `s` after the answer `body` to a fetch, which is a partial copy or a whole one. -/
def Snapshot.refresh (s : Snapshot) (kind : SyncKind) (body : Snapshot) : Snapshot :=
  match kind with
  | .delta => s.merge body
  | .full => body

@[simp] theorem Snapshot.position_refresh (s : Snapshot) (kind : SyncKind) (body : Snapshot) :
    (s.refresh kind body).position = body.position := by
  cases kind <;> rfl

/-- What leads beyond the earlier part of a chain is what waits of the later one. -/
theorem Backlog.Waiting.beyond_stop {p : UInt64} {front rest seen : List Delta} {w : Backlog}
    (h : Waiting (front ++ rest) seen w) (hchain : Delta.Chain p (front ++ rest)) :
    Waiting rest seen (Backlog.beyond (Delta.stop p front) w) := by
  intro b d
  rw [get?_beyond_eq_some, h b d]
  constructor
  · rintro ⟨⟨hd, hseen⟩, hlt⟩
    exact ⟨(hchain.mem_or_le hd).resolve_right (UInt64.not_le.2 hlt), hseen⟩
  · rintro ⟨hd, hseen⟩
    exact ⟨⟨List.mem_append_right front hd, hseen⟩, (Delta.chain_append.1 hchain).2.lt_target hd⟩

namespace Replica

open Backlog

/-! ### During the fetch -/

/-- A fetch is under way, the replica holds `copy`, and what has been `seen` of `rest` waits. -/
structure Fetches (kind : SyncKind) (copy : Snapshot) (rest seen : List Delta) (r : Replica) :
    Prop where
  syncInFlight : r.syncInFlight = some kind
  workingCopy : r.workingCopy = some copy
  destroyed : r.destroyed = false
  waiting : Waiting rest seen r.pending

/-- During a fetch nothing is decided about what waits. -/
theorem reevaluate_of_fetching {r : Replica} {kind : SyncKind} (draw : Nat)
    (hf : r.syncInFlight = some kind) : r.reevaluate draw = .stay r := by
  have hbusy : (r.destroyed || r.syncInFlight.isSome || r.workingCopy.isNone) = true := by
    rw [hf]
    simp
  rw [reevaluate, if_pos hbusy]

section Fetches

variable {kind : SyncKind} {copy : Snapshot} {rest seen : List Delta} {r : Replica}

/-- During a fetch a change comes to wait, unless it lies behind the copy. -/
theorem fetches_delta (draw : Nat) {d : Delta} (h : Fetches kind copy rest seen r)
    (hchain : Delta.Chain copy.position rest) (hd : d ∈ rest ∨ d.target ≤ copy.position) :
    Fetches kind copy rest (seen ++ [d]) (r.step draw (.delta d)).state ∧
      (r.step draw (.delta d)).effects = [] := by
  have hcourse := course_step draw (.delta d) r
  generalize r.step draw (.delta d) = o at hcourse
  cases hcourse with
  | dropped hdead =>
    rw [h.destroyed] at hdead
    cases hdead
  | early _ hc =>
    rw [h.workingCopy] at hc
    cases hc
  | stale _ hc hle =>
    rw [h.workingCopy] at hc
    cases hc
    have hnot : d ∉ rest := fun hmem => UInt64.not_lt.2 hle (hchain.lt_target hmem)
    exact ⟨{ h with waiting := h.waiting.seen_append hnot }, rfl⟩
  | waits _ hc hlt _ =>
    rw [h.workingCopy] at hc
    cases hc
    have hmem : d ∈ rest := hd.resolve_right (UInt64.not_le.2 hlt)
    have hbuffered : Fetches kind copy rest (seen ++ [d]) (r.buffer d).state :=
      ⟨h.syncInFlight, h.workingCopy, h.destroyed, h.waiting.insert hchain hmem⟩
    rw [Outcome.andThen_state, Outcome.andThen_effects,
      reevaluate_of_fetching draw hbuffered.syncInFlight]
    exact ⟨hbuffered, rfl⟩
  | turn _ hn =>
    have hf := hn.2.1
    rw [h.syncInFlight] at hf
    cases hf

/-- What does not lead beyond the copy that is taken does not matter. -/
theorem Moves.of_beyond {draw : Nat} {lead : List Snapshot} {o : Outcome Replica SyncEffect}
    (h : Moves draw r lead copy o) :
    Moves draw { r with pending := beyond copy.position r.pending } lead copy o := by
  have hcaught : caughtUp copy { r with pending := beyond copy.position r.pending } =
      r.caughtUp copy := by
    simp only [caughtUp, turnsFrom, beyond_beyond]
  have hturns : turnsFrom copy.position { r with pending := beyond copy.position r.pending } =
      r.turnsFrom copy.position := by
    simp only [turnsFrom, beyond_beyond]
  constructor
  · rw [hcaught, h.state]
  · rw [hcaught, hturns, h.effects]

theorem adopt_of_copy (kind : SyncKind) (body : Snapshot) (hc : r.workingCopy = some copy) :
    (r.adopt kind body).workingCopy = some (copy.refresh kind body) := by
  cases kind <;> simp [adopt, hc, Snapshot.refresh]

/-- The answer takes the first part of what is left of the chain with it. -/
theorem fetches_answer (draw : Nat) {body : Snapshot} {mid : List Delta}
    (h : Fetches kind copy (mid ++ rest) seen r)
    (hchain : Delta.Chain copy.position (mid ++ rest))
    (hbody : body.position = Delta.stop copy.position mid)
    (hshort : rest.length - 1 ≤ r.limits.maxOutOfOrder) :
    Advances [copy.refresh kind body] (copy.refresh kind body) rest seen
      (r.step draw (.syncResult kind (.ok (some body)))) := by
  have hcourse := course_step draw (.syncResult kind (.ok (some body))) r
  generalize r.step draw (.syncResult kind (.ok (some body))) = o at hcourse
  cases hcourse with
  | unexpected hf => exact absurd h.syncInFlight hf
  | fetched _ hc _ ho =>
    rw [adopt_of_copy kind body h.workingCopy] at hc
    cases hc
    have hlater : Delta.Chain (copy.refresh kind body).position rest := by
      rw [Snapshot.position_refresh, hbody]
      exact (Delta.chain_append.1 hchain).2
    have hwaiting : Waiting rest seen (beyond (copy.refresh kind body).position r.pending) := by
      rw [Snapshot.position_refresh, hbody]
      exact h.waiting.beyond_stop hchain
    exact ho.of_beyond.advances rfl h.destroyed hlater hshort hwaiting

end Fetches

/-! ### A fetch and its answer -/

/-- The replica holds `copy` and a fetch is under way, which is answered with `body`.  The changes
`ds` lead upwards from position `p`, the first `i` of them to the copy and the first `k` to the
body.  Some of them wait, and some arrive before and after the answer. -/
structure Resync (p : UInt64) (ds : List Delta) (i k : Nat) (kind : SyncKind)
    (copy body : Snapshot) (before after : List (Nat × Delta)) (r : Replica) : Prop where
  syncInFlight : r.syncInFlight = some kind
  workingCopy : r.workingCopy = some copy
  chain : Delta.Chain p ds
  held : copy.position = Delta.stop p (ds.take i)
  fetched : body.position = Delta.stop p (ds.take k)
  ahead : i ≤ k
  /-- Not more of the changes after the body may be early than are allowed to wait. -/
  short : ds.length - k - 1 ≤ r.limits.maxOutOfOrder
  waiting : ∀ d ∈ changes r.pending, d ∈ ds
  arriving : ∀ a ∈ before ++ after, a.2 ∈ ds
  /-- Every change after the body waits or arrives. -/
  complete : ∀ d ∈ ds.drop k, d ∈ changes r.pending ∨ d ∈ (before ++ after).map Prod.snd

section Resync

variable {p : UInt64} {ds : List Delta} {i k : Nat} {kind : SyncKind} {copy body : Snapshot}
  {before after : List (Nat × Delta)} {r : Replica}

theorem Resync.chain_held (h : Resync p ds i k kind copy body before after r) :
    Delta.Chain copy.position (ds.drop i) := by
  have hchain := h.chain
  rw [← List.take_append_drop i ds, Delta.chain_append] at hchain
  rw [h.held]
  exact hchain.2

/-- A change of the chain lies behind the copy held or is among those after it. -/
theorem Resync.mem_or_le (h : Resync p ds i k kind copy body before after r) {d : Delta}
    (hd : d ∈ ds) : d ∈ ds.drop i ∨ d.target ≤ copy.position := by
  have hchain := h.chain
  rw [← List.take_append_drop i ds] at hchain hd
  rw [h.held]
  exact hchain.mem_or_le hd

/-- At the start, what waits is what waits of the changes after the copy. -/
theorem Resync.fetches (h : Resync p ds i k kind copy body before after r) (hr : WellFormed r) :
    Fetches kind copy (ds.drop i) (changes r.pending) r where
  syncInFlight := h.syncInFlight
  workingCopy := h.workingCopy
  destroyed := hr.destroyed_eq_false (h.syncInFlight ▸ Option.some_ne_none kind)
  waiting := by
    intro b d
    constructor
    · intro hget
      have hmem : d ∈ changes r.pending := mem_changes.2 ⟨b, hget⟩
      have hlt := hr.ahead copy h.workingCopy b d hget
      exact ⟨(h.mem_or_le (h.waiting d hmem)).resolve_right (UInt64.not_le.2 hlt), hmem,
        hr.keyed b d hget⟩
    · rintro ⟨-, hmem, rfl⟩
      exact get?_of_mem_changes hr.keyed hmem

/-- With all of the rest seen, an outcome that advances along it has taken all of it. -/
theorem Advances.complete {s : Snapshot} {rest seen : List Delta} {o : Outcome Replica SyncEffect}
    (h : Advances [s] s rest seen o) (hseen : ∀ d ∈ rest, d ∈ seen) :
    SyncEffect.copies o.effects = rest.scanl Snapshot.apply s ∧ (∀ e ∈ o.effects, e.Local) ∧
      Follows (rest.foldl Snapshot.apply s) [] seen o.state := by
  obtain ⟨turns, later, hrest, hend, hcopies, hlocal⟩ := h
  obtain rfl : later = [] := by
    refine hend.rest_eq_nil fun d hd => hseen d ?_
    rw [hrest]
    exact List.mem_append_right turns hd
  rw [List.append_nil] at hrest
  subst hrest
  refine ⟨?_, hlocal, hend⟩
  rw [hcopies, Snapshot.scanl_apply]
  rfl

/-- Where nothing of the chain is left, nothing waits. -/
theorem Follows.pending_eq_empty {seen : List Delta} (h : Follows copy [] seen r) :
    r.pending = ∅ := by
  refine SortedMap.eq_empty_iff.2 fun b => Option.eq_none_iff_forall_ne_some.2 fun d hget => ?_
  exact List.not_mem_nil ((h.waiting b d).1 hget).1

/-- The answer and what arrives after it lead along the rest of the chain. -/
theorem Resync.advances (h : Resync p ds i k kind copy body before after r) (draw : Nat)
    {seen : List Delta} {s : Replica} (hs : Fetches kind copy (ds.drop i) seen s)
    (hlimits : s.limits = r.limits) :
    Advances [copy.refresh kind body] (copy.refresh kind body) (ds.drop k)
      (seen ++ after.map Prod.snd)
      (run ((draw, .syncResult kind (.ok (some body))) :: deltaInputs after) s) := by
  obtain ⟨j, rfl⟩ := Nat.exists_eq_add_of_le h.ahead
  -- the changes between the copy and the body come first
  have hsplit : ds.drop i = (ds.drop i).take j ++ ds.drop (i + j) := by
    rw [← List.drop_drop, List.take_append_drop]
  have hbody : body.position = Delta.stop copy.position ((ds.drop i).take j) := by
    rw [h.fetched, List.take_add, Delta.stop_append, h.held]
  have hchain := h.chain_held
  rw [hsplit] at hs hchain
  have hshort : (ds.drop (i + j)).length - 1 ≤ s.limits.maxOutOfOrder := by
    rw [List.length_drop, hlimits]
    exact h.short
  rw [run_cons]
  refine (fetches_answer draw hs hchain hbody hshort).andThen ?_
  intro turns later hrest hnow
  refine follows_run hnow fun a ha => ?_
  have hmem : a.2 ∈ ds := h.arriving a (List.mem_append_right before ha)
  have hall := h.chain
  rw [← List.take_append_drop (i + j) ds] at hall hmem
  rw [hrest] at hall hmem
  rw [← List.append_assoc] at hall hmem
  rcases hall.mem_or_le hmem with hlater | hle
  · exact .inl hlater
  · refine .inr ?_
    rwa [Snapshot.position_foldl_apply, Snapshot.position_refresh, h.fetched, ← Delta.stop_append]

end Resync

/-- **Nothing gets lost across a resync.**  While the fetch is under way no change is applied.  With
the answer the replica publishes the copy refreshed and then the copy after each of the changes that
lead beyond it, in the order of the chain, however they arrive and however often.  It fetches
nothing more, and nothing is left to wait for. -/
theorem resync_takes_rest {limits : Limits} {inputs : List (Nat × SyncInput)} {p : UInt64}
    {ds : List Delta} {i k : Nat} {kind : SyncKind} {copy body : Snapshot}
    {before after : List (Nat × Delta)} (draw : Nat)
    (h : Resync p ds i k kind copy body before after (run inputs { limits }).state) :
    let early := run (deltaInputs before) (run inputs { limits }).state
    let late := run ((draw, .syncResult kind (.ok (some body))) :: deltaInputs after) early.state
    early.effects = [] ∧ early.state.workingCopy = some copy ∧
      SyncEffect.copies late.effects = (ds.drop k).scanl Snapshot.apply (copy.refresh kind body) ∧
      (∀ e ∈ late.effects, e.Local) ∧
      late.state.workingCopy = some ((ds.drop k).foldl Snapshot.apply (copy.refresh kind body)) ∧
      late.state.pending = ∅ ∧ late.state.syncInFlight = none := by
  intro early late
  have hstart := h.fetches (wellFormed_run limits inputs)
  obtain ⟨hearly, heffects⟩ := quiet_run
    (fun draw _ _ _ hs hd => fetches_delta draw hs h.chain_held (h.mem_or_le hd)) hstart
    fun a ha => h.arriving a (List.mem_append_left after ha)
  have hadvances := h.advances draw hearly (limits_run _ _)
  obtain ⟨hcopies, hlocal, hend⟩ := hadvances.complete fun d hd => by
    rw [List.append_assoc, ← List.map_append, List.mem_append]
    exact h.complete d hd
  exact ⟨heffects, hearly.workingCopy, hcopies, hlocal, hend.workingCopy, hend.pending_eq_empty,
    hend.syncInFlight⟩

/-- A copy that knows where to fetch what changed. -/
def gapCopy : Snapshot := { url := "u", sequence := .range 1 10, syncUrl := some "s" }

/-- The changes after it. -/
def gapChanges : List Delta := [.range 10 20, .range 20 30, .range 30 40, .range 40 50]

/-- The second of the changes arrives first, and a fetch for the gap starts. -/
def gap : Replica :=
  (run [(0, .full gapCopy), (0, .delta (.range 20 30)), (0, .stallTimeout)]
    { limits := ⟨5, 2000, 1000⟩ }).state

/-- The last of the changes arrives before the answer, which brings the first, and the others arrive
after it. -/
theorem resync_gap :
    Resync 10 gapChanges 0 1 .delta gapCopy { sequence := .range 1 20 } [(0, .range 40 50)]
      [(0, .range 10 20), (0, .range 30 40)] gap := by
  have hwaiting : changes gap.pending = [.range 20 30] := by rfl
  exact {
    syncInFlight := by decide +kernel
    workingCopy := by rfl
    chain := ⟨by decide, by decide, by decide, by decide, by decide, by decide, by decide,
      by decide, trivial⟩
    held := by decide
    fetched := by decide
    ahead := by decide
    short := by decide +kernel
    waiting := by simp [hwaiting, gapChanges]
    arriving := by simp [gapChanges]
    complete := by simp [hwaiting, gapChanges] }

/-- The three changes after the answer are applied in their order. -/
theorem resync_takes_rest_gap :
    let body : Snapshot := { sequence := .range 1 20 }
    let early := run (deltaInputs [(0, .range 40 50)]) gap
    let late := run ((0, .syncResult .delta (.ok (some body))) ::
      deltaInputs [(0, .range 10 20), (0, .range 30 40)]) early.state
    Resync 10 gapChanges 0 1 .delta gapCopy body [(0, .range 40 50)]
        [(0, .range 10 20), (0, .range 30 40)] gap ∧
      early.effects = [] ∧ early.state.workingCopy = some gapCopy ∧
      SyncEffect.copies late.effects =
        (gapChanges.drop 1).scanl Snapshot.apply (gapCopy.refresh .delta body) ∧
      (∀ e ∈ late.effects, e.Local) ∧
      late.state.workingCopy =
        some ((gapChanges.drop 1).foldl Snapshot.apply (gapCopy.refresh .delta body)) ∧
      late.state.pending = ∅ ∧ late.state.syncInFlight = none :=
  ⟨resync_gap, resync_takes_rest 0 resync_gap⟩

end Replica

end CallSignaling.Locus
