import CallSignaling.Proofs.Locus.Accounting

/-!
# What is published

Whoever listens to a replica sees every working copy, and each of them for a reason.

* `Locus.Justified`: each of a list of copies is the one before it with a change on it, which was
  handed in and has its turn there.
* `Locus.SyncInput.offered?`: the copy that an input offers in place of the one held.

Main statements: a step applies only what has arrived (`mem_arrived_of_applied`), and hence every
step of every run publishes the copy offered, if it takes that, and then only what is justified, and
leaves the copy that it publishes last (`publications_justified`).
-/

namespace CallSignaling.Locus

/-- Each of the copies, from the one held on, is the one before it with one of the changes of
`handed` on it, which starts where that copy is and leads beyond it. -/
inductive Justified (handed : List Delta) : Option Snapshot → List Snapshot → Prop
  | nil (held : Option Snapshot) : Justified handed held []
  | cons {copy : Snapshot} {d : Delta} {rest : List Snapshot} (hd : d ∈ handed)
      (hbase : d.base = copy.position) (hlt : copy.position < d.target)
      (hrest : Justified handed (some (copy.apply d)) rest) :
      Justified handed (some copy) (copy.apply d :: rest)

/-- The changes of a chain justify the copies along it. -/
theorem justified_trail {handed ds : List Delta} {copy : Snapshot}
    (hchain : Delta.Chain copy.position ds) (h : ∀ d ∈ ds, d ∈ handed) :
    Justified handed (some copy) (copy.trail ds) := by
  induction ds generalizing copy with
  | nil => exact .nil _
  | cons d ds ih =>
    obtain ⟨hbase, hlt, hrest⟩ := hchain
    exact .cons (h d List.mem_cons_self) hbase hlt
      (ih hrest fun e he => h e (List.mem_cons_of_mem d he))

/-- The last copy of a trail is the one with all the changes. -/
theorem Snapshot.getLast?_trail (s : Snapshot) (ds : List Delta) :
    (s.trail ds).getLast?.or (some s) = some (ds.foldl apply s) := by
  induction ds generalizing s with
  | nil => rfl
  | cons d ds ih =>
    rw [trail, List.getLast?_cons, Option.some_or, List.foldl_cons, ← ih]
    cases ((s.apply d).trail ds).getLast? <;> rfl

/-- The copy that an input offers in place of the one held: a whole copy that arrived, or what a
fetch brought, a partial copy merged into the one held. -/
def SyncInput.offered? (held : Option Snapshot) : SyncInput → Option Snapshot
  | .full snapshot => some snapshot
  | .syncResult .full (.ok (some fetched)) => some fetched
  | .syncResult .delta (.ok (some fetched)) =>
    some ((held.map (·.merge fetched)).getD fetched)
  | _ => none

namespace Replica

open Backlog

theorem adopt_workingCopy (kind : SyncKind) (fetched : Snapshot) (r : Replica) :
    (r.adopt kind fetched).workingCopy =
      (SyncInput.syncResult kind (.ok (some fetched))).offered? r.workingCopy := by
  cases kind with
  | full => rfl
  | delta =>
    obtain ⟨_, workingCopy, _⟩ := r
    cases workingCopy <;> rfl

/-- What is adopted was offered. -/
theorem offered?_of_adopted {input : SyncInput} {r : Replica} {copy : Snapshot}
    (h : r.adopted? input = some copy) : input.offered? r.workingCopy = some copy := by
  cases input with
  | full snapshot =>
    by_cases ha : r.Accepts snapshot
    · rwa [adopted?, if_pos ha] at h
    · rw [adopted?, if_neg ha] at h
      cases h
  | delta d => cases h
  | stallTimeout => cases h
  | syncResult kind result =>
    rcases result with e | _ | fetched
    · cases h
    · cases h
    · by_cases hf : r.syncInFlight = some kind
      · rwa [adopted?, if_pos hf, adopt_workingCopy] at h
      · rw [adopted?, if_neg hf] at h
        cases h

/-- The working copy after a step is what the step published last, or else what it was. -/
theorem workingCopy_step (draw : Nat) (input : SyncInput) (r : Replica) :
    (r.step draw input).state.workingCopy =
      (SyncEffect.copies (r.step draw input).effects).getLast?.or r.workingCopy := by
  obtain ⟨-, hcopy, hcopies⟩ := step_moves draw input r
  rw [hcopy, hcopies, List.getLast?_append]
  cases hadopted : r.adopted? input with
  | some copy =>
    show some _ = ((copy.trail _).getLast?.or (some copy)).or _
    rw [Snapshot.getLast?_trail, Option.some_or]
  | none =>
    rw [Option.none_or]
    cases hc : r.workingCopy with
    | none => rfl
    | some copy =>
      show some _ = ((copy.trail _).getLast?.or none).or (some copy)
      rw [Option.or_none, Snapshot.getLast?_trail]

/-- What waits after a run has arrived. -/
theorem mem_arrived_of_pending {limits : Limits} {inputs : List (Nat × SyncInput)} {d : Delta}
    (h : d ∈ changes (run inputs { limits }).state.pending) : d ∈ arrived inputs := by
  have hbalance := (accounts_run inputs { limits }).balance
  have hmem := hbalance.mem_iff.1 (List.mem_append_right _ h)
  rwa [show changes ({ limits } : Replica).pending = [] from rfl, List.append_nil] at hmem

/-- What a step applies has arrived, before or with its input. -/
theorem mem_arrived_of_applied (draw : Nat) {limits : Limits} {inputs : List (Nat × SyncInput)}
    {input : SyncInput} {d : Delta} (h : d ∈ (run inputs { limits }).state.applied input) :
    d ∈ arrived (inputs ++ [(draw, input)]) := by
  let r := (run inputs { limits }).state
  have hfate : d ∈ (r.fates input).map Prod.fst := by
    rw [← among_applied_fates] at h
    obtain ⟨c, hc, rfl⟩ := List.mem_map.1 h
    exact List.mem_map_of_mem (List.mem_of_mem_filter hc)
  have hbalance := (accounts_step draw input r).balance
  rw [arrived_append]
  rcases List.mem_append.1 (hbalance.mem_iff.1 (List.mem_append_left _ hfate)) with hnow | hwaited
  · refine List.mem_append_right _ ?_
    rw [arrived_cons]
    exact List.mem_append_left _ hnow
  · exact List.mem_append_left _ (mem_arrived_of_pending hwaited)

/-- **Every working copy is published, and each for a reason.**  In every run, the working copy
after a step is what the step published last, or what it was if there is none.  What a step
publishes is one change after another on the copy held, each of them handed in by then and having
its turn; but before these the step may take and publish the copy that its input offers. -/
theorem publications_justified (limits : Limits) (inputs : List (Nat × SyncInput)) (draw : Nat)
    (input : SyncInput) :
    let r := (run inputs { limits }).state
    let o := r.step draw input
    let handed := arrived (inputs ++ [(draw, input)])
    o.state.workingCopy = (SyncEffect.copies o.effects).getLast?.or r.workingCopy ∧
      (Justified handed r.workingCopy (SyncEffect.copies o.effects) ∨
        ∃ copy rest, SyncEffect.copies o.effects = copy :: rest ∧
          input.offered? r.workingCopy = some copy ∧ Justified handed (some copy) rest) := by
  intro r o handed
  have hk : Keyed r.pending := (wellFormed_run limits inputs).keyed
  have hhanded : ∀ d ∈ r.applied input, d ∈ handed := fun d hd => mem_arrived_of_applied draw hd
  refine ⟨workingCopy_step draw input r, ?_⟩
  rw [(step_moves draw input r).2.2]
  cases hadopted : r.adopted? input with
  | some copy =>
    have hcopy : (r.adopted? input).or r.workingCopy = some copy := by
      rw [hadopted]
      rfl
    exact .inr ⟨copy, copy.trail (r.applied input), rfl, offered?_of_adopted hadopted,
      justified_trail (chain_applied hk hcopy) hhanded⟩
  | none =>
    rw [Option.none_or]
    cases hc : r.workingCopy with
    | none => exact .inl (.nil _)
    | some copy =>
      have hcopy : (r.adopted? input).or r.workingCopy = some copy := by
        rw [hadopted, hc]
        rfl
      exact .inl (justified_trail (chain_applied hk hcopy) hhanded)

end Replica

end CallSignaling.Locus
