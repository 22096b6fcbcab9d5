import CallSignaling.Proofs.Roap.Exchange
import CallSignaling.Proofs.Roap.Lookup

/-!
# The count of exchanges under way

A session keeps a count beside its exchanges, which creation, the first end and removal of an
exchange change.  The exchanges themselves say what the count has to be.

* `Roap.Session.unfinished`: the number of exchanges that have not finished.
* `Roap.Session.Counted`: the count is that number.
* `Roap.SessionTable.Operation`, `Roap.SessionTable.apply`, `Roap.SessionTable.run`: what can be done
  to a table, and the table after it.
* `Roap.SessionTable.hasFinished`, `Roap.SessionTable.timesFinished`: whether an exchange has been
  finished, and how often a list of operations says that it does that.

Every operation on a session keeps it counted (`counted_openExchange` and its like), so every
operation on the table keeps all sessions counted (`counted_apply`), and with that every list of
operations.  An exchange that is not removed finishes at most once (`timesFinished_add`).
-/

namespace CallSignaling.Roap

namespace Session

/-- The number of exchanges that have not finished. -/
def unfinished (s : Session) : Nat := s.exchanges.entries.countP fun p => !p.2.finished

/-- The count is the number of exchanges that have not finished. -/
def Counted (s : Session) : Prop := s.active = s.unfinished

/-- What an exchange adds to the count. -/
def weight (x : Exchange) : Nat := if x.finished then 0 else 1

theorem counted_new : Counted {} := rfl

/-- An exchange that is put in place is counted with those that are not in its place. -/
theorem unfinished_insert (s : Session) (seq : UInt64) (x : Exchange) (active : Nat) :
    unfinished { exchanges := s.exchanges.insert seq x, active } =
      unfinished { exchanges := s.exchanges.erase seq, active } + weight x := by
  unfold unfinished weight
  rw [(s.exchanges.entries_insert seq x).countP_eq, List.countP_cons]
  cases x.finished <;> rfl

/-- An exchange that is there is counted with the others. -/
theorem unfinished_of_some {s : Session} {seq : UInt64} {x : Exchange}
    (h : s.exchange? seq = some x) (active : Nat) :
    s.unfinished = unfinished { exchanges := s.exchanges.erase seq, active } + weight x := by
  unfold unfinished weight
  rw [(SortedMap.entries_of_get? h).countP_eq, List.countP_cons]
  cases x.finished <;> rfl

theorem unfinished_of_none {s : Session} {seq : UInt64} (h : s.exchange? seq = none)
    (active : Nat) :
    s.unfinished = unfinished { exchanges := s.exchanges.erase seq, active } := by
  unfold unfinished
  rw [SortedMap.erase_of_get? h]

theorem counted_openExchange {s : Session} (h : s.Counted) (seq : UInt64) :
    (s.openExchange seq).Counted := by
  cases hx : s.exchange? seq with
  | some x => rwa [openExchange_of_some hx]
  | none =>
    rw [openExchange_of_none hx, Counted, unfinished_insert, ← unfinished_of_none hx]
    exact congrArg (· + 1) h

/-- A change that leaves the end of an exchange alone leaves the count alone. -/
theorem counted_modify {s : Session} (h : s.Counted) (seq : UInt64) {f : Exchange → Exchange}
    (hf : ∀ x, s.exchange? seq = some x → (f x).finished = x.finished) :
    (s.modify seq f).Counted := by
  unfold modify
  split
  · rename_i x hx
    rw [Counted, unfinished_insert, weight, hf x hx, ← weight, ← unfinished_of_some hx]
    exact h
  · exact h

/-- Nothing is lost when one is taken off for the end of an exchange. -/
theorem active_finish {s : Session} (h : s.Counted) {seq : UInt64} {x : Exchange}
    (hx : s.exchange? seq = some x) (hf : x.finished = false) :
    (s.finish seq).1.active + 1 = s.active := by
  have hcount := unfinished_of_some hx s.active
  rw [weight, hf, ← h] at hcount
  rw [finish_of_unfinished hx hf]
  exact Nat.sub_add_cancel (hcount ▸ Nat.succ_pos _)

/-- Nothing is lost when one is taken off for the removal of an exchange under way. -/
theorem active_dropExchange {s : Session} (h : s.Counted) {seq : UInt64} {x : Exchange}
    (hx : s.exchange? seq = some x) (hf : x.finished = false) :
    (s.dropExchange seq).active + 1 = s.active := by
  have hcount := unfinished_of_some hx s.active
  rw [weight, hf, ← h] at hcount
  simp only [dropExchange, hx, hf, Bool.false_eq_true, if_false]
  exact Nat.sub_add_cancel (hcount ▸ Nat.succ_pos _)

theorem counted_finish {s : Session} (h : s.Counted) (seq : UInt64) : (s.finish seq).1.Counted := by
  cases hx : s.exchange? seq with
  | none => rwa [finish_of_none hx]
  | some x =>
    cases hf : x.finished with
    | true => rwa [finish_of_finished hx hf]
    | false =>
      have hcount := unfinished_of_some hx (s.active - 1)
      rw [weight, hf] at hcount
      rw [finish_of_unfinished hx hf, Counted, unfinished_insert, weight]
      show s.active - 1 = _ + 0
      rw [h, hcount]
      rfl

theorem counted_dropExchange {s : Session} (h : s.Counted) (seq : UInt64) :
    (s.dropExchange seq).Counted := by
  unfold dropExchange
  split
  · rename_i x hx
    cases hf : x.finished with
    | true =>
      have hcount := unfinished_of_some hx s.active
      rw [weight, hf] at hcount
      exact h.trans hcount
    | false =>
      have hcount := unfinished_of_some hx (s.active - 1)
      rw [weight, hf, ← h] at hcount
      exact Nat.sub_eq_of_eq_add hcount
  · exact h

/-- A positive count means that an exchange is under way. -/
theorem active_pos_iff {s : Session} (h : s.Counted) :
    0 < s.active ↔ ∃ seq x, s.exchange? seq = some x ∧ x.finished = false := by
  constructor
  · intro hpos
    rw [h, unfinished, List.countP_pos_iff] at hpos
    obtain ⟨⟨seq, x⟩, hmem, hf⟩ := hpos
    exact ⟨seq, x, SortedMap.get?_eq_some_iff.2 hmem, by simpa using hf⟩
  · rintro ⟨seq, x, hx, hf⟩
    rw [← active_finish h hx hf]
    exact Nat.succ_pos _

end Session

/-! ### Operations on the table -/

namespace Exchange

/-- What can be done with an exchange. -/
inductive Use where
  | store (message : Message) (side : Side)
  | step (signal : Signal)
  | resolveGlare
  deriving DecidableEq, Repr

/-- The exchange after a use.  Without two offers there is no glare to resolve. -/
def use (x : Exchange) : Use → Exchange
  | .store message side => (x.store message side).1
  | .step signal => x.step signal
  | .resolveGlare => (x.resolveGlare?.map (·.1)).getD x

/-- Only `finish` ends an exchange. -/
theorem finished_use (x : Exchange) (use : Use) : (x.use use).finished = x.finished := by
  cases use with
  | store message side => exact (store_keeps x message side).2
  | step signal => rfl
  | resolveGlare =>
    rw [Exchange.use]
    cases hx : x.resolveGlare? with
    | none => rfl
    | some settled =>
      obtain ⟨_, _, _, -, -, hsettled, -⟩ := of_resolveGlare? hx
      simp [hsettled]

theorem finished_uses (uses : List Use) (x : Exchange) :
    (uses.foldl use x).finished = x.finished := by
  induction uses generalizing x with
  | nil => rfl
  | cons u uses ih => rw [List.foldl_cons, ih, finished_use]

end Exchange

namespace SessionTable

/-- What can be done to a table. -/
inductive Operation where
  | openSession (meeting : String)
  /-- The exchange is looked up, or created, and then used. -/
  | openExchange (meeting : String) (seq : UInt64) (uses : List Exchange.Use)
  | finish (meeting : String) (seq : UInt64)
  | dropExchange (meeting : String) (seq : UInt64)
  | dropSession (meeting : String)
  deriving DecidableEq, Repr

/-- The table after an operation. -/
def apply (t : SessionTable) : Operation → SessionTable
  | .openSession meeting => t.openSession meeting
  | .openExchange meeting seq uses =>
    (t.openExchange meeting seq).modify meeting seq (uses.foldl Exchange.use)
  | .finish meeting seq => (t.finish meeting seq).1
  | .dropExchange meeting seq => t.dropExchange meeting seq
  | .dropSession meeting => t.dropSession meeting

/-- The table after operations in turn. -/
def run (operations : List Operation) (t : SessionTable) : SessionTable :=
  operations.foldl apply t

/-- Whether an operation removes an exchange. -/
def Operation.Drops (meeting : String) (seq : UInt64) : Operation → Prop
  | .dropExchange m s => m = meeting ∧ s = seq
  | .dropSession m => m = meeting
  | _ => False

/-- Whether an operation is the first end of an exchange, and says so. -/
def Operation.finishes (meeting : String) (seq : UInt64) (t : SessionTable) : Operation → Bool
  | .finish m s => m = meeting && s = seq && (t.finish m s).2
  | _ => false

/-- How many of the operations say that they have ended an exchange. -/
def timesFinished (meeting : String) (seq : UInt64) : List Operation → SessionTable → Nat
  | [], _ => 0
  | operation :: operations, t =>
    (operation.finishes meeting seq t).toNat +
      timesFinished meeting seq operations (t.apply operation)

/-! ### The count of every session -/

/-- All sessions are counted. -/
def Counted (t : SessionTable) : Prop := ∀ meeting s, t.session? meeting = some s → s.Counted

theorem counted_new : Counted {} := by
  rintro meeting s ⟨⟩

theorem counted_onSession {t : SessionTable} (h : t.Counted) (meeting : String)
    {f : Session → Session}
    (hf : ∀ s : Session, t.session? meeting = some s → s.Counted → (f s).Counted) :
    (t.onSession meeting f).Counted := by
  intro other s hs
  rw [session?_onSession] at hs
  split at hs
  · obtain ⟨s', hs', rfl⟩ := Option.map_eq_some_iff.1 hs
    exact hf s' hs' (h meeting s' hs')
  · exact h other s hs

theorem counted_openSession {t : SessionTable} (h : t.Counted) (meeting : String) :
    (t.openSession meeting).Counted := by
  intro other s hs
  rw [session?_openSession] at hs
  split at hs
  · cases hs' : t.session? meeting with
    | none =>
      rw [hs', Option.getD_none, Option.some.injEq] at hs
      rw [← hs]
      exact Session.counted_new
    | some s' =>
      rw [hs', Option.getD_some, Option.some.injEq] at hs
      exact hs ▸ h meeting s' hs'
  · exact h other s hs

theorem counted_openExchange {t : SessionTable} (h : t.Counted) (meeting : String) (seq : UInt64) :
    (t.openExchange meeting seq).Counted :=
  counted_onSession (counted_openSession h meeting) meeting fun _ _ hs =>
    Session.counted_openExchange hs seq

theorem counted_modify {t : SessionTable} (h : t.Counted) (meeting : String) (seq : UInt64)
    {f : Exchange → Exchange}
    (hf : ∀ x, t.exchange? meeting seq = some x → (f x).finished = x.finished) :
    (t.modify meeting seq f).Counted := by
  refine counted_onSession h meeting fun s hs hcounted => ?_
  refine Session.counted_modify hcounted seq fun x hx => hf x ?_
  rw [exchange?, hs]
  exact hx

theorem counted_finish {t : SessionTable} (h : t.Counted) (meeting : String) (seq : UInt64) :
    (t.finish meeting seq).1.Counted := by
  rw [finish_fst]
  exact counted_onSession h meeting fun _ _ hs => Session.counted_finish hs seq

theorem counted_dropExchange {t : SessionTable} (h : t.Counted) (meeting : String)
    (seq : UInt64) : (t.dropExchange meeting seq).Counted :=
  counted_onSession h meeting fun _ _ hs => Session.counted_dropExchange hs seq

theorem counted_dropSession {t : SessionTable} (h : t.Counted) (meeting : String) :
    (t.dropSession meeting).Counted := by
  intro other s hs
  rw [session?_dropSession] at hs
  split at hs
  · cases hs
  · exact h other s hs

theorem counted_apply {t : SessionTable} (h : t.Counted) (operation : Operation) :
    (t.apply operation).Counted := by
  cases operation with
  | openSession meeting => exact counted_openSession h meeting
  | openExchange meeting seq uses =>
    exact counted_modify (counted_openExchange h meeting seq) meeting seq fun x _ =>
      Exchange.finished_uses uses x
  | finish meeting seq => exact counted_finish h meeting seq
  | dropExchange meeting seq => exact counted_dropExchange h meeting seq
  | dropSession meeting => exact counted_dropSession h meeting

theorem counted_run (operations : List Operation) {t : SessionTable} (h : t.Counted) :
    (run operations t).Counted := by
  induction operations generalizing t with
  | nil => exact h
  | cons operation operations ih => exact ih (counted_apply h operation)

theorem isBusy_iff {t : SessionTable} (h : t.Counted) (meeting : String) :
    t.isBusy meeting = true ↔
      ∃ seq x, t.exchange? meeting seq = some x ∧ x.finished = false := by
  unfold isBusy exchange?
  cases hs : t.session? meeting with
  | none => simp
  | some s => simpa using Session.active_pos_iff (h meeting s hs)

/-! ### Ends of an exchange -/

/-- Whether an exchange is there and its end has been announced. -/
def hasFinished (t : SessionTable) (meeting : String) (seq : UInt64) : Bool :=
  (t.exchange? meeting seq).any (·.finished)

/-- Unless it removes the exchange, an operation that ends it finds it without its end, and all
others leave its end as it is. -/
theorem finishes_add (t : SessionTable) {meeting : String} {seq : UInt64} {operation : Operation}
    (h : ¬ operation.Drops meeting seq) :
    (operation.finishes meeting seq t).toNat + (t.hasFinished meeting seq).toNat =
      ((t.apply operation).hasFinished meeting seq).toNat := by
  unfold hasFinished
  cases operation with
  | openSession m => simp [Operation.finishes, apply, exchange?_openSession]
  | openExchange m s uses =>
    -- a new exchange has not finished, and no use of one changes that
    rw [apply, exchange?_modify, exchange?_openExchange, exchange?_openExchange]
    by_cases hpair : meeting = m ∧ seq = s
    · obtain ⟨rfl, rfl⟩ := hpair
      cases t.exchange? meeting seq with
      | none => simp [Operation.finishes, Exchange.finished_uses]
      | some x => simp [Operation.finishes, Exchange.finished_uses]
    · simp [Operation.finishes, hpair]
  | finish m s =>
    rw [apply, exchange?_finish]
    by_cases hpair : meeting = m ∧ seq = s
    · obtain ⟨rfl, rfl⟩ := hpair
      cases hx : t.exchange? meeting seq with
      | none => simp [Operation.finishes, finish_snd, hx]
      | some x => cases hf : x.finished <;> simp [Operation.finishes, finish_snd, hx, hf]
    · have hother : ¬ (m = meeting ∧ s = seq) := fun heq => hpair ⟨heq.1.symm, heq.2.symm⟩
      simp [Operation.finishes, hpair, hother]
  | dropExchange m s =>
    have hother : ¬ (meeting = m ∧ seq = s) := fun heq => h ⟨heq.1.symm, heq.2.symm⟩
    rw [apply, exchange?_dropExchange, if_neg hother]
    exact Nat.zero_add _
  | dropSession m =>
    rw [apply, exchange?_dropSession, if_neg (Ne.symm h)]
    exact Nat.zero_add _

/-- An exchange that is not removed has come to its end as often as it has said so. -/
theorem timesFinished_add (meeting : String) (seq : UInt64) (operations : List Operation)
    (t : SessionTable) (h : ∀ operation ∈ operations, ¬ operation.Drops meeting seq) :
    timesFinished meeting seq operations t + (t.hasFinished meeting seq).toNat =
      ((run operations t).hasFinished meeting seq).toNat := by
  induction operations generalizing t with
  | nil => exact Nat.zero_add _
  | cons operation operations ih =>
    obtain ⟨hop, hops⟩ := List.forall_mem_cons.1 h
    have hfirst := finishes_add t hop
    have hrest := ih (t.apply operation) hops
    rw [timesFinished]
    show _ = ((run operations (t.apply operation)).hasFinished meeting seq).toNat
    omega

/-- After any operations on a new table the count of each session is the number of its exchanges
that have not finished, one can be taken off for each of them, the count tells whether there is one,
and from there on an exchange that is not removed comes to its end at most once. -/
theorem run_accounts (operations : List Operation) :
    let t := run operations {}
    (∀ meeting s, t.session? meeting = some s →
        s.active = s.unfinished ∧
          ∀ seq x, s.exchange? seq = some x → x.finished = false →
            (s.finish seq).1.active + 1 = s.active ∧
              (s.dropExchange seq).active + 1 = s.active) ∧
      (∀ meeting, t.isBusy meeting = true ↔
        ∃ seq x, t.exchange? meeting seq = some x ∧ x.finished = false) ∧
      ∀ meeting seq later, (∀ operation ∈ later, ¬ operation.Drops meeting seq) →
        timesFinished meeting seq later t ≤ 1 := by
  intro t
  have hcounted : t.Counted := counted_run operations counted_new
  refine ⟨?_, ?_, ?_⟩
  · intro meeting s hs
    have h := hcounted meeting s hs
    exact ⟨h, fun seq x hx hf =>
      ⟨Session.active_finish h hx hf, Session.active_dropExchange h hx hf⟩⟩
  · exact isBusy_iff hcounted
  · intro meeting seq later hlater
    have hsum := timesFinished_add meeting seq later t hlater
    have hle := Bool.toNat_le ((run later t).hasFinished meeting seq)
    omega

end SessionTable

end CallSignaling.Roap
