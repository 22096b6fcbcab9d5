import CallSignaling.Proofs.Roap.Accounting

/-!
# Meetings of one table do not meet

What an operation finds and gives back depends on the session of its own meeting and on nothing
else, and that session is the only one it changes.  So the operations on a meeting, taken out of
those on all meetings and run by themselves on a new table, do and find the same.

* `Roap.Exchange.Result`, `Roap.Exchange.results`: what uses of an exchange give back.
* `Roap.SessionTable.Operation.meeting`: the meeting that an operation is about.
* `Roap.SessionTable.Result`, `Roap.SessionTable.result`, `Roap.SessionTable.results`: what
  operations give back.

Main statement: `Roap.SessionTable.meetings_apart`.
-/

namespace CallSignaling.Roap

namespace Exchange

/-- What a use of an exchange gives back. -/
inductive Result where
  | stored (outcome : StoreOutcome)
  /-- The phase that a signal led to. -/
  | stepped (phase : Phase)
  /-- Whose offer stays, if there were two. -/
  | settled (winner : Option Side)
  deriving DecidableEq, Repr

/-- What comes of a use. -/
def result (x : Exchange) : Use → Result
  | .store message side => .stored (x.store message side).2
  | .step signal => .stepped (x.step signal).phase
  | .resolveGlare => .settled (x.resolveGlare?.map (·.2))

/-- What comes of uses in turn. -/
def results : List Use → Exchange → List Result
  | [], _ => []
  | use :: uses, x => x.result use :: results uses (x.use use)

end Exchange

namespace SessionTable

/-- The meeting that an operation is about. -/
def Operation.meeting : Operation → String
  | .openSession meeting => meeting
  | .openExchange meeting _ _ => meeting
  | .finish meeting _ => meeting
  | .dropExchange meeting _ => meeting
  | .dropSession meeting => meeting

/-- What an operation gives back. -/
inductive Result where
  /-- The session that was found or created. -/
  | session (session : Session)
  /-- The exchange that was found or created, and what came of its uses. -/
  | exchange (exchange : Exchange) (uses : List Exchange.Result)
  /-- Whether this was the first end of the exchange. -/
  | finished (first : Bool)
  | dropped
  deriving DecidableEq

/-- What comes of an operation. -/
def result (t : SessionTable) : Operation → Result
  | .openSession meeting => .session (((t.openSession meeting).session? meeting).getD {})
  | .openExchange meeting seq uses =>
    let x := ((t.openExchange meeting seq).exchange? meeting seq).getD {}
    .exchange x (Exchange.results uses x)
  | .finish meeting seq => .finished (t.finish meeting seq).2
  | .dropExchange _ _ | .dropSession _ => .dropped

/-- Operations in turn, each with what comes of it. -/
def results : List Operation → SessionTable → List (Operation × Result)
  | [], _ => []
  | operation :: operations, t =>
    (operation, t.result operation) :: results operations (t.apply operation)

/-! ### One operation -/

/-- An operation leaves the sessions of the other meetings alone. -/
theorem session?_apply_of_ne (t : SessionTable) {operation : Operation} {meeting : String}
    (h : operation.meeting ≠ meeting) :
    (t.apply operation).session? meeting = t.session? meeting := by
  cases operation with
  | openSession m =>
    have hne : meeting ≠ m := Ne.symm h
    rw [apply, session?_openSession, if_neg hne]
  | openExchange m seq uses =>
    have hne : meeting ≠ m := Ne.symm h
    rw [apply, modify, session?_onSession, if_neg hne, openExchange, session?_onSession,
      if_neg hne, session?_openSession, if_neg hne]
  | finish m seq =>
    have hne : meeting ≠ m := Ne.symm h
    rw [apply, finish_fst, session?_onSession, if_neg hne]
  | dropExchange m seq =>
    have hne : meeting ≠ m := Ne.symm h
    rw [apply, dropExchange, session?_onSession, if_neg hne]
  | dropSession m =>
    have hne : meeting ≠ m := Ne.symm h
    rw [apply, session?_dropSession, if_neg hne]

variable {t u : SessionTable} {meeting : String}

theorem exchange?_congr (h : t.session? meeting = u.session? meeting) (seq : UInt64) :
    t.exchange? meeting seq = u.exchange? meeting seq := by
  rw [exchange?, h, ← exchange?]

theorem isBusy_congr (h : t.session? meeting = u.session? meeting) :
    t.isBusy meeting = u.isBusy meeting := by
  rw [isBusy, h, ← isBusy]

theorem session?_onSession_congr (h : t.session? meeting = u.session? meeting)
    (f : Session → Session) :
    (t.onSession meeting f).session? meeting = (u.onSession meeting f).session? meeting := by
  rw [session?_onSession, session?_onSession, h]

theorem session?_openSession_congr (h : t.session? meeting = u.session? meeting) :
    (t.openSession meeting).session? meeting = (u.openSession meeting).session? meeting := by
  rw [session?_openSession, session?_openSession, h]

theorem session?_openExchange_congr (h : t.session? meeting = u.session? meeting)
    (seq : UInt64) :
    (t.openExchange meeting seq).session? meeting =
      (u.openExchange meeting seq).session? meeting :=
  session?_onSession_congr (session?_openSession_congr h) _

/-- The session that an operation leaves depends on the one it found. -/
theorem session?_apply_congr {operation : Operation}
    (h : t.session? operation.meeting = u.session? operation.meeting) :
    (t.apply operation).session? operation.meeting =
      (u.apply operation).session? operation.meeting := by
  cases operation with
  | openSession m => exact session?_openSession_congr h
  | openExchange m seq uses =>
    exact session?_onSession_congr (session?_openExchange_congr h seq) _
  | finish m seq =>
    rw [apply, apply, finish_fst, finish_fst]
    exact session?_onSession_congr h _
  | dropExchange m seq => exact session?_onSession_congr h _
  | dropSession m =>
    rw [apply, apply, Operation.meeting, session?_dropSession, session?_dropSession, if_pos rfl,
      if_pos rfl]

/-- What an operation gives back depends on the session it found. -/
theorem result_congr {operation : Operation}
    (h : t.session? operation.meeting = u.session? operation.meeting) :
    t.result operation = u.result operation := by
  cases operation with
  | openSession m =>
    have hopen : (t.openSession m).session? m = (u.openSession m).session? m :=
      session?_openSession_congr h
    rw [result, result, hopen]
  | openExchange m seq uses =>
    have hopen : (t.openExchange m seq).exchange? m seq = (u.openExchange m seq).exchange? m seq :=
      exchange?_congr (session?_openExchange_congr h seq) seq
    rw [result, result, hopen]
  | finish m seq =>
    have hfound : t.exchange? m seq = u.exchange? m seq := exchange?_congr h seq
    rw [result, result, finish_snd, finish_snd, hfound]
  | dropExchange m seq => rfl
  | dropSession m => rfl

/-! ### Operations in turn -/

/-- Where two tables have the same session of a meeting, the operations on that meeting do the same
in both, whatever other operations come between them in one. -/
theorem run_own (operations : List Operation) (h : t.session? meeting = u.session? meeting) :
    let own := operations.filter (·.meeting = meeting)
    (run operations t).session? meeting = (run own u).session? meeting ∧
      (results operations t).filter (·.1.meeting = meeting) = results own u := by
  intro own
  induction operations generalizing t u with
  | nil => exact ⟨h, rfl⟩
  | cons operation operations ih =>
    by_cases hown : operation.meeting = meeting
    · subst hown
      obtain ⟨hsession, hresults⟩ := ih (session?_apply_congr h)
      have hkeep : own = operation :: operations.filter (·.meeting = operation.meeting) :=
        List.filter_cons_of_pos (decide_eq_true rfl)
      rw [hkeep]
      refine ⟨hsession, ?_⟩
      rw [results, results, List.filter_cons_of_pos (by simp), hresults, result_congr h]
    · have hskip : own = operations.filter (·.meeting = meeting) :=
        List.filter_cons_of_neg (by simpa using hown)
      obtain ⟨hsession, hresults⟩ := ih ((session?_apply_of_ne t hown).trans h)
      rw [hskip]
      refine ⟨hsession, ?_⟩
      rw [results, List.filter_cons_of_neg (by simpa using hown), hresults]

/-- The session of a meeting after operations on any meetings, whether the meeting is busy, and what
came of the operations on it are the same as when those operations alone had been run on a new
table. -/
theorem meetings_apart (operations : List Operation) (meeting : String) :
    let own := operations.filter (·.meeting = meeting)
    (run operations {}).session? meeting = (run own {}).session? meeting ∧
      (run operations {}).isBusy meeting = (run own {}).isBusy meeting ∧
      (results operations {}).filter (·.1.meeting = meeting) = results own {} := by
  intro own
  have hempty : session? {} meeting = session? {} meeting := rfl
  obtain ⟨hsession, hresults⟩ := run_own operations hempty
  exact ⟨hsession, isBusy_congr hsession, hresults⟩

end SessionTable

end CallSignaling.Roap
