import CallSignaling.Roap.Session

/-!
# What the table of exchanges holds after an operation

* `Roap.SessionTable.session?_openSession`, `session?_onSession`, `session?_dropSession`: the session
  of a meeting after an operation on the session of a meeting.
* `Roap.SessionTable.exchange?_openSession`, `exchange?_openExchange`, `exchange?_modify`,
  `exchange?_finish`, `exchange?_dropExchange`, `exchange?_dropSession`: an exchange after an
  operation on an exchange.

An operation on one exchange leaves all others alone, and all other meetings.
-/

namespace CallSignaling.Roap

/-! ### Exchanges of a session -/

namespace Session

theorem exchange?_insert (s : Session) (seq other : UInt64) (x : Exchange) (active : Nat) :
    exchange? { exchanges := s.exchanges.insert seq x, active } other =
      if other = seq then some x else s.exchange? other := by
  split
  · rename_i heq
    rw [heq]
    exact SortedMap.get?_insert_self _ _ _
  · exact SortedMap.get?_insert_of_ne _ _ ‹_›

theorem exchange?_erase (s : Session) (seq other : UInt64) (active : Nat) :
    exchange? { exchanges := s.exchanges.erase seq, active } other =
      if other = seq then none else s.exchange? other := by
  split
  · rename_i heq
    rw [heq]
    exact SortedMap.get?_erase_self _ _
  · exact SortedMap.get?_erase_of_ne _ ‹_›

theorem openExchange_of_some {s : Session} {seq : UInt64} {x : Exchange}
    (h : s.exchange? seq = some x) : s.openExchange seq = s :=
  if_pos (Option.isSome_of_eq_some h)

theorem openExchange_of_none {s : Session} {seq : UInt64} (h : s.exchange? seq = none) :
    s.openExchange seq =
      { exchanges := s.exchanges.insert seq {}, active := s.active + 1 } :=
  if_neg (by
    rw [SortedMap.contains, show s.exchanges.get? seq = none from h]
    exact Bool.false_ne_true)

theorem exchange?_openExchange (s : Session) (seq other : UInt64) :
    (s.openExchange seq).exchange? other =
      if other = seq then some ((s.exchange? seq).getD {}) else s.exchange? other := by
  cases hx : s.exchange? seq with
  | some x => grind [openExchange_of_some hx]
  | none => rw [openExchange_of_none hx, exchange?_insert, Option.getD_none]

theorem exchange?_modify (s : Session) (seq other : UInt64) (f : Exchange → Exchange) :
    (s.modify seq f).exchange? other =
      if other = seq then (s.exchange? seq).map f else s.exchange? other := by
  unfold modify
  cases hx : s.exchange? seq with
  | some x => simp only [exchange?_insert, Option.map_some]
  | none => grind

theorem finish_of_none {s : Session} {seq : UInt64} (h : s.exchange? seq = none) :
    s.finish seq = (s, false) := by
  simp only [finish, h]

theorem finish_of_finished {s : Session} {seq : UInt64} {x : Exchange}
    (h : s.exchange? seq = some x) (hf : x.finished = true) : s.finish seq = (s, false) := by
  simp only [finish, h, hf, if_true]

theorem finish_of_unfinished {s : Session} {seq : UInt64} {x : Exchange}
    (h : s.exchange? seq = some x) (hf : x.finished = false) :
    s.finish seq =
      ({ exchanges := s.exchanges.insert seq { x with finished := true }, active := s.active - 1 },
        true) := by
  simp only [finish, h, hf, Bool.false_eq_true, if_false]

theorem exchange?_finish (s : Session) (seq other : UInt64) :
    (s.finish seq).1.exchange? other =
      if other = seq then (s.exchange? seq).map fun x => { x with finished := true }
      else s.exchange? other := by
  cases hx : s.exchange? seq with
  | none => grind [finish_of_none hx]
  | some x =>
    cases hf : x.finished with
    | false => rw [finish_of_unfinished hx hf, exchange?_insert, Option.map_some]
    | true =>
      have heq : { x with finished := true } = x := by rw [← hf]
      grind [finish_of_finished hx hf]

/-- Only the first end of an exchange counts. -/
theorem finish_snd (s : Session) (seq : UInt64) :
    (s.finish seq).2 = (s.exchange? seq).any fun x => !x.finished := by
  unfold finish
  cases s.exchange? seq with
  | none => rfl
  | some x => cases hf : x.finished <;> simp [hf]

theorem exchange?_dropExchange (s : Session) (seq other : UInt64) :
    (s.dropExchange seq).exchange? other = if other = seq then none else s.exchange? other := by
  unfold dropExchange
  cases hx : s.exchange? seq with
  | some x => simp only [exchange?_erase]
  | none => grind

end Session

/-! ### Sessions of the table -/

namespace SessionTable

theorem session?_insert (t : SessionTable) (meeting other : String) (s : Session) :
    session? { sessions := t.sessions.insert meeting s } other =
      if other = meeting then some s else t.session? other := by
  split
  · rename_i heq
    rw [heq]
    exact SortedMap.get?_insert_self _ _ _
  · exact SortedMap.get?_insert_of_ne _ _ ‹_›

theorem session?_onSession (t : SessionTable) (meeting other : String) (f : Session → Session) :
    (t.onSession meeting f).session? other =
      if other = meeting then (t.session? meeting).map f else t.session? other := by
  unfold onSession
  cases hs : t.session? meeting with
  | some s => simp only [session?_insert, Option.map_some]
  | none => grind

theorem session?_openSession (t : SessionTable) (meeting other : String) :
    (t.openSession meeting).session? other =
      if other = meeting then some ((t.session? meeting).getD {}) else t.session? other := by
  unfold openSession SortedMap.contains
  cases hs : t.session? meeting with
  | some s =>
    have hs' : t.sessions.get? meeting = some s := hs
    rw [hs', Option.isSome_some, if_pos rfl]
    grind
  | none =>
    have hs' : t.sessions.get? meeting = none := hs
    rw [hs', Option.isSome_none, if_neg Bool.false_ne_true, session?_insert, Option.getD_none]

theorem session?_dropSession (t : SessionTable) (meeting other : String) :
    (t.dropSession meeting).session? other =
      if other = meeting then none else t.session? other := by
  split
  · rename_i heq
    rw [heq]
    exact SortedMap.get?_erase_self _ _
  · exact SortedMap.get?_erase_of_ne _ ‹_›

/-- The end of an exchange changes the session of its meeting only. -/
theorem finish_fst (t : SessionTable) (meeting : String) (seq : UInt64) :
    (t.finish meeting seq).1 = t.onSession meeting fun s => (s.finish seq).1 := by
  unfold finish onSession
  split <;> rfl

/-! ### Exchanges of the table -/

theorem map_exchange? (t : SessionTable) (meeting : String) (seq : UInt64)
    (f : Exchange → Exchange) :
    (t.exchange? meeting seq).map f =
      (t.session? meeting).bind fun s => (s.exchange? seq).map f :=
  Option.map_bind

/-- An operation on one exchange of a session is an operation on one exchange of the table. -/
theorem exchange?_onSession {t : SessionTable} {seq : UInt64} {f : Session → Session}
    {g : Session → Option Exchange}
    (h : ∀ s seq', (f s).exchange? seq' = if seq' = seq then g s else s.exchange? seq')
    (meeting other : String) (seq' : UInt64) :
    (t.onSession meeting f).exchange? other seq' =
      if other = meeting ∧ seq' = seq then (t.session? meeting).bind g
      else t.exchange? other seq' := by
  unfold exchange?
  rw [session?_onSession]
  by_cases ho : other = meeting
  · rw [ho, if_pos rfl, Option.bind_map]
    cases hs : t.session? meeting with
    | none => simp
    | some s => simpa using h s seq'
  · rw [if_neg ho, if_neg fun hboth => ho hboth.1]

/-- A new session has no exchanges. -/
theorem exchange?_openSession (t : SessionTable) (meeting other : String) (seq : UInt64) :
    (t.openSession meeting).exchange? other seq = t.exchange? other seq := by
  unfold exchange?
  rw [session?_openSession]
  split
  · rename_i heq
    rw [heq]
    cases t.session? meeting <;> rfl
  · rfl

theorem exchange?_openExchange (t : SessionTable) (meeting other : String) (seq seq' : UInt64) :
    (t.openExchange meeting seq).exchange? other seq' =
      if other = meeting ∧ seq' = seq then some ((t.exchange? meeting seq).getD {})
      else t.exchange? other seq' := by
  have hget : t.exchange? meeting seq = ((t.session? meeting).getD {}).exchange? seq := by
    unfold exchange?
    cases t.session? meeting <;> rfl
  rw [openExchange, exchange?_onSession fun s => s.exchange?_openExchange seq,
    exchange?_openSession, session?_openSession, if_pos rfl, Option.bind_some, hget]

theorem exchange?_modify (t : SessionTable) (meeting other : String) (seq seq' : UInt64)
    (f : Exchange → Exchange) :
    (t.modify meeting seq f).exchange? other seq' =
      if other = meeting ∧ seq' = seq then (t.exchange? meeting seq).map f
      else t.exchange? other seq' := by
  rw [modify, exchange?_onSession fun s seq' => s.exchange?_modify seq seq' f, map_exchange?]

theorem exchange?_finish (t : SessionTable) (meeting other : String) (seq seq' : UInt64) :
    (t.finish meeting seq).1.exchange? other seq' =
      if other = meeting ∧ seq' = seq then
        (t.exchange? meeting seq).map fun x => { x with finished := true }
      else t.exchange? other seq' := by
  rw [finish_fst, exchange?_onSession fun s => s.exchange?_finish seq, map_exchange?]

/-- Only the first end of an exchange counts. -/
theorem finish_snd (t : SessionTable) (meeting : String) (seq : UInt64) :
    (t.finish meeting seq).2 = (t.exchange? meeting seq).any fun x => !x.finished := by
  unfold finish exchange?
  cases t.session? meeting with
  | none => rfl
  | some s => exact s.finish_snd seq

theorem exchange?_dropExchange (t : SessionTable) (meeting other : String) (seq seq' : UInt64) :
    (t.dropExchange meeting seq).exchange? other seq' =
      if other = meeting ∧ seq' = seq then none else t.exchange? other seq' := by
  rw [dropExchange, exchange?_onSession fun s => s.exchange?_dropExchange seq, Option.bind_fun_none]

theorem exchange?_dropSession (t : SessionTable) (meeting other : String) (seq : UInt64) :
    (t.dropSession meeting).exchange? other seq =
      if other = meeting then none else t.exchange? other seq := by
  unfold exchange?
  rw [session?_dropSession]
  split <;> rfl

end SessionTable

end CallSignaling.Roap
