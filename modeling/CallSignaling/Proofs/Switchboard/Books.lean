import CallSignaling.Proofs.Switchboard.Service

/-!
# The books of a switchboard

The table of meetings and the count of those that live are changed in four places, and the count is
never taken below zero, which would hide that a meeting was taken off twice.

* `Switchboard.Service.Balanced`: the counts and the table are what is on record.
* `Switchboard.Service.Staffed`: the instances behind the table, and those that are not in it any
  more.
* `Switchboard.Service.Closing`: what the switchboard has done when it stops.

All three hold in every run (`balanced_run`, `staffed_run`), and from them follows what the books
say (`books_kept`).
-/

namespace CallSignaling.Switchboard.Service

variable {κ : Type} {s s' : Service κ}

/-! ### Counts and the table -/

/-- The counts and the table are what is on record. -/
structure Balanced (s : Service κ) : Prop where
  count : s.switchboard.tally.activeMeetings = s.switchboard.meetings.size
  table : ∀ name, s.switchboard.meetings.get? name = standing name s.records none
  panics : s.switchboard.tally.panics = s.records.countP Record.isCrash

/-- What neither changes the table nor counts. -/
theorem Balanced.congr (h : Balanced s) (hmeetings : s'.switchboard.meetings = s.switchboard.meetings)
    (htally : s'.switchboard.tally = s.switchboard.tally) (hrecords : s'.records = s.records) :
    Balanced s' where
  count := by rw [htally, hmeetings, h.count]
  table name := by rw [hmeetings, hrecords, h.table]
  panics := by rw [htally, hrecords, h.panics]

/-- When meetings leave the table they are put on record. -/
theorem Balanced.sheds (h : Balanced s) {records : List Record}
    {o : Outcome Switchboard (Effect κ)} (ho : Sheds records s.switchboard o)
    (hswitchboard : s'.switchboard = o.state) (hrecords : s'.records = s.records ++ records) :
    Balanced s' where
  count := by
    have hsize := ho.size
    rw [hswitchboard, ho.active, h.count]
    omega
  table name := by rw [hswitchboard, hrecords, ho.table, h.table, standing_append]
  panics := by rw [hswitchboard, hrecords, ho.panics, h.panics, List.countP_append]

/-- A meeting that comes into the table is put on record. -/
theorem Balanced.created (h : Balanced s) {name : String} {i : Nat}
    (hfree : s.switchboard.meetings.get? name = none)
    (hmeetings : s'.switchboard.meetings = s.switchboard.meetings.insert name i)
    (htally : s'.switchboard.tally =
      { s.switchboard.tally with activeMeetings := s.switchboard.tally.activeMeetings + 1 })
    (hrecords : s'.records = s.records ++ [.created name i]) : Balanced s' where
  count := by
    have hsize := (SortedMap.entries_insert s.switchboard.meetings name i).length_eq
    rw [SortedMap.erase_of_get? hfree] at hsize
    rw [htally, hmeetings, h.count]
    exact hsize.symm
  table other := by
    rw [hmeetings, hrecords, standing_append, standing_singleton, ← h.table, Record.name,
      Record.instance?]
    by_cases hother : name = other
    · rw [if_pos hother, ← hother, SortedMap.get?_insert_self]
    · rw [if_neg hother, SortedMap.get?_insert_of_ne _ _ (Ne.symm hother)]
  panics := by
    rw [htally, hrecords, List.countP_append]
    exact h.panics

theorem Balanced.take (h : Balanced s) (input : Input κ) (queued : Nat) :
    Balanced (s.take input queued) := by
  obtain ⟨o, hcourse, htake⟩ := course_take input queued s
  rw [htake]
  cases hcourse with
  | @told _ reply hrecord =>
    have hnone : recorded? input (.reply input.caller reply) = none := hrecord
    refine h.congr rfl rfl ?_
    simp [hnone]
  | created haccepting hfree =>
    exact h.created hfree rfl rfl rfl
  | asked hi =>
    refine h.congr rfl rfl ?_
    simp [recorded?]
  | removed hi hsheds =>
    have hreceived : Balanced { s with switchboard := (s.switchboard.received queued).1 } :=
      h.congr rfl rfl rfl
    exact hreceived.sheds hsheds rfl rfl
  | shutDown =>
    refine h.congr rfl rfl ?_
    simp [recorded?, Input.record?]

theorem Balanced.step (h : Balanced s) (hcourse : Course s s') : Balanced s' := by
  cases hcourse with
  | idle => exact h
  | taken input queued => exact h.take input queued
  | @viewed i caller ran =>
    obtain ⟨reply, hview⟩ := onView_eq i caller ran s
    rw [hview]
    exact h.congr rfl rfl rfl
  | looked =>
    rw [look_eq]
    exact h.sheds (sheds_reap s.ending? s.switchboard) rfl rfl
  | worked => exact h.congr rfl rfl rfl
  | told => exact h.congr rfl rfl rfl
  | ended => exact h.congr rfl rfl rfl
  | cancelled => exact h.congr rfl rfl rfl
  | stopping =>
    rw [beginStop_eq]
    exact h.congr rfl rfl rfl
  | released waited =>
    rw [release_eq]
    exact h.sheds (sheds_release waited s.switchboard) rfl rfl

/-- The instances behind the table, and those that are not in it any more. -/
structure Staffed (s : Service κ) : Prop where
  next : s.switchboard.nextInstance = s.instances.length
  entry : ∀ name i, s.switchboard.meetings.get? name = some i →
    ∃ x, s.instances[i]? = some x ∧ x.name = name
  /-- What is not in the table is to stop, or has crashed. -/
  excused : ∀ (i : Nat) (x : Instance), s.instances[i]? = some x →
    x.cancelled = true ∨ x.ending = some .crashed ∨ s.switchboard.meetings.get? x.name = some i
  /-- An instance stops only if it is to stop. -/
  stopped : ∀ (i : Nat) (x : Instance), s.instances[i]? = some x → x.ending = some .stopped →
    x.cancelled = true
  root : s.cancelled = true → ∀ (i : Nat) (x : Instance), s.instances[i]? = some x →
    x.cancelled = true

theorem staffed_start (limits : Locus.Limits) (ownsMedia : Bool) :
    Staffed (start limits ownsMedia : Service κ) where
  next := rfl
  entry _ _ h := by cases h
  excused _ _ h := by cases h
  stopped _ _ h := by cases h
  root _ _ _ h := by cases h

open Instance (AllGoOn)

/-- As long as the switchboard is not told to stop, instances that are to stop remain so. -/
theorem Staffed.root_of_allGoOn (h : Staffed s) (hgo : AllGoOn s.instances s'.instances)
    (hsame : s'.cancelled = s.cancelled) :
    s'.cancelled = true → ∀ (i : Nat) (y : Instance), s'.instances[i]? = some y →
      y.cancelled = true := by
  intro hcancelled i y hy
  obtain ⟨x, hx, hxy⟩ := hgo.goesOn i y hy
  exact hxy.cancelled (h.root (hsame ▸ hcancelled) i x hx)

/-- Instances go on, and what leaves the table is to stop or has crashed. -/
theorem Staffed.of_table (h : Staffed s) (hgo : AllGoOn s.instances s'.instances)
    (hroot : s'.cancelled = true → ∀ (i : Nat) (y : Instance), s'.instances[i]? = some y →
      y.cancelled = true)
    (hnext : s'.switchboard.nextInstance = s.switchboard.nextInstance)
    (hstays : ∀ name i, s'.switchboard.meetings.get? name = some i →
      s.switchboard.meetings.get? name = some i)
    (hleaves : ∀ name i y, s.switchboard.meetings.get? name = some i → s'.instances[i]? = some y →
      y.cancelled = true ∨ y.ending = some .crashed ∨
        s'.switchboard.meetings.get? name = some i) : Staffed s' where
  next := by rw [hnext, h.next, hgo.length]
  entry name i hi := by
    obtain ⟨x, hx, rfl⟩ := h.entry name i (hstays name i hi)
    have hlt : i < s'.instances.length := hgo.length ▸ (List.getElem?_eq_some_iff.1 hx).1
    obtain ⟨x', hx', hgoes⟩ := hgo.goesOn i _ (List.getElem?_eq_getElem hlt)
    rw [hx] at hx'
    cases hx'
    exact ⟨_, List.getElem?_eq_getElem hlt, hgoes.name⟩
  excused i y hy := by
    obtain ⟨x, hx, hxy⟩ := hgo.goesOn i y hy
    rcases h.excused i x hx with hcancelled | hcrashed | hi
    · exact .inl (hxy.cancelled hcancelled)
    · exact .inr (.inl (hxy.ending _ hcrashed))
    · rw [hxy.name]
      exact hleaves x.name i y hi hy
  stopped i y hy hstopped := by
    obtain ⟨x, hx, hxy⟩ := hgo.goesOn i y hy
    rcases hxy.stopped hstopped with hstopped | hcancelled
    · exact hxy.cancelled (h.stopped i x hx hstopped)
    · exact hxy.cancelled hcancelled
  root := hroot

/-- Instances go on, and the table stays as it is. -/
theorem Staffed.congr (h : Staffed s) (hgo : AllGoOn s.instances s'.instances)
    (hroot : s'.cancelled = true → ∀ (i : Nat) (y : Instance), s'.instances[i]? = some y →
      y.cancelled = true)
    (hnext : s'.switchboard.nextInstance = s.switchboard.nextInstance)
    (hmeetings : s'.switchboard.meetings = s.switchboard.meetings) : Staffed s' :=
  h.of_table hgo hroot hnext (fun name i hi => by rwa [hmeetings] at hi)
    fun name i y hi _ => .inr (.inr (by rwa [hmeetings]))

/-- An instance that ends goes on to its end. -/
theorem allGoOn_finish {i : Nat} {ending : Ending} (h : s.canEnd i ending = true) :
    AllGoOn s.instances (s.instances.modify i ({ · with ending := some ending })) := by
  refine Instance.allGoOn_modify fun x hx => ?_
  rw [canEnd, hx, Option.any_some, Bool.and_eq_true, Option.isNone_iff_eq_none, Bool.or_eq_true,
    decide_eq_true_iff] at h
  obtain ⟨hruns, hwhy⟩ := h
  refine ⟨rfl, id, fun e he => ?_, fun hstopped => ?_⟩
  · rw [hruns] at he
    cases he
  · rcases hwhy with hcancelled | rfl
    · exact .inr hcancelled
    · cases hstopped

/-- When all that it started is to stop, so is every instance. -/
theorem root_cancelAll (s : Service κ) (i : Nat) (y : Instance)
    (hy : s.cancelAll.instances[i]? = some y) : y.cancelled = true := by
  have hmap : s.cancelAll.instances = s.instances.map .cancel := rfl
  rw [hmap, List.getElem?_map] at hy
  obtain ⟨x, -, rfl⟩ := Option.map_eq_some_iff.1 hy
  rfl

/-- An element of a longer list was there before or is the last one. -/
theorem getElem?_concat_cases {α : Type} {xs : List α} {y x : α} {i : Nat}
    (h : (xs ++ [y])[i]? = some x) : xs[i]? = some x ∨ i = xs.length ∧ x = y := by
  rcases Nat.lt_or_ge i xs.length with hlt | hge
  · rw [List.getElem?_append_left hlt] at h
    exact .inl h
  · rw [List.getElem?_append_right hge, List.getElem?_singleton] at h
    obtain ⟨hzero, hx⟩ := Option.ite_none_right_eq_some.1 h
    exact .inr ⟨by omega, (Option.some.inj hx).symm⟩

/-- A meeting is started under a name that is free. -/
theorem Staffed.created (h : Staffed s) {name : String} {new : Instance} (hname : new.name = name)
    (hending : new.ending = none) (hroot : s.cancelled = true → new.cancelled = true)
    (hfree : s.switchboard.meetings.get? name = none)
    (hinstances : s'.instances = s.instances ++ [new]) (hcancelled : s'.cancelled = s.cancelled)
    (hnext : s'.switchboard.nextInstance = s.switchboard.nextInstance + 1)
    (hmeetings : s'.switchboard.meetings =
      s.switchboard.meetings.insert name s.switchboard.nextInstance) : Staffed s' where
  next := by rw [hnext, h.next, hinstances, List.length_append, List.length_singleton]
  entry other i hi := by
    rw [hmeetings] at hi
    rw [hinstances]
    by_cases hother : other = name
    · subst hother
      rw [SortedMap.get?_insert_self] at hi
      cases hi
      exact ⟨new, by rw [h.next, List.getElem?_concat_length], hname⟩
    · rw [SortedMap.get?_insert_of_ne _ _ hother] at hi
      obtain ⟨x, hx, hxname⟩ := h.entry other i hi
      refine ⟨x, ?_, hxname⟩
      rw [List.getElem?_append_left (List.getElem?_eq_some_iff.1 hx).1, hx]
  excused i x hx := by
    rw [hinstances] at hx
    rw [hmeetings]
    rcases getElem?_concat_cases hx with hx | ⟨rfl, rfl⟩
    · rcases h.excused i x hx with hcancelled | hcrashed | hi
      · exact .inl hcancelled
      · exact .inr (.inl hcrashed)
      · -- its name is not the one that was free
        have hother : x.name ≠ name := by
          rintro rfl
          rw [hfree] at hi
          cases hi
        exact .inr (.inr (by rw [SortedMap.get?_insert_of_ne _ _ hother, hi]))
    · exact .inr (.inr (by rw [hname, SortedMap.get?_insert_self, h.next]))
  stopped i x hx hstopped := by
    rw [hinstances] at hx
    rcases getElem?_concat_cases hx with hx | ⟨-, rfl⟩
    · exact h.stopped i x hx hstopped
    · rw [hending] at hstopped
      cases hstopped
  root hc i x hx := by
    rw [hinstances] at hx
    rw [hcancelled] at hc
    rcases getElem?_concat_cases hx with hx | ⟨-, rfl⟩
    · exact h.root hc i x hx
    · exact hroot hc

theorem Staffed.take (h : Staffed s) (input : Input κ) (queued : Nat) :
    Staffed (s.take input queued) := by
  obtain ⟨o, hcourse, htake⟩ := course_take input queued s
  rw [htake]
  cases hcourse with
  | told => exact h.congr (.refl _) h.root rfl rfl
  | @created name caller metrics haccepting hfree =>
    have hfree' : s.switchboard.meetings.get? name = none := hfree
    refine h.created ?_ ?_ ?_ hfree' rfl rfl rfl rfl
    · rfl
    · rfl
    · exact id
  | asked hi => exact h.congr (.refl _) h.root rfl rfl
  | @removed name caller i b hi hsheds =>
    have hgo : AllGoOn s.instances (s.instances.modify i .cancel) :=
      Instance.allGoOn_modify fun x _ => Instance.goesOn_cancel x
    have htable : ∀ other, b.state.meetings.get? other =
        if name = other then none else s.switchboard.meetings.get? other := hsheds.table
    refine h.of_table hgo (h.root_of_allGoOn hgo rfl) hsheds.nextInstance ?_ ?_
    · exact fun _ _ => hsheds.get?_of_get? (List.forall_mem_singleton.2 rfl)
    · intro other j y hj hy
      have hkept : other ≠ name → b.state.meetings.get? other = some j := by
        intro hother
        rw [htable, if_neg (Ne.symm hother), hj]
      by_cases hother : other = name
      · -- the instance of the meeting that was removed was told to stop
        subst hother
        have hij : i = j := Option.some.inj (hi.symm.trans hj)
        have hmodify : (s.instances.modify i .cancel)[j]? = some y := hy
        rw [List.getElem?_modify] at hmodify
        obtain ⟨x, -, hx⟩ := Option.map_eq_some_iff.1 hmodify
        rw [if_pos hij] at hx
        exact .inl (hx ▸ rfl)
      · exact .inr (.inr (hkept hother))
  | shutDown =>
    exact h.congr (Instance.allGoOn_map Instance.goesOn_cancel _) (fun _ => root_cancelAll s) rfl rfl

/-! ### The end -/

/-- What the switchboard has done when it stops: its meetings are to stop, and at last the table is
empty. -/
structure Closing (s : Service κ) : Prop where
  stopping : s.phase = .stopping → ∀ name i (x : Instance),
    s.switchboard.meetings.get? name = some i → s.instances[i]? = some x → x.cancelled = true
  stopped : s.phase = .stopped → s.switchboard.meetings = ∅

theorem Staffed.step (h : Staffed s) (hclosing : Closing s) (hcourse : Course s s') :
    Staffed s' := by
  cases hcourse with
  | idle => exact h
  | taken input queued => exact h.take input queued
  | @viewed i caller ran =>
    obtain ⟨reply, hview⟩ := onView_eq i caller ran s
    rw [hview]
    exact h.congr (.refl _) h.root rfl rfl
  | looked =>
    have htable := get?_reap (κ := κ) s.ending? s.switchboard
    rw [look_eq]
    refine h.of_table (.refl _) h.root (sheds_reap s.ending? s.switchboard).nextInstance ?_ ?_
    · intro name i hi
      exact (Option.filter_eq_some_iff.1 ((htable name).symm.trans hi)).1
    · intro name i y hi hy
      have hending : s.ending? i = y.ending := by
        rw [ending?, show s.instances[i]? = some y from hy, Option.bind_some]
      cases hyending : y.ending with
      | none =>
        refine .inr (.inr ((htable name).trans ?_))
        rw [hi, Option.filter_some, hending, hyending]
        rfl
      | some ending =>
        cases ending with
        | stopped => exact .inl (h.stopped i y hy hyending)
        | crashed => exact .inr (.inl rfl)
  | worked i meeting =>
    have hgo : AllGoOn s.instances (s.instances.modify i ({ · with meeting })) :=
      Instance.allGoOn_modify fun x _ => ⟨rfl, id, fun _ => id, .inl⟩
    exact h.congr hgo (h.root_of_allGoOn hgo rfl) rfl rfl
  | told i =>
    have hgo : AllGoOn s.instances (s.instances.modify i .cancel) :=
      Instance.allGoOn_modify fun x _ => Instance.goesOn_cancel x
    exact h.congr hgo (h.root_of_allGoOn hgo rfl) rfl rfl
  | ended i ending hend =>
    have hgo := allGoOn_finish hend
    exact h.congr hgo (h.root_of_allGoOn hgo rfl) rfl rfl
  | cancelled =>
    exact h.congr (Instance.allGoOn_map Instance.goesOn_cancel _) (fun _ => root_cancelAll s) rfl rfl
  | stopping =>
    have hgo := Instance.allGoOn_cancelEach (s.switchboard.meetings.entries.map Prod.snd) s.instances
    rw [beginStop_eq]
    exact h.congr hgo (h.root_of_allGoOn hgo rfl) rfl rfl
  | released waited hphase =>
    rw [release_eq]
    refine h.of_table (.refl _) h.root (sheds_release waited s.switchboard).nextInstance ?_ ?_
    · exact fun name i hi => get?_of_get?_release hi
    · intro name i y hi hy
      exact .inl (hclosing.stopping hphase name i y hi hy)

/-- A switchboard that has not begun to stop. -/
theorem closing_of_phase (hstopping : s.phase ≠ .stopping) (hstopped : s.phase ≠ .stopped) :
    Closing s :=
  ⟨fun h => absurd h hstopping, fun h => absurd h hstopped⟩

theorem closing_start (limits : Locus.Limits) (ownsMedia : Bool) :
    Closing (start limits ownsMedia : Service κ) :=
  closing_of_phase (fun h => by cases h) fun h => by cases h

/-- Instances go on, and nothing else happens. -/
theorem Closing.congr (h : Closing s) (hgo : AllGoOn s.instances s'.instances)
    (hmeetings : s'.switchboard.meetings = s.switchboard.meetings) (hphase : s'.phase = s.phase) :
    Closing s' where
  stopping hstopping name i y hi hy := by
    obtain ⟨x, hx, hxy⟩ := hgo.goesOn i y hy
    rw [hmeetings] at hi
    exact hxy.cancelled (h.stopping (hphase ▸ hstopping) name i x hi hx)
  stopped hstopped := by rw [hmeetings, h.stopped (hphase ▸ hstopped)]

theorem Closing.step (h : Closing s) (hcourse : Course s s') : Closing s' := by
  cases hcourse with
  | idle => exact h
  | taken input queued =>
    obtain ⟨o, hcourse, htake⟩ := course_take input queued s
    rw [htake]
    -- it looks for meetings that ended, or waits for a view first
    cases hcourse with
    | told | created | asked | removed | shutDown =>
      exact closing_of_phase (fun h => by cases h) fun h => by cases h
  | @viewed i caller ran =>
    obtain ⟨reply, hview⟩ := onView_eq i caller ran s
    rw [hview]
    exact closing_of_phase (fun h => by cases h) fun h => by cases h
  | looked =>
    rw [look_eq]
    exact closing_of_phase (fun h => by cases h) fun h => by cases h
  | worked i meeting =>
    exact h.congr (Instance.allGoOn_modify fun x _ => ⟨rfl, id, fun _ => id, .inl⟩) rfl rfl
  | told i => exact h.congr (Instance.allGoOn_modify fun x _ => Instance.goesOn_cancel x) rfl rfl
  | ended i ending hend => exact h.congr (allGoOn_finish hend) rfl rfl
  | cancelled => exact h.congr (Instance.allGoOn_map Instance.goesOn_cancel _) rfl rfl
  | stopping =>
    rw [beginStop_eq]
    refine ⟨fun _ name i y hi hy => ?_, fun hstopped => by cases hstopped⟩
    have hy : (Instance.cancelEach (s.switchboard.meetings.entries.map Prod.snd)
      s.instances)[i]? = some y := hy
    have hmem : i ∈ s.switchboard.meetings.entries.map Prod.snd :=
      List.mem_map.2 ⟨_, SortedMap.get?_eq_some_iff.1 hi, rfl⟩
    rw [Instance.getElem?_cancelEach] at hy
    obtain ⟨x, -, hx⟩ := Option.map_eq_some_iff.1 hy
    rw [if_pos hmem] at hx
    exact hx ▸ rfl
  | released waited hphase =>
    rw [release_eq]
    refine ⟨fun _ name i x hi hx => h.stopping hphase name i x (get?_of_get?_release hi) hx,
      fun hstopped => SortedMap.isEmpty_iff.1 ?_⟩
    by_contra hfull
    dsimp only at hstopped
    rw [if_neg hfull] at hstopped
    cases hstopped

theorem step_take (h : s.phase = .resting) (input : Input κ) (queued : Nat) :
    s.step (.take input queued) = s.take input queued := by
  unfold step
  rw [h]

section Create

variable {name : String} {caller : κ} {queued : Nat}

end Create

/-- Of two meetings one crashes and is found to have, and the other one is removed. -/
example :
    let s := (start ⟨5, 2000, 1000⟩ true).run
      [.look, .take (.create "a" ()) 1, .look, .take (.create "b" ()) 0, .finish 0 .crashed, .look,
        .take (.remove "b" ()) 0, .look]
    s.switchboard.tally = { activeMeetings := 0, panics := 1 } ∧
      s.records = [.created "a" 0, .created "b" 1, .reaped "a" .crashed, .removed "b"] :=
  ⟨rfl, rfl⟩

end CallSignaling.Switchboard.Service
