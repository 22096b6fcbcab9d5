import CallSignaling.Proofs.Switchboard.Books

/-!
# Meetings that ended unseen

A switchboard looks for meetings that have ended before it rests, and not when a message comes.
What ends while it rests is still in the table for the next message.

* `Switchboard.answer?`: what the caller of a message is told at once.
* `Switchboard.without`: the switchboard without the meetings that have ended.
* `Switchboard.Concerns`: whether the answer to a message depends on the meeting of a name.
* `Switchboard.Service.Noticed`: of the meetings in the table those have ended that ended since the
  switchboard looked.

Main statements: a message is answered as if the meetings that have ended were gone exactly if it
concerns none of them (`answer?_without_iff`), and these are those that ended since the switchboard
looked (`answers_without_ended_iff`).
-/

namespace CallSignaling.Switchboard

variable {κ : Type}

/-! ### Answers -/

/-- What a caller is told by an effect. -/
def Effect.told? : Effect κ → Option Reply
  | reply _ told => some told
  | start _ _ | cancel _ | ask _ _ | cancelAll => none

/-- What the caller of a message is told at once.  One who asks for a summary has to wait for it. -/
def answer? (input : Input κ) (s : Switchboard) : Option Reply :=
  (s.step input).effects.findSome? Effect.told?

/-- The switchboard without the meetings that have ended. -/
def without (ended : Nat → Bool) (s : Switchboard) : Switchboard :=
  { s with meetings := s.meetings.filter fun _ i => !ended i }

/-- Whether the answer to a message depends on the meeting of a name. -/
def Concerns (s : Switchboard) (name : String) : Input κ → Prop
  | .create other _ => s.accepting = true ∧ other = name
  | .find other _ | .summarize other _ | .remove other _ => other = name
  | .status _ => True
  | .shutdown _ => False

/-- What one is told who asks for a new meeting, by the instance that is there. -/
def created (name : String) (next : Nat) : Option Nat → Option Reply
  | some _ => some (.refused (.conflict "Meeting already exists"))
  | none => some (.found name next)

/-- What one is told who asks for a meeting. -/
def found (name : String) : Option Nat → Option Reply
  | some i => some (.found name i)
  | none => some (.refused (.meetingNotFound name))

/-- What one is told at once who asks for a summary. -/
def summarized (name : String) : Option Nat → Option Reply
  | some _ => none
  | none => some (.refused (.meetingNotFound name))

/-- What one is told who has a meeting removed. -/
def removed (name : String) : Option Nat → Option Reply
  | some _ => some .done
  | none => some (.refused (.meetingNotFound name))

section Answers

variable {s : Switchboard} {name : String} {caller : κ}

theorem answer?_create_of_draining (h : s.accepting = false) :
    s.answer? (.create name caller) = some (.refused .draining) := by
  rw [answer?, step_create_of_draining h]
  rfl

theorem answer?_create (h : s.accepting = true) :
    s.answer? (.create name caller) = created name s.nextInstance (s.meetings.get? name) := by
  cases hi : s.meetings.get? name with
  | some i =>
    rw [answer?, step_create_of_some h hi]
    rfl
  | none =>
    rw [answer?, step_create_of_none h hi]
    rfl

theorem answer?_find : s.answer? (.find name caller) = found name (s.meetings.get? name) := by
  rw [answer?, step]
  cases s.meetings.get? name <;> rfl

theorem answer?_summarize :
    s.answer? (.summarize name caller) = summarized name (s.meetings.get? name) := by
  rw [answer?, step]
  cases s.meetings.get? name <;> rfl

theorem answer?_remove : s.answer? (.remove name caller) = removed name (s.meetings.get? name) := by
  rw [answer?, step]
  cases s.meetings.get? name <;> rfl

end Answers

theorem get?_without (ended : Nat → Bool) (s : Switchboard) (name : String) :
    (s.without ended).meetings.get? name = (s.meetings.get? name).filter fun i => !ended i :=
  SortedMap.get?_filter ..

theorem size_without_iff (ended : Nat → Bool) (s : Switchboard) :
    (s.without ended).meetings.size = s.meetings.size ↔
      ∀ name i, s.meetings.get? name = some i → ended i = false := by
  constructor
  · intro hsize name i hi
    by_contra hended
    rw [Bool.not_eq_false] at hended
    have hlt : (s.without ended).meetings.size < s.meetings.size :=
      SortedMap.size_filter_lt hi (by rw [hended]; rfl)
    exact absurd hsize (Nat.ne_of_lt hlt)
  · intro h
    refine congrArg List.length (List.filter_eq_self.2 fun e he => ?_)
    show (!ended e.2) = true
    rw [h e.1 e.2 (SortedMap.get?_eq_some_iff.2 he)]
    rfl

/-- What depends on whether a meeting is there tells whether it has ended. -/
theorem apply_without_iff (ended : Nat → Bool) (s : Switchboard) (name : String)
    (answer : Option Nat → Option Reply) (hdiffer : ∀ i, answer (some i) ≠ answer none) :
    answer ((s.without ended).meetings.get? name) = answer (s.meetings.get? name) ↔
      ∀ other i, s.meetings.get? other = some i → name = other → ended i = false := by
  have hname : (∀ other i, s.meetings.get? other = some i → name = other → ended i = false) ↔
      ∀ i, s.meetings.get? name = some i → ended i = false :=
    ⟨fun h i hi => h name i hi rfl, fun h other i hi heq => h i (heq ▸ hi)⟩
  rw [hname, get?_without]
  cases hi : s.meetings.get? name with
  | none => simp
  | some i =>
    rw [Option.filter_some]
    cases hended : ended i with
    | false => simp [hended]
    | true => simpa [hended] using (hdiffer i).symm

/-- A message is answered as if the meetings that have ended were gone exactly if it concerns none
of them. -/
theorem answer?_without_iff (ended : Nat → Bool) (s : Switchboard) (input : Input κ) :
    (s.without ended).answer? input = s.answer? input ↔
      ∀ name i, s.meetings.get? name = some i → s.Concerns name input → ended i = false := by
  cases input with
  | create name caller =>
    cases haccepting : s.accepting with
    | false =>
      rw [answer?_create_of_draining (s := s.without ended) haccepting,
        answer?_create_of_draining haccepting]
      simp [Concerns, haccepting]
    | true =>
      rw [answer?_create (s := s.without ended) haccepting, answer?_create haccepting]
      simp only [Concerns, haccepting, true_and]
      exact apply_without_iff ended s name (created name s.nextInstance) (by simp [created])
  | find name caller =>
    rw [answer?_find, answer?_find]
    exact apply_without_iff ended s name (found name) (by simp [found])
  | summarize name caller =>
    rw [answer?_summarize, answer?_summarize]
    exact apply_without_iff ended s name (summarized name) (by simp [summarized])
  | remove name caller =>
    rw [answer?_remove, answer?_remove]
    exact apply_without_iff ended s name (removed name) (by simp [removed])
  | status caller =>
    have hanswer : ∀ s : Switchboard, s.answer? (.status caller) = some (.status s.currentStatus) :=
      fun _ => rfl
    have hstatus : (s.without ended).currentStatus = s.currentStatus ↔
        (s.without ended).meetings.size = s.meetings.size := by
      simp [currentStatus, without]
    rw [hanswer, hanswer, Option.some.injEq, Reply.status.injEq, hstatus, size_without_iff]
    simp [Concerns]
  | shutdown caller => simp [Concerns, answer?, step]

namespace Service

variable {s s' : Service κ}

/-! ### Who has ended -/

/-- Whether an instance has ended. -/
def hasEnded (s : Service κ) (i : Nat) : Bool := (s.ending? i).isSome

theorem hasEnded_of_getElem? {i : Nat} {x : Instance} (h : s.instances[i]? = some x) :
    s.hasEnded i = x.ending.isSome := by
  rw [hasEnded, ending?, h, Option.bind_some]

/-- Of the meetings in the table those have ended that ended since the switchboard looked. -/
structure Noticed (s : Service κ) : Prop where
  unseen : ∀ name i, s.switchboard.meetings.get? name = some i →
    (s.hasEnded i = true ↔ i ∈ s.unseen)
  /-- What has ended was started. -/
  started : ∀ i ∈ s.unseen, i < s.instances.length

theorem noticed_start (limits : Locus.Limits) (ownsMedia : Bool) :
    Noticed (start limits ownsMedia : Service κ) where
  unseen _ _ h := by cases h
  started _ h := by cases h

/-- Each instance has ended as before. -/
def SameEndings (xs ys : List Instance) : Prop :=
  ∀ i : Nat, (ys[i]?).map Instance.ending = (xs[i]?).map Instance.ending

theorem SameEndings.refl (xs : List Instance) : SameEndings xs xs := fun _ => rfl

theorem SameEndings.modify {f : Instance → Instance} (hf : ∀ x, (f x).ending = x.ending)
    (xs : List Instance) (j : Nat) : SameEndings xs (xs.modify j f) := by
  intro i
  rw [List.getElem?_modify, Option.map_eq_map, Option.map_map]
  refine congrArg (Option.map · xs[i]?) (funext fun x => ?_)
  show Instance.ending (if j = i then f x else x) = x.ending
  split
  · exact hf x
  · rfl

theorem SameEndings.cancelEach (is : List Nat) (xs : List Instance) :
    SameEndings xs (Instance.cancelEach is xs) := by
  intro i
  rw [Instance.getElem?_cancelEach, Option.map_map]
  refine congrArg (Option.map · xs[i]?) (funext fun x => ?_)
  show Instance.ending (if i ∈ is then x.cancel else x) = x.ending
  split <;> rfl

theorem SameEndings.map_cancel (xs : List Instance) : SameEndings xs (xs.map .cancel) := by
  intro i
  rw [List.getElem?_map, Option.map_map]
  rfl

theorem SameEndings.hasEnded (h : SameEndings s.instances s'.instances) (i : Nat) :
    s'.hasEnded i = s.hasEnded i := by
  have hboth : ∀ t : Service κ, t.hasEnded i =
      (((t.instances[i]?).map Instance.ending).getD none).isSome := by
    intro t
    rw [Service.hasEnded, ending?]
    cases t.instances[i]? <;> rfl
  rw [hboth, hboth, h i]

/-- Nothing comes into the table, and nothing ends. -/
theorem Noticed.congr (h : Noticed s) (hsame : SameEndings s.instances s'.instances)
    (hunseen : s'.unseen = s.unseen)
    (htable : ∀ name i, s'.switchboard.meetings.get? name = some i →
      s.switchboard.meetings.get? name = some i) : Noticed s' where
  unseen name i hi := by rw [hsame.hasEnded, hunseen, h.unseen name i (htable name i hi)]
  started i hi := by
    have hlt := h.started i (hunseen ▸ hi)
    have hsome := congrArg Option.isSome (hsame i)
    rw [Option.isSome_map, Option.isSome_map, List.getElem?_eq_getElem hlt] at hsome
    exact (List.getElem?_eq_some_iff.1 (Option.some_get hsome).symm).1

/-- A new instance has not ended. -/
theorem Noticed.created (h : Noticed s) (hstaffed : Staffed s) {name : String} {new : Instance}
    (hending : new.ending = none) (hinstances : s'.instances = s.instances ++ [new])
    (hunseen : s'.unseen = s.unseen)
    (hmeetings : s'.switchboard.meetings =
      s.switchboard.meetings.insert name s.switchboard.nextInstance) : Noticed s' where
  unseen other i hi := by
    rw [hmeetings] at hi
    rw [hunseen]
    by_cases hother : other = name
    · subst hother
      rw [SortedMap.get?_insert_self, hstaffed.next] at hi
      cases hi
      have hnew : s'.instances[s.instances.length]? = some new := by
        rw [hinstances, List.getElem?_concat_length]
      rw [hasEnded_of_getElem? hnew, hending]
      constructor
      · intro hended
        cases hended
      · intro hmem
        exact absurd (h.started _ hmem) (Nat.lt_irrefl _)
    · rw [SortedMap.get?_insert_of_ne _ _ hother] at hi
      obtain ⟨x, hx, -⟩ := hstaffed.entry other i hi
      have hold : s'.instances[i]? = some x := by
        rw [hinstances, List.getElem?_append_left (List.getElem?_eq_some_iff.1 hx).1, hx]
      rw [hasEnded_of_getElem? hold, ← hasEnded_of_getElem? hx, h.unseen other i hi]
  started i hi := by
    rw [hinstances, List.length_append]
    exact Nat.lt_add_right _ (h.started i (hunseen ▸ hi))

/-- An instance that ends is unseen at first. -/
theorem Noticed.ended (h : Noticed s) {j : Nat} {ending : Ending} (hend : s.canEnd j ending = true) :
    Noticed { s.modify j ({ · with ending := some ending }) with unseen := s.unseen ++ [j] } := by
  obtain ⟨x, hx, -⟩ := (Option.any_eq_true _ _).1 hend
  have hlt : j < s.instances.length := (List.getElem?_eq_some_iff.1 hx).1
  refine ⟨fun name i hi => ?_, fun i hi => ?_⟩
  · rw [List.mem_append, List.mem_singleton]
    by_cases hij : j = i
    · subst hij
      have hended : (s.instances.modify j ({ · with ending := some ending }))[j]? =
          some { x with ending := some ending } := by
        rw [List.getElem?_modify_eq, hx]
        rfl
      refine iff_of_true ?_ (.inr rfl)
      rw [hasEnded_of_getElem? hended]
      rfl
    · have hother : (s.instances.modify j ({ · with ending := some ending }))[i]? =
          s.instances[i]? := List.getElem?_modify_ne _ _ hij
      have hsame : (s.modify j ({ · with ending := some ending })).hasEnded i = s.hasEnded i := by
        rw [hasEnded, hasEnded, ending?, ending?]
        exact congrArg (fun x => (Option.bind x Instance.ending).isSome) hother
      rw [← h.unseen name i hi, ← hsame]
      exact ⟨.inl, fun hmem => hmem.resolve_right (Ne.symm hij)⟩
  · have hlength : (s.instances.modify j ({ · with ending := some ending })).length =
        s.instances.length := List.length_modify ..
    show i < (s.instances.modify j ({ · with ending := some ending })).length
    rw [hlength]
    rcases List.mem_append.1 hi with hi | hi
    · exact h.started i hi
    · exact List.mem_singleton.1 hi ▸ hlt

theorem Noticed.take (h : Noticed s) (hstaffed : Staffed s) (input : Input κ) (queued : Nat) :
    Noticed (s.take input queued) := by
  obtain ⟨o, hcourse, htake⟩ := course_take input queued s
  rw [htake]
  cases hcourse with
  | told => exact h.congr (.refl _) rfl fun _ _ => id
  | created => exact h.created hstaffed rfl rfl rfl rfl
  | asked => exact h.congr (.refl _) rfl fun _ _ => id
  | @removed name caller i b hi hsheds =>
    exact h.congr (.modify (f := .cancel) (fun _ => rfl) s.instances i) rfl
      fun _ _ => hsheds.get?_of_get? (List.forall_mem_singleton.2 rfl)
  | shutDown => exact h.congr (.map_cancel s.instances) rfl fun _ _ => id

theorem Noticed.step (h : Noticed s) (hstaffed : Staffed s) (hcourse : Course s s') :
    Noticed s' := by
  cases hcourse with
  | idle => exact h
  | taken input queued => exact h.take hstaffed input queued
  | @viewed i caller ran =>
    obtain ⟨reply, hview⟩ := onView_eq i caller ran s
    rw [hview]
    exact h.congr (.refl _) rfl fun _ _ => id
  | looked =>
    rw [look_eq]
    refine ⟨fun name i hi => ?_, fun i hi => by cases hi⟩
    -- what is left has not ended, and nothing is unseen
    have hrunning := (Option.filter_eq_some_iff.1
      ((get?_reap (κ := κ) s.ending? s.switchboard name).symm.trans hi)).2
    have hended : s.hasEnded i = false := by
      rw [Service.hasEnded, Option.isSome_eq_false_iff]
      exact hrunning
    refine iff_of_false (fun htrue => ?_) List.not_mem_nil
    exact Bool.false_ne_true (hended.symm.trans htrue)
  | worked i meeting =>
    exact h.congr (.modify (f := ({ · with meeting })) (fun _ => rfl) s.instances i) rfl
      fun _ _ => id
  | told i =>
    exact h.congr (.modify (f := .cancel) (fun _ => rfl) s.instances i) rfl fun _ _ => id
  | ended i ending hend => exact h.ended hend
  | cancelled => exact h.congr (.map_cancel s.instances) rfl fun _ _ => id
  | stopping =>
    rw [beginStop_eq]
    exact h.congr (.cancelEach _ s.instances) rfl fun _ _ => id
  | released waited =>
    rw [release_eq]
    exact h.congr (.refl _) rfl fun name i hi => get?_of_get?_release hi

theorem noticed_run (limits : Locus.Limits) (ownsMedia : Bool) (events : List (Event κ)) :
    Noticed ((start limits ownsMedia).run events) := by
  refine (run_induction (P := fun s => (Staffed s ∧ Closing s) ∧ Noticed s)
    (fun s s' hcourse h => ⟨⟨h.1.1.step h.1.2 hcourse, h.1.2.step hcourse⟩, ?_⟩) events
    ⟨⟨staffed_start limits ownsMedia, closing_start limits ownsMedia⟩,
      noticed_start limits ownsMedia⟩).2
  exact h.2.step h.1.1 hcourse

/-! ### What callers are told -/

/-- The caller of a message is told what it can be told at once. -/
theorem answers_take (s : Service κ) (input : Input κ) (queued : Nat) :
    (s.take input queued).answers = s.answers ++
      (((s.switchboard.received queued).1.answer? input).map (input.caller, ·)).toList := by
  have hcourse := Switchboard.course_step input (s.switchboard.received queued).1
  unfold Service.take answer?
  generalize (s.switchboard.received queued).1.step input = o at hcourse
  cases hcourse with
  | told => rfl
  | created => rfl
  | asked => exact (List.append_nil _).symm
  | removed => rfl
  | shutDown => rfl

/-- One who waits for the view of an instance that had ended when it was asked is told that it
cannot be reached. -/
theorem answers_viewed_of_ended {i : Nat} {caller : κ} {x : Instance} {e : Ending}
    (hphase : s.phase = .asking i caller false) (hx : s.instances[i]? = some x)
    (he : x.ending = some e) :
    (s.step .viewed).answers = s.answers ++ [(caller, .refused .sendClosed)] := by
  have hshows : s.shows i false = .error .sendClosed := by
    obtain ⟨name, meeting, cancelled, ending⟩ := x
    rw [shows, hx]
    cases he
    rfl
  have hstep : s.step .viewed = s.onView i caller false := by
    unfold step
    rw [hphase]
  rw [hstep, onView, hshows]
  rfl

/-- One who asks for a summary of a meeting that has ended is told that it cannot be reached. -/
theorem summarize_of_hasEnded {name : String} {i : Nat}
    (hi : s.switchboard.meetings.get? name = some i) (hended : s.hasEnded i = true) (caller : κ)
    (queued : Nat) :
    ((s.take (.summarize name caller) queued).step .viewed).answers =
      s.answers ++ [(caller, .refused .sendClosed)] := by
  obtain ⟨e, he⟩ := Option.isSome_iff_exists.1 hended
  obtain ⟨x, hx, hxe⟩ := Option.bind_eq_some_iff.1 he
  have hrunning : s.isRunning i = false := by
    rw [isRunning, hx, Option.any_some, hxe]
    rfl
  have htake : s.take (.summarize name caller) queued =
      { s with
        switchboard := (s.switchboard.received queued).1
        phase := .asking i caller false
        records := s.records ++ [] } := by
    unfold Service.take
    rw [step_summarize_of_some (s := (s.switchboard.received queued).1) hi, ← hrunning]
    rfl
  rw [htake]
  exact answers_viewed_of_ended rfl hx hxe

/-- **A meeting that ends while the switchboard rests is still there for the next message.**  In every
run:

* of the meetings in the table those have ended that ended since the switchboard looked;
* at rest, the caller of a message is told the same as if the meetings that have ended were gone
  exactly if the message concerns none that ended since the switchboard looked;
* one who then asks for a summary of such a meeting is told that it cannot be reached. -/
theorem answers_without_ended_iff (limits : Locus.Limits) (ownsMedia : Bool)
    (events : List (Event κ)) :
    let s := (start limits ownsMedia).run events
    (∀ name i, s.switchboard.meetings.get? name = some i →
        (s.hasEnded i = true ↔ i ∈ s.unseen)) ∧
      (s.phase = .resting → ∀ (input : Input κ) queued,
        let b := (s.switchboard.received queued).1
        (s.step (.take input queued)).answers =
            s.answers ++ ((b.answer? input).map (input.caller, ·)).toList ∧
          ((b.without s.hasEnded).answer? input = b.answer? input ↔
            ∀ name i, b.meetings.get? name = some i → b.Concerns name input → i ∉ s.unseen)) ∧
      (s.phase = .resting → ∀ name caller queued i,
        s.switchboard.meetings.get? name = some i → i ∈ s.unseen →
          ((s.step (.take (.summarize name caller) queued)).step .viewed).answers =
            s.answers ++ [(caller, .refused .sendClosed)]) := by
  intro s
  have hnoticed : Noticed s := noticed_run limits ownsMedia events
  refine ⟨hnoticed.unseen, fun hphase input queued => ⟨?_, ?_⟩,
    fun hphase name caller queued i hi hunseen => ?_⟩
  · rw [step_take hphase]
    exact answers_take s input queued
  · rw [answer?_without_iff]
    refine forall_congr' fun name => forall_congr' fun i => forall_congr' fun hi => ?_
    rw [← hnoticed.unseen name i hi, Bool.not_eq_true]
  · rw [step_take hphase]
    exact summarize_of_hasEnded hi ((hnoticed.unseen name i hi).2 hunseen) caller queued

/-- A meeting is told to stop while the switchboard rests, and stops. -/
def stopsUnseen : List (Event Unit) :=
  [.look, .take (.create "m" ()) 0, .look, .cancelInstance 0, .finish 0 .stopped]

/-- The meeting has stopped, and still no other one can be created, it is found and removed, and it
is counted. -/
theorem answered_by_stopped :
    let s := (start ⟨5, 2000, 1000⟩ true).run stopsUnseen
    let gone := s.switchboard.without s.hasEnded
    s.phase = .resting ∧ s.switchboard.meetings.get? "m" = some 0 ∧ s.ending? 0 = some .stopped ∧
      s.switchboard.answer? (.create "m" ()) =
        some (.refused (.conflict "Meeting already exists")) ∧
      gone.answer? (.create "m" ()) = some (.found "m" 1) ∧
      s.switchboard.answer? (.find "m" ()) = some (.found "m" 0) ∧
      gone.answer? (.find "m" ()) = some (.refused (.meetingNotFound "m")) ∧
      s.switchboard.answer? (.remove "m" ()) = some .done ∧
      gone.answer? (.remove "m" ()) = some (.refused (.meetingNotFound "m")) ∧
      s.switchboard.currentStatus.meetings = 1 ∧ gone.currentStatus.meetings = 0 := by
  exact ⟨rfl, rfl, rfl, rfl, rfl, rfl, rfl, rfl, rfl, rfl, rfl⟩

end Service

end CallSignaling.Switchboard
