import CallSignaling.Switchboard
import Mathlib.Data.List.Basic

/-!
# The table of a switchboard

Meetings come into the table in one way and leave it in three.  What is put on record of that is
enough to know the table, the count of meetings and the count of crashes.

* `Switchboard.Record`: a meeting came into the table or left it.
* `Switchboard.standing`: the instance of a meeting by what is on record.
* `Switchboard.Sheds`: an outcome in which meetings leave the table, and nothing else happens.
* `Switchboard.Course`: what a message comes to, one case for each way through it.

Main statements: what every message comes to (`course_step`), and who leaves the table when the
switchboard looks for meetings that ended (`sheds_reap`) and when it waits for them to stop
(`sheds_release`).
-/

namespace CallSignaling.Switchboard

variable {κ : Type}

/-! ### Records -/

/-- A meeting came into the table or left it. -/
inductive Record where
  | created (name : String) (instanceId : Nat)
  | removed (name : String)
  /-- It was found to have ended by itself. -/
  | reaped (name : String) (ending : Ending)
  /-- It was waited for when all meetings were to stop. -/
  | released (name : String)
  deriving DecidableEq

namespace Record

/-- The name of the meeting. -/
def name : Record → String
  | created name _ | removed name | reaped name _ | released name => name

/-- The instance of the meeting that is in the table from there on. -/
def instance? : Record → Option Nat
  | created _ i => some i
  | removed _ | reaped _ _ | released _ => none

/-- Whether the meeting was found to have crashed. -/
def isCrash : Record → Bool
  | reaped _ .crashed => true
  | reaped _ .stopped | created _ _ | removed _ | released _ => false

end Record

/-- The instance of a meeting after what is on record, if it was `current` before. -/
def standing (name : String) (records : List Record) (current : Option Nat) : Option Nat :=
  records.foldl (fun current r => if r.name = name then r.instance? else current) current

theorem standing_append (name : String) (records more : List Record) (current : Option Nat) :
    standing name (records ++ more) current =
      standing name more (standing name records current) :=
  List.foldl_append

theorem standing_singleton (name : String) (r : Record) (current : Option Nat) :
    standing name [r] current = if r.name = name then r.instance? else current := rfl

/-- When meetings have left, those that did not are where they were. -/
theorem standing_leaving {records : List Record} (h : ∀ r ∈ records, r.instance? = none)
    (name : String) (current : Option Nat) :
    standing name records current =
      if name ∈ records.map Record.name then none else current := by
  induction records generalizing current with
  | nil => exact (if_neg List.not_mem_nil).symm
  | cons r records ih =>
    have hfirst : standing name (r :: records) current =
        standing name records (if r.name = name then r.instance? else current) := rfl
    rw [hfirst, ih fun r hr => h r (List.mem_cons_of_mem _ hr), h r List.mem_cons_self]
    by_cases hname : r.name = name
    · simp [hname]
    · simp [hname, Ne.symm hname]

/-- When meetings of a table have left it, those that did not are where they were. -/
theorem standing_filterMap {record? : String × Nat → Option Record}
    (h : ∀ e r, record? e = some r → r.name = e.1 ∧ r.instance? = none) (name : String)
    (m : SortedMap String Nat) :
    standing name (m.entries.filterMap record?) (m.get? name) =
      (m.get? name).filter fun i => (record? (name, i)).isNone := by
  have hleaving : ∀ r ∈ m.entries.filterMap record?, r.instance? = none := by
    intro r hr
    obtain ⟨e, -, hrecord⟩ := List.mem_filterMap.1 hr
    exact (h e r hrecord).2
  rw [standing_leaving hleaving]
  cases hi : m.get? name with
  | none => exact ite_self none
  | some i =>
    have hmem : name ∈ (m.entries.filterMap record?).map Record.name ↔
        record? (name, i) ≠ none := by
      rw [List.mem_map]
      constructor
      · rintro ⟨r, hr, hname⟩
        obtain ⟨e, he, hrecord⟩ := List.mem_filterMap.1 hr
        obtain rfl : e.1 = name := (h e r hrecord).1.symm.trans hname
        rw [SortedMap.get?_eq_some_iff.2 he] at hi
        cases hi
        exact hrecord ▸ Option.some_ne_none r
      · intro hne
        obtain ⟨r, hrecord⟩ := Option.ne_none_iff_exists'.1 hne
        exact ⟨r, List.mem_filterMap.2 ⟨_, SortedMap.get?_eq_some_iff.1 hi, hrecord⟩,
          (h _ r hrecord).1⟩
    by_cases hrecord : record? (name, i) = none
    · rw [if_neg (fun h => hmem.1 h hrecord), Option.filter_some, hrecord]
      rfl
    · rw [if_pos (hmem.2 hrecord), Option.filter_some, if_neg]
      simpa using hrecord

/-! ### Leaving the table -/

/-- Meetings leave the table, and nothing else happens. -/
structure Sheds (records : List Record) (s : Switchboard) (o : Outcome Switchboard (Effect κ)) :
    Prop where
  effects : o.effects = []
  accepting : o.state.accepting = s.accepting
  nextInstance : o.state.nextInstance = s.nextInstance
  table : ∀ name, o.state.meetings.get? name = standing name records (s.meetings.get? name)
  size : o.state.meetings.size + records.length = s.meetings.size
  active : o.state.tally.activeMeetings = s.tally.activeMeetings - records.length
  panics : o.state.tally.panics = s.tally.panics + records.countP Record.isCrash

theorem Sheds.stay (s : Switchboard) : Sheds (κ := κ) [] s (.stay s) where
  effects := rfl
  accepting := rfl
  nextInstance := rfl
  table _ := rfl
  size := rfl
  active := rfl
  panics := rfl

/-- Metrics make no difference. -/
theorem Sheds.of_eq {records : List Record} {s : Switchboard}
    {o o' : Outcome Switchboard (Effect κ)} (h : Sheds records s o) (hstate : o'.state = o.state)
    (heffects : o'.effects = o.effects) : Sheds records s o' where
  effects := heffects.trans h.effects
  accepting := hstate ▸ h.accepting
  nextInstance := hstate ▸ h.nextInstance
  table := hstate ▸ h.table
  size := hstate ▸ h.size
  active := hstate ▸ h.active
  panics := hstate ▸ h.panics

theorem Sheds.andThen {records more : List Record} {s : Switchboard}
    {o : Outcome Switchboard (Effect κ)} {f : Switchboard → Outcome Switchboard (Effect κ)}
    (h : Sheds records s o) (hf : Sheds more o.state (f o.state)) :
    Sheds (records ++ more) s (o.andThen f) where
  effects := by rw [Outcome.andThen_effects, h.effects, hf.effects]; rfl
  accepting := hf.accepting.trans h.accepting
  nextInstance := hf.nextInstance.trans h.nextInstance
  table name := by rw [Outcome.andThen_state, hf.table, h.table, standing_append]
  size := by
    have hfirst := h.size
    have hthen := hf.size
    rw [Outcome.andThen_state, List.length_append]
    omega
  active := by
    rw [Outcome.andThen_state, hf.active, h.active, List.length_append, Nat.sub_add_eq]
  panics := by
    rw [Outcome.andThen_state, hf.panics, h.panics, List.countP_append, Nat.add_assoc]

/-- Nothing comes into a table that meetings leave. -/
theorem Sheds.get?_of_get? {records : List Record} {s : Switchboard}
    {o : Outcome Switchboard (Effect κ)} (h : Sheds records s o)
    (hleaving : ∀ r ∈ records, r.instance? = none) {name : String} {i : Nat}
    (hi : o.state.meetings.get? name = some i) : s.meetings.get? name = some i := by
  rw [h.table, standing_leaving hleaving] at hi
  split at hi
  · cases hi
  · exact hi

section Drop

variable {s : Switchboard} {name : String} {i : Nat}

/-- A meeting of the table leaves it. -/
theorem sheds_drop (h : s.meetings.get? name = some i) {r : Record} (hname : r.name = name)
    (hleaves : r.instance? = none) (hcrash : r.isCrash = false) :
    Sheds (κ := κ) [r] s (s.drop name) where
  effects := rfl
  accepting := rfl
  nextInstance := rfl
  table other := by
    have hdrop : (s.drop name : Outcome Switchboard (Effect κ)).state.meetings =
        s.meetings.erase name := rfl
    rw [hdrop, standing_singleton, hname, hleaves]
    by_cases hother : name = other
    · rw [if_pos hother, hother, SortedMap.get?_erase_self]
    · rw [if_neg hother, SortedMap.get?_erase_of_ne _ (Ne.symm hother)]
  size := (SortedMap.entries_of_get? h).length_eq.symm
  active := rfl
  panics := by
    rw [List.countP_singleton, hcrash]
    rfl

/-- A meeting of the table is found to have crashed and leaves it. -/
theorem sheds_crash (h : s.meetings.get? name = some i) :
    Sheds (κ := κ) [.reaped name .crashed] s
      (Outcome.andThen { state := { s with tally := (s.tally.panicked .meeting).1 } }
        (drop name)) := by
  have hdrop := sheds_drop (κ := κ) (s := { s with tally := (s.tally.panicked .meeting).1 })
    (r := .removed name) h rfl rfl rfl
  exact {
    effects := rfl
    accepting := rfl
    nextInstance := rfl
    table := hdrop.table
    size := hdrop.size
    active := hdrop.active
    panics := rfl }

end Drop

/-- What is put on record of each of different meetings of the table leaves it, in turn. -/
theorem sheds_runAll {record? : String × Nat → Option Record}
    {part : String × Nat → Switchboard → Outcome Switchboard (Effect κ)}
    (hname : ∀ e r, record? e = some r → r.name = e.1)
    (hpart : ∀ e r s, record? e = some r → s.meetings.get? e.1 = some e.2 → Sheds [r] s (part e s))
    (hstay : ∀ e s, record? e = none → part e s = .stay s) {entries : List (String × Nat)}
    {s : Switchboard} (hnodup : (entries.map Prod.fst).Nodup)
    (hin : ∀ e ∈ entries, s.meetings.get? e.1 = some e.2) :
    Sheds (entries.filterMap record?) s (Outcome.runAll part entries s) := by
  induction entries generalizing s with
  | nil => exact .stay s
  | cons e entries ih =>
    obtain ⟨hnot, hnodup⟩ := List.nodup_cons.1 hnodup
    have hrest : ∀ e' ∈ entries, s.meetings.get? e'.1 = some e'.2 :=
      fun e' he' => hin e' (List.mem_cons_of_mem e he')
    rw [Outcome.runAll]
    cases hrecord : record? e with
    | none =>
      rw [hstay e s hrecord, Outcome.stay_andThen, List.filterMap_cons_none hrecord]
      exact ih hnodup hrest
    | some r =>
      have hfirst := hpart e r s hrecord (hin e List.mem_cons_self)
      rw [List.filterMap_cons_some hrecord]
      refine hfirst.andThen (ih hnodup fun e' he' => ?_)
      -- the others are still there, since their names are different
      have hne : r.name ≠ e'.1 := by
        rw [hname e r hrecord]
        intro heq
        exact hnot (heq ▸ List.mem_map_of_mem he')
      rw [hfirst.table, standing_singleton, if_neg hne]
      exact hrest e' he'

/-- What becomes of a meeting when the switchboard looks for those that ended by themselves. -/
def reapEntry (ending? : Nat → Option Ending) (entry : String × Nat) (s : Switchboard) :
    Outcome Switchboard (Effect κ) :=
  match ending? entry.2 with
  | none => .stay s
  | some .stopped => s.drop entry.1
  | some .crashed =>
    Outcome.andThen
      { state := { s with tally := (s.tally.panicked .meeting).1 }
        metrics := (s.tally.panicked .meeting).2 } (drop entry.1)

theorem reap_eq (ending? : Nat → Option Ending) (s : Switchboard) :
    (s.reap ending? : Outcome Switchboard (Effect κ)) =
      Outcome.runAll (reapEntry ending?) s.meetings.entries s := by
  rw [← Outcome.stay_andThen s (Outcome.runAll _ _), ← Outcome.foldl_andThen, reap]
  refine congrArg (List.foldl · (Outcome.stay s) s.meetings.entries) ?_
  funext o entry
  unfold reapEntry
  cases ending? entry.2 with
  | none => exact (Outcome.andThen_stay o).symm
  | some ending => cases ending <;> rfl

/-- What is put on record of a meeting that ended by itself. -/
def reaped? (ending? : Nat → Option Ending) (entry : String × Nat) : Option Record :=
  (ending? entry.2).map (.reaped entry.1)

/-- Meetings that ended by themselves leave the table. -/
theorem sheds_reap (ending? : Nat → Option Ending) (s : Switchboard) :
    Sheds (κ := κ) (s.meetings.entries.filterMap (reaped? ending?)) s (s.reap ending?) := by
  rw [reap_eq]
  refine sheds_runAll ?_ ?_ ?_ s.meetings.nodup_keys fun e => SortedMap.get?_eq_some_iff.2
  · intro e r h
    obtain ⟨ending, -, rfl⟩ := Option.map_eq_some_iff.1 h
    rfl
  · intro e r s h hin
    obtain ⟨ending, hending, rfl⟩ := Option.map_eq_some_iff.1 h
    rw [reapEntry, hending]
    cases ending with
    | stopped => exact sheds_drop hin rfl rfl rfl
    | crashed => exact (sheds_crash hin).of_eq rfl rfl
  · intro e s h
    rw [reapEntry, Option.map_eq_none_iff.1 h]

theorem get?_reap (ending? : Nat → Option Ending) (s : Switchboard) (name : String) :
    (s.reap ending? : Outcome Switchboard (Effect κ)).state.meetings.get? name =
      (s.meetings.get? name).filter fun i => (ending? i).isNone := by
  have hrecord : ∀ e r, reaped? ending? e = some r → r.name = e.1 ∧ r.instance? = none := by
    intro e r h
    obtain ⟨ending, -, rfl⟩ := Option.map_eq_some_iff.1 h
    exact ⟨rfl, rfl⟩
  rw [(sheds_reap ending? s).table, standing_filterMap hrecord]
  simp only [reaped?, Option.isNone_map]

/-- What becomes of a meeting when the switchboard waits for them to stop. -/
def releaseEntry (waited : Nat → Bool) (entry : String × Nat) (s : Switchboard) :
    Outcome Switchboard (Effect κ) :=
  if waited entry.2 then s.drop entry.1 else .stay s

theorem release_eq (waited : Nat → Bool) (s : Switchboard) :
    (s.release waited : Outcome Switchboard (Effect κ)) =
      Outcome.runAll (releaseEntry waited) s.meetings.entries s := by
  rw [← Outcome.stay_andThen s (Outcome.runAll _ _), ← Outcome.foldl_andThen, release]
  refine congrArg (List.foldl · (Outcome.stay s) s.meetings.entries) ?_
  funext o entry
  unfold releaseEntry
  cases waited entry.2 with
  | true => rfl
  | false => exact (Outcome.andThen_stay o).symm

/-- What is put on record of a meeting that was waited for. -/
def released? (waited : Nat → Bool) (entry : String × Nat) : Option Record :=
  if waited entry.2 then some (.released entry.1) else none

/-- Meetings that were waited for leave the table. -/
theorem sheds_release (waited : Nat → Bool) (s : Switchboard) :
    Sheds (κ := κ) (s.meetings.entries.filterMap (released? waited)) s (s.release waited) := by
  rw [release_eq]
  refine sheds_runAll ?_ ?_ ?_ s.meetings.nodup_keys fun e => SortedMap.get?_eq_some_iff.2
  · intro e r h
    cases (Option.ite_none_right_eq_some.1 h).2
    rfl
  · intro e r s h hin
    obtain ⟨hwaited, hr⟩ := Option.ite_none_right_eq_some.1 h
    cases hr
    rw [releaseEntry, if_pos hwaited]
    exact sheds_drop hin rfl rfl rfl
  · intro e s h
    unfold released? at h
    split at h
    · cases h
    · rename_i hwaited
      rw [releaseEntry, if_neg hwaited]

theorem get?_release (waited : Nat → Bool) (s : Switchboard) (name : String) :
    (s.release waited : Outcome Switchboard (Effect κ)).state.meetings.get? name =
      (s.meetings.get? name).filter fun i => !waited i := by
  have hrecord : ∀ e r, released? waited e = some r → r.name = e.1 ∧ r.instance? = none := by
    intro e r h
    cases (Option.ite_none_right_eq_some.1 h).2
    exact ⟨rfl, rfl⟩
  rw [(sheds_release waited s).table, standing_filterMap hrecord]
  refine congrArg (Option.filter · (s.meetings.get? name)) (funext fun i => ?_)
  rw [released?]
  cases waited i <;> rfl

/-- Nothing comes into the table when meetings that were waited for leave it. -/
theorem get?_of_get?_release {waited : Nat → Bool} {s : Switchboard} {name : String} {i : Nat}
    (h : (s.release waited : Outcome Switchboard (Effect κ)).state.meetings.get? name = some i) :
    s.meetings.get? name = some i :=
  (Option.filter_eq_some_iff.1 ((get?_release waited s name).symm.trans h)).1

/-! ### Messages -/

section Create

variable {s : Switchboard} {name : String} {caller : κ}

theorem step_create_of_draining (h : s.accepting = false) :
    s.step (.create name caller) = s.refuse caller .draining := by
  rw [step, create, h]
  rfl

theorem step_create_of_some {i : Nat} (haccepting : s.accepting = true)
    (h : s.meetings.get? name = some i) :
    s.step (.create name caller) = s.refuse caller (.conflict "Meeting already exists") := by
  rw [step, create, haccepting, SortedMap.contains, h]
  rfl

theorem step_create_of_none (haccepting : s.accepting = true) (h : s.meetings.get? name = none) :
    (s.step (.create name caller)).effects =
      [.start name s.nextInstance, .reply caller (.found name s.nextInstance)] := by
  rw [step, create, haccepting, SortedMap.contains, h]
  rfl

end Create

theorem step_summarize_of_some {s : Switchboard} {name : String} {caller : κ} {i : Nat}
    (h : s.meetings.get? name = some i) :
    s.step (.summarize name caller) = { state := s, effects := [.ask i caller] } := by
  rw [step, h]

/-- What is put on record of the reply to a message. -/
def Input.record? : Input κ → Reply → Option Record
  | .create name _, .found _ i => some (.created name i)
  | .remove name _, .done => some (.removed name)
  | _, _ => none

/-- What a message comes to, with what decides it. -/
inductive Course (s : Switchboard) : Input κ → Outcome Switchboard (Effect κ) → Prop
  /-- The caller is told something, and nothing else happens. -/
  | told {input : Input κ} {reply : Reply} (hrecord : input.record? reply = none) :
      Course s input { state := s, effects := [.reply input.caller reply] }
  | created {name : String} {caller : κ} {metrics : List Metric}
      (haccepting : s.accepting = true) (hfree : s.meetings.get? name = none) :
      Course s (.create name caller)
        { state :=
            { s with
              meetings := s.meetings.insert name s.nextInstance
              nextInstance := s.nextInstance + 1
              tally := { s.tally with activeMeetings := s.tally.activeMeetings + 1 } }
          effects := [.start name s.nextInstance, .reply caller (.found name s.nextInstance)]
          metrics }
  | asked {name : String} {caller : κ} {i : Nat} (hi : s.meetings.get? name = some i) :
      Course s (.summarize name caller) { state := s, effects := [.ask i caller] }
  | removed {name : String} {caller : κ} {i : Nat} {o : Outcome Switchboard (Effect κ)}
      (hi : s.meetings.get? name = some i) (hsheds : Sheds [.removed name] s o) :
      Course s (.remove name caller)
        { state := o.state, effects := [.cancel i, .reply caller .done], metrics := o.metrics }
  | shutDown {caller : κ} :
      Course s (.shutdown caller)
        { state := { s with accepting := false }, effects := [.cancelAll, .reply caller .done] }

theorem course_step (input : Input κ) (s : Switchboard) : Course s input (s.step input) := by
  cases input with
  | create name caller =>
    rw [step, create]
    split
    · exact .told rfl
    · rename_i haccepting
      split
      · exact .told rfl
      · rename_i hfree
        exact .created (by simpa using haccepting) (by simpa [SortedMap.contains] using hfree)
  | find name caller =>
    rw [step]
    split
    · exact .told rfl
    · exact .told rfl
  | summarize name caller =>
    rw [step]
    split
    · exact .told rfl
    · rename_i i hi
      exact .asked hi
  | remove name caller =>
    rw [step]
    split
    · exact .told rfl
    · rename_i i hi
      exact .removed hi (sheds_drop hi rfl rfl rfl)
  | status caller => exact .told rfl
  | shutdown caller => exact .shutDown

end CallSignaling.Switchboard
