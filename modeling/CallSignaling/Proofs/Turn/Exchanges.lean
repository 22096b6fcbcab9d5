import CallSignaling.Turn.Slot
import Mathlib.Data.List.Nodup
import Mathlib.Data.List.Range

/-!
# Exchanges over time

The slot holds one exchange and forgets those before it, so what became of all of them is written
down beside it.  The right to complete an exchange lies in the slot, with whoever takes it out, or
is used up; a response takes it out and puts the completion in later.

* `Turn.Slot.claim`, `Turn.Slot.put`: the two halves of `Turn.Slot.deliver` (`deliver_eq`).
* `Turn.Slot.generation?`, `Turn.Slot.open?`, `Turn.Slot.full?`: what a slot shows of its exchange.
* `Turn.History`: which exchanges were opened and ended, the responses to them and their
  completions.
* `Turn.Tracked`: a slot, its history and the completions under way fit together.  Every use of the
  slot keeps it so: `Tracked.begin`, `Tracked.respond`, `Tracked.ignore`, `Tracked.put`,
  `Tracked.keep` and `Tracked.clear`.
-/

namespace CallSignaling.Turn

open Roap (Message)

namespace Slot

/-! ### The halves of a delivery -/

/-- Takes out the right to complete the pending exchange, once.  The result names the exchange. -/
def claim (s : Slot) : Slot × Option Nat :=
  match s.pending with
  | some p =>
    if p.isOpen then ({ s with pending := some { p with isOpen := false } }, some p.generation)
    else (s, none)
  | none => (s, none)

/-- Puts in the completion of an exchange.  The result names the exchange unless the slot holds the
place for it. -/
def put (generation : Nat) (completion : Completion) (s : Slot) : Slot × Option Nat :=
  match s.pending with
  | some p =>
    if p.generation = generation then
      match p.inbox with
      | .taken => (s, some generation)
      | _ => ({ s with pending := some { p with inbox := .full completion } }, none)
    else (s, some generation)
  | none => (s, some generation)

theorem deliver_eq (completion : Completion) (s : Slot) :
    s.deliver completion =
      match s.claim with
      | (t, some generation) => t.put generation completion
      | (t, none) => (t, none) := by
  obtain ⟨next, pending⟩ := s
  rcases pending with _ | ⟨generation, _ | _, _ | c | _⟩ <;> simp [deliver, claim, put]

/-! ### What a slot shows -/

/-- The number of the pending exchange. -/
def generation? (s : Slot) : Option Nat := s.pending.map (·.generation)

/-- The pending exchange if the right to complete it lies in the slot. -/
def open? (s : Slot) : Option Nat := (s.pending.filter (·.isOpen)).map (·.generation)

/-- The completion that lies in the slot. -/
def full? (s : Slot) : Option (Nat × Completion) :=
  s.pending.bind fun p =>
    match p.inbox with
    | .full completion => some (p.generation, completion)
    | _ => none

theorem generation?_of_open? {s : Slot} {g : Nat} (h : s.open? = some g) :
    s.generation? = some g := by
  obtain ⟨p, hp, rfl⟩ := Option.map_eq_some_iff.1 h
  rw [generation?, (Option.filter_eq_some_iff.1 hp).1]
  rfl

/-- The two slots show the same, but the completion may be gone from the second. -/
structure Keeps (s t : Slot) : Prop where
  next : t.nextGeneration = s.nextGeneration
  generation : t.generation? = s.generation?
  isOpen : t.open? = s.open?
  full : ∀ p, t.full? = some p → s.full? = some p

theorem Keeps.refl (s : Slot) : s.Keeps s := ⟨rfl, rfl, rfl, fun _ => id⟩

/-- What claiming does, by whether there is something to claim. -/
theorem claim_cases (s : Slot) :
    (s.open? = none ∧ s.claim = (s, none)) ∨
      ∃ g t, s.open? = some g ∧ s.claim = (t, some g) ∧ t.nextGeneration = s.nextGeneration ∧
        t.generation? = s.generation? ∧ t.open? = none ∧ t.full? = s.full? := by
  obtain ⟨next, pending⟩ := s
  rcases pending with _ | ⟨generation, _ | _, inbox⟩
  · exact .inl ⟨rfl, rfl⟩
  · exact .inl ⟨rfl, rfl⟩
  · exact .inr ⟨generation, _, rfl, rfl, rfl, rfl, rfl, rfl⟩

/-- What lies in the slot has nothing to do with the exchange and the right to complete it. -/
theorem with_inbox {s : Slot} {p : Pending} (hp : s.pending = some p) (inbox : Inbox) :
    let t : Slot := { s with pending := some { p with inbox } }
    t.generation? = s.generation? ∧ t.open? = s.open? := by
  intro t
  constructor
  · rw [generation?, generation?, hp]
    rfl
  · rw [open?, open?, hp]
    cases h : p.isOpen <;> simp [t, Option.filter, h]

/-- Putting a completion in leaves all but that as it is. -/
theorem put_spec (g : Nat) (c : Completion) (s : Slot) :
    (s.put g c).1.nextGeneration = s.nextGeneration ∧
      (s.put g c).1.generation? = s.generation? ∧ (s.put g c).1.open? = s.open? ∧
      (∀ p, (s.put g c).1.full? = some p → s.full? = some p ∨ p = (g, c)) ∧
      ∀ g' ∈ (s.put g c).2, g' = g := by
  have helsewhere : ∀ g' ∈ some g, g' = g := fun g' hg' => (Option.some.inj hg').symm
  unfold put
  split
  · rename_i p hp
    split
    · rename_i hg
      split
      · exact ⟨rfl, rfl, rfl, fun _ => .inl, helsewhere⟩
      · obtain ⟨hgen, hopen⟩ := with_inbox hp (.full c)
        refine ⟨rfl, hgen, hopen, fun q hq => .inr ?_, nofun⟩
        cases hq
        rw [hg]
    · exact ⟨rfl, rfl, rfl, fun _ => .inl, helsewhere⟩
  · exact ⟨rfl, rfl, rfl, fun _ => .inl, helsewhere⟩

/-- Whoever takes the completion out finds the one that lay in the slot, if any. -/
theorem receive_spec (g : Nat) (s : Slot) :
    s.Keeps (s.receive g).1 ∧ ∀ c, (s.receive g).2 = .completed c → s.full? = some (g, c) := by
  unfold receive
  split
  · rename_i p hp
    split
    · rename_i hg
      have hkeeps : s.Keeps { s with pending := some { p with inbox := .taken } } := by
        obtain ⟨hgen, hopen⟩ := with_inbox hp .taken
        exact ⟨rfl, hgen, hopen, fun _ h => by cases h⟩
      cases h : p.inbox with
      | empty => exact ⟨hkeeps, nofun⟩
      | full completion =>
        refine ⟨hkeeps, fun c hc => ?_⟩
        cases hc
        rw [full?, hp, Option.bind_some, h, ← hg]
      | taken => exact ⟨hkeeps, nofun⟩
    · exact ⟨.refl s, nofun⟩
  · exact ⟨.refl s, nofun⟩

/-- Whoever waits for a completion waits for one that can still be put in. -/
theorem open?_of_waiting? {s : Slot} {g : Nat} (h : s.waiting? = some g) : s.open? = some g := by
  obtain ⟨next, pending⟩ := s
  rcases pending with _ | ⟨generation, _ | _, _ | c | _⟩ <;> simp_all [waiting?, open?]

/-- An exchange is ended only if it is the pending one. -/
theorem finish_cases (g : Nat) (s : Slot) :
    (s.generation? ≠ some g ∧ s.finish g = s) ∨
      (s.generation? = some g ∧ s.finish g = { s with pending := none }) := by
  unfold finish generation?
  split
  · rename_i p hp
    rw [hp]
    split
    · rename_i hg
      exact .inr ⟨congrArg some hg, rfl⟩
    · rename_i hg
      exact .inl ⟨fun h => hg (Option.some.inj h), rfl⟩
  · rename_i hp
    rw [hp]
    exact .inl ⟨nofun, rfl⟩

theorem generation?_finish (g : Nat) (s : Slot) : (s.finish g).generation? ≠ some g := by
  rcases s.finish_cases g with ⟨hne, hfinish⟩ | ⟨-, hfinish⟩
  · rwa [hfinish]
  · rw [hfinish]
    exact nofun

end Slot

/-! ### History -/

/-- What became of exchanges, in turn. -/
structure History where
  opened : List Nat := []
  /-- Those that are not pending any more. -/
  ended : List Nat := []
  /-- The responses, each to the exchange that was pending, with where it came from. -/
  handled : List (Nat × Message × String) := []
  /-- The completions put in. -/
  completions : List (Nat × Completion) := []

namespace History

theorem map_fst_map_mk {α : Type} (l : List Nat) (a : α) : (l.map (·, a)).map Prod.fst = l := by
  rw [List.map_map]
  exact List.map_id _

/-- The history with what happened next. -/
def append (h news : History) : History :=
  { opened := h.opened ++ news.opened
    ended := h.ended ++ news.ended
    handled := h.handled ++ news.handled
    completions := h.completions ++ news.completions }

/-- The first response to an exchange. -/
def first? (h : History) (g : Nat) : Option (Message × String) :=
  (h.handled.find? (·.1 = g)).map (·.2)

/-- What an exchange comes to by its first response. -/
def resolution? (h : History) (g : Nat) : Option Completion :=
  (h.first? g).map fun response => resolve response.1 response.2

/-- The exchanges that one of two slots in turn holds and the other does not. -/
def ofSlots (s t : Slot) : History :=
  { opened := if t.nextGeneration = s.nextGeneration then [] else t.generation?.toList
    ended := s.generation?.toList.filter (t.generation? ≠ some ·) }

/-- What is written down of a step from one slot to another, with what it adds to the responses and
the completions. -/
def recorded (s t : Slot) (news : History) : History :=
  { ofSlots s t with handled := news.handled, completions := news.completions }

@[simp] theorem append_opened (h news : History) :
    (h.append news).opened = h.opened ++ news.opened := rfl

@[simp] theorem append_ended (h news : History) :
    (h.append news).ended = h.ended ++ news.ended := rfl

@[simp] theorem append_handled (h news : History) :
    (h.append news).handled = h.handled ++ news.handled := rfl

@[simp] theorem append_completions (h news : History) :
    (h.append news).completions = h.completions ++ news.completions := rfl

theorem first?_append (h news : History) (g : Nat) :
    (h.append news).first? g = (h.first? g).or (news.first? g) := by
  rw [first?, append_handled, List.find?_append, Option.map_or]
  rfl

theorem first?_append_of_some {h news : History} {g : Nat} {response : Message × String}
    (hfirst : h.first? g = some response) : (h.append news).first? g = some response := by
  obtain ⟨entry, hfind, rfl⟩ := Option.map_eq_some_iff.1 hfirst
  rw [first?, append, List.find?_append, hfind]
  rfl

theorem first?_append_of_not_mem {h news : History} {g : Nat}
    (hnew : g ∉ news.handled.map Prod.fst) : (h.append news).first? g = h.first? g := by
  have hnone : news.handled.find? (·.1 = g) = none := by
    refine List.find?_eq_none.2 fun entry hentry => ?_
    rw [decide_eq_true_iff]
    rintro rfl
    exact hnew (List.mem_map_of_mem hentry)
  rw [first?, append, List.find?_append, hnone, Option.or_none, first?]

theorem first?_eq_none {h : History} {g : Nat} (hnew : g ∉ h.handled.map Prod.fst) :
    h.first? g = none := by
  rw [first?, Option.map_eq_none_iff, List.find?_eq_none]
  intro entry hentry
  rw [decide_eq_true_iff]
  rintro rfl
  exact hnew (List.mem_map_of_mem hentry)

theorem append_nil (h : History) : h.append {} = h := by
  simp [append]

/-- A step that leaves the pending exchange opens and ends none. -/
theorem recorded_of_same {s t : Slot} (hnext : t.nextGeneration = s.nextGeneration)
    (hgen : t.generation? = s.generation?) (news : History) :
    recorded s t news = { handled := news.handled, completions := news.completions } := by
  rw [recorded, ofSlots, if_pos hnext, hgen]
  cases s.generation? <;> simp

theorem recorded_begin {s t : Slot} {g : Nat} (h : s.begin? = some (g, t)) :
    recorded s t {} = { opened := [g] } := by
  obtain ⟨next, _ | p⟩ := s
  · cases h
    simp [recorded, ofSlots, Slot.generation?]
  · cases h

theorem recorded_clear (s : Slot) (completions : List (Nat × Completion)) :
    recorded s { s with pending := none } { completions } =
      { ended := s.generation?.toList, completions } := by
  have hall : s.generation?.toList.filter (none ≠ some ·) = s.generation?.toList :=
    List.filter_eq_self.2 fun _ _ => rfl
  rw [recorded, ofSlots, if_pos rfl]
  exact congrArg (fun ended => ({ ended, completions } : History)) hall

theorem resolution?_append {h news : History} {g : Nat} {c : Completion}
    (hres : h.resolution? g = some c) : (h.append news).resolution? g = some c := by
  obtain ⟨response, hfirst, rfl⟩ := Option.map_eq_some_iff.1 hres
  rw [resolution?, first?_append_of_some hfirst]
  rfl

/-- A completion is what the first response says, or that of an exchange given up before any. -/
def Settled (h : History) (p : Nat × Completion) : Prop :=
  h.resolution? p.1 = some p.2 ∨
    (p.2 = .error .aborted ∧ h.first? p.1 = none ∧ p.1 ∈ h.ended)

/-- Responses to exchanges that have not ended leave the completions settled. -/
theorem Settled.append {h news : History} {p : Nat × Completion} (hp : h.Settled p)
    (hnew : ∀ g ∈ news.handled.map Prod.fst, g ∉ h.ended) : (h.append news).Settled p := by
  rcases hp with hres | ⟨habort, hfirst, hended⟩
  · exact .inl (resolution?_append hres)
  · refine .inr ⟨habort, ?_, List.mem_append_left _ hended⟩
    rw [first?_append_of_not_mem fun hmem => hnew p.1 hmem hended]
    exact hfirst

end History

/-! ### What is kept -/

/-- A slot, its history and the completions that are under way to it. -/
structure Tracked (s : Slot) (h : History) (carried : List (Nat × Completion)) : Prop where
  /-- Exchanges are numbered as they are opened. -/
  numbered : h.opened = List.range s.nextGeneration
  /-- Each of them has ended, or is the pending one. -/
  accounted : (h.ended ++ s.generation?.toList).Perm h.opened
  /-- The right to complete an exchange is used up, or taken out, or in the slot. -/
  once : (h.completions.map Prod.fst ++ carried.map Prod.fst ++ s.open?.toList).Nodup
  known : ∀ g, g ∈ h.completions.map Prod.fst ∨ g ∈ carried.map Prod.fst ∨
    g ∈ h.handled.map Prod.fst → g ∈ h.opened
  /-- The right is in the slot until the first response. -/
  responded : ∀ g, s.generation? = some g → (h.first? g).isSome = s.open?.isNone
  carried : ∀ p ∈ carried, h.resolution? p.1 = some p.2
  settled : ∀ p ∈ h.completions, h.Settled p
  full : ∀ p, s.full? = some p → p ∈ h.completions

namespace Tracked

variable {s t : Slot} {h : History} {carried : List (Nat × Completion)} {g : Nat}

theorem new : Tracked {} {} [] where
  numbered := rfl
  accounted := .refl _
  once := List.nodup_nil
  known := by simp
  responded := nofun
  carried := nofun
  settled := nofun
  full := nofun

theorem not_mem_ended (ht : Tracked s h carried) (hg : s.generation? = some g) : g ∉ h.ended := by
  have hnodup : (h.ended ++ s.generation?.toList).Nodup := by
    rw [ht.accounted.nodup_iff, ht.numbered]
    exact List.nodup_range
  rw [hg] at hnodup
  exact fun hmem => List.disjoint_of_nodup_append hnodup hmem List.mem_cons_self

theorem mem_opened (ht : Tracked s h carried) (hg : s.generation? = some g) : g ∈ h.opened := by
  refine ht.accounted.subset (List.mem_append_right _ ?_)
  rw [hg]
  exact List.mem_cons_self

/-- An exchange that was opened and is not pending has ended. -/
theorem mem_ended (ht : Tracked s h carried) (hg : g ∈ h.opened) (hne : s.generation? ≠ some g) :
    g ∈ h.ended := by
  rcases List.mem_append.1 (ht.accounted.symm.subset hg) with hended | hpending
  · exact hended
  · exact absurd (Option.mem_toList.1 hpending) hne

/-- While the right to complete an exchange is in the slot nobody has responded. -/
theorem unheard (ht : Tracked s h carried) (hopen : s.open? = some g) : h.first? g = none := by
  have hresponded := ht.responded g (Slot.generation?_of_open? hopen)
  rwa [hopen, Option.isNone_some, Option.isSome_eq_false_iff, Option.isNone_iff_eq_none]
    at hresponded

theorem keep (ht : Tracked s h carried) (hst : s.Keeps t) {carried' : List (Nat × Completion)}
    (hperm : carried'.Perm carried) : Tracked t h carried' where
  numbered := by rw [hst.next, ht.numbered]
  accounted := by
    rw [hst.generation]
    exact ht.accounted
  once := by
    rw [hst.isOpen]
    exact ((((hperm.map _).append_left _).append_right _).nodup_iff).2 ht.once
  known := fun g hg => ht.known g (hg.imp_right (Or.imp_left ((hperm.map Prod.fst).subset ·)))
  responded := by
    rw [hst.generation, hst.isOpen]
    exact ht.responded
  carried := fun p hp => ht.carried p (hperm.subset hp)
  settled := ht.settled
  full := fun p hp => ht.full p (hst.full p hp)

/-- An exchange is opened. -/
theorem begin (ht : Tracked s h carried) (hst : s.begin? = some (g, t)) :
    Tracked t (h.append { opened := [g] }) carried := by
  obtain ⟨next, _ | p⟩ := s
  · cases hst
    have hfresh : next ∉ h.opened := by
      rw [ht.numbered, List.mem_range]
      exact Nat.lt_irrefl _
    have hunheard : (h.append { opened := [next] }).first? next = none := by
      rw [History.first?_append_of_not_mem List.not_mem_nil]
      exact History.first?_eq_none fun hmem => hfresh (ht.known _ (.inr (.inr hmem)))
    have honce := ht.once.sublist (List.sublist_append_left _ _)
    refine ⟨?_, ?_, ?_, fun g hg => ?_, fun g hg => ?_, fun p hp => ?_, fun p hp => ?_, nofun⟩
    · rw [History.append_opened, ht.numbered]
      exact List.range_succ.symm
    · rw [History.append_ended, List.append_nil]
      exact (List.append_nil _ ▸ ht.accounted).append_right _
    · rw [History.append_completions, List.append_nil]
      refine List.Nodup.append honce (List.nodup_singleton _) ?_
      refine List.disjoint_singleton.2 fun hmem => hfresh (ht.known _ ?_)
      exact (List.mem_append.1 hmem).imp_right .inl
    · exact List.mem_append_left _ (ht.known g (by simpa using hg))
    · cases hg
      rw [hunheard]
      rfl
    · exact History.resolution?_append (ht.carried p hp)
    · exact (ht.settled p (by simpa using hp)).append nofun
  · cases hst

/-- A response takes out the right to complete the exchange. -/
theorem respond (ht : Tracked s h carried) (hst : s.claim = (t, some g)) (message : Message)
    (source : String) :
    Tracked t (h.append { handled := [(g, message, source)] })
      ((g, resolve message source) :: carried) := by
  rcases s.claim_cases with ⟨-, hnone⟩ | ⟨g', t', hopen, hsome, hnext, hgen, hclosed, hfull⟩
  · rw [hnone] at hst
    cases hst
  rw [hsome] at hst
  cases hst
  have hpending : s.generation? = some g := Slot.generation?_of_open? hopen
  have hunheard : h.first? g = none := ht.unheard hopen
  have hfirst : (h.append { handled := [(g, message, source)] }).first? g =
      some (message, source) := by
    rw [History.first?_append, hunheard, Option.none_or]
    simp [History.first?]
  have honce := ht.once
  rw [hopen, Option.toList_some, List.append_assoc] at honce
  refine ⟨?_, ?_, ?_, fun g' hg' => ?_, fun g' hg' => ?_, fun p hp => ?_, fun p hp => ?_,
    fun p hp => ?_⟩
  · simpa [hnext] using ht.numbered
  · simpa [hgen] using ht.accounted
  · simpa [hclosed] using ((List.perm_append_singleton _ _).append_left _).nodup_iff.1 honce
  · simp only [History.append_completions, History.append_handled, List.append_nil, List.map_cons,
      List.map_append, List.map_nil, List.mem_append, List.mem_cons, List.not_mem_nil,
      or_false] at hg'
    rw [History.append_opened, List.append_nil]
    rcases hg' with hmem | (rfl | hmem) | hmem | rfl
    · exact ht.known g' (.inl hmem)
    · exact ht.mem_opened hpending
    · exact ht.known g' (.inr (.inl hmem))
    · exact ht.known g' (.inr (.inr hmem))
    · exact ht.mem_opened hpending
  · rw [hgen, hpending] at hg'
    cases hg'
    rw [hfirst, hclosed]
    rfl
  · rcases List.mem_cons.1 hp with rfl | hp
    · rw [History.resolution?, hfirst]
      rfl
    · exact History.resolution?_append (ht.carried p hp)
  · refine (ht.settled p (by simpa using hp)).append ?_
    exact List.forall_mem_singleton.2 (ht.not_mem_ended hpending)
  · simpa using ht.full p (hfull ▸ hp)

/-- A response that comes too late is written down, nothing else. -/
theorem ignore (ht : Tracked s h carried) (hclosed : s.open? = none) (message : Message)
    (source : String) :
    Tracked s (h.append { handled := s.generation?.toList.map (·, message, source) }) carried := by
  have hkeys := History.map_fst_map_mk s.generation?.toList (message, source)
  refine ⟨?_, ?_, ?_, fun g hg => ?_, fun g hg => ?_, fun p hp => ?_, fun p hp => ?_,
    fun p hp => ?_⟩
  · simpa using ht.numbered
  · simpa using ht.accounted
  · simpa using ht.once
  · simp only [History.append_completions, History.append_handled, List.append_nil,
      List.map_append, List.mem_append, hkeys] at hg
    rw [History.append_opened, List.append_nil]
    rcases hg with hmem | hmem | hmem | hmem
    · exact ht.known g (.inl hmem)
    · exact ht.known g (.inr (.inl hmem))
    · exact ht.known g (.inr (.inr hmem))
    · exact ht.mem_opened (Option.mem_toList.1 hmem)
  · -- the right was taken out by a response before
    have hheard := ht.responded g hg
    rw [hclosed, Option.isNone_none] at hheard
    obtain ⟨response, hfirst⟩ := Option.isSome_iff_exists.1 hheard
    rw [History.first?_append_of_some hfirst, hclosed]
    rfl
  · exact History.resolution?_append (ht.carried p hp)
  · refine (ht.settled p (by simpa using hp)).append fun g hg => ?_
    rw [hkeys] at hg
    exact ht.not_mem_ended (Option.mem_toList.1 hg)
  · simpa using ht.full p hp

/-- A completion that is under way is put in. -/
theorem put {c : Completion} (ht : Tracked s h ((g, c) :: carried)) :
    Tracked (s.put g c).1 (h.append { completions := [(g, c)] }) carried := by
  obtain ⟨hnext, hgen, hopen, hfull, -⟩ := s.put_spec g c
  refine ⟨?_, ?_, ?_, fun g' hg' => ?_, fun g' hg' => ?_, fun p hp => ?_, fun p hp => ?_,
    fun p hp => ?_⟩
  · simpa [hnext] using ht.numbered
  · simpa [hgen] using ht.accounted
  · simpa [hopen] using ht.once
  · refine List.mem_append_left _ (ht.known g' ?_)
    simpa [or_assoc, or_left_comm] using hg'
  · rw [hgen] at hg'
    rw [hopen, History.first?_append_of_not_mem List.not_mem_nil]
    exact ht.responded g' hg'
  · exact History.resolution?_append (ht.carried p (List.mem_cons_of_mem _ hp))
  · rcases List.mem_append.1 hp with hp | hp
    · exact (ht.settled p hp).append nofun
    · rw [List.mem_singleton.1 hp]
      exact .inl (History.resolution?_append (ht.carried _ List.mem_cons_self))
  · rcases hfull p hp with hp | rfl
    · exact List.mem_append_left _ (ht.full p hp)
    · exact List.mem_append_right _ List.mem_cons_self

/-- The pending exchange ends, and if nobody has responded the right to complete it may be used up
with that. -/
theorem clear (ht : Tracked s h carried) {used : List Nat} (hused : used.Sublist s.open?.toList) :
    Tracked { s with pending := none }
      (h.append
        { ended := s.generation?.toList, completions := used.map (·, .error .aborted) })
      carried := by
  have hkeys := History.map_fst_map_mk used (.error .aborted : Completion)
  have hopen : ∀ g ∈ used, s.open? = some g := fun g hg => Option.mem_toList.1 (hused.subset hg)
  refine ⟨?_, ?_, ?_, fun g hg => ?_, nofun, fun p hp => ?_, fun p hp => ?_, nofun⟩
  · simpa using ht.numbered
  · simpa [Slot.generation?] using ht.accounted
  · have honce := ht.once.sublist (hused.append_left _)
    rw [List.append_assoc] at honce
    simpa [hkeys, Slot.open?] using (List.perm_append_comm.append_left _).nodup_iff.1 honce
  · rw [History.append_opened, List.append_nil]
    simp only [History.append_completions, History.append_handled, List.append_nil,
      List.map_append, List.mem_append, hkeys] at hg
    rcases hg with (hmem | hmem) | hmem | hmem
    · exact ht.known g (.inl hmem)
    · exact ht.mem_opened (Slot.generation?_of_open? (hopen g hmem))
    · exact ht.known g (.inr (.inl hmem))
    · exact ht.known g (.inr (.inr hmem))
  · exact History.resolution?_append (ht.carried p hp)
  · rcases List.mem_append.1 hp with hp | hp
    · exact (ht.settled p hp).append nofun
    · obtain ⟨g, hg, rfl⟩ := List.mem_map.1 hp
      have hpending := Slot.generation?_of_open? (hopen g hg)
      refine .inr ⟨rfl, ?_, List.mem_append_right _ (Option.mem_toList.2 hpending)⟩
      rw [History.first?_append_of_not_mem List.not_mem_nil]
      exact ht.unheard (hopen g hg)

end Tracked

end CallSignaling.Turn
