import CallSignaling.Proofs.Meeting.Course
import CallSignaling.Proofs.Roap.Coherence

/-!
# A meeting at work

Requests come to a meeting at any time, and the work that it gives out is done in any order, fails
or is lost.  An occurrence is one of these with its time, so that every interleaving is a list of
occurrences.  The activity of a meeting keeps its history: the inputs so far, what they led to, and
the actions on the dialog.  A caller is known by the place of its request among the inputs.

* `Meeting.Request`, `Meeting.Report`: what callers ask for, and what comes of work.
* `Meeting.Activity`: a meeting with the work under way and its history.
* `Meeting.Activity.handle`, `Meeting.Activity.take`, `Meeting.Activity.stop`: the meeting takes an
  input, and stops when it is told to or crashes.
* `Meeting.Activity.step`, `Meeting.Activity.run`: the activity after an occurrence, and after a
  list of them.
* `Meeting.Activity.Source`: where an input comes from.
* `Meeting.Activity.Course`: what an occurrence comes to, one case for each way through it.

What holds of every input that has a source holds of every run (`run_induction`), and the history
is that of the meeting (`faithful_run`).  How full the mailbox is makes no difference to a meeting,
so callers do not queue here.
-/

namespace CallSignaling.Meeting

open Roap (Message)

/-! ### Requests and reports -/

/-- What callers ask of a meeting. -/
inductive Request where
  | submit (action : Roap.Action)
  | sendOffer (sdps : List String) (tieBreaker : UInt32)
  | sendRoap (message : Message)
  | delta (d : Locus.Delta)
  | full (snapshot : Locus.Snapshot)
  | view
  deriving Inhabited

/-- The input by which a caller asks. -/
def Request.input {κ : Type} (caller : κ) : Request → Input κ
  | submit action => .submit action caller
  | sendOffer sdps tieBreaker => .sendOffer sdps tieBreaker caller
  | sendRoap message => .sendRoap message caller
  | delta d => .delta d caller
  | full snapshot => .full snapshot caller
  | view => .view caller

/-- What comes of work. -/
inductive Report where
  | built (result : Except NegotiationError (List String))
  | applied (result : Except NegotiationError Unit)
  | sent (result : Except TransportError Media.Response)
  | fetched (result : Except TransportError (Option Locus.Snapshot))
  | destroyed
  deriving Inhabited

/-- Whether an effect is work that is reported on. -/
def Effect.isWork {κ : Type} : Effect κ → Bool
  | buildAnswer _ _ | applyAnswer _ _ | send _ _ | fetch _ _ | destroy _ => true
  | _ => false

/-- The input by which a report on work comes back. -/
def Effect.input? {κ : Type} : Effect κ → Report → Option (Input κ)
  | buildAnswer seq _, .built result => some (.answerBuilt seq result)
  | applyAnswer seq _, .applied result => some (.answerApplied seq result)
  | send message caller, .sent result => some (.sent message result caller)
  | fetch _ kind, .fetched result => some (.syncCompleted kind result)
  | destroy _, .destroyed => some .destroyed
  | _, _ => none

/-! ### Activities -/

/-- A meeting with the work under way and its history. -/
structure Activity where
  meeting : Meeting
  /-- The work that has been given out and not been reported on. -/
  tasks : List (Effect Nat) := []
  /-- The inputs so far. -/
  past : List (Input Nat) := []
  /-- What the meeting asked for so far. -/
  effects : List (Effect Nat) := []
  /-- The actions on the dialog so far, each with whether the media is owned. -/
  actions : List (Roap.Action × Bool) := []
  /-- Whether the meeting has stopped. -/
  hasEnded : Bool := false
  deriving Inhabited

namespace Activity

/-- What can happen.  What becomes of work has the place of the work. -/
inductive Event where
  | call (request : Request)
  | stallTimeout
  | report (i : Nat) (report : Report)
  /-- Work crashes, and nothing is heard of it. -/
  | crash (i : Nat)
  | cancel
  deriving Inhabited

/-- An event with its time and the draw for the timer that it may start. -/
structure Occurrence where
  event : Event
  now : Nat := 0
  draw : Nat := 0
  deriving Inhabited

/-- The activity of a new meeting. -/
def start (name : String) (limits : Locus.Limits) (ownsMedia : Bool) : Activity :=
  { meeting := .create name limits ownsMedia }

/-- What an input comes to. -/
def handle (now draw : Nat) (input : Input Nat) (a : Activity) : Activity :=
  let o := a.meeting.step now draw input
  { a with
    meeting := o.state
    tasks := a.tasks ++ o.effects.filter Effect.isWork
    past := a.past ++ [input]
    effects := a.effects ++ o.effects
    actions := a.actions ++ ((a.meeting.action? input).map (·, a.meeting.ownsMedia)).toList }

/-- The meeting stops, and what it gave out is dropped. -/
def stop (a : Activity) : Activity := { a with tasks := [], hasEnded := true }

/-- The meeting takes an input, and stops if it crashes over that. -/
def take (now draw : Nat) (input : Input Nat) (a : Activity) : Activity :=
  if (a.meeting.step now draw input).effects.any Effect.isCrash then (a.handle now draw input).stop
  else a.handle now draw input

/-- The activity after an occurrence.  Nothing happens to a meeting that has stopped, the timer only
fires when it is due, and a report is heard if there is such work under way. -/
def step (o : Occurrence) (a : Activity) : Activity :=
  if a.hasEnded then a
  else
    match o.event with
    | .call request => a.take o.now o.draw (request.input a.past.length)
    | .stallTimeout =>
      if a.meeting.stallDeadline.any (· ≤ o.now) then a.take o.now o.draw .stallTimeout else a
    | .report i report =>
      match (a.tasks[i]?).bind (·.input? report) with
      | some input => take o.now o.draw input { a with tasks := a.tasks.eraseIdx i }
      | none => a
    | .crash i => { a with tasks := a.tasks.eraseIdx i }
    | .cancel => (a.handle o.now o.draw .cancel).stop

/-- The activity after occurrences in turn. -/
def run (occurrences : List Occurrence) (a : Activity) : Activity :=
  occurrences.foldl (fun a o => a.step o) a

@[simp] theorem run_nil (a : Activity) : a.run [] = a := rfl

@[simp] theorem run_cons (o : Occurrence) (occurrences : List Occurrence) (a : Activity) :
    a.run (o :: occurrences) = (a.step o).run occurrences := rfl

theorem run_append (xs ys : List Occurrence) (a : Activity) :
    a.run (xs ++ ys) = (a.run xs).run ys :=
  List.foldl_append

/-- Nothing happens to a meeting that has stopped. -/
theorem run_of_hasEnded {a : Activity} (h : a.hasEnded = true) (occurrences : List Occurrence) :
    a.run occurrences = a := by
  induction occurrences with
  | nil => rfl
  | cons o occurrences ih => rw [run_cons, step, if_pos h, ih]

/-! ### What an occurrence comes to -/

/-- Where an input comes from, with the work that is under way then. -/
inductive Source (a : Activity) : Input Nat → List (Effect Nat) → Prop
  | request (request : Request) : Source a (request.input a.past.length) a.tasks
  | timer : Source a .stallTimeout a.tasks
  | stop : Source a .cancel a.tasks
  | report {i : Nat} {task : Effect Nat} {report : Report} {input : Input Nat}
      (htask : a.tasks[i]? = some task) (hinput : task.input? report = some input) :
      Source a input (a.tasks.eraseIdx i)

/-- What an occurrence comes to, with what decides it. -/
inductive Course (a : Activity) (o : Occurrence) : Activity → Prop
  | idle : Course a o a
  | handled {input : Input Nat} {tasks : List (Effect Nat)} (h : Source a input tasks) :
      Course a o (handle o.now o.draw input { a with tasks := tasks })
  | lost (i : Nat) : Course a o { a with tasks := a.tasks.eraseIdx i }
  /-- The meeting was told to stop, or it crashed. -/
  | ended {input : Input Nat} {tasks : List (Effect Nat)} (h : Source a input tasks) :
      Course a o (handle o.now o.draw input { a with tasks := tasks }).stop

theorem course_take {a : Activity} {o : Occurrence} {input : Input Nat} {tasks : List (Effect Nat)}
    (h : Source a input tasks) :
    Course a o (take o.now o.draw input { a with tasks := tasks }) := by
  rw [take]
  split
  · exact .ended h
  · exact .handled h

theorem course_step (o : Occurrence) (a : Activity) : Course a o (a.step o) := by
  rw [step]
  split
  · exact .idle
  · split
    · exact course_take (.request _)
    · split
      · exact course_take .timer
      · exact .idle
    · split
      · rename_i input hreport
        obtain ⟨task, htask, hinput⟩ := Option.bind_eq_some_iff.1 hreport
        exact course_take (.report htask hinput)
      · exact .idle
    · exact .lost _
    · exact .ended .stop

theorem Source.sublist {a : Activity} {input : Input Nat} {tasks : List (Effect Nat)}
    (h : Source a input tasks) : tasks.Sublist a.tasks := by
  cases h with
  | request _ => exact .refl _
  | timer => exact .refl _
  | stop => exact .refl _
  | report _ _ => exact List.eraseIdx_sublist ..

/-- What holds after every input that has a source, and without some of the work, holds after every
run. -/
theorem run_induction {P : Activity → Prop}
    (hhandle : ∀ now draw input tasks a, Source a input tasks → P a →
      P (handle now draw input { a with tasks := tasks }))
    (hlose : ∀ tasks hasEnded a, tasks.Sublist a.tasks → P a →
      P { a with tasks := tasks, hasEnded := hasEnded })
    (occurrences : List Occurrence) {a : Activity} (h : P a) : P (a.run occurrences) := by
  induction occurrences generalizing a with
  | nil => exact h
  | cons o occurrences ih =>
    rw [run_cons]
    refine ih ?_
    have hcourse := course_step o a
    generalize a.step o = b at hcourse
    cases hcourse with
    | idle => exact h
    | handled hsource => exact hhandle _ _ _ _ a hsource h
    | lost i => exact hlose _ a.hasEnded a (List.eraseIdx_sublist ..) h
    | ended hsource => exact hlose [] true _ (List.nil_sublist _) (hhandle _ _ _ _ a hsource h)

/-! ### The history -/

/-- The dialog and the numbers of the meeting are what its history made of those of a new one. -/
structure Faithful (name : String) (ownsMedia : Bool) (a : Activity) : Prop where
  dialog : a.meeting.dialog = (Roap.Dialog.run a.actions { meeting := name }).state
  ownsMedia : a.meeting.ownsMedia = ownsMedia
  counter : a.meeting.counter = .ofInputs a.past

theorem faithful_start (name : String) (limits : Locus.Limits) (ownsMedia : Bool) :
    Faithful name ownsMedia (start name limits ownsMedia) :=
  ⟨rfl, rfl, rfl⟩

/-- What an input adds to the history. -/
theorem history_take (now draw : Nat) (input : Input Nat) (a : Activity) :
    (a.take now draw input).past = a.past ++ [input] ∧
      (a.take now draw input).actions =
        a.actions ++ ((a.meeting.action? input).map (·, a.meeting.ownsMedia)).toList := by
  rw [take]
  split <;> exact ⟨rfl, rfl⟩

/-- A run adds to the history. -/
theorem history_run (a : Activity) (occurrences : List Occurrence) :
    a.past <+: (a.run occurrences).past ∧ a.actions <+: (a.run occurrences).actions :=
  run_induction (P := fun b => a.past <+: b.past ∧ a.actions <+: b.actions)
    (fun _ _ _ _ _ _ h => ⟨h.1.trans (List.prefix_append ..), h.2.trans (List.prefix_append ..)⟩)
    (fun _ _ _ _ h => h) occurrences ⟨List.prefix_rfl, List.prefix_rfl⟩

theorem dialog_handle (now draw : Nat) (input : Input Nat) (a : Activity) :
    (a.handle now draw input).meeting.dialog = (a.meeting.converses input).state :=
  dialog_step

section Faithful

variable {name : String} {ownsMedia : Bool} {a : Activity}

/-- The work under way is no part of the history. -/
theorem Faithful.with_tasks (h : Faithful name ownsMedia a) (tasks : List (Effect Nat))
    (hasEnded : Bool) : Faithful name ownsMedia { a with tasks := tasks, hasEnded := hasEnded } :=
  ⟨h.dialog, h.ownsMedia, h.counter⟩

theorem Faithful.handle (h : Faithful name ownsMedia a) (now draw : Nat) (input : Input Nat) :
    Faithful name ownsMedia (a.handle now draw input) where
  dialog := by
    have hactions : (a.handle now draw input).actions =
        a.actions ++ ((a.meeting.action? input).map (·, a.meeting.ownsMedia)).toList := rfl
    rw [dialog_handle, hactions, Roap.Dialog.run_append, Outcome.andThen_state, ← h.dialog,
      converses]
    cases a.meeting.action? input <;> rfl
  ownsMedia := ownsMedia_step.trans h.ownsMedia
  counter := by
    have hpast : (a.handle now draw input).past = a.past ++ [input] := rfl
    rw [hpast, Counter.ofInputs_append, ← h.counter]
    exact counter_step

theorem faithful_run (h : Faithful name ownsMedia a) (occurrences : List Occurrence) :
    Faithful name ownsMedia (a.run occurrences) :=
  run_induction (P := Faithful name ownsMedia)
    (fun now draw input tasks a _ h => (h.with_tasks tasks a.hasEnded).handle now draw input)
    (fun tasks hasEnded _ _ h => h.with_tasks tasks hasEnded) occurrences h

/-- The dialog of a meeting is coherent. -/
theorem Faithful.coherent (h : Faithful name ownsMedia a) : a.meeting.dialog.Coherent := by
  rw [h.dialog]
  exact Roap.Dialog.coherent_run a.actions (Roap.Dialog.coherent_new name)

end Faithful

end Activity

end CallSignaling.Meeting
