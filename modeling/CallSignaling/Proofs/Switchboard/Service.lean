import CallSignaling.Proofs.Switchboard.Table

/-!
# A switchboard in service

A switchboard goes round: it looks for meetings that have ended by themselves, rests until a message
comes or it is to stop, and sees to the message, for which it may have to wait for the view of a
meeting.  Meetings go on, are told to stop, stop and crash at any time, so that every interleaving is
a list of events.  The service keeps its history: the replies so far, and what is on record of the
table.

* `Switchboard.Instance`: a start of a meeting, and `Switchboard.Instance.GoesOn`: what it can
  become.
* `Switchboard.Phase`: where a switchboard is in its round.
* `Switchboard.Service`: a switchboard with the instances that it started and its history.
* `Switchboard.Service.step`, `Switchboard.Service.run`: the service after an event, and after a
  list of them.
* `Switchboard.Service.Course`: what an event comes to, one case for each way through it.

What every case of an event keeps holds of every run (`run_induction`).  What the switchboard does is
said for each of its doings by an equation or by the cases of `course_take`.
-/

namespace CallSignaling.Switchboard

/-! ### Instances -/

/-- A start of a meeting. -/
structure Instance where
  name : String
  meeting : Meeting
  /-- Whether it is to stop. -/
  cancelled : Bool := false
  ending : Option Ending := none
  deriving Inhabited

namespace Instance

/-- The instance is to stop. -/
def cancel (x : Instance) : Instance := { x with cancelled := true }

/-- What an instance can become. -/
structure GoesOn (x y : Instance) : Prop where
  name : y.name = x.name
  cancelled : x.cancelled = true → y.cancelled = true
  ending : ∀ e, x.ending = some e → y.ending = some e
  stopped : y.ending = some .stopped → x.ending = some .stopped ∨ x.cancelled = true

theorem GoesOn.refl (x : Instance) : GoesOn x x := ⟨rfl, id, fun _ => id, .inl⟩

theorem goesOn_cancel (x : Instance) : GoesOn x x.cancel :=
  ⟨rfl, fun _ => rfl, fun _ => id, .inl⟩

/-- What instances can become, each in its place. -/
structure AllGoOn (xs ys : List Instance) : Prop where
  length : ys.length = xs.length
  goesOn : ∀ (i : Nat) (y : Instance), ys[i]? = some y → ∃ x, xs[i]? = some x ∧ GoesOn x y

theorem AllGoOn.refl (xs : List Instance) : AllGoOn xs xs := ⟨rfl, fun _ y hy => ⟨y, hy, .refl y⟩⟩

theorem allGoOn_map {f : Instance → Instance} (hf : ∀ x, GoesOn x (f x)) (xs : List Instance) :
    AllGoOn xs (xs.map f) := by
  refine ⟨List.length_map f, fun i y hy => ?_⟩
  rw [List.getElem?_map] at hy
  obtain ⟨x, hx, rfl⟩ := Option.map_eq_some_iff.1 hy
  exact ⟨x, hx, hf x⟩

theorem allGoOn_modify {xs : List Instance} {i : Nat} {f : Instance → Instance}
    (hf : ∀ x, xs[i]? = some x → GoesOn x (f x)) : AllGoOn xs (xs.modify i f) := by
  refine ⟨List.length_modify .., fun j y hy => ?_⟩
  rw [List.getElem?_modify] at hy
  obtain ⟨x, hx, rfl⟩ := Option.map_eq_some_iff.1 hy
  refine ⟨x, hx, ?_⟩
  split
  · rename_i hij
    exact hf x (hij ▸ hx)
  · exact .refl x

/-- The instances when some of them are to stop. -/
def cancelEach (is : List Nat) (xs : List Instance) : List Instance :=
  is.foldl (fun xs i => xs.modify i cancel) xs

theorem getElem?_cancelEach (is : List Nat) (xs : List Instance) (j : Nat) :
    (cancelEach is xs)[j]? = (xs[j]?).map fun x => if j ∈ is then x.cancel else x := by
  induction is generalizing xs with
  | nil => simp [cancelEach]
  | cons i is ih =>
    have hfirst : cancelEach (i :: is) xs = cancelEach is (xs.modify i cancel) := rfl
    rw [hfirst, ih, List.getElem?_modify, Option.map_eq_map, Option.map_map]
    refine congrArg (Option.map · xs[j]?) (funext fun x => ?_)
    by_cases hij : i = j
    · simp [hij, cancel]
    · by_cases hmem : j ∈ is <;> simp [hij, hmem, Ne.symm hij, cancel]

theorem allGoOn_cancelEach (is : List Nat) (xs : List Instance) :
    AllGoOn xs (cancelEach is xs) := by
  refine ⟨?_, fun j y hy => ?_⟩
  · induction is generalizing xs with
    | nil => rfl
    | cons i is ih => exact (ih (xs.modify i cancel)).trans (List.length_modify ..)
  · rw [getElem?_cancelEach] at hy
    obtain ⟨x, hx, rfl⟩ := Option.map_eq_some_iff.1 hy
    refine ⟨x, hx, ?_⟩
    split
    · exact goesOn_cancel x
    · exact .refl x

end Instance

/-! ### Services -/

/-- Where a switchboard is in its round. -/
inductive Phase (κ : Type) where
  /-- It is about to look for meetings that have ended. -/
  | looking
  | resting
  /-- It waits for the view of an instance, which ran when it was asked or did not. -/
  | asking (i : Nat) (caller : κ) (ran : Bool)
  /-- It waits for its meetings to stop. -/
  | stopping
  | stopped
  deriving Inhabited

/-- A switchboard with the instances that it started and its history. -/
structure Service (κ : Type) where
  limits : Locus.Limits
  ownsMedia : Bool
  switchboard : Switchboard := {}
  instances : List Instance := []
  /-- Whether the switchboard is to stop, and all that it starts. -/
  cancelled : Bool := false
  phase : Phase κ := .looking
  /-- The replies so far. -/
  answers : List (κ × Reply) := []
  /-- What came into the table and left it so far. -/
  records : List Record := []
  /-- The instances that have ended since the switchboard looked for the last time. -/
  unseen : List Nat := []
  deriving Inhabited

namespace Service

variable {κ : Type}

/-- What can happen. -/
inductive Event (κ : Type) where
  /-- A message is taken while `queued` others wait. -/
  | take (input : Input κ) (queued : Nat)
  /-- The view that was waited for is there, or it is clear that it will not come. -/
  | viewed
  | look
  /-- An instance goes on. -/
  | work (i : Nat) (meeting : Meeting)
  /-- One who knows an instance tells it to stop. -/
  | cancelInstance (i : Nat)
  | finish (i : Nat) (ending : Ending)
  /-- The switchboard is to stop, and all that it started. -/
  | cancel
  /-- The switchboard sees that it is to stop, or that nobody is left who could ask. -/
  | beginStop
  /-- Instances have stopped, or have been waited for long enough. -/
  | release (waited : Nat → Bool)

/-- A switchboard that has started nothing. -/
def start (limits : Locus.Limits) (ownsMedia : Bool) : Service κ := { limits, ownsMedia }

/-- How an instance ended. -/
def ending? (s : Service κ) (i : Nat) : Option Ending := (s.instances[i]?).bind (·.ending)

/-- Whether an instance runs. -/
def isRunning (i : Nat) (s : Service κ) : Bool := (s.instances[i]?).any (·.ending.isNone)

/-- An instance can crash at any time, and stops when it is to stop. -/
def canEnd (i : Nat) (ending : Ending) (s : Service κ) : Bool :=
  (s.instances[i]?).any fun x => x.ending.isNone && (x.cancelled || ending = .crashed)

/-- Changes an instance. -/
def modify (i : Nat) (f : Instance → Instance) (s : Service κ) : Service κ :=
  { s with instances := s.instances.modify i f }

/-- All instances are to stop, and those that are started from there on. -/
def cancelAll (s : Service κ) : Service κ :=
  { s with cancelled := true, instances := s.instances.map .cancel }

/-- An effect of the switchboard is carried out. -/
def carryOut (s : Service κ) : Effect κ → Service κ
  | .reply caller reply => { s with answers := s.answers ++ [(caller, reply)] }
  | .start name _ =>
    { s with
      instances := s.instances ++
        [{ name
           meeting := .create name s.limits s.ownsMedia
           cancelled := s.cancelled }] }
  | .cancel i => s.modify i .cancel
  | .ask i caller => { s with phase := .asking i caller (s.isRunning i) }
  | .cancelAll => s.cancelAll

/-- Keeps the new state of the switchboard and carries out what it asks for. -/
def settle (o : Outcome Switchboard (Effect κ)) (s : Service κ) : Service κ :=
  o.effects.foldl carryOut { s with switchboard := o.state }

/-- What is put on record of an effect of a message. -/
def recorded? (input : Input κ) : Effect κ → Option Record
  | .reply _ reply => input.record? reply
  | .start _ _ | .cancel _ | .ask _ _ | .cancelAll => none

/-- A message is taken. -/
def take (input : Input κ) (queued : Nat) (s : Service κ) : Service κ :=
  let o := (s.switchboard.received queued).1.step input
  settle o
    { s with
      phase := .looking
      records := s.records ++ o.effects.filterMap (recorded? input) }

/-- What an instance shows to one who asked it when it ran or did not. -/
def shows (i : Nat) (ran : Bool) (s : Service κ) : Except SignalingError Meeting.View :=
  match s.instances[i]? with
  | some { meeting, ending := none, .. } => .ok meeting.view
  | _ => .error (if ran then .replyClosed else .sendClosed)

/-- The view that was waited for is there. -/
def onView (i : Nat) (caller : κ) (ran : Bool) (s : Service κ) : Service κ :=
  settle (s.switchboard.onView caller (s.shows i ran)) { s with phase := .looking }

/-- The switchboard looks for meetings that have ended. -/
def look (s : Service κ) : Service κ :=
  settle (s.switchboard.reap s.ending?)
    { s with
      phase := .resting
      records := s.records ++ s.switchboard.meetings.entries.filterMap (reaped? s.ending?)
      unseen := [] }

/-- The switchboard tells its meetings to stop. -/
def beginStop (s : Service κ) : Service κ :=
  settle s.switchboard.beginStop { s with phase := .stopping }

/-- The switchboard has waited for instances to stop. -/
def release (waited : Nat → Bool) (s : Service κ) : Service κ :=
  let o : Outcome Switchboard (Effect κ) := s.switchboard.release waited
  settle o
    { s with
      phase := if o.state.meetings.isEmpty then .stopped else .stopping
      records := s.records ++ s.switchboard.meetings.entries.filterMap (released? waited) }

/-- The service after an event.  What is not possible then does not happen. -/
def step (event : Event κ) (s : Service κ) : Service κ :=
  match event, s.phase with
  | .take input queued, .resting => s.take input queued
  | .viewed, .asking i caller ran => s.onView i caller ran
  | .look, .looking => s.look
  | .work i meeting, _ => if s.isRunning i then s.modify i ({ · with meeting }) else s
  | .cancelInstance i, _ => s.modify i .cancel
  | .finish i ending, _ =>
    if s.canEnd i ending then
      { s.modify i ({ · with ending := some ending }) with unseen := s.unseen ++ [i] }
    else s
  | .cancel, _ => s.cancelAll
  | .beginStop, .resting => s.beginStop
  | .release waited, .stopping => s.release waited
  | _, _ => s

/-- The service after events in turn. -/
def run (events : List (Event κ)) (s : Service κ) : Service κ :=
  events.foldl (fun s event => s.step event) s

@[simp] theorem run_nil (s : Service κ) : s.run [] = s := rfl

@[simp] theorem run_cons (event : Event κ) (events : List (Event κ)) (s : Service κ) :
    s.run (event :: events) = (s.step event).run events := rfl

/-! ### What an event comes to -/

/-- What an event comes to, with what decides it. -/
inductive Course (s : Service κ) : Service κ → Prop
  | idle : Course s s
  | taken (input : Input κ) (queued : Nat) (hphase : s.phase = .resting) :
      Course s (s.take input queued)
  | viewed {i : Nat} {caller : κ} {ran : Bool} (hphase : s.phase = .asking i caller ran) :
      Course s (s.onView i caller ran)
  | looked (hphase : s.phase = .looking) : Course s s.look
  | worked (i : Nat) (meeting : Meeting) : Course s (s.modify i ({ · with meeting }))
  | told (i : Nat) : Course s (s.modify i .cancel)
  | ended (i : Nat) (ending : Ending) (h : s.canEnd i ending = true) :
      Course s { s.modify i ({ · with ending := some ending }) with unseen := s.unseen ++ [i] }
  | cancelled : Course s s.cancelAll
  | stopping (hphase : s.phase = .resting) : Course s s.beginStop
  | released (waited : Nat → Bool) (hphase : s.phase = .stopping) : Course s (s.release waited)

theorem course_step (event : Event κ) (s : Service κ) : Course s (s.step event) := by
  unfold step
  split
  · exact .taken _ _ ‹_›
  · exact .viewed ‹_›
  · exact .looked ‹_›
  · split
    · exact .worked _ _
    · exact .idle
  · exact .told _
  · split
    · exact .ended _ _ ‹_›
    · exact .idle
  · exact .cancelled
  · exact .stopping ‹_›
  · exact .released _ ‹_›
  · exact .idle

/-- What every event keeps holds of every run. -/
theorem run_induction {P : Service κ → Prop} (hstep : ∀ s s', Course s s' → P s → P s')
    (events : List (Event κ)) {s : Service κ} (h : P s) : P (s.run events) := by
  induction events generalizing s with
  | nil => exact h
  | cons event events ih => exact ih (hstep s _ (course_step event s) h)

/-! ### Carrying out effects -/

section Settle

variable (o : Outcome Switchboard (Effect κ)) (s : Service κ)

/-- What no effect touches stays when effects are carried out. -/
theorem settle_eq {α : Type} {f : Service κ → α}
    (hf : ∀ (s : Service κ) (e : Effect κ), f (s.carryOut e) = f s) :
    f (s.settle o) = f { s with switchboard := o.state } := by
  rw [settle]
  generalize { s with switchboard := o.state } = t
  induction o.effects generalizing t with
  | nil => rfl
  | cons e effects ih => rw [List.foldl_cons, ih, hf]

@[simp] theorem settle_records : (s.settle o).records = s.records :=
  settle_eq o s fun _ e => by cases e <;> rfl

theorem settle_of_nil {o : Outcome Switchboard (Effect κ)} (h : o.effects = []) (s : Service κ) :
    s.settle o = { s with switchboard := o.state } := by
  rw [settle, h, List.foldl_nil]

end Settle

/-! ### What the switchboard does -/

/-- What the switchboard makes of a message is carried out. -/
theorem course_take (input : Input κ) (queued : Nat) (s : Service κ) :
    ∃ o, Switchboard.Course (s.switchboard.received queued).1 input o ∧
      s.take input queued =
        settle o
          { s with
            phase := .looking
            records := s.records ++ o.effects.filterMap (recorded? input) } :=
  ⟨_, Switchboard.course_step input _, rfl⟩

/-- Whatever comes of a view, the one who asked for it is told, and nothing else happens. -/
theorem onView_eq (i : Nat) (caller : κ) (ran : Bool) (s : Service κ) :
    ∃ reply, s.onView i caller ran =
      { s with phase := .looking, answers := s.answers ++ [(caller, reply)] } := by
  unfold onView
  cases s.shows i ran with
  | ok view => exact ⟨_, rfl⟩
  | error e => exact ⟨_, rfl⟩

/-- What has ended leaves the table, and then nothing is unseen. -/
theorem look_eq (s : Service κ) :
    s.look =
      { s with
        switchboard := (s.switchboard.reap s.ending? : Outcome Switchboard (Effect κ)).state
        phase := .resting
        records := s.records ++ s.switchboard.meetings.entries.filterMap (reaped? s.ending?)
        unseen := [] } :=
  settle_of_nil (sheds_reap s.ending? s.switchboard).effects _

/-- What has been waited for leaves the table. -/
theorem release_eq (waited : Nat → Bool) (s : Service κ) :
    s.release waited =
      { s with
        switchboard := (s.switchboard.release waited : Outcome Switchboard (Effect κ)).state
        phase :=
          if (s.switchboard.release waited : Outcome Switchboard (Effect κ)).state.meetings.isEmpty
          then .stopped else .stopping
        records := s.records ++ s.switchboard.meetings.entries.filterMap (released? waited) } :=
  settle_of_nil (sheds_release waited s.switchboard).effects _

/-- All that are in the table are told to stop. -/
theorem beginStop_eq (s : Service κ) :
    s.beginStop =
      { s with
        switchboard := { s.switchboard with accepting := false }
        phase := .stopping
        instances :=
          Instance.cancelEach (s.switchboard.meetings.entries.map Prod.snd) s.instances } := by
  have hcancel : ∀ (entries : List (String × Nat)) (t : Service κ),
      (entries.map fun entry => Effect.cancel entry.2).foldl carryOut t =
        { t with instances := Instance.cancelEach (entries.map Prod.snd) t.instances } := by
    intro entries
    induction entries with
    | nil => exact fun _ => rfl
    | cons entry entries ih => exact fun t => ih (t.carryOut (.cancel entry.2))
  exact hcancel _ _

end Service

end CallSignaling.Switchboard
