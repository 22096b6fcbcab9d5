import CallSignaling.Proofs.Meeting.Activity
import CallSignaling.Scenario.Run
import Mathlib.Logic.Relation

/-!
# Changes of a world

Everything that a scenario does is made of a few kinds of changes.  A property of a world that each
kind keeps is kept by all that is made of it, so what the functions of a world do is said once,
here, in terms of the kinds.

* `Scenario.World.Aside`: nothing changes that anybody else looks at.
* `Scenario.Change`: the kinds.  Two of them can be left out: changes of relay discovery, for some
  lines or for all, and changes of the books of the switchboard.
* `Scenario.Changes`: a number of changes in turn.

An actor that takes an input, gives work out or ends, and a dispatcher that takes an entry, are no
changes of these kinds.
-/

namespace CallSignaling.Scenario

open Relation (ReflTransGen)

/-- Whether a job goes on with something that was begun for somebody on a line: it takes an entry,
brings an answer or brings a completion. -/
def Job.isPromise : Job → Bool
  | dispatch _ | answered _ _ _ | completed _ _ _ _ => true
  | _ => false

/-- Whether a job brings a completion to a call of relay discovery. -/
def Job.isCompletion : Job → Bool
  | completed _ _ _ _ => true
  | _ => false

/-- Whether a call of relay discovery waits. -/
def Waiter.isRelay : Waiter → Bool
  | relay _ _ => true
  | _ => false

/-- The job that carries out an effect of the outbox of a line. -/
def Job.ofOutboxEffect (line : Nat) : Media.Outbox.Effect Waiter → Job
  | .startDispatch => .dispatch line
  | .answer waiter result => .answered line waiter result

/-- The effect by which a meeting asks for work. -/
def Work.effect : Work → Meeting.Effect Caller
  | build seq offer => .buildAnswer seq offer
  | apply seq answer => .applyAnswer seq answer
  | send message caller => .send message caller
  | fetch url kind => .fetch url kind
  | destroy reason => .destroy reason

/-! ### The kinds -/

/-- Nothing changes that stands on a line, at the desk or among the tasks.  Promises may be dropped,
and the environment may notice more. -/
structure World.Aside (w w' : World) : Prop where
  lines : w'.lines = w.lines
  desk : w'.desk = w.desk
  tasks : w'.tasks = w.tasks
  settings : w'.settings = w.settings
  negotiator : w'.environment.negotiator.kind = w.environment.negotiator.kind
  promises : (w'.agenda.filter Job.isPromise).Sublist (w.agenda.filter Job.isPromise)
  events : w.events <+: w'.events

/-- Two lines are alike but for relay discovery. -/
structure Line.Alike (l l' : Line) : Prop where
  name : l'.name = l.name
  outbox : l'.outbox = l.outbox
  onWire : l'.onWire = l.onWire
  actor : l'.actor = l.actor

/-- Two actors are alike but for their place on the agenda. -/
structure Actor.Alike (a a' : Actor) : Prop where
  meeting : a'.meeting = a.meeting
  mailbox : a'.mailbox = a.mailbox
  results : a'.results = a.results
  cancelled : a'.cancelled = a.cancelled
  ending : a'.ending = a.ending

/-- Two desks keep the same books. -/
structure Desk.Alike (d d' : Desk) : Prop where
  switchboard : d'.switchboard = d.switchboard
  cancelled : d'.cancelled = d.cancelled
  isAsking : d'.isAsking = d.isAsking
  isStopping : d'.isStopping = d.isStopping
  hasEnded : d'.hasEnded = d.hasEnded

/-- The kinds of changes, with those of relay discovery on the lines where they are allowed, and
those of the books if they are. -/
inductive Change (relays : Nat → Prop) (books : Prop) : World → World → Prop
  | aside {w w' : World} (h : w.Aside w') : Change relays books w w'
  /-- Relay discovery goes on. -/
  | note {w : World} {line : Nat} (h : relays line) {f : Line → Line}
      (hf : ∀ l, Line.Alike l (f l)) : Change relays books w (w.modifyLine line f)
  | complete {w : World} {line : Nat} (h : relays line) (generation : Nat) (call : RelayCall)
      (completion : Turn.Completion) :
      Change relays books w (w.later (.completed line generation call completion))
  | submit {w : World} (line : Nat) (request : Media.Request) {waiter : Waiter}
      (h : waiter.isRelay = true → relays line) :
      Change relays books w (w.submitRequest line request waiter)
  | depart {w : World} (line : Nat) : Change relays books w (w.depart line)
  | shift {w : World} (line : Nat) {f : Actor → Actor} (hf : ∀ a, Actor.Alike a (f a)) :
      Change relays books w (w.modifyActor line f)
  /-- A request comes into a mailbox. -/
  | post {w : World} (line : Nat) (request : Meeting.Request) (caller : Caller) :
      Change relays books w
        (w.modifyActor line fun a => { a with mailbox := a.mailbox ++ [request.input caller] })
  | cancel {w : World} (line : Nat) :
      Change relays books w (w.modifyActor line fun a => { a with cancelled := true })
  | lose {w : World} {tasks : List Task} (h : tasks.Sublist w.tasks) :
      Change relays books w { w with tasks }
  /-- A task is reported on. -/
  | finish {w : World} {task : Task} {report : Meeting.Report} {result : Meeting.Input Caller}
      (htask : task ∈ w.tasks) (hresult : task.work.effect.input? report = some result) :
      Change relays books w
        ((w.removeTask task).modifyActor task.line fun a =>
          { a with results := a.results ++ [result] })
  | mark {w : World} {f : Desk → Desk} (hf : ∀ d, Desk.Alike d (f d)) :
      Change relays books w (w.modifyDesk f)
  | book {w : World} (h : books) (f : Desk → Desk) : Change relays books w (w.modifyDesk f)
  | start {w : World} (h : books) (name : String) : Change relays books w (w.startMeeting name)

/-- Changes in turn. -/
def Changes (relays : Nat → Prop) (books : Prop) : World → World → Prop :=
  ReflTransGen (Change relays books)

variable {relays : Nat → Prop} {books : Prop} {w w₁ w₂ : World}

namespace Changes

theorem refl (w : World) : Changes relays books w w := ReflTransGen.refl

theorem trans (h₁ : Changes relays books w w₁) (h₂ : Changes relays books w₁ w₂) :
    Changes relays books w w₂ :=
  ReflTransGen.trans h₁ h₂

/-- Changes before others, of which the last ones say what they lead to. -/
theorem after (h₂ : Changes relays books w₁ w₂) (h₁ : Changes relays books w w₁) :
    Changes relays books w w₂ :=
  h₁.trans h₂

theorem one (h : Change relays books w w₁) : Changes relays books w w₁ := ReflTransGen.single h

theorem aside (h : w.Aside w₁) : Changes relays books w w₁ := one (.aside h)

theorem foldl {α : Type} {f : World → α → World} (hf : ∀ w a, Changes relays books w (f w a))
    (l : List α) (w : World) : Changes relays books w (l.foldl f w) := by
  induction l generalizing w with
  | nil => exact refl w
  | cons a l ih => exact (hf w a).trans (ih (f w a))

/-- What every change keeps is kept. -/
theorem induction {P : World → Prop} (hstep : ∀ w w', Change relays books w w' → P w → P w')
    (h : Changes relays books w w₁) (hw : P w) : P w₁ := by
  induction h with
  | refl => exact hw
  | tail _ hchange ih => exact hstep _ _ hchange ih

end Changes

namespace World

theorem nameOf_eq {line : Nat} {l : Line} (hl : w.lines[line]? = some l) :
    w.nameOf line = l.name := by
  rw [nameOf, hl]
  rfl

/-! ### Outboxes -/

theorem foldl_onOutboxEffect (line : Nat) (effects : List (Media.Outbox.Effect Waiter))
    (w : World) :
    effects.foldl (onOutboxEffect line) w =
      { w with agenda := w.agenda ++ effects.map (Job.ofOutboxEffect line) } := by
  induction effects generalizing w with
  | nil => simp
  | cons effect effects ih =>
    have hone : w.onOutboxEffect line effect = w.later (.ofOutboxEffect line effect) := by
      cases effect <;> rfl
    rw [List.foldl_cons, hone, ih]
    simp [later]

/-- What an outbox asks for goes to the agenda. -/
theorem settleOutbox_eq (line : Nat)
    (o : Outcome (Media.Outbox Waiter) (Media.Outbox.Effect Waiter)) (w : World) :
    w.settleOutbox line o =
      { w with
        lines := w.lines.modify line fun l => { l with outbox := o.state }
        metrics := w.metrics ++ o.metrics
        agenda := w.agenda ++ o.effects.map (Job.ofOutboxEffect line) } :=
  foldl_onOutboxEffect line o.effects _

/-- Nothing changes but the wire of a line, the promises about requests and what the
server noticed. -/
structure WireOnly (line : Nat) (w w' : World) : Prop where
  lines : ∃ f : Line → Line, w'.lines = w.lines.modify line f ∧
    ∀ l, (f l).name = l.name ∧ (f l).discovery = l.discovery ∧ (f l).waits = l.waits ∧
      (f l).relayCalls = l.relayCalls ∧ (f l).actor = l.actor
  desk : w'.desk = w.desk
  tasks : w'.tasks = w.tasks
  settings : w'.settings = w.settings
  negotiator : w'.environment.negotiator = w.environment.negotiator
  completions : w'.agenda.filter Job.isCompletion = w.agenda.filter Job.isCompletion

theorem WireOnly.refl (line : Nat) (w : World) : WireOnly line w w :=
  ⟨⟨id, (List.modify_id ..).symm, fun _ => ⟨rfl, rfl, rfl, rfl, rfl⟩⟩, rfl, rfl, rfl, rfl, rfl⟩

theorem WireOnly.trans {line : Nat} {w₁ w₂ : World} (h₁ : WireOnly line w w₁)
    (h₂ : WireOnly line w₁ w₂) : WireOnly line w w₂ := by
  obtain ⟨f, hf, hfs⟩ := h₁.lines
  obtain ⟨g, hg, hgs⟩ := h₂.lines
  refine ⟨⟨g ∘ f, by rw [hg, hf, List.modify_modify_eq], fun l => ?_⟩, h₂.desk.trans h₁.desk,
    h₂.tasks.trans h₁.tasks, h₂.settings.trans h₁.settings, h₂.negotiator.trans h₁.negotiator,
    h₂.completions.trans h₁.completions⟩
  exact ⟨(hgs _).1.trans (hfs l).1, (hgs _).2.1.trans (hfs l).2.1,
    (hgs _).2.2.1.trans (hfs l).2.2.1, (hgs _).2.2.2.1.trans (hfs l).2.2.2.1,
    (hgs _).2.2.2.2.trans (hfs l).2.2.2.2⟩

theorem wireOnly_settleOutbox (line : Nat)
    (o : Outcome (Media.Outbox Waiter) (Media.Outbox.Effect Waiter)) (w : World) :
    WireOnly line w (w.settleOutbox line o) := by
  rw [settleOutbox_eq]
  refine ⟨⟨_, rfl, fun _ => ⟨rfl, rfl, rfl, rfl, rfl⟩⟩, rfl, rfl, rfl, rfl, ?_⟩
  have hnone : (o.effects.map (Job.ofOutboxEffect line)).filter Job.isCompletion = [] := by
    refine List.filter_eq_nil_iff.2 fun job hjob => ?_
    obtain ⟨effect, -, rfl⟩ := List.mem_map.1 hjob
    cases effect <;> exact Bool.false_ne_true
  rw [List.filter_append, hnone, List.append_nil]

theorem wireOnly_onWire (line : Nat) (onWire : Option (Media.Outbox.Entry Waiter)) (w : World) :
    WireOnly line w (w.modifyLine line fun l => { l with onWire }) :=
  ⟨⟨_, rfl, fun _ => ⟨rfl, rfl, rfl, rfl, rfl⟩⟩, rfl, rfl, rfl, rfl, rfl⟩

theorem wireOnly_next (line : Nat) {job : Job} (hjob : job.isCompletion = false) (w : World) :
    WireOnly line w (w.next job) :=
  ⟨(WireOnly.refl line w).lines, rfl, rfl, rfl, rfl,
    List.filter_cons_of_neg (Bool.eq_false_iff.1 hjob)⟩

theorem wireOnly_submitRequest (line : Nat) (request : Media.Request) (waiter : Waiter)
    (w : World) :
    WireOnly line w (w.submitRequest line request waiter) := by
  unfold submitRequest
  split
  · exact wireOnly_settleOutbox line _ w
  · exact .refl line w

/-- The server notices a request.  Then sending it crashes, or it is on the wire and waits or has
passed the gate. -/
theorem launch_cases (line : Nat) (outbox : Media.Outbox Waiter) (entry : Media.Outbox.Entry Waiter)
    (request : Media.OutboundRequest) (w : World) :
    ∃ v : World, WireOnly line w v ∧ v.lines = w.lines ∧ v.agenda = w.agenda ∧
      v.events = w.events ++ [.sent request] ∧
      (w.launch line outbox entry request = v.settleOutbox line (outbox.crash entry) ∨
        w.launch line outbox entry request =
            v.modifyLine line (fun l => { l with onWire := some entry }) ∨
        w.launch line outbox entry request =
            (v.modifyLine line fun l => { l with onWire := some entry }).next (.depart line)) := by
  have hlines := (WireOnly.refl line w).lines
  simp only [launch]
  split
  · refine ⟨_, ?_, ?_, ?_, ?_, .inl rfl⟩
    · exact ⟨hlines, rfl, rfl, rfl, rfl, rfl⟩
    all_goals rfl
  · split
    · refine ⟨_, ?_, ?_, ?_, ?_, .inr (.inr rfl)⟩
      · exact ⟨hlines, rfl, rfl, rfl, rfl, rfl⟩
      all_goals rfl
    · refine ⟨_, ?_, ?_, ?_, ?_, .inr (.inl rfl)⟩
      · exact ⟨hlines, rfl, rfl, rfl, rfl, rfl⟩
      all_goals rfl

theorem wireOnly_dispatch (line : Nat) (w : World) : WireOnly line w (w.dispatch line) := by
  unfold dispatch
  split
  · exact .refl line w
  · rename_i l hl
    simp only
    split
    · exact ⟨⟨_, rfl, fun _ => ⟨rfl, rfl, rfl, rfl, rfl⟩⟩, rfl, rfl, rfl, rfl, rfl⟩
    · rename_i entry request htake
      generalize hv : w.modifyLine line _ = v
      have hfirst : WireOnly line w v := by
        rw [← hv]
        exact ⟨⟨_, rfl, fun _ => ⟨rfl, rfl, rfl, rfl, rfl⟩⟩, rfl, rfl, rfl, rfl, rfl⟩
      obtain ⟨v', hv', -, -, -, h | h | h⟩ :=
        launch_cases line (l.outbox.take l.name).1 entry request v
      · rw [h]
        exact (hfirst.trans hv').trans (wireOnly_settleOutbox line _ v')
      · rw [h]
        exact (hfirst.trans hv').trans (wireOnly_onWire line (some entry) v')
      · rw [h]
        exact ((hfirst.trans hv').trans (wireOnly_onWire line (some entry) v')).trans
          (wireOnly_next line rfl _)

theorem wireOnly_depart (line : Nat) (w : World) : WireOnly line w (w.depart line) := by
  unfold depart
  split
  · exact .refl line w
  · split
    · exact .refl line w
    · rename_i l hl entry hentry
      simp only
      generalize hv : modifyLine line _ _ = v
      have hfirst : WireOnly line w v := by
        rw [← hv]
        exact ⟨⟨_, rfl, fun _ => ⟨rfl, rfl, rfl, rfl, rfl⟩⟩, rfl, rfl, rfl, rfl, rfl⟩
      exact (hfirst.trans (wireOnly_settleOutbox line _ v)).trans (wireOnly_next line rfl _)

/-! ### Settings -/

/-- The settings of a scenario stay, and so does the kind of its negotiator. -/
theorem settings_of_change (h : Change relays books w w₁) :
    w₁.settings = w.settings ∧ w₁.environment.negotiator.kind = w.environment.negotiator.kind := by
  cases h with
  | aside h => exact ⟨h.settings, h.negotiator⟩
  | @submit line request waiter _ =>
    have hwire := wireOnly_submitRequest line request waiter w
    exact ⟨hwire.settings, congrArg (·.kind) hwire.negotiator⟩
  | depart line =>
    have hwire := wireOnly_depart line w
    exact ⟨hwire.settings, congrArg (·.kind) hwire.negotiator⟩
  | _ => exact ⟨rfl, rfl⟩

theorem settings_of_changes (h : Changes relays books w w₁) :
    w₁.settings = w.settings ∧ w₁.environment.negotiator.kind = w.environment.negotiator.kind :=
  h.induction (P := fun v => v.settings = w.settings ∧
      v.environment.negotiator.kind = w.environment.negotiator.kind)
    (fun _ _ hchange hv =>
      ⟨(settings_of_change hchange).1.trans hv.1, (settings_of_change hchange).2.trans hv.2⟩)
    ⟨rfl, rfl⟩

/-! ### Jobs, events and answers -/

theorem aside_later {job : Job} (hjob : job.isPromise = false) (w : World) :
    w.Aside (w.later job) :=
  ⟨rfl, rfl, rfl, rfl, rfl, by simp [later, List.filter_append, hjob], List.prefix_rfl⟩

theorem aside_next {job : Job} (hjob : job.isPromise = false) (w : World) : w.Aside (w.next job) :=
  ⟨rfl, rfl, rfl, rfl, rfl, by simp [next, hjob], List.prefix_rfl⟩

theorem aside_measure (metrics : List Metric) (w : World) : w.Aside (w.measure metrics) :=
  ⟨rfl, rfl, rfl, rfl, rfl, .refl _, List.prefix_rfl⟩

theorem aside_conclude (call : Nat) (answer : Answer) (w : World) :
    w.Aside (w.conclude call answer) :=
  ⟨rfl, rfl, rfl, rfl, rfl, .refl _, List.prefix_rfl⟩

theorem changes_later {job : Job} (hjob : job.isPromise = false) (w : World) :
    Changes relays books w (w.later job) :=
  .aside (aside_later hjob w)

theorem changes_next {job : Job} (hjob : job.isPromise = false) (w : World) :
    Changes relays books w (w.next job) :=
  .aside (aside_next hjob w)

theorem changes_measure (metrics : List Metric) (w : World) :
    Changes relays books w (w.measure metrics) :=
  .aside (aside_measure metrics w)

theorem changes_notice (event : Event) (w : World) : Changes relays books w (w.notice event) :=
  .aside ⟨rfl, rfl, rfl, rfl, rfl, .refl _, List.prefix_append ..⟩

theorem changes_conclude (call : Nat) (answer : Answer) (w : World) :
    Changes relays books w (w.conclude call answer) :=
  .aside (aside_conclude call answer w)

/-- A new environment with the same kind of negotiator. -/
theorem changes_environment {environment : Environment}
    (h : environment.negotiator.kind = w.environment.negotiator.kind) :
    Changes relays books w { w with environment } :=
  .aside ⟨rfl, rfl, rfl, rfl, h, .refl _, List.prefix_rfl⟩

theorem changes_scheduleActor (line : Nat) (w : World) :
    Changes relays books w (w.scheduleActor line) := by
  rw [scheduleActor]
  split
  · split
    · exact .refl w
    · exact .after (changes_later rfl _) (.one (.shift line fun _ => ⟨rfl, rfl, rfl, rfl, rfl⟩))
  · exact .refl w

theorem changes_scheduleDesk (w : World) : Changes relays books w w.scheduleDesk := by
  rw [scheduleDesk]
  split
  · split
    · exact .refl w
    · exact .after (changes_later rfl _) (.one (.mark fun _ => ⟨rfl, rfl, rfl, rfl, rfl⟩))
  · exact .refl w

theorem changes_tell (caller : Caller) (reply : Meeting.Reply) (w : World) :
    Changes relays books w (w.tell caller reply) := by
  unfold tell
  split
  · exact changes_conclude _ _ w
  · split
    · exact changes_conclude _ _ w
    · exact .refl w
  · split
    · exact changes_later rfl w
    · exact .refl w

theorem changes_tellClosed (callers : List Caller) (w : World) :
    Changes relays books w (w.tellClosed callers) :=
  .foldl (fun w caller => changes_tell caller _ w) callers w

theorem changes_post (line : Nat) (caller : Caller) (request : Meeting.Request) (w : World) :
    Changes relays books w (w.post line caller fun caller => request.input caller) := by
  unfold post
  split
  · exact .after (changes_scheduleActor line _) (.one (.post line request caller))
  · exact changes_tell _ _ w

/-- The line of a new meeting. -/
theorem getElem?_startMeeting (name : String) (w : World) :
    ∃ l : Line, (w.startMeeting name).lines[w.lines.length]? = some l ∧ l.name = name ∧
      l.outbox = {} ∧ l.onWire = none ∧
      l.actor = some
        { meeting := .create name w.settings.limits w.environment.negotiator.kind.ownsMedia } :=
  ⟨_, List.getElem?_concat_length, rfl, rfl, rfl, rfl⟩

/-- The other lines stay when a meeting starts. -/
theorem getElem?_startMeeting_of_ne {line : Nat} (h : line ≠ w.lines.length) (name : String) :
    (w.startMeeting name).lines[line]? = w.lines[line]? := by
  have hlines : ∃ l, (w.startMeeting name).lines = w.lines ++ [l] := ⟨_, rfl⟩
  obtain ⟨l, hlines⟩ := hlines
  rw [hlines]
  rcases Nat.lt_or_gt_of_ne h with hlt | hgt
  · rw [List.getElem?_append_left hlt]
  · rw [List.getElem?_eq_none (by rw [List.length_append, List.length_singleton]; omega),
      List.getElem?_eq_none (Nat.le_of_lt hgt)]

theorem changes_cancelActor (line : Nat) (w : World) :
    Changes relays books w (w.cancelActor line) :=
  .after (changes_scheduleActor line _) (.one (.cancel line))

/-! ### Tasks -/

theorem changes_resumeLater (ids : List Nat) (w : World) :
    Changes relays books w (w.resumeLater ids) :=
  .foldl (fun w _ => changes_later rfl w) _ w

theorem changes_releaseNegotiator (n : Nat) (w : World) :
    Changes relays books w (w.releaseNegotiator n) :=
  .after (changes_resumeLater _ _) (changes_environment rfl)

theorem changes_releaseArchive (n : Nat) (w : World) :
    Changes relays books w (w.releaseArchive n) :=
  .after (changes_resumeLater _ _) (changes_environment rfl)

theorem changes_enterNegotiator (task : Task) (w : World) :
    Changes relays books w (w.enterNegotiator task) := by
  simp only [enterNegotiator]
  split
  · exact .after (changes_next rfl _) (changes_environment rfl)
  · exact changes_environment rfl

theorem changes_enterArchive (task : Task) (w : World) :
    Changes relays books w (w.enterArchive task) := by
  simp only [enterArchive]
  split
  · exact .after (changes_next rfl _) (changes_environment rfl)
  · exact changes_environment rfl

theorem mem_of_task? {id : Nat} {task : Task} (h : w.task? id = some task) : task ∈ w.tasks :=
  List.mem_of_find?_eq_some h

theorem changes_finishTask {task : Task} {result : Meeting.Input Caller} (htask : task ∈ w.tasks)
    (report : Meeting.Report) (hresult : task.work.effect.input? report = some result) :
    Changes relays books w (w.finishTask task result) :=
  .after (changes_scheduleActor task.line _) (.one (.finish htask hresult))

theorem changes_removeTask (task : Task) (w : World) :
    Changes relays books w (w.removeTask task) :=
  .one (.lose List.filter_sublist)

theorem changes_negotiate {task : Task} {result : Meeting.Input Caller} (htask : task ∈ w.tasks)
    (report : Meeting.Report) (hresult : task.work.effect.input? report = some result) :
    Changes relays books w (w.negotiate task result) := by
  rw [negotiate]
  split
  · exact .after (changes_scheduleActor task.line _) (changes_removeTask task w)
  · exact changes_finishTask htask report hresult

theorem changes_workOn {task : Task} (htask : task ∈ w.tasks) :
    Changes relays books w (w.workOn task) := by
  unfold workOn
  split
  · rename_i seq offer hwork
    exact changes_negotiate htask (.built _) (by rw [hwork]; rfl)
  · rename_i seq answer hwork
    exact changes_negotiate htask (.applied _) (by rw [hwork]; rfl)
  · rename_i url kind hwork
    simp only
    split
    · rename_i result hresult
      exact .after (changes_finishTask htask (.fetched result) (by rw [hwork]; rfl))
        (changes_environment rfl)
    · exact changes_environment rfl
  · exact .refl w
  · exact .refl w

theorem changes_returnPermit (task : Task) (w : World) :
    Changes relays books w (w.returnPermit task) := by
  unfold returnPermit
  split
  · exact changes_releaseNegotiator 1 w
  · exact changes_releaseNegotiator 1 w
  · exact changes_releaseArchive 1 w
  · exact .refl w
  · exact .refl w

theorem changes_resumeTask (task : Task) (w : World) :
    Changes relays books w (w.resumeTask task) := by
  unfold resumeTask
  split
  · exact changes_workOn (mem_of_task? ‹_›)
  · exact changes_returnPermit task w

theorem changes_beginTask (id : Nat) (w : World) : Changes relays books w (w.beginTask id) := by
  unfold beginTask
  split
  · exact .refl w
  · rename_i task htask
    split
    · exact .after (changes_enterNegotiator task _) (changes_notice _ w)
    · exact .after (changes_enterNegotiator task _) (changes_notice _ w)
    · exact .after (changes_enterArchive task _) (changes_notice _ w)
    · exact .one (.submit _ _ nofun)
    · rename_i reason hwork
      exact .after (changes_finishTask (mem_of_task? htask) .destroyed (by rw [hwork]; rfl))
        (changes_notice _ w)

theorem changes_answerTask (id : Nat) (result : Except TransportError Media.Response) (w : World) :
    Changes relays books w (w.answerTask id result) := by
  unfold answerTask
  split
  · rename_i task htask
    split
    · rename_i message caller hwork
      exact changes_finishTask (mem_of_task? htask) (.sent result) (by rw [hwork]; rfl)
    · exact .refl w
  · exact .refl w

theorem changes_dropTasks (line : Nat) (w : World) :
    Changes relays books w (w.dropTasks line) := by
  simp only [dropTasks]
  have htasks : Changes relays books w { w with tasks := w.tasks.filter (·.line ≠ line) } :=
    .one (.lose List.filter_sublist)
  exact .after (changes_tellClosed _ _) (htasks.trans (changes_environment rfl))

/-! ### Relay discovery -/

theorem aside_concludeRelay (call : RelayCall) (result : Except TurnError Turn.Result) (w : World) :
    w.Aside (w.concludeRelay call result) := by
  unfold concludeRelay
  split
  · exact aside_conclude ..
  · exact aside_conclude ..

theorem changes_awaitRelay {line : Nat} (h : relays line) (generation : Nat) (call : RelayCall)
    (w : World) :
    Changes relays books w (w.awaitRelay line generation call) := by
  have hwait : Changes relays books w (w.modifyLine line fun l =>
      { l with
        waits := l.waits ++
          [{ generation, call, deadline := w.now + w.settings.turnDiscoveryTimeout * 1000 }] }) :=
    .one (.note h fun _ => ⟨rfl, rfl, rfl, rfl⟩)
  simp only [awaitRelay]
  split
  · exact hwait.trans (changes_next rfl _)
  · exact hwait

theorem changes_wakeRelay {line : Nat} (h : relays line) (generation : Nat)
    (completion : Turn.Completion)
    (w : World) : Changes relays books w (w.wakeRelay line generation completion) := by
  unfold wakeRelay
  split
  · exact .refl w
  · exact .after (.foldl (fun w _ => .one (.complete h generation _ completion)) _ _)
      (.one (.note h fun _ => ⟨rfl, rfl, rfl, rfl⟩))

theorem changes_onRelayEffect {line : Nat} (h : relays line) (call : Option RelayCall) (w : World)
    (effect : Turn.Effect) : Changes relays books w (w.onRelayEffect line call effect) := by
  unfold onRelayEffect
  split
  · exact changes_wakeRelay h _ _ w
  · split
    · exact .one (.submit line _ fun _ => h)
    · exact .refl w
  · split
    · exact changes_awaitRelay h _ _ w
    · exact .refl w
  · split
    · exact .aside (aside_concludeRelay _ _ w)
    · exact .refl w

theorem changes_settleRelay {line : Nat} (h : relays line) (call : Option RelayCall)
    (step : Turn.Discovery → Outcome Turn.Discovery Turn.Effect) (w : World) :
    Changes relays books w (w.settleRelay line call step) := by
  unfold settleRelay
  split
  · exact .refl w
  · exact .after (.foldl (changes_onRelayEffect h call) _ _)
      (.after (changes_measure _ _) (.one (.note h fun _ => ⟨rfl, rfl, rfl, rfl⟩)))

theorem changes_callRelay {line : Nat} (h : relays line) (caller : Option RelayCaller)
    (step : Turn.Discovery → Outcome Turn.Discovery Turn.Effect) (w : World) :
    Changes relays books w (w.callRelay line caller step) := by
  unfold callRelay
  split
  · exact .refl w
  · exact .after (changes_settleRelay h _ _ _)
      (.one (.note h fun _ => ⟨rfl, rfl, rfl, rfl⟩))

theorem changes_expireRelay {line : Nat} (h : relays line) (generation : Nat) (call : RelayCall)
    (w : World) :
    Changes relays books w (w.expireRelay line generation call) := by
  simp only [expireRelay]
  split
  · exact .refl w
  · split
    · exact .after (changes_settleRelay h _ _ _)
        (.one (.note h fun _ => ⟨rfl, rfl, rfl, rfl⟩))
    · exact .refl w

theorem changes_generate {line : Nat} (h : relays line) (call : Nat) (forced : Bool) (w : World) :
    Changes relays books w (w.generate line call forced) := by
  unfold generate
  split
  · exact .refl w
  · exact .after (changes_conclude _ _ _) (.one (.note h fun _ => ⟨rfl, rfl, rfl, rfl⟩))

/-! ### The desk -/

theorem changes_tellRequester (requester : Requester) (reply : Switchboard.Reply) (w : World) :
    Changes relays books w (w.tellRequester requester reply) := by
  unfold tellRequester
  split
  · exact .after (changes_conclude _ _ _) (.one (.mark fun _ => ⟨rfl, rfl, rfl, rfl, rfl⟩))
  · exact changes_later rfl w
  · exact changes_conclude _ _ w
  · exact changes_conclude _ _ w

theorem changes_postDesk (input : Switchboard.Input Requester) (w : World) :
    Changes relays books w (w.postDesk input) := by
  unfold postDesk
  split
  · exact .after (changes_scheduleDesk _) (.one (.mark fun _ => ⟨rfl, rfl, rfl, rfl, rfl⟩))
  · exact changes_tellRequester _ _ w

theorem changes_restDesk (w : World) : Changes relays books w w.restDesk :=
  .one (.mark fun _ => ⟨rfl, rfl, rfl, rfl, rfl⟩)

/-- Lines are cancelled one after the other. -/
theorem changes_cancelLines (lines : List Nat) (w : World) :
    Changes relays books w (lines.foldl (fun w line => w.cancelActor line) w) :=
  .foldl (fun w line => changes_cancelActor line w) lines w

theorem changes_cancelDesk (h : books) (w : World) : Changes relays books w w.cancelDesk :=
  .after (changes_cancelLines _ _) (.after (changes_scheduleDesk _) (.one (.book h _)))

theorem changes_onSwitchboardEffect (h : books) (w : World)
    (effect : Switchboard.Effect Requester) :
    Changes relays books w (w.onSwitchboardEffect effect) := by
  unfold onSwitchboardEffect
  split
  · exact changes_tellRequester _ _ w
  · exact .one (.start h _)
  · exact changes_cancelActor _ w
  · exact .after (changes_post _ _ .view _) (.one (.book h _))
  · exact changes_cancelDesk h w

theorem changes_settleSwitchboard (h : books)
    (step : Switchboard → Outcome Switchboard (Switchboard.Effect Requester)) (w : World) :
    Changes relays books w (w.settleSwitchboard step) := by
  unfold settleSwitchboard
  split
  · exact .refl w
  · exact .after (.foldl (changes_onSwitchboardEffect h) _ _)
      (.after (changes_measure _ _) (.one (.book h _)))

theorem changes_afterMessage (h : books) (w : World) : Changes relays books w w.afterMessage := by
  rw [afterMessage]
  split
  · exact changes_restDesk w
  · exact .after (changes_next rfl _) (changes_settleSwitchboard h _ w)

theorem changes_endDesk (h : books) (w : World) : Changes relays books w w.endDesk := by
  unfold endDesk
  split
  · exact .refl w
  · exact .after (.foldl (fun w _ => changes_tellRequester _ _ w) _ _) (.one (.book h _))

theorem changes_awaitStop (h : books) (w : World) : Changes relays books w w.awaitStop := by
  simp only [awaitStop]
  split
  · exact .after (changes_endDesk h _) (changes_settleSwitchboard h _ w)
  · exact .after (changes_restDesk _) (changes_settleSwitchboard h _ w)

theorem changes_runDesk (h : books) (w : World) : Changes relays books w w.runDesk := by
  unfold runDesk
  split
  · exact .refl w
  · split
    · exact .refl w
    · split
      · exact changes_restDesk w
      · split
        · exact changes_awaitStop h w
        · split
          · exact .after (changes_next rfl _)
              (.after (changes_settleSwitchboard h _ _) (.one (.book h _)))
          · split
            · exact changes_restDesk w
            · exact .after (changes_afterMessage h _) (.after (changes_settleSwitchboard h _ _)
                (.after (changes_measure _ _) (.one (.book h _))))

theorem changes_viewed (h : books) (requester : Requester)
    (view : Except SignalingError Meeting.View) (w : World) :
    Changes relays books w (w.viewed requester view) := by
  rw [viewed]
  split
  · exact .after (changes_afterMessage h _)
      (.after (changes_settleSwitchboard h _ _) (.one (.book h _)))
  · exact .refl w

/-! ### Time and permits -/

theorem changes_goOn {due : Due} (hdue : due.job.isPromise = false) (w : World) :
    Changes relays books w (w.goOn due) := by
  unfold goOn
  split
  · exact changes_scheduleActor _ w
  · exact changes_later hdue w

theorem isPromise_due {now line : Nat} {l : Line} {due : Due} (h : due ∈ l.due now line) :
    due.job.isPromise = false := by
  rcases List.mem_append.1 h with h | h
  · obtain ⟨wait, -, rfl⟩ := List.mem_map.1 h
    rfl
  · obtain ⟨a, -, h⟩ := Option.bind_eq_some_iff.1 (Option.mem_toList.1 h)
    obtain ⟨deadline, -, rfl⟩ := Option.map_eq_some_iff.1 h
    rfl

/-- A fold over entries that each lead to changes. -/
theorem changes_foldl_of_mem {α : Type} {f : World → α → World} {l : List α}
    (hf : ∀ a ∈ l, ∀ w, Changes relays books w (f w a)) (w : World) :
    Changes relays books w (l.foldl f w) := by
  induction l generalizing w with
  | nil => exact .refl w
  | cons a l ih =>
    exact (hf a List.mem_cons_self w).trans
      (ih (fun b hb => hf b (List.mem_cons_of_mem a hb)) (f w a))

theorem changes_advance (ms : Nat) (w : World) : Changes relays books w (w.advance ms) := by
  have htime : w.Aside { w with now := w.now + ms } :=
    ⟨rfl, rfl, rfl, rfl, rfl, .refl _, List.prefix_rfl⟩
  refine .after (changes_foldl_of_mem (fun due hdue w => ?_) _) (.aside htime)
  rw [List.mem_mergeSort] at hdue
  obtain ⟨p, -, hp⟩ := List.mem_flatMap.1 hdue
  exact changes_goOn (isPromise_due hp) w

theorem changes_releaseServer (n : Nat) (w : World) :
    Changes relays books w (w.releaseServer n) :=
  .after (.foldl (fun w _ => changes_later rfl w) _ _) (changes_environment rfl)

end World

end CallSignaling.Scenario
