import CallSignaling.Proofs.Meeting.Callers
import CallSignaling.Proofs.Scenario.Moves
import Mathlib.Data.List.Perm.Basic
import Mathlib.Data.List.Perm.Subperm

/-!
# The meetings of a scenario

What the actor of a line does in a scenario is what a meeting at work does, so that whatever is said
of all interleavings of requests and reports holds of the actor's meeting.  Callers are known by
other names there and queue nowhere, so the two are compared with nobody named and without the
mailbox monitor.

* `Scenario.worksOf`: the work of an actor, which goes on as tasks or is yet to be given out.
* `Scenario.Actor.Mirrors`: an actor with the meeting of an activity.
* `Scenario.Enacted`: a line after occurrences at its meeting.

Every move of a scenario is a number of occurrences (`enacted_move`).  So every step of a client is
one, too (`enacted_run`), and so is a whole scenario (`enacted_play`).
-/

namespace CallSignaling.Scenario

open Meeting (Activity)
open Meeting.Activity (Occurrence)

/-! ### Work -/

/-- What the actor of a line has yet to give out. -/
def Stage.owedOf (line : Nat) : Stage → List Work
  | acting i owed _ => if i = line then owed else []
  | idle | hand _ => []

/-- Whether the actor of a line is to end by the input that it has taken. -/
def Stage.endsAt (line : Nat) : Stage → Bool
  | acting i _ (some _) => i = line
  | _ => false

theorem Stage.eq_of_endsAt {line i : Nat} {owed : List Work} {ends : Option Ending}
    (h : (acting i owed ends).endsAt line = true) : i = line := by
  cases ends with
  | none => cases h
  | some _ => exact of_decide_eq_true h

/-- Work that nobody is named for. -/
def Work.anonymous (work : Work) : Meeting.Effect Unit := work.effect.anonymous

/-- The work of the actor of a line, with nobody named. -/
def worksOf (line : Nat) (p : World × Stage) : List (Meeting.Effect Unit) :=
  ((p.1.tasks.filter (·.line = line)).map (·.work) ++ p.2.owedOf line).map Work.anonymous

theorem subperm_map {α β : Type} (f : α → β) {l₁ l₂ : List α} (h : l₁.Subperm l₂) :
    (l₁.map f).Subperm (l₂.map f) := by
  obtain ⟨l, hperm, hsub⟩ := h
  exact ⟨l.map f, hperm.map f, hsub.map f⟩

/-- An input reports on work. -/
def ReportsOn (effect : Meeting.Effect Unit) (input : Meeting.Input Caller) : Prop :=
  ∃ report, effect.input? report = some input.anonymous

theorem Work.map_ofEffect? (effects : List (Meeting.Effect Caller)) :
    (effects.filterMap Work.ofEffect?).map Work.anonymous =
      (effects.filter Meeting.Effect.isWork).map Meeting.Effect.anonymous := by
  induction effects with
  | nil => rfl
  | cons effect effects ih =>
    cases effect with
    | buildAnswer | applyAnswer | send | fetch | destroy => exact congrArg (List.cons _) ih
    | _ => exact ih

/-! ### The relation -/

/-- The activity of the meeting of a line before anything happens. -/
def World.firstActivity (line : Nat) (w : World) : Activity :=
  .start (w.nameOf line) w.settings.limits w.environment.negotiator.kind.ownsMedia

/-- An actor has the meeting of an activity.  While neither has ended, all that the actor has to do
with is work of the activity: what goes on, what is yet to be given out and what was reported on. -/
structure Actor.Mirrors (x : Actor) (works : List (Meeting.Effect Unit)) (a : Activity) : Prop where
  meeting : x.meeting = a.meeting.withMailbox x.meeting.mailbox
  mailbox : ∀ input ∈ x.mailbox, ∃ (request : Meeting.Request) (caller : Caller),
    input = request.input caller
  work : x.ending = none → a.hasEnded = false → ∃ reported : List (Meeting.Effect Unit),
    List.Forall₂ ReportsOn reported x.results ∧
      (works ++ reported).Subperm (a.tasks.map Meeting.Effect.anonymous)

/-- A line after occurrences at its meeting. -/
structure Enacted (line : Nat) (past : List Occurrence) (p : World × Stage) (a : Activity) :
    Prop where
  run : a = (p.1.firstActivity line).run past
  absent : p.1.actor? line = none → past = [] ∧ worksOf line p = []
  mirrors : ∀ x, p.1.actor? line = some x → x.Mirrors (worksOf line p) a
  ending : ∀ x, p.1.actor? line = some x → x.ending = none → a.hasEnded = true →
    p.2.endsAt line = true

/-- What an actor becomes while its meeting does nothing. -/
structure Actor.Keeps (x x' : Actor) : Prop where
  meeting : x'.meeting = x.meeting
  mailbox : ∀ input ∈ x'.mailbox, input ∈ x.mailbox ∨
    ∃ (request : Meeting.Request) (caller : Caller), input = request.input caller
  results : x'.ending = none → x.ending = none ∧ x'.results = x.results

theorem Actor.Keeps.refl (x : Actor) : x.Keeps x := ⟨rfl, fun _ => .inl, fun h => ⟨h, rfl⟩⟩

theorem Actor.Keeps.trans {x y z : Actor} (h₁ : x.Keeps y) (h₂ : y.Keeps z) : x.Keeps z := by
  refine ⟨h₂.meeting.trans h₁.meeting, fun input hinput => ?_, fun hending => ?_⟩
  · rcases h₂.mailbox input hinput with hold | hnew
    · exact h₁.mailbox input hold
    · exact .inr hnew
  · obtain ⟨hending, hresults₂⟩ := h₂.results hending
    obtain ⟨hending, hresults₁⟩ := h₁.results hending
    exact ⟨hending, hresults₂.trans hresults₁⟩

/-- Nothing happens at the meeting of a line. -/
structure Untouched (line : Nat) (p q : World × Stage) : Prop where
  first : q.1.firstActivity line = p.1.firstActivity line
  absent : q.1.actor? line = none → p.1.actor? line = none
  actor : ∀ x', q.1.actor? line = some x' → ∃ x, p.1.actor? line = some x ∧ x.Keeps x'
  works : (worksOf line q).Sublist (worksOf line p)
  ending : p.2.endsAt line = true → ∀ x', q.1.actor? line = some x' → x'.ending = none →
    q.2.endsAt line = true

/-- A line as it is while its meeting does nothing. -/
structure Line.Keeps (l l' : Line) : Prop where
  name : l'.name = l.name
  absent : l'.actor = none → l.actor = none
  actor : ∀ x', l'.actor = some x' → ∃ x, l.actor = some x ∧ x.Keeps x'

theorem Line.Keeps.of_eq {l l' : Line} (hname : l'.name = l.name) (hactor : l'.actor = l.actor) :
    l.Keeps l' :=
  ⟨hname, fun h => hactor ▸ h, fun x h => ⟨x, hactor ▸ h, .refl x⟩⟩

section

variable {line : Nat} {past : List Occurrence} {p q r : World × Stage} {w w' : World} {g : Stage}
  {a b : Activity} {x x' : Actor} {works works' : List (Meeting.Effect Unit)}

theorem Actor.Mirrors.keeps (h : x.Mirrors works a) (hx : x.Keeps x')
    (hworks : works'.Sublist works) : x'.Mirrors works' a := by
  refine ⟨by rw [hx.meeting]; exact h.meeting, fun input hinput => ?_, fun hending hended => ?_⟩
  · rcases hx.mailbox input hinput with hold | hnew
    · exact h.mailbox input hold
    · exact hnew
  · obtain ⟨hx, hresults⟩ := hx.results hending
    obtain ⟨reported, hreported, hsub⟩ := h.work hx hended
    exact ⟨reported, hresults ▸ hreported,
      ((List.subperm_append_right reported).2 hworks.subperm).trans hsub⟩

theorem Enacted.untouched (h : Enacted line past p a) (hq : Untouched line p q) :
    Enacted line past q a := by
  refine ⟨by rw [hq.first, ← h.run], fun hnone => ?_, fun x' hx' => ?_,
    fun x' hx' hending hended => ?_⟩
  · obtain ⟨hpast, hworks⟩ := h.absent (hq.absent hnone)
    exact ⟨hpast, List.sublist_nil.1 (hworks ▸ hq.works)⟩
  · obtain ⟨x, hx, hkeeps⟩ := hq.actor x' hx'
    exact (h.mirrors x hx).keeps hkeeps hq.works
  · obtain ⟨x, hx, hkeeps⟩ := hq.actor x' hx'
    exact hq.ending (h.ending x hx (hkeeps.results hending).1 hended) x' hx' hending

/-- The line goes on with occurrences at its meeting. -/
def GoesOn (line : Nat) (past : List Occurrence) (q : World × Stage) : Prop :=
  ∃ past' a', past <+: past' ∧ Enacted line past' q a'

theorem GoesOn.refl (h : Enacted line past p a) : GoesOn line past p :=
    ⟨past, a, List.prefix_rfl, h⟩

theorem Enacted.goesOn (h : Enacted line past p a) (hq : Untouched line p q) :
    GoesOn line past q :=
  .refl (h.untouched hq)

/-! ### What leaves a meeting alone -/

theorem Untouched.trans (h₁ : Untouched line p q) (h₂ : Untouched line q r) :
    Untouched line p r := by
  refine ⟨h₂.first.trans h₁.first, h₁.absent ∘ h₂.absent, fun x₂ hx₂ => ?_,
    h₂.works.trans h₁.works, fun hp x₂ hx₂ hending => ?_⟩
  all_goals
    obtain ⟨x₁, hx₁, hkeeps₂⟩ := h₂.actor x₂ hx₂
  · obtain ⟨x, hx, hkeeps₁⟩ := h₁.actor x₁ hx₁
    exact ⟨x, hx, hkeeps₁.trans hkeeps₂⟩
  · exact h₂.ending (h₁.ending hp x₁ hx₁ (hkeeps₂.results hending).1) x₂ hx₂ hending

theorem Untouched.of_modify (i : Nat) (f : Line → Line) (hf : i = line → ∀ l, Line.Keeps l (f l))
    (hlines : w'.lines = w.lines.modify i f) (htasks : w'.tasks.Sublist w.tasks)
    (hsettings : w'.settings = w.settings)
    (hkind : w'.environment.negotiator.kind = w.environment.negotiator.kind) :
    Untouched line (w, g) (w', g) := by
  have hget : w'.lines[line]? = (w.lines[line]?).map fun l => if i = line then f l else l := by
    rw [hlines, List.getElem?_modify]
    rfl
  have hkeeps : ∀ l : Line, l.Keeps (if i = line then f l else l) := by
    intro l
    split
    · exact hf ‹_› l
    · exact .of_eq rfl rfl
  cases hl : w.lines[line]? with
  | none =>
    rw [hl] at hget
    refine ⟨?_, fun _ => ?_, fun x' hx' => ?_, ?_, fun h _ _ _ => h⟩
    · simp only [World.firstActivity, World.nameOf, hget, hl, hsettings, hkind]
      rfl
    · rw [World.actor?, hl]
      rfl
    · rw [World.actor?, hget] at hx'
      cases hx'
    · exact (((htasks.filter _).map _).append (.refl _)).map _
  | some l =>
    rw [hl] at hget
    obtain ⟨hname, habsent, hactor⟩ := hkeeps l
    have hold : w.actor? line = l.actor := by rw [World.actor?, hl]; rfl
    have hnew : w'.actor? line = (if i = line then f l else l).actor := by
      rw [World.actor?, hget]
      rfl
    refine ⟨?_, ?_, ?_, ?_, fun h _ _ _ => h⟩
    · simp only [World.firstActivity, World.nameOf, hget, hl, hsettings, hkind, Option.map_some,
        hname]
    · rwa [hold, hnew]
    · rwa [hold, hnew]
    · exact (((htasks.filter _).map _).append (.refl _)).map _

theorem Untouched.of_lines (hlines : w'.lines = w.lines) (htasks : w'.tasks.Sublist w.tasks)
    (hsettings : w'.settings = w.settings)
    (hkind : w'.environment.negotiator.kind = w.environment.negotiator.kind) :
    Untouched line (w, g) (w', g) :=
  .of_modify 0 id (fun _ _ => .of_eq rfl rfl) (by rw [hlines, List.modify_id]) htasks hsettings
    hkind

theorem Untouched.of_modifyActor (i : Nat) {f : Actor → Actor}
    (hf : i = line → ∀ x, Actor.Keeps x (f x)) : Untouched line (w, g) (w.modifyActor i f, g) := by
  refine .of_modify i (fun l => { l with actor := l.actor.map f })
    (fun hi l => ⟨rfl, Option.map_eq_none_iff.1, fun x' hx' => ?_⟩) rfl (.refl _) rfl rfl
  obtain ⟨x, hx, rfl⟩ := Option.map_eq_some_iff.1 hx'
  exact ⟨x, hx, hf hi x⟩

theorem Untouched.of_wireOnly {i : Nat} (h : World.WireOnly i w w') :
    Untouched line (w, g) (w', g) := by
  obtain ⟨f, hf, hfs⟩ := h.lines
  exact .of_modify i f (fun _ l => .of_eq (hfs l).1 (hfs l).2.2.2.2) hf
    (h.tasks ▸ .refl _) h.settings
    (congrArg (·.kind) h.negotiator)

/-- The scenario goes on to another stage. -/
theorem Untouched.of_stage {g' : Stage} (howed : (g'.owedOf line).Sublist (g.owedOf line))
    (hends : g.endsAt line = true → ∀ x, w.actor? line = some x → x.ending = none →
      g'.endsAt line = true) : Untouched line (w, g) (w, g') :=
  ⟨rfl, id, fun x hx => ⟨x, hx, .refl x⟩, ((List.Sublist.refl _).append howed).map _, hends⟩

/-! ### Reports and starts -/

/-- A task leaves the work of its line. -/
theorem worksOf_removeTask {task : Task} (htask : task ∈ w.tasks) (hline : task.line = line) :
    (task.work.anonymous :: worksOf line (w.removeTask task, g)).Subperm
      (worksOf line (w, g)) := by
  have hperm :
    (w.tasks.filter (·.id = task.id) ++ w.tasks.filter (·.id ≠ task.id)).Perm w.tasks := by
    simpa using List.filter_append_perm (fun t : Task => decide (t.id = task.id)) w.tasks
  have hcons : (task :: w.tasks.filter (·.id ≠ task.id)).Subperm w.tasks := by
    have hone : [task].Sublist (w.tasks.filter (·.id = task.id)) :=
      List.singleton_sublist.2 (List.mem_filter.2 ⟨htask, decide_eq_true rfl⟩)
    exact (hone.append (.refl _)).subperm.trans hperm.subperm
  have hfilter := hcons.filter fun t : Task => decide (t.line = line)
  rw [List.filter_cons, if_pos (decide_eq_true hline)] at hfilter
  have hworks := subperm_map (fun t : Task => t.work) hfilter
  exact subperm_map Work.anonymous
    ((List.subperm_append_right (g.owedOf line)).2 hworks)

theorem World.actor?_modifyActor (i : Nat) (f : Actor → Actor) (w : World) :
    (w.modifyActor i f).actor? i = (w.actor? i).map f := by
  simp only [World.actor?, World.modifyActor, World.modifyLine, List.getElem?_modify]
  cases w.lines[i]? <;> simp

theorem World.firstActivity_modifyActor (i : Nat) (f : Actor → Actor) (w : World) :
    (w.modifyActor i f).firstActivity line = w.firstActivity line := by
  have hname : (w.modifyActor i f).nameOf line = w.nameOf line := by
    simp only [World.nameOf, World.modifyActor, World.modifyLine, List.getElem?_modify,
      Option.map_eq_map, Option.map_map]
    refine congrArg (Option.getD · "") (congrArg (Option.map · _) (funext fun l => ?_))
    rw [Function.comp_apply]
    split <;> rfl
  simp only [World.firstActivity, hname]
  rfl

/-- The actor of the line does something that leaves its meeting with an activity. -/
theorem Enacted.modifyActor {g' : Stage} (h : Enacted line past (w, g) a)
    (hx : w.actor? line = some x)
    {f : Actor → Actor} {past' : List Occurrence} (hb : a.run past' = b)
    (hmirrors : (f x).Mirrors (worksOf line (w, g')) b)
    (hending : (f x).ending = none → b.hasEnded = true → g'.endsAt line = true) :
    Enacted line (past ++ past') (w.modifyActor line f, g') b := by
  have hactor : ∀ y, (w.modifyActor line f).actor? line = some y → y = f x := by
    intro y hy
    rw [World.actor?_modifyActor, hx] at hy
    exact (Option.some.inj hy).symm
  refine ⟨?_, fun hnone => ?_, fun y hy => ?_, fun y hy => ?_⟩
  · rw [World.firstActivity_modifyActor, Activity.run_append, ← hb, h.run]
  · rw [World.actor?_modifyActor, hx] at hnone
    cases hnone
  · rw [hactor y hy]
    exact hmirrors
  · rw [hactor y hy]
    exact hending

theorem Enacted.report (h : Enacted line past (w, g) a) {task : Task} {report : Meeting.Report}
    {result : Meeting.Input Caller} (htask : task ∈ w.tasks)
    (hresult : task.work.effect.input? report = some result) :
    Enacted line past
      ((w.removeTask task).modifyActor task.line fun x =>
        { x with results := x.results ++ [result] },
        g) a := by
  have hremoved : Untouched line (w, g) (w.removeTask task, g) :=
    .of_lines rfl List.filter_sublist rfl rfl
  by_cases hline : task.line = line
  · have hworks := @worksOf_removeTask line w g task htask hline
    have h' := h.untouched hremoved
    subst hline
    cases hx : w.actor? task.line with
    | none =>
      -- there is no such actor, and so no such task
      rw [(h.absent hx).2, List.subperm_nil] at hworks
      cases hworks
    | some x =>
      have hfresh := @Enacted.modifyActor task.line past (w.removeTask task) g a a x g h' hx
        (fun x => { x with results := x.results ++ [result] }) [] rfl ?_ ?_
      · rwa [List.append_nil] at hfresh
      · refine ⟨(h.mirrors x hx).meeting, (h.mirrors x hx).mailbox, fun hending hended => ?_⟩
        obtain ⟨reported, hreported, hsub⟩ := (h.mirrors x hx).work hending hended
        refine ⟨reported ++ [task.work.anonymous], ?_, ?_⟩
        · refine List.rel_append hreported (.cons ⟨report, ?_⟩ .nil)
          rw [Work.anonymous, Meeting.Effect.input?_anonymous, hresult]
          rfl
        · refine .trans ?_ (((List.subperm_append_right reported).2 hworks).trans hsub)
          rw [← List.append_assoc]
          exact (List.perm_append_singleton _ _).subperm
      · exact h.ending x hx
  · exact h.untouched (hremoved.trans (.of_modifyActor _ fun h => absurd h hline))

/-- A meeting that is new has done nothing yet. -/
theorem Enacted.start (h : Enacted line past (w, g) a) (name : String) :
    GoesOn line past (w.startMeeting name, g) := by
  by_cases hline : line = w.lines.length
  · obtain ⟨l, hl, rfl, -, -, hactor⟩ := World.getElem?_startMeeting name w
    rw [← hline] at hl
    have hnone : w.lines[line]? = none := List.getElem?_eq_none (Nat.le_of_eq hline.symm)
    obtain ⟨hpast, hworks⟩ := h.absent (by rw [World.actor?, hnone]; rfl)
    have hname := World.nameOf_eq hl
    have hactor : (w.startMeeting l.name).actor? line = some
        { meeting :=
          .create l.name w.settings.limits w.environment.negotiator.kind.ownsMedia } := by
      rw [World.actor?, hl]
      exact hactor
    refine ⟨past, (w.startMeeting l.name).firstActivity line, List.prefix_rfl, ?_, fun hnone => ?_,
      fun x hx => ?_, fun x hx _ hended => ?_⟩
    · rw [hpast, Activity.run_nil]
    · rw [hactor] at hnone
      cases hnone
    · rw [hactor] at hx
      cases hx
      refine ⟨?_, fun _ hmem => absurd hmem List.not_mem_nil, fun _ _ => ⟨[], .nil, ?_⟩⟩
      · rw [World.firstActivity, hname]
        rfl
      · have hsame : worksOf line (w.startMeeting l.name, g) = worksOf line (w, g) := rfl
        rw [hsame, hworks]
        exact List.nil_subperm
    · cases hended
  · have hget := World.getElem?_startMeeting_of_ne hline name
    have hactor : (w.startMeeting name).actor? line = w.actor? line := by
      rw [World.actor?, World.actor?, hget]
    refine h.goesOn ⟨?_, fun h => hactor ▸ h, fun x hx => ⟨x, hactor ▸ hx, .refl x⟩, .refl _,
      fun h _ _ _ => h⟩
    simp only [World.firstActivity, World.nameOf, hget]
    rfl

/-! ### Inputs -/

/-- What an input that is taken comes from. -/
theorem Actor.takeInput?_cases {now : Nat} {input : Meeting.Input Caller} {metrics : List Metric}
    (h : x.takeInput? now = some (input, x', metrics)) :
    (input = .cancel ∧ x.cancelled = true ∧ x' = x) ∨
      (input = .stallTimeout ∧ x.meeting.stallDeadline.any (· ≤ now) = true ∧ x' = x) ∨
      (∃ results, x.results = input :: results ∧ x' = { x with results }) ∨
      ∃ mailbox monitor, x.mailbox = input :: mailbox ∧
        x' = { x with mailbox, meeting := x.meeting.withMailbox monitor } := by
  unfold takeInput? at h
  split at h
  · cases h
    exact .inl ⟨rfl, ‹_›, rfl⟩
  · split at h
    · cases h
      exact .inr (.inl ⟨rfl, ‹_›, rfl⟩)
    · split at h
      · cases h
        exact .inr (.inr (.inl ⟨_, ‹_›, rfl⟩))
      · cases h
        exact .inr (.inr (.inr ⟨_, _, ‹_›, rfl⟩))
      · cases h

/-- The meeting takes an input. -/
theorem Actor.Mirrors.handle (h : x.Mirrors works a) (hending : x.ending = none)
    (hended : a.hasEnded = false) {input : Meeting.Input Caller} {input' : Meeting.Input Nat}
    (hinput : input'.anonymous = input.anonymous) {now draw : Nat}
    {o : Outcome Meeting (Meeting.Effect Caller)} (ho : x.meeting.step now draw input = o) :
    { x with meeting := o.state }.Mirrors
      (works ++ (o.effects.filterMap Work.ofEffect?).map Work.anonymous)
      (a.handle now draw input') := by
  obtain ⟨hstate, heffects⟩ := Meeting.step_anonymous hinput h.meeting now draw
  rw [ho] at hstate heffects
  refine ⟨hstate, h.mailbox, fun _ _ => ?_⟩
  obtain ⟨reported, hreported, hsub⟩ := h.work hending hended
  refine ⟨reported, hreported, ?_⟩
  have hworks : ((a.meeting.step now draw input').effects.filter Meeting.Effect.isWork).map
      Meeting.Effect.anonymous = (o.effects.filterMap Work.ofEffect?).map Work.anonymous := by
    have hfilter : ∀ {κ : Type} (effects : List (Meeting.Effect κ)),
        (effects.filter Meeting.Effect.isWork).map Meeting.Effect.anonymous =
          (effects.map Meeting.Effect.anonymous).filter Meeting.Effect.isWork := by
      intro κ effects
      rw [List.filter_map]
      exact congrArg _ (List.filter_congr fun e _ => (Meeting.Effect.isWork_anonymous e).symm)
    rw [Work.map_ofEffect?, hfilter, hfilter, heffects]
  rw [Activity.handle, List.map_append, hworks]
  refine .trans ?_ ((List.subperm_append_right _).2 hsub)
  rw [List.append_assoc, List.append_assoc]
  exact (List.perm_append_comm.append_left works).subperm

/-- An actor crashes over an input when the activity does. -/
theorem Actor.Mirrors.crashes (h : x.Mirrors works a) {input : Meeting.Input Caller}
    {input' : Meeting.Input Nat} (hinput : input'.anonymous = input.anonymous) {now draw : Nat}
    {o : Outcome Meeting (Meeting.Effect Caller)} (ho : x.meeting.step now draw input = o) :
    (a.meeting.step now draw input').effects.any Meeting.Effect.isCrash =
      o.effects.any Meeting.Effect.isCrash := by
  have heffects := (Meeting.step_anonymous hinput h.meeting now draw).2
  rw [ho] at heffects
  have hany : ∀ {κ : Type} (effects : List (Meeting.Effect κ)),
      effects.any Meeting.Effect.isCrash =
        (effects.map Meeting.Effect.anonymous).any Meeting.Effect.isCrash := by
    intro κ effects
    rw [List.any_map]
    exact congrArg (effects.any ·) (funext fun e => (Meeting.Effect.isCrash_anonymous e).symm)
  rw [hany, hany o.effects, heffects]

/-- An activity that has stopped has the meeting that it had. -/
theorem Actor.Mirrors.stop (h : x.Mirrors works a) : x.Mirrors works a.stop :=
  ⟨h.meeting, h.mailbox, fun _ h => nomatch h⟩

/-- A report on work that is known is heard. -/
theorem exists_report {input : Meeting.Input Caller} {effect : Meeting.Effect Unit}
    (hreport : ReportsOn effect input)
    (hsub : (effect :: works).Subperm (a.tasks.map Meeting.Effect.anonymous)) :
    ∃ i report input', (a.tasks[i]?).bind (·.input? report) = some input' ∧
      input'.anonymous = input.anonymous ∧
      works.Subperm ((a.tasks.eraseIdx i).map Meeting.Effect.anonymous) := by
  obtain ⟨report, hinput⟩ := hreport
  obtain ⟨i, hi, hget⟩ := List.getElem_of_mem (hsub.subset List.mem_cons_self)
  rw [List.length_map] at hi
  rw [List.getElem_map] at hget
  have hanonymous : ((a.tasks[i]).input? report).map Meeting.Input.anonymous =
      some input.anonymous := by
    rw [← Meeting.Effect.input?_anonymous, hget, hinput]
  obtain ⟨input', hinput', heq⟩ := Option.map_eq_some_iff.1 hanonymous
  refine ⟨i, report, input', ?_, heq, ?_⟩
  · rw [List.getElem?_eq_getElem hi]
    exact hinput'
  · have hperm := (List.getElem_cons_eraseIdx_perm hi).map Meeting.Effect.anonymous
    rw [List.map_cons, hget] at hperm
    exact (List.subperm_cons effect).1 (hsub.trans hperm.symm.subperm)

/-- What an actor takes next is an input of the activity, which stops if the input is that
it is to. -/
theorem Actor.Mirrors.next (h : x.Mirrors works a) (hending : x.ending = none)
    (hended : a.hasEnded = false) {now : Nat} {input : Meeting.Input Caller} {metrics : List Metric}
    (htake : x.takeInput? now = some (input, x', metrics)) (draw : Nat) :
    ∃ event b input', input'.anonymous = input.anonymous ∧ x'.Mirrors works b ∧
      x'.ending = none ∧ b.hasEnded = false ∧
      ((input = .cancel ∧ x.cancelled = true ∧
          a.step ⟨event, now, draw⟩ = (b.handle now draw input').stop) ∨
        input ≠ .cancel ∧ a.step ⟨event, now, draw⟩ = b.take now draw input') := by
  have hrun : ¬ a.hasEnded = true := by rw [hended]; exact Bool.false_ne_true
  rcases x.takeInput?_cases htake with
    ⟨rfl, hcancelled, rfl⟩ | ⟨rfl, hdue, rfl⟩ | ⟨results, hresults, rfl⟩ |
    ⟨mailbox, monitor, hmailbox, rfl⟩
  · refine ⟨.cancel, a, .cancel, rfl, h, hending, hended, .inl ⟨rfl, hcancelled, ?_⟩⟩
    rw [Activity.step, if_neg hrun]
  · refine ⟨.stallTimeout, a, .stallTimeout, rfl, h, hending, hended, .inr ⟨by rintro ⟨⟩, ?_⟩⟩
    rw [h.meeting] at hdue
    rw [Activity.step, if_neg hrun]
    exact if_pos hdue
  · -- the result is that of some work that was reported on
    obtain ⟨reported, hreported, hsub⟩ := h.work hending hended
    rw [hresults] at hreported
    cases hreported with
    | cons hreport hrest =>
      rename_i effect rest
      have hmoved : (effect :: (works ++ rest)).Subperm (a.tasks.map Meeting.Effect.anonymous) :=
        List.perm_middle.symm.subperm.trans hsub
      obtain ⟨i, report, input', hinput, hanonymous, hleft⟩ := exists_report hreport hmoved
      refine ⟨.report i report, { a with tasks := a.tasks.eraseIdx i }, input', hanonymous,
        ⟨h.meeting, h.mailbox, fun _ _ => ⟨rest, hrest, hleft⟩⟩, hending, hended, .inr ⟨?_, ?_⟩⟩
      · rintro rfl
        obtain ⟨report, hreport⟩ := hreport
        cases effect <;> cases report <;> cases hreport
      · rw [Activity.step, if_neg hrun]
        simp only [hinput]
  · obtain ⟨request, caller, rfl⟩ := h.mailbox input (hmailbox ▸ List.mem_cons_self)
    refine ⟨.call request, a, request.input a.past.length, ?_, ⟨?_, fun input hinput => ?_, h.work⟩,
      hending, hended, .inr ⟨?_, ?_⟩⟩
    · rw [Meeting.Request.anonymous_input, Meeting.Request.anonymous_input]
    · have hmeeting := congrArg (Meeting.withMailbox monitor) h.meeting
      exact hmeeting
    · exact h.mailbox input (hmailbox ▸ List.mem_cons_of_mem _ hinput)
    · cases request <;> rintro ⟨⟩
    · rw [Activity.step, if_neg hrun]

/-- **What an actor takes is an occurrence at its meeting.** -/
theorem Enacted.take (h : Enacted line past (w, .idle) a) {i : Nat} (hx : w.actor? i = some x)
    (hending : x.ending = none) {input : Meeting.Input Caller} {metrics : List Metric}
    (htake : x.takeInput? w.now = some (input, x', metrics))
    {o : Outcome Meeting (Meeting.Effect Caller)}
    (ho : x'.meeting.step w.now w.environment.draw input = o) :
    GoesOn line past
      (w.modifyActor i fun _ => { x' with meeting := o.state },
        .acting i (o.effects.filterMap Work.ofEffect?) (endingAfter? input o.effects)) := by
  by_cases hi : i = line
  · subst hi
    have hended : a.hasEnded = false := by
      cases hended : a.hasEnded with
      | false => rfl
      | true => cases h.ending x hx hending hended
    obtain ⟨event, b, input', hinput, hb, hending', hended', hstep⟩ :=
      (h.mirrors x hx).next hending hended htake w.environment.draw
    have hafter := hb.handle hending' hended' hinput ho
    have hcrashes := hb.crashes hinput ho
    have hworks : worksOf i (w, .idle) ++ (o.effects.filterMap Work.ofEffect?).map Work.anonymous =
        worksOf i (w, .acting i (o.effects.filterMap Work.ofEffect?)
          (endingAfter? input o.effects)) := by
      simp [worksOf, Stage.owedOf]
    rw [hworks] at hafter
    have hends : ∀ {e : Ending}, endingAfter? input o.effects = some e →
        (Stage.acting i (o.effects.filterMap Work.ofEffect?)
          (endingAfter? input o.effects)).endsAt i = true := by
      intro e he
      rw [he]
      exact decide_eq_true rfl
    refine ⟨past ++ [⟨event, w.now, w.environment.draw⟩], a.step ⟨event, w.now, w.environment.draw⟩,
      List.prefix_append .., h.modifyActor hx rfl ?_ fun _ hstopped => ?_⟩
    · rcases hstep with ⟨-, -, hstep⟩ | ⟨-, hstep⟩
      · rw [hstep]
        exact hafter.stop
      · rw [hstep, Activity.take]
        split
        · exact hafter.stop
        · exact hafter
    · rcases hstep with ⟨rfl, -⟩ | ⟨hinput, hstep⟩
      · exact hends rfl
      · rw [hstep, Activity.take, hcrashes] at hstopped
        split at hstopped
        · rename_i hcrash
          refine hends (e := .crashed) ?_
          unfold endingAfter?
          split
          · exact absurd rfl hinput
          · rw [if_pos hcrash]
        · rw [Activity.handle, hended'] at hstopped
          cases hstopped
  · have hstage : (Stage.acting i (o.effects.filterMap Work.ofEffect?)
        (endingAfter? input o.effects)).owedOf line = [] := if_neg hi
    refine h.goesOn (.trans (.of_modifyActor i fun h => absurd h hi) (.of_stage ?_ (by rintro ⟨⟩)))
    rw [hstage]
    exact List.nil_sublist _

/-- An actor only takes it that it is to stop when it is to. -/
theorem Enacted.cancelled_of_take (h : Enacted line past (w, .idle) a) (hx : w.actor? line = some x)
    (hending : x.ending = none) {metrics : List Metric}
    (htake : x.takeInput? w.now = some (.cancel, x', metrics)) : x.cancelled = true := by
  have hended : a.hasEnded = false := by
    cases hended : a.hasEnded with
    | false => rfl
    | true => cases h.ending x hx hending hended
  obtain ⟨_, _, _, -, -, -, -, ⟨-, hcancelled, -⟩ | ⟨hne, -⟩⟩ :=
    (h.mirrors x hx).next hending hended htake 0
  · exact hcancelled
  · exact absurd rfl hne

/-! ### Moves and runs -/

theorem enacted_change {relays : Nat → Prop} {books : Prop} (hchange : Change relays books w w')
    (h : Enacted line past (w, g) a) : GoesOn line past (w', g) := by
  cases hchange with
  | aside haside =>
    exact h.goesOn (.of_lines haside.lines (haside.tasks ▸ .refl _) haside.settings
      haside.negotiator)
  | @note i _ _ hf =>
    exact h.goesOn
      (.of_modify i _ (fun _ l => .of_eq (hf l).name (hf l).actor) rfl (.refl _) rfl rfl)
  | complete => exact h.goesOn (.of_lines rfl (.refl _) rfl rfl)
  | submit i request _ => exact h.goesOn (.of_wireOnly (World.wireOnly_submitRequest i request _ w))
  | depart i => exact h.goesOn (.of_wireOnly (World.wireOnly_depart i w))
  | shift i hf =>
    refine h.goesOn (.of_modifyActor i fun _ x => ?_)
    obtain ⟨hmeeting, hmailbox, hresults, -, hending⟩ := hf x
    exact ⟨hmeeting, fun _ hinput => .inl (hmailbox ▸ hinput),
      fun hnone => ⟨hending ▸ hnone, hresults⟩⟩
  | post i request caller =>
    refine h.goesOn (.of_modifyActor i fun _ x => ⟨rfl, fun input hinput => ?_, fun h => ⟨h, rfl⟩⟩)
    rcases List.mem_append.1 hinput with hold | hnew
    · exact .inl hold
    · exact .inr ⟨request, caller, List.mem_singleton.1 hnew⟩
  | cancel i =>
    exact h.goesOn (.of_modifyActor i fun _ x => ⟨rfl, fun _ => .inl, fun h => ⟨h, rfl⟩⟩)
  | lose hsub => exact h.goesOn (.of_lines rfl hsub rfl rfl)
  | finish htask hresult => exact .refl (h.report htask hresult)
  | mark => exact h.goesOn (.of_lines rfl (.refl _) rfl rfl)
  | book => exact h.goesOn (.of_lines rfl (.refl _) rfl rfl)
  | start _ name => exact h.start name

theorem goesOn_changes {relays : Nat → Prop} {books : Prop} (hchanges : Changes relays books w w')
    (h : GoesOn line past (w, g)) : GoesOn line past (w', g) := by
  refine hchanges.induction (P := fun v => GoesOn line past (v, g)) ?_ h
  rintro v v' hchange ⟨past', a', hprefix, h⟩
  obtain ⟨past'', a'', hprefix', h'⟩ := enacted_change hchange h
  exact ⟨past'', a'', hprefix.trans hprefix', h'⟩

/-- Work that is given out was owed. -/
theorem untouched_giveOut (i : Nat) (work : Work) (owed : List Work) (ending : Option Ending)
    (w : World) :
    Untouched line (w, .acting i (work :: owed) ending)
      (w.giveOut i work, .acting i owed ending) := by
  refine ⟨rfl, id, fun x hx => ⟨x, hx, .refl x⟩, ?_, fun hends _ _ _ => ?_⟩
  · have hsame : worksOf line (w.giveOut i work, .acting i owed ending) =
        worksOf line (w, .acting i (work :: owed) ending) := by
      by_cases hi : i = line <;> simp [worksOf, Stage.owedOf, World.giveOut, World.later, hi]
    rw [hsame]
  · cases ending with
    | none => cases hends
    | some _ => exact hends

theorem GoesOn.untouched (h : GoesOn line past p) (hq : Untouched line p q) :
    GoesOn line past q := by
  obtain ⟨past', a', hprefix, h⟩ := h
  exact ⟨past', a', hprefix, h.untouched hq⟩

/-- **Every move is a number of occurrences at the meeting.** -/
theorem enacted_move (hmove : Move p q) (h : Enacted line past p a) : GoesOn line past q := by
  cases hmove with
  | change hchange => exact enacted_change hchange h
  | relay hrelay =>
    have hstage := hrelay.stage
    have hchanges := @RelayMove.changes False _ _ _ hrelay
    obtain ⟨w, g⟩ := p
    obtain ⟨w', g'⟩ := q
    have hmoved := goesOn_changes hchanges (.refl h)
    rcases hstage with rfl | ⟨⟨job, rfl⟩, rfl⟩
    · exact hmoved
    · exact hmoved.untouched (.of_stage (.refl _) fun h => nomatch h)
  | desk hdesk => exact goesOn_changes (@DeskMove.changes (fun _ => False) _ _ hdesk) (.refl h)
  | @pop w job agenda _ =>
    have hagenda : Untouched line (w, .idle) ({ w with agenda }, .idle) :=
      .of_lines rfl (.refl _) rfl rfl
    exact h.goesOn (hagenda.trans (.of_stage (.refl _) fun h => nomatch h))
  | drop job => exact h.goesOn (.of_stage (.refl _) fun h => nomatch h)
  | @dispatch w i =>
    have hwire := World.wireOnly_dispatch i w
    exact h.goesOn ((Untouched.of_wireOnly hwire).trans (.of_stage (.refl _) fun h => nomatch h))
  | take hx hending htake ho => exact h.take hx hending htake ho
  | giveOut => exact h.goesOn (untouched_giveOut ..)
  | rest => exact h.goesOn (.of_stage (List.nil_sublist _) fun h => nomatch h)
  | @finish w i owed ends ending _ =>
    have hended : Untouched line (w, .acting i owed ends)
        (w.modifyActor i fun x => { x with ending := some ending, mailbox := [], results := [] },
          .acting i owed ends) :=
      .of_modifyActor i fun _ x => ⟨rfl, fun _ h => (nomatch h), fun h => nomatch h⟩
    refine h.goesOn (hended.trans (.of_stage (List.nil_sublist _) fun hends x' hx' hnone => ?_))
    obtain rfl := Stage.eq_of_endsAt hends
    rw [World.actor?_modifyActor] at hx'
    obtain ⟨x, -, rfl⟩ := Option.map_eq_some_iff.1 hx'
    cases hnone
  | gone hnone =>
    refine h.goesOn (.of_stage (List.nil_sublist _) fun hends x hx _ => ?_)
    obtain rfl := Stage.eq_of_endsAt hends
    rw [hnone] at hx
    cases hx

theorem goesOn_moves (hmoves : Moves p q) (h : Enacted line past p a) : GoesOn line past q := by
  induction hmoves with
  | refl => exact .refl h
  | tail _ hmove ih =>
    obtain ⟨past', a', hprefix, h'⟩ := ih
    obtain ⟨past'', a'', hprefix', h''⟩ := enacted_move hmove h'
    exact ⟨past'', a'', hprefix.trans hprefix', h''⟩

/-- **A step of a client is a number of occurrences at the meeting.** -/
theorem enacted_run (call : Nat) (step : Step) (h : Enacted line past (w, .idle) a) :
    GoesOn line past (w.run call step, .idle) :=
  goesOn_moves (World.moves_run call step w)
    (h.untouched (.of_lines rfl (.refl _) rfl rfl))

theorem enacted_play (steps : List (Nat × Step)) (h : Enacted line past (w, .idle) a) :
    GoesOn line past (w.play steps, .idle) := by
  induction steps generalizing w past a with
  | nil => exact .refl h
  | cons s steps ih =>
    obtain ⟨past', a', hprefix, h'⟩ := enacted_run s.1 s.2 h
    obtain ⟨past'', a'', hprefix', h''⟩ := ih h'
    exact ⟨past'', a'', hprefix.trans hprefix', h''⟩

/-- Nothing has happened at a meeting when a scenario begins. -/
theorem enacted_new (hw : w.IsNew) (line : Nat) :
    Enacted line [] (w, .idle) (w.firstActivity line) := by
  have htasks : w.tasks = [] := by cases hw <;> rfl
  have hworks : worksOf line (w, .idle) = [] := by
    rw [worksOf, htasks]
    rfl
  have hactor : ∀ x, w.actor? line = some x →
      x = { meeting := (w.firstActivity line).meeting } := by
    intro x hx
    cases hw with
    | line => cases line <;> cases hx
    | meeting =>
      cases line with
      | zero => exact (Option.some.inj hx).symm
      | succ => cases hx
    | desk => cases hx
  refine ⟨rfl, fun _ => ⟨rfl, hworks⟩, fun x hx => ?_, fun _ _ _ hended => nomatch hended⟩
  rw [hactor x hx, hworks]
  exact ⟨rfl, fun _ h => (nomatch h), fun _ _ => ⟨[], .nil, List.nil_subperm⟩⟩

/-- **In every scenario every meeting is one at work**: but for its mailbox, it has the state that
some occurrences lead to, and while it has not ended its tasks are among the work under way. -/
theorem meeting_of_play (hw : w.IsNew) (steps : List (Nat × Step))
    (hx : (w.play steps).actor? line = some x) :
    ∃ past, let a := ((w.play steps).firstActivity line).run past
      x.meeting = a.meeting.withMailbox x.meeting.mailbox ∧
        (x.ending = none → a.hasEnded = false ∧
          (worksOf line (w.play steps, .idle)).Subperm (a.tasks.map Meeting.Effect.anonymous)) := by
  obtain ⟨past, a, -, h⟩ := enacted_play steps (enacted_new hw line)
  have hmirrors := h.mirrors x hx
  refine ⟨past, ?_⟩
  simp only [← h.run]
  refine ⟨hmirrors.meeting, fun hending => ?_⟩
  have hended : a.hasEnded = false := by
    cases hended : a.hasEnded with
    | false => rfl
    | true => cases h.ending x hx hending hended
  obtain ⟨reported, -, hsub⟩ := hmirrors.work hending hended
  exact ⟨hended, (List.sublist_append_left ..).subperm.trans hsub⟩

end

end CallSignaling.Scenario
