import CallSignaling.Proofs.Scenario.Meetings
import CallSignaling.Proofs.Switchboard.Service

/-!
# The desk of a scenario

What the desk of a scenario and the meetings that it starts do is what a switchboard in service and
its instances do, so that whatever is said of all interleavings there holds of every scenario.  What
the desk tells its callers is not compared.

* `Scenario.Line.instance?`: the instance that an actor is.
* `Scenario.Desk.InPhase`: where a desk is in its round.
* `Scenario.World.Serves`: a desk with the books of a service, and lines with its instances.
* `Scenario.Served`: a scenario after events at its switchboard.

Every move of a scenario is a number of events (`served_move`), so is every step of a client
(`served_run`), and so is a whole scenario (`served_play`).
-/

namespace CallSignaling.Scenario

open Switchboard (Instance Phase Service)

/-! ### Instances and phases -/

/-- The instance that an actor is. -/
def Actor.instanceOf (name : String) (x : Actor) : Instance :=
  { name, meeting := x.meeting, cancelled := x.cancelled, ending := x.ending }

/-- The instance that the actor of a line is. -/
def Line.instance? (l : Line) : Option Instance := l.actor.map (·.instanceOf l.name)

theorem map_instance?_modify {ls : List Line} {ys : List Instance}
    (h : ls.map Line.instance? = ys.map some) {i : Nat} {f : Line → Line} {g : Instance → Instance}
    (hfg : ∀ l, ls[i]? = some l → (f l).instance? = l.instance?.map g) :
    (ls.modify i f).map Line.instance? = (ys.modify i g).map some := by
  refine List.ext_getElem? fun j => ?_
  have hj : (ls[j]?).map Line.instance? = (ys[j]?).map some := by
    rw [← List.getElem?_map, h, List.getElem?_map]
  rw [List.getElem?_map, List.getElem?_map, List.getElem?_modify, List.getElem?_modify]
  cases hl : ls[j]? with
  | none =>
    rw [hl] at hj
    rw [Option.map_eq_none_iff.1 hj.symm]
    rfl
  | some l =>
    rw [hl] at hj
    obtain ⟨y, hy, heq⟩ := Option.map_eq_some_iff.1 hj.symm
    rw [hy]
    by_cases hij : i = j
    · simp [hij, hfg l (hij ▸ hl), ← heq]
    · simp [hij, ← heq]

/-- Where a desk is in its round.  Between two of its doings it looks for meetings that have ended,
or rests. -/
inductive Desk.InPhase (d : Desk) : Phase Requester → Prop
  | looking (hasking : d.isAsking = false) (hstopping : d.isStopping = false)
      (hended : d.hasEnded = false) : d.InPhase .looking
  | resting (hasking : d.isAsking = false) (hstopping : d.isStopping = false)
      (hended : d.hasEnded = false) : d.InPhase .resting
  | asking (i : Nat) (caller : Requester) (ran : Bool) (hasking : d.isAsking = true)
      (hstopping : d.isStopping = false) (hended : d.hasEnded = false) :
      d.InPhase (.asking i caller ran)
  | stopping (hasking : d.isAsking = false) (hstopping : d.isStopping = true)
      (hended : d.hasEnded = false) : d.InPhase .stopping
  | stopped (hasking : d.isAsking = false) (hended : d.hasEnded = true) : d.InPhase .stopped

theorem Desk.InPhase.of_flags {d d' : Desk} {phase : Phase Requester} (h : d.InPhase phase)
    (hasking : d'.isAsking = d.isAsking) (hstopping : d'.isStopping = d.isStopping)
    (hended : d'.hasEnded = d.hasEnded) : d'.InPhase phase := by
  cases h with
  | looking h₁ h₂ h₃ => exact .looking (hasking.trans h₁) (hstopping.trans h₂) (hended.trans h₃)
  | resting h₁ h₂ h₃ => exact .resting (hasking.trans h₁) (hstopping.trans h₂) (hended.trans h₃)
  | asking i caller ran h₁ h₂ h₃ =>
    exact .asking i caller ran (hasking.trans h₁) (hstopping.trans h₂) (hended.trans h₃)
  | stopping h₁ h₂ h₃ => exact .stopping (hasking.trans h₁) (hstopping.trans h₂) (hended.trans h₃)
  | stopped h₁ h₂ => exact .stopped (hasking.trans h₁) (hended.trans h₂)

/-! ### A desk and a service -/

/-- A desk keeps the books of a service, and the lines have its instances. -/
structure World.Serves (w : World) (s : Service Requester) : Prop where
  desk : ∃ d, w.desk = some d ∧ s.switchboard = d.switchboard ∧ s.cancelled = d.cancelled ∧
    d.InPhase s.phase
  instances : w.lines.map Line.instance? = s.instances.map some
  limits : s.limits = w.settings.limits
  ownsMedia : s.ownsMedia = w.environment.negotiator.kind.ownsMedia

/-- Nothing happens to the desk and to the instances. -/
structure World.Steady (w w' : World) : Prop where
  instances : w'.lines.map Line.instance? = w.lines.map Line.instance?
  desk : ∀ d, w.desk = some d → ∃ d', w'.desk = some d' ∧ Desk.Alike d d'
  settings : w'.settings = w.settings
  kind : w'.environment.negotiator.kind = w.environment.negotiator.kind

namespace World

variable {w w' w₁ w₂ : World} {s : Service Requester}

theorem Serves.steady (h : w.Serves s) (hw : w.Steady w') : w'.Serves s := by
  obtain ⟨d, hd, hbooks, hcancelled, hphase⟩ := h.desk
  obtain ⟨d', hd', halike⟩ := hw.desk d hd
  refine ⟨⟨d', hd', hbooks.trans halike.switchboard.symm, hcancelled.trans halike.cancelled.symm,
    hphase.of_flags halike.isAsking halike.isStopping halike.hasEnded⟩,
      hw.instances.trans h.instances, ?_, ?_⟩
  · rw [hw.settings, h.limits]
  · rw [hw.kind, h.ownsMedia]

theorem Steady.refl (w : World) : w.Steady w :=
  ⟨rfl, fun d hd => ⟨d, hd, rfl, rfl, rfl, rfl, rfl⟩, rfl, rfl⟩

/-- What is steady before something else that is, of which the last one says what it leads to. -/
theorem Steady.after (h₂ : w₁.Steady w₂) (h₁ : w.Steady w₁) : w.Steady w₂ := by
  refine ⟨h₂.instances.trans h₁.instances, fun d hd => ?_, h₂.settings.trans h₁.settings,
    h₂.kind.trans h₁.kind⟩
  obtain ⟨d₁, hd₁, h⟩ := h₁.desk d hd
  obtain ⟨d₂, hd₂, h'⟩ := h₂.desk d₁ hd₁
  exact ⟨d₂, hd₂, h'.switchboard.trans h.switchboard, h'.cancelled.trans h.cancelled,
    h'.isAsking.trans h.isAsking, h'.isStopping.trans h.isStopping, h'.hasEnded.trans h.hasEnded⟩

/-- Nothing happens to a world but on its agenda, among its tasks and around it. -/
theorem Steady.of_eq (hlines : w'.lines = w.lines) (hdesk : w'.desk = w.desk)
    (hsettings : w'.settings = w.settings)
    (hkind : w'.environment.negotiator.kind = w.environment.negotiator.kind) : w.Steady w' :=
  ⟨by rw [hlines], fun d hd => ⟨d, hdesk ▸ hd, rfl, rfl, rfl, rfl, rfl⟩, hsettings, hkind⟩

theorem Steady.of_modify (i : Nat) {f : Line → Line} (hf : ∀ l, (f l).instance? = l.instance?)
    (hlines : w'.lines = w.lines.modify i f) (hdesk : w'.desk = w.desk)
    (hsettings : w'.settings = w.settings)
    (hkind : w'.environment.negotiator.kind = w.environment.negotiator.kind) : w.Steady w' := by
  refine ⟨?_, fun d hd => ⟨d, hdesk ▸ hd, rfl, rfl, rfl, rfl, rfl⟩, hsettings, hkind⟩
  rw [hlines]
  refine List.ext_getElem? fun j => ?_
  rw [List.getElem?_map, List.getElem?_map, List.getElem?_modify, Option.map_eq_map, Option.map_map]
  refine congrArg (Option.map · _) (funext fun l => ?_)
  rw [Function.comp_apply]
  split
  · exact hf l
  · rfl

theorem Steady.of_modifyActor (i : Nat) {f : Actor → Actor}
    (hf : ∀ x, (f x).meeting = x.meeting ∧ (f x).cancelled = x.cancelled ∧
      (f x).ending = x.ending) : w.Steady (w.modifyActor i f) := by
  refine .of_modify i (f := fun l => { l with actor := l.actor.map f })
    (fun l => ?_) rfl rfl rfl rfl
  rw [Line.instance?, Option.map_map]
  refine congrArg (Option.map · _) (funext fun x => ?_)
  obtain ⟨hmeeting, hcancelled, hending⟩ := hf x
  simp only [Function.comp_apply, Actor.instanceOf, hmeeting, hcancelled, hending]

theorem Steady.of_modifyDesk {f : Desk → Desk} (hf : ∀ d, Desk.Alike d (f d)) :
    w.Steady (w.modifyDesk f) := by
  refine ⟨rfl, fun d hd => ⟨f d, ?_, hf d⟩, rfl, rfl⟩
  rw [modifyDesk, hd]
  rfl

theorem Steady.of_wireOnly {i : Nat} (h : WireOnly i w w') : w.Steady w' := by
  obtain ⟨f, hf, hfs⟩ := h.lines
  refine .of_modify i (fun l => ?_) hf h.desk h.settings (congrArg (·.kind) h.negotiator)
  rw [Line.instance?, Line.instance?, (hfs l).1, (hfs l).2.2.2.2]

theorem steady_later (job : Job) (w : World) : w.Steady (w.later job) := .of_eq rfl rfl rfl rfl

theorem steady_next (job : Job) (w : World) : w.Steady (w.next job) := .of_eq rfl rfl rfl rfl

theorem steady_conclude (call : Nat) (answer : Answer) (w : World) :
    w.Steady (w.conclude call answer) := .of_eq rfl rfl rfl rfl

theorem steady_measure (metrics : List Metric) (w : World) : w.Steady (w.measure metrics) :=
  .of_eq rfl rfl rfl rfl

theorem steady_scheduleActor (i : Nat) (w : World) : w.Steady (w.scheduleActor i) := by
  rw [scheduleActor]
  split
  · split
    · exact .refl w
    · exact .after (steady_later _ _) (.of_modifyActor i fun _ => ⟨rfl, rfl, rfl⟩)
  · exact .refl w

theorem steady_scheduleDesk (w : World) : w.Steady w.scheduleDesk := by
  rw [scheduleDesk]
  split
  · split
    · exact .refl w
    · exact .after (steady_later _ _) (.of_modifyDesk fun _ => ⟨rfl, rfl, rfl, rfl, rfl⟩)
  · exact .refl w

theorem steady_tell (caller : Caller) (reply : Meeting.Reply) (w : World) :
    w.Steady (w.tell caller reply) := by
  unfold tell
  split
  · exact steady_conclude _ _ w
  · split
    · exact steady_conclude _ _ w
    · exact .refl w
  · split
    · exact steady_later _ w
    · exact .refl w

theorem steady_post (i : Nat) (caller : Caller) (input : Caller → Meeting.Input Caller)
    (w : World) : w.Steady (w.post i caller input) := by
  unfold post
  split
  · exact .after (steady_scheduleActor i _) (.of_modifyActor i fun _ => ⟨rfl, rfl, rfl⟩)
  · exact steady_tell _ _ w

theorem steady_tellRequester (requester : Requester) (reply : Switchboard.Reply) (w : World) :
    w.Steady (w.tellRequester requester reply) := by
  unfold tellRequester
  split
  · exact .after (steady_conclude _ _ _) (.of_modifyDesk fun _ => ⟨rfl, rfl, rfl, rfl, rfl⟩)
  · exact steady_later _ w
  · exact steady_conclude _ _ w
  · exact steady_conclude _ _ w

theorem steady_restDesk (w : World) : w.Steady w.restDesk :=
  .of_modifyDesk fun _ => ⟨rfl, rfl, rfl, rfl, rfl⟩

/-! ### What the switchboard asks for -/

theorem Serves.getElem?_instances (h : w.Serves s) (i : Nat) :
    (s.instances[i]?).map some = (w.lines[i]?).map Line.instance? := by
  rw [← List.getElem?_map, ← h.instances, List.getElem?_map]

theorem Serves.length (h : w.Serves s) : s.instances.length = w.lines.length := by
  have hlength := congrArg List.length h.instances
  rwa [List.length_map, List.length_map, eq_comm] at hlength

/-- The desk sees of its meetings what the service does. -/
theorem Serves.ending?_eq (h : w.Serves s) :
    (fun line => (w.actor? line).bind (·.ending)) = s.ending? := by
  funext i
  have hi := h.getElem?_instances i
  rw [actor?, Service.ending?]
  cases hl : w.lines[i]? with
  | none =>
    rw [hl] at hi
    rw [Option.map_eq_none_iff.1 hi]
    rfl
  | some l =>
    rw [hl] at hi
    obtain ⟨y, hy, heq⟩ := Option.map_eq_some_iff.1 hi
    rw [hy, Option.bind_some, Option.bind_some]
    rw [Line.instance?] at heq
    obtain ⟨x, hx, rfl⟩ := Option.map_eq_some_iff.1 heq.symm
    rw [hx]
    rfl

theorem Serves.modifyActor (h : w.Serves s) (i : Nat) {f : Actor → Actor} {g : Instance → Instance}
    (hfg : ∀ x, w.actor? i = some x → ∀ name, (f x).instanceOf name = g (x.instanceOf name)) :
    (w.modifyActor i f).Serves (s.modify i g) := by
  refine ⟨h.desk, map_instance?_modify h.instances fun l hl => ?_, h.limits, h.ownsMedia⟩
  rw [Line.instance?, Line.instance?, Option.map_map, Option.map_map]
  cases hx : l.actor with
  | none => rfl
  | some x => exact congrArg some (hfg x (by rw [actor?, hl]; exact hx) l.name)

theorem Serves.cancelActor (h : w.Serves s) (i : Nat) :
    (w.cancelActor i).Serves (s.modify i .cancel) :=
  (h.modifyActor i fun _ _ _ => rfl).steady (steady_scheduleActor i _)

theorem Serves.cancelActors (h : w.Serves s) (is : List Nat) :
    (is.foldl (fun w line => w.cancelActor line) w).Serves
      { s with instances := Instance.cancelEach is s.instances } := by
  induction is generalizing w s with
  | nil => exact h
  | cons i is ih => exact ih (h.cancelActor i)

theorem Serves.cancelDesk (h : w.Serves s) : w.cancelDesk.Serves s.cancelAll := by
  have hdesk : (w.modifyDesk fun d => { d with cancelled := true }).Serves
      { s with cancelled := true } := by
    obtain ⟨d, hd, hbooks, -, hphase⟩ := h.desk
    refine ⟨⟨{ d with cancelled := true }, ?_, hbooks, rfl, ?_⟩, h.instances, h.limits, h.ownsMedia⟩
    · rw [modifyDesk, hd]
      rfl
    · exact hphase.of_flags rfl rfl rfl
  have hall : Instance.cancelEach (List.range w.lines.length) s.instances =
      s.instances.map .cancel := by
    refine List.ext_getElem? fun j => ?_
    rw [Instance.getElem?_cancelEach, List.getElem?_map]
    cases hj : s.instances[j]? with
    | none => rfl
    | some y =>
      have hlt : j < w.lines.length := h.length ▸ (List.getElem?_eq_some_iff.1 hj).1
      exact congrArg some (if_pos (List.mem_range.2 hlt))
  have hcancelled := (hdesk.steady (steady_scheduleDesk _)).cancelActors (List.range w.lines.length)
  change World.Serves _
    { s with
      cancelled := true
      instances := Instance.cancelEach (List.range w.lines.length) s.instances } at hcancelled
  rwa [hall] at hcancelled

theorem Serves.startMeeting (h : w.Serves s) (hcancelled : s.cancelled = false) (name : String)
    (i : Nat) : (w.startMeeting name).Serves (s.carryOut (.start name i)) := by
  refine ⟨h.desk, ?_, h.limits, h.ownsMedia⟩
  have hlines : (w.startMeeting name).lines.map Line.instance? = w.lines.map Line.instance? ++
      [some
        { name
          meeting := .create name w.settings.limits w.environment.negotiator.kind.ownsMedia }] :=
    List.map_append
  rw [hlines, h.instances, ← h.limits, ← h.ownsMedia]
  simp only [Service.carryOut, hcancelled, List.map_append]
  rfl

theorem Serves.ask (h : w.Serves s) (hphase : s.phase = .looking) (i : Nat) (caller : Requester) :
    (w.onSwitchboardEffect (.ask i caller)).Serves (s.carryOut (.ask i caller)) := by
  obtain ⟨d, hd, hbooks, hcancelled, hin⟩ := h.desk
  rw [hphase] at hin
  obtain ⟨-, hstopping, hended⟩ := hin
  have hasking : (w.modifyDesk fun d => { d with isAsking := true }).Serves
      (s.carryOut (.ask i caller)) := by
    refine ⟨⟨{ d with isAsking := true }, ?_, hbooks, hcancelled, ?_⟩, h.instances, h.limits,
      h.ownsMedia⟩
    · rw [modifyDesk, hd]
      rfl
    · exact .asking i caller _ rfl hstopping hended
  exact hasking.steady (steady_post i _ _ _)

theorem Serves.tell (h : w.Serves s) (requester : Requester) (reply : Switchboard.Reply) :
    (w.onSwitchboardEffect (.reply requester reply)).Serves
    (s.carryOut (.reply requester reply)) := by
  obtain ⟨hdesk, hinstances, hlimits, hmedia⟩ := h.steady (steady_tellRequester requester reply w)
  exact ⟨hdesk, hinstances, hlimits, hmedia⟩

/-- The books are kept, and then what the switchboard asks for is carried out. -/
theorem Serves.settle (h : w.Serves s)
    {f : Switchboard → Outcome Switchboard (Switchboard.Effect Requester)}
    {o : Outcome Switchboard (Switchboard.Effect Requester)} (ho : f s.switchboard = o) :
    ∃ v, v.Serves { s with switchboard := o.state } ∧
      w.settleSwitchboard f = o.effects.foldl onSwitchboardEffect v := by
  obtain ⟨d, hd, hbooks, hcancelled, hphase⟩ := h.desk
  refine ⟨(w.modifyDesk fun d => { d with switchboard := o.state }).measure o.metrics,
    ⟨⟨{ d with switchboard := o.state }, ?_, rfl, hcancelled, ?_⟩, h.instances, h.limits,
      h.ownsMedia⟩, ?_⟩
  · rw [measure, modifyDesk, hd]
    rfl
  · exact hphase.of_flags rfl rfl rfl
  · rw [settleSwitchboard, hd]
    simp only [← hbooks, ho]

/-! ### The round of the desk -/

/-- The desk goes on to another phase. -/
theorem Serves.modifyDesk (h : w.Serves s) {f : Desk → Desk}
    (hbooks : ∀ d, (f d).switchboard = d.switchboard ∧ (f d).cancelled = d.cancelled)
    {phase : Phase Requester} (hphase : ∀ d, w.desk = some d → (f d).InPhase phase) :
    (w.modifyDesk f).Serves { s with phase } := by
  obtain ⟨d, hd, hswitchboard, hcancelled, -⟩ := h.desk
  refine ⟨⟨f d, ?_, hswitchboard.trans (hbooks d).1.symm, hcancelled.trans (hbooks d).2.symm,
    hphase d hd⟩, h.instances, h.limits, h.ownsMedia⟩
  rw [World.modifyDesk, hd]
  rfl

/-- The desk looks for meetings that have ended. -/
theorem Serves.reap (h : w.Serves s) (hphase : s.phase = .looking) : w.reap.Serves s.look := by
  obtain ⟨v, hv, hreap⟩ := h.settle (f := fun b => b.reap s.ending?) rfl
  have hquiet := (Switchboard.sheds_reap (κ := Requester) s.ending? s.switchboard).effects
  rw [hquiet, List.foldl_nil] at hreap
  rw [World.reap, h.ending?_eq, hreap, Service.look_eq]
  obtain ⟨d, hd, hbooks, hcancelled, hin⟩ := hv.desk
  refine ⟨⟨d, hd, hbooks, hcancelled, ?_⟩, hv.instances, hv.limits, hv.ownsMedia⟩
  have hin : d.InPhase .looking := hphase ▸ hin
  cases hin with
  | looking h₁ h₂ h₃ => exact .resting h₁ h₂ h₃

/-- After a message the desk looks for meetings that have ended, unless it waits for a reply. -/
theorem Serves.afterMessage (h : w.Serves s)
    (hphase : s.phase = .looking ∨ ∃ i caller ran, s.phase = .asking i caller ran) :
    ∃ events, w.afterMessage.Serves (s.run events) ∧ (s.run events).phase ≠ .looking := by
  obtain ⟨d, hd, -, -, hin⟩ := h.desk
  rw [World.afterMessage, hd]
  rcases hphase with hphase | ⟨i, caller, ran, hphase⟩
  · have hstep : s.step .look = s.look := by
      unfold Service.step
      rw [hphase]
    rw [hphase] at hin
    obtain ⟨hasking, -, -⟩ := hin
    refine ⟨[.look], ?_, ?_⟩
    · rw [Service.run_cons, Service.run_nil, hstep, Option.any_some, hasking,
        if_neg Bool.false_ne_true]
      exact (h.reap hphase).steady (steady_next _ _)
    · rw [Service.run_cons, Service.run_nil, hstep, Service.look_eq]
      rintro ⟨⟩
  · rw [hphase] at hin
    obtain hasking : d.isAsking = true := by cases hin; assumption
    refine ⟨[], ?_, ?_⟩
    · rw [Option.any_some, hasking, if_pos rfl]
      exact h.steady (steady_restDesk w)
    · rw [Service.run_nil, hphase]
      rintro ⟨⟩

/-- The desk takes a message. -/
theorem Serves.take (h : w.Serves s) (hphase : s.phase = .looking)
    (input : Switchboard.Input Requester) (hcancelled : s.cancelled = false) {t : Service Requester}
    (ht : t = s.settle (s.switchboard.step input)) :
    (w.settleSwitchboard (·.step input)).Serves t ∧
      (t.phase = .looking ∨ ∃ i caller ran, t.phase = .asking i caller ran) := by
  subst ht
  obtain ⟨v, hv, hsettle⟩ := h.settle (f := fun b => b.step input) rfl
  rw [hsettle]
  have hcourse := Switchboard.course_step input s.switchboard
  generalize s.switchboard.step input = o at hcourse hv ⊢
  cases hcourse with
  | told => exact ⟨hv.tell _ _, .inl hphase⟩
  | created => exact ⟨(hv.startMeeting hcancelled _ _).tell _ _, .inl hphase⟩
  | asked => exact ⟨hv.ask hphase _ _, .inr ⟨_, _, _, rfl⟩⟩
  | removed => exact ⟨(hv.cancelActor _).tell _ _, .inl hphase⟩
  | shutDown => exact ⟨hv.cancelDesk.tell _ _, .inl hphase⟩

/-- The desk tells its meetings to stop. -/
theorem Serves.beginStop (h : w.Serves s) (hphase : s.phase = .resting) :
    ((w.modifyDesk fun d => { d with isStopping := true }).settleSwitchboard (·.beginStop)).Serves
      s.beginStop := by
  have hstopping : (w.modifyDesk fun d => { d with isStopping := true }).Serves
      { s with phase := .stopping } := by
    refine h.modifyDesk (f := fun d => { d with isStopping := true }) (fun _ => ⟨rfl, rfl⟩)
      fun d hd => ?_
    obtain ⟨d', hd', -, -, hin⟩ := h.desk
    rw [hd] at hd'
    cases hd'
    rw [hphase] at hin
    cases hin with
    | resting h₁ h₂ h₃ => exact .stopping h₁ rfl h₃
  obtain ⟨v, hv, hsettle⟩ := hstopping.settle (f := fun b => b.beginStop) rfl
  have hcancel : ∀ (entries : List (String × Nat)) (v : World),
      (entries.map fun entry => Switchboard.Effect.cancel entry.2).foldl onSwitchboardEffect v =
        (entries.map Prod.snd).foldl (fun w line => w.cancelActor line) v := by
    intro entries
    induction entries with
    | nil => exact fun _ => rfl
    | cons entry entries ih => exact fun v => ih (v.cancelActor entry.2)
  rw [hsettle, Service.beginStop_eq]
  have hall := hv.cancelActors (s.switchboard.meetings.entries.map Prod.snd)
  rw [← hcancel] at hall
  exact hall

theorem steady_foldl {α : Type} {f : World → α → World} (hf : ∀ w a, Steady w (f w a))
    (l : List α) (w : World) : w.Steady (l.foldl f w) := by
  induction l generalizing w with
  | nil => exact .refl w
  | cons a l ih => exact .after (ih (f w a)) (hf w a)

/-- The desk has stopped. -/
theorem Serves.endDesk (h : w.Serves s) (hphase : s.phase = .stopping) :
    w.endDesk.Serves { s with phase := .stopped } := by
  obtain ⟨d, hd, -, -, hin⟩ := h.desk
  rw [World.endDesk, hd]
  refine Serves.steady ?_ (steady_foldl (fun w input => steady_tellRequester _ _ w) _ _)
  refine h.modifyDesk (f := fun d => { d with hasEnded := true, mailbox := [] })
    (fun _ => ⟨rfl, rfl⟩) fun d' hd' => ?_
  rw [hd] at hd'
  cases hd'
  rw [hphase] at hin
  cases hin with
  | stopping h₁ h₂ h₃ => exact .stopped h₁ rfl

/-- The desk waits until its meetings have stopped. -/
theorem Serves.awaitStop (h : w.Serves s) (hphase : s.phase = .stopping) :
    w.awaitStop.Serves (s.release fun i => (s.ending? i).isSome) := by
  let waited := fun i => (s.ending? i).isSome
  obtain ⟨v, hv, hsettle⟩ := h.settle (f := fun b => b.release waited) rfl
  have hwaited : (fun line => ((w.actor? line).bind (·.ending)).isSome) = waited :=
    funext fun i => congrArg Option.isSome (congrFun h.ending?_eq i)
  have hquiet := (Switchboard.sheds_release (κ := Requester) waited s.switchboard).effects
  rw [hquiet, List.foldl_nil] at hsettle
  obtain ⟨d, hd, hbooks, -, -⟩ := hv.desk
  rw [World.awaitStop, hwaited, hsettle, hd, Service.release_eq, Option.any_some, ← hbooks]
  simp only
  split
  · obtain ⟨hdesk, hinstances, hlimits, hmedia⟩ := hv.endDesk hphase
    exact ⟨hdesk, hinstances, hlimits, hmedia⟩
  · obtain ⟨hdesk, hinstances, hlimits, hmedia⟩ := hv.steady (steady_restDesk v)
    exact ⟨hphase ▸ hdesk, hinstances, hlimits, hmedia⟩

/-- A message is taken from the mailbox of the desk. -/
theorem Serves.receive (h : w.Serves s) (hphase : s.phase = .resting) {d : Desk}
    (hd : w.desk = some d) (mailbox : List (Switchboard.Input Requester))
    (input : Switchboard.Input Requester) :
    (w.modifyDesk fun d' =>
        { d' with mailbox, switchboard := (d.switchboard.received mailbox.length).1 }).Serves
      { s with
        switchboard := (s.switchboard.received mailbox.length).1
        phase := .looking
        records := s.records ++
          ((s.switchboard.received mailbox.length).1.step input).effects.filterMap
            (Service.recorded? input) } := by
  obtain ⟨d', hd', hbooks, hcancelled, hin⟩ := h.desk
  rw [hd] at hd'
  cases hd'
  refine ⟨⟨{ d with mailbox, switchboard := (d.switchboard.received mailbox.length).1 }, ?_, ?_,
    hcancelled, ?_⟩, h.instances, h.limits, h.ownsMedia⟩
  · rw [World.modifyDesk, hd]
    rfl
  · rw [hbooks]
  · rw [hphase] at hin
    cases hin with
    | resting h₁ h₂ h₃ => exact .looking h₁ h₂ h₃

/-- **What the desk does in a round is a number of events at the switchboard.** -/
theorem Serves.runDesk (h : w.Serves s) (hphase : s.phase ≠ .looking) :
    ∃ events, w.runDesk.Serves (s.run events) ∧ (s.run events).phase ≠ .looking := by
  have hstay : ∀ {v : World}, w.Steady v →
      ∃ events, v.Serves (s.run events) ∧ (s.run events).phase ≠ .looking :=
    fun hv => ⟨[], h.steady hv, hphase⟩
  obtain ⟨d, hd, hbooks, hcancelled, hin⟩ := h.desk
  rw [World.runDesk, hd]
  simp only
  generalize hp : s.phase = phase at hin
  cases hin with
  | looking => exact absurd hp hphase
  | stopped _ hended =>
    rw [if_pos hended]
    exact hstay (.refl w)
  | asking i caller ran hasking hstopping hended =>
    rw [if_neg (by simp [hended]), if_pos hasking]
    exact hstay (steady_restDesk w)
  | stopping hasking hstopping hended =>
    rw [if_neg (by simp [hended]), if_neg (by simp [hasking]), if_pos hstopping]
    refine ⟨[.release fun i => (s.ending? i).isSome], ?_, ?_⟩
    all_goals
      have hstep : s.step (.release fun i => (s.ending? i).isSome) =
          s.release fun i => (s.ending? i).isSome := by
        unfold Service.step
        rw [hp]
      rw [Service.run_cons, Service.run_nil, hstep]
    · exact h.awaitStop hp
    · rw [Service.release_eq]
      simp only
      split <;> exact nofun
  | resting hasking hstopping hended =>
    rw [if_neg (by simp [hended]), if_neg (by simp [hasking]), if_neg (by simp [hstopping])]
    split
    · have hstep : s.step .beginStop = s.beginStop := by
        unfold Service.step
        rw [hp]
      refine ⟨[.beginStop], ?_, ?_⟩
      · rw [Service.run_cons, Service.run_nil, hstep]
        exact (h.beginStop hp).steady (steady_next _ _)
      · rw [Service.run_cons, Service.run_nil, hstep, Service.beginStop_eq]
        exact nofun
    · rename_i hrunning
      split
      · exact hstay (steady_restDesk w)
      · rename_i input mailbox hmailbox
        have hstep : s.step (.take input mailbox.length) = s.take input mailbox.length := by
          unfold Service.step
          rw [hp]
        have htaken := (h.receive hp hd mailbox input).steady
          (steady_measure (d.switchboard.received mailbox.length).2 _)
        have hopen : s.cancelled = false := by simpa [hcancelled] using hrunning
        obtain ⟨hdone, hdoing⟩ := htaken.take rfl input hopen rfl
        obtain ⟨events, hafter, hrested⟩ := hdone.afterMessage hdoing
        refine ⟨.take input mailbox.length :: events, ?_, ?_⟩
        · rw [Service.run_cons, hstep]
          exact hafter
        · rw [Service.run_cons, hstep]
          exact hrested

/-- The desk has the reply that it waits for. -/
theorem Serves.viewed (h : w.Serves s) (hphase : s.phase ≠ .looking) (requester : Requester)
    (view : Except SignalingError Meeting.View) :
    ∃ events, (w.viewed requester view).Serves (s.run events) ∧
      (s.run events).phase ≠ .looking := by
  obtain ⟨d, hd, hbooks, hcancelled, hin⟩ := h.desk
  rw [World.viewed, hd, Option.any_some]
  split
  · rename_i hasking
    generalize hp : s.phase = phase at hin
    cases hin with
    | asking i caller ran _ hstopping hended =>
      obtain ⟨reply, hview⟩ := Service.onView_eq i caller ran s
      have hstep : s.step .viewed =
          { s with phase := .looking, answers := s.answers ++ [(caller, reply)] } := by
        rw [← hview]
        unfold Service.step
        rw [hp]
      have hanswered :
        (w.modifyDesk fun d => { d with isAsking := false, isScheduled := true }).Serves
          { s with phase := .looking } := by
        refine h.modifyDesk (f := fun d => { d with isAsking := false, isScheduled := true })
          (fun _ => ⟨rfl, rfl⟩) fun d' hd' => ?_
        rw [hd] at hd'
        cases hd'
        exact .looking rfl hstopping hended
      have htold : ((w.modifyDesk fun d =>
          { d with isAsking := false, isScheduled := true }).settleSwitchboard
            (·.onView requester view)).Serves (s.step .viewed) := by
        obtain ⟨v, hv, hsettle⟩ := hanswered.settle (f := fun b => b.onView requester view) rfl
        rw [hsettle, hstep]
        cases view with
        | ok view =>
          obtain ⟨hdesk, hinstances, hlimits, hmedia⟩ := hv.tell requester (.summary view.summary)
          exact ⟨hdesk, hinstances, hlimits, hmedia⟩
        | error e =>
          obtain ⟨hdesk, hinstances, hlimits, hmedia⟩ := hv.tell requester (.refused e)
          exact ⟨hdesk, hinstances, hlimits, hmedia⟩
      obtain ⟨events, hafter, hrested⟩ := htold.afterMessage (.inl (by rw [hstep]))
      exact ⟨.viewed :: events, hafter, hrested⟩
    | looking h₁ | resting h₁ | stopping h₁ | stopped h₁ =>
      rw [h₁] at hasking
      cases hasking
  · exact ⟨[], h, hphase⟩

end World

/-! ### Moves and runs -/

/-- A scenario after events at its switchboard. -/
structure Served (events : List (Service.Event Requester)) (p : World × Stage)
    (s : Service Requester) : Prop where
  run : s = (Service.start p.1.settings.limits p.1.environment.negotiator.kind.ownsMedia).run events
  serves : p.1.Serves s
  phase : s.phase ≠ .looking
  /-- An actor at work has not ended, and only ends by itself when it is to. -/
  acting : ∀ line owed ends, p.2 = .acting line owed ends → ∃ y, s.instances[line]? = some y ∧
    y.ending = none ∧ (ends = some .stopped → y.cancelled = true)

/-- The scenario goes on with events at its switchboard. -/
def InService (events : List (Service.Event Requester)) (q : World × Stage) : Prop :=
  ∃ events' s', events <+: events' ∧ Served events' q s'

section

variable {events : List (Service.Event Requester)} {p q : World × Stage} {w w' : World}
  {g g' : Stage}
  {s t : Service Requester}

theorem Served.inService (h : Served events p s) : InService events p :=
  ⟨events, s, List.prefix_rfl, h⟩

theorem Served.goesOn (h : Served events p s)
    (hsettings : q.1.settings = p.1.settings ∧
      q.1.environment.negotiator.kind = p.1.environment.negotiator.kind)
    (more : List (Service.Event Requester)) (hserves : q.1.Serves (s.run more))
    (hphase : (s.run more).phase ≠ .looking)
    (hacting : ∀ line owed ends, q.2 = .acting line owed ends → ∃ y,
      (s.run more).instances[line]? = some y ∧ y.ending = none ∧
        (ends = some .stopped → y.cancelled = true)) : InService events q := by
  refine ⟨events ++ more, s.run more, List.prefix_append .., ?_, hserves, hphase, hacting⟩
  rw [hsettings.1, hsettings.2, h.run]
  exact List.foldl_append.symm

/-- Nothing happens to the desk and to the instances. -/
theorem Served.steady (h : Served events (w, g) s) (hw : w.Steady w')
    (hacting : ∀ line owed ends, g' = .acting line owed ends →
      ∃ owed' ends', g = .acting line owed' ends' ∧
        (ends = some .stopped → ends' = some .stopped)) :
    InService events (w', g') := by
  refine h.goesOn ⟨hw.settings, hw.kind⟩ [] (h.serves.steady hw) h.phase
    fun line owed ends hg => ?_
  obtain ⟨owed', ends', hg, hends⟩ := hacting line owed ends hg
  obtain ⟨y, hy, hending, hcancelled⟩ := h.acting line owed' ends' hg
  exact ⟨y, hy, hending, hcancelled ∘ hends⟩

theorem Served.steady_same (h : Served events (w, g) s) (hw : w.Steady w') :
    InService events (w', g) :=
  h.steady hw fun _ owed ends hg => ⟨owed, ends, hg, id⟩

theorem served_change {relays : Nat → Prop} (hchange : Change relays False w w')
    (h : Served events (w, g) s) : InService events (w', g) := by
  have hsettings := World.settings_of_change hchange
  cases hchange with
  | aside haside =>
    exact h.steady_same (.of_eq haside.lines haside.desk haside.settings haside.negotiator)
  | @note i _ _ hf =>
    refine h.steady_same (.of_modify i (fun l => ?_) rfl rfl rfl rfl)
    rw [Line.instance?, Line.instance?, (hf l).name, (hf l).actor]
  | complete => exact h.steady_same (.of_eq rfl rfl rfl rfl)
  | submit i request _ =>
    exact h.steady_same (.of_wireOnly (World.wireOnly_submitRequest i request _ w))
  | depart i => exact h.steady_same (.of_wireOnly (World.wireOnly_depart i w))
  | shift i hf =>
    exact h.steady_same
      (.of_modifyActor i fun x => ⟨(hf x).meeting, (hf x).cancelled, (hf x).ending⟩)
  | post i request caller =>
    exact h.steady_same (.of_modifyActor i fun _ => ⟨rfl, rfl, rfl⟩)
  | cancel i =>
    refine h.goesOn hsettings [.cancelInstance i] (h.serves.modifyActor i fun _ _ _ => rfl) h.phase
      fun line owed ends hg => ?_
    obtain ⟨y, hy, hending, hcancelled⟩ := h.acting line owed ends hg
    have hget : (s.run [.cancelInstance i]).instances[line]? =
        some (if i = line then y.cancel else y) := by
      have hmodify : (s.run [.cancelInstance i]).instances = s.instances.modify i .cancel := by
        rw [Service.run_cons, Service.run_nil]
        unfold Service.step
        rfl
      rw [hmodify, List.getElem?_modify, hy]
      rfl
    refine ⟨_, hget, ?_, fun hends => ?_⟩
    · split <;> exact hending
    · split
      · rfl
      · exact hcancelled hends
  | lose _ => exact h.steady_same (.of_eq rfl rfl rfl rfl)
  | finish htask _ =>
    refine h.steady_same (.after (.of_modifyActor _ fun _ => ⟨rfl, rfl, rfl⟩) ?_)
    exact .of_eq rfl rfl rfl rfl
  | mark hf => exact h.steady_same (.of_modifyDesk hf)
  | book hbooks => exact hbooks.elim
  | start hbooks => exact hbooks.elim

theorem inService_changes {relays : Nat → Prop} (hchanges : Changes relays False w w')
    (h : InService events (w, g)) : InService events (w', g) := by
  refine hchanges.induction (P := fun v => InService events (v, g)) ?_ h
  rintro v v' hchange ⟨events', s', hprefix, h⟩
  obtain ⟨events'', s'', hprefix', h'⟩ := served_change hchange h
  exact ⟨events'', s'', hprefix.trans hprefix', h'⟩

/-- What the desk does in one go is a number of events. -/
theorem served_desk (hdesk : DeskMove w w') (h : Served events (w, .idle) s) :
    InService events (w', .idle) := by
  have hsettings := World.settings_of_changes (@DeskMove.changes (fun _ => False) _ _ hdesk)
  cases hdesk with
  | run =>
    obtain ⟨more, hserves, hphase⟩ := h.serves.runDesk h.phase
    exact h.goesOn hsettings more hserves hphase nofun
  | view requester view =>
    obtain ⟨more, hserves, hphase⟩ := h.serves.viewed h.phase requester view
    exact h.goesOn hsettings more hserves hphase nofun
  | cancel =>
    have hstep : s.run [.cancel] = s.cancelAll := by
      rw [Service.run_cons, Service.run_nil]
      unfold Service.step
      rfl
    exact h.goesOn hsettings [.cancel] (hstep ▸ h.serves.cancelDesk) (hstep ▸ h.phase) nofun

/-- The instance of a line with an actor. -/
theorem World.Serves.instance (h : w.Serves s) {line : Nat} {x : Actor}
    (hx : w.actor? line = some x) : ∃ name, s.instances[line]? = some (x.instanceOf name) := by
  obtain ⟨l, hl, hactor⟩ := Option.bind_eq_some_iff.1 hx
  have hinstance := h.getElem?_instances line
  rw [hl, Option.map_some, Line.instance?, hactor] at hinstance
  obtain ⟨y, hy, heq⟩ := Option.map_eq_some_iff.1 hinstance
  exact ⟨l.name, hy.trans heq⟩

/-- **An actor that takes an input is an instance that goes on.** -/
theorem Served.take {line : Nat} {past : List Meeting.Activity.Occurrence} {a : Meeting.Activity}
    (h : Served events (w, .idle) s) (henacted : Enacted line past (w, .idle) a) {x x' : Actor}
    (hx : w.actor? line = some x) (hending : x.ending = none) {input : Meeting.Input Caller}
    {metrics : List Metric} (htake : x.takeInput? w.now = some (input, x', metrics))
    (o : Outcome Meeting (Meeting.Effect Caller)) :
    InService events
      (w.modifyActor line fun _ => { x' with meeting := o.state },
        .acting line (o.effects.filterMap Work.ofEffect?) (endingAfter? input o.effects)) := by
  obtain ⟨name, hy⟩ := h.serves.instance hx
  have hrunning : s.isRunning line = true := by
    rw [Service.isRunning, hy, Option.any_some, Actor.instanceOf, hending]
    rfl
  have hstep : s.run [.work line o.state] = s.modify line ({ · with meeting := o.state }) := by
    rw [Service.run_cons, Service.run_nil]
    unfold Service.step
    exact if_pos hrunning
  have hsame : x'.cancelled = x.cancelled ∧ x'.ending = x.ending := by
    rcases x.takeInput?_cases htake with
      ⟨-, -, rfl⟩ | ⟨-, -, rfl⟩ | ⟨_, -, rfl⟩ | ⟨_, _, -, rfl⟩ <;>
      exact ⟨rfl, rfl⟩
  refine h.goesOn ⟨rfl, rfl⟩ [.work line o.state] ?_ (by rw [hstep]; exact h.phase)
    fun line' owed ends hg => ?_
  · rw [hstep]
    refine h.serves.modifyActor line fun y hy name => ?_
    rw [hx] at hy
    cases hy
    simp only [Actor.instanceOf, hsame.1, hsame.2]
  · cases hg
    refine ⟨{ x.instanceOf name with meeting := o.state }, ?_, hending, fun hends => ?_⟩
    · rw [hstep]
      simp [Service.modify, hy]
    · have hcancel : input = .cancel := by
        unfold endingAfter? at hends
        split at hends
        · rfl
        · split at hends <;> cases hends
      subst hcancel
      exact henacted.cancelled_of_take hx hending htake

/-- An actor that ends is an instance that does. -/
theorem Served.finish {line : Nat} {owed : List Work} {ends : Option Ending} {ending : Ending}
    (h : Served events (w, .acting line owed ends) s)
    (hends : ending = .crashed ∨ ends = some ending) :
    InService events
      (w.modifyActor line fun x =>
        { x with ending := some ending, mailbox := [], results := [] }, .idle) := by
  obtain ⟨y, hy, hnone, hcancelled⟩ := h.acting line owed ends rfl
  have hcan : s.canEnd line ending = true := by
    rw [Service.canEnd, hy, Option.any_some, hnone]
    rcases hends with rfl | rfl
    · simp
    · cases ending with
      | stopped => simp [hcancelled rfl]
      | crashed => simp
  have hstep : s.run [.finish line ending] =
      { s.modify line ({ · with ending := some ending }) with unseen := s.unseen ++ [line] } := by
    rw [Service.run_cons, Service.run_nil]
    unfold Service.step
    exact if_pos hcan
  refine h.goesOn ⟨rfl, rfl⟩ [.finish line ending] ?_ (by rw [hstep]; exact h.phase) nofun
  obtain ⟨hdesk, hinstances, hlimits, hmedia⟩ :=
    h.serves.modifyActor line (f := fun x =>
      { x with ending := some ending, mailbox := [], results := [] })
      (g := ({ · with ending := some ending })) fun _ _ _ => rfl
  rw [hstep]
  exact ⟨hdesk, hinstances, hlimits, hmedia⟩

/-- **Every move is a number of events at the switchboard.** -/
theorem served_move (hmove : Move p q) (hmeetings : ∀ line, ∃ past a, Enacted line past p a)
    (h : Served events p s) : InService events q := by
  cases hmove with
  | change hchange => exact served_change hchange h
  | relay hrelay =>
    have hstage := hrelay.stage
    have hchanges := @RelayMove.changes False _ _ _ hrelay
    obtain ⟨w, g⟩ := p
    obtain ⟨w', g'⟩ := q
    obtain ⟨events', s', hprefix, h'⟩ := inService_changes hchanges h.inService
    rcases hstage with rfl | ⟨-, rfl⟩
    · exact ⟨events', s', hprefix, h'⟩
    · exact ⟨events', s', hprefix, h'.run, h'.serves, h'.phase, nofun⟩
  | desk hdesk => exact served_desk hdesk h
  | pop => exact h.steady (.of_eq rfl rfl rfl rfl) nofun
  | drop job => exact h.steady (.refl _) nofun
  | dispatch i => exact h.steady (.of_wireOnly (World.wireOnly_dispatch i _)) nofun
  | @take w line x x' input metrics o hx hending htake ho =>
    obtain ⟨past, a, henacted⟩ := hmeetings line
    exact h.take henacted hx hending htake o
  | @giveOut w line work owed ending =>
    refine h.steady (.of_eq rfl rfl rfl rfl) fun line' owed' ends hg => ?_
    cases hg
    exact ⟨_, _, rfl, id⟩
  | rest => exact h.steady (.refl _) nofun
  | finish hends => exact h.finish hends
  | gone => exact h.steady (.refl _) nofun

/-- Every meeting has an activity, and the switchboard is in service. -/
structure Manned (events : List (Service.Event Requester)) (p : World × Stage) : Prop where
  meetings : ∀ line, ∃ past a, Enacted line past p a
  service : InService events p

theorem manned_moves (hmoves : Moves p q) (h : Manned events p) : Manned events q := by
  induction hmoves with
  | refl => exact h
  | tail _ hmove ih =>
    refine ⟨fun line => ?_, ?_⟩
    · obtain ⟨past, a, henacted⟩ := ih.meetings line
      obtain ⟨past', a', -, h'⟩ := enacted_move hmove henacted
      exact ⟨past', a', h'⟩
    · obtain ⟨events', s', hprefix, hserved⟩ := ih.service
      obtain ⟨events'', s'', hprefix', h'⟩ := served_move hmove ih.meetings hserved
      exact ⟨events'', s'', hprefix.trans hprefix', h'⟩

/-- **A step of a client is a number of events at the switchboard.** -/
theorem served_run (call : Nat) (step : Step) (h : Manned events (w, .idle)) :
    Manned events (w.run call step, .idle) := by
  refine manned_moves (World.moves_run call step w) ⟨fun line => ?_, ?_⟩
  · obtain ⟨past, a, henacted⟩ := h.meetings line
    exact ⟨past, a, henacted.untouched (.of_lines rfl (.refl _) rfl rfl)⟩
  · obtain ⟨events', s', hprefix, hserved⟩ := h.service
    have hcleared : w.Steady w.cleared := .of_eq rfl rfl rfl rfl
    obtain ⟨events'', s'', hprefix', h'⟩ := hserved.steady_same hcleared
    exact ⟨events'', s'', hprefix.trans hprefix', h'⟩

theorem served_play (steps : List (Nat × Step)) (h : Manned events (w, .idle)) :
    Manned events (w.play steps, .idle) := by
  induction steps generalizing w with
  | nil => exact h
  | cons s steps ih => exact ih (served_run s.1 s.2 h)

/-- A scenario that begins with a desk is in service. -/
theorem manned_new (environment : Environment) (settings : Settings) :
    Manned [.look] ({ environment, settings, desk := some {} }, .idle) := by
  refine ⟨fun line => ⟨[], _, enacted_new (.desk environment settings) line⟩,
    [.look], _, List.prefix_rfl, rfl, ?_, ?_, nofun⟩
  · exact ⟨⟨{}, rfl, rfl, rfl, .resting rfl rfl rfl⟩, rfl, rfl, rfl⟩
  · exact nofun

/-- **In every scenario every switchboard is one in service**: it keeps the books that some events
lead to, and the actors are its instances. -/
theorem service_of_play (hw : w.IsNew) (hdesk : w.desk.isSome) (steps : List (Nat × Step)) :
    ∃ events, (w.play steps).Serves
      ((Service.start w.settings.limits w.environment.negotiator.kind.ownsMedia).run events) := by
  cases hw with
  | line | meeting => cases hdesk
  | desk environment settings =>
    obtain ⟨events, s, -, h⟩ := (served_play steps (manned_new environment settings)).service
    obtain ⟨hsettings, hkind⟩ :=
      World.settings_play steps { environment, settings, desk := some {} }
    have hrun := h.run
    rw [hsettings, hkind] at hrun
    exact ⟨events, hrun ▸ h.serves⟩

end

end CallSignaling.Scenario
