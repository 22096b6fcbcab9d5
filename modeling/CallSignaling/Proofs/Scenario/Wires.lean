import CallSignaling.Proofs.Media.Dispatch
import CallSignaling.Proofs.Media.Ledger
import CallSignaling.Proofs.Scenario.Moves

/-!
# The wire of a scenario

What a scenario does with the requests of a line is what callers and a dispatcher do at an outbox,
so that whatever is said of all their interleavings holds of the line.

* `Scenario.promisesOf`, `Scenario.answersOf`: what was begun for a line and goes on later, and the
  answers among that.
* `Scenario.Conveyed`: a line after events at its outbox.
* `Scenario.Follows`: the line goes on with further events.

Every move of a scenario is a number of events (`conveyed_move`).  So is every step of a client, and
what it sends is noticed (`conveyed_run`), and so is a whole scenario (`conveyed_play`).
-/

namespace CallSignaling.Scenario

open Media (Dispatcher Ledger Outbox OutboundRequest Traffic)

/-- Whether a job goes on with a request of a line. -/
def Job.isPromiseOf (line : Nat) : Job → Bool
  | dispatch i | answered i _ _ => i = line
  | _ => false

/-- Whether a job is a dispatcher that is about to take an entry. -/
def Job.isDispatch : Job → Bool
  | dispatch _ => true
  | _ => false

/-- The answer that a job brings, with the one who waits for it. -/
def Job.answer? : Job → Option (Waiter × Except TransportError Media.Response)
  | answered _ waiter result => some (waiter, result)
  | _ => none

/-- Whether an event is a request of relay discovery. -/
def isRelayRequest : Traffic.Event Waiter → Bool
  | .submit _ waiter => waiter.isRelay
  | _ => false

theorem Job.isPromise_of_isPromiseOf {line : Nat} {job : Job} (h : job.isPromiseOf line = true) :
    job.isPromise = true := by
  cases job with
  | dispatch | answered => rfl
  | _ => cases h

theorem Job.isPromiseOf_ofOutboxEffect (line i : Nat) (effect : Outbox.Effect Waiter) :
    (ofOutboxEffect line effect).isPromiseOf i = decide (line = i) := by
  cases effect <;> rfl

/-- The promises of a line, at hand and on the agenda. -/
def promisesOf (line : Nat) (p : World × Stage) : List Job :=
  (p.2.jobs ++ p.1.agenda).filter (·.isPromiseOf line)

/-- The answers to requests of a line that were not passed on yet. -/
def answersOf (line : Nat) (p : World × Stage) :
    List (Waiter × Except TransportError Media.Response) :=
  (promisesOf line p).filterMap Job.answer?

namespace World

theorem getElem?_modifyLine (i j : Nat) (f : Line → Line) (w : World) :
    (w.modifyLine i f).lines[j]? = (w.lines[j]?).map fun l => if i = j then f l else l := by
  rw [modifyLine, List.getElem?_modify]
  rfl

end World

/-! ### The relation -/

/-- A line after events at its outbox.  Before the present step `before` was sent, and the answers
`dealt` were passed on or have got lost. -/
structure Conveyed (line : Nat) (before : List OutboundRequest)
    (events : List (Traffic.Event Waiter))
    (dealt : List (Waiter × Except TransportError Media.Response)) (p : World × Stage)
    (t : Traffic Waiter) : Prop where
  run : t = Traffic.run (p.1.nameOf line) events {}
  started : p.1.lines[line]? = none → events = []
  outbox : ∀ l, p.1.lines[line]? = some l → l.outbox = t.outbox
  onWire : ∀ l entry, p.1.lines[line]? = some l → l.onWire = some entry →
    t.dispatchers = [.sending entry]
  dispatch : (promisesOf line p).countP Job.isDispatch = 0 ∨
    (promisesOf line p).countP Job.isDispatch = 1 ∧ t.dispatchers = [.taking]
  answers : t.answered.Perm (answersOf line p ++ dealt)
  sent : ∃ recent, t.sent = before ++ recent ∧
    (recent.map Event.sent).Sublist p.1.events

/-- Two lines have the same wire. -/
def Line.wire (l : Line) : String × Outbox Waiter × Option (Outbox.Entry Waiter) :=
  (l.name, l.outbox, l.onWire)

/-- Nothing happens on the wire of a line. -/
structure Undisturbed (line : Nat) (p q : World × Stage) : Prop where
  wire : (q.1.lines[line]?).map Line.wire = (p.1.lines[line]?).map Line.wire
  promises : (promisesOf line q).Sublist (promisesOf line p)
  events : p.1.events <+: q.1.events

section

variable {line : Nat} {before : List OutboundRequest} {events : List (Traffic.Event Waiter)}
  {dealt : List (Waiter × Except TransportError Media.Response)} {relays : Prop}
  {p q r : World × Stage} {w w' : World} {g : Stage} {t : Traffic Waiter} {i : Nat}

theorem Undisturbed.of_modify (i : Nat) (f : Line → Line) (hf : i = line → ∀ l, (f l).wire = l.wire)
    (hlines : w'.lines = w.lines.modify i f) (hagenda : w'.agenda = w.agenda)
    (hevents : w.events <+: w'.events) : Undisturbed line (w, g) (w', g) := by
  refine ⟨?_, by simp only [promisesOf, hagenda]; exact .refl _, hevents⟩
  rw [hlines, List.getElem?_modify, Option.map_eq_map, Option.map_map]
  refine congrArg (Option.map · _) (funext fun l => ?_)
  rw [Function.comp_apply]
  split
  · rename_i hi
    exact hf hi l
  · rfl

theorem Undisturbed.of_aside (h : w.Aside w') : Undisturbed line (w, g) (w', g) := by
  refine ⟨by rw [h.lines], ?_, h.events⟩
  have hfilter : ∀ agenda : List Job,
      agenda.filter (·.isPromiseOf line) =
        (agenda.filter Job.isPromise).filter (·.isPromiseOf line) := by
    intro agenda
    rw [List.filter_filter]
    refine List.filter_congr fun job _ => ?_
    cases hjob : job.isPromiseOf line with
    | false => rfl
    | true => rw [Job.isPromise_of_isPromiseOf hjob]; rfl
  simp only [promisesOf, List.filter_append]
  rw [hfilter w'.agenda, hfilter w.agenda]
  exact (List.Sublist.refl _).append (h.promises.filter _)

/-- Answers that are not brought any more are dealt with. -/
theorem Undisturbed.answers (h : Undisturbed line p q)
    (hanswers : t.answered.Perm (answersOf line p ++ dealt)) :
    ∃ lost, t.answered.Perm (answersOf line q ++ (lost ++ dealt)) := by
  obtain ⟨lost, hlost⟩ := (h.promises.filterMap Job.answer?).exists_perm_append
  refine ⟨lost, hanswers.trans ?_⟩
  rw [← List.append_assoc]
  exact hlost.append_right dealt

/-- The line goes on with events at its outbox.  Requests of relay discovery are among them only if
they are allowed. -/
def Follows (relays : Prop) (line : Nat) (before : List OutboundRequest)
    (events : List (Traffic.Event Waiter))
    (dealt : List (Waiter × Except TransportError Media.Response)) (q : World × Stage) : Prop :=
  ∃ more lost t, (more.any isRelayRequest = true → relays) ∧
    Conveyed line before (events ++ more) (lost ++ dealt) q t

theorem Undisturbed.nameOf_eq (h : Undisturbed line p q) : q.1.nameOf line = p.1.nameOf line := by
  have hmap := congrArg (Option.map Prod.fst) h.wire
  rw [Option.map_map, Option.map_map] at hmap
  exact congrArg (Option.getD · "") hmap

theorem Conveyed.undisturbed (h : Conveyed line before events dealt p t)
    (hq : Undisturbed line p q) :
    ∃ lost, Conveyed line before events (lost ++ dealt) q t := by
  have hline : ∀ l, q.1.lines[line]? = some l →
      ∃ l', p.1.lines[line]? = some l' ∧ l.wire = l'.wire := by
    intro l hl
    have hwire := hq.wire
    rw [hl] at hwire
    obtain ⟨l', hl', heq⟩ := Option.map_eq_some_iff.1 hwire.symm
    exact ⟨l', hl', heq.symm⟩
  obtain ⟨lost, hlost⟩ := hq.answers h.answers
  refine ⟨lost, ⟨by rw [hq.nameOf_eq, ← h.run], fun hnone => ?_, fun l hl => ?_,
    fun l entry hl hentry => ?_, ?_, hlost, ?_⟩⟩
  · have hwire := hq.wire
    rw [hnone] at hwire
    exact h.started (Option.map_eq_none_iff.1 hwire.symm)
  · obtain ⟨l', hl', heq⟩ := hline l hl
    have hout : l.outbox = l'.outbox := congrArg (·.2.1) heq
    exact hout.trans (h.outbox l' hl')
  · obtain ⟨l', hl', heq⟩ := hline l hl
    have hwire : l.onWire = l'.onWire := congrArg (·.2.2) heq
    exact h.onWire l' entry hl' (hwire ▸ hentry)
  · have hle := hq.promises.countP_le (p := Job.isDispatch)
    rcases h.dispatch with hzero | ⟨hone, htaking⟩
    · exact .inl (by omega)
    · by_cases hzero : (promisesOf line q).countP Job.isDispatch = 0
      · exact .inl hzero
      · exact .inr ⟨by omega, htaking⟩
  · obtain ⟨recent, hsent, hsub⟩ := h.sent
    exact ⟨recent, hsent, hsub.trans hq.events.sublist⟩

theorem Conveyed.follows (h : Conveyed line before events dealt p t) (hq : Undisturbed line p q) :
    Follows relays line before events dealt q := by
  obtain ⟨lost, h⟩ := h.undisturbed hq
  refine ⟨[], lost, t, fun hmore => absurd hmore Bool.false_ne_true, ?_⟩
  rwa [List.append_nil]

theorem Follows.refl (h : Conveyed line before events dealt p t) :
    Follows relays line before events dealt p :=
  h.follows ⟨rfl, .refl _, List.prefix_rfl⟩

theorem Follows.mono {relays' : Prop} (hrelays : relays → relays')
    (h : Follows relays line before events dealt q) :
    Follows relays' line before events dealt q := by
  obtain ⟨more, lost, t, hmore, h⟩ := h
  exact ⟨more, lost, t, hrelays ∘ hmore, h⟩

/-- What follows from wherever the line has come to follows. -/
theorem Follows.trans {before' : List OutboundRequest}
    (h : Follows relays line before events dealt q)
    (hnext : ∀ {events dealt t}, Conveyed line before events dealt q t →
      Follows relays line before' events dealt r) : Follows relays line before' events dealt r := by
  obtain ⟨more, lost, t, hmore, h⟩ := h
  obtain ⟨more', lost', t', hmore', h'⟩ := hnext h
  refine ⟨more ++ more', lost' ++ lost, t', fun hany => ?_, ?_⟩
  · rw [List.any_append, Bool.or_eq_true] at hany
    exact hany.elim hmore hmore'
  · rwa [← List.append_assoc, List.append_assoc lost']

theorem Follows.undisturbed (h : Follows relays line before events dealt p)
    (hq : Undisturbed line p q) : Follows relays line before events dealt q :=
  h.trans fun h => h.follows hq

/-- A line that another outbox asks for something is undisturbed. -/
theorem Undisturbed.of_settleOutbox {i : Nat} (hi : i ≠ line)
    (o : Outcome (Outbox Waiter) (Outbox.Effect Waiter)) (w : World) :
    Undisturbed line (w, g) (w.settleOutbox i o, g) := by
  have hquiet : (o.effects.map (Job.ofOutboxEffect i)).filter (·.isPromiseOf line) = [] := by
    refine List.filter_eq_nil_iff.2 fun job hjob => ?_
    obtain ⟨effect, -, rfl⟩ := List.mem_map.1 hjob
    rw [Job.isPromiseOf_ofOutboxEffect, decide_eq_false hi]
    exact Bool.false_ne_true
  have hlines : Undisturbed line (w, g)
      (w.modifyLine i fun l => { l with outbox := o.state }, g) :=
    .of_modify i _ (fun h => absurd h hi) rfl rfl List.prefix_rfl
  rw [World.settleOutbox_eq]
  refine ⟨hlines.wire, ?_, List.prefix_rfl⟩
  simp only [promisesOf, List.filter_append, hquiet, List.append_nil]
  exact .refl _

theorem Undisturbed.trans (h₁ : Undisturbed line p q)
    (h₂ : Undisturbed line q r) : Undisturbed line p r :=
  ⟨h₂.wire.trans h₁.wire, h₂.promises.trans h₁.promises, h₁.events.trans h₂.events⟩

/-- Further events, with what has to be seen of the line after them. -/
theorem Conveyed.step {l l' : Line} {more : List (Traffic.Event Waiter)} {t' : Traffic Waiter}
    (h : Conveyed line before events dealt p t) (hl : p.1.lines[line]? = some l)
    (hl' : q.1.lines[line]? = some l') (hname : l'.name = l.name) (hrun : t.run l.name more = t')
    (houtbox : l'.outbox = t'.outbox)
    (hwire : ∀ entry, l'.onWire = some entry → t'.dispatchers = [.sending entry])
    (hdispatch : (promisesOf line q).countP Job.isDispatch = 0 ∨
      (promisesOf line q).countP Job.isDispatch = 1 ∧ t'.dispatchers = [.taking])
    (hanswers : t'.answered.Perm (answersOf line q ++ dealt))
    (hsent : ∃ recent, t'.sent = before ++ recent ∧
      (recent.map Event.sent).Sublist q.1.events) :
    Conveyed line before (events ++ more) dealt q t' := by
  refine ⟨?_, fun hnone => ?_, fun l₁ hl₁ => ?_, fun l₁ entry hl₁ => ?_, hdispatch, hanswers, hsent⟩
  · have hrun₀ := h.run
    rw [World.nameOf_eq hl] at hrun₀
    rw [World.nameOf_eq hl', hname, Traffic.run_append, ← hrun₀, hrun]
  · rw [hl'] at hnone
    cases hnone
  · rw [hl'] at hl₁
    cases hl₁
    exact houtbox
  · rw [hl'] at hl₁
    cases hl₁
    exact hwire entry

/-- Events that are no requests of relay discovery. -/
theorem Follows.of_events (more : List (Traffic.Event Waiter))
    (h : Conveyed line before (events ++ more) dealt q t)
    (hmore : more.any isRelayRequest = false) : Follows relays line before events dealt q :=
  ⟨more, [], t, fun hany => absurd (hmore.symm.trans hany) Bool.false_ne_true, h⟩

/-! ### Requests, answers and entries -/

theorem Conveyed.orderly (h : Conveyed line before events dealt p t) :
    Traffic.Orderly (Traffic.submittedMessages events) t := by
  rw [h.run]
  exact Traffic.orderly_run_new _ _

theorem promisesOf_settleOutbox (o : Outcome (Outbox Waiter) (Outbox.Effect Waiter)) (w : World)
    (g : Stage) :
    promisesOf line (w.settleOutbox line o, g) =
      promisesOf line (w, g) ++ o.effects.map (Job.ofOutboxEffect line) := by
  have hall : (o.effects.map (Job.ofOutboxEffect line)).filter (·.isPromiseOf line) =
      o.effects.map (Job.ofOutboxEffect line) := by
    refine List.filter_eq_self.2 fun job hjob => ?_
    obtain ⟨effect, -, rfl⟩ := List.mem_map.1 hjob
    rw [Job.isPromiseOf_ofOutboxEffect, decide_eq_true rfl]
  rw [World.settleOutbox_eq]
  simp only [promisesOf, List.filter_append, hall, List.append_assoc]

theorem getElem?_settleOutbox {l : Line} (hl : w.lines[line]? = some l)
    (o : Outcome (Outbox Waiter) (Outbox.Effect Waiter)) :
    (w.settleOutbox line o).lines[line]? = some { l with outbox := o.state } := by
  rw [World.settleOutbox_eq]
  simp only [List.getElem?_modify, hl, if_pos]
  rfl

/-- While no dispatcher is about to take an entry, none stands on the agenda. -/
theorem Conveyed.countP_eq_zero (h : Conveyed line before events dealt p t)
    (hne : t.dispatchers ≠ [.taking]) : (promisesOf line p).countP Job.isDispatch = 0 :=
  h.dispatch.resolve_right fun hone => hne hone.2

theorem countP_answers (entry : Outbox.Entry Waiter)
    (result : Except TransportError Media.Response) :
    ((entry.waiters.map fun waiter => Outbox.Effect.answer waiter result).map
      (Job.ofOutboxEffect line)).countP Job.isDispatch = 0 := by
  rw [List.countP_eq_zero]
  intro job hjob
  obtain ⟨effect, heffect, rfl⟩ := List.mem_map.1 hjob
  obtain ⟨waiter, -, rfl⟩ := List.mem_map.1 heffect
  exact Bool.false_ne_true

/-- The answers of a line after its outbox has asked for something. -/
theorem answersOf_settleOutbox (o : Outcome (Outbox Waiter) (Outbox.Effect Waiter)) (w : World)
    (g : Stage) :
    answersOf line (w.settleOutbox line o, g) =
      answersOf line (w, g) ++
        (o.effects.map (Job.ofOutboxEffect line)).filterMap Job.answer? := by
  rw [answersOf, promisesOf_settleOutbox, List.filterMap_append, answersOf]

/-- A request comes in on the line. -/
theorem Conveyed.submits (h : Conveyed line before events dealt (w, g) t) {l : Line}
    (hl : w.lines[line]? = some l) (request : Media.Request) (waiter : Waiter) :
    ∃ t', Conveyed line before (events ++ [.submit request waiter]) dealt
      (w.submitRequest line request waiter, g) t' := by
  have halone := h.orderly.alone
  have hpromises := @promisesOf_settleOutbox line (l.outbox.submit request waiter) w g
  have hanswers := @answersOf_settleOutbox line (l.outbox.submit request waiter) w g
  have hcourse := Traffic.course_step l.name (.submit request waiter) t
  generalize ht' : t.step l.name (.submit request waiter) = t' at hcourse
  have houtbox := h.outbox l hl
  have heffects : (l.outbox.submit request waiter).effects =
      if t.outbox.inFlight then [] else [.startDispatch] := by
    rw [houtbox]
    rfl
  have hsettle := getElem?_settleOutbox hl (l.outbox.submit request waiter)
  have hstate := congrArg (fun o : Outbox Waiter => (o.submit request waiter).state) houtbox
  simp only [World.submitRequest, hl]
  refine ⟨t', ?_⟩
  cases hcourse with
  | started hfly =>
    -- nobody is at work, so the new dispatcher is the only one
    rw [hfly, if_neg Bool.false_ne_true] at halone heffects
    have hnone : t.dispatchers = [] := List.length_eq_zero_iff.1 halone
    have hzero := h.countP_eq_zero (by rw [hnone]; exact (List.cons_ne_nil _ _).symm)
    rw [heffects] at hpromises hanswers
    refine h.step hl hsettle rfl ht' hstate
      (fun entry hentry => ?_) (.inr ⟨?_, by rw [hnone]; rfl⟩) ?_ ?_
    · have := h.onWire l entry hl hentry
      rw [hnone] at this
      cases this
    · rw [hpromises, List.countP_append, hzero]
      rfl
    · rw [hanswers]
      exact h.answers.trans (List.append_nil _ ▸ .refl _)
    · rw [World.settleOutbox_eq]
      exact h.sent
  | queued hfly =>
    rw [hfly, if_pos rfl] at heffects
    rw [heffects, List.map_nil, List.append_nil] at hpromises
    rw [heffects, List.map_nil, List.filterMap_nil, List.append_nil] at hanswers
    refine h.step hl hsettle rfl ht' hstate
      (fun entry hentry => h.onWire l entry hl hentry) ?_ ?_ ?_
    · rw [hpromises]
      exact h.dispatch
    · rw [hanswers]
      exact h.answers
    · rw [World.settleOutbox_eq]
      exact h.sent
  | idle hidle => exact absurd rfl (hidle request waiter)

theorem Conveyed.submit {relays : Nat → Prop} (h : Conveyed line before events dealt (w, g) t)
    (i : Nat) (request : Media.Request) {waiter : Waiter}
    (hwaiter : waiter.isRelay = true → relays i) :
    Follows (relays line) line before events dealt (w.submitRequest i request waiter, g) := by
  cases hl : w.lines[i]? with
  | none =>
    simp only [World.submitRequest, hl]
    exact .refl h
  | some l =>
    by_cases hi : i = line
    · subst hi
      obtain ⟨t', h'⟩ := h.submits hl request waiter
      refine ⟨_, [], t', fun hany => hwaiter ?_, h'⟩
      rwa [List.any_cons, List.any_nil, Bool.or_false] at hany
    · simp only [World.submitRequest, hl]
      exact h.follows (.of_settleOutbox hi _ w)

/-- A reply comes back and is passed on, with the entry in the state that it had on the wire. -/
theorem run_reply {name : String} {entry : Outbox.Entry Waiter}
    (hd : t.dispatchers = [.sending entry]) (result : Except TransportError Media.Response) :
    t.run name [.reply 0 result, .answer 0] =
      { t with
        outbox := (t.outbox.finish entry result).state
        dispatchers := [.taking]
        answered := t.answered ++ entry.waiters.map fun waiter => (waiter, result) } := by
  have hreply : t.step name (.reply 0 result) =
      { t with dispatchers := [.answering entry result] } := by
    rw [Traffic.step, hd]
    rfl
  rw [Traffic.run_cons, Traffic.run_cons, Traffic.run_nil, hreply]
  simp only [Traffic.step, List.getElem?_cons_zero, List.set_cons_zero, Traffic.settle,
    Outbox.finish_effects, Traffic.foldl_perform_answer]

/-- The answers that an entry brings to those who wait for it. -/
theorem filterMap_answers (entry : Outbox.Entry Waiter)
    (result : Except TransportError Media.Response) :
    ((entry.waiters.map fun waiter => Outbox.Effect.answer waiter result).map
      (Job.ofOutboxEffect line)).filterMap Job.answer? =
        entry.waiters.map fun waiter => (waiter, result) := by
  rw [List.map_map, List.filterMap_map]
  exact congrFun List.filterMap_eq_map entry.waiters

/-- Further answers are as many on both sides. -/
theorem Conveyed.more_answers (h : Conveyed line before events dealt p t)
    (recent : List (Waiter × Except TransportError Media.Response)) :
    (t.answered ++ recent).Perm ((answersOf line p ++ recent) ++ dealt) := by
  refine (h.answers.append_right recent).trans ?_
  rw [List.append_assoc, List.append_assoc]
  exact List.perm_append_comm.append_left _

theorem promisesOf_next {job : Job} (hjob : job.isPromiseOf line = true) (w : World) (g : Stage) :
    (promisesOf line (w.next job, g)).Perm (job :: promisesOf line (w, g)) := by
  have hperm : (g.jobs ++ job :: w.agenda).Perm (job :: (g.jobs ++ w.agenda)) := List.perm_middle
  have hfilter := hperm.filter (·.isPromiseOf line)
  rwa [List.filter_cons_of_pos hjob] at hfilter

theorem Undisturbed.of_next {job : Job} (hjob : job.isPromiseOf line = false) (w : World) :
    Undisturbed line (w, g) (w.next job, g) := by
  refine ⟨rfl, ?_, List.prefix_rfl⟩
  have hquiet : promisesOf line (w.next job, g) = promisesOf line (w, g) := by
    simp [promisesOf, World.next, hjob]
  exact hquiet ▸ List.Sublist.refl _

theorem Undisturbed.of_later {job : Job} (hjob : job.isPromiseOf line = false) (w : World) :
    Undisturbed line (w, g) (w.later job, g) := by
  refine ⟨rfl, ?_, List.prefix_rfl⟩
  have hquiet : promisesOf line (w.later job, g) = promisesOf line (w, g) := by
    simp [promisesOf, World.later, hjob]
  exact hquiet ▸ List.Sublist.refl _

theorem getElem?_modifyLine_self {l : Line} (hl : w.lines[line]? = some l) (f : Line → Line) :
    (w.modifyLine line f).lines[line]? = some (f l) := by
  rw [World.getElem?_modifyLine, hl, Option.map_some, if_pos rfl]

theorem Conveyed.depart (h : Conveyed line before events dealt (w, g) t) (i : Nat) :
    Follows relays line before events dealt (w.depart i, g) := by
  unfold World.depart
  split
  · exact .refl h
  · rename_i l hl
    split
    · exact .refl h
    · rename_i entry hentry
      simp only
      generalize w.environment.server.answer.2 = result
      generalize hv : World.modifyLine i (fun l => { l with onWire := none }) _ = v
      have hagenda : v.agenda = w.agenda := by rw [← hv]; rfl
      have hevents : v.events = w.events := by rw [← hv]; rfl
      by_cases hi : i = line
      · subst hi
        have hlv : v.lines[i]? = some { l with onWire := none } := by
          rw [← hv]
          exact getElem?_modifyLine_self hl _
        have hsending := h.onWire l entry hl hentry
        have hzero := h.countP_eq_zero (by rw [hsending]; simp)
        have hpromises : (promisesOf i ((v.settleOutbox i (l.outbox.finish entry result)).next
            (.dispatch i), g)).Perm (.dispatch i :: (promisesOf i (w, g) ++
              (l.outbox.finish entry result).effects.map (Job.ofOutboxEffect i))) := by
          have hown : (Job.dispatch i).isPromiseOf i = true := decide_eq_true rfl
          refine (promisesOf_next hown _ g).trans (List.Perm.cons _ ?_)
          rw [promisesOf_settleOutbox]
          simp only [promisesOf, hagenda]
          exact .refl _
        have hanswers := hpromises.filterMap Job.answer?
        rw [List.filterMap_cons_none rfl, List.filterMap_append, Outbox.finish_effects,
          filterMap_answers] at hanswers
        refine .of_events [.reply 0 result, .answer 0] (h.step hl (getElem?_settleOutbox hlv _) rfl
          (run_reply hsending result) ?_ (fun _ => nofun) (.inr ⟨?_, rfl⟩) ?_ ?_) rfl
        · exact congrArg (fun o : Outbox Waiter => (o.finish entry result).state) (h.outbox l hl)
        · rw [hpromises.countP_eq, List.countP_cons, List.countP_append, hzero,
            Outbox.finish_effects, countP_answers]
          rfl
        · exact (h.more_answers _).trans (hanswers.symm.append_right dealt)
        · obtain ⟨recent, hsent, hsub⟩ := h.sent
          refine ⟨recent, hsent, ?_⟩
          rw [World.settleOutbox_eq]
          exact hevents ▸ hsub
      · have hother : (Job.dispatch i).isPromiseOf line = false := decide_eq_false hi
        have hline : Undisturbed line (w, g) (v, g) := by
          rw [← hv]
          exact .of_modify i _ (fun h => absurd h hi) rfl rfl List.prefix_rfl
        exact h.follows
          ((hline.trans (.of_settleOutbox hi _ v)).trans (.of_next hother _))

theorem Undisturbed.of_drop (job : Job) : Undisturbed line (w, .hand job) (w, .idle) :=
  ⟨rfl, (List.sublist_cons_self job w.agenda).filter _, List.prefix_rfl⟩

/-- The dispatcher of the line takes an entry and it is sent, or there is none. -/
theorem Conveyed.takes (h : Conveyed line before events dealt (w, .hand (.dispatch line)) t)
    {l : Line} (hl : w.lines[line]? = some l) :
    Follows relays line before events dealt (w.dispatch line, .idle) := by
  have hown : promisesOf line (w, .hand (.dispatch line)) =
      .dispatch line :: promisesOf line (w, .idle) :=
    List.filter_cons_of_pos (decide_eq_true rfl)
  have hanswers : answersOf line (w, .hand (.dispatch line)) = answersOf line (w, .idle) := by
    rw [answersOf, hown, List.filterMap_cons_none rfl, answersOf]
  have hdispatch := h.dispatch
  rw [hown, List.countP_cons_of_pos rfl] at hdispatch
  -- the dispatcher at hand is the only one
  obtain ⟨hone, htaking⟩ := hdispatch.resolve_left (Nat.succ_ne_zero _)
  have hzero : (promisesOf line (w, .idle)).countP Job.isDispatch = 0 := Nat.succ.inj hone
  have hwire : ∀ entry, l.onWire ≠ some entry := fun entry hentry => by
    have := h.onWire l entry hl hentry
    rw [htaking] at this
    cases this
  have houtbox := h.outbox l hl
  simp only [World.dispatch, hl]
  cases hq : t.outbox.queue with
  | nil =>
    have htake : t.step l.name (.take 0) =
        { t with outbox := { t.outbox with inFlight := false }, dispatchers := [] } := by
      rw [Traffic.step, htaking]
      simp only [List.getElem?_cons_zero, Outbox.take_of_nil hq]
      rfl
    simp only [houtbox, Outbox.take_of_nil hq]
    exact .of_events [.take 0] (h.step hl (getElem?_modifyLine_self hl _) rfl htake rfl
      (fun entry hentry => absurd hentry (hwire entry)) (.inl hzero) (hanswers ▸ h.answers)
      h.sent) rfl
  | cons entry rest =>
    have htake : t.step l.name (.take 0) =
        { t with
          outbox := { t.outbox with queue := rest }
          dispatchers := [.sending entry]
          sent := t.sent ++ [t.outbox.outbound l.name entry.request] } := by
      rw [Traffic.step, htaking]
      simp only [List.getElem?_cons_zero, Outbox.take_of_cons hq]
      rfl
    have hsent : ∃ recent, t.sent ++ [t.outbox.outbound l.name entry.request] =
        before ++ recent ∧ (recent.map Event.sent).Sublist
          (w.events ++ [.sent (t.outbox.outbound l.name entry.request)]) := by
      obtain ⟨recent, hsent, hsub⟩ := h.sent
      refine ⟨recent ++ [t.outbox.outbound l.name entry.request], ?_, ?_⟩
      · rw [hsent, List.append_assoc]
      · rw [List.map_append]
        exact hsub.append (.refl _)
    simp only [houtbox, Outbox.take_of_cons hq]
    generalize hw : w.modifyLine line _ = w'
    obtain ⟨v, -, hlines, hagenda, hevents, hlaunch⟩ :=
      World.launch_cases line { t.outbox with queue := rest } entry
        (t.outbox.outbound l.name entry.request) w'
    have hlv : v.lines[line]? = some { l with outbox := { t.outbox with queue := rest } } := by
      rw [hlines, ← hw]
      exact getElem?_modifyLine_self hl _
    have hpv : promisesOf line (v, .idle) = promisesOf line (w, .idle) := by
      simp only [promisesOf, hagenda, ← hw]
      rfl
    have hav : t.answered.Perm (answersOf line (v, .idle) ++ dealt) := by
      rw [answersOf, hpv, ← answersOf, ← hanswers]
      exact h.answers
    have hev : v.events = w.events ++ [.sent (t.outbox.outbound l.name entry.request)] := by
      rw [hevents, ← hw]
      rfl
    rw [← hev] at hsent
    have hwired : Follows relays line before events dealt
        (v.modifyLine line fun l => { l with onWire := some entry }, .idle) := by
      refine .of_events [.take 0] (h.step hl (getElem?_modifyLine_self hlv _) rfl htake rfl
        (fun entry' hentry => ?_) (.inl ?_) ?_ hsent) rfl
      · cases hentry
        rfl
      · exact (congrArg (List.countP Job.isDispatch) hpv).trans hzero
      · exact hav
    rcases hlaunch with heq | heq | heq
    · -- nobody will reply, which is like the reply that the request is given up
      let result : Except TransportError Media.Response := .error .cancelled
      rw [heq]
      refine .of_events [.take 0, .reply 0 result, .answer 0]
        (h.step hl (getElem?_settleOutbox hlv _) rfl
          ((congrArg (Traffic.run l.name _) htake).trans (run_reply rfl result)) rfl
          (fun entry' hentry => absurd hentry (hwire entry')) (.inl ?_) ?_ ?_) rfl
      · rw [promisesOf_settleOutbox, hpv, List.countP_append, hzero, Nat.zero_add]
        exact countP_answers entry result
      · rw [answersOf_settleOutbox]
        refine ((hav.append_right _).trans ?_)
        rw [List.append_assoc, List.append_assoc]
        refine .append_left _ (List.perm_append_comm.trans (.append_right _ ?_))
        exact .of_eq (filterMap_answers entry result).symm
      · rw [World.settleOutbox_eq]
        exact hsent
    · rw [heq]
      exact hwired
    · rw [heq]
      exact hwired.undisturbed (.of_next rfl _)

theorem Conveyed.dispatches (h : Conveyed line before events dealt (w, .hand (.dispatch i)) t) :
    Follows relays line before events dealt (w.dispatch i, .idle) := by
  have hdrop : Undisturbed line (w, .hand (.dispatch i)) (w, .idle) := .of_drop _
  cases hl : w.lines[i]? with
  | none =>
    simp only [World.dispatch, hl]
    exact h.follows hdrop
  | some l =>
    by_cases hi : i = line
    · subst hi
      exact h.takes hl
    · have hmodify : ∀ o : Outbox Waiter, Undisturbed line (w, .idle)
          (w.modifyLine i fun l => { l with outbox := o }, .idle) :=
        fun o => .of_modify i _ (fun h => absurd h hi) rfl rfl List.prefix_rfl
      refine h.follows (hdrop.trans ?_)
      simp only [World.dispatch, hl]
      split
      · exact hmodify _
      · rename_i entry request htake
        generalize hw : w.modifyLine i _ = w'
        obtain ⟨v, -, hlines, hagenda, hevents, hlaunch⟩ :=
          World.launch_cases i (l.outbox.take l.name).1 entry request w'
        have hfirst : Undisturbed line (w, .idle) (v, .idle) := by
          refine .trans (hw ▸ hmodify _) ?_
          exact .of_modify i id (fun h => absurd h hi) (by rw [hlines, List.modify_id]) hagenda
            (hevents ▸ List.prefix_append ..)
        have honWire : Undisturbed line (w, .idle)
            (v.modifyLine i fun l => { l with onWire := some entry }, .idle) :=
          hfirst.trans (.of_modify i _ (fun h => absurd h hi) rfl rfl List.prefix_rfl)
        rcases hlaunch with heq | heq | heq
        · rw [heq]
          exact hfirst.trans (.of_settleOutbox hi _ v)
        · rw [heq]
          exact honWire
        · rw [heq]
          exact honWire.trans (.of_next rfl _)

/-! ### Moves and runs -/

theorem Undisturbed.refl (line : Nat) (p : World × Stage) : Undisturbed line p p :=
  ⟨rfl, .refl _, List.prefix_rfl⟩

theorem Undisturbed.of_modifyActor (i : Nat) (f : Actor → Actor)
    (hlines : w'.lines = (w.modifyActor i f).lines) (hagenda : w'.agenda = w.agenda)
    (hevents : w.events <+: w'.events) : Undisturbed line (w, g) (w', g) :=
  .of_modify i (fun l => { l with actor := l.actor.map f }) (fun _ _ => rfl) hlines hagenda hevents

/-- A line that is new has an empty outbox, where nothing has happened yet. -/
theorem Conveyed.start (h : Conveyed line before events dealt (w, g) t) (name : String) :
    Follows relays line before events dealt (w.startMeeting name, g) := by
  by_cases hline : line = w.lines.length
  · obtain ⟨l, hl, -, houtbox, hwire, -⟩ := World.getElem?_startMeeting name w
    rw [← hline] at hl
    have hnone : w.lines[line]? = none := List.getElem?_eq_none (Nat.le_of_eq hline.symm)
    have hevents := h.started hnone
    have ht : t = {} := by rw [h.run, hevents, Traffic.run_nil]
    have hnew : Conveyed line before (events ++ []) dealt (w.startMeeting name, g) t := by
      refine ⟨?_, fun hnone => ?_, fun l₁ hl₁ => ?_, fun l₁ entry hl₁ hentry => ?_, h.dispatch,
        h.answers, h.sent⟩
      · rw [ht, hevents, List.append_nil, Traffic.run_nil]
      · rw [hl] at hnone
        cases hnone
      · rw [hl] at hl₁
        cases hl₁
        rw [houtbox, ht]
      · rw [hl] at hl₁
        cases hl₁
        rw [hwire] at hentry
        cases hentry
    exact .of_events [] hnew rfl
  · exact h.follows
      ⟨by rw [World.getElem?_startMeeting_of_ne hline name], .refl _, List.prefix_rfl⟩

/-- Every change is a number of events at the outbox, with requests of relay discovery among them
only if changes of relay discovery are allowed on the line. -/
theorem conveyed_change {relays : Nat → Prop} {books : Prop} (hchange : Change relays books w w')
    (h : Conveyed line before events dealt (w, g) t) :
    Follows (relays line) line before events dealt (w', g) := by
  cases hchange with
  | aside haside => exact h.follows (.of_aside haside)
  | @note i _ _ hf =>
    refine h.follows (.of_modify i _ (fun _ l => ?_) rfl rfl List.prefix_rfl)
    obtain ⟨hname, houtbox, hwire, -⟩ := hf l
    rw [Line.wire, Line.wire, hname, houtbox, hwire]
  | complete => exact h.follows (.of_later rfl _)
  | submit i request hwaiter => exact h.submit i request hwaiter
  | depart i => exact h.depart i
  | shift i _ => exact h.follows (.of_modifyActor i _ rfl rfl List.prefix_rfl)
  | post i request caller => exact h.follows (.of_modifyActor i _ rfl rfl List.prefix_rfl)
  | cancel i => exact h.follows (.of_modifyActor i _ rfl rfl List.prefix_rfl)
  | lose _ => exact h.follows ⟨rfl, .refl _, List.prefix_rfl⟩
  | finish _ _ => exact h.follows (.of_modifyActor _ _ rfl rfl List.prefix_rfl)
  | mark _ => exact h.follows ⟨rfl, .refl _, List.prefix_rfl⟩
  | book _ _ => exact h.follows ⟨rfl, .refl _, List.prefix_rfl⟩
  | start _ name => exact h.start name

theorem follows_changes {relays : Nat → Prop} {books : Prop} (hchanges : Changes relays books w w')
    (h : Follows (relays line) line before events dealt (w, g)) :
    Follows (relays line) line before events dealt (w', g) :=
  hchanges.induction (P := fun v => Follows (relays line) line before events dealt (v, g))
    (fun _ _ hchange h => h.trans (conveyed_change hchange)) h

/-- A stage without a job at hand. -/
theorem Undisturbed.of_stage {g' : Stage} (hg : g'.jobs = [] ∨ g'.jobs = g.jobs) :
    Undisturbed line (w, g) (w, g') := by
  refine ⟨rfl, ?_, List.prefix_rfl⟩
  simp only [promisesOf, List.filter_append]
  rcases hg with hg | hg
  · rw [hg]
    exact List.sublist_append_right ..
  · exact hg ▸ List.Sublist.refl _

/-- **Every move is a number of events at the outbox**, with requests of relay discovery among them
only if the move is one of the relay discovery of the line. -/
theorem conveyed_move (hmove : Move p q) (h : Conveyed line before events dealt p t) :
    Follows (RelayMove line p q) line before events dealt q := by
  cases hmove with
  | change hchange => exact (conveyed_change hchange h).mono False.elim
  | @relay i _ _ hrelay =>
    have hchanges := @RelayMove.changes False _ _ _ hrelay
    have hjobs := hrelay.jobs
    obtain ⟨w, g⟩ := p
    obtain ⟨w', g'⟩ := q
    exact ((follows_changes hchanges (.refl h)).mono fun hi => hi ▸ hrelay).undisturbed
      (.of_stage hjobs)
  | desk hdesk =>
    have hchanges := @DeskMove.changes (fun _ => False) _ _ hdesk
    exact (follows_changes hchanges (.refl h)).mono False.elim
  | pop hagenda =>
    refine h.follows ⟨rfl, ?_, List.prefix_rfl⟩
    simp only [promisesOf, Stage.jobs, hagenda]
    exact .refl _
  | drop job => exact h.follows (.of_drop job)
  | dispatch i => exact h.dispatches
  | take =>
    exact h.follows (.trans (.of_modifyActor _ _ rfl rfl List.prefix_rfl) (.of_stage (.inl rfl)))
  | giveOut =>
    refine h.follows (.trans ?_ (.of_later rfl _))
    exact (Undisturbed.of_stage (.inl rfl)).trans ⟨rfl, .refl _, List.prefix_rfl⟩
  | rest => exact h.follows (.of_stage (.inl rfl))
  | finish =>
    exact h.follows (.trans (.of_modifyActor _ _ rfl rfl List.prefix_rfl) (.of_stage (.inl rfl)))
  | gone => exact h.follows (.of_stage (.inl rfl))

theorem follows_moves (hmoves : Moves p q) (h : Conveyed line before events dealt p t) :
    Follows True line before events dealt q := by
  induction hmoves with
  | refl => exact .refl h
  | tail _ hmove ih => exact ih.trans fun h => (conveyed_move hmove h).mono fun _ => trivial

/-- The world without what came of earlier steps is one where nothing was sent in the step. -/
theorem Conveyed.cleared (h : Conveyed line before events dealt (w, g) t) :
    Conveyed line t.sent events dealt (w.cleared, g) t :=
  ⟨h.run, h.started, h.outbox, h.onWire, h.dispatch, h.answers,
    ⟨[], (List.append_nil _).symm, List.nil_sublist _⟩⟩

/-- **A step of a client is a number of events at the outbox**, and what is sent in the step is
noticed, in the same order. -/
theorem conveyed_run (call : Nat) (step : Step)
    (h : Conveyed line before events dealt (w, .idle) t) :
    Follows True line t.sent events dealt (w.run call step, .idle) :=
  follows_moves (World.moves_run call step w) h.cleared

theorem conveyed_play (steps : List (Nat × Step))
    (h : Conveyed line before events dealt (w, .idle) t) :
    ∃ before', Follows True line before' events dealt (w.play steps, .idle) := by
  induction steps generalizing w before events dealt t with
  | nil => exact ⟨before, .refl h⟩
  | cons s steps ih =>
    obtain ⟨more, lost, t', hmore, h'⟩ := conveyed_run s.1 s.2 h
    obtain ⟨before', more', lost', t'', hmore', h''⟩ := ih h'
    refine ⟨before', more ++ more', lost' ++ lost, t'', fun _ => trivial, ?_⟩
    rwa [← List.append_assoc, List.append_assoc lost']

/-- Nothing has happened on a line when a scenario begins. -/
theorem conveyed_new (hw : w.IsNew) (line : Nat) : Conveyed line [] [] [] (w, .idle) {} := by
  have hlines : ∀ l ∈ w.lines, l.outbox = {} ∧ l.onWire = none := by
    cases hw with
    | line | meeting =>
      intro l hl
      rw [List.mem_singleton.1 hl]
      exact ⟨rfl, rfl⟩
    | desk => exact fun _ hl => absurd hl List.not_mem_nil
  have hagenda : w.agenda = [] := by cases hw <;> rfl
  have hpromises : promisesOf line (w, .idle) = [] := by
    rw [promisesOf, hagenda]
    rfl
  refine ⟨rfl, fun _ => rfl, fun l hl => (hlines l (List.mem_of_getElem? hl)).1,
    fun l entry hl hentry => ?_, .inl (by rw [hpromises]; rfl), ?_, ⟨[], rfl, List.nil_sublist _⟩⟩
  · rw [(hlines l (List.mem_of_getElem? hl)).2] at hentry
    cases hentry
  · rw [answersOf, hpromises]
    exact .refl _

/-- **In every scenario every outbox is one of callers and a dispatcher**: it has the state that
some events lead to, the entry at the server is the one that their dispatcher has sent, and the
answers that are still to be passed on are among theirs. -/
theorem outbox_of_play (hw : w.IsNew) (steps : List (Nat × Step)) {l : Line}
    (hl : (w.play steps).lines[line]? = some l) :
    ∃ events, let ledger := Ledger.run l.name events ({} : Ledger Waiter)
      ledger.traffic.outbox = l.outbox ∧
        (∀ entry, l.onWire = some entry → ledger.traffic.dispatchers = [.sending entry]) ∧
        ∃ dealt, ledger.traffic.answered.Perm (answersOf line (w.play steps, .idle) ++ dealt) := by
  obtain ⟨_, events, dealt, t, -, h⟩ := conveyed_play steps (conveyed_new hw line)
  have hname := World.nameOf_eq hl
  have hrun : (Ledger.run l.name ([] ++ events) ({} : Ledger Waiter)).traffic = t := by
    rw [Ledger.traffic_run, h.run, hname]
  refine ⟨[] ++ events, ?_, fun entry hentry => ?_, dealt ++ [], ?_⟩
  · rw [hrun]
    exact (h.outbox l hl).symm
  · rw [hrun]
    exact h.onWire l entry hl hentry
  · rw [hrun]
    exact h.answers

end

end CallSignaling.Scenario
