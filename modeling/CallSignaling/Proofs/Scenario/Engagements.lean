import CallSignaling.Proofs.Media.Renaming
import CallSignaling.Proofs.Scenario.Wires
import CallSignaling.Proofs.Turn.Operations
import CallSignaling.Proofs.Turn.Requests

/-!
# Where the calls of relay discovery are

A call of relay discovery that cannot go on stands in one of three places of a scenario: its request
is on the way, it is among those who wait for a completion, or its completion is on the agenda.
That is what the point says which the call has come to.

* `Scenario.Waiter.client`: the name that relay discovery has for one who waits for an answer.
* `Scenario.World.waitsOf`, `Scenario.completionsOf`: who waits for completions, and the completions
  on their way.
* `Scenario.Engaged`: every call is where its point says, but for those that are about to go on.
* `Scenario.Linked`: besides, the ledger of the calls is what happened on the wire.

What relay discovery asks for keeps the link: a completion wakes those who wait (`Linked.wake`), a
request is sent (`Linked.submit`) or a call waits (`Linked.await`), and so do all its effects in
turn (`Linked.effects`).  A call that goes on leaves its place: with the answer to its request
(`Linked.takeAnswer`), with its completion (`Linked.takeCompletion`), or because it has waited for
too long (`Linked.takeWait`).
-/

namespace CallSignaling.Scenario

open Media (Ledger Traffic)
open Turn (Call Calls Client Completion Point)

/-- The name that relay discovery has for one who waits for an answer. -/
def Waiter.client : Waiter → Client
  | relay c stage => .call c.place stage
  | call n => .other n
  | mute n => .other n
  | task id => .other id

/-- Events at an outbox, with the names that relay discovery has for those who wait. -/
def asClients (events : List (Traffic.Event Waiter)) : List (Traffic.Event Client) :=
  events.map (Traffic.Event.map Waiter.client)

/-- The completion that a job brings to a call of a line. -/
def Job.completion? (line : Nat) : Job → Option (Nat × RelayCall × Completion)
  | completed i generation call completion =>
    if i = line then some (generation, call, completion) else none
  | _ => none

/-- The completions on their way to the calls of a line, with their exchanges. -/
def completionsOf (line : Nat) (p : World × Stage) : List (Nat × RelayCall × Completion) :=
  (p.2.jobs ++ p.1.agenda).filterMap (Job.completion? line)

/-- Those who wait for a completion on a line. -/
def World.waitsOf (line : Nat) (w : World) : List Wait := ((w.lines[line]?).map (·.waits)).getD []

/-! ### Points -/

/-- The point that a call has come to. -/
def pointOf (calls : List Call) (i : Nat) : Option Point := (calls[i]?).map (·.point)

section

variable {calls : List Call} {i j : Nat} {point : Point}

theorem lt_of_pointOf (h : pointOf calls i = some point) : i < calls.length := by
  obtain ⟨call, hcall, -⟩ := Option.map_eq_some_iff.1 h
  exact (List.getElem?_eq_some_iff.1 hcall).1

theorem pointOf_set_self (hi : i < calls.length) (call : Call) :
    pointOf (calls.set i call) i = some call.point := by
  rw [pointOf, List.getElem?_set_self hi]
  rfl

theorem pointOf_set_of_ne (h : i ≠ j) (call : Call) :
    pointOf (calls.set i call) j = pointOf calls j := by
  rw [pointOf, List.getElem?_set_ne h, pointOf]

theorem pointOf_append (h : pointOf calls i = some point) (call : Call) :
    pointOf (calls ++ [call]) i = some point := by
  rw [pointOf, List.getElem?_append_left (lt_of_pointOf h)]
  exact h

theorem pointOf_wake {generation : Nat} (h : pointOf calls i = some (.waiting generation))
    (completion : Completion) :
    pointOf (calls.map (Call.wake generation completion)) i =
      some (.completed generation completion) := by
  obtain ⟨call, hcall, hpoint⟩ := Option.map_eq_some_iff.1 h
  rw [pointOf, List.getElem?_map, hcall]
  simp [Call.wake, hpoint]

theorem pointOf_wake_of_ne {generation : Nat} (h : pointOf calls i = some point)
    (hne : point ≠ .waiting generation) (completion : Completion) :
    pointOf (calls.map (Call.wake generation completion)) i = some point := by
  obtain ⟨call, hcall, hpoint⟩ := Option.map_eq_some_iff.1 h
  have hsame : call.wake generation completion = call := by
    unfold Call.wake
    split
    · rename_i own hown
      refine if_neg fun heq => hne ?_
      rw [← hpoint, hown, heq]
    · rfl
  rw [pointOf, List.getElem?_map, hcall, Option.map_some, hsame]
  exact congrArg some hpoint

/-- A call that is woken has nothing to put in. -/
theorem carried?_wake {call : Call} (h : call.point.carried? = none) (generation : Nat)
    (completion : Completion) : (call.wake generation completion).point.carried? = none := by
  unfold Call.wake
  split
  · split
    · rfl
    · exact h
  · exact h

end

/-! ### Calls and places -/

/-- Whether a call at a point is to take a completion: it has the completion, or it has found out
that no other will come. -/
def Takes (generation : Nat) (completion : Completion) (point : Option Point) : Prop :=
  point = some (.completed generation completion) ∨
    ∃ e, completion = .error e ∧ point = some (.finishing generation (.error e))

/-- Every call is where its point says, but for those in `free`, which stand nowhere.  The answers
`dealt` were passed on. -/
structure Engaged (line : Nat) (free : List Nat)
    (dealt : List (Waiter × Except TransportError Media.Response)) (p : World × Stage)
    (calls : List Call) (ledger : Ledger Client) : Prop where
  /-- No call is about to put a completion in. -/
  rested : ∀ call ∈ calls, call.point.carried? = none
  waits : ∀ wait ∈ p.1.waitsOf line, wait.call.place ∉ free ∧
    pointOf calls wait.call.place = some (.waiting wait.generation)
  completions : ∀ c ∈ completionsOf line p, c.2.1.place ∉ free ∧
    Takes c.1 c.2.2 (pointOf calls c.2.1.place)
  apart : ((p.1.waitsOf line).map (·.call.place) ++
    (completionsOf line p).map (·.2.1.place)).Nodup
  requests : ∀ i stage, .call i stage ∈ Traffic.callers ledger.past →
    .call i stage ∈ dealt.map (·.1.client) ∨ i ∉ free ∧ pointOf calls i = some (.sent stage)

/-- Every call is where its point says, but for those in `free`, and the ledger is what happened on
the wire of the line. -/
def Linked (line : Nat) (free : List Nat) (p : World × Stage) (calls : List Call)
    (ledger : Ledger Client) : Prop :=
  ∃ before events dealt t, Conveyed line before events dealt p t ∧
    ledger = Ledger.run (p.1.nameOf line) (asClients events) {} ∧
    Engaged line free dealt p calls ledger

section

variable {line : Nat} {free : List Nat} {p q : World × Stage} {w w' : World} {g : Stage}
  {calls calls' : List Call} {ledger : Ledger Client} {i : Nat} {l : Line}
  {dealt : List (Waiter × Except TransportError Media.Response)}

theorem past_run_asClients (name : String) (events : List (Traffic.Event Waiter)) :
    (Ledger.run name (asClients events) {}).past = asClients events := by
  rw [Ledger.past_run, List.nil_append]

theorem waitsOf_eq (hl : w.lines[line]? = some l) : w.waitsOf line = l.waits := by
  rw [World.waitsOf, hl]
  rfl

theorem Takes.ne_waiting {generation own : Nat} {completion : Completion} {point : Option Point}
    (h : Takes generation completion point) : point ≠ some (.waiting own) := by
  rintro rfl
  rcases h with h | ⟨e, -, h⟩ <;> cases h

theorem Takes.ne_sent {generation : Nat} {stage : Turn.Stage} {completion : Completion}
    {point : Option Point} (h : Takes generation completion point) :
    point ≠ some (.sent stage) := by
  rintro rfl
  rcases h with h | ⟨e, -, h⟩ <;> cases h

namespace Engaged

/-- Fewer calls are free, and more answers were passed on. -/
theorem mono {free' : List Nat} {dealt' : List (Waiter × Except TransportError Media.Response)}
    (h : Engaged line free dealt p calls ledger) (hfree : free' ⊆ free) (hdealt : dealt ⊆ dealt') :
    Engaged line free' dealt' p calls ledger where
  rested := h.rested
  waits := fun wait hwait =>
    ⟨fun hmem => (h.waits wait hwait).1 (hfree hmem), (h.waits wait hwait).2⟩
  completions := fun c hc =>
    ⟨fun hmem => (h.completions c hc).1 (hfree hmem), (h.completions c hc).2⟩
  apart := h.apart
  requests := fun i stage hmem => (h.requests i stage hmem).imp (List.map_subset _ hdealt ·)
    fun hsent => ⟨fun hmem => hsent.1 (hfree hmem), hsent.2⟩

/-- Nobody else waits, and completions get lost at most. -/
theorem rearranged (h : Engaged line free dealt p calls ledger)
    (hwaits : q.1.waitsOf line = p.1.waitsOf line)
    (hcompletions : (completionsOf line q).Sublist (completionsOf line p)) :
    Engaged line free dealt q calls ledger where
  rested := h.rested
  waits := hwaits ▸ h.waits
  completions := fun c hc => h.completions c (hcompletions.subset hc)
  apart := by
    rw [hwaits]
    exact h.apart.sublist ((List.Sublist.refl _).append (hcompletions.map _))
  requests := h.requests

/-- A call that is free goes on. -/
theorem set (h : Engaged line free dealt p calls ledger) (hi : i ∈ free) {call : Call}
    (hcall : call.point.carried? = none) : Engaged line free dealt p (calls.set i call) ledger := by
  have hother : ∀ j, j ∉ free → pointOf (calls.set i call) j = pointOf calls j :=
    fun j hj => pointOf_set_of_ne (fun heq : i = j => hj (heq ▸ hi)) call
  refine ⟨fun other hmem => ?_, fun wait hwait => ?_, fun c hc => ?_, h.apart,
    fun j stage hmem => ?_⟩
  · rcases List.mem_or_eq_of_mem_set hmem with hmem | rfl
    · exact h.rested other hmem
    · exact hcall
  · obtain ⟨hfree, hpoint⟩ := h.waits wait hwait
    exact ⟨hfree, (hother _ hfree).trans hpoint⟩
  · obtain ⟨hfree, htakes⟩ := h.completions c hc
    exact ⟨hfree, hother _ hfree ▸ htakes⟩
  · exact (h.requests j stage hmem).imp_right fun ⟨hfree, hsent⟩ =>
      ⟨hfree, (hother j hfree).trans hsent⟩

/-- A call starts, and is free. -/
theorem append (h : Engaged line [] dealt p calls ledger) {call : Call}
    (hcall : call.point.carried? = none) :
    Engaged line [calls.length] dealt p (calls ++ [call]) ledger := by
  have hold : ∀ {j point}, pointOf calls j = some point → j ∉ [calls.length] := fun hpoint hmem =>
    Nat.ne_of_lt (lt_of_pointOf hpoint) (List.mem_singleton.1 hmem)
  refine ⟨fun other hmem => ?_, fun wait hwait => ?_, fun c hc => ?_, h.apart,
    fun j stage hmem => ?_⟩
  · rcases List.mem_append.1 hmem with hmem | hmem
    · exact h.rested other hmem
    · exact List.mem_singleton.1 hmem ▸ hcall
  · have hpoint := (h.waits wait hwait).2
    exact ⟨hold hpoint, pointOf_append hpoint call⟩
  · rcases (h.completions c hc).2 with hpoint | ⟨e, he, hpoint⟩
    · exact ⟨hold hpoint, .inl (pointOf_append hpoint call)⟩
    · exact ⟨hold hpoint, .inr ⟨e, he, pointOf_append hpoint call⟩⟩
  · exact (h.requests j stage hmem).imp_right fun ⟨_, hsent⟩ =>
      ⟨hold hsent, pointOf_append hsent call⟩

/-- Those who wait for an exchange go on: their completion comes on its way, and they are
to take it. -/
theorem woken (h : Engaged line free dealt p calls ledger) {generation : Nat}
    {completion : Completion}
    (hrested : ∀ call ∈ calls', call.point.carried? = none)
    (hwoken : ∀ wait ∈ p.1.waitsOf line, wait.generation = generation →
      Takes generation completion (pointOf calls' wait.call.place))
    (hother : ∀ i point, pointOf calls i = some point → point ≠ .waiting generation →
      pointOf calls' i = some point)
    (hwaits : q.1.waitsOf line = (p.1.waitsOf line).filter (·.generation ≠ generation))
    (hcompletions : completionsOf line q = completionsOf line p ++
      ((p.1.waitsOf line).filter (·.generation = generation)).map
        fun wait => (generation, wait.call, completion)) :
    Engaged line free dealt q calls' ledger := by
  refine ⟨hrested, fun wait hwait => ?_, fun c hc => ?_, ?_, fun i stage hmem => ?_⟩
  · rw [hwaits] at hwait
    obtain ⟨hwait, hne⟩ := List.mem_filter.1 hwait
    obtain ⟨hfree, hpoint⟩ := h.waits wait hwait
    refine ⟨hfree, hother _ _ hpoint fun heq => of_decide_eq_true hne ?_⟩
    cases heq
    rfl
  · rw [hcompletions] at hc
    rcases List.mem_append.1 hc with hc | hc
    · obtain ⟨hfree, htakes⟩ := h.completions c hc
      refine ⟨hfree, ?_⟩
      rcases htakes with hpoint | ⟨e, he, hpoint⟩
      · exact .inl (hother _ _ hpoint nofun)
      · exact .inr ⟨e, he, hother _ _ hpoint nofun⟩
    · obtain ⟨wait, hwait, rfl⟩ := List.mem_map.1 hc
      obtain ⟨hwait, heq⟩ := List.mem_filter.1 hwait
      exact ⟨(h.waits wait hwait).1, hwoken wait hwait (of_decide_eq_true heq)⟩
  · -- whoever is woken passes from those who wait to the completions
    rw [hwaits, hcompletions, List.map_append, List.map_map]
    refine (List.Perm.nodup_iff ?_).2 h.apart
    have hsplit := (List.filter_append_perm (fun wait : Wait => wait.generation = generation)
      (p.1.waitsOf line)).map (·.call.place)
    rw [List.map_append] at hsplit
    refine .trans ?_ (hsplit.append_right _)
    rw [List.append_assoc]
    refine .trans ?_ (List.perm_append_comm_assoc _ _ _)
    refine (List.perm_append_comm.append_left _).trans (.of_eq ?_)
    simp only [ne_eq, decide_not]
    rfl
  · exact (h.requests i stage hmem).imp_right fun ⟨hfree, hsent⟩ => ⟨hfree, hother _ _ hsent nofun⟩

end Engaged

/-! ### Completions -/

/-- Waking those who wait for an exchange puts their completion on the agenda. -/
theorem wakeRelay_eq (hl : w.lines[line]? = some l) (generation : Nat) (completion : Completion) :
    w.wakeRelay line generation completion =
      { w with
        lines := w.lines.modify line fun l =>
          { l with waits := l.waits.filter (·.generation ≠ generation) }
        agenda := w.agenda ++ (l.waits.filter (·.generation = generation)).map
          fun wait => .completed line generation wait.call completion } := by
  have hfold : ∀ (waits : List Wait) (w : World),
      waits.foldl (fun w wait => w.later (.completed line generation wait.call completion)) w =
        { w with
          agenda := w.agenda ++
            waits.map (fun wait => .completed line generation wait.call completion) } := by
    intro waits
    induction waits with
    | nil => simp
    | cons wait waits ih =>
      intro w
      rw [List.foldl_cons, ih]
      simp [World.later]
  simp only [World.wakeRelay, hl, hfold]
  rfl

/-- The link stays when the line is undisturbed and every call is where its point says
afterwards. -/
theorem Linked.undisturbed {free' : List Nat} (h : Linked line free p calls ledger)
    (hq : Undisturbed line p q)
    (hengaged : ∀ dealt, Engaged line free dealt p calls ledger →
      Engaged line free' dealt q calls' ledger) : Linked line free' q calls' ledger := by
  obtain ⟨before, events, dealt, t, hwire, hledger, h⟩ := h
  obtain ⟨lost, hwire⟩ := hwire.undisturbed hq
  refine ⟨before, events, lost ++ dealt, t, hwire, by rw [hq.nameOf_eq, hledger], ?_⟩
  exact (hengaged dealt h).mono (List.Subset.refl _) (List.subset_append_right lost dealt)

theorem Linked.set (h : Linked line free p calls ledger) (hi : i ∈ free) {call : Call}
    (hcall : call.point.carried? = none) : Linked line free p (calls.set i call) ledger := by
  obtain ⟨before, events, dealt, t, hwire, hledger, h⟩ := h
  exact ⟨before, events, dealt, t, hwire, hledger, h.set hi hcall⟩

theorem Linked.append (h : Linked line [] p calls ledger) {call : Call}
    (hcall : call.point.carried? = none) :
    Linked line [calls.length] p (calls ++ [call]) ledger := by
  obtain ⟨before, events, dealt, t, hwire, hledger, h⟩ := h
  exact ⟨before, events, dealt, t, hwire, hledger, h.append hcall⟩

/-- A call that is free may stand nowhere. -/
theorem Linked.release (h : Linked line free p calls ledger) : Linked line [] p calls ledger := by
  obtain ⟨before, events, dealt, t, hwire, hledger, h⟩ := h
  exact ⟨before, events, dealt, t, hwire, hledger, h.mono (List.nil_subset _) (List.Subset.refl _)⟩

theorem completionsOf_later_append (jobs : List Job) (w : World) (g : Stage) :
    completionsOf line ({ w with agenda := w.agenda ++ jobs }, g) =
      completionsOf line (w, g) ++ jobs.filterMap (Job.completion? line) := by
  simp only [completionsOf, ← List.append_assoc, List.filterMap_append]

/-- Those who wait for an exchange go on. -/
theorem Linked.woken (h : Linked line free (w, g) calls ledger) {generation : Nat}
    {completion : Completion} (hrested : ∀ call ∈ calls', call.point.carried? = none)
    (hwoken : ∀ wait ∈ w.waitsOf line, wait.generation = generation →
      Takes generation completion (pointOf calls' wait.call.place))
    (hother : ∀ i point, pointOf calls i = some point → point ≠ .waiting generation →
      pointOf calls' i = some point) :
    Linked line free (w.wakeRelay line generation completion, g) calls' ledger := by
  cases hl : w.lines[line]? with
  | none =>
    have hnone : w.waitsOf line = [] := by rw [World.waitsOf, hl]; rfl
    have hsame : w.wakeRelay line generation completion = w := by simp only [World.wakeRelay, hl]
    rw [hsame]
    refine h.undisturbed (.refl line _) fun dealt h => h.woken hrested hwoken hother ?_ ?_
    · simp only [hnone, List.filter_nil]
    · simp only [hnone, List.filter_nil, List.map_nil, List.append_nil]
  | some l =>
    have hwaits := waitsOf_eq hl
    rw [wakeRelay_eq hl]
    refine h.undisturbed ?_ fun dealt h => h.woken hrested hwoken hother ?_ ?_
    · have hlines : Undisturbed line (w, g) (w.modifyLine line fun l =>
          { l with waits := l.waits.filter (·.generation ≠ generation) }, g) :=
        .of_modify line (fun l => { l with waits := l.waits.filter (·.generation ≠ generation) })
          (fun _ _ => rfl) rfl rfl List.prefix_rfl
      refine ⟨hlines.wire, ?_, List.prefix_rfl⟩
      have hquiet : ((l.waits.filter (·.generation = generation)).map fun wait =>
          Job.completed line generation wait.call completion).filter (·.isPromiseOf line) = [] := by
        refine List.filter_eq_nil_iff.2 fun job hjob => ?_
        obtain ⟨wait, -, rfl⟩ := List.mem_map.1 hjob
        exact Bool.false_ne_true
      simp only [promisesOf, ← List.append_assoc, List.filter_append, hquiet, List.append_nil]
      exact .refl _
    · rw [hwaits, World.waitsOf]
      simp only [List.getElem?_modify, hl, if_pos]
      rfl
    · rw [hwaits]
      refine (completionsOf_later_append _ _ g).trans (congrArg₂ (· ++ ·) rfl ?_)
      rw [List.filterMap_map]
      refine (congrArg (List.filterMap · _) (funext fun wait => ?_)).trans
        (congrFun List.filterMap_eq_map _)
      exact if_pos rfl

theorem Linked.rested (h : Linked line free p calls ledger) :
    ∀ call ∈ calls, call.point.carried? = none := by
  obtain ⟨_, _, _, _, -, -, h⟩ := h
  exact h.rested

/-- The call of whoever waits is where it waits. -/
theorem Linked.pointOf_wait (h : Linked line free p calls ledger) {wait : Wait}
    (hwait : wait ∈ p.1.waitsOf line) :
    pointOf calls wait.call.place = some (.waiting wait.generation) := by
  obtain ⟨_, _, _, _, -, -, h⟩ := h
  exact (h.waits wait hwait).2

/-- A completion wakes those who wait for it. -/
theorem Linked.wake (h : Linked line free (w, g) calls ledger) (generation : Nat)
    (completion : Completion) :
    Linked line free (w.wakeRelay line generation completion, g)
      (calls.map (Call.wake generation completion)) ledger := by
  refine h.woken (fun call hcall => ?_) (fun wait hwait heq => .inl ?_)
    fun i point hpoint hne => pointOf_wake_of_ne hpoint hne completion
  · obtain ⟨before, hbefore, rfl⟩ := List.mem_map.1 hcall
    exact carried?_wake (h.rested before hbefore) generation completion
  · exact pointOf_wake (heq ▸ h.pointOf_wait hwait) completion

theorem Linked.wakes (h : Linked line free (w, g) calls ledger) {wakes : List Turn.Effect}
    (hwakes : ∀ e ∈ wakes, e.point? = none) (call : Option RelayCall) :
    Linked line free (wakes.foldl (World.onRelayEffect line call) w, g)
      (wakes.foldl Calls.wakeBy calls) ledger := by
  induction wakes generalizing w calls with
  | nil => exact h
  | cons e wakes ih =>
    obtain ⟨hwake, hrest⟩ := List.forall_mem_cons.1 hwakes
    cases e with
    | wake generation completion => exact ih (h.wake generation completion) hrest
    | send | await | done => cases hwake

/-! ### Requests and waits -/

theorem filterMap_completion?_filter (jobs : List Job) :
    (jobs.filter Job.isCompletion).filterMap (Job.completion? line) =
      jobs.filterMap (Job.completion? line) := by
  rw [List.filterMap_filter]
  refine congrArg (List.filterMap · jobs) (funext fun job => ?_)
  cases job <;> rfl

theorem completionsOf_eq (hagenda : w'.agenda.filter Job.isCompletion =
    w.agenda.filter Job.isCompletion) : completionsOf line (w', g) = completionsOf line (w, g) := by
  simp only [completionsOf, List.filterMap_append]
  rw [← filterMap_completion?_filter w'.agenda, hagenda, filterMap_completion?_filter]

theorem completionsOf_aside (h : w.Aside w') :
    (completionsOf line (w', g)).Sublist (completionsOf line (w, g)) := by
  have hfilter : ∀ agenda : List Job, agenda.filterMap (Job.completion? line) =
      (agenda.filter Job.isPromise).filterMap (Job.completion? line) := by
    intro agenda
    rw [List.filterMap_filter]
    refine congrArg (List.filterMap · agenda) (funext fun job => ?_)
    cases job <;> rfl
  simp only [completionsOf, List.filterMap_append]
  rw [hfilter w'.agenda, hfilter w.agenda]
  exact (List.Sublist.refl _).append (h.promises.filterMap _)

/-- What stands on no line is no part of the link. -/
theorem Linked.aside (h : Linked line free (w, g) calls ledger) (ha : w.Aside w') :
    Linked line free (w', g) calls ledger :=
  h.undisturbed (.of_aside ha) fun _ h =>
    h.rearranged (by rw [World.waitsOf, World.waitsOf, ha.lines]) (completionsOf_aside ha)

/-- What is known of a line but its wire. -/
theorem getElem?_wireOnly (h : World.WireOnly i w w') (hl : w.lines[line]? = some l) :
    ∃ l', w'.lines[line]? = some l' ∧ l'.name = l.name ∧ l'.discovery = l.discovery ∧
      l'.waits = l.waits ∧ l'.relayCalls = l.relayCalls := by
  obtain ⟨f, hf, hfs⟩ := h.lines
  obtain ⟨hname, hdiscovery, hwaits, hcalls, -⟩ := hfs l
  rw [hf, List.getElem?_modify, hl]
  refine ⟨_, rfl, ?_⟩
  split
  · exact ⟨hname, hdiscovery, hwaits, hcalls⟩
  · exact ⟨rfl, rfl, rfl, rfl⟩

/-- A call that is free sends its request. -/
theorem Linked.submit (h : Linked line [i] (w, g) calls ledger) (hl : w.lines[line]? = some l)
    {call : RelayCall} (hplace : call.place = i) {stage : Turn.Stage}
    (hpoint : pointOf calls i = some (.sent stage)) (request : Media.Request) :
    Linked line [] (w.submitRequest line request (.relay call stage), g) calls
      (ledger.step l.name (.submit request (.call i stage))) := by
  obtain ⟨before, events, dealt, t, hwire, hledger, h⟩ := h
  obtain ⟨t', hwire⟩ := hwire.submits hl request (.relay call stage)
  have honly := World.wireOnly_submitRequest line request (.relay call stage) w
  obtain ⟨l', hl', hname, -, hwaits, -⟩ := getElem?_wireOnly honly hl
  have hpast : Traffic.callers (ledger.step l.name (.submit request (.call i stage))).past =
      Traffic.callers ledger.past ++ [.call i stage] := List.filterMap_append
  refine ⟨before, _, dealt, t', hwire, ?_, ?_⟩
  · rw [World.nameOf_eq hl', hname, hledger, World.nameOf_eq hl, ← hplace]
    simp only [asClients, List.map_append, Ledger.run, List.foldl_append]
    rfl
  · have hmoved : Engaged line [i] dealt
        (w.submitRequest line request (.relay call stage), g) calls ledger := by
      refine h.rearranged ?_ ?_
      · exact (waitsOf_eq hl').trans (hwaits.trans (waitsOf_eq hl).symm)
      · exact completionsOf_eq honly.completions ▸ .refl _
    have hfree := hmoved.mono (List.nil_subset _) (List.Subset.refl _)
    refine ⟨hfree.rested, hfree.waits, hfree.completions, hfree.apart, fun j other hmem => ?_⟩
    rw [hpast] at hmem
    rcases List.mem_append.1 hmem with hmem | hmem
    · exact hfree.requests j other hmem
    · cases List.mem_singleton.1 hmem
      exact .inr ⟨List.not_mem_nil, hpoint⟩

/-- A call that is free waits for a completion. -/
theorem Linked.await (h : Linked line [i] (w, g) calls ledger) (hl : w.lines[line]? = some l)
    {call : RelayCall} (hplace : call.place = i) {generation : Nat}
    (hpoint : pointOf calls i = some (.waiting generation)) :
    Linked line [] (w.awaitRelay line generation call, g) calls ledger := by
  generalize hv : w.modifyLine line (fun l => { l with
    waits := l.waits ++
      [{ generation, call, deadline := w.now + w.settings.turnDiscoveryTimeout * 1000 }] }) = v
  have hquiet : Undisturbed line (w, g) (v, g) := by
    rw [← hv]
    refine .of_modify line _ ?_ rfl rfl List.prefix_rfl
    exact fun _ _ => rfl
  have hwaits : v.waitsOf line = w.waitsOf line ++
      [{ generation, call, deadline := w.now + w.settings.turnDiscoveryTimeout * 1000 }] := by
    rw [waitsOf_eq hl, ← hv]
    exact waitsOf_eq (getElem?_modifyLine_self hl _)
  have hcompletions : completionsOf line (v, g) = completionsOf line (w, g) := by
    rw [← hv]
    rfl
  have hlinked : Linked line [] (v, g) calls ledger := by
    refine h.undisturbed hquiet fun dealt h => ?_
    have hfree := h.mono (List.nil_subset [i]) (List.Subset.refl _)
    refine ⟨h.rested, fun wait hwait => ?_, ?_, ?_, hfree.requests⟩
    · rcases List.mem_append.1 (hwaits ▸ hwait) with hold | hnew
      · exact hfree.waits wait hold
      · rw [List.mem_singleton.1 hnew]
        exact ⟨List.not_mem_nil, hplace ▸ hpoint⟩
    · rw [hcompletions]
      exact hfree.completions
    · -- nobody else stands in the place of the call
      rw [hwaits, hcompletions, List.map_append, List.append_assoc]
      refine List.perm_middle.nodup_iff.2 (List.nodup_cons.2 ⟨fun hmem => ?_, h.apart⟩)
      rcases List.mem_append.1 hmem with hmem | hmem
      · obtain ⟨wait, hwait, heq⟩ := List.mem_map.1 hmem
        exact (h.waits wait hwait).1 (List.mem_singleton.2 (heq.trans hplace))
      · obtain ⟨c, hc, heq⟩ := List.mem_map.1 hmem
        exact (h.completions c hc).1 (List.mem_singleton.2 (heq.trans hplace))
  simp only [World.awaitRelay, hv]
  split
  · exact hlinked.aside (World.aside_next rfl v)
  · exact hlinked

/-! ### All that a call asks for -/

/-- What nothing that relay discovery asks for changes about a line. -/
def Line.head (l : Line) : String × Turn.Discovery × Nat := (l.name, l.discovery, l.relayCalls)

theorem head_modify {f : Line → Line} {j : Nat} (hlines : w'.lines = w.lines.modify j f)
    (hf : ∀ l, (f l).head = l.head) :
    (w'.lines[line]?).map Line.head = (w.lines[line]?).map Line.head := by
  rw [hlines, List.getElem?_modify, Option.map_eq_map, Option.map_map]
  refine congrArg (Option.map · _) (funext fun l => ?_)
  rw [Function.comp_apply]
  split
  · exact hf l
  · rfl

theorem head_onRelayEffect (call : Option RelayCall) (w : World) (e : Turn.Effect) :
    ((w.onRelayEffect line call e).lines[line]?).map Line.head =
      (w.lines[line]?).map Line.head := by
  cases e with
  | wake generation completion =>
    rw [World.onRelayEffect]
    cases hl : w.lines[line]? with
    | none => simp only [World.wakeRelay, hl]
    | some l =>
      rw [← hl, wakeRelay_eq hl]
      exact head_modify rfl fun _ => rfl
  | send request stage =>
    cases call with
    | none => rfl
    | some call =>
      obtain ⟨f, hf, hfs⟩ := (World.wireOnly_submitRequest line request (.relay call stage) w).lines
      refine head_modify hf fun l => ?_
      obtain ⟨hname, hdiscovery, -, hcalls, -⟩ := hfs l
      rw [Line.head, Line.head, hname, hdiscovery, hcalls]
  | await generation =>
    cases call with
    | none => rfl
    | some call =>
      simp only [World.onRelayEffect, World.awaitRelay]
      split <;> exact head_modify rfl fun _ => rfl
  | done result =>
    cases call with
    | none => rfl
    | some call =>
      obtain ⟨place, caller⟩ := call
      cases caller <;> rfl

theorem head_effects (call : Option RelayCall) (effects : List Turn.Effect) (w : World) :
    ((effects.foldl (World.onRelayEffect line call) w).lines[line]?).map Line.head =
      (w.lines[line]?).map Line.head := by
  induction effects generalizing w with
  | nil => rfl
  | cons e effects ih => exact (ih _).trans (head_onRelayEffect call w e)

/-- The line after a use of relay discovery. -/
theorem head_settleRelay (hl : w.lines[line]? = some l) (call : Option RelayCall)
    (step : Turn.Discovery → Outcome Turn.Discovery Turn.Effect) :
    ((w.settleRelay line call step).lines[line]?).map Line.head =
      some (l.name, (step l.discovery).state, l.relayCalls) := by
  simp only [World.settleRelay, hl]
  refine (head_effects call _ _).trans ?_
  show Option.map Line.head (World.lines (w.modifyLine line _))[line]? = _
  rw [getElem?_modifyLine_self hl]
  rfl

theorem foldl_submitBy_wakes {wakes : List Turn.Effect} (hwakes : ∀ e ∈ wakes, e.point? = none)
    (name : String) (i : Nat) (ledger : Ledger Client) :
    wakes.foldl (Calls.submitBy name i) ledger = ledger := by
  induction wakes with
  | nil => rfl
  | cons e wakes ih =>
    obtain ⟨hwake, hrest⟩ := List.forall_mem_cons.1 hwakes
    cases e with
    | wake => exact ih hrest
    | send | await | done => cases hwake

/-- All that a call asks for keeps the link, and leaves it where its last effect says. -/
theorem Linked.effects (h : Linked line [i] (w, g) calls ledger) (hl : w.lines[line]? = some l)
    {call : RelayCall} (hplace : call.place = i) (hi : i < calls.length)
    {effects : List Turn.Effect}
    (hasks : Turn.Asks effects) {c : Call} (hpoint : c.point = .resumed effects) :
    Linked line [] (effects.foldl (World.onRelayEffect line (some call)) w, g)
      ((effects.foldl Calls.wakeBy calls).set i c)
        (effects.foldl (Calls.submitBy l.name i) ledger) := by
  obtain ⟨wakes, last, rfl, hwakes, hlast⟩ := hasks
  have hnone := List.findSome?_eq_none_iff.2 hwakes
  have hlength : i < (wakes.foldl Calls.wakeBy calls).length := by
    rwa [Calls.length_foldl_wakeBy]
  have hhead := @head_effects line (some call) wakes w
  rw [hl] at hhead
  obtain ⟨l', hl', hhead⟩ := Option.map_eq_some_iff.1 hhead
  have hname : l'.name = l.name := congrArg Prod.fst hhead
  have hset : ∀ point, c.point = point → point.carried? = none →
      Linked line [i] (wakes.foldl (World.onRelayEffect line (some call)) w, g)
        ((wakes.foldl Calls.wakeBy calls).set i c) ledger := fun point heq hcarried =>
    (h.wakes hwakes (some call)).set (List.mem_singleton.2 rfl) (heq ▸ hcarried)
  rw [Point.resumed, List.findSome?_append, hnone, Option.none_or] at hpoint
  simp only [List.foldl_append, foldl_submitBy_wakes hwakes]
  cases last with
  | none => exact (hset _ hpoint rfl).release
  | some e =>
    have hc : pointOf ((wakes.foldl Calls.wakeBy calls).set i c) i = some c.point :=
      pointOf_set_self hlength c
    cases e with
    | wake => exact absurd rfl (hlast _ rfl)
    | send request stage =>
      rw [hpoint] at hc
      exact hname ▸ (hset _ hpoint rfl).submit hl' hplace hc request
    | await generation =>
      rw [hpoint] at hc
      exact (hset _ hpoint rfl).await hl' hplace hc
    | done result =>
      have hlinked := (hset _ hpoint rfl).release
      exact hlinked.aside (World.aside_concludeRelay _ result _)

/-- What a line has of relay discovery besides those who wait is no part of the link. -/
theorem Linked.modifyLine (h : Linked line free (w, g) calls ledger) (hl : w.lines[line]? = some l)
    {f : Line → Line} (hf : ∀ l, (f l).wire = l.wire ∧ (f l).waits = l.waits) :
    Linked line free (w.modifyLine line f, g) calls ledger := by
  refine h.undisturbed (.of_modify line f (fun _ l => (hf l).1) rfl rfl List.prefix_rfl) fun _ h =>
    h.rearranged ?_ (.refl _)
  exact (waitsOf_eq (getElem?_modifyLine_self hl f)).trans ((hf l).2.trans (waitsOf_eq hl).symm)

/-- A use of relay discovery on behalf of a call keeps the link. -/
theorem Linked.settle {x x' : Calls} (h : Linked line [i] (w, g) calls x.line)
    (hl : w.lines[line]? = some l) {call : RelayCall} (hplace : call.place = i)
    (hi : i < calls.length) {step : Turn.Discovery → Outcome Turn.Discovery Turn.Effect}
    (hasks : Turn.Asks (step l.discovery).effects) {c : Call}
    (harrives : Calls.Arrives l.name i c calls x.line (.of (step l.discovery)) x') :
    Linked line [] (w.settleRelay line (some call) step, g) x'.calls x'.line := by
  rw [harrives.calls, harrives.line]
  simp only [World.settleRelay, hl]
  have hkept := (h.modifyLine hl (f := fun l' => { l' with discovery := (step l.discovery).state })
    fun _ => ⟨rfl, rfl⟩).aside (World.aside_measure (step l.discovery).metrics _)
  exact hkept.effects (l := { l with discovery := (step l.discovery).state })
    (getElem?_modifyLine_self hl _) hplace hi hasks rfl

/-- A use of relay discovery that only wakes others keeps the link. -/
theorem Linked.settleWakes (h : Linked line free (w, g) calls ledger) (hl : w.lines[line]? = some l)
    (step : Turn.Discovery → Outcome Turn.Discovery Turn.Effect)
    (hwakes : ∀ e ∈ (step l.discovery).effects, e.point? = none) (call : Option RelayCall) :
    Linked line free (w.settleRelay line call step, g)
      ((step l.discovery).effects.foldl Calls.wakeBy calls) ledger := by
  simp only [World.settleRelay, hl]
  have hkept := (h.modifyLine hl (f := fun l' => { l' with discovery := (step l.discovery).state })
    fun _ => ⟨rfl, rfl⟩).aside (World.aside_measure (step l.discovery).metrics _)
  exact hkept.wakes hwakes call

/-! ### Calls that go on -/

/-- A call leaves its place. -/
theorem Engaged.leave {dealt' : List (Waiter × Except TransportError Media.Response)}
    (h : Engaged line [] dealt p calls ledger) (hdealt : dealt ⊆ dealt')
    (hwaits : (q.1.waitsOf line).Sublist (p.1.waitsOf line))
    (hcompletions : (completionsOf line q).Sublist (completionsOf line p))
    (hgone : i ∉ (q.1.waitsOf line).map (·.call.place) ++ (completionsOf line q).map (·.2.1.place))
    (hrequests : ∀ stage, .call i stage ∈ Traffic.callers ledger.past →
      pointOf calls i = some (.sent stage) → .call i stage ∈ dealt'.map (·.1.client)) :
    Engaged line [i] dealt' q calls ledger := by
  refine ⟨h.rested, fun wait hwait => ⟨fun hmem => hgone ?_, ?_⟩,
    fun c hc => ⟨fun hmem => hgone ?_, ?_⟩,
    h.apart.sublist ((hwaits.map _).append (hcompletions.map _)), fun j stage hmem => ?_⟩
  · rw [← List.mem_singleton.1 hmem]
    exact List.mem_append_left _ (List.mem_map_of_mem hwait)
  · exact (h.waits wait (hwaits.subset hwait)).2
  · rw [← List.mem_singleton.1 hmem]
    exact List.mem_append_right _ (List.mem_map_of_mem hc)
  · exact (h.completions c (hcompletions.subset hc)).2
  · rcases h.requests j stage hmem with hold | ⟨-, hpoint⟩
    · exact .inl (List.map_subset _ hdealt hold)
    · by_cases hj : j = i
      · subst hj
        exact .inl (hrequests stage hmem hpoint)
      · exact .inr ⟨fun hi => hj (List.mem_singleton.1 hi), hpoint⟩

/-- The ledger that is linked to a line is one of the calls' names for what happened there. -/
theorem traffic_asClients {before : List Media.OutboundRequest}
    {events : List (Traffic.Event Waiter)} {t : Traffic Waiter}
    (h : Conveyed line before events dealt p t) :
    (Ledger.run (p.1.nameOf line) (asClients events) {}).traffic = t.map Waiter.client := by
  have hnew : ({} : Traffic Client) = Traffic.map Waiter.client {} := rfl
  rw [Ledger.traffic_run, h.run, ← Traffic.run_map, ← hnew]
  rfl

/-- Whoever was answered had submitted a request. -/
theorem mem_callers_of_answered {name : String} {events : List (Traffic.Event Client)}
    {client : Client} {result : Except TransportError Media.Response}
    (h : (client, result) ∈ (Ledger.run name events ({} : Ledger Client)).traffic.answered) :
    client ∈ Traffic.callers events := by
  rw [Ledger.traffic_run] at h
  refine (Traffic.everyone_run_new name events).mem_iff.1 ?_
  exact List.mem_append_right _ (List.mem_map_of_mem h)

/-- The answer that is brought to a call is the reply to its request. -/
theorem Linked.reply {x : Calls} {call : RelayCall} {stage : Turn.Stage}
    {result : Except TransportError Media.Response} (h : Linked line [] p x.calls x.line)
    (honce : Calls.SendsOnce x.calls x.line)
    (hmem : (.relay call stage, result) ∈ answersOf line p) :
    pointOf x.calls call.place = some (.sent stage) ∧ x.reply? call.place stage = some result := by
  obtain ⟨before, events, dealt, t, hwire, hledger, h⟩ := h
  have htraffic : x.line.traffic.answered = t.answered.map (Prod.map Waiter.client id) := by
    rw [hledger, traffic_asClients hwire]
    rfl
  have hanswered : (.call call.place stage, result) ∈ x.line.traffic.answered := by
    rw [htraffic]
    exact List.mem_map_of_mem (hwire.answers.mem_iff.2 (List.mem_append_left dealt hmem))
  have hsubmitted : .call call.place stage ∈ Traffic.callers x.line.past := by
    rw [hledger] at hanswered ⊢
    rw [past_run_asClients]
    exact mem_callers_of_answered hanswered
  -- the request is answered once, so its answer was not passed on before
  have hnew : .call call.place stage ∉ dealt.map (·.1.client) := by
    have hcount := honce.answered hledger call.place stage
    have hclients : x.line.traffic.answered.map Prod.fst = t.answered.map (·.1.client) := by
      rw [htraffic, List.map_map]
      rfl
    have hbrought : 0 < ((answersOf line p).map (·.1.client)).count (.call call.place stage) :=
      List.count_pos_iff.2 (List.mem_map_of_mem hmem)
    rw [hclients, (hwire.answers.map (·.1.client)).count_eq, List.map_append, List.count_append]
      at hcount
    exact List.count_eq_zero.1 (by omega)
  exact ⟨((h.requests _ _ hsubmitted).resolve_left hnew).2, honce.reply?_of_mem hledger hanswered⟩

/-- A call goes on with the answer to its request. -/
theorem Linked.takeAnswer {x : Calls} {call : RelayCall} {stage : Turn.Stage}
    {result : Except TransportError Media.Response}
    (h : Linked line [] (w, .hand (.answered line (.relay call stage) result)) x.calls x.line)
    (honce : Calls.SendsOnce x.calls x.line) :
    pointOf x.calls call.place = some (.sent stage) ∧ x.reply? call.place stage = some result ∧
      Linked line [call.place] (w, .idle) x.calls x.line := by
  have hown : answersOf line (w, .hand (.answered line (.relay call stage) result)) =
      (.relay call stage, result) :: answersOf line (w, .idle) := by
    have hpromises : promisesOf line (w, .hand (.answered line (.relay call stage) result)) =
        .answered line (.relay call stage) result :: promisesOf line (w, .idle) :=
      List.filter_cons_of_pos (decide_eq_true rfl)
    rw [answersOf, hpromises]
    rfl
  obtain ⟨hpoint, hreply⟩ := h.reply honce (hown ▸ List.mem_cons_self)
  obtain ⟨before, events, dealt, t, hwire, hledger, h⟩ := h
  obtain ⟨lost, hwire'⟩ := hwire.undisturbed (.of_drop _)
  have hlost : (.relay call stage, result) ∈ lost ++ dealt := by
    have hperm := hwire'.answers.symm.trans hwire.answers
    rw [hown, List.cons_append] at hperm
    have hcancel := (List.perm_append_left_iff _).1 (hperm.trans List.perm_middle.symm)
    exact hcancel.mem_iff.2 List.mem_cons_self
  refine ⟨hpoint, hreply, before, events, lost ++ dealt, t, hwire', hledger, ?_⟩
  refine h.leave (List.subset_append_right lost dealt) (.refl _) (.refl _) (fun hplace => ?_)
    fun other _ hother => ?_
  · rcases List.mem_append.1 hplace with hplace | hplace
    · obtain ⟨wait, hwait, heq⟩ := List.mem_map.1 hplace
      have hwaiting := (h.waits wait hwait).2
      rw [heq, hpoint] at hwaiting
      cases hwaiting
    · obtain ⟨c, hc, heq⟩ := List.mem_map.1 hplace
      have htakes := (h.completions c hc).2
      rw [heq] at htakes
      exact htakes.ne_sent hpoint
  · rw [hpoint] at hother
    cases hother
    exact List.mem_map_of_mem hlost

/-- A call goes on with its completion. -/
theorem Linked.takeCompletion {call : RelayCall} {generation : Nat} {completion : Completion}
    (h : Linked line [] (w, .hand (.completed line generation call completion)) calls ledger) :
    Takes generation completion (pointOf calls call.place) ∧
      Linked line [call.place] (w, .idle) calls ledger := by
  have hown : completionsOf line (w, .hand (.completed line generation call completion)) =
      (generation, call, completion) :: completionsOf line (w, .idle) :=
    List.filterMap_cons_some (if_pos rfl)
  have htakes : Takes generation completion (pointOf calls call.place) := by
    obtain ⟨_, _, _, _, -, -, h⟩ := h
    exact (h.completions (generation, call, completion) (hown ▸ List.mem_cons_self)).2
  refine ⟨htakes, h.undisturbed (.of_drop _) fun dealt h => ?_⟩
  refine h.leave (List.Subset.refl _) (.refl _) ?_ ?_ fun stage _ hsent => ?_
  · exact hown ▸ List.sublist_cons_self ..
  · have hapart := h.apart
    rw [hown, List.map_cons] at hapart
    exact (List.nodup_cons.1 (List.perm_middle.nodup_iff.1 hapart)).1
  · exact absurd hsent htakes.ne_sent

/-- Those who wait are told apart by the places of their calls. -/
theorem Linked.nodup_waits (h : Linked line free p calls ledger) :
    ((p.1.waitsOf line).map (·.call.place)).Nodup := by
  obtain ⟨_, _, _, _, -, -, h⟩ := h
  exact h.apart.of_append_left

/-- A call has waited for too long. -/
theorem Linked.takeWait {wait : Wait} (h : Linked line [] (w, g) calls ledger)
    (hl : w.lines[line]? = some l) (hwait : wait ∈ l.waits) (isThis : Wait → Bool)
    (hthis : ∀ other ∈ l.waits, other.call.place = wait.call.place → isThis other = true) :
    Linked line [wait.call.place]
      (w.modifyLine line fun l => { l with waits := l.waits.filter (!isThis ·) }, g)
      calls ledger := by
  have hwaits := waitsOf_eq hl
  have hpoint := h.pointOf_wait (hwaits ▸ hwait)
  refine h.undisturbed (.of_modify line _ ?_ rfl rfl List.prefix_rfl) fun dealt h => ?_
  · exact fun _ _ => rfl
  · have hkept : ((w.modifyLine line fun l =>
        { l with waits := l.waits.filter (!isThis ·) }).waitsOf line) =
          l.waits.filter (!isThis ·) :=
      waitsOf_eq (getElem?_modifyLine_self hl _)
    refine h.leave (List.Subset.refl _) ?_ (.refl _) (fun hplace => ?_) fun stage _ hsent => ?_
    · rw [hkept, hwaits]
      exact List.filter_sublist
    · rcases List.mem_append.1 hplace with hplace | hplace
      · obtain ⟨other, hother, heq⟩ := List.mem_map.1 (hkept ▸ hplace)
        obtain ⟨hmem, hnot⟩ := List.mem_filter.1 hother
        rw [hthis other hmem heq] at hnot
        cases hnot
      · obtain ⟨c, hc, heq⟩ := List.mem_map.1 hplace
        have htakes := (h.completions c hc).2
        rw [heq] at htakes
        exact htakes.ne_waiting hpoint
    · rw [hpoint] at hsent
      cases hsent

end

end CallSignaling.Scenario
