import CallSignaling.Proofs.Scenario.Engagements

/-!
# The relay discovery of a scenario

What a scenario does with the relay discovery of a line is what calls of discovery do at once, with
pushed responses and the traffic of the line between their steps.  So whatever is said of all their
interleavings holds of the line.

* `Scenario.Conversed`: a line after events at its relay discovery.
* `Scenario.Converses`: the line goes on with further events.
* `Scenario.Quiet`: only the traffic of the line goes on.

A use of relay discovery is a call that takes its steps in turn (`conversed_relay`), after a reply
that cannot be read together with those who wait for it (`run_unreadable`).  Every other move leaves
the calls alone (`conversed_move`), so that a step of a client is a number of events
(`conversed_run`), and so is a whole scenario (`discovery_of_play`).
-/

namespace CallSignaling.Scenario

open Media (Ledger Traffic)
open Turn (Call Calls Client Completion Point)

/-! ### The relation -/

/-- What relay discovery knows of a line.  Nothing has happened on a line that is not there. -/
def World.relayOf (line : Nat) (w : World) : Turn.Discovery × Nat × List Wait :=
  ((w.lines[line]?).map fun l => (l.discovery, l.relayCalls, l.waits)).getD
    ({ enabled := w.settings.turnDiscoveryEnabled }, 0, [])

/-- A line after events at its relay discovery. -/
structure Conversed (line : Nat) (past : List Calls.Event) (p : World × Stage) (x : Calls) :
    Prop where
  run : x = Calls.run (p.1.nameOf line) past
    { discovery := { enabled := p.1.settings.turnDiscoveryEnabled } }
  started : p.1.lines[line]? = none → past = []
  discovery : (p.1.relayOf line).1 = x.discovery
  places : (p.1.relayOf line).2.1 = x.calls.length
  linked : Linked line [] p x.calls x.line

/-- The line goes on with events at its relay discovery. -/
def Converses (line : Nat) (past : List Calls.Event) (q : World × Stage) : Prop :=
  ∃ more x, Conversed line (past ++ more) q x

/-- Relay discovery does nothing on a line, apart from its traffic. -/
structure Quiet (line : Nat) (p q : World × Stage) : Prop where
  name : p.1.lines[line]? = none ∨ q.1.nameOf line = p.1.nameOf line
  started : q.1.lines[line]? = none → p.1.lines[line]? = none
  relay : q.1.relayOf line = p.1.relayOf line
  completions : (completionsOf line q).Sublist (completionsOf line p)
  settings : q.1.settings = p.1.settings

section

variable {line : Nat} {past : List Calls.Event} {p q r : World × Stage} {w w' : World}
  {g g' : Stage}
  {x x' : Calls} {i : Nat} {l : Line}

theorem relayOf_eq (hl : w.lines[line]? = some l) :
    w.relayOf line = (l.discovery, l.relayCalls, l.waits) := by
  rw [World.relayOf, hl]
  rfl

theorem waitsOf_eq_relayOf (line : Nat) (w : World) : w.waitsOf line = (w.relayOf line).2.2 := by
  rw [World.waitsOf, World.relayOf]
  cases w.lines[line]? <;> rfl

/-! ### What relay discovery has nothing to do with -/

theorem Quiet.of_lines (hlines : w'.lines[line]? = w.lines[line]?)
    (hcompletions : (completionsOf line (w', g')).Sublist (completionsOf line (w, g)))
    (hsettings : w'.settings = w.settings) : Quiet line (w, g) (w', g') where
  name := .inr (by rw [World.nameOf, World.nameOf, hlines])
  started := fun hnone => hlines ▸ hnone
  relay := by rw [World.relayOf, World.relayOf, hlines, hsettings]
  completions := hcompletions
  settings := hsettings

theorem Quiet.of_modify {f : Line → Line} (hlines : w'.lines = w.lines.modify i f)
    (hf : i = line → ∀ l, (f l).head = l.head ∧ (f l).waits = l.waits)
    (hcompletions : (completionsOf line (w', g')).Sublist (completionsOf line (w, g)))
    (hsettings : w'.settings = w.settings) : Quiet line (w, g) (w', g') := by
  by_cases hi : i = line
  · have hget : w'.lines[line]? = (w.lines[line]?).map f := by
      rw [hlines, hi, List.getElem?_modify_eq]
      rfl
    cases hl : w.lines[line]? with
    | none =>
      rw [hl] at hget
      exact .of_lines (hget.trans hl.symm) hcompletions hsettings
    | some l =>
      obtain ⟨hhead, hwaits⟩ := hf hi l
      rw [hl] at hget
      have hdiscovery : (f l).discovery = l.discovery := congrArg (·.2.1) hhead
      have hcalls : (f l).relayCalls = l.relayCalls := congrArg (·.2.2) hhead
      refine ⟨.inr ?_, fun hnone => ?_, ?_, hcompletions, hsettings⟩
      · rw [World.nameOf_eq hget, World.nameOf_eq hl]
        exact congrArg Prod.fst hhead
      · cases hget.symm.trans hnone
      · rw [relayOf_eq hget, relayOf_eq hl, hdiscovery, hcalls, hwaits]
  · refine .of_lines ?_ hcompletions hsettings
    rw [hlines]
    exact List.getElem?_modify_ne f w.lines hi

theorem Quiet.of_modifyActor (i : Nat) (f : Actor → Actor)
    (hlines : w'.lines = (w.modifyActor i f).lines)
    (hcompletions : (completionsOf line (w', g')).Sublist (completionsOf line (w, g)))
    (hsettings : w'.settings = w.settings) : Quiet line (w, g) (w', g') :=
  .of_modify (f := fun l => { l with actor := l.actor.map f }) hlines (fun _ _ => ⟨rfl, rfl⟩)
    hcompletions hsettings

/-- Another job on the agenda. -/
theorem completionsOf_later {job : Job} (hjob : job.completion? line = none) (w : World)
    (g : Stage) :
    completionsOf line (w.later job, g) = completionsOf line (w, g) := by
  refine (completionsOf_later_append [job] w g).trans ?_
  rw [List.filterMap_cons_none hjob, List.filterMap_nil, List.append_nil]

/-- A job at hand is done. -/
theorem completionsOf_stage (hg : g'.jobs = [] ∨ g'.jobs = g.jobs) (w : World) :
    (completionsOf line (w, g')).Sublist (completionsOf line (w, g)) := by
  simp only [completionsOf, List.filterMap_append]
  rcases hg with hg | hg
  · rw [hg]
    exact List.sublist_append_right ..
  · exact hg ▸ List.Sublist.refl _

theorem Quiet.of_wireOnly (h : World.WireOnly i w w') (hg : g'.jobs = [] ∨ g'.jobs = g.jobs) :
    Quiet line (w, g) (w', g') := by
  obtain ⟨f, hf, hfs⟩ := h.lines
  have hcompletions : completionsOf line (w', g) = completionsOf line (w, g) :=
    completionsOf_eq h.completions
  refine .of_modify hf (fun _ l => ?_) (hcompletions ▸ completionsOf_stage hg w') h.settings
  obtain ⟨hname, hdiscovery, hwaits, hcalls, -⟩ := hfs l
  exact ⟨by rw [Line.head, Line.head, hname, hdiscovery, hcalls], hwaits⟩

/-- A line that is new has a relay discovery where nothing has happened yet. -/
theorem Quiet.of_start (name : String) : Quiet line (w, g) (w.startMeeting name, g) := by
  by_cases hline : line = w.lines.length
  · have hnone : w.lines[line]? = none := List.getElem?_eq_none (Nat.le_of_eq hline.symm)
    obtain ⟨l, hl, -⟩ := World.getElem?_startMeeting name w
    rw [← hline] at hl
    refine ⟨.inl hnone, fun h => hnone, ?_, .refl _, rfl⟩
    have hnew : (w.startMeeting name).relayOf line =
        ({ enabled := w.settings.turnDiscoveryEnabled }, 0, []) := by
      rw [World.relayOf, hline]
      show Option.getD (Option.map _ (w.lines ++ [_])[w.lines.length]?) _ = _
      rw [List.getElem?_concat_length]
      rfl
    rw [hnew, World.relayOf, hnone]
    rfl
  · exact .of_lines (World.getElem?_startMeeting_of_ne hline name) (.refl _) rfl

/-- A change that is none of the relay discovery of the line. -/
theorem quiet_change {relays : Nat → Prop} {books : Prop} (hchange : Change relays books w w')
    (hline : ¬relays line) : Quiet line (w, g) (w', g) := by
  cases hchange with
  | aside h => exact .of_lines (by rw [h.lines]) (completionsOf_aside h) h.settings
  | @note i hi _ _ => exact .of_modify rfl (fun heq => absurd (heq ▸ hi) hline) (.refl _) rfl
  | @complete i hi generation call completion =>
    have hnone : (Job.completed i generation call completion).completion? line = none :=
      if_neg fun heq : i = line => hline (heq ▸ hi)
    exact .of_lines rfl (completionsOf_later hnone w g ▸ .refl _) rfl
  | submit i request _ => exact .of_wireOnly (World.wireOnly_submitRequest i request _ w) (.inr rfl)
  | depart i => exact .of_wireOnly (World.wireOnly_depart i w) (.inr rfl)
  | shift i _ => exact .of_modifyActor i _ rfl (.refl _) rfl
  | post i request caller => exact .of_modifyActor i _ rfl (.refl _) rfl
  | cancel i => exact .of_modifyActor i _ rfl (.refl _) rfl
  | lose _ => exact .of_lines rfl (.refl _) rfl
  | finish _ _ => exact .of_modifyActor _ _ rfl (.refl _) rfl
  | mark _ => exact .of_lines rfl (.refl _) rfl
  | book _ _ => exact .of_lines rfl (.refl _) rfl
  | start _ name => exact .of_start name

/-- An event of the traffic that is no request of relay discovery. -/
theorem step_wire (name : String) {event : Traffic.Event Waiter}
    (hevent : isRelayRequest event = false)
    (x : Calls) :
    x.step name (.wire (event.map Waiter.client)) =
      { x with line := x.line.step name (event.map Waiter.client) } := by
  cases event with
  | submit request waiter =>
    cases waiter with
    | relay call stage => exact absurd hevent.symm Bool.false_ne_true
    | call | mute | task => rfl
  | _ => rfl

/-- The traffic between the steps of the calls. -/
theorem run_wire (name : String) {more : List (Traffic.Event Waiter)}
    (hmore : more.any isRelayRequest = false) (x : Calls) :
    x.run name ((asClients more).map .wire) =
      { x with line := x.line.run name (asClients more) } := by
  induction more generalizing x with
  | nil => rfl
  | cons event more ih =>
    rw [List.any_cons, Bool.or_eq_false_iff] at hmore
    rw [asClients, List.map_cons, List.map_cons, Calls.run_cons, step_wire name hmore.1]
    exact ih hmore.2 _

/-- Nobody but relay discovery has requests for it. -/
theorem not_mem_callers {more : List (Traffic.Event Waiter)}
    (hmore : more.any isRelayRequest = false)
    (i : Nat) (stage : Turn.Stage) : .call i stage ∉ Traffic.callers (asClients more) := by
  intro hmem
  obtain ⟨event, hevent, heq⟩ := List.mem_filterMap.1 hmem
  obtain ⟨own, hown, rfl⟩ := List.mem_map.1 hevent
  have hnone := List.any_eq_false.1 hmore own hown
  cases own with
  | submit request waiter =>
    cases waiter with
    | relay call stage' => exact hnone rfl
    | call | mute | task => cases heq
  | _ => cases heq

/-- Where relay discovery does nothing, its calls only see the traffic. -/
theorem Conversed.quiet (h : Conversed line past p x) (hq : Quiet line p q)
    (hfollows : ∀ {before events dealt t}, Conveyed line before events dealt p t →
      Follows False line before events dealt q) : Converses line past q := by
  obtain ⟨before, events, dealt, t, hwire, hledger, hengaged⟩ := h.linked
  obtain ⟨more, lost, t', hmore, hwire'⟩ := hfollows hwire
  have hmore : more.any isRelayRequest = false := Bool.eq_false_iff.2 hmore
  -- nothing has happened on a line that is not there, whatever its name
  have hname : ∀ {β : Type} (f : String → List (Traffic.Event Waiter) → List Calls.Event → β),
      f (p.1.nameOf line) [] [] = f (q.1.nameOf line) [] [] →
      f (p.1.nameOf line) events past = f (q.1.nameOf line) events past := by
    intro β f hf
    rcases hq.name with hnone | heq
    · rw [hwire.started hnone, h.started hnone]
      exact hf
    · rw [heq]
  have hx : x = Calls.run (q.1.nameOf line) past
      { discovery := { enabled := q.1.settings.turnDiscoveryEnabled } } := by
    rw [hq.settings]
    exact h.run.trans (hname (fun name _ past => Calls.run name past _) rfl)
  have hline : x.line = Ledger.run (q.1.nameOf line) (asClients events) {} :=
    hledger.trans (hname (fun name events _ => Ledger.run name (asClients events) {}) rfl)
  refine ⟨(asClients more).map .wire,
    { x with line := x.line.run (q.1.nameOf line) (asClients more) }, ?_, fun hnone => ?_, ?_, ?_,
    before, events ++ more, lost ++ dealt, t', hwire', ?_, ?_⟩
  · rw [Calls.run_append, ← hx, run_wire _ hmore]
  · have hpast := h.started (hq.started hnone)
    obtain ⟨-, rfl⟩ := List.append_eq_nil_iff.1 (hwire'.started hnone)
    rw [hpast]
    rfl
  · rw [hq.relay]
    exact h.discovery
  · rw [hq.relay]
    exact h.places
  · show x.line.run (q.1.nameOf line) (asClients more) = _
    rw [hline, asClients, asClients, asClients, List.map_append]
    exact List.foldl_append.symm
  · have hmoved :=
      (hengaged.mono (List.Subset.refl []) (List.subset_append_right lost dealt)).rearranged
      (q := q) (by rw [waitsOf_eq_relayOf, waitsOf_eq_relayOf, hq.relay]) hq.completions
    refine { hmoved with requests := fun i stage hmem => hmoved.requests i stage ?_ }
    have hpast : (x.line.run (q.1.nameOf line) (asClients more)).past =
        x.line.past ++ asClients more := Ledger.past_run ..
    rw [hpast, Traffic.callers, List.filterMap_append] at hmem
    exact (List.mem_append.1 hmem).resolve_right (not_mem_callers hmore i stage)

theorem Converses.refl (h : Conversed line past p x) : Converses line past p :=
  ⟨[], x, (List.append_nil past).symm ▸ h⟩

theorem Converses.trans (h : Converses line past q)
    (hnext : ∀ {past x}, Conversed line past q x → Converses line past r) :
    Converses line past r := by
  obtain ⟨more, x, h⟩ := h
  obtain ⟨more', x', h'⟩ := hnext h
  exact ⟨more ++ more', x', by rwa [← List.append_assoc]⟩

theorem conversed_change {relays : Nat → Prop} {books : Prop} (hchange : Change relays books w w')
    (hline : ¬relays line) (h : Conversed line past (w, g) x) : Converses line past (w', g) :=
  h.quiet (quiet_change hchange hline) fun hwire => (conveyed_change hchange hwire).mono hline

theorem converses_changes {relays : Nat → Prop} {books : Prop}
    (hchanges : Changes relays books w w')
    (hline : ¬relays line) (h : Converses line past (w, g)) : Converses line past (w', g) :=
  hchanges.induction (P := fun v => Converses line past (v, g))
    (fun _ _ hchange h => h.trans (conversed_change hchange hline)) h

/-- The scenario goes on to another stage. -/
theorem Conversed.stage (h : Conversed line past (w, g) x) (hg : g'.jobs = [] ∨ g'.jobs = g.jobs) :
    Converses line past (w, g') :=
  h.quiet (.of_lines rfl (completionsOf_stage hg w) rfl) fun hwire => hwire.follows (.of_stage hg)

/-! ### Uses of relay discovery -/

theorem settings_settleRelay (call : Option RelayCall)
    (operation : Turn.Discovery → Outcome Turn.Discovery Turn.Effect) (w : World) :
    (w.settleRelay line call operation).settings = w.settings :=
  (World.settings_of_changes
    (@World.changes_settleRelay (Eq line) False line rfl call operation w)).1

theorem Conversed.discovery_eq (h : Conversed line past (w, g) x) (hl : w.lines[line]? = some l) :
    l.discovery = x.discovery ∧ l.relayCalls = x.calls.length := by
  have hrelay := relayOf_eq hl
  exact ⟨(congrArg (·.1) hrelay).symm.trans h.discovery,
    (congrArg (·.2.1) hrelay).symm.trans h.places⟩

theorem Conversed.sendsOnce (h : Conversed line past p x) : Calls.SendsOnce x.calls x.line := by
  rw [h.run]
  exact Calls.sendsOnce_run _ _ past

/-- Events at the relay discovery of a line, with what has to be seen of the line after them. -/
theorem Conversed.step (h : Conversed line past (w, g) x) (hl : w.lines[line]? = some l)
    (more : List Calls.Event) (hx' : x.run l.name more = x') (hsettings : w'.settings = w.settings)
    (hhead : (w'.lines[line]?).map Line.head = some (l.name, x'.discovery, x'.calls.length))
    (hlinked : Linked line [] (w', g') x'.calls x'.line) : Converses line past (w', g') := by
  obtain ⟨l', hl', hhead⟩ := Option.map_eq_some_iff.1 hhead
  have hname : l'.name = l.name := congrArg Prod.fst hhead
  refine ⟨more, x', ?_, fun hnone => ?_, ?_, ?_, hlinked⟩
  · have hrun := h.run
    rw [World.nameOf_eq hl] at hrun
    rw [World.nameOf_eq hl', hname, hsettings, Calls.run_append, ← hrun, hx']
  · cases hl'.symm.trans hnone
  · rw [relayOf_eq hl']
    exact congrArg (·.2.1) hhead
  · rw [relayOf_eq hl']
    exact congrArg (·.2.2) hhead

/-- An operation on behalf of a call that is about to go on. -/
theorem Conversed.operates (h : Conversed line past (w, g) x) (hl : w.lines[line]? = some l)
    {v : World} {lv : Line} (hv : v.lines[line]? = some lv) (hsettings : v.settings = w.settings)
    {calls : List Call} (hhead : lv.head = (l.name, l.discovery, calls.length)) {call : RelayCall}
    (hlinked : Linked line [call.place] (v, g') calls x.line) (hplace : call.place < calls.length)
    {operation : Turn.Discovery → Outcome Turn.Discovery Turn.Effect}
    (hasks : Turn.Asks (operation x.discovery).effects) {more : List Calls.Event} {c : Call}
    (harrives : Calls.Arrives l.name call.place c calls x.line (.of (operation x.discovery))
      (x.run l.name more)) :
    Converses line past (v.settleRelay line (some call) operation, g') := by
  obtain ⟨hdiscovery, -⟩ := h.discovery_eq hl
  have hlv : lv.discovery = x.discovery := (congrArg (·.2.1) hhead).trans hdiscovery
  have hname : lv.name = l.name := congrArg (·.1) hhead
  have hcount : lv.relayCalls = calls.length := congrArg (·.2.2) hhead
  have hlength : (x.run l.name more).calls.length = calls.length := by
    rw [harrives.calls, List.length_set, Calls.length_foldl_wakeBy]
  refine h.step hl more rfl ?_ ?_ ?_
  · exact (settings_settleRelay (some call) operation v).trans hsettings
  · rw [head_settleRelay hv, hname, hcount, hlength, hlv, harrives.discovery]
    rfl
  · exact hlinked.settle hv rfl hplace (hlv ▸ hasks) (by rw [hname, hlv]; exact harrives)

/-- A call learns the answer to its request. -/
theorem Conversed.answered {call : RelayCall} {stage : Turn.Stage}
    {result : Except TransportError Media.Response} (hl : w.lines[line]? = some l)
    (h : Conversed line past (w, .hand (.answered line (.relay call stage) result)) x) :
    Converses line past (w.settleRelay line (some call) (·.onAnswer stage result), .idle) := by
  obtain ⟨hpoint, hreply, hlinked⟩ := h.linked.takeAnswer h.sendsOnce
  obtain ⟨c, hc, hpoint⟩ := Option.map_eq_some_iff.1 hpoint
  have harrives :=
    ((Calls.operations_at_once l.name x).1 call.place c hc).1 stage result hpoint hreply
  refine h.operates hl hl rfl ?_ hlinked (Calls.lt_length hc)
    (x.discovery.asks_onAnswer stage result) harrives
  rw [← (h.discovery_eq hl).2]
  rfl

/-- The completion of the exchange of a call is there. -/
theorem Conversed.completed {call : RelayCall} {generation : Nat} {completion : Completion}
    (hl : w.lines[line]? = some l)
    (h : Conversed line past (w, .hand (.completed line generation call completion)) x) :
    Converses line past (w.completeRelay line generation call completion, .idle) := by
  obtain ⟨htakes, hlinked⟩ := h.linked.takeCompletion
  have hhead : l.head = (l.name, l.discovery, x.calls.length) := by
    rw [← (h.discovery_eq hl).2]
    rfl
  rcases htakes with hpoint | ⟨e, rfl, hpoint⟩
  · obtain ⟨c, hc, hpoint⟩ := Option.map_eq_some_iff.1 hpoint
    exact h.operates hl hl rfl hhead hlinked (Calls.lt_length hc)
      (x.discovery.asks_onCompletion generation completion)
      (((Calls.operations_at_once l.name x).1 call.place c hc).2.1 generation completion hpoint)
  · -- the call has found out by itself that nobody will complete its exchange
    obtain ⟨c, hc, hpoint⟩ := Option.map_eq_some_iff.1 hpoint
    have harrives : Calls.Arrives l.name call.place c x.calls x.line
        (.of (x.discovery.onCompletion generation (.error e)))
        (x.run l.name (Calls.toRest call.place)) := by
      have hfinish := Turn.Discovery.finish_eq generation (.error e) x.discovery
      rw [show x.discovery.onCompletion generation (.error e) =
        x.discovery.finish generation (.error e) from rfl, hfinish]
      exact (Calls.arrives_here hc hpoint).run (Calls.lt_length hc) _
    exact h.operates hl hl rfl hhead hlinked (Calls.lt_length hc)
      (x.discovery.asks_onCompletion generation (.error e)) harrives

/-- A call has waited for too long, unless it does not wait any more. -/
theorem Conversed.expire (h : Conversed line past (w, g) x) (hl : w.lines[line]? = some l)
    (generation : Nat) (call : RelayCall) :
    Converses line past (w.expireRelay line generation call, g) := by
  simp only [World.expireRelay, hl]
  split
  · rename_i hany
    obtain ⟨wait, hwait, hthis⟩ := List.any_eq_true.1 hany
    have hwaits : wait ∈ w.waitsOf line := (waitsOf_eq hl).symm ▸ hwait
    have hlinked := h.linked.takeWait hl hwait
      (fun other => other.generation = generation && other.call = call)
        fun other hother hplace => by
        have heq := List.inj_on_of_nodup_map h.linked.nodup_waits
          ((waitsOf_eq hl).symm ▸ hother) hwaits hplace
        exact heq ▸ hthis
    have hpoint := h.linked.pointOf_wait hwaits
    rw [Bool.and_eq_true, decide_eq_true_eq, decide_eq_true_eq] at hthis
    obtain ⟨rfl, rfl⟩ := hthis
    obtain ⟨c, hc, hpoint⟩ := Option.map_eq_some_iff.1 hpoint
    refine h.operates hl (getElem?_modifyLine_self hl _) rfl ?_ hlinked (Calls.lt_length hc)
      (x.discovery.asks_finish wait.generation (.error .timeout))
      (((Calls.operations_at_once l.name x).1 wait.call.place c hc).2.2 wait.generation hpoint)
    rw [← (h.discovery_eq hl).2]
    rfl
  · exact .refl h

/-- A call comes, and is about to take its first step. -/
theorem Conversed.comes (h : Conversed line past (w, g) x) (hl : w.lines[line]? = some l) {c : Call}
    (hc : c.point.carried? = none) :
    Linked line [x.calls.length]
      (w.modifyLine line fun l => { l with relayCalls := l.relayCalls + 1 }, g) (x.calls ++ [c])
      x.line :=
  (h.linked.append hc).modifyLine hl fun _ => ⟨rfl, rfl⟩

theorem head_comes (h : Conversed line past (w, g) x) (hl : w.lines[line]? = some l) (c : Call) :
    ({ l with relayCalls := l.relayCalls + 1 } : Line).head =
      (l.name, l.discovery, (x.calls ++ [c]).length) := by
  rw [List.length_append, ← (h.discovery_eq hl).2]
  rfl

/-- A call comes and does what the operation does. -/
theorem Conversed.begins (h : Conversed line past (w, g) x) (hl : w.lines[line]? = some l)
    (caller : RelayCaller) {operation : Turn.Discovery → Outcome Turn.Discovery Turn.Effect}
    (hasks : Turn.Asks (operation x.discovery).effects) {more : List Calls.Event}
    {origin : Turn.Origin} {exchange : Option Nat}
    (harrives : Calls.Arrives l.name x.calls.length (.fresh origin exchange)
      (x.calls ++ [.fresh origin exchange]) x.line (.of (operation x.discovery))
      (x.run l.name more)) :
    Converses line past (w.callRelay line (some caller) operation, g) := by
  have hlinked := h.comes hl (c := .fresh origin exchange) rfl
  have hlength : x.calls.length < (x.calls ++ [Call.fresh origin exchange]).length := by simp
  rw [← (h.discovery_eq hl).2] at hlinked harrives hlength
  simp only [World.callRelay, hl, Option.map_some]
  exact h.operates hl (getElem?_modifyLine_self hl _) rfl (head_comes h hl _) hlinked hlength hasks
    harrives

theorem Conversed.discover (h : Conversed line past (w, g) x) (hl : w.lines[line]? = some l)
    (call : Nat) (reconnecting forced : Bool) :
    Converses line past (w.discover line call reconnecting forced, g) :=
  h.begins hl (.discover call)
    (x.discovery.asks_discover reconnecting forced w.environment.reachable)
    ((Calls.operations_at_once l.name x).2.1 reconnecting forced w.environment.reachable)

/-- A response is pushed. -/
theorem Conversed.push (h : Conversed line past (w, g) x) (hl : w.lines[line]? = some l)
    (message : Roap.Message) : Converses line past (w.pushRelay line message, g) := by
  obtain ⟨hdiscovery, hcount⟩ := h.discovery_eq hl
  have harrives := (Calls.operations_at_once l.name x).2.2.1 message Turn.fromPush
  have hwakes := Turn.Move.point?_respond message Turn.fromPush x.discovery
  generalize hx' : x.run l.name _ = x' at harrives
  have hpoint : (Call.move (.of (x.discovery.respond message Turn.fromPush))
      (.fresh .push none)).point.carried? = none := by
    show (Point.resumed _).carried? = none
    rw [Point.resumed, List.findSome?_eq_none_iff.2 hwakes]
    rfl
  have hl' := getElem?_modifyLine_self hl fun l => { l with relayCalls := l.relayCalls + 1 }
  simp only [World.pushRelay, World.callRelay, hl, Option.map_none]
  refine h.step hl _ hx' (settings_settleRelay none _ _) ?_ ?_
  · have hlength : x'.calls.length = (x.calls ++ [Call.fresh .push none]).length := by
      rw [harrives.calls, List.length_set, Calls.length_foldl_wakeBy]
    rw [head_settleRelay hl', hlength, harrives.discovery, hdiscovery, hcount, List.length_append]
    rfl
  · have hsettled := (h.comes hl (c := .fresh .push none) rfl).settleWakes hl'
      (·.respond message Turn.fromPush) (by rw [hdiscovery]; exact hwakes) none
    have hdone := hsettled.set (List.mem_singleton.2 rfl) hpoint
    rw [harrives.calls, harrives.line]
    rw [hdiscovery] at hdone
    exact (foldl_submitBy_wakes hwakes l.name _ x.line).symm ▸ hdone.release

/-- Relay discovery is given up. -/
theorem Conversed.abort (h : Conversed line past (w, g) x) (hl : w.lines[line]? = some l) :
    Converses line past (w.abortRelay line, g) := by
  obtain ⟨hdiscovery, hcount⟩ := h.discovery_eq hl
  have hwakes := x.discovery.point?_wakeAborted
  refine h.step hl [.abort] rfl (settings_settleRelay none _ _) ?_ ?_
  · have hlength : (x.run l.name [.abort]).calls.length = x.calls.length :=
      Calls.length_foldl_wakeBy _ x.calls
    rw [World.abortRelay, head_settleRelay hl, hlength, hdiscovery, hcount]
    rfl
  · have hline : (x.run l.name [.abort]).line = x.line := foldl_submitBy_wakes hwakes _ _ x.line
    have hdone := h.linked.settleWakes hl (·.abort) (by rw [hdiscovery]; exact hwakes) none
    rw [hdiscovery] at hdone
    rw [hline]
    exact hdone

/-- The request is made for somebody who sends it themselves. -/
theorem Conversed.generate (h : Conversed line past (w, g) x) (hl : w.lines[line]? = some l)
    (call : Nat) (forced : Bool) : Converses line past (w.generate line call forced, g) := by
  obtain ⟨hdiscovery, hcount⟩ := h.discovery_eq hl
  simp only [World.generate, hl]
  refine h.step hl [.generate forced w.environment.reachable] rfl rfl ?_ ?_
  · show Option.map Line.head (World.lines (w.modifyLine line _))[line]? = _
    rw [getElem?_modifyLine_self hl, hdiscovery, Option.map_some, Line.head, hcount]
    rfl
  · have hkept := h.linked.modifyLine hl (f := fun l' =>
      { l' with discovery := (l.discovery.generate forced w.environment.reachable).1 })
      fun _ => ⟨rfl, rfl⟩
    exact hkept.aside (World.aside_conclude ..)

/-! ### Replies that are handed over -/

/-- A call finds out that nobody is left who could complete its exchange. -/
theorem step_hangUp (name : String) {generation : Nat} (hcut : x.slot.open? ≠ some generation)
    (hrested : ∀ call ∈ x.calls, call.point.carried? = none)
    (hwaiting : pointOf x.calls i = some (.waiting generation)) :
    let x' := x.step name (.call i .hangUp)
    x'.discovery = x.discovery ∧ x'.line = x.line ∧
      ∃ c : Call, c.point = .finishing generation (.error .aborted) ∧
        x'.calls = x.calls.set i c := by
  obtain ⟨c, hc, hpoint⟩ := Option.map_eq_some_iff.1 hwaiting
  have hcarried : Calls.carriedBy x.calls = [] := List.filterMap_eq_nil_iff.2 hrested
  have hisCut : x.isCut generation = true := by
    rw [Calls.isCut, hcarried, decide_eq_true hcut]
    rfl
  have hcued : x.cued i .hangUp c.point =
      some ⟨.stay x.discovery, .finishing generation (.error .aborted)⟩ := by
    rw [hpoint]
    exact if_pos hisCut
  simp only [Calls.step, hc, hcued]
  exact ⟨rfl, rfl, _, rfl, rfl⟩

/-- Those who wait for an exchange that nobody can complete any more find that out. -/
theorem run_hangUp (name : String) {generation : Nat} {places : List Nat} (hnodup : places.Nodup)
    (hcut : x.slot.open? ≠ some generation) (hrested : ∀ call ∈ x.calls, call.point.carried? = none)
    (hwaiting : ∀ j ∈ places, pointOf x.calls j = some (.waiting generation)) :
    let x' := x.run name (places.map (.call · .hangUp))
    (x'.discovery = x.discovery ∧ x'.line = x.line ∧ x'.calls.length = x.calls.length) ∧
      (∀ call ∈ x'.calls, call.point.carried? = none) ∧
      (∀ j ∈ places, pointOf x'.calls j = some (.finishing generation (.error .aborted))) ∧
      ∀ j point, pointOf x.calls j = some point → point ≠ .waiting generation →
        pointOf x'.calls j = some point := by
  induction places generalizing x with
  | nil =>
    exact ⟨⟨rfl, rfl, rfl⟩, hrested, fun _ hj => absurd hj List.not_mem_nil,
      fun _ _ hpoint _ => hpoint⟩
  | cons i places ih =>
    obtain ⟨hi, hrest⟩ := List.nodup_cons.1 hnodup
    have hown := hwaiting i List.mem_cons_self
    obtain ⟨hdiscovery, hline, c, hc, hcalls⟩ := step_hangUp name hcut hrested hown
    have hother : ∀ j, j ≠ i → pointOf (x.calls.set i c) j = pointOf x.calls j :=
      fun j hj => pointOf_set_of_ne hj.symm c
    have hset : pointOf (x.calls.set i c) i = some (.finishing generation (.error .aborted)) :=
      (pointOf_set_self (lt_of_pointOf hown) c).trans (congrArg some hc)
    obtain ⟨⟨hd, hl, hlength⟩, hrested', hplaces, hkept⟩ :=
      ih (x := x.step name (.call i .hangUp)) hrest
      (by rw [Calls.slot, hdiscovery]; exact hcut)
      (fun call hcall => by
        rcases List.mem_or_eq_of_mem_set (hcalls ▸ hcall) with hcall | rfl
        · exact hrested call hcall
        · rw [hc]
          rfl)
      (fun j hj => by
        rw [hcalls, hother j (fun heq => hi (heq ▸ hj))]
        exact hwaiting j (List.mem_cons_of_mem i hj))
    rw [hcalls] at hkept hlength
    refine ⟨⟨hd.trans hdiscovery, hl.trans hline, hlength.trans List.length_set⟩, hrested',
      fun j hj => ?_, fun j point hpoint hne => hkept j point ?_ hne⟩
    · rcases List.mem_cons.1 hj with rfl | hj
      · exact hkept j _ hset nofun
      · exact hplaces j hj
    · rw [hother j]
      · exact hpoint
      · rintro rfl
        rw [hown] at hpoint
        exact hne (Option.some.inj hpoint).symm

/-- A reply is handed over that cannot be read, and then those who wait find out that nobody will
complete their exchange. -/
theorem run_unreadable (name : String) {reply : Option Media.Response} {generation : Nat}
    {e : TurnError} (hpending : x.discovery.slot.generation? = some generation)
    (hreply : x.discovery.handOver reply = ⟨.stay x.discovery, .finishing generation (.error e)⟩)
    (hrested : ∀ call ∈ x.calls, call.point.carried? = none) {places : List Nat}
    (hnodup : places.Nodup)
    (hwaiting : ∀ j ∈ places, pointOf x.calls j = some (.waiting generation)) :
    let x' := x.run name (.handOver reply :: Calls.toRest x.calls.length ++
      places.map (.call · .hangUp))
    (x'.discovery = (x.discovery.finish generation (.error e)).state ∧ x'.line = x.line ∧
        x'.calls.length = x.calls.length + 1) ∧
      (∀ call ∈ x'.calls, call.point.carried? = none) ∧
      (∀ j ∈ places, pointOf x'.calls j = some (.finishing generation (.error .aborted))) ∧
      ∀ j point, pointOf x.calls j = some point → point ≠ .waiting generation →
        pointOf x'.calls j = some point := by
  have harrives := @Calls.arrives_handOver name x reply
  rw [hreply, ← Turn.Discovery.finish_eq] at harrives
  let fresh := Call.fresh .handOver (some generation)
  let returned := fresh.move (.of (x.discovery.finish generation (.error e)))
  intro x'
  have hx' : x' = (x.run name (.handOver reply :: Calls.toRest x.calls.length)).run name
    (places.map (.call · .hangUp)) := Calls.run_append ..
  rw [hx']
  generalize x.run name (.handOver reply :: Calls.toRest x.calls.length) = x₂ at harrives
  have hcalls : x₂.calls = (x.calls ++ [fresh]).set x.calls.length returned := harrives.calls
  have hold : ∀ {j point}, pointOf x.calls j = some point → pointOf x₂.calls j = some point := by
    intro j point hpoint
    rw [hcalls, pointOf_set_of_ne (Nat.ne_of_gt (lt_of_pointOf hpoint))]
    exact pointOf_append hpoint fresh
  have hcut : x₂.slot.open? ≠ some generation := by
    have hslot : x₂.slot = x.discovery.slot.finish generation :=
      congrArg (·.slot) harrives.discovery
    rcases x.discovery.slot.finish_cases generation with ⟨hne, -⟩ | ⟨-, hfinish⟩
    · exact absurd hpending hne
    · rw [hslot, hfinish]
      exact nofun
  obtain ⟨⟨hd, hl, hlength⟩, hrested', hfinishing, hkept⟩ := run_hangUp name hnodup hcut
    (fun call hcall => by
      rcases List.mem_or_eq_of_mem_set (hcalls ▸ hcall) with hcall | rfl
      · rcases List.mem_append.1 hcall with hcall | hcall
        · exact hrested call hcall
        · exact List.mem_singleton.1 hcall ▸ rfl
      · rfl)
    fun j hj => hold (hwaiting j hj)
  refine ⟨⟨hd.trans harrives.discovery, hl.trans harrives.line, ?_⟩, hrested', hfinishing,
    fun j point hpoint => hkept j point (hold hpoint)⟩
  rw [hlength, hcalls, List.length_set, List.length_append]
  rfl

/-- A reply is handed over that cannot be read, and somebody waits for the exchange that
ends by it. -/
theorem Conversed.hangsUp (h : Conversed line past (w, g) x) (hl : w.lines[line]? = some l)
    (caller : RelayCaller) {reply : Option Media.Response} {generation : Nat} {e : TurnError}
    (hhung : x.discovery.hungUp reply = [.wake generation (.error .aborted)])
    (hpending : x.discovery.slot.generation? = some generation)
    (hreply : x.discovery.handOver reply = ⟨.stay x.discovery, .finishing generation (.error e)⟩) :
    Converses line past (w.callRelay line (some caller) (·.httpResponse reply), g) := by
  obtain ⟨hdiscovery, hcount⟩ := h.discovery_eq hl
  have hoperation := Turn.Discovery.httpResponse_of_hungUp hhung hreply
  have hl₁ := getElem?_modifyLine_self hl fun l => { l with relayCalls := l.relayCalls + 1 }
  have hlinked₁ : Linked line [] (w.modifyLine line fun l =>
      { l with relayCalls := l.relayCalls + 1 }, g) x.calls x.line :=
    h.linked.modifyLine hl fun _ => ⟨rfl, rfl⟩
  have hlinked := hlinked₁.modifyLine hl₁ (f := fun l =>
    { l with discovery := (x.discovery.httpResponse reply).state }) fun _ => ⟨rfl, rfl⟩
  generalize hv : World.modifyLine line _ (World.modifyLine line _ w) = v at hlinked
  let places := ((v.waitsOf line).filter (·.generation = generation)).map (·.call.place)
  obtain ⟨⟨hd, hline, hlength⟩, hrested, hfinishing, hkept⟩ :=
    @run_unreadable x l.name reply generation e hpending hreply h.linked.rested places
      (hlinked.nodup_waits.sublist (List.filter_sublist.map _)) fun j hj => by
        obtain ⟨wait, hwait, rfl⟩ := List.mem_map.1 hj
        obtain ⟨hwait, heq⟩ := List.mem_filter.1 hwait
        exact of_decide_eq_true heq ▸ hlinked.pointOf_wait hwait
  have hwoken :=
    (hlinked.aside (World.aside_measure (x.discovery.httpResponse reply).metrics v)).woken
    hrested (fun wait hwait heq => .inr ⟨.aborted, rfl,
    hfinishing _ (List.mem_map_of_mem (List.mem_filter.2 ⟨hwait, decide_eq_true heq⟩))⟩) hkept
  have hsettle : w.callRelay line (some caller) (·.httpResponse reply) =
      ((v.measure (x.discovery.httpResponse reply).metrics).wakeRelay line generation
        (.error .aborted)).concludeRelay { place := l.relayCalls, caller } (.ok .failed) := by
    simp only [World.callRelay, hl, Option.map_some, World.settleRelay, hl₁, hdiscovery]
    rw [← hv, hoperation]
    rfl
  refine h.step hl (.handOver reply :: Calls.toRest x.calls.length ++ places.map (.call · .hangUp))
    rfl ?_ ?_ ?_
  · exact (World.settings_of_changes (@World.changes_callRelay (Eq line) False line rfl _ _ w)).1
  · simp only [World.callRelay, hl, Option.map_some]
    rw [head_settleRelay hl₁, hd, hlength, ← hcount, hdiscovery, hoperation]
    rfl
  · rw [hsettle, hline]
    exact hwoken.aside (World.aside_concludeRelay ..)

theorem Conversed.handOver (h : Conversed line past (w, g) x) (hl : w.lines[line]? = some l)
    (call : Nat) (reply : Option Media.Response) :
    Converses line past (w.handOver line call reply, g) := by
  rcases x.discovery.hungUp_cases reply with hnobody | ⟨generation, e, hhung, hpending, hreply⟩
  · -- nobody waits, so the call does what the operation does
    have harrives := @Calls.arrives_handOver l.name x reply
    rw [← Turn.Discovery.httpResponse_of_nobody hnobody] at harrives
    exact h.begins hl (.handOver call) (x.discovery.asks_httpResponse reply) harrives
  · exact h.hangsUp hl (.handOver call) hhung hpending hreply

/-! ### Moves -/

/-- A use of relay discovery on a line that is not there. -/
theorem RelayMove.of_none (h : RelayMove line p q) (hnone : p.1.lines[line]? = none) :
    q.1 = p.1 := by
  cases h with
  | discover | handOver | push => simp only [World.discover, World.handOver, World.pushRelay,
      World.callRelay, hnone]
  | generate => simp only [World.generate, hnone]
  | abort | answered | completed => simp only [World.abortRelay, World.completeRelay,
      World.settleRelay, hnone]
  | expire => simp only [World.expireRelay, hnone]

/-- **A use of relay discovery is what a call does at once.** -/
theorem conversed_relay (h : RelayMove line p q) (hp : Conversed line past p x) :
    Converses line past q := by
  cases hl : p.1.lines[line]? with
  | none =>
    obtain ⟨w, g⟩ := p
    obtain ⟨w', g'⟩ := q
    obtain rfl : w' = w := h.of_none hl
    exact hp.stage h.jobs
  | some l =>
    cases h with
    | discover call reconnecting forced => exact hp.discover hl call reconnecting forced
    | generate call forced => exact hp.generate hl call forced
    | handOver call reply => exact hp.handOver hl call reply
    | push message => exact hp.push hl message
    | abort => exact hp.abort hl
    | expire generation call => exact hp.expire hl generation call
    | answered => exact hp.answered hl
    | completed => exact hp.completed hl

/-- **Every move is a number of events at the relay discovery of a line.** -/
theorem conversed_move (hmove : Move p q) (h : Conversed line past p x) :
    Converses line past q := by
  by_cases hrelay : RelayMove line p q
  · exact conversed_relay hrelay h
  have hfollows : ∀ {before events dealt t}, Conveyed line before events dealt p t →
      Follows False line before events dealt q := fun hwire =>
        (conveyed_move hmove hwire).mono hrelay
  cases hmove with
  | change hchange => exact conversed_change hchange id h
  | @relay i _ _ hother =>
    have hchanges := @RelayMove.changes False _ _ _ hother
    obtain ⟨w, g⟩ := p
    obtain ⟨w', g'⟩ := q
    have hline : i ≠ line := fun hi => hrelay (hi ▸ hother)
    exact (converses_changes hchanges hline (.refl h)).trans fun h => h.stage hother.jobs
  | desk hdesk =>
    exact converses_changes (@DeskMove.changes (fun _ => False) _ _ hdesk) id (.refl h)
  | pop hagenda =>
    refine h.quiet (.of_lines rfl ?_ rfl) hfollows
    simp only [completionsOf, Stage.jobs, hagenda]
    exact .refl _
  | drop | rest | gone => exact h.stage (.inl rfl)
  | dispatch i => exact h.quiet (.of_wireOnly (World.wireOnly_dispatch i _) (.inl rfl)) hfollows
  | take | finish =>
    exact h.quiet (.of_modifyActor _ _ rfl (completionsOf_stage (.inl rfl) _) rfl) hfollows
  | @giveOut w i work owed ending =>
    have hbegin : completionsOf line (w.giveOut i work, .acting i owed ending) =
        completionsOf line (w, .acting i owed ending) :=
      @completionsOf_later line (.begin w.nextTask) rfl w _
    exact h.quiet (.of_lines rfl (hbegin ▸ .refl _) rfl) hfollows

/-! ### Runs -/

/-- What came of earlier steps is no part of relay discovery. -/
theorem Conversed.cleared (h : Conversed line past (w, g) x) :
    Conversed line past (w.cleared, g) x := by
  obtain ⟨before, events, dealt, t, hwire, hledger, hengaged⟩ := h.linked
  exact ⟨h.run, h.started, h.discovery, h.places, t.sent, events, dealt, t, hwire.cleared, hledger,
    hengaged.rearranged rfl (.refl _)⟩

theorem converses_moves (hmoves : Moves p q) (h : Conversed line past p x) :
    Converses line past q := by
  induction hmoves with
  | refl => exact .refl h
  | tail _ hmove ih => exact ih.trans (conversed_move hmove)

/-- **A step of a client is a number of events at the relay discovery of every line.** -/
theorem conversed_run (call : Nat) (step : Step) (h : Conversed line past (w, .idle) x) :
    Converses line past (w.run call step, .idle) :=
  converses_moves (World.moves_run call step w) h.cleared

/-- Nothing has happened on a line when a scenario begins. -/
theorem conversed_new (hw : w.IsNew) (line : Nat) :
    Conversed line [] (w, .idle)
      { discovery := { enabled := w.settings.turnDiscoveryEnabled } } := by
  have hrelay : w.relayOf line = ({ enabled := w.settings.turnDiscoveryEnabled }, 0, []) := by
    cases hw with
    | line | meeting => cases line <;> rfl
    | desk => rfl
  have hcompletions : completionsOf line (w, .idle) = [] := by cases hw <;> rfl
  have hwaits : w.waitsOf line = [] := by rw [waitsOf_eq_relayOf, hrelay]
  refine ⟨rfl, fun _ => rfl, by rw [hrelay], by rw [hrelay]; rfl,
    [], [], [], {}, conveyed_new hw line, rfl, ?_⟩
  refine ⟨List.forall_mem_nil _, ?_, ?_, ?_, fun i stage hmem => absurd hmem List.not_mem_nil⟩
  · rw [hwaits]
    exact List.forall_mem_nil _
  · rw [hcompletions]
    exact List.forall_mem_nil _
  · rw [hwaits, hcompletions]
    exact List.nodup_nil

theorem conversed_play (steps : List (Nat × Step)) (h : Conversed line past (w, .idle) x) :
    Converses line past (w.play steps, .idle) := by
  induction steps generalizing w past x with
  | nil => exact .refl h
  | cons s steps ih => exact (conversed_run s.1 s.2 h).trans ih

/-- **In every scenario the relay discovery of a line is one of calls**: it has the state that some
events lead to, the calls that wait for a completion are those at that point, whatever is
brought to a call is what the call goes on with, and the events at the outbox are those of
the calls' ledger. -/
theorem discovery_of_play (hw : w.IsNew) (steps : List (Nat × Step)) {l : Line}
    (hl : (w.play steps).lines[line]? = some l) :
    ∃ past,
      let x := Calls.run l.name past { discovery := { enabled := w.settings.turnDiscoveryEnabled } }
      x.discovery = l.discovery ∧ x.calls.length = l.relayCalls ∧
        (∀ wait ∈ l.waits, pointOf x.calls wait.call.place = some (.waiting wait.generation)) ∧
        (∀ c ∈ completionsOf line (w.play steps, .idle),
          Takes c.1 c.2.2 (pointOf x.calls c.2.1.place)) ∧
        (∀ call stage result, (.relay call stage, result) ∈ answersOf line (w.play steps, .idle) →
          pointOf x.calls call.place = some (.sent stage) ∧
            x.reply? call.place stage = some result) ∧
        x.line.traffic.outbox = l.outbox.map Waiter.client := by
  obtain ⟨past, x, h⟩ := conversed_play steps (conversed_new hw line)
  obtain ⟨hdiscovery, hcalls⟩ := h.discovery_eq hl
  have hreply := fun call stage result =>
    @Linked.reply line _ x call stage result h.linked h.sendsOnce
  obtain ⟨_, _, _, t, hwire, hledger, hengaged⟩ := h.linked
  have hrun := h.run
  rw [World.nameOf_eq hl, (World.settings_play steps w).1] at hrun
  refine ⟨[] ++ past, ?_⟩
  rw [← hrun]
  refine ⟨hdiscovery.symm, hcalls.symm, fun wait hwait => ?_,
    fun c hc => (hengaged.completions c hc).2, hreply, ?_⟩
  · exact (hengaged.waits wait ((waitsOf_eq hl).symm ▸ hwait)).2
  · rw [hledger, traffic_asClients hwire, hwire.outbox l hl]
    rfl

end

end CallSignaling.Scenario
