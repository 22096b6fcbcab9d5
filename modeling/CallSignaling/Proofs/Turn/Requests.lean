import CallSignaling.Proofs.Turn.Soundness

/-!
# A call sends each of its requests once

A call of discovery sends the request for a relay server and, if the service expects it, an
acknowledgement.  It never comes back to a point where it would send one of them again, so the
answer to a request is the only one that the call can learn at that stage.

* `Turn.Point.hasSent`: the points of a call that will not send the request of a stage any more.
* `Turn.Calls.SendsOnce`: no call sends the request of a stage twice.

Main statements: every event keeps it (`sendsOnce_step`), so that it holds of every run
(`sendsOnce_run`), and whatever answer a call gets is its reply (`reply?_of_mem`).
-/

namespace CallSignaling.Turn

open Media (Ledger Response Traffic)

/-- Whether a call that has come to a point will not send the request of a stage any more, once it
has sent it. -/
def Point.hasSent : Stage → Point → Bool
  | .requested _, _ => true
  | .acknowledged _ _, sent (.acknowledged _ _) => true
  | .acknowledged _ _, finishing _ _ => true
  | .acknowledged _ _, returned _ => true
  | .acknowledged _ _, _ => false

theorem Call.hasSent_wake {c : Call} {stage : Stage} (h : c.point.hasSent stage = true)
    (generation : Nat) (completion : Completion) :
    (c.wake generation completion).point.hasSent stage = true := by
  unfold Call.wake
  split
  · rename_i own hwaiting
    rw [hwaiting] at h
    cases stage with
    | requested _ => rfl
    | acknowledged _ _ => cases h
  · exact h

/-- Whether an effect is a request. -/
def Effect.isSend : Effect → Bool
  | send _ _ => true
  | _ => false

/-- Only the completion of its exchange leads a call to a further request. -/
theorem Point.go_sends (d : Discovery) (point : Point) :
    (point.go d).outcome.effects.any Effect.isSend = false ∨
      ∃ generation info request, (point.go d).point = .sent (.acknowledged generation info) ∧
        (∀ g i, point.hasSent (.acknowledged g i) = false) ∧
        (point.go d).outcome.effects = [.send request (.acknowledged generation info)] := by
  cases point with
  | responding own message source =>
    left
    simp only [go]
    rcases d.slot.claim with ⟨slot, _ | claimed⟩ <;> rfl
  | delivering own claimed completion =>
    left
    simp only [go]
    rcases d.slot.put claimed completion with ⟨slot, _ | generation⟩ <;> rfl
  | receiving own =>
    left
    simp only [go]
    rcases d.slot.receive own with ⟨slot, _ | _ | _⟩ <;> rfl
  | completed own completion =>
    cases completion with
    | error e => exact .inl rfl
    | ok resolved =>
      rw [go]
      split
      · exact .inr ⟨own, resolved.info, _, rfl, fun _ _ => rfl, rfl⟩
      · exact .inl rfl
  | finishing own outcome =>
    left
    cases outcome <;> rfl
  | sent | waiting | returned | handled => exact .inl rfl

/-- A call that has sent the request of a stage never comes back before it. -/
theorem Point.hasSent_go {stage : Stage} {point : Point} (h : point.hasSent stage = true)
    (d : Discovery) : (point.go d).point.hasSent stage = true := by
  cases stage with
  | requested _ => rfl
  | acknowledged _ _ =>
    cases point with
    | sent _ | finishing _ _ | returned _ => first | rfl | exact h
    | _ => cases h

namespace Calls

/-- No call sends the request of a stage twice. -/
structure SendsOnce (calls : List Call) (line : Ledger Client) : Prop where
  sent : ∀ i stage, .call i stage ∈ Traffic.callers line.past →
    ∃ call, calls[i]? = some call ∧ call.point.hasSent stage = true
  once : ∀ i stage, (Traffic.callers line.past).count (.call i stage) ≤ 1

section

variable {meeting : String} {calls : List Call} {line : Ledger Client} {i : Nat}

theorem SendsOnce.wakeBy (h : SendsOnce calls line) (e : Effect) :
    SendsOnce (wakeBy calls e) line := by
  refine ⟨fun i stage hmem => ?_, h.once⟩
  obtain ⟨call, hcall, hsent⟩ := h.sent i stage hmem
  cases e with
  | wake generation completion =>
    refine ⟨_, ?_, call.hasSent_wake hsent generation completion⟩
    rw [Calls.wakeBy, List.getElem?_map, hcall]
    rfl
  | _ => exact ⟨call, hcall, hsent⟩

/-- Effects without a request. -/
theorem SendsOnce.quiet {effects : List Effect} (hquiet : effects.any Effect.isSend = false)
    (h : SendsOnce calls line) :
    SendsOnce (effects.foldl Calls.wakeBy calls) (effects.foldl (submitBy meeting i) line) := by
  induction effects generalizing calls with
  | nil => exact h
  | cons e effects ih =>
    rw [List.any_cons, Bool.or_eq_false_iff] at hquiet
    have hline : submitBy meeting i line e = line := by
      cases e with
      | send => exact absurd hquiet.1.symm Bool.false_ne_true
      | _ => rfl
    rw [List.foldl_cons, List.foldl_cons, hline]
    exact ih hquiet.2 (h.wakeBy e)

/-- A call that sends the request of a stage for the first time. -/
theorem SendsOnce.send {request : Media.Request} {stage : Stage} {call : Call}
    (hnew : .call i stage ∉ Traffic.callers line.past) (hcall : calls[i]? = some call)
    (hsent : call.point.hasSent stage = true) (h : SendsOnce calls line) :
    SendsOnce calls (line.step meeting (.submit request (.call i stage))) := by
  have hpast : Traffic.callers (line.step meeting (.submit request (.call i stage))).past =
      Traffic.callers line.past ++ [.call i stage] := List.filterMap_append
  refine ⟨fun j other hmem => ?_, fun j other => ?_⟩
  · rw [hpast] at hmem
    rcases List.mem_append.1 hmem with hmem | hmem
    · exact h.sent j other hmem
    · cases List.mem_singleton.1 hmem
      exact ⟨call, hcall, hsent⟩
  · rw [hpast, List.count_append]
    by_cases heq : Client.call j other = .call i stage
    · rw [heq, List.count_eq_zero_of_not_mem hnew, Nat.zero_add, List.count_singleton_self]
    · have hzero : List.count (Client.call j other) [.call i stage] = 0 :=
        List.count_eq_zero_of_not_mem fun hmem => heq (List.mem_singleton.1 hmem)
      rw [hzero]
      exact h.once j other

/-- A call that goes on and has sent what it had sent before. -/
theorem SendsOnce.set {call call' : Call} (hcall : calls[i]? = some call)
    (hkept : ∀ stage, .call i stage ∈ Traffic.callers line.past → call.point.hasSent stage = true →
      call'.point.hasSent stage = true)
    (h : SendsOnce calls line) : SendsOnce (calls.set i call') line := by
  refine ⟨fun j stage hmem => ?_, h.once⟩
  obtain ⟨other, hother, hsent⟩ := h.sent j stage hmem
  by_cases hij : i = j
  · subst hij
    rw [hcall] at hother
    cases hother
    exact ⟨call', List.getElem?_set_self (List.getElem?_eq_some_iff.1 hcall).1,
      hkept stage hmem hsent⟩
  · exact ⟨other, by rw [List.getElem?_set_ne hij]; exact hother, hsent⟩

/-- A call that starts. -/
theorem SendsOnce.append (call : Call) (h : SendsOnce calls line) :
    SendsOnce (calls ++ [call]) line := by
  refine ⟨fun j stage hmem => ?_, h.once⟩
  obtain ⟨other, hother, hsent⟩ := h.sent j stage hmem
  exact
    ⟨other, by rw [List.getElem?_append_left (List.getElem?_eq_some_iff.1 hother).1]; exact hother,
    hsent⟩

end

section

variable {meeting : String} {x : Calls}

/-- A call is only cued where it has sent what it had sent before. -/
theorem SendsOnce.cue (h : SendsOnce x.calls x.line) (i : Nat) (cue : Cue) :
    let x' := x.step meeting (.call i cue)
    SendsOnce x'.calls x'.line := by
  intro x'
  rcases step_call meeting i cue x with hidle | ⟨call, m, hcall, hm, hstep⟩
  · rw [show x' = x from hidle]
    exact h
  · rw [show x' = _ from hstep, settle]
    rcases cued_cases hm with ⟨-, rfl⟩ | ⟨stage, reply, hpoint, -, rfl⟩ | ⟨g, e, hpoint, rfl⟩
    · have hset : SendsOnce (x.calls.set i (call.move (call.point.go x.discovery))) x.line :=
        h.set hcall fun stage _ hsent => Point.hasSent_go hsent x.discovery
      rcases call.point.go_sends x.discovery with hquiet
        | ⟨g, info, request, hpoint, hnew, heffects⟩
      · exact hset.quiet hquiet
      · rw [heffects]
        refine hset.send (fun hmem => ?_)
          (List.getElem?_set_self (List.getElem?_eq_some_iff.1 hcall).1) ?_
        · obtain ⟨other, hother, hsent⟩ := h.sent i _ hmem
          rw [hcall] at hother
          cases hother
          rw [hnew] at hsent
          cases hsent
        · show (call.point.go x.discovery).point.hasSent _ = true
          rw [hpoint]
          rfl
    · have hquiet := (stage.answered_spec reply x.discovery).2.1
      rw [hquiet]
      refine h.set hcall fun own _ hsent => ?_
      cases own with
      | requested _ => rfl
      | acknowledged _ _ =>
        rw [hpoint] at hsent
        cases stage with
        | requested _ => cases hsent
        | acknowledged _ _ => cases reply <;> rfl
    · refine h.set hcall fun own _ _ => ?_
      cases own <;> rfl

theorem sendsOnce_step (event : Event) (h : SendsOnce x.calls x.line) :
    let x' := x.step meeting event
    SendsOnce x'.calls x'.line := by
  cases event with
  | discover reconnecting forced reachable =>
    simp only [step, begin, settle]
    rcases x.discovery.start_cases reconnecting forced reachable with
      ⟨reason, hm⟩ | ⟨g, slot, request, -, -, hm⟩ <;> rw [hm]
    · exact (h.append _).quiet rfl
    · refine (h.append _).send (fun hmem => ?_) List.getElem?_concat_length rfl
      obtain ⟨call, hcall, -⟩ := h.sent _ _ hmem
      exact Nat.lt_irrefl _ (List.getElem?_eq_some_iff.1 hcall).1
  | handOver reply =>
    simp only [step, begin, settle]
    rcases x.discovery.handOver_cases reply with
      ⟨result, metrics, -, hm⟩ | ⟨g, point, -, -, hm⟩ <;> rw [hm] <;> exact (h.append _).quiet rfl
  | push message source => exact h.append _
  | generate forced reachable => exact h
  | abort =>
    simp only [step, settle]
    refine h.quiet ?_
    simp only [Discovery.abort, Discovery.wakeAborted]
    cases x.discovery.slot.waiting? <;> rfl
  | call i cue => exact h.cue i cue
  | wire event =>
    have hother (hevent : ∀ request i stage, event ≠ .submit request (.call i stage)) :
        SendsOnce x.calls (x.line.step meeting event) := by
      have hpast : Traffic.callers (x.line.step meeting event).past =
          Traffic.callers x.line.past ++ event.caller?.toList := by
        show List.filterMap _ (x.line.past ++ [event]) = _
        rw [List.filterMap_append, List.filterMap_cons]
        cases event.caller? <;> rfl
      have hno : ∀ i stage, .call i stage ∉ event.caller?.toList := by
        intro i stage hmem
        cases event with
        | submit request client =>
          cases List.mem_singleton.1 hmem
          exact hevent request i stage rfl
        | _ => exact absurd hmem List.not_mem_nil
      refine ⟨fun i stage hmem => ?_, fun i stage => ?_⟩
      · rw [hpast] at hmem
        exact h.sent i stage ((List.mem_append.1 hmem).resolve_right (hno i stage))
      · rw [hpast, List.count_append, List.count_eq_zero_of_not_mem (hno i stage)]
        exact h.once i stage
    cases event with
    | submit request client =>
      cases client with
      | call i stage => exact h
      | other number => exact hother fun _ _ _ heq => by cases heq
    | _ => exact hother fun _ _ _ heq => by cases heq

theorem sendsOnce_run (meeting : String) (enabled : Bool) (events : List Event) :
    let x := run meeting events { discovery := { enabled } }
    SendsOnce x.calls x.line :=
  run_induction (P := fun x => SendsOnce x.calls x.line) (fun event _ => sendsOnce_step event)
    events ⟨fun _ _ hmem => absurd hmem List.not_mem_nil, fun _ _ => Nat.zero_le 1⟩

/-- At each stage a call is answered once. -/
theorem SendsOnce.answered {line : Ledger Client} {events : List (Traffic.Event Client)}
    (h : SendsOnce x.calls line) (hline : line = Ledger.run meeting events {}) (i : Nat)
    (stage : Stage) : (line.traffic.answered.map Prod.fst).count (.call i stage) ≤ 1 := by
  have heveryone := Traffic.everyone_run_new meeting events
  rw [← Ledger.traffic_run meeting events {}, ← hline, Traffic.everyone] at heveryone
  have hpast : line.past = events := by rw [hline, Ledger.past_run, List.nil_append]
  have hle := heveryone.count_eq (.call i stage)
  rw [List.count_append, ← hpast] at hle
  have := h.once i stage
  omega

/-- Whatever answer a call gets is its reply. -/
theorem SendsOnce.reply?_of_mem {events : List (Traffic.Event Client)} {i : Nat} {stage : Stage}
    {reply : Except TransportError Response} (h : SendsOnce x.calls x.line)
    (hline : x.line = Ledger.run meeting events {})
    (hmem : (.call i stage, reply) ∈ x.line.traffic.answered) : x.reply? i stage = some reply := by
  have hcount := h.answered hline i stage
  let isOwn : Client × Except TransportError Response → Bool := fun answer => answer.1 =
    .call i stage
  have hlength : (x.line.traffic.answered.filter isOwn).length ≤ 1 := by
    rw [List.count, List.countP_map, List.countP_eq_length_filter] at hcount
    refine Nat.le_trans (Nat.le_of_eq (congrArg List.length ?_)) hcount
    exact List.filter_congr fun answer _ => by simp [isOwn, beq_eq_decide]
  obtain ⟨answer, hanswer⟩ := Option.isSome_iff_exists.1
    (List.find?_isSome.2 ⟨_, hmem, decide_eq_true rfl⟩ :
    (x.line.traffic.answered.find? isOwn).isSome)
  have hown : answer ∈ x.line.traffic.answered.filter isOwn :=
    List.mem_filter.2 ⟨List.mem_of_find?_eq_some hanswer, List.find?_some hanswer⟩
  have hown' : (.call i stage, reply) ∈ x.line.traffic.answered.filter isOwn :=
    List.mem_filter.2 ⟨hmem, decide_eq_true rfl⟩
  have heq : answer = (.call i stage, reply) := by
    obtain ⟨only, honly⟩ := List.length_eq_one_iff.1
      (Nat.le_antisymm hlength (List.length_pos_of_mem hown))
    rw [honly, List.mem_singleton] at hown hown'
    rw [hown, hown']
  rw [reply?, hanswer, heq]
  rfl

end

end Calls

end CallSignaling.Turn
