import CallSignaling.Proofs.Turn.Soundness

/-!
# Exchanges do not get in each other's way

* `Turn.Point.generation?_go`: of the steps of a call only the last one ends an exchange, its own.
* `Turn.Calls.generation?_step`: an exchange ends by an abort or by a call that is busy with it.
* `Turn.Calls.step_late`: a response that nobody waits for any more only lets its call go on.
* `Turn.Calls.exchanges_safe`: exchanges are opened in turn, end once each and are completed at most
  once, by their first response or by being given up.
-/

namespace CallSignaling.Turn

open Roap (Message)

/-- Of the steps of a call only the last one ends an exchange, and only its own. -/
theorem Point.generation?_go {point : Point} {d : Discovery} {g : Nat}
    (hg : d.slot.generation? = some g) :
    (point.go d).outcome.state.slot.generation? = some g ∨
      ∃ outcome, point = .finishing g outcome := by
  cases point with
  | responding own message source =>
    left
    simp only [go]
    rcases d.slot.claim_cases with ⟨-, hclaim⟩ | ⟨g', t, -, hclaim, -, hgen, -⟩ <;> rw [hclaim]
    · exact hg
    · exact hgen.trans hg
  | delivering own claimed completion =>
    obtain ⟨-, hgen, -⟩ := d.slot.put_spec claimed completion
    exact .inl (hgen.trans hg)
  | receiving generation =>
    left
    obtain ⟨hkeeps, -⟩ := d.slot.receive_spec generation
    simp only [go]
    cases hreceive : d.slot.receive generation with
    | mk slot reception =>
      rw [hreceive] at hkeeps
      cases reception <;> exact hkeeps.generation.trans hg
  | completed generation completion =>
    left
    cases completion with
    | error e => exact hg
    | ok resolved =>
      rw [go]
      split <;> exact hg
  | finishing generation outcome =>
    simp only [go, Discovery.slot_finish]
    rcases d.slot.finish_cases generation with ⟨-, hfinish⟩ | ⟨hgen, -⟩
    · rw [hfinish]
      exact .inl hg
    · rw [hg] at hgen
      cases hgen
      exact .inr ⟨outcome, rfl⟩
  | sent stage => exact .inl hg
  | waiting generation => exact .inl hg
  | returned result => exact .inl hg
  | handled => exact .inl hg

namespace Calls

variable {meeting : String} {x : Calls}

/-- The pending exchange goes on unless it is given up or a call that is busy with it returns. -/
theorem generation?_step {event : Event} {g : Nat} (hg : x.slot.generation? = some g) :
    (x.step meeting event).slot.generation? = some g ∨ event = .abort ∨
      ∃ i call outcome, event = .call i .go ∧ x.calls[i]? = some call ∧
        call.point = .finishing g outcome := by
  have hbusy : ∀ begun, x.discovery.slot.begin? ≠ some begun := by
    intro begun hbegin
    obtain ⟨p, hp, -⟩ := Option.map_eq_some_iff.1 hg
    rw [Slot.begin?, show x.discovery.slot.pending = some p from hp] at hbegin
    cases hbegin
  cases event with
  | discover reconnecting forced reachable =>
    rw [step]
    rcases x.discovery.start_cases reconnecting forced reachable with
      ⟨reason, hm⟩ | ⟨g', slot, request, hbegin, -⟩
    · rw [hm]
      exact .inl hg
    · exact absurd hbegin (hbusy _)
  | handOver reply =>
    rw [step]
    rcases x.discovery.handOver_cases reply with
      ⟨result, metrics, -, hm⟩ | ⟨g', point, -, -, hm⟩ <;> rw [hm] <;> exact .inl hg
  | push message source => exact .inl hg
  | generate forced reachable =>
    rw [step]
    rcases x.discovery.generate_cases forced reachable with hd | ⟨g', slot, hbegin, -⟩
    · rw [hd]
      exact .inl hg
    · exact absurd hbegin (hbusy _)
  | abort => exact .inr (.inl rfl)
  | call i cue =>
    rcases step_call meeting i cue x with hidle | ⟨call, m, hcall, hm, hstep⟩
    · rw [hidle]
      exact .inl hg
    · rw [hstep]
      rcases cued_cases hm with ⟨rfl, rfl⟩ | ⟨stage, reply, -, -, rfl⟩ | ⟨g', e, -, rfl⟩
      · rcases Point.generation?_go hg with hkept | ⟨outcome, hpoint⟩
        · exact .inl hkept
        · exact .inr (.inr ⟨i, call, outcome, rfl, hcall, hpoint⟩)
      · obtain ⟨hstate, -⟩ := stage.answered_spec reply x.discovery
        left
        rw [slot, settle, hstate]
        exact hg
      · exact .inl hg
  | wire event =>
    left
    cases event with
    | submit request client => cases client <;> exact hg
    | _ => exact hg

/-- A response that comes too late only lets its call go on. -/
theorem step_late {i : Nat} {call : Call} {own : Option Nat} {message : Message} {source : String}
    (hcall : x.calls[i]? = some call) (hpoint : call.point = .responding own message source)
    (hclosed : x.slot.open? = none) :
    x.step meeting (.call i .go) =
      { x with
        calls := x.calls.set i { call with point := .afterResponse own }
        history := x.history.append
          { handled := x.slot.generation?.toList.map (·, message, source) } } := by
  have hclaim : x.discovery.slot.claim = (x.discovery.slot, none) := by
    rcases x.discovery.slot.claim_cases with ⟨-, hclaim⟩ | ⟨g, t, hopen, -⟩
    · exact hclaim
    · rw [show x.discovery.slot.open? = none from hclosed] at hopen
      cases hopen
  have hmove : call.point.go x.discovery = ⟨.stay x.discovery, .afterResponse own⟩ := by
    rw [hpoint, Point.go, hclaim]
  have hnews : History.recorded x.slot x.slot (call.point.news x.slot) =
      { handled := x.slot.generation?.toList.map (·, message, source) } := by
    rw [History.recorded_of_same rfl rfl, hpoint]
    rfl
  simp only [step, hcall, cued, hmove, settle, Call.move, Outcome.stay_state, Outcome.stay_effects,
    Outcome.stay_metrics, List.foldl_nil, List.append_nil]
  exact congrArg (fun news => ({ x with calls := _, history := x.history.append news } : Calls))
    hnews

/-- **Exchanges do not get in each other's way**: whatever calls, pushed responses, aborts, timeouts
and answers do in whatever order, exchanges are opened under growing numbers, and each has ended
once or is the pending one; each is completed at most once, with what its first response says or
because it was given up before any, and a call goes by no other completion; and the exchange of a
call of discovery that has returned is not pending.  Whatever happens next, only giving up and the
return of a call that is busy with the pending exchange end it; and a response with nothing pending,
or after the first one, leaves the slot, the completions and everybody else as they are, and with
nothing pending it is not even written down. -/
theorem exchanges_safe (meeting : String) (enabled : Bool) (events : List Event) :
    let x := run meeting events { discovery := { enabled } }
    (x.history.opened.Pairwise (· < ·) ∧
      (x.history.ended ++ x.slot.generation?.toList).Perm x.history.opened) ∧
    ((x.history.completions.map Prod.fst).Nodup ∧
      ∀ g c, (g, c) ∈ x.history.completions →
        (∃ message source, x.history.first? g = some (message, source) ∧
          c = resolve message source) ∨
        (c = .error .aborted ∧ x.history.first? g = none ∧ g ∈ x.history.ended)) ∧
    (∀ (i : Nat) (call : Call), x.calls[i]? = some call →
      (∀ g c, call.point = .completed g c → (g, c) ∈ x.history.completions) ∧
      (call.origin = .discover → ∀ result, call.point = .returned result →
        ∀ g, call.exchange = some g → x.slot.generation? ≠ some g)) ∧
    (∀ event g, x.slot.generation? = some g →
      (x.step meeting event).slot.generation? = some g ∨ event = .abort ∨
        ∃ i call outcome, event = .call i .go ∧ x.calls[i]? = some call ∧
          call.point = .finishing g outcome) ∧
    ∀ (i : Nat) (call : Call) own message source, x.calls[i]? = some call →
      call.point = .responding own message source →
      (∀ g, x.slot.generation? = some g → (x.history.first? g).isSome) →
      let y := x.step meeting (.call i .go)
      y.slot = x.slot ∧ y.history.completions = x.history.completions ∧ y.line = x.line ∧
        (∀ j, j ≠ i → y.calls[j]? = x.calls[j]?) ∧
        (x.slot.generation? = none → y.history = x.history) := by
  intro x
  have hx : Sound x := sound_run meeting enabled events
  have ht := hx.tracked
  refine ⟨⟨?_, ht.accounted⟩, ⟨?_, fun g c hmem => ?_⟩, fun i call hcall => ⟨?_, ?_⟩,
    fun event g => generation?_step, fun i call own message source hcall hpoint hlate => ?_⟩
  · rw [ht.numbered]
    exact List.pairwise_lt_range
  · have honce := ht.once
    rw [List.append_assoc] at honce
    exact honce.sublist (List.sublist_append_left _ _)
  · refine (ht.settled (g, c) hmem).imp_left fun hres => ?_
    obtain ⟨response, hfirst, hresolve⟩ := Option.map_eq_some_iff.1 hres
    exact ⟨response.1, response.2, hfirst, hresolve.symm⟩
  · intro g c hpoint
    have hgrounded := (hx.calls i call hcall).grounded
    rw [hpoint] at hgrounded
    exact hgrounded
  · intro horigin result hreturned g hexchange hpending
    obtain ⟨-, hended⟩ := (hx.calls i call hcall).ended horigin result hreturned
    exact ht.not_mem_ended hpending (hended g hexchange)
  · have hclosed : x.slot.open? = none := by
      refine Option.eq_none_iff_forall_ne_some.2 fun g hopen => ?_
      have hheard := hlate g (Slot.generation?_of_open? hopen)
      rw [ht.unheard hopen] at hheard
      cases hheard
    intro y
    have hy : y = _ := step_late hcall hpoint hclosed
    rw [hy]
    refine ⟨rfl, List.append_nil _, rfl, fun j hj => List.getElem?_set_ne hj.symm, fun hnone => ?_⟩
    rw [hnone]
    exact x.history.append_nil

end Calls

end CallSignaling.Turn
