import CallSignaling.Proofs.Turn.Grounds

/-!
# Every interleaving keeps the calls sound

* `Turn.Calls.Fits`: what an effect may ask for.
* `Turn.Calls.Sound`: the slot and its history fit together, every call is where it may be, and the
  line works.
* `Turn.Calls.sound_settle`: what a step comes to is sound if its slot, its calls and its effects
  are.
* `Turn.Calls.cued_spec`: the steps of a call are.
* `Turn.Calls.sound_step`, `Turn.Calls.sound_run`: every event keeps the calls sound, and so does
  every run.
-/

namespace CallSignaling.Turn

namespace Calls

/-! ### Effects -/

/-- What an effect may ask for when the history is as given. -/
def Fits (h : History) : Effect → Prop
  | .send request stage => request.message = some stage.message
  | .wake generation completion => (generation, completion) ∈ h.completions
  | .await _ | .done _ => True

theorem fits_go (h : History) (d : Discovery) (point : Point) :
    ∀ e ∈ (point.go d).outcome.effects,
      Fits (h.append (.recorded d.slot (point.go d).outcome.state.slot (point.news d.slot))) e := by
  cases point with
  | responding own message source =>
    simp only [Point.go]
    rcases d.slot.claim with ⟨slot, _ | claimed⟩ <;> exact List.forall_mem_nil _
  | delivering own claimed completion =>
    obtain ⟨-, -, -, -, hwaiter⟩ := d.slot.put_spec claimed completion
    intro e he
    obtain ⟨g, hg, rfl⟩ := Option.map_eq_some_iff.1 (Option.mem_toList.1 he)
    rw [hwaiter g hg]
    exact List.mem_append_right _ List.mem_cons_self
  | receiving generation =>
    simp only [Point.go]
    rcases d.slot.receive generation with ⟨slot, _ | _ | completion⟩
    · exact List.forall_mem_nil _
    · exact List.forall_mem_singleton.2 trivial
    · exact List.forall_mem_nil _
  | completed generation completion =>
    cases completion with
    | error e => exact List.forall_mem_nil _
    | ok resolved =>
      simp only [Point.go]
      split
      · exact List.forall_mem_singleton.2 rfl
      · exact List.forall_mem_nil _
  | finishing generation outcome =>
    cases outcome <;> exact List.forall_mem_singleton.2 trivial
  | sent stage => exact List.forall_mem_nil _
  | waiting generation => exact List.forall_mem_nil _
  | returned result => exact List.forall_mem_nil _
  | handled => exact List.forall_mem_nil _

theorem carriedBy_wakeBy (calls : List Call) (e : Effect) :
    carriedBy (wakeBy calls e) = carriedBy calls := by
  cases e with
  | wake generation completion =>
    have hpoint : ∀ c : Call, (c.wake generation completion).point.carried? = c.point.carried? := by
      intro c
      unfold Call.wake
      split
      · rename_i own h
        split
        · rw [h]
          rfl
        · rfl
      · rfl
    rw [wakeBy, carriedBy, List.filterMap_map]
    exact congrArg (List.filterMap · calls) (funext hpoint)
  | _ => rfl

/-- A call that goes on takes its completion along. -/
theorem carriedBy_set {calls : List Call} {i : Nat} {call : Call} (h : calls[i]? = some call)
    (call' : Call) :
    ∃ rest, (carriedBy calls).Perm (call.point.carried?.toList ++ rest) ∧
      (carriedBy (calls.set i call')).Perm (call'.point.carried?.toList ++ rest) := by
  obtain ⟨hi, hget⟩ := List.getElem?_eq_some_iff.1 h
  have hcalls : calls = calls.take i ++ call :: calls.drop (i + 1) := by
    rw [← hget, List.getElem_cons_drop, List.take_append_drop]
  have hset : calls.set i call' = calls.take i ++ call' :: calls.drop (i + 1) :=
    List.set_eq_take_append_cons_drop.trans (if_pos hi)
  have hperm : ∀ c : Call, (carriedBy (calls.take i ++ c :: calls.drop (i + 1))).Perm
      (c.point.carried?.toList ++ carriedBy (calls.take i ++ calls.drop (i + 1))) := by
    intro c
    have hmove : (calls.take i ++ c :: calls.drop (i + 1)).Perm
        (c :: (calls.take i ++ calls.drop (i + 1))) := List.perm_middle
    refine (hmove.filterMap _).trans ?_
    rw [List.filterMap_cons]
    cases c.point.carried? <;> exact .refl _
  refine ⟨_, ?_, hset ▸ hperm call'⟩
  conv_lhs => rw [hcalls]
  exact hperm call

theorem carriedBy_foldl (effects : List Effect) (calls : List Call) :
    carriedBy (effects.foldl wakeBy calls) = carriedBy calls := by
  induction effects generalizing calls with
  | nil => rfl
  | cons e effects ih => rw [List.foldl_cons, ih, carriedBy_wakeBy]

/-- The effects of a step lead the line and the calls where they may be. -/
theorem sound_foldl {meeting : String} {i : Nat} {h : History} {effects : List Effect}
    (hfits : ∀ e ∈ effects, Fits h e) {calls : List Call} {line : Media.Ledger Client}
    (hline : LineSound line)
    (hcalls : ∀ (j : Nat) (call : Call), calls[j]? = some call →
      call.Sound h line.traffic.answered j) :
    LineSound (effects.foldl (submitBy meeting i) line) ∧
      ∀ (j : Nat) (call : Call), (effects.foldl wakeBy calls)[j]? = some call →
        call.Sound h (effects.foldl (submitBy meeting i) line).traffic.answered j := by
  induction effects generalizing calls line with
  | nil => exact ⟨hline, hcalls⟩
  | cons e effects ih =>
    obtain ⟨hfit, hrest⟩ := List.forall_mem_cons.1 hfits
    cases e with
    | send request stage =>
      refine ih hrest (hline.step meeting fun request' i' stage' heq => ?_) fun j call hcall => ?_
      · cases heq
        exact hfit
      · exact (hcalls j call hcall).mono (LineSound.answered_step meeting _)
    | wake generation completion =>
      refine ih hrest hline fun j call hcall => ?_
      rw [wakeBy, List.getElem?_map] at hcall
      obtain ⟨before, hbefore, rfl⟩ := Option.map_eq_some_iff.1 hcall
      exact (hcalls j before hbefore).wake hfit
    | await generation => exact ih hrest hline hcalls
    | done result => exact ih hrest hline hcalls

/-! ### What holds of every run -/

/-- The slot and its history fit together, every call is where it may be, and the line works. -/
structure Sound (x : Calls) : Prop where
  tracked : Tracked x.slot x.history (carriedBy x.calls)
  calls : ∀ (i : Nat) (call : Call), x.calls[i]? = some call →
    call.Sound x.history x.line.traffic.answered i
  line : LineSound x.line

theorem Sound.new (enabled : Bool) : Sound { discovery := { enabled } } where
  tracked := .new
  calls := fun _ _ h => by cases h
  line := .new

variable {meeting : String} {x : Calls}

/-- What a step comes to is sound if its slot, its calls and its effects are. -/
theorem sound_settle {i : Nat} {o : Outcome Discovery Effect} {calls : List Call} {news h : History}
    (hx : Sound x) (hh : x.history.append (.recorded x.slot o.state.slot news) = h)
    (htracked : Tracked o.state.slot h (carriedBy calls))
    (hcalls : ∀ (j : Nat) (call : Call), calls[j]? = some call →
      call.Sound h x.line.traffic.answered j)
    (hfits : ∀ e ∈ o.effects, Fits h e) : Sound (x.settle meeting i o calls news) := by
  obtain ⟨hline, hcalls⟩ := sound_foldl (i := i) hfits hx.line hcalls
  subst hh
  refine ⟨?_, hcalls, hline⟩
  rw [settle, carriedBy_foldl]
  exact htracked

/-- A call that starts leaves the others where they may be. -/
theorem sound_begin {origin : Origin} {m : Move} {h : History} (hx : Sound x)
    (hh : x.history.append (.recorded x.slot m.outcome.state.slot {}) = h)
    (htracked : Tracked m.outcome.state.slot h (carriedBy x.calls))
    (hcarried : m.point.carried? = none)
    (hcall : (Call.start origin m).Sound h x.line.traffic.answered x.calls.length)
    (hfits : ∀ e ∈ m.outcome.effects, Fits h e) : Sound (x.begin meeting origin m) := by
  refine sound_settle hx hh ?_ (fun j call hj => ?_) hfits
  · rw [carriedBy, List.filterMap_append, List.filterMap_cons, Call.start, hcarried,
      List.filterMap_nil, List.append_nil]
    exact htracked
  · rcases Nat.lt_trichotomy j x.calls.length with hlt | rfl | hgt
    · rw [List.getElem?_append_left hlt] at hj
      exact hh ▸ (hx.calls j call hj).later (List.Subset.refl _)
    · rw [List.getElem?_concat_length] at hj
      cases hj
      exact hcall
    · rw [List.getElem?_eq_none (by rw [List.length_append, List.length_singleton]; omega)] at hj
      cases hj

/-- What a cue leads a call to is sound. -/
theorem cued_spec {i : Nat} {cue : Cue} {call : Call} {m : Move}
    {carried : List (Nat × Completion)}
    (ht : Tracked x.slot x.history (call.point.carried?.toList ++ carried))
    (hc : call.Sound x.history x.line.traffic.answered i)
    (hm : x.cued i cue call.point = some m) :
    let h := x.history.append (.recorded x.slot m.outcome.state.slot (call.point.news x.slot))
    Tracked m.outcome.state.slot h (m.point.carried?.toList ++ carried) ∧
      (call.move m).Sound h x.line.traffic.answered i ∧ ∀ e ∈ m.outcome.effects, Fits h e := by
  rcases cued_cases hm with ⟨-, rfl⟩ | ⟨stage, reply, hpoint, hreply, rfl⟩ | ⟨g, e, hpoint, rfl⟩
  · exact ⟨ht.go call.point, hc.go ht, fits_go x.history x.discovery call.point⟩
  · obtain ⟨hstate, heffects, hcarried⟩ := stage.answered_spec reply x.discovery
    rw [hpoint] at ht ⊢
    rw [hstate, heffects, hcarried]
    exact ⟨ht.same (.refl x.slot), hc.replied hpoint hreply, List.forall_mem_nil _⟩
  · rw [hpoint] at ht ⊢
    exact ⟨ht.same (.refl x.slot), hc.giveUp hpoint, List.forall_mem_nil _⟩

/-! ### One event after the other -/

/-- A call of discovery skips the attempt or opens an exchange. -/
theorem Sound.discover (hx : Sound x) (meeting : String) (reconnecting forced reachable : Bool) :
    Sound (x.step meeting (.discover reconnecting forced reachable)) := by
  rw [step]
  rcases x.discovery.start_cases reconnecting forced reachable with
    ⟨reason, hm⟩ | ⟨g, slot, request, hbegin, hrequest, hm⟩ <;> rw [hm]
  · refine sound_begin hx rfl (hx.tracked.same (.refl x.slot)) rfl
      ⟨.inl rfl, (fun _ h => by cases h), trivial, fun _ => rfl, fun _ result hresult => ?_⟩
      (List.forall_mem_singleton.2 trivial)
    cases hresult
    exact ⟨⟨_, rfl⟩, fun _ h => by cases h⟩
  · have hnew : ∀ g' ∈ some g, g' ∈ x.history.opened ++ [g] := by
      intro g' hg'
      cases hg'
      exact List.mem_append_right _ List.mem_cons_self
    exact sound_begin hx (congrArg x.history.append (History.recorded_begin hbegin))
      (hx.tracked.begin hbegin) rfl
      ⟨.inl rfl, hnew, trivial, fun _ => rfl, fun _ _ h => by cases h⟩
      (List.forall_mem_singleton.2 hrequest)

/-- A reply that is handed over is for the pending exchange, or for none. -/
theorem Sound.handOver (hx : Sound x) (meeting : String) (reply : Option Media.Response) :
    Sound (x.step meeting (.handOver reply)) := by
  have hkept := hx.tracked.same (.refl x.slot)
  rw [step]
  rcases x.discovery.handOver_cases reply with
    ⟨result, metrics, hnone, hm⟩ | ⟨g, point, hpending, hpoint, hm⟩ <;> rw [hm]
  · refine sound_begin hx rfl hkept rfl (.start (by decide) (fun _ h => by cases h) ?_)
      (List.forall_mem_singleton.2 trivial)
    rcases result with e | info | reason <;> first | trivial | exact absurd rfl (hnone _)
  · have hopened : g ∈ x.history.opened := hx.tracked.mem_opened hpending
    rcases hpoint with ⟨message, rfl⟩ | ⟨e, rfl⟩ <;>
      refine sound_begin hx rfl hkept rfl (.start (by decide) (fun g' hg' => ?_) trivial)
        (List.forall_mem_nil _) <;>
      cases hg' <;> exact List.mem_append_left _ hopened

theorem Sound.push (hx : Sound x) (meeting : String) (message : Roap.Message) (source : String) :
    Sound (x.step meeting (.push message source)) :=
  sound_begin hx rfl (hx.tracked.same (.refl x.slot)) rfl
    (.start (by decide) (fun _ h => by cases h) trivial) (List.forall_mem_nil _)

/-- A request for somebody else opens an exchange or changes nothing. -/
theorem Sound.generate (hx : Sound x) (meeting : String) (forced reachable : Bool) :
    Sound (x.step meeting (.generate forced reachable)) := by
  have hlater : ∀ news (j : Nat) (call : Call), x.calls[j]? = some call →
      call.Sound (x.history.append news) x.line.traffic.answered j :=
    fun news j call hj => (hx.calls j call hj).later (List.Subset.refl _)
  rw [step]
  rcases x.discovery.generate_cases forced reachable with hd | ⟨g, slot, hbegin, hd⟩ <;> rw [hd]
  · exact sound_settle hx rfl (hx.tracked.same (.refl x.slot)) (hlater _) (List.forall_mem_nil _)
  · exact sound_settle hx (congrArg x.history.append (History.recorded_begin hbegin))
      (hx.tracked.begin hbegin) (hlater _) (List.forall_mem_nil _)

theorem Sound.abort (hx : Sound x) (meeting : String) : Sound (x.step meeting .abort) := by
  refine sound_settle hx (congrArg x.history.append (History.recorded_clear x.slot _))
    (hx.tracked.clear (List.Sublist.refl _))
    (fun j call hj => (hx.calls j call hj).later (List.Subset.refl _)) fun e he => ?_
  -- whoever waits waits for the exchange that is given up
  obtain ⟨g, hwaiting, rfl⟩ := Option.map_eq_some_iff.1 (Option.mem_toList.1 he)
  have hopen := Slot.open?_of_waiting? hwaiting
  exact List.mem_append_right _ (List.mem_map.2 ⟨g, Option.mem_toList.2 hopen, rfl⟩)

/-- A call that is given a cue is where it may be afterwards, and so are the others. -/
theorem Sound.cue (hx : Sound x) (meeting : String) (i : Nat) (cue : Cue) :
    Sound (x.step meeting (.call i cue)) := by
  rcases step_call meeting i cue x with hidle | ⟨call, m, hcall, hm, hstep⟩
  · rwa [hidle]
  · obtain ⟨rest, hbefore, hafter⟩ := carriedBy_set hcall (call.move m)
    have ht := hx.tracked.keep (.refl x.slot) hbefore.symm
    obtain ⟨htracked, hmoved, hfits⟩ := cued_spec ht (hx.calls i call hcall) hm
    rw [hstep]
    refine sound_settle hx rfl (htracked.keep (.refl _) hafter) (fun j other hj => ?_) hfits
    rw [List.getElem?_set] at hj
    split at hj
    · rename_i hij
      split at hj
      · cases hj
        exact hij ▸ hmoved
      · cases hj
    · exact (hx.calls j other hj).later (List.Subset.refl _)

/-- What others do on the line answers more requests. -/
theorem Sound.wire (hx : Sound x) (meeting : String) (event : Media.Traffic.Event Client) :
    Sound (x.step meeting (.wire event)) := by
  have hline (hevent : ∀ request i stage, event ≠ .submit request (.call i stage)) :
      Sound { x with line := x.line.step meeting event } := by
    refine ⟨hx.tracked, fun j call hj => ?_, hx.line.step meeting fun request i stage heq => ?_⟩
    · exact (hx.calls j call hj).mono (LineSound.answered_step meeting event)
    · exact absurd heq (hevent request i stage)
  cases event with
  | submit request client =>
    cases client with
    | call i stage => exact hx
    | other number => exact hline fun _ _ _ h => by cases h
  | _ => exact hline fun _ _ _ h => by cases h

theorem sound_step (meeting : String) (event : Event) (hx : Sound x) :
    Sound (x.step meeting event) := by
  cases event with
  | discover reconnecting forced reachable => exact hx.discover meeting reconnecting forced reachable
  | handOver reply => exact hx.handOver meeting reply
  | push message source => exact hx.push meeting message source
  | generate forced reachable => exact hx.generate meeting forced reachable
  | abort => exact hx.abort meeting
  | call i cue => exact hx.cue meeting i cue
  | wire event => exact hx.wire meeting event

theorem sound_run (meeting : String) (enabled : Bool) (events : List Event) :
    Sound (run meeting events { discovery := { enabled } }) :=
  run_induction (fun event _ => sound_step meeting event) events (.new enabled)

end Calls

end CallSignaling.Turn
