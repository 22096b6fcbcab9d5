import CallSignaling.Proofs.Turn.Soundness

/-!
# What a call of discovery returns

* `Roap.Message.FirstHeader`: what the first header with a name says (`headerValue?_eq_some_iff`).
* `Turn.resolve_eq_ok`: a response that names a server is of the right kind and has all headers.
* `Turn.Calls.discovery_sound`: whatever else happens, a call of discovery counts its outcome once,
  and returns only a server that the first response to its exchange names.
-/

namespace CallSignaling

namespace Roap.Message

/-- The first header that starts with `name=` goes on with `value`. -/
def FirstHeader (m : Message) (name value : String) : Prop :=
  ∃ before after, m.headers = before ++ (name ++ "=" ++ value) :: after ∧
    ∀ header ∈ before, ¬ (name ++ "=").toList <+: header.toList

theorem headerValue?_eq_some_iff {m : Message} {name value : String} :
    m.headerValue? name = some value ↔ m.FirstHeader name value := by
  have hname : (name ++ "=").toList = name.toList ++ ['='] := String.toList_append
  have hsome (header : String) :
      ((name.toList ++ ['=']).isPrefixOf? header.toList).map String.ofList = some value ↔
        header = name ++ "=" ++ value := by
    rw [Option.map_eq_some_iff]
    constructor
    · rintro ⟨rest, hrest, rfl⟩
      rw [List.isPrefixOf?_eq_some_iff_append_eq] at hrest
      apply String.toList_injective
      rw [String.toList_append, hname, String.toList_ofList, hrest]
    · rintro rfl
      refine ⟨value.toList, ?_, String.ofList_toList⟩
      rw [List.isPrefixOf?_eq_some_iff_append_eq, String.toList_append, hname]
  have hnone (header : String) :
      ((name.toList ++ ['=']).isPrefixOf? header.toList).map String.ofList = none ↔
        ¬ (name ++ "=").toList <+: header.toList := by
    rw [Option.map_eq_none_iff, Option.eq_none_iff_forall_ne_some, hname]
    constructor
    · rintro h ⟨rest, hrest⟩
      exact h rest (List.isPrefixOf?_eq_some_iff_append_eq.2 hrest)
    · intro h rest hrest
      exact h ⟨rest, List.isPrefixOf?_eq_some_iff_append_eq.1 hrest⟩
  rw [headerValue?, List.findSome?_eq_some_iff]
  constructor
  · rintro ⟨before, header, after, hheaders, hheader, hbefore⟩
    obtain rfl := (hsome header).1 hheader
    exact ⟨before, after, hheaders, fun other hother => (hnone other).1 (hbefore other hother)⟩
  · rintro ⟨before, after, hheaders, hbefore⟩
    exact ⟨before, _, after, hheaders, (hsome _).2 rfl,
      fun other hother => (hnone other).2 (hbefore other hother)⟩

end Roap.Message

namespace Turn

open Roap (Message)

/-- A response that names a server is of the right kind and says all about it. -/
theorem resolve_eq_ok {message : Message} {source : String} {resolved : Resolved}
    (h : resolve message source = .ok resolved) :
    message.kind = .turnResponse ∧
      message.FirstHeader "x-cisco-turn-url" resolved.info.url ∧
      message.FirstHeader "x-cisco-turn-username" resolved.info.username ∧
      message.FirstHeader "x-cisco-turn-password" resolved.info.password.expose ∧
      resolved.okRequired = !message.hasHeader Roap.noOkInTransaction := by
  unfold resolve at h
  split at h
  · cases h
  · rename_i hkind
    split at h
    · rename_i url username password hurl husername hpassword
      cases h
      exact ⟨Decidable.not_not.1 hkind, Message.headerValue?_eq_some_iff.1 hurl,
        Message.headerValue?_eq_some_iff.1 husername,
        Message.headerValue?_eq_some_iff.1 hpassword, rfl⟩
    · cases h

namespace Calls

/-- **Discovery is counted once and returns what the response says**: whatever calls, pushed
responses, aborts, timeouts and answers do in whatever order, a call of discovery that has returned
did so without an error and has counted its outcome once, and nothing before that.  If it returns a
server, the first response to its exchange was of the right kind and names the server in the first
headers of their names; and unless that response has the header that declines it, an
acknowledgement of the call was on the wire and was answered with success. -/
theorem discovery_sound (meeting : String) (enabled : Bool) (events : List Event) :
    let x := run meeting events { discovery := { enabled } }
    ∀ (i : Nat) (call : Call), x.calls[i]? = some call → call.origin = .discover →
      (∀ result, call.point = .returned result →
        ∃ r, result = .ok r ∧ turnOutcomes call.metrics = [r.outcome]) ∧
      ((∀ result, call.point ≠ .returned result) → turnOutcomes call.metrics = []) ∧
      ∀ info, call.point = .returned (.ok (.found info)) →
        ∃ g message source, call.exchange = some g ∧
          x.history.first? g = some (message, source) ∧ message.kind = .turnResponse ∧
          message.FirstHeader "x-cisco-turn-url" info.url ∧
          message.FirstHeader "x-cisco-turn-username" info.username ∧
          message.FirstHeader "x-cisco-turn-password" info.password.expose ∧
          (Roap.noOkInTransaction ∉ message.headers →
            ∃ trip ∈ x.line.trips, .call i (.acknowledged g info) ∈ trip.entry.waiters ∧
              trip.request.payload = .roap (.ok 0) ∧
              ∃ reply, trip.result = some (.ok reply)) := by
  intro x i call hcall horigin
  have hx : Sound x := sound_run meeting enabled events
  have hc := hx.calls i call hcall
  have hcounted := hc.counted horigin
  refine ⟨fun result hresult => ?_, fun hnot => ?_, fun info hinfo => ?_⟩
  · obtain ⟨⟨r, rfl⟩, -⟩ := hc.ended horigin result hresult
    rw [hresult] at hcounted
    exact ⟨r, rfl, hcounted⟩
  · rw [hcounted]
    cases h : call.point <;> first | rfl | exact absurd h (hnot _)
  · have hgrounded := hc.grounded
    rw [hinfo] at hgrounded
    obtain ⟨g, hexchange, resolved, hres, rfl, hack⟩ := hgrounded
    obtain ⟨⟨message, source⟩, hfirst, hresolve⟩ := Option.map_eq_some_iff.1 hres
    obtain ⟨hkind, hurl, husername, hpassword, hok⟩ := resolve_eq_ok hresolve
    refine ⟨g, message, source, hexchange, hfirst, hkind, hurl, husername, hpassword,
      fun hheader => ?_⟩
    have hexpected : resolved.okRequired = true := by
      rw [hok, Message.hasHeader, Bool.not_eq_true', List.contains_eq_mem]
      exact decide_eq_false hheader
    obtain ⟨reply, hreply⟩ := hack hexpected
    obtain ⟨trip, htrip, hcaller, hpayload, hresult⟩ := hx.line.trip hreply
    exact ⟨trip, htrip, hcaller, hpayload, reply, hresult⟩

/-- The reply to a request has no response, one is pushed, and the call acknowledges it. -/
def foundByPush : List Event :=
  [.discover false false false, .wire (.take 0), .wire (.reply 0 (.ok {})), .wire (.answer 0),
    .call 0 .answer, .call 0 .go,
    .push (.turnResponse ["x-cisco-turn-url=u", "x-cisco-turn-username=n",
      "x-cisco-turn-password=p"]) fromPush,
    .call 1 .go, .call 1 .go, .call 0 .go, .wire (.take 0), .wire (.reply 0 (.ok {})),
    .wire (.answer 0), .call 0 .answer, .call 0 .go]

/-- The server of the pushed response is returned, counted and acknowledged. -/
theorem discovery_sound_foundByPush :
    let x := run "m" foundByPush { discovery := { enabled := true } }
    let info : Info := { url := "u", username := "n", password := .ofText "p" }
    ∃ call, x.calls[0]? = some call ∧ call.origin = .discover ∧
      call.point = .returned (.ok (.found info)) ∧ turnOutcomes call.metrics = [.success] ∧
      ∃ trip ∈ x.line.trips, .call 0 (.acknowledged 0 info) ∈ trip.entry.waiters ∧
        trip.request.payload = .roap (.ok 0) ∧ ∃ reply, trip.result = some (.ok reply) := by
  intro x info
  obtain ⟨hreturned, -, hfound⟩ := discovery_sound "m" true foundByPush 0 _ rfl rfl
  obtain ⟨r, hr, hcounted⟩ := hreturned _ rfl
  cases hr
  obtain ⟨g, message, source, hexchange, hfirst, -, -, -, -, hack⟩ := hfound info rfl
  cases hexchange
  cases hfirst
  exact ⟨_, rfl, rfl, rfl, hcounted, hack (by decide)⟩

end Calls

end Turn

end CallSignaling
