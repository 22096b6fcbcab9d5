import CallSignaling.Media.Request
import CallSignaling.Proofs.Locus.Encoding
import CallSignaling.Proofs.Media.Embedding

/-!
# Reading undoes writing for every wire form

* `Media.Payload.ofDocument?_toJson`, `Media.OutboundRequest.ofDocument?_toJson`: printed requests
  are read back.
* `read_written`: the text of every message, position, request, reply, copy and change is read as
  what was written.

Replies, copies and changes hold values of their own.  These come back if they are nested no deeper
than the whole text leaves room for, with integers for numbers, and named like no field.
-/

namespace CallSignaling

open Json (present)

/-! ### Requests -/

namespace Media

open Roap (Message)

namespace Payload

theorem ofDocument?_toJson (p : Payload) : ofDocument? (Document.ofJson p.toJson) = some p := by
  cases p with
  | localMute => rfl
  | roap message =>
    -- the message is kept as a value before the tag is looked at
    have hkept : Document.value? (Document.nestingLimit - 2) (Document.ofJson message.toJson) =
        some (.object (SortedMap.ofList (present message.fields)).entries) := by
      rw [message.toJson_eq_present]
      exact Document.value?_object fun p hp => (message.returns_members p hp).mono (by decide)
    have hmessage := message.ofDocument?_toJson
    rw [toJson, Document.ofJson, ofDocument?, ofMembers?]
    simp [Document.ofMembers, Document.memberValues?, Document.member?, hkept, hmessage,
      Document.text?, Document.ofJson]

end Payload

namespace OutboundRequest

/-- The fields of a request as they are printed. -/
def fields (r : OutboundRequest) : List (String × Option Json) :=
  [("meetingId", some (.string r.meetingId)), ("mediaId", some (.string r.mediaId)),
    ("audioMuted", some (.bool r.audioMuted)), ("videoMuted", some (.bool r.videoMuted)),
    ("payload", some r.payload.toJson)]

/-- A printed request is read back. -/
theorem ofDocument?_toJson (r : OutboundRequest) :
    ofDocument? (Document.ofJson r.toJson) = some r := by
  have hfields : (Document.ofJson r.toJson).fields?
      ["meetingId", "mediaId", "audioMuted", "videoMuted", "payload"] =
        some (r.fields.map fun field => field.2.map Document.ofJson) :=
    Document.fields?_object r.fields (by simp [fields])
  have hpayload := r.payload.ofDocument?_toJson
  rw [ofDocument?, hfields]
  simp only [fields, List.map_cons, List.map_nil, Option.map_some, Option.bind_eq_bind,
    Option.bind_some, Document.required, hpayload, Document.text?_string]
  rfl

end OutboundRequest

/-- The state of the call in a reply is kept as it is, if it returns and says something. -/
theorem Response.whenPresent_locus {r : Response} {room : Nat}
    (h : ∀ j ∈ r.locus, j ≠ .null ∧ j.Returns room) :
    Document.whenPresent (Document.value? room) (r.locus.map Document.ofJson) = some r.locus := by
  cases hlocus : r.locus with
  | none => rfl
  | some j =>
    obtain ⟨hnull, hreturns⟩ := h j hlocus
    rw [Option.map_some, Document.whenPresent, Document.withDefault, Document.optional?,
      Document.value?_of_returns hreturns]
    · rfl
    · exact mt Document.ofJson_eq_null.1 hnull

end Media

/-! ### All wire forms -/

open Document (readText?)

theorem Json.depth_le_of_mem {members : List (String × Json)} {room : Nat} {m : String × Json}
    (h : (Json.object members).depth ≤ room + 1) (hm : m ∈ members) : m.2.depth ≤ room :=
  Json.membersDepth_le_iff.1 (Nat.le_of_succ_le_succ h) m hm

/-- **Reading undoes writing**: messages, positions and requests are read from their texts as they
were written, and so are replies whose state of the call is not an explicit `null` and copies and
changes none of whose free fields has the name of another field, if the values in them are exact and
the whole text is nested no deeper than a reader goes. -/
theorem read_written :
    (∀ m : Roap.Message, readText? Roap.Message.ofDocument? m.toJson.text = some m) ∧
      (∀ s : Locus.Sequence, readText? Locus.Sequence.ofDocument? s.toJson.text = some s) ∧
      (∀ r : Media.OutboundRequest,
        readText? Media.OutboundRequest.ofDocument? r.toJson.text = some r) ∧
      (∀ r : Media.Response, (∀ j ∈ r.locus, j ≠ .null ∧ j.Exact) →
        r.toJson.depth ≤ Document.nestingLimit →
        readText? Media.Response.ofDocument? r.toJson.text = some r) ∧
      (∀ s : Locus.Snapshot, s.state.LacksAll Locus.Snapshot.fieldNames →
        (∀ m ∈ s.state.entries, m.2.Exact) → s.toJson.depth ≤ Document.nestingLimit →
        readText? Locus.Snapshot.ofDocument? s.toJson.text = some s) ∧
      ∀ d : Locus.Delta, d.payload.LacksAll Locus.Delta.fieldNames →
        (∀ m ∈ d.payload.entries, m.2.Exact) → d.toJson.depth ≤ Document.nestingLimit →
        readText? Locus.Delta.ofDocument? d.toJson.text = some d := by
  simp only [Document.readText?_text]
  refine ⟨Roap.Message.ofDocument?_toJson, Locus.Sequence.ofDocument?_toJson,
    Media.OutboundRequest.ofDocument?_toJson, fun r hlocus hdepth => ?_,
    fun s hnames hexact hdepth => ?_, fun d hnames hexact hdepth => ?_⟩
  · refine Media.Response.ofDocument?_toJson (Media.Response.whenPresent_locus fun j hj => ?_)
    obtain ⟨hnull, hexact⟩ := hlocus j hj
    refine ⟨hnull, hexact.returns (Json.depth_le_of_mem (m := ("locus", j)) hdepth ?_)⟩
    rw [Option.mem_def.1 hj]
    exact List.mem_cons_self
  · rw [Locus.Snapshot.toJson_eq_present] at hdepth
    exact (Locus.Snapshot.ofDocument?_toJson_iff hnames).2 fun m hm =>
      (hexact m hm).returns (Json.depth_le_of_mem hdepth (List.mem_append_right _ hm))
  · rw [Locus.Delta.toJson_eq_present] at hdepth
    exact (Locus.Delta.ofDocument?_toJson_iff hnames).2 fun m hm =>
      (hexact m hm).returns (Json.depth_le_of_mem hdepth (List.mem_append_right _ hm))

/-- A value with the least and the greatest number that are exact. -/
def extremes : Json :=
  .object [("greatest", .array [.nat 18446744073709551615, .null]),
    ("least", .number (.integer (-9223372036854775808)))]

theorem exact_extremes : extremes.Exact where
  numbers := by decide
  canonical := rfl

/-- A change whose free field is named like a field of a copy, and a reply and a copy that hold the
same value, are read back. -/
theorem read_written_extremes :
    let r : Media.Response := { locus := some extremes, connections := [{ mediaId := "m" }] }
    let s : Locus.Snapshot := { url := "u", state := .ofList [("baseSequence", extremes)] }
    let d : Locus.Delta := { Locus.Delta.range 1 2 with payload := .ofList [("url", extremes)] }
    ((∀ j ∈ r.locus, j ≠ .null ∧ j.Exact) ∧ r.toJson.depth ≤ Document.nestingLimit ∧
      s.state.LacksAll Locus.Snapshot.fieldNames ∧ (∀ m ∈ s.state.entries, m.2.Exact) ∧
      s.toJson.depth ≤ Document.nestingLimit ∧ d.payload.LacksAll Locus.Delta.fieldNames ∧
      (∀ m ∈ d.payload.entries, m.2.Exact) ∧ d.toJson.depth ≤ Document.nestingLimit) ∧
      readText? Media.Response.ofDocument? r.toJson.text = some r ∧
      readText? Locus.Snapshot.ofDocument? s.toJson.text = some s ∧
      readText? Locus.Delta.ofDocument? d.toJson.text = some d := by
  intro r s d
  have hlocus : ∀ j ∈ r.locus, j ≠ .null ∧ j.Exact := by
    intro j hj
    cases hj
    exact ⟨nofun, exact_extremes⟩
  have hstate : ∀ m ∈ s.state.entries, m.2.Exact := by
    intro m hm
    cases List.mem_singleton.1 hm
    exact exact_extremes
  have hpayload : ∀ m ∈ d.payload.entries, m.2.Exact := by
    intro m hm
    cases List.mem_singleton.1 hm
    exact exact_extremes
  have hstateNames : s.state.LacksAll Locus.Snapshot.fieldNames := by decide
  have hpayloadNames : d.payload.LacksAll Locus.Delta.fieldNames := by decide
  have hdepths : r.toJson.depth ≤ Document.nestingLimit ∧ s.toJson.depth ≤ Document.nestingLimit ∧
      d.toJson.depth ≤ Document.nestingLimit := by decide
  obtain ⟨-, -, -, hreply, hcopy, hchange⟩ := read_written
  exact ⟨⟨hlocus, hdepths.1, hstateNames, hstate, hdepths.2.1, hpayloadNames, hpayload,
      hdepths.2.2⟩,
    hreply r hlocus hdepths.1, hcopy s hstateNames hstate hdepths.2.1,
    hchange d hpayloadNames hpayload hdepths.2.2⟩

end CallSignaling
