import CallSignaling.Media.Response
import CallSignaling.Proofs.Json.Keeping
import CallSignaling.Proofs.Json.Members
import CallSignaling.Proofs.Json.RoundTrip

/-!
# Messages carried by replies

A message travels as JSON text inside a string of a reply, and the reply as JSON text in turn, so
the message is escaped twice.

* `Roap.Message.fields`: the fields of a message as they are printed.
* `Roap.Message.StandsFor`: what may stand for a field, as a field that is absent may be written out.
* `Roap.Message.ofDocument?_of_standsFor`: a message is read from what stands for its fields, among
  members with other names and in any order.
* `Roap.Message.ofDocument?_of_perm`: a printed message is read back, whatever the order of its
  members.
* `Media.Response.ofDocument?_toJson`: a printed reply is read back.
* `Media.Response.Carries`: a reply carries a message under a media id.
* `Media.Response.carries_embedding`: the reply made to carry a message carries it, and so does what
  is read from its text.
-/

namespace CallSignaling

open Json (present)

/-! ### Messages -/

namespace Roap

theorem MessageKind.ofDocument?_name (kind : MessageKind) :
    ofDocument? (Document.ofJson (.string kind.name)) = some kind := by
  cases kind <;> decide

namespace Message

/-- A list as a field, absent when empty. -/
def listField (values : List String) : Option Json :=
  if values.isEmpty then none else some (.strings values)

/-- The fields of a message as they are printed. -/
def fields (m : Message) : List (String × Option Json) :=
  [("messageType", some (.string m.kind.name)), ("version", some (.string m.version)),
    ("seq", some (.nat m.seq.toNat)), ("sdps", listField m.sdps),
    ("tieBreaker", m.tieBreaker.map fun n => .nat n.toNat), ("headers", listField m.headers),
    ("errorType", m.errorType.map .string), ("errorCause", m.errorCause.map .string)]

theorem names_fields (m : Message) : m.fields.map Prod.fst = fieldNames := rfl

theorem toJson_eq_present (m : Message) : m.toJson = .object (present m.fields) := by
  have hlist : ∀ name values, listMember name values = present [(name, listField values)] := by
    intro name values
    cases values <;> rfl
  have hoption : ∀ {α : Type} (name : String) (toJson : α → Json) (value : Option α),
      (value.map fun a => (name, toJson a)).toList = present [(name, value.map toJson)] := by
    intro α name toJson value
    cases value <;> rfl
  have hfirst : [("messageType", Json.string m.kind.name), ("version", .string m.version),
      ("seq", .nat m.seq.toNat)] = present (m.fields.take 3) := rfl
  rw [toJson, hfirst, hlist, hlist, hoption, hoption, hoption]
  simp only [← Json.present_append]
  rfl

/-- How a field may be written out that a message is printed without. -/
def absentForm (name : String) : Document :=
  if name = "sdps" ∨ name = "headers" then .array [] else .null

/-- What may stand for a field: what is printed for it, or a field written out that is not printed. -/
inductive StandsFor : String × Option Json → String × Option Document → Prop
  | printed (name : String) (value : Option Json) :
      StandsFor (name, value) (name, value.map Document.ofJson)
  | writtenOut (name : String) : StandsFor (name, none) (name, some (absentForm name))

theorem StandsFor.eq_of_some {name : String} {j : Json} {d : String × Option Document}
    (h : StandsFor (name, some j) d) : d.2 = some (Document.ofJson j) := by
  cases h
  rfl

theorem StandsFor.withDefault_list {name : String} {values : List String}
    {d : String × Option Document} (h : StandsFor (name, listField values) d)
    (hname : absentForm name = .array []) :
    Document.withDefault (Document.list? Document.text?) [] d.2 = some values := by
  cases values with
  | nil =>
    cases h with
    | printed => rfl
    | writtenOut =>
      show Document.list? Document.text? (absentForm name) = some []
      rw [hname]
      rfl
  | cons value values =>
    rw [h.eq_of_some]
    exact Document.list?_map Document.text?_string (value :: values)

theorem StandsFor.whenPresent {α : Type} {read? : Document → Option α} {toJson : α → Json}
    {name : String} {value : Option α} {d : String × Option Document}
    (h : StandsFor (name, value.map toJson) d) (hread : ∀ a, read? (.ofJson (toJson a)) = some a)
    (hnull : ∀ a, toJson a ≠ .null) (hname : absentForm name = .null) :
    Document.whenPresent read? d.2 = some value := by
  cases value with
  | none =>
    cases h with
    | printed => rfl
    | writtenOut =>
      show Document.optional? read? (absentForm name) = some none
      rw [hname]
      rfl
  | some a =>
    rw [h.eq_of_some]
    exact Document.whenPresent_map hread hnull (some a)

theorem names_of_standsFor {fields : List (String × Option Json)}
    {documents : List (String × Option Document)} (h : List.Forall₂ StandsFor fields documents) :
    documents.map Prod.fst = fields.map Prod.fst := by
  induction h with
  | nil => rfl
  | cons h _ ih =>
    rw [List.map_cons, List.map_cons, ih]
    cases h <;> rfl

/-- A message is read from what stands for its fields, among members with other names and in any
order. -/
theorem ofDocument?_of_standsFor {m : Message} {documents : List (String × Option Document)}
    {members others : List (Option String × Document)}
    (h : List.Forall₂ StandsFor m.fields documents)
    (hothers : ∀ member ∈ others, ∃ name ∉ fieldNames, member.1 = some name)
    (hperm : members.Perm (Document.fieldMembers documents ++ others)) :
    ofDocument? (.object members) = some m := by
  have hnames : documents.map Prod.fst = fieldNames := names_of_standsFor h
  rw [← hnames] at hothers
  have hfields := Document.fields?_fieldMembers (by rw [hnames]; decide) hothers
  rw [hnames, ← Document.fields?_of_perm hperm] at hfields
  simp only [fields, List.forall₂_cons_left_iff, List.forall₂_nil_left_iff] at h
  obtain ⟨kind, _, hkind, ⟨version, _, hversion, ⟨seq, _, hseq, ⟨sdps, _, hsdps,
    ⟨tieBreaker, _, htieBreaker, ⟨headers, _, hheaders, ⟨errorType, _, herrorType,
    ⟨errorCause, _, herrorCause, rfl, rfl⟩, rfl⟩, rfl⟩, rfl⟩, rfl⟩, rfl⟩, rfl⟩, rfl⟩ := h
  have hversion : Document.withDefault Document.text? protocolVersion version.2 =
      some m.version := by
    rw [hversion.eq_of_some]
    rfl
  have hsdps := hsdps.withDefault_list rfl
  have htieBreaker := htieBreaker.whenPresent Document.word32?_nat (by simp [Json.nat]) rfl
  have hheaders := hheaders.withDefault_list rfl
  have herrorType := herrorType.whenPresent Document.text?_string (by simp) rfl
  have herrorCause := herrorCause.whenPresent Document.text?_string (by simp) rfl
  rw [ofDocument?, hfields]
  simp only [List.map_cons, List.map_nil, Option.bind_eq_bind, Option.bind_some,
    Document.required, hkind.eq_of_some, MessageKind.ofDocument?_name, hversion, hseq.eq_of_some,
    Document.word64?_nat, hsdps, htieBreaker, hheaders, herrorType, herrorCause]
  rfl

theorem standsFor_printed (fields : List (String × Option Json)) :
    List.Forall₂ StandsFor fields (fields.map fun field => (field.1, field.2.map .ofJson)) :=
  List.forall₂_map_right_iff.2 (List.forall₂_same.2 fun field _ => .printed field.1 field.2)

/-- A printed message is read back, whatever the order of its members. -/
theorem ofDocument?_of_perm {m : Message} {members : List (String × Json)}
    (h : members.Perm (present m.fields)) :
    ofDocument? (Document.ofJson (.object members)) = some m := by
  refine @ofDocument?_of_standsFor m _ _ [] (standsFor_printed m.fields) (by simp) ?_
  rw [List.append_nil, ← Document.ofMembers_present]
  simp only [Document.ofMembers_eq_map]
  exact h.map _

theorem returns_listField (values : List String) : ∀ j ∈ listField values, j.Returns 1 := by
  intro j hj
  cases values with
  | nil => cases hj
  | cons value values =>
    cases hj
    exact Json.returns_strings 0 (value :: values)

theorem returns_fields (m : Message) : ∀ field ∈ m.fields, ∀ j ∈ field.2, j.Returns 1 := by
  have hstring : ∀ value : Option String, ∀ j ∈ value.map Json.string, j.Returns 1 := by
    intro value j hj
    obtain ⟨s, -, rfl⟩ := Option.map_eq_some_iff.1 hj
    exact Json.returns_string 1 s
  have hseq : (Json.nat m.seq.toNat).Returns 1 := Json.returns_nat 1 m.seq.toNat_lt
  have htieBreaker : ∀ j ∈ m.tieBreaker.map fun n => Json.nat n.toNat, j.Returns 1 := by
    intro j hj
    obtain ⟨n, -, rfl⟩ := Option.map_eq_some_iff.1 hj
    exact Json.returns_nat 1 (Nat.lt_trans n.toNat_lt (by decide))
  simp only [fields, List.forall_mem_cons]
  exact ⟨hstring (some _), hstring (some _), fun j hj => by cases hj; exact hseq,
    returns_listField m.sdps, htieBreaker, returns_listField m.headers, hstring m.errorType,
    hstring m.errorCause, fun _ h => absurd h List.not_mem_nil⟩

theorem returns_members (m : Message) : ∀ p ∈ present m.fields, p.2.Returns 1 :=
  fun _ hp => m.returns_fields _ (Json.mem_present.1 hp) _ rfl

theorem canonical_toJson (m : Message) :
    m.toJson.canonical = .object (SortedMap.ofList (present m.fields)).entries := by
  rw [toJson_eq_present, Json.canonical,
    Json.canonicalMembers_of_fixed fun p hp => (m.returns_members p hp).canonical]

/-- A printed message is read back. -/
theorem ofDocument?_toJson (m : Message) : ofDocument? (Document.ofJson m.toJson) = some m := by
  rw [toJson_eq_present]
  exact ofDocument?_of_perm (.refl _)

/-- A message printed with its members in order of their names is read back. -/
theorem ofDocument?_canonical (m : Message) :
    ofDocument? (Document.ofJson m.toJson.canonical) = some m := by
  have hnodup : ((present m.fields).map Prod.fst).Nodup :=
    (Json.names_present_sublist m.fields).nodup (by rw [names_fields]; decide)
  rw [canonical_toJson]
  exact ofDocument?_of_perm (SortedMap.entries_ofList_perm hnodup)

end Message

end Roap

/-! ### Replies -/

namespace Media

open Roap (Message)

namespace Connection

/-- The fields of a connection as they are printed. -/
def fields (c : Connection) : List (String × Option Json) :=
  [("mediaId", some (.string c.mediaId)), ("remoteSdp", c.remoteSdp.map .string)]

theorem toJson_eq_present (c : Connection) : c.toJson = .object (present c.fields) := by
  rw [toJson]
  cases h : c.remoteSdp <;> simp [fields, present, h]

/-- A printed connection is read back. -/
theorem ofDocument?_toJson (c : Connection) : ofDocument? (Document.ofJson c.toJson) = some c := by
  have hfields : (Document.ofJson c.toJson).fields? ["mediaId", "remoteSdp"] =
      some (c.fields.map fun field => field.2.map Document.ofJson) := by
    rw [toJson_eq_present]
    exact Document.fields?_object c.fields (by simp [fields])
  have hremoteSdp := Document.whenPresent_map Document.text?_string (by simp) c.remoteSdp
  rw [ofDocument?, hfields]
  simp only [fields, List.map_cons, List.map_nil, Option.map_some, Option.bind_eq_bind,
    Option.bind_some, Document.withDefault, Document.text?_string, hremoteSdp]
  rfl

end Connection

namespace Response

/-- The fields of a reply as they are printed. -/
def fields (r : Response) : List (String × Option Json) :=
  [("locus", r.locus), ("mediaConnections", some (.array (r.connections.map Connection.toJson)))]

theorem toJson_eq_present (r : Response) : r.toJson = .object (present r.fields) := by
  rw [toJson]
  cases h : r.locus <;> simp [fields, present, h]

/-- A printed reply is read back, if the state of the call is. -/
theorem ofDocument?_toJson {r : Response}
    (h : Document.whenPresent (Document.value? (Document.nestingLimit - 1))
      (r.locus.map Document.ofJson) = some r.locus) :
    ofDocument? (Document.ofJson r.toJson) = some r := by
  have hfields : (Document.ofJson r.toJson).fields? ["locus", "mediaConnections"] =
      some (r.fields.map fun field => field.2.map Document.ofJson) := by
    rw [toJson_eq_present]
    exact Document.fields?_object r.fields (by simp [fields])
  have hconnections := Document.list?_map Connection.ofDocument?_toJson r.connections
  rw [ofDocument?, hfields]
  simp only [fields, List.map_cons, List.map_nil, Option.map_some, Option.bind_eq_bind,
    Option.bind_some, Document.withDefault, h, hconnections]
  rfl

/-- The message inside a reply, as it is printed. -/
theorem canonical_body (message : Message) :
    (Json.object [("roapMessage", message.toJson)]).canonical =
      .object (present [("roapMessage", some message.toJson.canonical)]) := by
  simp only [Json.canonical, Json.canonicalMembers]
  rfl

/-- A message is read back from the text inside a reply. -/
theorem messageOfText?_text (message : Message) :
    messageOfText? (Json.object [("roapMessage", message.toJson)]).canonical.text =
      some (some message) := by
  have hfields : (Document.ofJson (.object (present [("roapMessage",
      some message.toJson.canonical)]))).fields? ["roapMessage"] =
        some [some (Document.ofJson message.toJson.canonical)] :=
    Document.fields?_object [("roapMessage", some message.toJson.canonical)] (by simp)
  have hmessage : Document.whenPresent Message.ofDocument?
      (some (Document.ofJson message.toJson.canonical)) = some (some message) := by
    rw [Document.whenPresent, Document.withDefault, Document.optional?,
      message.ofDocument?_canonical]
    · rfl
    · rw [message.canonical_toJson]
      simp
  rw [messageOfText?, Document.ofText?_text, canonical_body, Option.bind_eq_bind, Option.bind_some]
  split
  · contradiction
  · rw [hfields]
    exact hmessage

/-- The reply made to carry a message carries it. -/
theorem embedded?_embedding (mediaId : String) (message : Message) :
    (embedding mediaId message).embedded? = .ok (some message) := by
  have hnonempty := Document.text_ne_empty
    (Json.object [("roapMessage", message.toJson)]).canonical
  simp [embedded?, embedding, hnonempty, messageOfText?_text]

/-- A reply carries a message, under a media id unless that is empty. -/
structure Carries (r : Response) (mediaId : String) (message : Message) : Prop where
  message : r.embedded? = .ok (some message)
  mediaId : r.mediaId? = if mediaId = "" then none else some mediaId

/-- **Embedding and extracting**: the reply made to carry a message carries it, and so does the
reply that is read from its text. -/
theorem carries_embedding (mediaId : String) (message : Message) :
    (embedding mediaId message).Carries mediaId message ∧
      ∃ r, (Document.ofText? (embedding mediaId message).toJson.text).bind ofDocument? = some r ∧
        r.Carries mediaId message := by
  have hcarries : (embedding mediaId message).Carries mediaId message := by
    refine ⟨embedded?_embedding mediaId message, ?_⟩
    show (some mediaId).filter (!·.isEmpty) = _
    by_cases h : mediaId = "" <;> simp [h]
  refine ⟨hcarries, _, ?_, hcarries⟩
  rw [Document.ofText?_text, Option.bind_some, ofDocument?_toJson rfl]

end Response

end Media

end CallSignaling
