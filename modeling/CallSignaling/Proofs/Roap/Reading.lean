import CallSignaling.Proofs.Media.Embedding
import Mathlib.Data.List.Forall2

/-!
# Messages in texts of any making

A reader of messages takes what a peer may have written: members in any order, blanks, characters
and numbers spelled in any way, members it does not know, empty lists and `null`s written out.

* `Roap.Message.leftOut`: the members that a message is printed without, written out.
* `Roap.Message.WrittenAs`: the members by which a message may be written.
* `Roap.Message.SpoiledBy`: members from which no message is read.

Main statement: a message is read from every text of an object that is written so, and from every
reply that carries such a text, and no message is read where one of its fields stands twice or the
name of a member is no text (`tolerant_reading`).
-/

namespace CallSignaling.Roap.Message

open Json (present)
open Document (Spells fieldMembers ofMembers readText?)

/-! ### The members of a message -/

/-- The members that are left out when the fields are printed, written out. -/
def writtenOut (fields : List (String × Option Json)) : List (Option String × Document) :=
  (fields.filter (·.2.isNone)).map fun field => (some field.1, absentForm field.1)

/-- The members that a message is printed without, written out. -/
def leftOut (m : Message) : List (Option String × Document) := writtenOut m.fields

/-- The members by which a message may be written: those it is printed with, some of those left out
and members with other names, in any order. -/
inductive WrittenAs (m : Message) : List (Option String × Document) → Prop
  | intro {printed chosen others members : List (Option String × Document)}
      (hprinted : Document.ofJson m.toJson = .object printed) (hchosen : chosen.Sublist m.leftOut)
      (hothers : ∀ member ∈ others, ∃ name ∉ fieldNames, member.1 = some name)
      (hperm : members.Perm (printed ++ chosen ++ others)) : WrittenAs m members

/-- Members from which no message is read: one of its fields stands there twice, or the name of a
member is no text. -/
def SpoiledBy (members : List (Option String × Document)) : Prop :=
  (∃ name ∈ fieldNames, 2 ≤ (members.map Prod.fst).count (some name)) ∨
    none ∈ members.map Prod.fst

/-- What is printed and some of what is left out stand for the fields. -/
theorem exists_standsFor {fields : List (String × Option Json)}
    {chosen : List (Option String × Document)} (h : chosen.Sublist (writtenOut fields)) :
    ∃ documents, List.Forall₂ StandsFor fields documents ∧
      (ofMembers (present fields) ++ chosen).Perm (fieldMembers documents) := by
  induction fields generalizing chosen with
  | nil =>
    cases h
    exact ⟨[], .nil, .refl _⟩
  | cons field fields ih =>
    obtain ⟨name, value⟩ := field
    cases value with
    | some value =>
      obtain ⟨documents, hstands, hperm⟩ := ih h
      exact ⟨_, .cons (.printed name (some value)) hstands, hperm.cons _⟩
    | none =>
      cases h with
      | cons _ h =>
        obtain ⟨documents, hstands, hperm⟩ := ih h
        exact ⟨_, .cons (.printed name none) hstands, hperm⟩
      | cons_cons _ h =>
        obtain ⟨documents, hstands, hperm⟩ := ih h
        exact ⟨_, .cons (.writtenOut name) hstands, List.perm_middle.trans (hperm.cons _)⟩

theorem ofDocument?_of_writtenAs {m : Message} {members : List (Option String × Document)}
    (h : m.WrittenAs members) : ofDocument? (.object members) = some m := by
  obtain ⟨hprinted, hchosen, hothers, hperm⟩ := h
  obtain ⟨documents, hstands, hdocuments⟩ := exists_standsFor hchosen
  rw [toJson_eq_present, Document.ofJson] at hprinted
  cases hprinted
  exact ofDocument?_of_standsFor hstands hothers (hperm.trans (hdocuments.append_right _))

theorem ofDocument?_of_spoiledBy {members : List (Option String × Document)}
    (h : SpoiledBy members) : ofDocument? (.object members) = none := by
  have hfields : (Document.object members).fields? fieldNames = none := by
    rcases h with ⟨name, hname, hcount⟩ | hnone
    · exact Document.fields?_of_repeated_member hname hcount
    · exact Document.fields?_of_nameless hnone
  rw [ofDocument?, hfields]
  rfl

/-! ### Messages carried by replies -/

/-- The first connection of a reply carries a text of an object, and the message in that object, which
may hold members with other names, has the given members. -/
inductive CarriedBy (members : List (Option String × Document)) (r : Media.Response) : Prop
  | intro {text : String} {outer others : List (Option String × Document)}
      (hr : r.connections.head?.bind (·.remoteSdp) = some text) (htext : Spells text (.object outer))
      (hothers : ∀ member ∈ others, ∃ name ≠ "roapMessage", member.1 = some name)
      (hperm : outer.Perm ((some "roapMessage", .object members) :: others)) : CarriedBy members r

theorem embedded?_of_carriedBy {members : List (Option String × Document)} {r : Media.Response}
    (h : CarriedBy members r) :
    r.embedded? = match ofDocument? (.object members) with
      | some m => .ok (some m)
      | none => .error {} := by
  cases h with
  | @intro text outer others hr htext hothers hperm =>
    have hfields : (Document.object outer).fields? ["roapMessage"] =
        some [some (.object members)] := by
      rw [Document.fields?_of_perm hperm]
      exact @Document.fields?_fieldMembers [("roapMessage", some (.object members))] others
        (by simp) (by simpa using hothers)
    have hmessage : Media.Response.messageOfText? text =
        (ofDocument? (.object members)).map some := by
      rw [Media.Response.messageOfText?, Document.ofText?_of_spells htext]
      simp only [Option.bind_eq_bind, Option.bind_some, hfields]
      rfl
    simp only [Media.Response.embedded?, hr, String.isEmpty_iff, htext.ne_empty, if_false, hmessage]
    cases ofDocument? (.object members) <;> rfl

/-- **Tolerant reading**: a message is read from every text of an object that may stand for it and
from every reply that carries such an object, and nothing is read from a spoiled one. -/
theorem tolerant_reading (members : List (Option String × Document)) :
    (∀ text, Spells text (.object members) →
      (∀ m : Message, m.WrittenAs members → readText? ofDocument? text = some m) ∧
      (SpoiledBy members → readText? ofDocument? text = none)) ∧
    ∀ r, CarriedBy members r →
      (∀ m : Message, m.WrittenAs members → r.embedded? = .ok (some m)) ∧
      (SpoiledBy members → r.embedded? = .error {}) := by
  constructor
  · intro text htext
    rw [Document.readText?_of_spells _ htext]
    exact ⟨fun m => ofDocument?_of_writtenAs, ofDocument?_of_spoiledBy⟩
  · intro r hr
    rw [embedded?_of_carriedBy hr]
    constructor
    · intro m hm
      rw [ofDocument?_of_writtenAs hm]
    · intro hspoiled
      rw [ofDocument?_of_spoiledBy hspoiled]

set_option maxRecDepth 4000 in
/-- An acknowledgement behind a blank and two members that it does not know, with an empty list and
a `null` written out. -/
theorem reads_acknowledgement :
    readText? ofDocument? (" \x7b\"x\":[[\x7b\x7d]],\"x\":null,\"messageType\":\"OK\"," ++
      "\"version\":\"2\",\"seq\":7,\"sdps\":[],\"tieBreaker\":null\x7d") = some (.ok 7) := by
  let unknown : List (String × Json) := [("x", .array [.array [.object []]]), ("x", .null)]
  let chosen : List (String × Json) := [("sdps", .array []), ("tieBreaker", .null)]
  let members := unknown ++ (present (ok 7).fields ++ chosen)
  have hjoin : ∀ {s t : List Char} {d : Document}, Spells (String.ofList (s ++ t)) d →
      Spells (String.ofList s ++ String.ofList t) d := by
    intro s t d h
    rwa [String.ofList_append] at h
  have hspells : Spells (" \x7b\"x\":[[\x7b\x7d]],\"x\":null,\"messageType\":\"OK\"," ++
      "\"version\":\"2\",\"seq\":7,\"sdps\":[],\"tieBreaker\":null\x7d")
        (.object (ofMembers members)) :=
    hjoin (Document.spells_ofList rfl)
  have hchosen : (ofMembers chosen).Sublist (ok 7).leftOut :=
    .cons_cons _ (.cons_cons _ (List.nil_sublist _))
  have hunknown : ∀ member ∈ ofMembers unknown, ∃ name ∉ fieldNames, member.1 = some name := by
    simp [unknown, ofMembers, fieldNames]
  have hperm : (ofMembers members).Perm
      (ofMembers (present (ok 7).fields) ++ ofMembers chosen ++ ofMembers unknown) := by
    simp only [members, Document.ofMembers_eq_map, List.map_append]
    exact List.perm_append_comm
  exact ((tolerant_reading _).1 _ hspells).1 _ (.intro rfl hchosen hunknown hperm)

set_option maxRecDepth 4000 in
/-- A member whose name is written as half of a surrogate pair spoils an acknowledgement. -/
theorem not_reads_halfName :
    Spells ("\x7b\"messageType\":\"OK\",\"version\":\"2\",\"seq\":7,\"\\ud800\":1\x7d")
      (.object (ofMembers (present (ok 7).fields) ++ [(none, .number ({ whole := ['1'] }))])) ∧
    readText? ofDocument?
      ("\x7b\"messageType\":\"OK\",\"version\":\"2\",\"seq\":7,\"\\ud800\":1\x7d") = none := by
  have hspells : Spells ("\x7b\"messageType\":\"OK\",\"version\":\"2\",\"seq\":7,\"\\ud800\":1\x7d")
      (.object (ofMembers (present (ok 7).fields) ++ [(none, .number ({ whole := ['1'] }))])) :=
    Document.spells_ofList rfl
  refine ⟨hspells, ?_⟩
  rw [Document.readText?_of_spells _ hspells]
  rfl

end CallSignaling.Roap.Message
