import CallSignaling.Locus.Snapshot
import CallSignaling.Proofs.Json.FreeFields
import CallSignaling.Proofs.Json.RoundTrip

/-!
# The wire forms of positions, copies and changes

Free fields are printed beside the named ones.  As long as none of them has the name of a field, a
copy or a change is read back exactly if they return.
-/

namespace CallSignaling.Locus

open Json (present)

/-! ### Positions -/

namespace Sequence

/-- The fields of a sequence as they are printed. -/
def fields (s : Sequence) : List (String × Option Json) :=
  [("entries", some (.array (s.entries.map fun e => .nat e.toNat))),
    ("rangeStart", some (.nat s.rangeStart.toNat)), ("rangeEnd", some (.nat s.rangeEnd.toNat))]

/-- A printed sequence is read back. -/
theorem ofDocument?_toJson (s : Sequence) : ofDocument? (Document.ofJson s.toJson) = some s := by
  have hfields : (Document.ofJson s.toJson).fields? fieldNames =
      some (s.fields.map fun field => field.2.map Document.ofJson) :=
    Document.fields?_object s.fields (by simp [fields])
  have hentries := Document.list?_map Document.word64?_nat s.entries
  rw [ofDocument?, hfields]
  simp only [fields, List.map_cons, List.map_nil, Option.map_some, Option.bind_eq_bind,
    Option.bind_some, hentries, Document.withDefault, Document.word64?_nat]
  rfl

end Sequence

/-! ### Copies -/

namespace Snapshot

/-- The named fields of a copy as they are printed. -/
def fields (s : Snapshot) : List (String × Option Json) :=
  [("url", some (.string s.url)), ("sequence", some s.sequence.toJson),
    ("syncUrl", s.syncUrl.map .string)]

theorem names_fields (s : Snapshot) : s.fields.map Prod.fst = fieldNames := rfl

theorem toJson_eq_present (s : Snapshot) :
    s.toJson = .object (present s.fields ++ s.state.entries) := by
  rw [toJson]
  cases h : s.syncUrl <;> simp [fields, present, h]

/-- A printed copy is read back exactly if its free fields return, as long as none of them has the
name of a field. -/
theorem ofDocument?_toJson_iff {s : Snapshot} (hnames : s.state.LacksAll fieldNames) :
    ofDocument? (Document.ofJson s.toJson) = some s ↔
      ∀ m ∈ s.state.entries, m.2.Returns (Document.nestingLimit - 1) := by
  have hfields := Document.fields?_printed s.fields (by rw [names_fields]; decide) hnames
  have hfree := @Document.free?_printed_iff s.fields (Document.nestingLimit - 1) _ hnames
  have hsyncUrl := Document.whenPresent_map Document.text?_string (by simp) s.syncUrl
  rw [names_fields] at hfields hfree
  rw [← hfree, ofDocument?, toJson_eq_present, hfields]
  simp only [fields, List.map_cons, List.map_nil, Option.map_some, Option.bind_eq_bind,
    Option.bind_some, Document.withDefault, Document.text?_string, Sequence.ofDocument?_toJson,
    hsyncUrl]
  constructor
  · intro h
    obtain ⟨state, hstate, heq⟩ := Option.bind_eq_some_iff.1 h
    have hsame : state = s.state := congrArg Snapshot.state (Option.some.inj heq)
    rw [hstate, hsame]
  · intro h
    rw [h]
    rfl

end Snapshot

/-! ### Changes -/

namespace Delta

/-- The named fields of a change as they are printed. -/
def fields (d : Delta) : List (String × Option Json) :=
  [("baseSequence", some d.baseSequence.toJson), ("sequence", some d.sequence.toJson),
    ("syncUrl", d.syncUrl.map .string)]

theorem names_fields (d : Delta) : d.fields.map Prod.fst = fieldNames := rfl

theorem toJson_eq_present (d : Delta) :
    d.toJson = .object (present d.fields ++ d.payload.entries) := by
  rw [toJson]
  cases h : d.syncUrl <;> simp [fields, present, h]

/-- A printed change is read back exactly if its free fields return, as long as none of them has the
name of a field. -/
theorem ofDocument?_toJson_iff {d : Delta} (hnames : d.payload.LacksAll fieldNames) :
    ofDocument? (Document.ofJson d.toJson) = some d ↔
      ∀ m ∈ d.payload.entries, m.2.Returns (Document.nestingLimit - 1) := by
  have hfields := Document.fields?_printed d.fields (by rw [names_fields]; decide) hnames
  have hfree := @Document.free?_printed_iff d.fields (Document.nestingLimit - 1) _ hnames
  have hsyncUrl := Document.whenPresent_map Document.text?_string (by simp) d.syncUrl
  rw [names_fields] at hfields hfree
  rw [← hfree, ofDocument?, toJson_eq_present, hfields]
  simp only [fields, List.map_cons, List.map_nil, Option.map_some, Option.bind_eq_bind,
    Option.bind_some, Document.required, Sequence.ofDocument?_toJson, hsyncUrl]
  constructor
  · intro h
    obtain ⟨payload, hpayload, heq⟩ := Option.bind_eq_some_iff.1 h
    have hsame : payload = d.payload := congrArg Delta.payload (Option.some.inj heq)
    rw [hpayload, hsame]
  · intro h
    rw [h]
    rfl

end Delta

end CallSignaling.Locus
