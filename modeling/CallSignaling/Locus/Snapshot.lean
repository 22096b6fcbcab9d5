import CallSignaling.Locus.Sequence

/-!
# Copies of a call's state and changes to them

* `Locus.SyncKind`, `Locus.DestroyReason`: the two ways of fetching a copy, and why a meeting is
  given up.
* `Locus.Snapshot`: a whole copy of the state.
* `Locus.Delta`: a change from one position to the next.
* `Locus.Snapshot.apply`, `Locus.Snapshot.merge`: a change, or a partial copy, written over a copy.
  Top-level fields are replaced as a whole.
* `Locus.Snapshot.toJson`, `Locus.Snapshot.ofDocument?`, `Locus.Delta.toJson`,
  `Locus.Delta.ofDocument?`: the wire forms, in which free fields stand beside the named ones.
-/

namespace CallSignaling.Locus

/-- The top-level fields of the state, by name. -/
abbrev Fields := SortedMap String Json

/-- What a resync fetches. -/
inductive SyncKind where
  /-- What changed since the copy held. -/
  | delta
  /-- A whole copy. -/
  | full
  deriving DecidableEq, Repr, Inhabited

/-- The name of a kind of resync. -/
def SyncKind.name : SyncKind → String
  | delta => "delta"
  | full => "full"

/-- Why a meeting is given up. -/
inductive DestroyReason where
  /-- Neither kind of resync succeeded. -/
  | syncFailed
  deriving DecidableEq, Repr, Inhabited

/-- The name of a reason. -/
def DestroyReason.name : DestroyReason → String
  | syncFailed => "locus_dto_sync_failed"

/-- A copy of the state. -/
structure Snapshot where
  /-- Where the whole state can be fetched. -/
  url : String := ""
  sequence : Sequence := {}
  /-- Where what changed since this copy can be fetched. -/
  syncUrl : Option String := none
  state : Fields := ∅
  deriving Inhabited

/-- A change of the state. -/
structure Delta where
  /-- What the receiver is expected to hold. -/
  baseSequence : Sequence
  /-- What the receiver holds afterwards. -/
  sequence : Sequence
  syncUrl : Option String := none
  /-- The top-level fields that change. -/
  payload : Fields := ∅
  deriving Inhabited

namespace Delta

/-- A change without fields from the end of one range to that of another. -/
def range (baseEnd stop : UInt64) : Delta :=
  { baseSequence := .range 0 baseEnd, sequence := .range 0 stop }

/-- The position that the receiver is expected to be at. -/
def base (d : Delta) : UInt64 := d.baseSequence.position

/-- The position that the receiver is at afterwards. -/
def target (d : Delta) : UInt64 := d.sequence.position

end Delta

namespace Snapshot

/-- The position of the copy. -/
def position (s : Snapshot) : UInt64 := s.sequence.position

/-- The copy after a change. -/
def apply (s : Snapshot) (d : Delta) : Snapshot :=
  { s with
    sequence := d.sequence
    syncUrl := d.syncUrl.or s.syncUrl
    state := s.state.union d.payload }

/-- The copy with a partial copy written over it.  An empty `url` keeps the one held. -/
def merge (s : Snapshot) (part : Snapshot) : Snapshot :=
  { url := if part.url.isEmpty then s.url else part.url
    sequence := part.sequence
    syncUrl := part.syncUrl.or s.syncUrl
    state := s.state.union part.state }

/-! ### Wire form -/

/-- The names of the fields that are not free. -/
def fieldNames : List String := ["url", "sequence", "syncUrl"]

/-- The copy as an object, the named fields first. -/
def toJson (s : Snapshot) : Json :=
  .object <|
    [("url", .string s.url), ("sequence", s.sequence.toJson)]
    ++ (s.syncUrl.map fun url => ("syncUrl", Json.string url)).toList
    ++ s.state.entries

/-- The copy that an object says. -/
def ofDocument? (d : Document) : Option Snapshot := do
  let state ← d.free? fieldNames (Document.nestingLimit - 1)
  match ← d.fields? fieldNames with
  | [url, sequence, syncUrl] =>
    return {
      url := ← Document.withDefault Document.text? "" url
      sequence := ← Document.withDefault Sequence.ofDocument? {} sequence
      syncUrl := ← Document.whenPresent Document.text? syncUrl
      state }
  | _ => none

end Snapshot

namespace Delta

/-- The names of the fields that are not free. -/
def fieldNames : List String := ["baseSequence", "sequence", "syncUrl"]

/-- The change as an object, the named fields first. -/
def toJson (d : Delta) : Json :=
  .object <|
    [("baseSequence", d.baseSequence.toJson), ("sequence", d.sequence.toJson)]
    ++ (d.syncUrl.map fun url => ("syncUrl", Json.string url)).toList
    ++ d.payload.entries

/-- The change that an object says. -/
def ofDocument? (d : Document) : Option Delta := do
  let payload ← d.free? fieldNames (Document.nestingLimit - 1)
  match ← d.fields? fieldNames with
  | [baseSequence, sequence, syncUrl] =>
    return {
      baseSequence := ← Document.required Sequence.ofDocument? baseSequence
      sequence := ← Document.required Sequence.ofDocument? sequence
      syncUrl := ← Document.whenPresent Document.text? syncUrl
      payload }
  | _ => none

end Delta

end CallSignaling.Locus
