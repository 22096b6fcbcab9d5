import CallSignaling.Json.Record

/-!
# Positions in the history of a call's state

A sequence says which changes a copy of the state contains: single `entries`, and a range of which
both ends are zero when there is none.

* `Locus.Sequence.position`: the point up to which the sequence brings the state.
* `Locus.Sequence.compare`: what to do with an incoming copy.  Four rules are tried in turn: one
  sequence lies after the other; without entries of its own on either side the wider range is newer;
  entries of its own on one side only make that side newer; entries of their own on both sides mean
  that the copies have diverged, unless they lie apart.
-/

namespace CallSignaling.Locus

/-- The changes that a copy of the state contains. -/
structure Sequence where
  entries : List UInt64 := []
  rangeStart : UInt64 := 0
  rangeEnd : UInt64 := 0
  deriving DecidableEq, Repr, Inhabited

/-- What to do with an incoming copy of the state. -/
inductive Comparison where
  /-- The incoming copy is newer. -/
  | useIncoming
  /-- The copy held is as new or newer. -/
  | useCurrent
  /-- The two have diverged. -/
  | desync
  deriving DecidableEq, Repr, Inhabited

/-- The name of a comparison's outcome. -/
def Comparison.name : Comparison → String
  | useIncoming => "use_incoming"
  | useCurrent => "use_current"
  | desync => "desync"

namespace Sequence

/-- A range without entries. -/
def range (start stop : UInt64) : Sequence := { rangeStart := start, rangeEnd := stop }

/-- Entries without a range. -/
def ofEntries (entries : List UInt64) : Sequence := { entries }

/-- The last entry, or the end of the range if there are no entries. -/
def position (s : Sequence) : UInt64 := s.entries.getLast?.getD s.rangeEnd

/-- Both ends of the range are zero. -/
def hasNoRange (s : Sequence) : Bool := s.rangeStart = 0 && s.rangeEnd = 0

/-- Neither entries nor a range. -/
def isEmpty (s : Sequence) : Bool := s.entries.isEmpty && s.hasNoRange

/-! ### Comparison -/

/-- The lowest point: the start of the range if it is set, else the first entry. -/
def lowest? (s : Sequence) : Option UInt64 :=
  if s.rangeStart ≠ 0 then some s.rangeStart else s.entries.head?

/-- The highest point: the last entry unless it is zero or missing, else the end of the range. -/
def highest (s : Sequence) : UInt64 := (s.entries.getLast?.filter (· ≠ 0)).getD s.rangeEnd

/-- The distance from the lowest point to the end of the range. -/
def span? (s : Sequence) : Option Int :=
  s.lowest?.map fun low => (s.rangeEnd.toNat : Int) - low.toNat

/-- Whether `e` is an entry of the sequence or in its range. -/
def covers (s : Sequence) (e : UInt64) : Bool :=
  s.entries.contains e || (s.rangeStart ≤ e && e ≤ s.rangeEnd)

/-- The entries of `s` that `other` does not cover, in increasing order. -/
def entriesBeyond (s other : Sequence) : List UInt64 :=
  (s.entries.filter (!other.covers ·)).mergeSort

/-- How the sequence held stands to the incoming one. -/
inductive Relation where
  | newer
  | older
  | equal
  | diverged
  deriving DecidableEq, Repr

/-- Whether both are there and the first is the larger. -/
def exceeds (a b : Option UInt64) : Bool :=
  match a, b with
  | some a, some b => b < a
  | _, _ => false

/-- One sequence lies entirely after the other. -/
def compareApart? (current incoming : Sequence) : Option Relation :=
  if exceeds current.lowest? (some incoming.highest) then some .newer
  else if exceeds incoming.lowest? (some current.highest) then some .older
  else none

/-- Without entries of its own on either side, the wider range is newer. -/
def compareSpans (current incoming : Sequence) : Relation :=
  match current.span?, incoming.span? with
  | some c, some i => if i < c then .newer else if c < i then .older else .equal
  | _, _ => .equal

/-- Whether an entry lies strictly inside the sequence. -/
def meets (s : Sequence) (entries : List UInt64) : Bool :=
  match s.lowest? with
  | some low => entries.any fun e => low < e && e < s.highest
  | none => false

/-- Entries of their own on both sides, `ours` and `theirs`: the copies have diverged if neither has
a range or if the entries lie among each other. -/
def compareOwn (current incoming : Sequence) (ours theirs : List UInt64) : Relation :=
  if (current.hasNoRange && incoming.hasNoRange)
      || incoming.meets ours || current.meets theirs then .diverged
  else if exceeds ours.head? theirs.head? then .newer
  else .older

/-- How `current` stands to `incoming`: the first rule that decides. -/
def relation (current incoming : Sequence) : Relation :=
  let ours := current.entriesBeyond incoming
  let theirs := incoming.entriesBeyond current
  match compareApart? current incoming with
  | some r => r
  | none =>
    match ours.isEmpty, theirs.isEmpty with
    | true, true => compareSpans current incoming
    | false, true => .newer
    | true, false => .older
    | false, false => compareOwn current incoming ours theirs

/-- What to do with an incoming copy at `incoming` when the copy held is at `current`.  An empty
sequence says nothing, so the incoming copy is taken if either is empty. -/
def compare (current incoming : Sequence) : Comparison :=
  if current.isEmpty || incoming.isEmpty then .useIncoming
  else
    match relation current incoming with
    | .newer | .equal => .useCurrent
    | .older => .useIncoming
    | .diverged => .desync

/-! ### Wire form -/

/-- The names of the fields, in order. -/
def fieldNames : List String := ["entries", "rangeStart", "rangeEnd"]

/-- The sequence as an object. -/
def toJson (s : Sequence) : Json :=
  .object
    [("entries", .array (s.entries.map fun e => .nat e.toNat)),
      ("rangeStart", .nat s.rangeStart.toNat), ("rangeEnd", .nat s.rangeEnd.toNat)]

/-- The sequence that a document says.  Every field may be missing. -/
def ofDocument? (d : Document) : Option Sequence := do
  match ← d.fields? fieldNames with
  | [entries, rangeStart, rangeEnd] =>
    return {
      entries := ← Document.withDefault (Document.list? Document.word64?) [] entries
      rangeStart := ← Document.withDefault Document.word64? 0 rangeStart
      rangeEnd := ← Document.withDefault Document.word64? 0 rangeEnd }
  | _ => none

end Sequence

end CallSignaling.Locus
