import CallSignaling.Json.Document

/-!
# Records in JSON documents

A record is written as an object with its field names, or as the list of its fields in order.

* `Document.fields?`: the documents of the named fields.  In an object members with other names are
  left out of account and a named one may occur once; a list may stop early but not run on.
* `Document.free?`: the members of an object other than the named ones, as values to be kept.
* `Document.text?`, `Document.natBelow?`, `Document.word64?`, `Document.word32?`, `Document.flag?`,
  `Document.list?`, `Document.optional?`: single fields.
-/

namespace CallSignaling

namespace Document

/-- The text of a string. -/
def text? : Document → Option String
  | string value => value
  | _ => none

/-- A truth value. -/
def flag? : Document → Option Bool
  | bool value => some value
  | _ => none

/-- A non-negative integer below `bound`, written with digits only. -/
def natBelow? (bound : Nat) : Document → Option Nat
  | number value => value.natural?.filter (· < bound)
  | _ => none

/-- A non-negative integer of at most 64 bits. -/
def word64? (d : Document) : Option UInt64 := (d.natBelow? UInt64.size).map UInt64.ofNat

/-- A non-negative integer of at most 32 bits. -/
def word32? (d : Document) : Option UInt32 := (d.natBelow? UInt32.size).map UInt32.ofNat

/-- A list each of whose items `item?` reads. -/
def list? {α : Type} (item? : Document → Option α) : Document → Option (List α)
  | array items => items.mapM item?
  | _ => none

/-- What `value?` reads, or nothing from `null`. -/
def optional? {α : Type} (value? : Document → Option α) : Document → Option (Option α)
  | null => some none
  | d => (value? d).map some

/-- The member called `name`: `some none` if there is none, `none` if there are several. -/
def member? (name : String) (members : List (Option String × Document)) :
    Option (Option Document) :=
  match members.filter (·.1 = some name) with
  | [] => some none
  | [(_, d)] => some (some d)
  | _ => none

/-- The documents of the fields `names`, where a missing field gives `none`. -/
def fields? (names : List String) : Document → Option (List (Option Document))
  | object members =>
    if members.all (·.1.isSome) then names.mapM fun name => member? name members else none
  | array items =>
    if items.length ≤ names.length then
      some (items.map some ++ List.replicate (names.length - items.length) none)
    else none
  | _ => none

/-- The members of an object whose names are not among `names`, in the room left for containers. -/
def free? (names : List String) (room : Nat) : Document → Option (SortedMap String Json)
  | object members => do
    let others ← memberValues? room
      (members.filter fun m => m.1.all fun name => !names.contains name)
    return SortedMap.ofList others
  | _ => none

/-- A field that has to be there. -/
def required {α : Type} (read? : Document → Option α) (field : Option Document) : Option α :=
  field.bind read?

/-- A field that is `default` when missing. -/
def withDefault {α : Type} (read? : Document → Option α) (default : α) :
    Option Document → Option α
  | none => some default
  | some d => read? d

/-- A field that may be missing or `null`. -/
def whenPresent {α : Type} (read? : Document → Option α) : Option Document → Option (Option α) :=
  withDefault (optional? read?) none

end Document

end CallSignaling
