import CallSignaling.Json.Number
import CallSignaling.SortedMap

/-!
# JSON values

* `Json`: a value.  The members of an object are kept as a list, so a value also says in which order
  an encoder writes them.
* `Json.canonical`: the same value with the members of every object by increasing name, the last of
  several members with one name winning.
-/

namespace CallSignaling

/-- A JSON value. -/
inductive Json where
  | null
  | bool (value : Bool)
  | number (value : Number)
  | string (value : String)
  | array (items : List Json)
  | object (members : List (String × Json))
  deriving Inhabited, Repr

namespace Json

/-- A non-negative integer. -/
def nat (n : Nat) : Json := .number (.integer n)

/-- A list of strings. -/
def strings (values : List String) : Json := .array (values.map .string)

mutual

/-- The value with the members of every object by increasing name.  Of several members with one name
the last one stays. -/
def canonical : Json → Json
  | array items => array (canonicalItems items)
  | object members => object (SortedMap.ofList (canonicalMembers members)).entries
  | other => other

/-- `canonical` on every item. -/
def canonicalItems : List Json → List Json
  | [] => []
  | item :: rest => item.canonical :: canonicalItems rest

/-- `canonical` on the value of every member. -/
def canonicalMembers : List (String × Json) → List (String × Json)
  | [] => []
  | (name, value) :: rest => (name, value.canonical) :: canonicalMembers rest

end

end Json

end CallSignaling
