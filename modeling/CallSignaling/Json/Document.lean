import CallSignaling.Json.Token

/-!
# JSON documents

A document is what a JSON text says, before anything is asked of it: members keep their order and
may repeat, a string literal may stand for no text, and nesting is unbounded.

* `Document.ofText?`: the document of a text.
* `Document.value?`: the value of a document that is to be kept.  Nesting is limited, every string
  has to stand for a text, no number may be too large, and of several members with one name the last
  one stays.
-/

namespace CallSignaling

/-- What a JSON text says. -/
inductive Document where
  | null
  | bool (value : Bool)
  | number (value : Numeral)
  | string (value : Option String)
  | array (items : List Document)
  | object (members : List (Option String × Document))
  deriving Inhabited, Repr

namespace Document

mutual

/-- The document that the tokens start with, and the tokens after it. -/
def parse? : Nat → List JsonToken → Option (Document × List JsonToken)
  | 0, _ => none
  | _ + 1, .null :: rest => some (null, rest)
  | _ + 1, .bool value :: rest => some (bool value, rest)
  | _ + 1, .number value :: rest => some (number value, rest)
  | _ + 1, .string value :: rest => some (string value, rest)
  | _ + 1, .openArray :: .closeArray :: rest => some (array [], rest)
  | fuel + 1, .openArray :: rest => do
    let (items, rest) ← parseItems? fuel rest
    return (array items, rest)
  | _ + 1, .openObject :: .closeObject :: rest => some (object [], rest)
  | fuel + 1, .openObject :: rest => do
    let (members, rest) ← parseMembers? fuel rest
    return (object members, rest)
  | _ + 1, _ => none

/-- The items up to the closing bracket, at least one, and the tokens after it. -/
def parseItems? : Nat → List JsonToken → Option (List Document × List JsonToken)
  | 0, _ => none
  | fuel + 1, tokens => do
    match ← parse? fuel tokens with
    | (item, .closeArray :: rest) => return ([item], rest)
    | (item, .comma :: rest) =>
      let (items, rest) ← parseItems? fuel rest
      return (item :: items, rest)
    | _ => none

/-- The members up to the closing brace, at least one, and the tokens after it. -/
def parseMembers? : Nat → List JsonToken → Option (List (Option String × Document) × List JsonToken)
  | fuel + 1, .string name :: .colon :: tokens => do
    match ← parse? fuel tokens with
    | (value, .closeObject :: rest) => return ([(name, value)], rest)
    | (value, .comma :: rest) =>
      let (members, rest) ← parseMembers? fuel rest
      return ((name, value) :: members, rest)
    | _ => none
  | _, _ => none

end

/-- The document of a list of tokens.  Every second call consumes a token, so twice their number
bounds the calls. -/
def ofTokens? (tokens : List JsonToken) : Option Document :=
  match parse? (2 * tokens.length) tokens with
  | some (document, []) => some document
  | _ => none

/-- The document of a text. -/
def ofText? (text : String) : Option Document := do
  ofTokens? (← JsonToken.scan? text.toList)

/-- The containers that may be nested in one another. -/
def nestingLimit : Nat := 127

mutual

/-- The value of a document whose containers are nested at most `room` deep. -/
def value? (room : Nat) : Document → Option Json
  | null => some .null
  | bool value => some (.bool value)
  | number value => value.number?.map .number
  | string value => value.map .string
  | array items =>
    match room with
    | 0 => none
    | room + 1 => (itemValues? room items).map .array
  | object members =>
    match room with
    | 0 => none
    | room + 1 => (memberValues? room members).map fun values =>
      .object (SortedMap.ofList values).entries

/-- The values of all items. -/
def itemValues? (room : Nat) : List Document → Option (List Json)
  | [] => some []
  | item :: rest => do return (← item.value? room) :: (← itemValues? room rest)

/-- The names and values of all members. -/
def memberValues? (room : Nat) : List (Option String × Document) → Option (List (String × Json))
  | [] => some []
  | (name, value) :: rest => do
    return (← name, ← value.value? room) :: (← memberValues? room rest)

end

mutual

/-- The document that writes a value. -/
def ofJson : Json → Document
  | .null => null
  | .bool value => bool value
  | .number value => number value.numeral
  | .string value => string (some value)
  | .array items => array (ofItems items)
  | .object members => object (ofMembers members)

/-- The documents of all items. -/
def ofItems : List Json → List Document
  | [] => []
  | item :: rest => ofJson item :: ofItems rest

/-- The members with their documents. -/
def ofMembers : List (String × Json) → List (Option String × Document)
  | [] => []
  | (name, value) :: rest => (some name, ofJson value) :: ofMembers rest

end

end Document

end CallSignaling
