import CallSignaling.Json.Basic

/-!
# Tokens of JSON text

* `JsonToken`: a bracket, a separator, a keyword, a number or a string.
* `JsonToken.scan?`: the tokens of a text, with the blanks between them dropped.
* `JsonToken.scanNumeral?`, `JsonToken.scanString?`: one number or string and the characters after
  it.
* `StringPiece.join?`: the text of a string literal.  A literal in which one half of a surrogate
  pair is escaped without the other half stands for no text.
-/

namespace CallSignaling

/-- A part of a string literal. -/
inductive StringPiece where
  /-- A character, written as itself or by a short escape. -/
  | char (c : Char)
  /-- A 16-bit unit, written as four hexadecimal digits. -/
  | unit (value : Nat)
  deriving DecidableEq, Repr

namespace StringPiece

/-- Whether a unit is the first half of a surrogate pair. -/
def isHighHalf (n : Nat) : Bool := 0xD800 ≤ n && n < 0xDC00

/-- Whether a unit is the second half of a surrogate pair. -/
def isLowHalf (n : Nat) : Bool := 0xDC00 ≤ n && n < 0xE000

/-- The character of a surrogate pair. -/
def ofHalves (high low : Nat) : Char :=
  Char.ofNat (0x10000 + (high - 0xD800) * 0x400 + (low - 0xDC00))

/-- The characters that the pieces stand for, if every half of a surrogate pair has its other half
beside it. -/
def join? : List StringPiece → Option (List Char)
  | [] => some []
  | .char c :: rest => (join? rest).map (c :: ·)
  | .unit high :: .unit low :: rest =>
    if isHighHalf high && isLowHalf low then (join? rest).map (ofHalves high low :: ·)
    else if isHighHalf high || isLowHalf high then none
    else (join? (.unit low :: rest)).map (Char.ofNat high :: ·)
  | .unit n :: rest =>
    if isHighHalf n || isLowHalf n then none else (join? rest).map (Char.ofNat n :: ·)

end StringPiece

/-- A token of JSON text. -/
inductive JsonToken where
  | openArray
  | closeArray
  | openObject
  | closeObject
  | comma
  | colon
  | null
  | bool (value : Bool)
  | number (value : Numeral)
  /-- A string literal, `none` if it stands for no text. -/
  | string (value : Option String)
  deriving DecidableEq, Repr

namespace JsonToken

/-- The blanks of JSON text. -/
def isBlank (c : Char) : Bool := c = ' ' || c = '\t' || c = '\n' || c = '\r'

/-- The value of a hexadecimal digit in either case. -/
def hexValue? (c : Char) : Option Nat :=
  if '0' ≤ c && c ≤ '9' then some (c.toNat - '0'.toNat)
  else if 'a' ≤ c && c ≤ 'f' then some (c.toNat - 'a'.toNat + 10)
  else if 'A' ≤ c && c ≤ 'F' then some (c.toNat - 'A'.toNat + 10)
  else none

/-- The 16-bit unit of four hexadecimal digits. -/
def unitValue? (a b c d : Char) : Option Nat := do
  return ((← hexValue? a) * 16 + (← hexValue? b)) * 256 + (← hexValue? c) * 16 + (← hexValue? d)

/-- The character of a short escape. -/
def shortEscape? : Char → Option Char
  | '"' => some '"'
  | '\\' => some '\\'
  | '/' => some '/'
  | 'b' => some '\x08'
  | 'f' => some '\x0c'
  | 'n' => some '\n'
  | 'r' => some '\r'
  | 't' => some '\t'
  | _ => none

/-- The pieces up to the closing quote, and what follows the quote.  Control characters have to be
escaped. -/
def scanString? : List Char → Option (List StringPiece × List Char)
  | [] => none
  | '"' :: rest => some ([], rest)
  | '\\' :: 'u' :: a :: b :: c :: d :: rest => do
    let unit ← unitValue? a b c d
    let (pieces, rest) ← scanString? rest
    return (.unit unit :: pieces, rest)
  | '\\' :: c :: rest => do
    let c ← shortEscape? c
    let (pieces, rest) ← scanString? rest
    return (.char c :: pieces, rest)
  | c :: rest =>
    if c = '\\' || c.toNat < 0x20 then none
    else do
      let (pieces, rest) ← scanString? rest
      return (.char c :: pieces, rest)

/-- The leading digits, and what follows them. -/
def scanDigits (s : List Char) : List Char × List Char :=
  (s.takeWhile Char.isDigit, s.dropWhile Char.isDigit)

/-- The digits after a point, and what follows them.  Without a point there are none. -/
def scanFraction? : List Char → Option (List Char × List Char)
  | '.' :: rest =>
    let (digits, rest) := scanDigits rest
    if digits = [] then none else some (digits, rest)
  | rest => some ([], rest)

/-- The exponent after its mark, and what follows it. -/
def scanExponent? : List Char → Option (Option Int × List Char)
  | [] => some (none, [])
  | c :: rest =>
    if c = 'e' || c = 'E' then
      let (negative, rest) := match rest with
        | '-' :: rest => (true, rest)
        | '+' :: rest => (false, rest)
        | rest => (false, rest)
      let (digits, rest) := scanDigits rest
      if digits = [] then none
      else
        let n : Int := digitsValue digits
        some (some (if negative then -n else n), rest)
    else some (none, c :: rest)

/-- A number without a leading zero before further digits, and what follows it. -/
def scanNumeral? (s : List Char) : Option (Numeral × List Char) := do
  let (negative, s) := match s with
    | '-' :: rest => (true, rest)
    | rest => (false, rest)
  let (whole, s) := scanDigits s
  if whole = [] || (whole.head? = some '0' && whole.length ≠ 1) then none
  let (fraction, s) ← scanFraction? s
  let (exponent, s) ← scanExponent? s
  return ({ negative, whole, fraction, exponent }, s)

/-- The first token of a text that does not start with a blank, and what follows it. -/
def scanToken? : List Char → Option (JsonToken × List Char)
  | [] => none
  | '[' :: rest => some (openArray, rest)
  | ']' :: rest => some (closeArray, rest)
  | '\x7b' :: rest => some (openObject, rest)
  | '\x7d' :: rest => some (closeObject, rest)
  | ',' :: rest => some (comma, rest)
  | ':' :: rest => some (colon, rest)
  | 'n' :: 'u' :: 'l' :: 'l' :: rest => some (null, rest)
  | 't' :: 'r' :: 'u' :: 'e' :: rest => some (bool true, rest)
  | 'f' :: 'a' :: 'l' :: 's' :: 'e' :: rest => some (bool false, rest)
  | '"' :: rest => do
    let (pieces, rest) ← scanString? rest
    return (string ((StringPiece.join? pieces).map String.ofList), rest)
  | s => do
    let (value, rest) ← scanNumeral? s
    return (number value, rest)

/-- The tokens of the text, of at most `fuel` characters. -/
def scanAll? : Nat → List Char → Option (List JsonToken)
  | _, [] => some []
  | 0, _ => none
  | fuel + 1, c :: rest =>
    if isBlank c then scanAll? fuel rest
    else do
      let (token, rest) ← scanToken? (c :: rest)
      let tokens ← scanAll? fuel rest
      return token :: tokens

/-- The tokens of a text. -/
def scan? (s : List Char) : Option (List JsonToken) := scanAll? s.length s

end JsonToken

end CallSignaling
