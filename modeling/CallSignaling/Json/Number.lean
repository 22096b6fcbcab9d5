/-!
# JSON numbers

A number is written with any digits, and held as an integer of 64 bits or in double precision.  A
reader does not look for the double next to what is written: it rounds the leading digits and then
multiplies or divides by a power of ten, rounding again.  A printer writes the shortest digits that
determine the double, so a number that was printed need not be read as the same one again.

* `Numeral`: a number as it is written.
* `Double`: a finite number of double precision without its sign, known by its place among them.
* `Double.nearest?`: the double next to a fraction.
* `Double.scale?`, `Double.shortest`: what reading and printing come to for a double.
* `Number`: a number as it is held.
* `Numeral.number?`, `Number.numeral`: reading and printing.
-/

namespace CallSignaling

/-- The value of a decimal digit. -/
def digitValue (c : Char) : Nat := c.toNat - '0'.toNat

/-- The number written by decimal digits. -/
def digitsValue (digits : List Char) : Nat := digits.foldl (fun n c => n * 10 + digitValue c) 0

/-- A number as it is written. -/
structure Numeral where
  negative : Bool := false
  /-- The digits before the point. -/
  whole : List Char
  /-- The digits behind the point. -/
  fraction : List Char := []
  exponent : Option Int := none
  deriving DecidableEq, Repr, Inhabited

/-- The number is written with digits only, but for a sign. -/
def Numeral.isPlain (n : Numeral) : Bool := n.fraction = [] && n.exponent = none

/-- The natural number that is written with digits only. -/
def Numeral.natural? (n : Numeral) : Option Nat :=
  if n.isPlain && !n.negative then some (digitsValue n.whole) else none

/-! ### Double precision -/

/-- The place behind those of the finite numbers of double precision. -/
def Double.infinity : Nat := 2047 * Nat.pow 2 52

/-- A finite number of double precision without its sign.  It is known by its place among them, from
zero at the place `0` on. -/
structure Double where
  place : Nat
  isFinite : place < Double.infinity
  deriving DecidableEq, Repr

namespace Double

/-- The number at a place, in units of the least one that is not zero.  From the place `2 ^ 53` on
every stretch of `2 ^ 52` numbers is twice as wide as the one before. -/
def units (place : Nat) : Nat :=
  let stretch := place / Nat.pow 2 52
  if stretch = 0 then place
  else (Nat.pow 2 52 + place % Nat.pow 2 52) * Nat.pow 2 (stretch - 1)

/-- How many units are one. -/
def one : Nat := Nat.pow 2 1074

/-- The natural number next to `n / d`, the even one of two that are as near. -/
def roundedQuotient (n d : Nat) : Nat :=
  if 2 * (n % d) < d || (2 * (n % d) = d && n / d % 2 = 0) then n / d else n / d + 1

/-- The number next to `n / d`, the one at the even place of two that are as near.  Of the binary
digits only the first 53 count. -/
def nearest? (n d : Nat) : Option Double :=
  let dropped := (n * one / d).log2 - 52
  let place := dropped * Nat.pow 2 52 + roundedQuotient (n * one) (d * Nat.pow 2 dropped)
  if h : place < infinity then some ⟨place, h⟩ else none

/-- The product of two numbers, rounded. -/
def mul? (a b : Double) : Option Double := nearest? (units a.place * units b.place) (one * one)

/-- The quotient of two numbers, rounded. -/
def div? (a b : Double) : Option Double := nearest? (units a.place) (units b.place)

/-- A power of ten, rounded. -/
def powerOfTen? (k : Nat) : Option Double := nearest? (Nat.pow 10 k) 1

/-- Divides by the highest power of ten that there is, `times` times or until nothing is left. -/
def shrink? : Nat → Double → Option Double
  | 0, f => some f
  | times + 1, f =>
    if f.place = 0 then some f
    else do shrink? times (← f.div? (← powerOfTen? 308))

/-- A natural number times `10 ^ power` as a reader computes it.  It is none if it has no finite
result. -/
def scale? (significand : Nat) (power : Int) : Option Double := do
  let f ← nearest? significand 1
  match power with
  | .ofNat k =>
    if k ≤ 308 then f.mul? (← powerOfTen? k)
    else if f.place = 0 then some f
    else none
  | .negSucc k =>
    -- the power `k + 1` is divided by, at most 308 at a time
    (← f.shrink? (k / 308)).div? (← powerOfTen? (k % 308 + 1))

/-- Whether the multiple `c` of `10 ^ k` determines the number at a place: it lies between the
middles to the neighbours, which belong to an even place. -/
def determines (place : Nat) (k : Int) (c : Nat) : Bool :=
  -- all is compared in halves of a unit, times the power of ten that a negative `k` divides by
  let decimal := c * (2 * one * Nat.pow 10 k.toNat)
  let low := (units (place - 1) + units place) * Nat.pow 10 (-k).toNat
  let high := (units place + units (place + 1)) * Nat.pow 10 (-k).toNat
  if place % 2 = 0 then low ≤ decimal && decimal ≤ high else low < decimal && decimal < high

/-- The multiple of `10 ^ k` that determines the number at a place, the nearer one of two. -/
def multiple? (place : Nat) (k : Int) : Option Nat :=
  let value := units place * Nat.pow 10 (-k).toNat
  let step := one * Nat.pow 10 k.toNat
  let nearer := roundedQuotient value step
  [nearer, 2 * (value / step) + 1 - nearer].find? (determines place k)

/-- The highest of the powers of ten from `n - 324` down to `-324` that has a multiple which
determines the number at a place, with this multiple. -/
def shortestFrom (place : Nat) : Nat → Nat × Int
  | 0 => ((multiple? place (-324)).getD 1, -324)
  | n + 1 =>
    match multiple? place (n + 1 - 324) with
    | some c => (c, n + 1 - 324)
    | none => shortestFrom place n

/-- The shortest decimal number that determines the number at a place, `c · 10 ^ k`. -/
def shortest (place : Nat) : Nat × Int := shortestFrom place (308 + 324)

/-- How `c · 10 ^ k` is printed.  There is an exponent if more than sixteen digits would stand before
the point, or more than four zeros between the point and the digits. -/
def numeral (negative : Bool) (c : Nat) (k : Int) : Numeral :=
  let digits := Nat.toDigits 10 c
  let point := digits.length + k
  if 0 ≤ k && point ≤ 16 then
    { negative, whole := digits ++ List.replicate k.toNat '0', fraction := ['0'] }
  else if 0 < point && point ≤ 16 then
    { negative, whole := digits.take point.toNat, fraction := digits.drop point.toNat }
  else if -5 < point && point ≤ 0 then
    { negative, whole := ['0'], fraction := List.replicate (-point).toNat '0' ++ digits }
  else
    { negative, whole := digits.take 1, fraction := digits.drop 1, exponent := some (point - 1) }

end Double

/-! ### Numbers that are held -/

/-- A number as it is held. -/
inductive Number where
  | integer (value : Int)
  | double (negative : Bool) (magnitude : Double)
  deriving DecidableEq, Repr

instance : Inhabited Number := ⟨.integer 0⟩

/-- Takes digits into a significand as long as that stays within 64 bits, and counts the ones that
are left. -/
def Numeral.absorb (significand : Nat) : List Char → Nat × Nat
  | [] => (significand, 0)
  | c :: rest =>
    let longer := significand * 10 + digitValue c
    if longer < UInt64.size then absorb longer rest else (significand, rest.length + 1)

/-- What a reader makes of a number.  It is none if the number is too large. -/
def Numeral.number? (n : Numeral) : Option Number :=
  let (whole, left) := absorb 0 n.whole
  let (significand, ignored) := absorb whole n.fraction
  let power := left - (n.fraction.length - ignored : Nat) + n.exponent.getD 0
  if n.isPlain && left = 0 && (!n.negative || (0 < whole && whole ≤ UInt64.size / 2)) then
    some (.integer (if n.negative then -whole else whole))
  else (Double.scale? significand power).map (.double n.negative)

/-- How a number is printed. -/
def Number.numeral : Number → Numeral
  | integer value => { negative := value < 0, whole := Nat.toDigits 10 value.natAbs }
  | double negative magnitude =>
    if magnitude.place = 0 then { negative, whole := ['0'], fraction := ['0'] }
    else
      let (c, k) := Double.shortest magnitude.place
      Double.numeral negative c k

/-- The number is read again as it was printed. -/
def Number.Returns (n : Number) : Prop := n.numeral.number? = some n

instance (n : Number) : Decidable n.Returns := inferInstanceAs (Decidable (_ = _))

end CallSignaling
