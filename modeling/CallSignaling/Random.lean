/-!
# What chance decides

Randomness enters as a number that the caller draws.

* `Random.jitter`: a delay up to a bound.
* `Random.uuid`: an identifier of version 4.
-/

namespace CallSignaling.Random

/-- A delay of at most `bound`. -/
def jitter (draw bound : Nat) : Nat := draw % (bound + 1)

/-- The lowest `count` hexadecimal digits of a number, highest first. -/
def hexDigits : Nat → Nat → List Char
  | 0, _ => []
  | count + 1, n => hexDigits count (n / 16) ++ [Nat.digitChar (n % 16)]

/-- The identifier made of the lowest 122 bits of a draw: of version 4, with a variant digit from 8
to b. -/
def uuid (draw : Nat) : String :=
  let node := hexDigits 12 draw
  let clock := hexDigits 3 (draw >>> 48)
  let high := hexDigits 3 (draw >>> 60)
  let middle := hexDigits 4 (draw >>> 72)
  let low := hexDigits 8 (draw >>> 88)
  let variantDigit := Nat.digitChar (8 + (draw >>> 120) % 4)
  String.ofList
    (low ++ '-' :: middle ++ '-' :: '4' :: high ++ '-' :: variantDigit :: clock ++ '-' :: node)

end CallSignaling.Random
