import Docket.Json.Basic

/-! Numbers that are held as binary floating point have a greatest magnitude. A reader that
holds every number it meets refuses those beyond it; a reader that passes over what it
does not need never asks. -/
namespace Docket

/-- The bits that a binary floating-point number keeps of its significand. -/
def mantissaBits : Nat := 53

/-- A magnitude of this size or more has no floating-point number near it: it lies half a
step or more above the greatest one. -/
def overflowBound : Nat := 1 <<< 1024 - 1 <<< 970

/-- The floating-point number nearest to a natural one, a tie going to the even neighbour. -/
def nearestFloat (n : Nat) : Nat :=
  let dropped := n.log2 + 1 - mantissaBits
  let step := 1 <<< dropped
  let low := n / step
  let doubled := 2 * (n % step)
  if step < doubled || (step == doubled && low % 2 == 1) then (low + 1) * step else low * step

/-- Drops last digits, each raising the exponent, until the significand fits in 64 bits. -/
def leadingDigits (significand : Nat) (exponent : Int) : Nat × Int :=
  if significand < UInt64.size then (significand, exponent)
  else leadingDigits (significand / 10) (exponent + 1)
termination_by significand
decreasing_by simp only [UInt64.size] at *; omega

/-- The greatest power of ten that lies below the bound. -/
def greatestPower : Int := 308

/-- Whether a magnitude can be held. It is formed as the product of two floating-point numbers,
one nearest to the leading digits and one nearest to the power of ten. -/
def holdsMagnitude (significand : Nat) (exponent : Int) : Bool :=
  let (leading, power) := leadingDigits significand exponent
  leading == 0 || power ≤ 0 ||
    (power ≤ greatestPower &&
      nearestFloat leading * nearestFloat (Nat.pow 10 power.toNat) < overflowBound)

/-- Whether a plain value can be held: no text is torn, and no number is too large. -/
def Json.isHeld : Json → Bool
  | .natural value => holdsMagnitude value 0
  | .decimal value => holdsMagnitude value.significand value.exponent
  | .unreadable => false
  | _ => true

/-- Documents nested this deep or deeper are not held. -/
def Json.depthLimit : Nat := 128

/-- Whether a document can be held as a whole, and not only passed over. -/
def Json.isHoldable (document : Json) : Bool :=
  document.depth < depthLimit && document.allPlain isHeld

end Docket
