import TopicPublisher.Decimal.Binary64
import TopicPublisher.Duration

/-!
Lengths of time that grow by a factor up to a cap. The value of a step is the initial length
times a power of the multiplier, computed in floating-point numbers and rounded to nanoseconds;
beyond 64 bits, and where the product is no number, it is the cap.
-/

namespace TopicPublisher

/-- Multiplies `product` by the power of `square` that the lowest `bits + 1` bits of the
exponent call for, least significant bit first. -/
def floatPowBits : (bits exponent : Nat) → (square product : Float) → Float
  | 0, exponent, square, product => if exponent % 2 = 1 then product * square else product
  | bits + 1, exponent, square, product =>
    floatPowBits bits (exponent / 2) (square * square)
      (if exponent % 2 = 1 then product * square else product)

def floatPow (base : Float) (exponent : Nat) : Float :=
  floatPowBits exponent.log2 exponent base 1.0

structure Backoff where
  initial : Duration
  multiplier : Binary64
  cap : Duration
deriving DecidableEq, Repr, Inhabited

namespace Backoff

/-- Steps beyond this one repeat its value. -/
def lastStep : Nat := Nat.pow 2 31 - 1

/-- Nanoseconds from a floating-point product: rounded to the nearest natural number, a half
upwards and nothing below zero, if the product is finite and below `2 ^ 64`. -/
def nanosOf (product : Float) : Option Nat :=
  match (Binary64.ofFloat product).value with
  | .finite negative mantissa exponent =>
    if product < 18446744073709551616.0 then
      let (num, den) := scaled mantissa exponent
      some (if negative then 0 else roundDiv .up num den)
    else none
  | _ => none

def value (b : Backoff) (step : Nat) : Duration :=
  let power := floatPow b.multiplier.toFloat (Nat.min step lastStep)
  match nanosOf (Float.ofScientific b.initial.nanos false 0 * power) with
  | some nanos => min ⟨nanos⟩ b.cap
  | none => b.cap

/-- The lengths of `count` steps from `first` on. -/
def values (b : Backoff) (first count : Nat) : List Duration :=
  (List.range count).map fun i => b.value (first + i)

end Backoff
end TopicPublisher
