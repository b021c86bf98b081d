/-!
Binary floating-point numbers of 64 bits, kept by their bits, and the exact value that the
bits stand for. All decimal text of such numbers is computed from that value in natural
numbers.
-/

namespace TopicPublisher

/-- A floating-point number by its bits, so that numbers with different bits stay different. -/
structure Binary64 where
  bits : UInt64
deriving DecidableEq, Repr, Inhabited

namespace Binary64

def toFloat (x : Binary64) : Float := Float.ofBits x.bits

def ofFloat (x : Float) : Binary64 := ⟨x.toBits⟩

def ofNat (n : Nat) : Binary64 := ofFloat (Float.ofScientific n false 0)

/-- What the bits stand for: a finite number is its sign and `mantissa * 2 ^ exponent`. -/
inductive Value where
  | nan
  | infinite (negative : Bool)
  | finite (negative : Bool) (mantissa : Nat) (exponent : Int)
deriving DecidableEq, Repr

/-- The value of some bits: one sign bit, eleven bits of exponent, 52 bits of fraction. -/
def value (x : Binary64) : Value :=
  let negative := x.bits >>> 63 == 1
  let exponent := ((x.bits >>> 52) &&& 0x7FF).toNat
  let fraction := (x.bits &&& 0xFFFFFFFFFFFFF).toNat
  if exponent = 2047 then (if fraction = 0 then .infinite negative else .nan)
  else if exponent = 0 then .finite negative fraction (-1074)
  else .finite negative (Nat.pow 2 52 + fraction) ((exponent : Int) - 1075)

def isFinite (x : Binary64) : Bool :=
  match x.value with
  | .finite .. => true
  | _ => false

end Binary64

/-- Where a value half way between two neighbours goes. -/
inductive Tie where
  | toEven
  | up
deriving DecidableEq, Repr

def roundDiv (tie : Tie) (num den : Nat) : Nat :=
  let quotient := num / den
  let twice := 2 * (num % den)
  if twice < den then quotient
  else if den < twice then quotient + 1
  else match tie with
    | .up => quotient + 1
    | .toEven => if quotient % 2 = 0 then quotient else quotient + 1

/-- `mantissa * 2 ^ exponent` as a fraction of natural numbers. -/
def scaled (mantissa : Nat) (exponent : Int) : Nat × Nat :=
  (mantissa * Nat.pow 2 exponent.toNat, Nat.pow 2 (-exponent).toNat)

end TopicPublisher
