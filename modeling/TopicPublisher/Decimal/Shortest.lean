import TopicPublisher.Decimal.Binary64

/-!
The shortest decimal text of a floating-point number: the fewest digits that read back to the
number, of those the nearest to it, written without an exponent.
-/

namespace TopicPublisher

structure Decimal where
  digits : Nat
  exponent : Int
deriving DecidableEq, Repr

namespace Decimal

/-- The same number without zeros at the end of its digits; `fuel` bounds their count. -/
def stripZeros : Nat → Decimal → Decimal
  | 0, d => d
  | fuel + 1, d =>
    if d.digits ≠ 0 ∧ d.digits % 10 = 0 then stripZeros fuel ⟨d.digits / 10, d.exponent + 1⟩
    else d

/-- The number without an exponent: zeros on the right, a point inside, or zeros after a
leading point. -/
def positional (d : Decimal) : String :=
  let digits := Nat.toDigits 10 d.digits
  if 0 ≤ d.exponent then String.ofList (digits ++ List.replicate d.exponent.toNat '0')
  else
    let places := (-d.exponent).toNat
    if places < digits.length then
      let whole := digits.length - places
      String.ofList (digits.take whole ++ '.' :: digits.drop whole)
    else String.ofList ('0' :: '.' :: (List.replicate (places - digits.length) '0' ++ digits))

end Decimal

namespace Binary64

/-- A positive finite number `mantissa * 2 ^ exponent`, with whether the gap to the number
below is half of the gap to the number above. -/
structure Positive where
  mantissa : Nat
  exponent : Int
  narrowBelow : Bool

namespace Positive

/-- Just above a power of two the number below is nearer, save at the least exponent. -/
def of (mantissa : Nat) (exponent : Int) : Positive :=
  ⟨mantissa, exponent, mantissa == Nat.pow 2 52 && decide (-1074 < exponent)⟩

/-- The numerator, without the mantissa, and the denominator of the number in units of
`10 ^ grid`. -/
def inUnits (x : Positive) (grid : Int) : Nat × Nat :=
  (Nat.pow 2 x.exponent.toNat * Nat.pow 10 (-grid).toNat,
    Nat.pow 2 (-x.exponent).toNat * Nat.pow 10 grid.toNat)

/-- Whether `digits * 10 ^ grid` lies among the reals that round to the number: half way to
either neighbour at most, the ends included when the mantissa is even. -/
def readsBack (x : Positive) (grid : Int) (digits : Nat) : Bool :=
  let (unit, den) := x.inUnits grid
  let low := (if x.narrowBelow then 4 * x.mantissa - 1 else 4 * x.mantissa - 2) * unit
  let high := (4 * x.mantissa + 2) * unit
  let point := 4 * digits * den
  if x.mantissa % 2 = 0 then decide (low ≤ point ∧ point ≤ high)
  else decide (low < point ∧ point < high)

/-- The decimal on the grid `10 ^ grid` that reads back to the number and is nearest to it,
the upper one of two equally near. -/
def onGrid (x : Positive) (grid : Int) : Option Decimal :=
  let (unit, den) := x.inUnits grid
  let below := x.mantissa * unit / den
  let rest := x.mantissa * unit % den
  let nearer := if 2 * rest < den then [below, below + 1] else [below + 1, below]
  (nearer.find? (x.readsBack grid)).map (⟨·, grid⟩)

def below (x : Positive) (k : Int) : Bool :=
  let (unit, den) := x.inUnits k
  decide (x.mantissa * unit < den)

/-- The least `k` with the number below `10 ^ k`, found next to an estimate from its binary
length. -/
def magnitude (x : Positive) : Int :=
  let estimate := Int.fdiv (((x.mantissa.log2 : Int) + x.exponent) * 30103) 100000
  ((List.range 4).map fun i : Nat => estimate - 1 + (i : Int)).find? x.below |>.getD (estimate + 3)

def exactDecimal (x : Positive) : Decimal :=
  if 0 ≤ x.exponent then ⟨x.mantissa * Nat.pow 2 x.exponent.toNat, 0⟩
  else ⟨x.mantissa * Nat.pow 5 (-x.exponent).toNat, x.exponent⟩

/-- The shortest decimal that reads back to the number: the first grid with a hit, from one
digit to seventeen. -/
def shortest (x : Positive) : Decimal :=
  let magnitude := x.magnitude
  let found := (List.range 17).findSome? fun i : Nat => x.onGrid (magnitude - 1 - (i : Int))
  (found.getD x.exactDecimal).stripZeros 20

end Positive

/-- The text of a number: the shortest digits that read back, never an exponent. -/
def text (x : Binary64) : String :=
  match x.value with
  | .nan => "NaN"
  | .infinite negative => if negative then "-inf" else "inf"
  | .finite negative mantissa exponent =>
    let unsigned :=
      if mantissa = 0 then "0" else (Positive.of mantissa exponent).shortest.positional
    if negative then "-" ++ unsigned else unsigned

end Binary64
end TopicPublisher
