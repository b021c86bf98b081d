import TopicPublisher.Decimal.Binary64

/-!
Reading numbers from words: unsigned whole numbers of 64 bits and floating-point numbers.
-/

namespace TopicPublisher

/-- The value of ASCII digits, most significant first. -/
def digitsValue (digits : List Char) : Nat :=
  digits.foldl (fun n c => n * 10 + (c.toNat - '0'.toNat)) 0

def isDigits (word : List Char) : Bool := !word.isEmpty && word.all Char.isDigit

/-- Reads an unsigned whole number below `2 ^ 64`: digits, after an optional plus sign. -/
def readUnsigned (word : String) : Option Nat :=
  let digits := match word.toList with
    | '+' :: rest => rest
    | all => all
  if isDigits digits then
    let n := digitsValue digits
    if n < Nat.pow 2 64 then some n else none
  else none

namespace Binary64

def infinity : Binary64 := ⟨0x7FF0000000000000⟩

def nan : Binary64 := ⟨0x7FF8000000000000⟩

def negate (x : Binary64) : Binary64 := ⟨x.bits ^^^ 0x8000000000000000⟩

/-- The number nearest to `digits * 10 ^ exponent`. Beyond four hundred decimal places on
either side of the point there is only infinity and zero. -/
def ofDecimal (digits : Nat) (exponent : Int) : Binary64 :=
  let magnitude : Int := (Nat.toDigits 10 digits).length + exponent
  if digits = 0 then ⟨0⟩
  else if 400 < magnitude then infinity
  else if magnitude < -400 then ⟨0⟩
  else ofFloat (Float.ofScientific digits (decide (exponent < 0)) exponent.natAbs)

/-- Reads the part after an exponent mark: digits, after an optional sign. -/
def readExponent (word : List Char) : Option Int :=
  let signed (negative : Bool) (digits : List Char) : Option Int :=
    if isDigits digits then
      let n : Int := digitsValue digits
      some (if negative then -n else n)
    else none
  match word with
  | '-' :: rest => signed true rest
  | '+' :: rest => signed false rest
  | rest => signed false rest

/-- Reads digits with an optional point, at least one digit on either side of it, and an
optional exponent. -/
def readUnsignedDecimal (word : List Char) : Option Binary64 :=
  let whole := word.takeWhile Char.isDigit
  let afterWhole := word.dropWhile Char.isDigit
  let (fraction, afterFraction) := match afterWhole with
    | '.' :: rest => (rest.takeWhile Char.isDigit, rest.dropWhile Char.isDigit)
    | rest => ([], rest)
  if whole.isEmpty && fraction.isEmpty then none
  else
    let digits := digitsValue (whole ++ fraction)
    let places : Int := fraction.length
    match afterFraction with
    | [] => some (ofDecimal digits (-places))
    | mark :: rest =>
      if mark == 'e' || mark == 'E' then
        (readExponent rest).map fun e => ofDecimal digits (e - places)
      else none

/-- Reads a number: an optional sign, then `inf`, `infinity` or `nan` in any case, or a
decimal. -/
def read (word : String) : Option Binary64 :=
  let (negative, rest) := match word.toList with
    | '-' :: rest => (true, rest)
    | '+' :: rest => (false, rest)
    | all => (false, all)
  let lower := String.ofList (rest.map Char.toLower)
  let unsigned :=
    if lower == "inf" || lower == "infinity" then some infinity
    else if lower == "nan" then some nan
    else readUnsignedDecimal rest
  unsigned.map fun x => if negative then x.negate else x

end Binary64
end TopicPublisher
