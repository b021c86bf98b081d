import TopicPublisher.Decimal.Binary64

/-!
Numbers for tables: a fixed number of decimal places, and whole numbers in groups of three.
-/

namespace TopicPublisher

def pointedText (places n : Nat) : String :=
  let digits := Nat.toDigits 10 n
  let padded := List.replicate (places + 1 - digits.length) '0' ++ digits
  let whole := padded.length - places
  if places = 0 then String.ofList padded
  else String.ofList (padded.take whole ++ '.' :: padded.drop whole)

/-- The number with a fixed number of places. The exact binary value is rounded, a half to
the even neighbour. -/
def Binary64.fixedText (places : Nat) (x : Binary64) : String :=
  match x.value with
  | .nan => "NaN"
  | .infinite negative => if negative then "-inf" else "inf"
  | .finite negative mantissa exponent =>
    let (num, den) := scaled mantissa exponent
    let unsigned := pointedText places (roundDiv .toEven (num * Nat.pow 10 places) den)
    if negative then "-" ++ unsigned else unsigned

/-- Cuts a list of digits, least significant first, into groups of three with a comma between
them. -/
def groupDigits : List Char → List Char
  | a :: b :: c :: d :: rest => a :: b :: c :: ',' :: groupDigits (d :: rest)
  | digits => digits

def groupedText (n : Nat) : String :=
  String.ofList (groupDigits (Nat.toDigits 10 n).reverse).reverse

end TopicPublisher
