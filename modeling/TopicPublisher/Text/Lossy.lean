/-!
Text from bytes that need not be UTF-8: every piece that cannot be part of a character, as long
as it can be, is read as the replacement character U+FFFD.
-/

namespace TopicPublisher

namespace Lossy

def replacement : Char := Char.ofNat 0xFFFD

/-- The payload bits of a leading byte and the ranges that the bytes after it must lie in. -/
def shape (lead : UInt8) : Option (Nat × List (UInt8 × UInt8)) :=
  let tail := (0x80, 0xBF)
  if lead < 0x80 then some (lead.toNat, [])
  else if lead < 0xC2 then none
  else if lead < 0xE0 then some (lead.toNat - 0xC0, [tail])
  else if lead = 0xE0 then some (0, [(0xA0, 0xBF), tail])
  else if lead = 0xED then some (0xD, [(0x80, 0x9F), tail])
  else if lead < 0xF0 then some (lead.toNat - 0xE0, [tail, tail])
  else if lead = 0xF0 then some (0, [(0x90, 0xBF), tail, tail])
  else if lead < 0xF4 then some (lead.toNat - 0xF0, [tail, tail, tail])
  else if lead = 0xF4 then some (4, [(0x80, 0x8F), tail, tail])
  else none

/-- Reads the bytes after a leading byte. A byte out of its range ends the character and stays
unread. -/
def readTail (code : Nat) : List (UInt8 × UInt8) → List UInt8 → Char × List UInt8
  | [], rest => (Char.ofNat code, rest)
  | _ :: _, [] => (replacement, [])
  | (low, high) :: ranges, byte :: rest =>
    if low ≤ byte ∧ byte ≤ high then readTail (code * 64 + (byte.toNat - 0x80)) ranges rest
    else (replacement, byte :: rest)

/-- Reads characters; `fuel` is at least the number of bytes. -/
def decode : (fuel : Nat) → List UInt8 → List Char
  | 0, _ => []
  | _, [] => []
  | fuel + 1, lead :: rest =>
    match shape lead with
    | none => replacement :: decode fuel rest
    | some (code, ranges) =>
      let (c, rest) := readTail code ranges rest
      c :: decode fuel rest

end Lossy

def lossyText (bytes : ByteArray) : String :=
  String.ofList (Lossy.decode bytes.size bytes.toList)

end TopicPublisher
