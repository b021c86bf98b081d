import Mathlib.Data.String.Basic

/-!
The order of texts is the order of their UTF-8 bytes. The first byte of a character tells how many
bytes follow it, and does not get smaller as characters go up; every byte that follows has the next
six bits. So the first byte in which two texts differ belongs to the first character in which they
differ.
-/

namespace TopicPublisher
namespace Utf8

/-- How many bytes follow the first one of a character with some code. -/
def following (code : Nat) : Nat :=
  if code ≤ 127 then 0 else if code ≤ 2047 then 1 else if code ≤ 65535 then 2 else 3

/-- The first byte of a character with some code. -/
def leading (code : Nat) : Nat :=
  if code ≤ 127 then code
  else if code ≤ 2047 then code / 64 + 192
  else if code ≤ 65535 then code / 4096 + 224
  else code / 262144 + 240

/-- The last bytes of a character, with six bits each. -/
def continuation (code : Nat) : Nat → List UInt8
  | 0 => []
  | count + 1 => UInt8.ofNat (code / Nat.pow 64 count % 64 + 128) :: continuation code count

theorem code_lt (c : Char) : c.val.toNat < 1114112 := by
  have valid : c.val.toNat < 55296 ∨ 57343 < c.val.toNat ∧ c.val.toNat < 1114112 := c.valid
  omega

theorem leading_lt {code : Nat} (small : code < 1114112) : leading code < 256 := by
  unfold leading
  repeat' split
  all_goals omega

theorem utf8EncodeChar_eq (c : Char) : String.utf8EncodeChar c =
    UInt8.ofNat (leading c.val.toNat) :: continuation c.val.toNat (following c.val.toNat) := by
  have small := code_lt c
  unfold String.utf8EncodeChar leading following
  generalize c.val.toNat = code at *
  dsimp only
  split
  · rfl
  split
  · have bits : code / 64 % 32 = code / 64 := by omega
    rw [bits]
    simp [continuation]
  split
  · have bits : code / 4096 % 16 = code / 4096 := by omega
    rw [bits]
    simp [continuation]
  · have bits : code / 262144 % 8 = code / 262144 := by omega
    rw [bits]
    simp [continuation]

/-- The first byte goes up with the code of a character, or all that differs is in the other
bytes. -/
theorem leading_cases {code other : Nat} (h : code < other) :
    leading code < leading other ∨ leading code = leading other ∧
      following code = following other ∧
        code / Nat.pow 64 (following code) = other / Nat.pow 64 (following code) := by
  unfold leading following
  have one : Nat.pow 64 1 = 64 := rfl
  have two : Nat.pow 64 2 = 4096 := rfl
  have three : Nat.pow 64 3 = 262144 := rfl
  repeat' split
  all_goals try simp only [one, two, three, true_and]
  all_goals omega

/-! Bytes that are compared one after the other -/

theorem cons_lt_cons {a b : Nat} {xs ys : List UInt8} (h : a < b) (byte : b < 256) :
    UInt8.ofNat a :: xs < UInt8.ofNat b :: ys := by
  refine List.cons_lt_cons_iff.mpr (.inl (UInt8.lt_iff_toNat_lt.mpr ?_))
  rwa [UInt8.toNat_ofNat_of_lt' byte, UInt8.toNat_ofNat_of_lt' (Nat.lt_trans h byte)]

theorem continuation_lt {code other count : Nat} {xs ys : List UInt8}
    (same : code / Nat.pow 64 count = other / Nat.pow 64 count) (h : code < other) :
    continuation code count ++ xs < continuation other count ++ ys := by
  induction count with
  | zero => exact absurd same (by simpa using Nat.ne_of_lt h)
  | succ count ih =>
    have shift (n : Nat) : n / Nat.pow 64 (count + 1) = n / Nat.pow 64 count / 64 :=
      (Nat.div_div_eq_div_mul n _ 64).symm
    have bits := Nat.div_le_div_right (c := Nat.pow 64 count) (Nat.le_of_lt h)
    rw [shift, shift] at same
    rw [continuation, continuation, List.cons_append, List.cons_append]
    rcases Nat.eq_or_lt_of_le bits with equal | up
    · rw [equal]
      exact List.cons_lt_cons_self.mpr (ih equal)
    · exact cons_lt_cons (by omega) (by omega)

/-- The bytes of characters go up with the characters, whatever follows. -/
theorem utf8EncodeChar_lt {c d : Char} (h : c < d) (xs ys : List UInt8) :
    String.utf8EncodeChar c ++ xs < String.utf8EncodeChar d ++ ys := by
  have lt : c.val.toNat < d.val.toNat := UInt32.lt_iff_toNat_lt.mp h
  rw [utf8EncodeChar_eq, utf8EncodeChar_eq, List.cons_append, List.cons_append]
  rcases leading_cases lt with up | ⟨first, length, same⟩
  · exact cons_lt_cons up (leading_lt (code_lt d))
  · rw [first, ← length]
    exact List.cons_lt_cons_self.mpr (continuation_lt same lt)

theorem flatMap_lt {xs ys : List Char} (h : xs < ys) :
    xs.flatMap String.utf8EncodeChar < ys.flatMap String.utf8EncodeChar := by
  induction xs generalizing ys with
  | nil =>
    cases ys with
    | nil => exact absurd h (List.not_lt_nil _)
    | cons d others =>
      rw [List.flatMap_cons, utf8EncodeChar_eq]
      exact List.nil_lt_cons _ _
  | cons c rest ih =>
    cases ys with
    | nil => exact absurd h (List.not_lt_nil _)
    | cons d others =>
      rw [List.flatMap_cons, List.flatMap_cons]
      rcases List.cons_lt_cons_iff.mp h with first | ⟨rfl, later⟩
      · exact utf8EncodeChar_lt first _ _
      · exact List.append_left_lt (ih later)

/-- The UTF-8 bytes of a text. -/
def bytes (text : String) : List UInt8 := text.toUTF8.data.toList

theorem bytes_eq (text : String) : bytes text = text.toList.flatMap String.utf8EncodeChar := by
  rw [bytes, String.toUTF8_eq_toByteArray, ← String.utf8Encode_toList, List.utf8Encode]
  simp

theorem lt_iff_bytes_lt {s t : String} : s < t ↔ bytes s < bytes t := by
  have up {s t : String} (h : s < t) : bytes s < bytes t := by
    rw [bytes_eq, bytes_eq]
    exact flatMap_lt (String.lt_iff_toList_lt.mp h)
  refine ⟨up, fun h => ?_⟩
  rcases lt_trichotomy s t with less | rfl | more
  · exact less
  · exact absurd h (List.lt_irrefl _)
  · exact absurd (up more) (List.lt_asymm h)

end Utf8
end TopicPublisher
