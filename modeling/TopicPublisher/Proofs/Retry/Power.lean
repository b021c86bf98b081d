import TopicPublisher.Proofs.Decimal.Whole
import TopicPublisher.Retry.Backoff

/-!
Powers of whole numbers by repeated squaring. The loop only ever multiplies powers whose exponents
add up to no more than the whole exponent, so no product on the way is larger than the last one.
Hence the power is exact where it has 53 bits, and it stays finite while it has no more than 1023:
each of its roundings adds at most one part in `2 ^ 52`, and there are too few of them to double it.
-/

namespace TopicPublisher

open Binary64

section Induction

variable (Square Product : Float → Nat → Prop) {limit : Nat} {square product : Float}
  (double : ∀ x i, Square x i → i + i ≤ limit → Square (x * x) (i + i))
  (multiply : ∀ x y i j, Product x i → Square y j → i + j ≤ limit → Product (x * y) (i + j))

include double multiply in
/-- The square is a power `i` and the product a power `j` of the base. A square is used only if
bits of the exponent are left, so its exponent stays within what the product reaches. -/
theorem floatPowBits_induction {i j : Nat} : ∀ {bits exponent : Nat}, 2 ^ bits ≤ exponent →
    exponent < 2 ^ (bits + 1) → j + exponent * i ≤ limit → Square square i → Product product j →
    Product (floatPowBits bits exponent square product) (j + exponent * i) := by
  intro bits
  induction bits generalizing i j square product with
  | zero =>
    intro exponent least most room hs hp
    obtain rfl : exponent = 1 := by omega
    rw [Nat.one_mul] at room ⊢
    exact multiply _ _ _ _ hp hs room
  | succ bits ih =>
    intro exponent least most room hs hp
    rw [pow_succ] at least most
    have split : exponent * i = exponent / 2 * (i + i) + exponent % 2 * i := by
      calc exponent * i = (2 * (exponent / 2) + exponent % 2) * i := by rw [Nat.div_add_mod]
        _ = exponent / 2 * (i + i) + exponent % 2 * i := by ring
    have used : i + i ≤ exponent / 2 * (i + i) :=
      Nat.le_mul_of_pos_left _ (by have := Nat.two_pow_pos bits; omega)
    have hs' : Square (square * square) (i + i) := double _ _ hs (by omega)
    rw [floatPowBits, split]
    rw [split] at room
    obtain even | odd := Nat.mod_two_eq_zero_or_one exponent
    · rw [even, Nat.zero_mul, Nat.add_zero] at room ⊢
      exact ih (by omega) (by omega) room hs' hp
    · have hp' : Product (product * square) (j + i) := multiply _ _ _ _ hp hs (by omega)
      have sum : j + (exponent / 2 * (i + i) + i) = j + i + exponent / 2 * (i + i) := by ring
      rw [odd, Nat.one_mul, sum] at room ⊢
      exact ih (by omega) (by omega) room hs' hp'

include double multiply in
theorem floatPow_induction {base : Float} {exponent : Nat} (hb : Square base 1)
    (one : Product 1.0 0) (room : exponent ≤ limit) :
    Product (floatPow base exponent) exponent := by
  obtain rfl | positive := Nat.eq_zero_or_pos exponent
  · exact one
  · obtain ⟨least, most⟩ := (Nat.log2_eq_iff (Nat.ne_of_gt positive)).mp rfl
    have power := floatPowBits_induction Square Product double multiply (i := 1) (j := 0) least
      most (by omega) hb one
    rw [Nat.zero_add, Nat.mul_one] at power
    exact power

end Induction

variable {m exponent : Nat}

theorem holds_floatPow (positive : 1 ≤ m) (short : m < 2 ^ 53) (small : m ^ exponent < 2 ^ 53) :
    Holds (floatPow (Binary64.ofNat m).toFloat exponent) (m ^ exponent : Nat) := by
  have bound {i : Nat} (room : i ≤ exponent) : m ^ i < 2 ^ 53 :=
    Nat.lt_of_le_of_lt (Nat.pow_le_pow_right positive room) small
  have multiply (x y : Float) (i j : Nat) (hx : Holds x (m ^ i : Nat))
      (hy : Holds y (m ^ j : Nat)) (room : i + j ≤ exponent) :
      Holds (x * y) (m ^ (i + j) : Nat) := by
    have small := bound room
    rw [pow_add] at small ⊢
    exact hx.mul_exact hy small
  refine floatPow_induction (fun x i => Holds x (m ^ i : Nat)) (fun x i => Holds x (m ^ i : Nat))
    (fun x i hx => multiply x x i i hx hx) multiply ?_ holds_one (Nat.le_refl _)
  rw [pow_one]
  exact holds_toFloat positive short

theorem one_le_slack : 1 ≤ slack := by
  rw [slack]
  norm_num

/-- A thousand roundings do not double a number. -/
theorem slack_pow_le_two (few : exponent ≤ 2 ^ 51) : slack ^ exponent ≤ 2 := by
  have shrink : (1 / 2 : ℚ) ≤ (1 - 1 / 2 ^ 52) ^ exponent := by
    have few : (exponent : ℚ) ≤ 2 ^ 51 := by exact_mod_cast few
    calc (1 / 2 : ℚ) ≤ 1 + exponent * (-(1 / 2 ^ 52)) := by linarith
      _ ≤ (1 + -(1 / 2 ^ 52)) ^ exponent := one_add_mul_le_pow (by norm_num) _
      _ = (1 - 1 / 2 ^ 52) ^ exponent := by rw [← sub_eq_add_neg]
  have both : slack ^ exponent * (1 - 1 / 2 ^ 52) ^ exponent ≤ 1 := by
    rw [← mul_pow]
    exact pow_le_one₀ (by rw [slack]; norm_num) (by rw [slack]; norm_num)
  have grown : slack ^ exponent * (1 / 2) ≤ 1 :=
    (mul_le_mul_of_nonneg_left shrink (pow_nonneg (zero_le_one.trans one_le_slack) _)).trans both
  linarith

/-- The rounded powers of `m` lie below the powers of `m * slack`: a square has a factor `slack`
to spare, and the product uses it up. -/
theorem floatPow_near (positive : 1 ≤ m) (short : m < 2 ^ 53)
    (small : (m * slack) ^ exponent < 2 ^ 1024) :
    ∃ v, Holds (floatPow (Binary64.ofNat m).toFloat exponent) v ∧ v ≤ (m * slack) ^ exponent := by
  have least : 1 ≤ m * slack :=
    one_le_mul_of_one_le_of_one_le (by exact_mod_cast positive) one_le_slack
  have bound {i : Nat} (room : i ≤ exponent) : (m * slack) ^ i < 2 ^ 1024 :=
    (pow_le_pow_right₀ least room).trans_lt small
  have spare : (0 : ℚ) ≤ slack := zero_le_one.trans one_le_slack
  refine floatPow_induction (fun x i => ∃ v, Holds x v ∧ v * slack ≤ (m * slack) ^ i)
    (fun x i => ∃ v, Holds x v ∧ v ≤ (m * slack) ^ i) ?_ ?_ ?_ ?_ (Nat.le_refl _)
  · rintro x i ⟨v, hx, near⟩ room
    have hv : 0 ≤ v := zero_le_one.trans (Stands.one_le hx)
    have square : v * v * slack * slack ≤ (m * slack) ^ (i + i) := by
      calc v * v * slack * slack = (v * slack) * (v * slack) := by ring
        _ ≤ (m * slack) ^ i * (m * slack) ^ i := by gcongr
        _ = (m * slack) ^ (i + i) := (pow_add ..).symm
    have below : v * v * slack ≤ v * v * slack * slack :=
      le_mul_of_one_le_right (by positivity) one_le_slack
    obtain ⟨u, hu, le⟩ := hx.mul_le hx ((below.trans square).trans_lt (bound room))
    exact ⟨u, hu, (mul_le_mul_of_nonneg_right le spare).trans square⟩
  · rintro x y i j ⟨v, hx, near⟩ ⟨w, hy, near'⟩ room
    have hw : 0 ≤ w := zero_le_one.trans (Stands.one_le hy)
    have product : v * w * slack ≤ (m * slack) ^ (i + j) := by
      calc v * w * slack = v * (w * slack) := mul_assoc ..
        _ ≤ (m * slack) ^ i * (m * slack) ^ j := by gcongr
        _ = (m * slack) ^ (i + j) := (pow_add ..).symm
    obtain ⟨u, hu, le⟩ := hx.mul_le hy (product.trans_lt (bound room))
    exact ⟨u, hu, le.trans product⟩
  · exact ⟨m, holds_toFloat positive short, by rw [pow_one]⟩
  · exact ⟨(1 : Nat), holds_one, by simp⟩

theorem isFinite_floatPow (positive : 1 ≤ m) (short : m < 2 ^ 53)
    (small : m ^ exponent < 2 ^ 1023) :
    (ofFloat (floatPow (Binary64.ofNat m).toFloat exponent)).isFinite = true := by
  obtain rfl | two := Nat.eq_or_lt_of_le positive
  · exact (holds_floatPow positive short (by rw [one_pow]; decide)).isFinite
  have few : exponent < 1023 := by
    have powers : 2 ^ exponent < 2 ^ 1023 :=
      Nat.lt_of_le_of_lt (Nat.pow_le_pow_left two exponent) small
    exact (pow_lt_pow_iff_right₀ one_lt_two).mp powers
  have near : (m * slack) ^ exponent < 2 ^ 1024 := by
    have small : ((m ^ exponent : Nat) : ℚ) < (2 ^ 1023 : Nat) := Nat.cast_lt.mpr small
    rw [Nat.cast_pow, Nat.cast_pow, Nat.cast_ofNat] at small
    calc (m * slack) ^ exponent = (m : ℚ) ^ exponent * slack ^ exponent := mul_pow ..
      _ ≤ (m : ℚ) ^ exponent * 2 := by
        gcongr
        exact slack_pow_le_two (few.le.trans (by norm_num))
      _ < 2 ^ 1023 * 2 := by gcongr
      _ = 2 ^ 1024 := (pow_succ ..).symm
  obtain ⟨v, holds, -⟩ := floatPow_near positive short near
  exact holds.isFinite

end TopicPublisher
