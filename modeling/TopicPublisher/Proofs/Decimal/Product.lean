import Mathlib
import TopicPublisher.Decimal.Binary64

/-!
Products of floating-point numbers that are at least one. The product of two mantissas of 53 bits
has up to 106; the lowest of them are cut off and the rest is rounded. So a product exceeds the
exact one by at most one part in `2 ^ 52`, and it is the exact one where the bits that are cut
off are zero. It overflows only where it leaves the range of the exponent.

The lemmas on packed numbers (`unpackSign_packComponents` and those on zeros and NaN) are in no
smaller part of the library than the whole of it.
-/

namespace TopicPublisher

open Float.Model UnpackedFloat

namespace Binary64

/-! Rounding a mantissa that has `extra` bits more than a number can keep. -/

theorem mantissa_shiftRight (m : ExtendedMantissa) (count : Nat) :
    (m >>> count).mantissa = m.mantissa / 2 ^ count := by
  induction count with
  | zero => exact (Nat.div_one _).symm
  | succ count ih =>
    calc (m >>> (count + 1)).mantissa
        = (m >>> count).mantissa / 2 := rfl
      _ = m.mantissa / 2 ^ count / 2 := by rw [ih]
      _ = m.mantissa / 2 ^ (count + 1) := by rw [Nat.div_div_eq_div_mul, pow_succ]

/-- No bit of a multiple of `2 ^ count` is lost by a shift of `count` places. -/
theorem shiftRight_multiple (n count : Nat) :
    ExtendedMantissa.mk (n * 2 ^ count) false false >>> count = ⟨n, false, false⟩ := by
  induction count generalizing n with
  | zero => rw [pow_zero, Nat.mul_one]; rfl
  | succ count ih =>
    have double : n * 2 ^ (count + 1) = n * 2 * 2 ^ count := by ring
    calc ExtendedMantissa.mk (n * 2 ^ (count + 1)) false false >>> (count + 1)
        = (ExtendedMantissa.mk (n * 2 * 2 ^ count) false false >>> count).shiftRightOne := by
          rw [double]; rfl
      _ = ExtendedMantissa.mk n false false := by simp [ih, ExtendedMantissa.shiftRightOne]

theorem roundedMantissa_bounds (m : ExtendedMantissa) :
    m.mantissa ≤ m.roundedMantissa ∧ m.roundedMantissa ≤ m.mantissa + 1 := by
  obtain ⟨mantissa, round, sticky⟩ := m
  cases round <;> cases sticky <;>
    simp only [ExtendedMantissa.roundedMantissa, ExtendedMantissa.accuracy,
      Accuracy.roundToNearestEven] <;> omega

variable {mantissa extra : Nat} {exponent : Int}

/-- The powers of two around a mantissa of more than one bit. -/
theorem bounds_of_log2 {bits : Nat} (log : mantissa.log2 = bits) (long : 0 < bits := by omega) :
    2 ^ bits ≤ mantissa ∧ mantissa < 2 ^ (bits + 1) := by
  refine (Nat.log2_eq_iff ?_).mp log
  rintro rfl
  rw [Nat.log2_zero] at log
  omega

theorem shiftToTargetExponent_exact (log : mantissa.log2 = 52 + extra)
    (low : -1074 ≤ exponent + extra) :
    shiftToTargetExponent .binary64 mantissa exponent .exact =
      (ExtendedMantissa.mk mantissa false false >>> extra, exponent + extra) := by
  have target : Format.binary64.targetExponent (totalExponent mantissa exponent) =
      exponent + extra := by
    simp only [Format.targetExponent, totalExponent, log, Format.mantissaBits, Format.minExponent]
    omega
  have amount : (exponent + extra - exponent).toNat = extra := by omega
  simp only [shiftToTargetExponent, shiftToExponent, target, amount]
  rfl

/-- The mantissa that is left after the lowest `extra` bits are rounded away. -/
def rounded (mantissa extra : Nat) : Nat :=
  (ExtendedMantissa.mk mantissa false false >>> extra).roundedMantissa

theorem rounded_multiple (n extra : Nat) : rounded (n * 2 ^ extra) extra = n := by
  rw [rounded, shiftRight_multiple]
  rfl

theorem rounded_bounds (log : mantissa.log2 = 52 + extra) :
    2 ^ 52 ≤ rounded mantissa extra ∧ rounded mantissa extra ≤ 2 ^ 53 ∧
      rounded mantissa extra * 2 ^ extra ≤ mantissa + 2 ^ extra := by
  obtain ⟨least, most⟩ := bounds_of_log2 log
  have cut : (ExtendedMantissa.mk mantissa false false >>> extra).mantissa =
      mantissa / 2 ^ extra := mantissa_shiftRight _ _
  have near := roundedMantissa_bounds (ExtendedMantissa.mk mantissa false false >>> extra)
  rw [cut] at near
  have low : 2 ^ 52 ≤ mantissa / 2 ^ extra := by
    rw [Nat.le_div_iff_mul_le (Nat.two_pow_pos extra), ← pow_add]
    exact least
  have high : mantissa / 2 ^ extra < 2 ^ 53 := by
    rw [Nat.div_lt_iff_lt_mul (Nat.two_pow_pos extra), ← pow_add]
    exact Nat.lt_of_lt_of_eq most (congrArg (2 ^ ·) (by omega))
  refine ⟨Nat.le_trans low near.1, Nat.le_trans near.2 high, ?_⟩
  calc rounded mantissa extra * 2 ^ extra
      ≤ (mantissa / 2 ^ extra + 1) * 2 ^ extra := Nat.mul_le_mul_right _ near.2
    _ = mantissa / 2 ^ extra * 2 ^ extra + 2 ^ extra := by ring
    _ ≤ mantissa + 2 ^ extra := Nat.add_le_add_right (Nat.div_mul_le_self ..) _

/-- `f` is the number `v`, which is at least one: all 53 bits of the mantissa are in use. -/
def Stands (f : UnpackedFloat) (v : ℚ) : Prop :=
  ∃ mantissa exponent positive, f = .finite .positive mantissa exponent positive ∧
    mantissa.log2 = 52 ∧ -52 ≤ exponent ∧ v = mantissa * (2 : ℚ) ^ exponent

/-- What the second shift leaves, which takes care of a carry out of the rounding. -/
theorem stands_of_shift {n : Nat} {e : Int} (log : mantissa.log2 = 52 + extra)
    (low : -52 ≤ exponent + extra)
    (second : shiftToTargetExponent .binary64 (rounded mantissa extra) (exponent + extra) .exact =
      (⟨n, false, false⟩, e))
    (full : n.log2 = 52) (large : -52 ≤ e) :
    Stands (roundWithAccuracy .binary64 .positive mantissa exponent .exact)
      (n * (2 : ℚ) ^ e) := by
  have room : -1074 ≤ exponent + extra := by omega
  have first := shiftToTargetExponent_exact log room
  have positive : 0 < n := Nat.lt_of_lt_of_le (Nat.two_pow_pos 52) (bounds_of_log2 full).1
  refine ⟨n, e, positive, ?_, full, large, rfl⟩
  unfold roundWithAccuracy
  rw [first]
  dsimp only
  rw [rounded] at second
  simp only [second, Nat.ne_of_gt positive, dite_false]

/-- A mantissa rounded up to `2 ^ 53` has one bit too many, and that one is zero. -/
theorem stands_round (log : mantissa.log2 = 52 + extra) (low : -52 ≤ exponent + extra) :
    Stands (roundWithAccuracy .binary64 .positive mantissa exponent .exact)
      (rounded mantissa extra * (2 : ℚ) ^ (exponent + extra)) := by
  obtain ⟨least, most, -⟩ := rounded_bounds log
  obtain carry | below := Nat.eq_or_lt_of_le most
  · have long : (rounded mantissa extra).log2 = 52 + 1 := by rw [carry]; decide
    have room : -1074 ≤ exponent + extra + (1 : Nat) := by omega
    have second := shiftToTargetExponent_exact long room
    have half : ExtendedMantissa.mk (rounded mantissa extra) false false >>> 1 =
        ⟨2 ^ 52, false, false⟩ := by
      rw [carry]
      exact shiftRight_multiple (2 ^ 52) 1
    rw [half] at second
    have same : (rounded mantissa extra : ℚ) * 2 ^ (exponent + extra) =
        (2 ^ 52 : Nat) * (2 : ℚ) ^ (exponent + extra + 1) := by
      rw [carry, zpow_add₀ two_ne_zero (exponent + extra) 1]
      push_cast
      ring
    rw [same]
    exact stands_of_shift log low second (by decide) (by omega)
  · have full : (rounded mantissa extra).log2 = 52 + 0 :=
      (Nat.log2_eq_iff (by omega)).mpr ⟨least, below⟩
    have room : -1074 ≤ exponent + extra + (0 : Nat) := by omega
    have second := shiftToTargetExponent_exact full room
    exact stands_of_shift log low (second.trans (congrArg _ (Int.add_zero _))) full low

/-! Packing a rounded number into its 64 bits. -/

theorem toNat_one_append (fraction : BitVec 52) :
    (1#1 ++ fraction).toNat = 2 ^ 52 + fraction.toNat := by
  rw [BitVec.toNat_append, ← Nat.shiftLeft_add_eq_or_of_lt fraction.isLt]
  rfl

/-- The leading bit of a full mantissa is left out of the bits and put back. -/
theorem toNat_leadingOne (full : mantissa.log2 = 52) :
    (1#1 ++ BitVec.ofNat 52 mantissa).toNat = mantissa := by
  obtain ⟨least, most⟩ := bounds_of_log2 full
  rw [toNat_one_append, BitVec.toNat_ofNat]
  omega

theorem unpack_pack_full (positive : 0 < mantissa) (full : mantissa.log2 = 52)
    (low : -1074 ≤ exponent) (high : exponent ≤ 971) :
    (pack (.finite .positive mantissa exponent positive)).unpack =
      .finite .positive mantissa exponent positive := by
  let biased := (exponent + 1075).toNat
  have bias : (exponent + Format.binary64.exponentBias + (52 : Nat)).toNat = biased := by
    change (exponent + 1023 + 52).toNat = _
    omega
  have read : (BitVec.ofNat 11 biased).toNat = biased := Nat.mod_eq_of_lt (by omega)
  have finite : BitVec.ofNat 11 biased ≠ -1#11 := by
    intro same
    have value : biased = 2047 := read.symm.trans (congrArg BitVec.toNat same)
    omega
  have normal : BitVec.ofNat 11 biased ≠ 0#11 := by
    intro same
    have value : biased = 0 := read.symm.trans (congrArg BitVec.toNat same)
    omega
  change UnpackedFloat.unpack .binary64 (UnpackedFloat.pack .binary64 _) = _
  simp only [UnpackedFloat.pack, bias, full]
  have width : 52 + 1 = Format.binary64.mantissaBits := rfl
  rw [if_neg (by omega), if_pos width]
  simp only [UnpackedFloat.unpack, unpackMantissa_packComponents, unpackExponent_packComponents,
    unpackSign_packComponents, Sign.ofBitVec_toBitVec, if_neg finite, if_neg normal,
    toNat_leadingOne full, read]
  congr 1
  change (biased : Int) - (1023 + 52) = exponent
  omega

namespace Stands

variable {f g : UnpackedFloat} {v w : ℚ}

theorem one_le (stands : Stands f v) : 1 ≤ v := by
  obtain ⟨mantissa, exponent, positive, -, full, low, rfl⟩ := stands
  have least : 2 ^ 52 ≤ mantissa := (bounds_of_log2 full).1
  calc (1 : ℚ) = (2 : ℚ) ^ 52 * (2 : ℚ) ^ (-52 : Int) := by norm_num
    _ ≤ mantissa * 2 ^ exponent := by
      gcongr
      · exact_mod_cast least
      · norm_num

theorem unpack_pack (stands : Stands f v) (small : v < 2 ^ 1024) : (pack f).unpack = f := by
  obtain ⟨mantissa, exponent, positive, rfl, full, low, rfl⟩ := stands
  have least : 2 ^ 52 ≤ mantissa := (bounds_of_log2 full).1
  refine unpack_pack_full positive full (by omega) (Int.not_lt.mp fun high => ?_)
  refine absurd small (not_lt.mpr ?_)
  calc (2 : ℚ) ^ 1024 = (2 : ℚ) ^ 52 * (2 : ℚ) ^ (972 : Int) := by
        rw [← zpow_natCast, ← zpow_natCast, ← zpow_add₀ two_ne_zero]
        rfl
    _ ≤ (mantissa * 2 ^ exponent : ℚ) := by
      gcongr
      · exact_mod_cast least
      · norm_num
      · exact high

end Stands

/-- The most that rounding adds to a number, as a factor. -/
def slack : ℚ := 1 + 1 / 2 ^ 52

/-- A mantissa has 52 bits behind the first, so a unit of the last is one part in `2 ^ 52`. -/
theorem rounded_le (log : mantissa.log2 = 52 + extra) :
    (rounded mantissa extra * 2 ^ extra : ℚ) ≤ mantissa * slack := by
  obtain ⟨-, -, near⟩ := rounded_bounds log
  have least : 2 ^ 52 * 2 ^ extra ≤ mantissa := by
    rw [← pow_add]
    exact (bounds_of_log2 log).1
  have near : (rounded mantissa extra * 2 ^ extra : ℚ) ≤ mantissa + 2 ^ extra := by
    exact_mod_cast near
  have least : (2 : ℚ) ^ 52 * 2 ^ extra ≤ mantissa := by exact_mod_cast least
  calc (rounded mantissa extra * 2 ^ extra : ℚ)
      ≤ mantissa + 2 ^ extra := near
    _ = mantissa + 2 ^ 52 * 2 ^ extra / 2 ^ 52 := by rw [mul_div_cancel_left₀ _ (by norm_num)]
    _ ≤ mantissa + mantissa / 2 ^ 52 := by gcongr
    _ = mantissa * slack := by rw [slack]; ring

/-- The mantissa of a whole number below `2 ^ 53` ends in zeros, at least as many as it has bits
to spare. -/
theorem exists_multiple {n : Nat} (log : mantissa.log2 = 52 + extra)
    (whole : (mantissa * 2 ^ exponent : ℚ) = n) (small : n < 2 ^ 53) :
    ∃ k : Nat, exponent = -(k + extra : Nat) ∧ mantissa = n * 2 ^ k * 2 ^ extra := by
  have least : 2 ^ (52 + extra) ≤ mantissa := (bounds_of_log2 log).1
  have bound : (2 : ℚ) ^ (52 + extra + exponent) < (2 : ℚ) ^ (53 : Int) := by
    calc (2 : ℚ) ^ (52 + extra + exponent)
        = 2 ^ (52 + extra) * 2 ^ exponent := by
          rw [zpow_add₀ two_ne_zero]
          congr 1
      _ ≤ mantissa * 2 ^ exponent := by
          gcongr
          exact_mod_cast least
      _ = n := whole
      _ < 2 ^ (53 : Int) := by exact_mod_cast small
  have room : 52 + extra + exponent < 53 := (zpow_lt_zpow_iff_right₀ one_lt_two).mp bound
  obtain ⟨k, rfl⟩ : ∃ k : Nat, exponent = -(k + extra : Nat) :=
    ⟨(-exponent - extra).toNat, by omega⟩
  refine ⟨k, rfl, ?_⟩
  rw [zpow_neg, zpow_natCast, ← div_eq_mul_inv, div_eq_iff (by positivity), pow_add,
    ← mul_assoc] at whole
  exact_mod_cast whole

/-- So rounding cuts off nothing but zeros. -/
theorem rounded_whole {n : Nat} (log : mantissa.log2 = 52 + extra)
    (whole : (mantissa * 2 ^ exponent : ℚ) = n) (small : n < 2 ^ 53) :
    (rounded mantissa extra * 2 ^ (exponent + extra) : ℚ) = n := by
  obtain ⟨k, rfl, multiple⟩ := exists_multiple log whole small
  have cancel : -((k + extra : Nat) : Int) + extra = -k := by omega
  rw [multiple, rounded_multiple, cancel, zpow_neg, zpow_natCast]
  push_cast
  exact mul_inv_cancel_right₀ (by positivity) _

/-- A product is rounded upwards by less than one part in `2 ^ 52`, and not at all where it is a
whole number below `2 ^ 53`. -/
theorem Stands.mul {f g : UnpackedFloat} {v w : ℚ} (hf : Stands f v) (hg : Stands g w) :
    ∃ u, Stands (UnpackedFloat.mul .binary64 f g) u ∧ u ≤ v * w * slack ∧
      ∀ n : Nat, v * w = n → n < 2 ^ 53 → u = n := by
  obtain ⟨m, d, hm, rfl, full, low, rfl⟩ := hf
  obtain ⟨n, e, hn, rfl, full', low', rfl⟩ := hg
  have least : 2 ^ 52 * 2 ^ 52 ≤ m * n :=
    Nat.mul_le_mul (bounds_of_log2 full).1 (bounds_of_log2 full').1
  have long : 104 ≤ (m * n).log2 :=
    (Nat.le_log2 (Nat.ne_of_gt (Nat.mul_pos hm hn))).mpr least
  -- at least 52 bits are cut off, so the exponent comes back to where it may be
  obtain ⟨extra, log⟩ := Nat.exists_eq_add_of_le (Nat.le_trans (by decide : 52 ≤ 104) long)
  have product : (m * 2 ^ d * (n * 2 ^ e) : ℚ) = (m * n : Nat) * 2 ^ (d + e) := by
    rw [zpow_add₀ two_ne_zero]
    push_cast
    ring
  rw [product]
  refine ⟨_, stands_round log (by omega), ?_, fun k => rounded_whole log⟩
  calc (rounded (m * n) extra * 2 ^ (d + e + extra) : ℚ)
      = rounded (m * n) extra * 2 ^ extra * 2 ^ (d + e) := by
        rw [zpow_add₀ two_ne_zero (d + e), zpow_natCast]
        ring
    _ ≤ (m * n : Nat) * slack * 2 ^ (d + e) :=
        mul_le_mul_of_nonneg_right (rounded_le log) (by positivity)
    _ = (m * n : Nat) * 2 ^ (d + e) * slack := by ring

/-- The floating-point number `x` is the number `v`, which is at least one. -/
def Holds (x : Float) (v : ℚ) : Prop := Stands x.toModel.unpack v

namespace Holds

variable {x y : Float} {v w : ℚ}

theorem unpack_mul (x y : Float) : (x * y).toModel.unpack =
    (pack (UnpackedFloat.mul .binary64 x.toModel.unpack y.toModel.unpack)).unpack := rfl

theorem mul_le (hx : Holds x v) (hy : Holds y w) (small : v * w * slack < 2 ^ 1024) :
    ∃ u, Holds (x * y) u ∧ u ≤ v * w * slack := by
  obtain ⟨u, stands, near, -⟩ := Stands.mul hx hy
  refine ⟨u, ?_, near⟩
  rw [Holds, unpack_mul, stands.unpack_pack (near.trans_lt small)]
  exact stands

/-- Whole numbers of 53 bits are well within the range of the exponent. -/
theorem lt_range {n : Nat} (small : n < 2 ^ 53) : (n : ℚ) < 2 ^ 1024 :=
  calc (n : ℚ) < 2 ^ 53 := by exact_mod_cast small
    _ ≤ 2 ^ 1024 := pow_le_pow_right₀ one_le_two (by decide)

theorem mul_exact {m n : Nat} (hx : Holds x m) (hy : Holds y n) (small : m * n < 2 ^ 53) :
    Holds (x * y) (m * n : Nat) := by
  obtain ⟨u, stands, -, whole⟩ := Stands.mul hx hy
  obtain rfl := whole (m * n) (Nat.cast_mul m n).symm small
  rw [Holds, unpack_mul, stands.unpack_pack (lt_range small)]
  exact stands

end Holds

end Binary64
end TopicPublisher
