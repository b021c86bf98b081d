import TopicPublisher.Proofs.Decimal.Product

/-!
What the bits of a floating-point number stand for, and whole numbers below `2 ^ 53`: they are
read into floating point and back into bits without loss.
-/

namespace TopicPublisher

open Float.Model UnpackedFloat

namespace Binary64

def isNegative : Sign → Bool
  | .negative => true
  | .positive => false

/-- What an unpacked number stands for. -/
def Value.ofUnpacked : UnpackedFloat → Value
  | .notANumber => .nan
  | .infinity sign => .infinite (isNegative sign)
  | .zero sign => .finite (isNegative sign) 0 (-1074)
  | .finite sign mantissa exponent _ => .finite (isNegative sign) mantissa exponent

theorem toNat_exponentBits (b : UInt64) :
    ((b >>> 52) &&& 0x7FF).toNat = (@unpackExponent .binary64 b.toBitVec).toNat := by
  have bits : (@unpackExponent .binary64 b.toBitVec).toNat = b.toNat >>> 52 % 2 ^ 11 := by
    rw [unpackExponent_def, BitVec.extractLsb'_toNat]
    rfl
  rw [bits, UInt64.toNat_and, UInt64.toNat_shiftRight]
  exact Nat.and_two_pow_sub_one_eq_mod _ 11

theorem toNat_fractionBits (b : UInt64) :
    (b &&& 0xFFFFFFFFFFFFF).toNat = (@unpackMantissa .binary64 b.toBitVec).toNat := by
  have bits : (@unpackMantissa .binary64 b.toBitVec).toNat = b.toNat % 2 ^ 52 := by
    rw [unpackMantissa_def, BitVec.extractLsb'_toNat]
    rfl
  rw [bits, UInt64.toNat_and]
  exact Nat.and_two_pow_sub_one_eq_mod _ 52

theorem signBit (b : UInt64) :
    (b >>> 63 == 1) = isNegative (Sign.ofBitVec (@unpackSign .binary64 b.toBitVec)) := by
  have bits : (@unpackSign .binary64 b.toBitVec).toNat = b.toNat >>> 63 % 2 := by
    rw [unpackSign_def, BitVec.extractLsb'_toNat]
    rfl
  have top : b.toNat >>> 63 < 2 := by
    rw [Nat.shiftRight_eq_div_pow]
    exact Nat.div_lt_of_lt_mul b.toNat_lt
  have shifted : (b >>> 63).toNat = b.toNat >>> 63 := UInt64.toNat_shiftRight ..
  rw [Nat.mod_eq_of_lt top, ← shifted] at bits
  obtain zero | one := BitVec.eq_zero_or_eq_one (@unpackSign .binary64 b.toBitVec)
  · rw [zero] at bits
    have clear : b >>> 63 = 0 := UInt64.toNat_inj.mp bits.symm
    rw [zero, clear]
    rfl
  · rw [one] at bits
    have set : b >>> 63 = 1 := UInt64.toNat_inj.mp bits.symm
    rw [one, set]
    rfl

/-- The bits of a number stand for what the number unpacks to. -/
theorem value_ofFloat (x : Float) : (ofFloat x).value = .ofUnpacked x.toModel.unpack := by
  change (Binary64.mk x.toModel.toBits).value =
    .ofUnpacked (UnpackedFloat.unpack .binary64 x.toModel.toBits.toBitVec)
  have top (exponent : BitVec 11) : exponent.toNat = 2047 ↔ exponent = -1#11 :=
    BitVec.toNat_inj (y := -1#11)
  have bottom (exponent : BitVec 11) : exponent.toNat = 0 ↔ exponent = 0#11 :=
    BitVec.toNat_inj (y := 0#11)
  have empty (fraction : BitVec 52) : fraction.toNat = 0 ↔ fraction = 0#52 :=
    BitVec.toNat_inj (y := 0#52)
  simp only [value, UnpackedFloat.unpack, toNat_exponentBits, toNat_fractionBits, signBit, top,
    bottom, empty]
  split_ifs with special infinite small zero
  · rfl
  · rfl
  · rw [zero]
    rfl
  · rw [small]
    rfl
  · simp only [Value.ofUnpacked, toNat_one_append]
    rfl

theorem lt_iff_unpack (x y : Float) :
    x < y ↔ UnpackedFloat.lt x.toModel.unpack y.toModel.unpack = true := by
  change decide (x.toModel < y.toModel) = true ↔ _
  rw [decide_eq_true_eq]
  rfl

theorem holds_one : Holds 1.0 (1 : Nat) :=
  ⟨2 ^ 52, -52, by decide, rfl, by decide, le_refl _, by norm_num⟩

theorem log2_mul_two_pow {n : Nat} (positive : 0 < n) (shift : Nat) :
    (n * 2 ^ shift).log2 = n.log2 + shift := by
  obtain ⟨least, most⟩ := (Nat.log2_eq_iff (Nat.ne_of_gt positive)).mp rfl
  refine (Nat.log2_eq_iff (by positivity)).mpr ⟨?_, ?_⟩
  · rw [pow_add]
    exact Nat.mul_le_mul_right _ least
  · rw [Nat.add_right_comm, pow_add]
    exact Nat.mul_lt_mul_of_pos_right most (Nat.two_pow_pos shift)

/-- A whole number fills its mantissa up with zeros, and those are not rounded away. -/
theorem stands_ofNat {n : Nat} (positive : 0 < n) (small : n < 2 ^ 53) :
    Stands (UnpackedFloat.ofNat .binary64 n) n := by
  have short : n.log2 < 53 := (Nat.log2_lt (Nat.ne_of_gt positive)).mpr small
  obtain ⟨shift, sum⟩ := Nat.exists_eq_add_of_le (Nat.lt_succ_iff.mp short)
  have target : Format.binary64.targetExponent (totalExponent n 0) = -(shift : Int) := by
    simp only [Format.targetExponent, totalExponent, Format.mantissaBits, Format.minExponent]
    omega
  have amount : (- -(shift : Int)).toNat = shift := by omega
  have log : (n * 2 ^ shift).log2 = 52 + 0 := by rw [log2_mul_two_pow positive, sum, Nat.add_zero]
  have filled : UnpackedFloat.ofNat .binary64 n =
      roundWithAccuracy .binary64 .positive (n * 2 ^ shift) (-(shift : Int)) .exact := by
    have sign : compare (n : Int) 0 = .gt := Int.compare_eq_gt.mpr (by omega)
    simp only [UnpackedFloat.ofNat, UnpackedFloat.ofInt, UnpackedFloat.normalize, sign,
      Int.toNat_natCast, UnpackedFloat.round, target, decreaseExponent, amount, Nat.shiftLeft_eq,
      Int.zero_sub]
  have whole : ((n * 2 ^ shift : Nat) * 2 ^ (-(shift : Int)) : ℚ) = n := by
    rw [zpow_neg, zpow_natCast]
    push_cast
    exact mul_inv_cancel_right₀ (by positivity) _
  have low : -52 ≤ -(shift : Int) + (0 : Nat) := by omega
  have stands := stands_round log low
  rw [rounded_whole log whole small] at stands
  rw [filled]
  exact stands

/-- Text of a whole number is read exactly. -/
theorem holds_ofScientific {n : Nat} (positive : 0 < n) (small : n < 2 ^ 53) :
    Holds (Float.ofScientific n false 0) n := by
  have word : n.toUInt64.toNat = n := Nat.mod_eq_of_lt (Nat.lt_trans small (by decide))
  have stands := stands_ofNat positive small
  have holds : Holds n.toUInt64.toFloat n := by
    have unpack : n.toUInt64.toFloat.toModel.unpack =
        (pack (UnpackedFloat.ofNat .binary64 n.toUInt64.toNat)).unpack := rfl
    rw [Holds, unpack, word, stands.unpack_pack (Holds.lt_range small)]
    exact stands
  have read : Float.ofScientific n false 0 = n.toUInt64.toFloat * 1.0 := by
    rw [Float.ofScientific, dif_pos ⟨small, Nat.zero_le _⟩]
    rfl
  have product := holds.mul_exact holds_one ((Nat.mul_one n).symm ▸ small)
  rw [Nat.mul_one] at product
  rw [read]
  exact product

theorem holds_toFloat {n : Nat} (positive : 0 < n) (small : n < 2 ^ 53) :
    Holds (Binary64.ofNat n).toFloat n := by
  rw [toFloat, Binary64.ofNat, ofFloat, Float.ofBits_toBits]
  exact holds_ofScientific positive small

theorem isFinite_ofFloat (x : Float) : (ofFloat x).isFinite = x.toModel.unpack.isFinite := by
  rw [isFinite, value_ofFloat]
  cases x.toModel.unpack <;> rfl

theorem Holds.isFinite {x : Float} {v : ℚ} (holds : Holds x v) : (ofFloat x).isFinite = true := by
  obtain ⟨mantissa, exponent, positive, unpack, -⟩ := holds
  rw [isFinite_ofFloat, unpack]
  rfl

/-- Zero times a finite number is zero, of either sign; zero times any other is no number. -/
theorem unpack_zero_mul {x y : Float} {sign : Sign} (zero : x.toModel.unpack = .zero sign) :
    ((ofFloat y).isFinite = true ∧ ∃ sign', (x * y).toModel.unpack = .zero sign') ∨
      ((ofFloat y).isFinite = false ∧ (x * y).toModel.unpack = .notANumber) := by
  have none : (pack .notANumber).unpack = .notANumber := unpack_packedNaN
  have keeps (s : Sign) : (pack (.zero s)).unpack = .zero s := unpack_packedZero
  rw [isFinite_ofFloat, Holds.unpack_mul, zero]
  cases y.toModel.unpack with
  | notANumber | infinity _ =>
    simp only [UnpackedFloat.mul, none]
    exact .inr ⟨rfl, trivial⟩
  | zero _ | finite _ _ _ _ =>
    simp only [UnpackedFloat.mul, keeps]
    exact .inl ⟨rfl, _, rfl⟩

end Binary64
end TopicPublisher
