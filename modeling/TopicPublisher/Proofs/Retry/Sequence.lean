import TopicPublisher.Proofs.Retry.Power

/-!
The sequence of lengths. While the initial length times the power of the multiplier has 53 bits,
every step is computed exactly: the power, the product and the rounding to nanoseconds lose
nothing. The exception is an initial length of zero, whose product stays zero while the power
grows: once the power is infinite, the product is no number and the step is the cap.
-/

namespace TopicPublisher

open Float.Model UnpackedFloat Binary64

theorem roundDiv_mul (tie : Tie) (n : Nat) {den : Nat} (positive : 0 < den) :
    roundDiv tie (n * den) den = n := by
  simp [roundDiv, positive]

namespace Backoff

/-- The power of the multiplier that a step takes. -/
def power (b : Backoff) (step : Nat) : Float :=
  floatPow b.multiplier.toFloat (Nat.min step lastStep)

theorem unpack_limit : (18446744073709551616.0 : Float).toModel.unpack =
    .finite .positive (2 ^ 52) 12 (by decide) := rfl

theorem nanosOf_finite {x : Float} {negative : Bool} {mantissa : Nat} {exponent : Int}
    (value : (ofFloat x).value = .finite negative mantissa exponent)
    (below : x < 18446744073709551616.0) :
    nanosOf x = some (if negative then 0 else
      roundDiv .up (mantissa * 2 ^ exponent.toNat) (2 ^ (-exponent).toNat)) := by
  rw [nanosOf, value]
  simp only [if_pos below]
  rfl

/-- A whole number of nanoseconds is kept. -/
theorem nanosOf_whole {x : Float} {n : Nat} (holds : Holds x n) (small : n < 2 ^ 53) :
    nanosOf x = some n := by
  obtain ⟨mantissa, exponent, positive, unpack, full, -, whole⟩ := holds
  have log : mantissa.log2 = 52 + 0 := full
  obtain ⟨k, rfl, rfl⟩ := exists_multiple log whole.symm small
  have below : x < 18446744073709551616.0 := by
    have order : compare (-(k + 0 : Nat) : Int) 12 = .lt := Int.compare_eq_lt.mpr (by omega)
    rw [lt_iff_unpack, unpack, unpack_limit]
    simp only [UnpackedFloat.lt, UnpackedFloat.compare, order]
    rfl
  have value : (ofFloat x).value = .finite false (n * 2 ^ k * 2 ^ 0) (-(k + 0 : Nat)) := by
    rw [value_ofFloat, unpack]
    rfl
  rw [nanosOf_finite value below]
  have left : (-(k + 0 : Nat) : Int).toNat = 0 := by omega
  have right : (- -(k + 0 : Nat) : Int).toNat = k := by omega
  rw [left, right, pow_zero, Nat.mul_one, Nat.mul_one, roundDiv_mul .up n (Nat.two_pow_pos k)]
  rfl

theorem nanosOf_zero {x : Float} {sign : Sign} (zero : x.toModel.unpack = .zero sign) :
    nanosOf x = some 0 := by
  have below : x < 18446744073709551616.0 := by
    rw [lt_iff_unpack, zero, unpack_limit]
    rfl
  have value : (ofFloat x).value = .finite (isNegative sign) 0 (-1074) := by
    rw [value_ofFloat, zero]
    rfl
  have nothing (k : Nat) : roundDiv .up 0 (2 ^ k) = 0 := by
    have exactly := roundDiv_mul .up 0 (Nat.two_pow_pos k)
    rwa [Nat.zero_mul] at exactly
  rw [nanosOf_finite value below, Nat.zero_mul, nothing, ite_self]

theorem nanosOf_notANumber {x : Float} (none : x.toModel.unpack = .notANumber) :
    nanosOf x = Option.none := by
  rw [nanosOf, value_ofFloat, none]
  rfl

theorem value_of_some {b : Backoff} {step nanos : Nat}
    (some : nanosOf (Float.ofScientific b.initial.nanos false 0 * b.power step) =
      some nanos) : b.value step = min ⟨nanos⟩ b.cap := by
  rw [power] at some
  simp only [value, some]

theorem value_of_none {b : Backoff} {step : Nat}
    (none : nanosOf (Float.ofScientific b.initial.nanos false 0 * b.power step) =
      none) : b.value step = b.cap := by
  rw [power] at none
  simp only [value, none]

/-- Every step of an initial length of zero is zero or the cap, whatever the multiplier. -/
theorem value_zero (multiplier : Binary64) (cap : Duration) (step : Nat) :
    (Backoff.mk ⟨0⟩ multiplier cap).value step =
      if (ofFloat ((Backoff.mk ⟨0⟩ multiplier cap).power step)).isFinite then min ⟨0⟩ cap
      else cap := by
  have zero : (Float.ofScientific 0 false 0).toModel.unpack = .zero .positive := rfl
  obtain ⟨finite, sign, product⟩ | ⟨infinite, product⟩ :=
    unpack_zero_mul (y := (Backoff.mk ⟨0⟩ multiplier cap).power step) zero
  · rw [if_pos finite]
    exact value_of_some (b := ⟨⟨0⟩, multiplier, cap⟩) (nanosOf_zero product)
  · rw [if_neg (Bool.eq_false_iff.mp infinite)]
    exact value_of_none (b := ⟨⟨0⟩, multiplier, cap⟩) (nanosOf_notANumber product)

variable {initial m step : Nat}

/-- The steps beyond the last are those of a multiplier of one, where the power has 53 bits. -/
theorem pow_min_lastStep (positive : 1 ≤ m) (small : m ^ step < 2 ^ 53) :
    m ^ Nat.min step lastStep = m ^ step := by
  obtain rfl | two := Nat.eq_or_lt_of_le positive
  · rw [one_pow, one_pow]
  · have few : step < 53 :=
      (pow_lt_pow_iff_right₀ one_lt_two).mp ((Nat.pow_le_pow_left two step).trans_lt small)
    have kept : Nat.min step lastStep = step :=
      Nat.min_eq_left (few.le.trans (by decide))
    rw [kept]

theorem holds_power (positive : 1 ≤ m) (whole : m < 2 ^ 53) (small : m ^ step < 2 ^ 53)
    (initial cap : Duration) :
    Holds ((Backoff.mk initial (.ofNat m) cap).power step) (m ^ step : Nat) := by
  have power := pow_min_lastStep positive small
  rw [← power] at small ⊢
  exact holds_floatPow positive whole small

theorem isFinite_power (positive : 1 ≤ m) (whole : m < 2 ^ 53) (small : m ^ step < 2 ^ 1023)
    (initial cap : Duration) :
    (ofFloat ((Backoff.mk initial (.ofNat m) cap).power step)).isFinite = true :=
  isFinite_floatPow positive whole
    (Nat.lt_of_le_of_lt (Nat.pow_le_pow_right positive (Nat.min_le_left ..)) small)

theorem value_positive (cap : Duration) (some : 0 < initial) (short : initial < 2 ^ 53)
    (positive : 1 ≤ m) (whole : m < 2 ^ 53) (small : initial * m ^ step < 2 ^ 53) :
    (Backoff.mk ⟨initial⟩ (.ofNat m) cap).value step = min ⟨initial * m ^ step⟩ cap := by
  have power := holds_power positive whole
    (Nat.lt_of_le_of_lt (Nat.le_mul_of_pos_left _ some) small) ⟨initial⟩ cap
  have product := (holds_ofScientific some short).mul_exact power small
  exact value_of_some (nanosOf_whole product small)

/-- While the wanted length has 53 bits, every step is exactly the initial length times the power
of the multiplier, and no more than the cap, where the initial length is not zero or the power has
1023 bits. An initial length of zero stays zero just as long as the power is finite. -/
theorem value_eq_min (cap : Duration) (short : initial < 2 ^ 53) (positive : 1 ≤ m)
    (whole : m < 2 ^ 53) (small : initial * m ^ step < 2 ^ 53) :
    (0 < initial ∨ m ^ step < 2 ^ 1023 →
      (Backoff.mk ⟨initial⟩ (.ofNat m) cap).value step = min ⟨initial * m ^ step⟩ cap) ∧
    (initial = 0 → (Backoff.mk ⟨initial⟩ (.ofNat m) cap).value step =
      if (ofFloat ((Backoff.mk ⟨initial⟩ (.ofNat m) cap).power step)).isFinite then min ⟨0⟩ cap
      else cap) := by
  refine ⟨fun range => ?_, ?_⟩
  · obtain rfl | some := Nat.eq_zero_or_pos initial
    · have finite := isFinite_power positive whole (range.resolve_left (lt_irrefl 0)) ⟨0⟩ cap
      rw [value_zero, if_pos finite, Nat.zero_mul]
    · exact value_positive cap some short positive whole small
  · rintro rfl
    exact value_zero (.ofNat m) cap step

/-- Delays of 5 ms that triple, and delays of zero that double for a thousand steps. -/
theorem value_eq_min_tripled :
    (5000000 < 2 ^ 53 ∧ 1 ≤ 3 ∧ 3 < 2 ^ 53 ∧ 5000000 * 3 ^ 4 < 2 ^ 53 ∧
      (Backoff.mk ⟨5000000⟩ (.ofNat 3) ⟨1000000000⟩).value 4 = ⟨405000000⟩) ∧
    (0 * 2 ^ 1000 < 2 ^ 53 ∧ 2 ^ 1000 < 2 ^ 1023 ∧
      (Backoff.mk ⟨0⟩ (.ofNat 2) ⟨1000000000⟩).value 1000 = ⟨0⟩) := by
  have nothing : 0 * 2 ^ 1000 < 2 ^ 53 := by
    rw [Nat.zero_mul]
    decide
  have range : 2 ^ 1000 < 2 ^ 1023 := pow_lt_pow_right₀ one_lt_two (by decide)
  have doubled := (value_eq_min ⟨1000000000⟩ (by decide) (by decide) (by decide) nothing).1
    (.inr range)
  rw [Nat.zero_mul] at doubled
  exact ⟨⟨by decide, by decide, by decide, by decide,
      (value_eq_min ⟨1000000000⟩ (by decide) (by decide) (by decide) (by decide)).1
        (.inl (by decide))⟩,
    nothing, range, doubled⟩

/-- After 1024 doublings the power is infinite, and a delay of zero becomes the cap. -/
theorem value_zero_doubled :
    (0 < 2 ^ 53 ∧ 1 ≤ 2 ∧ 2 < 2 ^ 53 ∧ 0 * 2 ^ 1024 < 2 ^ 53) ∧
      (Backoff.mk ⟨0⟩ (.ofNat 2) ⟨1000000000⟩).value 1024 = ⟨1000000000⟩ ∧
      (Backoff.mk ⟨0⟩ (.ofNat 2) ⟨1000000000⟩).value 1024 ≠
        min ⟨0 * 2 ^ 1024⟩ ⟨1000000000⟩ := by
  decide +kernel

end Backoff
end TopicPublisher
