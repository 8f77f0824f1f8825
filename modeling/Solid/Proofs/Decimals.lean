import Solid.Proofs.Nearest
import Solid.Decimal
namespace Solid.Doubles
open Float.Model Float.Model.UnpackedFloat
open Decimal (Binary)

-- The powers of ten that a double holds.
def power (k : Fin 23) : Float := Float.exactlyRepresentablePowersOfTen[k.val]

theorem power_held (k : Fin 23) : (power k).isFinite ∧ (Binary.ofFloat (power k)).negative = false ∧
    (Binary.ofFloat (power k)).magnitude.numerator = 10 ^ k.val * (Binary.ofFloat (power k)).magnitude.denominator := by
  revert k
  decide +kernel

theorem power_amount (k : Fin 23) : (Binary.ofFloat (power k)).amount = 10 ^ k.val := by
  obtain ⟨_, _, held⟩ := power_held k
  rw [← Decimal.ratio_amount, held, Nat.cast_mul, Nat.cast_pow, Nat.cast_ofNat]
  exact mul_div_cancel_right₀ _ (by exact_mod_cast Decimal.magnitude_denominator _)

section
variable {n k : ℕ} {c : Binary} (positive : 0 < n) (canonical : Canonical c) (unsigned : c.negative = false)
  (nonzero : c.significand ≠ 0) (rounds : c.Rounds (n / 10 ^ k))

include canonical unsigned rounds in
-- Whatever double the decimal is nearest to, there is only the one.
theorem nearest_same {x : UnpackedFloat} (found : ∃ d : Binary, Canonical d ∧ d.negative = false ∧
    d.Rounds (n / 10 ^ k) ∧ x = ofBinary d) : x = ofBinary c := by
  obtain ⟨d, canonical', unsigned', rounds', same⟩ := found
  obtain ⟨significands, exponents⟩ := Decimal.rounds_unique canonical canonical' rounds rounds'
  have equal : c = d := by
    cases c
    cases d
    simp_all
  rw [same, equal]

include positive canonical unsigned rounds in
theorem short_decimal (small : n < 2 ^ 53) (few : k < 23) :
    parts (n.toUInt64.toFloat / power ⟨k, few⟩) = ofBinary c := by
  obtain ⟨finite, positive', _⟩ := power_held ⟨k, few⟩
  have amount := power_amount ⟨k, few⟩
  have stands := whole_stands positive.ne' small false
  have bounded := rounds_limit canonical rounds
  have nonzero : (Binary.ofFloat (power ⟨k, few⟩)).significand ≠ 0 := by
    apply Decimal.amount_nonzero
    rw [amount]
    positivity
  rw [← stands, ← amount] at bounded
  have quotient := quotient_nearest (toFloat_parts positive.ne' small) (parts_finite _ finite) rfl positive'
    (whole_nonzero positive.ne' false) nonzero bounded
  rw [stands, amount] at quotient
  exact nearest_same canonical unsigned rounds quotient

include positive canonical nonzero rounds in
-- No decimal that is nearest to a positive double is so small that its reading stops early.
theorem decimal_large : (k : ℤ) ≤ 2 ^ 11 + n.log2 := by
  by_contra far
  have far : 2049 + n.log2 ≤ k := by omega
  have some : (2 : ℚ) ^ (-1076 : ℤ) ≤ c.interval.least := by
    have places : 1 ≤ 4 * c.significand - c.gap := by
      rcases Decimal.gap_cases c with ⟨gap, _⟩ | ⟨gap, _⟩ <;> rw [gap] <;> omega
    have places : (1 : ℚ) ≤ (4 * c.significand - c.gap : ℕ) := by exact_mod_cast places
    have place : (2 : ℚ) ^ (-1076 : ℤ) ≤ 2 ^ (c.exponent - 2) :=
      zpow_le_zpow_right₀ (by norm_num) (by have := canonical.least; omega)
    rw [Decimal.interval_least]
    calc (2 : ℚ) ^ (-1076 : ℤ) ≤ 2 ^ (c.exponent - 2) := place
      _ ≤ (4 * c.significand - c.gap : ℕ) * 2 ^ (c.exponent - 2) := le_mul_of_one_le_left (by positivity) places
  have tiny : (n / 10 ^ k : ℚ) < 2 ^ (-1076 : ℤ) := by
    have digits : (n : ℚ) < 2 ^ (n.log2 + 1) := by exact_mod_cast Nat.lt_log2_self
    have octal : (2 : ℚ) ^ (3 * k) ≤ 10 ^ k := by
      rw [pow_mul]
      exact pow_le_pow_left₀ (by norm_num) (by norm_num) k
    calc (n / 10 ^ k : ℚ) ≤ n / 2 ^ (3 * k) := div_le_div_of_nonneg_left (by positivity) (by positivity) octal
      _ < 2 ^ (n.log2 + 1) / 2 ^ (3 * k) := div_lt_div_of_pos_right digits (by positivity)
      _ = 2 ^ ((n.log2 + 1 : ℕ) - (3 * k : ℕ) : ℤ) := by
        rw [zpow_sub₀ (by norm_num), zpow_natCast, zpow_natCast]
      _ ≤ 2 ^ (-1076 : ℤ) := zpow_le_zpow_right₀ (by norm_num) (by omega)
  have least := rounds.1
  linarith

include positive canonical unsigned nonzero rounds in
theorem long_decimal (some : 0 < k) : UnpackedFloat.ofScientific double n (Int.negOfNat k) = ofBinary c := by
  have quotient := div_nearest (m := n) (n := 10 ^ k) (e := 0) (f := 0) positive (by positivity)
  rw [zpow_zero, mul_one, mul_one, Nat.cast_pow, Nat.cast_ofNat] at quotient
  have large := decimal_large positive canonical nonzero rounds
  have chosen : UnpackedFloat.ofScientific double n (-(k : ℤ)) =
      UnpackedFloat.div double (.finite .positive n 0 positive) (.finite .positive (10 ^ k) 0 (by positivity)) := by
    have below : ¬-(k : ℤ) > (2 ^ 11 : ℤ) := by omega
    have above : ¬-(k : ℤ) < -((2 ^ 11 : ℤ) + n.log2) := by omega
    have shrinking : ¬0 ≤ -(k : ℤ) := by omega
    have places : (-(-(k : ℤ))).toNat = k := by omega
    unfold UnpackedFloat.ofScientific
    rw [dif_neg positive.ne', if_neg below, if_neg above, if_neg shrinking]
    simp only [places]
  rw [Int.negOfNat_eq, Int.ofNat_eq_natCast, chosen]
  exact nearest_same canonical unsigned rounds (quotient (rounds_limit canonical rounds))

include positive canonical unsigned nonzero rounds in
-- A decimal in the interval of a double is read as this double.
theorem decimal_nearest (some : 0 < k) : parts (Decimal.nearest n (-k)) = ofBinary c := by
  have shrinking : decide (-(k : ℤ) < 0) = true := by simpa using some
  unfold Decimal.nearest
  rw [shrinking, Int.natAbs_neg, Int.natAbs_natCast]
  unfold Float.ofScientific
  split
  · next small => exact short_decimal positive canonical unsigned rounds small.1 (Nat.lt_succ_of_le small.2)
  · change UnpackedFloat.unpack double (UnpackedFloat.pack double
      (UnpackedFloat.ofScientific double n (Int.negOfNat k))) = _
    rw [long_decimal positive canonical unsigned nonzero rounds some]
    exact unpack_pack c canonical

end

end Solid.Doubles
