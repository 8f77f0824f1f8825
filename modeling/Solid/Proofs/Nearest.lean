import Solid.Proofs.Measures
namespace Solid.Doubles
open Float.Model Float.Model.UnpackedFloat
open Decimal (Binary)

-- The whole number nearest to `x`. Halfway between two of them it is the even one.
def Near (n : ℕ) (x : ℚ) : Prop :=
  (n : ℚ) - 1 / 2 ≤ x ∧ x ≤ n + 1 / 2 ∧ (n % 2 = 1 → (n : ℚ) - 1 / 2 < x ∧ x < n + 1 / 2)

theorem near_self (n : ℕ) : Near n n := by
  refine ⟨?_, ?_, fun _ => ⟨?_, ?_⟩⟩ <;> linarith

theorem near_monotone {m n : ℕ} {x y : ℚ} (near : Near m x) (near' : Near n y) (below : x ≤ y) : m ≤ n := by
  obtain ⟨low, high, inner⟩ := near
  obtain ⟨low', high', inner'⟩ := near'
  by_contra above
  have step : n + 1 ≤ m := by omega
  have step' : (n : ℚ) + 1 ≤ m := by exact_mod_cast step
  by_cases apart : n + 1 < m
  · have : (n : ℚ) + 1 + 1 ≤ m := by exact_mod_cast apart
    linarith
  · -- The two are neighbours, so one of them is odd and does not reach the middle.
    rcases Nat.mod_two_eq_zero_or_one m with even | odd
    · have := (inner' (by omega)).2
      linarith
    · have := (inner odd).1
      linarith

-- What a mantissa with its two further bits says about the number it was cut off from.
def Represents (em : ExtendedMantissa) (x : ℚ) : Prop :=
  match em.roundBit, em.stickyBit with
  | false, false => x = em.mantissa
  | false, true => (em.mantissa : ℚ) < x ∧ x < em.mantissa + 1 / 2
  | true, false => x = em.mantissa + 1 / 2
  | true, true => (em.mantissa : ℚ) + 1 / 2 < x ∧ x < em.mantissa + 1

section
variable {em : ExtendedMantissa} {x : ℚ}

theorem represents_floor (exact : Represents em x) : (em.mantissa : ℚ) ≤ x ∧ x < em.mantissa + 1 := by
  obtain ⟨m, round, sticky⟩ := em
  cases round <;> cases sticky <;> simp only [Represents] at exact ⊢ <;> constructor <;> linarith

theorem represents_near (exact : Represents em x) : Near em.roundedMantissa x := by
  obtain ⟨m, round, sticky⟩ := em
  cases round <;> cases sticky <;>
    simp only [Represents, ExtendedMantissa.roundedMantissa, ExtendedMantissa.accuracy,
      Accuracy.roundToNearestEven] at exact ⊢
  · rw [exact]
    exact near_self m
  · refine ⟨?_, ?_, fun _ => ⟨?_, ?_⟩⟩ <;> linarith
  · -- A tie: the bit of an odd mantissa carries.
    rcases Nat.mod_two_eq_zero_or_one m with even | odd
    · rw [even, exact]
      refine ⟨?_, ?_, fun odd => ?_⟩
      · push_cast
        linarith
      · push_cast
        linarith
      · omega
    · rw [odd, exact]
      refine ⟨?_, ?_, fun odd' => ?_⟩
      · push_cast
        linarith
      · push_cast
        linarith
      · omega
  · refine ⟨?_, ?_, fun _ => ⟨?_, ?_⟩⟩ <;> push_cast <;> linarith

theorem represents_grows (exact : Represents em x) : em.mantissa ≤ em.roundedMantissa := by
  obtain ⟨floor, _⟩ := represents_floor exact
  obtain ⟨_, most, _⟩ := represents_near exact
  have below : (em.mantissa : ℚ) < em.roundedMantissa + 1 := by linarith
  exact Nat.lt_succ_iff.mp (by exact_mod_cast below)

theorem represents_half (exact : Represents em x) : Represents em.shiftRightOne (x / 2) := by
  obtain ⟨m, round, sticky⟩ := em
  have split : ((m % 2 : ℕ) : ℚ) + 2 * ((m / 2 : ℕ) : ℚ) = m := by exact_mod_cast Nat.mod_add_div m 2
  rcases Nat.mod_two_eq_zero_or_one m with even | odd
  · rw [even, Nat.cast_zero, zero_add] at split
    cases round <;> cases sticky <;> simp [Represents, ExtendedMantissa.shiftRightOne, even] at exact ⊢ <;>
      first | linarith | exact ⟨by linarith, by linarith⟩
  · rw [odd, Nat.cast_one] at split
    cases round <;> cases sticky <;> simp [Represents, ExtendedMantissa.shiftRightOne, odd] at exact ⊢ <;>
      first | linarith | exact ⟨by linarith, by linarith⟩

theorem represents_shift (exact : Represents em x) (k : ℕ) : Represents (em >>> k) (x / 2 ^ k) := by
  change Represents (Nat.repeat ExtendedMantissa.shiftRightOne k em) _
  induction k with
  | zero => simpa [Nat.repeat] using exact
  | succ k ih =>
    rw [pow_succ, ← div_div]
    exact represents_half ih

end

theorem represents_exact (m : ℕ) : Represents (.ofMantissaAndAccuracy m .exact) m := rfl

theorem represents_fraction {m n : ℕ} (positive : 0 < n) :
    Represents (.ofMantissaAndAccuracy (m / n) (accuracyOfFraction (m % n) n)) (m / n : ℚ) := by
  have split : ((m % n : ℕ) : ℚ) + n * ((m / n : ℕ) : ℚ) = m := by exact_mod_cast Nat.mod_add_div m n
  have below : ((m % n : ℕ) : ℚ) < n := by exact_mod_cast Nat.mod_lt m positive
  have filled : (0 : ℚ) < n := by exact_mod_cast positive
  have quotient : (m / n : ℚ) = (m / n : ℕ) + (m % n : ℕ) / n := by
    field_simp
    linarith
  unfold accuracyOfFraction
  by_cases none : m % n = 0
  · rw [if_pos none, quotient, none]
    simp [Represents, ExtendedMantissa.ofMantissaAndAccuracy]
  · have some : (0 : ℚ) < (m % n : ℕ) := by exact_mod_cast Nat.pos_of_ne_zero none
    have rest : (0 : ℚ) < (m % n : ℕ) / n := div_pos some filled
    have less : ((m % n : ℕ) / n : ℚ) < 1 := (div_lt_one filled).mpr below
    rw [if_neg none, quotient]
    rcases lt_trichotomy (2 * (m % n)) n with half | half | half
    · have double : (2 * (m % n : ℕ) : ℚ) < n := by exact_mod_cast half
      have : ((m % n : ℕ) / n : ℚ) < 1 / 2 := by
        rw [div_lt_iff₀ filled]
        linarith
      rw [Nat.compare_eq_lt.mpr half]
      change ((m / n : ℕ) : ℚ) < _ ∧ _ < ((m / n : ℕ) : ℚ) + 1 / 2
      constructor <;> linarith
    · have double : (2 * (m % n : ℕ) : ℚ) = n := by exact_mod_cast half
      have : ((m % n : ℕ) / n : ℚ) = 1 / 2 := by
        rw [div_eq_iff filled.ne']
        linarith
      rw [Nat.compare_eq_eq.mpr half, this]
      rfl
    · have double : (n : ℚ) < 2 * (m % n : ℕ) := by exact_mod_cast half
      have : 1 / 2 < ((m % n : ℕ) / n : ℚ) := by
        rw [lt_div_iff₀ filled]
        linarith
      rw [Nat.compare_eq_gt.mpr half]
      change ((m / n : ℕ) : ℚ) + 1 / 2 < _ ∧ _ < ((m / n : ℕ) : ℚ) + 1
      constructor <;> linarith

end Solid.Doubles

namespace Solid.Decimal

-- The magnitude as a rational number.
def Binary.amount (b : Binary) : ℚ := b.significand * 2 ^ b.exponent

section
variable {b b' : Binary} {x x' : ℚ}

theorem interval_place (b : Binary) : (2 : ℚ) ^ b.exponent = 4 * 2 ^ (b.exponent - 2) := by
  rw [show b.exponent = 2 + (b.exponent - 2) by ring, zpow_add₀ (by norm_num)]
  norm_num

theorem most_amount (b : Binary) : b.interval.most = b.amount + 2 ^ b.exponent / 2 := by
  rw [interval_most, Binary.amount, interval_place]
  push_cast
  ring

theorem least_narrow (narrow : b.significand = 2 ^ 52 ∧ -1074 < b.exponent) :
    b.interval.least = b.amount - 2 ^ b.exponent / 4 := by
  have gap : b.gap = 1 := if_pos narrow
  rw [interval_least, Binary.amount, interval_place, gap, Nat.cast_sub (by omega)]
  push_cast
  ring

theorem least_wide (wide : ¬(b.significand = 2 ^ 52 ∧ -1074 < b.exponent)) (nonzero : b.significand ≠ 0) :
    b.interval.least = b.amount - 2 ^ b.exponent / 2 := by
  have gap : b.gap = 2 := if_neg wide
  rw [interval_least, Binary.amount, interval_place, gap, Nat.cast_sub (by omega)]
  push_cast
  ring

theorem least_zero (zero : b.significand = 0) : b.interval.least = 0 ∧ b.amount = 0 := by
  rw [interval_least, Binary.amount, zero]
  simp

theorem least_amount (b : Binary) : b.amount - 2 ^ b.exponent / 2 ≤ b.interval.least ∧
    b.interval.least ≤ b.amount ∧ (b.significand ≠ 0 → b.interval.least < b.amount) := by
  have place : (0 : ℚ) < 2 ^ b.exponent := by positivity
  by_cases zero : b.significand = 0
  · obtain ⟨least, amount⟩ := least_zero zero
    rw [least, amount]
    exact ⟨by linarith, le_rfl, fun some => absurd zero some⟩
  · by_cases narrow : b.significand = 2 ^ 52 ∧ -1074 < b.exponent
    · rw [least_narrow narrow]
      exact ⟨by linarith, by linarith, fun _ => by linarith⟩
    · rw [least_wide narrow zero]
      exact ⟨le_rfl, by linarith, fun _ => by linarith⟩

theorem rounds_amount (b : Binary) : b.Rounds b.amount := by
  have place : (0 : ℚ) < 2 ^ b.exponent := by positivity
  have most := most_amount b
  obtain ⟨_, least, inner⟩ := least_amount b
  refine ⟨least, by linarith, fun odd => ⟨inner (by omega), by linarith⟩⟩

-- Numbers in some order round to doubles in this order.
theorem rounds_monotone (canonical : Doubles.Canonical b) (canonical' : Doubles.Canonical b') (rounds : b.Rounds x)
    (rounds' : b'.Rounds x') (below : x ≤ x') : b.amount ≤ b'.amount := by
  rcases below_cases b b' with less | ⟨equal, level⟩ | greater
  · exact (rounds_apart canonical canonical' (rounds_amount b) (rounds_amount b') less).le
  · rw [Binary.amount, Binary.amount, equal, level]
  · exact absurd below (not_le.mpr (rounds_apart canonical' canonical rounds' rounds greater))

theorem amount_nonzero (nonzero : b.amount ≠ 0) : b.significand ≠ 0 := by
  intro zero
  apply nonzero
  rw [Binary.amount, zero, Nat.cast_zero, zero_mul]

theorem rounds_error (rounds : b.Rounds x) : |b.amount - x| ≤ 2 ^ b.exponent / 2 := by
  obtain ⟨low, high, _⟩ := rounds
  have most := most_amount b
  obtain ⟨least, _⟩ := least_amount b
  rw [abs_le]
  constructor <;> linarith

end

theorem magnitude_unit (b : Binary) : b.magnitude.denominator = (Ratio.scaled 1 b.exponent).denominator := by
  unfold Binary.magnitude Ratio.scaled
  split <;> rfl

theorem magnitude_denominator (b : Binary) : b.magnitude.denominator ≠ 0 := by
  rw [magnitude_unit]
  exact (scaled_positive 1 _ one_ne_zero).2

theorem ratio_amount (b : Binary) : (b.magnitude.numerator / b.magnitude.denominator : ℚ) = b.amount := by
  rw [magnitude_unit]
  exact scaled_ratio _ _

end Solid.Decimal

namespace Solid.Doubles
open Float.Model Float.Model.UnpackedFloat
open Decimal (Binary)

-- From here on numbers round to infinity.
def limit : ℚ := (2 ^ 53 - 1 / 2) * 2 ^ (971 : ℤ)

section
variable {b : Binary} {x : ℚ}

theorem rounds_limit (canonical : Canonical b) (rounds : b.Rounds x) : x < limit := by
  obtain ⟨small, _, greatest, _⟩ := canonical
  obtain ⟨_, most, inner⟩ := rounds
  have place : (2 : ℚ) ^ b.exponent ≤ 2 ^ (971 : ℤ) := zpow_le_zpow_right₀ (by norm_num) greatest
  have some : (0 : ℚ) < 2 ^ (971 : ℤ) := by positivity
  rw [Decimal.most_amount, Binary.amount] at most inner
  unfold limit
  generalize (2 : ℚ) ^ (971 : ℤ) = top at *
  have half : (0 : ℚ) ≤ b.significand + 1 / 2 := by positivity
  have widest := mul_le_mul_of_nonneg_left place half
  rcases Nat.mod_two_eq_zero_or_one b.significand with even | odd
  · have places : (b.significand : ℚ) + 1 < 2 ^ 53 := by
      have : b.significand + 1 < 2 ^ 53 := by omega
      exact_mod_cast this
    calc x ≤ (b.significand + 1 / 2) * 2 ^ b.exponent := by linarith
      _ ≤ (b.significand + 1 / 2) * top := widest
      _ < (2 ^ 53 - 1 / 2) * top := mul_lt_mul_of_pos_right (by linarith) some
  · have places : (b.significand : ℚ) + 1 ≤ 2 ^ 53 := by exact_mod_cast small
    have inner := (inner odd).2
    calc x < (b.significand + 1 / 2) * 2 ^ b.exponent := by linarith
      _ ≤ (b.significand + 1 / 2) * top := widest
      _ ≤ (2 ^ 53 - 1 / 2) * top := mul_le_mul_of_nonneg_right (by linarith) some.le

theorem limit_exponent (full : 2 ^ 52 ≤ b.significand ∨ b.exponent = -1074) (rounds : b.Rounds x)
    (bounded : x < limit) : b.exponent ≤ 971 := by
  by_contra above
  have full := full.resolve_right (by omega)
  obtain ⟨least, _⟩ := rounds
  have place : (2 : ℚ) ^ (971 : ℤ) * 2 ≤ 2 ^ b.exponent := by
    rw [← zpow_add_one₀ (by norm_num)]
    exact zpow_le_zpow_right₀ (by norm_num) (by omega)
  have some : (0 : ℚ) < 2 ^ b.exponent := by positivity
  have places : (2 : ℚ) ^ 52 ≤ b.significand := by exact_mod_cast full
  have lower : ((2 : ℚ) ^ 52 - 1 / 4) * 2 ^ b.exponent ≤ b.interval.least := by
    by_cases narrow : b.significand = 2 ^ 52 ∧ -1074 < b.exponent
    · rw [Decimal.least_narrow narrow, Binary.amount, narrow.1]
      push_cast
      linarith
    · have more : 2 ^ 52 + 1 ≤ b.significand := by
        have : b.significand ≠ 2 ^ 52 := fun same => narrow ⟨same, by omega⟩
        omega
      have more : (2 : ℚ) ^ 52 + 1 ≤ b.significand := by exact_mod_cast more
      rw [Decimal.least_wide narrow (by omega), Binary.amount]
      calc ((2 : ℚ) ^ 52 - 1 / 4) * 2 ^ b.exponent ≤ (b.significand - 1 / 2) * 2 ^ b.exponent := by
            apply mul_le_mul_of_nonneg_right _ some.le
            linarith
        _ = b.significand * 2 ^ b.exponent - 2 ^ b.exponent / 2 := by ring
  have reached : limit ≤ x := by
    calc limit = ((2 : ℚ) ^ 52 - 1 / 4) * (2 ^ (971 : ℤ) * 2) := by
          unfold limit
          ring
      _ ≤ (2 ^ 52 - 1 / 4) * 2 ^ b.exponent := by
        apply mul_le_mul_of_nonneg_left place
        norm_num
      _ ≤ b.interval.least := lower
      _ ≤ x := least
  exact absurd bounded (not_lt.mpr reached)

end

section
variable {n : ℕ} {e : ℤ} {x : ℚ} (negative : Bool)

-- A number in steps of a last place. Where the gap below is narrow, the number is not in it.
theorem near_rounds (near : Near n (x / 2 ^ e)) (nonneg : 0 ≤ x)
    (floor : n = 2 ^ 52 → -1074 < e → (n : ℚ) ≤ x / 2 ^ e) : (⟨negative, n, e⟩ : Binary).Rounds x := by
  obtain ⟨low, high, inner⟩ := near
  have place : (0 : ℚ) < 2 ^ e := by positivity
  have most := Decimal.most_amount ⟨negative, n, e⟩
  have amount : Binary.amount ⟨negative, n, e⟩ = n * 2 ^ e := rfl
  simp only [le_div_iff₀ place, div_le_iff₀ place, lt_div_iff₀ place, div_lt_iff₀ place] at low high inner floor
  unfold Binary.Rounds
  rw [most, amount]
  by_cases narrow : n = 2 ^ 52 ∧ -1074 < e
  · have floor := floor narrow.1 narrow.2
    have even : n % 2 = 0 := by omega
    rw [Decimal.least_narrow narrow, amount]
    exact ⟨by linarith, by linarith, fun odd => absurd odd (by simp [even])⟩
  · by_cases zero : n = 0
    · rw [(Decimal.least_zero zero).1]
      exact ⟨nonneg, by linarith, fun odd => absurd odd (by simp [zero])⟩
    · rw [Decimal.least_wide narrow zero, amount]
      exact ⟨by linarith, by linarith, fun odd => ⟨by linarith [inner odd], by linarith [inner odd]⟩⟩

-- Rounding up has filled a place more than there is.
theorem near_carried (near : Near (2 ^ 53) (x / 2 ^ e)) (least : -1074 ≤ e) :
    (⟨negative, 2 ^ 52, e + 1⟩ : Binary).Rounds x := by
  obtain ⟨low, high, _⟩ := near
  have place : (0 : ℚ) < 2 ^ e := by positivity
  have twice : (2 : ℚ) ^ (e + 1) = 2 ^ e * 2 := zpow_add_one₀ (by norm_num) e
  have most := Decimal.most_amount ⟨negative, 2 ^ 52, e + 1⟩
  have narrow := Decimal.least_narrow (b := ⟨negative, 2 ^ 52, e + 1⟩) ⟨rfl, by dsimp only; omega⟩
  have amount : Binary.amount ⟨negative, 2 ^ 52, e + 1⟩ = 2 ^ 53 * 2 ^ e := by
    unfold Binary.amount
    push_cast
    rw [twice]
    ring
  rw [Nat.cast_pow, Nat.cast_ofNat] at low high
  rw [le_div_iff₀ place] at low
  rw [div_le_iff₀ place] at high
  unfold Binary.Rounds
  rw [most, narrow, amount, twice]
  refine ⟨by linarith, by linarith, fun odd => ?_⟩
  dsimp only at odd
  omega

end

theorem shift_none {n : ℕ} {e : ℤ} (small : n < 2 ^ 53) (least : -1074 ≤ e) :
    shiftToTargetExponent double n e .exact = (⟨n, false, false⟩, e) := by
  have distance : (double.targetExponent (totalExponent n e) - e).toNat = 0 := by
    have : n.log2 ≤ 52 := by
      by_cases zero : n = 0
      · simp [zero]
      · have := (Nat.log2_lt zero).mpr small
        omega
    simp only [target_eq, totalExponent]
    omega
  have kept := shift_exact n 0
  rw [pow_zero, mul_one] at kept
  simp only [shiftToTargetExponent, shiftToExponent, distance, ExtendedMantissa.ofMantissaAndAccuracy, kept]
  simp

theorem shift_carry {e : ℤ} (least : -1074 ≤ e) :
    shiftToTargetExponent double (2 ^ 53) e .exact = (⟨2 ^ 52, false, false⟩, e + 1) := by
  have distance : (double.targetExponent (totalExponent (2 ^ 53) e) - e).toNat = 1 := by
    simp only [target_eq, totalExponent, Nat.log2_two_pow]
    omega
  have halved := shift_exact (2 ^ 52) 1
  rw [← pow_add] at halved
  unfold shiftToTargetExponent shiftToExponent
  dsimp only
  rw [distance]
  exact Prod.ext halved rfl

theorem shift_filled {m k : ℕ} (accuracy : Accuracy) (log : m.log2 = 52 + k) :
    2 ^ 52 ≤ (ExtendedMantissa.ofMantissaAndAccuracy m accuracy >>> k).mantissa := by
  have nonzero : m ≠ 0 := by
    rintro rfl
    rw [Nat.log2_zero] at log
    omega
  rw [shift_mantissa, accurate_mantissa, Nat.le_div_iff_mul_le (Nat.two_pow_pos k), ← Nat.pow_add, ← log]
  exact Nat.log2_self_le nonzero

-- The mantissa is shifted and rounded, and shifted once more if that has carried.
theorem round_shifted {m n : ℕ} {e e' f : ℤ} {accuracy : Accuracy} {em : ExtendedMantissa} (negative : Bool)
    (shifted : shiftToTargetExponent double m e accuracy = (em, e'))
    (settled : shiftToTargetExponent double em.roundedMantissa e' .exact = (⟨n, false, false⟩, f)) :
    roundWithAccuracy double (signOf negative) m e accuracy = ofBinary ⟨negative, n, f⟩ := by
  unfold roundWithAccuracy
  simp only [shifted, settled]
  rfl

-- What rounding makes of a number is the double in whose interval the number lies.
theorem round_nearest {m : ℕ} {e : ℤ} {accuracy : Accuracy} {x : ℚ}
    (exact : Represents (.ofMantissaAndAccuracy m accuracy) (x / 2 ^ e)) (nonneg : 0 ≤ x)
    (fine : e ≤ double.targetExponent (totalExponent m e)) (bounded : x < limit) (negative : Bool) :
    ∃ b : Binary, Canonical b ∧ b.negative = negative ∧ b.Rounds x ∧
      roundWithAccuracy double (signOf negative) m e accuracy = ofBinary b := by
  have target : double.targetExponent (totalExponent m e) = max ((m.log2 : ℤ) + 1 + e - 53) (-1074) := target_eq _
  have small := rounded_mantissa m e accuracy
  have first : shiftToTargetExponent double m e accuracy =
      shiftToExponent m e accuracy (double.targetExponent (totalExponent m e)) := rfl
  generalize double.targetExponent (totalExponent m e) = place at *
  obtain ⟨k, rfl⟩ : ∃ k : ℕ, place = e + k := ⟨(place - e).toNat, by omega⟩
  have least : -1074 ≤ e + k := by omega
  let em := ExtendedMantissa.ofMantissaAndAccuracy m accuracy >>> k
  have shifted : shiftToTargetExponent double m e accuracy = (em, e + k) := by
    rw [first, shiftToExponent, show (e + k - e).toNat = k by omega]
  have represented : Represents em (x / 2 ^ (e + k)) := by
    rw [zpow_add₀ (by norm_num), zpow_natCast, ← div_div]
    exact represents_shift exact k
  have near := represents_near represented
  obtain ⟨floor, _⟩ := represents_floor represented
  -- With the least exponent the significand may be short. Above it all places are filled.
  have filled (above : e + k ≠ -1074) : 2 ^ 52 ≤ em.mantissa := shift_filled accuracy (by omega)
  have grown := represents_grows represented
  rw [shifted] at small
  dsimp only at small
  rcases small.lt_or_eq with fits | carried
  · let n := em.roundedMantissa
    have full : 2 ^ 52 ≤ n ∨ e + k = -1074 := by
      by_cases bottom : e + k = -1074
      · exact .inr bottom
      · exact .inl ((filled bottom).trans grown)
    have rounds : (⟨negative, n, e + k⟩ : Binary).Rounds x := by
      refine near_rounds negative near nonneg fun same above => ?_
      have : (n : ℚ) ≤ em.mantissa := by exact_mod_cast same.le.trans (filled above.ne')
      exact this.trans floor
    exact ⟨⟨negative, n, e + k⟩, ⟨fits, least, limit_exponent full rounds bounded, full⟩, rfl, rounds,
      round_shifted negative shifted (shift_none fits least)⟩
  · have rounds := near_carried negative (carried ▸ near) least
    have full : 2 ^ 52 ≤ 2 ^ 52 ∨ e + k + 1 = -1074 := .inl le_rfl
    have settled := shift_carry least
    rw [← carried] at settled
    exact ⟨⟨negative, 2 ^ 52, e + k + 1⟩, ⟨by norm_num, by dsimp only; omega, limit_exponent full rounds bounded, full⟩,
      rfl, rounds, round_shifted negative shifted settled⟩

theorem div_nearest {m n : ℕ} {e f : ℤ} (hm : 0 < m) (hn : 0 < n)
    (bounded : (m * 2 ^ e / (n * 2 ^ f) : ℚ) < limit) :
    ∃ b : Binary, Canonical b ∧ b.negative = false ∧ b.Rounds (m * 2 ^ e / (n * 2 ^ f)) ∧
      UnpackedFloat.div double (.finite .positive m e hm) (.finite .positive n f hn) = ofBinary b := by
  -- The dividend is shifted so far that the quotient fills all places or has the least exponent.
  have target : double.targetExponent (totalExponent m e - totalExponent n f) =
      max ((m.log2 : ℤ) + 1 + e - (n.log2 + 1 + f) - 53) (-1074) := target_eq _
  generalize least : min (e - f) (double.targetExponent (totalExponent m e - totalExponent n f)) = T
  obtain ⟨k, shift⟩ : ∃ k : ℕ, e - f = T + k := ⟨(e - f - T).toNat, by omega⟩
  have divided : UnpackedFloat.div double (.finite .positive m e hm) (.finite .positive n f hn) =
      roundWithAccuracy double (signOf false) (m * 2 ^ k / n) T (accuracyOfFraction (m * 2 ^ k % n) n) := by
    have distance : (e - f - T).toNat = k := by omega
    simp only [UnpackedFloat.div, divCore, least, distance, Nat.shiftLeft_eq]
    rfl
  have quotient : (m * 2 ^ e / (n * 2 ^ f) : ℚ) / 2 ^ T = (m * 2 ^ k : ℕ) / (n : ℕ) := by
    have filled : (n : ℚ) ≠ 0 := by exact_mod_cast hn.ne'
    have power : (2 : ℚ) ^ e = 2 ^ f * 2 ^ T * 2 ^ k := by
      rw [← zpow_add₀ (by norm_num), ← zpow_natCast, ← zpow_add₀ (by norm_num)]
      congr 1
      omega
    rw [power]
    push_cast
    field_simp
  have exact := represents_fraction (m := m * 2 ^ k) hn
  rw [← quotient] at exact
  have fine : T ≤ double.targetExponent (totalExponent (m * 2 ^ k / n) T) := by
    rw [target_eq, totalExponent]
    by_cases bottom : T ≤ -1074
    · omega
    · have dividend := log2_mul_pow hm.ne' k
      have places : 2 ^ 52 * n ≤ m * 2 ^ k := by
        calc 2 ^ 52 * n ≤ 2 ^ 52 * 2 ^ (n.log2 + 1) := Nat.mul_le_mul_left _ Nat.lt_log2_self.le
          _ = 2 ^ (52 + (n.log2 + 1)) := (Nat.pow_add 2 52 _).symm
          _ ≤ 2 ^ (m * 2 ^ k).log2 := Nat.pow_le_pow_right (by decide) (by omega)
          _ ≤ m * 2 ^ k := Nat.log2_self_le (by positivity)
      have filled : 2 ^ 52 ≤ m * 2 ^ k / n := (Nat.le_div_iff_mul_le hn).mpr places
      have log : 52 ≤ (m * 2 ^ k / n).log2 := (Nat.le_log2 (by omega)).mpr filled
      omega
  rw [divided]
  exact round_nearest exact (by positivity) fine bounded false

theorem mul_nearest {m n : ℕ} {e f : ℤ} (hm : 0 < m) (hn : 0 < n) (filled : 2 ^ 52 ≤ m * n)
    (bounded : (m * n : ℕ) * (2 : ℚ) ^ (e + f) < limit) :
    ∃ b : Binary, Canonical b ∧ b.negative = false ∧ b.Rounds ((m * n : ℕ) * 2 ^ (e + f)) ∧
      UnpackedFloat.mul double (.finite .positive m e hm) (.finite .positive n f hn) = ofBinary b := by
  have place : (2 : ℚ) ^ (e + f) ≠ 0 := by positivity
  have exact := represents_exact (m * n)
  rw [← mul_div_cancel_right₀ ((m * n : ℕ) : ℚ) place] at exact
  have log : 52 ≤ (m * n).log2 := (Nat.le_log2 (by positivity)).mpr filled
  have fine : e + f ≤ double.targetExponent (totalExponent (m * n) (e + f)) := by
    rw [target_eq, totalExponent]
    omega
  exact round_nearest exact (by positivity) fine bounded false

theorem taken {x : Float} {b : Binary} (canonical : Canonical b) (same : parts x = ofBinary b) :
    x.isFinite ∧ Binary.ofFloat x = b := by
  have finite : x.isFinite := by
    rw [isFinite_parts, same]
    exact ofBinary_finite b
  exact ⟨finite, ofBinary_injective (ofFloat_canonical x finite) canonical (by rw [← parts_finite x finite, same])⟩

section
variable {x y : Float} {b c : Binary}

theorem ofBinary_positive (unsigned : b.negative = false) (nonzero : b.significand ≠ 0) :
    ofBinary b = .finite .positive b.significand b.exponent (Nat.pos_of_ne_zero nonzero) := by
  unfold ofBinary
  rw [dif_neg nonzero, unsigned]
  rfl

-- The quotient of two positive doubles is the double nearest to the quotient of what they stand for.
theorem quotient_nearest (hx : parts x = ofBinary b) (hy : parts y = ofBinary c) (unsigned : b.negative = false)
    (unsigned' : c.negative = false) (nonzero : b.significand ≠ 0) (nonzero' : c.significand ≠ 0)
    (bounded : b.amount / c.amount < limit) :
    ∃ d : Binary, Canonical d ∧ d.negative = false ∧ d.Rounds (b.amount / c.amount) ∧ parts (x / y) = ofBinary d := by
  obtain ⟨d, canonical, positive, rounds, divided⟩ :=
    div_nearest (Nat.pos_of_ne_zero nonzero) (Nat.pos_of_ne_zero nonzero') bounded
  refine ⟨d, canonical, positive, rounds, ?_⟩
  change UnpackedFloat.unpack double (UnpackedFloat.pack double (UnpackedFloat.div double (parts x) (parts y))) = _
  rw [hx, hy, ofBinary_positive unsigned nonzero, ofBinary_positive unsigned' nonzero', divided]
  exact unpack_pack d canonical

end

-- A whole number stands for itself.
theorem whole_stands {n : ℕ} (positive : n ≠ 0) (small : n < 2 ^ 53) (negative : Bool) :
    (whole negative n).amount = n := by
  have log : n.log2 < 53 := (Nat.log2_lt positive).mpr small
  have places : (n.log2 : ℤ) - 52 = -((52 - n.log2 : ℕ) : ℤ) := by omega
  simp only [Binary.amount, whole, places, zpow_neg, zpow_natCast]
  push_cast
  field_simp

theorem whole_rounds {n : ℕ} (positive : n ≠ 0) (small : n < 2 ^ 53) : (whole false n).Rounds n := by
  have held := Decimal.rounds_amount (whole false n)
  rwa [whole_stands positive small] at held

theorem one_parts : parts (Float.exactlyRepresentablePowersOfTen[0]) = .finite .positive (2 ^ 52) (-52) (by decide) :=
  rfl

section
variable {n : ℕ} (positive : 0 < n) (bounded : (n : ℚ) < limit)
include positive bounded

theorem product_nearest (small : n < 2 ^ 53) : ∃ b : Binary, Canonical b ∧ b.negative = false ∧ b.Rounds n ∧
    parts (n.toUInt64.toFloat * Float.exactlyRepresentablePowersOfTen[0]) = ofBinary b := by
  have nonzero := Nat.pos_of_ne_zero (whole_nonzero positive.ne' false)
  have filled : 2 ^ 52 ≤ (whole false n).significand * 2 ^ 52 := Nat.le_mul_of_pos_left _ nonzero
  have amount : (((whole false n).significand * 2 ^ 52 : ℕ) : ℚ) * 2 ^ ((whole false n).exponent + -52) = n := by
    rw [← whole_stands positive.ne' small false, Binary.amount, zpow_add₀ (by norm_num), zpow_neg]
    push_cast
    field_simp
  obtain ⟨b, canonical, unsigned, rounds, product⟩ := mul_nearest nonzero (n := 2 ^ 52) (by decide) filled
    (amount.trans_lt bounded)
  rw [amount] at rounds
  refine ⟨b, canonical, unsigned, rounds, ?_⟩
  change UnpackedFloat.unpack double (UnpackedFloat.pack double
    (UnpackedFloat.mul double (parts n.toUInt64.toFloat) (parts (Float.exactlyRepresentablePowersOfTen[0])))) = _
  rw [toFloat_parts positive.ne' small, one_parts, ofBinary_positive rfl nonzero.ne', product]
  exact unpack_pack b canonical

theorem scientific_nearest : ∃ b : Binary, Canonical b ∧ b.negative = false ∧ b.Rounds n ∧
    UnpackedFloat.ofScientific double n 0 = ofBinary b := by
  have shifted : n <<< double.mantissaBits = n * 2 ^ 53 := Nat.shiftLeft_eq _ _
  have some : 0 < n <<< double.mantissaBits := by
    rw [shifted]
    positivity
  have filled : 2 ^ 52 ≤ n <<< double.mantissaBits * 1 := by
    rw [shifted]
    omega
  have amount : ((n <<< double.mantissaBits * 1 : ℕ) : ℚ) * 2 ^ (-53 + 0 : ℤ) = n := by
    rw [shifted, mul_one, add_zero, zpow_neg, Nat.cast_mul, Nat.cast_pow]
    exact mul_inv_cancel_right₀ (by norm_num) _
  obtain ⟨b, canonical, unsigned, rounds, product⟩ := mul_nearest some one_pos filled (amount.trans_lt bounded)
  rw [amount] at rounds
  refine ⟨b, canonical, unsigned, rounds, ?_⟩
  rw [← product]
  have above : ¬(0 : ℤ) < -((2 ^ 11 : ℤ) + n.log2) := by omega
  unfold UnpackedFloat.ofScientific
  rw [dif_neg positive.ne', if_neg (by decide), if_neg above, if_pos le_rfl]
  rfl

-- A natural number becomes the double nearest to it.
theorem ofNat_nearest :
    ∃ b : Binary, Canonical b ∧ b.negative = false ∧ b.Rounds n ∧ parts (Float.ofNat n) = ofBinary b := by
  unfold Float.ofNat OfScientific.ofScientific instOfScientificFloat
  dsimp only
  unfold Float.ofScientific
  split
  · next small => exact product_nearest positive bounded small.1
  · obtain ⟨b, canonical, unsigned, rounds, chosen⟩ := scientific_nearest positive bounded
    refine ⟨b, canonical, unsigned, rounds, ?_⟩
    change UnpackedFloat.unpack double (UnpackedFloat.pack double (UnpackedFloat.ofScientific double n 0)) = _
    rw [chosen]
    exact unpack_pack b canonical

end

end Solid.Doubles
