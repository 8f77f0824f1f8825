import Solid.Proofs.Doubles
import Solid.Json
namespace Solid.Doubles
open Float.Model Float.Model.UnpackedFloat
open Decimal (Binary)

theorem shift_mantissa (em : ExtendedMantissa) (k : Nat) :
    (em >>> k).mantissa = em.mantissa / 2 ^ k := by
  change (Nat.repeat ExtendedMantissa.shiftRightOne k em).mantissa = _
  induction k with
  | zero => simp [Nat.repeat]
  | succ k ih =>
    simp only [Nat.repeat, ExtendedMantissa.shiftRightOne, ih]
    rw [Nat.div_div_eq_div_mul, Nat.pow_succ]

theorem roundedMantissa_le (em : ExtendedMantissa) : em.roundedMantissa ≤ em.mantissa + 1 := by
  unfold ExtendedMantissa.roundedMantissa Accuracy.roundToNearestEven
  split <;> omega

theorem accurate_mantissa (m : Nat) (accuracy : Accuracy) :
    (ExtendedMantissa.ofMantissaAndAccuracy m accuracy).mantissa = m := by
  unfold ExtendedMantissa.ofMantissaAndAccuracy
  split <;> rfl

theorem target_eq (total : Int) : double.targetExponent total = max (total - 53) (-1074) := rfl

theorem rounded_mantissa (m : Nat) (e : Int) (accuracy : Accuracy) :
    (shiftToTargetExponent double m e accuracy).1.roundedMantissa ≤ 2 ^ 53 := by
  let k := (double.targetExponent (totalExponent m e) - e).toNat
  have shifted : (shiftToTargetExponent double m e accuracy).1.mantissa = m / 2 ^ k := by
    simp only [shiftToTargetExponent, shiftToExponent, shift_mantissa, accurate_mantissa, k]
  have wide : m.log2 + 1 ≤ 53 + k := by
    simp only [k, target_eq, totalExponent]
    omega
  have bound : m < 2 ^ (53 + k) :=
    Nat.lt_of_lt_of_le Nat.lt_log2_self (Nat.pow_le_pow_right (by decide) wide)
  have quotient : m / 2 ^ k < 2 ^ 53 := by
    rw [Nat.div_lt_iff_lt_mul (Nat.two_pow_pos k), ← Nat.pow_add]
    exact bound
  have := roundedMantissa_le (shiftToTargetExponent double m e accuracy).1
  omega

theorem log2_le {m k : Nat} (bound : m ≤ 2 ^ k) : m.log2 ≤ k := by
  by_cases zero : m = 0
  · simp [zero]
  · have : m.log2 < k + 1 := (Nat.log2_lt zero).mpr (by rw [Nat.pow_succ]; have := Nat.two_pow_pos k; omega)
    omega

-- Rounding carries at most one place.
theorem round_bounded (s : Sign) (m : Nat) (e : Int) (accuracy : Accuracy)
    (total : totalExponent m e ≤ 1023) (low : e ≤ double.targetExponent (totalExponent m e)) :
    (∃ t, roundWithAccuracy double s m e accuracy = .zero t) ∨
      ∃ m' e' positive, roundWithAccuracy double s m e accuracy = .finite s m' e' positive ∧ e' ≤ 971 := by
  have small := rounded_mantissa m e accuracy
  have first : (shiftToTargetExponent double m e accuracy).2 ≤ 970 := by
    rw [target_eq] at low
    simp only [shiftToTargetExponent, shiftToExponent, target_eq]
    omega
  unfold roundWithAccuracy
  generalize shiftToTargetExponent double m e accuracy = shifted at *
  obtain ⟨em, e₁⟩ := shifted
  have last : (shiftToTargetExponent double em.roundedMantissa e₁ .exact).2 ≤ 971 := by
    have := log2_le small
    dsimp only at this first
    simp only [shiftToTargetExponent, shiftToExponent, target_eq, totalExponent]
    omega
  dsimp only at *
  split
  · exact .inl ⟨_, rfl⟩
  · rename_i nonzero
    exact .inr ⟨_, _, Nat.pos_of_ne_zero nonzero, rfl, last⟩

theorem unpack_isFinite (b : BitVec double.numBits) (below : unpackExponent b ≠ -1#11) :
    (UnpackedFloat.unpack double b).isFinite = true := by
  unfold UnpackedFloat.unpack
  dsimp only
  rw [if_neg below]
  split
  · split <;> rfl
  · rfl

theorem pack_isFinite (s : Sign) (m : Nat) (e : Int) (positive : 0 < m) (bound : e ≤ 971) :
    (UnpackedFloat.unpack double (UnpackedFloat.pack double (.finite s m e positive))).isFinite := by
  have bias : ((double.exponentBias : Nat) : Int) = 1023 := rfl
  apply unpack_isFinite
  unfold UnpackedFloat.pack
  rw [bias]
  have field : (BitVec.ofNat 11 (e + 1023 + (52 : Nat)).toNat) ≠ -1#11 := by
    intro full
    have := congrArg BitVec.toNat full
    rw [BitVec.toNat_ofNat, show (-1#11).toNat = 2047 from rfl] at this
    omega
  dsimp only
  rw [if_neg (by simp only [Nat.reducePow]; omega)]
  split
  · rw [unpackExponent_packComponents]
    exact field
  · rw [unpackExponent_packComponents]
    decide

theorem log2_mul_pow {m : Nat} (positive : m ≠ 0) (k : Nat) : (m * 2 ^ k).log2 = m.log2 + k := by
  have nonzero : m * 2 ^ k ≠ 0 := Nat.mul_ne_zero positive (Nat.ne_of_gt (Nat.two_pow_pos k))
  rw [Nat.log2_eq_iff nonzero, Nat.pow_add, show m.log2 + k + 1 = m.log2 + 1 + k by omega, Nat.pow_add]
  exact ⟨Nat.mul_le_mul_right _ (Nat.log2_self_le positive),
    Nat.mul_lt_mul_of_pos_right Nat.lt_log2_self (Nat.two_pow_pos k)⟩

theorem log2_div_pow (m k : Nat) : (m / 2 ^ k).log2 = m.log2 - k := by
  by_cases none : m / 2 ^ k = 0
  · have below : m < 2 ^ k := (Nat.div_eq_zero_iff_lt (Nat.two_pow_pos k)).mp none
    rw [none, Nat.log2_zero]
    by_cases zero : m = 0
    · simp [zero]
    · have := (Nat.log2_lt zero).mpr below
      omega
  · have above : 2 ^ k ≤ m := by
      have := mt (Nat.div_eq_of_lt (a := m) (b := 2 ^ k)) none
      omega
    have positive : m ≠ 0 := by
      have := Nat.two_pow_pos k
      omega
    have room : k ≤ m.log2 := (Nat.le_log2 positive).mpr above
    rw [Nat.log2_eq_iff none, Nat.le_div_iff_mul_le (Nat.two_pow_pos k),
      Nat.div_lt_iff_lt_mul (Nat.two_pow_pos k), ← Nat.pow_add, ← Nat.pow_add,
      show m.log2 - k + k = m.log2 by omega, show m.log2 - k + 1 + k = m.log2 + 1 by omega]
    exact ⟨Nat.log2_self_le positive, Nat.lt_log2_self⟩

theorem two_parts : parts 2.0 = .finite .positive (2 ^ 52) (-51) (by decide) := rfl

-- The quotient by two has one place less, so that it stays in range.
theorem half_total (m : Nat) (e : Int) (positive : m ≠ 0) (top : totalExponent m e ≤ 1024) :
    let q := divCore double m e (2 ^ 52) (-51)
    totalExponent q.1 q.2.1 ≤ 1023 ∧ q.2.1 ≤ double.targetExponent (totalExponent q.1 q.2.1) := by
  have log : (2 ^ 52 : Nat).log2 = 52 := Nat.log2_two_pow
  simp only [divCore, Nat.shiftLeft_eq]
  generalize least : min (e - -51) (double.targetExponent (totalExponent m e - totalExponent (2 ^ 52) (-51))) = T
  simp only [target_eq, totalExponent, log2_div_pow, log2_mul_pow positive] at *
  rw [log] at least
  omega

theorem half_finite {x : Float} (finite : x.isFinite) : (x / 2.0).isFinite := by
  have known := parts_finite x finite
  have canonical := ofFloat_canonical x finite
  generalize Binary.ofFloat x = b at *
  change (UnpackedFloat.unpack double (UnpackedFloat.pack double
    (UnpackedFloat.div double (parts x) (parts 2.0)))).isFinite
  rw [known, two_parts]
  unfold ofBinary
  split
  · cases b.negative <;> rfl
  · rename_i nonzero
    have top : totalExponent b.significand b.exponent ≤ 1024 := by
      have := (Nat.log2_lt nonzero).mpr canonical.small
      have := canonical.greatest
      simp only [totalExponent]
      omega
    obtain ⟨total, low⟩ := half_total b.significand b.exponent nonzero top
    simp only [UnpackedFloat.div]
    rcases round_bounded (signOf b.negative / .positive) _ _ _ total low with
      ⟨t, zero⟩ | ⟨m, e, positive, rounded, bound⟩
    · rw [zero]
      cases t <;> rfl
    · rw [rounded]
      exact pack_isFinite _ _ _ _ bound

theorem shift_exact (c k : Nat) :
    (⟨c * 2 ^ k, false, false⟩ : ExtendedMantissa) >>> k = ⟨c, false, false⟩ := by
  change Nat.repeat ExtendedMantissa.shiftRightOne k _ = _
  induction k generalizing c with
  | zero => simp [Nat.repeat]
  | succ k ih =>
    rw [Nat.repeat, show c * 2 ^ (k + 1) = (c * 2) * 2 ^ k by rw [Nat.pow_succ]; grind, ih]
    simp [ExtendedMantissa.shiftRightOne]

theorem target_exact {b : Binary} (canonical : Canonical b) (nonzero : b.significand ≠ 0) :
    double.targetExponent (totalExponent b.significand b.exponent) = b.exponent := by
  have := (Nat.log2_lt nonzero).mpr canonical.small
  have := Nat.le_log2 nonzero (k := 52)
  have := canonical.full
  have := canonical.least
  simp only [target_eq, totalExponent]
  omega

-- A number that a double holds is not changed by rounding, however it is written.
theorem round_exact {b : Binary} (canonical : Canonical b) (nonzero : b.significand ≠ 0) (s : Sign)
    (k : Nat) (e : Int) (same : b.exponent = e + k) :
    roundWithAccuracy double s (b.significand * 2 ^ k) e .exact =
      .finite s b.significand b.exponent (Nat.pos_of_ne_zero nonzero) := by
  have total : totalExponent (b.significand * 2 ^ k) e = totalExponent b.significand b.exponent := by
    simp only [totalExponent, log2_mul_pow nonzero, same]
    omega
  have first : shiftToTargetExponent double (b.significand * 2 ^ k) e .exact
      = (⟨b.significand, false, false⟩, b.exponent) := by
    have distance : (b.exponent - e).toNat = k := by omega
    simp only [shiftToTargetExponent, shiftToExponent, total, target_exact canonical nonzero, distance,
      ExtendedMantissa.ofMantissaAndAccuracy, shift_exact, ← same]
  have second : shiftToTargetExponent double b.significand b.exponent .exact
      = (⟨b.significand, false, false⟩, b.exponent) := by
    simp only [shiftToTargetExponent, shiftToExponent, target_exact canonical nonzero]
    simpa [ExtendedMantissa.ofMantissaAndAccuracy] using shift_exact b.significand 0
  have kept : (⟨b.significand, false, false⟩ : ExtendedMantissa).roundedMantissa = b.significand := rfl
  unfold roundWithAccuracy
  simp only [first, kept, second, nonzero, ↓reduceDIte]

-- The double with the value of a natural number.
def whole (negative : Bool) (n : Nat) : Binary := ⟨negative, n * 2 ^ (52 - n.log2), n.log2 - 52⟩

theorem whole_nonzero {n : Nat} (positive : n ≠ 0) (negative : Bool) :
    (whole negative n).significand ≠ 0 :=
  Nat.mul_ne_zero positive (Nat.ne_of_gt (Nat.two_pow_pos _))

theorem whole_canonical {n : Nat} (positive : n ≠ 0) (small : n < 2 ^ 53) (negative : Bool) :
    Canonical (whole negative n) := by
  have log : n.log2 < 53 := (Nat.log2_lt positive).mpr small
  have filled : (n * 2 ^ (52 - n.log2)).log2 = 52 := by
    rw [log2_mul_pow positive]
    omega
  have bounds := (Nat.log2_eq_iff (whole_nonzero positive negative)).mp filled
  exact ⟨bounds.2, by simp only [whole]; omega, by simp only [whole]; omega, .inl bounds.1⟩

theorem toFloat_parts {n : Nat} (positive : n ≠ 0) (small : n < 2 ^ 53) :
    parts n.toUInt64.toFloat = ofBinary (whole false n) := by
  have canonical := whole_canonical positive small false
  have nonzero := whole_nonzero positive false
  have log : n.log2 < 53 := (Nat.log2_lt positive).mpr small
  have word : n.toUInt64.toNat = n := by
    simp only [Nat.toUInt64, UInt64.toNat_ofNat']
    omega
  have rounded : UnpackedFloat.ofNat double n = ofBinary (whole false n) := by
    unfold UnpackedFloat.ofNat UnpackedFloat.ofInt UnpackedFloat.normalize
    have above : compare (n : Int) 0 = .gt := by
      rw [Int.compare_eq_gt]
      omega
    rw [above]
    simp only [UnpackedFloat.round, decreaseExponent, Nat.shiftLeft_eq, Int.toNat_natCast]
    have amount : (0 - double.targetExponent (totalExponent n 0)).toNat = 52 - n.log2 := by
      simp only [target_eq, totalExponent]
      omega
    rw [amount]
    have exact := round_exact canonical nonzero .positive 0 (0 - ((52 - n.log2 : Nat) : Int))
      (by simp only [whole]; omega)
    rw [Nat.pow_zero, Nat.mul_one] at exact
    simp only [whole] at exact nonzero
    simp only [ofBinary, whole, nonzero, ↓reduceDIte]
    exact exact
  change UnpackedFloat.unpack double (UnpackedFloat.pack double (UnpackedFloat.ofNat double n.toUInt64.toNat)) = _
  rw [word, rounded]
  exact unpack_pack _ canonical

theorem div_exact {b : Binary} (canonical : Canonical b) (nonzero : b.significand ≠ 0)
    (s₁ s₂ : Sign) {m n : Nat} {e f T : Int} (h₁ : 0 < m) (h₂ : 0 < n) (k : Nat)
    (least : min (e - f) (double.targetExponent (totalExponent m e - totalExponent n f)) = T)
    (exact : m * 2 ^ (e - f - T).toNat = n * (b.significand * 2 ^ k)) (same : b.exponent = T + k) :
    UnpackedFloat.div double (.finite s₁ m e h₁) (.finite s₂ n f h₂) =
      .finite (s₁ / s₂) b.significand b.exponent (Nat.pos_of_ne_zero nonzero) := by
  have accuracy : accuracyOfFraction 0 n = .exact := rfl
  simp only [UnpackedFloat.div, divCore, Nat.shiftLeft_eq, least, exact, Nat.mul_div_cancel_left _ h₂,
    Nat.mul_mod_right, accuracy]
  exact round_exact canonical nonzero _ k T same

theorem ten_parts : parts (Json.powerOfTen 1) = .finite .positive (5 * 2 ^ 50) (-49) (by decide) := rfl

theorem log2_tenfold {n : Nat} (nonzero : n ≠ 0) : n.log2 ≤ (10 * n).log2 ∧ (10 * n).log2 < n.log2 + 5 := by
  have tenfold : 10 * n ≠ 0 := by omega
  constructor
  · rw [Nat.le_log2 tenfold]
    have := Nat.log2_self_le nonzero
    omega
  · rw [Nat.log2_lt tenfold, Nat.pow_add]
    have := Nat.lt_log2_self (n := n)
    rw [Nat.pow_add] at this
    omega

-- Both significands fill 53 bits, so the tenth of one is the other up to a power of two.
theorem tenfold_exact {n : Nat} (nonzero : n ≠ 0) (small : 10 * n < 2 ^ 53) :
    10 * n * 2 ^ (52 - (10 * n).log2) * 2 ^ 53 =
      5 * 2 ^ 50 * (n * 2 ^ (52 - n.log2) * 2 ^ (n.log2 + 4 - (10 * n).log2)) := by
  obtain ⟨lower, upper⟩ := log2_tenfold nonzero
  have bound : (10 * n).log2 < 53 := (Nat.log2_lt (by omega)).mpr small
  have powers : 2 ^ (52 - n.log2) * 2 ^ (n.log2 + 4 - (10 * n).log2) = 2 ^ (52 - (10 * n).log2) * 2 ^ 4 := by
    rw [← Nat.pow_add, ← Nat.pow_add]
    congr 1
    omega
  rw [Nat.mul_assoc n, powers]
  generalize 2 ^ (52 - (10 * n).log2) = p
  grind

theorem div_tenfold {n : Nat} (positive : n ≠ 0) (small : 10 * n < 2 ^ 53) :
    UnpackedFloat.div double (ofBinary (whole false (10 * n)))
      (.finite .positive (5 * 2 ^ 50) (-49) (by decide)) = ofBinary (whole false n) := by
  have tenfold : 10 * n ≠ 0 := by omega
  have nonzero := whole_nonzero positive false
  have nonzero' := whole_nonzero tenfold false
  obtain ⟨lower, upper⟩ := log2_tenfold positive
  have bound : (10 * n).log2 < 53 := (Nat.log2_lt tenfold).mpr small
  have filled : (10 * n * 2 ^ (52 - (10 * n).log2)).log2 = 52 := by
    rw [log2_mul_pow tenfold]
    omega
  have log : (5 * 2 ^ 50 : Nat).log2 = 52 := by rw [log2_mul_pow (by decide)]; decide
  have quotient := div_exact (whole_canonical positive (by omega) false) nonzero .positive .positive
    (m := (whole false (10 * n)).significand) (e := (whole false (10 * n)).exponent)
    (n := 5 * 2 ^ 50) (f := -49) (T := (10 * n).log2 - 56)
    (Nat.pos_of_ne_zero nonzero') (by decide) (n.log2 + 4 - (10 * n).log2)
    (by simp only [whole, totalExponent, filled, log, target_eq]; omega)
    (by
      have distance : ((whole false (10 * n)).exponent - -49 - ((10 * n).log2 - 56)).toNat = 53 := by
        simp only [whole]
        omega
      rw [distance]
      exact tenfold_exact positive small)
    (by simp only [whole]; omega)
  simp only [ofBinary, nonzero, nonzero', ↓reduceDIte]
  exact quotient

theorem tenth_parts {n : Nat} (positive : n ≠ 0) (small : 10 * n < 2 ^ 53) :
    parts ((10 * n).toUInt64.toFloat / Json.powerOfTen 1) = ofBinary (whole false n) := by
  have dividend := toFloat_parts (by omega : 10 * n ≠ 0) small
  change UnpackedFloat.unpack double (UnpackedFloat.pack double
    (UnpackedFloat.div double (parts (10 * n).toUInt64.toFloat) (parts (Json.powerOfTen 1)))) = _
  rw [dividend, ten_parts, div_tenfold positive small]
  exact unpack_pack _ (whole_canonical positive (by omega) false)

end Solid.Doubles
