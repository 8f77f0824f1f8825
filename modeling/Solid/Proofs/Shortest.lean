import Solid.Proofs.Rounding
import Solid.Decimal
namespace Solid.Decimal

theorem digits_shift (n : Nat) (nonzero : n ≠ 0) (k : Nat) :
    digits (n * 10 ^ k) = digits n ++ List.replicate k '0' := by
  induction k with
  | zero => simp
  | succ k ih =>
    have positive : 0 < n * 10 ^ k := Nat.mul_pos (Nat.pos_of_ne_zero nonzero) (Nat.pow_pos (by decide))
    rw [show n * 10 ^ (k + 1) = 10 * (n * 10 ^ k) by rw [Nat.pow_succ]; grind, digits, if_neg (by omega),
      Nat.mul_div_cancel_left _ (by decide), Nat.mul_mod_right, ih, List.replicate_succ', List.append_assoc]
    rfl

theorem length_bounds (n : Nat) (nonzero : n ≠ 0) :
    0 < length n ∧ 10 ^ (length n - 1) ≤ n ∧ n < 10 ^ length n := by
  unfold length
  induction n using Nat.strongRecOn with
  | ind n ih =>
    rw [digits]
    split
    · next small =>
      refine ⟨by simp, ?_, ?_⟩ <;> simp only [List.length_singleton] <;> omega
    · next large =>
      obtain ⟨positive, lower, upper⟩ := ih (n / 10) (by omega) (by omega)
      simp only [List.length_append, List.length_singleton]
      have step : (digits (n / 10)).length = (digits (n / 10)).length - 1 + 1 := by omega
      refine ⟨by omega, ?_, ?_⟩
      · rw [Nat.add_sub_cancel, step, Nat.pow_succ]
        omega
      · rw [Nat.pow_succ]
        omega

-- The number in the middle is at least `10 ^ power`.
def Interval.Reaches (i : Interval) (power : Int) : Prop :=
  i.unit * 10 ^ power.toNat ≤ i.middle * 10 ^ (-power).toNat

namespace Interval

theorem reaches_below {i : Interval} {power : Int} (reached : i.Reaches power) :
    i.Reaches (power - 1) := by
  unfold Reaches at *
  by_cases above : 0 < power
  · have up : power.toNat = (power - 1).toNat + 1 := by omega
    have flat : (-power).toNat = 0 ∧ (-(power - 1)).toNat = 0 := by omega
    rw [up, flat.1, Nat.pow_succ] at reached
    rw [flat.2]
    have := Nat.zero_le (i.unit * 10 ^ (power - 1).toNat)
    grind
  · have flat : power.toNat = 0 ∧ (power - 1).toNat = 0 := by omega
    have down : (-(power - 1)).toNat = (-power).toNat + 1 := by omega
    rw [flat.1] at reached
    rw [flat.2, down, Nat.pow_succ]
    have := Nat.zero_le (i.middle * 10 ^ (-power).toNat)
    grind

theorem leading_reached {i : Interval} (unit : i.unit ≠ 0) (middle : i.middle ≠ 0) :
    i.Reaches i.leading := by
  obtain ⟨lengthM, lowerM, upperM⟩ := length_bounds i.middle middle
  obtain ⟨lengthU, lowerU, upperU⟩ := length_bounds i.unit unit
  unfold leading
  simp only [tenTo, Nat.pow_eq]
  generalize length i.middle = l at *
  generalize length i.unit = u at *
  split
  · assumption
  · unfold Reaches
    by_cases above : u < l
    · have up : ((l : Int) - u - 1).toNat = l - 1 - u := by omega
      have flat : (-((l : Int) - u - 1)).toNat = 0 := by omega
      have power : 10 ^ u * 10 ^ (l - 1 - u) = 10 ^ (l - 1) := by
        rw [← Nat.pow_add]
        congr 1
        omega
      rw [up, flat]
      calc i.unit * 10 ^ (l - 1 - u) ≤ 10 ^ u * 10 ^ (l - 1 - u) :=
            Nat.mul_le_mul_right _ (Nat.le_of_lt upperU)
        _ = 10 ^ (l - 1) := power
        _ ≤ i.middle * 10 ^ 0 := by simpa using lowerM
    · have flat : ((l : Int) - u - 1).toNat = 0 := by omega
      have down : (-((l : Int) - u - 1)).toNat = u - (l - 1) := by omega
      have power : 10 ^ (l - 1) * 10 ^ (u - (l - 1)) = 10 ^ u := by
        rw [← Nat.pow_add]
        congr 1
        omega
      rw [flat, down]
      calc i.unit * 10 ^ 0 ≤ 10 ^ u := by simpa using Nat.le_of_lt upperU
        _ = 10 ^ (l - 1) * 10 ^ (u - (l - 1)) := power.symm
        _ ≤ i.middle * 10 ^ (u - (l - 1)) := Nat.mul_le_mul_right _ lowerM

theorem floor_positive {i : Interval} (unit : i.unit ≠ 0) {power : Int} (reached : i.Reaches power) :
    i.floor power ≠ 0 := by
  have positive : 0 < i.unit * 10 ^ power.toNat :=
    Nat.mul_pos (Nat.pos_of_ne_zero unit) (Nat.pow_pos (by decide))
  have floored : i.unit * 10 ^ power.toNat ≤ i.middle * 10 ^ (-power).toNat := reached
  have least : 1 ≤ i.middle * 10 ^ (-power).toNat / (i.unit * 10 ^ power.toNat) :=
    (Nat.le_div_iff_mul_le positive).mpr (by rwa [Nat.one_mul])
  unfold floor
  simp only [tenTo, Nat.pow_eq]
  omega

theorem nearer_neighbour (i : Interval) (tie : Tie) (below : Nat) (power : Int) :
    i.nearer tie below power = below ∨ i.nearer tie below power = below + 1 := by
  unfold nearer
  dsimp only
  split
  · exact .inl rfl
  · split
    · exact .inr rfl
    · split
      · exact .inr rfl
      · split
        · exact .inl rfl
        · exact .inr rfl

-- A hit is one of the two neighbours on the grid, and it lies in the interval.
theorem hit_spec {i : Interval} {tie : Tie} {power : Int} {n : Nat} (hit : i.hit tie power = some n) :
    (n = i.floor power ∨ n = i.floor power + 1) ∧ i.holds ⟨n, power⟩ = true := by
  unfold Interval.hit at hit
  dsimp only at hit
  split at hit
  · rename_i lower upper
    cases Option.some.inj hit
    rcases nearer_neighbour i tie (i.floor power) power with eq | eq <;> rw [eq]
    · exact ⟨.inl rfl, lower⟩
    · exact ⟨.inr rfl, upper⟩
  · rename_i lower _
    cases Option.some.inj hit
    exact ⟨.inl rfl, lower⟩
  · rename_i _ upper
    cases Option.some.inj hit
    exact ⟨.inr rfl, upper⟩
  · cases hit

theorem shortestFrom_nonzero {i : Interval} (unit : i.unit ≠ 0) (tie : Tie) (steps : Nat) {power : Int}
    (reached : i.Reaches power) : (i.shortestFrom tie steps power).coefficient ≠ 0 := by
  induction steps generalizing power with
  | zero => exact floor_positive unit reached
  | succ more ih =>
    unfold shortestFrom
    split
    · rename_i n found
      have positive := floor_positive unit reached
      obtain ⟨near, _⟩ := hit_spec found
      dsimp only
      omega
    · exact ih (reaches_below reached)

end Interval

theorem trimmed_value (s : Scaled) :
    ∃ k : Nat, s.trimmed.power = s.power + k ∧ s.coefficient = s.trimmed.coefficient * 10 ^ k := by
  induction s using Scaled.trimmed.induct with
  | case1 s trailing ih =>
    obtain ⟨k, power, coefficient⟩ := ih
    rw [Scaled.trimmed, if_pos trailing]
    refine ⟨k + 1, by rw [power]; simp only; omega, ?_⟩
    have exact : s.coefficient = 10 * (s.coefficient / 10) := by omega
    rw [exact, Nat.pow_succ]
    simp only at coefficient
    rw [coefficient]
    grind
  | case2 s done =>
    rw [Scaled.trimmed, if_neg done]
    exact ⟨0, by simp, by simp⟩

theorem trimmed_nonzero {s : Scaled} (nonzero : s.coefficient ≠ 0) : s.trimmed.coefficient ≠ 0 := by
  obtain ⟨k, _, coefficient⟩ := trimmed_value s
  intro zero
  rw [zero] at coefficient
  simp at coefficient
  exact nonzero coefficient

theorem scaled_positive (n : Nat) (e : Int) (nonzero : n ≠ 0) : (Ratio.scaled n e).numerator ≠ 0 ∧
    (Ratio.scaled n e).denominator ≠ 0 := by
  unfold Ratio.scaled
  simp only [twoTo, Nat.pow_eq]
  split
  · exact ⟨Nat.mul_ne_zero nonzero (Nat.ne_of_gt (Nat.two_pow_pos _)), Nat.one_ne_zero⟩
  · exact ⟨nonzero, Nat.ne_of_gt (Nat.two_pow_pos _)⟩

theorem shortest_nonzero (tie : Tie) (b : Binary) (nonzero : b.significand ≠ 0) :
    (b.shortest tie).coefficient ≠ 0 := by
  have unit : b.interval.unit ≠ 0 := (scaled_positive 1 _ (by decide)).2
  have middle : b.interval.middle ≠ 0 := (scaled_positive (4 * b.significand) _ (by omega)).1
  exact trimmed_nonzero (Interval.shortestFrom_nonzero unit tie 17 (Interval.leading_reached unit middle))

-- The interval around a whole number holds no other whole number.
structure Interval.Around (i : Interval) (n : Nat) : Prop where
  unit : 0 < i.unit
  middle : i.middle = n * i.unit
  low : i.low < i.middle
  high : i.middle < i.high
  lower : i.middle < i.low + i.unit
  upper : i.high < i.middle + i.unit

theorem whole_around {n : Nat} (positive : n ≠ 0) (small : n < 2 ^ 50) (negative : Bool) :
    (Doubles.whole negative n).interval.Around n := by
  have log : n.log2 < 50 := (Nat.log2_lt positive).mpr small
  have scaled : ∀ m, Ratio.scaled m ((n.log2 : Int) - 52 - 2) = ⟨m, 2 ^ (54 - n.log2)⟩ := by
    intro m
    unfold Ratio.scaled
    rw [if_neg (by omega)]
    simp only [twoTo, Nat.pow_eq]
    congr 2
    omega
  have unit : 2 ^ (54 - n.log2) = 4 * 2 ^ (52 - n.log2) := by
    rw [show 54 - n.log2 = 52 - n.log2 + 2 by omega, Nat.pow_add]
    omega
  have wide : 2 ^ 3 ≤ 2 ^ (52 - n.log2) := Nat.pow_le_pow_right (by decide) (by omega)
  have filled : 0 < n * 2 ^ (52 - n.log2) :=
    Nat.mul_pos (Nat.pos_of_ne_zero positive) (Nat.two_pow_pos _)
  have middle : 4 * (n * 2 ^ (52 - n.log2)) = n * 2 ^ (54 - n.log2) := by
    rw [unit]
    grind
  obtain ⟨gap, least, most, low⟩ : ∃ gap, 1 ≤ gap ∧ gap ≤ 2 ∧
      (Doubles.whole negative n).interval.low = 4 * (n * 2 ^ (52 - n.log2)) - gap := by
    let b := Doubles.whole negative n
    refine ⟨if b.significand = twoTo 52 ∧ -1074 < b.exponent then 1 else 2, ?_, ?_, ?_⟩
    · split <;> decide
    · split <;> decide
    · simp only [b, Binary.interval, Doubles.whole, scaled]
      rfl
  have exact : (Doubles.whole negative n).interval.middle = 4 * (n * 2 ^ (52 - n.log2)) ∧
      (Doubles.whole negative n).interval.high = 4 * (n * 2 ^ (52 - n.log2)) + 2 ∧
      (Doubles.whole negative n).interval.unit = 2 ^ (54 - n.log2) := by
    simp only [Binary.interval, Doubles.whole, scaled, and_self]
  obtain ⟨same, high, one⟩ := exact
  constructor <;> simp only [low, same, high, one] <;> omega

theorem holds_whole {i : Interval} {n : Nat} (around : i.Around n) {s : Scaled} (above : 0 ≤ s.power)
    (held : i.holds s = true) : s.coefficient * 10 ^ s.power.toNat = n := by
  have flat : (-s.power).toNat = 0 := by omega
  have bounds : i.low ≤ s.coefficient * 10 ^ s.power.toNat * i.unit ∧
      s.coefficient * 10 ^ s.power.toNat * i.unit ≤ i.high := by
    unfold Interval.holds at held
    simp only [tenTo, Nat.pow_eq, flat, Nat.pow_zero, Nat.mul_one] at held
    split at held <;> simp only [decide_eq_true_eq] at held <;> omega
  have := around.lower
  have := around.upper
  have middle := around.middle
  have below : s.coefficient * 10 ^ s.power.toNat < n + 1 := by
    apply Nat.lt_of_mul_lt_mul_right (a := i.unit)
    rw [Nat.add_mul]
    omega
  have above : n < s.coefficient * 10 ^ s.power.toNat + 1 := by
    apply Nat.lt_of_mul_lt_mul_right (a := i.unit)
    rw [Nat.add_mul]
    omega
  omega

theorem whole_hit {i : Interval} {n : Nat} (around : i.Around n) (tie : Tie) :
    i.hit tie 0 ≠ none := by
  have floor : i.floor 0 = n := by
    unfold Interval.floor
    simp only [around.middle]
    simpa using Nat.mul_div_cancel n around.unit
  have held : i.holds ⟨i.floor 0, 0⟩ = true := by
    have := around.low
    have := around.high
    have := around.middle
    unfold Interval.holds
    rw [floor]
    simp only [tenTo, Nat.pow_eq]
    split <;> simp <;> omega
  unfold Interval.hit
  simp only [held]
  cases i.holds ⟨i.floor 0 + 1, 0⟩ <;> simp

theorem whole_shortestFrom {i : Interval} {n : Nat} (around : i.Around n) (tie : Tie) (steps : Nat)
    {power : Int} (above : 0 ≤ power) (enough : power < steps) :
    0 ≤ (i.shortestFrom tie steps power).power ∧
      (i.shortestFrom tie steps power).coefficient * 10 ^ (i.shortestFrom tie steps power).power.toNat = n := by
  induction steps generalizing power with
  | zero => omega
  | succ more ih =>
    unfold Interval.shortestFrom
    split
    · rename_i m found
      exact ⟨above, holds_whole around above (Interval.hit_spec found).2⟩
    · rename_i missed
      have positive : power ≠ 0 := by
        rintro rfl
        exact whole_hit around tie missed
      exact ih (by omega) (by omega)

theorem whole_leading {i : Interval} {n : Nat} (around : i.Around n) (positive : n ≠ 0)
    (small : n < 10 ^ 16) : 0 ≤ i.leading ∧ i.leading < 17 := by
  have middle : i.middle ≠ 0 := by
    rw [around.middle]
    exact Nat.mul_ne_zero positive (Nat.ne_of_gt around.unit)
  have above : i.unit ≤ i.middle := by
    rw [around.middle]
    exact Nat.le_mul_of_pos_left _ (Nat.pos_of_ne_zero positive)
  obtain ⟨_, lowerM, upperM⟩ := length_bounds i.middle middle
  obtain ⟨_, lowerU, upperU⟩ := length_bounds i.unit (Nat.ne_of_gt around.unit)
  have order : length i.unit - 1 < length i.middle :=
    (Nat.pow_lt_pow_iff_right (by decide)).mp (Nat.lt_of_le_of_lt (Nat.le_trans lowerU above) upperM)
  have reach : length i.middle - 1 < 16 + length i.unit := by
    apply (Nat.pow_lt_pow_iff_right (a := 10) (by decide)).mp
    rw [Nat.pow_add]
    calc 10 ^ (length i.middle - 1) ≤ n * i.unit := by rw [← around.middle]; exact lowerM
      _ < 10 ^ 16 * i.unit := Nat.mul_lt_mul_of_pos_right small around.unit
      _ ≤ 10 ^ 16 * 10 ^ length i.unit := Nat.mul_le_mul_left _ (Nat.le_of_lt upperU)
  unfold Interval.leading
  dsimp only
  split
  · omega
  · rename_i short
    have : length i.middle ≠ length i.unit := by
      intro same
      rw [same, Int.sub_self] at short
      simp at short
      omega
    omega

theorem whole_shortest {n : Nat} (positive : n ≠ 0) (small : n < 2 ^ 50) (negative : Bool) (tie : Tie) :
    ∃ k : Nat, ((Doubles.whole negative n).shortest tie).power = k ∧
      ((Doubles.whole negative n).shortest tie).coefficient * 10 ^ k = n := by
  have around := whole_around positive small negative
  obtain ⟨least, most⟩ := whole_leading around positive (by omega)
  obtain ⟨above, exact⟩ := whole_shortestFrom around tie 17 least (by omega)
  simp only [Binary.shortest]
  generalize (Doubles.whole negative n).interval.shortestFrom tie 17
    (Doubles.whole negative n).interval.leading = s at *
  obtain ⟨k, power, coefficient⟩ := trimmed_value s
  refine ⟨s.power.toNat + k, by omega, ?_⟩
  rw [← exact, coefficient, Nat.pow_add]
  grind

end Solid.Decimal
