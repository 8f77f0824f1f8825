import Solid.Proofs.Shortest
import Solid.Decimal
namespace Solid.Decimal

-- The decimal as a rational number.
def Scaled.amount (s : Scaled) : ℚ := s.coefficient * 10 ^ s.power

theorem amount_split (s : Scaled) :
    s.amount = s.coefficient * 10 ^ s.power.toNat / 10 ^ (-s.power).toNat := by
  unfold Scaled.amount
  by_cases above : 0 ≤ s.power
  · have flat : (-s.power).toNat = 0 := by omega
    have up : s.power = (s.power.toNat : ℤ) := by omega
    rw [flat, pow_zero, div_one]
    conv_lhs => rw [up, zpow_natCast]
  · have flat : s.power.toNat = 0 := by omega
    have down : s.power = -((-s.power).toNat : ℤ) := by omega
    rw [flat, pow_zero, mul_one]
    conv_lhs => rw [down, zpow_neg, zpow_natCast]
    rfl

theorem trimmed_amount (s : Scaled) : s.trimmed.amount = s.amount := by
  obtain ⟨k, power, coefficient⟩ := trimmed_value s
  unfold Scaled.amount
  rw [power, coefficient, zpow_add₀ (by norm_num), zpow_natCast]
  push_cast
  ring

theorem scaled_ratio (n : Nat) (e : Int) :
    ((Ratio.scaled n e).numerator : ℚ) / (Ratio.scaled 1 e).denominator = n * 2 ^ e := by
  unfold Ratio.scaled
  simp only [twoTo, Nat.pow_eq]
  by_cases above : 0 ≤ e
  · have up : e = (e.toNat : ℤ) := by omega
    rw [if_pos above, if_pos above]
    conv_rhs => rw [up, zpow_natCast]
    simp
  · have down : e = -((-e).toNat : ℤ) := by omega
    rw [if_neg above, if_neg above]
    conv_rhs => rw [down, zpow_neg, zpow_natCast]
    push_cast
    rfl

namespace Interval

-- The ends and the middle as rational numbers.
def least (i : Interval) : ℚ := i.low / i.unit

def centre (i : Interval) : ℚ := i.middle / i.unit

def most (i : Interval) : ℚ := i.high / i.unit

section
variable {i : Interval} (unit : i.unit ≠ 0)
include unit

theorem holds_amount {s : Scaled} : i.holds s = true ↔
    if i.closed then i.least ≤ s.amount ∧ s.amount ≤ i.most else i.least < s.amount ∧ s.amount < i.most := by
  have filled : (0 : ℚ) < i.unit := by exact_mod_cast Nat.pos_of_ne_zero unit
  have shrink : (0 : ℚ) < 10 ^ (-s.power).toNat := by positivity
  have left (n : Nat) : (n : ℚ) / i.unit ≤ s.amount ↔
      n * 10 ^ (-s.power).toNat ≤ s.coefficient * 10 ^ s.power.toNat * i.unit := by
    rw [amount_split, div_le_div_iff₀ filled shrink]
    norm_cast
  have right (n : Nat) : s.amount ≤ (n : ℚ) / i.unit ↔
      s.coefficient * 10 ^ s.power.toNat * i.unit ≤ n * 10 ^ (-s.power).toNat := by
    rw [amount_split, div_le_div_iff₀ shrink filled]
    norm_cast
  unfold holds least most
  simp only [tenTo, Nat.pow_eq]
  split
  · rw [left, right, decide_eq_true_eq]
  · simp only [decide_eq_true_eq, ← not_le, left, right]

theorem reaches_centre {power : Int} : i.Reaches power ↔ (10 : ℚ) ^ power ≤ i.centre := by
  have filled : (0 : ℚ) < i.unit := by exact_mod_cast Nat.pos_of_ne_zero unit
  have shrink : (0 : ℚ) < 10 ^ (-power).toNat := by positivity
  have one := amount_split ⟨1, power⟩
  simp only [Scaled.amount, Nat.cast_one, one_mul] at one
  rw [one, centre, div_le_div_iff₀ shrink filled, Reaches, mul_comm i.unit]
  norm_cast

-- The neighbours on a grid stand around the centre.
theorem floor_centre (power : Int) :
    (⟨i.floor power, power⟩ : Scaled).amount ≤ i.centre ∧
      i.centre < (⟨i.floor power + 1, power⟩ : Scaled).amount := by
  have filled : (0 : ℚ) < i.unit := by exact_mod_cast Nat.pos_of_ne_zero unit
  have shrink : (0 : ℚ) < 10 ^ (-power).toNat := by positivity
  have cell : 0 < i.unit * 10 ^ power.toNat := Nat.mul_pos (Nat.pos_of_ne_zero unit) (Nat.pow_pos (by decide))
  have below := Nat.div_mul_le_self (i.middle * 10 ^ (-power).toNat) (i.unit * 10 ^ power.toNat)
  have above := Nat.lt_div_mul_add (a := i.middle * 10 ^ (-power).toNat) cell
  rw [amount_split, amount_split, centre, div_le_div_iff₀ shrink filled, div_lt_div_iff₀ filled shrink]
  unfold floor
  simp only [tenTo, Nat.pow_eq]
  generalize i.middle * 10 ^ (-power).toNat / (i.unit * 10 ^ power.toNat) = n at *
  constructor
  · have : n * 10 ^ power.toNat * i.unit ≤ i.middle * 10 ^ (-power).toNat := by
      calc n * 10 ^ power.toNat * i.unit = n * (i.unit * 10 ^ power.toNat) := by ring
        _ ≤ _ := below
    exact_mod_cast this
  · have : i.middle * 10 ^ (-power).toNat < (n + 1) * 10 ^ power.toNat * i.unit := by
      calc i.middle * 10 ^ (-power).toNat < n * (i.unit * 10 ^ power.toNat) + i.unit * 10 ^ power.toNat := above
        _ = (n + 1) * 10 ^ power.toNat * i.unit := by ring
    exact_mod_cast this

-- A grid that is finer than the interval is wide has a point in it.
theorem hit_fine {power : Int} (tie : Tie) (low : i.least < i.centre) (high : i.centre < i.most)
    (fine : (10 : ℚ) ^ power < i.most - i.least) : i.hit tie power ≠ none := by
  obtain ⟨below, above⟩ := floor_centre unit power
  have step : (⟨i.floor power + 1, power⟩ : Scaled).amount =
      (⟨i.floor power, power⟩ : Scaled).amount + 10 ^ power := by
    simp only [Scaled.amount]
    push_cast
    ring
  have one : i.holds ⟨i.floor power, power⟩ = true ∨ i.holds ⟨i.floor power + 1, power⟩ = true := by
    rw [holds_amount unit, holds_amount unit]
    by_cases inside : i.least < (⟨i.floor power, power⟩ : Scaled).amount
    · left
      have : (⟨i.floor power, power⟩ : Scaled).amount < i.most := by linarith
      split
      · exact ⟨inside.le, this.le⟩
      · exact ⟨inside, this⟩
    · right
      have left : i.least < (⟨i.floor power + 1, power⟩ : Scaled).amount := by linarith
      have right : (⟨i.floor power + 1, power⟩ : Scaled).amount < i.most := by linarith
      split
      · exact ⟨left.le, right.le⟩
      · exact ⟨left, right⟩
  unfold hit
  dsimp only
  intro missed
  split at missed <;> simp_all

end

theorem shortestFrom_holds {i : Interval} {tie : Tie} {steps k : Nat} {power : Int} (soon : k < steps)
    (found : i.hit tie (power - k) ≠ none) : i.holds (i.shortestFrom tie steps power) = true := by
  induction steps generalizing k power with
  | zero => omega
  | succ more ih =>
    unfold shortestFrom
    split
    · rename_i n hit
      exact (hit_spec hit).2
    · rename_i missed
      cases k with
      | zero =>
        rw [Nat.cast_zero, sub_zero] at found
        exact absurd missed found
      | succ k =>
        refine ih (k := k) (by omega) ?_
        rwa [show power - 1 - (k : ℤ) = power - (k + 1 : ℕ) by push_cast; ring]

end Interval

-- Below a power of two the gap to the next double is half as wide. In quarters of the last place.
def Binary.gap (b : Binary) : Nat := if b.significand = 2 ^ 52 ∧ -1074 < b.exponent then 1 else 2

section
variable {b b' : Binary}

theorem interval_unit (b : Binary) : b.interval.unit ≠ 0 := (scaled_positive 1 _ (by decide)).2

theorem interval_centre (b : Binary) : b.interval.centre = (4 * b.significand : ℕ) * 2 ^ (b.exponent - 2) :=
  scaled_ratio _ _

theorem interval_most (b : Binary) : b.interval.most = (4 * b.significand + 2 : ℕ) * 2 ^ (b.exponent - 2) :=
  scaled_ratio _ _

theorem interval_least (b : Binary) :
    b.interval.least = (4 * b.significand - b.gap : ℕ) * 2 ^ (b.exponent - 2) :=
  scaled_ratio _ _

theorem gap_cases (b : Binary) :
    b.gap = 1 ∧ b.significand = 2 ^ 52 ∧ -1074 < b.exponent ∨
      b.gap = 2 ∧ ¬(b.significand = 2 ^ 52 ∧ -1074 < b.exponent) := by
  unfold Binary.gap
  by_cases narrow : b.significand = 2 ^ 52 ∧ -1074 < b.exponent
  · exact .inl ⟨if_pos narrow, narrow⟩
  · exact .inr ⟨if_neg narrow, narrow⟩

-- Seventeen digits are always enough.
theorem shortest_holds (canonical : Doubles.Canonical b) (nonzero : b.significand ≠ 0) (tie : Tie) :
    b.interval.holds (b.interval.shortestFrom tie 17 b.interval.leading) = true := by
  have unit := interval_unit b
  have middle : b.interval.middle ≠ 0 := (scaled_positive (4 * b.significand) _ (by omega)).1
  have place : (0 : ℚ) < 2 ^ (b.exponent - 2) := by positivity
  have reached := (Interval.reaches_centre unit).mp (Interval.leading_reached unit middle)
  have small : (b.significand : ℚ) < 2 ^ 53 := by exact_mod_cast canonical.small
  have some : (1 : ℚ) ≤ b.significand := by exact_mod_cast Nat.pos_of_ne_zero nonzero
  have split : (10 : ℚ) ^ b.interval.leading = 10 ^ (b.interval.leading - (16 : ℕ)) * 10 ^ 16 := by
    rw [zpow_sub₀ (by norm_num), zpow_natCast]
    field_simp
  rw [interval_centre, split] at reached
  push_cast at reached
  refine Interval.shortestFrom_holds (k := 16) (by decide) (Interval.hit_fine unit tie ?_ ?_ ?_)
  · rw [interval_least, interval_centre]
    rcases gap_cases b with ⟨gap, _⟩ | ⟨gap, _⟩ <;> rw [gap, Nat.cast_sub (by omega)] <;> push_cast <;> nlinarith
  · rw [interval_centre, interval_most]
    push_cast
    nlinarith
  · rw [interval_least, interval_most]
    rcases gap_cases b with ⟨gap, narrow, _⟩ | ⟨gap, _⟩
    · rw [gap, Nat.cast_sub (by omega)]
      rw [narrow] at reached ⊢
      push_cast at reached ⊢
      nlinarith
    · rw [gap, Nat.cast_sub (by omega)]
      push_cast
      nlinarith

-- The number lies in the interval around the double. Its ends belong to it when the significand is even.
def Binary.Rounds (b : Binary) (x : ℚ) : Prop :=
  b.interval.least ≤ x ∧ x ≤ b.interval.most ∧
    (b.significand % 2 = 1 → b.interval.least < x ∧ x < b.interval.most)

theorem holds_rounds {s : Scaled} (held : b.interval.holds s = true) : b.Rounds s.amount := by
  have closed : b.interval.closed = decide (b.significand % 2 = 0) := rfl
  have inside := (Interval.holds_amount (interval_unit b)).mp held
  rw [closed] at inside
  by_cases even : b.significand % 2 = 0
  · rw [decide_eq_true even, if_pos rfl] at inside
    exact ⟨inside.1, inside.2, fun odd => absurd even (by omega)⟩
  · rw [decide_eq_false even, if_neg (by decide)] at inside
    exact ⟨inside.1.le, inside.2.le, fun _ => inside⟩

-- The order of the magnitudes, as long as all places are filled.
def Binary.Below (b b' : Binary) : Prop :=
  b.exponent < b'.exponent ∨ b.exponent = b'.exponent ∧ b.significand < b'.significand

theorem below_cases (b b' : Binary) :
    b.Below b' ∨ (b.significand = b'.significand ∧ b.exponent = b'.exponent) ∨ b'.Below b := by
  unfold Binary.Below
  omega

-- Where the doubles are in this order, so are their intervals. They meet at most in one point,
-- and it does not belong to the double with the odd significand.
theorem intervals_apart (canonical : Doubles.Canonical b) (canonical' : Doubles.Canonical b') (less : b.Below b') :
    b.interval.most ≤ b'.interval.least ∧ (b.interval.most = b'.interval.least →
      b.significand % 2 = 1 ∨ b'.significand % 2 = 1) := by
  unfold Binary.Below at less
  obtain ⟨k, place⟩ : ∃ k : Nat, b'.exponent = b.exponent + k :=
    ⟨(b'.exponent - b.exponent).toNat, by rcases less with less | less <;> omega⟩
  have unit : (0 : ℚ) < 2 ^ (b.exponent - 2) := by positivity
  have grid : (2 : ℚ) ^ (b'.exponent - 2) = 2 ^ k * 2 ^ (b.exponent - 2) := by
    rw [place, show b.exponent + k - 2 = k + (b.exponent - 2) by ring, zpow_add₀ (by norm_num), zpow_natCast]
  have small := canonical.small
  have full := canonical'.full
  have least := canonical.least
  have order : 4 * b.significand + 2 ≤ (4 * b'.significand - b'.gap) * 2 ^ k ∧
      (4 * b.significand + 2 = (4 * b'.significand - b'.gap) * 2 ^ k →
        b.significand % 2 = 1 ∨ b'.significand % 2 = 1) := by
    rcases Nat.eq_zero_or_pos k with rfl | above
    · rw [pow_zero, mul_one]
      rcases gap_cases b' with ⟨gap, _⟩ | ⟨gap, _⟩ <;> rw [gap] <;> omega
    · have wide : (4 * b'.significand - b'.gap) * 2 ≤ (4 * b'.significand - b'.gap) * 2 ^ k :=
        Nat.mul_le_mul_left _ (by simpa using Nat.pow_le_pow_right (n := 2) (by decide) above)
      rcases gap_cases b' with ⟨gap, _⟩ | ⟨gap, normal⟩ <;> rw [gap] at wide ⊢ <;> omega
  rw [interval_most, interval_least, grid, ← mul_assoc, mul_le_mul_iff_left₀ unit, mul_left_inj' unit.ne']
  exact_mod_cast order

theorem rounds_apart (canonical : Doubles.Canonical b) (canonical' : Doubles.Canonical b') {x x' : ℚ}
    (rounds : b.Rounds x) (rounds' : b'.Rounds x') (less : b.Below b') : x < x' := by
  obtain ⟨_, most, inner⟩ := rounds
  obtain ⟨least, _, inner'⟩ := rounds'
  obtain ⟨apart, meeting⟩ := intervals_apart canonical canonical' less
  rcases apart.lt_or_eq with apart | meets
  · linarith
  · rcases meeting meets with odd | odd
    · have := (inner odd).2
      linarith
    · have := (inner' odd).1
      linarith

theorem rounds_unique (canonical : Doubles.Canonical b) (canonical' : Doubles.Canonical b') {x : ℚ}
    (rounds : b.Rounds x) (rounds' : b'.Rounds x) :
    b.significand = b'.significand ∧ b.exponent = b'.exponent := by
  rcases below_cases b b' with less | same | greater
  · exact absurd rfl (rounds_apart canonical canonical' rounds rounds' less).ne
  · exact same
  · exact absurd rfl (rounds_apart canonical' canonical rounds' rounds greater).ne

end

-- What a decimal numeral says: its digits as one number, divided by ten for every digit behind
-- the point.
def numeralAmount (run : List Char) : ℚ :=
  value (run.filter (· ≠ '.')) / 10 ^ ((run.dropWhile (· ≠ '.')).length - 1)

theorem pointless {run : List Char} (digits : ∀ c ∈ run, isDigit c = true) : ∀ c ∈ run, c ≠ '.' := by
  intro c member point
  have digit := digits c member
  rw [point] at digit
  exact absurd digit (by decide)

theorem value_zeros (k : Nat) (run : List Char) : value (zeros k ++ run) = value run := by
  induction k with
  | zero => rfl
  | succ k ih => exact ih

section
variable {run behind : List Char} (whole : ∀ c ∈ run, isDigit c = true)
include whole

theorem pointless_filter : run.filter (· ≠ '.') = run :=
  List.filter_eq_self.mpr fun c member => decide_eq_true (pointless whole c member)

theorem whole_amount : numeralAmount run = value run := by
  have nothing : run.dropWhile (· ≠ '.') = [] :=
    List.dropWhile_eq_nil_iff.mpr fun c member => decide_eq_true (pointless whole c member)
  rw [numeralAmount, pointless_filter whole, nothing]
  simp

theorem pointed_amount (fraction : ∀ c ∈ behind, isDigit c = true) :
    numeralAmount (run ++ '.' :: behind) = value (run ++ behind) / 10 ^ behind.length := by
  have front : (run ++ '.' :: behind).dropWhile (· ≠ '.') = '.' :: behind := by
    rw [List.dropWhile_append_of_pos fun c member => decide_eq_true (pointless whole c member)]
    rfl
  have all : (run ++ '.' :: behind).filter (· ≠ '.') = run ++ behind := by
    rw [List.filter_append, pointless_filter whole, List.filter_cons_of_neg (by decide),
      pointless_filter fraction]
  rw [numeralAmount, front, all, List.length_cons, Nat.add_sub_cancel]

end

theorem plain_amount {s : Scaled} (nonzero : s.coefficient ≠ 0) : numeralAmount (s.plain false) = s.amount := by
  have run := digits_isDigit s.coefficient
  rw [amount_split]
  unfold Scaled.plain
  dsimp only
  by_cases above : 0 ≤ s.power
  · have flat : (-s.power).toNat = 0 := by omega
    have shifted := value_digits (s.coefficient * 10 ^ s.power.toNat)
    rw [digits_shift s.coefficient nonzero] at shifted
    rw [if_pos above, if_neg (by decide), List.append_nil,
      whole_amount (List.forall_mem_append.mpr ⟨run, zeros_isDigit _⟩), zeros, shifted, flat]
    push_cast
    rw [pow_zero, div_one]
  · have flat : s.power.toNat = 0 := by omega
    rw [if_neg above, flat, pow_zero, mul_one]
    by_cases inside : (-s.power).toNat < (digits s.coefficient).length
    · rw [if_pos inside, pointed_amount (fun c member => run c (List.mem_of_mem_take member))
        (fun c member => run c (List.mem_of_mem_drop member)), List.take_append_drop, value_digits,
        List.length_drop, Nat.sub_sub_self (Nat.le_of_lt inside)]
    · let missing := (-s.power).toNat - (digits s.coefficient).length
      have front : ∀ c ∈ ['0'], isDigit c = true := List.forall_mem_singleton.mpr rfl
      have behind : ∀ c ∈ zeros missing ++ digits s.coefficient, isDigit c = true :=
        List.forall_mem_append.mpr ⟨zeros_isDigit _, run⟩
      rw [if_neg inside]
      change numeralAmount (['0'] ++ '.' :: (zeros missing ++ digits s.coefficient)) = _
      rw [pointed_amount front behind, ← List.append_assoc]
      change (value (zeros (missing + 1) ++ digits s.coefficient) : ℚ) / _ = _
      rw [value_zeros, value_digits, List.length_append, zeros, List.length_replicate,
        Nat.sub_add_cancel (Nat.le_of_not_lt inside)]

-- Digits and points, and nothing else.
theorem magnitude_characters (b : Binary) :
    ∀ c ∈ Layout.measure.magnitude b, isDigit c = true ∨ c = '.' := by
  have run (n : Nat) (c : Char) (member : c ∈ digits n) : isDigit c = true ∨ c = '.' :=
    .inl (digits_isDigit n c member)
  have zero (k : Nat) (c : Char) (member : c ∈ zeros k) : isDigit c = true ∨ c = '.' :=
    .inl (zeros_isDigit k c member)
  unfold Layout.magnitude
  split
  · exact List.forall_mem_singleton.mpr (.inl rfl)
  · dsimp only [Layout.measure]
    unfold Scaled.plain
    dsimp only
    split
    · simp only [List.forall_mem_append]
      exact ⟨⟨run _, zero _⟩, List.forall_mem_nil _⟩
    · split
      · rw [List.forall_mem_append, List.forall_mem_cons]
        exact ⟨fun c member => run _ c (List.mem_of_mem_take member), .inr rfl,
          fun c member => run _ c (List.mem_of_mem_drop member)⟩
      · rw [List.cons_append, List.cons_append, List.forall_mem_cons, List.forall_mem_cons, List.forall_mem_append]
        exact ⟨.inl rfl, .inr rfl, zero _, run _⟩

theorem magnitude_zero {b : Binary} (zero : b.significand = 0) : Layout.measure.magnitude b = ['0'] := if_pos zero

theorem magnitude_nonzero {b : Binary} (nonzero : b.significand ≠ 0) :
    Layout.measure.magnitude b = (b.shortest .up).plain false := if_neg nonzero

theorem magnitude_amount {b : Binary} (nonzero : b.significand ≠ 0) :
    numeralAmount (Layout.measure.magnitude b) =
      (b.interval.shortestFrom .up 17 b.interval.leading).amount := by
  rw [magnitude_nonzero nonzero, plain_amount (shortest_nonzero .up b nonzero)]
  exact trimmed_amount _

theorem amount_positive {s : Scaled} (nonzero : s.coefficient ≠ 0) : 0 < s.amount := by
  have : 0 < s.coefficient := Nat.pos_of_ne_zero nonzero
  unfold Scaled.amount
  positivity

-- Zero is spelled like no other number.
theorem magnitude_apart {b b' : Binary} (zero : b.significand = 0) (nonzero : b'.significand ≠ 0) :
    Layout.measure.magnitude b ≠ Layout.measure.magnitude b' := by
  intro same
  have amount := plain_amount (shortest_nonzero .up b' nonzero)
  rw [← magnitude_nonzero nonzero, ← same, magnitude_zero zero] at amount
  have nothing : numeralAmount ['0'] = 0 := by
    rw [whole_amount (List.forall_mem_singleton.mpr rfl)]
    norm_num [value, digitValue]
  have positive := amount_positive (shortest_nonzero .up b' nonzero)
  rw [← amount, nothing] at positive
  exact lt_irrefl 0 positive

theorem magnitude_injective {b b' : Binary} (canonical : Doubles.Canonical b) (canonical' : Doubles.Canonical b')
    (same : Layout.measure.magnitude b = Layout.measure.magnitude b') :
    b.significand = b'.significand ∧ b.exponent = b'.exponent := by
  by_cases zero : b.significand = 0
  · by_cases zero' : b'.significand = 0
    · have full := canonical.full
      have full' := canonical'.full
      constructor <;> omega
    · exact absurd same (magnitude_apart zero zero')
  · by_cases zero' : b'.significand = 0
    · exact absurd same.symm (magnitude_apart zero' zero)
    · have amount := magnitude_amount zero
      rw [same, magnitude_amount zero'] at amount
      have rounds := holds_rounds (shortest_holds canonical zero .up)
      rw [← amount] at rounds
      exact rounds_unique canonical canonical' rounds (holds_rounds (shortest_holds canonical' zero' .up))

theorem measure_characters {x : Float} (finite : x.isFinite) : (measure x).toList =
    (if (Binary.ofFloat x).negative then ['-'] else []) ++ Layout.measure.magnitude (Binary.ofFloat x) := by
  simp only [measure, Layout.text, String.toList_ofList, Layout.characters, Float.isNaN_eq_decide_eq_nan,
    Doubles.finite_number finite, decide_false, finite, Bool.false_eq_true, if_false, if_true]

theorem unsigned_magnitude (b : Binary) (rest : List Char) : Layout.measure.magnitude b ≠ '-' :: rest := by
  intro same
  rcases magnitude_characters b '-' (by rw [same]; exact .head _) with digit | point
  · exact absurd digit (by decide)
  · exact absurd point (by decide)

-- Finite doubles with one spelling are one double; zero and negative zero are told apart.
theorem measure_injective {x y : Float} (hx : x.isFinite) (hy : y.isFinite) (same : measure x = measure y) :
    x = y := by
  have characters := congrArg String.toList same
  rw [measure_characters hx, measure_characters hy] at characters
  have signs : (Binary.ofFloat x).negative = (Binary.ofFloat y).negative := by
    cases sx : (Binary.ofFloat x).negative with
    | true =>
      cases sy : (Binary.ofFloat y).negative with
      | true => rfl
      | false =>
        rw [sx, sy] at characters
        exact absurd characters.symm (unsigned_magnitude _ _)
    | false =>
      cases sy : (Binary.ofFloat y).negative with
      | false => rfl
      | true =>
        rw [sx, sy] at characters
        exact absurd characters (unsigned_magnitude _ _)
  rw [signs] at characters
  obtain ⟨significand, exponent⟩ := magnitude_injective (Doubles.ofFloat_canonical x hx)
    (Doubles.ofFloat_canonical y hy) (List.append_cancel_left characters)
  apply Doubles.eq_of_ofFloat
  generalize Binary.ofFloat x = b at *
  generalize Binary.ofFloat y = b' at *
  cases b
  cases b'
  simp only [Binary.mk.injEq]
  exact ⟨signs, significand, exponent⟩

end Solid.Decimal
