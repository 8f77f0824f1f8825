import Solid.Proofs.Nearest
import Solid.Session
namespace Solid.Report
open Decimal (Binary isDigit numeralAmount)
open Doubles (Near Canonical whole)
open Float.Model.UnpackedFloat

def isNumeric (c : Char) : Bool := isDigit c || c = '.'

def numeralOf (shown : String) : List Char := shown.toList.takeWhile isNumeric

def unitOf (shown : String) : List Char := shown.toList.dropWhile isNumeric

-- The microseconds in a unit.
def microsIn (unit : List Char) : ℕ :=
  if unit = ['s'] then 1000000 else if unit = ['m', 's'] then 1000 else 1

-- The microseconds that are shown.
def told (shown : String) : ℚ := numeralAmount (numeralOf shown) * microsIn (unitOf shown)

def decimals (shown : String) : ℕ := ((numeralOf shown).dropWhile (· ≠ '.')).length - 1

-- Half a unit of the last digit, in microseconds. Those are never rounded themselves.
def slack (shown : String) : ℚ :=
  if unitOf shown = ['µ', 's'] then 0 else microsIn (unitOf shown) / 10 ^ decimals shown / 2

-- A number of microseconds, and the hundredths of a unit that it is shown as. Both the number and the
-- quotient are rounded to doubles on the way.
def Shown (unit micros hundredths : ℕ) : Prop :=
  ∃ dividend quotient : Binary, Canonical dividend ∧ Canonical quotient ∧ dividend.Rounds micros ∧
    quotient.Rounds (dividend.amount / unit) ∧ Near hundredths (100 * quotient.amount)

section
variable {unit m n h k : ℕ}

theorem shown_monotone (shown : Shown unit m h) (shown' : Shown unit n k) (below : m ≤ n) : h ≤ k := by
  obtain ⟨b, q, canonical, canonical', rounds, rounds', near⟩ := shown
  obtain ⟨c, r, canonical₂, canonical₂', rounds₂, rounds₂', near₂⟩ := shown'
  have dividends := Decimal.rounds_monotone canonical canonical₂ rounds rounds₂ (by exact_mod_cast below)
  have quotients := Decimal.rounds_monotone canonical' canonical₂' rounds' rounds₂'
    (div_le_div_of_nonneg_right dividends (by positivity))
  exact Doubles.near_monotone near near₂ (by linarith)

-- Whole units are shown as such.
theorem shown_whole (positive : k ≠ 0) (some : unit ≠ 0) (small : k * unit < 2 ^ 53) :
    Shown unit (k * unit) (100 * k) := by
  have less : k < 2 ^ 53 := (Nat.le_mul_of_pos_right k (Nat.pos_of_ne_zero some)).trans_lt small
  have product := Nat.mul_ne_zero positive some
  have near := Doubles.near_self (100 * k)
  have divided : ((k * unit : ℕ) : ℚ) / unit = k := by
    have : (unit : ℚ) ≠ 0 := by exact_mod_cast some
    push_cast
    field_simp
  refine ⟨_, _, Doubles.whole_canonical product small false, Doubles.whole_canonical positive less false,
    Doubles.whole_rounds product small, ?_, ?_⟩
  · rw [Doubles.whole_stands product small, divided]
    exact Doubles.whole_rounds positive less
  · rw [Doubles.whole_stands positive less]
    exact_mod_cast near

-- Below ten thousand million units the quotient is off by less than a microsecond.
theorem quotient_close {q : Binary} {x : ℚ} (canonical : Canonical q) (rounds : q.Rounds x) (bounded : x ≤ 10 ^ 10) :
    |q.amount - x| < 1 / 10 ^ 6 := by
  have small := Decimal.rounds_monotone canonical (Doubles.whole_canonical (by norm_num) (by norm_num) false) rounds
    (Doubles.whole_rounds (n := 10 ^ 10) (by norm_num) (by norm_num)) (by exact_mod_cast bounded)
  rw [Doubles.whole_stands (by norm_num) (by norm_num)] at small
  have place : q.exponent ≤ -19 := by
    by_contra above
    have full : 2 ^ 52 ≤ q.significand := canonical.full.resolve_right (by omega)
    have least : (2 : ℚ) ^ (-18 : ℤ) ≤ 2 ^ q.exponent := zpow_le_zpow_right₀ (by norm_num) (by omega)
    have large : (2 : ℚ) ^ 52 * 2 ^ (-18 : ℤ) ≤ q.amount :=
      mul_le_mul (by exact_mod_cast full) least (by positivity) (by positivity)
    norm_num at large small
    linarith
  have least : (2 : ℚ) ^ q.exponent ≤ 2 ^ (-19 : ℤ) := zpow_le_zpow_right₀ (by norm_num) place
  have error := Decimal.rounds_error rounds
  norm_num at least ⊢
  linarith

-- The two roundings do not add up: any other number of microseconds is a whole microsecond away from
-- the middle between two hundredths.
theorem shown_close (shown : Shown (200 * k) n h) (some : k ≠ 0) (few : k ≤ 5000) (positive : n ≠ 0)
    (small : n < 2 ^ 53) (bounded : n ≤ 200 * k * 10 ^ 10) : |((2 * k * h : ℕ) : ℚ) - n| ≤ k := by
  obtain ⟨b, q, canonical, canonical', rounds, rounds', low, high, _⟩ := shown
  have amount : b.amount = n := by
    obtain ⟨significands, exponents⟩ := Decimal.rounds_unique canonical
      (Doubles.whole_canonical positive small false) rounds (Doubles.whole_rounds positive small)
    rw [← Doubles.whole_stands positive small false, Binary.amount, Binary.amount, significands, exponents]
  have filled : (0 : ℚ) < k := by exact_mod_cast Nat.pos_of_ne_zero some
  have few : (k : ℚ) ≤ 5000 := by exact_mod_cast few
  have bounded : (n : ℚ) ≤ 200 * k * 10 ^ 10 := by exact_mod_cast bounded
  rw [amount] at rounds'
  push_cast at rounds'
  have close := quotient_close canonical' rounds' (by rw [div_le_iff₀ (by positivity)]; linarith)
  obtain ⟨x, exact⟩ : ∃ x : ℚ, (n : ℚ) / (200 * k) = x := ⟨_, rfl⟩
  have product : (n : ℚ) = 200 * k * x := by
    rw [← exact]
    field_simp
  rw [exact, abs_lt] at close
  obtain ⟨below, above⟩ := close
  have near : |((2 * k * h : ℕ) : ℚ) - n| < k + 1 := by
    rw [product, abs_lt]
    push_cast
    constructor <;> nlinarith
  have whole : |((2 * k * h : ℕ) : ℤ) - n| < k + 1 := by exact_mod_cast near
  exact_mod_cast Int.lt_add_one_iff.mp whole

end

theorem roundEven_near (r : Decimal.Ratio) (positive : 0 < r.denominator) :
    Near (Decimal.roundEven r) (r.numerator / r.denominator) := by
  have near := Doubles.represents_near (Doubles.represents_fraction (m := r.numerator) positive)
  have rounded : Decimal.roundEven r = ExtendedMantissa.roundedMantissa (.ofMantissaAndAccuracy
      (r.numerator / r.denominator) (accuracyOfFraction (r.numerator % r.denominator) r.denominator)) := by
    unfold Decimal.roundEven accuracyOfFraction
    dsimp only
    by_cases none : r.numerator % r.denominator = 0
    · rw [none, if_pos (by omega), if_pos rfl]
      rfl
    · rw [if_neg none]
      rcases lt_trichotomy (2 * (r.numerator % r.denominator)) r.denominator with less | equal | more
      · rw [if_pos less, Nat.compare_eq_lt.mpr less]
        rfl
      · rw [if_neg equal.not_lt, if_neg equal.not_gt, Nat.compare_eq_eq.mpr equal]
        change _ = r.numerator / r.denominator + r.numerator / r.denominator % 2
        split <;> omega
      · rw [if_neg more.not_gt, if_pos more, Nat.compare_eq_gt.mpr more]
        rfl
  rw [rounded]
  exact near

theorem toHundredths_near (x : Float) : Near (Decimal.toHundredths x) (100 * (Binary.ofFloat x).amount) := by
  have near := roundEven_near ⟨100 * (Binary.ofFloat x).magnitude.numerator, (Binary.ofFloat x).magnitude.denominator⟩
    (Nat.pos_of_ne_zero (Decimal.magnitude_denominator _))
  rw [← Decimal.ratio_amount, ← mul_div_assoc]
  exact_mod_cast near

theorem word_limited {n : ℕ} (bounded : n < 2 ^ 64) : (n : ℚ) < Doubles.limit := by
  have word : (n : ℚ) < 2 ^ (64 : ℤ) := by exact_mod_cast bounded
  have top : (2 : ℚ) ^ (64 : ℤ) ≤ 2 ^ (971 : ℤ) := zpow_le_zpow_right₀ (by norm_num) (by norm_num)
  unfold Doubles.limit
  generalize (2 : ℚ) ^ (971 : ℤ) = top' at *
  nlinarith

-- The two units that have decimals.
theorem quotient_shown {n unit : ℕ} {d : Float} {c : Binary} (held : Doubles.parts d = Doubles.ofBinary c)
    (unsigned : c.negative = false) (amount : c.amount = unit) (some : unit ≠ 0) (positive : 0 < n)
    (bounded : n < 2 ^ 64) : Shown unit n (Decimal.toHundredths (Float.ofNat n / d)) := by
  obtain ⟨b, canonical, unsigned', rounds, converted⟩ := Doubles.ofNat_nearest positive (word_limited bounded)
  have filled : (1 : ℚ) ≤ unit := by exact_mod_cast Nat.one_le_iff_ne_zero.mpr some
  have least := Decimal.rounds_monotone (Doubles.whole_canonical one_ne_zero (by norm_num) false) canonical
    (Doubles.whole_rounds one_ne_zero (by norm_num)) rounds (by exact_mod_cast positive)
  rw [Doubles.whole_stands one_ne_zero (by norm_num), Nat.cast_one] at least
  have nonzero := Decimal.amount_nonzero (b := b) (by linarith)
  have nonzero' := Decimal.amount_nonzero (b := c) (by linarith)
  have limited : b.amount / c.amount < Doubles.limit := by
    have := Doubles.rounds_limit canonical (Decimal.rounds_amount b)
    rw [amount]
    exact (div_le_self (by linarith) filled).trans_lt this
  obtain ⟨q, canonical', _, rounds', divided⟩ :=
    Doubles.quotient_nearest converted held unsigned' unsigned nonzero nonzero' limited
  obtain ⟨_, taken⟩ := Doubles.taken canonical' divided
  have near := toHundredths_near (Float.ofNat n / d)
  rw [taken] at near
  rw [amount] at rounds'
  exact ⟨b, q, canonical, canonical', rounds, rounds', near⟩

theorem thousand_parts : Doubles.parts 1000.0 = Doubles.ofBinary (whole false (200 * 5)) := by
  rfl

theorem million_parts : Doubles.parts 1000000.0 = Doubles.ofBinary (whole false (200 * 5000)) := by
  rfl

-- A numeral is followed by its unit.
theorem shown_parts {shown : String} {run unit : List Char} (text : shown.toList = run ++ unit)
    (numeric : ∀ c ∈ run, isNumeric c = true) (behind : unit.takeWhile isNumeric = []) :
    numeralOf shown = run ∧ unitOf shown = unit := by
  unfold numeralOf unitOf
  rw [text, List.takeWhile_append_of_pos numeric, List.dropWhile_append_of_pos numeric, behind, List.append_nil]
  have kept := List.takeWhile_append_dropWhile (p := isNumeric) (l := unit)
  rw [behind, List.nil_append] at kept
  exact ⟨rfl, by rw [kept]⟩

theorem digits_numeric (n : ℕ) : ∀ c ∈ Decimal.digits n, isNumeric c = true := by
  intro c member
  unfold isNumeric
  rw [Decimal.digits_isDigit n c member]
  rfl

theorem told_whole (n : ℕ) : told (Decimal.text n ++ "µs") = n ∧ slack (Decimal.text n ++ "µs") = 0 := by
  have text : (Decimal.text n ++ "µs").toList = Decimal.digits n ++ ['µ', 's'] := by
    rw [String.toList_append, Decimal.text, String.toList_ofList]
    rfl
  obtain ⟨numeral, unit⟩ := shown_parts text (digits_numeric n) rfl
  have amount := Decimal.whole_amount (Decimal.digits_isDigit n)
  rw [Decimal.value_digits] at amount
  constructor
  · rw [told, numeral, unit, amount]
    exact mul_one _
  · rw [slack, unit, if_pos rfl]

theorem hundredths_list (n : ℕ) : (Decimal.hundredths n).toList =
    Decimal.digits (n / 100) ++ '.' :: (Decimal.digits (n % 100 / 10) ++ Decimal.digits (n % 100 % 10)) := by
  simp only [Decimal.hundredths, Decimal.text, String.toList_append, String.toList_ofList, List.append_assoc]
  rfl

theorem digits_single {d : ℕ} (small : d < 10) : Decimal.digits d = [Decimal.digitChar d] := by
  rw [Decimal.digits, if_pos small]

theorem hundredths_amount (n : ℕ) : numeralAmount (Decimal.hundredths n).toList = n / 100 := by
  have tens : n % 100 / 10 < 10 := by omega
  have ones : n % 100 % 10 < 10 := by omega
  have behind : ∀ c ∈ Decimal.digits (n % 100 / 10) ++ Decimal.digits (n % 100 % 10), isDigit c = true :=
    List.forall_mem_append.mpr ⟨Decimal.digits_isDigit _, Decimal.digits_isDigit _⟩
  have whole := Decimal.value_digits (n / 100)
  have value : Decimal.value
      (Decimal.digits (n / 100) ++ (Decimal.digits (n % 100 / 10) ++ Decimal.digits (n % 100 % 10))) = n := by
    rw [digits_single tens, digits_single ones]
    unfold Decimal.value at whole ⊢
    simp only [List.foldl_append, List.foldl_cons, List.foldl_nil, whole, Decimal.digitValue_digitChar _ tens,
      Decimal.digitValue_digitChar _ ones]
    omega
  rw [hundredths_list, Decimal.pointed_amount (Decimal.digits_isDigit _) behind, value, digits_single tens,
    digits_single ones]
  norm_num

theorem told_hundredths (n : ℕ) (unit : String) (behind : unit.toList.takeWhile isNumeric = [])
    (decimal : unit.toList ≠ ['µ', 's']) :
    told (Decimal.hundredths n ++ unit) = n / 100 * microsIn unit.toList ∧
      slack (Decimal.hundredths n ++ unit) = microsIn unit.toList / 200 := by
  have numeric : ∀ c ∈ (Decimal.hundredths n).toList, isNumeric c = true := by
    rw [hundredths_list, List.forall_mem_append, List.forall_mem_cons, List.forall_mem_append]
    exact ⟨digits_numeric _, rfl, digits_numeric _, digits_numeric _⟩
  obtain ⟨numeral, rest⟩ := shown_parts String.toList_append numeric behind
  have places : decimals (Decimal.hundredths n ++ unit) = 2 := by
    have pointless : ∀ c ∈ Decimal.digits (n / 100), decide (c ≠ '.') = true := fun c member =>
      decide_eq_true (Decimal.pointless (Decimal.digits_isDigit _) c member)
    rw [decimals, numeral, hundredths_list, List.dropWhile_append_of_pos pointless, digits_single (by omega),
      digits_single (by omega)]
    rfl
  constructor
  · rw [told, numeral, rest, hundredths_amount]
  · rw [slack, rest, if_neg decimal, places]
    ring

section
variable {n : ℕ} (small : n < 2 ^ 64)
include small

-- A number of microseconds in a unit of `200 * k` of them, where `k` is half of a hundredth.
theorem hundredths_shown {k : ℕ} {d : Float} {unit : String} (some : 0 < n)
    (text : duration n = Decimal.hundredths (Decimal.toHundredths (Float.ofNat n / d)) ++ unit)
    (held : Doubles.parts d = Doubles.ofBinary (whole false (200 * k))) (filled : k ≠ 0) (few : 200 * k < 2 ^ 53)
    (worth : microsIn unit.toList = 200 * k) (behind : unit.toList.takeWhile isNumeric = [])
    (decimal : unit.toList ≠ ['µ', 's']) :
    ∃ h, Shown (200 * k) n h ∧ told (duration n) = (2 * k * h : ℕ) ∧ slack (duration n) = k := by
  have filled' : 200 * k ≠ 0 := by omega
  have shown := quotient_shown held rfl (Doubles.whole_stands filled' few false) filled' some small
  obtain ⟨amount, rest⟩ := told_hundredths (Decimal.toHundredths (Float.ofNat n / d)) unit behind decimal
  rw [← text, worth] at amount rest
  refine ⟨_, shown, amount.trans ?_, rest.trans ?_⟩ <;>
  · push_cast
    ring

theorem milliseconds_shown (least : 1000 ≤ n) (most : n < 1000000) :
    ∃ h, Shown (200 * 5) n h ∧ told (duration n) = (2 * 5 * h : ℕ) ∧ slack (duration n) = 5 := by
  have text : duration n = Decimal.hundredths (Decimal.toHundredths (Float.ofNat n / 1000.0)) ++ "ms" := by
    rw [duration, if_neg (by omega), if_pos most]
  exact hundredths_shown small (by omega) text thousand_parts (by norm_num) (by norm_num) rfl rfl (by decide)

theorem seconds_shown (least : 1000000 ≤ n) :
    ∃ h, Shown (200 * 5000) n h ∧ told (duration n) = (2 * 5000 * h : ℕ) ∧ slack (duration n) = 5000 := by
  have text : duration n = Decimal.hundredths (Decimal.toHundredths (Float.ofNat n / 1000000.0)) ++ "s" := by
    rw [duration, if_neg (by omega), if_neg (by omega)]
  exact hundredths_shown small (by omega) text million_parts (by norm_num) (by norm_num) rfl rfl (by decide)

end

theorem duration_whole {n : ℕ} (small : n < 1000) :
    told (duration n) = n ∧ slack (duration n) = 0 := by
  rw [duration, if_pos small]
  exact told_whole n

-- One of the three forms, by the number of microseconds.
theorem duration_close {n : ℕ} (small : n < 2 ^ 53) : |told (duration n) - n| ≤ slack (duration n) ∧
    slack (duration n) = if n < 1000 then 0 else if n < 1000000 then 5 else 5000 := by
  rcases lt_or_ge n 1000 with micros | atLeast
  · obtain ⟨exact, none⟩ := duration_whole micros
    rw [exact, none, if_pos micros, sub_self, abs_zero]
    exact ⟨le_rfl, rfl⟩
  rcases lt_or_ge n 1000000 with millis | seconds
  · obtain ⟨h, shown, amount, half⟩ := milliseconds_shown (small.trans (by norm_num)) atLeast millis
    rw [amount, half, if_neg (by omega), if_pos millis]
    exact ⟨shown_close shown (by norm_num) (by norm_num) (by omega) small (by omega), rfl⟩
  · obtain ⟨h, shown, amount, half⟩ := seconds_shown (small.trans (by norm_num)) seconds
    rw [amount, half, if_neg (by omega), if_neg (by omega)]
    exact ⟨shown_close shown (by norm_num) (by norm_num) (by omega) small (by omega), rfl⟩

-- What is shown stays on its side of the two boundaries. A time just below one may be shown as the
-- boundary, and no longer time as less.
theorem told_below_second {n : ℕ} (less : n < 1000000) : told (duration n) ≤ 1000000 := by
  rcases lt_or_ge n 1000 with micros | atLeast
  · rw [(duration_whole micros).1]
    exact_mod_cast less.le
  · obtain ⟨h, shown, amount, -⟩ := milliseconds_shown (less.trans (by norm_num)) atLeast less
    have most := shown_monotone shown (shown_whole (k := 1000) (by norm_num) (by norm_num) (by norm_num)) less.le
    rw [amount]
    exact_mod_cast (by omega : 2 * 5 * h ≤ 1000000)

theorem told_from_second {n : ℕ} (small : n < 2 ^ 64) (least : 1000000 ≤ n) : 1000000 ≤ told (duration n) := by
  obtain ⟨h, shown, amount, -⟩ := seconds_shown small least
  have most := shown_monotone (shown_whole (k := 1) (by norm_num) (by norm_num) (by norm_num)) shown least
  rw [amount]
  exact_mod_cast (by omega : 1000000 ≤ 2 * 5000 * h)

theorem told_from_millisecond {n : ℕ} (small : n < 2 ^ 64) (least : 1000 ≤ n) : 1000 ≤ told (duration n) := by
  rcases lt_or_ge n 1000000 with millis | seconds
  · obtain ⟨h, shown, amount, -⟩ := milliseconds_shown small least millis
    have most := shown_monotone (shown_whole (k := 1) (by norm_num) (by norm_num) (by norm_num)) shown least
    rw [amount]
    exact_mod_cast (by omega : 1000 ≤ 2 * 5 * h)
  · have := told_from_second small seconds
    linarith

theorem told_monotone {m n : ℕ} (below : m ≤ n) (small : n < 2 ^ 64) : told (duration m) ≤ told (duration n) := by
  have small' : m < 2 ^ 64 := below.trans_lt small
  rcases lt_or_ge m 1000 with micros | atLeast
  · rw [(duration_whole micros).1]
    rcases lt_or_ge n 1000 with micros' | atLeast'
    · rw [(duration_whole micros').1]
      exact_mod_cast below
    · have low : (m : ℚ) ≤ 1000 := by exact_mod_cast micros.le
      exact low.trans (told_from_millisecond small atLeast')
  rcases lt_or_ge m 1000000 with millis | seconds
  · rcases lt_or_ge n 1000000 with millis' | seconds'
    · obtain ⟨h, shown, amount, -⟩ := milliseconds_shown small' atLeast millis
      obtain ⟨k, shown', amount', -⟩ := milliseconds_shown small (atLeast.trans below) millis'
      rw [amount, amount']
      exact_mod_cast Nat.mul_le_mul_left (2 * 5) (shown_monotone shown shown' below)
    · exact (told_below_second millis).trans (told_from_second small seconds')
  · obtain ⟨h, shown, amount, -⟩ := seconds_shown small' seconds
    obtain ⟨k, shown', amount', -⟩ := seconds_shown small (seconds.trans below)
    rw [amount, amount']
    exact_mod_cast Nat.mul_le_mul_left (2 * 5000) (shown_monotone shown shown' below)

theorem duration_faithful :
    (∀ n < 2 ^ 53, |told (duration n) - n| ≤ slack (duration n) ∧
      slack (duration n) = if n < 1000 then 0 else if n < 1000000 then 5 else 5000) ∧
    ∀ m n, m ≤ n → n < 2 ^ 64 → told (duration m) ≤ told (duration n) :=
  ⟨fun _ small => duration_close small, fun _ _ below small => told_monotone below small⟩

-- A tie in the decimals, and the last time below the first boundary that is shown as the boundary.
theorem duration_faithful_boundary :
    (|told (duration 1005) - (1005 : ℕ)| ≤ slack (duration 1005) ∧
      slack (duration 1005) = if 1005 < 1000 then 0 else if 1005 < 1000000 then 5 else 5000) ∧
    told (duration 999999) ≤ told (duration 1000000) :=
  ⟨duration_faithful.1 1005 (by norm_num), duration_faithful.2 999999 1000000 (by norm_num) (by norm_num)⟩

end Solid.Report
