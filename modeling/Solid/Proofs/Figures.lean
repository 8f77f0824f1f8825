import Solid.Proofs.Decimals
import Solid.Proofs.Numerals
import Solid.Proofs.Statements
namespace Solid.Toml
open Decimal (Binary Scaled isDigit nearest negateIf splitSign value infinite zeros)
open Doubles (Canonical parts ofBinary)
open Json (plainSpelling Spelling)

section
variable {run whole fraction rest : List Char}

theorem moreDigits_run {c : Char} (digits : ∀ d ∈ run, isDigit d = true) (ends : isDigit c = false) (solid : c ≠ '_') :
    moreDigits isDigit (run ++ c :: rest) = (run, c :: rest) := by
  induction run with
  | nil =>
    rw [List.nil_append]
    unfold moreDigits
    split
    · next same => exact absurd (List.cons.inj same).1 solid
    · next same =>
      cases same
      exact if_neg (by simp [ends])
    · next same => cases same
  | cons d run ih =>
    have digit := digits d (.head _)
    have other : d ≠ '_' := by
      rintro rfl
      exact absurd digit (by decide)
    rw [List.cons_append, moreDigits, if_pos digit, ih fun d member => digits d (.tail _ member)]
    exact fun _ _ same => absurd same other

theorem digitRun_read {c : Char} (filled : run ≠ []) (digits : ∀ d ∈ run, isDigit d = true) (ends : isDigit c = false)
    (solid : c ≠ '_') : digitRun? isDigit (run ++ c :: rest) = some (run, c :: rest) := by
  obtain ⟨d, more, rfl⟩ := List.exists_cons_of_ne_nil filled
  rw [List.cons_append, digitRun?, if_pos (digits d (.head _)),
    moreDigits_run (fun d member => digits d (.tail _ member)) ends solid]

theorem unsigned_read (filled : whole ≠ []) (digits : ∀ d ∈ whole, isDigit d = true)
    (lead : whole = ['0'] ∨ whole.head? ≠ some '0') :
    unsigned? (whole ++ '.' :: rest) = some (whole, '.' :: rest) := by
  rcases lead with rfl | lead
  · rfl
  · have read := @digitRun_read whole rest '.' filled digits rfl (by decide)
    unfold unsigned?
    split
    · next same =>
      obtain ⟨d, more, rfl⟩ := List.exists_cons_of_ne_nil filled
      exact absurd (congrArg some (List.cons.inj same).1) lead
    · exact read

theorem scale_read (filled : fraction ≠ []) (digits : ∀ d ∈ fraction, isDigit d = true) :
    scale? ('.' :: (fraction ++ '\n' :: rest)) = some (fraction, 0, '\n' :: rest) := by
  rw [scale?, digitRun_read filled digits rfl (by decide)]
  rfl

-- What is left behind digits begins with a digit or the point, so that no date and no time is read.
theorem fixed_left {places n : Nat} {left : List Char} (digits : ∀ d ∈ run, isDigit d = true)
    (read : fixed? places (run ++ '.' :: rest) = some (n, left)) : ∃ c more, left = c :: more ∧ c ≠ '-' ∧ c ≠ ':' := by
  unfold fixed? at read
  dsimp only at read
  split at read
  · next held =>
    cases read
    obtain ⟨long, all⟩ := held
    have inside : places ≤ run.length := by
      refine Nat.le_of_not_lt fun beyond => ?_
      have point : '.' ∈ (run ++ '.' :: rest).take places := by
        rw [List.take_append, List.mem_append]
        obtain ⟨k, more⟩ : ∃ k, places - run.length = k + 1 := ⟨places - run.length - 1, by omega⟩
        rw [more, List.take_succ_cons]
        exact .inr (.head _)
      exact absurd (List.all_eq_true.mp all _ point) (by decide)
    rw [List.drop_append_of_le_length inside]
    cases shape : run.drop places with
    | nil => exact ⟨'.', rest, rfl, by decide, by decide⟩
    | cons d more =>
      have member : d ∈ run.drop places := shape ▸ List.mem_cons_self
      have digit := digits d (List.mem_of_mem_drop member)
      refine ⟨d, _, rfl, ?_, ?_⟩ <;>
      · rintro rfl
        exact absurd digit (by decide)
  · cases read

theorem skip_none {c d : Char} (other : d ≠ c) : skip? c (d :: rest) = none := if_neg other

theorem date_none (digits : ∀ d ∈ run, isDigit d = true) : date? (run ++ '.' :: rest) = none := by
  unfold date?
  cases read : fixed? 4 (run ++ '.' :: rest) with
  | none => rfl
  | some year =>
    obtain ⟨c, more, shape, dash, -⟩ := fixed_left digits read
    change (skip? '-' year.2 >>= _) = none
    rw [shape, skip_none dash]
    rfl

theorem time_none (digits : ∀ d ∈ run, isDigit d = true) : time? (run ++ '.' :: rest) = none := by
  unfold time?
  cases read : twoDigits? 0 23 (run ++ '.' :: rest) with
  | none => rfl
  | some hour =>
    obtain ⟨c, more, shape, -, colon⟩ := fixed_left digits (Option.filter_eq_some_iff.mp read).1
    change (skip? ':' hour.2 >>= _) = none
    rw [shape, skip_none colon]
    rfl

theorem fixed_minus (places : Nat) : fixed? (places + 1) ('-' :: rest) = none := by
  refine if_neg fun held => ?_
  have first := List.all_eq_true.mp held.2 '-' (.head _)
  exact absurd first (by decide)

theorem moment_none (negative : Bool) (digits : ∀ d ∈ run, isDigit d = true) :
    moment? ((if negative then ['-'] else []) ++ (run ++ '.' :: rest)) = none := by
  cases negative with
  | false =>
    unfold moment?
    rw [if_neg (by decide), List.nil_append, date_none digits, time_none digits]
  | true =>
    rw [if_pos rfl, List.singleton_append]
    unfold moment? date? time? twoDigits?
    rw [fixed_minus, fixed_minus]
    rfl

end

theorem signed_split (negative : Bool) {whole rest : List Char} (filled : whole ≠ [])
    (digits : ∀ d ∈ whole, isDigit d = true) :
    splitSign ((if negative then ['-'] else []) ++ (whole ++ rest)) = (negative, whole ++ rest) := by
  cases negative with
  | true => rfl
  | false =>
    obtain ⟨d, more, rfl⟩ := List.exists_cons_of_ne_nil filled
    have digit := digits d (.head _)
    rw [if_neg (by decide), List.nil_append, List.cons_append]
    unfold splitSign
    split
    · next same =>
      rw [(List.cons.inj same).1] at digit
      exact absurd digit (by decide)
    · next same =>
      rw [(List.cons.inj same).1] at digit
      exact absurd digit (by decide)
    · rfl

-- A spelling with a point stands for the double nearest to its amount.
theorem decimal_read {s : Spelling} (proper : s.Proper) (pointed : s.fraction ≠ []) (unmarked : s.mark = none)
    {x : Float} (finite : x.isFinite)
    (same : negateIf s.negative (nearest (value (s.whole ++ s.fraction)) (-s.fraction.length)) = x) (rest : List Char) :
    number? (s.text ++ '\n' :: rest) = some (.float x, '\n' :: rest) := by
  have text : s.text ++ '\n' :: rest = (if s.negative then ['-'] else []) ++
      (s.whole ++ '.' :: (s.fraction ++ '\n' :: rest)) := by
    simp [Spelling.text, Spelling.magnitude, Spelling.tail, unmarked, pointed]
  have proper' : (x == infinite) = false := by
    refine Bool.eq_false_iff.mpr fun equal => ?_
    have impossible := Doubles.beq_finite finite (BEq.symm equal)
    exact absurd impossible (by decide)
  have decimal : decimal? (s.text ++ '\n' :: rest) = some (x, '\n' :: rest) := by
    unfold decimal?
    rw [text, signed_split _ proper.whole proper.wholeDigits]
    dsimp only
    rw [unsigned_read proper.whole proper.wholeDigits proper.lead]
    change (scale? _ >>= _) = _
    rw [scale_read pointed proper.fractionDigits]
    dsimp only [Option.bind_eq_bind, Option.bind_some]
    rw [zero_sub, same, proper']
    rfl
  unfold number? float?
  rw [decimal, text, moment_none _ proper.wholeDigits]

theorem value_shifted (run : List Char) : value (run ++ ['0']) = 10 * value run := by
  simp [value, Decimal.digitValue]

theorem pointed_plain {s : Scaled} (nonzero : s.coefficient ≠ 0) : Decimal.numeralAmount (s.plain true) = s.amount := by
  have flat := Decimal.plain_amount nonzero
  rw [← flat]
  by_cases above : 0 ≤ s.power
  · have digits : ∀ c ∈ Decimal.digits s.coefficient ++ zeros s.power.toNat, isDigit c = true :=
      List.forall_mem_append.mpr ⟨Decimal.digits_isDigit _, Decimal.zeros_isDigit _⟩
    have zero : ∀ c ∈ ['0'], isDigit c = true := List.forall_mem_singleton.mpr rfl
    have whole : s.plain false = Decimal.digits s.coefficient ++ zeros s.power.toNat := by
      rw [Scaled.plain, if_pos above, if_neg (by decide), List.append_nil]
    have pointed : s.plain true = s.plain false ++ '.' :: ['0'] := by
      rw [whole, Scaled.plain, if_pos above, if_pos rfl]
    rw [← whole] at digits
    rw [pointed, Decimal.pointed_amount digits zero, Decimal.whole_amount digits, value_shifted]
    push_cast
    rw [List.length_singleton, pow_one, mul_div_cancel_left₀ _ (by norm_num)]
  · rw [Scaled.plain, Scaled.plain, if_neg above, if_neg above]

theorem plain_pointed (negative : Bool) {s : Scaled} (nonzero : s.coefficient ≠ 0) :
    (plainSpelling negative s).fraction ≠ [] ∧ (plainSpelling negative s).mark = none ∧
      (plainSpelling negative s).negative = negative := by
  obtain ⟨d, more, front, lead⟩ := Decimal.digits_lead s.coefficient nonzero
  unfold plainSpelling
  dsimp only
  split
  · exact ⟨List.cons_ne_nil _ _, rfl, rfl⟩
  · split
    · refine ⟨List.ne_nil_of_length_pos ?_, rfl, rfl⟩
      rw [List.length_drop]
      omega
    · refine ⟨?_, rfl, rfl⟩
      rw [front]
      simp

theorem plain_value (negative : Bool) {s : Scaled} (nonzero : s.coefficient ≠ 0) :
    (value ((plainSpelling negative s).whole ++ (plainSpelling negative s).fraction) : ℚ) /
      10 ^ (plainSpelling negative s).fraction.length = s.amount := by
  obtain ⟨proper, magnitude⟩ := Json.plain_proper negative nonzero
  obtain ⟨pointed, unmarked, -⟩ := plain_pointed negative nonzero
  have text : (plainSpelling negative s).magnitude =
      (plainSpelling negative s).whole ++ '.' :: (plainSpelling negative s).fraction := by
    rw [Spelling.magnitude, Spelling.tail, unmarked, if_neg pointed, List.append_nil]
  rw [← pointed_plain nonzero, ← magnitude, text, Decimal.pointed_amount proper.wholeDigits proper.fractionDigits]

-- The sign is read apart from the digits.
theorem negated_same {x y : Float} (finite : x.isFinite)
    (same : parts y = ofBinary { Binary.ofFloat x with negative := false }) :
    negateIf (Binary.ofFloat x).negative y = x := by
  have canonical := Doubles.ofFloat_canonical x finite
  have canonical' : Canonical { Binary.ofFloat x with negative := false } :=
    ⟨canonical.small, canonical.least, canonical.greatest, canonical.full⟩
  obtain ⟨finite', taken⟩ := Doubles.taken canonical' same
  apply Doubles.eq_of_parts
  rw [Doubles.parts_finite x finite]
  cases sign : (Binary.ofFloat x).negative with
  | false =>
    rw [negateIf, if_neg (by decide), same, ← sign]
  | true =>
    rw [negateIf, if_pos rfl, Doubles.parts_neg finite', taken, Doubles.flipped]
    dsimp only
    rw [Bool.not_false, ← sign]

-- How a finite double is spelled in a document.
def figure (b : Binary) : Spelling :=
  if b.significand = 0 then Json.zeroSpelling b.negative else plainSpelling b.negative (b.shortest .up)

structure Figured (b : Binary) (s : Spelling) : Prop where
  proper : s.Proper
  pointed : s.fraction ≠ []
  unmarked : s.mark = none
  negative : s.negative = b.negative
  magnitude : s.magnitude = Decimal.Layout.setting.magnitude b

theorem figure_figured (b : Binary) : Figured b (figure b) := by
  unfold figure
  by_cases zero : b.significand = 0
  · rw [if_pos zero]
    refine ⟨Json.zero_proper _, List.cons_ne_nil _ _, rfl, rfl, ?_⟩
    rw [Decimal.Layout.magnitude, if_pos zero]
    rfl
  · have nonzero := Decimal.shortest_nonzero .up b zero
    obtain ⟨proper, magnitude⟩ := Json.plain_proper b.negative nonzero
    obtain ⟨pointed, unmarked, negative⟩ := plain_pointed b.negative nonzero
    rw [if_neg zero]
    refine ⟨proper, pointed, unmarked, negative, magnitude.trans ?_⟩
    rw [Decimal.Layout.magnitude, if_neg zero]
    rfl

theorem figure_characters {x : Float} (finite : x.isFinite) :
    Decimal.Layout.setting.characters x = (figure (Binary.ofFloat x)).text := by
  have figured := figure_figured (Binary.ofFloat x)
  simp only [Decimal.Layout.characters, Float.isNaN_eq_decide_eq_nan, Doubles.finite_number finite, decide_false,
    finite, Bool.false_eq_true, if_false, if_true, Spelling.text, figured.negative, figured.magnitude]

theorem zero_read : parts (nearest 0 (-(1 : ℕ))) = .zero .positive := by
  have zero : nearest 0 (-(1 : ℕ)) = 0.0 := by decide +kernel
  rw [zero]
  rfl

-- The digits stand for a decimal that rounds to the double.
theorem figure_nearest {b : Binary} (canonical : Canonical b) :
    parts (nearest (value ((figure b).whole ++ (figure b).fraction)) (-(figure b).fraction.length)) =
      ofBinary { b with negative := false } := by
  unfold figure
  by_cases zero : b.significand = 0
  · rw [if_pos zero, ofBinary, dif_pos zero]
    exact zero_read
  · have nonzero := Decimal.shortest_nonzero .up b zero
    have amount := plain_value b.negative nonzero
    have pointed := (plain_pointed b.negative nonzero).1
    have rounds : b.Rounds (b.shortest .up).amount := by
      rw [Binary.shortest, Decimal.trimmed_amount]
      exact Decimal.holds_rounds (Decimal.shortest_holds canonical zero .up)
    have canonical' : Canonical { b with negative := false } :=
      ⟨canonical.small, canonical.least, canonical.greatest, canonical.full⟩
    have filled : 0 < value ((plainSpelling b.negative (b.shortest .up)).whole ++
        (plainSpelling b.negative (b.shortest .up)).fraction) := by
      refine Nat.pos_of_ne_zero fun none => ?_
      have positive := Decimal.amount_positive nonzero
      rw [← amount, none] at positive
      simp at positive
    rw [if_neg zero]
    rw [← amount] at rounds
    exact Doubles.decimal_nearest filled canonical' rfl zero rounds (List.length_pos_of_ne_nil pointed)

theorem figure_read {x : Float} (finite : x.isFinite) (rest : List Char) :
    number? (Decimal.Layout.setting.characters x ++ '\n' :: rest) = some (.float x, '\n' :: rest) := by
  have figured := figure_figured (Binary.ofFloat x)
  rw [figure_characters finite]
  refine decimal_read figured.proper figured.pointed figured.unmarked finite ?_ rest
  rw [figured.negative]
  exact negated_same finite (figure_nearest (Doubles.ofFloat_canonical x finite))

theorem infinite_cases {x : Float} (number : x.isNaN = false) :
    x.isFinite ∨ x = infinite ∨ x = -infinite := by
  cases shape : parts x with
  | notANumber =>
    have same : x = .nan := Doubles.eq_of_parts (shape.trans rfl)
    rw [same] at number
    exact absurd number (by decide)
  | infinity s =>
    cases s with
    | positive => exact .inr (.inl (Doubles.eq_of_parts (shape.trans rfl)))
    | negative => exact .inr (.inr (Doubles.eq_of_parts (shape.trans rfl)))
  | zero s => exact .inl (by rw [Doubles.isFinite_parts, shape]; rfl)
  | finite s m e positive => exact .inl (by rw [Doubles.isFinite_parts, shape]; rfl)

theorem infinite_spelled : Decimal.Layout.setting.characters infinite = ['i', 'n', 'f'] := by decide +kernel

theorem negated_spelled : Decimal.Layout.setting.characters (-infinite) = ['-', 'i', 'n', 'f'] := by decide +kernel

theorem finite_spelled {x : Float} (finite : x.isFinite) : ∃ whole fraction : List Char, whole ≠ [] ∧
    (∀ c ∈ whole, isDigit c = true) ∧ (∀ c ∈ fraction, isDigit c = true) ∧
      Decimal.Layout.setting.characters x =
        (if (Binary.ofFloat x).negative then ['-'] else []) ++ (whole ++ '.' :: fraction) := by
  have figured := figure_figured (Binary.ofFloat x)
  refine ⟨_, _, figured.proper.whole, figured.proper.wholeDigits, figured.proper.fractionDigits, ?_⟩
  rw [figure_characters finite, Spelling.text, figured.negative, Spelling.magnitude, Spelling.tail, figured.unmarked,
    if_neg figured.pointed, List.append_nil]

section
variable {x : Float} (number : x.isNaN = false)
include number

theorem setting_begins : ∃ c more, Decimal.Layout.setting.characters x = c :: more ∧
    (isDigit c = true ∨ c = '-' ∨ c = 'i') := by
  rcases infinite_cases number with finite | rfl | rfl
  · obtain ⟨whole, fraction, filled, digits, -, spelled⟩ := finite_spelled finite
    obtain ⟨d, more, rfl⟩ := List.exists_cons_of_ne_nil filled
    rw [spelled]
    split
    · exact ⟨_, _, rfl, .inr (.inl rfl)⟩
    · exact ⟨_, _, rfl, .inl (digits d (.head _))⟩
  · exact ⟨_, _, infinite_spelled, .inr (.inr rfl)⟩
  · exact ⟨_, _, negated_spelled, .inr (.inl rfl)⟩

theorem setting_clean : '\r' ∉ Decimal.Layout.setting.characters x := by
  rcases infinite_cases number with finite | rfl | rfl
  · obtain ⟨whole, fraction, -, digits, digits', spelled⟩ := finite_spelled finite
    rw [spelled]
    intro member
    rcases List.mem_append.mp member with sign | member
    · split at sign
      · exact absurd (List.mem_singleton.mp sign) (by decide)
      · cases sign
    rcases List.mem_append.mp member with front | behind
    · exact absurd (digits _ front) (by decide)
    · rcases List.mem_cons.mp behind with point | behind
      · exact absurd point (by decide)
      · exact absurd (digits' _ behind) (by decide)
  · rw [infinite_spelled]
    decide
  · rw [negated_spelled]
    decide

theorem setting_number (rest : List Char) :
    number? (Decimal.Layout.setting.characters x ++ '\n' :: rest) = some (.float x, '\n' :: rest) := by
  rcases infinite_cases number with finite | rfl | rfl
  · exact figure_read finite rest
  · rw [infinite_spelled]
    rfl
  · rw [negated_spelled]
    rfl

end

-- Characters that a number can begin with.
theorem opening_plain {c : Char} (opening : isDigit c = true ∨ c = '-' ∨ c = 'i') :
    isBlank c = false ∧ c ≠ '[' ∧ c ≠ '\x7b' ∧ c ≠ '"' ∧ c ≠ '\'' ∧ c ≠ 't' ∧ c ≠ 'f' := by
  rcases opening with digit | rfl | rfl
  · refine ⟨Bool.eq_false_iff.mpr fun blank => ?_, ?_, ?_, ?_, ?_, ?_, ?_⟩
    · rcases blank_cases blank with rfl | rfl
      · exact absurd digit (by decide)
      · exact absurd digit (by decide)
    all_goals
      rintro rfl
      exact absurd digit (by decide)
  · decide
  · decide

theorem scalar_number {c : Char} (opening : isDigit c = true ∨ c = '-' ∨ c = 'i') (rest : List Char) :
    scalar? (c :: rest) = number? (c :: rest) := by
  obtain ⟨-, -, -, quote, quote', yes, no⟩ := opening_plain opening
  unfold scalar?
  dsimp only
  rw [if_neg (by simp [quote, quote'])]
  split
  · next same => exact absurd (List.cons.inj same).1 yes
  · next same => exact absurd (List.cons.inj same).1 no
  · rfl

end Solid.Toml
