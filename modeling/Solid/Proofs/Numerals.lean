import Solid.Decimal
import Solid.Json
import Solid.Proofs.Shortest
namespace Solid.Json
open Decimal

namespace Numeral

-- Characters that a numeral takes in, all of them.
def pushAll (n : Numeral) : List Char → Option Numeral
  | [] => some n
  | c :: rest =>
    match n.push c with
    | .more n' => pushAll n' rest
    | .past | .wrong => none

theorem pushAll_append {n : Numeral} {front back : List Char} :
    n.pushAll (front ++ back) = (n.pushAll front).bind fun n' => n'.pushAll back := by
  induction front generalizing n with
  | nil => rfl
  | cons c rest ih =>
    simp only [List.cons_append, pushAll]
    cases n.push c with
    | more n' => exact ih
    | past | wrong => rfl

-- Nothing that continues a numeral.
def Ends (c : Char) : Prop := isDigit c = false ∧ c ≠ '.' ∧ isMark c = false

theorem push_ends {n : Numeral} {c : Char} (complete : n.complete = true) (ends : Ends c) :
    n.push c = .past := by
  obtain ⟨digit, point, mark⟩ := ends
  unfold push
  unfold Numeral.complete at complete
  cases part : n.part <;> simp_all

end Numeral

-- The parts of a numeral as it is written.
structure Spelling where
  negative : Bool
  whole : List Char
  fraction : List Char
  -- The sign and the digits of the exponent.
  mark : Option (Bool × List Char)

namespace Spelling

structure Proper (s : Spelling) : Prop where
  whole : s.whole ≠ []
  wholeDigits : ∀ c ∈ s.whole, isDigit c = true
  lead : s.whole = ['0'] ∨ s.whole.head? ≠ some '0'
  fractionDigits : ∀ c ∈ s.fraction, isDigit c = true
  mark : ∀ shrinking run, s.mark = some (shrinking, run) → run ≠ [] ∧ ∀ c ∈ run, isDigit c = true

def tail (s : Spelling) : List Char :=
  match s.mark with
  | none => []
  | some (shrinking, run) => 'e' :: (if shrinking then '-' else '+') :: run

def magnitude (s : Spelling) : List Char :=
  s.whole ++ (if s.fraction = [] then [] else '.' :: s.fraction) ++ s.tail

def text (s : Spelling) : List Char := (if s.negative then ['-'] else []) ++ s.magnitude

-- Where the numeral stands before its exponent.
def part (s : Spelling) : Part :=
  if s.fraction ≠ [] then .fraction else if s.whole = ['0'] then .zero else .whole

def numeral (s : Spelling) : Numeral :=
  match s.mark with
  | none => ⟨s.negative, s.part, s.whole.reverse, s.fraction.reverse, false, []⟩
  | some (shrinking, run) =>
    ⟨s.negative, .exponent, s.whole.reverse, s.fraction.reverse, shrinking, run.reverse⟩

end Spelling

namespace Numeral

-- A run of digits goes where the first of them goes.
theorem pushAll_digits {grow : List Char → Numeral}
    (grows : ∀ seen c, isDigit c = true → (grow seen).push c = .more (grow (c :: seen)))
    {run : List Char} (digits : ∀ c ∈ run, isDigit c = true) (seen : List Char) :
    (grow seen).pushAll run = some (grow (run.reverse ++ seen)) := by
  induction run generalizing seen with
  | nil => rfl
  | cons c rest ih =>
    obtain ⟨first, others⟩ := List.forall_mem_cons.mp digits
    simp only [pushAll, grows seen c first, ih others, List.reverse_cons, List.append_assoc,
      List.singleton_append]

theorem whole_grows (negative : Bool) (seen : List Char) (c : Char) (digit : isDigit c = true) :
    push ⟨negative, .whole, seen, [], false, []⟩ c = .more ⟨negative, .whole, c :: seen, [], false, []⟩ := by
  simp [push, digit]

theorem fraction_grows (negative : Bool) (whole seen : List Char) (c : Char) (digit : isDigit c = true) :
    push ⟨negative, .fraction, whole, seen, false, []⟩ c =
      .more ⟨negative, .fraction, whole, c :: seen, false, []⟩ := by
  simp [push, digit]

theorem exponent_grows (negative : Bool) (whole fraction : List Char) (shrinking : Bool)
    (seen : List Char) (c : Char) (digit : isDigit c = true) :
    push ⟨negative, .exponent, whole, fraction, shrinking, seen⟩ c =
      .more ⟨negative, .exponent, whole, fraction, shrinking, c :: seen⟩ := by
  simp [push, digit]

-- A leading zero stands alone.
theorem pushAll_whole (negative : Bool) {run : List Char} (filled : run ≠ [])
    (digits : ∀ c ∈ run, isDigit c = true) (lead : run = ['0'] ∨ run.head? ≠ some '0') :
    pushAll ⟨negative, .sign, [], [], false, []⟩ run =
      some ⟨negative, if run = ['0'] then .zero else .whole, run.reverse, [], false, []⟩ := by
  cases run with
  | nil => exact absurd rfl filled
  | cons c rest =>
    obtain ⟨first, others⟩ := List.forall_mem_cons.mp digits
    rcases lead with zero | lead
    · cases zero
      cases negative <;> rfl
    · have nonzero : c ≠ '0' := by
        rintro rfl
        exact lead rfl
      have started : push ⟨negative, .sign, [], [], false, []⟩ c =
          .more ⟨negative, .whole, [c], [], false, []⟩ := by
        simp [push, nonzero, first]
      have single : c :: rest ≠ ['0'] := by simp [nonzero]
      simp only [pushAll, started, if_neg single, List.reverse_cons]
      exact pushAll_digits (whole_grows negative) others [c]

theorem pushAll_fraction (negative : Bool) {whole : List Char} {part : Part} (at_end : part = .zero ∨ part = .whole)
    {run : List Char} (filled : run ≠ []) (digits : ∀ c ∈ run, isDigit c = true) :
    pushAll ⟨negative, part, whole, [], false, []⟩ ('.' :: run) =
      some ⟨negative, .fraction, whole, run.reverse, false, []⟩ := by
  have point : push ⟨negative, part, whole, [], false, []⟩ '.' =
      .more ⟨negative, .point, whole, [], false, []⟩ := by
    rcases at_end with rfl | rfl <;> rfl
  cases run with
  | nil => exact absurd rfl filled
  | cons c rest =>
    obtain ⟨first, others⟩ := List.forall_mem_cons.mp digits
    have started : push ⟨negative, .point, whole, [], false, []⟩ c =
        .more ⟨negative, .fraction, whole, [c], false, []⟩ := by
      simp [push, first]
    simp only [pushAll, point, started, List.reverse_cons]
    exact pushAll_digits (fraction_grows negative whole) others [c]

theorem pushAll_exponent (negative : Bool) {whole fraction : List Char} {part : Part}
    (at_end : part = .zero ∨ part = .whole ∨ part = .fraction) (shrinking : Bool) {run : List Char}
    (filled : run ≠ []) (digits : ∀ c ∈ run, isDigit c = true) :
    pushAll ⟨negative, part, whole, fraction, false, []⟩ ('e' :: (if shrinking then '-' else '+') :: run) =
      some ⟨negative, .exponent, whole, fraction, shrinking, run.reverse⟩ := by
  have mark : push ⟨negative, part, whole, fraction, false, []⟩ 'e' =
      .more ⟨negative, .mark, whole, fraction, false, []⟩ := by
    rcases at_end with rfl | rfl | rfl <;> rfl
  have sign : push ⟨negative, .mark, whole, fraction, false, []⟩ (if shrinking then '-' else '+') =
      .more ⟨negative, .markSign, whole, fraction, shrinking, []⟩ := by
    cases shrinking <;> rfl
  cases run with
  | nil => exact absurd rfl filled
  | cons c rest =>
    obtain ⟨first, others⟩ := List.forall_mem_cons.mp digits
    have started : push ⟨negative, .markSign, whole, fraction, shrinking, []⟩ c =
        .more ⟨negative, .exponent, whole, fraction, shrinking, [c]⟩ := by
      simp [push, first]
    simp only [pushAll, mark, sign, started, List.reverse_cons]
    exact pushAll_digits (exponent_grows negative whole fraction shrinking) others [c]

end Numeral

namespace Spelling
open Numeral

theorem part_cases (s : Spelling) : s.part = .zero ∨ s.part = .whole ∨ s.part = .fraction := by
  unfold part
  split
  · exact .inr (.inr rfl)
  · split
    · exact .inl rfl
    · exact .inr (.inl rfl)

theorem numeral_complete (s : Spelling) : s.numeral.complete = true := by
  unfold numeral Numeral.complete
  cases s.mark with
  | none => rcases s.part_cases with zero | whole | fraction <;> simp [*]
  | some m => rfl

theorem magnitude_read {s : Spelling} (proper : s.Proper) :
    pushAll ⟨s.negative, .sign, [], [], false, []⟩ s.magnitude = some s.numeral := by
  obtain ⟨negative, whole, fraction, mark⟩ := s
  obtain ⟨filled, wholeDigits, lead, fractionDigits, exponent⟩ := proper
  have front : pushAll ⟨negative, .sign, [], [], false, []⟩
      (whole ++ (if fraction = [] then [] else '.' :: fraction)) =
      some ⟨negative, part ⟨negative, whole, fraction, mark⟩, whole.reverse, fraction.reverse, false, []⟩ := by
    rw [pushAll_append, pushAll_whole negative filled wholeDigits lead]
    by_cases integral : fraction = []
    · simp [integral, pushAll, part]
    · simp only [integral, if_false, Option.bind_some, part, ne_eq, not_false_eq_true, if_true]
      exact pushAll_fraction negative (by split <;> simp) integral fractionDigits
  rw [magnitude, pushAll_append, front]
  cases mark with
  | none => rfl
  | some m =>
    obtain ⟨shrinking, run⟩ := m
    obtain ⟨filled, digits⟩ := exponent shrinking run rfl
    exact pushAll_exponent negative (part_cases _) shrinking filled digits

end Spelling

namespace Numeral

-- A whole numeral, the sign included.
def lex : List Char → Option Numeral
  | '-' :: rest => pushAll negativeStart rest
  | text => pushAll start text

theorem lex_unsigned {c : Char} (unsigned : c ≠ '-') (rest : List Char) :
    lex (c :: rest) = pushAll start (c :: rest) := by
  rw [lex]
  rintro _ ⟨⟩
  exact unsigned rfl

theorem lex_push {seen : List Char} {n n' : Numeral} {c : Char} (lexed : lex seen = some n)
    (pushed : n.push c = .more n') : lex (seen ++ [c]) = some n' := by
  have last : n.pushAll [c] = some n' := by simp [pushAll, pushed]
  cases seen with
  | nil =>
    cases lexed
    have unsigned : c ≠ '-' := by
      rintro rfl
      cases pushed
    exact (lex_unsigned unsigned []).trans last
  | cons d more =>
    by_cases sign : d = '-'
    · subst sign
      change pushAll negativeStart more = some n at lexed
      change pushAll negativeStart (more ++ [c]) = some n'
      rw [pushAll_append, lexed, Option.bind_some, last]
    · rw [lex_unsigned sign] at lexed
      rw [List.cons_append, lex_unsigned sign, ← List.cons_append, pushAll_append, lexed, Option.bind_some, last]

-- A character is left to the text behind a numeral only where the numeral may end.
theorem past_complete {n : Numeral} {c : Char} (past : n.push c = .past) : n.complete = true := by
  unfold push at past
  unfold Numeral.complete
  cases part : n.part <;> simp only [part] at past ⊢ <;> split_ifs at past

end Numeral

namespace Spelling

theorem text_read {s : Spelling} (proper : s.Proper) : Numeral.lex s.text = some s.numeral := by
  have read := magnitude_read proper
  cases sign : s.negative with
  | true =>
    rw [sign] at read
    simpa [text, sign, Numeral.lex, Numeral.negativeStart] using read
  | false =>
    obtain ⟨c, rest, first⟩ := List.exists_cons_of_ne_nil proper.whole
    have digit := proper.wholeDigits c (by simp [first])
    have unsigned : c ≠ '-' := by
      rintro rfl
      exact absurd digit (by decide)
    rw [sign] at read
    have shape : s.text = c :: (rest ++ (if s.fraction = [] then [] else '.' :: s.fraction) ++ s.tail) := by
      simp [text, sign, magnitude, first]
    have same : s.magnitude = s.text := by simp [text, sign]
    rw [same, shape] at read
    rw [shape, Numeral.lex_unsigned unsigned]
    exact read

end Spelling

-- How a positive number is spelled positionally.
def plainSpelling (negative : Bool) (s : Scaled) : Spelling :=
  let run := digits s.coefficient
  if 0 ≤ s.power then ⟨negative, run ++ zeros s.power.toNat, ['0'], none⟩
  else
    let places := (-s.power).toNat
    if places < run.length then
      ⟨negative, run.take (run.length - places), run.drop (run.length - places), none⟩
    else ⟨negative, ['0'], zeros (places - run.length) ++ run, none⟩

def scientificSpelling (negative : Bool) (s : Scaled) : Spelling :=
  ⟨negative, (digits s.coefficient).take 1, (digits s.coefficient).drop 1,
    some (decide (s.exponent < 0), digits s.exponent.natAbs)⟩

theorem unmarked : ∀ shrinking run, (none : Option (Bool × List Char)) = some (shrinking, run) →
    run ≠ [] ∧ ∀ c ∈ run, isDigit c = true := nofun

theorem plain_proper (negative : Bool) {s : Scaled} (nonzero : s.coefficient ≠ 0) :
    (plainSpelling negative s).Proper ∧ (plainSpelling negative s).magnitude = s.plain true := by
  obtain ⟨d, more, front, lead⟩ := digits_lead s.coefficient nonzero
  have run := digits_isDigit s.coefficient
  have head : (digits s.coefficient).head? ≠ some '0' := by simpa [front] using lead
  unfold plainSpelling Scaled.plain
  dsimp only
  generalize digits s.coefficient = ds at *
  split
  · refine ⟨⟨by simp [front], List.forall_mem_append.mpr ⟨run, zeros_isDigit _⟩, .inr ?_, ?_, unmarked⟩, ?_⟩
    · simpa [front] using lead
    · exact List.forall_mem_singleton.mpr (by decide)
    · simp [Spelling.magnitude, Spelling.tail]
  · split
    · rename_i below inside
      refine ⟨⟨?_, fun c member => run c (List.mem_of_mem_take member), .inr ?_,
        fun c member => run c (List.mem_of_mem_drop member), unmarked⟩, ?_⟩
      · exact List.ne_nil_of_length_pos (by simp; omega)
      · obtain ⟨k, more⟩ : ∃ k, ds.length - (-s.power).toNat = k + 1 := ⟨_, (Nat.succ_pred (by omega)).symm⟩
        rw [more]
        simpa [front] using lead
      · have some : ds.drop (ds.length - (-s.power).toNat) ≠ [] :=
          List.ne_nil_of_length_pos (by rw [List.length_drop]; omega)
        simp [Spelling.magnitude, Spelling.tail, some]
    · refine ⟨⟨by simp, List.forall_mem_singleton.mpr (by decide), .inl rfl,
        List.forall_mem_append.mpr ⟨zeros_isDigit _, run⟩, unmarked⟩, ?_⟩
      simp [Spelling.magnitude, Spelling.tail, front]

theorem scientific_proper (negative : Bool) {s : Scaled} (nonzero : s.coefficient ≠ 0) :
    (scientificSpelling negative s).Proper ∧
      (scientificSpelling negative s).magnitude = s.scientific := by
  obtain ⟨d, more, front, lead⟩ := digits_lead s.coefficient nonzero
  have run := digits_isDigit s.coefficient
  unfold scientificSpelling Scaled.scientific
  rw [front] at run ⊢
  obtain ⟨first, others⟩ := List.forall_mem_cons.mp run
  refine ⟨⟨by simp, by simpa using first, .inr (by simpa using lead), by simpa using others, ?_⟩, ?_⟩
  · rintro shrinking run ⟨⟩
    exact ⟨digits_ne_nil _, digits_isDigit _⟩
  · have sign : (if decide (s.exponent < 0) then '-' else '+') = if 0 ≤ s.exponent then '+' else '-' := by
      by_cases below : s.exponent < 0
      · simp [below, Int.not_le.mpr below]
      · simp [below, Int.not_lt.mp below]
    simp only [Spelling.magnitude, Spelling.tail, sign]
    cases more <;> simp

def zeroSpelling (negative : Bool) : Spelling := ⟨negative, ['0'], ['0'], none⟩

theorem zero_proper (negative : Bool) : (zeroSpelling negative).Proper :=
  ⟨by simp [zeroSpelling], List.forall_mem_singleton.mpr (by decide), .inl rfl,
    List.forall_mem_singleton.mpr (by decide), unmarked⟩

-- How a finite double is spelled.
def spelling (b : Binary) : Spelling :=
  if b.significand = 0 then zeroSpelling b.negative
  else
    let s := b.shortest .even
    if -5 ≤ s.exponent ∧ s.exponent ≤ 15 then plainSpelling b.negative s
    else scientificSpelling b.negative s

theorem spelling_negative (b : Binary) : (spelling b).negative = b.negative := by
  unfold spelling zeroSpelling plainSpelling scientificSpelling
  dsimp only
  repeat' split
  all_goals rfl

theorem spelling_proper (b : Binary) :
    (spelling b).Proper ∧ (spelling b).magnitude = Layout.json.magnitude b := by
  unfold spelling Layout.magnitude
  by_cases zero : b.significand = 0
  · simp only [zero, if_true]
    exact ⟨zero_proper _, rfl⟩
  · have nonzero := shortest_nonzero .even b zero
    simp only [zero, if_false]
    change _ ∧ _ = if -5 ≤ (b.shortest .even).exponent ∧ (b.shortest .even).exponent ≤ 15 then
      (b.shortest .even).plain true else (b.shortest .even).scientific
    split
    · exact plain_proper _ nonzero
    · exact scientific_proper _ nonzero

-- No double is spelled like an integer.
theorem spelling_real (b : Binary) :
    (spelling b).numeral.part = .fraction ∨ (spelling b).numeral.part = .exponent := by
  have pointed {s : Spelling} (behind : s.fraction ≠ []) :
      s.numeral.part = .fraction ∨ s.numeral.part = .exponent := by
    unfold Spelling.numeral Spelling.part
    rw [if_pos behind]
    split
    · exact .inl rfl
    · exact .inr rfl
  unfold spelling
  split
  · exact pointed (List.cons_ne_nil _ _)
  · dsimp only
    split
    · refine pointed ?_
      unfold plainSpelling
      dsimp only
      split
      · exact List.cons_ne_nil _ _
      · split
        · next inside =>
          refine List.ne_nil_of_length_pos ?_
          rw [List.length_drop]
          omega
        · exact List.append_ne_nil_of_right_ne_nil _ (digits_ne_nil _)
    · exact .inr rfl

-- Whatever a finite double is, the writer spells a numeral.
theorem json_characters {x : Float} (finite : x.isFinite) :
    Layout.json.characters x = (spelling (Binary.ofFloat x)).text := by
  obtain ⟨_, same⟩ := spelling_proper (Binary.ofFloat x)
  simp only [Layout.characters, Float.isNaN_eq_decide_eq_nan, Doubles.finite_number finite, decide_false,
    finite, Bool.false_eq_true, if_false, if_true, Spelling.text, spelling_negative, same]

-- Anything else is written as null.
theorem json_null {x : Float} (infinite : x.isFinite = false) :
    Layout.json.characters x = "null".toList := by
  unfold Layout.characters
  simp only [infinite, Bool.false_eq_true, if_false]
  split
  · rfl
  · split <;> rfl

-- The value of a run of digits behind a number.
def extend (significand : Nat) (run : List Char) : Nat :=
  run.foldl (fun n c => 10 * n + digitValue c) significand

theorem extend_le (significand : Nat) (run : List Char) : significand ≤ extend significand run := by
  induction run generalizing significand with
  | nil => exact Nat.le_refl _
  | cons c rest ih =>
    have := ih (10 * significand + digitValue c)
    simp only [extend, List.foldl_cons] at this ⊢
    omega

-- No digit is dropped as long as the number fits.
theorem collect_value {significand : Nat} {run : List Char} (fits : extend significand run < 2 ^ 64) :
    Kept.collect significand run = ⟨extend significand run, run.length, 0⟩ := by
  have push (kept : Nat) : run.foldl Kept.push ⟨significand, kept, 0⟩ =
      ⟨extend significand run, kept + run.length, 0⟩ := by
    induction run generalizing significand kept with
    | nil => rfl
    | cons c rest ih =>
      have below : 10 * significand + digitValue c < twoTo 64 :=
        Nat.lt_of_le_of_lt (extend_le _ rest) fits
      have pushed : Kept.push ⟨significand, kept, 0⟩ c = ⟨10 * significand + digitValue c, kept + 1, 0⟩ :=
        if_pos ⟨rfl, below⟩
      rw [List.foldl_cons, pushed, ih fits, List.length_cons, Nat.add_assoc, Nat.add_comm 1]
      rfl
  rw [Kept.collect, push 0, Nat.zero_add]

theorem extend_digits (n : Nat) : extend 0 (digits n) = n := value_digits n

def wholeSpelling (negative : Bool) (n : Nat) (fraction : List Char) : Spelling :=
  ⟨negative, digits n, fraction, none⟩

theorem digits_zero : digits 0 = ['0'] := by rw [digits]; rfl

theorem digits_lead_zero (n : Nat) : digits n = ['0'] ∨ (digits n).head? ≠ some '0' := by
  by_cases zero : n = 0
  · exact .inl (zero ▸ digits_zero)
  · obtain ⟨c, rest, front, lead⟩ := digits_lead n zero
    exact .inr (by simpa [front] using lead)

theorem whole_proper (negative : Bool) (n : Nat) {fraction : List Char}
    (run : ∀ c ∈ fraction, isDigit c = true) : (wholeSpelling negative n fraction).Proper :=
  ⟨digits_ne_nil n, digits_isDigit n, digits_lead_zero n, run, unmarked⟩

theorem int_value {n : Nat} (fits : n < 2 ^ 64) :
    (wholeSpelling false n []).numeral.value = some (.int n) := by
  have kept : Kept.collect 0 (digits n) = ⟨n, (digits n).length, 0⟩ := by
    rw [collect_value (by rwa [extend_digits]), extend_digits]
  have part : (wholeSpelling false n []).part = .zero ∨ (wholeSpelling false n []).part = .whole := by
    unfold Spelling.part wholeSpelling
    simp only [ne_eq, not_true, if_false]
    split <;> simp
  unfold Numeral.value Spelling.numeral
  simp only [wholeSpelling] at part ⊢
  simp only [List.reverse_reverse, kept, part, true_and, Bool.not_false, and_self, if_true]

-- A whole number is spelled with its digits and a zero behind the point.
theorem whole_spelling {n : Nat} (small : n ≤ 2 ^ 49) (negative : Bool) (nonzero : n ≠ 0) :
    spelling (Doubles.whole negative n) = wholeSpelling negative n ['0'] := by
  obtain ⟨k, power, exact⟩ := whole_shortest nonzero (by omega) negative .even
  have filled := shortest_nonzero .even _ (Doubles.whole_nonzero nonzero negative)
  have run := digits_shift _ filled k
  rw [exact] at run
  have count : length n = length ((Doubles.whole negative n).shortest .even).coefficient + k := by
    rw [length, run, List.length_append, List.length_replicate, length]
  obtain ⟨positive, lower, upper⟩ := length_bounds n nonzero
  have short : length n - 1 < 16 := by
    rw [← Nat.pow_lt_pow_iff_right (a := 10) (by decide)]
    omega
  have exponent : -5 ≤ ((Doubles.whole negative n).shortest .even).exponent ∧
      ((Doubles.whole negative n).shortest .even).exponent ≤ 15 := by
    obtain ⟨some, _⟩ := length_bounds _ filled
    unfold Scaled.exponent
    omega
  unfold spelling
  simp only [Doubles.whole_nonzero nonzero negative, if_false, exponent, and_self, if_true]
  unfold plainSpelling
  simp only [power, Int.natCast_nonneg, if_true, Int.toNat_natCast, zeros, ← run, wholeSpelling]
  rfl

theorem tenth_scale (f : Float) : scale f (-1) = some (f / powerOfTen 1) := by
  rw [scale]
  rfl

-- The digits and the zero make ten times the number, and the point divides it again.
theorem whole_value {n : Nat} (small : n ≤ 2 ^ 49) (negative : Bool) {x : Float}
    (same : negateIf negative ((10 * n).toUInt64.toFloat / powerOfTen 1) = x) :
    (wholeSpelling negative n ['0']).numeral.value = some (.float x) := by
  have first : Kept.collect 0 (digits n) = ⟨n, (digits n).length, 0⟩ := by
    rw [collect_value (by rw [extend_digits]; omega), extend_digits]
  have ten : extend n ['0'] = 10 * n := rfl
  have second : Kept.collect n ['0'] = ⟨10 * n, 1, 0⟩ := by
    rw [collect_value (by rw [ten]; omega), ten]
    rfl
  rw [← same]
  unfold Numeral.value Numeral.magnitude Spelling.numeral Spelling.part
  simp only [wholeSpelling, List.reverse_reverse, first, second]
  simp [Decimal.value, twoTo, tenth_scale]

-- A finite double whose value is a whole number of at most this size.
def SmallWhole (x : Float) : Prop :=
  x.isFinite ∧ ∃ n ≤ 2 ^ 49, (Binary.ofFloat x).magnitude.numerator
    = n * (Binary.ofFloat x).magnitude.denominator

theorem canonical_whole {b : Binary} (canonical : Doubles.Canonical b) {n : Nat} (nonzero : n ≠ 0)
    (small : n ≤ 2 ^ 49) (value : b.magnitude.numerator = n * b.magnitude.denominator) :
    b = Doubles.whole b.negative n := by
  obtain ⟨below, least, greatest, full⟩ := canonical
  obtain ⟨negative, m, e⟩ := b
  simp only [Binary.magnitude, Ratio.scaled, twoTo, Nat.pow_eq] at value below least full
  by_cases above : 0 ≤ e
  · have : 1 ≤ 2 ^ e.toNat := Nat.one_le_two_pow
    have : m ≤ m * 2 ^ e.toNat := Nat.le_mul_of_pos_right m this
    simp only [above, if_true] at value
    omega
  · simp only [above, if_false] at value
    have positive : m ≠ 0 := value ▸ Nat.mul_ne_zero nonzero (Nat.ne_of_gt (Nat.two_pow_pos _))
    have log : m.log2 = n.log2 + (-e).toNat := by rw [value, Doubles.log2_mul_pow nonzero]
    have top : m.log2 < 53 := (Nat.log2_lt positive).mpr below
    have bottom : 52 ≤ m.log2 := (Nat.le_log2 positive).mpr (by omega)
    have shift : 52 - n.log2 = (-e).toNat := by omega
    simp only [Doubles.whole, shift, value, Binary.mk.injEq, true_and]
    omega

-- The tenth of ten times a number is the number, with either sign.
theorem tenth_whole {n : Nat} (nonzero : n ≠ 0) (small : n ≤ 2 ^ 49) (negative : Bool) :
    Doubles.parts (negateIf negative ((10 * n).toUInt64.toFloat / powerOfTen 1)) =
      Doubles.ofBinary (Doubles.whole negative n) := by
  have positive := Doubles.tenth_parts nonzero (by omega)
  have canonical := Doubles.whole_canonical nonzero (by omega) false
  cases negative with
  | false => exact positive
  | true =>
    have finite : ((10 * n).toUInt64.toFloat / powerOfTen 1).isFinite := by
      rw [Doubles.isFinite_parts, positive]
      exact Doubles.ofBinary_finite _
    have taken : Binary.ofFloat ((10 * n).toUInt64.toFloat / powerOfTen 1) = Doubles.whole false n :=
      Doubles.ofBinary_injective (Doubles.ofFloat_canonical _ finite) canonical
        (by rw [← Doubles.parts_finite _ finite, positive])
    simp only [negateIf, if_true]
    rw [Doubles.parts_neg finite, taken]
    rfl

theorem smallWhole_value {x : Float} (small : SmallWhole x) :
    (spelling (Binary.ofFloat x)).numeral.value = some (.float x) := by
  obtain ⟨finite, n, bound, value⟩ := small
  have canonical := Doubles.ofFloat_canonical x finite
  by_cases zero : n = 0
  · have nothing : (Binary.ofFloat x).significand = 0 := by
      simp only [zero, Nat.zero_mul, Binary.magnitude] at value
      exact Classical.byContradiction fun some => (scaled_positive _ _ some).1 value
    have least : (Binary.ofFloat x).exponent = -1074 := canonical.full.resolve_left (by omega)
    have same : spelling (Binary.ofFloat x) = wholeSpelling (Binary.ofFloat x).negative 0 ['0'] := by
      simp only [spelling, nothing, if_true, zeroSpelling, wholeSpelling, digits_zero]
    rw [same]
    refine whole_value (by decide) _ (Doubles.eq_of_ofFloat _ _ ?_)
    rw [show Binary.ofFloat x = ⟨(Binary.ofFloat x).negative, 0, -1074⟩ by rw [← nothing, ← least]]
    cases (Binary.ofFloat x).negative <;> rfl
  · have same := canonical_whole canonical zero bound value
    have double : negateIf (Binary.ofFloat x).negative ((10 * n).toUInt64.toFloat / powerOfTen 1) = x := by
      symm
      apply Doubles.eq_of_parts
      rw [tenth_whole zero bound, ← same]
      exact Doubles.parts_finite x finite
    rw [same, whole_spelling bound _ zero]
    exact whole_value bound _ double

end Solid.Json
