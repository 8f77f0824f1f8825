namespace Solid.Decimal

abbrev twoTo (n : Nat) : Nat := Nat.pow 2 n

abbrev tenTo (n : Nat) : Nat := Nat.pow 10 n

def digitChar (d : Nat) : Char := Char.ofNat (48 + d)

def digitValue (c : Char) : Nat := c.toNat - 48

def isDigit (c : Char) : Bool := '0' ≤ c && c ≤ '9'

def digits (n : Nat) : List Char :=
  if n < 10 then [digitChar n] else digits (n / 10) ++ [digitChar (n % 10)]
termination_by n

def value (run : List Char) : Nat :=
  run.foldl (fun n c => 10 * n + digitValue c) 0

def length (n : Nat) : Nat := (digits n).length

def text (n : Nat) : String := String.ofList (digits n)

theorem digitValue_digitChar (d : Nat) (h : d < 10) : digitValue (digitChar d) = d := by
  have : d = 0 ∨ d = 1 ∨ d = 2 ∨ d = 3 ∨ d = 4 ∨ d = 5 ∨ d = 6 ∨ d = 7 ∨ d = 8 ∨ d = 9 := by
    omega
  rcases this with rfl | rfl | rfl | rfl | rfl | rfl | rfl | rfl | rfl | rfl <;> decide

theorem value_digits (n : Nat) : value (digits n) = n := by
  induction n using Nat.strongRecOn with
  | ind n ih =>
    rw [digits]
    split
    · next small => simp [value, digitValue_digitChar n small]
    · next large =>
      have last : digitValue (digitChar (n % 10)) = n % 10 :=
        digitValue_digitChar _ (Nat.mod_lt _ (by decide))
      have front := ih (n / 10) (by omega)
      simp only [value] at front
      simp only [value, List.foldl_append, List.foldl_cons, List.foldl_nil, front, last]
      omega

theorem digits_ne_nil (n : Nat) : digits n ≠ [] := by
  rw [digits]
  split <;> simp

theorem isDigit_digitChar (d : Nat) (h : d < 10) : isDigit (digitChar d) = true := by
  have : d = 0 ∨ d = 1 ∨ d = 2 ∨ d = 3 ∨ d = 4 ∨ d = 5 ∨ d = 6 ∨ d = 7 ∨ d = 8 ∨ d = 9 := by
    omega
  rcases this with rfl | rfl | rfl | rfl | rfl | rfl | rfl | rfl | rfl | rfl <;> decide

theorem digits_isDigit (n : Nat) : ∀ c ∈ digits n, isDigit c = true := by
  induction n using Nat.strongRecOn with
  | ind n ih =>
    rw [digits]
    split
    · next small =>
      intro c member
      rw [List.mem_singleton.mp member]
      exact isDigit_digitChar n small
    · next large =>
      intro c member
      rcases List.mem_append.mp member with front | last
      · exact ih (n / 10) (by omega) c front
      · rw [List.mem_singleton.mp last]
        exact isDigit_digitChar _ (Nat.mod_lt _ (by decide))

theorem digits_lead (n : Nat) (nonzero : n ≠ 0) :
    ∃ c rest, digits n = c :: rest ∧ c ≠ '0' := by
  induction n using Nat.strongRecOn with
  | ind n ih =>
    rw [digits]
    split
    · next small =>
      refine ⟨_, _, rfl, ?_⟩
      intro zero
      have value := digitValue_digitChar n small
      rw [zero] at value
      exact nonzero value.symm
    · next large =>
      obtain ⟨c, rest, front, lead⟩ := ih (n / 10) (by omega) (by omega)
      exact ⟨c, rest ++ [digitChar (n % 10)], by rw [front]; rfl, lead⟩

structure Binary where
  negative : Bool
  significand : Nat
  exponent : Int
  deriving DecidableEq

-- Only for finite doubles. The exponent field 0 holds zero and the subnormal numbers, every
-- other field value stands for an implied leading bit.
def Binary.ofFloat (x : Float) : Binary :=
  let bits : Nat := x.toBits.toNat
  let fraction : Nat := bits % twoTo 52
  let field : Nat := bits / twoTo 52 % twoTo 11
  let negative := decide (twoTo 63 ≤ bits)
  if field = 0 then ⟨negative, fraction, -1074⟩
  else ⟨negative, twoTo 52 + fraction, (field : Int) - 1075⟩

def isNegative (x : Float) : Bool := decide (twoTo 63 ≤ x.toBits.toNat)

-- The nonnegative rational `numerator / denominator`; the denominator is positive wherever
-- one of these is built.
structure Ratio where
  numerator : Nat
  denominator : Nat
  deriving DecidableEq

def Ratio.scaled (n : Nat) (e : Int) : Ratio :=
  if 0 ≤ e then ⟨n * twoTo e.toNat, 1⟩ else ⟨n, twoTo (-e).toNat⟩

def Binary.magnitude (b : Binary) : Ratio := .scaled b.significand b.exponent

inductive Tie where
  | up
  | even
  deriving DecidableEq

structure Scaled where
  coefficient : Nat
  power : Int
  deriving DecidableEq

-- All four numbers have the denominator `unit`.
structure Interval where
  low : Nat
  middle : Nat
  high : Nat
  unit : Nat
  closed : Bool
  deriving DecidableEq

-- Below a power of two the doubles lie twice as dense, so that the lower half gap is half as wide
-- there. Quarters of the last place make all three numbers integers.
def Binary.interval (b : Binary) : Interval :=
  let narrow := b.significand = twoTo 52 ∧ -1074 < b.exponent
  let quarters := fun n => Ratio.scaled n (b.exponent - 2)
  { low := (quarters (4 * b.significand - if narrow then 1 else 2)).numerator
    middle := (quarters (4 * b.significand)).numerator
    high := (quarters (4 * b.significand + 2)).numerator
    unit := (quarters 1).denominator
    closed := b.significand % 2 = 0 }

def Interval.holds (i : Interval) (s : Scaled) : Bool :=
  let point := s.coefficient * tenTo s.power.toNat * i.unit
  let shrink := tenTo (-s.power).toNat
  if i.closed then i.low * shrink ≤ point ∧ point ≤ i.high * shrink
  else i.low * shrink < point ∧ point < i.high * shrink

def Interval.leading (i : Interval) : Int :=
  let guess : Int := length i.middle - length i.unit
  if i.unit * tenTo guess.toNat ≤ i.middle * tenTo (-guess).toNat then guess else guess - 1

def Interval.floor (i : Interval) (power : Int) : Nat :=
  i.middle * tenTo (-power).toNat / (i.unit * tenTo power.toNat)

def Interval.nearer (i : Interval) (tie : Tie) (below : Nat) (power : Int) : Nat :=
  let twice := 2 * (i.middle * tenTo (-power).toNat)
  let half := (2 * below + 1) * (i.unit * tenTo power.toNat)
  if twice < half then below
  else if half < twice then below + 1
  else match tie with
    | .up => below + 1
    | .even => if below % 2 = 0 then below else below + 1

-- A multiple of the power of ten that reads back as the double. Of the neighbours of the middle the
-- nearer one is taken, if both do.
def Interval.hit (i : Interval) (tie : Tie) (power : Int) : Option Nat :=
  let below := i.floor power
  match i.holds ⟨below, power⟩, i.holds ⟨below + 1, power⟩ with
  | true, true => some (i.nearer tie below power)
  | true, false => some below
  | false, true => some (below + 1)
  | false, false => none

-- From the place of the first digit downwards, the first that has a hit.
def Interval.shortestFrom (i : Interval) (tie : Tie) : Nat → Int → Scaled
  | 0, power => ⟨i.floor power, power⟩
  | more + 1, power =>
    match i.hit tie power with
    | some n => ⟨n, power⟩
    | none => i.shortestFrom tie more (power - 1)

def Scaled.trimmed (s : Scaled) : Scaled :=
  if 0 < s.coefficient ∧ s.coefficient % 10 = 0 then
    Scaled.trimmed ⟨s.coefficient / 10, s.power + 1⟩
  else s
termination_by s.coefficient

-- Seventeen digits tell any two doubles apart, so the last grid always has a hit.
def Binary.shortest (tie : Tie) (b : Binary) : Scaled :=
  let i := b.interval
  (i.shortestFrom tie 17 i.leading).trimmed

-- `least` and `most` bound the exponents of the leading digit that are written positionally.
structure Positional where
  least : Int
  most : Int

structure Layout where
  tie : Tie
  pointed : Bool
  -- `none` writes every value positionally.
  positional : Option Positional
  notANumber : String
  infinity : String
  negativeInfinity : String

def Layout.measure : Layout :=
  ⟨.up, false, none, "NaN", "inf", "-inf"⟩

def Layout.setting : Layout :=
  ⟨.up, true, none, "nan", "inf", "-inf"⟩

-- Numbers in JSON, which has no word for the values that are not finite.
def Layout.json : Layout :=
  ⟨.even, true, some ⟨-5, 15⟩, "null", "null", "null"⟩

def zeros (n : Nat) : List Char := List.replicate n '0'

theorem zeros_isDigit (n : Nat) : ∀ c ∈ zeros n, isDigit c = true := by
  intro c member
  rw [List.eq_of_mem_replicate member]
  decide

def Scaled.plain (s : Scaled) (pointed : Bool) : List Char :=
  let run := digits s.coefficient
  if 0 ≤ s.power then
    run ++ zeros s.power.toNat ++ (if pointed then ['.', '0'] else [])
  else
    let places := (-s.power).toNat
    if places < run.length then
      run.take (run.length - places) ++ '.' :: run.drop (run.length - places)
    else
      '0' :: '.' :: zeros (places - run.length) ++ run

def Scaled.exponent (s : Scaled) : Int := s.power + (length s.coefficient - 1 : Nat)

def Scaled.scientific (s : Scaled) : List Char :=
  let mantissa := match digits s.coefficient with
    | [] => []
    | [d] => [d]
    | d :: more => d :: '.' :: more
  let sign := if 0 ≤ s.exponent then '+' else '-'
  mantissa ++ 'e' :: sign :: digits s.exponent.natAbs

def Layout.magnitude (layout : Layout) (b : Binary) : List Char :=
  if b.significand = 0 then '0' :: (if layout.pointed then ['.', '0'] else [])
  else
    let s := b.shortest layout.tie
    match layout.positional with
    | none => s.plain layout.pointed
    | some range =>
      if range.least ≤ s.exponent ∧ s.exponent ≤ range.most then s.plain layout.pointed
      else s.scientific

def Layout.characters (layout : Layout) (x : Float) : List Char :=
  if x.isNaN then layout.notANumber.toList
  else if x.isFinite then
    let b := Binary.ofFloat x
    (if b.negative then ['-'] else []) ++ layout.magnitude b
  else if isNegative x then layout.negativeInfinity.toList
  else layout.infinity.toList

def Layout.text (layout : Layout) (x : Float) : String :=
  String.ofList (layout.characters x)

def measure (x : Float) : String := Layout.measure.text x

def roundEven (r : Ratio) : Nat :=
  let below := r.numerator / r.denominator
  let rest := 2 * (r.numerator % r.denominator)
  if rest < r.denominator then below
  else if r.denominator < rest then below + 1
  else if below % 2 = 0 then below else below + 1

def hundredths (n : Nat) : String :=
  let cents := n % 100
  text (n / 100) ++ "." ++ text (cents / 10) ++ text (cents % 10)

def toHundredths (x : Float) : Nat :=
  let r := (Binary.ofFloat x).magnitude
  roundEven ⟨100 * r.numerator, r.denominator⟩

inductive Misread where
  | empty
  | malformed
  deriving DecidableEq

def Misread.message : Misread → String
  | .empty => "cannot parse float from empty string"
  | .malformed => "invalid float literal"

def negateIf (negative : Bool) (x : Float) : Float := if negative then -x else x

def splitSign : List Char → Bool × List Char
  | '-' :: rest => (true, rest)
  | '+' :: rest => (false, rest)
  | text => (false, text)

def splitDigits (text : List Char) : List Char × List Char :=
  (text.takeWhile isDigit, text.dropWhile isDigit)

def nearest (coefficient : Nat) (exponent : Int) : Float :=
  Float.ofScientific coefficient (decide (exponent < 0)) exponent.natAbs

def readExponent : List Char → Option Int
  | [] => some 0
  | mark :: rest =>
    if mark = 'e' ∨ mark = 'E' then
      let (negative, run) := splitSign rest
      if run.isEmpty || !run.all isDigit then none
      else some (if negative then -(value run : Int) else value run)
    else none

def readDecimal (text : List Char) : Option Float :=
  let (whole, rest) := splitDigits text
  let (fraction, rest) := match rest with
    | '.' :: rest => splitDigits rest
    | rest => ([], rest)
  if whole.isEmpty && fraction.isEmpty then none
  else
    (readExponent rest).map fun exponent =>
      nearest (value (whole ++ fraction)) (exponent - fraction.length)

def infinite : Float := 1.0 / 0.0

def notANumber : Float := 0.0 / 0.0

def readMagnitude (text : List Char) : Option Float :=
  let lower := text.map Char.toLower
  if lower = ['n', 'a', 'n'] then some notANumber
  else if lower = ['i', 'n', 'f'] ∨ lower = ['i', 'n', 'f', 'i', 'n', 'i', 't', 'y'] then
    some infinite
  else readDecimal text

def read (text : String) : Except Misread Float :=
  match text.toList with
  | [] => .error .empty
  | characters =>
    let (negative, rest) := splitSign characters
    match readMagnitude rest with
    | some x => .ok (negateIf negative x)
    | none => .error .malformed

end Solid.Decimal
