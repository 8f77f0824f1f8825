import Solid.Decimal
import Solid.Text
namespace Solid

-- A number is an integer as long as it fits 64 bits, with or without a sign.
inductive Json where
  | null
  | bool (b : Bool)
  | int (n : Int)
  | float (x : Float)
  | string (s : String)
  | array (items : List Json)
  | object (members : List (String × Json))

namespace Json

def insert (key : String) (v : Json) : List (String × Json) → List (String × Json)
  | [] => [(key, v)]
  | (key', v') :: rest =>
    if key = key' then (key, v) :: rest
    else if key < key' then (key, v) :: (key', v') :: rest
    else (key', v') :: insert key v rest

def ofMembers (members : List (String × Json)) : Json :=
  object (members.foldl (fun sorted (key, v) => insert key v sorted) [])

def isArray : Json → Bool
  | array _ => true
  | _ => false

end Json
end Solid

namespace Solid.Json
open Decimal

inductive Part where
  | sign | zero | whole | point | fraction | mark | markSign | exponent
  deriving DecidableEq

-- A numeral as far as it has been read. The runs of digits have the last digit first.
structure Numeral where
  negative : Bool
  part : Part
  whole : List Char
  fraction : List Char
  shrinking : Bool
  exponent : List Char
  deriving DecidableEq

namespace Numeral

-- What a character does to a numeral. `past` leaves the character to the text behind it.
inductive Step where
  | more (n : Numeral)
  | past
  | wrong

def negativeStart : Numeral := ⟨true, .sign, [], [], false, []⟩

def start : Numeral := ⟨false, .sign, [], [], false, []⟩

def isMark (c : Char) : Bool := c = 'e' || c = 'E'

def push (n : Numeral) (c : Char) : Step :=
  match n.part with
  | .sign =>
    if c = '0' then .more { n with part := .zero, whole := [c] }
    else if isDigit c then .more { n with part := .whole, whole := [c] }
    else .wrong
  | .zero =>
    if isDigit c then .wrong
    else if c = '.' then .more { n with part := .point }
    else if isMark c then .more { n with part := .mark }
    else .past
  | .whole =>
    if isDigit c then .more { n with whole := c :: n.whole }
    else if c = '.' then .more { n with part := .point }
    else if isMark c then .more { n with part := .mark }
    else .past
  | .point =>
    if isDigit c then .more { n with part := .fraction, fraction := [c] } else .wrong
  | .fraction =>
    if isDigit c then .more { n with fraction := c :: n.fraction }
    else if isMark c then .more { n with part := .mark }
    else .past
  | .mark =>
    if c = '+' then .more { n with part := .markSign }
    else if c = '-' then .more { n with part := .markSign, shrinking := true }
    else if isDigit c then .more { n with part := .exponent, exponent := [c] }
    else .wrong
  | .markSign =>
    if isDigit c then .more { n with part := .exponent, exponent := [c] } else .wrong
  | .exponent =>
    if isDigit c then .more { n with exponent := c :: n.exponent } else .past

def complete (n : Numeral) : Bool :=
  match n.part with
  | .zero | .whole | .fraction | .exponent => true
  | .sign | .point | .mark | .markSign => false

end Numeral

-- The digits that fit an unsigned 64 bit significand. From the first one that does not, all
-- are dropped.
structure Kept where
  significand : Nat
  kept : Nat
  dropped : Nat
  deriving DecidableEq

def Kept.push (k : Kept) (c : Char) : Kept :=
  let next := 10 * k.significand + digitValue c
  if k.dropped = 0 ∧ next < twoTo 64 then { k with significand := next, kept := k.kept + 1 }
  else { k with dropped := k.dropped + 1 }

def Kept.collect (significand : Nat) (run : List Char) : Kept :=
  run.foldl Kept.push ⟨significand, 0, 0⟩

def powerOfTen (n : Nat) : Float := Float.ofScientific 1 false n

-- `f * 10 ^ exponent`, by steps of at most 308. `none` when the result is out of range.
def scale (f : Float) (exponent : Int) : Option Float :=
  if exponent.natAbs ≤ 308 then
    if 0 ≤ exponent then
      let g := f * powerOfTen exponent.natAbs
      if g.isInf then none else some g
    else some (f / powerOfTen exponent.natAbs)
  else if f == 0.0 then some f
  else if 0 ≤ exponent then none
  else scale (f / powerOfTen 308) (exponent + 308)
termination_by (-exponent).toNat
decreasing_by omega

namespace Numeral

def magnitude (n : Numeral) : Option Float :=
  let whole := Kept.collect 0 n.whole.reverse
  let all := Kept.collect whole.significand n.fraction.reverse
  let written := Decimal.value n.exponent.reverse
  if twoTo 31 ≤ written then
    if all.significand = 0 ∨ n.shrinking then some 0.0 else none
  else
    let shift : Int := if n.shrinking then -written else written
    scale all.significand.toUInt64.toFloat (whole.dropped - all.kept + shift)

def value (n : Numeral) : Option Json :=
  let whole := Kept.collect 0 n.whole.reverse
  let integral := n.part = .zero ∨ n.part = .whole
  if integral ∧ whole.dropped = 0 ∧ !n.negative then
    some (.int whole.significand)
  else if integral ∧ whole.dropped = 0 ∧ 0 < whole.significand ∧ whole.significand ≤ twoTo 63 then
    some (.int (-whole.significand))
  else n.magnitude.map fun x => .float (negateIf n.negative x)

end Numeral

inductive ReadError where
  | ended
  | syntaxError
  deriving DecidableEq

-- A container around a value that is still to come. What precedes has the last part first.
inductive Frame where
  | item (before : List Json)
  | member (before : List (String × Json)) (key : String)

-- Where a string is: between its characters, behind a backslash, or within the four bytes of a
-- code unit, of which `high` is the first half of a pair.
inductive Scan where
  | plain
  | escape
  | unit (seen : List Char) (high : Option Nat)
  | pair (high : Nat)
  | pairEscape (high : Nat)
  deriving DecidableEq

inductive Purpose where
  | value
  | key (before : List (String × Json))

inductive Mode where
  | value
  | firstItem
  | afterItem (before : List Json)
  | firstMember
  | key (before : List (String × Json))
  | colon (before : List (String × Json)) (key : String)
  | afterMember (before : List (String × Json))
  | word (rest : List Char) (v : Json)
  | numeral (n : Numeral)
  | string (purpose : Purpose) (before : List Char) (scan : Scan)
  | done (v : Json)

structure State where
  stack : List Frame
  mode : Mode

def isBlank (c : Char) : Bool := c = ' ' || c = '\n' || c = '\t' || c = '\r'

def settle (stack : List Frame) (v : Json) : State :=
  match stack with
  | [] => ⟨[], .done v⟩
  | .item before :: rest => ⟨rest, .afterItem (v :: before)⟩
  | .member before key :: rest => ⟨rest, .afterMember ((key, v) :: before)⟩

def begin? (limit : Nat) (stack : List Frame) (c : Char) : Option State :=
  if c = '[' then if stack.length < limit then some ⟨stack, .firstItem⟩ else none
  else if c = '\x7b' then if stack.length < limit then some ⟨stack, .firstMember⟩ else none
  else if c = '"' then some ⟨stack, .string .value [] .plain⟩
  else if c = '-' then some ⟨stack, .numeral .negativeStart⟩
  else if c = 'n' then some ⟨stack, .word ['u', 'l', 'l'] .null⟩
  else if c = 't' then some ⟨stack, .word ['r', 'u', 'e'] (.bool true)⟩
  else if c = 'f' then some ⟨stack, .word ['a', 'l', 's', 'e'] (.bool false)⟩
  else match Numeral.start.push c with
    | .more n => some ⟨stack, .numeral n⟩
    | _ => none

def State.follow (s : State) (c : Char) : Option State :=
  match s.mode with
  | .afterItem before =>
    if c = ',' then some ⟨.item before :: s.stack, .value⟩
    else if c = ']' then some (settle s.stack (.array before.reverse))
    else if isBlank c then some s else none
  | .afterMember before =>
    if c = ',' then some ⟨s.stack, .key before⟩
    else if c = '\x7d' then some (settle s.stack (ofMembers before.reverse))
    else if isBlank c then some s else none
  | .done _ => if isBlank c then some s else none
  | _ => none

def unitValue? : List Char → Option Nat
  | [] => some 0
  | c :: before => do
    let high ← unitValue? before
    let low ← Text.hexValue? c
    return 16 * high + low

inductive Spell where
  | more (before : List Char) (scan : Scan)
  | close
  | wrong

def escaped? (c : Char) : Option Char :=
  if c = '"' ∨ c = '\\' ∨ c = '/' then some c
  else if c = 'b' then some '\x08'
  else if c = 'f' then some '\x0c'
  else if c = 'n' then some '\n'
  else if c = 'r' then some '\r'
  else if c = 't' then some '\t'
  else none

-- A complete code unit. The second half of a pair never stands alone.
def spellUnit (before : List Char) (high : Option Nat) (unit : Nat) : Spell :=
  let second := 0xDC00 ≤ unit ∧ unit ≤ 0xDFFF
  match high with
  | none =>
    if second then .wrong
    else if 0xD800 ≤ unit ∧ unit ≤ 0xDBFF then .more before (.pair unit)
    else .more (Char.ofNat unit :: before) .plain
  | some h =>
    if second then
      .more (Char.ofNat (0x10000 + 0x400 * (h - 0xD800) + (unit - 0xDC00)) :: before) .plain
    else .wrong

def bytes (run : List Char) : Nat := run.foldl (fun n c => n + c.utf8Size) 0

-- The four bytes of a code unit are judged together, once all of them are there.
def spell (before : List Char) (scan : Scan) (c : Char) : Spell :=
  match scan with
  | .plain =>
    if c = '"' then .close
    else if c = '\\' then .more before .escape
    else if c.toNat < 0x20 then .wrong
    else .more (c :: before) .plain
  | .escape =>
    if c = 'u' then .more before (.unit [] none)
    else match escaped? c with
      | some c' => .more (c' :: before) .plain
      | none => .wrong
  | .unit seen high =>
    let run := c :: seen
    if bytes run < 4 then .more before (.unit run high)
    else match unitValue? run with
      | some unit => spellUnit before high unit
      | none => .wrong
  | .pair high => if c = '\\' then .more before (.pairEscape high) else .wrong
  | .pairEscape high => if c = 'u' then .more before (.unit [] (some high)) else .wrong

def settleString (stack : List Frame) (purpose : Purpose) (before : List Char) : State :=
  let s := String.ofList before.reverse
  match purpose with
  | .value => settle stack (.string s)
  | .key members => ⟨stack, .colon members s⟩

def State.step (limit : Nat) (s : State) (c : Char) : Option State :=
  match s.mode with
  | .value => if isBlank c then some s else begin? limit s.stack c
  | .firstItem =>
    if isBlank c then some s
    else if c = ']' then some (settle s.stack (.array []))
    else begin? limit (.item [] :: s.stack) c
  | .firstMember =>
    if isBlank c then some s
    else if c = '\x7d' then some (settle s.stack (.object []))
    else if c = '"' then some ⟨s.stack, .string (.key []) [] .plain⟩ else none
  | .key before =>
    if isBlank c then some s
    else if c = '"' then some ⟨s.stack, .string (.key before) [] .plain⟩ else none
  | .colon before key =>
    if isBlank c then some s
    else if c = ':' then some ⟨.member before key :: s.stack, .value⟩ else none
  | .word rest v =>
    match rest with
    | [] => none
    | [last] => if c = last then some (settle s.stack v) else none
    | next :: more => if c = next then some ⟨s.stack, .word more v⟩ else none
  | .numeral n =>
    match n.push c with
    | .more n' => some ⟨s.stack, .numeral n'⟩
    | .wrong => none
    | .past => n.value.bind fun v => (settle s.stack v).follow c
  | .string purpose before scan =>
    match spell before scan c with
    | .more before' scan' => some ⟨s.stack, .string purpose before' scan'⟩
    | .close => some (settleString s.stack purpose before)
    | .wrong => none
  | .afterItem _ | .afterMember _ | .done _ => s.follow c

def State.finish (s : State) : Except ReadError Json :=
  match s.mode with
  | .done v => .ok v
  | .numeral n =>
    if n.complete then
      match n.value, s.stack with
      | none, _ => .error .syntaxError
      | some v, [] => .ok v
      | some _, _ :: _ => .error .ended
    else .error .ended
  | _ => .error .ended

def State.run (limit : Nat) (s : State) : List Char → Except ReadError Json
  | [] => s.finish
  | c :: rest =>
    match s.step limit c with
    | some s' => s'.run limit rest
    | none => .error .syntaxError

def depthLimit : Nat := 127

def readWithin (limit : Nat) (text : List Char) : Except ReadError Json :=
  State.run limit ⟨[], .value⟩ text

def read (text : String) : Except ReadError Json := readWithin depthLimit text.toList

open Decimal

def escape (c : Char) : List Char :=
  if c = '"' then ['\\', '"']
  else if c = '\\' then ['\\', '\\']
  else if c = '\x08' then ['\\', 'b']
  else if c = '\x0c' then ['\\', 'f']
  else if c = '\n' then ['\\', 'n']
  else if c = '\r' then ['\\', 'r']
  else if c = '\t' then ['\\', 't']
  else if c.toNat < 0x20 then
    ['\\', 'u', '0', '0', Text.hexDigit (c.toNat / 16), Text.hexDigit (c.toNat % 16)]
  else [c]

def writeString (s : String) : List Char := '"' :: s.toList.flatMap escape ++ ['"']

def writeInt (n : Int) : List Char :=
  (if n < 0 then ['-'] else []) ++ digits n.natAbs

def writeBool (b : Bool) : List Char := if b then "true".toList else "false".toList

mutual

def compactList : Json → List Char
  | null => "null".toList
  | bool b => writeBool b
  | int n => writeInt n
  | float x => Layout.json.characters x
  | string s => writeString s
  | array items => '[' :: compactItems items ++ [']']
  | object members => '\x7b' :: compactMembers members ++ ['\x7d']

def compactItems : List Json → List Char
  | [] => []
  | [v] => v.compactList
  | v :: rest => v.compactList ++ ',' :: compactItems rest

def compactMembers : List (String × Json) → List Char
  | [] => []
  | [(key, v)] => writeString key ++ ':' :: v.compactList
  | (key, v) :: rest => writeString key ++ ':' :: v.compactList ++ ',' :: compactMembers rest

end

def newline (level : Nat) : List Char := '\n' :: List.replicate (2 * level) ' '

mutual

def prettyList (level : Nat) : Json → List Char
  | null => "null".toList
  | bool b => writeBool b
  | int n => writeInt n
  | float x => Layout.json.characters x
  | string s => writeString s
  | array [] => ['[', ']']
  | array (v :: rest) => '[' :: prettyItems (level + 1) (v :: rest) ++ newline level ++ [']']
  | object [] => ['\x7b', '\x7d']
  | object (m :: rest) =>
    '\x7b' :: prettyMembers (level + 1) (m :: rest) ++ newline level ++ ['\x7d']

def prettyItems (level : Nat) : List Json → List Char
  | [] => []
  | [v] => newline level ++ prettyList level v
  | v :: rest => newline level ++ prettyList level v ++ ',' :: prettyItems level rest

def prettyMembers (level : Nat) : List (String × Json) → List Char
  | [] => []
  | [(key, v)] => newline level ++ writeString key ++ ':' :: ' ' :: prettyList level v
  | (key, v) :: rest =>
    newline level ++ writeString key ++ ':' :: ' ' :: prettyList level v
      ++ ',' :: prettyMembers level rest

end

def compact (v : Json) : String := String.ofList v.compactList

def pretty (v : Json) : String := String.ofList (prettyList 0 v)

end Solid.Json
