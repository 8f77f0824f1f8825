import Solid.Toml.Text
import Solid.Text
import Solid.Decimal
namespace Solid.Toml

inductive Standing where
  -- The document itself, or a table with a header of its own.
  | headed
  -- Named only on the way to another table's header.
  | implied
  -- Made by a dotted key.
  | dotted
  -- Written in braces; nothing can be added to it.
  | inline
  deriving DecidableEq

inductive Item where
  | text (s : String)
  | integer (n : Int)
  | float (x : Float)
  | boolean (b : Bool)
  | moment
  | array (items : List Item)
  | table (standing : Standing) (entries : List (String × Item))
  -- The tables that share one header. The last of them can still be extended.
  | tables (members : List (List (String × Item)))

abbrev Entries := List (String × Item)

namespace Entries

def get? (entries : Entries) (key : String) : Option Item :=
  (entries.find? fun entry => entry.1 == key).map Prod.snd

def push (entries : Entries) (key : String) (item : Item) : Entries := entries ++ [(key, item)]

def replace (entries : Entries) (key : String) (item : Item) : Entries :=
  entries.map fun entry => if entry.1 == key then (key, item) else entry

def without (entries : Entries) (key : String) : Entries :=
  entries.filter fun entry => entry.1 != key

end Entries

structure Path where
  front : List String
  last : String
  deriving DecidableEq

def Path.keys (p : Path) : List String := p.front ++ [p.last]

inductive Statement where
  | header (path : Path)
  | member (path : Path)
  | setting (path : Path) (item : Item)

def Standing.admits (standing : Standing) (dotted : Bool) : Bool :=
  match standing with
  | .headed => !dotted
  | .implied | .dotted => true
  | .inline => false

def Standing.made (dotted : Bool) : Standing := if dotted then .dotted else .implied

abbrev Change := Standing → Entries → Option Entries

-- Changes the table at the end of the way. Tables that are missing on the way are made.
def within (dotted : Bool) (change : Change) : List String → Change
  | [], standing, entries => change standing entries
  | key :: way, _, entries =>
    match entries.get? key with
    | none =>
      let standing := Standing.made dotted
      (within dotted change way standing []).map fun child =>
        entries.push key (.table standing child)
    | some (.table standing child) =>
      if standing.admits dotted then
        (within dotted change way standing child).map fun child =>
          entries.replace key (.table standing child)
      else none
    | some (.tables members) =>
      match members.getLast? with
      | none => none
      | some last =>
        (within dotted change way .headed last).map fun last =>
          entries.replace key (.tables (members.dropLast ++ [last]))
    | some _ => none

-- A table that was only implied keeps what it holds, and moves to the end.
def openTable (key : String) : Change := fun _ entries =>
  match entries.get? key with
  | none => some (entries.push key (.table .headed []))
  | some (.table .implied child) =>
    some (Entries.push (entries.without key) key (.table .headed child))
  | some _ => none

def openMember (key : String) : Change := fun _ entries =>
  match entries.get? key with
  | none => some (entries.push key (.tables [[]]))
  | some (.tables members) => some (entries.replace key (.tables (members ++ [[]])))
  | some _ => none

-- A dotted key ends in a table that dotted keys have made.
def setKey (dotted : Bool) (key : String) (item : Item) : Change := fun standing entries =>
  if dotted ∧ standing ≠ .dotted then none
  else if (entries.get? key).isSome then none
  else some (entries.push key item)

def setPath (path : Path) (item : Item) : Change :=
  within true (setKey (!path.front.isEmpty) path.last item) path.front

-- A document as far as its statements have been carried out. Settings go to the table that the
-- last header opened.
structure Assembly where
  root : Entries
  current : List String

def Assembly.start : Assembly := ⟨[], []⟩

def Assembly.step (a : Assembly) : Statement → Option Assembly
  | .header path =>
    (within false (openTable path.last) path.front .headed a.root).map (⟨·, path.keys⟩)
  | .member path =>
    (within false (openMember path.last) path.front .headed a.root).map (⟨·, path.keys⟩)
  | .setting path item =>
    (within false (setPath path item) a.current .headed a.root).map (⟨·, a.current⟩)

def assemble (statements : List Statement) : Option Entries :=
  (statements.foldlM Assembly.step .start).map Assembly.root

def setPaths (settings : List (Path × Item)) : Option Entries :=
  settings.foldlM (fun entries (path, item) => setPath path item .inline entries) []

open Decimal

def moreDigits (isOne : Char → Bool) : List Char → List Char × List Char
  | '_' :: c :: rest =>
    if isOne c then
      let (run, rest) := moreDigits isOne rest
      (c :: run, rest)
    else ([], '_' :: c :: rest)
  | c :: rest =>
    if isOne c then
      let (run, rest) := moreDigits isOne rest
      (c :: run, rest)
    else ([], c :: rest)
  | [] => ([], [])

def digitRun? (isOne : Char → Bool) : List Char → Option (List Char × List Char)
  | [] => none
  | c :: rest =>
    if isOne c then
      let (run, rest) := moreDigits isOne rest
      some (c :: run, rest)
    else none

def unsigned? : List Char → Option (List Char × List Char)
  | '0' :: rest => some (['0'], rest)
  | text => digitRun? isDigit text

def radixValue (radix : Nat) (run : List Char) : Nat :=
  run.foldl (fun n c => radix * n + (Text.hexValue? c).getD 0) 0

def isRadixDigit (radix : Nat) (c : Char) : Bool :=
  match Text.hexValue? c with
  | some d => d < radix
  | none => false

def radixNumeral? (radix : Nat) (text : List Char) : Option (Int × List Char) :=
  (digitRun? (isRadixDigit radix) text).map fun (run, rest) => (radixValue radix run, rest)

def decimalNumeral? (text : List Char) : Option (Int × List Char) :=
  let (negative, text) := splitSign text
  (unsigned? text).map fun (run, rest) =>
    (if negative then -(value run : Int) else value run, rest)

def inWord (n : Int) : Bool := -(twoTo 63 : Int) ≤ n && n < (twoTo 63 : Int)

def integer? (text : List Char) : Option (Int × List Char) :=
  let numeral := match text with
    | '0' :: 'x' :: rest => radixNumeral? 16 rest
    | '0' :: 'o' :: rest => radixNumeral? 8 rest
    | '0' :: 'b' :: rest => radixNumeral? 2 rest
    | text => decimalNumeral? text
  numeral.filter fun (n, _) => inWord n

def exponent? : List Char → Option (Int × List Char)
  | [] => none
  | mark :: rest =>
    if mark = 'e' ∨ mark = 'E' then
      let (negative, rest) := splitSign rest
      (digitRun? isDigit rest).map fun (run, rest) =>
        (if negative then -(value run : Int) else value run, rest)
    else none

def scale? (text : List Char) : Option (List Char × Int × List Char) :=
  match text with
  | '.' :: rest =>
    (digitRun? isDigit rest).map fun (fraction, rest) =>
      match exponent? rest with
      | some (exponent, rest) => (fraction, exponent, rest)
      | none => (fraction, 0, rest)
  | text => (exponent? text).map fun (exponent, rest) => ([], exponent, rest)

-- A number above the range is refused; one below it is minus infinity.
def decimal? (text : List Char) : Option (Float × List Char) := do
  let (negative, text) := splitSign text
  let (whole, rest) ← unsigned? text
  let (fraction, exponent, rest) ← scale? rest
  let x := negateIf negative (nearest (value (whole ++ fraction)) (exponent - fraction.length))
  if x == infinite then none else some (x, rest)

def special? (text : List Char) : Option (Float × List Char) :=
  let (negative, text) := splitSign text
  match text with
  | 'i' :: 'n' :: 'f' :: rest => some (negateIf negative infinite, rest)
  | 'n' :: 'a' :: 'n' :: rest => some (negateIf negative notANumber, rest)
  | _ => none

def float? (text : List Char) : Option (Float × List Char) :=
  match decimal? text with
  | some finite => some finite
  | none => special? text

def fixed? (places : Nat) (text : List Char) : Option (Nat × List Char) :=
  let run := text.take places
  if run.length = places ∧ run.all Decimal.isDigit then
    some (Decimal.value run, text.drop places)
  else none

def twoDigits? (least most : Nat) (text : List Char) : Option (Nat × List Char) :=
  (fixed? 2 text).filter fun (n, _) => least ≤ n && n ≤ most

def isLeap (year : Nat) : Bool := year % 4 = 0 && (year % 100 ≠ 0 || year % 400 = 0)

def daysIn (year month : Nat) : Nat :=
  if month = 2 then if isLeap year then 29 else 28
  else if month = 4 ∨ month = 6 ∨ month = 9 ∨ month = 11 then 30
  else 31

def date? (text : List Char) : Option (List Char) := do
  let (year, rest) ← fixed? 4 text
  let rest ← skip? '-' rest
  let (month, rest) ← twoDigits? 1 12 rest
  let rest ← skip? '-' rest
  let (_, rest) ← twoDigits? 1 (daysIn year month) rest
  some rest

def skipFraction : List Char → List Char
  | '.' :: c :: rest =>
    if Decimal.isDigit c then rest.dropWhile Decimal.isDigit else '.' :: c :: rest
  | text => text

def time? (text : List Char) : Option (List Char) := do
  let (_, rest) ← twoDigits? 0 23 text
  let rest ← skip? ':' rest
  let (_, rest) ← twoDigits? 0 59 rest
  let rest ← skip? ':' rest
  let (_, rest) ← twoDigits? 0 60 rest
  some (skipFraction rest)

def offset? : List Char → Option (List Char)
  | 'Z' :: rest => some rest
  | 'z' :: rest => some rest
  | sign :: rest =>
    if sign = '+' ∨ sign = '-' then do
      let (_, rest) ← twoDigits? 0 23 rest
      let rest ← skip? ':' rest
      let (_, rest) ← twoDigits? 0 59 rest
      some rest
    else none
  | [] => none

def timeOfDay? : List Char → Option (List Char)
  | [] => none
  | c :: rest =>
    if c = 'T' ∨ c = 't' ∨ c = ' ' then
      (time? rest).map fun rest => (offset? rest).getD rest
    else none

def moment? (text : List Char) : Option (List Char) :=
  match date? text with
  | some rest => some ((timeOfDay? rest).getD rest)
  | none => time? text

abbrev Reader (α : Type) := List Char → Option (α × List Char)

def mostNested : Nat := 79

def mostKeys : Nat := 79

def isBare (c : Char) : Bool := c.isAlphanum || c = '_' || c = '-'

def key? (text : List Char) : Option (List Char × List Char) :=
  let bare := text.takeWhile isBare
  if bare.isEmpty then quotedLine? text else some (bare, text.dropWhile isBare)

def path? : Nat → Reader Path
  | 0, _ => none
  | more + 1, text => do
    let (key, rest) ← key? (skipBlanks text)
    match skipBlanks rest with
    | '.' :: rest =>
      let (path, rest) ← path? more rest
      some (⟨String.ofList key :: path.front, path.last⟩, rest)
    | rest => some (⟨[], String.ofList key⟩, rest)

def number? (text : List Char) : Option (Item × List Char) :=
  match moment? text with
  | some rest => some (.moment, rest)
  | none =>
    match float? text with
    | some (x, rest) => some (.float x, rest)
    | none => (integer? text).map fun (n, rest) => (.integer n, rest)

def scalar? : Reader Item
  | [] => none
  | c :: rest =>
    if c = '"' ∨ c = '\'' then
      (quoted? (c :: rest)).map fun (text, rest) => (.text (String.ofList text), rest)
    else
      match c :: rest with
      | 't' :: 'r' :: 'u' :: 'e' :: rest => some (.boolean true, rest)
      | 'f' :: 'a' :: 'l' :: 's' :: 'e' :: rest => some (.boolean false, rest)
      | text => number? text

-- The items of an array up to the closing bracket. A comma may follow the last of them. Each
-- item takes a character at least, so that the length of the text is fuel enough.
def items? (item : Reader Item) : Nat → Reader (List Item)
  | 0, _ => none
  | fuel + 1, text =>
    match skipSpace false text with
    | ']' :: rest => some ([], rest)
    | text => do
      let (first, rest) ← item text
      match skipSpace false rest with
      | ',' :: rest =>
        let (more, rest) ← items? item fuel rest
        some (first :: more, rest)
      | ']' :: rest => some ([first], rest)
      | _ => none

def setting? (item : Reader Item) (text : List Char) : Option ((Path × Item) × List Char) := do
  let (path, rest) ← path? mostKeys text
  let rest ← skip? '=' rest
  let (v, rest) ← item (skipBlanks rest)
  some ((path, v), rest)

def settings? (item : Reader Item) : Nat → Reader (List (Path × Item))
  | 0, _ => none
  | fuel + 1, text => do
    let (first, rest) ← setting? item text
    match skipBlanks rest with
    | ',' :: rest =>
      let (more, rest) ← settings? item fuel rest
      some (first :: more, rest)
    | '\x7d' :: rest => some ([first], rest)
    | _ => none

def inlineTable? (item : Reader Item) (text : List Char) : Option (Item × List Char) :=
  match skipBlanks text with
  | '\x7d' :: rest => some (.table .inline [], rest)
  | text => do
    let (settings, rest) ← settings? item text.length text
    let entries ← setPaths settings
    some (.table .inline entries, rest)

-- `depth` bounds the arrays and inline tables within each other.
def value? : Nat → Reader Item
  | 0, text => scalar? text
  | depth + 1, text =>
    match text with
    | '[' :: rest =>
      (items? (value? depth) (rest.length + 1) rest).map fun (items, rest) => (.array items, rest)
    | '\x7b' :: rest => inlineTable? (value? depth) rest
    | text => scalar? text

def statement? (text : List Char) : Option (Statement × List Char) :=
  match text with
  | '[' :: '[' :: rest => do
    let (path, rest) ← path? mostKeys rest
    let rest ← skip? ']' rest
    let rest ← skip? ']' rest
    let rest ← lineEnd? rest
    some (.member path, rest)
  | '[' :: rest => do
    let (path, rest) ← path? mostKeys rest
    let rest ← skip? ']' rest
    let rest ← lineEnd? rest
    some (.header path, rest)
  | text => do
    let ((path, item), rest) ← setting? (value? mostNested) text
    let rest ← lineEnd? rest
    some (.setting path item, rest)

def statements? : Nat → List Char → Option (List Statement)
  | 0, _ => none
  | fuel + 1, text =>
    match skipBlanks text with
    | [] => some []
    | '\n' :: rest => statements? fuel rest
    | '#' :: rest => do
      let rest ← lineEnd? ('#' :: rest)
      statements? fuel rest
    | text => do
      let (first, rest) ← statement? text
      let more ← statements? fuel rest
      some (first :: more)

def skipByteOrderMark : List Char → List Char
  | '\ufeff' :: rest => rest
  | text => text

def read? (text : String) : Option Entries := do
  let text := uniformLines (skipByteOrderMark text.toList)
  let statements ← statements? (text.length + 1) text
  assemble statements

end Solid.Toml
