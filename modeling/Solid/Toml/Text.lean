import Solid.Text
namespace Solid.Toml

-- A carriage return in front of a newline belongs to the newline. One that is left over fits
-- nowhere.
def uniformLines : List Char → List Char
  | '\r' :: '\n' :: rest => '\n' :: uniformLines rest
  | c :: rest => c :: uniformLines rest
  | [] => []

def isBlank (c : Char) : Bool := c = ' ' || c = '\t'

def isText (c : Char) : Bool := c = '\t' || (' ' ≤ c && c ≠ '\x7f')

def skipBlanks (text : List Char) : List Char := text.dropWhile isBlank

def skipComment : List Char → List Char
  | '#' :: rest => rest.dropWhile isText
  | text => text

def lineEnd? (text : List Char) : Option (List Char) :=
  match skipComment (skipBlanks text) with
  | [] => some []
  | '\n' :: rest => some rest
  | _ => none

def skipSpace (inComment : Bool) : List Char → List Char
  | [] => []
  | c :: rest =>
    if c = '\n' then skipSpace false rest
    else if inComment then if isText c then skipSpace true rest else c :: rest
    else if c = '#' then skipSpace true rest
    else if isBlank c then skipSpace false rest
    else c :: rest

def skip? (c : Char) : List Char → Option (List Char)
  | d :: rest => if d = c then some rest else none
  | [] => none

inductive Spot where
  | plain
  | escape
  | code (left : Nat) (value : Nat)
  -- Behind a backslash at the end of a line, in front of the newline.
  | lineEnd
  -- Behind such a newline: blanks and newlines are not part of the text.
  | fold
  deriving DecidableEq

def escaped? (c : Char) : Option Char :=
  if c = '"' ∨ c = '\\' then some c
  else if c = 'b' then some '\x08'
  else if c = 't' then some '\t'
  else if c = 'n' then some '\n'
  else if c = 'f' then some '\x0c'
  else if c = 'r' then some '\r'
  else none

def character? (n : Nat) : Option Char :=
  if n < 0xD800 ∨ (0xDFFF < n ∧ n < 0x110000) then some (Char.ofNat n) else none

abbrev Body := Option (List Char × List Char)

def Body.cons (c : Char) (b : Body) : Body := b.map fun (text, rest) => (c :: text, rest)

-- Three quotes close a text of several lines. Up to two more in front of them belong to it.
def close? (quote : Char) (text : List Char) : Body :=
  if text.take 3 = [quote, quote, quote] then
    let rest := text.drop 3
    let more := (rest.take 2).takeWhile fun c => c = quote
    some (more, rest.drop more.length)
  else none

def basic (lines : Bool) : Spot → List Char → Body
  | _, [] => none
  | spot, c :: rest =>
    match spot with
    | .escape =>
      if c = 'u' then basic lines (.code 4 0) rest
      else if c = 'U' then basic lines (.code 8 0) rest
      else match escaped? c with
        | some d => Body.cons d (basic lines .plain rest)
        | none =>
          if !lines then none
          else if c = '\n' then basic lines .fold rest
          else if isBlank c then basic lines .lineEnd rest
          else none
    | .code left value =>
      match Text.hexValue? c with
      | none => none
      | some d =>
        if 1 < left then basic lines (.code (left - 1) (16 * value + d)) rest
        else match character? (16 * value + d) with
          | some e => Body.cons e (basic lines .plain rest)
          | none => none
    | .lineEnd =>
      if c = '\n' then basic lines .fold rest
      else if isBlank c then basic lines .lineEnd rest
      else none
    | .plain | .fold =>
      if spot = .fold ∧ (c = '\n' ∨ isBlank c) then basic lines .fold rest
      else if c = '\\' then basic lines .escape rest
      else if c = '"' then
        if lines then
          match close? '"' (c :: rest) with
          | some closed => some closed
          | none => Body.cons c (basic lines .plain rest)
        else some ([], rest)
      else if isText c ∨ (lines ∧ c = '\n') then Body.cons c (basic lines .plain rest)
      else none

def literal (lines : Bool) : List Char → Body
  | [] => none
  | c :: rest =>
    if c = '\'' then
      if lines then
        match close? '\'' (c :: rest) with
        | some closed => some closed
        | none => Body.cons c (literal lines rest)
      else some ([], rest)
    else if isText c ∨ (lines ∧ c = '\n') then Body.cons c (literal lines rest)
    else none

def skipNewline : List Char → List Char
  | '\n' :: rest => rest
  | text => text

def quotedLine? : List Char → Body
  | '"' :: rest => basic false .plain rest
  | '\'' :: rest => literal false rest
  | _ => none

def quoted? : List Char → Body
  | '"' :: '"' :: '"' :: rest => basic true .plain (skipNewline rest)
  | '\'' :: '\'' :: '\'' :: rest => literal true (skipNewline rest)
  | text => quotedLine? text

structure Quotes where
  mark : Char
  lines : Bool
  deriving DecidableEq

namespace Quotes

def basicLine : Quotes := ⟨'"', false⟩

def literalLine : Quotes := ⟨'\'', false⟩

def basicLines : Quotes := ⟨'"', true⟩

def literalLines : Quotes := ⟨'\'', true⟩

def all : List Quotes := [basicLine, literalLine, basicLines, literalLines]

def isLiteral (q : Quotes) : Bool := q.mark = '\''

def delimiter (q : Quotes) : List Char := List.replicate (if q.lines then 3 else 1) q.mark

end Quotes

def longestRunFrom (mark : Char) (run : Nat) : List Char → Nat
  | [] => run
  | c :: rest =>
    if c = mark then longestRunFrom mark (run + 1) rest
    else max run (longestRunFrom mark 0 rest)

def longestRun (mark : Char) (text : List Char) : Nat := longestRunFrom mark 0 text

-- Whether the quotes can hold the text without an escape. A tab between double quotes is written
-- as an escape all the same.
def Quotes.hold (q : Quotes) (text : List Char) : Bool :=
  text.all (fun c => isText c || c = '\n') && (q.isLiteral || !text.contains '\\') &&
    if q.lines then longestRun q.mark text ≤ 2
    else !text.contains q.mark && !text.contains '\n'

def Quotes.best (text : List Char) : Quotes :=
  match Quotes.all.find? fun q => q.hold text with
  | some q => q
  | none => if text.contains '\n' then .basicLines else .basicLine

def upperHexDigit (d : Nat) : Char := (Text.hexDigit d).toUpper

def escape (lines : Bool) (c : Char) : List Char :=
  if c = '\\' then ['\\', '\\']
  else if c = '\x08' then ['\\', 'b']
  else if c = '\t' then ['\\', 't']
  else if c = '\n' then if lines then ['\n'] else ['\\', 'n']
  else if c = '\x0c' then ['\\', 'f']
  else if c = '\r' then ['\\', 'r']
  else if isText c then [c]
  else ['\\', 'u', '0', '0', upperHexDigit (c.toNat / 16), upperHexDigit (c.toNat % 16)]

-- `run` counts the quotes right before. In a text of several lines every third quote is escaped.
def escapeAll (lines : Bool) (run : Nat) : List Char → List Char
  | [] => []
  | c :: rest =>
    if c = '"' then
      if lines ∧ run < 2 then '"' :: escapeAll lines (run + 1) rest
      else '\\' :: '"' :: escapeAll lines 0 rest
    else escape lines c ++ escapeAll lines 0 rest

def Quotes.write (q : Quotes) (text : List Char) : List Char :=
  q.delimiter ++ (if q.lines ∧ text.contains '\n' then ['\n'] else [])
    ++ (if q.isLiteral then text else escapeAll q.lines 0 text) ++ q.delimiter

def quote (s : String) : String :=
  let text := s.toList
  String.ofList ((Quotes.best text).write text)

end Solid.Toml
