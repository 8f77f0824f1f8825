namespace Solid

inductive Line where
  | statement (text : String)
  | blank
  | block (header : String) (lines : List Line)

structure Block where
  header : Option String
  lines : List Line

namespace Line

def indent : String := "    "

def indented (line : String) : String := if line = "" then line else indent ++ line

def indentFrom (start : Nat) (out : Array String) : Array String :=
  out.mapIdx fun i line => if start ≤ i then indented line else line

mutual

-- Writes behind what is already there. A block indents its lines by one step once all of them
-- are written, so that a line at depth `d` is indented `d` times.
def write (out : Array String) : Line → Array String
  | .statement text => out.push (text ++ ";")
  | .blank => out.push ""
  | .block header lines =>
    let opened := (out.push header).push "\x7b"
    (indentFrom opened.size (writeAll opened lines)).push "\x7d;"

def writeAll (out : Array String) : List Line → Array String
  | [] => out
  | line :: rest => writeAll (line.write out) rest

end

end Line

namespace Block

def root : Block := ⟨none, []⟩

def titled (header : String) : Block := ⟨some header, []⟩

def append (b : Block) (line : Line) : Block := { b with lines := b.lines ++ [line] }

def statement (b : Block) (text : String) : Block := b.append (.statement text)

def blank (b : Block) : Block := b.append .blank

-- Calls on a block that may fail. What they have done to it by then stays.
abbrev Writing (ε : Type) (m : Type → Type) := ExceptT ε (StateT Block m)

-- Fills a new block, which is dropped when the filling fails.
def nested [Monad m] (header : String) (fill : Writing ε m Unit) : Writing ε m Unit := fun b => do
  let (result, child) ← fill (titled header)
  match result with
  | .ok () => return (.ok (), b.append (.block header child.lines))
  | .error e => return (.error e, b)

def isEmpty (b : Block) : Bool := b.lines.isEmpty

def write (out : Array String) (b : Block) : Array String :=
  match b.header with
  | none => Line.writeAll out b.lines
  | some header => (Line.block header b.lines).write out

def text (b : Block) : List String := (b.write #[]).toList

end Block

-- Definitions that stand once at the top of a document, each under its key, in the order in
-- which they came. The keys are a set, and their texts stand apart from them: a new key and its
-- text are added together, and nothing else holds the two together.
structure Preamble where
  keys : List String
  fragments : List String

namespace Preamble

def empty : Preamble := ⟨[], []⟩

def contains (p : Preamble) (key : String) : Bool := p.keys.contains key

def register (p : Preamble) (key text : String) : Bool × Preamble :=
  if p.contains key then (false, p) else (true, ⟨p.keys.insert key, p.fragments ++ [text]⟩)

def size (p : Preamble) : Nat := p.fragments.length

def isEmpty (p : Preamble) : Bool := p.fragments.isEmpty

end Preamble

structure Document where
  preamble : Preamble
  body : Block

namespace Document

def empty : Document := ⟨.empty, .root⟩

def lines (d : Document) : List String :=
  let top := d.preamble.fragments
  top ++ (if top.isEmpty then [] else [""]) ++ d.body.text

def render (d : Document) : String := "\n".intercalate d.lines

end Document
end Solid
