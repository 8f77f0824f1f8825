import Solid.Decimal
import Solid.Config
import Solid.Node.Json
import Solid.Backend
namespace Solid.Report

-- Microseconds below a millisecond are written as they are. Longer times have two decimals of
-- the double nearest to the quotient.
def duration (micros : Nat) : String :=
  if micros < 1000 then Decimal.text micros ++ "µs"
  else if micros < 1000000 then
    Decimal.hundredths (Decimal.toHundredths (Float.ofNat micros / 1000.0)) ++ "ms"
  else Decimal.hundredths (Decimal.toHundredths (Float.ofNat micros / 1000000.0)) ++ "s"

end Solid.Report

namespace Solid

structure Report where
  input : String
  trees : Nat
  nodes : Nat
  lines : Nat
  output : String
  micros : Nat
  deriving DecidableEq

namespace Report

-- A newline ends a line. The last line may do without one.
def lineCount (text : String) : Nat :=
  let characters := text.toList
  characters.count '\n' + if characters.getLast?.any (· ≠ '\n') then 1 else 0

def rule : String := String.ofList (List.replicate 80 '━')

def text (r : Report) : String :=
  String.join ((["", rule, "Rendered: " ++ r.input, rule,
    "  Trees: " ++ Decimal.text r.trees,
    "  Nodes: " ++ Decimal.text r.nodes,
    "  Lines: " ++ Decimal.text r.lines,
    "  Output: " ++ r.output,
    "  Time: " ++ duration r.micros,
    rule, "✅ Done"]).map (· ++ "\n"))

end Report

inductive SessionError where
  | unreadable (path : String) (cause : FileError)
  | unloadable (path : String) (cause : LoadError)
  | unconnected (path : String) (cause : ConnectError)
  | unrendered (path : String) (cause : RenderError)
  | unrenderedLayers (path : String) (cause : RenderError)
  | noFolder (path : String) (cause : FileError)
  | unwritable (path : String) (cause : FileError)

def SessionError.message (detail : String) : SessionError → String
  | .unreadable path cause => "Failed to read AST file: " ++ path ++ ": " ++ cause.message
  | .unloadable path cause => "Failed to load AST file: " ++ path ++ ": " ++ cause.message detail
  | .unconnected path cause => "Failed to connect layers from " ++ path ++ ": " ++ cause.message
  | .unrendered path cause => "Failed to render " ++ path ++ ": " ++ cause.message
  | .unrenderedLayers path cause => "Failed to render layers from " ++ path ++ ": " ++ cause.message
  | .noFolder path cause => "Failed to create directory: " ++ path ++ ": " ++ cause.message
  | .unwritable path cause => "Failed to write file: " ++ path ++ ": " ++ cause.message

structure Rendering where
  source : String
  roots : List Node
  micros : Nat

def Rendering.nodeCount (r : Rendering) : Nat := Node.countAll r.roots

structure Session (m : Type → Type) where
  host : Host m
  config : Config

namespace Session
variable {m : Type → Type} [Monad m] (s : Session m)

def load (path : String) : ExceptT SessionError m (List Node) := do
  let text ← Host.attempt (.unreadable path) (s.host.read path)
  Host.attempt (.unloadable path) (pure (Node.load text))

def render (input : String) : ExceptT SessionError m Rendering := do
  let start ← s.host.now
  let roots ← s.load input
  let source ← Host.attempt (.unrendered input) (pure (OpenScad.render roots))
  let stop ← s.host.now
  return ⟨source, roots, stop - start⟩

-- The solid that the shapes of a file make when they are stacked, and its rendering. What is not
-- given comes from the configuration.
def connect (input : String) (distance : Option Float) (orientation : Option Orientation) :
    ExceptT SessionError m (Node × Rendering) := do
  let start ← s.host.now
  let layers ← s.load input
  let distance := distance.getD s.config.layerDistance
  let orientation := orientation.getD s.config.orientation
  let solid ← Host.attempt (.unconnected input) (pure (Solid.connect layers distance orientation))
  let source ← Host.attempt (.unrenderedLayers input) (pure (OpenScad.render [solid]))
  let stop ← s.host.now
  return (solid, ⟨source, [solid], stop - start⟩)

def write (output text : String) : ExceptT SessionError m String := do
  let path := s.config.outputPath output
  match Path.folders path with
  | [] => pure ()
  | folder :: above =>
    Host.attempt (.noFolder folder) (s.host.makeFolders (folder :: above))
  Host.attempt (.unwritable path) (s.host.write path text)
  return path

end Session
end Solid
