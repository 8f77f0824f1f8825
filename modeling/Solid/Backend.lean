import Solid.Node
import Solid.Document
import Solid.Geometry
import Solid.Node.Make
import Solid.Decimal
namespace Solid

inductive RenderError where
  | unsupported (backend node : String)
  deriving DecidableEq

def RenderError.message : RenderError → String
  | .unsupported backend node =>
    "the " ++ backend ++ " backend cannot render " ++ node ++ " nodes"

-- A hook gives the text of a node: the statement of a shape, the header of any other node. It may
-- read the preamble and add to it, also when it fails.
abbrev Hook := Preamble → Except RenderError String × Preamble

def Hook.plain (text : String) : Hook := fun preamble => (.ok text, preamble)

structure Backend where
  name : String
  hook : Node → Option Hook

-- `called` holds the nodes whose hooks have been called, the last one first.
structure Walk where
  preamble : Preamble
  called : List Node

def Walk.start : Walk := ⟨.empty, []⟩

abbrev Walking := Block.Writing RenderError (StateM Walk)

namespace Backend

-- How a node is named where no hook is written for it.
def refusal : Node → String
  | .shape (.circle ..) => "circle"
  | .shape (.circleSector ..) => "circle_sector"
  | .shape (.rectangle ..) => "rectangle"
  | .shape (.polygon ..) => "polygon"
  | .shape (.cube ..) => "cube"
  | .shape (.sphere ..) => "sphere"
  | .shape (.cylinder ..) => "cylinder"
  | .shape (.polyhedron ..) => "polyhedron"
  | .transform (.translate ..) _ => "translate"
  | .transform (.rotate ..) _ => "rotate"
  | .transform (.scale ..) _ => "scale"
  | .transform (.mirror ..) _ => "mirror"
  | .transform (.linearExtrusion ..) _ => "linear_extrusion"
  | .transform .rotateExtrusion _ => "rotate_extrusion"
  | .combine (.union _) _ => "union"
  | .combine .difference _ => "difference"
  | .combine .intersection _ => "intersection"

def answer (b : Backend) (node : Node) : Hook :=
  (b.hook node).getD fun preamble => (.error (.unsupported b.name (refusal node)), preamble)

def call (b : Backend) (node : Node) : Walking String := fun block w =>
  let (said, preamble) := b.answer node w.preamble
  ((said, block), ⟨preamble, node :: w.called⟩)

mutual

-- The hook of a node is called before those of its children, which go into a block of their own.
def emit (b : Backend) : Node → Walking Unit
  | .shape s => do
    let text ← b.call (.shape s)
    modify (·.statement text)
  | .transform t item => do
    let header ← b.call (.transform t item)
    Block.nested header (emit b item)
  | .combine c items => do
    let header ← b.call (.combine c items)
    Block.nested header (emitAll b items)

def emitAll (b : Backend) : List Node → Walking Unit
  | [] => return
  | node :: rest => do
    emit b node
    emitAll b rest

end

def walk (b : Backend) (nodes : List Node) : (Except RenderError Unit × Block) × Walk :=
  ((b.emitAll nodes).run.run .root).run .start

def document (b : Backend) (nodes : List Node) : Except RenderError Document :=
  match b.walk nodes with
  | ((.ok (), body), w) => .ok ⟨w.preamble, body⟩
  | ((.error e, _), _) => .error e

def render (b : Backend) (nodes : List Node) : Except RenderError String :=
  (b.document nodes).map Document.render

def calls (b : Backend) (nodes : List Node) : List Node :=
  (b.walk nodes).2.called.reverse

end Backend
end Solid

namespace Solid.OpenScad
open Decimal

def sectorKey : String := "circle_sector"

def sectorModule : String :=
  "module circle_sector(r, a) \x7b\n" ++
  "    steps = max(ceil(a / 6), 1);\n" ++
  "    fan = [for (i = [0 : steps]) " ++
  "[2 * r * cos(i * a / steps), 2 * r * sin(i * a / steps)]];\n" ++
  "    intersection() \x7b\n" ++
  "        circle(r);\n" ++
  "        polygon(concat([[0, 0]], fan));\n" ++
  "    \x7d\n" ++
  "\x7d"

def call (name : String) (arguments : List String) : String :=
  name ++ "(" ++ ", ".intercalate arguments ++ ")"

def vector (values : List Float) : String := bracketed (values.map measure)

def point2 (p : Point2) : String := vector [p.x, p.y]

def point3 (p : Point3) : String := vector [p.x, p.y, p.z]

def triangle (t : Triangle) : String := bracketed (t.corners.map text)

-- The closing point of a polygon is left out; quads are split; depth runs along y.
def shape : Shape → String
  | .circle r => call "circle" [measure r]
  | .circleSector r a => call "circle_sector" [measure r, measure a]
  | .rectangle w h => call "square" [vector [w, h]]
  | .polygon points => call "polygon" [bracketed ((vertices points).map point2)]
  | .cube w h d => call "cube" [vector [w, d, h]]
  | .sphere r => call "sphere" [measure r]
  | .cylinder h r r' => call "cylinder" [measure h, measure r, measure r']
  | .polyhedron m =>
    call "polyhedron" [bracketed (m.points.map point3), bracketed (m.triangulation.map triangle)]

def transform : Transform → String
  | .translate offset => call "translate" [point3 offset]
  | .rotate degrees axes => call "rotate" [measure degrees, point3 axes]
  | .scale factors => call "scale" [point3 factors]
  | .mirror axes => call "mirror" [point3 axes]
  | .linearExtrusion height twist => call "linear_extrude" [measure height, "twist=" ++ measure twist]
  | .rotateExtrusion => call "rotate_extrude" []

def combination : Combination → String
  | .union _ => call "union" []
  | .difference => call "difference" []
  | .intersection => call "intersection" []

def header : Node → String
  | .shape s => shape s
  | .transform t _ => transform t
  | .combine c _ => combination c

def hook (node : Node) : Hook := fun preamble =>
  if node.kind = .circleSector then
    (.ok (header node), (preamble.register sectorKey sectorModule).2)
  else (.ok (header node), preamble)

def backend : Backend := ⟨"openscad", fun node => some (hook node)⟩

def render (nodes : List Node) : Except RenderError String := backend.render nodes

end Solid.OpenScad

namespace Solid.Outline

def bracket (s : String) : String := "<" ++ s ++ ">"

def sectorHook (radius angle : Float) : Hook := fun preamble =>
  let before := Decimal.text preamble.size
  let (fresh, preamble) :=
    preamble.register "sector" ("def " ++ Decimal.measure angle ++ " // " ++ before)
  let r := Decimal.measure radius
  let (_, preamble) := preamble.register ("r" ++ r) ("radius " ++ r)
  let word := if fresh then "true" else "false"
  (.ok (bracket ("circle_sector " ++ word ++ " " ++ Decimal.text preamble.size)), preamble)

def hook : Node → Hook
  | .shape (.circleSector radius angle) => sectorHook radius angle
  | node => .plain (bracket node.kind.name)

def backend (name : String) (kinds : List Kind) : Backend :=
  ⟨name, fun node => if node.kind ∈ kinds then some (hook node) else none⟩

end Solid.Outline
