namespace Solid

inductive Kind where
  | circle | circleSector | rectangle | polygon
  | cube | sphere | cylinder | polyhedron
  | translate | rotate | scale | mirror
  | union | difference | intersection
  | linearExtrusion | rotateExtrusion
  deriving DecidableEq

namespace Kind

def all : List Kind :=
  [.circle, .circleSector, .rectangle, .polygon, .cube, .sphere, .cylinder, .polyhedron,
   .translate, .rotate, .scale, .mirror, .union, .difference, .intersection,
   .linearExtrusion, .rotateExtrusion]

def name : Kind → String
  | .circle => "circle"
  | .circleSector => "circle_sector"
  | .rectangle => "rectangle"
  | .polygon => "polygon"
  | .cube => "cube"
  | .sphere => "sphere"
  | .cylinder => "cylinder"
  | .polyhedron => "polyhedron"
  | .translate => "translate"
  | .rotate => "rotate"
  | .scale => "scale"
  | .mirror => "mirror"
  | .union => "union"
  | .difference => "difference"
  | .intersection => "intersection"
  | .linearExtrusion => "linear_extrusion"
  | .rotateExtrusion => "rotate_extrusion"

def title : Kind → String
  | .circle => "Circle"
  | .circleSector => "CircleSector"
  | .rectangle => "Rectangle"
  | .polygon => "Polygon"
  | .cube => "Cube"
  | .sphere => "Sphere"
  | .cylinder => "Cylinder"
  | .polyhedron => "Polyhedron"
  | .translate => "Translate"
  | .rotate => "Rotate"
  | .scale => "Scale"
  | .mirror => "Mirror"
  | .union => "Union"
  | .difference => "Difference"
  | .intersection => "Intersection"
  | .linearExtrusion => "LinearExtrusion"
  | .rotateExtrusion => "RotateExtrusion"

def named? (text : String) : Option Kind :=
  all.find? fun kind => kind.name == text

-- Numbers count from zero, in declaration order.
def numbered? (n : Nat) : Option Kind := all[n]?

theorem mem_all (kind : Kind) : kind ∈ all := by
  cases kind <;> decide

end Kind

structure Point2 where
  x : Float
  y : Float
  deriving DecidableEq

structure Point3 where
  x : Float
  y : Float
  z : Float
  deriving DecidableEq

-- The bits of the coordinates. Zero is added to them because it makes negative zero zero.
def Point2.key (p : Point2) : UInt64 × UInt64 := ((p.x + 0.0).toBits, (p.y + 0.0).toBits)

structure Triangle where
  a : Nat
  b : Nat
  c : Nat
  deriving DecidableEq

structure Quad where
  a : Nat
  b : Nat
  c : Nat
  d : Nat
  deriving DecidableEq

def Triangle.corners (t : Triangle) : List Nat := [t.a, t.b, t.c]

def Quad.corners (q : Quad) : List Nat := [q.a, q.b, q.c, q.d]

-- Faces are wound clockwise when seen from outside.
structure Mesh where
  points : List Point3
  triangles : List Triangle
  quads : List Quad
  deriving DecidableEq

def Mesh.faces (m : Mesh) : List (List Nat) :=
  m.triangles.map Triangle.corners ++ m.quads.map Quad.corners

inductive Shape where
  | circle (radius : Float)
  | circleSector (radius angle : Float)
  | rectangle (width height : Float)
  -- The last point repeats the first.
  | polygon (points : List Point2)
  | cube (width height depth : Float)
  | sphere (radius : Float)
  | cylinder (height radius1 radius2 : Float)
  | polyhedron (mesh : Mesh)
  deriving DecidableEq

inductive Transform where
  | translate (offset : Point3)
  | rotate (degrees : Float) (axes : Point3)
  | scale (factors : Point3)
  | mirror (axes : Point3)
  | linearExtrusion (height twist : Float)
  | rotateExtrusion
  deriving DecidableEq

inductive Combination where
  -- A union of stacked layers may have a single item.
  | union (layers : Bool)
  | difference
  | intersection
  deriving DecidableEq

inductive Node where
  | shape (shape : Shape)
  | transform (transform : Transform) (item : Node)
  | combine (combination : Combination) (items : List Node)

def Shape.kind : Shape → Kind
  | .circle .. => .circle
  | .circleSector .. => .circleSector
  | .rectangle .. => .rectangle
  | .polygon .. => .polygon
  | .cube .. => .cube
  | .sphere .. => .sphere
  | .cylinder .. => .cylinder
  | .polyhedron .. => .polyhedron

def Transform.kind : Transform → Kind
  | .translate .. => .translate
  | .rotate .. => .rotate
  | .scale .. => .scale
  | .mirror .. => .mirror
  | .linearExtrusion .. => .linearExtrusion
  | .rotateExtrusion => .rotateExtrusion

def Combination.kind : Combination → Kind
  | .union _ => .union
  | .difference => .difference
  | .intersection => .intersection

namespace Node

def kind : Node → Kind
  | shape s => s.kind
  | transform t _ => t.kind
  | combine c _ => c.kind

def children : Node → List Node
  | shape _ => []
  | transform _ item => [item]
  | combine _ items => items

mutual

def count : Node → Nat
  | shape _ => 1
  | transform _ item => 1 + item.count
  | combine _ items => 1 + countAll items

def countAll : List Node → Nat
  | [] => 0
  | node :: rest => node.count + countAll rest

end

end Node

def vertices (points : List Point2) : List Point2 := points.dropLast

def Point2.equal (p q : Point2) : Bool := p.x == q.x && p.y == q.y

def Point3.equal (p q : Point3) : Bool := p.x == q.x && p.y == q.y && p.z == q.z

def equalLists (equal : α → α → Bool) : List α → List α → Bool
  | [], [] => true
  | x :: xs, y :: ys => equal x y && equalLists equal xs ys
  | _, _ => false

def Mesh.equal (m n : Mesh) : Bool :=
  equalLists Point3.equal m.points n.points && m.triangles == n.triangles && m.quads == n.quads

def Shape.equal : Shape → Shape → Bool
  | .circle r, .circle r' => r == r'
  | .circleSector r a, .circleSector r' a' => r == r' && a == a'
  | .rectangle w h, .rectangle w' h' => w == w' && h == h'
  | .polygon ps, .polygon ps' => equalLists Point2.equal ps ps'
  | .cube w h d, .cube w' h' d' => w == w' && h == h' && d == d'
  | .sphere r, .sphere r' => r == r'
  | .cylinder h r s, .cylinder h' r' s' => h == h' && r == r' && s == s'
  | .polyhedron m, .polyhedron m' => m.equal m'
  | _, _ => false

def Transform.equal : Transform → Transform → Bool
  | .translate p, .translate p' => p.equal p'
  | .rotate d p, .rotate d' p' => d == d' && p.equal p'
  | .scale p, .scale p' => p.equal p'
  | .mirror p, .mirror p' => p.equal p'
  | .linearExtrusion h t, .linearExtrusion h' t' => h == h' && t == t'
  | .rotateExtrusion, .rotateExtrusion => true
  | _, _ => false

namespace Node

mutual

def equal : Node → Node → Bool
  | .shape s, .shape s' => s.equal s'
  | .transform t item, .transform t' item' => t.equal t' && equal item item'
  | .combine c items, .combine c' items' => c == c' && equalAll items items'
  | _, _ => false

def equalAll : List Node → List Node → Bool
  | [], [] => true
  | node :: rest, node' :: rest' => equal node node' && equalAll rest rest'
  | _, _ => false

end

end Node
end Solid
