import Solid.Node
import Solid.Decimal
namespace Solid

inductive Fault where
  | notFinite (parameter : String) (value : Float)
  | notPositive (parameter : String) (value : Float)
  | zero (parameter : String)
  | angle (value : Float)
  | axisCount (count : Nat)
  | axisValue (value : Float)
  | noAxis
  | shortRing (count : Nat)
  | openRing
  | fewVertices (count : Nat)
  | fewPoints (count : Nat)
  | noFaces
  | missingPoint (face : List Nat) (index count : Nat)
  | fewItems (count : Nat)
  | noLayers
  deriving DecidableEq

def bracketed (parts : List String) : String := "[" ++ ", ".intercalate parts ++ "]"

open Decimal in
def Fault.message : Fault → String
  | .notFinite parameter x => parameter ++ " must be a finite number, got " ++ measure x
  | .notPositive parameter x => parameter ++ " must be a positive number, got " ++ measure x
  | .zero parameter => parameter ++ " must not be 0"
  | .angle x => "angle must be in (0, 360], got " ++ measure x
  | .axisCount n => "vector must have exactly 3 components, got " ++ text n
  | .axisValue x => "vector components must be 0 or 1, got " ++ measure x
  | .noAxis => "vector must not be all zeros"
  | .shortRing n =>
    "at least 4 points (3 vertices plus the closing point) are required, got " ++ text n
  | .openRing => "polygon is not closed, the last point must equal the first"
  | .fewVertices n => "at least 3 distinct vertices are required, got " ++ text n
  | .fewPoints n => "at least 4 points are required, got " ++ text n
  | .noFaces => "at least one of triangles or quads must be provided"
  | .missingPoint face index count =>
    "face " ++ bracketed (face.map text) ++ " references point " ++ text index
      ++ ", but only " ++ text count ++ " points exist"
  | .fewItems n => "at least 2 items are required, got " ++ text n
  | .noLayers => "a layer union needs at least 1 item"

structure Invalid where
  kind : Kind
  fault : Fault
  deriving DecidableEq

def Invalid.message (e : Invalid) : String :=
  "invalid " ++ e.kind.name ++ ": " ++ e.fault.message

abbrev Check := Except Fault Unit

namespace Check

def all (check : α → Check) : List α → Check
  | [] => .ok ()
  | x :: rest => do
    check x
    all check rest

def refuse (bad : Bool) (fault : Fault) : Check := if bad then .error fault else .ok ()

def finite (parameter : String) (x : Float) : Check :=
  refuse (!x.isFinite) (.notFinite parameter x)

def positive (parameter : String) (x : Float) : Check :=
  refuse (!(0.0 < x && x.isFinite)) (.notPositive parameter x)

def nonzero (parameter : String) (x : Float) : Check := do
  finite parameter x
  refuse (x == 0.0) (.zero parameter)

def angle (x : Float) : Check := refuse (!(0.0 < x && x ≤ 360.0)) (.angle x)

def atLeastTwo (count : Nat) : Check := refuse (count < 2) (.fewItems count)

end Check

namespace Check

def distinct [DecidableEq α] : List α → List α
  | [] => []
  | a :: rest =>
    let others := distinct rest
    if a ∈ others then others else a :: others

def distinctCount (points : List Point2) : Nat := (distinct (points.map Point2.key)).length

def closed (points : List Point2) : Bool :=
  match points.head?, points.getLast? with
  | some p, some q => p.x == q.x && p.y == q.y
  | _, _ => true

def finitePoint2 (p : Point2) : Check := do
  finite "x" p.x
  finite "y" p.y

def ring (points : List Point2) : Check := do
  refuse (points.length < 4) (.shortRing points.length)
  all finitePoint2 points
  refuse (!closed points) .openRing
  refuse (distinctCount (vertices points) < 3) (.fewVertices (distinctCount (vertices points)))

def finitePoint3 (p : Point3) : Check := do
  finite "point coordinate" p.x
  finite "point coordinate" p.y
  finite "point coordinate" p.z

-- Blames the first corner without a point.
def face (count : Nat) (corners : List Nat) : Check :=
  match corners.find? (count ≤ ·) with
  | some index => .error (.missingPoint corners index count)
  | none => .ok ()

def mesh (m : Mesh) : Check := do
  refuse (m.points.length < 4) (.fewPoints m.points.length)
  all finitePoint3 m.points
  refuse (m.triangles.isEmpty && m.quads.isEmpty) .noFaces
  all (face m.points.length) m.faces

def axis (x : Float) : Check := refuse (!(x == 0.0 || x == 1.0)) (.axisValue x)

-- Three components, each 0 or 1, of which one is 1.
def axes (vector : List Float) : Except Fault Point3 :=
  match vector with
  | [x, y, z] => do
    all axis [x, y, z]
    refuse (x == 0.0 && y == 0.0 && z == 0.0) .noAxis
    return ⟨x, y, z⟩
  | _ => .error (.axisCount vector.length)

end Check

namespace Node
open Check

-- The node that a successful check allows; a fault is blamed on the kind.
def made (kind : Kind) (check : Except Fault Node) : Except Invalid Node :=
  match check with
  | .ok node => .ok node
  | .error fault => .error ⟨kind, fault⟩

def circle (radius : Float) : Except Invalid Node :=
  made .circle do
    positive "radius" radius
    return shape (.circle radius)

def circleSector (radius angle : Float) : Except Invalid Node :=
  made .circleSector do
    positive "radius" radius
    Check.angle angle
    return shape (.circleSector radius angle)

def rectangle (width height : Float) : Except Invalid Node :=
  made .rectangle do
    positive "width" width
    positive "height" height
    return shape (.rectangle width height)

def polygon (points : List Point2) : Except Invalid Node :=
  made .polygon do
    ring points
    return shape (.polygon points)

def cube (width height depth : Float) : Except Invalid Node :=
  made .cube do
    positive "width" width
    positive "height" height
    positive "depth" depth
    return shape (.cube width height depth)

def sphere (radius : Float) : Except Invalid Node :=
  made .sphere do
    positive "radius" radius
    return shape (.sphere radius)

def cylinder (height radius1 radius2 : Float) : Except Invalid Node :=
  made .cylinder do
    positive "height" height
    positive "radius1" radius1
    positive "radius2" radius2
    return shape (.cylinder height radius1 radius2)

def polyhedron (points : List Point3) (triangles : List Triangle) (quads : List Quad) :
    Except Invalid Node :=
  made .polyhedron do
    let m : Mesh := ⟨points, triangles, quads⟩
    mesh m
    return shape (.polyhedron m)

def ofTriangles (points : List Point3) (triangles : List Triangle) : Except Invalid Node :=
  polyhedron points triangles []

def ofQuads (points : List Point3) (quads : List Quad) : Except Invalid Node :=
  polyhedron points [] quads

def translate (x y z : Float) (item : Node) : Except Invalid Node :=
  made .translate do
    finite "x" x
    finite "y" y
    finite "z" z
    return transform (.translate ⟨x, y, z⟩) item

def rotate (degrees : Float) (vector : List Float) (item : Node) : Except Invalid Node :=
  made .rotate do
    finite "degrees" degrees
    let around ← axes vector
    return transform (.rotate degrees around) item

def scale (x y z : Float) (item : Node) : Except Invalid Node :=
  made .scale do
    nonzero "x" x
    nonzero "y" y
    nonzero "z" z
    return transform (.scale ⟨x, y, z⟩) item

def mirror (vector : List Float) (item : Node) : Except Invalid Node :=
  made .mirror do
    let across ← axes vector
    return transform (.mirror across) item

def union (items : List Node) : Except Invalid Node :=
  made .union do
    atLeastTwo items.length
    return combine (.union false) items

def layers (items : List Node) : Except Invalid Node :=
  made .union do
    refuse items.isEmpty .noLayers
    return combine (.union true) items

def difference (items : List Node) : Except Invalid Node :=
  made .difference do
    atLeastTwo items.length
    return combine .difference items

def intersection (items : List Node) : Except Invalid Node :=
  made .intersection do
    atLeastTwo items.length
    return combine .intersection items

def linearExtrusion (height twist : Float) (item : Node) : Except Invalid Node :=
  made .linearExtrusion do
    finite "height" height
    finite "twist" twist
    return transform (.linearExtrusion height twist) item

def rotateExtrusion (item : Node) : Node := transform .rotateExtrusion item

end Node
end Solid
