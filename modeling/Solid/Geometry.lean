import Solid.Node.Make
import Solid.Text
namespace Solid

def Quad.split (q : Quad) : List Triangle := [⟨q.a, q.b, q.c⟩, ⟨q.a, q.c, q.d⟩]

abbrev Edge := Nat × Nat

def Triangle.edges (t : Triangle) : List Edge := [(t.a, t.b), (t.b, t.c), (t.c, t.a)]

def Quad.edges (q : Quad) : List Edge := [(q.a, q.b), (q.b, q.c), (q.c, q.d), (q.d, q.a)]

namespace Mesh

def triangulation (m : Mesh) : List Triangle := m.triangles ++ m.quads.flatMap Quad.split

def edges (m : Mesh) : List Edge := m.triangulation.flatMap Triangle.edges

-- How often an edge is walked, in a counter of 32 bits. Behind its last value comes zero again.
def walked (edges : List Edge) (e : Edge) : UInt32 :=
  edges.foldl (fun n f => if f = e then n + 1 else n) 0

def isWatertight (m : Mesh) : Bool :=
  let edges := m.edges
  edges.all fun (u, v) => walked edges (u, v) == 1 && walked edges (v, u) == 1

end Mesh

inductive Orientation where
  | vertical
  | horizontal
  deriving DecidableEq

def Orientation.name : Orientation → String
  | .vertical => "vertical"
  | .horizontal => "horizontal"

inductive ConnectError where
  | tooFewShapes (count : Nat)
  | mixedShapes (lower upper : Kind)
  | vertexCounts (lower upper : Nat)
  | unsupportedShape (kind : Kind)
  | layerDistance (distance : Float)
  | orientation (text : String)
  | invalid (e : Invalid)
  deriving DecidableEq

open Decimal in
def ConnectError.message : ConnectError → String
  | .tooFewShapes n =>
    "at least two shapes are required to connect layers, got " ++ Decimal.text n
  | .mixedShapes lower upper =>
    "joining different shape types is not supported (" ++ lower.name ++ " followed by "
      ++ upper.name ++ ")"
  | .vertexCounts lower upper =>
    "polygons must have the same number of vertices (" ++ Decimal.text lower ++ " vs "
      ++ Decimal.text upper ++ ")"
  | .unsupportedShape kind => "connecting " ++ kind.name ++ " layers is not supported"
  | .layerDistance d => "layer distance must be a positive number, got " ++ measure d
  | .orientation text =>
    "invalid orientation " ++ Text.quoted text ++ ", expected \"vertical\" or \"horizontal\""
  | .invalid e => e.message

def Orientation.named (text : String) : Except ConnectError Orientation :=
  if text = "vertical" then .ok .vertical
  else if text = "horizontal" then .ok .horizontal
  else .error (.orientation text)

namespace Layers

def lifted (z : Float) (p : Point2) : Point3 := ⟨p.x, p.y, z⟩

def corners (width height : Float) : List Point2 :=
  let x := width / 2.0
  let y := height / 2.0
  [⟨-x, -y⟩, ⟨-x, y⟩, ⟨x, y⟩, ⟨x, -y⟩]

def boxQuads : List Quad :=
  [⟨0, 3, 2, 1⟩, ⟨0, 1, 5, 4⟩, ⟨1, 2, 6, 5⟩, ⟨2, 3, 7, 6⟩, ⟨3, 0, 4, 7⟩, ⟨4, 5, 6, 7⟩]

-- The sides between two rings of `n` points each; the ring above follows the ring below.
def sideQuads (n : Nat) : List Quad :=
  (List.range n).map fun j =>
    let next := (j + 1) % n
    ⟨j, next, n + next, n + j⟩

-- Both ends, each a fan from the first point of its ring. The bottom is reversed, so that it
-- faces down.
def capTriangles (n : Nat) : List Triangle :=
  (List.range' 1 (n - 2)).map (fun j => ⟨0, j + 1, j⟩)
    ++ (List.range' 1 (n - 2)).map (fun j => ⟨n, n + j, n + j + 1⟩)

def rings (lower upper : List Point2) (height : Float) : List Point3 :=
  lower.map (lifted 0.0) ++ upper.map (lifted height)

def frustum (width height width' height' distance : Float) : Except Invalid Node :=
  Node.ofQuads (rings (corners width height) (corners width' height') distance) boxQuads

def prism (lower upper : List Point2) (distance : Float) : Except ConnectError Node :=
  let n := lower.length
  if n = upper.length then
    (Node.polyhedron (rings lower upper distance) (capTriangles n) (sideQuads n)).mapError .invalid
  else .error (.vertexCounts n upper.length)

def join (lower upper : Node) (distance : Float) : Except ConnectError Node :=
  match lower, upper with
  | .shape (.circle r), .shape (.circle r') => (Node.cylinder distance r r').mapError .invalid
  | .shape (.rectangle w h), .shape (.rectangle w' h') =>
    (frustum w h w' h' distance).mapError .invalid
  | .shape (.polygon points), .shape (.polygon points') =>
    prism (vertices points) (vertices points') distance
  | _, _ =>
    if lower.kind = upper.kind then .error (.unsupportedShape lower.kind)
    else .error (.mixedShapes lower.kind upper.kind)

def stack (distance : Float) (i : Nat) : List Node → Except ConnectError (List Node)
  | lower :: upper :: rest => do
    let solid ← join lower upper distance
    let placed ← (Node.translate 0.0 0.0 (Float.ofNat i * distance) solid).mapError .invalid
    let above ← stack distance (i + 1) (upper :: rest)
    return placed :: above
  | _ => .ok []

end Layers

-- The solid through all layers. Lying down, it is turned about the y axis.
def connect (shapes : List Node) (distance : Float) (orientation : Orientation) :
    Except ConnectError Node :=
  if shapes.length < 2 then .error (.tooFewShapes shapes.length)
  else if 0.0 < distance && distance.isFinite then do
    let solids ← Layers.stack distance 0 shapes
    let tower ← (Node.layers solids).mapError .invalid
    match orientation with
    | .vertical => return tower
    | .horizontal => (Node.rotate 90.0 [0.0, 1.0, 0.0] tower).mapError .invalid
  else .error (.layerDistance distance)

end Solid
