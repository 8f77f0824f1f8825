import Solid.Node.Make
import Solid.Proofs.Doubles
namespace Solid

-- Equal as numbers, so that a point with a negative zero is not another point.
def Point2.Same (p q : Point2) : Prop := p.x == q.x ∧ p.y == q.y

def Point2.Finite (p : Point2) : Prop := p.x.isFinite ∧ p.y.isFinite

def Point3.Finite (p : Point3) : Prop := p.x.isFinite ∧ p.y.isFinite ∧ p.z.isFinite

-- Every component is 0 or 1 and one of them is 1.
def Point3.Axes (p : Point3) : Prop :=
  (p.x == 0.0 ∨ p.x == 1.0) ∧ (p.y == 0.0 ∨ p.y == 1.0) ∧ (p.z == 0.0 ∨ p.z == 1.0) ∧
    (p.x == 1.0 ∨ p.y == 1.0 ∨ p.z == 1.0)

theorem axes_finite {p : Point3} (axes : p.Axes) : p.Finite := by
  have zero : (0.0 : Float).isFinite := by decide
  have one : (1.0 : Float).isFinite := by decide
  have number {x : Float} (known : x == 0.0 ∨ x == 1.0) : x.isFinite :=
    known.elim (Doubles.beq_finite zero) (Doubles.beq_finite one)
  exact ⟨number axes.1, number axes.2.1, number axes.2.2.1⟩

def Positive (x : Float) : Prop := x.isFinite ∧ 0.0 < x

def Nonzero (x : Float) : Prop := x.isFinite ∧ ¬x == 0.0

structure Ring (points : List Point2) : Prop where
  long : 4 ≤ points.length
  finite : ∀ p ∈ points, p.Finite
  closed : ∃ p q, points.head? = some p ∧ points.getLast? = some q ∧ p.Same q
  vertices : ∃ p ∈ vertices points, ∃ q ∈ vertices points, ∃ r ∈ vertices points,
    ¬p.Same q ∧ ¬p.Same r ∧ ¬q.Same r

theorem Ring.vertices_long {points : List Point2} (ring : Ring points) : 3 ≤ (Solid.vertices points).length := by
  have long := ring.long
  rw [Solid.vertices, List.length_dropLast]
  omega

theorem Ring.vertices_finite {points : List Point2} (ring : Ring points) :
    ∀ p ∈ Solid.vertices points, p.Finite :=
  fun p member => ring.finite p (List.dropLast_subset _ member)

structure Mesh.Valid (m : Mesh) : Prop where
  points : 4 ≤ m.points.length
  finite : ∀ p ∈ m.points, p.Finite
  faces : m.triangles ≠ [] ∨ m.quads ≠ []
  triangles : ∀ t ∈ m.triangles, ∀ i ∈ t.corners, i < m.points.length
  quads : ∀ q ∈ m.quads, ∀ i ∈ q.corners, i < m.points.length

def Shape.Valid : Shape → Prop
  | .circle r => Positive r
  | .circleSector r a => Positive r ∧ Positive a ∧ a ≤ 360.0
  | .rectangle w h => Positive w ∧ Positive h
  | .polygon points => Ring points
  | .cube w h d => Positive w ∧ Positive h ∧ Positive d
  | .sphere r => Positive r
  | .cylinder h r r' => Positive h ∧ Positive r ∧ Positive r'
  | .polyhedron m => m.Valid

def Transform.Valid : Transform → Prop
  | .translate p => p.Finite
  | .rotate degrees axes => degrees.isFinite ∧ axes.Axes
  | .scale p => Nonzero p.x ∧ Nonzero p.y ∧ Nonzero p.z
  | .mirror axes => axes.Axes
  | .linearExtrusion height twist => height.isFinite ∧ twist.isFinite
  | .rotateExtrusion => True

-- How many items a combination may have.
def Combination.Admits (c : Combination) (count : Nat) : Prop :=
  match c with
  | .union true => 1 ≤ count
  | .union false | .difference | .intersection => 2 ≤ count

namespace Node

mutual

-- The nodes of a tree, each before its children.
def preorder : Node → List Node
  | shape s => [shape s]
  | transform t item => transform t item :: item.preorder
  | combine c items => combine c items :: preorderAll items

def preorderAll : List Node → List Node
  | [] => []
  | node :: rest => node.preorder ++ preorderAll rest

end

-- The parameters of the node itself.
def Proper : Node → Prop
  | shape s => s.Valid
  | transform t _ => t.Valid
  | combine c items => c.Admits items.length

def Valid (node : Node) : Prop := ∀ n ∈ node.preorder, n.Proper

@[elab_as_elim]
theorem induction {motive : Node → Prop} (shape : ∀ s, motive (.shape s))
    (transform : ∀ t item, motive item → motive (.transform t item))
    (combine : ∀ c items, (∀ item ∈ items, motive item) → motive (.combine c items))
    (node : Node) : motive node := by
  cases node with
  | shape s => exact shape s
  | transform t item => exact transform t item (induction shape transform combine item)
  | combine c items =>
    exact combine c items fun item member => induction shape transform combine item
termination_by sizeOf node
decreasing_by
  · simp only [Node.transform.sizeOf_spec]
    omega
  · have := List.sizeOf_lt_of_mem member
    simp only [Node.combine.sizeOf_spec]
    omega

theorem mem_preorderAll {n : Node} {nodes : List Node} :
    n ∈ preorderAll nodes ↔ ∃ node ∈ nodes, n ∈ node.preorder := by
  induction nodes with
  | nil => simp [preorderAll]
  | cons node rest ih => simp [preorderAll, ih]

theorem mem_preorder (node : Node) : node ∈ node.preorder := by
  cases node <;> simp [preorder]

theorem valid_shape {s : Shape} : (shape s).Valid ↔ s.Valid := by
  simp [Valid, preorder, Proper]

theorem valid_transform {t : Transform} {item : Node} :
    (transform t item).Valid ↔ t.Valid ∧ item.Valid := by
  simp [Valid, preorder, Proper]

theorem valid_combine {c : Combination} {items : List Node} :
    (combine c items).Valid ↔ c.Admits items.length ∧ ∀ item ∈ items, item.Valid := by
  simp only [Valid, preorder, List.mem_cons, forall_eq_or_imp, Proper, mem_preorderAll]
  grind

theorem valid_iff {node : Node} : node.Valid ↔ node.Proper ∧ ∀ child ∈ node.children, child.Valid := by
  cases node with
  | shape s => simp [valid_shape, Proper, children]
  | transform t item => simp [valid_transform, Proper, children]
  | combine c items => exact valid_combine

theorem valid_children {node : Node} (valid : node.Valid) : ∀ child ∈ node.children, child.Valid :=
  (valid_iff.mp valid).2

end Node

end Solid
