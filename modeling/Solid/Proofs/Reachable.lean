import Solid.Node
import Solid.Proofs.Loading
import Solid.Proofs.Nulls
import Solid.Proofs.Watertight
namespace Solid

theorem valid_kept : Kept Node.Valid :=
  fun _ _ _ held made => Node.valid_iff.mpr (made_parts held made)

theorem joined_valid {node : Node} (joined : Layers.Joined node) : node.Valid := by
  cases joined with
  | round valid _ => exact Node.valid_shape.mpr valid
  | edged valid _ => exact Node.valid_shape.mpr valid

-- The layers themselves may be anything: the solids between them are made anew.
theorem connect_valid {shapes : List Node} {distance : Float} {orientation : Orientation} {node : Node}
    (connected : connect shapes distance orientation = .ok node) : node.Valid := by
  obtain ⟨solids, tower, stacked, rfl, some, turned⟩ := connect_tower connected
  have tower : (Node.combine (.union true) solids).Valid := by
    refine Node.valid_combine.mpr ⟨some, fun placed member => ?_⟩
    obtain ⟨offset, solid, rfl, finite, joined⟩ := Layers.stack_placed stacked placed member
    exact Node.valid_transform.mpr ⟨finite, joined_valid joined⟩
  rcases turned with rfl | ⟨axes, valid, rfl⟩
  · exact tower
  · have right : (90.0 : Float).isFinite := by decide
    exact Node.valid_transform.mpr ⟨⟨right, valid⟩, tower⟩

-- Everything a caller can get hold of.
inductive Obtained : Node → Prop
  | circle {r node} (made : Node.circle r = .ok node) : Obtained node
  | circleSector {r a node} (made : Node.circleSector r a = .ok node) : Obtained node
  | rectangle {w h node} (made : Node.rectangle w h = .ok node) : Obtained node
  | polygon {points node} (made : Node.polygon points = .ok node) : Obtained node
  | cube {w h d node} (made : Node.cube w h d = .ok node) : Obtained node
  | sphere {r node} (made : Node.sphere r = .ok node) : Obtained node
  | cylinder {h r r' node} (made : Node.cylinder h r r' = .ok node) : Obtained node
  | polyhedron {points triangles quads node} (made : Node.polyhedron points triangles quads = .ok node) :
    Obtained node
  | ofTriangles {points triangles node} (made : Node.ofTriangles points triangles = .ok node) :
    Obtained node
  | ofQuads {points quads node} (made : Node.ofQuads points quads = .ok node) : Obtained node
  | translate {x y z item node} (earlier : Obtained item) (made : Node.translate x y z item = .ok node) :
    Obtained node
  | rotate {degrees vector item node} (earlier : Obtained item)
    (made : Node.rotate degrees vector item = .ok node) : Obtained node
  | scale {x y z item node} (earlier : Obtained item) (made : Node.scale x y z item = .ok node) :
    Obtained node
  | mirror {vector item node} (earlier : Obtained item) (made : Node.mirror vector item = .ok node) :
    Obtained node
  | union {items node} (earlier : ∀ item ∈ items, Obtained item) (made : Node.union items = .ok node) :
    Obtained node
  | difference {items node} (earlier : ∀ item ∈ items, Obtained item)
    (made : Node.difference items = .ok node) : Obtained node
  | intersection {items node} (earlier : ∀ item ∈ items, Obtained item)
    (made : Node.intersection items = .ok node) : Obtained node
  | linearExtrusion {height twist item node} (earlier : Obtained item)
    (made : Node.linearExtrusion height twist item = .ok node) : Obtained node
  | rotateExtrusion {item} (earlier : Obtained item) : Obtained (Node.rotateExtrusion item)
  | load {text nodes node} (loaded : Node.load text = .ok nodes) (member : node ∈ nodes) : Obtained node
  | connect {shapes distance orientation node} (earlier : ∀ shape ∈ shapes, Obtained shape)
    (connected : connect shapes distance orientation = .ok node) : Obtained node
  | child {node child} (earlier : Obtained node) (member : child ∈ node.children) : Obtained child

theorem obtained_valid {node : Node} (obtained : Obtained node) : node.Valid := by
  induction obtained with
  | circle made => exact valid_kept .circle (_, ()) _ ⟨trivial, trivial⟩ made
  | circleSector made => exact valid_kept .circleSector (_, _, ()) _ ⟨trivial, trivial, trivial⟩ made
  | rectangle made => exact valid_kept .rectangle (_, _, ()) _ ⟨trivial, trivial, trivial⟩ made
  | polygon made => exact valid_kept .polygon (_, ()) _ ⟨trivial, trivial⟩ made
  | cube made => exact valid_kept .cube (_, _, _, ()) _ ⟨trivial, trivial, trivial, trivial⟩ made
  | sphere made => exact valid_kept .sphere (_, ()) _ ⟨trivial, trivial⟩ made
  | cylinder made => exact valid_kept .cylinder (_, _, _, ()) _ ⟨trivial, trivial, trivial, trivial⟩ made
  | polyhedron made | ofTriangles made | ofQuads made =>
    exact valid_kept .polyhedron (_, _, _, ()) _ ⟨trivial, trivial, trivial, trivial⟩ made
  | translate _ made ih =>
    exact valid_kept .translate (_, _, _, _, ()) _ ⟨trivial, trivial, trivial, ih, trivial⟩ made
  | rotate _ made ih => exact valid_kept .rotate (_, _, _, ()) _ ⟨trivial, trivial, ih, trivial⟩ made
  | scale _ made ih =>
    exact valid_kept .scale (_, _, _, _, ()) _ ⟨trivial, trivial, trivial, ih, trivial⟩ made
  | mirror _ made ih => exact valid_kept .mirror (_, _, ()) _ ⟨trivial, ih, trivial⟩ made
  | union _ made ih => exact valid_kept .union (_, false, ()) _ ⟨ih, trivial, trivial⟩ made
  | difference _ made ih => exact valid_kept .difference (_, ()) _ ⟨ih, trivial⟩ made
  | intersection _ made ih => exact valid_kept .intersection (_, ()) _ ⟨ih, trivial⟩ made
  | linearExtrusion _ made ih =>
    exact valid_kept .linearExtrusion (_, _, _, ()) _ ⟨trivial, trivial, ih, trivial⟩ made
  | rotateExtrusion _ ih => exact valid_kept .rotateExtrusion (_, ()) _ ⟨ih, trivial⟩ rfl
  | load loaded member => exact load_held valid_kept loaded _ member
  | connect _ connected => exact connect_valid connected
  | child _ member ih => exact Node.valid_children ih _ member

theorem point2_equal {p : Point2} (finite : p.Finite) : p.equal p = true := by
  simp only [Point2.equal, Doubles.beq_self finite.1, Doubles.beq_self finite.2, Bool.and_self]

theorem point3_equal {p : Point3} (finite : p.Finite) : p.equal p = true := by
  simp only [Point3.equal, Doubles.beq_self finite.1, Doubles.beq_self finite.2.1,
    Doubles.beq_self finite.2.2, Bool.and_self]

theorem equalLists_self {α : Type} {equal : α → α → Bool} {xs : List α}
    (self : ∀ x ∈ xs, equal x x = true) : equalLists equal xs xs = true := by
  induction xs with
  | nil => rfl
  | cons x rest ih =>
    obtain ⟨first, others⟩ := List.forall_mem_cons.mp self
    simp only [equalLists, first, ih others, Bool.and_self]

theorem shape_equal {s : Shape} (valid : s.Valid) : s.equal s = true := by
  have number {x : Float} (positive : Positive x) : (x == x) = true := Doubles.beq_self positive.1
  cases s with
  | circle r | sphere r => exact number valid
  | circleSector r a => simp only [Shape.equal, number valid.1, number valid.2.1, Bool.and_self]
  | rectangle w h => simp only [Shape.equal, number valid.1, number valid.2, Bool.and_self]
  | polygon points => exact equalLists_self fun p member => point2_equal (valid.finite p member)
  | cube | cylinder =>
    simp only [Shape.equal, number valid.1, number valid.2.1, number valid.2.2, Bool.and_self]
  | polyhedron m =>
    have points := equalLists_self fun p member => point3_equal (valid.finite p member)
    simp only [Shape.equal, Mesh.equal, points, beq_self_eq_true, Bool.and_self]

theorem transform_equal {t : Transform} (valid : t.Valid) : t.equal t = true := by
  cases t with
  | translate p => exact point3_equal valid
  | rotate degrees axes =>
    simp only [Transform.equal, Doubles.beq_self valid.1, point3_equal (axes_finite valid.2), Bool.and_self]
  | scale p => exact point3_equal ⟨valid.1.1, valid.2.1.1, valid.2.2.1⟩
  | mirror axes => exact point3_equal (axes_finite valid)
  | linearExtrusion height twist =>
    simp only [Transform.equal, Doubles.beq_self valid.1, Doubles.beq_self valid.2, Bool.and_self]
  | rotateExtrusion => rfl

theorem valid_equal {node : Node} (valid : node.Valid) : node.equal node = true := by
  induction node using Node.induction with
  | shape s => exact shape_equal (Node.valid_shape.mp valid)
  | transform t item ih =>
    obtain ⟨own, inner⟩ := Node.valid_transform.mp valid
    simp only [Node.equal, transform_equal own, ih inner, Bool.and_self]
  | combine c items ih =>
    have each := (Node.valid_combine.mp valid).2
    have all : Node.equalAll items items = true := by
      clear valid
      induction items with
      | nil => rfl
      | cons item rest rest_ih =>
        simp only [List.forall_mem_cons] at ih each
        simp only [Node.equalAll, ih.1 each.1, rest_ih ih.2 each.2, Bool.and_self]
    simp only [Node.equal, beq_self_eq_true, all, Bool.and_self]

-- The last part speaks of the polyhedra at any depth.
theorem obtained_sound {node : Node} (obtained : Obtained node) :
    node.Valid ∧ node.equal node = true ∧
      ¬"null".toList <:+: node.compact.toList ∧ ¬"null".toList <:+: node.pretty.toList ∧
      ∀ m, .shape (.polyhedron m) ∈ node.preorder →
        ∀ t ∈ m.triangulation, ∀ i ∈ t.corners, i < m.points.length := by
  have valid := obtained_valid obtained
  have clean := Node.node_clean valid
  refine ⟨valid, valid_equal valid, Json.compact_clean clean, Json.pretty_clean clean, fun m member => ?_⟩
  exact triangulation_inside (valid _ member : m.Valid)

def tetrahedron : Mesh :=
  ⟨[⟨0.0, 0.0, 0.0⟩, ⟨2.0, 0.0, 0.0⟩, ⟨0.0, 2.0, 0.0⟩, ⟨0.0, 0.0, 2.0⟩],
    [⟨0, 1, 2⟩, ⟨0, 3, 1⟩, ⟨0, 2, 3⟩, ⟨1, 3, 2⟩], []⟩

theorem obtained_sound_tetrahedron : Obtained (.shape (.polyhedron tetrahedron)) ∧
    ¬"null".toList <:+: (Node.shape (.polyhedron tetrahedron)).compact.toList ∧
    ∀ t ∈ tetrahedron.triangulation, ∀ i ∈ t.corners, i < 4 := by
  have made : Node.ofTriangles tetrahedron.points tetrahedron.triangles =
      .ok (.shape (.polyhedron tetrahedron)) := rfl
  have obtained := Obtained.ofTriangles made
  obtain ⟨_, _, compact, _, inside⟩ := obtained_sound obtained
  exact ⟨obtained, compact, inside tetrahedron (Node.mem_preorder _)⟩

end Solid
