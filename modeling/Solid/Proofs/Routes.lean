import Solid.Proofs.Connecting
import Solid.Proofs.Rereading
import Solid.Proofs.Simplified
namespace Solid

namespace Layers

-- The solids between two layers: what is not round has eight points, or those of both layers.
inductive Joint (lower upper : Node) : Shape → Prop
  | round (h r r' : Float) : Joint lower upper (.cylinder h r r')
  | box {m : Mesh} (points : m.points.length = 8) : Joint lower upper (.polyhedron m)
  | prism {m : Mesh} (points : m.points.length = lower.vertexCount + upper.vertexCount) :
    Joint lower upper (.polyhedron m)

variable {distance : Float} {lower upper solid : Node}

theorem join_joint (joined : join lower upper distance = .ok solid) :
    ∃ s, solid = .shape s ∧ Joint lower upper s := by
  unfold join at joined
  split at joined
  · obtain ⟨_, rfl⟩ := Node.cylinder_ok.mp (mapError_ok.mp joined)
    exact ⟨_, rfl, .round _ _ _⟩
  · obtain ⟨_, rfl⟩ := frustum_ok.mp (mapError_ok.mp joined)
    exact ⟨_, rfl, .box rings_length⟩
  · obtain ⟨_, _, rfl⟩ := prism_ok.mp joined
    exact ⟨_, rfl, .prism rings_length⟩
  · split at joined <;> cases joined

theorem stack_joints {shapes placed : List Node} {i : Nat} (stacked : stack distance i shapes = .ok placed) :
    ∀ node ∈ placed, ∃ offset s, node = .transform (.translate offset) (.shape s) ∧
      ∃ lower ∈ shapes, ∃ upper ∈ shapes, Joint lower upper s := by
  intro node member
  obtain ⟨offset, solid, same, _, lower, inside, upper, inside', joined⟩ := stack_joined stacked node member
  obtain ⟨s, rfl, joint⟩ := join_joint joined
  exact ⟨offset, s, same, lower, inside, upper, inside', joint⟩

end Layers

theorem list_depth {α : Type} (save : α → Json) (row : ∀ x, (save x).depth ≤ 1) (xs : List α) :
    (Save.list save xs).depth ≤ 2 := by
  have rows : Json.depthAll (xs.map save) ≤ 1 := Json.depthAll_le.mpr (List.forall_mem_map.mpr fun x _ => row x)
  rw [Save.list, Json.depth]
  omega

section
variable {shapes : List Node} {distance : Float} {orientation : Orientation} {lower upper solid : Node}

-- An object that holds lists of rows at most.
theorem joint_depth {s : Shape} (joint : Layers.Joint lower upper s) : (Node.shape s).toJson.depth ≤ 3 := by
  have mesh (m : Mesh) : (Node.shape (.polyhedron m)).toJson.depth ≤ 3 := by
    have points := list_depth Save.triple (fun _ => Nat.le_refl 1) m.points
    have triangles := list_depth Save.triangle (fun _ => Nat.le_refl 1) m.triangles
    have quads := list_depth Save.quad (fun _ => Nat.le_refl 1) m.quads
    simp only [Node.toJson, Node.tagged, Save.shape, Json.depth, Json.depthMembers]
    omega
  cases joint with
  | round h r r' =>
    have flat : (Node.shape (.cylinder h r r')).toJson.depth = 1 := rfl
    omega
  | box => exact mesh _
  | prism => exact mesh _

theorem transform_depth (t : Transform) (item : Node) :
    (Node.transform t item).toJson.depth ≤ 1 + max 1 item.toJson.depth := by
  cases t <;> simp only [Node.toJson, Node.tagged, Save.transform, Save.triple, List.cons_append, List.nil_append,
    Json.depth, Json.depthMembers, Json.depthAll] <;> omega

theorem tower_depth {placed : List Node} (stacked : Layers.stack distance 0 shapes = .ok placed) :
    (Node.combine (.union true) placed).toJson.depth ≤ 6 := by
  have items : Json.depthAll (Node.listToJson placed) ≤ 4 := by
    rw [Node.listToJson_map]
    refine Json.depthAll_le.mpr (List.forall_mem_map.mpr fun node member => ?_)
    obtain ⟨offset, s, rfl, lower, _, upper, _, joint⟩ := Layers.stack_joints stacked node member
    have outer := transform_depth (.translate offset) (.shape s)
    have inner := joint_depth joint
    omega
  simp only [Node.toJson, Node.tagged, Save.layering, Json.depth, Json.depthMembers]
  omega

theorem connect_shallow (connected : connect shapes distance orientation = .ok solid) :
    solid.toJson.depth ≤ 127 := by
  obtain ⟨placed, tower, stacked, rfl, _, turned⟩ := connect_tower connected
  have inner := tower_depth stacked
  rcases turned with rfl | ⟨axes, _, rfl⟩
  · omega
  · have outer := transform_depth (.rotate 90.0 axes) (.combine (.union true) placed)
    omega

theorem connect_joints (connected : connect shapes distance orientation = .ok solid) {s : Shape}
    (member : .shape s ∈ solid.preorder) : ∃ lower ∈ shapes, ∃ upper ∈ shapes, Layers.Joint lower upper s := by
  obtain ⟨placed, tower, stacked, rfl, _, turned⟩ := connect_tower connected
  have inside : .shape s ∈ (Node.combine (.union true) placed).preorder := by
    rcases turned with rfl | ⟨axes, _, rfl⟩
    · exact member
    · exact (List.mem_cons.mp member).resolve_left nofun
  obtain ⟨node, among, inner⟩ := Node.mem_preorderAll.mp ((List.mem_cons.mp inside).resolve_left nofun)
  obtain ⟨offset, s', rfl, lower, below, upper, above, joint⟩ := Layers.stack_joints stacked node among
  simp only [Node.preorder, List.mem_cons, reduceCtorEq, false_or, Node.shape.injEq, List.not_mem_nil,
    or_false] at inner
  exact ⟨lower, below, upper, above, inner ▸ joint⟩

theorem faces_inside {m : Mesh} (valid : m.Valid) : ∀ face ∈ m.faces, ∀ i ∈ face, i < m.points.length := by
  intro face inside
  rcases List.mem_append.mp inside with triangle | quad
  · obtain ⟨t, among, rfl⟩ := List.mem_map.mp triangle
    exact valid.triangles t among
  · obtain ⟨q, among, rfl⟩ := List.mem_map.mp quad
    exact valid.quads q among

theorem connect_words (small : ∀ s ∈ shapes, s.vertexCount < 2 ^ 63)
    (connected : connect shapes distance orientation = .ok solid) : solid.Words := by
  intro m member face inside i corner
  have valid : m.Valid := connect_valid connected _ member
  have bound := faces_inside valid face inside i corner
  obtain ⟨lower, below, upper, above, joint⟩ := connect_joints connected member
  have first := small lower below
  have second := small upper above
  cases joint with
  | box points => omega
  | prism points => omega

end

theorem numbersAll_shown {items : List Node} {f : Float → Float}
    (each : ∀ item ∈ items, (item.numbers f).simplified = item.simplified → item.numbers f = item)
    (same : Node.simplifiedAll (Node.numbersAll f items) = Node.simplifiedAll items) :
    Node.numbersAll f items = items := by
  induction items with
  | nil => rfl
  | cons item rest ih =>
    rw [List.forall_mem_cons] at each
    rw [Node.numbersAll, Node.simplifiedAll, Node.simplifiedAll, List.cons.injEq] at same
    rw [Node.numbersAll, each.1 same.1, ih each.2 same.2]

-- In a tree without polygons every number shows in the text.
theorem numbers_shown {node : Node} {f : Float → Float} (edged : ∀ points, .shape (.polygon points) ∉ node.preorder)
    (same : (node.numbers f).simplified = node.simplified) : node.numbers f = node := by
  induction node using Node.induction with
  | shape s =>
    cases s with
    | polygon points => exact absurd (Node.mem_preorder _) (edged points)
    | polyhedron m =>
      simp only [Node.numbers, Shape.numbers, Node.simplified, Shape.simplified, Node.shape.injEq,
        Shape.polyhedron.injEq, Mesh.mk.injEq] at same
      simp only [Node.numbers, Shape.numbers, same.1]
    | _ => exact same
  | transform t item ih =>
    rw [Node.numbers, Node.simplified, Node.simplified, Node.transform.injEq] at same
    rw [Node.numbers, same.1, ih (fun points inner => edged points (.tail _ inner)) same.2]
  | combine c items ih =>
    rw [Node.numbers, Node.simplified, Node.simplified, Node.combine.injEq] at same
    have each : ∀ item ∈ items, (item.numbers f).simplified = item.simplified → item.numbers f = item := by
      intro item member
      refine ih item member fun points inner => edged points (.tail _ ?_)
      exact Node.mem_preorderAll.mpr ⟨item, member, inner⟩
    rw [Node.numbers, numbersAll_shown each same.2]

-- Through a file to the text of the tree itself.
def Agrees (node : Node) : Prop :=
  ∃ nodes text, Node.load node.pretty = .ok nodes ∧ OpenScad.render nodes = .ok text ∧
    OpenScad.render [node] = .ok text

theorem agrees_iff {node : Node} (valid : node.Valid) (words : node.Words) (shallow : node.toJson.depth ≤ 127)
    (edged : ∀ points, .shape (.polygon points) ∉ node.preorder) :
    Agrees node ↔ ∀ x, .float x ∈ node.toJson.leaves → Json.Survives x := by
  rw [← reload_iff valid words shallow]
  constructor
  · rintro ⟨nodes, text, loaded, written, written'⟩
    have kept := load_held valid_kept loaded
    obtain rfl := reload_numbers valid words loaded
    have shown := OpenScad.rendered_apart kept (List.forall_mem_singleton.mpr valid) (written.trans written'.symm)
    rw [numbers_shown edged (List.head_eq_of_cons_eq shown)] at loaded
    exact loaded
  · intro loaded
    exact ⟨_, _, loaded, OpenScad.render_documentLines _, OpenScad.render_documentLines _⟩

section
variable {shapes : List Node} {distance : Float} {orientation : Orientation} {solid : Node}

theorem connect_edged (connected : connect shapes distance orientation = .ok solid) (points : List Point2) :
    .shape (.polygon points) ∉ solid.preorder := by
  intro member
  obtain ⟨lower, _, upper, _, joint⟩ := connect_joints connected member
  cases joint

-- What the file of a connected solid gives, if anything, is the solid with its numbers as they are
-- read. It is the solid itself, and both ways lead to one text, exactly when each number survives.
theorem connect_routes (small : ∀ s ∈ shapes, s.vertexCount < 2 ^ 63)
    (connected : connect shapes distance orientation = .ok solid) :
    (∀ nodes, Node.load solid.pretty = .ok nodes → nodes = [solid.numbers Json.reread]) ∧
      (Node.load solid.pretty = .ok [solid] ↔ ∀ x, .float x ∈ solid.toJson.leaves → Json.Survives x) ∧
      (Agrees solid ↔ ∀ x, .float x ∈ solid.toJson.leaves → Json.Survives x) := by
  have valid := connect_valid connected
  have words := connect_words small connected
  have shallow := connect_shallow connected
  exact ⟨fun nodes => reload_numbers valid words, reload_iff valid words shallow,
    agrees_iff valid words shallow (connect_edged connected)⟩

end

-- A cone of whole numbers.
def cone : Node :=
  .combine (.union true) [.transform (.translate ⟨0.0, 0.0, 0.0⟩) (.shape (.cylinder 10.0 2.0 1.0))]

theorem connect_routes_cone :
    connect [.shape (.circle 2.0), .shape (.circle 1.0)] 10.0 .vertical = .ok cone ∧
      Node.load cone.pretty = .ok [cone] ∧ Agrees cone := by
  have connected : connect [.shape (.circle 2.0), .shape (.circle 1.0)] 10.0 .vertical = .ok cone := rfl
  have small : ∀ s ∈ [Node.shape (.circle 2.0), .shape (.circle 1.0)], s.vertexCount < 2 ^ 63 := by decide
  have leaves : ∀ x, .float x ∈ cone.toJson.leaves → x = 0.0 ∨ x = 10.0 ∨ x = 2.0 ∨ x = 1.0 := by
    intro x member
    simpa [cone, Node.toJson, Node.listToJson, Node.tagged, Save.transform, Save.shape, Save.layering,
      Json.leaves, Json.leavesMembers, Json.leavesAll] using member
  have survive : ∀ x, .float x ∈ cone.toJson.leaves → Json.Survives x := by
    intro x member
    refine Json.smallWhole_survives ?_
    rcases leaves x member with rfl | rfl | rfl | rfl
    · exact ⟨by decide, 0, by decide, by rw [Nat.zero_mul]; rfl⟩
    · exact ⟨by decide, 10, by decide, by decide⟩
    · exact ⟨by decide, 2, by decide, by decide⟩
    · exact ⟨by decide, 1, by decide, by decide⟩
  have routes := connect_routes small connected
  exact ⟨connected, routes.2.1.mpr survive, routes.2.2.mpr survive⟩

-- Five circles, and what is made of them at a distance of 1.3.
def fiveCircles : List Node :=
  [.shape (.circle 1.0), .shape (.circle 2.0), .shape (.circle 3.0), .shape (.circle 4.0), .shape (.circle 5.0)]

def fourCones : Node :=
  let step (z r r' : Float) : Node := .transform (.translate ⟨0.0, 0.0, z⟩) (.shape (.cylinder 1.3 r r'))
  .combine (.union true) [step 0.0 1.0 2.0, step 1.3 2.0 3.0, step 2.6 3.0 4.0, step 3.9000000000000004 4.0 5.0]

-- Three times 1.3 is read as 3.9, which is the double below it.
theorem thrice_lost : ¬Json.Survives 3.9000000000000004 := by
  have finite : (3.9000000000000004 : Float).isFinite := by decide
  have other : Json.reread 3.9000000000000004 = 3.9 := by decide +kernel
  rw [← Json.reread_survives finite, other]
  decide

theorem fourCones_lost : connect fiveCircles 1.3 .vertical = .ok fourCones ∧
    ¬Node.load fourCones.pretty = .ok [fourCones] ∧ ¬Agrees fourCones := by
  have connected : connect fiveCircles 1.3 .vertical = .ok fourCones := rfl
  have small : ∀ s ∈ fiveCircles, s.vertexCount < 2 ^ 63 := by decide
  have valid := connect_valid connected
  have words := connect_words small connected
  have shallow := connect_shallow connected
  have member : .float 3.9000000000000004 ∈ fourCones.toJson.leaves := by
    simp [fourCones, Node.toJson, Node.listToJson, Node.tagged, Save.transform, Save.shape, Save.layering,
      Json.leaves, Json.leavesMembers, Json.leavesAll]
  have lost : ¬∀ x, .float x ∈ fourCones.toJson.leaves → Json.Survives x :=
    fun survive => thrice_lost (survive _ member)
  rw [agrees_iff valid words shallow (connect_edged connected), reload_iff valid words shallow]
  exact ⟨connected, lost, lost⟩

end Solid
