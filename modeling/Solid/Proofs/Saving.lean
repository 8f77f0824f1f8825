import Solid.Node.Json
import Solid.Proofs.Members
import Solid.Proofs.Written
namespace Solid

namespace Load
open Json (keys sortedMembers gathered)

theorem field_names (k : Kind) : ∀ f ∈ k.fields, f.name ≠ "type" := by
  cases k <;> decide

theorem stored_congr {members others : List (String × Json)} {fields : List Field}
    (same : ∀ f ∈ fields, others.lookup f.name = members.lookup f.name) {record : Record fields}
    (stored : Stored members fields record) : Stored others fields record := by
  induction fields with
  | nil => trivial
  | cons f fields ih =>
    obtain ⟨own, rest⟩ := List.forall_mem_cons.mp same
    exact ⟨own ▸ stored.1, ih rest stored.2⟩

theorem sorted_keys (members : List (String × Json)) : keys (sortedMembers members) = keys members := by
  induction members with
  | nil => rfl
  | cons m rest ih => exact congrArg (m.1 :: ·) ih

-- What is written under the name of a kind, as the reader holds it.
theorem tagged_members {members : List (String × Json)} {k : Kind}
    (fields : (keys members).Sublist (k.fields.map Field.name)) :
    ∃ all, (Node.tagged k members).sorted = .object all ∧ (keys all).Nodup ∧
      all.lookup "type" = some (.string k.name) ∧
      ∀ f ∈ k.fields, all.lookup f.name = (sortedMembers members).lookup f.name := by
  let all := ("type", Json.string k.name) :: sortedMembers members
  have distinct : (keys all).Nodup := by
    have same : keys all = "type" :: keys members := congrArg _ (sorted_keys members)
    rw [same, List.nodup_cons]
    refine ⟨fun member => ?_, (fields_distinct k).sublist fields⟩
    obtain ⟨f, inside, named⟩ := List.mem_map.mp (fields.subset member)
    exact field_names k f inside named
  have found (name : String) : (gathered all).lookup name = all.lookup name := by
    rw [Json.gathered_lookup, Json.lookup_reverse distinct]
  refine ⟨gathered all, rfl, Json.gathered_nodup all, found "type", ?_⟩
  intro f member
  rw [found, Json.lookup_away (field_names k f member)]

theorem tagged_built {position : Position} {members : List (String × Json)} {k : Kind} {record : Record k.fields}
    (fields : (keys members).Sublist (k.fields.map Field.name))
    (stored : Stored (sortedMembers members) k.fields record) :
    value position .node (Node.tagged k members).sorted = build k record := by
  obtain ⟨all, same, distinct, tagged, others⟩ := tagged_members fields
  rw [same]
  exact object_built distinct (kindOf_name position tagged) (stored_congr others stored)

theorem tagged_readable {position : Position} {members : List (String × Json)} {k : Kind} {node : Node}
    (fields : (keys members).Sublist (k.fields.map Field.name))
    (loaded : value position .node (Node.tagged k members).sorted = .ok node) :
    ∀ f ∈ k.fields, ∀ v, (sortedMembers members).lookup f.name = some v →
      ∃ x, value .inner f.type v = .ok x := by
  obtain ⟨all, same, _, tagged, others⟩ := tagged_members fields
  rw [same] at loaded
  intro f member v found
  exact object_readable tagged loaded f member v ((others f member).trans found)

theorem each_loaded {α : Type} {read : Json → Except DataError α} {save : α → Json} {xs : List α}
    (loaded : ∀ x ∈ xs, read (save x).sorted = .ok x) :
    each read (Json.sortedAll (xs.map save)) = .ok xs := by
  induction xs with
  | nil => rfl
  | cons x rest ih =>
    obtain ⟨first, others⟩ := List.forall_mem_cons.mp loaded
    simp only [List.map_cons, Json.sortedAll, each, bind_ok]
    exact ⟨x, first, rest, ih others, rfl⟩

theorem pairs_loaded (points : List Point2) :
    value .inner .pairs (Save.list Save.pair points).sorted = .ok points :=
  each_loaded fun _ _ => rfl

theorem triples_loaded (points : List Point3) :
    value .inner .triples (Save.list Save.triple points).sorted = .ok points :=
  each_loaded fun _ _ => rfl

theorem triangles_loaded (ts : List Triangle) :
    value .inner .triangles (Save.list Save.triangle ts).sorted = .ok ts :=
  each_loaded fun _ _ => rfl

theorem quads_loaded (qs : List Quad) :
    value .inner .quads (Save.list Save.quad qs).sorted = .ok qs :=
  each_loaded fun _ _ => rfl

end Load

open Load

-- The parameters of a shape, as the fields of its kind.
def Shape.record : (s : Shape) → Record s.kind.fields
  | .circle r => (r, ())
  | .circleSector r a => (r, a, ())
  | .rectangle w h => (w, h, ())
  | .polygon points => (points, ())
  | .cube w h d => (w, h, d, ())
  | .sphere r => (r, ())
  | .cylinder h r r' => (h, r, r', ())
  | .polyhedron m => (m.points, m.triangles, m.quads, ())

def Transform.record (item : Node) : (t : Transform) → Record t.kind.fields
  | .translate p => (p.x, p.y, p.z, item, ())
  | .rotate degrees axes => (degrees, [axes.x, axes.y, axes.z], item, ())
  | .scale p => (p.x, p.y, p.z, item, ())
  | .mirror axes => ([axes.x, axes.y, axes.z], item, ())
  | .linearExtrusion height twist => (height, twist, item, ())
  | .rotateExtrusion => (item, ())

def Combination.record (items : List Node) : (c : Combination) → Record c.kind.fields
  | .union layers => (items, layers, ())
  | .difference => (items, ())
  | .intersection => (items, ())

theorem shape_fields (s : Shape) : (Json.keys (Save.shape s)).Sublist (s.kind.fields.map Field.name) := by
  cases s <;> exact .refl _

theorem shape_stored (s : Shape) : Stored (Json.sortedMembers (Save.shape s)) s.kind.fields s.record := by
  cases s with
  | circle | sphere => exact ⟨rfl, trivial⟩
  | circleSector | rectangle => exact ⟨rfl, rfl, trivial⟩
  | cube | cylinder => exact ⟨rfl, rfl, rfl, trivial⟩
  | polygon points => exact ⟨pairs_loaded points, trivial⟩
  | polyhedron m => exact ⟨triples_loaded m.points, triangles_loaded m.triangles, quads_loaded m.quads, trivial⟩

theorem shape_made {s : Shape} {node : Node} : s.kind.make s.record = .ok node ↔ s.Valid ∧ node = .shape s := by
  cases s with
  | circle => exact Node.circle_ok
  | circleSector => exact Node.circleSector_ok
  | rectangle => exact Node.rectangle_ok
  | polygon => exact Node.polygon_ok
  | cube => exact Node.cube_ok
  | sphere => exact Node.sphere_ok
  | cylinder => exact Node.cylinder_ok
  | polyhedron => exact Node.polyhedron_ok

section
variable {item node : Node} {items : List Node}

theorem transform_fields (t : Transform) (item : Node) :
    (Json.keys (Save.transform t ++ [("item", item.toJson)])).Sublist (t.kind.fields.map Field.name) := by
  cases t <;> exact .refl _

theorem transform_stored (t : Transform) (loaded : value .inner .node item.toJson.sorted = .ok item) :
    Stored (Json.sortedMembers (Save.transform t ++ [("item", item.toJson)])) t.kind.fields (t.record item) := by
  cases t with
  | translate | scale => exact ⟨rfl, rfl, rfl, loaded, trivial⟩
  | rotate | linearExtrusion => exact ⟨rfl, rfl, loaded, trivial⟩
  | mirror => exact ⟨rfl, loaded, trivial⟩
  | rotateExtrusion => exact ⟨loaded, trivial⟩

-- Every transform has its item in a field, and saves it there.
theorem transform_item (t : Transform) (item : Node) : ∃ f ∈ t.kind.fields, f = Kind.needed "item" .node ∧
    (Json.sortedMembers (Save.transform t ++ [("item", item.toJson)])).lookup f.name = some item.toJson.sorted := by
  refine ⟨Kind.needed "item" .node, ?_, rfl, ?_⟩
  · cases t <;> simp [Transform.kind, Kind.fields]
  · cases t <;> rfl

theorem transform_made {t : Transform} :
    t.kind.make (t.record item) = .ok node ↔ t.Valid ∧ node = .transform t item := by
  have axes {p q : Point3} (same : [p.x, p.y, p.z] = [q.x, q.y, q.z]) : p = q := by
    cases p
    cases q
    simpa using same
  cases t with
  | translate p => exact Node.translate_ok
  | scale p => exact Node.scale_ok
  | linearExtrusion height twist => exact Node.linearExtrusion_ok
  | rotateExtrusion =>
    exact ⟨fun made => ⟨trivial, (Except.ok.inj made).symm⟩, fun ⟨_, same⟩ => congrArg Except.ok same.symm⟩
  | rotate degrees p =>
    refine Node.rotate_ok.trans ⟨?_, fun ⟨valid, same⟩ => ⟨p, rfl, valid, same⟩⟩
    intro ⟨q, same, valid, made⟩
    cases axes same
    exact ⟨valid, made⟩
  | mirror p =>
    refine Node.mirror_ok.trans ⟨?_, fun ⟨valid, same⟩ => ⟨p, rfl, valid, same⟩⟩
    intro ⟨q, same, valid, made⟩
    cases axes same
    exact ⟨valid, made⟩

theorem combine_fields (c : Combination) (items : List Node) :
    (Json.keys (("items", .array (Node.listToJson items)) :: Save.layering c)).Sublist
      (c.kind.fields.map Field.name) := by
  cases c with
  | union layers =>
    cases layers with
    | true => exact .refl _
    | false => exact (List.prefix_append ["items"] ["layers"]).sublist
  | difference | intersection => exact .refl _

theorem combine_stored (c : Combination)
    (loaded : value .inner .nodes (Json.array (Node.listToJson items)).sorted = .ok items) :
    Stored (Json.sortedMembers (("items", .array (Node.listToJson items)) :: Save.layering c)) c.kind.fields
      (c.record items) := by
  cases c with
  | union layers => cases layers <;> exact ⟨loaded, rfl, trivial⟩
  | difference | intersection => exact ⟨loaded, trivial⟩

theorem items_field (c : Combination) : Kind.needed "items" .nodes ∈ c.kind.fields := by
  cases c <;> simp [Combination.kind, Kind.fields]

theorem combine_items (c : Combination) (items : List Node) : ∃ f ∈ c.kind.fields, f = Kind.needed "items" .nodes ∧
    (Json.sortedMembers (("items", .array (Node.listToJson items)) :: Save.layering c)).lookup f.name =
      some (Json.array (Node.listToJson items)).sorted :=
  ⟨Kind.needed "items" .nodes, items_field c, rfl, rfl⟩

theorem combine_made {c : Combination} :
    c.kind.make (c.record items) = .ok node ↔ c.Admits items.length ∧ node = .combine c items := by
  cases c with
  | union layers =>
    cases layers with
    | true => exact Node.layers_ok
    | false => exact Node.union_ok
  | difference => exact Node.difference_ok
  | intersection => exact Node.intersection_ok

end

theorem nodes_loaded {items : List Node}
    (each : ∀ item ∈ items, ∀ node, value .inner .node item.toJson.sorted = .ok node ↔ item.Valid ∧ node = item) :
    ∀ nodes, value .inner .nodes (Json.array (Node.listToJson items)).sorted = .ok nodes ↔
      (∀ item ∈ items, item.Valid) ∧ nodes = items := by
  change ∀ nodes, Load.nodes .inner (Json.sortedAll (Node.listToJson items)) = .ok nodes ↔ _
  induction items with
  | nil =>
    intro nodes
    exact ⟨fun done => ⟨nofun, (Except.ok.inj done).symm⟩, fun ⟨_, same⟩ => congrArg Except.ok same.symm⟩
  | cons item rest ih =>
    intro nodes
    rw [List.forall_mem_cons] at each
    simp only [Node.listToJson, Json.sortedAll, Load.nodes, bind_ok, each.1, ih each.2, Node.return_ok,
      List.forall_mem_cons]
    constructor
    · rintro ⟨_, ⟨first, rfl⟩, _, ⟨others, rfl⟩, rfl⟩
      exact ⟨⟨first, others⟩, rfl⟩
    · rintro ⟨⟨first, others⟩, rfl⟩
      exact ⟨item, ⟨first, rfl⟩, rest, ⟨others, rfl⟩, rfl⟩

-- Only what is valid loads, and it loads as it is.
theorem node_loaded {node : Node} (position : Position) :
    ∀ loaded, value position .node node.toJson.sorted = .ok loaded ↔ node.Valid ∧ loaded = node := by
  induction node using Node.induction generalizing position with
  | shape s =>
    intro loaded
    rw [Node.toJson, tagged_built (shape_fields s) (shape_stored s), build, mapError_ok, shape_made,
      Node.valid_shape]
  | transform t item ih =>
    intro loaded
    rw [Node.toJson, Node.valid_transform]
    by_cases valid : item.Valid
    · have inner := (ih .inner item).mpr ⟨valid, rfl⟩
      rw [tagged_built (transform_fields t item) (transform_stored t inner), build, mapError_ok, transform_made,
        and_iff_left valid]
    · refine ⟨fun done => ?_, fun ⟨both, _⟩ => absurd both.2 valid⟩
      obtain ⟨f, member, rfl, found⟩ := transform_item t item
      obtain ⟨x, inner⟩ := tagged_readable (transform_fields t item) done _ member _ found
      exact absurd ((ih .inner x).mp inner).1 valid
  | combine c items ih =>
    intro loaded
    have inner := nodes_loaded fun item member => ih item member .inner
    rw [Node.toJson, Node.valid_combine]
    by_cases valid : ∀ item ∈ items, item.Valid
    · have stored := combine_stored c ((inner items).mpr ⟨valid, rfl⟩)
      rw [tagged_built (combine_fields c items) stored, build, mapError_ok, combine_made, and_iff_left valid]
    · refine ⟨fun done => ?_, fun ⟨both, _⟩ => absurd both.2 valid⟩
      obtain ⟨f, member, rfl, found⟩ := combine_items c items
      obtain ⟨x, items⟩ := tagged_readable (combine_fields c items) done _ member _ found
      exact absurd ((inner x).mp items).1 valid

-- Indexes into lists of points are machine words.
def Node.Words (node : Node) : Prop :=
  ∀ m, .shape (.polyhedron m) ∈ node.preorder → ∀ face ∈ m.faces, ∀ i ∈ face, i < 2 ^ 64

theorem list_leaves {α : Type} (save : α → Json) (xs : List α) :
    (Save.list save xs).leaves = xs.flatMap fun x => (save x).leaves := by
  change Json.leavesAll (xs.map save) = _
  induction xs with
  | nil => rfl
  | cons x rest ih => exact congrArg ((save x).leaves ++ ·) ih

theorem leavesMembers_append (members more : List (String × Json)) :
    Json.leavesMembers (members ++ more) = Json.leavesMembers members ++ Json.leavesMembers more := by
  induction members with
  | nil => rfl
  | cons m rest ih => simp only [List.cons_append, Json.leavesMembers, ih, List.append_assoc]

-- No integers are written but the corners of faces.
theorem shape_indexes {s : Shape} {n : Int} (member : .int n ∈ Json.leavesMembers (Save.shape s)) :
    ∃ m, s = .polyhedron m ∧ ∃ face ∈ m.faces, ∃ i ∈ face, n = i := by
  cases s with
  | polygon points =>
    simp [Save.shape, Json.leavesMembers, list_leaves, Save.pair, Json.leaves, Json.leavesAll] at member
  | polyhedron m =>
    refine ⟨m, rfl, ?_⟩
    simp only [Save.shape, Json.leavesMembers, list_leaves, List.append_nil, List.mem_append,
      List.mem_flatMap] at member
    rcases member with ⟨p, _, inside⟩ | ⟨t, face, inside⟩ | ⟨q, face, inside⟩
    · simp [Save.triple, Json.leaves, Json.leavesAll] at inside
    · have triangle : t.corners ∈ m.faces := List.mem_append_left _ (List.mem_map_of_mem face)
      refine ⟨t.corners, triangle, ?_⟩
      simpa [Save.triangle, Triangle.corners, Save.index, Json.leaves, Json.leavesAll] using inside
    · have quad : q.corners ∈ m.faces := List.mem_append_right _ (List.mem_map_of_mem face)
      refine ⟨q.corners, quad, ?_⟩
      simpa [Save.quad, Quad.corners, Save.index, Json.leaves, Json.leavesAll] using inside
  | circle | circleSector | rectangle | cube | sphere | cylinder =>
    simp [Save.shape, Json.leavesMembers, Json.leaves] at member

theorem transform_indexes (t : Transform) (n : Int) : .int n ∉ Json.leavesMembers (Save.transform t) := by
  cases t <;> simp [Save.transform, Json.leavesMembers, Json.leaves, Save.triple, Json.leavesAll]

theorem mem_listToJson {items : List Node} {leaf : Json} :
    leaf ∈ Json.leavesAll (Node.listToJson items) ↔ ∃ item ∈ items, leaf ∈ item.toJson.leaves := by
  induction items with
  | nil => simp [Node.listToJson, Json.leavesAll]
  | cons item rest ih => simp [Node.listToJson, Json.leavesAll, ih]

theorem node_indexes {node : Node} (words : node.Words) {n : Int} (member : .int n ∈ node.toJson.leaves) :
    0 ≤ n ∧ n < 2 ^ 64 := by
  induction node using Node.induction with
  | shape s =>
    simp only [Node.toJson, Node.tagged, Json.leaves, Json.leavesMembers, List.mem_append,
      List.mem_singleton, reduceCtorEq, false_or] at member
    obtain ⟨m, rfl, face, inside, i, corner, rfl⟩ := shape_indexes member
    have bound := words m (Node.mem_preorder _) face inside i corner
    omega
  | transform t item ih =>
    simp only [Node.toJson, Node.tagged, Json.leaves, Json.leavesMembers, leavesMembers_append,
      List.mem_append, List.mem_singleton, reduceCtorEq, false_or, transform_indexes, List.append_nil] at member
    exact ih (fun m inner => words m (List.mem_cons_of_mem _ inner)) member
  | combine c items ih =>
    have flag : .int n ∉ Json.leavesMembers (Save.layering c) := by
      unfold Save.layering
      split <;> simp [Json.leavesMembers, Json.leaves]
    simp only [Node.toJson, Node.tagged, Json.leaves, Json.leavesMembers, List.mem_append,
      List.mem_singleton, reduceCtorEq, false_or, flag, or_false, mem_listToJson] at member
    obtain ⟨item, inside, member⟩ := member
    refine ih item inside (fun m inner => words m ?_) member
    exact List.mem_cons_of_mem _ (Node.mem_preorderAll.mpr ⟨item, inside, inner⟩)

theorem saved_faithful {node : Node} (words : node.Words)
    (survive : ∀ x, .float x ∈ node.toJson.leaves → Json.Survives x) :
    ∀ leaf ∈ node.toJson.leaves, leaf.Faithful := by
  intro leaf member
  cases leaf with
  | int n => exact node_indexes words member
  | float x => exact survive x member
  | null | bool | string | array | object => trivial

-- An object is not a list of nodes.
theorem load_object {text : String} {node : Node} (read : Json.read text = .ok node.toJson.sorted)
    (valid : node.Valid) : Node.load text = .ok [node] := by
  have object : ∃ members, node.toJson.sorted = .object members := by
    cases node <;> exact ⟨_, rfl⟩
  obtain ⟨members, same⟩ := object
  have loaded := (node_loaded .outer node).mpr ⟨valid, rfl⟩
  simp only [Node.load, read, Except.mapError, same] at loaded ⊢
  change Node.loadValue (.object members) = _
  simp only [Node.loadValue, Node.ofJson, loaded, Except.map, Except.mapError]

-- What is saved is loaded again when it does not nest too deep and each of its numbers survives,
-- as whole numbers do. Nesting too deep always fails.
theorem load_saved {node : Node} (valid : node.Valid) (words : node.Words) :
    (node.toJson.depth ≤ 127 → (∀ x, .float x ∈ node.toJson.leaves → Json.Survives x) →
      Node.load node.compact = .ok [node] ∧ Node.load node.pretty = .ok [node]) ∧
    (127 < node.toJson.depth → Node.load node.compact = .error (.json .syntaxError) ∧
      Node.load node.pretty = .error (.json .syntaxError)) ∧
    ∀ x, Json.SmallWhole x → Json.Survives x := by
  refine ⟨fun shallow survive => ?_, fun deep => ?_, fun x => Json.smallWhole_survives⟩
  · have faithful := saved_faithful words survive
    exact ⟨load_object (Json.read_faithful (.inl rfl) faithful shallow) valid,
      load_object (Json.read_faithful (.inr rfl) faithful shallow) valid⟩
  · constructor
    · simp only [Node.load, Node.compact, Json.read_tooDeep (.inl rfl) deep]
      rfl
    · simp only [Node.load, Node.pretty, Json.read_tooDeep (.inr rfl) deep]
      rfl

-- A single layer of a flat shape without twist.
def oneLayer : Node := .combine (.union true) [.transform (.linearExtrusion 5.0 0.0) (.shape (.circle 2.0))]

theorem load_saved_layer : oneLayer.Valid ∧ oneLayer.Words ∧
    Node.load oneLayer.compact = .ok [oneLayer] ∧ Node.load oneLayer.pretty = .ok [oneLayer] := by
  have radius : Positive 2.0 := Check.positive_ok.mp (rfl : Check.positive "radius" 2.0 = .ok ())
  have height : (5.0 : Float).isFinite ∧ (0.0 : Float).isFinite := by decide
  have valid : oneLayer.Valid := Node.valid_combine.mpr ⟨Nat.le_refl 1, List.forall_mem_singleton.mpr
    (Node.valid_transform.mpr ⟨height, Node.valid_shape.mpr radius⟩)⟩
  have words : oneLayer.Words := by
    simp [Node.Words, oneLayer, Node.preorder, Node.preorderAll]
  have leaves : ∀ x, .float x ∈ oneLayer.toJson.leaves → x = 5.0 ∨ x = 0.0 ∨ x = 2.0 := by
    intro x member
    simpa [oneLayer, Node.toJson, Node.listToJson, Node.tagged, Save.transform, Save.shape, Save.layering,
      Json.leaves, Json.leavesMembers, Json.leavesAll] using member
  have survive : ∀ x, .float x ∈ oneLayer.toJson.leaves → Json.Survives x := by
    intro x member
    refine (load_saved valid words).2.2 x ?_
    rcases leaves x member with rfl | rfl | rfl
    · exact ⟨by decide, 5, by decide, by decide⟩
    · exact ⟨by decide, 0, by decide, by rw [Nat.zero_mul]; rfl⟩
    · exact ⟨by decide, 2, by decide, by decide⟩
  exact ⟨valid, words, (load_saved valid words).1 (by decide) survive⟩

end Solid
