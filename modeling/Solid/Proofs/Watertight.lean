import Solid.Geometry
import Solid.Proofs.Checks
import Solid.Proofs.Rounding
namespace Solid

-- Every edge occurs once, and so does its reverse.
def Closed (edges : List Edge) : Prop := ∀ e ∈ edges, edges.count e = 1 ∧ edges.count e.swap = 1

theorem closed_iff {edges : List Edge} : Closed edges ↔ edges.Nodup ∧ ∀ e ∈ edges, e.swap ∈ edges := by
  constructor
  · intro once
    refine ⟨List.nodup_iff_count_eq_one.mpr fun e member => (once e member).1, fun e member => ?_⟩
    exact List.count_pos_iff.mp (by rw [(once e member).2]; decide)
  · rintro ⟨nodup, back⟩ e member
    exact ⟨List.count_eq_one_of_mem nodup member, List.count_eq_one_of_mem nodup (back e member)⟩

namespace Mesh

variable {m : Mesh}

theorem walked_from (edges : List Edge) (e : Edge) (n : UInt32) :
    (edges.foldl (fun n f => if f = e then n + 1 else n) n).toNat = (n.toNat + edges.count e) % 2 ^ 32 := by
  induction edges generalizing n with
  | nil => exact (Nat.mod_eq_of_lt n.toNat_lt).symm
  | cons f rest ih =>
    rw [List.foldl_cons, ih, List.count_cons]
    by_cases same : f = e
    · have next : (n + 1).toNat = (n.toNat + 1) % 2 ^ 32 := UInt32.toNat_add n 1
      rw [if_pos same, if_pos (beq_iff_eq.mpr same), next, Nat.mod_add_mod, Nat.add_assoc, Nat.add_comm 1]
    · rw [if_neg same, if_neg (mt beq_iff_eq.mp same), Nat.add_zero]

theorem walked_toNat (edges : List Edge) (e : Edge) : (walked edges e).toNat = edges.count e % 2 ^ 32 := by
  rw [walked, walked_from, UInt32.toNat_zero, Nat.zero_add]

theorem walked_once {edges : List Edge} {e : Edge} : walked edges e = 1 ↔ edges.count e % 2 ^ 32 = 1 := by
  rw [← UInt32.toNat_inj, walked_toNat]
  rfl

-- What the counters tell is the remainder of the count.
theorem isWatertight_counts : m.isWatertight = true ↔
    ∀ e ∈ m.edges, m.edges.count e % 2 ^ 32 = 1 ∧ m.edges.count e.swap % 2 ^ 32 = 1 := by
  simp only [isWatertight, List.all_eq_true, Bool.and_eq_true, beq_iff_eq, walked_once]
  rfl

theorem closed_watertight (closed : Closed m.edges) : m.isWatertight = true := by
  apply isWatertight_counts.mpr
  intro e member
  obtain ⟨once, onceBack⟩ := closed e member
  exact ⟨by omega, by omega⟩

-- No counter runs over as long as there are no more edges than it has values.
theorem isWatertight_closed (bounded : m.edges.length ≤ 2 ^ 32) :
    m.isWatertight = true ↔ Closed m.edges := by
  refine ⟨?_, closed_watertight⟩
  intro watertight e member
  obtain ⟨once, onceBack⟩ := isWatertight_counts.mp watertight e member
  have most := m.edges.count_le_length (a := e)
  have mostBack := m.edges.count_le_length (a := e.swap)
  exact ⟨by omega, by omega⟩

end Mesh

-- A cut through a quad uses no corner but its own.
theorem triangulation_inside {m : Mesh} (valid : m.Valid) :
    ∀ t ∈ m.triangulation, ∀ i ∈ t.corners, i < m.points.length := by
  simp only [Mesh.triangulation, List.forall_mem_append, List.mem_flatMap]
  refine ⟨valid.triangles, ?_⟩
  rintro t ⟨q, member, half⟩ i corner
  refine valid.quads q member i ?_
  simp only [Quad.split, List.mem_cons, List.not_mem_nil, or_false] at half
  rcases half with rfl | rfl <;> simp_all [Triangle.corners, Quad.corners] <;> grind

namespace Layers

def bottomEdges (j : Nat) : List Edge := [(0, j + 1), (j + 1, j), (j, 0)]

def topEdges (n j : Nat) : List Edge := [(n, n + j), (n + j, n + j + 1), (n + j + 1, n)]

def sideEdges (n j : Nat) : List Edge :=
  let next := (j + 1) % n
  [(j, next), (next, n + next), (n + next, j), (j, n + next), (n + next, n + j), (n + j, j)]

def prismEdges (n : Nat) : List Edge :=
  (List.range' 1 (n - 2)).flatMap bottomEdges ++ (List.range' 1 (n - 2)).flatMap (topEdges n)
    ++ (List.range n).flatMap (sideEdges n)

theorem prism_edges (points : List Point3) (n : Nat) :
    (Mesh.mk points (capTriangles n) (sideQuads n)).edges = prismEdges n := by
  simp only [prismEdges, Mesh.edges, Mesh.triangulation, capTriangles, sideQuads, List.flatMap_append,
    List.flatMap_map, List.flatMap_assoc]
  rfl

-- The place after the last one is the first.
theorem next_place {n j : Nat} (inside : j < n) :
    (j + 1) % n = j + 1 ∧ j + 1 < n ∨ (j + 1) % n = 0 ∧ j + 1 = n := by
  by_cases last : j + 1 = n
  · exact .inr ⟨by rw [last, Nat.mod_self], last⟩
  · exact .inl ⟨Nat.mod_eq_of_lt (by omega), by omega⟩

theorem mem_bottomEdges {u v j : Nat} :
    (u, v) ∈ bottomEdges j ↔ u = 0 ∧ v = j + 1 ∨ u = j + 1 ∧ v = j ∨ u = j ∧ v = 0 := by
  simp [bottomEdges]

theorem mem_topEdges {u v n j : Nat} : (u, v) ∈ topEdges n j ↔
    u = n ∧ v = n + j ∨ u = n + j ∧ v = n + j + 1 ∨ u = n + j + 1 ∧ v = n := by
  simp [topEdges]

theorem mem_sideEdges {u v n j next : Nat} (place : (j + 1) % n = next) : (u, v) ∈ sideEdges n j ↔
    u = j ∧ v = next ∨ u = next ∧ v = n + next ∨ u = n + next ∧ v = j ∨ u = j ∧ v = n + next ∨
      u = n + next ∧ v = n + j ∨ u = n + j ∧ v = j := by
  simp [sideEdges, place]

theorem mem_bottom {n : Nat} {e : Edge} : e ∈ (List.range' 1 (n - 2)).flatMap bottomEdges ↔
    ∃ j, 1 ≤ j ∧ j + 1 < n ∧ e ∈ bottomEdges j := by
  simp only [List.mem_flatMap, List.mem_range'_1]
  exact ⟨fun ⟨j, inside, member⟩ => ⟨j, by omega, by omega, member⟩,
    fun ⟨j, least, most, member⟩ => ⟨j, by omega, member⟩⟩

theorem mem_top {n : Nat} {e : Edge} : e ∈ (List.range' 1 (n - 2)).flatMap (topEdges n) ↔
    ∃ j, 1 ≤ j ∧ j + 1 < n ∧ e ∈ topEdges n j := by
  simp only [List.mem_flatMap, List.mem_range'_1]
  exact ⟨fun ⟨j, inside, member⟩ => ⟨j, by omega, by omega, member⟩,
    fun ⟨j, least, most, member⟩ => ⟨j, by omega, member⟩⟩

theorem mem_side {n : Nat} {e : Edge} : e ∈ (List.range n).flatMap (sideEdges n) ↔
    ∃ j < n, e ∈ sideEdges n j := by
  simp only [List.mem_flatMap, List.mem_range]

theorem mem_prism {n : Nat} {e : Edge} : e ∈ prismEdges n ↔
    (∃ j, 1 ≤ j ∧ j + 1 < n ∧ e ∈ bottomEdges j) ∨ (∃ j, 1 ≤ j ∧ j + 1 < n ∧ e ∈ topEdges n j) ∨
      ∃ j < n, e ∈ sideEdges n j := by
  simp only [prismEdges, List.mem_append, mem_bottom, mem_top, mem_side, or_assoc]

theorem bottom_nodup (n : Nat) : ((List.range' 1 (n - 2)).flatMap bottomEdges).Nodup := by
  rw [List.nodup_flatMap]
  constructor
  · intro j member
    simp only [List.mem_range'_1] at member
    simp [bottomEdges]
  · refine List.Pairwise.imp_of_mem ?_ (List.pairwise_lt_range')
    rintro j k inJ inK below ⟨u, v⟩ first second
    rw [List.mem_range'_1] at inJ inK
    rw [mem_bottomEdges] at first second
    omega

theorem top_nodup (n : Nat) : ((List.range' 1 (n - 2)).flatMap (topEdges n)).Nodup := by
  rw [List.nodup_flatMap]
  constructor
  · intro j member
    simp only [List.mem_range'_1] at member
    simp [topEdges]
    omega
  · refine List.Pairwise.imp_of_mem ?_ (List.pairwise_lt_range')
    rintro j k inJ inK below ⟨u, v⟩ first second
    rw [List.mem_range'_1] at inJ inK
    rw [mem_topEdges] at first second
    omega

theorem side_nodup {n : Nat} (wide : 3 ≤ n) : ((List.range n).flatMap (sideEdges n)).Nodup := by
  rw [List.nodup_flatMap]
  constructor
  · intro j member
    rw [List.mem_range] at member
    have place := next_place member
    unfold sideEdges
    generalize (j + 1) % n = next at *
    simp
    omega
  · refine List.Pairwise.imp_of_mem ?_ (List.pairwise_lt_range)
    rintro j k inJ inK below ⟨u, v⟩ first second
    rw [List.mem_range] at inJ inK
    have placeJ := next_place inJ
    have placeK := next_place inK
    rw [mem_sideEdges rfl] at first second
    omega

-- No edge of one fan is an edge of the other or of a side. An edge of the rim is walked by a fan
-- one way and by a side the other way.
theorem prism_nodup {n : Nat} (wide : 3 ≤ n) : (prismEdges n).Nodup := by
  refine List.Nodup.append (List.Nodup.append (bottom_nodup n) (top_nodup n) ?_) (side_nodup wide) ?_
  · rintro ⟨u, v⟩ inBottom inTop
    obtain ⟨j, _, _, bottom⟩ := mem_bottom.mp inBottom
    obtain ⟨k, _, _, top⟩ := mem_top.mp inTop
    rw [mem_bottomEdges] at bottom
    rw [mem_topEdges] at top
    omega
  · rintro ⟨u, v⟩ inFan inSide
    obtain ⟨k, inside, side⟩ := mem_side.mp inSide
    have place := next_place inside
    rw [mem_sideEdges rfl] at side
    rcases List.mem_append.mp inFan with inBottom | inTop
    · obtain ⟨j, _, _, bottom⟩ := mem_bottom.mp inBottom
      rw [mem_bottomEdges] at bottom
      omega
    · obtain ⟨j, _, _, top⟩ := mem_top.mp inTop
      rw [mem_topEdges] at top
      omega

theorem bottom_prism {n j u v : Nat} (least : 1 ≤ j) (most : j + 1 < n)
    (edge : u = 0 ∧ v = j + 1 ∨ u = j + 1 ∧ v = j ∨ u = j ∧ v = 0) : (u, v) ∈ prismEdges n :=
  mem_prism.mpr (.inl ⟨j, least, most, mem_bottomEdges.mpr edge⟩)

theorem top_prism {n j u v : Nat} (least : 1 ≤ j) (most : j + 1 < n)
    (edge : u = n ∧ v = n + j ∨ u = n + j ∧ v = n + j + 1 ∨ u = n + j + 1 ∧ v = n) :
    (u, v) ∈ prismEdges n :=
  mem_prism.mpr (.inr (.inl ⟨j, least, most, mem_topEdges.mpr edge⟩))

theorem side_prism {n j k u v : Nat} (inside : j < n) (place : k = j + 1 ∧ j + 1 < n ∨ k = 0 ∧ j + 1 = n)
    (edge : u = j ∧ v = k ∨ u = k ∧ v = n + k ∨ u = n + k ∧ v = j ∨ u = j ∧ v = n + k ∨
      u = n + k ∧ v = n + j ∨ u = n + j ∧ v = j) : (u, v) ∈ prismEdges n := by
  have same : (j + 1) % n = k := by
    have := next_place inside
    omega
  exact mem_prism.mpr (.inr (.inr ⟨j, inside, (mem_sideEdges same).mpr edge⟩))

-- The spokes of a fan are walked back by the next triangle; its first and last spoke lie on the rim.
theorem bottom_back {n j u v : Nat} (wide : 3 ≤ n) (least : 1 ≤ j) (most : j + 1 < n)
    (edge : (u, v) ∈ bottomEdges j) : (v, u) ∈ prismEdges n := by
  rcases mem_bottomEdges.mp edge with ⟨rfl, rfl⟩ | ⟨rfl, rfl⟩ | ⟨rfl, rfl⟩
  · by_cases last : j + 2 = n
    · exact side_prism (j := j + 1) (k := 0) (by omega) (by omega) (by omega)
    · exact bottom_prism (j := j + 1) (by omega) (by omega) (by omega)
  · exact side_prism (j := v) (k := v + 1) (by omega) (by omega) (by omega)
  · by_cases first : u = 1
    · exact side_prism (j := 0) (k := 1) (by omega) (by omega) (by omega)
    · exact bottom_prism (j := u - 1) (by omega) (by omega) (by omega)

theorem top_back {n j u v : Nat} (wide : 3 ≤ n) (least : 1 ≤ j) (most : j + 1 < n)
    (edge : (u, v) ∈ topEdges n j) : (v, u) ∈ prismEdges n := by
  rcases mem_topEdges.mp edge with ⟨rfl, rfl⟩ | ⟨rfl, rfl⟩ | ⟨rfl, rfl⟩
  · by_cases first : j = 1
    · exact side_prism (j := 0) (k := 1) (by omega) (by omega) (by omega)
    · exact top_prism (j := j - 1) (by omega) (by omega) (by omega)
  · exact side_prism (j := j) (k := j + 1) (by omega) (by omega) (by omega)
  · by_cases last : j + 2 = v
    · exact side_prism (j := j + 1) (k := 0) (by omega) (by omega) (by omega)
    · exact top_prism (j := j + 1) (by omega) (by omega) (by omega)

-- Neighbouring sides share an upright edge, the halves of a side its diagonal.
theorem side_back {n j u v : Nat} (wide : 3 ≤ n) (inside : j < n) (edge : (u, v) ∈ sideEdges n j) :
    (v, u) ∈ prismEdges n := by
  have place := next_place inside
  rw [mem_sideEdges rfl] at edge
  generalize (j + 1) % n = next at *
  rcases edge with ⟨hu, hv⟩ | ⟨hu, hv⟩ | ⟨hu, hv⟩ | ⟨hu, hv⟩ | ⟨hu, hv⟩ | ⟨hu, hv⟩
  · by_cases first : j = 0
    · exact bottom_prism (j := 1) (by omega) (by omega) (by omega)
    · by_cases last : next = 0
      · exact bottom_prism (j := n - 2) (by omega) (by omega) (by omega)
      · exact bottom_prism (j := j) (by omega) (by omega) (by omega)
  · by_cases last : next + 1 = n
    · exact side_prism (j := next) (k := 0) (by omega) (by omega) (by omega)
    · exact side_prism (j := next) (k := next + 1) (by omega) (by omega) (by omega)
  · exact side_prism inside place (by omega)
  · exact side_prism inside place (by omega)
  · by_cases first : j = 0
    · exact top_prism (j := 1) (by omega) (by omega) (by omega)
    · by_cases last : next = 0
      · exact top_prism (j := n - 2) (by omega) (by omega) (by omega)
      · exact top_prism (j := j) (by omega) (by omega) (by omega)
  · by_cases first : j = 0
    · exact side_prism (j := n - 1) (k := 0) (by omega) (by omega) (by omega)
    · exact side_prism (j := j - 1) (k := j) (by omega) (by omega) (by omega)

theorem prism_back {n : Nat} (wide : 3 ≤ n) : ∀ e ∈ prismEdges n, e.swap ∈ prismEdges n := by
  rintro ⟨u, v⟩ member
  rcases mem_prism.mp member with ⟨j, least, most, edge⟩ | ⟨j, least, most, edge⟩ | ⟨j, inside, edge⟩
  · exact bottom_back wide least most edge
  · exact top_back wide least most edge
  · exact side_back wide inside edge

-- Two points make a closed ring as well, walked there and back.
theorem prism_once {points : List Point3} {n : Nat} (wide : 2 ≤ n) :
    Closed (Mesh.mk points (capTriangles n) (sideQuads n)).edges := by
  rw [closed_iff, prism_edges]
  by_cases flat : n = 2
  · subst flat
    decide
  · exact ⟨prism_nodup (by omega), prism_back (by omega)⟩

theorem box_once (points : List Point3) : Closed (Mesh.mk points [] boxQuads).edges := by
  rw [closed_iff, show (Mesh.mk points [] boxQuads).edges = (Mesh.mk [] [] boxQuads).edges from rfl]
  decide

variable {lower upper : List Point2} {height : Float}

theorem rings_length : (rings lower upper height).length = lower.length + upper.length := by
  simp [rings]

theorem rings_finite (finite : height.isFinite) (hl : ∀ p ∈ lower, p.Finite) (hu : ∀ p ∈ upper, p.Finite) :
    ∀ p ∈ rings lower upper height, p.Finite := by
  simp only [rings, List.forall_mem_append, List.forall_mem_map, lifted]
  have zero : (0.0 : Float).isFinite := by decide
  exact ⟨fun p member => ⟨(hl p member).1, (hl p member).2, zero⟩,
    fun p member => ⟨(hu p member).1, (hu p member).2, finite⟩⟩

theorem prism_valid {n : Nat} (wide : 3 ≤ n) (hl : lower.length = n) (hu : upper.length = n)
    (finite : ∀ p ∈ rings lower upper height, p.Finite) :
    (Mesh.mk (rings lower upper height) (capTriangles n) (sideQuads n)).Valid := by
  have count : (rings lower upper height).length = n + n := by rw [rings_length, hl, hu]
  refine ⟨by simp only [count]; omega, finite, .inr ?_, ?_, ?_⟩
  · simp [sideQuads]
    omega
  · simp only [capTriangles, List.forall_mem_append, List.forall_mem_map, List.mem_range'_1,
      Triangle.corners, List.forall_mem_cons, count]
    grind
  · simp only [sideQuads, List.forall_mem_map, List.mem_range, Quad.corners, List.forall_mem_cons, count]
    intro j inside
    have place := next_place inside
    grind

theorem prism_ok {node : Node} : prism lower upper height = .ok node ↔
    lower.length = upper.length ∧
      (Mesh.mk (rings lower upper height) (capTriangles lower.length) (sideQuads lower.length)).Valid ∧
      node = .shape (.polyhedron
        ⟨rings lower upper height, capTriangles lower.length, sideQuads lower.length⟩) := by
  unfold prism
  by_cases same : lower.length = upper.length
  · simp only [same, if_true, mapError_ok, Node.polyhedron_ok, true_and]
  · simp [same]

theorem corners_finite {width height : Float} (hw : width.isFinite) (hh : height.isFinite) :
    ∀ p ∈ corners width height, p.Finite := by
  have x := Doubles.half_finite hw
  have y := Doubles.half_finite hh
  have x' := Doubles.neg_finite x
  have y' := Doubles.neg_finite y
  simp [corners, Point2.Finite, x, y, x', y']

theorem frustum_valid {width height width' height' distance : Float} (hw : width.isFinite)
    (hh : height.isFinite) (hw' : width'.isFinite) (hh' : height'.isFinite) (finite : distance.isFinite) :
    (Mesh.mk (rings (corners width height) (corners width' height') distance) [] boxQuads).Valid := by
  refine ⟨by simp [rings_length, corners], ?_, .inr (by simp [boxQuads]), nofun, ?_⟩
  · exact rings_finite finite (corners_finite hw hh) (corners_finite hw' hh')
  · simp only [rings_length, corners, List.length_cons, List.length_nil]
    decide

theorem frustum_ok {width height width' height' distance : Float} {node : Node} :
    frustum width height width' height' distance = .ok node ↔
      (Mesh.mk (rings (corners width height) (corners width' height') distance) [] boxQuads).Valid ∧
      node = .shape (.polyhedron ⟨rings (corners width height) (corners width' height') distance, [], boxQuads⟩) :=
  Node.polyhedron_ok

-- A prism that was built is closed, whatever its rings are.
theorem prism_closed {node : Node} (built : prism lower upper height = .ok node) :
    ∃ m, node = .shape (.polyhedron m) ∧ m.Valid ∧ Closed m.edges := by
  obtain ⟨same, valid, rfl⟩ := prism_ok.mp built
  have points := valid.points
  simp only [rings_length, same] at points
  exact ⟨_, rfl, valid, prism_once (by omega)⟩

theorem frustum_closed {width height width' height' distance : Float} {node : Node}
    (built : frustum width height width' height' distance = .ok node) :
    ∃ m, node = .shape (.polyhedron m) ∧ m.Valid ∧ Closed m.edges := by
  obtain ⟨valid, rfl⟩ := frustum_ok.mp built
  exact ⟨_, rfl, valid, box_once _⟩

-- What stands between two layers, before it is moved to its place.
inductive Joined : Node → Prop
  | round {s : Shape} (valid : s.Valid) (smooth : ∀ m, s ≠ .polyhedron m) : Joined (.shape s)
  | edged {m : Mesh} (valid : m.Valid) (closed : Closed m.edges) : Joined (.shape (.polyhedron m))

theorem join_joined {lower upper node : Node} {distance : Float}
    (joined : join lower upper distance = .ok node) : Joined node := by
  unfold join at joined
  split at joined
  · obtain ⟨valid, rfl⟩ := Node.cylinder_ok.mp (mapError_ok.mp joined)
    exact .round valid nofun
  · obtain ⟨m, rfl, valid, closed⟩ := frustum_closed (mapError_ok.mp joined)
    exact .edged valid closed
  · obtain ⟨m, rfl, valid, closed⟩ := prism_closed joined
    exact .edged valid closed
  · split at joined <;> cases joined

-- Every solid of a stack joins two of the layers and is moved to its place.
theorem stack_joined {distance : Float} {shapes : List Node} {i : Nat} {placed : List Node}
    (stacked : stack distance i shapes = .ok placed) : ∀ node ∈ placed,
      ∃ offset solid, node = .transform (.translate offset) solid ∧ offset.Finite ∧
        ∃ lower ∈ shapes, ∃ upper ∈ shapes, join lower upper distance = .ok solid := by
  fun_induction stack distance i shapes generalizing placed with
  | case1 i lower upper rest ih =>
    simp only [bind_ok, mapError_ok, Node.translate_ok, Node.return_ok] at stacked
    obtain ⟨solid, joined, _, ⟨finite, rfl⟩, above, more, rfl⟩ := stacked
    refine List.forall_mem_cons.mpr ⟨⟨_, solid, rfl, finite, lower, .head _, upper, .tail _ (.head _), joined⟩, ?_⟩
    intro node member
    obtain ⟨offset, solid, same, finite, lower', inside, upper', inside', joined⟩ := ih more node member
    exact ⟨offset, solid, same, finite, lower', .tail _ inside, upper', .tail _ inside', joined⟩
  | case2 i shapes short =>
    cases stacked
    exact List.forall_mem_nil _

theorem stack_placed {distance : Float} {shapes : List Node} {i : Nat} {placed : List Node}
    (stacked : stack distance i shapes = .ok placed) : ∀ node ∈ placed,
      ∃ offset solid, node = .transform (.translate offset) solid ∧ offset.Finite ∧ Joined solid := by
  intro node member
  obtain ⟨offset, solid, same, finite, _, _, _, _, joined⟩ := stack_joined stacked node member
  exact ⟨offset, solid, same, finite, join_joined joined⟩

end Layers

-- The tower, lying or standing.
theorem connect_tower {shapes : List Node} {distance : Float} {orientation : Orientation} {node : Node}
    (connected : connect shapes distance orientation = .ok node) :
    ∃ solids tower, Layers.stack distance 0 shapes = .ok solids ∧ tower = .combine (.union true) solids ∧
      1 ≤ solids.length ∧
      (node = tower ∨ ∃ axes : Point3, axes.Axes ∧ node = .transform (.rotate 90.0 axes) tower) := by
  unfold connect at connected
  split at connected
  · cases connected
  · split at connected
    · simp only [bind_ok, mapError_ok, Node.layers_ok] at connected
      obtain ⟨solids, stacked, tower, ⟨some, rfl⟩, turned⟩ := connected
      refine ⟨solids, _, stacked, rfl, some, ?_⟩
      cases orientation with
      | vertical => exact .inl (Node.return_ok.mp turned)
      | horizontal =>
        obtain ⟨axes, _, valid, rfl⟩ := Node.rotate_ok.mp (mapError_ok.mp turned)
        exact .inr ⟨axes, valid.2, rfl⟩
    · cases connected

theorem joined_closed {node : Node} (joined : Layers.Joined node) {m : Mesh}
    (member : .shape (.polyhedron m) ∈ node.preorder) : Closed m.edges := by
  cases joined with
  | @round s valid smooth =>
    simp only [Node.preorder, List.mem_singleton, Node.shape.injEq] at member
    exact absurd member.symm (smooth m)
  | edged valid closed =>
    simp only [Node.preorder, List.mem_singleton, Node.shape.injEq, Shape.polyhedron.injEq] at member
    rwa [member]

theorem tower_closed {shapes : List Node} {distance : Float} {solids : List Node}
    (stacked : Layers.stack distance 0 shapes = .ok solids) {m : Mesh}
    (member : .shape (.polyhedron m) ∈ (Node.combine (.union true) solids).preorder) :
    Closed m.edges := by
  simp only [Node.preorder, List.mem_cons, reduceCtorEq, false_or, Node.mem_preorderAll] at member
  obtain ⟨placed, inside, member⟩ := member
  obtain ⟨offset, solid, rfl, _, joined⟩ := Layers.stack_placed stacked placed inside
  simp only [Node.preorder, List.mem_cons, reduceCtorEq, false_or] at member
  exact joined_closed joined member

-- The joints of valid polygons and rectangles always succeed and are closed; no joint that
-- succeeds is open, whatever it was made of, and so no connected stack holds an open polyhedron.
theorem connect_watertight :
    (∀ lower upper height, Ring lower → Ring upper → (vertices lower).length = (vertices upper).length →
      Positive height → ∃ m, Layers.prism (vertices lower) (vertices upper) height =
        .ok (.shape (.polyhedron m)) ∧ Closed m.edges ∧ m.isWatertight = true) ∧
    (∀ w h w' h' height, Positive w → Positive h → Positive w' → Positive h' → Positive height →
      ∃ m, Layers.frustum w h w' h' height = .ok (.shape (.polyhedron m)) ∧ Closed m.edges ∧ m.isWatertight = true) ∧
    (∀ lower upper height node, Layers.prism lower upper height = .ok node →
      ∃ m, node = .shape (.polyhedron m) ∧ Closed m.edges ∧ m.isWatertight = true) ∧
    (∀ w h w' h' height node, Layers.frustum w h w' h' height = .ok node →
      ∃ m, node = .shape (.polyhedron m) ∧ Closed m.edges ∧ m.isWatertight = true) ∧
    (∀ shapes distance orientation node, connect shapes distance orientation = .ok node →
      ∀ m, .shape (.polyhedron m) ∈ node.preorder → Closed m.edges ∧ m.isWatertight = true) := by
  refine ⟨?_, ?_, ?_, ?_, ?_⟩
  · intro lower upper height hl hu same positive
    have finite := Layers.rings_finite positive.1 hl.vertices_finite hu.vertices_finite
    have valid := Layers.prism_valid hl.vertices_long rfl same.symm finite
    have built := Layers.prism_ok.mpr ⟨same, valid, rfl⟩
    obtain ⟨m, made, _, closed⟩ := Layers.prism_closed built
    rw [made] at built
    exact ⟨m, built, closed, Mesh.closed_watertight closed⟩
  · intro w h w' h' height hw hh hw' hh' positive
    have valid := Layers.frustum_valid hw.1 hh.1 hw'.1 hh'.1 positive.1
    have built := Layers.frustum_ok.mpr ⟨valid, rfl⟩
    obtain ⟨m, made, _, closed⟩ := Layers.frustum_closed built
    rw [made] at built
    exact ⟨m, built, closed, Mesh.closed_watertight closed⟩
  · intro lower upper height node built
    obtain ⟨m, same, _, closed⟩ := Layers.prism_closed built
    exact ⟨m, same, closed, Mesh.closed_watertight closed⟩
  · intro w h w' h' height node built
    obtain ⟨m, same, _, closed⟩ := Layers.frustum_closed built
    exact ⟨m, same, closed, Mesh.closed_watertight closed⟩
  · intro shapes distance orientation node connected m member
    obtain ⟨solids, tower, stacked, rfl, _, rfl | ⟨axes, _, rfl⟩⟩ := connect_tower connected
    · have closed := tower_closed stacked member
      exact ⟨closed, Mesh.closed_watertight closed⟩
    · simp only [Node.preorder, List.mem_cons, reduceCtorEq, false_or] at member
      have closed := tower_closed stacked (by simpa [Node.preorder] using member)
      exact ⟨closed, Mesh.closed_watertight closed⟩

theorem connect_watertight_triangles :
    Ring [⟨0.0, 0.0⟩, ⟨0.0, 2.0⟩, ⟨2.0, 0.0⟩, ⟨0.0, 0.0⟩] ∧
    ∃ m, Layers.prism [⟨0.0, 0.0⟩, ⟨0.0, 2.0⟩, ⟨2.0, 0.0⟩] [⟨0.0, 0.0⟩, ⟨0.0, 2.0⟩, ⟨2.0, 0.0⟩] 3.0 =
      .ok (.shape (.polyhedron m)) ∧ Closed m.edges ∧ m.isWatertight = true := by
  have ring : Ring [⟨0.0, 0.0⟩, ⟨0.0, 2.0⟩, ⟨2.0, 0.0⟩, ⟨0.0, 0.0⟩] := Check.ring_ok.mp rfl
  have positive : Positive 3.0 := Check.positive_ok.mp (rfl : Check.positive "height" 3.0 = .ok ())
  exact ⟨ring, connect_watertight.1 _ _ 3.0 ring ring rfl positive⟩

end Solid
