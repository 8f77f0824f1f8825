import Solid.Proofs.Watertight
namespace Solid

namespace Triangle

-- With two corners only, the triangle runs from one to the other and back.
def Folded (t : Triangle) : Prop := ¬t.corners.Nodup ∧ ¬(t.a = t.b ∧ t.b = t.c)

theorem edges_nodup {t : Triangle} : t.edges.Nodup ↔ ¬(t.a = t.b ∧ t.b = t.c) := by
  simp only [edges, List.nodup_cons, List.mem_cons, Prod.mk.injEq, List.not_mem_nil]
  grind

theorem walks_back {t : Triangle} : (∃ e ∈ t.edges, e.swap ∈ t.edges) ↔ ¬t.corners.Nodup := by
  simp only [edges, corners, List.mem_cons, List.not_mem_nil, or_false, or_and_right, exists_or,
    exists_eq_left, Prod.swap_prod_mk, Prod.mk.injEq, List.nodup_cons]
  grind

end Triangle

-- Were two corners of a half one point, then the halves would walk an edge twice.
theorem Quad.split_corners {q : Quad} (nodup : (q.split.flatMap Triangle.edges).Nodup) :
    ∀ t ∈ q.split, t.corners.Nodup := by
  simp only [split, Triangle.edges, Triangle.corners, List.flatMap_cons, List.flatMap_nil, List.cons_append,
    List.nil_append, List.append_nil, List.nodup_cons, List.mem_cons, Prod.mk.injEq,
    List.not_mem_nil] at nodup ⊢
  grind

namespace Mesh

variable {m : Mesh}

-- The triangle at this place of the triangulation walks the edge.
def Walks (m : Mesh) (i : Nat) (e : Edge) : Prop := ∃ t, m.triangulation[i]? = some t ∧ e ∈ t.edges

def OnlyWalks (m : Mesh) (i : Nat) (e : Edge) : Prop := m.Walks i e ∧ ∀ k, m.Walks k e → k = i

-- The edge stands between two triangles, one for each direction.
def Shared (m : Mesh) (e : Edge) : Prop := ∃ i j, m.OnlyWalks i e ∧ m.OnlyWalks j e.swap ∧ i ≠ j

theorem mem_edges {e : Edge} : e ∈ m.edges ↔ ∃ i, m.Walks i e := by
  rw [edges, List.mem_flatMap]
  constructor
  · intro walked
    obtain ⟨t, member, edge⟩ := walked
    obtain ⟨i, place⟩ := List.mem_iff_getElem?.mp member
    exact ⟨i, t, place, edge⟩
  · intro walked
    obtain ⟨i, t, place, edge⟩ := walked
    exact ⟨t, List.mem_of_getElem? place, edge⟩

theorem edges_nodup : m.edges.Nodup ↔
    (∀ t ∈ m.triangulation, t.edges.Nodup) ∧ ∀ e i j, m.Walks i e → m.Walks j e → i = j := by
  rw [edges, List.nodup_flatMap, List.pairwise_iff_getElem]
  apply and_congr_right
  intro _
  constructor
  · intro apart e i j walks other
    obtain ⟨t, placeI, first⟩ := walks
    obtain ⟨s, placeJ, second⟩ := other
    obtain ⟨inI, rfl⟩ := List.getElem?_eq_some_iff.mp placeI
    obtain ⟨inJ, rfl⟩ := List.getElem?_eq_some_iff.mp placeJ
    rcases Nat.lt_trichotomy i j with below | same | above
    · exact absurd second (apart i j inI inJ below first)
    · exact same
    · exact absurd first (apart j i inJ inI above second)
  · intro alone i j inI inJ below e first second
    have same := alone e i j ⟨_, List.getElem?_eq_getElem inI, first⟩ ⟨_, List.getElem?_eq_getElem inJ, second⟩
    omega

theorem closed_walks : Closed m.edges ↔ (∀ t ∈ m.triangulation, t.edges.Nodup) ∧
    ∀ e ∈ m.edges, ∃ i j, m.OnlyWalks i e ∧ m.OnlyWalks j e.swap := by
  rw [closed_iff, edges_nodup]
  constructor
  · intro closed
    obtain ⟨⟨nodup, alone⟩, back⟩ := closed
    refine ⟨nodup, ?_⟩
    intro e member
    obtain ⟨i, walks⟩ := mem_edges.mp member
    obtain ⟨j, walksBack⟩ := mem_edges.mp (back e member)
    exact ⟨i, j, ⟨walks, fun k other => alone e k i other walks⟩,
      walksBack, fun k other => alone e.swap k j other walksBack⟩
  · intro walked
    obtain ⟨nodup, once⟩ := walked
    refine ⟨⟨nodup, ?_⟩, ?_⟩
    · intro e i j walks other
      obtain ⟨k, _, only, _⟩ := once e (mem_edges.mpr ⟨i, walks⟩)
      exact (only.2 i walks).trans (only.2 j other).symm
    · intro e member
      obtain ⟨_, j, _, onlyBack⟩ := once e member
      exact mem_edges.mpr ⟨j, onlyBack.1⟩

-- A triangle that walks an edge both ways is folded, for it is not a point.
theorem walks_folded {e : Edge} {i : Nat} (nodup : ∀ t ∈ m.triangulation, t.edges.Nodup)
    (walks : m.Walks i e) (walksBack : m.Walks i e.swap) :
    ∃ t, m.triangulation[i]? = some t ∧ t.Folded := by
  obtain ⟨t, place, edge⟩ := walks
  obtain ⟨s, same, edgeBack⟩ := walksBack
  cases place.symm.trans same
  refine ⟨t, place, Triangle.walks_back.mp ⟨e, edge, edgeBack⟩, ?_⟩
  exact Triangle.edges_nodup.mp (nodup t (List.mem_of_getElem? place))

-- A point walks its one edge both ways, and is not folded.
theorem unfolded_nodup (once : ∀ e ∈ m.edges, ∃ i j, m.OnlyWalks i e ∧ m.OnlyWalks j e.swap ∧
    (i = j → ∃ t, m.triangulation[i]? = some t ∧ t.Folded)) : ∀ t ∈ m.triangulation, t.edges.Nodup := by
  intro t member
  rw [Triangle.edges_nodup]
  intro point
  obtain ⟨k, place⟩ := List.mem_iff_getElem?.mp member
  have walks : m.Walks k (t.a, t.b) := ⟨t, place, .head _⟩
  have walksBack : m.Walks k (t.b, t.a) := ⟨t, place, by simp [Triangle.edges, point.1, point.2]⟩
  obtain ⟨i, j, only, onlyBack, folded⟩ := once _ (mem_edges.mpr ⟨k, walks⟩)
  cases only.2 k walks
  obtain ⟨s, same, _, edged⟩ := folded (onlyBack.2 k walksBack)
  cases place.symm.trans same
  exact edged point

theorem shared_corners (shared : ∀ e ∈ m.edges, m.Shared e) : ∀ t ∈ m.triangulation, t.corners.Nodup := by
  intro t member
  by_contra repeated
  obtain ⟨e, edge, edgeBack⟩ := Triangle.walks_back.mpr repeated
  obtain ⟨k, place⟩ := List.mem_iff_getElem?.mp member
  have walks : m.Walks k e := ⟨t, place, edge⟩
  obtain ⟨i, j, only, onlyBack, apart⟩ := shared e (mem_edges.mpr ⟨k, walks⟩)
  exact apart ((only.2 k walks).symm.trans (onlyBack.2 k ⟨t, place, edgeBack⟩))

-- Only a listed triangle can repeat a corner unnoticed, no half of a quad.
theorem closed_corners (closed : Closed m.edges) (listed : ∀ t ∈ m.triangles, t.corners.Nodup) :
    ∀ t ∈ m.triangulation, t.corners.Nodup := by
  have nodup := (closed_iff.mp closed).1
  rw [edges, triangulation, List.flatMap_append, List.flatMap_assoc, List.nodup_append'] at nodup
  have halves := (List.nodup_flatMap.mp nodup.2.1).1
  intro t member
  rcases List.mem_append.mp member with inside | cut
  · exact listed t inside
  · obtain ⟨q, inside, half⟩ := List.mem_flatMap.mp cut
    exact Quad.split_corners (halves q inside) t half

-- Without points among the triangles, each edge is walked by one triangle and its reverse by one.
theorem closed_only : Closed m.edges ↔ ∀ e ∈ m.edges, ∃ i j, m.OnlyWalks i e ∧
    m.OnlyWalks j e.swap ∧ (i = j → ∃ t, m.triangulation[i]? = some t ∧ t.Folded) := by
  rw [closed_walks]
  constructor
  · intro walked e member
    obtain ⟨nodup, once⟩ := walked
    obtain ⟨i, j, only, onlyBack⟩ := once e member
    exact ⟨i, j, only, onlyBack, fun same => walks_folded nodup only.1 (same ▸ onlyBack.1)⟩
  · intro once
    refine ⟨unfolded_nodup once, ?_⟩
    intro e member
    obtain ⟨i, j, only, onlyBack, _⟩ := once e member
    exact ⟨i, j, only, onlyBack⟩

theorem shared_closed : (∀ e ∈ m.edges, m.Shared e) ↔
    Closed m.edges ∧ ∀ t ∈ m.triangles, t.corners.Nodup := by
  constructor
  · intro shared
    refine ⟨closed_only.mpr ?_, fun t listed => shared_corners shared t (List.mem_append_left _ listed)⟩
    intro e member
    obtain ⟨i, j, only, onlyBack, apart⟩ := shared e member
    exact ⟨i, j, only, onlyBack, fun same => absurd same apart⟩
  · intro closed e member
    obtain ⟨i, j, only, onlyBack, folded⟩ := closed_only.mp closed.1 e member
    refine ⟨i, j, only, onlyBack, ?_⟩
    intro same
    obtain ⟨t, place, repeated, _⟩ := folded same
    exact repeated (closed_corners closed.1 closed.2 t (List.mem_of_getElem? place))

-- The test asks for one triangle in each direction, but not for two triangles: it lets a folded
-- triangle pass that shares no edge. Every edge is shared by two triangles exactly when, besides,
-- no listed triangle repeats a corner. Beyond the bound only remainders of the counts are seen.
theorem watertight_shared (m : Mesh) :
    (m.isWatertight = true ↔
      ∀ e ∈ m.edges, m.edges.count e % 2 ^ 32 = 1 ∧ m.edges.count e.swap % 2 ^ 32 = 1) ∧
    (m.edges.length ≤ 2 ^ 32 →
      (m.isWatertight = true ↔ ∀ e ∈ m.edges, ∃ i j, m.OnlyWalks i e ∧ m.OnlyWalks j e.swap ∧
        (i = j → ∃ t, m.triangulation[i]? = some t ∧ t.Folded)) ∧
      ((∀ e ∈ m.edges, m.Shared e) ↔ m.isWatertight = true ∧ ∀ t ∈ m.triangles, t.corners.Nodup)) := by
  refine ⟨isWatertight_counts, ?_⟩
  intro bounded
  rw [isWatertight_closed bounded]
  exact ⟨closed_only, shared_closed⟩

end Mesh

def fourPoints : List Point3 := [⟨0.0, 0.0, 0.0⟩, ⟨1.0, 0.0, 0.0⟩, ⟨0.0, 1.0, 0.0⟩, ⟨0.0, 0.0, 1.0⟩]

-- One triangle, from a point to another and back.
def pin : Mesh := ⟨fourPoints, [⟨0, 0, 1⟩], []⟩

theorem watertight_shared_pin : pin.edges.length ≤ 2 ^ 32 ∧
    ((∀ e ∈ pin.edges, pin.Shared e) ↔ pin.isWatertight = true ∧ ∀ t ∈ pin.triangles, t.corners.Nodup) := by
  have bounded : pin.edges.length ≤ 2 ^ 32 := by decide
  exact ⟨bounded, ((Mesh.watertight_shared pin).2 bounded).2⟩

theorem pin_unshared : pin.Valid ∧ pin.isWatertight = true ∧ ¬∀ e ∈ pin.edges, pin.Shared e := by
  refine ⟨Check.mesh_ok.mp rfl, by decide, ?_⟩
  intro shared
  have corners : [0, 0, 1].Nodup := Mesh.shared_corners shared ⟨0, 0, 1⟩ (.head _)
  exact absurd corners (by decide)

namespace Quad

-- The cut between the two halves, walked by one of them each way.
def diagonal (q : Quad) : List Edge := [(q.a, q.c), (q.c, q.a)]

theorem split_edges (q : Quad) : (q.split.flatMap Triangle.edges).Perm (q.edges ++ q.diagonal) := by
  apply List.perm_iff_count.mpr
  intro e
  simp only [split, Triangle.edges, edges, diagonal, List.flatMap_cons, List.flatMap_nil, List.cons_append,
    List.nil_append, List.append_nil, List.count_cons, List.count_nil]
  omega

theorem diagonal_back (q : Quad) (e : Edge) : q.diagonal.count e.swap = q.diagonal.count e := by
  have reversed : q.diagonal.map Prod.swap = q.diagonal.reverse := rfl
  calc q.diagonal.count e.swap
      = q.diagonal.reverse.count e.swap := List.count_reverse.symm
    _ = (q.diagonal.map Prod.swap).count e.swap := by rw [reversed]
    _ = q.diagonal.count e := List.count_map_of_injective _ _ Prod.swap_injective e

end Quad

namespace Mesh

-- The edges of the faces as they are listed, three a triangle and four a quad.
def borders (m : Mesh) : List Edge := m.triangles.flatMap Triangle.edges ++ m.quads.flatMap Quad.edges

def diagonals (m : Mesh) : List Edge := m.quads.flatMap Quad.diagonal

theorem edges_split (m : Mesh) : m.edges.Perm (m.borders ++ m.diagonals) := by
  rw [edges, triangulation, List.flatMap_append, List.flatMap_assoc, borders, List.append_assoc]
  refine List.Perm.append_left _ ?_
  exact (List.Perm.flatMap_left _ fun q _ => q.split_edges).trans (List.flatMap_append_perm _ _ _).symm

theorem edges_count (m : Mesh) (e : Edge) : m.edges.count e = m.borders.count e + m.diagonals.count e := by
  rw [m.edges_split.count_eq, List.count_append]

theorem diagonals_back (m : Mesh) (e : Edge) : m.diagonals.count e.swap = m.diagonals.count e := by
  simp only [diagonals, List.count_flatMap, Function.comp_def, Quad.diagonal_back]

theorem edges_length (m : Mesh) : m.edges.length = 3 * m.triangles.length + 6 * m.quads.length := by
  have threes : m.triangles.map (fun t => t.edges.length) = m.triangles.map fun _ => 3 := rfl
  have sixes : m.quads.map (fun q => (q.split.flatMap Triangle.edges).length) = m.quads.map fun _ => 6 := rfl
  rw [edges, triangulation, List.flatMap_append, List.flatMap_assoc, List.length_append, List.length_flatMap,
    List.length_flatMap, threes, sixes, List.map_const', List.map_const', List.sum_replicate_nat,
    List.sum_replicate_nat, Nat.mul_comm, Nat.mul_comm 6]

theorem edges_inside {m : Mesh} (valid : m.Valid) :
    ∀ e ∈ m.edges, e.1 < m.points.length ∧ e.2 < m.points.length := by
  intro e member
  obtain ⟨t, listed, edge⟩ := List.mem_flatMap.mp member
  have inside := triangulation_inside valid t listed
  simp only [Triangle.corners, List.forall_mem_cons] at inside
  obtain ⟨a, b, c, _⟩ := inside
  simp only [Triangle.edges, List.mem_cons, List.not_mem_nil, or_false] at edge
  rcases edge with rfl | rfl | rfl
  · exact ⟨a, b⟩
  · exact ⟨b, c⟩
  · exact ⟨c, a⟩

theorem borders_inside {m : Mesh} (valid : m.Valid) :
    ∀ e ∈ m.borders, e.1 < m.points.length ∧ e.2 < m.points.length :=
  fun e border => edges_inside valid e (m.edges_split.mem_iff.mpr (List.mem_append_left _ border))

-- The cuts run between different corners, along no edge of a face and along no other cut.
def Clear (m : Mesh) : Prop := m.diagonals.Nodup ∧ ∀ e ∈ m.diagonals, e ∉ m.borders

instance (m : Mesh) : Decidable m.Clear := inferInstanceAs (Decidable (_ ∧ _))

-- An edge of a face is walked once, so it is no cut, and its reverse is none either.
theorem borders_closed {m : Mesh} (closed : Closed m.edges) : Closed m.borders := by
  intro e border
  have once := closed e (m.edges_split.mem_iff.mpr (List.mem_append_left _ border))
  have walked := List.count_pos_iff.mpr border
  simp only [edges_count, diagonals_back] at once
  omega

theorem closed_split {m : Mesh} : Closed m.edges ↔ Closed m.borders ∧ m.Clear := by
  constructor
  · intro closed
    have nodup := m.edges_split.nodup_iff.mp (closed_iff.mp closed).1
    obtain ⟨_, cuts, apart⟩ := List.nodup_append'.mp nodup
    exact ⟨borders_closed closed, cuts, fun e cut border => apart border cut⟩
  · intro split
    obtain ⟨closed, cuts, apart⟩ := split
    obtain ⟨nodup, back⟩ := closed_iff.mp closed
    rw [closed_iff, m.edges_split.nodup_iff]
    refine ⟨List.nodup_append'.mpr ⟨nodup, cuts, fun e border cut => apart e cut border⟩, ?_⟩
    intro e member
    rw [m.edges_split.mem_iff, List.mem_append] at member ⊢
    rcases member with border | cut
    · exact .inl (back e border)
    · apply Or.inr
      rw [← List.count_pos_iff, diagonals_back]
      exact List.count_pos_iff.mpr cut

end Mesh

-- Two triangles and a quad, which is cut along the edge from 0 to 2.
def mixedTetrahedron : Mesh := ⟨fourPoints, [⟨0, 3, 1⟩, ⟨1, 3, 2⟩], [⟨0, 1, 2, 3⟩]⟩

-- Beyond the bound. Every quad here is the first point alone, walked to itself six times when it is
-- cut, until the counter stands at one again.
def crowded (n : Nat) : Mesh := ⟨fourPoints, [⟨0, 0, 0⟩, ⟨0, 0, 1⟩, ⟨0, 0, 2⟩], List.replicate n ⟨0, 0, 0, 0⟩⟩

def crowdedEdges : List Edge := [(0, 0), (0, 0), (0, 0), (0, 0), (0, 1), (1, 0), (0, 0), (0, 2), (2, 0)]

theorem crowded_edges (n : Nat) : (crowded n).edges = crowdedEdges ++ List.replicate (n * 6) (0, 0) := by
  have quads : (List.replicate n (⟨0, 0, 0, 0⟩ : Quad)).flatMap (fun q => q.split.flatMap Triangle.edges) =
      List.replicate (n * 6) (0, 0) := by
    rw [List.flatMap_replicate]
    exact List.flatten_replicate_replicate (n := n) (m := 6)
  rw [Mesh.edges, Mesh.triangulation, List.flatMap_append, List.flatMap_assoc]
  exact congrArg _ quads

theorem crowded_count (n : Nat) (e : Edge) :
    (crowded n).edges.count e = crowdedEdges.count e + if (0, 0) = e then n * 6 else 0 := by
  rw [crowded_edges, List.count_append, List.count_replicate]
  simp only [beq_iff_eq]

theorem crowded_watertight {n : Nat} (full : (n * 6 + 5) % 2 ^ 32 = 1) : (crowded n).isWatertight = true := by
  have outer : ∀ e ∈ [((0, 1) : Edge), (1, 0), (0, 2), (2, 0)], (0, 0) ≠ e ∧ (0, 0) ≠ e.swap ∧
    crowdedEdges.count e = 1 ∧ crowdedEdges.count e.swap = 1 := by decide
  rw [Mesh.isWatertight_counts]
  intro e member
  have listed : e = (0, 0) ∨ e ∈ [((0, 1) : Edge), (1, 0), (0, 2), (2, 0)] := by
    rw [crowded_edges, List.mem_append, List.mem_replicate] at member
    simp only [crowdedEdges, List.mem_cons, List.not_mem_nil, or_false] at member ⊢
    tauto
  rw [crowded_count, crowded_count]
  rcases listed with point | outward
  · have five : crowdedEdges.count (0, 0) = 5 := by decide
    rw [point, Prod.swap_prod_mk, if_pos rfl, five, Nat.add_comm]
    exact ⟨full, full⟩
  · obtain ⟨apart, apartBack, once, onceBack⟩ := outer e outward
    rw [if_neg apart, if_neg apartBack, once, onceBack]
    exact ⟨rfl, rfl⟩

theorem crowded_valid (n : Nat) : (crowded n).Valid := by
  have pinned : pin.Valid := Check.mesh_ok.mp rfl
  refine ⟨pinned.points, pinned.finite, .inl (List.cons_ne_nil _ _), ?_, ?_⟩
  · change ∀ t ∈ [Triangle.mk 0 0 0, ⟨0, 0, 1⟩, ⟨0, 0, 2⟩], ∀ i ∈ t.corners, i < 4
    decide
  · intro q member
    rw [List.eq_of_mem_replicate member]
    change ∀ i ∈ [0, 0, 0, 0], i < 4
    decide

theorem crowded_borders (n : Nat) : ¬Closed (crowded n).borders := by
  intro closed
  have once := (closed (0, 0) (List.mem_append_left _ (.head _))).1
  have five : ((crowded n).triangles.flatMap Triangle.edges).count (0, 0) = 5 := by
    change crowdedEdges.count (0, 0) = 5
    decide
  rw [Mesh.borders, List.count_append, five] at once
  omega

theorem crowded_open : (crowded 715827882).Valid ∧ (crowded 715827882).isWatertight = true ∧
    ¬Closed (crowded 715827882).borders :=
  ⟨crowded_valid _, crowded_watertight (by decide), crowded_borders _⟩

end Solid
