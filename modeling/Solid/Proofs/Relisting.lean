import Solid.Proofs.Surfaces
namespace Solid

namespace Triangle

def renumbered (place : Nat → Nat) (t : Triangle) : Triangle := ⟨place t.a, place t.b, place t.c⟩

-- The same face, begun at each of its corners.
def turns (t : Triangle) : List Triangle := [t, ⟨t.b, t.c, t.a⟩, ⟨t.c, t.a, t.b⟩]

theorem turns_edges {t s : Triangle} (turned : s ∈ t.turns) : s.edges.Perm t.edges := by
  simp only [turns, List.mem_cons, List.not_mem_nil, or_false] at turned
  rcases turned with rfl | rfl | rfl
  · exact .refl _
  · exact List.rotate_perm t.edges 1
  · exact List.rotate_perm t.edges 2

end Triangle

namespace Quad

def renumbered (place : Nat → Nat) (q : Quad) : Quad := ⟨place q.a, place q.b, place q.c, place q.d⟩

def turns (q : Quad) : List Quad := [q, ⟨q.b, q.c, q.d, q.a⟩, ⟨q.c, q.d, q.a, q.b⟩, ⟨q.d, q.a, q.b, q.c⟩]

-- Begun at the opposite corner, a quad keeps its cut.
def halfTurns (q : Quad) : List Quad := [q, ⟨q.c, q.d, q.a, q.b⟩]

theorem turns_edges {q r : Quad} (turned : r ∈ q.turns) : r.edges.Perm q.edges := by
  simp only [turns, List.mem_cons, List.not_mem_nil, or_false] at turned
  rcases turned with rfl | rfl | rfl | rfl
  · exact .refl _
  · exact List.rotate_perm q.edges 1
  · exact List.rotate_perm q.edges 2
  · exact List.rotate_perm q.edges 3

theorem halfTurns_turns {q r : Quad} (turned : r ∈ q.halfTurns) : r ∈ q.turns := by
  simp only [halfTurns, turns, List.mem_cons, List.not_mem_nil, or_false] at turned ⊢
  rcases turned with rfl | rfl <;> simp

theorem halfTurns_diagonal {q r : Quad} (turned : r ∈ q.halfTurns) : r.diagonal.Perm q.diagonal := by
  simp only [halfTurns, List.mem_cons, List.not_mem_nil, or_false] at turned
  rcases turned with rfl | rfl
  · exact .refl _
  · exact .swap _ _ _

end Quad

-- Each member listed again as one of its variants, and then all of them in another order.
def ListedAnew {α : Type} (again : α → α → Prop) (xs ys : List α) : Prop :=
  ∃ zs, List.Forall₂ again xs zs ∧ zs.Perm ys

theorem anew_flatMap {α : Type} {again : α → α → Prop} {edges : α → List Edge} {move : Edge → Edge}
    (each : ∀ x y, again x y → (edges y).Perm ((edges x).map move)) {xs ys : List α}
    (listed : ListedAnew again xs ys) : (ys.flatMap edges).Perm ((xs.flatMap edges).map move) := by
  obtain ⟨zs, variants, reordered⟩ := listed
  refine (reordered.symm.flatMap_right edges).trans ?_
  clear reordered
  induction variants with
  | nil => exact .refl _
  | cons first _ rest =>
    rw [List.flatMap_cons, List.flatMap_cons, List.map_append]
    exact (each _ _ first).append rest

theorem anew_length {α : Type} {again : α → α → Prop} {xs ys : List α} (listed : ListedAnew again xs ys) :
    ys.length = xs.length := by
  obtain ⟨zs, variants, reordered⟩ := listed
  exact reordered.length_eq.symm.trans variants.length_eq.symm

-- Two listings of one surface. The second may hold further points, which no face uses.
structure Relisted (turns : Quad → List Quad) (place : Nat → Nat) (m m' : Mesh) : Prop where
  injective : ∀ i j, i < m.points.length → j < m.points.length → place i = place j → i = j
  points : ∀ i < m.points.length, m'.points[place i]? = m.points[i]?
  triangles : ListedAnew (fun t t' => t' ∈ (t.renumbered place).turns) m.triangles m'.triangles
  quads : ListedAnew (fun q q' => q' ∈ turns (q.renumbered place)) m.quads m'.quads

def movedEdge (place : Nat → Nat) (e : Edge) : Edge := (place e.1, place e.2)

section Relisted

variable {m m' : Mesh} {place : Nat → Nat}

theorem Relisted.turned (same : Relisted Quad.halfTurns place m m') : Relisted Quad.turns place m m' := by
  obtain ⟨listed, variants, reordered⟩ := same.quads
  exact ⟨same.injective, same.points, same.triangles,
    listed, variants.imp fun _ _ turned => Quad.halfTurns_turns turned, reordered⟩

theorem relisted_borders (same : Relisted Quad.turns place m m') :
    m'.borders.Perm (m.borders.map (movedEdge place)) := by
  rw [Mesh.borders, Mesh.borders, List.map_append]
  refine (anew_flatMap ?_ same.triangles).append (anew_flatMap ?_ same.quads)
  · exact fun t t' turned => Triangle.turns_edges turned
  · exact fun q q' turned => Quad.turns_edges turned

theorem relisted_edges (same : Relisted Quad.halfTurns place m m') :
    m'.edges.Perm (m.edges.map (movedEdge place)) := by
  have diagonals : m'.diagonals.Perm (m.diagonals.map (movedEdge place)) :=
    anew_flatMap (fun q q' turned => Quad.halfTurns_diagonal turned) same.quads
  have faces := (relisted_borders same.turned).append diagonals
  rw [← List.map_append] at faces
  exact m'.edges_split.trans (faces.trans (m.edges_split.map _).symm)

theorem relisted_length (same : Relisted Quad.turns place m m') : m'.edges.length = m.edges.length := by
  have triangles := anew_length same.triangles
  have quads := anew_length same.quads
  rw [Mesh.edges_length, Mesh.edges_length, triangles, quads]

-- How often an edge is walked does not depend on the numbers of its ends.
theorem count_moved {edges : List Edge} {count : Nat}
    (injective : ∀ i j, i < count → j < count → place i = place j → i = j)
    (inside : ∀ e ∈ edges, e.1 < count ∧ e.2 < count) {e : Edge} (first : e.1 < count) (second : e.2 < count) :
    (edges.map (movedEdge place)).count (movedEdge place e) = edges.count e := by
  rw [List.count, List.countP_map]
  apply List.countP_congr
  intro f member
  obtain ⟨firstF, secondF⟩ := inside f member
  simp only [Function.comp_apply, beq_iff_eq]
  constructor
  · intro same
    obtain ⟨sameFirst, sameSecond⟩ := Prod.mk.inj same
    exact Prod.ext (injective _ _ firstF first sameFirst) (injective _ _ secondF second sameSecond)
  · intro same
    rw [same]

theorem counts_moved {edges edges' : List Edge} {count : Nat} (once : Nat → Prop)
    (injective : ∀ i j, i < count → j < count → place i = place j → i = j)
    (inside : ∀ e ∈ edges, e.1 < count ∧ e.2 < count) (moved : edges'.Perm (edges.map (movedEdge place))) :
    (∀ e ∈ edges', once (edges'.count e) ∧ once (edges'.count e.swap)) ↔
      ∀ e ∈ edges, once (edges.count e) ∧ once (edges.count e.swap) := by
  simp only [moved.mem_iff, moved.count_eq, List.forall_mem_map]
  refine forall₂_congr fun e member => ?_
  obtain ⟨first, second⟩ := inside e member
  have back : (movedEdge place e).swap = movedEdge place e.swap := rfl
  rw [back, count_moved injective inside first second, count_moved injective inside second first]

end Relisted

-- As long as every quad keeps its cut, the answer stays. A quad begun at a neighbouring corner is cut
-- along its other diagonal; then the answer changes exactly if the faces are closed and the cuts of
-- one of the listings are clear, but not those of the other.
theorem watertight_relisted {m m' : Mesh} {place : Nat → Nat} (valid : m.Valid) :
    (Relisted Quad.halfTurns place m m' → m'.isWatertight = m.isWatertight) ∧
    (Relisted Quad.turns place m m' → m.edges.length ≤ 2 ^ 32 →
      (m'.isWatertight = m.isWatertight ↔ (Closed m.borders → (m.Clear ↔ m'.Clear)))) := by
  constructor
  · intro same
    rw [Bool.eq_iff_iff, Mesh.isWatertight_counts, Mesh.isWatertight_counts]
    exact counts_moved (· % 2 ^ 32 = 1) same.injective (Mesh.edges_inside valid) (relisted_edges same)
  · intro same bounded
    have bounded' : m'.edges.length ≤ 2 ^ 32 := (relisted_length same).trans_le bounded
    have borders : Closed m'.borders ↔ Closed m.borders :=
      counts_moved (· = 1) same.injective (Mesh.borders_inside valid) (relisted_borders same)
    rw [Bool.eq_iff_iff, Mesh.isWatertight_closed bounded, Mesh.isWatertight_closed bounded',
      Mesh.closed_split, Mesh.closed_split, borders, and_congr_right_iff]
    exact imp_congr_right fun _ => iff_comm

-- Numbered from the other end, with the quad begun at its opposite corner.
def mirroredTetrahedron : Mesh := ⟨fourPoints.reverse, [⟨1, 2, 0⟩, ⟨0, 2, 3⟩], [⟨1, 0, 3, 2⟩]⟩

def cleanBox : Mesh := ⟨Layers.rings (Layers.corners 2.0 2.0) (Layers.corners 2.0 2.0) 1.0, [], Layers.boxQuads⟩

-- Every side of the box is cut along its other diagonal.
def recutBox : Mesh := { cleanBox with quads := Layers.boxQuads.map fun q => ⟨q.b, q.c, q.d, q.a⟩ }

theorem watertight_relisted_tetrahedron :
    (mixedTetrahedron.Valid ∧ Relisted Quad.halfTurns (3 - ·) mixedTetrahedron mirroredTetrahedron ∧
      mirroredTetrahedron.isWatertight = mixedTetrahedron.isWatertight) ∧
    (cleanBox.Valid ∧ Relisted Quad.turns id cleanBox recutBox ∧ cleanBox.edges.length ≤ 2 ^ 32 ∧
      recutBox.isWatertight = cleanBox.isWatertight) := by
  have valid : mixedTetrahedron.Valid := Check.mesh_ok.mp rfl
  have mirrored : Relisted Quad.halfTurns (3 - ·) mixedTetrahedron mirroredTetrahedron := by
    refine ⟨?_, by decide, ⟨[⟨0, 2, 3⟩, ⟨1, 2, 0⟩], ?_, by decide⟩, ⟨[⟨1, 0, 3, 2⟩], ?_, by decide⟩⟩
    · intro i j inI inJ same
      change i < 4 at inI
      change j < 4 at inJ
      omega
    · exact .cons (by decide) (.cons (by decide) .nil)
    · exact .cons (by decide) .nil
  have boxValid : cleanBox.Valid := Check.mesh_ok.mp rfl
  have recut : Relisted Quad.turns id cleanBox recutBox := by
    refine ⟨fun _ _ _ _ same => same, fun _ _ => rfl, ⟨[], .nil, .refl _⟩, ⟨recutBox.quads, ?_, .refl _⟩⟩
    exact List.forall₂_map_right_iff.mpr (List.forall₂_same.mpr fun q _ => .tail _ (.head _))
  have bounded : cleanBox.edges.length ≤ 2 ^ 32 := by decide
  have clear : cleanBox.Clear ↔ recutBox.Clear := iff_of_true (by decide) (by decide)
  exact ⟨⟨valid, mirrored, (watertight_relisted valid).1 mirrored⟩,
    boxValid, recut, bounded, ((watertight_relisted boxValid).2 recut bounded).mpr fun _ => clear⟩

-- The same tetrahedron, its quad begun at 1: the cut from 1 to 3 runs along the edge of the triangles.
def turnedTetrahedron : Mesh := { mixedTetrahedron with quads := [⟨1, 2, 3, 0⟩] }

theorem turned_open : mixedTetrahedron.Valid ∧ Relisted Quad.turns id mixedTetrahedron turnedTetrahedron ∧
    mixedTetrahedron.isWatertight = true ∧ turnedTetrahedron.isWatertight = false := by
  have turned : Relisted Quad.turns id mixedTetrahedron turnedTetrahedron := by
    refine ⟨fun _ _ _ _ same => same, fun _ _ => rfl, ⟨mixedTetrahedron.triangles, ?_, .refl _⟩,
      ⟨turnedTetrahedron.quads, ?_, .refl _⟩⟩
    · exact .cons (by decide) (.cons (by decide) .nil)
    · exact .cons (by decide) .nil
  exact ⟨Check.mesh_ok.mp rfl, turned, by decide, by decide⟩

end Solid
