import Solid.Proofs.Watertight
namespace Solid

-- Points of the plane and of space in exact numbers.
structure Flat where
  x : ℚ
  y : ℚ

structure Place where
  x : ℚ
  y : ℚ
  z : ℚ

def Flat.raised (p : Flat) (z : ℚ) : Place := ⟨p.x, p.y, z⟩

def cross (p q : Flat) : ℚ := p.x * q.y - p.y * q.x

-- Six times the volume that the triangle spans with the origin.
def det (a b c : Place) : ℚ :=
  a.x * (b.y * c.z - b.z * c.y) - a.y * (b.x * c.z - b.z * c.x) + a.z * (b.x * c.y - b.y * c.x)

-- Six times the volume inside a closed mesh whose points stand at the given places.
def Mesh.sixfold (m : Mesh) (place : Nat → Place) : ℚ :=
  (m.triangulation.map fun t => det (place t.a) (place t.b) (place t.c)).sum

-- The points of two rings of `n` points each, one above the other.
def stacked (n : Nat) (p q : Nat → Flat) (h : ℚ) (i : Nat) : Place :=
  if i < n then (p i).raised 0 else (q (i - n)).raised h

-- The area inside a ring of `n` points, negative if the ring is clockwise.
def shoelace (n : Nat) (p : Nat → Flat) : ℚ := (∑ j ∈ Finset.range n, cross (p j) (p ((j + 1) % n))) / 2

-- The corners of a rectangle around the origin, in the order of `Layers.corners`.
def exactCorners (w l : ℚ) : Nat → Flat
  | 0 => ⟨-(w / 2), -(l / 2)⟩
  | 1 => ⟨-(w / 2), l / 2⟩
  | 2 => ⟨w / 2, l / 2⟩
  | _ => ⟨w / 2, -(l / 2)⟩

section Triangles

variable (a b c : Flat) (h : ℚ)

theorem det_bottom : det (a.raised 0) (b.raised 0) (c.raised 0) = 0 := by
  simp only [det, Flat.raised]
  ring

theorem det_top : det (a.raised h) (b.raised h) (c.raised h) = h * (cross a b + cross b c + cross c a) := by
  simp only [det, cross, Flat.raised]
  ring

theorem det_lower : det (a.raised 0) (b.raised 0) (c.raised h) = h * cross a b := by
  simp only [det, cross, Flat.raised]
  ring

theorem det_upper : det (a.raised 0) (b.raised h) (c.raised h) = h * (cross a b - cross a c) := by
  simp only [det, cross, Flat.raised]
  ring

theorem cross_self : cross a a = 0 := by
  simp only [cross]
  ring

theorem cross_back : cross b a = -cross a b := by
  simp only [cross]
  ring

end Triangles

section Rings

variable {n : Nat} {p q : Nat → Flat} {h : ℚ}

theorem stacked_lower {i : Nat} (inside : i < n) : stacked n p q h i = (p i).raised 0 := if_pos inside

theorem stacked_upper (i : Nat) : stacked n p q h (n + i) = (q i).raised h := by
  rw [stacked, if_neg (by omega), Nat.add_sub_cancel_left]

-- Each triangle of a fan adds an edge to the path and moves the spoke that closes it.
theorem fan_path (q : Nat → Flat) (k : Nat) :
    ((List.range' 1 k).map fun j => cross (q 0) (q j) + cross (q j) (q (j + 1)) + cross (q (j + 1)) (q 0)).sum =
      (∑ j ∈ Finset.range (k + 1), cross (q j) (q (j + 1))) + cross (q (k + 1)) (q 0) := by
  induction k with
  | zero =>
    simp only [List.range'_zero, List.map_nil, List.sum_nil, zero_add, Finset.sum_range_one]
    rw [cross_back, neg_add_cancel]
  | succ k ih =>
    rw [List.range'_1_concat, List.map_append, List.sum_append, ih, Finset.sum_range_succ _ (k + 1), Nat.add_comm 1 k]
    simp only [List.map_cons, List.map_nil, List.sum_cons, List.sum_nil]
    rw [cross_back (q 0) (q (k + 1))]
    ring

theorem ring_path (q : Nat → Flat) (k : Nat) :
    ∑ j ∈ Finset.range (k + 1), cross (q j) (q ((j + 1) % (k + 1))) =
      (∑ j ∈ Finset.range k, cross (q j) (q (j + 1))) + cross (q k) (q 0) := by
  rw [Finset.sum_range_succ, Nat.mod_self]
  congr 1
  apply Finset.sum_congr rfl
  intro j member
  rw [Nat.mod_eq_of_lt (Nat.succ_lt_succ (Finset.mem_range.mp member))]

theorem fan_ring (q : Nat → Flat) (n : Nat) :
    ((List.range' 1 (n - 2)).map fun j =>
      cross (q 0) (q j) + cross (q j) (q (j + 1)) + cross (q (j + 1)) (q 0)).sum =
      ∑ j ∈ Finset.range n, cross (q j) (q ((j + 1) % n)) := by
  match n with
  | 0 => rfl
  | 1 => simp [cross_self]
  | k + 2 => rw [ring_path, Nat.add_sub_cancel, fan_path]

-- What the faces of one list of triangles and one list of quads add to the volume.
theorem sixfold_split (m : Mesh) (place : Nat → Place) : m.sixfold place =
    (m.triangles.map fun t => det (place t.a) (place t.b) (place t.c)).sum +
    (m.quads.map fun f =>
      det (place f.a) (place f.b) (place f.c) + det (place f.a) (place f.c) (place f.d)).sum := by
  rw [Mesh.sixfold, Mesh.triangulation, List.map_append, List.sum_append]
  congr 1
  induction m.quads with
  | nil => rfl
  | cons f rest ih =>
    rw [List.flatMap_cons, List.map_append, List.sum_append, ih, List.map_cons, List.sum_cons]
    simp only [Quad.split, List.map_cons, List.map_nil, List.sum_cons, List.sum_nil, add_zero]

namespace Layers

-- The bottom lies in the plane of the origin; the top is the area of its ring times the height.
theorem caps_sixfold (n : Nat) (p q : Nat → Flat) (h : ℚ) :
    ((capTriangles n).map fun t =>
      det (stacked n p q h t.a) (stacked n p q h t.b) (stacked n p q h t.c)).sum =
      h * ∑ j ∈ Finset.range n, cross (q j) (q ((j + 1) % n)) := by
  have bottom : ((List.range' 1 (n - 2)).map fun j =>
      det (stacked n p q h 0) (stacked n p q h (j + 1)) (stacked n p q h j)).sum = 0 := by
    apply List.sum_eq_zero
    intro volume member
    obtain ⟨j, inside, rfl⟩ := List.mem_map.mp member
    rw [List.mem_range'_1] at inside
    rw [stacked_lower (by omega), stacked_lower (by omega), stacked_lower (by omega), det_bottom]
  have top (j : Nat) : det (stacked n p q h n) (stacked n p q h (n + j)) (stacked n p q h (n + j + 1)) =
      h * (cross (q 0) (q j) + cross (q j) (q (j + 1)) + cross (q (j + 1)) (q 0)) := by
    have first : stacked n p q h n = (q 0).raised h := stacked_upper 0
    rw [first, stacked_upper, Nat.add_assoc, stacked_upper, det_top]
  rw [capTriangles, List.map_append, List.sum_append, List.map_map, List.map_map, ← fan_ring,
    ← List.sum_map_mul_left]
  refine (congrArg₂ (· + ·) bottom ?_).trans (zero_add _)
  exact congrArg List.sum (List.map_congr_left fun j _ => top j)

theorem sides_sixfold (n : Nat) (p q : Nat → Flat) (h : ℚ) :
    ((sideQuads n).map fun f =>
      det (stacked n p q h f.a) (stacked n p q h f.b) (stacked n p q h f.c) +
        det (stacked n p q h f.a) (stacked n p q h f.c) (stacked n p q h f.d)).sum =
      h * ∑ j ∈ Finset.range n,
        (cross (p j) (p ((j + 1) % n)) + cross (p j) (q ((j + 1) % n)) - cross (p j) (q j)) := by
  rw [sideQuads, List.map_map, Finset.mul_sum]
  change ∑ j ∈ Finset.range n, _ = _
  apply Finset.sum_congr rfl
  intro j member
  have inside := Finset.mem_range.mp member
  have next : (j + 1) % n < n := Nat.mod_lt _ (by omega)
  simp only [Function.comp_apply]
  rw [stacked_lower inside, stacked_lower next, stacked_upper, stacked_upper, det_lower, det_upper]
  ring

theorem prism_sixfold (points : List Point3) (n : Nat) (p q : Nat → Flat) (h : ℚ) :
    (Mesh.mk points (capTriangles n) (sideQuads n)).sixfold (stacked n p q h) =
      h * ∑ j ∈ Finset.range n, (cross (p j) (p ((j + 1) % n)) + cross (q j) (q ((j + 1) % n)) +
        cross (p j) (q ((j + 1) % n)) - cross (p j) (q j)) := by
  rw [sixfold_split, caps_sixfold, sides_sixfold, ← mul_add, ← Finset.sum_add_distrib]
  congr 1
  apply Finset.sum_congr rfl
  intro j _
  ring

-- Between two copies of one ring the volume is the area times the height.
theorem prism_upright (points : List Point3) (n : Nat) (p : Nat → Flat) (h : ℚ) :
    (Mesh.mk points (capTriangles n) (sideQuads n)).sixfold (stacked n p p h) = 6 * h * shoelace n p := by
  have same (j : Nat) : cross (p j) (p ((j + 1) % n)) + cross (p j) (p ((j + 1) % n)) +
      cross (p j) (p ((j + 1) % n)) - cross (p j) (p j) = 3 * cross (p j) (p ((j + 1) % n)) := by
    rw [cross_self]
    ring
  rw [prism_sixfold, Finset.sum_congr rfl fun j _ => same j, ← Finset.mul_sum, shoelace]
  ring

theorem box_sixfold (points : List Point3) (w l w' l' h : ℚ) :
    (Mesh.mk points [] boxQuads).sixfold (stacked 4 (exactCorners w l) (exactCorners w' l') h) =
      -h * (w * l + (w + w') * (l + l') + w' * l') := by
  simp [sixfold_split, boxQuads, stacked, exactCorners, det, Flat.raised]
  ring

end Layers

end Rings

open Layers in
-- The first two parts hold of every number of points, the next of every size; the last two say that
-- the faces are those of the solids that are built. A clockwise ring has a negative area, so upright
-- prisms over clockwise rings and all frustums are clockwise when seen from outside.
theorem solids_wound :
    (∀ points n p q h, (Mesh.mk points (capTriangles n) (sideQuads n)).sixfold (stacked n p q h) =
      h * ∑ j ∈ Finset.range n, (cross (p j) (p ((j + 1) % n)) + cross (q j) (q ((j + 1) % n)) +
        cross (p j) (q ((j + 1) % n)) - cross (p j) (q j))) ∧
    (∀ points n p h,
      (Mesh.mk points (capTriangles n) (sideQuads n)).sixfold (stacked n p p h) = 6 * h * shoelace n p ∧
      (0 < h → shoelace n p < 0 →
        (Mesh.mk points (capTriangles n) (sideQuads n)).sixfold (stacked n p p h) < 0)) ∧
    (∀ points w l w' l' h,
      (Mesh.mk points [] boxQuads).sixfold (stacked 4 (exactCorners w l) (exactCorners w' l') h) =
        -h * (w * l + (w + w') * (l + l') + w' * l') ∧
      (0 < w → 0 < l → 0 < w' → 0 < l' → 0 < h →
        (Mesh.mk points [] boxQuads).sixfold (stacked 4 (exactCorners w l) (exactCorners w' l') h) < 0)) ∧
    (∀ lower upper height m, prism lower upper height = .ok (.shape (.polyhedron m)) →
      m.triangles = capTriangles lower.length ∧ m.quads = sideQuads lower.length) ∧
    (∀ w l w' l' height m, frustum w l w' l' height = .ok (.shape (.polyhedron m)) →
      m.triangles = [] ∧ m.quads = boxQuads) := by
  refine ⟨prism_sixfold, ?_, ?_, ?_, ?_⟩
  · intro points n p h
    refine ⟨prism_upright points n p h, ?_⟩
    intro high clockwise
    rw [prism_upright]
    exact mul_neg_of_pos_of_neg (by positivity) clockwise
  · intro points w l w' l' h
    refine ⟨box_sixfold points w l w' l' h, ?_⟩
    intro hw hl hw' hl' high
    rw [box_sixfold, neg_mul, neg_lt_zero]
    positivity
  · intro lower upper height m built
    obtain ⟨_, _, same⟩ := prism_ok.mp built
    cases same
    exact ⟨rfl, rfl⟩
  · intro w l w' l' height m built
    obtain ⟨_, same⟩ := frustum_ok.mp built
    cases same
    exact ⟨rfl, rfl⟩

-- A clockwise triangle.
def threeCorners : Nat → Flat
  | 0 => ⟨0, 0⟩
  | 1 => ⟨0, 2⟩
  | _ => ⟨2, 0⟩

open Layers in
theorem solids_wound_triangle :
    (0 < (3 : ℚ) ∧ shoelace 3 threeCorners < 0 ∧
      (Mesh.mk [] (capTriangles 3) (sideQuads 3)).sixfold (stacked 3 threeCorners threeCorners 3) < 0) ∧
    (Mesh.mk [] [] boxQuads).sixfold (stacked 4 (exactCorners 4 2) (exactCorners 3 1) 5) < 0 ∧
    (∃ m, prism [⟨0.0, 0.0⟩, ⟨0.0, 2.0⟩, ⟨2.0, 0.0⟩] [⟨0.0, 0.0⟩, ⟨0.0, 2.0⟩, ⟨2.0, 0.0⟩] 3.0 =
      .ok (.shape (.polyhedron m)) ∧ m.triangles = capTriangles 3 ∧ m.quads = sideQuads 3) ∧
    (∃ m, frustum 4.0 2.0 3.0 1.0 5.0 = .ok (.shape (.polyhedron m)) ∧
      m.triangles = [] ∧ m.quads = boxQuads) := by
  obtain ⟨_, upright, sized, prisms, frustums⟩ := solids_wound
  have high : 0 < (3 : ℚ) := by norm_num
  have clockwise : shoelace 3 threeCorners < 0 := by
    norm_num [shoelace, Finset.sum_range_succ, threeCorners, cross]
  have box := (sized [] 4 2 3 1 5).2 (by norm_num) (by norm_num) (by norm_num) (by norm_num) (by norm_num)
  refine ⟨⟨high, clockwise, (upright [] 3 threeCorners 3).2 high clockwise⟩, box, ?_, ?_⟩
  · have built : prism [⟨0.0, 0.0⟩, ⟨0.0, 2.0⟩, ⟨2.0, 0.0⟩] [⟨0.0, 0.0⟩, ⟨0.0, 2.0⟩, ⟨2.0, 0.0⟩] 3.0 =
      .ok (.shape (.polyhedron _)) := rfl
    exact ⟨_, built, prisms _ _ _ _ built⟩
  · have built : frustum 4.0 2.0 3.0 1.0 5.0 = .ok (.shape (.polyhedron _)) := rfl
    exact ⟨_, built, frustums _ _ _ _ _ _ built⟩

end Solid
