import Solid.Proofs.Trees
namespace Solid

theorem bind_ok {ε α β : Type} {x : Except ε α} {f : α → Except ε β} {b : β} :
    x >>= f = .ok b ↔ ∃ a, x = .ok a ∧ f a = .ok b := by
  cases x with
  | error e => exact ⟨nofun, fun ⟨_, impossible, _⟩ => nomatch impossible⟩
  | ok a => exact ⟨fun run => ⟨a, rfl, run⟩, fun ⟨_, same, run⟩ => Except.ok.inj same ▸ run⟩

theorem mapError_ok {ε δ α : Type} {x : Except ε α} {f : ε → δ} {a : α} :
    x.mapError f = .ok a ↔ x = .ok a := by
  cases x <;> simp [Except.mapError]

theorem map_ok {ε α β : Type} {x : Except ε α} {f : α → β} {b : β} :
    x.map f = .ok b ↔ ∃ a, x = .ok a ∧ f a = b := by
  cases x <;> simp [Except.map]

namespace Check

-- A check in front of another run.
theorem then_ok {α : Type} {c : Check} {run : Except Fault α} {a : α} :
    (c >>= fun _ => run) = .ok a ↔ c = .ok () ∧ run = .ok a := by
  rw [bind_ok]
  exact ⟨fun ⟨_, passed, rest⟩ => ⟨passed, rest⟩, fun ⟨passed, rest⟩ => ⟨_, passed, rest⟩⟩

theorem refuse_ok {bad : Bool} {fault : Fault} : refuse bad fault = .ok () ↔ bad = false := by
  cases bad <;> simp [refuse]

theorem all_ok {α : Type} {check : α → Check} {xs : List α} :
    all check xs = .ok () ↔ ∀ x ∈ xs, check x = .ok () := by
  induction xs with
  | nil => simp [all]
  | cons x rest ih => simp only [all, then_ok, ih, List.forall_mem_cons]

theorem finite_ok {parameter : String} {x : Float} : finite parameter x = .ok () ↔ x.isFinite := by
  simp [finite, refuse_ok]

theorem positive_ok {parameter : String} {x : Float} : positive parameter x = .ok () ↔ Positive x := by
  simp [positive, refuse_ok, Positive, and_comm]

theorem nonzero_ok {parameter : String} {x : Float} : nonzero parameter x = .ok () ↔ Nonzero x := by
  simp [nonzero, then_ok, finite_ok, refuse_ok, Nonzero]

-- The bounds alone keep out what is not finite.
theorem angle_ok {x : Float} : angle x = .ok () ↔ Positive x ∧ x ≤ 360.0 := by
  have finite (above : 0.0 < x) (below : x ≤ 360.0) : x.isFinite :=
    Doubles.between_finite (by decide) above below
  simp only [angle, refuse_ok, Positive, Bool.not_eq_false', Bool.and_eq_true, decide_eq_true_eq]
  exact ⟨fun ⟨above, below⟩ => ⟨⟨finite above below, above⟩, below⟩, fun ⟨positive, below⟩ =>
    ⟨positive.2, below⟩⟩

theorem atLeastTwo_ok {count : Nat} : atLeastTwo count = .ok () ↔ 2 ≤ count := by
  simp only [atLeastTwo, refuse_ok, decide_eq_false_iff_not, Nat.not_lt]

theorem axis_ok {x : Float} : axis x = .ok () ↔ x == 0.0 ∨ x == 1.0 := by
  simp only [axis, refuse_ok, Bool.not_eq_false', Bool.or_eq_true]

theorem face_ok {count : Nat} {corners : List Nat} :
    face count corners = .ok () ↔ ∀ i ∈ corners, i < count := by
  unfold face
  split <;> grind

theorem finitePoint2_ok {p : Point2} : finitePoint2 p = .ok () ↔ p.Finite := by
  simp only [finitePoint2, then_ok, finite_ok, Point2.Finite]

theorem finitePoint3_ok {p : Point3} : finitePoint3 p = .ok () ↔ p.Finite := by
  simp only [finitePoint3, then_ok, finite_ok, Point3.Finite]

section
variable {α : Type} [DecidableEq α] {a : α} {xs : List α}

theorem mem_distinct : a ∈ distinct xs ↔ a ∈ xs := by
  induction xs with
  | nil => simp [distinct]
  | cons b rest ih =>
    unfold distinct
    dsimp only
    split <;> grind

theorem distinct_nodup (xs : List α) : (distinct xs).Nodup := by
  induction xs with
  | nil => simp [distinct]
  | cons b rest ih =>
    unfold distinct
    dsimp only
    split
    · exact ih
    · next fresh => exact List.nodup_cons.mpr ⟨fresh, ih⟩

-- Three members that differ pairwise make three entries.
theorem three_distinct :
    3 ≤ (distinct xs).length ↔ ∃ a ∈ xs, ∃ b ∈ xs, ∃ c ∈ xs, a ≠ b ∧ a ≠ c ∧ b ≠ c := by
  have nodup := distinct_nodup xs
  have member := fun a => @mem_distinct α _ a xs
  generalize distinct xs = chosen at *
  constructor
  · intro long
    match chosen, long with
    | a :: b :: c :: rest, _ =>
      simp only [List.nodup_cons, List.mem_cons, not_or] at nodup
      refine ⟨a, (member a).mp (by simp), b, (member b).mp (by simp), c, (member c).mp (by simp), ?_⟩
      exact ⟨nodup.1.1, nodup.1.2.1, nodup.2.1.1⟩
  · rintro ⟨a, ha, b, hb, c, hc, ab, ac, bc⟩
    have three : [a, b, c].Nodup := by simp [ab, ac, bc]
    have inside : [a, b, c] ⊆ chosen := by
      simp only [List.cons_subset, member, ha, hb, hc, List.nil_subset, and_self]
    exact (List.subperm_of_subset three inside).length_le

end

-- Two numbers have the same bits, once zero is added to them, exactly when they are equal.
theorem same_bits {x y : Float} (hx : x.isFinite) (hy : y.isFinite) :
    (x + 0.0).toBits = (y + 0.0).toBits ↔ (x == y) = true := by
  have zero : ((0.0 : Float) == 0.0) = true := by decide
  have equal := Doubles.beq_iff (y := y) hx
  rw [Float.toBits_inj, Doubles.plus_zero hx, Doubles.plus_zero hy]
  split <;> split <;> grind

theorem same_key {p q : Point2} (hp : p.Finite) (hq : q.Finite) : p.key = q.key ↔ p.Same q := by
  rw [Point2.key, Point2.key, Prod.mk.injEq, same_bits hp.1 hq.1, same_bits hp.2 hq.2, Point2.Same]

theorem closed_ok {points : List Point2} (long : 4 ≤ points.length) :
    closed points = true ↔ ∃ p q, points.head? = some p ∧ points.getLast? = some q ∧ p.Same q := by
  obtain ⟨p, first⟩ : ∃ p, points.head? = some p := by
    cases points with
    | nil => simp at long
    | cons p rest => exact ⟨p, rfl⟩
  obtain ⟨q, last⟩ : ∃ q, points.getLast? = some q := by
    cases found : points.getLast? with
    | none => simp [List.getLast?_eq_none_iff.mp found] at first
    | some q => exact ⟨q, rfl⟩
  simp [closed, first, last, Point2.Same]

theorem three_vertices {points : List Point2} (finite : ∀ p ∈ points, p.Finite) :
    3 ≤ distinctCount points ↔ ∃ p ∈ points, ∃ q ∈ points, ∃ r ∈ points,
      ¬p.Same q ∧ ¬p.Same r ∧ ¬q.Same r := by
  have apart {p q : Point2} (hp : p ∈ points) (hq : q ∈ points) : p.key ≠ q.key ↔ ¬p.Same q :=
    not_congr (same_key (finite p hp) (finite q hq))
  unfold distinctCount
  rw [three_distinct]
  constructor
  · rintro ⟨p, hp, q, hq, r, hr, pq, pr, qr⟩
    obtain ⟨p, mp, rfl⟩ := List.mem_map.mp hp
    obtain ⟨q, mq, rfl⟩ := List.mem_map.mp hq
    obtain ⟨r, mr, rfl⟩ := List.mem_map.mp hr
    exact ⟨p, mp, q, mq, r, mr, (apart mp mq).mp pq, (apart mp mr).mp pr, (apart mq mr).mp qr⟩
  · rintro ⟨p, hp, q, hq, r, hr, pq, pr, qr⟩
    exact ⟨p.key, List.mem_map_of_mem hp, q.key, List.mem_map_of_mem hq, r.key,
      List.mem_map_of_mem hr, (apart hp hq).mpr pq, (apart hp hr).mpr pr, (apart hq hr).mpr qr⟩

theorem ring_ok {points : List Point2} : ring points = .ok () ↔ Ring points := by
  simp only [ring, then_ok, refuse_ok, all_ok, finitePoint2_ok, decide_eq_false_iff_not,
    Bool.not_eq_false', Nat.not_lt]
  have inner (finite : ∀ p ∈ points, p.Finite) : ∀ p ∈ vertices points, p.Finite :=
    fun p member => finite p (List.dropLast_subset _ member)
  constructor
  · rintro ⟨long, finite, meets, three⟩
    exact ⟨long, finite, (closed_ok long).mp meets, (three_vertices (inner finite)).mp three⟩
  · rintro ⟨long, finite, meets, three⟩
    exact ⟨long, finite, (closed_ok long).mpr meets, (three_vertices (inner finite)).mpr three⟩

theorem mesh_ok {m : Mesh} : mesh m = .ok () ↔ m.Valid := by
  simp only [mesh, then_ok, refuse_ok, all_ok, finitePoint3_ok, face_ok, decide_eq_false_iff_not,
    Nat.not_lt, Bool.and_eq_false_iff, List.isEmpty_eq_false_iff, Mesh.faces, List.forall_mem_append,
    List.forall_mem_map]
  exact ⟨fun ⟨points, finite, faces, triangles, quads⟩ => ⟨points, finite, faces, triangles, quads⟩,
    fun ⟨points, finite, faces, triangles, quads⟩ => ⟨points, finite, faces, triangles, quads⟩⟩

-- No component is both 0 and 1, so one of them is 1 exactly when not all are 0.
theorem some_axis {p : Point3} : p.Axes ↔ ((p.x == 0.0 ∨ p.x == 1.0) ∧ (p.y == 0.0 ∨ p.y == 1.0) ∧
    (p.z == 0.0 ∨ p.z == 1.0)) ∧ ¬(p.x == 0.0 ∧ p.y == 0.0 ∧ p.z == 0.0) := by
  have apart := fun x => @Doubles.zero_or_one x
  have x := apart p.x
  have y := apart p.y
  have z := apart p.z
  unfold Point3.Axes
  grind

theorem axes_ok {vector : List Float} {p : Point3} :
    axes vector = .ok p ↔ vector = [p.x, p.y, p.z] ∧ p.Axes := by
  match vector with
  | [x, y, z] =>
    simp only [axes, then_ok, all_ok, axis_ok, refuse_ok, List.forall_mem_cons, some_axis]
    constructor
    · rintro ⟨components, some, made⟩
      cases made
      simp_all
    · rintro ⟨same, components, some⟩
      cases same
      simp_all
      rfl
  | [] | [_] | [_, _] | _ :: _ :: _ :: _ :: _ => simp [axes]

end Check

namespace Node
open Check

variable {node item : Node} {items : List Node}

theorem made_ok {kind : Kind} {run : Except Fault Node} :
    made kind run = .ok node ↔ run = .ok node := by
  cases run <;> simp [made]

theorem return_ok {ε α : Type} {a b : α} : (pure a : Except ε α) = .ok b ↔ b = a := by
  simp [pure, Except.pure, eq_comm]

theorem circle_ok {r : Float} :
    circle r = .ok node ↔ (Shape.circle r).Valid ∧ node = shape (.circle r) := by
  simp only [circle, made_ok, then_ok, positive_ok, return_ok, Shape.Valid]

theorem circleSector_ok {r a : Float} : circleSector r a = .ok node ↔
    (Shape.circleSector r a).Valid ∧ node = shape (.circleSector r a) := by
  simp only [circleSector, made_ok, then_ok, positive_ok, angle_ok, return_ok, Shape.Valid, and_assoc]

theorem rectangle_ok {w h : Float} :
    rectangle w h = .ok node ↔ (Shape.rectangle w h).Valid ∧ node = shape (.rectangle w h) := by
  simp only [rectangle, made_ok, then_ok, positive_ok, return_ok, Shape.Valid, and_assoc]

theorem polygon_ok {points : List Point2} :
    polygon points = .ok node ↔ (Shape.polygon points).Valid ∧ node = shape (.polygon points) := by
  simp only [polygon, made_ok, then_ok, ring_ok, return_ok, Shape.Valid]

theorem cube_ok {w h d : Float} :
    cube w h d = .ok node ↔ (Shape.cube w h d).Valid ∧ node = shape (.cube w h d) := by
  simp only [cube, made_ok, then_ok, positive_ok, return_ok, Shape.Valid, and_assoc]

theorem sphere_ok {r : Float} :
    sphere r = .ok node ↔ (Shape.sphere r).Valid ∧ node = shape (.sphere r) := by
  simp only [sphere, made_ok, then_ok, positive_ok, return_ok, Shape.Valid]

theorem cylinder_ok {h r r' : Float} : cylinder h r r' = .ok node ↔
    (Shape.cylinder h r r').Valid ∧ node = shape (.cylinder h r r') := by
  simp only [cylinder, made_ok, then_ok, positive_ok, return_ok, Shape.Valid, and_assoc]

theorem polyhedron_ok {points : List Point3} {triangles : List Triangle} {quads : List Quad} :
    polyhedron points triangles quads = .ok node ↔
      (Mesh.mk points triangles quads).Valid ∧ node = shape (.polyhedron ⟨points, triangles, quads⟩) := by
  simp only [polyhedron, made_ok, then_ok, mesh_ok, return_ok]

theorem translate_ok {x y z : Float} : translate x y z item = .ok node ↔
    (Transform.translate ⟨x, y, z⟩).Valid ∧ node = transform (.translate ⟨x, y, z⟩) item := by
  simp only [translate, made_ok, then_ok, finite_ok, return_ok, Transform.Valid, Point3.Finite, and_assoc]

theorem rotate_ok {degrees : Float} {vector : List Float} : rotate degrees vector item = .ok node ↔
    ∃ p : Point3, vector = [p.x, p.y, p.z] ∧ (Transform.rotate degrees p).Valid ∧
      node = transform (.rotate degrees p) item := by
  rw [rotate, made_ok, then_ok, bind_ok]
  simp only [finite_ok, axes_ok, return_ok, Transform.Valid]
  grind

theorem scale_ok {x y z : Float} : scale x y z item = .ok node ↔
    (Transform.scale ⟨x, y, z⟩).Valid ∧ node = transform (.scale ⟨x, y, z⟩) item := by
  simp only [scale, made_ok, then_ok, nonzero_ok, return_ok, Transform.Valid, and_assoc]

theorem mirror_ok {vector : List Float} : mirror vector item = .ok node ↔
    ∃ p : Point3, vector = [p.x, p.y, p.z] ∧ (Transform.mirror p).Valid ∧
      node = transform (.mirror p) item := by
  simp only [mirror, made_ok, bind_ok, axes_ok, return_ok, Transform.Valid, and_assoc]

theorem union_ok : union items = .ok node ↔
    (Combination.union false).Admits items.length ∧ node = combine (.union false) items := by
  simp only [union, made_ok, then_ok, atLeastTwo_ok, return_ok, Combination.Admits]

theorem layers_ok : layers items = .ok node ↔
    (Combination.union true).Admits items.length ∧ node = combine (.union true) items := by
  simp only [layers, made_ok, then_ok, refuse_ok, return_ok, Combination.Admits,
    List.isEmpty_eq_false_iff, ← List.length_pos_iff, Nat.succ_le_iff]

theorem difference_ok : difference items = .ok node ↔
    Combination.difference.Admits items.length ∧ node = combine .difference items := by
  simp only [difference, made_ok, then_ok, atLeastTwo_ok, return_ok, Combination.Admits]

theorem intersection_ok : intersection items = .ok node ↔
    Combination.intersection.Admits items.length ∧ node = combine .intersection items := by
  simp only [intersection, made_ok, then_ok, atLeastTwo_ok, return_ok, Combination.Admits]

theorem linearExtrusion_ok {height twist : Float} : linearExtrusion height twist item = .ok node ↔
    (Transform.linearExtrusion height twist).Valid ∧
      node = transform (.linearExtrusion height twist) item := by
  simp only [linearExtrusion, made_ok, then_ok, finite_ok, return_ok, Transform.Valid, and_assoc]

end Node
end Solid
