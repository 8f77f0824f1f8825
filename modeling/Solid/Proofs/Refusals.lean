import Solid.Proofs.Checks
namespace Solid

-- The first member with the property. Members behind it may have it too.
def First {α : Type} (bad : α → Prop) (xs : List α) (x : α) : Prop :=
  ∃ front back, xs = front ++ x :: back ∧ (∀ y ∈ front, ¬bad y) ∧ bad x

theorem first_cons {α : Type} {bad : α → Prop} {x y : α} {xs : List α} :
    First bad (x :: xs) y ↔ bad x ∧ y = x ∨ ¬bad x ∧ First bad xs y := by
  constructor
  · intro first
    obtain ⟨front, back, split, clear, faulty⟩ := first
    cases front with
    | nil =>
      cases split
      exact .inl ⟨faulty, rfl⟩
    | cons z front =>
      cases split
      obtain ⟨own, others⟩ := List.forall_mem_cons.mp clear
      exact .inr ⟨own, front, back, rfl, others, faulty⟩
  · intro known
    rcases known with own | later
    · obtain ⟨faulty, rfl⟩ := own
      exact ⟨[], xs, rfl, nofun, faulty⟩
    · obtain ⟨own, front, back, rfl, clear, faulty⟩ := later
      exact ⟨x :: front, back, rfl, List.forall_mem_cons.mpr ⟨own, clear⟩, faulty⟩

-- So many of the points differ as numbers: one can be chosen for all that are the same.
def Different (points : List Point2) (n : Nat) : Prop :=
  ∃ chosen : List Point2, chosen.length = n ∧ (∀ q ∈ chosen, q ∈ points) ∧
    chosen.Pairwise (fun p q => ¬p.Same q) ∧ ∀ p ∈ points, ∃ q ∈ chosen, p.Same q

-- The coordinates in their order, with the names that messages give them.
def Point2.coordinates (p : Point2) : List (String × Float) := [("x", p.x), ("y", p.y)]

def Point3.coordinates (p : Point3) : List (String × Float) :=
  [("point coordinate", p.x), ("point coordinate", p.y), ("point coordinate", p.z)]

def Infinite (coordinate : String × Float) : Prop := ¬coordinate.2.isFinite

namespace Check

section
variable {α : Type} {check : α → Check} {xs : List α} {e : Fault}

theorem then_error {c : Check} {run : Except Fault α} :
    (c >>= fun _ => run) = .error e ↔ c = .error e ∨ c = .ok () ∧ run = .error e := by
  cases c with
  | error fault => simp [bind, Except.bind]
  | ok passed => simp [bind, Except.bind]

theorem refuse_error {bad : Bool} {fault : Fault} : refuse bad fault = .error e ↔ bad = true ∧ e = fault := by
  cases bad <;> simp [refuse, eq_comm]

theorem all_error : all check xs = .error e ↔ ∃ x, First (fun y => check y ≠ .ok ()) xs x ∧ check x = .error e := by
  induction xs with
  | nil =>
    constructor
    · intro refused
      cases refused
    · intro known
      obtain ⟨x, ⟨front, back, split, _⟩, _⟩ := known
      cases front <;> cases split
  | cons x rest ih =>
    rw [all, then_error, ih]
    constructor
    · intro refused
      rcases refused with own | ⟨passed, y, first, later⟩
      · have bad : check x ≠ .ok () := by
          intro passed
          cases own.symm.trans passed
        exact ⟨x, first_cons.mpr (.inl ⟨bad, rfl⟩), own⟩
      · exact ⟨y, first_cons.mpr (.inr ⟨not_not.mpr passed, first⟩), later⟩
    · intro known
      obtain ⟨y, first, refused⟩ := known
      rcases first_cons.mp first with ⟨_, rfl⟩ | ⟨passed, later⟩
      · exact .inl refused
      · exact .inr ⟨not_not.mp passed, y, later, refused⟩

theorem all_append (ys : List α) : all check (xs ++ ys) = all check xs >>= fun _ => all check ys := by
  induction xs with
  | nil => rfl
  | cons x rest ih =>
    rw [List.cons_append, all, all, ih]
    cases check x <;> rfl

theorem all_flatMap {β : Type} {parts : α → List β} {check : β → Check} :
    all check (xs.flatMap parts) = all (fun x => all check (parts x)) xs := by
  induction xs with
  | nil => rfl
  | cons x rest ih => rw [List.flatMap_cons, all_append, ih, all]

theorem finite_error {parameter : String} {x : Float} :
    finite parameter x = .error e ↔ ¬x.isFinite ∧ e = .notFinite parameter x := by
  simp [finite, refuse_error]

-- Points are judged number by number.
theorem coordinates_error {coordinates : α → List (String × Float)} :
    all (fun x => all (fun c => finite c.1 c.2) (coordinates x)) xs = .error e ↔
      ∃ name x, First Infinite (xs.flatMap coordinates) (name, x) ∧ e = .notFinite name x := by
  rw [← all_flatMap, all_error]
  have same : (fun c : String × Float => finite c.1 c.2 ≠ .ok ()) = Infinite := by
    funext c
    rw [ne_eq, finite_ok, Infinite]
  simp only [same, finite_error]
  constructor
  · intro refused
    obtain ⟨c, first, _, blamed⟩ := refused
    exact ⟨c.1, c.2, first, blamed⟩
  · intro refused
    obtain ⟨name, x, first, blamed⟩ := refused
    obtain ⟨_, _, _, _, infinite⟩ := id first
    exact ⟨(name, x), first, infinite, blamed⟩

end

theorem finitePoint2_all (p : Point2) : finitePoint2 p = all (fun c => finite c.1 c.2) p.coordinates := by
  simp only [finitePoint2, Point2.coordinates, all]
  cases finite "y" p.y <;> rfl

theorem finitePoint3_all (p : Point3) : finitePoint3 p = all (fun c => finite c.1 c.2) p.coordinates := by
  simp only [finitePoint3, Point3.coordinates, all]
  cases finite "point coordinate" p.z <;> rfl

theorem face_error {count : Nat} {corners : List Nat} {e : Fault} : face count corners = .error e ↔
    ∃ index, First (count ≤ ·) corners index ∧ e = .missingPoint corners index count := by
  have found (index : Nat) : corners.find? (count ≤ ·) = some index ↔ First (count ≤ ·) corners index := by
    rw [List.find?_eq_some_iff_append]
    simp only [decide_eq_true_eq, Bool.not_eq_true', decide_eq_false_iff_not]
    constructor
    · intro found
      obtain ⟨bad, front, back, split, clear⟩ := found
      exact ⟨front, back, split, clear, bad⟩
    · intro first
      obtain ⟨front, back, split, clear, bad⟩ := first
      exact ⟨bad, front, back, split, clear⟩
  simp only [← found]
  unfold face
  cases corners.find? (count ≤ ·) <;> simp [eq_comm]

-- Every image has a point that it is the image of.
theorem images_chosen {α β : Type} {f : α → β} {xs : List α} {ys : List β} (images : ∀ y ∈ ys, ∃ x ∈ xs, f x = y) :
    ∃ chosen : List α, (∀ x ∈ chosen, x ∈ xs) ∧ chosen.map f = ys := by
  induction ys with
  | nil => exact ⟨[], nofun, rfl⟩
  | cons y rest ih =>
    obtain ⟨⟨x, member, rfl⟩, others⟩ := List.forall_mem_cons.mp images
    obtain ⟨chosen, inside, rfl⟩ := ih others
    exact ⟨x :: chosen, List.forall_mem_cons.mpr ⟨member, inside⟩, rfl⟩

-- The check counts images without repetition; each is that of all points which are the same as one.
theorem distinct_different {points : List Point2} (finite : ∀ p ∈ points, p.Finite) {n : Nat} :
    distinctCount points = n ↔ Different points n := by
  have keyed {p q : Point2} (hp : p ∈ points) (hq : q ∈ points) : p.key = q.key ↔ p.Same q :=
    same_key (finite p hp) (finite q hq)
  have once := distinct_nodup (points.map Point2.key)
  have image := fun k => (@mem_distinct _ _ k (points.map Point2.key)).trans List.mem_map
  unfold distinctCount
  generalize distinct (points.map Point2.key) = images at *
  constructor
  · intro counted
    obtain ⟨chosen, inside, rfl⟩ := images_chosen fun p member => (image p).mp member
    refine ⟨chosen, by simpa using counted, inside, ?_, ?_⟩
    · have different := List.pairwise_map.mp once
      apply different.imp_of_mem
      intro p q hp hq apart
      exact (not_congr (keyed (inside p hp) (inside q hq))).mp apart
    · intro p member
      obtain ⟨q, there, same⟩ := List.mem_map.mp ((image p.key).mpr ⟨p, member, rfl⟩)
      exact ⟨q, there, (keyed member (inside q there)).mp same.symm⟩
  · intro known
    obtain ⟨chosen, count, inside, different, all⟩ := known
    have once' : (chosen.map Point2.key).Nodup := by
      apply List.pairwise_map.mpr
      apply different.imp_of_mem
      intro p q hp hq apart
      exact (not_congr (keyed (inside p hp) (inside q hq))).mpr apart
    have same : images.Perm (chosen.map Point2.key) := by
      apply (List.perm_ext_iff_of_nodup once once').mpr
      intro k
      rw [image, List.mem_map]
      constructor
      · intro known
        obtain ⟨q, member, own⟩ := known
        obtain ⟨r, there, same⟩ := all q member
        exact ⟨r, there, ((keyed member (inside r there)).mpr same).symm.trans own⟩
      · intro known
        obtain ⟨q, there, own⟩ := known
        exact ⟨q, inside q there, own⟩
    rw [same.length_eq, List.length_map, count]

end Check

-- What a ring is blamed for, each condition only where those before it hold.
inductive RingFault (points : List Point2) : Fault → Prop
  | short (few : points.length < 4) : RingFault points (.shortRing points.length)
  | infinite {name : String} {x : Float} (long : 4 ≤ points.length)
    (first : First Infinite (points.flatMap Point2.coordinates) (name, x)) : RingFault points (.notFinite name x)
  | opened {p q : Point2} (long : 4 ≤ points.length) (finite : ∀ p ∈ points, p.Finite)
    (begins : points.head? = some p) (ends : points.getLast? = some q) (apart : ¬p.Same q) :
    RingFault points .openRing
  | narrow {p q : Point2} {n : Nat} (long : 4 ≤ points.length) (finite : ∀ p ∈ points, p.Finite)
    (begins : points.head? = some p) (ends : points.getLast? = some q) (closed : p.Same q)
    (counted : Different (vertices points) n) (few : n < 3) : RingFault points (.fewVertices n)

-- What a mesh is blamed for. Triangles are looked at before quads.
inductive MeshFault (m : Mesh) : Fault → Prop
  | short (few : m.points.length < 4) : MeshFault m (.fewPoints m.points.length)
  | infinite {name : String} {x : Float} (long : 4 ≤ m.points.length)
    (first : First Infinite (m.points.flatMap Point3.coordinates) (name, x)) : MeshFault m (.notFinite name x)
  | bare (long : 4 ≤ m.points.length) (finite : ∀ p ∈ m.points, p.Finite) (triangles : m.triangles = [])
    (quads : m.quads = []) : MeshFault m .noFaces
  | dangling {face : List Nat} {index : Nat} (long : 4 ≤ m.points.length) (finite : ∀ p ∈ m.points, p.Finite)
    (first : First (fun face => ∃ i ∈ face, m.points.length ≤ i) m.faces face)
    (corner : First (m.points.length ≤ ·) face index) : MeshFault m (.missingPoint face index m.points.length)

namespace Check

theorem closed_error {points : List Point2} (long : 4 ≤ points.length) : closed points = false ↔
    ∃ p q, points.head? = some p ∧ points.getLast? = some q ∧ ¬p.Same q := by
  have filled : points ≠ [] := by
    rintro rfl
    simp at long
  rw [← Bool.not_eq_true, closed_ok long]
  constructor
  · intro apart
    have begins := List.head?_eq_some_head filled
    have ends := List.getLast?_eq_some_getLast filled
    exact ⟨_, _, begins, ends, fun same => apart ⟨_, _, begins, ends, same⟩⟩
  · intro known met
    obtain ⟨p, q, begins, ends, apart⟩ := known
    obtain ⟨p', q', begins', ends', same⟩ := met
    cases Option.some.inj (begins.symm.trans begins')
    cases Option.some.inj (ends.symm.trans ends')
    exact apart same

-- The checks of a ring name its fault.
theorem ring_error {points : List Point2} {e : Fault} : ring points = .error e ↔ RingFault points e := by
  have inner (finite : ∀ p ∈ points, p.Finite) : ∀ p ∈ vertices points, p.Finite :=
    fun p member => finite p (List.dropLast_subset _ member)
  have judged : all finitePoint2 points = .error e ↔ ∃ name x,
      First Infinite (points.flatMap Point2.coordinates) (name, x) ∧ e = .notFinite name x := by
    rw [funext finitePoint2_all]
    exact coordinates_error
  simp only [ring, then_error, refuse_error, refuse_ok, judged, all_ok, finitePoint2_ok, decide_eq_true_eq,
    decide_eq_false_iff_not, Bool.not_eq_true', Bool.not_eq_false', Nat.not_lt]
  constructor
  · intro refused
    rcases refused with ⟨few, rfl⟩ | ⟨long, refused⟩
    · exact .short few
    rcases refused with ⟨name, x, first, rfl⟩ | ⟨finite, refused⟩
    · exact .infinite long first
    rcases refused with ⟨apart, rfl⟩ | ⟨meets, few, rfl⟩
    · obtain ⟨p, q, begins, ends, apart⟩ := (closed_error long).mp apart
      exact .opened long finite begins ends apart
    · obtain ⟨p, q, begins, ends, same⟩ := (closed_ok long).mp meets
      exact .narrow long finite begins ends same ((distinct_different (inner finite)).mp rfl) few
  · intro fault
    cases fault with
    | short few => exact .inl ⟨few, rfl⟩
    | infinite long first => exact .inr ⟨long, .inl ⟨_, _, first, rfl⟩⟩
    | opened long finite begins ends apart =>
      have opened := (closed_error long).mpr ⟨_, _, begins, ends, apart⟩
      exact .inr ⟨long, .inr ⟨finite, .inl ⟨opened, rfl⟩⟩⟩
    | narrow long finite begins ends same counted few =>
      have closed := (closed_ok long).mpr ⟨_, _, begins, ends, same⟩
      cases (distinct_different (inner finite)).mpr counted
      exact .inr ⟨long, .inr ⟨finite, .inr ⟨closed, few, rfl⟩⟩⟩

theorem mesh_error {m : Mesh} {e : Fault} : mesh m = .error e ↔ MeshFault m e := by
  have judged : all finitePoint3 m.points = .error e ↔ ∃ name x,
      First Infinite (m.points.flatMap Point3.coordinates) (name, x) ∧ e = .notFinite name x := by
    rw [funext finitePoint3_all]
    exact coordinates_error
  have outside : (fun corners => face m.points.length corners ≠ .ok ()) =
      fun corners => ∃ i ∈ corners, m.points.length ≤ i := by
    funext corners
    simp only [ne_eq, face_ok, not_forall, Nat.not_lt, exists_prop]
  simp only [mesh, then_error, refuse_error, refuse_ok, judged, all_ok, finitePoint3_ok, all_error, outside,
    face_error, decide_eq_true_eq, decide_eq_false_iff_not, Bool.and_eq_true, List.isEmpty_iff, Nat.not_lt]
  constructor
  · intro refused
    rcases refused with ⟨few, rfl⟩ | ⟨long, refused⟩
    · exact .short few
    rcases refused with ⟨name, x, first, rfl⟩ | ⟨finite, refused⟩
    · exact .infinite long first
    rcases refused with ⟨⟨none, none'⟩, rfl⟩ | ⟨_, face, first, index, corner, rfl⟩
    · exact .bare long finite none none'
    · exact .dangling long finite first corner
  · intro fault
    cases fault with
    | short few => exact .inl ⟨few, rfl⟩
    | infinite long first => exact .inr ⟨long, .inl ⟨_, _, first, rfl⟩⟩
    | bare long finite none none' => exact .inr ⟨long, .inr ⟨finite, .inl ⟨⟨none, none'⟩, rfl⟩⟩⟩
    | dangling long finite first corner =>
      have faces : (m.triangles.isEmpty && m.quads.isEmpty) = false := by
        apply Bool.eq_false_iff.mpr
        intro bare
        obtain ⟨none, none'⟩ := (Bool.and_eq_true _ _).mp bare
        obtain ⟨front, back, split, _⟩ := first
        simp [Mesh.faces, List.isEmpty_iff.mp none, List.isEmpty_iff.mp none'] at split
      exact .inr ⟨long, .inr ⟨finite, .inr ⟨faces, _, first, _, corner, rfl⟩⟩⟩

end Check

namespace Node
open Check

-- Only the check of a constructor can fail.
theorem made_error {kind : Kind} {check : Check} {node : Node} {e : Invalid} :
    made kind (check >>= fun _ => pure node) = .error e ↔ ∃ fault, check = .error fault ∧ e = ⟨kind, fault⟩ := by
  cases check with
  | error fault => simp [made, bind, Except.bind, eq_comm]
  | ok passed => simp [made, bind, Except.bind, pure, Except.pure]

-- The polygons are the closed rings: any other list is blamed for the first condition that it breaks.
theorem polygon_judged (points : List Point2) :
    (∀ node, polygon points = .ok node ↔ Ring points ∧ node = shape (.polygon points) ∧
      (∃ last, points = vertices points ++ [last]) ∧ 3 ≤ (vertices points).length) ∧
    ∀ e, polygon points = .error e ↔ ∃ fault, RingFault points fault ∧ e = ⟨.polygon, fault⟩ := by
  constructor
  · intro node
    rw [polygon_ok, Shape.Valid]
    constructor
    · intro known
      obtain ⟨ring, built⟩ := known
      have filled : points ≠ [] := List.ne_nil_of_length_pos (Nat.lt_of_lt_of_le (by decide) ring.long)
      have split : points = vertices points ++ [points.getLast filled] :=
        (List.dropLast_append_getLast filled).symm
      exact ⟨ring, built, ⟨_, split⟩, ring.vertices_long⟩
    · intro known
      obtain ⟨ring, built, _⟩ := known
      exact ⟨ring, built⟩
  · intro e
    simp only [polygon, made_error, ring_error]

-- The same for meshes. With one kind of face only, the list of the other is empty.
theorem polyhedron_judged (points : List Point3) (triangles : List Triangle) (quads : List Quad) :
    (∀ node, polyhedron points triangles quads = .ok node ↔
      Mesh.Valid ⟨points, triangles, quads⟩ ∧ node = shape (.polyhedron ⟨points, triangles, quads⟩)) ∧
    (∀ e, polyhedron points triangles quads = .error e ↔
      ∃ fault, MeshFault ⟨points, triangles, quads⟩ fault ∧ e = ⟨.polyhedron, fault⟩) ∧
    ofTriangles points triangles = polyhedron points triangles [] ∧
    ofQuads points quads = polyhedron points [] quads := by
  refine ⟨fun node => polyhedron_ok, fun e => ?_, rfl, rfl⟩
  simp only [polyhedron, made_error, mesh_error]

end Node
end Solid
