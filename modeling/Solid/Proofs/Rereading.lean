import Solid.Proofs.Reachable
import Solid.Proofs.Saving
namespace Solid

namespace Json
open Decimal

-- What the text of a number is read as; not a number when it is refused.
def reread (x : Float) : Float :=
  match read (Layout.json.text x) with
  | .ok (.float y) => y
  | _ => Float.nan

theorem reread_survives {x : Float} (finite : x.isFinite) : reread x = x ↔ Survives x := by
  have infinite : ¬Float.nan.isFinite = true := by decide
  unfold reread Survives
  cases text : read (Layout.json.text x) with
  | error e =>
    refine ⟨fun same => ?_, nofun⟩
    rw [← same] at finite
    exact absurd finite infinite
  | ok v =>
    cases v with
    | float y => simp
    | null | bool | int | string | array | object =>
      refine ⟨fun same => ?_, nofun⟩
      rw [← same] at finite
      exact absurd finite infinite

-- A number is read as a number, never as an integer.
theorem float_reread {x : Float} (finite : x.isFinite) {v : Json}
    (value : (spelling (Binary.ofFloat x)).numeral.value = some v) : v = .float (reread x) := by
  have text := float_read finite
  rw [value] at text
  have real : ¬((spelling (Binary.ofFloat x)).numeral.part = .zero ∨
      (spelling (Binary.ofFloat x)).numeral.part = .whole) := by
    rcases spelling_real (Binary.ofFloat x) with part | part
    · simp [part]
    · simp [part]
  simp only [Numeral.value, real, false_and, if_false, Option.map_eq_some_iff] at value
  obtain ⟨y, _, rfl⟩ := value
  simp only [reread, text]

-- The value with other numbers.
mutual

def numbers (f : Float → Float) : Json → Json
  | float x => float (f x)
  | array items => array (numbersAll f items)
  | object members => object (numbersMembers f members)
  | v => v

def numbersAll (f : Float → Float) : List Json → List Json
  | [] => []
  | v :: rest => v.numbers f :: numbersAll f rest

def numbersMembers (f : Float → Float) : List (String × Json) → List (String × Json)
  | [] => []
  | (key, v) :: rest => (key, v.numbers f) :: numbersMembers f rest

end

section
variable (s : Spacing)

mutual

-- What is read from the text of a value without nulls, if anything is.
theorem read_numbers (v : Json) (level : Nat) {room : Nat} {w : Json} (clean : v.Clean)
    (words : ∀ n, .int n ∈ v.leaves → 0 ≤ n ∧ n < 2 ^ 64) (done : (v.doc s level).read room = some w) :
    w = (v.numbers reread).sorted := by
  match v with
  | null => exact clean.elim
  | bool b =>
    cases done
    rfl
  | int n =>
    obtain ⟨least, most⟩ := words n (.head _)
    have faithful : ∀ leaf ∈ (int n).leaves, leaf.Faithful := List.forall_mem_singleton.mpr ⟨least, most⟩
    have same := read_shallow s (int n) level faithful (Nat.zero_le room)
    exact Option.some.inj (done.symm.trans same)
  | float x =>
    have finite : x.isFinite := clean
    rw [doc, dif_pos finite] at done
    exact float_reread finite done
  | string text =>
    have same := read_shallow s (string text) level (List.forall_mem_singleton.mpr trivial) (Nat.zero_le room)
    exact Option.some.inj (done.symm.trans same)
  | array items =>
    by_cases none : room = 0
    · simp only [doc, Doc.read, none, if_true, reduceCtorEq] at done
    · simp only [doc, Doc.read, none, if_false, Option.map_eq_some_iff] at done
      obtain ⟨ws, inner, rfl⟩ := done
      rw [numbers, sorted, readItems_numbers items level clean words inner]
  | object members =>
    by_cases none : room = 0
    · simp only [doc, Doc.read, none, if_true, reduceCtorEq] at done
    · simp only [doc, Doc.read, none, if_false, Option.map_eq_some_iff] at done
      obtain ⟨ws, inner, rfl⟩ := done
      rw [numbers, sorted, readMembers_numbers members level clean words inner]

theorem readItems_numbers (items : List Json) (level : Nat) {room : Nat} {ws : List Json} (clean : CleanAll items)
    (words : ∀ n, .int n ∈ leavesAll items → 0 ≤ n ∧ n < 2 ^ 64)
    (done : Doc.readItems room (docItems s level items) = some ws) :
    ws = sortedAll (numbersAll reread items) := by
  match items with
  | [] =>
    cases done
    rfl
  | v :: rest =>
    simp only [readItems_cons, Option.bind_eq_bind, Option.bind_eq_some_iff] at done
    obtain ⟨w, first, more, others, made⟩ := done
    cases made
    simp only [leavesAll, List.mem_append] at words
    rw [numbersAll, sortedAll, ← read_numbers v (level + 1) clean.1 (fun n inner => words n (.inl inner)) first,
      ← readItems_numbers rest level clean.2 (fun n inner => words n (.inr inner)) others]

theorem readMembers_numbers (members : List (String × Json)) (level : Nat) {room : Nat}
    {ws : List (String × Json)} (clean : CleanMembers members)
    (words : ∀ n, .int n ∈ leavesMembers members → 0 ≤ n ∧ n < 2 ^ 64)
    (done : Doc.readMembers room (docMembers s level members) = some ws) :
    ws = sortedMembers (numbersMembers reread members) := by
  match members with
  | [] =>
    cases done
    rfl
  | (key, v) :: rest =>
    simp only [readMembers_cons, Option.bind_eq_bind, Option.bind_eq_some_iff] at done
    obtain ⟨w, first, more, others, made⟩ := done
    cases made
    simp only [leavesMembers, List.mem_append] at words
    rw [numbersMembers, sortedMembers, quoted_value,
      ← read_numbers v (level + 1) clean.2.1 (fun n inner => words n (.inl inner)) first,
      ← readMembers_numbers rest level clean.2.2 (fun n inner => words n (.inr inner)) others]

end

end

-- A value that is the same with other numbers has these numbers.
mutual

theorem numbers_fixed {f : Float → Float} (v : Json) (same : v.numbers f = v) :
    ∀ x, .float x ∈ v.leaves → f x = x := by
  match v with
  | null | bool _ | int _ | string _ =>
    intro x member
    cases List.mem_singleton.mp member
  | float y =>
    intro x member
    cases List.mem_singleton.mp member
    exact Json.float.inj same
  | array items => exact numbersAll_fixed items (Json.array.inj same)
  | object members => exact numbersMembers_fixed members (Json.object.inj same)

theorem numbersAll_fixed {f : Float → Float} (items : List Json) (same : numbersAll f items = items) :
    ∀ x, .float x ∈ leavesAll items → f x = x := by
  match items with
  | [] => nofun
  | v :: rest =>
    intro x member
    rcases List.mem_append.mp member with inner | other
    · exact numbers_fixed v (List.head_eq_of_cons_eq same) x inner
    · exact numbersAll_fixed rest (List.tail_eq_of_cons_eq same) x other

theorem numbersMembers_fixed {f : Float → Float} (members : List (String × Json))
    (same : numbersMembers f members = members) : ∀ x, .float x ∈ leavesMembers members → f x = x := by
  match members with
  | [] => nofun
  | (key, v) :: rest =>
    intro x member
    rcases List.mem_append.mp member with inner | other
    · exact numbers_fixed v (Prod.mk.inj (List.head_eq_of_cons_eq same)).2 x inner
    · exact numbersMembers_fixed rest (List.tail_eq_of_cons_eq same) x other

end

theorem numbersAll_map (f : Float → Float) (items : List Json) : numbersAll f items = items.map (numbers f) := by
  induction items with
  | nil => rfl
  | cons v rest ih => rw [numbersAll, ih, List.map_cons]

theorem numbersMembers_append (f : Float → Float) (front back : List (String × Json)) :
    numbersMembers f (front ++ back) = numbersMembers f front ++ numbersMembers f back := by
  induction front with
  | nil => rfl
  | cons m rest ih => rw [List.cons_append, numbersMembers, numbersMembers, ih, List.cons_append]

end Json

section
variable (f : Float → Float)

def Point2.numbers (p : Point2) : Point2 := ⟨f p.x, f p.y⟩

def Point3.numbers (p : Point3) : Point3 := ⟨f p.x, f p.y, f p.z⟩

def Shape.numbers : Shape → Shape
  | .circle r => .circle (f r)
  | .circleSector r a => .circleSector (f r) (f a)
  | .rectangle w h => .rectangle (f w) (f h)
  | .polygon points => .polygon (points.map (Point2.numbers f))
  | .cube w h d => .cube (f w) (f h) (f d)
  | .sphere r => .sphere (f r)
  | .cylinder h r r' => .cylinder (f h) (f r) (f r')
  | .polyhedron m => .polyhedron ⟨m.points.map (Point3.numbers f), m.triangles, m.quads⟩

def Transform.numbers : Transform → Transform
  | .translate offset => .translate (offset.numbers f)
  | .rotate degrees axes => .rotate (f degrees) (axes.numbers f)
  | .scale factors => .scale (factors.numbers f)
  | .mirror axes => .mirror (axes.numbers f)
  | .linearExtrusion height twist => .linearExtrusion (f height) (f twist)
  | .rotateExtrusion => .rotateExtrusion

namespace Node

-- The tree with other numbers.
mutual

def numbers : Node → Node
  | shape s => shape (s.numbers f)
  | transform t item => transform (t.numbers f) item.numbers
  | combine c items => combine c (numbersAll items)

def numbersAll : List Node → List Node
  | [] => []
  | node :: rest => node.numbers :: numbersAll rest

end

end Node

theorem list_numbers {α : Type} (save : α → Json) (g : α → α)
    (each : ∀ x, (save x).numbers f = save (g x)) (xs : List α) :
    (Save.list save xs).numbers f = Save.list save (xs.map g) := by
  simp only [Save.list, Json.numbers, Json.numbersAll_map, List.map_map]
  congr 1
  exact List.map_congr_left fun x _ => each x

theorem shape_numbers (s : Shape) : Json.numbersMembers f (Save.shape s) = Save.shape (s.numbers f) := by
  cases s with
  | polygon points =>
    have points := list_numbers f Save.pair (Point2.numbers f) (fun _ => rfl) points
    simp only [Save.shape, Json.numbersMembers, points, Shape.numbers]
  | polyhedron m =>
    have points := list_numbers f Save.triple (Point3.numbers f) (fun _ => rfl) m.points
    have triangles := list_numbers f Save.triangle id (fun _ => rfl) m.triangles
    have quads := list_numbers f Save.quad id (fun _ => rfl) m.quads
    simp only [List.map_id] at triangles quads
    simp only [Save.shape, Json.numbersMembers, points, triangles, quads, Shape.numbers]
  | _ => rfl

mutual

theorem toJson_numbers (node : Node) : (node.numbers f).toJson = node.toJson.numbers f := by
  cases node with
  | shape s =>
    have kind : (s.numbers f).kind = s.kind := by cases s <;> rfl
    simp only [Node.numbers, Node.toJson, Node.tagged, Json.numbers, Json.numbersMembers, shape_numbers, kind]
  | transform t item =>
    have kind : (t.numbers f).kind = t.kind := by cases t <;> rfl
    have own : Json.numbersMembers f (Save.transform t) = Save.transform (t.numbers f) := by cases t <;> rfl
    simp only [Node.numbers, Node.toJson, Node.tagged, Json.numbers, Json.numbersMembers,
      Json.numbersMembers_append, own, kind, toJson_numbers item]
  | combine c items =>
    have own : Json.numbersMembers f (Save.layering c) = Save.layering c := by
      unfold Save.layering
      split <;> rfl
    simp only [Node.numbers, Node.toJson, Node.tagged, Json.numbers, Json.numbersMembers, own,
      listToJson_numbers items]

theorem listToJson_numbers (nodes : List Node) :
    Node.listToJson (Node.numbersAll f nodes) = Json.numbersAll f (Node.listToJson nodes) := by
  cases nodes with
  | nil => rfl
  | cons node rest =>
    simp only [Node.numbersAll, Node.listToJson, Json.numbersAll, toJson_numbers node, listToJson_numbers rest]

end

end

section
variable {node : Node} {nodes : List Node}

-- Nothing else loads than the tree with the numbers as they are read.
theorem reload_numbers (valid : node.Valid) (words : node.Words) (loaded : Node.load node.pretty = .ok nodes) :
    nodes = [node.numbers Json.reread] := by
  obtain ⟨v, text, built⟩ := bind_ok.mp loaded
  obtain ⟨s, read⟩ := Json.read_written (v := node.toJson) (.inr rfl)
  rw [mapError_ok, Node.pretty, read] at text
  cases done : (node.toJson.doc s 0).read Json.depthLimit with
  | none =>
    rw [done] at text
    cases text
  | some w =>
    rw [done] at text
    cases Except.ok.inj text
    have clean := Node.node_clean valid
    have same := Json.read_numbers s node.toJson 0 clean (fun n => node_indexes words) done
    rw [← toJson_numbers] at same
    have object : ∃ members, (node.numbers Json.reread).toJson.sorted = .object members := by
      cases node <;> exact ⟨_, rfl⟩
    obtain ⟨members, shape⟩ := object
    rw [same, shape] at built
    obtain ⟨only, made, rfl⟩ := map_ok.mp (mapError_ok.mp built)
    rw [Node.ofJson, ← shape, node_loaded] at made
    rw [made.2]

-- A tree that does not nest too deep loads as itself exactly when each of its numbers survives.
theorem reload_iff (valid : node.Valid) (words : node.Words) (shallow : node.toJson.depth ≤ 127) :
    Node.load node.pretty = .ok [node] ↔ ∀ x, .float x ∈ node.toJson.leaves → Json.Survives x := by
  constructor
  · intro loaded x member
    have same := List.head_eq_of_cons_eq (reload_numbers valid words loaded)
    have fixed := Json.numbers_fixed node.toJson ((toJson_numbers Json.reread node).symm.trans (by rw [← same]))
    exact (Json.reread_survives (Json.clean_finite _ (Node.node_clean valid) x member)).mp (fixed x member)
  · intro survive
    exact load_object (Json.read_faithful (.inr rfl) (saved_faithful words survive) shallow) valid

end

end Solid
