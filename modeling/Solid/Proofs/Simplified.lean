import Solid.Proofs.Checks
import Solid.Proofs.Readable
namespace Solid

def Shape.simplified : Shape → Shape
  | .polygon points => .polygon (vertices points)
  | .polyhedron m => .polyhedron ⟨m.points, m.triangulation, []⟩
  | s => s

def Combination.simplified : Combination → Combination
  | .union _ => .union false
  | c => c

namespace Node

mutual

def simplified : Node → Node
  | shape s => shape s.simplified
  | transform t item => transform t item.simplified
  | combine c items => combine c.simplified (simplifiedAll items)

def simplifiedAll : List Node → List Node
  | [] => []
  | node :: rest => node.simplified :: simplifiedAll rest

end

theorem simplifiedAll_map (nodes : List Node) : simplifiedAll nodes = nodes.map simplified := by
  induction nodes with
  | nil => rfl
  | cons node rest ih => rw [simplifiedAll, ih, List.map_cons]

theorem simplified_kind (node : Node) : node.simplified.kind = node.kind := by
  cases node with
  | shape s => cases s <;> rfl
  | transform t item => rfl
  | combine c items => cases c <;> rfl

mutual

theorem simplified_kinds (node : Node) : node.simplified.preorder.map kind = node.preorder.map kind := by
  have own := simplified_kind node
  cases node with
  | shape s => simpa [simplified, preorder] using own
  | transform t item => simp only [simplified, preorder, List.map_cons, simplified_kinds item, kind]
  | combine c items =>
    rw [simplified] at own
    simp only [simplified, preorder, List.map_cons, simplifiedAll_kinds items, own]

theorem simplifiedAll_kinds (nodes : List Node) :
    (preorderAll (simplifiedAll nodes)).map kind = (preorderAll nodes).map kind := by
  cases nodes with
  | nil => rfl
  | cons node rest =>
    simp only [simplifiedAll, preorderAll, List.map_append, simplified_kinds node, simplifiedAll_kinds rest]

end

end Node

namespace OpenScad

-- How the call for a kind of node begins.
def word : Kind → String
  | .rectangle => "square"
  | .linearExtrusion => "linear_extrude"
  | .rotateExtrusion => "rotate_extrude"
  | kind => kind.name

theorem word_injective {k k' : Kind} (same : word k = word k') : k = k' := by
  have distinct : (Kind.all.map word).Nodup := by decide
  exact List.inj_on_of_nodup_map distinct (Kind.mem_all k) (Kind.mem_all k') same

theorem word_plain (k : Kind) : '(' ∉ (word k).toList := by
  cases k <;> decide

theorem word_other (k : Kind) : word k ≠ "module circle_sector" := by
  cases k <;> decide

theorem header_call (node : Node) : ∃ arguments, header node = call (word node.kind) arguments := by
  cases node with
  | shape s => cases s <;> exact ⟨_, rfl⟩
  | transform t item => cases t <;> exact ⟨_, rfl⟩
  | combine c items => cases c <;> exact ⟨_, rfl⟩

theorem header_kind {x y : Node} (same : header x = header y) : x.kind = y.kind := by
  obtain ⟨arguments, call⟩ := header_call x
  obtain ⟨arguments', call'⟩ := header_call y
  rw [call, call'] at same
  have characters := congrArg String.toList same
  rw [call_characters, call_characters] at characters
  exact word_injective (name_apart (word_plain _) (word_plain _) characters).1

theorem point2_readable {p : Point2} (proper : p.Finite) : ∀ x ∈ [p.x, p.y], finite x :=
  List.forall_mem_cons.mpr ⟨proper.1, List.forall_mem_singleton.mpr proper.2⟩

theorem point3_readable {p : Point3} (proper : p.Finite) : ∀ x ∈ [p.x, p.y, p.z], finite x :=
  List.forall_mem_cons.mpr ⟨proper.1, List.forall_mem_cons.mpr ⟨proper.2.1, List.forall_mem_singleton.mpr proper.2.2⟩⟩

theorem shape_apart {s s' : Shape} (valid : s.Valid) (valid' : s'.Valid) (same : shape s = shape s') :
    s.simplified = s'.simplified := by
  have kinds : s.kind = s'.kind := header_kind (x := .shape s) (y := .shape s') same
  cases s with
  | circle r =>
    cases s' with
    | circle r' => rw [call_one readable_measure valid.1 valid'.1 same]
    | _ => cases kinds
  | circleSector r a =>
    cases s' with
    | circleSector r' a' =>
      obtain ⟨rfl, rfl⟩ := call_two readable_measure readable_measure ⟨valid.1.1, valid.2.1.1⟩
        ⟨valid'.1.1, valid'.2.1.1⟩ same
      rfl
    | _ => cases kinds
  | rectangle w h =>
    cases s' with
    | rectangle w' h' =>
      have sizes := call_one readable_vector (point2_readable (p := ⟨w, h⟩) ⟨valid.1.1, valid.2.1⟩)
        (point2_readable (p := ⟨w', h'⟩) ⟨valid'.1.1, valid'.2.1⟩) same
      cases sizes
      rfl
    | _ => cases kinds
  | polygon points =>
    cases s' with
    | polygon points' =>
      have corners := call_one (readable_bracketed readable_point2)
        (fun p member => point2_readable (valid.vertices_finite p member))
        (fun p member => point2_readable (valid'.vertices_finite p member)) same
      simp only [Shape.simplified, corners]
    | _ => cases kinds
  | cube w h d =>
    cases s' with
    | cube w' h' d' =>
      have sizes := call_one readable_vector (point3_readable (p := ⟨w, d, h⟩) ⟨valid.1.1, valid.2.2.1, valid.2.1.1⟩)
        (point3_readable (p := ⟨w', d', h'⟩) ⟨valid'.1.1, valid'.2.2.1, valid'.2.1.1⟩) same
      cases sizes
      rfl
    | _ => cases kinds
  | sphere r =>
    cases s' with
    | sphere r' => rw [call_one readable_measure valid.1 valid'.1 same]
    | _ => cases kinds
  | cylinder h r t =>
    cases s' with
    | cylinder h' r' t' =>
      obtain ⟨rfl, rfl, rfl⟩ := call_three readable_measure readable_measure readable_measure
        ⟨valid.1.1, valid.2.1.1, valid.2.2.1⟩ ⟨valid'.1.1, valid'.2.1.1, valid'.2.2.1⟩ same
      rfl
    | _ => cases kinds
  | polyhedron m =>
    cases s' with
    | polyhedron m' =>
      have indexes (ts : List Triangle) : ∀ t ∈ ts, ∀ i ∈ t.corners, True := fun _ _ _ _ => trivial
      obtain ⟨points, triangles⟩ := call_two (readable_bracketed readable_point3)
        (readable_bracketed readable_triangle)
        ⟨fun p member => point3_readable (valid.finite p member), indexes m.triangulation⟩
        ⟨fun p member => point3_readable (valid'.finite p member), indexes m'.triangulation⟩ same
      simp only [Shape.simplified, points, triangles]
    | _ => cases kinds

theorem transform_apart {t t' : Transform} {item item' : Node} (valid : t.Valid) (valid' : t'.Valid)
    (same : header (.transform t item) = header (.transform t' item')) : t = t' := by
  have kinds : t.kind = t'.kind := header_kind same
  cases t with
  | translate offset =>
    cases t' with
    | translate offset' =>
      rw [call_one readable_point3 (point3_readable valid) (point3_readable valid') same]
    | _ => cases kinds
  | rotate degrees axes =>
    cases t' with
    | rotate degrees' axes' =>
      obtain ⟨rfl, rfl⟩ := call_two readable_measure readable_point3
        ⟨valid.1, point3_readable (axes_finite valid.2)⟩ ⟨valid'.1, point3_readable (axes_finite valid'.2)⟩ same
      rfl
    | _ => cases kinds
  | scale factors =>
    cases t' with
    | scale factors' =>
      rw [call_one readable_point3 (point3_readable ⟨valid.1.1, valid.2.1.1, valid.2.2.1⟩)
        (point3_readable ⟨valid'.1.1, valid'.2.1.1, valid'.2.2.1⟩) same]
    | _ => cases kinds
  | mirror axes =>
    cases t' with
    | mirror axes' =>
      rw [call_one readable_point3 (point3_readable (axes_finite valid)) (point3_readable (axes_finite valid')) same]
    | _ => cases kinds
  | linearExtrusion height twist =>
    cases t' with
    | linearExtrusion height' twist' =>
      have label : "twist=".toList = 't' :: "wist=".toList := rfl
      obtain ⟨rfl, rfl⟩ := call_two readable_measure (readable_labelled readable_measure label (by decide))
        valid valid' same
      rfl
    | _ => cases kinds
  | rotateExtrusion =>
    cases t' with
    | rotateExtrusion => rfl
    | _ => cases kinds

theorem combination_apart {c c' : Combination} (kinds : c.kind = c'.kind) : c.simplified = c'.simplified := by
  cases c with
  | union layers =>
    cases c' with
    | union layers' => rfl
    | _ => cases kinds
  | difference =>
    cases c' with
    | difference => rfl
    | _ => cases kinds
  | intersection =>
    cases c' with
    | intersection => rfl
    | _ => cases kinds

-- The line of a leaf ends in a semicolon, the first line of any other node does not.
theorem ended (d : Nat) (x y : Node) : margin d ++ header x ++ ";" ≠ margin d ++ header y := by
  intro same
  obtain ⟨arguments, call⟩ := header_call y
  have characters := congrArg (fun text => text.toList.reverse) same
  simp [call, OpenScad.call] at characters

-- What does not go on with a node at this depth.
def Stops (d : Nat) (rest : List String) : Prop := ∀ node more, rest ≠ lines d node ++ more

-- Every node begins with its text, and that is not the brace which closes the node around it.
theorem lines_front (d : Nat) (node : Node) :
    ∃ ending more, lines d node = (margin d ++ header node ++ ending) :: more := by
  cases node with
  | shape s => exact ⟨";", [], rfl⟩
  | transform t item => exact ⟨"", _, by rw [String.append_empty]; rfl⟩
  | combine c items => exact ⟨"", _, by rw [String.append_empty]; rfl⟩

theorem stops_nothing (d : Nat) : Stops d [] := by
  intro node more same
  obtain ⟨ending, others, front⟩ := lines_front d node
  rw [front] at same
  cases same

theorem margin_step (d : Nat) : margin (d + 1) = margin d ++ "    " := by
  unfold margin
  rw [Nat.mul_add, ← List.replicate_append_replicate, String.ofList_append]
  rfl

theorem stops_closing (d : Nat) (rest : List String) : Stops (d + 1) ((margin d ++ "\x7d;") :: rest) := by
  intro node more same
  obtain ⟨ending, others, front⟩ := lines_front (d + 1) node
  rw [front, List.cons_append, margin_step, String.append_assoc, String.append_assoc] at same
  have line := String.append_right_inj _ |>.mp (List.head_eq_of_cons_eq same)
  have characters := congrArg String.toList line
  simp at characters

-- Two nodes, and what stands behind them, are known from the lines of both.
def Apart (d : Nat) (x y : Node) : Prop :=
  ∀ s t, lines d x ++ s = lines d y ++ t → x.simplified = y.simplified ∧ s = t

-- Lists of nodes whose members can be told apart are told apart up to where both stop.
theorem linesAll_apart {d : Nat} {xs ys : List Node} {s t : List String} (each : ∀ x ∈ xs, ∀ y ∈ ys, Apart d x y)
    (stops : Stops d s) (stops' : Stops d t) (same : linesAll d xs ++ s = linesAll d ys ++ t) :
    Node.simplifiedAll xs = Node.simplifiedAll ys ∧ s = t := by
  induction xs generalizing ys with
  | nil =>
    cases ys with
    | nil => exact ⟨rfl, same⟩
    | cons y more =>
      rw [linesAll, linesAll, List.append_assoc] at same
      exact absurd same (stops y _)
  | cons x rest ih =>
    cases ys with
    | nil =>
      rw [linesAll, linesAll, List.append_assoc] at same
      exact absurd same.symm (stops' x _)
    | cons y more =>
      rw [linesAll, linesAll, List.append_assoc, List.append_assoc] at same
      obtain ⟨first, others⟩ := each x (.head rest) y (.head more) _ _ same
      have later : ∀ x ∈ rest, ∀ y ∈ more, Apart d x y :=
        fun x member y member' => each x (.tail _ member) y (.tail _ member')
      obtain ⟨remaining, ends⟩ := ih later others
      exact ⟨by rw [Node.simplifiedAll, Node.simplifiedAll, first, remaining], ends⟩

theorem wrapped_apart {d : Nat} {text text' : String} {inner inner' rest rest' : List String}
    (same : (margin d ++ text) :: (margin d ++ "\x7b") :: inner ++ [margin d ++ "\x7d;"] ++ rest =
      (margin d ++ text') :: (margin d ++ "\x7b") :: inner' ++ [margin d ++ "\x7d;"] ++ rest') :
    text = text' ∧ inner ++ (margin d ++ "\x7d;") :: rest = inner' ++ (margin d ++ "\x7d;") :: rest' := by
  simp only [List.cons_append, List.append_assoc, List.nil_append, List.cons.injEq, true_and] at same
  exact ⟨String.append_right_inj _ |>.mp same.1, same.2⟩

theorem lines_apart {x : Node} (valid : x.Valid) : ∀ d y, y.Valid → Apart d x y := by
  induction x using Node.induction with
  | shape s =>
    intro d y valid' rest rest' same
    rw [Node.valid_shape] at valid
    cases y with
    | shape s' =>
      rw [Node.valid_shape] at valid'
      have line := List.head_eq_of_cons_eq same
      rw [String.append_left_inj, String.append_right_inj] at line
      exact ⟨congrArg Node.shape (shape_apart valid valid' line), List.tail_eq_of_cons_eq same⟩
    | transform t item => exact absurd (List.head_eq_of_cons_eq same) (ended d _ _)
    | combine c items => exact absurd (List.head_eq_of_cons_eq same) (ended d _ _)
  | transform t item ih =>
    intro d y valid' rest rest' same
    rw [Node.valid_transform] at valid
    cases y with
    | shape s' => exact absurd (List.head_eq_of_cons_eq same).symm (ended d _ _)
    | transform t' item' =>
      rw [Node.valid_transform] at valid'
      obtain ⟨line, inner⟩ := wrapped_apart same
      obtain ⟨items, closed⟩ := ih valid.2 (d + 1) item' valid'.2 _ _ inner
      rw [Node.simplified, Node.simplified, transform_apart valid.1 valid'.1 line, items]
      exact ⟨rfl, List.tail_eq_of_cons_eq closed⟩
    | combine c' items' =>
      have kinds := header_kind (wrapped_apart same).1
      cases t <;> cases c' <;> cases kinds
  | combine c items ih =>
    intro d y valid' rest rest' same
    rw [Node.valid_combine] at valid
    cases y with
    | shape s' => exact absurd (List.head_eq_of_cons_eq same).symm (ended d _ _)
    | transform t' item' =>
      have kinds := header_kind (wrapped_apart same).1
      cases c <;> cases t' <;> cases kinds
    | combine c' items' =>
      rw [Node.valid_combine] at valid'
      obtain ⟨line, inner⟩ := wrapped_apart same
      have each : ∀ item ∈ items, ∀ item' ∈ items', Apart (d + 1) item item' :=
        fun item member item' member' => ih item member (valid.2 item member) (d + 1) item' (valid'.2 item' member')
      obtain ⟨nodes, closed⟩ := linesAll_apart each (stops_closing d rest) (stops_closing d rest') inner
      rw [Node.simplified, Node.simplified, combination_apart (header_kind line), nodes]
      exact ⟨rfl, List.tail_eq_of_cons_eq closed⟩

-- The text of a node, given the node without what the text does not tell.
def shown : Node → String
  | .shape (.polygon corners) => call "polygon" [bracketed (corners.map point2)]
  | node => header node

mutual

theorem body_simplified (node : Node) : Backend.body shown node.simplified = Backend.body header node := by
  cases node with
  | shape s =>
    cases s with
    | polyhedron m =>
      simp [Backend.body, Node.simplified, Shape.simplified, shown, header, shape, Mesh.triangulation]
    | _ => rfl
  | transform t item =>
    rw [Node.simplified, Backend.body, Backend.body, body_simplified item]
    rfl
  | combine c items =>
    rw [Node.simplified, Backend.body, Backend.body, bodies_simplified items]
    cases c <;> rfl

theorem bodies_simplified (nodes : List Node) :
    Backend.bodies shown (Node.simplifiedAll nodes) = Backend.bodies header nodes := by
  cases nodes with
  | nil => rfl
  | cons node rest =>
    rw [Node.simplifiedAll, Backend.bodies, Backend.bodies, body_simplified node, bodies_simplified rest]

end

-- The lines of the module for sectors.
def sectorLines : List String :=
  ["module circle_sector(r, a) \x7b",
   "    steps = max(ceil(a / 6), 1);",
   "    fan = [for (i = [0 : steps]) [2 * r * cos(i * a / steps), 2 * r * sin(i * a / steps)]];",
   "    intersection() \x7b",
   "        circle(r);",
   "        polygon(concat([[0, 0]], fan));",
   "    \x7d",
   "\x7d"]

theorem sectorLines_module : "\n".intercalate [sectorModule, ""] = "\n".intercalate (sectorLines ++ [""]) := by
  decide +kernel

theorem sectorLines_unbroken : ∀ line ∈ sectorLines ++ [""], Unbroken line := by decide

theorem sectorLines_stops (rest : List String) : Stops 0 (sectorLines ++ [""] ++ rest) := by
  intro node more same
  obtain ⟨ending, others, front⟩ := lines_front 0 node
  obtain ⟨arguments, call⟩ := header_call node
  have blank : (margin 0).toList = [] := rfl
  have name : "module circle_sector(r, a) \x7b".toList =
    "module circle_sector".toList ++ '(' :: "r, a) \x7b".toList := rfl
  rw [front] at same
  have line := congrArg String.toList (List.head_eq_of_cons_eq same)
  rw [String.toList_append, String.toList_append, blank, call, call_characters, name, List.nil_append,
    List.append_assoc] at line
  exact word_other node.kind (name_apart (by decide) (word_plain _) line).1.symm

-- Every line of a document, the module for sectors taken apart.
def documentLines (nodes : List Node) : List String :=
  (if .circleSector ∈ (Node.preorderAll nodes).map Node.kind then sectorLines ++ [""] else [])
    ++ linesAll 0 nodes

theorem documentLines_unbroken (nodes : List Node) : ∀ line ∈ documentLines nodes, Unbroken line := by
  refine List.forall_mem_append.mpr ⟨?_, linesAll_unbroken 0 nodes⟩
  split
  · exact sectorLines_unbroken
  · simp

theorem intercalate_front {front front' rest : List String} (some : front ≠ []) (some' : front' ≠ [])
    (same : "\n".intercalate front = "\n".intercalate front') :
    "\n".intercalate (front ++ rest) = "\n".intercalate (front' ++ rest) := by
  by_cases empty : rest = []
  · rw [empty, List.append_nil, List.append_nil, same]
  · rw [String.intercalate_append_of_ne_nil some empty, String.intercalate_append_of_ne_nil some' empty, same]

theorem render_documentLines (nodes : List Node) : render nodes = .ok ("\n".intercalate (documentLines nodes)) := by
  obtain ⟨d, written, listed⟩ := document_lines nodes
  simp only [render, Backend.render, written, Except.map, Document.render, listed, opening, documentLines,
    List.mem_map]
  congr 1
  split
  · exact intercalate_front (by simp) (by simp) sectorLines_module
  · rfl

theorem documentLines_nothing {nodes : List Node} (nothing : "\n".intercalate (documentLines nodes) = "") :
    nodes = [] := by
  by_contra some
  obtain ⟨front, last, same⟩ := linesAll_last 0 some
  have final := congrArg (fun text => text.toList.getLast?) nothing
  rw [documentLines, same, ← List.append_assoc] at final
  simp only [unended] at final
  cases final

-- A text is read back line by line.
theorem intercalate_lines {lines : List String} (some : lines ≠ []) (unbroken : ∀ line ∈ lines, Unbroken line) :
    ("\n".intercalate lines).toList.splitOn '\n' = lines.map String.toList := by
  have between : "\n".toList = ['\n'] := rfl
  rw [String.toList_intercalate, between]
  exact List.splitOn_intercalate '\n' (List.forall_mem_map.mpr unbroken) (by simpa using some)

theorem intercalate_apart {xs ys : List String} (some : xs ≠ []) (some' : ys ≠ [])
    (unbroken : ∀ line ∈ xs, Unbroken line) (unbroken' : ∀ line ∈ ys, Unbroken line)
    (same : "\n".intercalate xs = "\n".intercalate ys) : xs = ys := by
  have characters := congrArg (fun text => text.toList.splitOn '\n') same
  simp only [intercalate_lines some unbroken, intercalate_lines some' unbroken'] at characters
  exact List.map_injective_iff.mpr (fun _ _ => String.toList_inj.mp) characters

theorem documentLines_apart {a b : List Node} (same : documentLines a = documentLines b) :
    linesAll 0 a = linesAll 0 b := by
  have absent (rest : List String) (nodes : List Node) : sectorLines ++ [""] ++ rest ≠ linesAll 0 nodes := by
    cases nodes with
    | nil => exact List.cons_ne_nil _ _
    | cons node more => exact sectorLines_stops rest node (linesAll 0 more)
  unfold documentLines at same
  split at same
  · split at same
    · exact List.append_cancel_left same
    · exact absurd same (absent _ b)
  · split at same
    · exact absurd same.symm (absent _ a)
    · exact same

theorem documentLines_simplified {a b : List Node} (same : Node.simplifiedAll a = Node.simplifiedAll b) :
    documentLines a = documentLines b := by
  have kinds : (Node.preorderAll a).map Node.kind = (Node.preorderAll b).map Node.kind := by
    rw [← Node.simplifiedAll_kinds, same, Node.simplifiedAll_kinds]
  have trees : linesAll 0 a = linesAll 0 b := by
    rw [← listingAll_lines, ← bodies_simplified, same, bodies_simplified, listingAll_lines]
  rw [documentLines, documentLines, kinds, trees]

-- The text of trees tells them apart, up to what it does not show.
theorem rendered_apart {a b : List Node} (valid : ∀ node ∈ a, node.Valid) (valid' : ∀ node ∈ b, node.Valid)
    (same : render a = render b) : Node.simplifiedAll a = Node.simplifiedAll b := by
  rw [render_documentLines, render_documentLines] at same
  have text := Except.ok.inj same
  by_cases none : a = []
  · rw [none] at text ⊢
    rw [documentLines_nothing text.symm]
  · by_cases none' : b = []
    · rw [none'] at text ⊢
      rw [documentLines_nothing text]
    · have some {nodes : List Node} (some : nodes ≠ []) : documentLines nodes ≠ [] := by
        intro empty
        exact some (documentLines_nothing (by rw [empty]; rfl))
      have lines := intercalate_apart (some none) (some none') (documentLines_unbroken a)
        (documentLines_unbroken b) text
      have trees : linesAll 0 a ++ [] = linesAll 0 b ++ [] := by
        rw [documentLines_apart lines]
      have each : ∀ x ∈ a, ∀ y ∈ b, Apart 0 x y :=
        fun x member y member' => lines_apart (valid x member) 0 y (valid' y member')
      exact (linesAll_apart each (stops_nothing 0) (stops_nothing 0) trees).1

-- Two lists of trees have one text exactly when only layers flags, closing points and the faces of
-- one triangulation set them apart.
theorem render_simplified (a b : List Node) (valid : ∀ node ∈ a, node.Valid) (valid' : ∀ node ∈ b, node.Valid) :
    (∃ text, render a = .ok text ∧ render b = .ok text) ↔ a.map Node.simplified = b.map Node.simplified := by
  rw [← Node.simplifiedAll_map, ← Node.simplifiedAll_map]
  constructor
  · rintro ⟨text, written, written'⟩
    exact rendered_apart valid valid' (written.trans written'.symm)
  · intro same
    refine ⟨_, render_documentLines a, ?_⟩
    rw [render_documentLines, documentLines_simplified same]

-- A square and a sheet, as a union of layers and as a plain one.
def layered : Node :=
  .combine (.union true)
    [.shape (.polygon [⟨0.0, 0.0⟩, ⟨1.0, 0.0⟩, ⟨1.0, 1.0⟩, ⟨0.0, 1.0⟩, ⟨0.0, 0.0⟩]),
     .shape (.polyhedron ⟨[⟨0.0, 0.0, 0.0⟩, ⟨1.0, 0.0, 0.0⟩, ⟨1.0, 1.0, 0.0⟩, ⟨0.0, 1.0, 0.0⟩], [], [⟨0, 1, 2, 3⟩]⟩)]

def unlayered : Node :=
  .combine (.union false)
    [.shape (.polygon [⟨0.0, 0.0⟩, ⟨1.0, 0.0⟩, ⟨1.0, 1.0⟩, ⟨0.0, 1.0⟩, ⟨-0.0, 0.0⟩]),
     .shape (.polyhedron ⟨[⟨0.0, 0.0, 0.0⟩, ⟨1.0, 0.0, 0.0⟩, ⟨1.0, 1.0, 0.0⟩, ⟨0.0, 1.0, 0.0⟩],
       [⟨0, 1, 2⟩, ⟨0, 2, 3⟩], []⟩)]

theorem render_simplified_layers : layered.Valid ∧ unlayered.Valid ∧ layered ≠ unlayered ∧
    ∃ text, render [layered] = .ok text ∧ render [unlayered] = .ok text := by
  have union {c : Combination} {points : List Point2} {m : Mesh} (admitted : c.Admits 2)
      (square : Node.polygon points = .ok (.shape (.polygon points)))
      (sheet : Node.polyhedron m.points m.triangles m.quads = .ok (.shape (.polyhedron m))) :
      (Node.combine c [.shape (.polygon points), .shape (.polyhedron m)]).Valid := by
    refine Node.valid_combine.mpr ⟨admitted, List.forall_mem_cons.mpr ⟨?_, List.forall_mem_singleton.mpr ?_⟩⟩
    · exact Node.valid_shape.mpr (Node.polygon_ok.mp square).1
    · exact Node.valid_shape.mpr (Node.polyhedron_ok.mp sheet).1
  have valid : layered.Valid := union (Nat.le_succ 1) rfl rfl
  have valid' : unlayered.Valid := union (Nat.le_refl 2) rfl rfl
  have same := render_simplified _ _ (List.forall_mem_singleton.mpr valid) (List.forall_mem_singleton.mpr valid')
  refine ⟨valid, valid', ?_, same.mpr rfl⟩
  intro alike
  cases (Node.combine.inj alike).1

end OpenScad
end Solid
