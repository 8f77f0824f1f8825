import Solid.Backend
import Solid.Proofs.Trees
import Solid.Proofs.Registering
namespace Solid

namespace Line

-- Four blanks for each level; a line without text stays empty.
def placed (depth : Nat) (text : String) : String :=
  if text = "" then "" else String.ofList (List.replicate (4 * depth) ' ') ++ text

mutual

def listing (depth : Nat) : Line → List String
  | .statement text => [placed depth (text ++ ";")]
  | .blank => [""]
  | .block header lines =>
    placed depth header :: placed depth "\x7b" :: listingAll (depth + 1) lines ++ [placed depth "\x7d;"]

def listingAll (depth : Nat) : List Line → List String
  | [] => []
  | line :: rest => line.listing depth ++ listingAll depth rest

end

theorem placed_zero (text : String) : placed 0 text = text := by
  unfold placed
  split
  · next empty => exact empty.symm
  · simp

theorem placed_step (depth : Nat) (text : String) :
    placed (depth + 1) text = indented (placed depth text) := by
  unfold placed indented indent
  by_cases empty : text = ""
  · simp [empty]
  · have filled : String.ofList (List.replicate (4 * depth) ' ') ++ text ≠ "" := by
      simp [empty]
    rw [if_neg empty, if_neg empty, if_neg filled, ← String.append_assoc]
    congr 1
    rw [show 4 * (depth + 1) = 4 + 4 * depth by omega, ← List.replicate_append_replicate, String.ofList_append]
    rfl

mutual

theorem listing_step (depth : Nat) (line : Line) :
    line.listing (depth + 1) = (line.listing depth).map indented := by
  cases line with
  | statement text => simp only [listing, placed_step, List.map]
  | blank => rfl
  | block header lines =>
    simp only [listing, placed_step depth, listingAll_step (depth + 1), List.map_cons, List.map_append,
      List.map_nil]

theorem listingAll_step (depth : Nat) (lines : List Line) :
    listingAll (depth + 1) lines = (listingAll depth lines).map indented := by
  cases lines with
  | nil => rfl
  | cons line rest =>
    simp only [listingAll, listing_step depth line, listingAll_step depth rest, List.map_append]

end

theorem listingAll_append (depth : Nat) (front back : List Line) :
    listingAll depth (front ++ back) = listingAll depth front ++ listingAll depth back := by
  induction front with
  | nil => rfl
  | cons line rest ih => rw [List.cons_append, listingAll, ih, listingAll, List.append_assoc]

theorem indentFrom_append (out : Array String) (more : List String) :
    indentFrom out.size (out ++ more.toArray) = out ++ (more.map indented).toArray := by
  apply Array.ext
  · simp [indentFrom]
  · intro i _ _
    simp only [indentFrom, Array.getElem_mapIdx, Array.getElem_append]
    by_cases before : i < out.size
    · simp [before, Nat.not_le.mpr before]
    · simp [before, Nat.le_of_not_lt before]

mutual

-- The lines that were there before stay as they are.
theorem write_listing (out : Array String) (line : Line) :
    line.write out = out ++ (line.listing 0).toArray := by
  cases line with
  | statement text => simp [write, listing, placed_zero]
  | blank => simp [write, listing]
  | block header lines =>
    simp only [write, writeAll_listing _ lines, indentFrom_append, ← listingAll_step, listing, placed_zero]
    simp

theorem writeAll_listing (out : Array String) (lines : List Line) :
    writeAll out lines = out ++ (listingAll 0 lines).toArray := by
  cases lines with
  | nil => simp [writeAll, listingAll]
  | cons line rest =>
    simp [writeAll, listingAll, write_listing out line, writeAll_listing _ rest]

end

end Line

namespace Block

-- A block without a header adds no level of its own.
def listing (depth : Nat) (b : Block) : List String :=
  match b.header with
  | none => Line.listingAll depth b.lines
  | some header => (Line.block header b.lines).listing depth

theorem write_listing (out : Array String) (b : Block) :
    b.write out = out ++ (b.listing 0).toArray := by
  unfold write listing
  cases b.header with
  | none => exact Line.writeAll_listing out b.lines
  | some header => exact Line.write_listing out (.block header b.lines)

theorem text_listing (b : Block) : b.text = b.listing 0 := by
  rw [text, write_listing]
  simp

end Block

namespace Backend

section
variable {α β : Type} {run : Walking α} {next : α → Walking β} {block left : Block} {w w' : Walk}

theorem call_bind {a : α} (ran : run block w = ((.ok a, left), w')) : (run >>= next) block w = next a left w' := by
  change (ExceptT.bind run next).run block w = _
  simp only [ExceptT.bind, ExceptT.mk, ExceptT.run, bind, StateT.bind, ran]
  rfl

theorem fail_bind {e : RenderError} (failed : run block w = ((.error e, left), w')) :
    (run >>= next) block w = ((.error e, left), w') := by
  change (ExceptT.bind run next).run block w = _
  simp only [ExceptT.bind, ExceptT.mk, ExceptT.run, bind, StateT.bind, failed]
  rfl

end

section
variable {header : String} {fill : Walking Unit} {block child : Block} {w w' : Walk}

theorem nested_done (filled : fill (.titled header) w = ((.ok (), child), w')) :
    Block.nested header fill block w = ((.ok (), block.append (.block header child.lines)), w') := by
  simp only [Block.nested, bind, StateT.bind, filled]
  rfl

theorem nested_failed {e : RenderError} (failed : fill (.titled header) w = ((.error e, child), w')) :
    Block.nested header fill block w = ((.error e, block), w') := by
  simp only [Block.nested, bind, StateT.bind, failed]
  rfl

end

-- The lines of a tree, given the text of every node.
mutual

def body (text : Node → String) : Node → Line
  | .shape s => .statement (text (.shape s))
  | .transform t item => .block (text (.transform t item)) [body text item]
  | .combine c items => .block (text (.combine c items)) (bodies text items)

def bodies (text : Node → String) : List Node → List Line
  | [] => []
  | node :: rest => body text node :: bodies text rest

end

-- When no hook fails, the walk goes through the nodes in pre-order and what the hooks say is
-- written down as the lines of the trees.
section
variable {b : Backend} {text : Node → String} {step : Walk → Node → Walk}

mutual

theorem emit_body (calls : ∀ node block w, b.call node block w = ((.ok (text node), block), step w node))
    (node : Node) (block : Block) (w : Walk) :
    b.emit node block w = ((.ok (), block.append (body text node)), node.preorder.foldl step w) := by
  cases node with
  | shape s =>
    rw [emit, call_bind (calls _ _ w)]
    rfl
  | transform t item =>
    rw [emit, call_bind (calls _ _ w), nested_done (emit_body calls item _ _)]
    rfl
  | combine c items =>
    rw [emit, call_bind (calls _ _ w), nested_done (emitAll_bodies calls items _ _)]
    rfl

theorem emitAll_bodies (calls : ∀ node block w, b.call node block w = ((.ok (text node), block), step w node))
    (nodes : List Node) (block : Block) (w : Walk) :
    b.emitAll nodes block w =
      ((.ok (), { block with lines := block.lines ++ bodies text nodes }),
        (Node.preorderAll nodes).foldl step w) := by
  cases nodes with
  | nil =>
    rw [emitAll, bodies, List.append_nil]
    rfl
  | cons node rest =>
    rw [emitAll, call_bind (emit_body calls node block w), emitAll_bodies calls rest _ _]
    simp only [Block.append, bodies, List.append_assoc, List.singleton_append, Node.preorderAll,
      List.foldl_append]

end

end

end Backend

-- A text on one line.
def Unbroken (text : String) : Prop := '\n' ∉ text.toList

instance (text : String) : Decidable (Unbroken text) := inferInstanceAs (Decidable (¬_))

theorem unbroken_append {s t : String} (hs : Unbroken s) (ht : Unbroken t) : Unbroken (s ++ t) := by
  simp only [Unbroken, String.toList_append, List.mem_append, not_or]
  exact ⟨hs, ht⟩

theorem unbroken_intercalate {separator : String} (hs : Unbroken separator) {parts : List String}
    (unbroken : ∀ part ∈ parts, Unbroken part) : Unbroken (separator.intercalate parts) := by
  induction parts with
  | nil => simp [Unbroken]
  | cons part rest ih =>
    obtain ⟨first, others⟩ := List.forall_mem_cons.mp unbroken
    cases rest with
    | nil => rwa [String.intercalate_singleton]
    | cons next more =>
      rw [String.intercalate_cons_cons]
      exact unbroken_append (unbroken_append first hs) (ih others)

theorem unbroken_bracketed {parts : List String} (unbroken : ∀ part ∈ parts, Unbroken part) :
    Unbroken (bracketed parts) :=
  unbroken_append (unbroken_append (by decide) (unbroken_intercalate (by decide) unbroken)) (by decide)

theorem unbroken_digits (n : Nat) : '\n' ∉ Decimal.digits n :=
  fun member => absurd (Decimal.digits_isDigit n _ member) (by decide)

theorem unbroken_text (n : Nat) : Unbroken (Decimal.text n) := by
  simpa [Unbroken, Decimal.text] using unbroken_digits n

theorem unbroken_plain (s : Decimal.Scaled) (pointed : Bool) : '\n' ∉ s.plain pointed := by
  have run := unbroken_digits s.coefficient
  have zeros (k : Nat) : '\n' ∉ Decimal.zeros k := by simp [Decimal.zeros]
  unfold Decimal.Scaled.plain
  dsimp only
  split
  · cases pointed <;> simp [run, zeros]
  · split
    · simp only [List.mem_append, List.mem_cons, not_or]
      exact ⟨fun front => run (List.mem_of_mem_take front), by decide, fun back =>
        run (List.mem_of_mem_drop back)⟩
    · simp [run, zeros]

theorem unbroken_measure (x : Float) : Unbroken (Decimal.measure x) := by
  have positional : '\n' ∉ Decimal.Layout.measure.magnitude (Decimal.Binary.ofFloat x) := by
    unfold Decimal.Layout.magnitude
    split
    · decide
    · exact unbroken_plain _ _
  simp only [Unbroken, Decimal.measure, Decimal.Layout.text, String.toList_ofList]
  unfold Decimal.Layout.characters
  split
  · decide
  · split
    · dsimp only
      split <;> simp [positional]
    · split <;> decide

namespace OpenScad

-- What the hook of one node leaves behind.
def step (w : Walk) (node : Node) : Walk :=
  ⟨if node.kind = .circleSector then (w.preamble.register sectorKey sectorModule).2 else w.preamble,
    node :: w.called⟩

theorem call_step (node : Node) (block : Block) (w : Walk) :
    backend.call node block w = ((.ok (header node), block), step w node) := by
  simp only [Backend.call, Backend.answer, backend, hook, Option.getD_some]
  by_cases sector : node.kind = .circleSector
  · simp only [if_pos sector, step]
  · simp only [if_neg sector, step]

theorem preamble_steps (nodes : List Node) (w : Walk) :
    (nodes.foldl step w).preamble = if ∃ node ∈ nodes, node.kind = .circleSector then
      (w.preamble.register sectorKey sectorModule).2 else w.preamble := by
  induction nodes generalizing w with
  | nil => simp
  | cons node rest ih =>
    rw [List.foldl_cons, ih]
    by_cases sector : node.kind = .circleSector
    · simp only [step, Preamble.register_again, ite_self, List.mem_cons, exists_eq_or_imp, sector, true_or, if_true]
    · simp only [step, List.mem_cons, exists_eq_or_imp, sector, false_or, if_false]

-- The module for sectors and an empty line, wherever a sector occurs.
def opening (nodes : List Node) : List String :=
  if ∃ node ∈ Node.preorderAll nodes, node.kind = .circleSector then [sectorModule, ""] else []

def margin (depth : Nat) : String := String.ofList (List.replicate (4 * depth) ' ')

mutual

-- The trees themselves, line by line.
def lines (depth : Nat) : Node → List String
  | .shape s => [margin depth ++ header (.shape s) ++ ";"]
  | .transform t item =>
    (margin depth ++ header (.transform t item)) :: (margin depth ++ "\x7b")
      :: lines (depth + 1) item ++ [margin depth ++ "\x7d;"]
  | .combine c items =>
    (margin depth ++ header (.combine c items)) :: (margin depth ++ "\x7b")
      :: linesAll (depth + 1) items ++ [margin depth ++ "\x7d;"]

def linesAll (depth : Nat) : List Node → List String
  | [] => []
  | node :: rest => lines depth node ++ linesAll depth rest

end

theorem call_filled (name : String) (arguments : List String) : call name arguments ≠ "" := by
  simp [call]

theorem header_filled (node : Node) : header node ≠ "" := by
  cases node with
  | shape s => cases s <;> exact call_filled _ _
  | transform t item => cases t <;> exact call_filled _ _
  | combine c items => cases c <;> exact call_filled _ _

theorem placed_filled {depth : Nat} {text : String} (filled : text ≠ "") :
    Line.placed depth text = margin depth ++ text := if_neg filled

mutual

theorem listing_lines (depth : Nat) (node : Node) :
    (Backend.body header node).listing depth = lines depth node := by
  cases node with
  | shape s =>
    simp only [Backend.body, Line.listing, lines]
    rw [placed_filled (by simp), String.append_assoc]
  | transform t item =>
    simp only [Backend.body, Line.listing, Line.listingAll, lines, listing_lines (depth + 1) item,
      placed_filled (header_filled _), List.append_nil]
    rfl
  | combine c items =>
    simp only [Backend.body, Line.listing, lines, listingAll_lines (depth + 1) items,
      placed_filled (header_filled _)]
    rfl

theorem listingAll_lines (depth : Nat) (nodes : List Node) :
    Line.listingAll depth (Backend.bodies header nodes) = linesAll depth nodes := by
  cases nodes with
  | nil => rfl
  | cons node rest =>
    simp only [Backend.bodies, Line.listingAll, linesAll, listing_lines depth node,
      listingAll_lines depth rest]

end

theorem document_lines (nodes : List Node) :
    ∃ d, backend.document nodes = .ok d ∧ d.lines = opening nodes ++ linesAll 0 nodes := by
  have walked := Backend.emitAll_bodies (b := backend) call_step nodes .root .start
  have preamble := preamble_steps (Node.preorderAll nodes) .start
  generalize (Node.preorderAll nodes).foldl step .start = w at *
  refine ⟨⟨w.preamble, ⟨none, Backend.bodies header nodes⟩⟩, ?_, ?_⟩
  · simp only [Backend.document, Backend.walk, ExceptT.run, StateT.run, walked]
    rfl
  · simp only [Document.lines, Block.text, Block.write, Line.writeAll_listing, listingAll_lines,
      preamble, opening]
    split <;> simp [Walk.start, Preamble.empty, Preamble.register_new]

theorem call_unbroken {name : String} {arguments : List String} (one : Unbroken name)
    (unbroken : ∀ argument ∈ arguments, Unbroken argument) : Unbroken (call name arguments) :=
  unbroken_append (unbroken_append (unbroken_append one (by decide))
    (unbroken_intercalate (by decide) unbroken)) (by decide)

theorem vector_unbroken (values : List Float) : Unbroken (vector values) :=
  unbroken_bracketed (List.forall_mem_map.mpr fun x _ => unbroken_measure x)

theorem header_unbroken (node : Node) : Unbroken (header node) := by
  have points2 (points : List Point2) : Unbroken (bracketed (points.map point2)) :=
    unbroken_bracketed (List.forall_mem_map.mpr fun _ _ => vector_unbroken _)
  have points3 (points : List Point3) : Unbroken (bracketed (points.map point3)) :=
    unbroken_bracketed (List.forall_mem_map.mpr fun _ _ => vector_unbroken _)
  have triangles (ts : List Triangle) : Unbroken (bracketed (ts.map triangle)) :=
    unbroken_bracketed (List.forall_mem_map.mpr fun _ _ =>
      unbroken_bracketed (List.forall_mem_map.mpr fun n _ => unbroken_text n))
  have twist (x : Float) : Unbroken ("twist=" ++ Decimal.measure x) :=
    unbroken_append (by decide) (unbroken_measure x)
  cases node with
  | shape s =>
    cases s <;> refine call_unbroken (by decide) ?_ <;>
      simp only [List.forall_mem_cons, unbroken_measure, vector_unbroken, points2, points3, triangles,
        true_and, List.not_mem_nil, false_implies, implies_true]
  | transform t item =>
    cases t <;> refine call_unbroken (by decide) ?_ <;>
      simp only [List.forall_mem_cons, unbroken_measure, vector_unbroken, point3, twist, true_and,
        List.not_mem_nil, false_implies, implies_true]
  | combine c items => cases c <;> exact call_unbroken (by decide) (by simp)

theorem margin_unbroken (depth : Nat) : Unbroken (margin depth) := by
  simp [Unbroken, margin]

mutual

theorem lines_unbroken (depth : Nat) (node : Node) : ∀ line ∈ lines depth node, Unbroken line := by
  have brace : Unbroken (margin depth ++ "\x7b") := unbroken_append (margin_unbroken depth) (by decide)
  have closing : Unbroken (margin depth ++ "\x7d;") := unbroken_append (margin_unbroken depth) (by decide)
  have top := unbroken_append (margin_unbroken depth) (header_unbroken node)
  cases node with
  | shape s =>
    simp only [lines, List.forall_mem_singleton]
    exact unbroken_append top (by decide)
  | transform t item =>
    simp only [lines, List.forall_mem_append, List.forall_mem_cons]
    exact ⟨⟨top, brace, lines_unbroken (depth + 1) item⟩, closing, nofun⟩
  | combine c items =>
    simp only [lines, List.forall_mem_append, List.forall_mem_cons]
    exact ⟨⟨top, brace, linesAll_unbroken (depth + 1) items⟩, closing, nofun⟩

theorem linesAll_unbroken (depth : Nat) (nodes : List Node) :
    ∀ line ∈ linesAll depth nodes, Unbroken line := by
  cases nodes with
  | nil => simp [linesAll]
  | cons node rest =>
    exact List.forall_mem_append.mpr ⟨lines_unbroken depth node, linesAll_unbroken depth rest⟩

end

-- One line for a leaf, three for any other node.
def share : Node → Nat
  | .shape _ => 1
  | .transform .. | .combine .. => 3

mutual

theorem lines_length (depth : Nat) (node : Node) :
    (lines depth node).length = (node.preorder.map share).sum := by
  cases node with
  | shape s => rfl
  | transform t item =>
    simp only [lines, Node.preorder, List.map_cons, List.sum_cons, List.length_append, List.length_cons,
      List.length_nil, lines_length (depth + 1) item, share]
    omega
  | combine c items =>
    simp only [lines, Node.preorder, List.map_cons, List.sum_cons, List.length_append, List.length_cons,
      List.length_nil, linesAll_length (depth + 1) items, share]
    omega

theorem linesAll_length (depth : Nat) (nodes : List Node) :
    (linesAll depth nodes).length = ((Node.preorderAll nodes).map share).sum := by
  cases nodes with
  | nil => rfl
  | cons node rest =>
    simp only [linesAll, Node.preorderAll, List.length_append, List.map_append, List.sum_append,
      lines_length depth node, linesAll_length depth rest]

end

-- Every tree ends with a semicolon.
theorem lines_last (depth : Nat) (node : Node) :
    ∃ front last, lines depth node = front ++ [last ++ ";"] := by
  cases node with
  | shape s => exact ⟨[], _, rfl⟩
  | transform t item =>
    exact ⟨_, margin depth ++ "\x7d", by rw [lines, String.append_assoc]; rfl⟩
  | combine c items =>
    exact ⟨_, margin depth ++ "\x7d", by rw [lines, String.append_assoc]; rfl⟩

theorem linesAll_last (depth : Nat) {nodes : List Node} (some : nodes ≠ []) :
    ∃ front last, linesAll depth nodes = front ++ [last ++ ";"] := by
  induction nodes with
  | nil => exact absurd rfl some
  | cons node rest ih =>
    cases rest with
    | nil =>
      rw [linesAll, linesAll, List.append_nil]
      exact lines_last depth node
    | cons next more =>
      obtain ⟨front, last, same⟩ := ih (by simp)
      exact ⟨lines depth node ++ front, last, by rw [linesAll, same, List.append_assoc]⟩

theorem unended {front : List String} {last : String} :
    ("\n".intercalate (front ++ [last ++ ";"])).toList.getLast? = some ';' := by
  cases front with
  | nil => simp
  | cons line more =>
    rw [String.intercalate_append_of_ne_nil (by simp) (by simp)]
    simp [List.getLast?_cons]

-- The text is the listing of the trees, under the module for sectors when one of them needs it.
-- Its body has no line but those of the nodes, and the last one is not ended.
theorem render_listing (nodes : List Node) :
    render nodes = .ok ("\n".intercalate (opening nodes ++ linesAll 0 nodes)) ∧
      (∀ line ∈ linesAll 0 nodes, Unbroken line) ∧
      (linesAll 0 nodes).length = ((Node.preorderAll nodes).map share).sum ∧
      ("\n".intercalate (opening nodes ++ linesAll 0 nodes)).toList.getLast? ≠ some '\n' := by
  obtain ⟨d, written, listed⟩ := document_lines nodes
  refine ⟨?_, linesAll_unbroken 0 nodes, linesAll_length 0 nodes, ?_⟩
  · simp only [render, Backend.render, written, Except.map, Document.render, listed]
  · by_cases empty : nodes = []
    · simp [empty, opening, linesAll, Node.preorderAll]
    · obtain ⟨front, last, same⟩ := linesAll_last 0 empty
      rw [same, ← List.append_assoc, unended]
      decide

end OpenScad

end Solid
