import Solid.Proofs.Calls
import Solid.Proofs.Spelled
import Solid.Proofs.Loading
import Solid.Proofs.Simplified
namespace Solid

namespace Node

-- The nodes on the longest way down from the root.
mutual

def depth : Node → Nat
  | shape _ => 1
  | transform _ item => 1 + item.depth
  | combine _ items => 1 + depthAll items

def depthAll : List Node → Nat
  | [] => 0
  | node :: rest => max node.depth (depthAll rest)

end

-- One step down goes from a node to one of its children.
def Descends (way : List Node) : Prop := way.IsChain fun parent child => child ∈ parent.children

-- The number of nodes, by a recursion that goes no deeper than so many levels.
def countWithin : Nat → Node → Option Nat
  | 0, _ => none
  | levels + 1, node => (node.children.mapM (countWithin levels)).map fun counts => 1 + counts.sum

theorem depthAll_le {items : List Node} {k : Nat} : depthAll items ≤ k ↔ ∀ item ∈ items, item.depth ≤ k := by
  induction items with
  | nil => simp [depthAll]
  | cons item rest ih => rw [depthAll, Nat.max_le, ih, List.forall_mem_cons]

theorem depth_children {node : Node} {k : Nat} :
    node.depth ≤ k + 1 ↔ ∀ child ∈ node.children, child.depth ≤ k := by
  cases node with
  | shape s => simp [depth, children]
  | transform t item =>
    rw [depth, Nat.add_comm 1, Nat.succ_le_succ_iff]
    simp [children]
  | combine c items =>
    rw [depth, Nat.add_comm 1, Nat.succ_le_succ_iff]
    exact depthAll_le

theorem depth_positive (node : Node) : 1 ≤ node.depth := by
  cases node <;> simp [depth]

theorem descends_depth {way : List Node} {node : Node} (descends : Descends (node :: way)) :
    (node :: way).length ≤ node.depth := by
  induction way generalizing node with
  | nil => exact node.depth_positive
  | cons child way ih =>
    obtain ⟨step, below⟩ := List.isChain_cons_cons.mp descends
    have own := depth_children.mp (show node.depth ≤ (node.depth - 1) + 1 by omega) child step
    have further := ih below
    have some := node.depth_positive
    simp only [List.length_cons] at further ⊢
    omega

theorem count_children (node : Node) : node.count = 1 + (node.children.map count).sum := by
  cases node with
  | shape s => rfl
  | transform t item => simp [count, children]
  | combine c items => rw [count, countAll_sum, children]

theorem mapM_known {α β : Type} {f : α → Option β} {g : α → β} {xs : List α}
    (known : ∀ x ∈ xs, f x = some (g x)) : xs.mapM f = some (xs.map g) := by
  induction xs with
  | nil => rfl
  | cons x rest ih =>
    obtain ⟨first, others⟩ := List.forall_mem_cons.mp known
    rw [List.mapM_cons, first, ih others]
    rfl

theorem countWithin_depth {levels : Nat} {node : Node} (deep : node.depth ≤ levels) :
    node.countWithin levels = some node.count := by
  induction levels generalizing node with
  | zero => exact absurd (Nat.le_trans node.depth_positive deep) (by decide)
  | succ levels ih =>
    have inner := mapM_known fun child member => ih (depth_children.mp deep child member)
    rw [countWithin, inner, count_children]
    rfl

end Node

namespace Backend

-- Writing a node, by a recursion that goes no deeper than so many levels.
def emitWithin (b : Backend) : Nat → Node → Option (Walking Unit)
  | 0, _ => none
  | _ + 1, .shape s => some do
    let text ← b.call (.shape s)
    modify (·.statement text)
  | levels + 1, .transform t item => (emitWithin b levels item).map fun inner => do
    let header ← b.call (.transform t item)
    Block.nested header inner
  | levels + 1, .combine c items => (items.mapM (emitWithin b levels)).map fun inner => do
    let header ← b.call (.combine c items)
    Block.nested header (inner.forM id)

theorem emitAll_forM (b : Backend) (nodes : List Node) : (nodes.map b.emit).forM id = b.emitAll nodes := by
  induction nodes with
  | nil => rfl
  | cons node rest ih =>
    rw [emitAll, ← ih]
    rfl

theorem emitWithin_depth (b : Backend) {levels : Nat} {node : Node} (deep : node.depth ≤ levels) :
    b.emitWithin levels node = some (b.emit node) := by
  induction levels generalizing node with
  | zero => exact absurd (Nat.le_trans node.depth_positive deep) (by decide)
  | succ levels ih =>
    have below := Node.depth_children.mp deep
    cases node with
    | shape s => rfl
    | transform t item =>
      have inner := ih (below item (List.mem_singleton_self item))
      rw [emitWithin, inner]
      rfl
    | combine c items =>
      have inner : items.mapM (b.emitWithin levels) = some (items.map b.emit) :=
        Node.mapM_known fun item member => ih (below item member)
      rw [emitWithin, inner]
      simp only [Option.map_some, emitAll_forM]
      rfl

end Backend

namespace OpenScad

def indentation (line : List Char) : Nat := (line.takeWhile (· = ' ')).length

-- A line that stands at a depth below the given one, and begins with a character.
def Placed (below : Nat) (line : String) : Prop :=
  ∃ depth text, depth < below ∧ line = margin depth ++ text ∧ text.toList.head? ≠ some ' '

theorem placed_indentation {below : Nat} {line : String} (placed : Placed (below + 1) line) :
    indentation line.toList ≤ 4 * below := by
  obtain ⟨depth, text, low, rfl, filled⟩ := placed
  have none : text.toList.takeWhile (· = ' ') = [] := by
    cases characters : text.toList with
    | nil => rfl
    | cons c rest =>
      rw [characters] at filled
      have other : c ≠ ' ' := fun same => filled (congrArg some same)
      simp [other]
  rw [indentation, margin, String.toList_append, String.toList_ofList,
    List.takeWhile_append_of_pos (by simp), none]
  simp only [List.append_nil, List.length_replicate]
  omega

theorem header_front (node : Node) (ending : String) : (header node ++ ending).toList.head? ≠ some ' ' := by
  have word (k : Kind) : (word k).toList.head? ≠ none ∧ (OpenScad.word k).toList.head? ≠ some ' ' := by
    cases k <;> decide
  obtain ⟨some, other⟩ := word node.kind
  obtain ⟨arguments, call⟩ := header_call node
  rw [call, String.toList_append, call_characters]
  cases characters : (OpenScad.word node.kind).toList with
  | nil => exact absurd (by rw [characters]; rfl) some
  | cons c rest =>
    rw [characters] at other
    exact other

theorem placed_header {below depth : Nat} (low : depth < below) (node : Node) (ending : String) :
    Placed below (margin depth ++ header node ++ ending) :=
  ⟨depth, header node ++ ending, low, String.append_assoc .., header_front node ending⟩

mutual

theorem lines_placed (depth : Nat) (node : Node) :
    ∀ line ∈ lines depth node, Placed (depth + node.depth) line := by
  have low : depth < depth + node.depth := Nat.lt_add_of_pos_right node.depth_positive
  have brace : Placed (depth + node.depth) (margin depth ++ "\x7b") := ⟨depth, _, low, rfl, by decide⟩
  have closing : Placed (depth + node.depth) (margin depth ++ "\x7d;") := ⟨depth, _, low, rfl, by decide⟩
  have top := placed_header low node
  cases node with
  | shape s => exact List.forall_mem_singleton.mpr (top ";")
  | transform t item =>
    have front := top ""
    have inner := lines_placed (depth + 1) item
    rw [Nat.add_assoc] at inner
    rw [String.append_empty] at front
    simp only [lines, List.forall_mem_append, List.forall_mem_cons]
    exact ⟨⟨front, brace, inner⟩, closing, nofun⟩
  | combine c items =>
    have front := top ""
    have inner := linesAll_placed (depth + 1) items
    rw [Nat.add_assoc] at inner
    rw [String.append_empty] at front
    simp only [lines, List.forall_mem_append, List.forall_mem_cons]
    exact ⟨⟨front, brace, inner⟩, closing, nofun⟩

theorem linesAll_placed (depth : Nat) (nodes : List Node) :
    ∀ line ∈ linesAll depth nodes, Placed (depth + Node.depthAll nodes) line := by
  have wider {small large : Nat} (le : small ≤ large) {line : String} (placed : Placed small line) :
      Placed large line := by
    obtain ⟨depth, text, low, same, filled⟩ := placed
    exact ⟨depth, text, Nat.lt_of_lt_of_le low le, same, filled⟩
  cases nodes with
  | nil => simp [linesAll]
  | cons node rest =>
    rw [Node.depthAll]
    refine List.forall_mem_append.mpr ⟨fun line member => ?_, fun line member => ?_⟩
    · exact wider (by omega) (lines_placed depth node line member)
    · exact wider (by omega) (linesAll_placed depth rest line member)

end

theorem sectorLines_indentation : ∀ line ∈ sectorLines ++ [""], indentation line.toList ≤ 8 := by decide

theorem documentLines_indentation {nodes : List Node} {k : Nat} (enough : 2 ≤ k)
    (deep : ∀ node ∈ nodes, node.depth ≤ k + 1) :
    ∀ line ∈ documentLines nodes, indentation line.toList ≤ 4 * k := by
  have trees := linesAll_placed 0 nodes
  rw [Nat.zero_add] at trees
  refine List.forall_mem_append.mpr ⟨?_, fun line member => ?_⟩
  · split
    · intro line member
      have little := sectorLines_indentation line member
      omega
    · exact nofun
  · obtain ⟨depth, text, low, same, filled⟩ := trees line member
    have all : Node.depthAll nodes ≤ k + 1 := Node.depthAll_le.mpr deep
    exact placed_indentation ⟨depth, text, by omega, same, filled⟩

theorem render_indentation {nodes : List Node} {k : Nat} (enough : 2 ≤ k)
    (deep : ∀ node ∈ nodes, node.depth ≤ k + 1) :
    ∃ text, render nodes = .ok text ∧ ∀ line ∈ text.toList.splitOn '\n', indentation line ≤ 4 * k := by
  refine ⟨_, render_documentLines nodes, ?_⟩
  by_cases some : documentLines nodes = []
  · rw [some]
    intro line member
    have blank : line = [] := by simpa using member
    rw [blank]
    exact Nat.zero_le _
  · rw [intercalate_lines some (documentLines_unbroken nodes)]
    exact List.forall_mem_map.mpr (documentLines_indentation enough deep)

end OpenScad

theorem depth_kept : KeptWithin fun room node => node.depth ≤ room :=
  ⟨fun _ _ => Nat.le_succ_of_le, fun _ _ _ _ held made => Node.depth_children.mpr (made_parts held made).2⟩

-- What recurses over the tree goes no deeper than so many levels.
structure Node.Shallow (levels : Nat) (node : Node) : Prop where
  depth : node.depth ≤ levels
  descends : ∀ way, Descends (node :: way) → (node :: way).length ≤ levels
  counted : node.countWithin levels = some node.count
  emitted : ∀ b : Backend, b.emitWithin levels node = some (b.emit node)

theorem depth_shallow {levels : Nat} {node : Node} (deep : node.depth ≤ levels) : node.Shallow levels :=
  ⟨deep, fun _ descends => Nat.le_trans (Node.descends_depth descends) deep, Node.countWithin_depth deep,
    fun b => b.emitWithin_depth deep⟩

-- Each node takes a container of its own.
theorem load_depth {text : String} {nodes : List Node} (loaded : Node.load text = .ok nodes) :
    ∃ v, Json.read text = .ok v ∧ (∀ node ∈ nodes, node.depth ≤ 127) ∧
      (v.isArray = true → ∀ node ∈ nodes, node.depth ≤ 126) := by
  obtain ⟨v, wrapped, built⟩ := bind_ok.mp loaded
  have read := mapError_ok.mp wrapped
  have shallow := Json.read_depth read
  refine ⟨v, read, ?_⟩
  unfold Node.loadValue at built
  split at built
  · next items =>
    rw [Json.depth, Nat.add_comm] at shallow
    have inside : Json.depthAll items ≤ 126 := Nat.le_of_succ_le_succ shallow
    have deep := Load.nodes_held depth_kept .outer items inside (mapError_ok.mp built)
    exact ⟨fun node member => Nat.le_succ_of_le (deep node member), fun _ => deep⟩
  · next other =>
    obtain ⟨node, made, rfl⟩ := map_ok.mp (mapError_ok.mp built)
    have deep := Load.value_held depth_kept .outer .node v shallow made
    refine ⟨List.forall_mem_singleton.mpr deep, fun array => ?_⟩
    cases v with
    | array items => exact absurd rfl (other items)
    | _ => cases array

-- Nothing loaded is deep, least of all in a list, and nothing of it is indented far.
theorem load_shallow {text : String} {nodes : List Node} (loaded : Node.load text = .ok nodes) :
    (∀ node ∈ nodes, node.Shallow 127) ∧
    (∀ items, Json.read text = .ok (.array items) → ∀ node ∈ nodes, node.Shallow 126) ∧
    ∃ written, OpenScad.render nodes = .ok written ∧
      ∀ line ∈ written.toList.splitOn '\n', OpenScad.indentation line ≤ 4 * 126 := by
  obtain ⟨v, read, deep, array⟩ := load_depth loaded
  refine ⟨fun node member => depth_shallow (deep node member), fun items listed node member => ?_,
    OpenScad.render_indentation (by decide) deep⟩
  cases Except.ok.inj (read.symm.trans listed)
  exact depth_shallow (array rfl node member)

-- A ring, described in one text.
def ringText : String :=
  "\x7b\"type\": \"rotate_extrusion\", \"item\": \x7b\"type\": \"circle\", \"radius\": 1\x7d\x7d"

def ring : Node := .transform .rotateExtrusion (.shape (.circle 1.0))

theorem load_shallow_ring : Node.load ringText = .ok [ring] ∧ ring.Shallow 127 := by
  have read : Json.read ringText = .ok (.object
      [("item", .object [("radius", .int 1), ("type", .string "circle")]), ("type", .string "rotate_extrusion")]) :=
    rfl
  have loaded : Node.load ringText = .ok [ring] := (load_read read).trans rfl
  exact ⟨loaded, (load_shallow loaded).1 ring (List.mem_singleton_self ring)⟩

end Solid
