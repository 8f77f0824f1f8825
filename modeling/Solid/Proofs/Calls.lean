import Solid.Proofs.Listing
import Solid.Backend
namespace Solid

namespace Line

mutual

-- What hooks have said, from the top of the page down.
def spoken : Line → List String
  | .statement text => [text]
  | .blank => []
  | .block header lines => header :: spokenAll lines

def spokenAll : List Line → List String
  | [] => []
  | line :: rest => line.spoken ++ spokenAll rest

end

theorem spokenAll_append (lines more : List Line) :
    spokenAll (lines ++ more) = spokenAll lines ++ spokenAll more := by
  induction lines with
  | nil => rfl
  | cons line rest ih => simp only [List.cons_append, spokenAll, ih, List.append_assoc]

end Line

namespace Node

theorem preorder_children (node : Node) : node.preorder = node :: preorderAll node.children := by
  cases node with
  | shape s => rfl
  | transform t item => simp only [preorder, children, preorderAll, List.append_nil]
  | combine c items => rfl

theorem preorderAll_flatMap (nodes : List Node) : preorderAll nodes = nodes.flatMap preorder := by
  induction nodes with
  | nil => rfl
  | cons node rest ih => rw [preorderAll, ih, List.flatMap_cons]

mutual

theorem preorder_length (node : Node) : node.preorder.length = node.count := by
  cases node with
  | shape s => rfl
  | transform t item => rw [preorder, List.length_cons, preorder_length item, count, Nat.add_comm]
  | combine c items => rw [preorder, List.length_cons, preorderAll_length items, count, Nat.add_comm]

theorem preorderAll_length (nodes : List Node) : (preorderAll nodes).length = countAll nodes := by
  cases nodes with
  | nil => rfl
  | cons node rest =>
    rw [preorderAll, List.length_append, preorder_length node, preorderAll_length rest, countAll]

end

theorem countAll_sum (nodes : List Node) : countAll nodes = (nodes.map count).sum := by
  induction nodes with
  | nil => rfl
  | cons node rest ih => rw [countAll, ih, List.map_cons, List.sum_cons]

end Node

namespace Backend

theorem refusal_kind (node : Node) : refusal node = node.kind.name := by
  cases node with
  | shape s => cases s <;> rfl
  | transform t item => cases t <;> rfl
  | combine c items => cases c <;> rfl

-- The hooks of these nodes succeed, each with the preamble that the one before it has left.
inductive Sequence (b : Backend) : Preamble → List Node → List String → Preamble → Prop
  | nil {p : Preamble} : Sequence b p [] [] p
  | cons {p next last : Preamble} {node : Node} {nodes : List Node} {text : String}
      {texts : List String} (first : b.answer node p = (.ok text, next))
      (rest : Sequence b next nodes texts last) : Sequence b p (node :: nodes) (text :: texts) last

-- Calling the hooks of these nodes in a row, up to the first that fails. This says nothing about
-- the trees that the nodes come from.
inductive Called (b : Backend) : Walk → List Node → Except RenderError (List String) → Walk → Prop
  | done {w : Walk} : Called b w [] (.ok []) w
  | stopped {w : Walk} {node : Node} {nodes : List Node} {e : RenderError} {p : Preamble}
      (failed : b.answer node w.preamble = (.error e, p)) :
      Called b w (node :: nodes) (.error e) ⟨p, node :: w.called⟩
  | next {w w' : Walk} {node : Node} {nodes : List Node} {text : String} {p : Preamble}
      {outcome : Except RenderError (List String)} (first : b.answer node w.preamble = (.ok text, p))
      (rest : Called b ⟨p, node :: w.called⟩ nodes outcome w') :
      Called b w (node :: nodes) (outcome.map (text :: ·)) w'

section
variable {b : Backend} {w w' : Walk} {nodes : List Node}

theorem call_run {node : Node} {said : Except RenderError String} {p : Preamble}
    (given : b.answer node w.preamble = (said, p)) (block : Block) :
    b.call node block w = ((said, block), ⟨p, node :: w.called⟩) := by
  simp only [call, given]

theorem called_append {texts : List String} {more : List Node} {w'' : Walk}
    {outcome : Except RenderError (List String)} (front : Called b w nodes (.ok texts) w')
    (back : Called b w' more outcome w'') :
    Called b w (nodes ++ more) (outcome.map (texts ++ ·)) w'' := by
  generalize same : Except.ok texts = result at front
  induction front generalizing texts with
  | done =>
    cases same
    cases outcome <;> exact back
  | stopped failed => cases same
  | @next w w' node nodes text p result first rest ih =>
    cases result with
    | error e => cases same
    | ok others =>
      cases same
      have joined := Called.next first (ih back rfl)
      cases outcome <;> exact joined

theorem called_stop {e : RenderError} (front : Called b w nodes (.error e) w') (more : List Node) :
    Called b w (nodes ++ more) (.error e) w' := by
  generalize same : Except.error e = result at front
  induction front with
  | done => cases same
  | stopped failed =>
    cases same
    exact .stopped failed
  | @next w w' node nodes text p result first rest ih =>
    cases result with
    | ok others => cases same
    | error e' =>
      cases same
      exact .next first (ih rfl)

theorem called_sequence {texts : List String} (called : Called b w nodes (.ok texts) w') :
    Sequence b w.preamble nodes texts w'.preamble ∧ w'.called = nodes.reverse ++ w.called := by
  generalize same : Except.ok texts = result at called
  induction called generalizing texts with
  | done =>
    cases same
    exact ⟨.nil, rfl⟩
  | stopped failed => cases same
  | @next w w' node nodes text p result first rest ih =>
    cases result with
    | error e => cases same
    | ok others =>
      cases same
      obtain ⟨others, order⟩ := ih rfl
      exact ⟨.cons first others, by simp [order]⟩

theorem called_failure {e : RenderError} (called : Called b w nodes (.error e) w') :
    ∃ before node after texts p, nodes = before ++ node :: after ∧ Sequence b w.preamble before texts p ∧
      b.answer node p = (.error e, w'.preamble) ∧ w'.called = node :: before.reverse ++ w.called := by
  generalize same : Except.error e = result at called
  induction called with
  | done => cases same
  | @stopped w node nodes e' p failed =>
    cases same
    exact ⟨[], node, nodes, [], w.preamble, rfl, .nil, failed, rfl⟩
  | @next w w' node nodes text p result first rest ih =>
    cases result with
    | ok others => cases same
    | error e' =>
      cases same
      obtain ⟨before, failing, after, texts, last, split, passed, failed, order⟩ := ih rfl
      refine ⟨node :: before, failing, after, text :: texts, last, ?_, .cons first passed, failed, ?_⟩
      · rw [split, List.cons_append]
      · simp [order]

end

-- The walk from a block ends as the calls in a row do, and what it writes is what they said.
inductive Follows (b : Backend) (w : Walk) (nodes : List Node) (block : Block) :
    (Except RenderError Unit × Block) × Walk → Prop
  | written {lines : List Line} {w' : Walk} (called : Called b w nodes (.ok (Line.spokenAll lines)) w') :
      Follows b w nodes block ((.ok (), { block with lines := block.lines ++ lines }), w')
  | stopped {e : RenderError} {left : Block} {w' : Walk} (called : Called b w nodes (.error e) w') :
      Follows b w nodes block ((.error e, left), w')

-- A block is written as a whole, and only when all below its header is.
theorem nested_follows {b : Backend} {w : Walk} {node : Node} {nodes : List Node} {block : Block}
    {fill : Walking Unit}
    (inner : ∀ header w', Follows b w' nodes (Block.titled header) (fill (Block.titled header) w')) :
    Follows b w (node :: nodes) block ((b.call node >>= fun header => Block.nested header fill) block w) := by
  rcases given : b.answer node w.preamble with ⟨e | header, p⟩
  · rw [fail_bind (call_run given block)]
    exact .stopped (.stopped given)
  · rw [call_bind (call_run given block)]
    have below := inner header ⟨p, node :: w.called⟩
    generalize run : fill (Block.titled header) ⟨p, node :: w.called⟩ = result at below
    cases below with
    | @written lines w' called =>
      rw [nested_done run]
      have whole : Called b w (node :: nodes) (.ok (Line.spokenAll [.block header lines])) w' := by
        rw [Line.spokenAll, Line.spokenAll, Line.spoken, List.append_nil]
        exact .next given called
      exact .written whole
    | stopped called =>
      rw [nested_failed run]
      exact .stopped (.next given called)

mutual

theorem emit_follows (b : Backend) (node : Node) (block : Block) (w : Walk) :
    Follows b w node.preorder block (b.emit node block w) := by
  cases node with
  | shape s =>
    rw [emit, Node.preorder]
    rcases given : b.answer (.shape s) w.preamble with ⟨e | text, p⟩
    · rw [fail_bind (call_run given block)]
      exact .stopped (.stopped given)
    · rw [call_bind (call_run given block)]
      have said : Called b w [.shape s] (.ok (Line.spokenAll [.statement text])) ⟨p, .shape s :: w.called⟩ :=
        .next given .done
      exact .written said
  | transform t item =>
    rw [emit, Node.preorder]
    exact nested_follows fun header w' => emit_follows b item (.titled header) w'
  | combine c items =>
    rw [emit, Node.preorder]
    exact nested_follows fun header w' => emitAll_follows b items (.titled header) w'

theorem emitAll_follows (b : Backend) (nodes : List Node) (block : Block) (w : Walk) :
    Follows b w (Node.preorderAll nodes) block (b.emitAll nodes block w) := by
  cases nodes with
  | nil =>
    rw [emitAll, Node.preorderAll]
    have nothing : Called b w [] (.ok (Line.spokenAll [])) w := .done
    have written : Follows b w [] block ((.ok (), { block with lines := block.lines ++ [] }), w) :=
      .written nothing
    rwa [List.append_nil] at written
  | cons node rest =>
    rw [emitAll, Node.preorderAll]
    have first := emit_follows b node block w
    generalize run : b.emit node block w = result at first
    cases first with
    | stopped called =>
      rw [fail_bind run]
      exact .stopped (called_stop called _)
    | @written lines w' called =>
      rw [call_bind run]
      have others := emitAll_follows b rest { block with lines := block.lines ++ lines } w'
      generalize b.emitAll rest { block with lines := block.lines ++ lines } w' = result at others
      cases others with
      | stopped more => exact .stopped (called_append called more)
      | @written next w'' more =>
        rw [List.append_assoc]
        refine .written ?_
        rw [Line.spokenAll_append]
        exact called_append called more

end

-- Rendering calls the hooks of all nodes in pre-order, tree after tree, and what they say, each
-- with the preamble that the ones before it have left, is the text of the document; or it calls
-- them up to the first that fails, and ends with its error.
theorem render_calls (b : Backend) (nodes : List Node) :
    (∀ node : Node, node.preorder = node :: node.children.flatMap Node.preorder) ∧
    ((∃ texts d, Sequence b .empty (nodes.flatMap Node.preorder) texts d.preamble ∧
        Line.spokenAll d.body.lines = texts ∧ b.document nodes = .ok d ∧ b.render nodes = .ok d.render ∧
        b.calls nodes = nodes.flatMap Node.preorder ∧
        (b.calls nodes).length = (nodes.map Node.count).sum) ∨
      (∃ before node after texts p e, nodes.flatMap Node.preorder = before ++ node :: after ∧
        Sequence b .empty before texts p ∧ (b.answer node p).1 = .error e ∧ b.render nodes = .error e ∧
        b.calls nodes = before ++ [node] ∧ (b.calls nodes).length = before.length + 1 ∧
        (b.hook node = none → e = .unsupported b.name node.kind.name))) := by
  refine ⟨fun node => ?_, ?_⟩
  · rw [Node.preorder_children, Node.preorderAll_flatMap]
  rw [← Node.preorderAll_flatMap]
  have walked : Follows b .start (Node.preorderAll nodes) .root (b.walk nodes) :=
    emitAll_follows b nodes .root .start
  generalize run : b.walk nodes = result at walked
  cases walked with
  | @written lines w' called =>
    left
    obtain ⟨sequence, order⟩ := called_sequence called
    have written : b.document nodes = .ok ⟨w'.preamble, ⟨none, lines⟩⟩ := by
      simp only [document, run]
      rfl
    have visited : b.calls nodes = Node.preorderAll nodes := by
      rw [calls, run, order]
      simp [Walk.start]
    refine ⟨_, ⟨w'.preamble, ⟨none, lines⟩⟩, sequence, rfl, written, ?_, visited, ?_⟩
    · rw [render, written, Except.map]
    · rw [visited, Node.preorderAll_length, Node.countAll_sum]
  | @stopped e left w' called =>
    right
    obtain ⟨before, node, after, texts, p, split, sequence, failed, order⟩ := called_failure called
    have visited : b.calls nodes = before ++ [node] := by
      rw [calls, run, order]
      simp [Walk.start]
    refine ⟨before, node, after, texts, p, e, split, sequence, by rw [failed], ?_, visited, ?_, ?_⟩
    · simp only [render, document, run, Except.map]
    · rw [visited, List.length_append, List.length_singleton]
    · intro missing
      simp only [answer, missing, Option.getD_none, Prod.mk.injEq, Except.error.injEq] at failed
      rw [← failed.1, refusal_kind]

-- A node without a hook ends the walk.
example : (Outline.backend "minimal" [.circle, .union]).render
    [.combine (.union false) [.shape (.circle 1.0), .shape (.sphere 2.0), .shape (.circle 3.0)]] =
      .error (.unsupported "minimal" "sphere") := rfl

end Backend
end Solid
