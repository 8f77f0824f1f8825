import Solid.Proofs.Rewriting
namespace Solid

namespace Json

-- A text that may stand in a list: one value between blanks, no list itself, with room for a
-- container around it.
structure Element where
  before : Gap
  doc : Doc
  after : Gap
  single : ∀ gap items, doc ≠ .array gap items
  shallow : doc.depth ≤ 126

namespace Element

def item (x : Element) : Doc.Item := (x.before, x.doc, x.after)

def text (x : Element) : String := String.ofList (x.before.1 ++ x.doc.text ++ x.after.1)

end Element

def listDoc (elements : List Element) : Doc := .array .none (elements.map Element.item)

def listText (elements : List Element) : String :=
  "[" ++ ",".intercalate (elements.map Element.text) ++ "]"

theorem element_spelled (x : Element) : x.doc.Spells x.text :=
  ⟨x.before, x.after, String.toList_ofList⟩

theorem elements_text (elements : List Element) :
    Doc.itemsText (elements.map Element.item) = (",".intercalate (elements.map Element.text)).toList := by
  induction elements with
  | nil => rfl
  | cons x rest ih =>
    cases rest with
    | nil => simp [Doc.itemsText, Element.item, Element.text]
    | cons y more =>
      have filled : (y :: more).map Element.item ≠ [] := List.cons_ne_nil _ _
      simp only [List.map_cons] at ih filled ⊢
      rw [Element.item, itemsText_cons filled, ih, String.intercalate_cons_cons]
      simp [Element.text]

theorem list_spelled (elements : List Element) : (listDoc elements).Spells (listText elements) := by
  refine ⟨.none, .none, ?_⟩
  cases elements with
  | nil => rfl
  | cons x rest =>
    have inner := elements_text (x :: rest)
    rw [listText, String.toList_append, String.toList_append, ← inner]
    simp [listDoc, Doc.text, Gap.none]

theorem list_shallow (elements : List Element) : (listDoc elements).depth ≤ 127 := by
  have items : Doc.depthItems (elements.map Element.item) ≤ 126 := by
    induction elements with
    | nil => exact Nat.zero_le _
    | cons x rest ih => exact Nat.max_le.mpr ⟨x.shallow, ih⟩
  rw [listDoc, Doc.depth]
  omega

theorem list_value (elements : List Element) :
    (listDoc elements).value = .array (elements.map fun x => x.doc.value) := by
  have items : Doc.valueItems (elements.map Element.item) = elements.map fun x => x.doc.value := by
    induction elements with
    | nil => rfl
    | cons x rest ih => exact congrArg (_ :: ·) ih
  exact congrArg Json.array items

theorem list_ranged {elements : List Element} :
    (listDoc elements).Ranged ↔ ∀ x ∈ elements, x.doc.Ranged := by
  rw [listDoc, Doc.ranged_array, List.forall_mem_map]
  rfl

theorem leaf_single {v : Json} (leaf : v.Leaf) : v.isArray = false := by
  cases v <;> first | rfl | cases leaf

theorem element_single (x : Element) : x.doc.value.isArray = false := by
  obtain ⟨before, d, after, single, shallow⟩ := x
  cases d with
  | null | bool | string | object => rfl
  | number t => exact leaf_single (token_leaf t)
  | array gap items => exact absurd rfl (single gap items)

end Json

open Json (Element listText)

theorem loadValue_single {v : Json} (single : v.isArray = false) :
    Node.loadValue v = ((Node.ofJson v).map fun node => [node]).mapError .node := by
  cases v with
  | array => cases single
  | null | bool | int | float | string | object => rfl

section
variable {x : Element} {elements : List Element}

theorem element_load (ranged : x.doc.Ranged) :
    Node.load x.text = ((Node.ofJson x.doc.value).map fun node => [node]).mapError .node := by
  have shallow : x.doc.depth ≤ 127 := Nat.le_succ_of_le x.shallow
  rw [load_spelled (Json.element_spelled x) shallow ranged, loadValue_single (Json.element_single x)]

theorem element_loaded (ranged : x.doc.Ranged) {nodes : List Node} :
    Node.load x.text = .ok nodes ↔ ∃ node, Node.ofJson x.doc.value = .ok node ∧ [node] = nodes := by
  rw [element_load ranged, mapError_ok, map_ok]

theorem element_failed (ranged : x.doc.Ranged) {error : LoadError} :
    Node.load x.text = .error error ↔ ∃ e, Node.ofJson x.doc.value = .error e ∧ error = .node e := by
  rw [element_load ranged]
  cases Node.ofJson x.doc.value with
  | ok node => exact ⟨nofun, fun ⟨_, impossible, _⟩ => nomatch impossible⟩
  | error e =>
    constructor
    · rintro ⟨⟩
      exact ⟨e, rfl, rfl⟩
    · rintro ⟨_, ⟨⟩, rfl⟩
      rfl

theorem list_load (ranged : ∀ x ∈ elements, x.doc.Ranged) : Node.load (listText elements) =
    (Load.nodes .outer (elements.map fun x => x.doc.value)).mapError .list := by
  rw [load_spelled (Json.list_spelled elements) (Json.list_shallow elements) (Json.list_ranged.mpr ranged),
    Json.list_value]
  rfl

-- Every element gives one node, and the list gives them in their order.
theorem elements_loaded {results : List (List Node)} (ranged : ∀ x ∈ elements, x.doc.Ranged)
    (loaded : List.Forall₂ (fun x nodes => Node.load x.text = .ok nodes) elements results) :
    Load.nodes .outer (elements.map fun x => x.doc.value) = .ok results.flatten := by
  induction loaded with
  | nil => rfl
  | cons first _ ih =>
    obtain ⟨own, others⟩ := List.forall_mem_cons.mp ranged
    obtain ⟨node, one, rfl⟩ := (element_loaded own).mp first
    change Load.value .outer .node _ = _ at one
    rw [List.map_cons, Load.nodes, one, ih others]
    rfl

-- Nothing behind the first fault is looked at.
theorem elements_failed {front back : List Json} {v : Json} {e : DataError}
    (loaded : ∀ w ∈ front, ∃ node, Node.ofJson w = .ok node) (failed : Node.ofJson v = .error e) :
    Load.nodes .outer (front ++ v :: back) = .error e := by
  induction front with
  | nil =>
    change Load.value .outer .node v = _ at failed
    rw [List.nil_append, Load.nodes, failed]
    rfl
  | cons w rest ih =>
    obtain ⟨⟨node, own⟩, others⟩ := List.forall_mem_cons.mp loaded
    change Load.value .outer .node w = _ at own
    rw [List.cons_append, Load.nodes, own, ih others]
    rfl

end

-- The nodes of the elements in their order, or the first fault. A number out of range in any element
-- keeps the reader from the whole list.
theorem load_elements (elements : List Element) :
    ((∀ x ∈ elements, x.doc.Ranged) →
      (∀ results, List.Forall₂ (fun x nodes => Node.load x.text = .ok nodes) elements results →
        Node.load (listText elements) = .ok results.flatten) ∧
      ∀ front x back error, elements = front ++ x :: back →
        (∀ y ∈ front, ∃ nodes, Node.load y.text = .ok nodes) → Node.load x.text = .error error →
        ∃ e, error = .node e ∧ Node.load (listText elements) = .error (.list e) ∧
          ∀ detail, error.message detail = "Invalid AST node: " ++ e.message ∧
            (LoadError.list e).message detail = "Invalid AST node list: " ++ e.message) ∧
    ∀ x ∈ elements, ¬x.doc.Ranged → Node.load x.text = .error (.json .syntaxError) ∧
      Node.load (listText elements) = .error (.json .syntaxError) := by
  refine ⟨fun ranged => ⟨?_, ?_⟩, ?_⟩
  · intro results loaded
    rw [list_load ranged, elements_loaded ranged loaded]
    rfl
  · rintro front x back error rfl loaded failed
    obtain ⟨before, others⟩ := List.forall_mem_append.mp ranged
    obtain ⟨own, _⟩ := List.forall_mem_cons.mp others
    obtain ⟨e, fault, rfl⟩ := (element_failed own).mp failed
    refine ⟨e, rfl, ?_, fun _ => ⟨rfl, rfl⟩⟩
    have first : ∀ w ∈ front.map fun y => y.doc.value, ∃ node, Node.ofJson w = .ok node := by
      refine List.forall_mem_map.mpr fun y member => ?_
      obtain ⟨nodes, known⟩ := loaded y member
      obtain ⟨node, built, _⟩ := (element_loaded (before y member)).mp known
      exact ⟨node, built⟩
    rw [list_load ranged, List.map_append, List.map_cons, elements_failed first fault]
    rfl
  · intro x member unranged
    have list : ¬(Json.listDoc elements).Ranged := fun all => unranged (Json.list_ranged.mp all x member)
    exact ⟨load_unranged (Json.element_spelled x) unranged, load_unranged (Json.list_spelled elements) list⟩

section
open Json (Doc Token)

def circleElement (radius : Token) : Element :=
  ⟨.none, circleDoc radius, .none, nofun, Nat.le_of_ble_eq_true rfl⟩

def largeElement : Element := ⟨.none, .number tooLarge, .none, nofun, by decide⟩

theorem circle_ranged {radius : Token} (ranged : radius.Ranged) : (circleElement radius).doc.Ranged :=
  List.forall_mem_singleton.mpr ranged

theorem small_ranged : one.Ranged ∧ minusOne.Ranged := ⟨nofun, nofun⟩

theorem circle_one : Node.load (circleElement one).text = .ok [.shape (.circle 1.0)] :=
  (element_loaded (circle_ranged small_ranged.1)).mpr ⟨_, rfl, rfl⟩

theorem circle_minusOne :
    Node.load (circleElement minusOne).text = .error (.node (.invalid negativeRadius)) :=
  (element_failed (circle_ranged small_ranged.2)).mpr ⟨_, rfl, rfl⟩

-- The second of two circles has a negative radius.
theorem load_elements_circles : Node.load (listText [circleElement one, circleElement minusOne]) =
    .error (.list (.invalid negativeRadius)) := by
  have ranged : ∀ x ∈ [circleElement one, circleElement minusOne], x.doc.Ranged :=
    List.forall_mem_cons.mpr ⟨circle_ranged small_ranged.1,
      List.forall_mem_singleton.mpr (circle_ranged small_ranged.2)⟩
  have front : ∀ y ∈ [circleElement one], ∃ nodes, Node.load y.text = .ok nodes :=
    List.forall_mem_singleton.mpr ⟨_, circle_one⟩
  obtain ⟨e, same, list, _⟩ := ((load_elements _).1 ranged).2 _ _ [] _ rfl front circle_minusOne
  cases same
  exact list

-- A circle with a negative radius, and behind it a number out of range.
theorem large_element_unread :
    listText [circleElement minusOne, largeElement] = "[\x7b\"type\":\"circle\",\"radius\":-1\x7d,1e400]" ∧
      Node.load (circleElement minusOne).text = .error (.node (.invalid negativeRadius)) ∧
      Node.load (listText [circleElement minusOne, largeElement]) ≠ .error (.list (.invalid negativeRadius)) := by
  refine ⟨by decide, circle_minusOne, ?_⟩
  have unranged : ¬(Json.listDoc [circleElement minusOne, largeElement]).Ranged := fun all =>
    all tooLarge (List.mem_cons_of_mem _ (List.mem_singleton_self _)) tooLarge_value
  rw [load_unranged (Json.list_spelled _) unranged]
  nofun

end
end Solid
