import Mathlib.Logic.Relation
import Solid.Proofs.Constructing
import Solid.Proofs.Pruning
namespace Solid

namespace Json

theorem lookup_iff {members : List (String × Json)} (distinct : (keys members).Nodup) {k : String} {v : Json} :
    members.lookup k = some v ↔ (k, v) ∈ members := by
  refine ⟨mem_lookup, fun member => ?_⟩
  induction members with
  | nil => cases member
  | cons m rest ih =>
    obtain ⟨fresh, others⟩ := List.nodup_cons.mp distinct
    rcases List.mem_cons.mp member with rfl | later
    · simp
    · exact lookup_later fresh (ih others later)

-- Sorted members are known by what is found among them.
theorem increasing_ext {members others : List (String × Json)} (increasing : (keys members).Pairwise (· < ·))
    (increasing' : (keys others).Pairwise (· < ·)) (same : ∀ k, members.lookup k = others.lookup k) :
    members = others := by
  have distinct : (keys members).Nodup := increasing.imp ne_of_lt
  have distinct' : (keys others).Nodup := increasing'.imp ne_of_lt
  have perm : members.Perm others := by
    refine (List.perm_ext_iff_of_nodup (.of_map _ distinct) (.of_map _ distinct')).mpr fun (k, v) => ?_
    rw [← lookup_iff distinct, same, lookup_iff distinct']
  exact perm.eq_of_pairwise (fun _ _ _ _ below above => absurd above (lt_asymm below))
    (List.pairwise_map.mp increasing) (List.pairwise_map.mp increasing')

-- The members that count are known by what is found under the keys that count.
theorem select_gathered {members others : List (String × Json)}
    (same : ∀ k, counts (gathered members) k = true → members.reverse.lookup k = others.reverse.lookup k) :
    select (gathered members) = select (gathered others) := by
  have found (k : String) (counted : counts (gathered members) k = true) :
      (gathered members).lookup k = (gathered others).lookup k := by
    rw [gathered_lookup, gathered_lookup, same k counted]
  have agreed : counts (gathered members) = counts (gathered others) := by
    have kind := found "type" (counts_type _)
    funext k
    simp only [counts, Load.kindOf, kind]
  have increasing (members : List (String × Json)) : (keys (select (gathered members))).Pairwise (· < ·) :=
    (gathered_increasing members).sublist (List.filter_sublist.map _)
  refine increasing_ext (increasing members) (increasing others) fun k => ?_
  by_cases counted : counts (gathered members) k = true
  · rw [select_lookup counted, select_lookup (agreed ▸ counted), found k counted]
  · have missing (members : List (String × Json)) (ignored : ¬counts (gathered members) k = true) :
        (select (gathered members)).lookup k = none := by
      refine lookup_missing fun member => ignored ?_
      obtain ⟨m, inside, rfl⟩ := List.mem_map.mp member
      exact (List.mem_filter.mp inside).2
    rw [missing members counted, missing others (agreed ▸ counted)]

theorem prunedMembers_insert (key : String) (v : Json) (members : List (String × Json)) :
    prunedMembers (insert key v members) = insert key v.pruned (prunedMembers members) := by
  induction members with
  | nil => rfl
  | cons m rest ih =>
    obtain ⟨key', v'⟩ := m
    simp only [insert, prunedMembers]
    split
    · rfl
    · split
      · rfl
      · rw [prunedMembers, ih]

theorem prunedMembers_append (members more : List (String × Json)) :
    prunedMembers (members ++ more) = prunedMembers members ++ prunedMembers more := by
  induction members with
  | nil => rfl
  | cons m rest ih => exact congrArg (_ :: ·) ih

theorem prunedMembers_gathered (members : List (String × Json)) :
    prunedMembers (gathered members) = gathered (prunedMembers members) := by
  induction members using List.reverseRecOn with
  | nil => rfl
  | append_singleton members m ih =>
    obtain ⟨key, v⟩ := m
    rw [gathered_append, prunedMembers_insert, ih, prunedMembers_append]
    exact (gathered_append _ key v.pruned).symm

namespace Doc

def Member.key (m : Member) : String := m.1.name.value

def Member.doc (m : Member) : Doc := m.2.2.1

-- One step to a document that says the same. What is added or left out has the property.
inductive Change (P : Doc → Prop) : Doc → Doc → Prop
  | arrayBlanks (gap gap' : Gap) : Change P (.array gap []) (.array gap' [])
  | objectBlanks (gap gap' : Gap) : Change P (.object gap []) (.object gap' [])
  | itemBlanks (gap : Gap) (front back : List Item) (before before' : Gap) (d : Doc) (after after' : Gap) :
    Change P (.array gap (front ++ (before, d, after) :: back))
      (.array gap (front ++ (before', d, after') :: back))
  | memberBlanks (gap : Gap) (front back : List Member) (l l' : Label) (named : l.name = l'.name)
      (before before' : Gap) (d : Doc) (after after' : Gap) :
    Change P (.object gap (front ++ (l, before, d, after) :: back))
      (.object gap (front ++ (l', before', d, after') :: back))
  | item (gap : Gap) (front back : List Item) (before : Gap) {d d' : Doc} (after : Gap)
      (inner : Change P d d') :
    Change P (.array gap (front ++ (before, d, after) :: back))
      (.array gap (front ++ (before, d', after) :: back))
  | member (gap : Gap) (front back : List Member) (l : Label) (before : Gap) {d d' : Doc} (after : Gap)
      (inner : Change P d d') :
    Change P (.object gap (front ++ (l, before, d, after) :: back))
      (.object gap (front ++ (l, before, d', after) :: back))
  | permuted (gap : Gap) {members members' : List Member} (perm : members.Perm members')
      (distinct : (members.map Member.key).Nodup) : Change P (.object gap members) (.object gap members')
  -- The kind is the one that the last member of the key `type` names.
  | added (gap : Gap) (front back : List Member) (m : Member) {k : Kind}
      (named : Named .inner (valueMembers (front ++ back)).reverse k) (other : m.key ≠ "type")
      (stranger : m.key ∉ k.fields.map Field.name) (new : P m.doc) :
    Change P (.object gap (front ++ back)) (.object gap (front ++ m :: back))
  | dropped (gap : Gap) (front back : List Member) (m : Member) (replaced : m.key ∈ back.map Member.key)
      (old : P m.doc) : Change P (.object gap (front ++ m :: back)) (.object gap (front ++ back))

-- The members as they are looked at.
def looks (members : List Member) : List (String × Json) :=
  members.map fun m => (m.key, m.doc.value.pruned)

theorem value_array (gap : Gap) (items : List Item) :
    (Doc.array gap items).value.pruned = .array (items.map fun i => i.2.1.value.pruned) := by
  have each : prunedAll (valueItems items) = items.map fun i => i.2.1.value.pruned := by
    induction items with
    | nil => rfl
    | cons i rest ih => exact congrArg (_ :: ·) ih
  exact congrArg Json.array each

theorem prunedMembers_looks (members : List Member) : prunedMembers (valueMembers members) = looks members := by
  induction members with
  | nil => rfl
  | cons m rest ih => exact congrArg (_ :: ·) ih

theorem value_object (gap : Gap) (members : List Member) :
    (Doc.object gap members).value.pruned = .object (select (gathered (looks members))) := by
  have sorted : (Doc.object gap members).value = .object (gathered (valueMembers members)) := rfl
  rw [sorted, pruned, prunedMembers_gathered, prunedMembers_looks]

theorem ranged_array {gap : Gap} {items : List Item} :
    (Doc.array gap items).Ranged ↔ ∀ i ∈ items, i.2.1.Ranged := by
  change (∀ t ∈ tokensItems items, t.Ranged) ↔ _
  induction items with
  | nil => simp [tokensItems]
  | cons i rest ih =>
    rw [tokensItems, List.forall_mem_append, ih, List.forall_mem_cons]
    rfl

theorem ranged_object {gap : Gap} {members : List Member} :
    (Doc.object gap members).Ranged ↔ ∀ m ∈ members, m.doc.Ranged := by
  change (∀ t ∈ tokensMembers members, t.Ranged) ↔ _
  induction members with
  | nil => simp [tokensMembers]
  | cons m rest ih =>
    rw [tokensMembers, List.forall_mem_append, ih, List.forall_mem_cons]
    rfl

-- What a change keeps.
structure Same (d d' : Doc) : Prop where
  value : d.value.pruned = d'.value.pruned
  ranged : d.Ranged ↔ d'.Ranged

theorem looks_keys (members : List Member) : keys (looks members) = members.map Member.key := by
  simp [keys, looks]

theorem looks_perm {members members' : List Member} (perm : members.Perm members')
    (distinct : (members.map Member.key).Nodup) (k : String) :
    (looks members).reverse.lookup k = (looks members').reverse.lookup k := by
  have distinct' := (perm.map Member.key).nodup_iff.mp distinct
  rw [← looks_keys] at distinct distinct'
  rw [lookup_reverse distinct, lookup_reverse distinct']
  ext v
  rw [lookup_iff distinct, lookup_iff distinct']
  exact (perm.map _).mem_iff

-- One member more or less among others.
theorem looks_other {front back : List Member} {m : Member} {k : String} (other : k ≠ m.key) :
    (looks (front ++ m :: back)).reverse.lookup k = (looks (front ++ back)).reverse.lookup k := by
  simp only [looks, List.map_append, List.map_cons, List.reverse_append, List.reverse_cons, List.append_assoc,
    List.lookup_append]
  rw [show [(m.key, m.doc.value.pruned)].lookup k = none from lookup_away other]
  simp

theorem looks_replaced {front back : List Member} {m : Member} (replaced : m.key ∈ back.map Member.key) :
    (looks (front ++ m :: back)).reverse.lookup m.key = (looks (front ++ back)).reverse.lookup m.key := by
  have later : ∃ v, (looks back).reverse.lookup m.key = some v := by
    rw [← looks_keys] at replaced
    refine Option.ne_none_iff_exists'.mp fun none => ?_
    obtain ⟨found, inside, same⟩ := List.mem_map.mp replaced
    have away := List.lookup_eq_none_iff.mp none found (List.mem_reverse.mpr inside)
    exact bne_iff_ne.mp away same.symm
  obtain ⟨v, later⟩ := later
  simp only [looks, List.map_append, List.map_cons, List.reverse_append, List.reverse_cons, List.append_assoc,
    List.lookup_append] at later ⊢
  rw [later, Option.some_or, Option.some_or]

-- The kind of an object is seen in what is looked at.
theorem looks_kind {members : List Member} {k : Kind} (named : Named .inner (valueMembers members).reverse k) :
    Load.kindOf .inner (gathered (looks members)) = .ok k := by
  have tag : (gathered (looks members)).lookup "type" =
      ((valueMembers members).reverse.lookup "type").map pruned := by
    rw [← prunedMembers_looks, ← prunedMembers_gathered, prunedMembers_lookup, gathered_lookup]
  refine Load.named_kind ?_
  rcases named with found | ⟨_, n, found, numbered⟩
  · exact .inl (by rw [tag, found]; rfl)
  · exact .inr ⟨rfl, n, by rw [tag, found]; rfl, numbered⟩

theorem change_same {d d' : Doc} (change : Change Doc.Ranged d d') : Same d d' := by
  induction change with
  | arrayBlanks | objectBlanks => exact ⟨rfl, Iff.rfl⟩
  | itemBlanks gap front back =>
    refine ⟨?_, ?_⟩
    · simp only [value_array, List.map_append, List.map_cons]
    · simp only [ranged_array, List.forall_mem_append, List.forall_mem_cons]
  | memberBlanks gap front back l l' named =>
    have key : l.name.value = l'.name.value := congrArg Quoted.value named
    refine ⟨?_, ?_⟩
    · simp only [value_object, looks, List.map_append, List.map_cons, Member.key, Member.doc, key]
    · simp only [ranged_object, List.forall_mem_append, List.forall_mem_cons, Member.doc]
  | item gap front back before after _ same =>
    refine ⟨?_, ?_⟩
    · simp only [value_array, List.map_append, List.map_cons, same.value]
    · simp only [ranged_array, List.forall_mem_append, List.forall_mem_cons, same.ranged]
  | member gap front back l before after _ same =>
    refine ⟨?_, ?_⟩
    · simp only [value_object, looks, List.map_append, List.map_cons, Member.key, Member.doc, same.value]
    · simp only [ranged_object, List.forall_mem_append, List.forall_mem_cons, Member.doc, same.ranged]
  | permuted gap perm distinct =>
    refine ⟨?_, ?_⟩
    · rw [value_object, value_object, select_gathered fun k _ => looks_perm perm distinct k]
    · simp only [ranged_object, perm.mem_iff]
  | added gap front back m named other stranger new =>
    refine ⟨?_, ?_⟩
    · have known := looks_kind named
      rw [value_object, value_object, select_gathered fun k counted => ?_]
      refine (looks_other fun same => ?_).symm
      subst same
      simp [counts, known, other, stranger] at counted
    · simp only [ranged_object, List.forall_mem_append, List.forall_mem_cons, new, true_and]
  | dropped gap front back m replaced old =>
    refine ⟨?_, ?_⟩
    · rw [value_object, value_object, select_gathered fun k _ => ?_]
      by_cases here : k = m.key
      · exact here ▸ looks_replaced replaced
      · exact looks_other here
    · simp only [ranged_object, List.forall_mem_append, List.forall_mem_cons, old, true_and]

-- Any number of changes, made or undone.
theorem changes_same {d d' : Doc} (changes : Relation.EqvGen (Change Doc.Ranged) d d') : Same d d' := by
  induction changes with
  | rel d d' change => exact change_same change
  | refl d => exact ⟨rfl, Iff.rfl⟩
  | symm d d' _ same => exact ⟨same.value.symm, same.ranged.symm⟩
  | trans d d' d'' _ _ same same' => exact ⟨same.value.trans same'.value, same.ranged.trans same'.ranged⟩

end Doc
end Json

-- Two documents that differ by changes have the same nodes, or fail with the same message. With a number
-- out of range neither is read, and what the reader says of each may differ: it tells the place.
theorem load_rewritten {d d' : Json.Doc} {text text' : String} (words : String → String)
    (changes : Relation.EqvGen (Json.Doc.Change Json.Doc.Ranged) d d') (spelled : d.Spells text)
    (spelled' : d'.Spells text') (shallow : d.depth ≤ 127) (shallow' : d'.depth ≤ 127) :
    (d.Ranged → outcome (words text') (Node.load text') = outcome (words text) (Node.load text)) ∧
      (¬d.Ranged → Node.load text = .error (.json .syntaxError) ∧
        Node.load text' = .error (.json .syntaxError)) := by
  have same := Json.Doc.changes_same changes
  refine ⟨fun ranged => ?_, fun unranged => ?_⟩
  · rw [load_spelled spelled shallow ranged, load_spelled spelled' shallow' (same.ranged.mp ranged),
      ← loadValue_pruned d.value (words text), ← loadValue_pruned d'.value (words text), same.value]
  · have unranged' : ¬d'.Ranged := fun ranged' => unranged (same.ranged.mpr ranged')
    exact ⟨load_unranged spelled unranged, load_unranged spelled' unranged'⟩

section
open Json (Doc)

-- A circle with a note between its members, in either order.
def notedCircle (note : Doc) : Doc :=
  .object .none [kindEntry .circle, entry "note" note, entry "radius" (.number one)]

def turnedCircle (note : Doc) : Doc :=
  .object .none [entry "radius" (.number one), entry "note" note, kindEntry .circle]

-- The same circle with another radius in front.
def doubledCircle : Doc :=
  .object .none [entry "radius" (.number naught), kindEntry .circle, entry "radius" (.number one)]

def doubledText : String := "\x7b\"radius\":0,\"type\":\"circle\",\"radius\":1\x7d"

def turnedText : String := "\x7b\"radius\":1,\"note\":null,\"type\":\"circle\"\x7d"

theorem radius_dropped : Doc.Change Doc.Ranged doubledCircle (circleDoc one) := by
  have replaced : "radius" ∈ ["type", "radius"] := by decide
  have old : (Doc.number naught).Ranged := List.forall_mem_singleton.mpr nofun
  exact .dropped .none [] [_, _] (entry "radius" (.number naught)) replaced old

theorem note_added {P : Doc → Prop} {note : Doc} (new : P note) :
    Doc.Change P (circleDoc one) (notedCircle note) := by
  have other : "note" ≠ "type" := by decide
  have stranger : "note" ∉ ["radius"] := by decide
  exact .added .none [_] [_] (entry "note" note) (k := .circle) (.inl rfl) other stranger new

theorem note_turned {P : Doc → Prop} (note : Doc) : Doc.Change P (notedCircle note) (turnedCircle note) :=
  .permuted .none (List.reverse_perm _).symm (by decide : ["type", "note", "radius"].Nodup)

-- The reader has nothing to say of the two texts.
theorem load_rewritten_circle : Node.load doubledText = .ok [.shape (.circle 1.0)] ∧
    outcome "" (Node.load turnedText) = outcome "" (Node.load doubledText) := by
  have spelled : doubledCircle.Spells doubledText := ⟨.none, .none, rfl⟩
  have spelled' : (turnedCircle .null).Spells turnedText := ⟨.none, .none, rfl⟩
  have ranged : doubledCircle.Ranged := List.forall_mem_cons.mpr ⟨nofun, List.forall_mem_singleton.mpr nofun⟩
  have nothing : Doc.null.Ranged := nofun
  have noted := Relation.EqvGen.trans _ _ _ (.rel _ _ radius_dropped) (.rel _ _ (note_added nothing))
  have turned := Relation.EqvGen.trans _ _ _ noted (.rel _ _ (note_turned .null))
  refine ⟨?_, (load_rewritten (fun _ => "") turned spelled spelled' (by decide) (by decide)).1 ranged⟩
  rw [load_spelled spelled (by decide) ranged]
  rfl

def circleText : String := "\x7b\"type\":\"circle\",\"radius\":1\x7d"

def notedText : String := "\x7b\"type\":\"circle\",\"note\":1e400,\"radius\":1\x7d"

-- With a number out of range in the note, nothing is loaded.
theorem large_note_lost : Doc.Change (fun _ => True) (circleDoc one) (notedCircle (.number tooLarge)) ∧
    (circleDoc one).Spells circleText ∧ (circleDoc one).depth ≤ 127 ∧
    (notedCircle (.number tooLarge)).Spells notedText ∧ (notedCircle (.number tooLarge)).depth ≤ 127 ∧
    Node.load circleText = .ok [.shape (.circle 1.0)] ∧
    Node.load notedText = .error (.json .syntaxError) := by
  have spelled : (circleDoc one).Spells circleText := ⟨.none, .none, rfl⟩
  have spelled' : (notedCircle (.number tooLarge)).Spells notedText := ⟨.none, .none, rfl⟩
  have ranged : (circleDoc one).Ranged := List.forall_mem_singleton.mpr nofun
  have unranged : ¬(notedCircle (.number tooLarge)).Ranged :=
    fun all => all tooLarge List.mem_cons_self tooLarge_value
  refine ⟨note_added trivial, spelled, by decide, spelled', by decide, ?_, load_unranged spelled' unranged⟩
  rw [load_spelled spelled (by decide) ranged]
  rfl

end
end Solid
