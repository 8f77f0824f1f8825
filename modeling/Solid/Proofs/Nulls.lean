import Solid.Node.Json
import Solid.Proofs.Trees
import Solid.Proofs.Written
namespace Solid
namespace Json
open Decimal

def Single (run : List Char) : Prop := List.IsChain (fun c d => ¬(c = 'l' ∧ d = 'l')) run

instance (run : List Char) : Decidable (Single run) := inferInstanceAs (Decidable (List.IsChain _ run))

-- Runs that can stand behind one another.
def Steady (run : List Char) : Prop := Single run ∧ run.head? ≠ some 'l'

instance (run : List Char) : Decidable (Steady run) := inferInstanceAs (Decidable (_ ∧ _))

theorem steady_append {front back : List Char} (first : Steady front) (second : Steady back) :
    Steady (front ++ back) := by
  refine ⟨List.isChain_append.mpr ⟨first.1, second.1, ?_⟩, ?_⟩
  · rintro c _ d begins ⟨_, rfl⟩
    exact second.2 begins
  · cases front with
    | nil => exact second.2
    | cons c rest => exact first.2

theorem steady_cons {c : Char} {run : List Char} (other : c ≠ 'l') (steady : Steady run) :
    Steady (c :: run) := by
  have alone : Steady [c] := ⟨List.isChain_singleton c, by simpa using other⟩
  exact steady_append alone steady

theorem steady_other {run : List Char} (other : 'l' ∉ run) : Steady run := by
  induction run with
  | nil => exact ⟨List.isChain_nil, nofun⟩
  | cons c rest ih =>
    obtain ⟨first, others⟩ := not_or.mp (mt List.mem_cons.mpr other)
    exact steady_cons (Ne.symm first) (ih others)

theorem steady_null {run : List Char} (steady : Steady run) : ¬"null".toList <:+: run := by
  rintro ⟨front, back, rfl⟩
  have inside : Single "null".toList := steady.1.left_of_append.right_of_append
  exact absurd inside (by decide)

theorem spelling_steady {s : Spelling} (proper : s.Proper) : Steady s.text := by
  have run {digits : List Char} (all : ∀ c ∈ digits, isDigit c = true) : 'l' ∉ digits :=
    fun member => absurd (all _ member) (by decide)
  refine steady_other ?_
  have tail : 'l' ∉ s.tail := by
    unfold Spelling.tail
    split
    · simp
    · next shrinking exponent mark =>
      have digits := run (proper.mark shrinking exponent mark).2
      cases shrinking <;> simp [digits]
  have fraction : 'l' ∉ (if s.fraction = [] then [] else '.' :: s.fraction) := by
    split
    · simp
    · simp [run proper.fractionDigits]
  have sign : 'l' ∉ (if s.negative then ['-'] else []) := by cases s.negative <;> simp
  simp only [Spelling.text, Spelling.magnitude, List.mem_append, not_or]
  exact ⟨sign, ⟨run proper.wholeDigits, fraction⟩, tail⟩

theorem gap_steady (gap : Gap) : Steady gap.1 :=
  steady_other fun member => absurd (gap.2 _ member) (by decide)

-- Values whose text holds no null.
mutual

def Clean : Json → Prop
  | null => False
  | float x => x.isFinite
  | string s => Single (writeString s)
  | array items => CleanAll items
  | object members => CleanMembers members
  | bool _ | int _ => True

def CleanAll : List Json → Prop
  | [] => True
  | v :: rest => v.Clean ∧ CleanAll rest

def CleanMembers : List (String × Json) → Prop
  | [] => True
  | (key, v) :: rest => Single (writeString key) ∧ v.Clean ∧ CleanMembers rest

end

theorem written_steady {s : String} (single : Single (writeString s)) : Steady (writeString s) :=
  ⟨single, by simp [writeString]⟩

theorem label_steady {l : Label} (single : Single l.name.written) : Steady l.written := by
  have name : Steady l.name.written := ⟨single, by simp [Quoted.written]⟩
  exact steady_append (steady_append (steady_append (gap_steady _) name) (gap_steady _)) (by decide)

mutual

theorem doc_steady (s : Spacing) (v : Json) (level : Nat) (clean : v.Clean) : Steady (v.doc s level).text := by
  match v with
  | bool true => exact (by decide : Steady "true".toList)
  | bool false => exact (by decide : Steady "false".toList)
  | int n =>
    have text : ((int n).doc s level).text = (intSpelling n).text := int_text n
    rw [text]
    exact spelling_steady (int_proper n)
  | float x =>
    rw [float_text, json_characters clean]
    exact spelling_steady (spelling_proper _).1
  | string text => exact written_steady clean
  | array [] => exact (by decide : Steady "[]".toList)
  | array (item :: rest) =>
    rw [array_text]
    exact steady_append (steady_cons (by decide) (items_steady s (item :: rest) level clean)) (by decide)
  | object [] => exact (by decide : Steady "\x7b\x7d".toList)
  | object (m :: rest) =>
    rw [object_text]
    exact steady_append (steady_cons (by decide) (members_steady s (m :: rest) level clean)) (by decide)

theorem items_steady (s : Spacing) (items : List Json) (level : Nat) (clean : CleanAll items) :
    Steady (Doc.itemsText (docItems s level items)) := by
  match items with
  | [] => exact (by decide : Steady "".toList)
  | [v] =>
    have inner := doc_steady s v (level + 1) clean.1
    exact steady_append (steady_append (gap_steady _) inner) (gap_steady _)
  | v :: next :: rest =>
    have inner := doc_steady s v (level + 1) clean.1
    have others := items_steady s (next :: rest) level clean.2
    rw [docItems, itemsText_cons (docItems_filled _ _ _ _)]
    · exact steady_append (steady_append (steady_append (gap_steady _) inner) (gap_steady _))
        (steady_cons (by decide) others)
    · nofun

theorem members_steady (s : Spacing) (members : List (String × Json)) (level : Nat)
    (clean : CleanMembers members) : Steady (Doc.membersText (docMembers s level members)) := by
  match members with
  | [] => exact (by decide : Steady "".toList)
  | [(key, v)] =>
    have inner := doc_steady s v (level + 1) clean.2.1
    exact steady_append (steady_append (steady_append (label_steady clean.1) (gap_steady _)) inner) (gap_steady _)
  | (key, v) :: next :: rest =>
    have inner := doc_steady s v (level + 1) clean.2.1
    have others := members_steady s (next :: rest) level clean.2.2
    rw [docMembers, membersText_cons (docMembers_filled _ _ _ _)]
    · exact steady_append (steady_append (steady_append (steady_append (label_steady clean.1) (gap_steady _))
        inner) (gap_steady _)) (steady_cons (by decide) others)
    · nofun

end

theorem compact_clean {v : Json} (clean : v.Clean) : ¬"null".toList <:+: v.compact.toList := by
  have text : v.compact.toList = (v.doc .compact 0).text := by rw [doc_compact, compact, String.toList_ofList]
  rw [text]
  exact steady_null (doc_steady .compact v 0 clean)

theorem pretty_clean {v : Json} (clean : v.Clean) : ¬"null".toList <:+: v.pretty.toList := by
  have text : v.pretty.toList = (v.doc .pretty 0).text := by rw [doc_pretty, pretty, String.toList_ofList]
  rw [text]
  exact steady_null (doc_steady .pretty v 0 clean)

-- Without nulls every number is finite.
mutual

theorem clean_finite (v : Json) (clean : v.Clean) : ∀ x, .float x ∈ v.leaves → x.isFinite := by
  match v with
  | null => exact clean.elim
  | bool _ | int _ | string _ =>
    intro x member
    cases List.mem_singleton.mp member
  | float y =>
    intro x member
    cases List.mem_singleton.mp member
    exact clean
  | array items => exact cleanAll_finite items clean
  | object members => exact cleanMembers_finite members clean

theorem cleanAll_finite (items : List Json) (clean : CleanAll items) :
    ∀ x, .float x ∈ leavesAll items → x.isFinite := by
  match items with
  | [] => nofun
  | v :: rest =>
    intro x member
    rcases List.mem_append.mp member with inner | other
    · exact clean_finite v clean.1 x inner
    · exact cleanAll_finite rest clean.2 x other

theorem cleanMembers_finite (members : List (String × Json)) (clean : CleanMembers members) :
    ∀ x, .float x ∈ leavesMembers members → x.isFinite := by
  match members with
  | [] => nofun
  | (key, v) :: rest =>
    intro x member
    rcases List.mem_append.mp member with inner | other
    · exact clean_finite v clean.2.1 x inner
    · exact cleanMembers_finite rest clean.2.2 x other

end

theorem cleanAll_map {α : Type} {save : α → Json} {xs : List α} (clean : ∀ x ∈ xs, (save x).Clean) :
    CleanAll (xs.map save) := by
  induction xs with
  | nil => trivial
  | cons x rest ih =>
    obtain ⟨first, others⟩ := List.forall_mem_cons.mp clean
    exact ⟨first, ih others⟩

theorem cleanMembers_append {front back : List (String × Json)} (first : CleanMembers front)
    (second : CleanMembers back) : CleanMembers (front ++ back) := by
  induction front with
  | nil => exact second
  | cons m rest ih => exact ⟨first.1, first.2.1, ih first.2.2⟩

end Json

namespace Save
open Json

theorem pair_clean {p : Point2} (finite : p.Finite) : (pair p).Clean := ⟨finite.1, finite.2, trivial⟩

theorem triple_clean {p : Point3} (finite : p.Finite) : (triple p).Clean :=
  ⟨finite.1, finite.2.1, finite.2.2, trivial⟩

theorem triangle_clean (t : Triangle) : (triangle t).Clean := cleanAll_map fun _ _ => trivial

theorem quad_clean (q : Quad) : (quad q).Clean := cleanAll_map fun _ _ => trivial

theorem shape_clean {s : Shape} (valid : s.Valid) : CleanMembers (shape s) := by
  cases s with
  | circle r | sphere r => exact ⟨by decide, valid.1, trivial⟩
  | circleSector r a => exact ⟨by decide, valid.1.1, by decide, valid.2.1.1, trivial⟩
  | rectangle w h => exact ⟨by decide, valid.1.1, by decide, valid.2.1, trivial⟩
  | polygon points =>
    have pairs := cleanAll_map fun p member => pair_clean (valid.finite p member)
    exact ⟨by decide, pairs, trivial⟩
  | cube | cylinder =>
    exact ⟨by decide, valid.1.1, by decide, valid.2.1.1, by decide, valid.2.2.1, trivial⟩
  | polyhedron m =>
    have triples := cleanAll_map fun p member => triple_clean (valid.finite p member)
    have triangles : (list triangle m.triangles).Clean := cleanAll_map fun t _ => triangle_clean t
    have quads : (list quad m.quads).Clean := cleanAll_map fun q _ => quad_clean q
    exact ⟨by decide, triples, by decide, triangles, by decide, quads, trivial⟩

theorem transform_clean {t : Transform} (valid : t.Valid) : CleanMembers (transform t) := by
  cases t with
  | translate p => exact ⟨by decide, valid.1, by decide, valid.2.1, by decide, valid.2.2, trivial⟩
  | scale p => exact ⟨by decide, valid.1.1, by decide, valid.2.1.1, by decide, valid.2.2.1, trivial⟩
  | rotate degrees axes =>
    exact ⟨by decide, valid.1, by decide, triple_clean (axes_finite valid.2), trivial⟩
  | mirror axes => exact ⟨by decide, triple_clean (axes_finite valid), trivial⟩
  | linearExtrusion height twist => exact ⟨by decide, valid.1, by decide, valid.2, trivial⟩
  | rotateExtrusion => trivial

theorem layering_clean (c : Combination) : CleanMembers (layering c) := by
  unfold layering
  split
  · exact ⟨by decide, trivial, trivial⟩
  · trivial

end Save

namespace Node
open Json

theorem tagged_clean (kind : Kind) {members : List (String × Json)} (clean : CleanMembers members) :
    (tagged kind members).Clean := by
  have name : Single (writeString kind.name) := by cases kind <;> decide
  exact ⟨by decide, name, clean⟩

theorem node_clean {node : Node} (valid : node.Valid) : node.toJson.Clean := by
  induction node using Node.induction with
  | shape s =>
    rw [toJson]
    exact tagged_clean _ (Save.shape_clean (valid_shape.mp valid))
  | transform t item ih =>
    obtain ⟨own, inner⟩ := valid_transform.mp valid
    rw [toJson]
    exact tagged_clean _ (cleanMembers_append (Save.transform_clean own) ⟨by decide, ih inner, trivial⟩)
  | combine c items ih =>
    have each := (valid_combine.mp valid).2
    have all : CleanAll (listToJson items) := by
      rw [listToJson_map]
      exact cleanAll_map fun item member => ih item member (each item member)
    rw [toJson]
    exact tagged_clean _ ⟨by decide, all, Save.layering_clean c⟩

end Node

end Solid
