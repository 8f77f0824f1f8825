import Mathlib.Logic.Relation
import Solid.Proofs.Rewriting
namespace Solid

-- The members of a node that has these values for its first parameters, with its kind in front.
def Kind.entries {α : Type} (k : Kind) (tag : α) (values : List α) : List (String × α) :=
  ("type", tag) :: (k.fields.map Field.name).zip values

section
variable {α : Type}

theorem zip_names {names : List String} {values : List α} : ((names.zip values).map Prod.fst).Sublist names := by
  induction names generalizing values with
  | nil => exact List.Sublist.refl []
  | cons name rest ih =>
    cases values with
    | nil => exact List.nil_sublist _
    | cons v more => exact ih.cons_cons name

theorem type_away (k : Kind) : "type" ∉ k.fields.map Field.name := by
  intro member
  obtain ⟨f, field, named⟩ := List.mem_map.mp member
  exact Load.field_names k f field named

theorem entries_distinct (k : Kind) (tag : α) (values : List α) : ((k.entries tag values).map Prod.fst).Nodup := by
  apply List.nodup_cons.mpr
  constructor
  · intro member
    exact type_away k (zip_names.subset member)
  · exact (Load.fields_distinct k).sublist zip_names

theorem entries_map {β : Type} (g : α → β) (k : Kind) (tag : α) (values : List α) :
    (k.entries tag values).map (Prod.map id g) = k.entries (g tag) (values.map g) := by
  simp only [Kind.entries, List.map_cons, Prod.map_apply, id, List.zip_map_right]

end

-- A string or an object stands in it, bare or in an array of any depth.
inductive Json.Worded : Json → Prop
  | string (s : String) : Worded (.string s)
  | object (members : List (String × Json)) : Worded (.object members)
  | item {items : List Json} {v : Json} (member : v ∈ items) (inner : Worded v) : Worded (.array items)

namespace Load
open Json (keys ofMembers gathered)

section
variable {k : Kind} {position : Position} {node : Node} {vs : List Json}

theorem fallbacks_stored {fields : List Field} {record : Record fields} :
    Record.fallbacks fields = .ok record ↔ Stored [] fields record := by
  induction fields with
  | nil => simp [Record.fallbacks, Stored]
  | cons f fields ih =>
    obtain ⟨x, more⟩ := record
    simp only [Stored, List.lookup_nil, ← ih, Record.fallbacks]
    cases f.fallback with
    | none => simp
    | some y =>
      cases Record.fallbacks fields <;> simp

theorem stored_same {fields : List Field} {record : Record fields} {members others : List (String × Json)}
    (same : ∀ f ∈ fields, members.lookup f.name = others.lookup f.name) :
    Stored members fields record ↔ Stored others fields record := by
  constructor
  · exact stored_congr fun f field => (same f field).symm
  · exact stored_congr same

-- A member of another name is not looked at.
theorem stored_away {fields : List Field} {record : Record fields} {key : String} {v : Json}
    {members : List (String × Json)} (other : key ∉ fields.map Field.name) :
    Stored ((key, v) :: members) fields record ↔ Stored members fields record := by
  apply stored_same
  intro f field
  exact Json.lookup_away fun here => other (here ▸ List.mem_map_of_mem field)

-- Reading by position stores what the members of the same names store.
theorem row_stored {fields : List Field} (distinct : (fields.map Field.name).Nodup)
    (fits : vs.length ≤ fields.length) {before : Nat} {record : Record fields} :
    row k before fields vs = .ok record ↔ Stored ((fields.map Field.name).zip vs) fields record := by
  induction fields generalizing vs before with
  | nil =>
    cases List.length_eq_zero_iff.mp (Nat.le_zero.mp fits)
    simp [row, mapError_ok, Record.fallbacks, Stored]
  | cons f fields ih =>
    cases vs with
    | nil => rw [row, mapError_ok, fallbacks_stored, List.zip_nil_right]
    | cons v vs =>
      obtain ⟨x, more⟩ := record
      obtain ⟨fresh, others⟩ := List.nodup_cons.mp distinct
      have later := @ih vs others (Nat.le_of_succ_le_succ fits) (before + 1) more
      have read : Stored ((f.name, v) :: (fields.map Field.name).zip vs) (f :: fields) (x, more) ↔
          value .inner f.type v = .ok x ∧ Stored ((fields.map Field.name).zip vs) fields more := by
        simp only [Stored, List.lookup_cons_self, stored_away fresh]
      rw [List.map_cons, List.zip_cons_cons, read, ← later]
      simp only [row, bind_ok]
      constructor
      · intro loaded
        obtain ⟨y, own, rest, further, same⟩ := loaded
        cases same
        exact ⟨own, further⟩
      · intro known
        obtain ⟨own, further⟩ := known
        exact ⟨x, own, more, further, rfl⟩

theorem named_loaded : value position .node (ofMembers (k.entries (.string k.name) vs)) = .ok node ↔
    ∃ record, Stored ((k.fields.map Field.name).zip vs) k.fields record ∧ build k record = .ok node := by
  have found := Json.gathered_distinct (entries_distinct k (.string k.name) vs)
  have known : kindOf position (gathered (k.entries (.string k.name) vs)) = .ok k :=
    kindOf_name position ((found "type").trans List.lookup_cons_self)
  have stored {record : Record k.fields} : Stored (gathered (k.entries (.string k.name) vs)) k.fields record ↔
      Stored ((k.fields.map Field.name).zip vs) k.fields record :=
    (stored_same fun f _ => found f.name).trans (stored_away (type_away k))
  change value position .node (.object (gathered (k.entries (.string k.name) vs))) = .ok node ↔ _
  rw [object_loaded (Json.gathered_nodup _)]
  simp only [← stored]
  constructor
  · intro loaded
    obtain ⟨k', known', record, stored, built⟩ := loaded
    cases Except.ok.inj (known.symm.trans known')
    exact ⟨record, stored, built⟩
  · intro loaded
    exact ⟨k, known, loaded⟩

theorem positional_loaded (fits : vs.length ≤ k.fields.length) :
    value position .node (.array (.string k.name :: vs)) = .ok node ↔
      ∃ record, Stored ((k.fields.map Field.name).zip vs) k.fields record ∧ build k record = .ok node := by
  have known : kind position (.string k.name) = .ok k := by
    cases position <;> simp only [kind, named_name]
  simp only [value, known, bind_ok, Except.ok.injEq, exists_eq_left', row_stored (fields_distinct k) fits]

theorem forms_loaded (fits : vs.length ≤ k.fields.length) :
    value position .node (.array (.string k.name :: vs)) = .ok node ↔
      value position .node (ofMembers (k.entries (.string k.name) vs)) = .ok node :=
  (positional_loaded fits).trans named_loaded.symm

end

-- Numbers, and lists of them, are read from nothing else.
def Wordless {α : Type} (read : Json → Except DataError α) : Prop := ∀ v x, read v = .ok x → ¬v.Worded

section
variable {α : Type} {read : Json → Except DataError α} {items : List Json}

theorem number_wordless : Wordless number := by
  intro v x loaded worded
  cases worded <;> cases loaded

theorem index_wordless : Wordless index := by
  intro v x loaded worded
  cases worded <;> cases loaded

theorem flag_wordless : Wordless flag := by
  intro v x loaded worded
  cases worded <;> cases loaded

theorem each_wordless (wordless : Wordless read) {xs : List α} (loaded : each read items = .ok xs) :
    ∀ v ∈ items, ¬v.Worded := by
  induction items generalizing xs with
  | nil => nofun
  | cons v rest ih =>
    simp only [each, bind_ok] at loaded
    obtain ⟨x, own, more, later, _⟩ := loaded
    exact List.forall_mem_cons.mpr ⟨wordless v x own, ih later⟩

theorem sequence_wordless (wordless : Wordless read) : Wordless (sequence read) := by
  intro v xs loaded worded
  cases worded with
  | string | object => cases loaded
  | item member inner => exact each_wordless wordless loaded _ member inner

-- A row whose places could all be read and that has no more of them.
theorem places_wordless (wordless : Wordless read) {width : Nat}
    (places : ∀ i < width, ∃ x, place read width items i = .ok x) (fitting : fits width items = .ok ()) :
    ∀ v ∈ items, ¬v.Worded := by
  intro v member
  obtain ⟨i, inside, rfl⟩ := List.getElem_of_mem member
  have narrow : items.length ≤ width := by
    by_contra long
    rw [fits, if_pos (Nat.not_le.mp long)] at fitting
    cases fitting
  obtain ⟨x, loaded⟩ := places i (Nat.lt_of_lt_of_le inside narrow)
  simp only [place, List.getElem?_eq_getElem inside] at loaded
  exact wordless _ x loaded

theorem pair_wordless : Wordless pair := by
  intro v p loaded worded
  cases worded with
  | string | object => cases loaded
  | item member inner =>
    simp only [pair, bind_ok] at loaded
    obtain ⟨x, first, y, second, _, fitting, _⟩ := loaded
    refine places_wordless number_wordless (fun i small => ?_) fitting _ member inner
    interval_cases i
    · exact ⟨x, first⟩
    · exact ⟨y, second⟩

theorem triple_wordless : Wordless triple := by
  intro v p loaded worded
  cases worded with
  | string | object => cases loaded
  | item member inner =>
    simp only [triple, bind_ok] at loaded
    obtain ⟨x, first, y, second, z, third, _, fitting, _⟩ := loaded
    refine places_wordless number_wordless (fun i small => ?_) fitting _ member inner
    interval_cases i
    · exact ⟨x, first⟩
    · exact ⟨y, second⟩
    · exact ⟨z, third⟩

theorem triangle_wordless : Wordless triangle := by
  intro v t loaded worded
  cases worded with
  | string | object => cases loaded
  | item member inner =>
    simp only [triangle, bind_ok] at loaded
    obtain ⟨a, first, b, second, c, third, _, fitting, _⟩ := loaded
    refine places_wordless index_wordless (fun i small => ?_) fitting _ member inner
    interval_cases i
    · exact ⟨a, first⟩
    · exact ⟨b, second⟩
    · exact ⟨c, third⟩

theorem quad_wordless : Wordless quad := by
  intro v q loaded worded
  cases worded with
  | string | object => cases loaded
  | item member inner =>
    simp only [quad, bind_ok] at loaded
    obtain ⟨a, first, b, second, c, third, d, fourth, _, fitting, _⟩ := loaded
    refine places_wordless index_wordless (fun i small => ?_) fitting _ member inner
    interval_cases i
    · exact ⟨a, first⟩
    · exact ⟨b, second⟩
    · exact ⟨c, third⟩
    · exact ⟨d, fourth⟩

end

-- Two values that are nowhere told apart by what is loaded from them. Neither is the name of a kind.
structure Exchanged (v w : Json) : Prop where
  worded : v.Worded ∧ w.Worded
  unnamed : ∀ position k, kind position v ≠ .ok k ∧ kind position w ≠ .ok k
  node : ∀ position node, value position .node v = .ok node ↔ value position .node w = .ok node
  nodes : ∀ position nodes, value position .nodes v = .ok nodes ↔ value position .nodes w = .ok nodes

section
variable {v w : Json}

theorem exchanged_plain (exchanged : Exchanged v w) {α : Type} {read : Json → Except DataError α}
    (wordless : Wordless read) {x : α} : read v = .ok x ↔ read w = .ok x :=
  iff_of_false (fun loaded => wordless v x loaded exchanged.worded.1)
    (fun loaded => wordless w x loaded exchanged.worded.2)

theorem exchanged_value (exchanged : Exchanged v w) (position : Position) (t : FieldType) (x : t.Value) :
    value position t v = .ok x ↔ value position t w = .ok x := by
  cases t with
  | node => exact exchanged.node position x
  | nodes => exact exchanged.nodes position x
  | number =>
    rw [value, value]
    exact exchanged_plain exchanged number_wordless
  | flag =>
    rw [value, value]
    exact exchanged_plain exchanged flag_wordless
  | numbers =>
    rw [value, value]
    exact exchanged_plain exchanged (sequence_wordless number_wordless)
  | pairs =>
    rw [value, value]
    exact exchanged_plain exchanged (sequence_wordless pair_wordless)
  | triples =>
    rw [value, value]
    exact exchanged_plain exchanged (sequence_wordless triple_wordless)
  | triangles =>
    rw [value, value]
    exact exchanged_plain exchanged (sequence_wordless triangle_wordless)
  | quads =>
    rw [value, value]
    exact exchanged_plain exchanged (sequence_wordless quad_wordless)

theorem forms_exchanged {k : Kind} {vs : List Json} (fits : vs.length ≤ k.fields.length) :
    Exchanged (.array (.string k.name :: vs)) (ofMembers (k.entries (.string k.name) vs)) where
  worded := ⟨.item List.mem_cons_self (.string _), .object _⟩
  unnamed position k := by
    cases position <;> exact ⟨nofun, nofun⟩
  node _ _ := forms_loaded fits
  nodes position list := by
    apply iff_of_false
    · intro loaded
      cases position <;> cases loaded
    · intro loaded
      cases position <;> cases loaded

theorem row_full {k : Kind} {before : Nat} {rest : List Json} {record : Record []} :
    row k before [] (v :: rest) ≠ .ok record := by
  intro loaded
  cases loaded

-- An array of parameters goes on in the same way behind the value.
theorem exchanged_row (exchanged : Exchanged v w) (k : Kind) (front back : List Json) (fields : List Field)
    (before : Nat) (record : Record fields) : row k before fields (front ++ v :: back) = .ok record ↔
      row k before fields (front ++ w :: back) = .ok record := by
  induction front generalizing fields before with
  | nil =>
    cases fields with
    | nil => exact iff_of_false row_full row_full
    | cons f fields => simp only [List.nil_append, row, bind_ok, exchanged_value exchanged]
  | cons u front ih =>
    cases fields with
    | nil => exact iff_of_false row_full row_full
    | cons f fields => simp only [List.cons_append, row, bind_ok, ih]

theorem exchanged_nodes (exchanged : Exchanged v w) (position : Position) (front back : List Json)
    (list : List Node) : nodes position (front ++ v :: back) = .ok list ↔
      nodes position (front ++ w :: back) = .ok list := by
  induction front generalizing list with
  | nil => simp only [List.nil_append, nodes, bind_ok, exchanged.node]
  | cons u front ih => simp only [List.cons_append, nodes, bind_ok, ih]

theorem exchanged_array (exchanged : Exchanged v w) (front back : List Json) :
    Exchanged (.array (front ++ v :: back)) (.array (front ++ w :: back)) where
  worded := by
    have inside (u : Json) : u ∈ front ++ u :: back := List.mem_append_right _ List.mem_cons_self
    exact ⟨.item (inside v) exchanged.worded.1, .item (inside w) exchanged.worded.2⟩
  unnamed position k := by
    cases position <;> exact ⟨nofun, nofun⟩
  node position node := by
    cases front with
    | nil =>
      simp only [List.nil_append, value, bind_ok]
      constructor
      · intro loaded
        obtain ⟨k, named, _⟩ := loaded
        exact absurd named (exchanged.unnamed position k).1
      · intro loaded
        obtain ⟨k, named, _⟩ := loaded
        exact absurd named (exchanged.unnamed position k).2
    | cons tag front => simp only [List.cons_append, value, bind_ok, exchanged_row exchanged]
  nodes position list := by
    rw [value, value]
    exact exchanged_nodes exchanged position front back list

-- The same is found under every key, or else the one value and the other.
def Agree (members others : List (String × Json)) : Prop :=
  ∀ key, members.lookup key = others.lookup key ∨
    ∃ v w, Exchanged v w ∧ members.lookup key = some v ∧ others.lookup key = some w

theorem agree_kind {members others : List (String × Json)} (agree : Agree members others) (position : Position)
    (k : Kind) : kindOf position members = .ok k ↔ kindOf position others = .ok k := by
  unfold kindOf
  rcases agree "type" with same | ⟨v, w, exchanged, found, found'⟩
  · rw [same]
  · rw [found, found']
    exact iff_of_false (exchanged.unnamed position k).1 (exchanged.unnamed position k).2

theorem agree_stored {members others : List (String × Json)} (agree : Agree members others) {fields : List Field}
    {record : Record fields} : Stored members fields record ↔ Stored others fields record := by
  induction fields with
  | nil => exact Iff.rfl
  | cons f fields ih =>
    obtain ⟨x, more⟩ := record
    simp only [Stored, ih]
    rcases agree f.name with same | ⟨v, w, exchanged, found, found'⟩
    · rw [same]
    · simp only [found, found', exchanged_value exchanged]

theorem exchanged_object {members others : List (String × Json)} (distinct : (keys members).Nodup)
    (distinct' : (keys others).Nodup) (agree : Agree members others) :
    Exchanged (.object members) (.object others) where
  worded := ⟨.object _, .object _⟩
  unnamed position k := by
    cases position <;> exact ⟨nofun, nofun⟩
  node position node := by
    simp only [object_loaded distinct, object_loaded distinct', agree_kind agree, agree_stored agree]
  nodes position list := iff_of_false nofun nofun

theorem exchanged_member (exchanged : Exchanged v w) (front back : List (String × Json)) (key : String) :
    Exchanged (ofMembers (front ++ (key, v) :: back)) (ofMembers (front ++ (key, w) :: back)) := by
  refine exchanged_object (Json.gathered_nodup _) (Json.gathered_nodup _) fun key' => ?_
  change (gathered (front ++ (key, v) :: back)).lookup key' = (gathered (front ++ (key, w) :: back)).lookup key' ∨
    ∃ v w, Exchanged v w ∧ (gathered _).lookup key' = some v ∧ (gathered _).lookup key' = some w
  simp only [Json.gathered_lookup, List.reverse_append, List.reverse_cons, List.append_assoc, List.lookup_append]
  cases back.reverse.lookup key' with
  | some u => exact .inl rfl
  | none =>
    by_cases here : key' = key
    · subst here
      exact .inr ⟨v, w, exchanged, by simp, by simp⟩
    · have away (u : Json) : [(key, u)].lookup key' = none := Json.lookup_away here
      rw [away, away]
      exact .inl rfl

end

end Load

namespace Json

theorem ofMembers_gathered (members : List (String × Json)) : ofMembers members = .object (gathered members) := rfl

theorem gathered_perm {members others : List (String × Json)} (distinct : (keys members).Nodup)
    (perm : members.Perm others) : gathered members = gathered others := by
  have distinct' : (keys others).Nodup := (perm.map Prod.fst).nodup_iff.mp distinct
  apply increasing_ext (gathered_increasing members) (gathered_increasing others)
  intro key
  rw [gathered_distinct distinct, gathered_distinct distinct']
  ext v
  rw [lookup_iff distinct, lookup_iff distinct', perm.mem_iff]

namespace Doc

-- A node of a kind with these values for its first parameters, by position.
def Positional (k : Kind) (values : List Doc) (d : Doc) : Prop :=
  ∃ (gap : Gap) (items : List Item) (tag : Quoted), d = .array gap items ∧ tag.value = k.name ∧
    items.map (fun i => i.2.1) = .string tag :: values

-- The same by name. The members may stand in any order.
def Keyed (k : Kind) (values : List Doc) (d : Doc) : Prop :=
  ∃ (gap : Gap) (members : List Member) (tag : Quoted), d = .object gap members ∧ tag.value = k.name ∧
    (members.map fun m => (Member.key m, Member.doc m)).Perm (k.entries (.string tag) values)

def TwoForms (d d' : Doc) : Prop :=
  ∃ (k : Kind) (values : List Doc), values.length ≤ k.fields.length ∧ Positional k values d ∧ Keyed k values d'

-- One node inside an array or an object is given by name instead of by position.
inductive Recast : Doc → Doc → Prop
  | item (gap : Gap) (front back : List Item) (before : Gap) {d d' : Doc} (after : Gap) (forms : TwoForms d d') :
    Recast (.array gap (front ++ (before, d, after) :: back)) (.array gap (front ++ (before, d', after) :: back))
  | member (gap : Gap) (front back : List Member) (l : Label) (before : Gap) {d d' : Doc} (after : Gap)
      (forms : TwoForms d d') :
    Recast (.object gap (front ++ (l, before, d, after) :: back))
      (.object gap (front ++ (l, before, d', after) :: back))
  | insideItem (gap : Gap) (front back : List Item) (before : Gap) {d d' : Doc} (after : Gap)
      (inner : Recast d d') :
    Recast (.array gap (front ++ (before, d, after) :: back)) (.array gap (front ++ (before, d', after) :: back))
  | insideMember (gap : Gap) (front back : List Member) (l : Label) (before : Gap) {d d' : Doc} (after : Gap)
      (inner : Recast d d') :
    Recast (.object gap (front ++ (l, before, d, after) :: back))
      (.object gap (front ++ (l, before, d', after) :: back))

theorem array_value (gap : Gap) (items : List Item) :
    (Doc.array gap items).value = .array (items.map fun i => i.2.1.value) := by
  have each : valueItems items = items.map fun i => i.2.1.value := by
    induction items with
    | nil => rfl
    | cons i rest ih => exact congrArg (_ :: ·) ih
  exact congrArg Json.array each

theorem object_value (gap : Gap) (members : List Member) :
    (Doc.object gap members).value = ofMembers (members.map fun m => (m.key, m.doc.value)) := by
  have each : valueMembers members = members.map fun m => (m.key, m.doc.value) := by
    induction members with
    | nil => rfl
    | cons m rest ih => exact congrArg (_ :: ·) ih
  exact congrArg ofMembers each

theorem array_depth {gap : Gap} {items : List Item} {room : Nat} :
    (Doc.array gap items).depth ≤ room ↔ 1 ≤ room ∧ ∀ i ∈ items, i.2.1.depth ≤ room - 1 := by
  have inner {room : Nat} : depthItems items ≤ room ↔ ∀ i ∈ items, i.2.1.depth ≤ room := by
    induction items with
    | nil => simp [depthItems]
    | cons i rest ih => rw [depthItems, Nat.max_le, ih, List.forall_mem_cons]
  rw [depth, ← inner]
  omega

theorem object_depth {gap : Gap} {members : List Member} {room : Nat} :
    (Doc.object gap members).depth ≤ room ↔ 1 ≤ room ∧ ∀ m ∈ members, m.doc.depth ≤ room - 1 := by
  have inner {room : Nat} : depthMembers members ≤ room ↔ ∀ m ∈ members, m.doc.depth ≤ room := by
    induction members with
    | nil => simp [depthMembers]
    | cons m rest ih =>
      rw [depthMembers, Nat.max_le, ih, List.forall_mem_cons]
      rfl
  rw [depth, ← inner]
  omega

-- What the exchange of a part leaves as it is.
structure Preserved (d d' : Doc) : Prop where
  value : Load.Exchanged d.value d'.value
  ranged : d.Ranged ↔ d'.Ranged
  depth : ∀ room, d.depth ≤ room ↔ d'.depth ≤ room

section
variable {d d' : Doc}

-- Both forms have the same parts, the tags apart.
theorem forms_parts {k : Kind} {values : List Doc} (fits : values.length ≤ k.fields.length) {items : List Item}
    {members : List Member} {tag tag' : Quoted} (positional : items.map (fun i => i.2.1) = .string tag :: values)
    (keyed : (members.map fun m => (Member.key m, Member.doc m)).Perm (k.entries (.string tag') values))
    {P : Doc → Prop} (free : ∀ q, P (.string q)) : (∀ i ∈ items, P i.2.1) ↔ ∀ m ∈ members, P (Member.doc m) := by
  have first : (∀ i ∈ items, P i.2.1) ↔ ∀ d ∈ values, P d := by
    rw [← List.forall_mem_map (f := fun i : Item => i.2.1) (P := P), positional, List.forall_mem_cons]
    exact and_iff_right (free tag)
  have inner : (members.map Member.doc).Perm (.string tag' :: values) := by
    have docs := keyed.map Prod.snd
    rw [List.map_map, Kind.entries, List.map_cons, List.map_snd_zip (by simpa using fits)] at docs
    exact docs
  have second : (∀ m ∈ members, P (Member.doc m)) ↔ ∀ d ∈ values, P d := by
    rw [← List.forall_mem_map (f := Member.doc) (P := P)]
    simp only [inner.mem_iff]
    rw [List.forall_mem_cons]
    exact and_iff_right (free tag')
  exact first.trans second.symm

theorem forms_preserved (forms : TwoForms d d') : Preserved d d' := by
  obtain ⟨k, values, fits, positional, keyed⟩ := forms
  obtain ⟨gap, items, tag, rfl, kind, positional⟩ := positional
  obtain ⟨gap', members, tag', rfl, kind', keyed⟩ := keyed
  constructor
  · have row : items.map (fun i => i.2.1.value) = .string k.name :: values.map Doc.value := by
      have inner := congrArg (List.map Doc.value) positional
      rw [List.map_map, List.map_cons, Doc.value, kind] at inner
      exact inner
    have entries : (members.map fun m => (Member.key m, (Member.doc m).value)).Perm
        (k.entries (.string k.name) (values.map Doc.value)) := by
      have inner := keyed.map (Prod.map id Doc.value)
      rw [entries_map, List.map_map, Doc.value, kind'] at inner
      exact inner
    have distinct := entries_distinct k (.string k.name) (values.map Doc.value)
    rw [array_value, row, object_value, ofMembers_gathered, ← gathered_perm distinct entries.symm]
    exact Load.forms_exchanged (by simpa using fits)
  · rw [ranged_array, ranged_object]
    exact forms_parts fits positional keyed fun q => nofun
  · intro room
    rw [array_depth, object_depth]
    have parts := forms_parts (P := fun d => d.depth ≤ room - 1) fits positional keyed fun q => Nat.zero_le _
    exact and_congr_right fun _ => parts

theorem item_preserved (same : Preserved d d') (gap : Gap) (front back : List Item) (before after : Gap) :
    Preserved (.array gap (front ++ (before, d, after) :: back)) (.array gap (front ++ (before, d', after) :: back)) where
  value := by
    simp only [array_value, List.map_append, List.map_cons]
    exact Load.exchanged_array same.value _ _
  ranged := by
    simp only [ranged_array, List.forall_mem_append, List.forall_mem_cons, same.ranged]
  depth room := by
    simp only [array_depth, List.forall_mem_append, List.forall_mem_cons, same.depth]

theorem member_preserved (same : Preserved d d') (gap : Gap) (front back : List Member) (l : Label) (before after : Gap) :
    Preserved (.object gap (front ++ (l, before, d, after) :: back))
      (.object gap (front ++ (l, before, d', after) :: back)) where
  value := by
    simp only [object_value, List.map_append, List.map_cons]
    exact Load.exchanged_member same.value _ _ _
  ranged := by
    simp only [ranged_object, List.forall_mem_append, List.forall_mem_cons, Member.doc, same.ranged]
  depth room := by
    simp only [object_depth, List.forall_mem_append, List.forall_mem_cons, Member.doc, same.depth]

theorem recast_preserved (recast : Recast d d') : Preserved d d' := by
  induction recast with
  | item gap front back before after forms => exact item_preserved (forms_preserved forms) gap front back before after
  | member gap front back l before after forms =>
    exact member_preserved (forms_preserved forms) gap front back l before after
  | insideItem gap front back before after _ ih => exact item_preserved ih gap front back before after
  | insideMember gap front back l before after _ ih => exact member_preserved ih gap front back l before after

end

end Doc
end Json

section
open Json (Doc)
variable {d d' : Doc}

theorem loadValue_array {items : List Json} {list : List Node} :
    Node.loadValue (.array items) = .ok list ↔ Load.value .outer .nodes (.array items) = .ok list := by
  rw [Node.loadValue, mapError_ok, Load.value]

theorem loadValue_object {members : List (String × Json)} {list : List Node} :
    Node.loadValue (.object members) = .ok list ↔
      ∃ node, Load.value .outer .node (.object members) = .ok node ∧ [node] = list := by
  simp only [Node.loadValue, mapError_ok, map_ok, Node.ofJson]

theorem recast_loaded (recast : Doc.Recast d d') (list : List Node) :
    Node.loadValue d.value = .ok list ↔ Node.loadValue d'.value = .ok list := by
  have kept := (Doc.recast_preserved recast).value
  cases recast with
  | item | insideItem =>
    rw [Doc.array_value, Doc.array_value] at kept ⊢
    rw [loadValue_array, loadValue_array]
    exact kept.nodes .outer list
  | member | insideMember =>
    rw [Doc.object_value, Doc.object_value, Json.ofMembers_gathered, Json.ofMembers_gathered] at kept ⊢
    simp only [loadValue_object, kept.node]

-- Any number of nodes, given the one way or the other.
theorem recasts_loaded (recasts : Relation.EqvGen Doc.Recast d d') (list : List Node) :
    (d.depth ≤ 127 ∧ d.Ranged ∧ Node.loadValue d.value = .ok list) ↔
      d'.depth ≤ 127 ∧ d'.Ranged ∧ Node.loadValue d'.value = .ok list := by
  induction recasts with
  | rel d d' recast =>
    have kept := Doc.recast_preserved recast
    rw [kept.depth, kept.ranged, recast_loaded recast]
  | refl d => exact Iff.rfl
  | symm d d' _ ih => exact ih.symm
  | trans d d' d'' _ _ ih ih' => exact ih.trans ih'

end

open Json (Doc ofMembers)

-- The two forms of a node are loaded alike where a node is expected, and a document is loaded alike
-- whichever of its inner nodes have the one form or the other.
theorem load_recast :
    (∀ (position : Position) (k : Kind) (vs : List Json), vs.length ≤ k.fields.length → ∀ node,
      Load.value position .node (.array (.string k.name :: vs)) = .ok node ↔
        Load.value position .node (ofMembers (k.entries (.string k.name) vs)) = .ok node) ∧
    ∀ (d d' : Doc) (text text' : String), Relation.EqvGen Doc.Recast d d' → d.Spells text → d'.Spells text' →
      ∀ list, Node.load text = .ok list ↔ Node.load text' = .ok list := by
  constructor
  · intro position k vs fits node
    exact Load.forms_loaded fits
  · intro d d' text text' recasts spelled spelled' list
    rw [load_iff spelled, load_iff spelled']
    exact recasts_loaded recasts list

-- A union of two circles, all by position, and the same with only the second circle left so.
def rowCircle : Doc :=
  .array .none [(.none, .string (Json.quoted "circle"), .none), (.none, .number one, .none)]

def unionRow (first : Doc) : Doc :=
  .array .none [(.none, .string (Json.quoted "union"), .none),
    (.none, .array .none [(.none, first, .none), (.none, rowCircle, .none)], .none)]

def turnedUnion (first : Doc) : Doc :=
  .object .none [entry "items" (.array .none [(.none, first, .none), (.none, rowCircle, .none)]), kindEntry .union]

def rowText : String := "[[\"union\",[[\"circle\",1],[\"circle\",1]]]]"

def mixedText : String :=
  "[\x7b\"items\":[\x7b\"type\":\"circle\",\"radius\":1\x7d,[\"circle\",1]],\"type\":\"union\"\x7d]"

def twins : Node := .combine (.union false) [.shape (.circle 1.0), .shape (.circle 1.0)]

theorem load_recast_twins : Load.value .inner .node (.array [.string "circle", .int 1]) = .ok (.shape (.circle 1.0)) ∧
    Load.value .inner .node (ofMembers [("type", .string "circle"), ("radius", .int 1)]) =
      .ok (.shape (.circle 1.0)) ∧
    Node.load rowText = .ok [twins] ∧ Node.load mixedText = .ok [twins] := by
  have single : Load.value .inner .node (.array [.string "circle", .int 1]) = .ok (.shape (.circle 1.0)) := rfl
  have circle : Doc.TwoForms rowCircle (circleDoc one) :=
    ⟨.circle, [.number one], Nat.le_refl 1, ⟨_, _, Json.quoted "circle", rfl, rfl, rfl⟩,
      ⟨_, _, Json.quoted "circle", rfl, rfl, .refl _⟩⟩
  have union : Doc.TwoForms (unionRow (circleDoc one)) (turnedUnion (circleDoc one)) :=
    ⟨.union, [_], by decide, ⟨_, _, Json.quoted "union", rfl, rfl, rfl⟩,
      ⟨_, _, Json.quoted "union", rfl, rfl, .swap _ _ _⟩⟩
  have first : Doc.Recast (.array .none [(.none, unionRow rowCircle, .none)])
      (.array .none [(.none, unionRow (circleDoc one), .none)]) :=
    .insideItem _ [] [] _ _ (.insideItem _ [_] [] _ _ (.item _ [] [_] _ _ circle))
  have second : Doc.Recast (.array .none [(.none, unionRow (circleDoc one), .none)])
      (.array .none [(.none, turnedUnion (circleDoc one), .none)]) :=
    .item _ [] [] _ _ union
  have spelled : (Doc.array .none [(.none, unionRow rowCircle, .none)]).Spells rowText := ⟨.none, .none, rfl⟩
  have spelled' : (Doc.array .none [(.none, turnedUnion (circleDoc one), .none)]).Spells mixedText :=
    ⟨.none, .none, rfl⟩
  have ranged : (Doc.array .none [(.none, unionRow rowCircle, .none)]).Ranged :=
    List.forall_mem_cons.mpr ⟨nofun, List.forall_mem_singleton.mpr nofun⟩
  have loaded : Node.load rowText = .ok [twins] := by
    rw [load_spelled spelled (by decide) ranged]
    rfl
  refine ⟨single, (load_recast.1 .inner .circle [.int 1] (Nat.le_refl 1) _).mp single, loaded, ?_⟩
  exact (load_recast.2 _ _ _ _ (.trans _ _ _ (.rel _ _ first) (.rel _ _ second)) spelled spelled' _).mp loaded

end Solid
