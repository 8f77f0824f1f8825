import Solid.Node.Json
import Solid.Proofs.Checks
namespace Solid

namespace Json

def keys (members : List (String × Json)) : List String := members.map Prod.fst

theorem lookup_away {key k : String} {v : Json} {rest : List (String × Json)} (away : k ≠ key) :
    ((key, v) :: rest).lookup k = rest.lookup k := by
  rw [List.lookup_cons, beq_false_of_ne away]

theorem mem_lookup {members : List (String × Json)} {k : String} {v : Json} (found : members.lookup k = some v) :
    (k, v) ∈ members := by
  obtain ⟨front, back, rfl, _⟩ := List.lookup_eq_some_iff.mp found
  simp

theorem insert_lookup (key : String) (v : Json) (members : List (String × Json)) (k : String) :
    (insert key v members).lookup k = if k = key then some v else members.lookup k := by
  induction members with
  | nil =>
    by_cases same : k = key
    · simp [insert, same]
    · rw [if_neg same]
      exact lookup_away same
  | cons m rest ih =>
    obtain ⟨key', v'⟩ := m
    unfold insert
    split
    · next same =>
      subst same
      by_cases here : k = key
      · simp [here]
      · rw [if_neg here, lookup_away here, lookup_away here]
    · split
      · by_cases here : k = key
        · simp [here]
        · rw [if_neg here, lookup_away here]
      · next different _ =>
        by_cases there : k = key'
        · subst there
          simp [Ne.symm different]
        · rw [lookup_away there, lookup_away there, ih]

theorem mem_insert {key : String} {v : Json} {members : List (String × Json)} {m : String × Json}
    (member : m ∈ insert key v members) : m = (key, v) ∨ m ∈ members := by
  induction members with
  | nil => simpa [insert] using member
  | cons first rest ih =>
    obtain ⟨key', v'⟩ := first
    unfold insert at member
    split at member
    · exact (List.mem_cons.mp member).imp_right (List.mem_cons_of_mem _)
    · split at member
      · exact List.mem_cons.mp member
      · rcases List.mem_cons.mp member with rfl | there
        · exact .inr List.mem_cons_self
        · exact (ih there).imp_right (List.mem_cons_of_mem _)

theorem insert_keys {key : String} {v : Json} {members : List (String × Json)} {k : String}
    (member : k ∈ keys (insert key v members)) : k = key ∨ k ∈ keys members := by
  obtain ⟨m, inside, rfl⟩ := List.mem_map.mp member
  rcases mem_insert inside with rfl | earlier
  · exact .inl rfl
  · exact .inr (List.mem_map_of_mem earlier)

theorem insert_increasing {key : String} {v : Json} {members : List (String × Json)}
    (increasing : (keys members).Pairwise (· < ·)) : (keys (insert key v members)).Pairwise (· < ·) := by
  induction members with
  | nil => simp [insert, keys]
  | cons m rest ih =>
    obtain ⟨key', v'⟩ := m
    obtain ⟨least, others⟩ := List.pairwise_cons.mp increasing
    unfold insert
    split
    · next same => exact same ▸ increasing
    · split
      · next different below =>
        refine List.pairwise_cons.mpr ⟨fun k member => ?_, increasing⟩
        rcases List.mem_cons.mp member with rfl | later
        · exact below
        · exact lt_trans below (least k later)
      · next different above =>
        refine List.pairwise_cons.mpr ⟨fun k member => ?_, ih others⟩
        rcases insert_keys member with rfl | later
        · exact lt_of_le_of_ne (not_lt.mp above) (Ne.symm different)
        · exact least k later

-- All members, the last of every key, in the order of the keys.
def gathered (members : List (String × Json)) : List (String × Json) :=
  members.foldl (fun sorted (key, v) => insert key v sorted) []

theorem gathered_append (members : List (String × Json)) (key : String) (v : Json) :
    gathered (members ++ [(key, v)]) = insert key v (gathered members) := by
  simp [gathered]

theorem mem_gathered {members : List (String × Json)} {m : String × Json} (member : m ∈ gathered members) :
    m ∈ members := by
  induction members using List.reverseRecOn with
  | nil => exact member
  | append_singleton members last ih =>
    rw [gathered_append] at member
    rcases mem_insert member with rfl | earlier
    · exact List.mem_append_right _ (List.mem_singleton_self _)
    · exact List.mem_append_left _ (ih earlier)

theorem gathered_increasing (members : List (String × Json)) :
    (keys (gathered members)).Pairwise (· < ·) := by
  induction members using List.reverseRecOn with
  | nil => simp [gathered, keys]
  | append_singleton members m ih => exact gathered_append members m.1 m.2 ▸ insert_increasing ih

theorem gathered_nodup (members : List (String × Json)) : (keys (gathered members)).Nodup :=
  (gathered_increasing members).imp ne_of_lt

theorem gathered_lookup (members : List (String × Json)) (k : String) :
    (gathered members).lookup k = members.reverse.lookup k := by
  induction members using List.reverseRecOn with
  | nil => rfl
  | append_singleton members m ih =>
    obtain ⟨key, v⟩ := m
    rw [gathered_append, insert_lookup, List.reverse_append, ih]
    by_cases same : k = key
    · simp [same]
    · rw [if_neg same]
      exact (lookup_away same).symm

theorem lookup_missing {members : List (String × Json)} {k : String} (missing : k ∉ keys members) :
    members.lookup k = none := by
  rw [List.lookup_eq_none_iff]
  intro m member
  exact bne_iff_ne.mpr fun same => missing (same ▸ List.mem_map_of_mem member)

theorem lookup_later {key k : String} {v w : Json} {rest : List (String × Json)} (fresh : key ∉ keys rest)
    (found : rest.lookup k = some w) : ((key, v) :: rest).lookup k = some w := by
  have away : k ≠ key := by
    rintro rfl
    rw [lookup_missing fresh] at found
    cases found
  exact (lookup_away away).trans found

theorem lookup_reverse {members : List (String × Json)} (distinct : (keys members).Nodup) (k : String) :
    members.reverse.lookup k = members.lookup k := by
  induction members with
  | nil => rfl
  | cons m rest ih =>
    obtain ⟨key, v⟩ := m
    obtain ⟨fresh, others⟩ := List.nodup_cons.mp distinct
    rw [List.reverse_cons, List.lookup_append, ih others]
    by_cases same : k = key
    · rw [lookup_missing (same ▸ fresh)]
      simp [same]
    · rw [lookup_away same, lookup_away same]
      exact Option.or_none

theorem gathered_distinct {members : List (String × Json)} (distinct : (keys members).Nodup) (key : String) :
    (gathered members).lookup key = members.lookup key :=
  (gathered_lookup members key).trans (lookup_reverse distinct key)

end Json

namespace Load
open Json (keys)

-- Every field has the value of the member of its name, or its fallback.
def Stored (members : List (String × Json)) : (fields : List Field) → Record fields → Prop
  | [], _ => True
  | f :: fields, (x, more) =>
    (match members.lookup f.name with
      | some v => value .inner f.type v = .ok x
      | none => f.fallback = some x) ∧ Stored members fields more

-- What the members make of one draft is the other draft.
def Filled (members : List (String × Json)) : (fields : List Field) → Draft fields → Draft fields → Prop
  | [], _, _ => True
  | f :: fields, (slot, more), (slot', more') =>
    (match members.lookup f.name with
      | some v => ∃ x, value .inner f.type v = .ok x ∧ slot' = some x
      | none => slot' = slot) ∧ Filled members fields more more'

theorem filled_other {members : List (String × Json)} {fields : List Field}
    (other : ∀ f ∈ fields, members.lookup f.name = none) (draft : Draft fields) :
    Filled members fields draft draft := by
  induction fields with
  | nil => trivial
  | cons f fields ih =>
    obtain ⟨own, others⟩ := List.forall_mem_cons.mp other
    refine ⟨?_, ih others draft.2⟩
    rw [own]

theorem fill_filled {key : String} {v : Json} {fields : List Field}
    (distinct : (fields.map Field.name).Nodup)
    (readable : ∀ f ∈ fields, f.name = key → ∃ x, value .inner f.type v = .ok x) (draft : Draft fields) :
    ∃ filled, draft.fill key (fun t => value .inner t v) fields = .ok filled ∧
      Filled [(key, v)] fields draft filled := by
  induction fields with
  | nil => exact ⟨(), rfl, trivial⟩
  | cons f fields ih =>
    obtain ⟨fresh, rest⟩ := List.nodup_cons.mp distinct
    obtain ⟨own, others⟩ := List.forall_mem_cons.mp readable
    obtain ⟨slot, more⟩ := draft
    by_cases here : f.name = key
    · obtain ⟨x, read⟩ := own here
      refine ⟨(some x, more), ?_, ?_, filled_other ?_ more⟩
      · simp [Draft.fill, here, read, Except.map]
      · have found : [(key, v)].lookup f.name = some v := by simp [here]
        rw [found]
        exact ⟨x, read, rfl⟩
      · intro g member
        have away : g.name ≠ key := fun same =>
          fresh (here.trans same.symm ▸ List.mem_map_of_mem member)
        exact Json.lookup_away away
    · obtain ⟨filled, done, known⟩ := ih rest others more
      refine ⟨(slot, filled), ?_, ?_, known⟩
      · simp [Draft.fill, here, done, Except.map]
      · have away : [(key, v)].lookup f.name = none := Json.lookup_away here
        rw [away]

theorem filled_trans {key : String} {v : Json} {rest : List (String × Json)} (fresh : key ∉ keys rest)
    {fields : List Field} {draft middle filled : Draft fields}
    (first : Filled [(key, v)] fields draft middle) (second : Filled rest fields middle filled) :
    Filled ((key, v) :: rest) fields draft filled := by
  induction fields with
  | nil => trivial
  | cons f fields ih =>
    obtain ⟨one, more⟩ := first
    obtain ⟨two, more'⟩ := second
    refine ⟨?_, ih more more'⟩
    by_cases here : f.name = key
    · have found : ((key, v) :: rest).lookup f.name = some v := by simp [here]
      have alone : [(key, v)].lookup f.name = some v := by simp [here]
      rw [Json.lookup_missing (here ▸ fresh)] at two
      rw [alone] at one
      rw [found, two]
      exact one
    · have alone : [(key, v)].lookup f.name = none := Json.lookup_away here
      rw [alone] at one
      rw [Json.lookup_away here]
      cases inside : rest.lookup f.name with
      | none =>
        rw [inside] at two
        exact two.trans one
      | some w =>
        rw [inside] at two
        exact two

theorem membersInto_filled {fields : List Field} (distinct : (fields.map Field.name).Nodup)
    {members : List (String × Json)} (different : (keys members).Nodup)
    (readable : ∀ f ∈ fields, ∀ v, members.lookup f.name = some v → ∃ x, value .inner f.type v = .ok x)
    (draft : Draft fields) :
    ∃ filled, membersInto fields draft members = .ok filled ∧ Filled members fields draft filled := by
  induction members generalizing draft with
  | nil => exact ⟨draft, rfl, filled_other (fun _ _ => rfl) draft⟩
  | cons m rest ih =>
    obtain ⟨key, v⟩ := m
    obtain ⟨fresh, others⟩ := List.nodup_cons.mp different
    have here : ∀ f ∈ fields, f.name = key → ∃ x, value .inner f.type v = .ok x :=
      fun f member same => readable f member v (by simp [same])
    obtain ⟨middle, first, one⟩ := fill_filled distinct here draft
    have later : ∀ f ∈ fields, ∀ w, rest.lookup f.name = some w → ∃ x, value .inner f.type w = .ok x :=
      fun f member w found => readable f member w (Json.lookup_later fresh found)
    obtain ⟨filled, second, two⟩ := ih others later middle
    refine ⟨filled, ?_, filled_trans fresh one two⟩
    simp only [membersInto, bind_ok]
    exact ⟨middle, first, second⟩

theorem stored_readable {members : List (String × Json)} {fields : List Field} {record : Record fields}
    (stored : Stored members fields record) :
    ∀ f ∈ fields, ∀ v, members.lookup f.name = some v → ∃ x, value .inner f.type v = .ok x := by
  induction fields with
  | nil => nofun
  | cons f fields ih =>
    obtain ⟨own, others⟩ := stored
    refine List.forall_mem_cons.mpr ⟨fun v found => ?_, ih others⟩
    rw [found] at own
    exact ⟨_, own⟩

theorem stored_complete {members : List (String × Json)} {fields : List Field} {record : Record fields}
    {filled : Draft fields} (stored : Stored members fields record)
    (full : Filled members fields (Draft.empty fields) filled) : filled.complete fields = .ok record := by
  induction fields with
  | nil => rfl
  | cons f fields ih =>
    obtain ⟨x, others⟩ := record
    obtain ⟨slot, more⟩ := filled
    obtain ⟨own, stored⟩ := stored
    obtain ⟨known, full⟩ := full
    have chosen : slot.or f.fallback = some x := by
      cases found : members.lookup f.name with
      | none =>
        rw [found] at own known
        cases known
        exact own
      | some v =>
        rw [found] at own known
        obtain ⟨y, read, rfl⟩ := known
        cases Except.ok.inj (own.symm.trans read)
        rfl
    simp only [Draft.complete, chosen, ih stored full, Except.map]

theorem complete_stored {members : List (String × Json)} {fields : List Field} {record : Record fields}
    {filled : Draft fields} (full : Filled members fields (Draft.empty fields) filled)
    (complete : filled.complete fields = .ok record) : Stored members fields record := by
  induction fields with
  | nil => trivial
  | cons f fields ih =>
    obtain ⟨x, more⟩ := record
    obtain ⟨slot, rest⟩ := filled
    obtain ⟨known, full⟩ := full
    unfold Draft.complete at complete
    split at complete
    · next y chosen =>
      obtain ⟨more', later, same⟩ := map_ok.mp complete
      cases same
      refine ⟨?_, ih full later⟩
      cases found : members.lookup f.name with
      | none =>
        rw [found] at known
        cases known
        exact chosen
      | some v =>
        rw [found] at known
        obtain ⟨z, read, rfl⟩ := known
        cases chosen
        exact read
    · cases complete

theorem fields_distinct (k : Kind) : (k.fields.map Field.name).Nodup := by
  cases k <;> decide

theorem named_name (k : Kind) : Kind.named? k.name = some k := by
  cases k <;> decide

theorem kindOf_name (position : Position) {members : List (String × Json)} {k : Kind}
    (tagged : members.lookup "type" = some (.string k.name)) : kindOf position members = .ok k := by
  simp only [kindOf, tagged]
  cases position <;> simp only [kind, named_name]

-- The value of the field could not be read.
theorem fill_failed {ε : Type} {key : String} {read : (t : FieldType) → Except ε t.Value} {fields : List Field}
    (distinct : (fields.map Field.name).Nodup) {f : Field} (member : f ∈ fields) (named : f.name = key) {e : ε}
    (failed : read f.type = .error e) (draft : Draft fields) : draft.fill key read fields = .error e := by
  induction fields with
  | nil => cases member
  | cons g fields ih =>
    obtain ⟨fresh, rest⟩ := List.nodup_cons.mp distinct
    obtain ⟨slot, more⟩ := draft
    rcases List.mem_cons.mp member with rfl | later
    · rw [Draft.fill, if_pos named, failed]
      rfl
    · have away : g.name ≠ key := fun here => fresh (here.trans named.symm ▸ List.mem_map_of_mem later)
      rw [Draft.fill, if_neg away, ih rest later more]
      rfl

-- Only the value of one field could not be read, wherever its member stands.
theorem membersInto_failed {fields : List Field} (distinct : (fields.map Field.name).Nodup) {f : Field}
    (member : f ∈ fields) {members : List (String × Json)} (different : (keys members).Nodup) {w : Json}
    (found : members.lookup f.name = some w) {e : DataError} (failed : value .inner f.type w = .error e)
    (readable : ∀ g ∈ fields, g.name ≠ f.name → ∀ v, members.lookup g.name = some v →
      ∃ x, value .inner g.type v = .ok x)
    (draft : Draft fields) : membersInto fields draft members = .error e := by
  induction members generalizing draft with
  | nil => cases found
  | cons m rest ih =>
    obtain ⟨key, v⟩ := m
    obtain ⟨fresh, others⟩ := List.nodup_cons.mp different
    by_cases here : f.name = key
    · have same : ((key, v) :: rest).lookup f.name = some v := by simp [here]
      cases Option.some.inj (same.symm.trans found)
      rw [membersInto, fill_failed distinct member here failed draft]
      rfl
    · have own : ∀ g ∈ fields, g.name = key → ∃ x, value .inner g.type v = .ok x :=
        fun g inside same => readable g inside (fun one => here (one.symm.trans same)) v (by simp [same])
      obtain ⟨filled, done, _⟩ := fill_filled distinct own draft
      rw [Json.lookup_away here] at found
      have later : ∀ g ∈ fields, g.name ≠ f.name → ∀ u, rest.lookup g.name = some u →
          ∃ x, value .inner g.type u = .ok x :=
        fun g inside other u known => readable g inside other u (Json.lookup_later fresh known)
      rw [membersInto, done]
      exact ih others found later filled

-- A field that was filled could be read.
theorem fill_readable {ε : Type} {key : String} {read : (t : FieldType) → Except ε t.Value} {fields : List Field}
    {draft filled : Draft fields} (distinct : (fields.map Field.name).Nodup)
    (done : draft.fill key read fields = .ok filled) :
    ∀ f ∈ fields, f.name = key → ∃ x, read f.type = .ok x := by
  induction fields with
  | nil => nofun
  | cons f fields ih =>
    obtain ⟨fresh, rest⟩ := List.nodup_cons.mp distinct
    obtain ⟨slot, more⟩ := draft
    unfold Draft.fill at done
    split at done
    · next here =>
      obtain ⟨x, got, _⟩ := map_ok.mp done
      refine List.forall_mem_cons.mpr ⟨fun _ => ⟨x, got⟩, ?_⟩
      intro g member same
      exact absurd (here.trans same.symm ▸ List.mem_map_of_mem member) fresh
    · next away =>
      obtain ⟨more', got, _⟩ := map_ok.mp done
      exact List.forall_mem_cons.mpr ⟨fun here => absurd here away, ih rest got⟩

theorem membersInto_readable {fields : List Field} (distinct : (fields.map Field.name).Nodup)
    {members : List (String × Json)} {draft filled : Draft fields}
    (done : membersInto fields draft members = .ok filled) :
    ∀ f ∈ fields, ∀ v, members.lookup f.name = some v → ∃ x, value .inner f.type v = .ok x := by
  induction members generalizing draft with
  | nil => nofun
  | cons m rest ih =>
    obtain ⟨key, w⟩ := m
    simp only [membersInto, bind_ok] at done
    obtain ⟨middle, first, later⟩ := done
    intro f member v found
    by_cases here : f.name = key
    · have same : ((key, w) :: rest).lookup f.name = some w := by simp [here]
      cases Option.some.inj (same.symm.trans found)
      exact fill_readable distinct first f member here
    · rw [Json.lookup_away here] at found
      exact ih later f member v found

-- What an object makes of the members that name the kind and store a record of its fields.
theorem object_built {position : Position} {members : List (String × Json)} {k : Kind}
    {record : Record k.fields} (different : (keys members).Nodup)
    (known : kindOf position members = .ok k) (stored : Stored members k.fields record) :
    value position .node (.object members) = build k record := by
  obtain ⟨filled, done, full⟩ := membersInto_filled (fields_distinct k) different
    (stored_readable stored) (Draft.empty k.fields)
  simp only [value, known, done, bind, Except.bind, buildDraft, stored_complete stored full, Except.mapError]

-- An object is the node of the record that its members store.
theorem object_loaded {position : Position} {members : List (String × Json)} {node : Node}
    (different : (keys members).Nodup) :
    value position .node (.object members) = .ok node ↔ ∃ k, kindOf position members = .ok k ∧
      ∃ record, Stored members k.fields record ∧ build k record = .ok node := by
  constructor
  · intro loaded
    simp only [value, bind_ok] at loaded
    obtain ⟨k, known, draft, done, built⟩ := loaded
    refine ⟨k, known, ?_⟩
    simp only [buildDraft, bind_ok, mapError_ok] at built
    obtain ⟨record, complete, built⟩ := built
    obtain ⟨filled, done', full⟩ := membersInto_filled (fields_distinct k) different
      (membersInto_readable (fields_distinct k) done) (Draft.empty k.fields)
    cases Except.ok.inj (done.symm.trans done')
    exact ⟨record, complete_stored full complete, built⟩
  · intro known
    obtain ⟨k, known, record, stored, built⟩ := known
    rw [object_built different known stored]
    exact built

theorem object_failed {position : Position} {members : List (String × Json)} {k : Kind} {f : Field}
    (different : (keys members).Nodup) (known : kindOf position members = .ok k) (member : f ∈ k.fields)
    {w : Json} (found : members.lookup f.name = some w) {e : DataError}
    (failed : value .inner f.type w = .error e)
    (readable : ∀ g ∈ k.fields, g.name ≠ f.name → ∀ v, members.lookup g.name = some v →
      ∃ x, value .inner g.type v = .ok x) :
    value position .node (.object members) = .error e := by
  have stopped :=
    membersInto_failed (fields_distinct k) member different found failed readable (Draft.empty k.fields)
  simp only [value, known, stopped, bind, Except.bind]

-- The fields of a node that was loaded could be read.
theorem object_readable {position : Position} {members : List (String × Json)} {k : Kind} {node : Node}
    (tagged : members.lookup "type" = some (.string k.name))
    (loaded : value position .node (.object members) = .ok node) :
    ∀ f ∈ k.fields, ∀ v, members.lookup f.name = some v → ∃ x, value .inner f.type v = .ok x := by
  simp only [value, bind_ok] at loaded
  obtain ⟨k', known, draft, done, _⟩ := loaded
  cases Except.ok.inj (known.symm.trans (kindOf_name position tagged))
  exact membersInto_readable (fields_distinct k) done

end Load
end Solid
