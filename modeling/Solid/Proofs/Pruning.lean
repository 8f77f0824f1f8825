import Solid.Proofs.Members
namespace Solid

namespace Json

-- Whether a member of this key is looked at, among members that may name a kind.
def counts (members : List (String × Json)) (key : String) : Bool :=
  match Load.kindOf .inner members with
  | .ok k => key = "type" || key ∈ k.fields.map Field.name
  | .error _ => true

def select (members : List (String × Json)) : List (String × Json) :=
  members.filter fun m => counts members m.1

mutual

def pruned : Json → Json
  | array items => array (prunedAll items)
  | object members => object (select (prunedMembers members))
  | v => v

def prunedAll : List Json → List Json
  | [] => []
  | v :: rest => v.pruned :: prunedAll rest

def prunedMembers : List (String × Json) → List (String × Json)
  | [] => []
  | (key, v) :: rest => (key, v.pruned) :: prunedMembers rest

end

theorem prunedAll_map (items : List Json) : prunedAll items = items.map pruned := by
  induction items with
  | nil => rfl
  | cons v rest ih => rw [prunedAll, ih, List.map_cons]

theorem prunedMembers_lookup (members : List (String × Json)) (k : String) :
    (prunedMembers members).lookup k = (members.lookup k).map pruned := by
  induction members with
  | nil => rfl
  | cons m rest ih =>
    obtain ⟨key, v⟩ := m
    by_cases here : k = key
    · simp [prunedMembers, here]
    · rw [prunedMembers, lookup_away here, lookup_away here, ih]

theorem lookup_filter {keep : String → Bool} {k : String} (kept : keep k = true) (members : List (String × Json)) :
    (members.filter fun m => keep m.1).lookup k = members.lookup k := by
  induction members with
  | nil => rfl
  | cons m rest ih =>
    obtain ⟨key, v⟩ := m
    by_cases here : k = key
    · subst here
      simp [kept]
    · rw [lookup_away here, ← ih, List.filter_cons]
      split
      · exact lookup_away here
      · rfl

theorem select_lookup {members : List (String × Json)} {k : String} (counted : counts members k = true) :
    (select members).lookup k = members.lookup k :=
  lookup_filter counted members

theorem counts_type (members : List (String × Json)) : counts members "type" = true := by
  unfold counts
  split <;> simp

end Json

-- The same result, or an error with the same message.
def Alike {α : Type} (x y : Except DataError α) : Prop :=
  x.mapError DataError.message = y.mapError DataError.message

section
variable {α β : Type} {x y : Except DataError α}

theorem alike_refl (x : Except DataError α) : Alike x x := rfl

theorem alike_error {e e' : DataError} (same : e.message = e'.message) :
    Alike (.error e : Except DataError α) (.error e') :=
  congrArg Except.error same

theorem alike_bind {f g : α → Except DataError β} (first : Alike x y)
    (next : ∀ a, x = .ok a → y = .ok a → Alike (f a) (g a)) : Alike (x >>= f) (y >>= g) := by
  cases x with
  | error e =>
    cases y with
    | error e' => exact alike_error (Except.error.inj first)
    | ok b => cases first
  | ok a =>
    cases y with
    | error e' => cases first
    | ok b =>
      cases Except.ok.inj first
      exact next a rfl rfl

theorem alike_map {f : α → β} (first : Alike x y) : Alike (x.map f) (y.map f) := by
  have outside (x : Except DataError α) :
      (x.map f).mapError DataError.message = (x.mapError DataError.message).map f := by
    cases x <;> rfl
  rw [Alike, outside, outside, first]

end

namespace Load
open Json (pruned prunedAll prunedMembers select counts)

-- A message says nothing of what is inside an array or an object.
theorem wrongType_pruned {α : Type} (v : Json) (wanted : Wanted) :
    Alike (.error (.wrongType v.pruned wanted) : Except DataError α) (.error (.wrongType v wanted)) := by
  have same : v.pruned.description = v.description := by
    cases v with
    | array | object => rfl
    | null | bool | int | float | string => rw [pruned] <;> nofun
  exact alike_error (congrArg (fun found => "invalid type: " ++ found ++ ", expected " ++ wanted.message) same)

section
variable {α : Type} {read : Json → Except DataError α} {wanted : Wanted}

-- No parameter but a node is read from an object.
theorem read_pruned (array : ∀ items, Alike (read (.array (prunedAll items))) (read (.array items)))
    (object : ∀ members, read (.object members) = .error (.wrongType (.object members) wanted)) (v : Json) :
    Alike (read v.pruned) (read v) := by
  cases v with
  | array items => exact array items
  | object members =>
    have refused := @wrongType_pruned α (.object members) wanted
    rw [pruned] at refused ⊢
    rw [object, object]
    exact refused
  | null | bool | int | float | string => rfl

theorem each_pruned (same : ∀ v, Alike (read v.pruned) (read v)) (items : List Json) :
    Alike (each read (prunedAll items)) (each read items) := by
  induction items with
  | nil => rfl
  | cons v rest ih => exact alike_bind (same v) fun _ _ _ => alike_bind ih fun _ _ _ => rfl

theorem sequence_pruned (same : ∀ v, Alike (read v.pruned) (read v)) (v : Json) :
    Alike (sequence read v.pruned) (sequence read v) :=
  read_pruned (each_pruned same) (fun _ => rfl) v

theorem place_pruned (same : ∀ v, Alike (read v.pruned) (read v)) (width : Nat) (items : List Json) (i : Nat) :
    Alike (place read width (prunedAll items) i) (place read width items i) := by
  unfold place
  rw [Json.prunedAll_map, List.getElem?_map]
  cases items[i]? with
  | none => rfl
  | some v => exact same v

theorem fits_pruned {β : Type} (width : Nat) (items : List Json) (x : β) :
    Alike (fits width (prunedAll items) >>= fun _ => .ok x) (fits width items >>= fun _ => .ok x) := by
  rw [fits, fits, Json.prunedAll_map, List.length_map]
  rfl

end

theorem number_pruned (v : Json) : Alike (number v.pruned) (number v) :=
  read_pruned (fun items => wrongType_pruned (.array items) .number) (fun _ => rfl) v

theorem index_pruned (v : Json) : Alike (index v.pruned) (index v) :=
  read_pruned (fun items => wrongType_pruned (.array items) .index) (fun _ => rfl) v

theorem flag_pruned (v : Json) : Alike (flag v.pruned) (flag v) :=
  read_pruned (fun items => wrongType_pruned (.array items) .flag) (fun _ => rfl) v

theorem kind_pruned (position : Position) (v : Json) : Alike (kind position v.pruned) (kind position v) := by
  cases position <;>
    exact read_pruned (fun items => wrongType_pruned (.array items) .kind) (fun _ => rfl) v

theorem pair_pruned (v : Json) : Alike (pair v.pruned) (pair v) := by
  refine read_pruned (fun items => ?_) (fun _ => rfl) v
  have part := place_pruned number_pruned 2 items
  exact alike_bind (part 0) fun _ _ _ => alike_bind (part 1) fun _ _ _ => fits_pruned 2 items _

theorem triple_pruned (v : Json) : Alike (triple v.pruned) (triple v) := by
  refine read_pruned (fun items => ?_) (fun _ => rfl) v
  have part := place_pruned number_pruned 3 items
  exact alike_bind (part 0) fun _ _ _ => alike_bind (part 1) fun _ _ _ => alike_bind (part 2) fun _ _ _ =>
    fits_pruned 3 items _

theorem triangle_pruned (v : Json) : Alike (triangle v.pruned) (triangle v) := by
  refine read_pruned (fun items => ?_) (fun _ => rfl) v
  have part := place_pruned index_pruned 3 items
  exact alike_bind (part 0) fun _ _ _ => alike_bind (part 1) fun _ _ _ => alike_bind (part 2) fun _ _ _ =>
    fits_pruned 3 items _

theorem quad_pruned (v : Json) : Alike (quad v.pruned) (quad v) := by
  refine read_pruned (fun items => ?_) (fun _ => rfl) v
  have part := place_pruned index_pruned 4 items
  exact alike_bind (part 0) fun _ _ _ => alike_bind (part 1) fun _ _ _ => alike_bind (part 2) fun _ _ _ =>
    alike_bind (part 3) fun _ _ _ => fits_pruned 4 items _

theorem fill_alike {key : String} {read read' : (t : FieldType) → Except DataError t.Value}
    (same : ∀ t, Alike (read t) (read' t)) (fields : List Field) (draft : Draft fields) :
    Alike (draft.fill key read fields) (draft.fill key read' fields) := by
  induction fields with
  | nil => rfl
  | cons f fields ih =>
    obtain ⟨slot, more⟩ := draft
    unfold Draft.fill
    split
    · exact alike_map (same f.type)
    · exact alike_map (ih more)

-- A member that is no field changes nothing.
theorem fill_stranger {ε : Type} {key : String} {read : (t : FieldType) → Except ε t.Value} {fields : List Field}
    (stranger : key ∉ fields.map Field.name) (draft : Draft fields) : draft.fill key read fields = .ok draft := by
  induction fields with
  | nil => rfl
  | cons f fields ih =>
    obtain ⟨slot, more⟩ := draft
    rw [List.map_cons, List.mem_cons, not_or] at stranger
    rw [Draft.fill, if_neg (Ne.symm stranger.1), ih stranger.2 more]
    rfl

theorem membersInto_filter {fields : List Field} {keep : String → Bool}
    (kept : ∀ key ∈ fields.map Field.name, keep key = true) (members : List (String × Json))
    (draft : Draft fields) :
    membersInto fields draft (members.filter fun m => keep m.1) = membersInto fields draft members := by
  induction members generalizing draft with
  | nil => rfl
  | cons m rest ih =>
    obtain ⟨key, v⟩ := m
    rw [List.filter_cons]
    split
    · simp only [membersInto, ih]
    · next dropped =>
      have stranger : key ∉ fields.map Field.name := fun field => dropped (kept key field)
      rw [ih, membersInto, fill_stranger stranger]
      rfl

theorem kindOf_pruned (position : Position) (members : List (String × Json)) :
    Alike (kindOf position (prunedMembers members)) (kindOf position members) := by
  unfold kindOf
  rw [Json.prunedMembers_lookup]
  cases members.lookup "type" with
  | none => rfl
  | some v => exact kind_pruned position v

theorem kindOf_select (position : Position) (members : List (String × Json)) :
    kindOf position (select members) = kindOf position members := by
  unfold kindOf
  rw [Json.select_lookup (Json.counts_type members)]

-- Inside another node at least the same kinds are known.
theorem kindOf_inner {position : Position} {members : List (String × Json)} {k : Kind}
    (known : kindOf position members = .ok k) : kindOf .inner members = .ok k := by
  cases position with
  | inner => exact known
  | outer =>
    unfold kindOf at known ⊢
    cases tag : members.lookup "type" with
    | none =>
      rw [tag] at known
      cases known
    | some v =>
      rw [tag] at known
      cases v with
      | string name => exact known
      | null | bool | int | float | array | object => cases known

theorem membersInto_select {members : List (String × Json)} {k : Kind} (known : kindOf .inner members = .ok k)
    (draft : Draft k.fields) :
    membersInto k.fields draft (select members) = membersInto k.fields draft members := by
  refine membersInto_filter (fun key field => ?_) members draft
  simp only [counts, known, field, decide_true, Bool.or_true]

mutual

theorem value_pruned (position : Position) (t : FieldType) (v : Json) :
    Alike (value position t v.pruned) (value position t v) := by
  cases t with
  | number =>
    rw [value, value]
    exact number_pruned v
  | flag =>
    rw [value, value]
    exact flag_pruned v
  | numbers =>
    rw [value, value]
    exact sequence_pruned number_pruned v
  | pairs =>
    rw [value, value]
    exact sequence_pruned pair_pruned v
  | triples =>
    rw [value, value]
    exact sequence_pruned triple_pruned v
  | triangles =>
    rw [value, value]
    exact sequence_pruned triangle_pruned v
  | quads =>
    rw [value, value]
    exact sequence_pruned quad_pruned v
  | node =>
    cases v with
    | object members =>
      rw [pruned, value, value, kindOf_select]
      refine alike_bind (kindOf_pruned position members) fun k known _ => ?_
      rw [membersInto_select (kindOf_inner known)]
      exact alike_bind (membersInto_pruned members k.fields _) fun _ _ _ => alike_refl _
    | array items =>
      cases items with
      | nil => rfl
      | cons tag rest =>
        rw [pruned, prunedAll, value, value]
        exact alike_bind (kind_pruned position tag) fun k _ _ =>
          alike_bind (row_pruned k 0 k.fields rest) fun _ _ _ => alike_refl _
    | null | bool | int | float | string => rfl
  | nodes =>
    cases v with
    | array items =>
      rw [pruned, value, value]
      exact nodes_pruned position items
    | object members => exact wrongType_pruned (.object members) .sequence
    | null | bool | int | float | string => rfl

theorem nodes_pruned (position : Position) (items : List Json) :
    Alike (nodes position (prunedAll items)) (nodes position items) := by
  cases items with
  | nil => rfl
  | cons v rest =>
    rw [prunedAll, nodes, nodes]
    exact alike_bind (value_pruned position .node v) fun _ _ _ =>
      alike_bind (nodes_pruned position rest) fun _ _ _ => alike_refl _

theorem membersInto_pruned (members : List (String × Json)) (fields : List Field) (draft : Draft fields) :
    Alike (membersInto fields draft (prunedMembers members)) (membersInto fields draft members) := by
  cases members with
  | nil => rfl
  | cons m rest =>
    obtain ⟨key, v⟩ := m
    rw [prunedMembers, membersInto, membersInto]
    exact alike_bind (fill_alike (fun t => value_pruned .inner t v) fields draft) fun _ _ _ =>
      membersInto_pruned rest fields _

theorem row_pruned (k : Kind) (before : Nat) (fields : List Field) (items : List Json) :
    Alike (row k before fields (prunedAll items)) (row k before fields items) := by
  cases items with
  | nil => rfl
  | cons v rest =>
    cases fields with
    | nil =>
      have length : (prunedAll (v :: rest)).length = (v :: rest).length := by
        rw [Json.prunedAll_map, List.length_map]
      exact alike_error (congrArg (fun n => (DataError.longNode k (before + n)).message) length)
    | cons f fields =>
      rw [prunedAll, row, row]
      exact alike_bind (value_pruned .inner f.type v) fun _ _ _ =>
        alike_bind (row_pruned k (before + 1) fields rest) fun _ _ _ => alike_refl _

end

end Load

-- What kind of error it is that keeps a text from being loaded.
inductive Failing where
  | ended
  | syntaxError
  | data
  deriving DecidableEq

def LoadError.failing : LoadError → Failing
  | .json .ended => .ended
  | .json .syntaxError => .syntaxError
  | .node _ | .list _ => .data

-- What can be told about a load: the nodes, or the kind of the error and its message.
def outcome (detail : String) (loaded : Except LoadError (List Node)) : Except (Failing × String) (List Node) :=
  loaded.mapError fun e => (e.failing, e.message detail)

theorem outcome_alike {wrap : DataError → LoadError} {front : String}
    (told : ∀ e detail, (wrap e).failing = .data ∧ (wrap e).message detail = front ++ e.message)
    {x y : Except DataError (List Node)} (alike : Alike x y) (detail detail' : String) :
    outcome detail (x.mapError wrap) = outcome detail' (y.mapError wrap) := by
  have outside (x : Except DataError (List Node)) (detail : String) :
      outcome detail (x.mapError wrap) =
        (x.mapError DataError.message).mapError fun m => (.data, front ++ m) := by
    cases x with
    | error e => exact congrArg Except.error (Prod.ext (told e detail).1 (told e detail).2)
    | ok nodes => rfl
  rw [outside, outside, alike]

-- Pruning a document changes nothing, and its value is refused without the words of the reader.
theorem loadValue_pruned (v : Json) (detail detail' : String) :
    outcome detail (Node.loadValue v.pruned) = outcome detail' (Node.loadValue v) := by
  cases v with
  | array items => exact outcome_alike (fun _ _ => ⟨rfl, rfl⟩) (Load.nodes_pruned .outer items) detail detail'
  | object members =>
    have alike := alike_map (f := fun node => [node]) (Load.value_pruned .outer .node (.object members))
    exact outcome_alike (fun _ _ => ⟨rfl, rfl⟩) alike detail detail'
  | null | bool | int | float | string => rfl

end Solid
