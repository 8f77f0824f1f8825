import Solid.Node.Json
import Solid.Proofs.Checks
import Solid.Proofs.Written
namespace Solid

-- The property holds of the nodes in a value.
def Held (P : Node → Prop) : (t : FieldType) → t.Value → Prop
  | .node, (node : Node) => P node
  | .nodes, (nodes : List Node) => ∀ node ∈ nodes, P node
  | .number, _ | .flag, _ | .numbers, _ | .pairs, _ | .triples, _ | .triangles, _ | .quads, _ => True

def Record.Holds (P : Node → Prop) : (fields : List Field) → Record fields → Prop
  | [], _ => True
  | f :: fields, (v, more) => Held P f.type v ∧ Holds P fields more

def Draft.Holds (P : Node → Prop) : (fields : List Field) → Draft fields → Prop
  | [], _ => True
  | f :: fields, (slot, more) => (∀ v, slot = some v → Held P f.type v) ∧ Holds P fields more

-- No field falls back on a node.
theorem fallback_held (P : Node → Prop) (k : Kind) :
    ∀ f ∈ k.fields, ∀ v, f.fallback = some v → Held P f.type v := by
  cases k <;> simp only [Kind.fields, Kind.needed, List.forall_mem_cons] <;>
    simp [Held]

section
variable {P : Node → Prop}

theorem empty_holds (fields : List Field) : (Draft.empty fields).Holds P fields := by
  induction fields with
  | nil => trivial
  | cons f fields ih => exact ⟨nofun, ih⟩

theorem fill_holds {ε : Type} {key : String} {read : (t : FieldType) → Except ε t.Value}
    (sound : ∀ t v, read t = .ok v → Held P t v) {fields : List Field} {draft filled : Draft fields}
    (held : draft.Holds P fields) (done : draft.fill key read fields = .ok filled) :
    filled.Holds P fields := by
  induction fields with
  | nil => trivial
  | cons f fields ih =>
    obtain ⟨slot, more⟩ := draft
    unfold Draft.fill at done
    split at done
    · obtain ⟨v, got, rfl⟩ := map_ok.mp done
      exact ⟨fun w same => Option.some.inj same ▸ sound _ _ got, held.2⟩
    · obtain ⟨more', got, rfl⟩ := map_ok.mp done
      exact ⟨held.1, ih held.2 got⟩

theorem complete_holds {fields : List Field} {draft : Draft fields} {record : Record fields}
    (fallback : ∀ f ∈ fields, ∀ v, f.fallback = some v → Held P f.type v)
    (held : draft.Holds P fields) (done : draft.complete fields = .ok record) :
    record.Holds P fields := by
  induction fields with
  | nil => trivial
  | cons f fields ih =>
    obtain ⟨slot, more⟩ := draft
    obtain ⟨own, others⟩ := List.forall_mem_cons.mp fallback
    unfold Draft.complete at done
    split at done
    · rename_i v found
      obtain ⟨rest, got, rfl⟩ := map_ok.mp done
      refine ⟨?_, ih others held.2 got⟩
      cases slot with
      | none => exact own v found
      | some w => exact held.1 v found
    · cases done

theorem fallbacks_holds {fields : List Field} {record : Record fields}
    (fallback : ∀ f ∈ fields, ∀ v, f.fallback = some v → Held P f.type v)
    (done : Record.fallbacks fields = .ok record) : record.Holds P fields := by
  induction fields with
  | nil => trivial
  | cons f fields ih =>
    obtain ⟨own, others⟩ := List.forall_mem_cons.mp fallback
    unfold Record.fallbacks at done
    split at done
    · cases done
    · cases done
    · next v more found rest =>
      cases done
      exact ⟨own v found, ih others rest⟩

end

-- The parameters of a node make sense, and nothing but the items of its record becomes a child.
theorem made_parts {P : Node → Prop} {k : Kind} {record : Record k.fields} {node : Node}
    (held : record.Holds P k.fields) (made : k.make record = .ok node) :
    node.Proper ∧ ∀ child ∈ node.children, P child := by
  cases k with
  | circle =>
    obtain ⟨valid, rfl⟩ := Node.circle_ok.mp made
    exact ⟨valid, nofun⟩
  | circleSector =>
    obtain ⟨valid, rfl⟩ := Node.circleSector_ok.mp made
    exact ⟨valid, nofun⟩
  | rectangle =>
    obtain ⟨valid, rfl⟩ := Node.rectangle_ok.mp made
    exact ⟨valid, nofun⟩
  | polygon =>
    obtain ⟨valid, rfl⟩ := Node.polygon_ok.mp made
    exact ⟨valid, nofun⟩
  | cube =>
    obtain ⟨valid, rfl⟩ := Node.cube_ok.mp made
    exact ⟨valid, nofun⟩
  | sphere =>
    obtain ⟨valid, rfl⟩ := Node.sphere_ok.mp made
    exact ⟨valid, nofun⟩
  | cylinder =>
    obtain ⟨valid, rfl⟩ := Node.cylinder_ok.mp made
    exact ⟨valid, nofun⟩
  | polyhedron =>
    obtain ⟨valid, rfl⟩ := Node.polyhedron_ok.mp made
    exact ⟨valid, nofun⟩
  | translate =>
    obtain ⟨valid, rfl⟩ := Node.translate_ok.mp made
    exact ⟨valid, List.forall_mem_singleton.mpr held.2.2.2.1⟩
  | rotate =>
    obtain ⟨_, _, valid, rfl⟩ := Node.rotate_ok.mp made
    exact ⟨valid, List.forall_mem_singleton.mpr held.2.2.1⟩
  | scale =>
    obtain ⟨valid, rfl⟩ := Node.scale_ok.mp made
    exact ⟨valid, List.forall_mem_singleton.mpr held.2.2.2.1⟩
  | mirror =>
    obtain ⟨_, _, valid, rfl⟩ := Node.mirror_ok.mp made
    exact ⟨valid, List.forall_mem_singleton.mpr held.2.1⟩
  | union =>
    obtain ⟨items, layered, ⟨⟩⟩ := record
    cases layered with
    | true =>
      obtain ⟨valid, rfl⟩ := Node.layers_ok.mp made
      exact ⟨valid, held.1⟩
    | false =>
      obtain ⟨valid, rfl⟩ := Node.union_ok.mp made
      exact ⟨valid, held.1⟩
  | difference =>
    obtain ⟨valid, rfl⟩ := Node.difference_ok.mp made
    exact ⟨valid, held.1⟩
  | intersection =>
    obtain ⟨valid, rfl⟩ := Node.intersection_ok.mp made
    exact ⟨valid, held.1⟩
  | linearExtrusion =>
    obtain ⟨valid, rfl⟩ := Node.linearExtrusion_ok.mp made
    exact ⟨valid, List.forall_mem_singleton.mpr held.2.2.1⟩
  | rotateExtrusion =>
    cases made
    exact ⟨trivial, List.forall_mem_singleton.mpr held.1⟩

-- What the constructor functions keep.
def Kept (P : Node → Prop) : Prop :=
  ∀ (k : Kind) record node, Record.Holds P k.fields record → k.make record = .ok node → P node

-- What they keep from items with some room inside to a node with one container more.
structure KeptWithin (P : Nat → Node → Prop) : Prop where
  wider : ∀ room node, P room node → P (room + 1) node
  made : ∀ room (k : Kind) record node, Record.Holds (P room) k.fields record →
    k.make record = .ok node → P (room + 1) node

theorem Kept.within {P : Node → Prop} (kept : Kept P) : KeptWithin fun _ => P :=
  ⟨fun _ _ => id, fun _ => kept⟩

namespace Load

variable {P : Nat → Node → Prop}

theorem build_held (kept : KeptWithin P) {room : Nat} {k : Kind} {record : Record k.fields} {node : Node}
    (held : record.Holds (P room) k.fields) (built : build k record = .ok node) : P (room + 1) node :=
  kept.made room k record node held (mapError_ok.mp built)

-- An array or an object leaves less room inside.
theorem room_inside {room inner : Nat} (within : 1 + inner ≤ room) : ∃ less, room = less + 1 ∧ inner ≤ less :=
  ⟨room - 1, by omega, by omega⟩

mutual

theorem value_held (kept : KeptWithin P) (position : Position) (t : FieldType) (v : Json) {room : Nat}
    (within : v.depth ≤ room) {x : t.Value} (loaded : value position t v = .ok x) : Held (P room) t x := by
  cases t with
  | node =>
    cases v with
    | object members =>
      obtain ⟨less, rfl, inside⟩ := room_inside within
      simp only [value, bind_ok] at loaded
      obtain ⟨k, _, draft, filled, built⟩ := loaded
      obtain ⟨record, complete, built⟩ := bind_ok.mp built
      have held := membersInto_held kept members inside (empty_holds k.fields) filled
      exact build_held kept (complete_holds (fallback_held (P less) k) held (mapError_ok.mp complete)) built
    | array items =>
      cases items with
      | nil => cases loaded
      | cons tag rest =>
        obtain ⟨less, rfl, inside⟩ := room_inside within
        simp only [value, bind_ok] at loaded
        obtain ⟨k, _, record, read, built⟩ := loaded
        have below := (Nat.max_le.mp inside).2
        exact build_held kept (row_held kept (fallback_held (P less) k) rest below read) built
    | null | bool | int | float | string => cases loaded
  | nodes =>
    cases v with
    | array items =>
      obtain ⟨less, rfl, inside⟩ := room_inside within
      exact fun node member => kept.wider less node (nodes_held kept position items inside loaded node member)
    | null | bool | int | float | string | object => cases loaded
  | number | flag | numbers | pairs | triples | triangles | quads => trivial

theorem nodes_held (kept : KeptWithin P) (position : Position) (items : List Json) {room : Nat}
    (within : Json.depthAll items ≤ room) {loaded : List Node}
    (done : nodes position items = .ok loaded) : ∀ node ∈ loaded, P room node := by
  cases items with
  | nil =>
    cases done
    nofun
  | cons v rest =>
    obtain ⟨first, others⟩ := Nat.max_le.mp within
    simp only [nodes, bind_ok] at done
    obtain ⟨node, one, more, next, made⟩ := done
    cases made
    exact List.forall_mem_cons.mpr
      ⟨value_held kept position .node v first one, nodes_held kept position rest others next⟩

theorem membersInto_held (kept : KeptWithin P) {fields : List Field} {draft filled : Draft fields}
    (members : List (String × Json)) {room : Nat} (within : Json.depthMembers members ≤ room)
    (held : draft.Holds (P room) fields)
    (done : membersInto fields draft members = .ok filled) : filled.Holds (P room) fields := by
  cases members with
  | nil =>
    cases done
    exact held
  | cons m rest =>
    obtain ⟨key, v⟩ := m
    obtain ⟨own, others⟩ := Nat.max_le.mp within
    simp only [membersInto, bind_ok] at done
    obtain ⟨next, first, more⟩ := done
    exact membersInto_held kept rest others
      (fill_holds (fun t x => value_held kept .inner t v own) held first) more

theorem row_held (kept : KeptWithin P) {k : Kind} {before : Nat} {fields : List Field} {room : Nat}
    (fallback : ∀ f ∈ fields, ∀ v, f.fallback = some v → Held (P room) f.type v) (items : List Json)
    (within : Json.depthAll items ≤ room) {record : Record fields}
    (done : row k before fields items = .ok record) : record.Holds (P room) fields := by
  cases items with
  | nil => exact fallbacks_holds fallback (mapError_ok.mp (by cases fields <;> exact done))
  | cons v rest =>
    cases fields with
    | nil => trivial
    | cons f fields =>
      obtain ⟨own, others⟩ := Nat.max_le.mp within
      simp only [row, bind_ok] at done
      obtain ⟨x, first, more, next, made⟩ := done
      cases made
      exact ⟨value_held kept .inner f.type v own first,
        row_held kept (List.forall_mem_cons.mp fallback).2 rest others next⟩

end

end Load

theorem load_read {text : String} {v : Json} (read : Json.read text = .ok v) :
    Node.load text = Node.loadValue v := by
  rw [Node.load, read]
  rfl

-- Every loaded node has what the constructor functions keep.
theorem load_held {P : Node → Prop} (kept : Kept P) {text : String} {nodes : List Node}
    (loaded : Node.load text = .ok nodes) : ∀ node ∈ nodes, P node := by
  obtain ⟨v, _, built⟩ := bind_ok.mp loaded
  unfold Node.loadValue at built
  split at built
  · exact Load.nodes_held kept.within .outer _ (Nat.le_refl _) (mapError_ok.mp built)
  · obtain ⟨node, made, rfl⟩ := map_ok.mp (mapError_ok.mp built)
    exact List.forall_mem_singleton.mpr (Load.value_held kept.within .outer .node v (Nat.le_refl _) made)

end Solid
