import Solid.Proofs.Grammar
import Solid.Proofs.Loading
namespace Solid.Json

-- The number that a numeral is read as; one out of range is infinite.
def Token.value (t : Token) : Json :=
  t.numeral.value.getD (.float (Decimal.negateIf t.numeral.negative (1.0 / 0.0)))

def Token.Ranged (t : Token) : Prop := t.numeral.value ≠ none

namespace Doc

mutual

def value : Doc → Json
  | null => .null
  | bool b => .bool b
  | number t => t.value
  | string q => .string q.value
  | array _ items => .array (valueItems items)
  | object _ members => ofMembers (valueMembers members)

def valueItems : List (Gap × Doc × Gap) → List Json
  | [] => []
  | (_, d, _) :: rest => d.value :: valueItems rest

def valueMembers : List (Label × Gap × Doc × Gap) → List (String × Json)
  | [] => []
  | (l, _, d, _) :: rest => (l.name.value, d.value) :: valueMembers rest

end

-- How deep arrays and objects are nested.
mutual

def depth : Doc → Nat
  | null | bool _ | number _ | string _ => 0
  | array _ items => 1 + depthItems items
  | object _ members => 1 + depthMembers members

def depthItems : List (Gap × Doc × Gap) → Nat
  | [] => 0
  | (_, d, _) :: rest => max d.depth (depthItems rest)

def depthMembers : List (Label × Gap × Doc × Gap) → Nat
  | [] => 0
  | (_, _, d, _) :: rest => max d.depth (depthMembers rest)

end

-- The numerals, wherever they are.
mutual

def tokens : Doc → List Token
  | null | bool _ | string _ => []
  | number t => [t]
  | array _ items => tokensItems items
  | object _ members => tokensMembers members

def tokensItems : List (Gap × Doc × Gap) → List Token
  | [] => []
  | (_, d, _) :: rest => d.tokens ++ tokensItems rest

def tokensMembers : List (Label × Gap × Doc × Gap) → List Token
  | [] => []
  | (_, _, d, _) :: rest => d.tokens ++ tokensMembers rest

end

def Ranged (d : Doc) : Prop := ∀ t ∈ d.tokens, t.Ranged

end Doc

theorem token_read {t : Token} {v : Json} : t.numeral.value = some v ↔ t.Ranged ∧ v = t.value := by
  unfold Token.Ranged Token.value
  cases t.numeral.value <;> simp [eq_comm]

mutual

theorem read_iff (d : Doc) {room : Nat} {v : Json} :
    d.read room = some v ↔ d.depth ≤ room ∧ d.Ranged ∧ v = d.value := by
  cases d with
  | null | bool | string => simp [Doc.read, Doc.depth, Doc.Ranged, Doc.tokens, Doc.value, eq_comm]
  | number t => simp [Doc.read, Doc.depth, Doc.Ranged, Doc.tokens, Doc.value, token_read]
  | array gap items =>
    cases room with
    | zero => simp [Doc.read, Doc.depth]
    | succ room =>
      have inner := @readItems_iff items room
      rw [Doc.depth, Nat.add_comm 1, Nat.succ_le_succ_iff]
      simp only [Doc.read, Nat.succ_ne_zero, if_false, Nat.succ_sub_one, Option.map_eq_some_iff, inner]
      exact ⟨fun ⟨_, ⟨shallow, ranged, same⟩, made⟩ => ⟨shallow, ranged, made ▸ congrArg Json.array same⟩,
        fun ⟨shallow, ranged, same⟩ => ⟨_, ⟨shallow, ranged, rfl⟩, same.symm⟩⟩
  | object gap members =>
    cases room with
    | zero => simp [Doc.read, Doc.depth]
    | succ room =>
      have inner := @readMembers_iff members room
      rw [Doc.depth, Nat.add_comm 1, Nat.succ_le_succ_iff]
      simp only [Doc.read, Nat.succ_ne_zero, if_false, Nat.succ_sub_one, Option.map_eq_some_iff, inner]
      exact ⟨fun ⟨_, ⟨shallow, ranged, same⟩, made⟩ => ⟨shallow, ranged, made ▸ congrArg ofMembers same⟩,
        fun ⟨shallow, ranged, same⟩ => ⟨_, ⟨shallow, ranged, rfl⟩, same.symm⟩⟩

theorem readItems_iff (items : List (Gap × Doc × Gap)) {room : Nat} {vs : List Json} :
    Doc.readItems room items = some vs ↔
      Doc.depthItems items ≤ room ∧ (∀ t ∈ Doc.tokensItems items, t.Ranged) ∧ vs = Doc.valueItems items := by
  match items with
  | [] => simp [Doc.readItems, Doc.depthItems, Doc.tokensItems, Doc.valueItems, eq_comm]
  | (before, d, after) :: rest =>
    have first := @read_iff d room
    have others := @readItems_iff rest room
    simp only [Doc.readItems, Option.bind_eq_bind, Option.bind_eq_some_iff, Option.pure_def, Option.some.injEq,
      first, others, Doc.depthItems, Nat.max_le, Doc.tokensItems, List.forall_mem_append, Doc.valueItems]
    constructor
    · rintro ⟨_, ⟨shallow, ranged, rfl⟩, _, ⟨shallow', ranged', rfl⟩, rfl⟩
      exact ⟨⟨shallow, shallow'⟩, ⟨ranged, ranged'⟩, rfl⟩
    · rintro ⟨⟨shallow, shallow'⟩, ⟨ranged, ranged'⟩, rfl⟩
      exact ⟨_, ⟨shallow, ranged, rfl⟩, _, ⟨shallow', ranged', rfl⟩, rfl⟩

theorem readMembers_iff (members : List (Label × Gap × Doc × Gap)) {room : Nat} {vs : List (String × Json)} :
    Doc.readMembers room members = some vs ↔ Doc.depthMembers members ≤ room ∧
      (∀ t ∈ Doc.tokensMembers members, t.Ranged) ∧ vs = Doc.valueMembers members := by
  match members with
  | [] => simp [Doc.readMembers, Doc.depthMembers, Doc.tokensMembers, Doc.valueMembers, eq_comm]
  | (l, before, d, after) :: rest =>
    have first := @read_iff d room
    have others := @readMembers_iff rest room
    simp only [Doc.readMembers, Option.bind_eq_bind, Option.bind_eq_some_iff, Option.pure_def, Option.some.injEq,
      first, others, Doc.depthMembers, Nat.max_le, Doc.tokensMembers, List.forall_mem_append, Doc.valueMembers]
    constructor
    · rintro ⟨_, ⟨shallow, ranged, rfl⟩, _, ⟨shallow', ranged', rfl⟩, rfl⟩
      exact ⟨⟨shallow, shallow'⟩, ⟨ranged, ranged'⟩, rfl⟩
    · rintro ⟨⟨shallow, shallow'⟩, ⟨ranged, ranged'⟩, rfl⟩
      exact ⟨_, ⟨shallow, ranged, rfl⟩, _, ⟨shallow', ranged', rfl⟩, rfl⟩

end

-- A text that is a document between blanks.
def Doc.Spells (d : Doc) (text : String) : Prop :=
  ∃ before after : Gap, text.toList = before.1 ++ d.text ++ after.1

section
variable {d : Doc} {text : String}

theorem spelled_read (spelled : d.Spells text) (shallow : d.depth ≤ 127) (ranged : d.Ranged) :
    Json.read text = .ok d.value := by
  obtain ⟨before, after, written⟩ := spelled
  have known : d.read depthLimit = some d.value := (read_iff d).mpr ⟨shallow, ranged, rfl⟩
  rw [read_doc before d after written, known]

theorem spelled_unread (spelled : d.Spells text) (unranged : ¬d.Ranged) :
    Json.read text = .error .syntaxError := by
  obtain ⟨before, after, written⟩ := spelled
  rw [read_doc before d after written]
  cases known : d.read depthLimit with
  | none => rfl
  | some v => exact absurd ((read_iff d).mp known).2.1 unranged

end

end Solid.Json

namespace Solid

variable {d : Json.Doc} {text : String}

theorem load_spelled (spelled : d.Spells text) (shallow : d.depth ≤ 127) (ranged : d.Ranged) :
    Node.load text = Node.loadValue d.value :=
  load_read (Json.spelled_read spelled shallow ranged)

theorem load_unranged (spelled : d.Spells text) (unranged : ¬d.Ranged) :
    Node.load text = .error (.json .syntaxError) := by
  rw [Node.load, Json.spelled_unread spelled unranged]
  rfl

-- A text is loaded exactly when it is read and what it means is loaded.
theorem load_iff (spelled : d.Spells text) {list : List Node} :
    Node.load text = .ok list ↔ d.depth ≤ 127 ∧ d.Ranged ∧ Node.loadValue d.value = .ok list := by
  constructor
  · intro loaded
    simp only [Node.load, bind_ok, mapError_ok] at loaded
    obtain ⟨v, read, loaded⟩ := loaded
    obtain ⟨before, after, written⟩ := spelled
    rw [Json.read_doc before d after written] at read
    cases known : d.read Json.depthLimit with
    | none =>
      rw [known] at read
      cases read
    | some w =>
      rw [known] at read
      cases read
      obtain ⟨shallow, ranged, rfl⟩ := (Json.read_iff d).mp known
      exact ⟨shallow, ranged, loaded⟩
  · intro known
    obtain ⟨shallow, ranged, loaded⟩ := known
    rw [load_spelled spelled shallow ranged]
    exact loaded

end Solid
