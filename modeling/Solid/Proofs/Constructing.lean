import Solid.Proofs.Spelled
import Solid.Proofs.Documents
import Solid.Proofs.Saving
namespace Solid

-- A transform with the parameters as its constructor function takes them.
inductive Motion where
  | translate (x y z : Float)
  | rotate (degrees : Float) (vector : List Float)
  | scale (x y z : Float)
  | mirror (vector : List Float)
  | linearExtrusion (height twist : Float)
  | rotateExtrusion

inductive Plan where
  | shape (shape : Shape)
  | transform (motion : Motion) (item : Plan)
  | combine (combination : Combination) (items : List Plan)

def Shape.make : Shape → Except Invalid Node
  | .circle radius => Node.circle radius
  | .circleSector radius angle => Node.circleSector radius angle
  | .rectangle width height => Node.rectangle width height
  | .polygon points => Node.polygon points
  | .cube width height depth => Node.cube width height depth
  | .sphere radius => Node.sphere radius
  | .cylinder height radius1 radius2 => Node.cylinder height radius1 radius2
  | .polyhedron m => Node.polyhedron m.points m.triangles m.quads

def Motion.make (item : Node) : Motion → Except Invalid Node
  | .translate x y z => Node.translate x y z item
  | .rotate degrees vector => Node.rotate degrees vector item
  | .scale x y z => Node.scale x y z item
  | .mirror vector => Node.mirror vector item
  | .linearExtrusion height twist => Node.linearExtrusion height twist item
  | .rotateExtrusion => .ok (Node.rotateExtrusion item)

def Combination.make (items : List Node) : Combination → Except Invalid Node
  | .union true => Node.layers items
  | .union false => Node.union items
  | .difference => Node.difference items
  | .intersection => Node.intersection items

namespace Plan

mutual

-- All calls, those for the items of a node before its own.
def build : Plan → Except Invalid Node
  | shape s => s.make
  | transform m item => do
    let node ← item.build
    m.make node
  | combine c items => do
    let nodes ← buildAll items
    c.make nodes

def buildAll : List Plan → Except Invalid (List Node)
  | [] => .ok []
  | plan :: rest => do
    let node ← plan.build
    let nodes ← buildAll rest
    return node :: nodes

end

mutual

-- Items before what holds them, and in their order.
def postorder : Plan → List Plan
  | shape s => [shape s]
  | transform m item => item.postorder ++ [transform m item]
  | combine c items => postorderAll items ++ [combine c items]

def postorderAll : List Plan → List Plan
  | [] => []
  | plan :: rest => plan.postorder ++ postorderAll rest

end

-- What the call for a node itself gives, once its items are built.
def Calls : Plan → Except Invalid Node → Prop
  | shape s, result => result = s.make
  | transform m item, result => ∃ node, item.build = .ok node ∧ result = m.make node
  | combine c items, result => ∃ nodes, buildAll items = .ok nodes ∧ result = c.make nodes

def Built (plan : Plan) : Prop := ∃ node, plan.Calls (.ok node)

-- The first call to fail.
def FirstInvalid (plans : List Plan) (e : Invalid) : Prop :=
  ∃ before faulty after, plans = before ++ faulty :: after ∧ (∀ plan ∈ before, plan.Built) ∧
    faulty.Calls (.error e)

variable {plan : Plan} {plans : List Plan} {e : Invalid}

theorem calls_unique {result result' : Except Invalid Node} (calls : plan.Calls result)
    (calls' : plan.Calls result') : result = result' := by
  cases plan with
  | shape s => exact calls.trans calls'.symm
  | transform m item =>
    obtain ⟨node, built, rfl⟩ := calls
    obtain ⟨node', built', rfl⟩ := calls'
    cases Except.ok.inj (built.symm.trans built')
    rfl
  | combine c items =>
    obtain ⟨nodes, built, rfl⟩ := calls
    obtain ⟨nodes', built', rfl⟩ := calls'
    cases Except.ok.inj (built.symm.trans built')
    rfl

theorem firstInvalid_cons :
    FirstInvalid (plan :: plans) e ↔ plan.Calls (.error e) ∨ plan.Built ∧ FirstInvalid plans e := by
  constructor
  · rintro ⟨before, faulty, after, split, built, failed⟩
    cases before with
    | nil =>
      cases split
      exact .inl failed
    | cons first before =>
      cases split
      obtain ⟨own, others⟩ := List.forall_mem_cons.mp built
      exact .inr ⟨own, before, faulty, after, rfl, others, failed⟩
  · rintro (failed | ⟨own, before, faulty, after, rfl, built, failed⟩)
    · exact ⟨[], plan, plans, rfl, nofun, failed⟩
    · exact ⟨plan :: before, faulty, after, rfl, List.forall_mem_cons.mpr ⟨own, built⟩, failed⟩

theorem firstInvalid_append {more : List Plan} (first : FirstInvalid plans e) :
    FirstInvalid (plans ++ more) e := by
  obtain ⟨before, faulty, after, rfl, built, failed⟩ := first
  exact ⟨before, faulty, after ++ more, by simp, built, failed⟩

theorem firstInvalid_behind {more : List Plan} (built : ∀ plan ∈ plans, plan.Built)
    (first : FirstInvalid more e) : FirstInvalid (plans ++ more) e := by
  obtain ⟨before, faulty, after, rfl, built', failed⟩ := first
  exact ⟨plans ++ before, faulty, after, by simp, List.forall_mem_append.mpr ⟨built, built'⟩, failed⟩

theorem firstInvalid_unbuilt (first : FirstInvalid plans e) : ¬∀ plan ∈ plans, plan.Built := by
  obtain ⟨before, faulty, after, rfl, _, failed⟩ := first
  intro built
  obtain ⟨node, calls⟩ := built faulty (by simp)
  cases calls_unique calls failed

theorem firstInvalid_unique {e' : Invalid} (first : FirstInvalid plans e) (first' : FirstInvalid plans e') :
    e = e' := by
  induction plans with
  | nil =>
    obtain ⟨before, _, _, split, _⟩ := first
    cases before <;> cases split
  | cons plan plans ih =>
    rw [firstInvalid_cons] at first first'
    rcases first with failed | ⟨⟨node, own⟩, later⟩ <;> rcases first' with failed' | ⟨⟨node', own'⟩, later'⟩
    · cases calls_unique failed failed'
      rfl
    · cases calls_unique failed own'
    · cases calls_unique own failed'
    · exact ih later later'

-- A run that makes these calls in their order, until one fails.
def Runs {α : Type} (plans : List Plan) : Except Invalid α → Prop
  | .ok _ => ∀ plan ∈ plans, plan.Built
  | .error e => FirstInvalid plans e

theorem runs_own {result : Except Invalid Node} (calls : plan.Calls result) : Runs [plan] result := by
  cases result with
  | ok node => exact List.forall_mem_singleton.mpr ⟨node, calls⟩
  | error e => exact ⟨[], plan, [], rfl, nofun, calls⟩

theorem runs_bind {α β : Type} {more : List Plan} {first : Except Invalid α} {next : α → Except Invalid β}
    (runs : Runs plans first) (further : ∀ a, first = .ok a → Runs more (next a)) :
    Runs (plans ++ more) (first >>= next) := by
  cases first with
  | error e => exact firstInvalid_append runs
  | ok a =>
    have last := further a rfl
    change Runs (plans ++ more) (next a)
    cases result : next a with
    | error e =>
      rw [result] at last
      exact firstInvalid_behind runs last
    | ok b =>
      rw [result] at last
      exact List.forall_mem_append.mpr ⟨runs, last⟩

theorem runs_map {α β : Type} {result : Except Invalid α} (runs : Runs plans result) (f : α → β) :
    Runs plans (result >>= fun a => .ok (f a)) := by
  cases result <;> exact runs

mutual

theorem build_runs (plan : Plan) : Runs plan.postorder plan.build := by
  cases plan with
  | shape s => exact runs_own rfl
  | transform m item => exact runs_bind (build_runs item) fun node built => runs_own ⟨node, built, rfl⟩
  | combine c items => exact runs_bind (buildAll_runs items) fun nodes built => runs_own ⟨nodes, built, rfl⟩

theorem buildAll_runs (plans : List Plan) : Runs (postorderAll plans) (buildAll plans) := by
  cases plans with
  | nil => exact nofun
  | cons plan rest => exact runs_bind (build_runs plan) fun node _ => runs_map (buildAll_runs rest) (node :: ·)

end

theorem buildAll_ok : (∃ nodes, buildAll plans = .ok nodes) ↔ ∀ plan ∈ postorderAll plans, plan.Built := by
  have runs := buildAll_runs plans
  cases built : buildAll plans with
  | ok nodes =>
    rw [built] at runs
    exact ⟨fun _ => runs, fun _ => ⟨nodes, rfl⟩⟩
  | error e =>
    rw [built] at runs
    exact ⟨nofun, fun all => absurd all (firstInvalid_unbuilt runs)⟩

theorem buildAll_error : buildAll plans = .error e ↔ FirstInvalid (postorderAll plans) e := by
  have runs := buildAll_runs plans
  cases built : buildAll plans with
  | ok nodes =>
    rw [built] at runs
    exact ⟨nofun, fun first => absurd runs (firstInvalid_unbuilt first)⟩
  | error e' =>
    rw [built] at runs
    refine ⟨fun same => Except.error.inj same ▸ runs, fun first => ?_⟩
    rw [firstInvalid_unique runs first]

end Plan

namespace Json

-- What a value of the right type stands for.
inductive Number : Json → Float → Prop
  | int (n : Int) : Number (.int n) (Decimal.negateIf (n < 0) (Float.ofNat n.natAbs))
  | float (x : Float) : Number (.float x) x

inductive Pair : Json → Point2 → Prop
  | row {v w : Json} {x y : Float} : Number v x → Number w y → Pair (.array [v, w]) ⟨x, y⟩

inductive Triple : Json → Point3 → Prop
  | row {u v w : Json} {x y z : Float} :
    Number u x → Number v y → Number w z → Triple (.array [u, v, w]) ⟨x, y, z⟩

inductive Three : Json → Triangle → Prop
  | row (a b c : Nat) : Three (.array [.int a, .int b, .int c]) ⟨a, b, c⟩

inductive Four : Json → Quad → Prop
  | row (a b c d : Nat) : Four (.array [.int a, .int b, .int c, .int d]) ⟨a, b, c, d⟩

def Listed {α : Type} (means : Json → α → Prop) (v : Json) (xs : List α) : Prop :=
  ∃ items, v = .array items ∧ List.Forall₂ means items xs

-- Nodes are described by plans instead.
def Means : (t : FieldType) → Json → t.Value → Prop
  | .number, v, (x : Float) => Number v x
  | .flag, v, (b : Bool) => v = .bool b
  | .numbers, v, (xs : List Float) => Listed Number v xs
  | .pairs, v, (points : List Point2) => Listed Pair v points
  | .triples, v, (points : List Point3) => Listed Triple v points
  | .triangles, v, (ts : List Triangle) => Listed Three v ts
  | .quads, v, (qs : List Quad) => Listed Four v qs
  | .node, _, _ | .nodes, _, _ => False

def Has (members : List (String × Json)) (name : String) (t : FieldType) (x : t.Value) : Prop :=
  ∃ v, members.lookup name = some v ∧ Means t v x

-- The member, or what its absence stands for.
def HasOr (members : List (String × Json)) (name : String) (t : FieldType) (fallback x : t.Value) : Prop :=
  Has members name t x ∨ members.lookup name = none ∧ x = fallback

end Json

open Json (Has HasOr)

section
variable (members : List (String × Json))

def Shape.Stated : Shape → Prop
  | .circle r | .sphere r => Has members "radius" .number r
  | .circleSector r a => Has members "radius" .number r ∧ Has members "angle" .number a
  | .rectangle w h => Has members "width" .number w ∧ Has members "height" .number h
  | .polygon points => Has members "points" .pairs points
  | .cube w h d =>
    Has members "width" .number w ∧ Has members "height" .number h ∧ Has members "depth" .number d
  | .cylinder h r r' =>
    Has members "height" .number h ∧ Has members "radius1" .number r ∧ Has members "radius2" .number r'
  | .polyhedron m =>
    Has members "points" .triples m.points ∧ HasOr members "triangles" .triangles [] m.triangles ∧
      HasOr members "quads" .quads [] m.quads

def Motion.Stated : Motion → Prop
  | .translate x y z | .scale x y z =>
    Has members "x" .number x ∧ Has members "y" .number y ∧ Has members "z" .number z
  | .rotate degrees vector => Has members "degrees" .number degrees ∧ Has members "vector" .numbers vector
  | .mirror vector => Has members "vector" .numbers vector
  | .linearExtrusion height twist =>
    Has members "height" .number height ∧ HasOr members "twist" .number (0.0 : Float) twist
  | .rotateExtrusion => True

def Combination.Stated : Combination → Prop
  | .union layers => HasOr members "layers" .flag false layers
  | .difference | .intersection => True

end

def Motion.kind : Motion → Kind
  | .translate .. => .translate
  | .rotate .. => .rotate
  | .scale .. => .scale
  | .mirror .. => .mirror
  | .linearExtrusion .. => .linearExtrusion
  | .rotateExtrusion => .rotateExtrusion

-- The name of the kind, or its number where the object stands inside another node.
def Named (position : Position) (members : List (String × Json)) (k : Kind) : Prop :=
  members.lookup "type" = some (.string k.name) ∨
    position = .inner ∧ ∃ n : Nat, members.lookup "type" = some (.int n) ∧ Kind.all[n]? = some k

namespace Plan

mutual

def Describes (position : Position) (v : Json) : Plan → Prop
  | shape s => ∃ members, v = .object members ∧ Named position members s.kind ∧ s.Stated members
  | transform m item => ∃ members w, v = .object members ∧ Named position members m.kind ∧ m.Stated members ∧
    members.lookup "item" = some w ∧ item.Describes .inner w
  | combine c items => ∃ members ws, v = .object members ∧ Named position members c.kind ∧ c.Stated members ∧
    members.lookup "items" = some (.array ws) ∧ DescribesAll .inner ws items

def DescribesAll (position : Position) : List Json → List Plan → Prop
  | [], [] => True
  | v :: vs, plan :: plans => plan.Describes position v ∧ DescribesAll position vs plans
  | _, _ => False

end

end Plan

-- A document is a list of nodes or a single one.
def Described (v : Json) (roots : List Plan) : Prop :=
  (∃ vs, v = .array vs ∧ Plan.DescribesAll .outer vs roots) ∨
    ∃ members root, v = .object members ∧ roots = [root] ∧ root.Describes .outer v


namespace Load
open Json (Means Listed)

theorem number_means {v : Json} {x : Float} (means : Json.Number v x) : number v = .ok x := by
  cases means <;> rfl

theorem index_means (n : Nat) : index (.int n) = .ok n := by
  simp [index]

theorem pair_means {v : Json} {p : Point2} (means : Json.Pair v p) : pair v = .ok p := by
  obtain ⟨x, y⟩ := means
  simp [pair, place, number_means x, number_means y, fits, bind, Except.bind, pure, Except.pure]

theorem triple_means {v : Json} {p : Point3} (means : Json.Triple v p) : triple v = .ok p := by
  obtain ⟨x, y, z⟩ := means
  simp [triple, place, number_means x, number_means y, number_means z, fits, bind, Except.bind, pure, Except.pure]

theorem triangle_means {v : Json} {t : Triangle} (means : Json.Three v t) : triangle v = .ok t := by
  cases means
  simp [triangle, place, index_means, fits, bind, Except.bind, pure, Except.pure]

theorem quad_means {v : Json} {q : Quad} (means : Json.Four v q) : quad v = .ok q := by
  cases means
  simp [quad, place, index_means, fits, bind, Except.bind, pure, Except.pure]

theorem listed_means {α : Type} {read : Json → Except DataError α} {means : Json → α → Prop}
    {v : Json} {xs : List α} (listed : Listed means v xs) (each : ∀ v x, means v x → read v = .ok x) :
    sequence read v = .ok xs := by
  obtain ⟨items, rfl, all⟩ := listed
  change Load.each read items = .ok xs
  induction all with
  | nil => rfl
  | cons first _ ih =>
    rw [Load.each, each _ _ first, ih]
    rfl

theorem value_means {position : Position} {t : FieldType} {v : Json} {x : t.Value} (means : Means t v x) :
    value position t v = .ok x := by
  cases t with
  | number =>
    rw [value]
    exact number_means means
  | flag =>
    cases means
    rfl
  | numbers =>
    rw [value]
    exact listed_means means fun _ _ => number_means
  | pairs =>
    rw [value]
    exact listed_means means fun _ _ => pair_means
  | triples =>
    rw [value]
    exact listed_means means fun _ _ => triple_means
  | triangles =>
    rw [value]
    exact listed_means means fun _ _ => triangle_means
  | quads =>
    rw [value]
    exact listed_means means fun _ _ => quad_means
  | node | nodes => cases means

variable {members : List (String × Json)} {name : String} {t : FieldType} {fallback x : t.Value}

theorem stored_needed {fields : List Field} {more : Record fields} {v : Json}
    (found : members.lookup name = some v) (read : value .inner t v = .ok x) (others : Stored members fields more) :
    Stored members (Kind.needed name t :: fields) (x, more) := by
  refine ⟨?_, others⟩
  rw [show members.lookup (Kind.needed name t).name = some v from found]
  exact read

theorem stored_has {fields : List Field} {more : Record fields} (has : Has members name t x)
    (others : Stored members fields more) : Stored members (Kind.needed name t :: fields) (x, more) := by
  obtain ⟨v, found, means⟩ := has
  exact stored_needed found (value_means means) others

theorem stored_hasOr {fields : List Field} {more : Record fields} (has : HasOr members name t fallback x)
    (others : Stored members fields more) : Stored members (⟨name, t, some fallback⟩ :: fields) (x, more) := by
  refine ⟨?_, others⟩
  rcases has with ⟨v, found, means⟩ | ⟨absent, rfl⟩
  · simp only [found]
    exact value_means means
  · simp only [absent]

theorem has_readable (has : Has members name t x) :
    ∀ v, members.lookup name = some v → ∃ y, value .inner t v = .ok y := by
  obtain ⟨w, found, means⟩ := has
  intro v same
  cases Option.some.inj (found.symm.trans same)
  exact ⟨x, value_means means⟩

theorem hasOr_readable (has : HasOr members name t fallback x) :
    ∀ v, members.lookup name = some v → ∃ y, value .inner t v = .ok y := by
  rcases has with has | ⟨absent, _⟩
  · exact has_readable has
  · intro v found
    cases absent.symm.trans found

theorem named_kind {position : Position} {k : Kind} (named : Named position members k) :
    kindOf position members = .ok k := by
  rcases named with tagged | ⟨rfl, n, tagged, numbered⟩
  · exact kindOf_name position tagged
  · have known : Kind.numbered? n = some k := numbered
    simp [kindOf, tagged, kind, known]

end Load

open Load

theorem make_shape (s : Shape) : s.kind.make s.record = s.make := by
  cases s <;> rfl

def Motion.record (item : Node) : (m : Motion) → Record m.kind.fields
  | .translate x y z | .scale x y z => (x, y, z, item, ())
  | .rotate degrees vector => (degrees, vector, item, ())
  | .mirror vector => (vector, item, ())
  | .linearExtrusion height twist => (height, twist, item, ())
  | .rotateExtrusion => (item, ())

theorem make_motion (m : Motion) (item : Node) : m.kind.make (m.record item) = m.make item := by
  cases m <;> rfl

theorem make_combination (c : Combination) (items : List Node) : c.kind.make (c.record items) = c.make items := by
  cases c with
  | union layers => cases layers <;> rfl
  | difference | intersection => rfl

section
variable {members : List (String × Json)}

theorem stated_shape {s : Shape} (stated : s.Stated members) : Stored members s.kind.fields s.record := by
  cases s with
  | circle | sphere | polygon => exact stored_has stated trivial
  | circleSector | rectangle => exact stored_has stated.1 (stored_has stated.2 trivial)
  | cube | cylinder => exact stored_has stated.1 (stored_has stated.2.1 (stored_has stated.2.2 trivial))
  | polyhedron => exact stored_has stated.1 (stored_hasOr stated.2.1 (stored_hasOr stated.2.2 trivial))

theorem stated_motion {m : Motion} (stated : m.Stated members) {w : Json} {item : Node}
    (found : members.lookup "item" = some w) (loaded : value .inner .node w = .ok item) :
    Stored members m.kind.fields (m.record item) := by
  have last : Stored members [Kind.needed "item" .node] (item, ()) := stored_needed found loaded trivial
  cases m with
  | translate | scale => exact stored_has stated.1 (stored_has stated.2.1 (stored_has stated.2.2 last))
  | rotate => exact stored_has stated.1 (stored_has stated.2 last)
  | mirror => exact stored_has stated last
  | linearExtrusion => exact stored_has stated.1 (stored_hasOr stated.2 last)
  | rotateExtrusion => exact last

theorem stated_combination {c : Combination} (stated : c.Stated members) {ws : List Json} {items : List Node}
    (found : members.lookup "items" = some (.array ws)) (loaded : nodes .inner ws = .ok items) :
    Stored members c.kind.fields (c.record items) := by
  have first {fields : List Field} {more : Record fields} (others : Stored members fields more) :
      Stored members (Kind.needed "items" .nodes :: fields) (items, more) := stored_needed found loaded others
  cases c with
  | union => exact first (stored_hasOr stated trivial)
  | difference | intersection => exact first trivial

-- Whatever becomes of the item, the other fields can be read.
theorem motion_readable {m : Motion} (stated : m.Stated members) : ∀ f ∈ m.kind.fields, f.name ≠ "item" →
    ∀ v, members.lookup f.name = some v → ∃ x, value .inner f.type v = .ok x := by
  have item : (Kind.needed "item" .node).name ≠ "item" → ∀ v, members.lookup "item" = some v →
      ∃ x, value .inner .node v = .ok x := fun other => absurd rfl other
  cases m with
  | translate | scale =>
    exact List.forall_mem_cons.mpr ⟨fun _ => has_readable stated.1, List.forall_mem_cons.mpr
      ⟨fun _ => has_readable stated.2.1, List.forall_mem_cons.mpr
        ⟨fun _ => has_readable stated.2.2, List.forall_mem_singleton.mpr item⟩⟩⟩
  | rotate =>
    exact List.forall_mem_cons.mpr ⟨fun _ => has_readable stated.1, List.forall_mem_cons.mpr
      ⟨fun _ => has_readable stated.2, List.forall_mem_singleton.mpr item⟩⟩
  | mirror =>
    exact List.forall_mem_cons.mpr ⟨fun _ => has_readable stated, List.forall_mem_singleton.mpr item⟩
  | linearExtrusion =>
    exact List.forall_mem_cons.mpr ⟨fun _ => has_readable stated.1, List.forall_mem_cons.mpr
      ⟨fun _ => hasOr_readable stated.2, List.forall_mem_singleton.mpr item⟩⟩
  | rotateExtrusion => exact List.forall_mem_singleton.mpr item

theorem combination_readable {c : Combination} (stated : c.Stated members) : ∀ f ∈ c.kind.fields,
    f.name ≠ "items" → ∀ v, members.lookup f.name = some v → ∃ x, value .inner f.type v = .ok x := by
  have items : (Kind.needed "items" .nodes).name ≠ "items" → ∀ v, members.lookup "items" = some v →
      ∃ x, value .inner .nodes v = .ok x := fun other => absurd rfl other
  cases c with
  | union =>
    exact List.forall_mem_cons.mpr ⟨items, List.forall_mem_singleton.mpr fun _ => hasOr_readable stated⟩
  | difference | intersection => exact List.forall_mem_singleton.mpr items

end

theorem item_field (m : Motion) : Kind.needed "item" .node ∈ m.kind.fields := by
  cases m <;> simp [Motion.kind, Kind.fields]

mutual

-- A node loads as its plan is built, the faults of its items first.
theorem plan_loaded (plan : Plan) {position : Position} {v : Json} (distinct : v.Distinct)
    (described : plan.Describes position v) : value position .node v = plan.build.mapError .invalid := by
  cases plan with
  | shape s =>
    obtain ⟨members, rfl, named, stated⟩ := described
    rw [object_built distinct.1 (named_kind named) (stated_shape stated), build, make_shape]
    rfl
  | transform m item =>
    obtain ⟨members, w, rfl, named, stated, found, inner⟩ := described
    have below : w.Distinct := Json.distinctMembers_iff.mp distinct.2 ("item", w) (Json.mem_lookup found)
    have loaded := plan_loaded item below inner
    rw [Plan.build]
    cases made : item.build with
    | ok node =>
      rw [made] at loaded
      rw [object_built distinct.1 (named_kind named) (stated_motion stated found loaded), build, make_motion]
      rfl
    | error e =>
      rw [made] at loaded
      exact object_failed distinct.1 (named_kind named) (item_field m) found loaded (motion_readable stated)
  | combine c items =>
    obtain ⟨members, ws, rfl, named, stated, found, inner⟩ := described
    have below : Json.DistinctAll ws :=
      Json.distinctMembers_iff.mp distinct.2 ("items", .array ws) (Json.mem_lookup found)
    have loaded := plans_loaded items below inner
    rw [Plan.build]
    cases made : Plan.buildAll items with
    | ok nodes =>
      rw [made] at loaded
      rw [object_built distinct.1 (named_kind named) (stated_combination stated found loaded), build,
        make_combination]
      rfl
    | error e =>
      rw [made] at loaded
      exact object_failed distinct.1 (named_kind named) (items_field c) found loaded
        (combination_readable stated)

theorem plans_loaded (plans : List Plan) {position : Position} {vs : List Json} (distinct : Json.DistinctAll vs)
    (described : Plan.DescribesAll position vs plans) :
    nodes position vs = (Plan.buildAll plans).mapError .invalid := by
  match plans, vs with
  | [], [] => rfl
  | plan :: rest, v :: vs =>
    have first := plan_loaded plan distinct.1 described.1
    have others := plans_loaded rest distinct.2 described.2
    rw [nodes, first, others, Plan.buildAll]
    cases plan.build with
    | error e => rfl
    | ok node => cases Plan.buildAll rest <;> rfl
  | [], _ :: _ | _ :: _, [] => cases described

end

-- How the fault of a node is reported.
def refusal (v : Json) (e : Invalid) : LoadError :=
  if v.isArray then .list (.invalid e) else .node (.invalid e)

def heading (v : Json) : String := if v.isArray then "Invalid AST node list: " else "Invalid AST node: "

theorem refusal_message (v : Json) (e : Invalid) (detail : String) :
    (refusal v e).message detail = heading v ++ e.message := by
  unfold refusal heading
  split <;> rfl

theorem described_loaded {v : Json} {roots : List Plan} (distinct : v.Distinct) (described : Described v roots) :
    Node.loadValue v = (Plan.buildAll roots).mapError (refusal v) := by
  rcases described with ⟨vs, rfl, all⟩ | ⟨members, root, rfl, rfl, one⟩
  · rw [Node.loadValue, plans_loaded roots distinct all]
    cases Plan.buildAll roots <;> rfl
  · have loaded := plan_loaded root distinct one
    simp only [Node.loadValue, Node.ofJson, loaded, Plan.buildAll]
    cases root.build <;> rfl

-- Nodes are loaded exactly when every call succeeds. Otherwise the first call to fail is reported.
theorem load_described {d : Json.Doc} {text : String} {roots : List Plan} (spelled : d.Spells text)
    (shallow : d.depth ≤ 127) (ranged : d.Ranged) (described : Described d.value roots) :
    (∀ nodes, Node.load text = .ok nodes ↔ Plan.buildAll roots = .ok nodes) ∧
    ((∃ nodes, Node.load text = .ok nodes) ↔ ∀ plan ∈ Plan.postorderAll roots, plan.Built) ∧
    ∀ error, Node.load text = .error error ↔
      ∃ e, Plan.FirstInvalid (Plan.postorderAll roots) e ∧ error = refusal d.value e ∧
        ∀ detail, error.message detail = heading d.value ++ e.message := by
  have distinct := Json.read_distinct (Json.spelled_read spelled shallow ranged)
  rw [load_spelled spelled shallow ranged, described_loaded distinct described]
  refine ⟨fun nodes => mapError_ok, ?_, fun error => ?_⟩
  · simp only [mapError_ok]
    exact Plan.buildAll_ok
  · simp only [← Plan.buildAll_error]
    cases Plan.buildAll roots with
    | ok nodes => exact ⟨nofun, fun ⟨_, impossible, _⟩ => nomatch impossible⟩
    | error e =>
      constructor
      · rintro ⟨⟩
        exact ⟨e, rfl, rfl, refusal_message d.value e⟩
      · rintro ⟨_, ⟨⟩, rfl, _⟩
        rfl

section
open Json (Doc Gap Label Token)

def entry (key : String) (d : Doc) : Label × Gap × Doc × Gap :=
  (⟨.none, Json.quoted key, .none⟩, .none, d, .none)

def kindEntry (k : Kind) : Label × Gap × Doc × Gap := entry "type" (.string (Json.quoted k.name))

def circleDoc (radius : Token) : Doc := .object .none [kindEntry .circle, entry "radius" (.number radius)]

def minusOne : Token := ⟨['-', '1'], ⟨true, .whole, ['1'], [], false, []⟩, rfl, rfl⟩

def naught : Token := ⟨['0'], ⟨false, .zero, ['0'], [], false, []⟩, rfl, rfl⟩

def one : Token := ⟨['1'], ⟨false, .whole, ['1'], [], false, []⟩, rfl, rfl⟩

def tooLarge : Token :=
  ⟨['1', 'e', '4', '0', '0'], ⟨false, .exponent, ['1'], [], false, ['0', '0', '4']⟩, rfl, rfl⟩

def negativeRadius : Invalid := ⟨.circle, .notPositive "radius" (-1.0)⟩

-- A union of a single item, which is scaled to nothing and has a negative radius.
def thriceInvalid : Doc :=
  let scaled : Doc := .object .none [kindEntry .scale, entry "x" (.number naught), entry "y" (.number one),
    entry "z" (.number one), entry "item" (circleDoc minusOne)]
  .object .none [kindEntry .union, entry "items" (.array .none [(.none, scaled, .none)])]

def thriceText : String :=
  "\x7b\"type\":\"union\",\"items\":[\x7b\"type\":\"scale\",\"x\":0,\"y\":1,\"z\":1," ++
    "\"item\":\x7b\"type\":\"circle\",\"radius\":-1\x7d\x7d]\x7d"

def thricePlan : Plan :=
  .combine (.union false) [.transform (.scale 0.0 1.0 1.0) (.shape (.circle (-1.0)))]

theorem thrice_described : Described thriceInvalid.value [thricePlan] := by
  refine .inr ⟨_, _, rfl, rfl, _, _, rfl, .inl rfl, .inr ⟨rfl, rfl⟩, rfl, ?_, trivial⟩
  refine ⟨_, _, rfl, .inl rfl, ⟨?_, ?_, ?_⟩, rfl, _, rfl, .inl rfl, _, rfl, .int (-1)⟩
  · exact ⟨_, rfl, .int 0⟩
  · exact ⟨_, rfl, .int 1⟩
  · exact ⟨_, rfl, .int 1⟩

-- Of the three faults the innermost is reported.
theorem load_described_thrice : Node.load thriceText = .error (.node (.invalid negativeRadius)) := by
  have spelled : thriceInvalid.Spells thriceText := ⟨.none, .none, rfl⟩
  have ranged : thriceInvalid.Ranged := by
    refine List.forall_mem_cons.mpr ⟨nofun, List.forall_mem_cons.mpr ⟨nofun, List.forall_mem_cons.mpr ⟨nofun, ?_⟩⟩⟩
    exact List.forall_mem_singleton.mpr nofun
  have first : Plan.FirstInvalid (Plan.postorderAll [thricePlan]) negativeRadius :=
    ⟨[], .shape (.circle (-1.0)), _, rfl, nofun, rfl⟩
  exact ((load_described spelled (by decide) ranged thrice_described).2.2 _).mpr
    ⟨negativeRadius, first, rfl, fun _ => rfl⟩

-- Two circles, the first with a negative radius and the second with one out of range.
def twoCircles : Doc :=
  .array .none [(.none, circleDoc minusOne, .none), (.none, circleDoc tooLarge, .none)]

def twoText : String :=
  "[\x7b\"type\":\"circle\",\"radius\":-1\x7d,\x7b\"type\":\"circle\",\"radius\":1e400\x7d]"

def twoPlans : List Plan := [.shape (.circle (-1.0)), .shape (.circle (1.0 / 0.0))]

theorem tooLarge_value : tooLarge.numeral.value = none := by
  have large : Json.scale 1.0 400 = none := by
    rw [Json.scale]
    rfl
  exact congrArg (Option.map _) large

theorem two_described : Described twoCircles.value twoPlans := by
  have infinite : tooLarge.value = .float (1.0 / 0.0) := by
    rw [Token.value, tooLarge_value]
    rfl
  have second : Json.Number tooLarge.value (1.0 / 0.0) := infinite ▸ .float _
  exact .inl ⟨_, rfl, ⟨_, rfl, .inl rfl, _, rfl, .int (-1)⟩, ⟨_, rfl, .inl rfl, _, rfl, second⟩, trivial⟩

-- A number out of range keeps the reader from the text, and no call is made.
theorem unranged_unread : twoCircles.Spells twoText ∧ twoCircles.depth ≤ 127 ∧
    Described twoCircles.value twoPlans ∧ Plan.FirstInvalid (Plan.postorderAll twoPlans) negativeRadius ∧
    Node.load twoText ≠ .error (refusal twoCircles.value negativeRadius) := by
  have spelled : twoCircles.Spells twoText := ⟨.none, .none, rfl⟩
  have unranged : ¬twoCircles.Ranged := fun all =>
    all tooLarge (List.mem_cons_of_mem _ (List.mem_singleton_self _)) tooLarge_value
  refine ⟨spelled, by decide, two_described, ?_, ?_⟩
  · exact ⟨[], .shape (.circle (-1.0)), _, rfl, nofun, rfl⟩
  · rw [load_unranged spelled unranged]
    nofun

end
end Solid
