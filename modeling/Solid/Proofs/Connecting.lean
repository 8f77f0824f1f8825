import Solid.Proofs.Watertight
namespace Solid

-- Only polygons have vertices.
def Node.vertexCount : Node → Nat
  | .shape (.polygon points) => (vertices points).length
  | _ => 0

namespace Layers

def joinable : List Kind := [.circle, .rectangle, .polygon]

-- Why two neighbours cannot be joined at any distance.
def mismatch (lower upper : Node) : Option ConnectError :=
  if lower.kind ≠ upper.kind then some (.mixedShapes lower.kind upper.kind)
  else if lower.kind ∉ joinable then some (.unsupportedShape lower.kind)
  else if lower.vertexCount ≠ upper.vertexCount then
    some (.vertexCounts lower.vertexCount upper.vertexCount)
  else none

-- Where the solid above layer `i` is moved to.
def height (distance : Float) (i : Nat) : Float := Float.ofNat i * distance

-- What is wrong with layer `i` and the one above it.
def fault (distance : Float) (i : Nat) (lower upper : Node) : Option ConnectError :=
  (mismatch lower upper).or <|
    if (height distance i).isFinite then none
    else some (.invalid ⟨.translate, .notFinite "z" (height distance i)⟩)

def Neighbours (shapes : List Node) (i : Nat) (lower upper : Node) : Prop :=
  shapes[i]? = some lower ∧ shapes[i + 1]? = some upper

-- Nothing is wrong below layer `i`, counted from layer `base`.
def Clear (distance : Float) (base : Nat) (shapes : List Node) (i : Nat) : Prop :=
  ∀ j lower upper, j < i → Neighbours shapes j lower upper → fault distance (base + j) lower upper = none

-- The lowest pair with something wrong.
structure FirstFault (distance : Float) (base : Nat) (shapes : List Node) (i : Nat) (e : ConnectError) :
    Prop where
  clear : Clear distance base shapes i
  found : ∃ lower upper, Neighbours shapes i lower upper ∧ fault distance (base + i) lower upper = some e

-- Two layers of one kind that can be joined.
inductive Pair : Node → Node → Prop
  | circles (r r' : Float) : Pair (.shape (.circle r)) (.shape (.circle r'))
  | rectangles (w h w' h' : Float) : Pair (.shape (.rectangle w h)) (.shape (.rectangle w' h'))
  | polygons (points points' : List Point2) : Pair (.shape (.polygon points)) (.shape (.polygon points'))

section
variable {lower upper solid : Node} {distance : Float}

theorem joinable_shape (known : lower.kind ∈ joinable) : ∃ s, lower = .shape s := by
  cases lower with
  | shape s => exact ⟨s, rfl⟩
  | transform t item => cases t <;> simp [Node.kind, Transform.kind, joinable] at known
  | combine c items => cases c <;> simp [Node.kind, Combination.kind, joinable] at known

theorem joinable_pair (same : lower.kind = upper.kind) (known : lower.kind ∈ joinable) : Pair lower upper := by
  obtain ⟨s, rfl⟩ := joinable_shape known
  obtain ⟨s', rfl⟩ := joinable_shape (same ▸ known)
  cases s with
  | circle r =>
    cases s' with
    | circle r' => exact .circles r r'
    | _ => cases same
  | rectangle w h =>
    cases s' with
    | rectangle w' h' => exact .rectangles w h w' h'
    | _ => cases same
  | polygon points =>
    cases s' with
    | polygon points' => exact .polygons points points'
    | _ => cases same
  | _ => simp [Node.kind, Shape.kind, joinable] at known

theorem join_circles {r r' : Float} (positive : Positive distance) (valid : Positive r) (valid' : Positive r') :
    ∃ solid, join (.shape (.circle r)) (.shape (.circle r')) distance = .ok solid := by
  have round : (Shape.cylinder distance r r').Valid := ⟨positive, valid, valid'⟩
  exact ⟨_, mapError_ok.mpr (Node.cylinder_ok.mpr ⟨round, rfl⟩)⟩

theorem join_rectangles {w h w' h' : Float} (positive : Positive distance)
    (valid : Positive w ∧ Positive h) (valid' : Positive w' ∧ Positive h') :
    ∃ solid, join (.shape (.rectangle w h)) (.shape (.rectangle w' h')) distance = .ok solid := by
  have edged := frustum_valid valid.1.1 valid.2.1 valid'.1.1 valid'.2.1 positive.1
  exact ⟨_, mapError_ok.mpr (frustum_ok.mpr ⟨edged, rfl⟩)⟩

theorem join_polygons {points points' : List Point2} (positive : Positive distance) (ring : Ring points)
    (ring' : Ring points') (same : (vertices points).length = (vertices points').length) :
    ∃ solid, join (.shape (.polygon points)) (.shape (.polygon points')) distance = .ok solid := by
  have finite := rings_finite positive.1 ring.vertices_finite ring'.vertices_finite
  exact ⟨_, prism_ok.mpr ⟨same, prism_valid ring.vertices_long rfl same.symm finite, rfl⟩⟩

theorem mismatch_none : mismatch lower upper = none ↔
    lower.kind = upper.kind ∧ lower.kind ∈ joinable ∧ lower.vertexCount = upper.vertexCount := by
  unfold mismatch
  by_cases same : lower.kind = upper.kind
  · rw [same]
    by_cases known : upper.kind ∈ joinable
    · simp [known]
    · simp [known]
  · simp [same]

-- Layers that match are joined, at any distance.
theorem join_matched (positive : Positive distance) (valid : lower.Valid) (valid' : upper.Valid)
    (matched : mismatch lower upper = none) : ∃ solid, join lower upper distance = .ok solid := by
  obtain ⟨same, known, counts⟩ := mismatch_none.mp matched
  cases joinable_pair same known with
  | circles r r' => exact join_circles positive (Node.valid_shape.mp valid) (Node.valid_shape.mp valid')
  | rectangles w h w' h' =>
    exact join_rectangles positive (Node.valid_shape.mp valid) (Node.valid_shape.mp valid')
  | polygons points points' =>
    exact join_polygons positive (Node.valid_shape.mp valid) (Node.valid_shape.mp valid') counts

-- Others give the error of what does not match, whatever else is wrong with them.
theorem join_mismatched {e : ConnectError} (wrong : mismatch lower upper = some e) :
    join lower upper distance = .error e := by
  unfold mismatch at wrong
  by_cases same : lower.kind = upper.kind
  · rw [if_neg (not_not.mpr same)] at wrong
    by_cases known : lower.kind ∈ joinable
    · rw [if_neg (not_not.mpr known)] at wrong
      by_cases counts : lower.vertexCount = upper.vertexCount
      · rw [if_neg (not_not.mpr counts)] at wrong
        cases wrong
      · rw [if_pos counts] at wrong
        cases wrong
        cases joinable_pair same known with
        | circles | rectangles => exact absurd rfl counts
        | polygons points points' => exact if_neg counts
    · rw [if_pos known] at wrong
      cases wrong
      unfold join
      split
      · exact absurd (.head _) known
      · exact absurd (.tail _ (.head _)) known
      · exact absurd (.tail _ (.tail _ (.head _))) known
      · exact if_pos same
  · rw [if_pos same] at wrong
    cases wrong
    unfold join
    split
    · exact absurd rfl same
    · exact absurd rfl same
    · exact absurd rfl same
    · exact if_neg same

theorem zero_finite : (0.0 : Float).isFinite := by decide

theorem raised (z : Float) (solid : Node) : Node.translate 0.0 0.0 z solid =
    if z.isFinite then .ok (.transform (.translate ⟨0.0, 0.0, z⟩) solid)
    else .error ⟨.translate, .notFinite "z" z⟩ := by
  by_cases finite : z.isFinite
  · rw [if_pos finite]
    exact Node.translate_ok.mpr ⟨⟨zero_finite, zero_finite, finite⟩, rfl⟩
  · have zero : Check.finite "x" 0.0 = .ok () := Check.finite_ok.mpr zero_finite
    have zero' : Check.finite "y" 0.0 = .ok () := Check.finite_ok.mpr zero_finite
    have high : Check.finite "z" z = .error (.notFinite "z" z) := by
      simp only [Bool.not_eq_true] at finite
      simp [Check.finite, Check.refuse, finite]
    rw [if_neg finite, Node.translate, zero, zero', high]
    rfl

theorem fault_none {base : Nat} : fault distance base lower upper = none ↔
    mismatch lower upper = none ∧ (height distance base).isFinite := by
  unfold fault
  cases mismatch lower upper with
  | some e => simp
  | none => simp

theorem stack_clear (positive : Positive distance) (valid : lower.Valid) (valid' : upper.Valid) {base : Nat}
    (clear : fault distance base lower upper = none) (rest : List Node) :
    ∃ placed, stack distance base (lower :: upper :: rest) =
      (stack distance (base + 1) (upper :: rest)).map (placed :: ·) := by
  obtain ⟨matched, finite⟩ := fault_none.mp clear
  obtain ⟨solid, joined⟩ := join_matched positive valid valid' matched
  refine ⟨.transform (.translate ⟨0.0, 0.0, height distance base⟩) solid, ?_⟩
  have up := raised (height distance base) solid
  rw [if_pos finite] at up
  rw [stack, joined]
  unfold height at up ⊢
  change (Except.mapError ConnectError.invalid (Node.translate 0.0 0.0 _ solid) >>= _) = _
  rw [up]
  cases stack distance (base + 1) (upper :: rest) <;> rfl

theorem stack_faulty (positive : Positive distance) (valid : lower.Valid) (valid' : upper.Valid) {base : Nat}
    {e : ConnectError} (wrong : fault distance base lower upper = some e) (rest : List Node) :
    stack distance base (lower :: upper :: rest) = .error e := by
  rw [stack]
  cases matched : mismatch lower upper with
  | some e' =>
    rw [fault, matched, Option.some_or] at wrong
    rw [join_mismatched matched, ← Option.some.inj wrong]
    rfl
  | none =>
    rw [fault, matched, Option.none_or] at wrong
    by_cases finite : (height distance base).isFinite
    · rw [if_pos finite] at wrong
      cases wrong
    · rw [if_neg finite] at wrong
      obtain ⟨solid, joined⟩ := join_matched positive valid valid' matched
      have up := raised (height distance base) solid
      rw [if_neg finite] at up
      rw [joined, ← Option.some.inj wrong]
      unfold height at up ⊢
      change (Except.mapError ConnectError.invalid (Node.translate 0.0 0.0 _ solid) >>= _) = _
      rw [up]
      rfl

theorem neighbours_zero {shapes : List Node} {first second : Node} :
    Neighbours (lower :: upper :: shapes) 0 first second ↔ lower = first ∧ upper = second := by
  simp [Neighbours]

theorem neighbours_succ {shapes : List Node} {i : Nat} {first second : Node} :
    Neighbours (lower :: shapes) (i + 1) first second ↔ Neighbours shapes i first second := by
  simp [Neighbours]

theorem alone {i : Nat} {first second : Node} : ¬Neighbours [lower] i first second := by
  simp [Neighbours]

theorem clear_cons {shapes : List Node} {base i : Nat} (first : fault distance base lower upper = none)
    (rest : Clear distance (base + 1) (upper :: shapes) i) :
    Clear distance base (lower :: upper :: shapes) (i + 1) := by
  intro j one next below neighbours
  cases j with
  | zero =>
    obtain ⟨rfl, rfl⟩ := neighbours_zero.mp neighbours
    exact first
  | succ j =>
    rw [show base + (j + 1) = base + 1 + j by omega]
    exact rest j one next (by omega) (neighbours_succ.mp neighbours)

theorem firstFault_cons {shapes : List Node} {base i : Nat} {e : ConnectError}
    (first : fault distance base lower upper = none)
    (later : FirstFault distance (base + 1) (upper :: shapes) i e) :
    FirstFault distance base (lower :: upper :: shapes) (i + 1) e := by
  obtain ⟨clear, one, next, neighbours, wrong⟩ := later
  refine ⟨clear_cons first clear, one, next, neighbours_succ.mpr neighbours, ?_⟩
  rwa [show base + (i + 1) = base + 1 + i by omega]

-- Either all pairs are joined, or the first that has something wrong ends the stack.
theorem stack_outcome (positive : Positive distance) {shapes : List Node} (valid : ∀ s ∈ shapes, s.Valid)
    (base : Nat) :
    (∃ solids, stack distance base shapes = .ok solids ∧ solids.length = shapes.length - 1 ∧
      Clear distance base shapes shapes.length) ∨
    ∃ i e, FirstFault distance base shapes i e ∧ stack distance base shapes = .error e := by
  induction shapes generalizing base with
  | nil => exact .inl ⟨[], rfl, rfl, fun j one next below => absurd below (Nat.not_lt_zero j)⟩
  | cons lower shapes ih =>
    cases shapes with
    | nil => exact .inl ⟨[], rfl, rfl, fun j one next below neighbours => absurd neighbours alone⟩
    | cons upper rest =>
      obtain ⟨first, others⟩ := List.forall_mem_cons.mp valid
      have second := (List.forall_mem_cons.mp others).1
      cases wrong : fault distance base lower upper with
      | some e =>
        refine .inr ⟨0, e, ⟨fun j one next below => absurd below (Nat.not_lt_zero j), ?_⟩, ?_⟩
        · exact ⟨lower, upper, neighbours_zero.mpr ⟨rfl, rfl⟩, wrong⟩
        · exact stack_faulty positive first second wrong rest
      | none =>
        obtain ⟨placed, stacked⟩ := stack_clear positive first second wrong rest
        rw [stacked]
        rcases ih others (base + 1) with ⟨solids, above, count, clear⟩ | ⟨i, e, later, above⟩
        · refine .inl ⟨placed :: solids, by rw [above]; rfl, ?_, clear_cons wrong clear⟩
          rw [List.length_cons, count]
          rfl
        · exact .inr ⟨i + 1, e, firstFault_cons wrong later, by rw [above]; rfl⟩

end

end Layers

section
variable {shapes : List Node} {distance : Float} {orientation : Orientation}

theorem connect_few (few : shapes.length < 2) :
    connect shapes distance orientation = .error (.tooFewShapes shapes.length) := if_pos few

theorem connect_distance (enough : 2 ≤ shapes.length) (bad : ¬Positive distance) :
    connect shapes distance orientation = .error (.layerDistance distance) := by
  have refused : ¬(decide (0.0 < distance) && distance.isFinite) = true := by
    simp only [Bool.and_eq_true, decide_eq_true_eq]
    exact fun ⟨above, finite⟩ => bad ⟨finite, above⟩
  rw [connect, if_neg (Nat.not_lt.mpr enough), if_neg refused]

-- From here on only the stack can fail: a union of at least one solid can be made and turned.
theorem connect_stacked (enough : 2 ≤ shapes.length) (positive : Positive distance) {solids : List Node}
    (stacked : Layers.stack distance 0 shapes = .ok solids) (some : solids ≠ []) :
    ∃ solid, connect shapes distance orientation = .ok solid := by
  have accepted : (decide (0.0 < distance) && distance.isFinite) = true := by
    simp only [Bool.and_eq_true, decide_eq_true_eq]
    exact ⟨positive.2, positive.1⟩
  have tower : Node.layers solids = .ok (.combine (.union true) solids) :=
    Node.layers_ok.mpr ⟨List.length_pos_iff.mpr some, rfl⟩
  rw [connect, if_neg (Nat.not_lt.mpr enough), if_pos accepted, stacked]
  simp only [bind, Except.bind, tower]
  cases orientation with
  | vertical => exact ⟨.combine (.union true) solids, rfl⟩
  | horizontal =>
    exact ⟨.transform (.rotate 90.0 ⟨0.0, 1.0, 0.0⟩) (.combine (.union true) solids), rfl⟩

theorem connect_failed (enough : 2 ≤ shapes.length) (positive : Positive distance) {e : ConnectError}
    (failed : Layers.stack distance 0 shapes = .error e) :
    connect shapes distance orientation = .error e := by
  have accepted : (decide (0.0 < distance) && distance.isFinite) = true := by
    simp only [Bool.and_eq_true, decide_eq_true_eq]
    exact ⟨positive.2, positive.1⟩
  rw [connect, if_neg (Nat.not_lt.mpr enough), if_pos accepted, failed]
  rfl

namespace Layers

theorem firstFault_unique {base i i' : Nat} {e e' : ConnectError} (one : FirstFault distance base shapes i e)
    (other : FirstFault distance base shapes i' e') : i = i' ∧ e = e' := by
  obtain ⟨clear, lower, upper, place, wrong⟩ := one
  obtain ⟨clear', lower', upper', place', wrong'⟩ := other
  rcases Nat.lt_trichotomy i i' with below | same | above
  · rw [clear' i lower upper below place] at wrong
    cases wrong
  · subst same
    cases place.1.symm.trans place'.1
    cases place.2.symm.trans place'.2
    exact ⟨rfl, Option.some.inj (wrong.symm.trans wrong')⟩
  · rw [clear i' lower' upper' above place'] at wrong'
    cases wrong'

theorem firstFault_unclear {base i : Nat} {e : ConnectError} (first : FirstFault distance base shapes i e) :
    ¬Clear distance base shapes shapes.length := by
  obtain ⟨_, lower, upper, place, wrong⟩ := first
  intro clear
  have inside : i < shapes.length := (List.getElem?_eq_some_iff.mp place.1).1
  rw [clear i lower upper inside place] at wrong
  cases wrong

-- What neighbours agree on, all agree on.
theorem agreed {α : Type} {view : Node → α}
    (same : ∀ i lower upper, Neighbours shapes i lower upper → view lower = view upper) {first : Node}
    (start : shapes[0]? = some first) : ∀ s ∈ shapes, view s = view first := by
  have climb (i : Nat) : ∀ s, shapes[i]? = some s → view s = view first := by
    induction i with
    | zero =>
      intro s place
      cases start.symm.trans place
      rfl
    | succ i ih =>
      intro s place
      have inside : i < shapes.length := Nat.lt_of_succ_lt (List.getElem?_eq_some_iff.mp place).1
      have below : shapes[i]? = some shapes[i] := List.getElem?_eq_getElem inside
      rw [← same i shapes[i] s ⟨below, place⟩]
      exact ih shapes[i] below
  intro s member
  obtain ⟨i, place⟩ := List.mem_iff_getElem?.mp member
  exact climb i s place

-- All layers are of one kind that can be joined, all polygons have as many vertices, and no solid
-- is moved too high.
structure Connectable (shapes : List Node) (distance : Float) : Prop where
  kinds : ∃ kind ∈ joinable, ∀ s ∈ shapes, s.kind = kind
  counts : ∀ points points', .shape (.polygon points) ∈ shapes → .shape (.polygon points') ∈ shapes →
    (vertices points).length = (vertices points').length
  finite : ∀ i, i + 2 ≤ shapes.length → (height distance i).isFinite

theorem neighbours_exist {i : Nat} (inside : i + 2 ≤ shapes.length) :
    ∃ lower upper, Neighbours shapes i lower upper :=
  ⟨shapes[i], shapes[i + 1], List.getElem?_eq_getElem (by omega), List.getElem?_eq_getElem (by omega)⟩

theorem clear_connectable (enough : 2 ≤ shapes.length) :
    Clear distance 0 shapes shapes.length ↔ Connectable shapes distance := by
  constructor
  · intro clear
    have pairs (i : Nat) (lower upper : Node) (place : Neighbours shapes i lower upper) :
        mismatch lower upper = none ∧ (height distance i).isFinite := by
      have inside : i < shapes.length := (List.getElem?_eq_some_iff.mp place.1).1
      have good := fault_none.mp (clear i lower upper inside place)
      rwa [Nat.zero_add] at good
    have matched (i : Nat) (lower upper : Node) (place : Neighbours shapes i lower upper) :=
      mismatch_none.mp (pairs i lower upper place).1
    obtain ⟨first, second, place⟩ : ∃ lower upper, Neighbours shapes 0 lower upper := neighbours_exist enough
    have kinds := agreed (fun i lower upper place => (matched i lower upper place).1) place.1
    have counts := agreed (fun i lower upper place => (matched i lower upper place).2.2) place.1
    refine ⟨⟨first.kind, (matched 0 first second place).2.1, kinds⟩, ?_, ?_⟩
    · intro points points' member member'
      exact (counts _ member).trans (counts _ member').symm
    · intro i inside
      obtain ⟨lower, upper, place⟩ := neighbours_exist inside
      exact (pairs i lower upper place).2
  · rintro ⟨⟨kind, known, kinds⟩, counts, finite⟩
    intro i lower upper inside place
    have member : lower ∈ shapes := List.mem_of_getElem? place.1
    have member' : upper ∈ shapes := List.mem_of_getElem? place.2
    have same : lower.kind = upper.kind := (kinds lower member).trans (kinds upper member').symm
    have joined : lower.kind ∈ joinable := kinds lower member ▸ known
    have above : i + 1 < shapes.length := (List.getElem?_eq_some_iff.mp place.2).1
    rw [Nat.zero_add]
    refine fault_none.mpr ⟨mismatch_none.mpr ⟨same, joined, ?_⟩, finite i above⟩
    cases joinable_pair same joined with
    | circles | rectangles => rfl
    | polygons points points' => exact counts points points' member member'

end Layers

-- Which lists of layers can be connected, and which error each of the others gives. Too few layers
-- and a bad distance come before what is wrong with a pair.
theorem connect_outcome (shapes : List Node) (valid : ∀ s ∈ shapes, s.Valid) (distance : Float)
    (orientation : Orientation) :
    ((∃ solid, connect shapes distance orientation = .ok solid) ↔
      2 ≤ shapes.length ∧ Positive distance ∧ Layers.Connectable shapes distance) ∧
    (shapes.length < 2 → connect shapes distance orientation = .error (.tooFewShapes shapes.length)) ∧
    (2 ≤ shapes.length → ¬Positive distance →
      connect shapes distance orientation = .error (.layerDistance distance)) ∧
    (2 ≤ shapes.length → Positive distance → ∀ e,
      connect shapes distance orientation = .error e ↔ ∃ i, Layers.FirstFault distance 0 shapes i e) := by
  refine ⟨⟨?_, ?_⟩, connect_few, connect_distance, ?_⟩
  · rintro ⟨solid, connected⟩
    by_cases few : shapes.length < 2
    · rw [connect_few few] at connected
      cases connected
    · have enough := Nat.le_of_not_lt few
      by_cases positive : Positive distance
      · rcases Layers.stack_outcome positive valid 0 with ⟨solids, _, _, clear⟩ | ⟨i, e, _, failed⟩
        · exact ⟨enough, positive, (Layers.clear_connectable enough).mp clear⟩
        · rw [connect_failed enough positive failed] at connected
          cases connected
      · rw [connect_distance enough positive] at connected
        cases connected
  · rintro ⟨enough, positive, connectable⟩
    rcases Layers.stack_outcome positive valid 0 with ⟨solids, stacked, count, _⟩ | ⟨i, e, first, _⟩
    · have some : solids ≠ [] := List.ne_nil_of_length_pos (by omega)
      exact connect_stacked enough positive stacked some
    · exact absurd ((Layers.clear_connectable enough).mpr connectable) (Layers.firstFault_unclear first)
  · intro enough positive e
    rcases Layers.stack_outcome positive valid 0 with ⟨solids, stacked, count, clear⟩ | ⟨i, e', first, failed⟩
    · have some : solids ≠ [] := List.ne_nil_of_length_pos (by omega)
      obtain ⟨solid, connected⟩ : ∃ solid, connect shapes distance orientation = .ok solid :=
        connect_stacked enough positive stacked some
      rw [connected]
      constructor
      · nofun
      · rintro ⟨i, first⟩
        exact absurd clear (Layers.firstFault_unclear first)
    · rw [connect_failed enough positive failed]
      constructor
      · intro same
        cases same
        exact ⟨i, first⟩
      · rintro ⟨i', first'⟩
        rw [(Layers.firstFault_unique first first').2]

-- Two circles go together; the sphere above them does not go with the second.
theorem connect_outcome_sphere :
    (∀ s ∈ [Node.shape (.circle 3.0), .shape (.circle 8.0), .shape (.sphere 2.0)], s.Valid) ∧
    connect [.shape (.circle 3.0), .shape (.circle 8.0), .shape (.sphere 2.0)] 10.0 .horizontal =
      .error (.mixedShapes .circle .sphere) := by
  have three : Positive 3.0 := Check.positive_ok.mp (rfl : Check.positive "radius" 3.0 = .ok ())
  have eight : Positive 8.0 := Check.positive_ok.mp (rfl : Check.positive "radius" 8.0 = .ok ())
  have two : Positive 2.0 := Check.positive_ok.mp (rfl : Check.positive "radius" 2.0 = .ok ())
  have ten : Positive 10.0 := Check.positive_ok.mp (rfl : Check.positive "height" 10.0 = .ok ())
  have valid : ∀ s ∈ [Node.shape (.circle 3.0), .shape (.circle 8.0), .shape (.sphere 2.0)], s.Valid := by
    simp only [List.forall_mem_cons, Node.valid_shape]
    exact ⟨three, eight, two, List.forall_mem_nil _⟩
  have first : Layers.FirstFault 10.0 0 [.shape (.circle 3.0), .shape (.circle 8.0), .shape (.sphere 2.0)] 1
      (.mixedShapes .circle .sphere) := by
    refine ⟨?_, .shape (.circle 8.0), .shape (.sphere 2.0), ⟨rfl, rfl⟩, rfl⟩
    intro j lower upper below place
    obtain rfl : j = 0 := by omega
    obtain ⟨rfl, rfl⟩ := Layers.neighbours_zero.mp place
    rfl
  exact ⟨valid, ((connect_outcome _ valid 10.0 .horizontal).2.2.2 (by decide) ten _).mpr ⟨1, first⟩⟩

end
end Solid
