import Solid.Proofs.Calls
import Solid.Proofs.Connecting
namespace Solid

-- A flat profile: a circle around the origin, or a ring of corners in order.
inductive Profile where
  | round (radius : Float)
  | ring (corners : List Point2)

-- What a layer is cut out by. The point that closes a polygon is not a corner.
def Shape.profile : Shape → Option Profile
  | .circle r => some (.round r)
  | .rectangle w h =>
    some (.ring [⟨-(w / 2.0), -(h / 2.0)⟩, ⟨-(w / 2.0), h / 2.0⟩, ⟨w / 2.0, h / 2.0⟩, ⟨w / 2.0, -(h / 2.0)⟩])
  | .polygon points => some (.ring points.dropLast)
  | _ => none

def Node.profile : Node → Option Profile
  | .shape s => s.profile
  | _ => none

-- A solid from one profile at the height zero to another at the given height.
inductive Spans (height : Float) : Profile → Profile → Shape → Prop
  | round (r r' : Float) : Spans height (.round r) (.round r') (.cylinder height r r')
  | ring {lower upper : List Point2} {m : Mesh} (corners : lower.length = upper.length)
    (points : m.points =
      lower.map (fun p => ⟨p.x, p.y, 0.0⟩) ++ upper.map (fun p => ⟨p.x, p.y, height⟩)) :
    Spans height (.ring lower) (.ring upper) (.polyhedron m)

def Point3.flat (p : Point3) : Point2 := ⟨p.x, p.y⟩

-- The profiles at both ends of a solid, read off the solid alone. The corners of a polyhedron
-- between two layers are those below and then as many above.
def Shape.ends : Shape → Option (Profile × Profile)
  | .cylinder _ r r' => some (.round r, .round r')
  | .polyhedron m =>
    let corners := m.points.map Point3.flat
    let half := corners.length / 2
    some (.ring (corners.take half), .ring (corners.drop half))
  | _ => none

theorem spans_ends {height : Float} {lower upper : Profile} {s : Shape} (spans : Spans height lower upper s) :
    s.ends = some (lower, upper) := by
  cases spans with
  | round r r' => rfl
  | @ring lower upper m corners points =>
    have flat : m.points.map Point3.flat = lower ++ upper := by
      rw [points, List.map_append, List.map_map, List.map_map]
      exact congrArg₂ (· ++ ·) (List.map_id lower) (List.map_id upper)
    have half : (lower ++ upper).length / 2 = lower.length := by
      rw [List.length_append, ← corners]
      omega
    simp only [Shape.ends, flat, half, List.take_left', List.drop_left']

namespace Layers

section
variable {distance : Float} {lower upper solid : Node}

theorem rings_span {lower upper : List Point2} (corners : lower.length = upper.length) (ts : List Triangle)
    (qs : List Quad) :
    Spans distance (.ring lower) (.ring upper) (.polyhedron ⟨rings lower upper distance, ts, qs⟩) :=
  .ring corners rfl

theorem rectangle_profile (w h : Float) : (Shape.rectangle w h).profile = some (.ring (corners w h)) := rfl

-- What joins two layers spans their profiles.
theorem join_spans (joined : join lower upper distance = .ok solid) :
    ∃ bottom top s, lower.profile = some bottom ∧ upper.profile = some top ∧ solid = .shape s ∧
      Spans distance bottom top s := by
  unfold join at joined
  split at joined
  · next r r' =>
    obtain ⟨_, rfl⟩ := Node.cylinder_ok.mp (mapError_ok.mp joined)
    exact ⟨_, _, _, rfl, rfl, rfl, .round r r'⟩
  · next w h w' h' =>
    obtain ⟨_, rfl⟩ := frustum_ok.mp (mapError_ok.mp joined)
    have corners : (corners w h).length = (corners w' h').length := by simp only [corners, List.length_cons]
    exact ⟨_, _, _, rectangle_profile w h, rectangle_profile w' h', rfl, rings_span corners [] boxQuads⟩
  · obtain ⟨corners, _, rfl⟩ := prism_ok.mp joined
    exact ⟨_, _, _, rfl, rfl, rfl, rings_span corners _ _⟩
  · split at joined <;> cases joined

-- One solid for each pair of neighbours, in their order and at its height.
theorem stack_follows {shapes placed : List Node} {base : Nat}
    (stacked : stack distance base shapes = .ok placed) :
    placed.length = shapes.length - 1 ∧ ∀ i lower upper, Neighbours shapes i lower upper →
      ∃ solid, join lower upper distance = .ok solid ∧
        placed[i]? = some (.transform (.translate ⟨0.0, 0.0, height distance (base + i)⟩) solid) := by
  fun_induction stack distance base shapes generalizing placed with
  | case1 base lower upper rest ih =>
    simp only [bind_ok, mapError_ok, Node.translate_ok, Node.return_ok] at stacked
    obtain ⟨solid, joined, _, ⟨_, rfl⟩, above, more, rfl⟩ := stacked
    obtain ⟨count, follows⟩ := ih more
    refine ⟨by simp only [List.length_cons, count]; omega, ?_⟩
    intro i one next neighbours
    cases i with
    | zero =>
      obtain ⟨rfl, rfl⟩ := neighbours_zero.mp neighbours
      exact ⟨solid, joined, rfl⟩
    | succ i =>
      obtain ⟨solid', joined', place⟩ := follows i one next (neighbours_succ.mp neighbours)
      refine ⟨solid', joined', ?_⟩
      rw [List.getElem?_cons_succ, place, show base + 1 + i = base + (i + 1) by omega]
  | case2 shapes base short =>
    cases stacked
    cases shapes with
    | nil => exact ⟨rfl, fun i one next neighbours => absurd neighbours.1 (by simp)⟩
    | cons lower others =>
      cases others with
      | nil => exact ⟨rfl, fun i one next neighbours => absurd neighbours alone⟩
      | cons upper rest => exact absurd rfl (short lower upper rest)

-- A solid and its translation for each pair.
theorem stack_count {shapes placed : List Node} {base : Nat}
    (stacked : stack distance base shapes = .ok placed) :
    Node.countAll placed = 2 * (shapes.length - 1) := by
  have each : ∀ node ∈ placed, node.count = 2 := by
    intro node member
    obtain ⟨_, solid, rfl, _, one, _, next, _, joined⟩ := stack_joined stacked node member
    obtain ⟨_, _, s, _, _, rfl, _⟩ := join_spans joined
    rfl
  rw [Node.countAll_sum, List.map_congr_left each, List.map_const', List.sum_replicate,
    (stack_follows stacked).1, smul_eq_mul, Nat.mul_comm]

end

end Layers

-- Standing up, or turned to lie along x.
def Orientation.turned : Orientation → Node → Node
  | .vertical, tower => tower
  | .horizontal, tower => .transform (.rotate 90.0 ⟨0.0, 1.0, 0.0⟩) tower

section
variable {shapes : List Node} {distance : Float} {orientation : Orientation} {node : Node}

-- Only the standing stack is made of the layers; the lying one is made of it.
theorem connect_turned (shapes : List Node) (distance : Float) (orientation : Orientation) :
    connect shapes distance orientation = (connect shapes distance .vertical).map orientation.turned := by
  have right : (90.0 : Float).isFinite := by decide
  have upright : Point3.Axes ⟨0.0, 1.0, 0.0⟩ :=
    ⟨.inl (by decide), .inr (by decide), .inl (by decide), .inr (.inl (by decide))⟩
  have turn (tower : Node) : Node.rotate 90.0 [0.0, 1.0, 0.0] tower =
      .ok (.transform (.rotate 90.0 ⟨0.0, 1.0, 0.0⟩) tower) := Node.rotate_ok.mpr ⟨_, rfl, ⟨right, upright⟩, rfl⟩
  unfold connect
  split
  · rfl
  · split
    · cases Layers.stack distance 0 shapes with
      | error e => rfl
      | ok placed =>
        cases made : (Node.layers placed).mapError ConnectError.invalid with
        | error e => simp only [bind, Except.bind, made, Except.map]
        | ok tower => cases orientation <;> simp only [bind, Except.bind, made, turn] <;> rfl
    · rfl

theorem connect_standing {tower : Node} (connected : connect shapes distance .vertical = .ok tower) :
    2 ≤ shapes.length ∧ ∃ placed, Layers.stack distance 0 shapes = .ok placed ∧
      tower = .combine (.union true) placed := by
  unfold connect at connected
  split at connected
  · cases connected
  · next enough =>
    split at connected
    · simp only [bind_ok, mapError_ok, Node.layers_ok] at connected
      obtain ⟨placed, stacked, _, ⟨_, rfl⟩, same⟩ := connected
      exact ⟨Nat.le_of_not_lt enough, placed, stacked, Node.return_ok.mp same⟩
    · cases connected

-- The layers in order, each joined once to the next one, with nothing between two solids but the
-- layer that they share; lying down, the stack is the same one turned.
theorem connect_follows (connected : connect shapes distance orientation = .ok node) :
    ∃ items : List Node, connect shapes distance .vertical = .ok (.combine (.union true) items) ∧
      items.length + 1 = shapes.length ∧ 2 ≤ shapes.length ∧
      (∀ (i : Nat) (lower upper : Node), shapes[i]? = some lower → shapes[i + 1]? = some upper →
        ∃ (bottom top : Profile) (s : Shape), lower.profile = some bottom ∧ upper.profile = some top ∧
          items[i]? = some (.transform (.translate ⟨0.0, 0.0, Float.ofNat i * distance⟩) (.shape s)) ∧
          Spans distance bottom top s) ∧
      (∀ (i : Nat) (moved moved' : Transform) (s s' : Shape), items[i]? = some (.transform moved (.shape s)) →
        items[i + 1]? = some (.transform moved' (.shape s')) →
        ∃ below seam above : Profile, s.ends = some (below, seam) ∧ s'.ends = some (seam, above)) ∧
      (Node.combine (.union true) items).count + 1 = 2 * shapes.length ∧
      (orientation = .vertical → node = .combine (.union true) items) ∧
      (orientation = .horizontal →
        node = .transform (.rotate 90.0 ⟨0.0, 1.0, 0.0⟩) (.combine (.union true) items) ∧
        node.count = 2 * shapes.length) := by
  rw [connect_turned, map_ok] at connected
  obtain ⟨_, standing, rfl⟩ := connected
  obtain ⟨enough, items, stacked, rfl⟩ := connect_standing standing
  obtain ⟨length, follows⟩ := Layers.stack_follows stacked
  have spanned (i : Nat) (lower upper : Node) (below : shapes[i]? = some lower)
      (above : shapes[i + 1]? = some upper) :
      ∃ bottom top s, lower.profile = some bottom ∧ upper.profile = some top ∧
        items[i]? = some (.transform (.translate ⟨0.0, 0.0, Float.ofNat i * distance⟩) (.shape s)) ∧
        Spans distance bottom top s := by
    obtain ⟨solid, joined, place⟩ := follows i lower upper ⟨below, above⟩
    obtain ⟨bottom, top, s, bottom_profile, top_profile, rfl, spans⟩ := Layers.join_spans joined
    rw [Nat.zero_add] at place
    exact ⟨bottom, top, s, bottom_profile, top_profile, place, spans⟩
  have count : (Node.combine (.union true) items).count + 1 = 2 * shapes.length := by
    rw [Node.count, Layers.stack_count stacked]
    omega
  refine ⟨items, standing, by omega, enough, spanned, ?_, count, ?_, ?_⟩
  · intro i moved moved' s s' first second
    have inside : i + 1 < items.length := (List.getElem?_eq_some_iff.mp second).1
    -- The middle one of three layers in a row is the seam.
    have layer (j : Nat) (low : j < shapes.length) : shapes[j]? = some shapes[j] := List.getElem?_eq_getElem low
    obtain ⟨below, seam, one, _, middle, place, spans⟩ :=
      spanned i _ _ (layer i (by omega)) (layer (i + 1) (by omega))
    obtain ⟨seam', above, next, middle', _, place', spans'⟩ :=
      spanned (i + 1) _ _ (layer (i + 1) (by omega)) (layer (i + 2) (by omega))
    cases Option.some.inj (middle.symm.trans middle')
    cases Option.some.inj (first.symm.trans place)
    cases Option.some.inj (second.symm.trans place')
    exact ⟨below, seam, above, spans_ends spans, spans_ends spans'⟩
  · rintro rfl
    rfl
  · rintro rfl
    refine ⟨rfl, ?_⟩
    change 1 + (Node.combine (.union true) items).count = _
    omega

-- Triangles that grow from one layer to the next.
def wedge (size : Float) : Node :=
  .shape (.polygon [⟨0.0, 0.0⟩, ⟨0.0, size⟩, ⟨size, 0.0⟩, ⟨0.0, 0.0⟩])

theorem wedges_connected : ∃ node, connect [wedge 1.0, wedge 2.0, wedge 4.0] 1.5 .horizontal = .ok node := by
  have one : Ring [⟨0.0, 0.0⟩, ⟨0.0, 1.0⟩, ⟨1.0, 0.0⟩, ⟨0.0, 0.0⟩] := Check.ring_ok.mp rfl
  have two : Ring [⟨0.0, 0.0⟩, ⟨0.0, 2.0⟩, ⟨2.0, 0.0⟩, ⟨0.0, 0.0⟩] := Check.ring_ok.mp rfl
  have four : Ring [⟨0.0, 0.0⟩, ⟨0.0, 4.0⟩, ⟨4.0, 0.0⟩, ⟨0.0, 0.0⟩] := Check.ring_ok.mp rfl
  have valid : ∀ s ∈ [wedge 1.0, wedge 2.0, wedge 4.0], s.Valid := by
    simp only [List.forall_mem_cons, wedge, Node.valid_shape]
    exact ⟨one, two, four, List.forall_mem_nil _⟩
  have positive : Positive 1.5 := Check.positive_ok.mp (rfl : Check.positive "height" 1.5 = .ok ())
  have connectable : Layers.Connectable [wedge 1.0, wedge 2.0, wedge 4.0] 1.5 := by
    refine ⟨⟨.polygon, by decide, by simp [wedge, Node.kind, Shape.kind]⟩, ?_, ?_⟩
    · have three (points : List Point2) (member : .shape (.polygon points) ∈ [wedge 1.0, wedge 2.0, wedge 4.0]) :
          (vertices points).length = 3 := by
        simp only [wedge, List.mem_cons, Node.shape.injEq, Shape.polygon.injEq, List.not_mem_nil, or_false] at member
        rcases member with same | same | same <;> rw [same] <;> rfl
      exact fun points points' member member' => (three points member).trans (three points' member').symm
    · have low : (Layers.height 1.5 0).isFinite ∧ (Layers.height 1.5 1).isFinite := by decide
      intro i inside
      have few : i = 0 ∨ i = 1 := by simp at inside; omega
      rcases few with rfl | rfl
      · exact low.1
      · exact low.2
  have clear := (Layers.clear_connectable (by decide)).mpr connectable
  rcases Layers.stack_outcome positive valid 0 with ⟨placed, stacked, count, _⟩ | ⟨i, e, first, _⟩
  · exact connect_stacked (by decide) positive stacked (List.ne_nil_of_length_pos (by simp [count]))
  · exact absurd clear (Layers.firstFault_unclear first)

-- Turned on its side, the stack still has the second layer under its second solid.
theorem connect_follows_wedges :
    ∃ (node : Node) (items : List Node), connect [wedge 1.0, wedge 2.0, wedge 4.0] 1.5 .horizontal = .ok node ∧
      node = .transform (.rotate 90.0 ⟨0.0, 1.0, 0.0⟩) (.combine (.union true) items) ∧ node.count = 6 ∧
      ∃ (bottom top : Profile) (s : Shape), (wedge 2.0).profile = some bottom ∧ (wedge 4.0).profile = some top ∧
        items[1]? = some (.transform (.translate ⟨0.0, 0.0, 1.5⟩) (.shape s)) ∧ Spans 1.5 bottom top s := by
  obtain ⟨node, connected⟩ := wedges_connected
  obtain ⟨items, _, _, _, spanned, _, _, _, lying⟩ := connect_follows connected
  obtain ⟨rfl, count⟩ := lying rfl
  have once : Float.ofNat 1 * 1.5 = 1.5 := by decide
  have second := spanned 1 (wedge 2.0) (wedge 4.0) rfl rfl
  rw [once] at second
  exact ⟨_, items, connected, rfl, count, second⟩

end
end Solid
