import Solid.Node.Make
import Solid.Json
import Solid.Text
import Solid.Decimal
import Solid.Node
namespace Solid

inductive FieldType where
  | number
  | flag
  | numbers
  | pairs
  | triples
  | triangles
  | quads
  | node
  | nodes
  deriving DecidableEq

abbrev FieldType.Value : FieldType → Type
  | .number => Float
  | .flag => Bool
  | .numbers => List Float
  | .pairs => List Point2
  | .triples => List Point3
  | .triangles => List Triangle
  | .quads => List Quad
  | .node => Node
  | .nodes => List Node

structure Field where
  name : String
  type : FieldType
  fallback : Option type.Value

abbrev Record : List Field → Type
  | [] => Unit
  | f :: fields => f.type.Value × Record fields

abbrev Draft : List Field → Type
  | [] => Unit
  | f :: fields => Option f.type.Value × Draft fields

def Draft.empty : (fields : List Field) → Draft fields
  | [] => ()
  | _ :: fields => (none, empty fields)

def Draft.complete : (fields : List Field) → Draft fields → Except String (Record fields)
  | [], _ => .ok ()
  | f :: fields, (slot, more) =>
    match slot.or f.fallback with
    | some v => (complete fields more).map (v, ·)
    | none => .error f.name

def Draft.fill (key : String) (read : (t : FieldType) → Except ε t.Value) :
    (fields : List Field) → Draft fields → Except ε (Draft fields)
  | [], _ => .ok ()
  | f :: fields, (slot, more) =>
    if f.name = key then (read f.type).map fun v => (some v, more)
    else (fill key read fields more).map fun more' => (slot, more')

-- The fallbacks of the fields, or the number of fields before the first that has none.
def Record.fallbacks : (fields : List Field) → Except Nat (Record fields)
  | [] => .ok ()
  | f :: fields =>
    match f.fallback, fallbacks fields with
    | none, _ => .error 0
    | some _, .error n => .error (n + 1)
    | some v, .ok more => .ok (v, more)

namespace Kind

def needed (name : String) (type : FieldType) : Field := ⟨name, type, none⟩

def fields : Kind → List Field
  | .circle => [needed "radius" .number]
  | .circleSector => [needed "radius" .number, needed "angle" .number]
  | .rectangle => [needed "width" .number, needed "height" .number]
  | .polygon => [needed "points" .pairs]
  | .cube => [needed "width" .number, needed "height" .number, needed "depth" .number]
  | .sphere => [needed "radius" .number]
  | .cylinder => [needed "height" .number, needed "radius1" .number, needed "radius2" .number]
  | .polyhedron =>
    [needed "points" .triples, ⟨"triangles", .triangles, some []⟩, ⟨"quads", .quads, some []⟩]
  | .translate | .scale =>
    [needed "x" .number, needed "y" .number, needed "z" .number, needed "item" .node]
  | .rotate => [needed "degrees" .number, needed "vector" .numbers, needed "item" .node]
  | .mirror => [needed "vector" .numbers, needed "item" .node]
  | .union => [needed "items" .nodes, ⟨"layers", .flag, some false⟩]
  | .difference | .intersection => [needed "items" .nodes]
  | .linearExtrusion =>
    [needed "height" .number, ⟨"twist", .number, some (0.0 : Float)⟩, needed "item" .node]
  | .rotateExtrusion => [needed "item" .node]

def make : (kind : Kind) → Record kind.fields → Except Invalid Node
  | .circle, (radius, ()) => Node.circle radius
  | .circleSector, (radius, angle, ()) => Node.circleSector radius angle
  | .rectangle, (width, height, ()) => Node.rectangle width height
  | .polygon, (points, ()) => Node.polygon points
  | .cube, (width, height, depth, ()) => Node.cube width height depth
  | .sphere, (radius, ()) => Node.sphere radius
  | .cylinder, (height, radius1, radius2, ()) => Node.cylinder height radius1 radius2
  | .polyhedron, (points, triangles, quads, ()) => Node.polyhedron points triangles quads
  | .translate, (x, y, z, item, ()) => Node.translate x y z item
  | .rotate, (degrees, vector, item, ()) => Node.rotate degrees vector item
  | .scale, (x, y, z, item, ()) => Node.scale x y z item
  | .mirror, (vector, item, ()) => Node.mirror vector item
  | .union, (items, layered, ()) => if layered then Node.layers items else Node.union items
  | .difference, (items, ()) => Node.difference items
  | .intersection, (items, ()) => Node.intersection items
  | .linearExtrusion, (height, twist, item, ()) => Node.linearExtrusion height twist item
  | .rotateExtrusion, (item, ()) => .ok (Node.rotateExtrusion item)

end Kind

inductive Wanted where
  | number
  | index
  | flag
  | sequence
  | row (width : Nat)
  | node
  | kind
  deriving DecidableEq

def Wanted.message : Wanted → String
  | .number => "f64"
  | .index => "usize"
  | .flag => "a boolean"
  | .sequence => "a sequence"
  | .row width => "an array of length " ++ Decimal.text width
  | .node => "internally tagged enum RawNode"
  | .kind => "variant identifier"

def tick (s : String) : String := "`" ++ s ++ "`"

def Json.description : Json → String
  | .null => "null"
  | .bool b => "boolean " ++ tick (String.ofList (Json.writeBool b))
  | .int n => "integer " ++ tick (String.ofList (Json.writeInt n))
  | .float x => "floating point " ++ tick (Decimal.Layout.json.text x)
  | .string s => "string " ++ Text.quoted s
  | .array _ => "sequence"
  | .object _ => "map"

inductive DataError where
  | wrongType (found : Json) (wanted : Wanted)
  | negativeIndex (n : Int)
  | shortRow (found width : Nat)
  | longRow (found width : Nat)
  | shortNode (kind : Kind) (found : Nat)
  | longNode (kind : Kind) (found : Nat)
  | missingField (name : String)
  | unknownKind (name : String)
  | unknownNumber (n : Nat)
  | invalid (e : Invalid)

def elements (n : Nat) : String :=
  Decimal.text n ++ if n = 1 then " element" else " elements"

def DataError.message : DataError → String
  | .wrongType found wanted =>
    "invalid type: " ++ found.description ++ ", expected " ++ wanted.message
  | .negativeIndex n =>
    "invalid value: " ++ (Json.int n).description ++ ", expected " ++ Wanted.index.message
  | .shortRow found width =>
    "invalid length " ++ Decimal.text found ++ ", expected " ++ (Wanted.row width).message
  | .longRow found width =>
    "invalid length " ++ Decimal.text found ++ ", expected " ++ elements width ++ " in sequence"
  | .shortNode kind found =>
    "invalid length " ++ Decimal.text found ++ ", expected struct variant RawNode::"
      ++ kind.title ++ " with " ++ elements kind.fields.length
  | .longNode kind found =>
    "invalid length " ++ Decimal.text found ++ ", expected " ++ elements kind.fields.length
      ++ " in sequence"
  | .missingField name => "missing field " ++ tick name
  | .unknownKind name =>
    "unknown variant " ++ tick name ++ ", expected one of "
      ++ ", ".intercalate (Kind.all.map fun kind => tick kind.name)
  | .unknownNumber n =>
    "invalid value: " ++ (Json.int n).description ++ ", expected variant index 0 <= i < "
      ++ Decimal.text Kind.all.length
  | .invalid e => e.message

inductive LoadError where
  | json (e : Json.ReadError)
  | node (e : DataError)
  | list (e : DataError)

-- The detail is what the reader of the text says of a text that it refuses.
def LoadError.message (detail : String) : LoadError → String
  | .json _ => "Failed to parse AST JSON: " ++ detail
  | .node e => "Invalid AST node: " ++ e.message
  | .list e => "Invalid AST node list: " ++ e.message

-- Where a node stands: in the document itself, which may be a list, or inside another node.
inductive Position where
  | outer
  | inner
  deriving DecidableEq

namespace Load

def number : Json → Except DataError Float
  | .int n => .ok (Decimal.negateIf (n < 0) (Float.ofNat n.natAbs))
  | .float x => .ok x
  | v => .error (.wrongType v .number)

def index : Json → Except DataError Nat
  | .int n => if 0 ≤ n then .ok n.natAbs else .error (.negativeIndex n)
  | v => .error (.wrongType v .index)

def flag : Json → Except DataError Bool
  | .bool b => .ok b
  | v => .error (.wrongType v .flag)

def each (read : Json → Except DataError α) : List Json → Except DataError (List α)
  | [] => .ok []
  | v :: rest => do
    let x ← read v
    let xs ← each read rest
    return x :: xs

def sequence (read : Json → Except DataError α) : Json → Except DataError (List α)
  | .array items => each read items
  | v => .error (.wrongType v .sequence)

def place (read : Json → Except DataError α) (width : Nat) (items : List Json) (i : Nat) :
    Except DataError α :=
  match items[i]? with
  | some v => read v
  | none => .error (.shortRow i width)

def fits (width : Nat) (items : List Json) : Except DataError Unit :=
  if width < items.length then .error (.longRow items.length width) else .ok ()

def pair : Json → Except DataError Point2
  | .array items => do
    let x ← place number 2 items 0
    let y ← place number 2 items 1
    fits 2 items
    return ⟨x, y⟩
  | v => .error (.wrongType v (.row 2))

def triple : Json → Except DataError Point3
  | .array items => do
    let x ← place number 3 items 0
    let y ← place number 3 items 1
    let z ← place number 3 items 2
    fits 3 items
    return ⟨x, y, z⟩
  | v => .error (.wrongType v (.row 3))

def triangle : Json → Except DataError Triangle
  | .array items => do
    let a ← place index 3 items 0
    let b ← place index 3 items 1
    let c ← place index 3 items 2
    fits 3 items
    return ⟨a, b, c⟩
  | v => .error (.wrongType v (.row 3))

def quad : Json → Except DataError Quad
  | .array items => do
    let a ← place index 4 items 0
    let b ← place index 4 items 1
    let c ← place index 4 items 2
    let d ← place index 4 items 3
    fits 4 items
    return ⟨a, b, c, d⟩
  | v => .error (.wrongType v (.row 4))

-- Only an inner node may give the number of its kind instead of the name.
def kind : Position → Json → Except DataError Kind
  | _, .string name =>
    match Kind.named? name with
    | some k => .ok k
    | none => .error (.unknownKind name)
  | .inner, .int n =>
    if 0 ≤ n then
      match Kind.numbered? n.natAbs with
      | some k => .ok k
      | none => .error (.unknownNumber n.natAbs)
    else .error (.wrongType (.int n) .kind)
  | _, v => .error (.wrongType v .kind)

def kindOf (position : Position) (members : List (String × Json)) : Except DataError Kind :=
  match members.lookup "type" with
  | some v => kind position v
  | none => .error (.missingField "type")

def build (k : Kind) (record : Record k.fields) : Except DataError Node :=
  (k.make record).mapError .invalid

def buildDraft (k : Kind) (draft : Draft k.fields) : Except DataError Node := do
  let record ← (draft.complete k.fields).mapError .missingField
  build k record

mutual

def value : Position → (t : FieldType) → Json → Except DataError t.Value
  | _, .number, v => number v
  | _, .flag, v => flag v
  | _, .numbers, v => sequence number v
  | _, .pairs, v => sequence pair v
  | _, .triples, v => sequence triple v
  | _, .triangles, v => sequence triangle v
  | _, .quads, v => sequence quad v
  | position, .node, .object members => do
    let k ← kindOf position members
    let draft ← membersInto k.fields (Draft.empty k.fields) members
    buildDraft k draft
  | _, .node, .array [] => .error (.missingField "type")
  | position, .node, .array (tag :: rest) => do
    let k ← kind position tag
    let record ← row k 0 k.fields rest
    build k record
  | _, .node, v => .error (.wrongType v .node)
  | position, .nodes, .array items => nodes position items
  | _, .nodes, v => .error (.wrongType v .sequence)

def nodes : Position → List Json → Except DataError (List Node)
  | _, [] => .ok []
  | position, v :: rest => do
    let node ← value position .node v
    let others ← nodes position rest
    return node :: others

def membersInto (fields : List Field) (draft : Draft fields) :
    List (String × Json) → Except DataError (Draft fields)
  | [] => .ok draft
  | (key, v) :: rest => do
    let draft ← draft.fill key (fun t => value .inner t v) fields
    membersInto fields draft rest

-- Parameters by position; `before` of them have been read.
def row (k : Kind) (before : Nat) :
    (fields : List Field) → List Json → Except DataError (Record fields)
  | fields, [] => (Record.fallbacks fields).mapError fun n => .shortNode k (before + n)
  | [], rest => .error (.longNode k (before + rest.length))
  | f :: fields, v :: rest => do
    let x ← value .inner f.type v
    let more ← row k (before + 1) fields rest
    return (x, more)

end

end Load

namespace Node

def ofJson (v : Json) : Except DataError Node := Load.value .outer .node v

def loadValue : Json → Except LoadError (List Node)
  | .array items => (Load.nodes .outer items).mapError .list
  | v => ((ofJson v).map fun node => [node]).mapError .node

def load (text : String) : Except LoadError (List Node) := do
  let v ← (Json.read text).mapError .json
  loadValue v

end Node

namespace Save

def pair (p : Point2) : Json := .array [.float p.x, .float p.y]

def triple (p : Point3) : Json := .array [.float p.x, .float p.y, .float p.z]

def index (n : Nat) : Json := .int n

def triangle (t : Triangle) : Json := .array (t.corners.map index)

def quad (q : Quad) : Json := .array (q.corners.map index)

def list (save : α → Json) (xs : List α) : Json := .array (xs.map save)

def shape : Shape → List (String × Json)
  | .circle r => [("radius", .float r)]
  | .circleSector r a => [("radius", .float r), ("angle", .float a)]
  | .rectangle w h => [("width", .float w), ("height", .float h)]
  | .polygon points => [("points", list pair points)]
  | .cube w h d => [("width", .float w), ("height", .float h), ("depth", .float d)]
  | .sphere r => [("radius", .float r)]
  | .cylinder h r r' => [("height", .float h), ("radius1", .float r), ("radius2", .float r')]
  | .polyhedron m =>
    [("points", list triple m.points), ("triangles", list triangle m.triangles),
     ("quads", list quad m.quads)]

def transform : Transform → List (String × Json)
  | .translate p | .scale p => [("x", .float p.x), ("y", .float p.y), ("z", .float p.z)]
  | .rotate degrees axes => [("degrees", .float degrees), ("vector", triple axes)]
  | .mirror axes => [("vector", triple axes)]
  | .linearExtrusion height twist => [("height", .float height), ("twist", .float twist)]
  | .rotateExtrusion => []

def layering : Combination → List (String × Json)
  | .union true => [("layers", .bool true)]
  | _ => []

end Save

namespace Node

def tagged (kind : Kind) (members : List (String × Json)) : Json :=
  .object (("type", .string kind.name) :: members)

mutual

def toJson : Node → Json
  | .shape s => tagged s.kind (Save.shape s)
  | .transform t item => tagged t.kind (Save.transform t ++ [("item", item.toJson)])
  | .combine c items => tagged c.kind (("items", .array (listToJson items)) :: Save.layering c)

def listToJson : List Node → List Json
  | [] => []
  | node :: rest => node.toJson :: listToJson rest

end

theorem listToJson_map (nodes : List Node) : listToJson nodes = nodes.map toJson := by
  induction nodes with
  | nil => rfl
  | cons node rest ih => rw [listToJson, ih, List.map_cons]

def compact (node : Node) : String := node.toJson.compact

def pretty (node : Node) : String := node.toJson.pretty

end Node
end Solid
