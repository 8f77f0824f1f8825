import Solid.Geometry
import Solid.Files
import Solid.Toml.Reader
import Solid.Toml.Text
namespace Solid

structure Config where
  layerDistance : Float
  orientation : Orientation
  outputDir : Option String
  verbose : Bool
  deriving DecidableEq

inductive ConfigError where
  | unreadable (path : String) (cause : FileError)
  -- Some faults of the text have a wording of their own.
  | malformed (path : String) (detail : Option String)
  | unwritable (path : String) (cause : FileError)
  | layerDistance (text : String) (cause : Decimal.Misread)
  | orientation (cause : ConnectError)
  | verbose (text : String)
  deriving DecidableEq

def ConfigError.message (detail : String) : ConfigError → String
  | .unreadable path cause =>
    "Failed to read config file: " ++ Text.quoted path ++ ": " ++ cause.message
  | .malformed path _ => "Failed to parse config file: " ++ Text.quoted path ++ ": " ++ detail
  | .unwritable path cause =>
    "Failed to write config file: " ++ Text.quoted path ++ ": " ++ cause.message
  | .layerDistance text cause =>
    "Invalid TANGIBLE_LAYER_DISTANCE: " ++ text ++ ": " ++ cause.message
  | .orientation cause => "Invalid TANGIBLE_ORIENTATION: " ++ cause.message
  | .verbose text =>
    "Invalid TANGIBLE_VERBOSE: " ++ text ++ ": provided string was not `true` or `false`"

namespace Config

def default : Config := ⟨10.0, .vertical, none, false⟩

def fileName : String := "tangible.toml"

def described : Toml.Item → String
  | .text s => "string " ++ Text.quoted s
  | .integer n =>
    "integer `" ++ (if n < 0 then "-" else "") ++ Decimal.text n.natAbs ++ "`"
  | .float x => "floating point `" ++ { Decimal.Layout.measure with pointed := true }.text x ++ "`"
  | .boolean b => "boolean `" ++ (if b then "true" else "false") ++ "`"
  | .array _ | .tables _ => "sequence"
  | .moment | .table _ _ => "map"

abbrev Fault := Option String

def wrongType (got : Toml.Item) (wanted : String) : Fault :=
  some ("invalid type: " ++ described got ++ ", expected " ++ wanted)

def namedOrientation (name : String) : Except Fault Orientation :=
  match Orientation.named name with
  | .ok o => .ok o
  | .error _ =>
    .error (some ("unknown variant `" ++ name ++ "`, expected `vertical` or `horizontal`"))

def isHollow : Toml.Item → Bool
  | .array items => items.isEmpty
  | .table _ entries => entries.isEmpty
  | .tables members => members.isEmpty
  | _ => false

-- A table with one key, which holds nothing, says as much as the key alone.
def readOrientation : Toml.Item → Except Fault Orientation
  | .text name => namedOrientation name
  | .table _ [(name, item)] => do
    let o ← namedOrientation name
    if isHollow item then .ok o else .error none
  | _ => .error none

def setEntry (c : Config) (entry : String × Toml.Item) : Except Fault Config :=
  match entry with
  | ("layer_distance", item) =>
    match item with
    | .float x => .ok { c with layerDistance := x }
    | .integer n =>
      .ok { c with layerDistance := Decimal.negateIf (n < 0) (Float.ofNat n.natAbs) }
    | item => .error (wrongType item "f64")
  | ("orientation", item) => do
    let o ← readOrientation item
    .ok { c with orientation := o }
  | ("output_dir", item) =>
    match item with
    | .text path => .ok { c with outputDir := some path }
    | item => .error (wrongType item "path string")
  | ("verbose", item) =>
    match item with
    | .boolean b => .ok { c with verbose := b }
    | item => .error (wrongType item "a boolean")
  | _ => .ok c

-- Keys that are not known are passed over. A setting that is absent has its default.
def ofText (text : String) : Except Fault Config :=
  match Toml.read? text with
  | none => .error none
  | some entries => entries.foldlM setEntry default

def line (key value : String) : String := key ++ " = " ++ value ++ "\n"

def toText (c : Config) : String :=
  line "layer_distance" (Decimal.Layout.setting.text c.layerDistance)
    ++ line "orientation" (Toml.quote c.orientation.name)
    ++ (match c.outputDir with
      | some path => line "output_dir" (Toml.quote path)
      | none => "")
    ++ line "verbose" (if c.verbose then "true" else "false")

abbrev Environment := String → Option String

structure Variable where
  name : String
  set : Config → String → Except ConfigError Config

def layerDistanceVariable : Variable where
  name := "TANGIBLE_LAYER_DISTANCE"
  set c text :=
    match Decimal.read text with
    | .ok x => .ok { c with layerDistance := x }
    | .error e => .error (.layerDistance text e)

def orientationVariable : Variable where
  name := "TANGIBLE_ORIENTATION"
  set c text :=
    match Orientation.named text with
    | .ok o => .ok { c with orientation := o }
    | .error e => .error (.orientation e)

def outputDirVariable : Variable where
  name := "TANGIBLE_OUTPUT_DIR"
  set c text := .ok { c with outputDir := some text }

def verboseVariable : Variable where
  name := "TANGIBLE_VERBOSE"
  set c text :=
    if text = "true" then .ok { c with verbose := true }
    else if text = "false" then .ok { c with verbose := false }
    else .error (.verbose text)

def overrides : List Variable :=
  [layerDistanceVariable, orientationVariable, outputDirVariable, verboseVariable]

-- The first text that is refused ends the run. What the variables before it have changed stays.
def applyAll (env : Environment) : List Variable → Config → Config × Option ConfigError
  | [], c => (c, none)
  | v :: rest, c =>
    match env v.name with
    | none => applyAll env rest c
    | some text =>
      match v.set c text with
      | .ok c => applyAll env rest c
      | .error e => (c, some e)

def applyEnvironment (c : Config) (env : Environment) : Config × Option ConfigError :=
  applyAll env overrides c

def outputPath (c : Config) (path : String) : String :=
  match c.outputDir with
  | some folder => Path.join folder path
  | none => path

section
variable {m : Type → Type} [Monad m] (host : Host m)

def fromFile (path : String) : ExceptT ConfigError m Config := do
  let text ← Host.attempt (.unreadable path) (host.read path)
  Host.attempt (.malformed path) (pure (ofText text))

def load (env : Environment) : ExceptT ConfigError m Config := do
  let base ← if ← host.present fileName then fromFile host fileName else pure default
  match base.applyEnvironment env with
  | (c, none) => pure c
  | (_, some e) => throw e

def save (c : Config) (path : String) : ExceptT ConfigError m Unit :=
  Host.attempt (.unwritable path) (host.write path c.toText)

end
end Config
end Solid
