import Solid.Geometry
import Solid.Decimal
import Solid.Session
import Solid.Node.Json
namespace Solid.Cli

inductive Verb where
  | render
  | connect
  | version
  deriving DecidableEq

def Verb.named? (name : String) : Option Verb :=
  if name = "render" then some .render
  else if name = "connect" then some .connect
  else if name = "version" then some .version
  else none

inductive Name where
  | verbose
  | output
  | layerDistance
  | orientation
  | ast
  deriving DecidableEq

def Name.long : Name → String
  | .verbose => "verbose"
  | .output => "output"
  | .layerDistance => "layer-distance"
  | .orientation => "orientation"
  | .ast => "ast"

def Name.short? : Name → Option Char
  | .verbose => some 'v'
  | .output => some 'o'
  | .layerDistance => some 'd'
  | .orientation | .ast => none

def Name.takesValue : Name → Bool
  | .verbose | .ast => false
  | .output | .layerDistance | .orientation => true

def Verb.names : Verb → List Name
  | .render => [.verbose, .output]
  | .connect => [.verbose, .output, .layerDistance, .orientation, .ast]
  | .version => [.verbose]

inductive Part where
  | switch (name : Name)
  | option (name : Name) (value : String)
  | plain (value : String)
  deriving DecidableEq

inductive Word where
  | plain
  -- All arguments behind this one are plain.
  | rest
  | complete (parts : List Part)
  -- The value of the last option is the next argument.
  | pending (parts : List Part) (name : Name)

def Word.push (p : Part) : Word → Word
  | .complete parts => .complete (p :: parts)
  | .pending parts name => .pending (p :: parts) name
  | word => word

-- One letter is one option. What stands behind an option with a value is this value, with or
-- without an equals sign.
def letters (names : List Name) : List Char → Option Word
  | [] => some (.complete [])
  | c :: rest =>
    match names.find? fun name => name.short? = some c with
    | none => none
    | some name =>
      if name.takesValue then
        match rest with
        | [] => some (.pending [] name)
        | '=' :: value => some (.complete [.option name (String.ofList value)])
        | value => some (.complete [.option name (String.ofList value)])
      else (letters names rest).map (Word.push (.switch name))

def long (names : List Name) (text : List Char) : Option Word :=
  let (key, value) := text.span (· ≠ '=')
  match names.find? fun name => name.long.toList = key with
  | none => none
  | some name =>
    match name.takesValue, value with
    | true, _ :: value => some (.complete [.option name (String.ofList value)])
    | true, [] => some (.pending [] name)
    | false, [] => some (.complete [.switch name])
    | false, _ => none

def word (names : List Name) (argument : String) : Option Word :=
  match argument.toList with
  | ['-', '-'] => some .rest
  | '-' :: '-' :: text => long names text
  | ['-'] => some .plain
  | '-' :: text => letters names text
  | _ => some .plain

def isPlain (argument : String) : Bool :=
  argument.toList.head? ≠ some '-' || argument.toList = ['-']

def parts (names : List Name) : List String → Option (List Part)
  | [] => some []
  | argument :: rest =>
    match word names argument with
    | none => none
    | some .rest => some (rest.map .plain)
    | some .plain => (parts names rest).map (.plain argument :: ·)
    | some (.complete first) => (parts names rest).map (first ++ ·)
    | some (.pending first name) =>
      match rest with
      | [] => none
      | value :: rest =>
        if isPlain value then (parts names rest).map (first ++ .option name value :: ·) else none

def splitVerb : List String → Option (Verb × List String)
  | [] => none
  | argument :: rest =>
    match Verb.named? argument with
    | some verb => some (verb, rest)
    | none =>
      match word [.verbose] argument with
      | some (.complete _) => splitVerb rest
      | _ => none

inductive Command where
  | render (input : String) (output : Option String)
  | connect (input : String) (distance : Option Float) (orientation : Option Orientation)
    (output : Option String) (ast : Bool)
  | version
  deriving DecidableEq

def Part.plain? : Part → Option String
  | .plain value => some value
  | _ => none

def Part.value? (name : Name) : Part → Option String
  | .option name' value => if name = name' then some value else none
  | _ => none

def path? (text : String) : Option String := if text.isEmpty then none else some text

def input? (parts : List Part) : Option String :=
  match parts.filterMap Part.plain? with
  | [text] => path? text
  | _ => none

def value? {α : Type} (name : Name) (read : String → Option α) (parts : List Part) :
    Option (Option α) :=
  match parts.filterMap (Part.value? name) with
  | [] => some none
  | [text] => (read text).map some
  | _ => none

def switch? (name : Name) (parts : List Part) : Option Bool :=
  match parts.count (.switch name) with
  | 0 => some false
  | 1 => some true
  | _ => none

def command? (verb : Verb) (parts : List Part) : Option Command := do
  match verb with
  | .render =>
    let input ← input? parts
    let output ← value? .output path? parts
    return .render input output
  | .connect =>
    let input ← input? parts
    let distance ← value? .layerDistance (fun text => (Decimal.read text).toOption) parts
    let orientation ← value? .orientation (fun text => (Orientation.named text).toOption) parts
    let output ← value? .output path? parts
    let ast ← switch? .ast parts
    return .connect input distance orientation output ast
  | .version => if (parts.filterMap Part.plain?).isEmpty then some .version else none

def read? (arguments : List String) : Option Command := do
  let (verb, rest) ← splitVerb arguments
  let parts ← parts verb.names rest
  command? verb parts

def version : String := "0.2.0"

inductive Failure where
  | configuration (cause : ConfigError)
  | session (cause : SessionError)

def Failure.message (detail : String) : Failure → String
  | .configuration cause => "Failed to load configuration: " ++ cause.message detail
  | .session cause => cause.message detail

inductive Outcome where
  -- The arguments do not make a command. Nothing has been done.
  | rejected
  | failed (cause : Failure)
  | succeeded (text : String)

def Outcome.exitCode : Outcome → Nat
  | .succeeded _ => 0
  | .failed _ => 1
  | .rejected => 2

def Outcome.output : Outcome → String
  | .succeeded text => text
  | .failed _ | .rejected => ""

def Outcome.errors (detail : String) : Outcome → String
  | .failed cause => "\n❌ Error: " ++ cause.message detail ++ "\n"
  | .succeeded _ => ""
  | .rejected => "\n❌ Error: the arguments do not make a command\n"

section
variable {m : Type → Type} [Monad m]

def emit (s : Session m) (input : String) (r : Rendering) (text : String) :
    Option String → ExceptT SessionError m String
  | none => return text ++ "\n"
  | some output => do
    let path ← s.write output text
    return Report.text
      { input := input
        trees := r.roots.length
        nodes := r.nodeCount
        lines := Report.lineCount r.source
        output := path
        micros := r.micros }

def perform (s : Session m) : Command → ExceptT SessionError m String
  | .render input output => do
    let r ← s.render input
    emit s input r r.source output
  | .connect input distance orientation output ast => do
    let (solid, r) ← s.connect input distance orientation
    emit s input r (if ast then solid.pretty else r.source) output
  | .version => return "Tangible v" ++ version ++ "\n"

def run (host : Host m) (env : Config.Environment) (arguments : List String) : m Outcome := do
  match read? arguments with
  | none => return .rejected
  | some command =>
    match ← (Config.load host env).run with
    | .error e => return .failed (.configuration e)
    | .ok config =>
      match ← (perform ⟨host, config⟩ command).run with
      | .error e => return .failed (.session e)
      | .ok text => return .succeeded text

end
end Solid.Cli
