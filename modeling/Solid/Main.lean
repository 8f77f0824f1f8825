import Solid.Cli
namespace Solid.Main

-- Error numbers come with either sign.
def hasNumber (code n : UInt32) : Bool := code = n || code = -n

def fileError : IO.Error → FileError
  | .noFileOrDirectory .. => .notFound
  | .alreadyExists .. => .alreadyThere
  | .inappropriateType _ code details =>
    if hasNumber code 20 then .notFolder
    else if hasNumber code 21 then .isFolder
    else .other details
  | e => .other (toString e)

def attempt (action : IO α) : IO (Except FileError α) :=
  try return .ok (← action) catch e => return .error (fileError e)

def succeeds (action : IO α) : IO Bool :=
  try
    let _ ← action
    return true
  catch _ => return false

def host : Host IO where
  read path := attempt (IO.FS.readFile path)
  write path text := attempt (IO.FS.writeFile path text)
  makeFolder path := attempt (IO.FS.createDir path)
  -- Only a folder has a dot in it.
  isFolder path := succeeds (IO.FS.Handle.mk (path ++ "/.") .read)
  present path := succeeds (IO.FS.Handle.mk path .read)
  now := return (← IO.monoNanosNow) / 1000

def environment : IO Config.Environment := do
  let texts ← Config.overrides.mapM fun v => return (v.name, ← IO.getEnv v.name)
  return fun name => (texts.lookup name).join

end Solid.Main

def main (arguments : List String) : IO UInt32 := do
  let outcome ← Solid.Cli.run Solid.Main.host (← Solid.Main.environment) arguments
  IO.print outcome.output
  IO.eprint (outcome.errors "the text is malformed")
  return outcome.exitCode.toUInt32
