namespace Solid.Path

def split : List Char → List (List Char)
  | [] => [[]]
  | c :: rest =>
    if c = '/' then [] :: split rest
    else
      match split rest with
      | [] => [[c]]
      | piece :: more => (c :: piece) :: more

def pieces (path : List Char) : List String := (split path).map String.ofList

def isAbsolute (path : String) : Bool := path.toList.head? = some '/'

def join (folder path : String) : String :=
  if isAbsolute path then path
  else if folder.isEmpty || folder.toList.getLast? = some '/' then folder ++ path
  else folder ++ "/" ++ path

def isIdle (piece : String) : Bool := piece = "" || piece = "."

structure Parts where
  front : String
  pieces : List String

def parts (path : String) : Parts :=
  match path.toList with
  | '/' :: rest => ⟨"/", (pieces rest).reverse⟩
  | ['.'] => ⟨".", []⟩
  | '.' :: '/' :: rest => ⟨".", (pieces ('/' :: rest)).reverse⟩
  | text => ⟨"", (pieces text).reverse⟩

def Parts.text (p : Parts) : String := p.front ++ "/".intercalate p.pieces.reverse

-- What is left after each piece that leads somewhere, the longest rest first. Idle pieces at the
-- end of a rest are dropped.
def above : List String → List (List String)
  | [] => []
  | piece :: before =>
    if isIdle piece then above before else before.dropWhile isIdle :: above before

-- The folders above a path, the nearest first. The folder of a relative path that has one piece
-- is the empty path.
def parents (path : String) : List String :=
  let parts := parts path
  (above parts.pieces).map (fun rest => Parts.text ⟨parts.front, rest⟩)
    ++ if parts.front = "." then [""] else []

def folders (path : String) : List String := (parents path).filter (· ≠ "")

end Solid.Path

namespace Solid

inductive FileError where
  | notFound
  | alreadyThere
  | notFolder
  | isFolder
  | nameTooLong
  | nul
  | other (message : String)
  deriving DecidableEq

def FileError.message : FileError → String
  | .notFound => "No such file or directory (os error 2)"
  | .alreadyThere => "File exists (os error 17)"
  | .notFolder => "Not a directory (os error 20)"
  | .isFolder => "Is a directory (os error 21)"
  | .nameTooLong => "File name too long (os error 36)"
  | .nul => "file name contained an unexpected NUL byte"
  | .other message => message

structure Host (m : Type → Type) where
  read : String → m (Except FileError String)
  write : String → String → m (Except FileError Unit)
  makeFolder : String → m (Except FileError Unit)
  isFolder : String → m Bool
  present : String → m Bool
  now : m Nat

namespace Host
variable {m : Type → Type} [Monad m] (host : Host m)

def attempt {ε δ α : Type} (blame : ε → δ) (step : m (Except ε α)) : ExceptT δ m α :=
  ExceptT.mk (Except.mapError blame <$> step)

def settle (path : String) (result : Except FileError Unit) : m (Except FileError Unit) :=
  match result with
  | .ok () => pure (.ok ())
  | .error e => do
    if ← host.isFolder path then pure (.ok ()) else pure (.error e)

-- Makes the first of the folders, after those above it that are missing. Each folder is followed
-- by the one above it.
def makeFolders : List String → m (Except FileError Unit)
  | [] => pure (.ok ())
  | path :: above => do
    match ← host.makeFolder path with
    | .error .notFound =>
      match ← makeFolders above with
      | .ok () => host.settle path (← host.makeFolder path)
      | .error e => pure (.error e)
    | result => host.settle path result

end Host

inductive Entry where
  | file (content : String)
  | folder (inside : List (String × Entry))

abbrev Folder := List (String × Entry)

def Entry.isFolder : Entry → Bool
  | .file _ => false
  | .folder _ => true

def Folder.put (inside : Folder) (name : String) (entry : Entry) : Folder :=
  (name, entry) :: inside.filter fun old => old.1 != name

-- Where a walk has come to: what is there, and the folders that it went down from with the name
-- taken in each, the nearest first.
structure Spot where
  entry : Option Entry
  above : List (String × Folder)

namespace Spot

def inside (spot : Spot) : Except FileError Folder :=
  match spot.entry with
  | some (.folder inside) => .ok inside
  | some (.file _) => .error .notFolder
  | none => .error .notFound

def up (spot : Spot) : Spot :=
  match spot.above with
  | [] => spot
  | (_, inside) :: above => ⟨some (.folder inside), above⟩

def mostNameBytes : Nat := 255

def fits (name : String) : Except FileError Unit :=
  if mostNameBytes < name.utf8ByteSize then .error .nameTooLong else .ok ()

-- Only from a folder, even by a piece that leads nowhere.
def step (spot : Spot) (piece : String) : Except FileError Spot := do
  let inside ← spot.inside
  fits piece
  if Path.isIdle piece then return spot
  else if piece = ".." then return spot.up
  else return ⟨inside.lookup piece, (piece, inside) :: spot.above⟩

def walk : Spot → List String → Except FileError Spot
  | spot, [] => .ok spot
  | spot, piece :: rest => do
    let next ← spot.step piece
    next.walk rest

def fill (spot : Spot) (entry : Entry) : Entry :=
  spot.above.foldl (fun below (name, inside) => .folder (inside.put name below)) entry

end Spot

structure Files where
  root : Entry
  here : List String

namespace Files

-- A slash is in no piece of a path, so nothing reaches the working folder by its name.
def hereName : String := "/"

def empty : Files := ⟨.folder [(hereName, .folder [])], [hereName]⟩

def mostPathBytes : Nat := 4095

def check (path : String) : Except FileError Unit :=
  if path.toList.contains '\x00' then .error .nul
  else if path.isEmpty then .error .notFound
  else if mostPathBytes < path.utf8ByteSize then .error .nameTooLong
  else .ok ()

def way (files : Files) (path : String) : List String :=
  if Path.isAbsolute path then Path.pieces path.toList
  else files.here ++ Path.pieces path.toList

def walk (files : Files) (pieces : List String) : Except FileError Spot :=
  Spot.walk ⟨some files.root, []⟩ pieces

def find (files : Files) (path : String) : Except FileError Spot := do
  check path
  files.walk (files.way path)

structure Target where
  folder : Spot
  name : Option String
  slash : Bool

def target (files : Files) (path : String) : Except FileError Target := do
  check path
  let all := (files.way path).reverse
  let named := all.dropWhile (· = "")
  let folder ← files.walk named.tail.reverse
  let _ ← folder.inside
  let name := named.head?.filter fun name => !(name = "." || name = "..")
  return ⟨folder, name, decide (named.length < all.length)⟩

def read (files : Files) (path : String) : Except FileError String := do
  let spot ← files.find path
  match spot.entry with
  | some (.file content) => .ok content
  | some (.folder _) => .error .isFolder
  | none => .error .notFound

-- What ends in a slash is taken for a folder before its name is looked at.
def write (files : Files) (path content : String) : Except FileError Files := do
  let target ← files.target path
  match target.name, target.slash with
  | some name, false =>
    let spot ← target.folder.step name
    match spot.entry with
    | some (.folder _) => .error .isFolder
    | _ => .ok { files with root := spot.fill (.file content) }
  | _, _ => .error .isFolder

def makeFolder (files : Files) (path : String) : Except FileError Files := do
  let target ← files.target path
  match target.name with
  | none => .error .alreadyThere
  | some name =>
    let spot ← target.folder.step name
    match spot.entry with
    | some _ => .error .alreadyThere
    | none => .ok { files with root := spot.fill (.folder []) }

def lookup (files : Files) (path : String) : Option Entry :=
  match files.find path with
  | .ok spot => spot.entry
  | .error _ => none

def change (f : Files → Except FileError Files) : StateM Files (Except FileError Unit) := do
  match f (← get) with
  | .ok files =>
    set files
    pure (.ok ())
  | .error e => pure (.error e)

def host : Host (StateM Files) where
  read path := do return (← get).read path
  write path content := change (·.write path content)
  makeFolder path := change (·.makeFolder path)
  isFolder path := do return ((← get).lookup path).any Entry.isFolder
  present path := do return ((← get).lookup path).isSome
  now := pure 0

def add (files : Files) (file : String × String) : Files :=
  let (path, content) := file
  let made : StateM Files Unit := do
    let _ ← host.makeFolders (Path.folders path)
    let _ ← host.write path content
  (made.run files).2

def holding (files : List (String × String)) : Files := files.foldl add empty

end Files
end Solid
