import Accelerator.Text.Lines

/-!
# Files

What the command line needs of the world around it, and a folder that is held in memory and can stand for it.
-/

namespace Accelerator.CommandLine

/-- Why a file cannot be read or written. -/
inductive FileError
  | notFound
  | isFolder
  | notFolder
  | denied
  | notText
  | other (message : String)
deriving Repr, DecidableEq

/-- The wording of a file error. -/
def FileError.message : FileError → String
  | notFound => "No such file or directory (os error 2)"
  | isFolder => "Is a directory (os error 21)"
  | notFolder => "Not a directory (os error 20)"
  | denied => "Permission denied (os error 13)"
  | notText => "stream did not contain valid UTF-8"
  | other message => message

/-- The world around the command line: its standard input, and files by path. -/
structure World (m : Type → Type) where
  standardInput : m (Except FileError (List UInt8))
  readFile : String → m (Except FileError (List UInt8))
  writeFile : String → List UInt8 → m (Except FileError Unit)

/-! ### Paths -/

/-- A path: whether it starts at the top, the parts between its slashes, and whether it ends with a slash, as only
the path of a folder may. -/
structure Path where
  fromTop : Bool
  parts : List String
  slashed : Bool
deriving Repr, DecidableEq

/-- The path that a text spells out; slashes in a row count as one. -/
def Path.of (text : String) : Path where
  fromTop := text.toList.head? == some '/'
  parts := ((Text.splitAtEach (· == '/') text.toList).filter (!·.isEmpty)).map String.ofList
  slashed := text.toList.getLast? == some '/'

/-- The parts that lead to a folder whatever there is. -/
def isDots (part : String) : Bool := part == "." || part == ".."

/-! ### A folder in memory -/

/-- A folder with files, each under the names that lead to it.  There is nothing outside but folders above this
one. -/
structure Folder where
  files : List (List String × List UInt8) := []
deriving Repr, DecidableEq

/-- What a path can lead to: a folder, by the names that lead to it, a folder above, or a file. -/
inductive Place
  | folder (names : List String)
  | above
  | file (bytes : List UInt8)
deriving Repr, DecidableEq

namespace Folder

/-- The folder with the files under the given paths. -/
def ofFiles (files : List (String × List UInt8)) : Folder :=
  ⟨files.map fun (path, bytes) => ((Path.of path).parts, bytes)⟩

/-- Whether names lead to a folder: they do if there is a file further on. -/
def hasFolder (f : Folder) (names : List String) : Bool :=
  f.files.any fun (path, _) => names.isPrefixOf path && path != names

/-- What a name in a folder leads to. -/
def enter (f : Folder) (names : List String) (name : String) : Except FileError Place :=
  let inner := names ++ [name]
  match f.files.lookup inner with
  | some bytes => .ok (.file bytes)
  | none => if f.hasFolder inner then .ok (.folder inner) else .error .notFound

/-- Follows one part of a path; nothing leads on from a file. -/
def step (f : Folder) : Place → String → Except FileError Place
  | .file _, _ => .error .notFolder
  | place, "." => .ok place
  | .above, ".." | .folder [], ".." => .ok .above
  | .folder names, ".." => .ok (.folder names.dropLast)
  | .above, _ => .error .notFound
  | .folder names, name => f.enter names name

/-- Follows the parts of a path. -/
def walk (f : Folder) (path : Path) (parts : List String) : Except FileError Place :=
  parts.foldlM f.step (if path.fromTop then .above else .folder [])

/-- Reads a file. -/
def read (f : Folder) (path : Path) : Except FileError (List UInt8) := do
  match ← f.walk path path.parts with
  | .file bytes => if path.slashed then throw .notFolder else return bytes
  | _ => throw .isFolder

/-- Writes a file, in place of an earlier one under the same path.  The folder that is to hold it has to be there.
What is written above the folder is not kept. -/
def write (f : Folder) (path : Path) (bytes : List UInt8) : Except FileError Folder := do
  match path.parts.getLast? with
  | none => throw .isFolder
  | some name =>
    let place ← f.walk path path.parts.dropLast
    if place matches .file _ then throw .notFolder
    if path.slashed || isDots name then throw .isFolder
    match place with
    | .folder names =>
      let inner := names ++ [name]
      if f.hasFolder inner then throw .isFolder
      return ⟨(inner, bytes) :: f.files.filter (·.1 != inner)⟩
    | _ => return f

/-- The world in which the command line sees a folder and the given standard input. -/
def world (input : List UInt8) : World (StateM Folder) where
  standardInput := pure (.ok input)
  readFile path := do
    let f ← get
    return f.read (.of path)
  writeFile path bytes := do
    let f ← get
    match f.write (.of path) bytes with
    | .error e => return .error e
    | .ok f =>
      set f
      return .ok ()

end Folder

end Accelerator.CommandLine
