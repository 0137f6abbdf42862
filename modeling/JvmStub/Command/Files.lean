/-
`Files.lean` -- the files that a command reads and writes.

A command needs three things of a file system: to read a file, to make the
folders on the way to a file, and to write a file. `FileSystem` asks for just
these, so that a command can run on a real disk or on a `Directory`, which is a
folder kept as a value.
-/
import JvmStub.Bytes
import JvmStub.Error

set_option autoImplicit false

namespace JvmStub

/-- What a command needs of a file system. -/
structure FileSystem (m : Type → Type) where
  read : String → m (Except FileError Bytes)
  /-- Makes the folders on the way to a file. -/
  makeFolders : String → m (Except FileError Unit)
  write : String → Bytes → m (Except FileError Unit)

/-- The names on the way from the folder in which a command runs, or from the root, which has an
empty name. A single dot stands for the folder that it is in, and two dots for the folder above. -/
abbrev Path := List String

namespace Path

/-- The names of a path, between its slashes. -/
def ofString (text : String) : Path :=
  let names := ((segments text.toList).map String.ofList).filter (· ≠ "")
  if text.toList.head? == some '/' then "" :: names else names

/-- Whether a path ends in a slash, which only the path of a folder may. -/
def namesFolder (text : String) : Bool := text.toList.getLast? == some '/'

/-- Whether a place is the root, the folder in which the command runs or one above it. -/
def isAtOrAbove (place : Path) : Bool := place == [""] || place.all (· == "..")

/-- The place above. Above the folder in which the command runs it has dots for names. -/
def above (place : Path) : Path :=
  if place = [""] then place
  else if place.all (· == "..") then place ++ [".."]
  else place.dropLast

/-- The place that a name leads to. -/
def follow (place : Path) (name : String) : Path :=
  if name = "." then place else if name = ".." then place.above else place ++ [name]

/-- The names of the folder on the way to a file. -/
def folderNames (path : Path) : Path := (path.filter (· ≠ ".")).dropLast

/-- A name has 255 bytes at most. -/
def isLongName (name : String) : Bool := 255 < name.utf8ByteSize

/-- A path has 4095 bytes at most, with the slashes between its names. -/
def isLong (path : Path) : Bool :=
  4096 < path.foldl (fun bytes name => bytes + name.utf8ByteSize + 1) 0

/-- Whether a name holds the character that ends a name. -/
def hasNul (path : Path) : Bool := path.any fun name => name.toList.contains (Char.ofNat 0)

end Path

/-- What stands at a place. -/
inductive Entry where
  | folder
  | file (bytes : Bytes)
  deriving DecidableEq, Repr

/-- A folder and what is in it, each under its place: the path without dots that leads to it. -/
structure Directory where
  files : List (Path × Bytes)
  folders : List Path
  deriving DecidableEq, Repr

namespace Directory

/-- A folder with nothing in it. -/
def empty : Directory := ⟨[], []⟩

/-- What stands at a place. -/
def entry? (dir : Directory) (place : Path) : Option Entry :=
  if place.isAtOrAbove || dir.folders.contains place then some .folder
  else (dir.files.lookup place).map .file

/-- The folder with a file in it, in place of any of the same place. -/
def put (dir : Directory) (place : Path) (bytes : Bytes) : Directory :=
  { dir with files := (place, bytes) :: dir.files.filter fun entry => entry.1 ≠ place }

/-- Looks at a place. Nothing can stand where the name is too long. -/
def look (dir : Directory) (place : Path) : Except FileError (Option Entry) :=
  if place.getLast?.any Path.isLongName then .error .nameTooLong else .ok (dir.entry? place)

/-- Goes on from a folder by a name that has to lead to another. -/
def enter (dir : Directory) (place : Path) (name : String) : Except FileError Path := do
  match ← dir.look (place.follow name) with
  | some .folder => return place.follow name
  | some (.file _) => throw .notADirectory
  | none => throw .notFound

/-- The place that a path leads to. All names but the last lead through folders. -/
def locate (dir : Directory) (path : Path) : Except FileError Path :=
  if path.hasNul then .error .nulInName
  else if path.isLong then .error .nameTooLong
  else do
    let place ← path.dropLast.foldlM dir.enter []
    return (path.getLast?.map place.follow).getD place

/-- The content of a file. -/
def contents (dir : Directory) (text : String) : Except FileError Bytes := do
  if text = "" then throw .notFound
  match ← dir.look (← dir.locate (Path.ofString text)) with
  | some (.file bytes) => if Path.namesFolder text then throw .notADirectory else return bytes
  | some .folder => throw .isADirectory
  | none => throw .notFound

/-- The folder with a file in it. -/
def store (dir : Directory) (text : String) (bytes : Bytes) : Except FileError Directory := do
  if text = "" then throw .notFound
  let place ← dir.locate (Path.ofString text)
  if Path.namesFolder text then throw .isADirectory
  if (← dir.look place) = some .folder then throw .isADirectory
  return dir.put place bytes

/-- The folder with one more folder in it. -/
def makeFolder (dir : Directory) (path : Path) : Except FileError Directory := do
  let place ← dir.locate path
  if (← dir.look place).isSome then throw .alreadyExists
  return { dir with folders := dir.folders ++ [place] }

/-- Makes a folder, unless it is there. -/
def ensureFolder (dir : Directory) (path : Path) : Except FileError Directory :=
  match dir.makeFolder path with
  | .ok dir => .ok dir
  | .error e =>
    match (dir.locate path).map dir.entry? with
    | .ok (some .folder) => .ok dir
    | _ => .error e

/-- Makes a folder, given by its names from the last to the first. Where there is no place for
it, the folder above is made first. What was made on the way to a failure stays. -/
def ensureFolders (dir : Directory) : List String → Except FileError Unit × Directory
  | [] => (.ok (), dir)
  | name :: above =>
    let path := (name :: above).reverse
    match dir.ensureFolder path with
    | .ok dir => (.ok (), dir)
    | .error .notFound =>
      match dir.ensureFolders above with
      | (.ok (), dir) =>
        match dir.ensureFolder path with
        | .ok dir => (.ok (), dir)
        | .error e => (.error e, dir)
      | failed => failed
    | .error e => (.error e, dir)

/-- Reads a file. -/
def read (text : String) : StateM Directory (Except FileError Bytes) := fun dir =>
  (dir.contents text, dir)

/-- Makes the folders on the way to a file. -/
def makeFolders (text : String) : StateM Directory (Except FileError Unit) := fun dir =>
  dir.ensureFolders (Path.ofString text).folderNames.reverse

/-- Writes a file. -/
def write (text : String) (bytes : Bytes) : StateM Directory (Except FileError Unit) := fun dir =>
  match dir.store text bytes with
  | .ok dir => (.ok (), dir)
  | .error e => (.error e, dir)

/-- A folder kept as a value, as a file system. -/
def fileSystem : FileSystem (StateM Directory) := ⟨read, makeFolders, write⟩

end Directory

end JvmStub
