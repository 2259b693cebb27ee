import Scribe.Text.Quoted
import Scribe.Text.Slice
import Scribe.Text.Utf8

/-!
# Files

The files that a run can see, below a working directory or the root. A path is a sequence of
names; `.` and empty names are dropped from it, and `..` leads up from a directory that exists.
-/
namespace Scribe

namespace Path

/-- Whether a text holds a NUL, with which it cannot be a path. -/
def hasNull (path : String) : Bool :=
  path.toList.contains '\x00'

def isAbsolute (path : String) : Bool :=
  path.toList.head? == some '/'

def parts (path : String) : List String :=
  ((Text.splitAt '/' path.toList).map String.ofList).filter fun name => name != "" && name != "."

/-- The name of the root, from which absolute paths lead on. -/
def rootName : String := "/"

def names (path : String) : List String :=
  if isAbsolute path then rootName :: parts path else parts path

/-- Two slashes at the front are kept, any other number counts as one. -/
def root (path : String) : String :=
  match path.toList with
  | '/' :: '/' :: '/' :: _ => "/"
  | '/' :: '/' :: _ => "//"
  | '/' :: _ => "/"
  | _ => ""

/-- The path that leads along names; `.` if there are none and no root. -/
def write (root : String) (names : List String) : String :=
  let text := root ++ "/".intercalate names
  if text == "" then "." else text

/-- A path as it is written: no empty names, no `.`, and `.` for nothing. -/
def normalize (path : String) : String :=
  write (root path) (parts path)

/-- A path that starts in a directory; an absolute one starts at its root all the same. -/
def join (dir name : String) : String :=
  if isAbsolute name then normalize name else write (root dir) (parts dir ++ parts name)

def parent (path : String) : String :=
  write (root path) (parts path).dropLast

end Path

inductive Entry where
  | file (bytes : List UInt8)
  | directory
deriving DecidableEq

def Entry.isFile : Entry → Bool
  | file _ => true
  | directory => false

inductive FileCause where
  | missing
  | exists
  | notDirectory
  | isDirectory
  | nameTooLong
  /-- A text with a NUL in it is no path at all. -/
  | nullByte
deriving DecidableEq, Repr

def FileCause.number? : FileCause → Option Nat
  | .missing => some 2
  | .exists => some 17
  | .notDirectory => some 20
  | .isDirectory => some 21
  | .nameTooLong => some 36
  | .nullByte => none

def FileCause.text : FileCause → String
  | .missing => "No such file or directory"
  | .exists => "File exists"
  | .notDirectory => "Not a directory"
  | .isDirectory => "Is a directory"
  | .nameTooLong => "File name too long"
  | .nullByte => "embedded null byte"

structure FileFault where
  cause : FileCause
  path : String
deriving DecidableEq, Repr

def FileFault.message (f : FileFault) : String :=
  let path := Text.quoted f.path
  match f.cause.number? with
  | some number => s!"[Errno {number}] {f.cause.text}: {path}"
  | none => f.cause.text

/-- Entries by the names that lead to them; the working directory and the root are not listed. -/
structure Files where
  entries : List (List String × Entry) := []

namespace Files

def entry? (f : Files) (names : List String) : Option Entry :=
  if names.isEmpty || names == [Path.rootName] then some .directory else f.entries.lookup names

def put (f : Files) (names : List String) (e : Entry) : Files :=
  ⟨(names, e) :: f.entries.filter (·.1 != names)⟩

def longestName : Nat := 255

def longestPath : Nat := 4095

/-- Follows names from a directory; all but the last must lead to directories. -/
def follow (f : Files) : (place : List String) → (names : List String) →
    Except FileCause (List String)
  | place, [] => .ok place
  | place, name :: rest =>
    match f.entry? place with
    | none => .error .missing
    | some (.file _) => .error .notDirectory
    | some .directory =>
      if name == ".." then
        if place == [Path.rootName] then f.follow place rest
        else if place.isEmpty then .error .missing
        else f.follow place.dropLast rest
      else if longestName < name.utf8ByteSize then .error .nameTooLong
      else f.follow (place ++ [name]) rest

/-- The place that a path leads to; an empty path leads nowhere. -/
def resolve (f : Files) (path : String) : Except FileCause (List String) :=
  if Path.hasNull path then .error .nullByte
  else if longestPath < path.utf8ByteSize then .error .nameTooLong
  else
    match Path.names path with
    | [] => if path == "" then .error .missing else .ok []
    | first :: rest =>
      if first == Path.rootName then f.follow [first] rest else f.follow [] (first :: rest)

/-- What stands at a path, if anything does. That a path leads nowhere is an answer, unless it is
too long to be asked for. -/
def look (f : Files) (path : String) : Except FileFault (Option Entry) :=
  match f.resolve path with
  | .ok names => .ok (f.entry? names)
  | .error .nameTooLong => .error ⟨.nameTooLong, path⟩
  | .error _ => .ok none

def isThere (f : Files) (path : String) : Except FileFault Bool :=
  (f.look path).map Option.isSome

def isFile (f : Files) (path : String) : Except FileFault Bool :=
  (f.look path).map fun entry => entry.any Entry.isFile

def readBytes (f : Files) (path : String) : Except FileFault (List UInt8) :=
  match f.resolve path with
  | .error cause => .error ⟨cause, path⟩
  | .ok names =>
    match f.entry? names with
    | some (.file bytes) =>
      if path.toList.getLast? == some '/' then .error ⟨.notDirectory, path⟩ else .ok bytes
    | some .directory => .error ⟨.isDirectory, path⟩
    | none => .error ⟨.missing, path⟩

/-- A change of the files. What it has done by the time it fails stays done. -/
abbrev Change := ExceptT FileFault (StateM Files) Unit

/-- Makes one directory, which may be there already, in one that exists. -/
def makeOne (path : String) : Change := do
  let f ← get
  match f.resolve path with
  | .error cause => throw ⟨cause, path⟩
  | .ok place =>
    match f.entry? place with
    | some .directory => return
    | some (.file _) => throw ⟨.exists, path⟩
    | none => set (f.put place .directory)

/-- Makes a directory, and before it up to `depth` of those above it, if they are missing. -/
def makeAbove : (depth : Nat) → (path : String) → Change
  | 0, path => makeOne path
  | depth + 1, path =>
    tryCatch (makeOne path) fun fault =>
      if fault.cause == .missing then do
        makeAbove depth (Path.parent path)
        makeOne path
      else throw fault

def makeDirectory (path : String) : Change :=
  makeAbove (Path.parts path).length path

def update (path : String) (change : List UInt8 → List UInt8) : Change := do
  let f ← get
  match f.resolve path with
  | .error cause => throw ⟨cause, path⟩
  | .ok place =>
    match f.entry? place with
    | some (.file bytes) => set (f.put place (.file (change bytes)))
    | some .directory => throw ⟨.isDirectory, path⟩
    | none => set (f.put place (.file (change [])))

def bytesOf (text : String) : List UInt8 :=
  text.toUTF8.toList

def updateDeep (path : String) (change : List UInt8 → List UInt8) : Change := do
  let path := Path.normalize path
  makeDirectory (Path.parent path)
  update path change

def append (path text : String) : Change :=
  updateDeep path (· ++ bytesOf text)

def write (path text : String) : Change :=
  updateDeep path fun _ => bytesOf text

def remove (f : Files) (path : String) : Files :=
  match f.resolve path with
  | .ok names => ⟨f.entries.filter (·.1 != names)⟩
  | .error _ => f

end Files

inductive TextFault where
  | file (fault : FileFault)
  | encoding (fault : Text.Utf8.Fault)
deriving DecidableEq

def TextFault.message : TextFault → String
  | file fault => fault.message
  | encoding fault => fault.message

/-- The text of a file, with every line end written as `\n`. -/
def Files.readText (f : Files) (path : String) : Except TextFault (List Char) :=
  match f.readBytes path with
  | .error fault => .error (.file fault)
  | .ok bytes =>
    match Text.Utf8.decode bytes with
    | .error fault => .error (.encoding fault)
    | .ok cs => .ok (Text.unifyLineEnds cs)

end Scribe
