import Std.Data.HashMap
import OpSchema.Files.Path

/-!
# A file system

Files and directories by their location, which is the list of names from the
root.  Paths are followed from the root, part by part; every part but the last
has to lead through a directory.

## Main definitions

* `FileSystem.node?`: what is at a location.
* `FileSystem.follow`: the location that a path leads to.
* `readText`, `fileSize`, `entryCount`, `createDirectories`, `createFile` and
  `appendText`: the operations, with the error of each.
-/

namespace OpSchema

/-- Why an operation on files fails. -/
inductive FileError where
  | notFound
  | notDirectory
  | alreadyExists
  | isDirectory
  /-- A name or a path has more bytes than the system takes. -/
  | nameTooLong
  /-- A path has a character with the code zero, which would end it. -/
  | nulInPath
  /-- The contents are not text. -/
  | notText
  /-- Some other reason, in the words of the system. -/
  | other (text : String)
  deriving DecidableEq, Repr

/-- The wording of an error. -/
def FileError.message : FileError → String
  | notFound => "No such file or directory (os error 2)"
  | notDirectory => "Not a directory (os error 20)"
  | alreadyExists => "File exists (os error 17)"
  | isDirectory => "Is a directory (os error 21)"
  | nameTooLong => "File name too long (os error 36)"
  | nulInPath => "file name contained an unexpected NUL byte"
  | notText => "stream did not contain valid UTF-8"
  | other text => text

/-- The names from the root to a file or directory. -/
abbrev Location : Type := List String

/-- What is at a location. -/
inductive FileNode where
  | file (contents : ByteArray)
  | directory

/-- The node is a directory. -/
def FileNode.isDirectory : FileNode → Bool
  | file _ => false
  | directory => true

/-- The files and directories below the root, by location. -/
structure FileSystem where
  entries : Std.HashMap Location FileNode

namespace FileSystem

/-- The file system with nothing below the root. -/
def empty : FileSystem := ⟨∅⟩

/-- What is at a location; the root is a directory. -/
def node? (fs : FileSystem) (location : Location) : Option FileNode :=
  if location = [] then some .directory else fs.entries[location]?

/-- Puts a file or directory at a location. -/
def put (fs : FileSystem) (location : Location) (node : FileNode) : FileSystem :=
  ⟨fs.entries.insert location node⟩

/-- The place that was written shows what was written. -/
theorem node?_put_self (fs : FileSystem) {location : Location} (node : FileNode)
    (hlocation : location ≠ []) : (fs.put location node).node? location = some node := by
  simp [node?, put, hlocation]

/-- All other places show what they showed before. -/
theorem node?_put_of_ne (fs : FileSystem) {location other : Location} (node : FileNode)
    (hother : other ≠ location) : (fs.put location node).node? other = fs.node? other := by
  have hne : location ≠ other := fun heq => hother heq.symm
  simp [node?, put, Std.HashMap.getElem?_insert, hne]

/-! ## Following paths -/

/-- The number of bytes that a name may have. -/
def maxNameBytes : Nat := 255

/-- The number of bytes that a path may have. -/
def maxPathBytes : Nat := 4095

/-- The path is one that the system takes, wherever it leads. -/
def checkPath (path : String) : Except FileError Unit :=
  if path.toList.contains '\x00' then .error .nulInPath
  else if maxPathBytes < path.utf8ByteSize then .error .nameTooLong
  else .ok ()

/-- The location after one more part. -/
def enter (location : Location) (part : String) : Except FileError Location :=
  if part = "" ∨ part = "." then .ok location
  else if part = ".." then .ok location.dropLast
  else if maxNameBytes < part.utf8ByteSize then .error .nameTooLong
  else .ok (location ++ [part])

/-- Follows the parts of a path.  The location that is reached need not hold
anything. -/
def followFrom (fs : FileSystem) (location : Location) : List String → Except FileError Location
  | [] => .ok location
  | part :: parts =>
    match fs.node? location with
    | none => .error .notFound
    | some (.file _) => .error .notDirectory
    | some .directory =>
      match enter location part with
      | .error e => .error e
      | .ok next => followFrom fs next parts

/-- The location that a path leads to. -/
def follow (fs : FileSystem) (path : String) : Except FileError Location :=
  if path.isEmpty then .error .notFound
  else
    match checkPath path with
    | .error e => .error e
    | .ok () => fs.followFrom [] (Path.parts path)

/-- What a path leads to. -/
def find (fs : FileSystem) (path : String) : Except FileError FileNode :=
  match fs.follow path with
  | .error e => .error e
  | .ok location =>
    match fs.node? location with
    | some node => .ok node
    | none => .error .notFound

/-! ## Reading -/

/-- The number of bytes of a file; a directory counts as none. -/
def fileSize (fs : FileSystem) (path : String) : Except FileError Nat :=
  match fs.find path with
  | .error e => .error e
  | .ok (.file contents) => .ok contents.size
  | .ok .directory => .ok 0

/-- The text of a file. -/
def readText (fs : FileSystem) (path : String) : Except FileError String :=
  match fs.find path with
  | .error e => .error e
  | .ok .directory => .error .isDirectory
  | .ok (.file contents) =>
    match String.fromUTF8? contents with
    | some text => .ok text
    | none => .error .notText

/-- The number of files and directories directly in a directory. -/
def entryCount (fs : FileSystem) (path : String) : Nat :=
  match fs.follow path with
  | .error _ => 0
  | .ok location =>
    match fs.node? location with
    | some .directory =>
      fs.entries.keys.countP fun entry => entry != [] && entry.dropLast == location
    | _ => 0

/-! ## Making directories -/

/-- Goes along the parts of a path and makes every directory that is missing.  A
file on the way cannot be passed.  Behind a directory that was just made
(`made`) it is noticed as something in the place of a directory instead, as is a
file at the end. -/
def ensureAlong (fs : FileSystem) (made : Bool) (location : Location) :
    List String → Except FileError Unit × FileSystem
  | [] =>
    match fs.node? location with
    | some .directory => (.ok (), fs)
    | some (.file _) => (.error .alreadyExists, fs)
    | none => (.ok (), fs.put location .directory)
  | part :: parts =>
    match fs.node? location with
    | some (.file _) => (.error (if made then .alreadyExists else .notDirectory), fs)
    | some .directory =>
      match enter location part with
      | .error e => (.error e, fs)
      | .ok next => ensureAlong fs made next parts
    | none =>
      let after := fs.put location .directory
      match enter location part with
      | .error e => (.error e, after)
      | .ok next => ensureAlong after true next parts

/-- Makes the directory of a path and those on the way to it. -/
def createDirectories (fs : FileSystem) (path : String) : Except FileError Unit × FileSystem :=
  match checkPath path with
  | .error e => (.error e, fs)
  | .ok () => fs.ensureAlong false [] (Path.parts path)

/-! ## Writing -/

/-- The location of the file that a path names.  A path that ends in a slash names
a directory, if the way to its last part is there. -/
def followFile (fs : FileSystem) (path : String) : Except FileError Location :=
  if path.toList.getLast? = some '/' then
    match checkPath path with
    | .error e => .error e
    | .ok () =>
      match fs.followFrom [] ((Path.parts (Path.dropEndSlashes path)).dropLast ++ ["."]) with
      | .error e => .error e
      | .ok _ => .error .isDirectory
  else fs.follow path

/-- Makes an empty file, in place of one that is there. -/
def createFile (fs : FileSystem) (path : String) : Except FileError Unit × FileSystem :=
  match fs.followFile path with
  | .error e => (.error e, fs)
  | .ok location =>
    match fs.node? location with
    | some .directory => (.error .isDirectory, fs)
    | _ => (.ok (), fs.put location (.file .empty))

/-- Adds text at the end of a file. -/
def appendText (fs : FileSystem) (path text : String) : Except FileError Unit × FileSystem :=
  match fs.followFile path with
  | .error e => (.error e, fs)
  | .ok location =>
    match fs.node? location with
    | some (.file contents) => (.ok (), fs.put location (.file (contents ++ text.toUTF8)))
    | some .directory => (.error .isDirectory, fs)
    | none => (.error .notFound, fs)

end FileSystem

end OpSchema
