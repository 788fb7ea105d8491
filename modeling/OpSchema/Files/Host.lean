import OpSchema.Files.FileSystem

/-!
# What a program asks of its surroundings

The clock and the files that the conformance suite works with.  The suite is
written for any host; a file system with a stopped clock is one.  Only the smoke
run looks into directories, so that is asked of fewer hosts.
-/

namespace OpSchema

/-- The clock and the operations on files. -/
structure Host (m : Type → Type) where
  /-- Milliseconds since the beginning of 1970. -/
  now : m Nat
  fileSize : String → m (Except FileError Nat)
  readText : String → m (Except FileError String)
  createDirectories : String → m (Except FileError Unit)
  createFile : String → m (Except FileError Unit)
  appendText : String → String → m (Except FileError Unit)

/-- A host that can also look into directories. -/
structure DirectoryHost (m : Type → Type) extends Host m where
  /-- The number of entries of a directory, none where it cannot be read. -/
  entryCount : String → m Nat

/-- A file system whose clock always shows the same time. -/
def FileSystem.host (now : Nat) : DirectoryHost (StateM FileSystem) where
  now := pure now
  fileSize path := do return (← get).fileSize path
  readText path := do return (← get).readText path
  createDirectories path := modifyGet (·.createDirectories path)
  createFile path := modifyGet (·.createFile path)
  appendText path text := modifyGet (·.appendText path text)
  entryCount path := do return (← get).entryCount path

end OpSchema
