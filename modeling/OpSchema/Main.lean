import Std.Time.DateTime.Timestamp
import OpSchema.Command

/-!
# The command line

Runs the report command on the clock and the files of the system.
-/

namespace OpSchema

/-- The error of a system call by its number, which some calls give with a minus
sign, and its wording. -/
def FileError.ofCode (code : UInt32) (details : String) : FileError :=
  let number := if code < 0x80000000 then code else 0 - code
  if number = 2 then .notFound
  else if number = 17 then .alreadyExists
  else if number = 20 then .notDirectory
  else if number = 21 then .isDirectory
  else if number = 36 then .nameTooLong
  else .other (details ++ " (os error " ++ toString number ++ ")")

/-- The error of an action. -/
def FileError.ofIO : IO.Error → FileError
  | .alreadyExists _ code details => .ofCode code details
  | .otherError code details => .ofCode code details
  | .resourceBusy code details => .ofCode code details
  | .resourceVanished code details => .ofCode code details
  | .unsupportedOperation code details => .ofCode code details
  | .hardwareFault code details => .ofCode code details
  | .unsatisfiedConstraints code details => .ofCode code details
  | .illegalOperation code details => .ofCode code details
  | .protocolError code details => .ofCode code details
  | .timeExpired code details => .ofCode code details
  | .interrupted _ code details => .ofCode code details
  | .noFileOrDirectory _ code details => .ofCode code details
  | .invalidArgument _ code details => .ofCode code details
  | .permissionDenied _ code details => .ofCode code details
  | .resourceExhausted _ code details => .ofCode code details
  | .inappropriateType _ code details => .ofCode code details
  | .noSuchThing _ code details => .ofCode code details
  | .unexpectedEof => .other "end of file"
  | .userError details => .other details

/-- Runs an action and keeps its error. -/
def attempt {α : Type} (action : IO α) : IO (Except FileError α) := do
  match ← action.toBaseIO with
  | .ok value => pure (.ok value)
  | .error e => pure (.error (.ofIO e))

/-- Makes a directory, unless it is there already. -/
def ensureDirectory (path : String) : IO (Except FileError Unit) := do
  match ← attempt (IO.FS.createDir path) with
  | .ok () => pure (.ok ())
  | .error e =>
    match ← attempt (IO.FS.Handle.mk (path ++ "/.") .read) with
    | .ok _ => pure (.ok ())
    | .error _ => pure (.error e)

/-- Makes a directory and those on the way to it.  Where one on the way is
missing, the way is made first. -/
partial def ensureDirectories (path : String) : IO (Except FileError Unit) := do
  if path.isEmpty then
    return .ok ()
  match ← ensureDirectory path with
  | .error .notFound =>
    match Path.parent? path with
    | none => pure (.error .notFound)
    | some parent =>
      match ← ensureDirectories parent with
      | .error e => pure (.error e)
      | .ok () => ensureDirectory path
  | outcome => pure outcome

/-- The clock and the files of the system. -/
def systemHost : Host IO where
  now := do
    let time ← Std.Time.Timestamp.now
    return time.toMillisecondsSinceUnixEpoch.val.toNat
  fileSize path := do
    match ← attempt (IO.FS.readBinFile path) with
    | .ok contents => pure (.ok contents.size)
    | .error .isDirectory => pure (.ok 0)
    | .error e => pure (.error e)
  readText path := do
    match ← attempt (IO.FS.readBinFile path) with
    | .error e => pure (.error e)
    | .ok contents =>
      match String.fromUTF8? contents with
      | some text => pure (.ok text)
      | none => pure (.error .notText)
  createDirectories := ensureDirectories
  createFile path := attempt (IO.FS.writeFile path "")
  appendText path text := attempt do
    let handle ← IO.FS.Handle.mk path .append
    handle.putStr text

end OpSchema

/-- Runs the report command with the arguments of the program. -/
def main (args : List String) : IO UInt32 := do
  let outcome ← OpSchema.Command.run OpSchema.systemHost args
  IO.print outcome.stdout
  IO.eprint outcome.stderr
  pure outcome.exitCode.toUInt32
