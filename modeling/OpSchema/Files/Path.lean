/-!
# Paths

A path is a text whose parts are divided by slashes.  Empty parts and parts that
are a single dot lead nowhere, except that a dot at the very front counts as a
part.
-/

namespace OpSchema.Path

/-- A path below another one.  No slash is added behind one that is there. -/
def join (base name : String) : String :=
  if base.isEmpty then name
  else if base.toList.getLast? = some '/' then base ++ name
  else base ++ "/" ++ name

/-- Drops slashes and single dots from the end of a path, which is given in
reverse. -/
def trimEnd : List Char → List Char
  | '/' :: rest => trimEnd rest
  | '.' :: '/' :: rest => trimEnd rest
  | path => path

/-- The path without its last part, or none if it has no parts. -/
def parent? (path : String) : Option String :=
  let isAbsolute := path.toList.head? == some '/'
  match trimEnd path.toList.reverse with
  | [] => none
  | last =>
    match trimEnd (last.dropWhile (· != '/')) with
    | [] => some (if isAbsolute then "/" else "")
    | rest => some (String.ofList rest.reverse)

/-- The path without the slashes at its end. -/
def dropEndSlashes (path : String) : String :=
  String.ofList (path.toList.reverse.dropWhile (· == '/')).reverse

/-- The parts of a path, empty ones included. -/
def parts (path : String) : List String :=
  (path.toList.splitOn '/').map String.ofList

example : join "a" "b" = "a/b" := by decide

example : parent? "a//./b/." = some "a" := by decide

example : parent? "/a" = some "/" := by decide

example : parent? "a" = some "" := by decide

example : parent? "/." = none := by decide

example : dropEndSlashes "a//b//" = "a//b" := by decide

end OpSchema.Path
