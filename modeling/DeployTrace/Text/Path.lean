/-
  DeployTrace/Text/Path.lean --- slash-separated paths as text.

  A path is a text of segments with slashes between them.  Two readings are in use: by segments, where
  empty segments and a single dot mean nothing, and by characters, where the directory is all that
  stands before the last slash.
-/
import DeployTrace.Text.Cut

set_option autoImplicit false

namespace DeployTrace.Text.Path

/-- The segments that name something: neither empty nor a single dot. -/
def segments (path : String) : List String :=
  (split '/' path).filter fun s => !s.isEmpty && s != "."

/-- The last segment, empty for a path without segments. -/
def name (path : String) : String := (segments path).getLast?.getD ""

/-- The last segment up to its last dot, unless that dot is its first or its last character. -/
def stem (path : String) : String :=
  let last := (name path).toList
  match cutAt '.' last.reverse with
  | some (ending, before) =>
    if ending.isEmpty || before.isEmpty then name path else String.ofList before.reverse
  | none => name path

/-- What stands before the last slash, without the slashes that end it; a path of slashes alone keeps
them. -/
def directory (path : String) : String :=
  let chars := path.toList
  let head := (chars.reverse.dropWhile (· != '/')).reverse
  let bare := dropEndWhile (· == '/') head
  String.ofList (if bare.isEmpty then head else bare)

/-- The segments of the directory, with a dot for none. -/
def parent (path : String) : String :=
  let rooted := startsWith path "/"
  let kept := (segments path).dropLast
  if kept.isEmpty then (if rooted then "/" else ".")
  else (if rooted then "/" else "") ++ "/".intercalate kept

/-- A path without empty segments and single dots, a single dot if nothing is left. -/
def tidy (path : String) : String :=
  let kept := (if startsWith path "/" then "/" else "") ++ "/".intercalate (segments path)
  if kept.isEmpty then "." else kept

/-- A path and the names below it. -/
def below (path : String) (names : List String) : String :=
  tidy (tidy path ++ "/" ++ "/".intercalate names)

/-- One step of resolving `..` against the segments read so far, last first. -/
def resolveStep (rooted : Bool) (kept : List String) (segment : String) : List String :=
  if segment != ".." then segment :: kept
  else match kept with
    | [] => if rooted then [] else [".."]
    | last :: before => if last == ".." then ".." :: kept else before

/-- The shortest spelling of a path: no empty segments, no single dots, and no `..` after a name. -/
def normalize (path : String) : String :=
  let rooted := startsWith path "/"
  let kept := ((segments path).foldl (resolveStep rooted) []).reverse
  let body := (if rooted then "/" else "") ++ "/".intercalate kept
  if body.isEmpty then "." else body

end DeployTrace.Text.Path
