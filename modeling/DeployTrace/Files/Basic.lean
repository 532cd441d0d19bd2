/-
  DeployTrace/Files/Basic.lean --- the files of a directory.

  WHAT THIS FILE IS FOR.  Workflows, settings and infrastructure are read from files.  Here the files are
  a value: what is below one directory, with the text of each file.  Reading the disk and asking this
  value are kept apart, so that everything after the reading is a function.

  PLACES AND PATHS.  A place is a list of names from the top directory down.  A path is what a user
  writes; walking it gives a place, one segment at a time, and it only goes on from a directory.
-/
import DeployTrace.Text.Path
import DeployTrace.Entries

set_option autoImplicit false

namespace DeployTrace

/-- The names that lead from the top directory to a file or directory. -/
abbrev Place : Type := List String

/-- The files below a directory. -/
structure FileTree where
  files : List (Place × String)
  deriving Repr

namespace FileTree

/-- The files under their paths. -/
def ofTexts (texts : List (String × String)) : FileTree :=
  ⟨texts.map fun (path, text) => (Text.Path.segments path, text)⟩

/-- The text of a file; nothing for a directory. -/
def text? (tree : FileTree) (place : Place) : Option String := tree.files.lookup place

/-- Whether a place is a directory: the top one, or one with a file below it. -/
def isDirectory (tree : FileTree) (place : Place) : Bool :=
  place.isEmpty || tree.files.any fun (file, _) => place.isPrefixOf file && place.length < file.length

/-- Whether there is a file or a directory at a place. -/
def holds (tree : FileTree) (place : Place) : Bool := (tree.text? place).isSome || tree.isDirectory place

/-- The place that a list of segments leads to from a place, if every step starts in a directory and ends
somewhere in the tree. -/
def walk (tree : FileTree) (place : Place) : List String → Option Place
  | [] => some place
  | segment :: rest =>
    if !tree.isDirectory place then none
    else if segment.isEmpty || segment == "." then walk tree place rest
    else if segment == ".." then (if place.isEmpty then none else walk tree place.dropLast rest)
    else if tree.holds (place ++ [segment]) then walk tree (place ++ [segment]) rest
    else none

/-- The place of a path; an empty path and one from the root of the disk lead nowhere. -/
def find? (tree : FileTree) (path : String) : Option Place :=
  if path.isEmpty || Text.startsWith path "/" then none else tree.walk [] (Text.split '/' path)

/-! ## Search -/

/-- What is below a place, as a tree of its own. -/
def sub (tree : FileTree) (top : Place) : FileTree :=
  ⟨tree.files.filterMap fun (file, text) =>
    if top.isPrefixOf file then some (file.drop top.length, text) else none⟩

/-- The places on the way to a file, itself included and the top left out. -/
def way (file : Place) : List Place := (List.range file.length).map fun n => file.take (n + 1)

/-- All files and directories below the top, in the order of the names along the way. -/
def places (tree : FileTree) : List Place :=
  sortBy (fun a b => decide (a < b)) (distinct (tree.files.flatMap fun (file, _) => way file))

/-- All files and directories whose last name satisfies a condition. -/
def search (tree : FileTree) (wanted : String → Bool) : List Place :=
  tree.places.filter fun place => wanted (place.getLast?.getD "")

/-! ## Texts -/

/-- A text whose lines all end with one character. -/
def evenLineEnds : List Char → List Char
  | [] => []
  | '\r' :: '\n' :: rest => '\n' :: evenLineEnds rest
  | '\r' :: rest => '\n' :: evenLineEnds rest
  | c :: rest => c :: evenLineEnds rest

/-- A text as it is read: with even line ends. -/
def asRead (text : String) : String := String.ofList (evenLineEnds text.toList)

/-- The text of a file as it is read. -/
def read? (tree : FileTree) (place : Place) : Option String := (tree.text? place).map asRead

end FileTree

/-! ## What a path leads to -/

/-- A file with its text, or a directory with what is below it. -/
inductive FileEntry where
  | file (text : String)
  | directory (tree : FileTree)
  deriving Repr

/-- What every path leads to. -/
abbrev FileLookup : Type := String → Option FileEntry

/-- The text of a file as it is read; nothing for a directory. -/
def FileEntry.read? : FileEntry → Option String
  | file text => some (FileTree.asRead text)
  | directory _ => none

/-- What a path leads to in a tree. -/
def FileTree.lookup (tree : FileTree) : FileLookup := fun path =>
  (tree.find? path).map fun place => match tree.text? place with
    | some text => .file text
    | none => .directory (tree.sub place)

/-! ## Faults -/

/-- What can be wrong with the files that are read. -/
inductive FileFault where
  /-- a file is not in its format -/
  | malformed (path : String)
  /-- a workflow is something else than a table -/
  | noTable (path : String)
  /-- there are no infrastructure files below a directory -/
  | nothingFound (top : String)
  /-- a directory stands where a file should -/
  | directory
  /-- a value that should be a list of blocks is no collection -/
  | noCollection
  /-- what should be a block is something else -/
  | noBlock
  deriving DecidableEq, Repr

/-- The text of a fault that is reported as one; others end the program. -/
def FileFault.message? : FileFault → Option String
  | malformed path => some ("Failed to parse " ++ path)
  | noTable path => some ("Workflow " ++ path ++ " is not a mapping")
  | nothingFound top => some ("No Terraform or Helm files found in " ++ top)
  | _ => none

end DeployTrace
