/-
  DeployTrace/Files/Settings.lean --- reading a settings file.

  Settings are optional: where there is no file, nothing is set.
-/
import DeployTrace.Files.Basic
import DeployTrace.Format.Toml

set_option autoImplicit false

namespace DeployTrace

/-- The name of a settings file that is read without being asked for. -/
def settingsName : String := "tfxref.toml"

/-- The settings in the file at a path, none if there is no file. -/
def readSettings (find : FileLookup) (path : String) : Except FileFault Table :=
  match (find (Text.Path.tidy path)).bind FileEntry.read? with
  | none => .ok []
  | some text =>
    match Toml.read? text with
    | some settings => .ok settings
    | none => .error (.malformed (Text.Path.tidy path))

/-- The settings for a directory, unless a file is asked for. -/
def settingsFor (find : FileLookup) (directory asked : Option String) : Except FileFault Table :=
  readSettings find (asked.getD (Text.Path.below (directory.getD ".") [settingsName]))

end DeployTrace
