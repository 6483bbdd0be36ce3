import ClassAtlas.FileTree
import ClassAtlas.Settings

/-!
# Settings files

Where settings come from: a file that was asked for, which has to exist, or else the file with the usual
name in the root of the code base, without which the defaults apply.
-/

namespace ClassAtlas

/-- Why there are no settings. -/
inductive SettingsError where
  /-- The text is not one of settings. -/
  | invalid
  /-- The text of a file is not one of settings. -/
  | invalidFile (location : String)
  /-- The file is not text. -/
  | unreadable (location : String)
  | notFound (location : String)
deriving DecidableEq, Repr, Inhabited

namespace SettingsError

/-- The wording of the error. -/
def message : SettingsError → String
  | .invalid => "Invalid configuration"
  | .invalidFile location => "In " ++ location
  | .unreadable location => "Failed to read config " ++ location
  | .notFound location => "Config file " ++ location ++ " not found"

end SettingsError

namespace Settings

/-- Settings from a text. -/
def parse (text : String) : Except SettingsError Settings :=
  match parse? text with
  | some settings => .ok settings
  | none => .error .invalid

/-- Settings from a file. -/
def ofFile (location : String) (file : File) : Except SettingsError Settings :=
  match file.text? with
  | none => .error (.unreadable location)
  | some text =>
    match parse? text with
    | some settings => .ok settings
    | none => .error (.invalidFile location)

/-- Where the settings of a code base are by default. -/
def defaultLocation (root : String) : String :=
  FileTree.join root fileName

/-- The settings of a code base. -/
def discover (tree : FileTree) (root : String) (explicit : Option String) :
    Except SettingsError Settings :=
  match explicit with
  | some location =>
    match tree.fileAt? location with
    | some file => ofFile location file
    | none => .error (.notFound location)
  | none =>
    match tree.fileAt? (defaultLocation root) with
    | some file => ofFile (defaultLocation root) file
    | none => .ok {}

end Settings

end ClassAtlas
