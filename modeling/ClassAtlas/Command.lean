import ClassAtlas.Build
import ClassAtlas.CommandLine
import ClassAtlas.Drawing
import ClassAtlas.SettingsFile
import ClassAtlas.Snapshot

/-!
# Commands

What a command line does to a file tree, what it prints, and how it ends: with 0 if all went well, with
1 if the command failed, and with 2 if the command line could not be understood.
-/

namespace ClassAtlas

/-- A change to the files of the machine. -/
inductive Effect where
  | makeFolder (location : String)
  | writeFile (location text : String)
deriving DecidableEq, Repr, Inhabited

/-- Why a command fails. -/
inductive CommandError where
  | settings (error : SettingsError)
  | build (error : BuildError)
  | cannotCreate (location : String)
  | cannotWrite (location : String)
  | alreadyExists (location : String)
deriving DecidableEq, Repr, Inhabited

namespace CommandError

/-- The wording of the error. -/
def message : CommandError → String
  | .settings error => error.message
  | .build error => error.message
  | .cannotCreate location => "Failed to create " ++ location
  | .cannotWrite location => "Failed to write " ++ location
  | .alreadyExists location => location ++ " already exists (use --force to overwrite)"

end CommandError

/-- The result of a run. -/
structure Outcome where
  code : Nat := 0
  /-- What is printed. -/
  output : String := ""
  error : Option CommandError := none
  /-- The files afterwards. -/
  tree : FileTree
  /-- The changes that were made, in order. -/
  effects : List Effect := []
  /-- What is reported on the way. -/
  journal : List Event := []
deriving Inhabited

namespace Command

/-- The name and version of the program. -/
def versionText : String := "codenode v0.1.0"

/-- A command that failed. -/
def failed (tree : FileTree) (error : CommandError) : Outcome :=
  { code := 1, error := some error, tree := tree }

/-- The text of a graph in a format. -/
def written (net : Network) (name : String) : Format → String
  | .dot => Drawing.render net name
  | .json => (Snapshot.ofNetwork net name).render

/-- The line that sums up a graph that was written. -/
def summary (location : String) (b : Build) : String :=
  location ++ ": " ++ toString (b.graph.net.ofKind .moduleNode).length ++ " modules, "
    ++ toString (b.graph.net.ofKind .classNode).length ++ " classes, "
    ++ toString b.report.edges ++ " edges (" ++ toString b.report.parsed ++ " files parsed, "
    ++ toString b.report.skipped.length ++ " skipped, " ++ toString b.report.pruned
    ++ " nodes pruned)\n"

/-- Builds the graph of a code base by its settings. -/
def buildGraph (reader : PatternReader) (tree : FileTree) (root : String) (settings : Option String)
    (name : Option String) : Except CommandError Build :=
  match Settings.discover tree root settings with
  | .error e => .error (.settings e)
  | .ok found =>
    match Build.ofSettings root { found with name := name.getD found.name } with
    | .error e => .error (.build (.source e))
    | .ok build => (build.run reader tree).mapError .build

/-- Draws the graph of a code base. -/
def runGraph (reader : PatternReader) (tree : FileTree) (root : String)
    (settings name : Option String) (output : String) (format : Format) : Outcome :=
  match buildGraph reader tree root settings name with
  | .error e => failed tree e
  | .ok build =>
    let text := written build.graph.net build.name format
    let location := FileTree.join output (build.name ++ "." ++ format.ending)
    match tree.makeFolderAt? output with
    | none => failed tree (.cannotCreate output)
    | some made =>
      match made.write? location (.ofText text) with
      | none =>
        { failed made (.cannotWrite location) with effects := [.makeFolder output],
                                                   journal := build.graph.journal }
      | some done =>
        { output := summary location build, tree := done, journal := build.graph.journal,
          effects := [.makeFolder output, .writeFile location text] }

/-- Writes a settings file to start from. -/
def runInit (tree : FileTree) (root : String) (settings : Option String) (force : Bool) : Outcome :=
  let location := settings.getD (Settings.defaultLocation root)
  if tree.hasEntry location && !force then failed tree (.alreadyExists location)
  else
    match tree.write? location (.ofText Settings.template) with
    | none => failed tree (.cannotWrite location)
    | some done =>
      { output := "Wrote " ++ location ++ "\n", tree := done,
        effects := [.writeFile location Settings.template] }

end Command

namespace CommandLine

/-- Runs a command line. -/
def run (line : CommandLine) (reader : PatternReader) (tree : FileTree) : Outcome :=
  match line.command with
  | .graph name output format =>
    Command.runGraph reader tree line.root line.settings name output format
  | .init force => Command.runInit tree line.root line.settings force
  | .version => { output := Command.versionText ++ "\n", tree := tree }

/-- Runs arguments. -/
def runArgs (reader : PatternReader) (args : List String) (tree : FileTree) : Outcome :=
  match parse? args with
  | some line => line.run reader tree
  | none => { code := 2, tree := tree }

end CommandLine

end ClassAtlas
