import ClassAtlas.Command
import ClassAtlas.Pattern.Parser
import ClassAtlas.SyntaxTree.Reader

/-!
# The program

Reads the files below the current directory, runs the command line on them, and does to the machine
what the run says. The syntax tree of a Ruby file is read from the file beside it whose name has `.tree`
added.
-/

namespace ClassAtlas

/-- The name of the file with the syntax tree of a file. -/
def treeName (name : String) : String :=
  name ++ ".tree"

/-- Reads an entry of a directory, given the names on the way to it. -/
partial def readEntry (above : List String) (tree : FileTree) (entry : IO.FS.DirEntry) : IO FileTree := do
  let names := above ++ [entry.fileName]
  if ← entry.path.isDir then
    let entries ← entry.path.readDir
    entries.foldlM (readEntry names) { tree with folders := names :: tree.folders }
  else
    return tree.put names { bytes := ← IO.FS.readBinFile entry.path }

/-- Gives each file the syntax tree that lies beside it. -/
def attachTrees (tree : FileTree) : FileTree :=
  let attach := fun (entry : List String × File) =>
    let beside := entry.1.dropLast ++ [treeName (entry.1.getLastD "")]
    let found := ((tree.file? beside).bind File.text?).bind SyntaxTree.parse?
    (entry.1, { entry.2 with tree := found })
  { tree with files := tree.files.map attach }

/-- Makes a change to the files of the machine. -/
def perform : Effect → IO Unit
  | .makeFolder location => IO.FS.createDirAll location
  | .writeFile location text => IO.FS.writeFile location text

/-- How the program is called. -/
def usage : String :=
  "usage: codenode [-v] [-r ROOT] [-c CONFIG] (graph [-n NAME] [-o DIR] [-f dot|json] | init [-f] | version)"

end ClassAtlas

open ClassAtlas in
/-- Runs the program. -/
def main (args : List String) : IO UInt32 := do
  match CommandLine.parse? args with
  | none =>
    IO.eprintln usage
    return 2
  | some line =>
    let entries ← (← IO.currentDir).readDir
    let tree ← entries.foldlM (readEntry []) {}
    let outcome := line.run Pattern.reader (attachTrees tree)
    for event in outcome.journal do
      if line.verbose || event.level != .debug then IO.eprintln event.line
    outcome.effects.forM perform
    IO.print outcome.output
    if let some error := outcome.error then IO.eprintln ("Error: " ++ error.message)
    return outcome.code.toUInt32
