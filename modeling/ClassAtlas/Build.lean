import ClassAtlas.Graph.Finish
import ClassAtlas.Settings
import ClassAtlas.SourceSet

/-!
# Building a graph from sources

A build reads the sources once, walks their declarations twice, and finishes the graph: styles first,
then pruning. Files that cannot be read or that have an error are skipped and reported.
-/

namespace ClassAtlas

/-- The outcome of a build in numbers. -/
structure Report where
  /-- How many files were read. -/
  parsed : Nat := 0
  /-- The paths of skipped files from the root. -/
  skipped : List String := []
  /-- The nodes removed in each round of pruning. -/
  rounds : List Nat := []
  nodes : Nat := 0
  edges : Nat := 0
deriving DecidableEq, Repr, Inhabited

namespace Report

/-- How many nodes were pruned. -/
def pruned (r : Report) : Nat :=
  r.rounds.foldl (· + ·) 0

end Report

/-- Why a file is skipped. -/
inductive FileError where
  | unreadable (location : String)
  | faulty (fault : SyntaxError)
deriving DecidableEq, Repr, Inhabited

namespace FileError

/-- The wording of the error. -/
def message : FileError → String
  | .unreadable location => "Failed to read " ++ location ++ ": stream did not contain valid UTF-8"
  | .faulty fault => fault.message

end FileError

namespace File

/-- The declarations in a file. -/
def items (file : File) (location : String) : Except FileError (List Item) :=
  if file.text?.isNone then .error (.unreadable location)
  else
    match file.tree with
    | none => .ok []
    | some tree => (tree.items file.bytes).mapError .faulty

end File

/-- Why a build stops. -/
inductive BuildError where
  | source (error : SourceError)
  | rule (error : RuleError)
deriving DecidableEq, Repr, Inhabited

namespace BuildError

/-- The wording of the error. -/
def message : BuildError → String
  | .source error => error.message
  | .rule error => error.message

end BuildError

/-- A build that is under way. -/
structure Build where
  name : String
  sources : SourceSet
  /-- The rules of the settings, which `run` installs. -/
  rules : RuleSet := {}
  graph : Graph := .empty
  /-- The declarations of each file, once they are read. -/
  files : Option (List (List Item)) := none
  report : Report := {}
deriving Inhabited

namespace Build

/-- A build by settings. -/
def ofSettings (root : String) (settings : Settings) : Except SourceError Build :=
  match SourceSet.ofTexts root settings.included settings.excluded with
  | .error e => .error e
  | .ok sources => .ok { name := settings.name, sources := sources, rules := settings.ruleSet }

/-- Reports an event. -/
def note (b : Build) (event : Event) : Build :=
  { b with graph := b.graph.note event }

/-- Installs rules. -/
def define (b : Build) (reader : PatternReader) (rules : RuleSet) : Except RuleError Unit × Build :=
  let (outcome, graph) := b.graph.install reader rules
  (outcome, { b with graph := graph })

/-- Reads one source: its declarations are kept, or it is reported as skipped. -/
def readFile (b : Build) (files : List (List Item)) (entry : String × File) :
    Build × List (List Item) :=
  match entry.2.items (FileTree.join b.sources.root entry.1) with
  | .ok items => (b.note (.fileParsed entry.1 items.length), items :: files)
  | .error e =>
    let noted := b.note (.fileSkipped entry.1 e.message)
    ({ noted with report := { noted.report with skipped := noted.report.skipped ++ [entry.1] } }, files)

/-- Reads the sources, the first time that this is asked. -/
def readSources (b : Build) (tree : FileTree) : Except SourceError Build :=
  match b.files with
  | some _ => .ok b
  | none =>
    match b.sources.files tree with
    | .error e => .error e
    | .ok entries =>
      let begun := (b.note (.sourcesFound entries.length b.sources.root)).note
        (.parsing entries.length b.sources.root)
      let (done, files) := entries.foldl (fun (state : Build × List (List Item)) entry =>
        state.1.readFile state.2 entry) (begun, [])
      .ok { done with files := some files.reverse,
                      report := { done.report with parsed := files.length } }

/-- The number of a pass. -/
def passNumber : Pass → Nat
  | .findNodes => 1
  | .findRelations => 2

/-- Walks the declarations of all sources. If the sources cannot be listed, the build is as before but
for the report that the pass was started. -/
def find (b : Build) (tree : FileTree) (pass : Pass) : Except SourceError Unit × Build :=
  let begun := b.note (.passStarted (passNumber pass) pass)
  match begun.readSources tree with
  | .error e => (.error e, begun)
  | .ok read =>
    let graph := read.graph.runPass pass (read.files.getD [])
    let done := { read with graph := graph }
    (.ok (), done.note (.passDone pass graph.nodeCount graph.edgeCount))

/-- Applies the styles, then prunes until nothing more goes. -/
def finish (b : Build) : Build :=
  let styled := (b.note .applyingStyles).graph.applyStyles
  let (rounds, graph) := (styled.note .pruningNodes).pruneAll
  { b with
    graph := graph
    report := { b.report with rounds := rounds, nodes := graph.nodeCount, edges := graph.edgeCount } }

/-- The whole build: rules, both passes, and the end. -/
def run (b : Build) (reader : PatternReader) (tree : FileTree) : Except BuildError Build :=
  match b.define reader b.rules with
  | (.error e, _) => .error (.rule e)
  | (.ok _, defined) =>
    match defined.find tree .findNodes with
    | (.error e, _) => .error (.source e)
    | (.ok _, noded) =>
      match noded.find tree .findRelations with
      | (.error e, _) => .error (.source e)
      | (.ok _, related) => .ok related.finish

end Build

end ClassAtlas
