import ClassAtlas.Rules.Reader
import ClassAtlas.Toml.Document

/-!
# Settings

What a settings file says: the name of the graph, whether the built-in styles apply, which files are
sources, and the rules. Everything has a default, and names that mean nothing are ignored.
-/

namespace ClassAtlas

/-- The content of a settings file. -/
structure Settings where
  /-- The name of the graph, and of the file it is written to. -/
  name : String := "graph"
  /-- The built-in styles come before the configured ones. -/
  defaultStyles : Bool := true
  /-- The globs of source files. -/
  included : List String := ["**/*.rb"]
  /-- The globs of files that are no sources. -/
  excluded : List String := []
  rules : RuleSet := {}
deriving DecidableEq, Repr, Inhabited

namespace Settings

/-- The name of the settings file in the root of a code base. -/
def fileName : String := "codenode.toml"

/-- The name and the switch of the section on the graph. -/
def graphSection? (value : Datum) : Option (String × Bool) :=
  match value.record? ["name", "default_styles"] true with
  | some [name, styles] =>
    match Datum.orElse Datum.text? "graph" name, Datum.orElse Datum.bool? true styles with
    | some name, some styles => some (name, styles)
    | _, _ => none
  | _ => none

/-- The globs of the section on sources. -/
def sourcesSection? (value : Datum) : Option (List String × List String) :=
  match value.record? ["include", "exclude"] true with
  | some [included, excluded] =>
    match Datum.orElse Datum.texts? ["**/*.rb"] included, Datum.orElse Datum.texts? [] excluded with
    | some included, some excluded => some (included, excluded)
    | _, _ => none
  | _ => none

/-- Settings from the entries of a file. -/
def ofEntries? (entries : List (String × Datum)) : Option Settings :=
  match Datum.orElse graphSection? ("graph", true) (entries.lookup "graph"),
      Datum.orElse sourcesSection? (["**/*.rb"], []) (entries.lookup "sources"),
      RuleSet.ofEntries? entries with
  | some (name, defaultStyles), some (included, excluded), some rules =>
    some { name := name, defaultStyles := defaultStyles, included := included,
           excluded := excluded, rules := rules }
  | _, _, _ => none

/-- The settings that a text writes. -/
def parse? (text : String) : Option Settings :=
  match Toml.parse? text with
  | some (.table entries) => ofEntries? entries
  | _ => none

/-- The rules to install: the built-in styles, if they apply, before the configured ones. -/
def ruleSet (s : Settings) : RuleSet :=
  if s.defaultStyles then { s.rules with style := RuleSet.defaultStyles ++ s.rules.style }
  else s.rules

/-- The settings file to start from. -/
def template : String :=
"# codenode configuration

[graph]
# Output file stem, e.g. graph.dot
name = \"graph\"
# Grey ellipses for classes, dark boxes for modules. [[style]] entries below
# are applied after these and win on conflicts.
default_styles = true

[sources]
include = [\"**/*.rb\"]
exclude = [\"spec/**\", \"test/**\", \"vendor/**\"]

# Every [[ignore]] and [[style]] entry takes exactly one of
#   path      = \"ActiveRecord::Base\"
#   pattern   = \"::ClassMethods$\"
#   predicate = \"island\" | \"orphan\" | \"class\" | \"module\" | \"singleton\"
#             | \x7b inherits_from = \"...\" \x7d | \x7b includes = \"...\" \x7d
#             | \x7b extends = \"...\" \x7d | \x7b name = \"...\" \x7d

# Drop nodes left without any relation once other rules have run
[[ignore]]
predicate = \"island\"

# [[style]]
# predicate = \x7b inherits_from = \"ActiveRecord::Base\" \x7d
# attributes = \x7b fillcolor = \"#ffcc00\" \x7d
"

end Settings

end ClassAtlas
