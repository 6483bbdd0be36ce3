import ClassAtlas.Network.View

/-!
# Drawings

A network as a Graphviz digraph. Nodes come first, modules before classes, then the edges of each
relation. Every section opens with a comment, has one node or edge per line, and ends with an empty
line.
-/

namespace ClassAtlas

namespace Drawing

/-- The spelling of a character between quotes: a backslash and a quote are written with a backslash
before them. -/
def escapeChar (c : Char) : List Char :=
  if c = '\\' then ['\\', '\\'] else if c = '"' then ['\\', '"'] else [c]

/-- Text between quotes. -/
def escape (text : String) : String :=
  String.ofList (text.toList.flatMap escapeChar)

/-- An attribute. -/
def assignment (name value : String) : String :=
  name ++ "=\"" ++ escape value ++ "\""

/-- The attributes of a node: its label, then its style. -/
def nodeAttributes (net : Network) (id : NodeId) : String :=
  let style := match net.node? id with
    | some node => node.style.entries
    | none => []
  " ".intercalate (assignment "label" (net.labelOf id) ::
    style.map (fun (name, value) => assignment name value))

/-- The line of a node. -/
def nodeLine (net : Network) (id : NodeId) : String :=
  (net.pathOf id).key ++ " [" ++ nodeAttributes net id ++ "];"

/-- The comment that opens the edges of a relation. -/
def heading : Relation → String
  | .containment => "/* A contains B */"
  | .inheritance => "/* A inherits from B */"
  | .inclusion => "/* A includes B */"
  | .extension => "/* A extends B */"

/-- How the edges of a relation are drawn. -/
def edgeStyle : Relation → String
  | .containment => "color=\"#999999\" arrowhead=\"odiamond\""
  | .inheritance => "color=\"#000000\" arrowhead=\"empty\""
  | .inclusion => "color=\"#3366cc\" style=\"dashed\""
  | .extension => "color=\"#cc6633\" style=\"dotted\""

/-- The line of an edge. -/
def edgeLine (net : Network) (relation : Relation) (pair : NodeId × NodeId) : String :=
  (net.pathOf pair.1).key ++ " -> " ++ (net.pathOf pair.2).key ++ " [" ++ edgeStyle relation ++ "];"

/-- The section of the nodes of one kind. -/
def nodeSection (net : Network) (comment : String) (kind : Kind) : List String :=
  comment :: (net.ofKind kind).map (nodeLine net) ++ [""]

/-- The section of the edges of one relation. -/
def edgeSection (net : Network) (relation : Relation) : List String :=
  heading relation :: (net.pairs relation).map (edgeLine net relation) ++ [""]

/-- The lines before the nodes. -/
def opening (name : String) : List String :=
  ["digraph \"" ++ escape name ++ "\" \x7b", "  rankdir=LR;", "  node [style=filled];", ""]

/-- The lines of a drawing. -/
def lines (net : Network) (name : String) : List String :=
  opening name ++
    nodeSection net "/* Module nodes */" .moduleNode ++
    nodeSection net "/* Class nodes */" .classNode ++
    Relation.all.flatMap (edgeSection net) ++ ["\x7d"]

/-- The text of a drawing. -/
def render (net : Network) (name : String) : String :=
  String.join ((lines net name).map (· ++ "\n"))

end Drawing

end ClassAtlas
