import ClassAtlas.Json.Parser
import ClassAtlas.Json.Printer
import ClassAtlas.Network.View

/-!
# Snapshots

The content of a network as plain records, sorted by path, and its JSON form. Paths are written as
text, so a snapshot is read back unchanged exactly if its paths are read back from their text.
-/

namespace ClassAtlas

/-- One node of a snapshot. -/
structure NodeRecord where
  path : Path
  kind : Kind
  label : String
  singleton : Bool := false
  style : Style := .empty
deriving DecidableEq, Repr, Inhabited

/-- One edge of a snapshot. -/
structure EdgeRecord where
  source : Path
  target : Path
deriving DecidableEq, Repr, Inhabited

/-- The content of a network under a name. -/
structure Snapshot where
  name : String
  modules : List NodeRecord
  classes : List NodeRecord
  containment : List EdgeRecord
  inheritance : List EdgeRecord
  inclusion : List EdgeRecord
  extension : List EdgeRecord
deriving DecidableEq, Repr, Inhabited

namespace Kind

/-- A kind by its word. -/
def ofWord? : String → Option Kind
  | "class" => some .classNode
  | "module" => some .moduleNode
  | _ => none

/-- A kind is its word, or an object with the word as its only key and nothing under it. -/
def ofJson? : Json → Option Kind
  | .object members =>
    match (Json.object members).members? with
    | some [(word, .null)] => ofWord? word
    | _ => none
  | value => value.text?.bind ofWord?

end Kind

namespace Path

/-- A path in JSON is its text. -/
def toJson (p : Path) : Json :=
  .ofText p.display

/-- The path that a JSON string writes. -/
def ofJson? (value : Json) : Option Path :=
  value.text?.map parse

end Path

namespace Style

/-- A style in JSON is an object of texts. -/
def toJson (s : Style) : Json :=
  .ofMembers (s.entries.map (fun (name, value) => (name, .ofText value)))

/-- An attribute that a member of a JSON object writes. -/
def entry? (member : String × Json) : Option (String × String) :=
  member.2.text?.map (fun text => (member.1, text))

/-- The style that a JSON object writes; of two texts under one name the later counts. -/
def ofJson? (value : Json) : Option Style :=
  (value.members?.bind (fun members => members.mapM entry?)).map ofList

end Style

namespace NodeRecord

/-- The record of a node. -/
def ofNode (net : Network) (id : NodeId) : NodeRecord :=
  let node := (net.node? id).getD { path := ⟨[]⟩, kind := .classNode }
  { path := node.path, kind := node.kind, label := net.labelOf id, singleton := node.singleton,
    style := node.style }

/-- The fields of a node in JSON. The mark of a singleton and the style are left out where there are
none. -/
def fields (r : NodeRecord) : List (String × Json) :=
  [("path", r.path.toJson), ("kind", .ofText r.kind.display), ("label", .ofText r.label)] ++
    (if r.singleton then [("singleton", .bool true)] else []) ++
    (if r.style.isEmpty then [] else [("style", r.style.toJson)])

/-- A node in JSON. -/
def toJson (r : NodeRecord) : Json :=
  .ofMembers r.fields

/-- The node that a JSON value writes. -/
def ofJson? (value : Json) : Option NodeRecord := do
  match ← value.record? ["path", "kind", "label", "singleton", "style"] with
  | [some path, some kind, some label, singleton, style] =>
    let singleton ← match singleton with
      | some value => value.bool?
      | none => some false
    let style ← match style with
      | some value => Style.ofJson? value
      | none => some .empty
    some { path := ← Path.ofJson? path, kind := ← Kind.ofJson? kind, label := ← label.text?,
           singleton := singleton, style := style }
  | _ => none

end NodeRecord

namespace EdgeRecord

/-- The record of an edge. -/
def ofPair (net : Network) (pair : NodeId × NodeId) : EdgeRecord :=
  { source := net.pathOf pair.1, target := net.pathOf pair.2 }

/-- An edge in JSON. -/
def toJson (r : EdgeRecord) : Json :=
  .ofMembers [("source", r.source.toJson), ("target", r.target.toJson)]

/-- The edge that a JSON value writes. -/
def ofJson? (value : Json) : Option EdgeRecord := do
  match ← value.record? ["source", "target"] with
  | [some source, some target] =>
    some { source := ← Path.ofJson? source, target := ← Path.ofJson? target }
  | _ => none

end EdgeRecord

namespace Snapshot

/-- The content of a network. -/
def ofNetwork (net : Network) (name : String) : Snapshot :=
  let edges := fun relation => (net.pairs relation).map (EdgeRecord.ofPair net)
  { name := name
    modules := (net.ofKind .moduleNode).map (NodeRecord.ofNode net)
    classes := (net.ofKind .classNode).map (NodeRecord.ofNode net)
    containment := edges .containment
    inheritance := edges .inheritance
    inclusion := edges .inclusion
    extension := edges .extension }

/-- A snapshot in JSON. -/
def toJson (s : Snapshot) : Json :=
  .ofMembers [("name", .ofText s.name), ("modules", .array (s.modules.map NodeRecord.toJson)),
    ("classes", .array (s.classes.map NodeRecord.toJson)),
    ("containment", .array (s.containment.map EdgeRecord.toJson)),
    ("inheritance", .array (s.inheritance.map EdgeRecord.toJson)),
    ("inclusion", .array (s.inclusion.map EdgeRecord.toJson)),
    ("extension", .array (s.extension.map EdgeRecord.toJson))]

/-- The records that a JSON array writes. -/
def nodes? (value : Json) : Option (List NodeRecord) :=
  value.elements?.bind (fun elements => elements.mapM NodeRecord.ofJson?)

/-- The edges that a JSON array writes. -/
def edges? (value : Json) : Option (List EdgeRecord) :=
  value.elements?.bind (fun elements => elements.mapM EdgeRecord.ofJson?)

/-- The snapshot that a JSON value writes. -/
def ofJson? (value : Json) : Option Snapshot := do
  let names := ["name", "modules", "classes", "containment", "inheritance", "inclusion", "extension"]
  match ← value.record? names with
  | [some name, some modules, some classes, some containment, some inheritance, some inclusion,
      some extension] =>
    some { name := ← name.text?, modules := ← nodes? modules, classes := ← nodes? classes,
           containment := ← edges? containment, inheritance := ← edges? inheritance,
           inclusion := ← edges? inclusion, extension := ← edges? extension }
  | _ => none

/-- The JSON text of a snapshot. -/
def render (s : Snapshot) : String :=
  s.toJson.render

/-- The snapshot that a JSON text writes. -/
def parse? (text : String) : Option Snapshot :=
  (Json.parse? text).bind ofJson?

end Snapshot

end ClassAtlas
