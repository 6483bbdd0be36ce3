import ClassAtlas.Network
import ClassAtlas.Reference

/-!
# Resolving references

A relative reference is looked up by its first segment: in the node where it stands, then in the node
that contains that one, and so on outwards, and last at the top level. The first hit counts, and every
further segment has to be found directly inside the one before. So a nearer name hides one further
out even if the rest of the reference is then not found.
-/

namespace ClassAtlas

namespace Network

/-- A node followed by the nodes that contain it, from the inside out, for at most `steps` steps. -/
def enclosing (net : Network) : Nat → NodeId → List NodeId
  | 0, id => [id]
  | steps + 1, id =>
    id :: (match net.container? id with
      | some outer => net.enclosing steps outer
      | none => [])

/-- The scopes in which a name is looked up, nearest first. As many steps as there are nodes reach the
outermost one. -/
def scopesFrom (net : Network) : Option NodeId → List NodeId
  | none => []
  | some id => net.enclosing net.nodes.size id

/-- The node named by a single segment: the hit in the nearest scope, else the one at the top level. -/
def resolveName (net : Network) (name : String) (origin : Option NodeId) : Option NodeId :=
  match (net.scopesFrom origin).findSome? (fun scope => net.lookup ((net.pathOf scope).child name)) with
  | some id => some id
  | none => net.lookup ⟨[name]⟩

/-- The node reached from another by names directly inside one another. -/
def descend (net : Network) : NodeId → List String → Option NodeId
  | id, [] => some id
  | id, name :: rest =>
    match net.lookup ((net.pathOf id).child name) with
    | some inner => net.descend inner rest
    | none => none

/-- The node that the segments of a relative reference name. -/
def resolveSegments (net : Network) (segments : List String) (origin : Option NodeId) :
    Option NodeId :=
  match segments with
  | [] => none
  | name :: rest =>
    match net.resolveName name origin with
    | some base => net.descend base rest
    | none => none

/-- The node that a reference names. `self` names no node of its own. -/
def resolve (net : Network) (name : Reference) (origin : Option NodeId) : Option NodeId :=
  match name with
  | .relative segments => net.resolveSegments segments origin
  | .absolute segments => net.lookup ⟨segments⟩
  | .selfRef => none

@[simp] theorem descend_nil (net : Network) (id : NodeId) : net.descend id [] = some id := rfl

@[simp] theorem resolve_absolute (net : Network) (segments : List String)
    (origin : Option NodeId) : net.resolve (.absolute segments) origin = net.lookup ⟨segments⟩ := rfl

theorem resolve_relative_cons (net : Network) (name : String) (rest : List String)
    (origin : Option NodeId) : net.resolve (.relative (name :: rest)) origin =
      (net.resolveName name origin).bind fun base => net.descend base rest := by
  simp only [resolve, resolveSegments]
  cases net.resolveName name origin <;> rfl

end Network

end ClassAtlas
