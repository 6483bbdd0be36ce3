import ClassAtlas.Graph

/-!
# Declarations

What a source file says, reduced to declarations and mixin statements, and the walk over them. A file
is reduced once and walked over in every pass.
-/

namespace ClassAtlas

/-- A declaration with its body, or a mixin statement. -/
inductive Item where
  | classDecl (name : Reference) (superclass : Option Reference) (body : List Item)
  | moduleDecl (name : Reference) (body : List Item)
  /-- `include A, B` or `extend self`. -/
  | mixing (mixin : Mixin) (targets : List Reference)
deriving Repr, Inhabited

/-- What holds of a declaration if it holds of its body, and of a list if it holds of its members,
holds of all declarations and lists. -/
theorem Item.induct {one : Item → Prop} {all : List Item → Prop}
    (classDecl : ∀ name superclass body, all body → one (.classDecl name superclass body))
    (moduleDecl : ∀ name body, all body → one (.moduleDecl name body))
    (mixing : ∀ mixin targets, one (.mixing mixin targets))
    (nil : all []) (cons : ∀ item rest, one item → all rest → all (item :: rest)) :
    (∀ item, one item) ∧ ∀ items, all items :=
  ⟨fun item => Item.rec classDecl moduleDecl mixing nil cons item,
    fun items => Item.rec_1 classDecl moduleDecl mixing nil cons items⟩

namespace Graph

/-- Records several mixins of the innermost declaration. -/
def mixAll (g : Graph) (mixin : Mixin) (targets : List Reference) : Graph :=
  targets.foldl (fun g target => (g.mix mixin target).2) g

/-- Records the superclass of the innermost declaration, if one is written. -/
def inheritFrom (g : Graph) : Option Reference → Graph
  | none => g
  | some superclass => (g.inherit superclass).2

mutual

/-- Walks over one declaration. Superclasses and mixins count only when `relating`. -/
def replayItem (relating : Bool) : Item → Graph → Graph
  | .classDecl name superclass body, g =>
    (g.declare .classNode name (fun g =>
      replayItems relating body (if relating then g.inheritFrom superclass else g))).2
  | .moduleDecl name body, g =>
    (g.declare .moduleNode name (fun g => replayItems relating body g)).2
  | .mixing mixin targets, g => if relating then g.mixAll mixin targets else g

/-- Walks over declarations in order. -/
def replayItems (relating : Bool) : List Item → Graph → Graph
  | [], g => g
  | item :: rest, g => replayItems relating rest (replayItem relating item g)

end

/-- Walks over the declarations of a file in the pass in progress. -/
def replay (g : Graph) (items : List Item) : Graph :=
  replayItems (g.pass == some .findRelations) items g

/-- One pass over all files. -/
def runPass (g : Graph) (pass : Pass) (files : List (List Item)) : Graph :=
  (files.foldl replay (g.beginPass pass)).endPass

/-- Both passes over all files. -/
def build (g : Graph) (files : List (List Item)) : Graph :=
  (g.runPass .findNodes files).runPass .findRelations files

end Graph

end ClassAtlas
