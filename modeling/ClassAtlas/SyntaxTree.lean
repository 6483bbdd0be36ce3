import ClassAtlas.Item

/-!
# Syntax trees

The tree of a Ruby source file, the first place where it has an error, and the declarations in it.

A node spans bytes of the source. Some children play a part that has a name, such as the `name` and the
`superclass` of a class. Error nodes stand for text that could not be understood, missing nodes for
text that should be there.

Declarations and mixin statements are found at any depth: what stands between them (methods, blocks,
conditions) is looked through, and whatever is found inside belongs to the declaration around it.
-/

namespace ClassAtlas

/-- A node with its children. -/
inductive SyntaxTree where
  | node (kind : String) (named isError isMissing : Bool) (field : Option String) (start stop : Nat)
      (children : List SyntaxTree)
deriving Inhabited

namespace SyntaxTree

/-- What the node is. -/
def kind : SyntaxTree → String
  | .node kind _ _ _ _ _ _ _ => kind

/-- The node is more than a token of the grammar. -/
def named : SyntaxTree → Bool
  | .node _ named _ _ _ _ _ _ => named

/-- The part that the node plays in its parent. -/
def field : SyntaxTree → Option String
  | .node _ _ _ _ field _ _ _ => field

/-- The first byte of the node. -/
def start : SyntaxTree → Nat
  | .node _ _ _ _ _ start _ _ => start

/-- The byte after the node. -/
def stop : SyntaxTree → Nat
  | .node _ _ _ _ _ _ stop _ => stop

/-- The children in order. -/
def children : SyntaxTree → List SyntaxTree
  | .node _ _ _ _ _ _ _ children => children

/-- The node itself is an error. -/
def isFault : SyntaxTree → Bool
  | .node _ _ isError isMissing _ _ _ _ => isError || isMissing

/-- The first child that plays a part. -/
def child? (tree : SyntaxTree) (part : String) : Option SyntaxTree :=
  tree.children.find? (fun child => child.field == some part)

/-- The children that are more than tokens. -/
def namedChildren (tree : SyntaxTree) : List SyntaxTree :=
  tree.children.filter named

/-- The text of a node. -/
def text? (source : ByteArray) (tree : SyntaxTree) : Option String :=
  String.fromUTF8? (source.extract tree.start tree.stop)

/-! ## Errors -/

mutual

/-- There is an error at the node or below it. -/
def hasError : SyntaxTree → Bool
  | .node _ _ isError isMissing _ _ _ children => isError || isMissing || anyHasError children

/-- There is an error in one of the trees. -/
def anyHasError : List SyntaxTree → Bool
  | [] => false
  | tree :: rest => tree.hasError || anyHasError rest

end

mutual

/-- The first error, a node before its children and children in order. -/
def firstError? : SyntaxTree → Option SyntaxTree
  | .node kind named isError isMissing field start stop children =>
    if isError || isMissing then
      some (.node kind named isError isMissing field start stop children)
    else firstErrorIn children

/-- The first error in trees. -/
def firstErrorIn : List SyntaxTree → Option SyntaxTree
  | [] => none
  | tree :: rest =>
    if tree.hasError then
      match tree.firstError? with
      | some found => some found
      | none => firstErrorIn rest
    else firstErrorIn rest

end

/-! ## References -/

/-- The name at the end of a qualified constant. -/
def lastName? (source : ByteArray) (children : List SyntaxTree) : Option String :=
  match children.find? (fun child => child.field == some "name") with
  | some child => if child.kind == "constant" then child.text? source else none
  | none => none

mutual

/-- The reference that a node writes: a constant, a qualified constant, or `self`. Anything else, such
as a call, is none. -/
def reference? (source : ByteArray) : SyntaxTree → Option Reference
  | .node kind named isError isMissing field start stop children =>
    if kind == "constant" then
      ((SyntaxTree.node kind named isError isMissing field start stop children).text? source).map
        (fun name => .relative [name])
    else if kind == "self" then some .selfRef
    else if kind == "scope_resolution" then
      match lastName? source children with
      | none => none
      | some name =>
        match scopeReference? source children with
        | none => some (.absolute [name])
        | some (some (.relative segments)) => some (.relative (segments ++ [name]))
        | some (some (.absolute segments)) => some (.absolute (segments ++ [name]))
        | some _ => none
    else none

/-- The reference of the first child that is a scope: `none` if there is no such child, and `some none`
if it writes no reference. -/
def scopeReference? (source : ByteArray) : List SyntaxTree → Option (Option Reference)
  | [] => none
  | child :: rest =>
    if child.field == some "scope" then some (child.reference? source)
    else scopeReference? source rest

end

/-- The name that a declaration gives. -/
def declaredName? (source : ByteArray) (children : List SyntaxTree) : Option Reference :=
  (children.find? (fun child => child.field == some "name")).bind (reference? source)

/-- The superclass that a class declaration gives, if it is a constant. -/
def superclass? (source : ByteArray) (children : List SyntaxTree) : Option Reference :=
  match children.find? (fun child => child.field == some "superclass") with
  | none => none
  | some clause =>
    match clause.namedChildren.head?.bind (reference? source) with
    | some .selfRef => none
    | other => other

/-- The mixin statement that a call writes: `include` or `extend` of constants or `self`, without a
receiver or on `self`. -/
def mixing? (source : ByteArray) (tree : SyntaxTree) : Option Item := do
  let method ← tree.child? "method"
  let mixin ← Mixin.ofMethod? (← method.text? source)
  match tree.child? "receiver" with
  | some receiver => if receiver.kind != "self" then none else some ()
  | none => some ()
  let arguments ← tree.child? "arguments"
  match arguments.namedChildren.filterMap (reference? source) with
  | [] => none
  | targets => some (.mixing mixin targets)

/-! ## Declarations -/

mutual

/-- The declarations and mixin statements of a tree, in order. -/
def collect (source : ByteArray) : SyntaxTree → List Item
  | .node kind named isError isMissing field start stop children =>
    if kind == "class" then
      match declaredName? source children with
      | some name =>
        [.classDecl name (superclass? source children)
          (collectFrom source ["name", "superclass"] children)]
      | none => collectFrom source [] children
    else if kind == "module" then
      match declaredName? source children with
      | some name => [.moduleDecl name (collectFrom source ["name"] children)]
      | none => collectFrom source [] children
    else if kind == "call" then
      match mixing? source (.node kind named isError isMissing field start stop children) with
      | some item => [item]
      | none => collectFrom source [] children
    else collectFrom source [] children

/-- The declarations and mixin statements of the children of a node. For each part in `skip`, the
first child that plays it is left out. -/
def collectFrom (source : ByteArray) (skip : List String) : List SyntaxTree → List Item
  | [] => []
  | child :: rest =>
    let part := child.field.getD ""
    if child.field.isSome && skip.contains part then collectFrom source (skip.erase part) rest
    else if child.named then child.collect source ++ collectFrom source skip rest
    else collectFrom source skip rest

end

end SyntaxTree

/-! ## Reading a file -/

/-- Where a source file has an error; lines and columns count from one, columns in bytes. -/
structure SyntaxError where
  line : Nat
  column : Nat
deriving DecidableEq, Repr, Inhabited

namespace SyntaxError

/-- The wording of the error. -/
def message (e : SyntaxError) : String :=
  "syntax error at line " ++ toString e.line ++ ", column " ++ toString e.column

/-- The place of a byte in a source. -/
def atByte (source : ByteArray) (offset : Nat) : SyntaxError :=
  let before := (source.extract 0 offset).toList
  { line := 1 + before.count 10, column := 1 + (before.reverse.takeWhile (· != 10)).length }

end SyntaxError

/-- The declarations of a file, or its first error. -/
def SyntaxTree.items (source : ByteArray) (tree : SyntaxTree) : Except SyntaxError (List Item) :=
  if tree.hasError then .error (.atByte source (tree.firstError?.getD tree).start)
  else .ok (tree.collect source)

end ClassAtlas
