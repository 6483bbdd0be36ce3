import ClassAtlas.SyntaxTree
import Mathlib.Data.List.Basic

/-!
# What a node says

Which nodes write a reference, which declare a class or module, and which mix something in, told from
the kinds of the nodes and the parts that their children play. The functions that read a node agree with
these rules: `reference?_eq_some_iff` for references and `head?_eq_some_iff` for statements.

The name of a class or module is a constant, qualified or not. The grammar of the language sees to that,
and a tree that keeps to it has `ConstantNames`.
-/

namespace ClassAtlas

/-- What a declaration or a mixin statement says, its body left out. -/
inductive Head where
  | classDecl (name : Reference) (superclass : Option Reference)
  | moduleDecl (name : Reference)
  | mixing (mixin : Mixin) (targets : List Reference)
deriving DecidableEq, Repr

/-- What an item says. -/
def Item.head : Item → Head
  | .classDecl name superclass _ => .classDecl name superclass
  | .moduleDecl name _ => .moduleDecl name
  | .mixing mixin targets => .mixing mixin targets

/-- A name in the scope that a reference stands for. -/
def Reference.within (name : String) : Reference → Option Reference
  | .relative segments => some (.relative (segments ++ [name]))
  | .absolute segments => some (.absolute (segments ++ [name]))
  | .selfRef => none

theorem Mixin.ofMethod?_eq_some_iff {text : String} {mixin : Mixin} :
    ofMethod? text = some mixin ↔ text = mixin.method := by
  constructor
  · intro h
    unfold ofMethod? at h
    split at h
    · cases h
      rfl
    · cases h
      rfl
    · cases h
  · rintro rfl
    exact ofMethod?_method mixin

namespace SyntaxTree

variable {source : ByteArray} {tree : SyntaxTree}

/-- What holds of a node whenever it holds of the children holds of every node. -/
theorem induct {motive : SyntaxTree → Prop}
    (node : ∀ tree, (∀ child ∈ tree.children, motive child) → motive tree) : ∀ tree, motive tree
  | .node _ _ _ _ _ _ _ children =>
    node _ fun child (_ : child ∈ children) => induct node child

mutual

/-- The nodes of a tree in document order: a node before its children, and children in order. -/
def preorder : SyntaxTree → List SyntaxTree
  | .node kind named isError isMissing field start stop children =>
    .node kind named isError isMissing field start stop children :: preorderIn children

/-- The nodes of trees in document order. -/
def preorderIn : List SyntaxTree → List SyntaxTree
  | [] => []
  | tree :: rest => tree.preorder ++ preorderIn rest

end

theorem preorderIn_eq (trees : List SyntaxTree) : preorderIn trees = trees.flatMap preorder := by
  induction trees with
  | nil => rfl
  | cons child rest ih => rw [preorderIn, ih, List.flatMap_cons]

theorem preorder_eq (tree : SyntaxTree) :
    tree.preorder = tree :: tree.children.flatMap preorder := by
  rw [← preorderIn_eq]
  cases tree
  rfl

/-! ## References -/

/-- The name at the end of a qualified constant. -/
def EndsIn (source : ByteArray) (tree : SyntaxTree) (name : String) : Prop :=
  ∃ last, tree.child? "name" = some last ∧ last.kind = "constant" ∧ last.text? source = some name

/-- A node writes a reference. -/
inductive Writes (source : ByteArray) : SyntaxTree → Reference → Prop where
  /-- `Foo`. -/
  | constant {tree : SyntaxTree} {name : String} (kind : tree.kind = "constant")
      (text : tree.text? source = some name) : Writes source tree (.relative [name])
  /-- `self`. -/
  | itself {tree : SyntaxTree} (kind : tree.kind = "self") : Writes source tree .selfRef
  /-- `::Foo`. -/
  | rooted {tree : SyntaxTree} {name : String} (kind : tree.kind = "scope_resolution")
      (last : EndsIn source tree name) (scope : tree.child? "scope" = none) :
      Writes source tree (.absolute [name])
  /-- A name under a relative scope, such as `Foo::Bar`. -/
  | relative {tree scope : SyntaxTree} {name : String} {segments : List String}
      (kind : tree.kind = "scope_resolution") (last : EndsIn source tree name)
      (found : tree.child? "scope" = some scope) (outer : Writes source scope (.relative segments)) :
      Writes source tree (.relative (segments ++ [name]))
  /-- A name under an absolute scope, such as `::Foo::Bar`. -/
  | absolute {tree scope : SyntaxTree} {name : String} {segments : List String}
      (kind : tree.kind = "scope_resolution") (last : EndsIn source tree name)
      (found : tree.child? "scope" = some scope) (outer : Writes source scope (.absolute segments)) :
      Writes source tree (.absolute (segments ++ [name]))

theorem lastName?_eq_some_iff {name : String} :
    lastName? source tree.children = some name ↔ EndsIn source tree name := by
  unfold EndsIn child? lastName?
  cases tree.children.find? (fun child => child.field == some "name") <;> simp

theorem scopeReference?_eq (source : ByteArray) (tree : SyntaxTree) :
    scopeReference? source tree.children = (tree.child? "scope").map (reference? source) := by
  unfold child?
  induction tree.children with
  | nil => rfl
  | cons child rest ih =>
    rw [scopeReference?, ih]
    by_cases hplays : child.field = some "scope" <;> simp [hplays]

theorem reference?_of_constant (h : tree.kind = "constant") :
    tree.reference? source = (tree.text? source).map (fun name => .relative [name]) := by
  cases tree
  subst h
  rfl

theorem reference?_of_itself (h : tree.kind = "self") :
    tree.reference? source = some .selfRef := by
  cases tree
  subst h
  rfl

/-- A name without a scope is a name in the scope of the top level. -/
theorem reference?_of_qualified (h : tree.kind = "scope_resolution") :
    tree.reference? source = (lastName? source tree.children).bind (fun name =>
      ((tree.child? "scope").elim (some (.absolute [])) (reference? source)).bind
        (Reference.within name)) := by
  have hscope := scopeReference?_eq source tree
  obtain ⟨_, named, isError, isMissing, field, start, stop, children⟩ := tree
  subst h
  simp only [SyntaxTree.children] at hscope ⊢
  simp only [reference?, hscope]
  cases lastName? source children with
  | none => rfl
  | some name =>
    cases child? _ "scope" with
    | none => rfl
    | some scope =>
      cases hread : scope.reference? source with
      | none => simp [hread]
      | some outer => cases outer <;> simp [hread, Reference.within]

/-- Only nodes of these three kinds write a reference. -/
theorem kind_of_reference?_eq_some {reference : Reference}
    (h : tree.reference? source = some reference) :
    tree.kind = "constant" ∨ tree.kind = "self" ∨ tree.kind = "scope_resolution" := by
  cases tree
  grind [reference?, kind]

theorem mem_of_child?_eq_some {part : String} {child : SyntaxTree}
    (h : tree.child? part = some child) : child ∈ tree.children :=
  List.mem_of_find?_eq_some h

theorem writes_of_reference? (tree : SyntaxTree) :
    ∀ reference, tree.reference? source = some reference → Writes source tree reference := by
  induction tree using induct with
  | node tree ih =>
    intro reference h
    obtain hconstant | hself | hqualified := kind_of_reference?_eq_some h
    · rw [reference?_of_constant hconstant] at h
      obtain ⟨name, htext, rfl⟩ := Option.map_eq_some_iff.mp h
      exact .constant hconstant htext
    · rw [reference?_of_itself hself] at h
      cases h
      exact .itself hself
    · rw [reference?_of_qualified hqualified] at h
      obtain ⟨name, hname, h⟩ := Option.bind_eq_some_iff.mp h
      have hlast := lastName?_eq_some_iff.mp hname
      cases hscope : tree.child? "scope" with
      | none =>
        rw [hscope] at h
        cases h
        exact .rooted hqualified hlast hscope
      | some scope =>
        rw [hscope] at h
        obtain ⟨outer, houter, hwithin⟩ := Option.bind_eq_some_iff.mp h
        have hwrites := ih scope (mem_of_child?_eq_some hscope) outer houter
        cases outer with
        | relative segments =>
          cases hwithin
          exact .relative hqualified hlast hscope hwrites
        | absolute segments =>
          cases hwithin
          exact .absolute hqualified hlast hscope hwrites
        | selfRef => cases hwithin

theorem reference?_of_writes {reference : Reference} (writes : Writes source tree reference) :
    tree.reference? source = some reference := by
  induction writes with
  | constant hkind htext => rw [reference?_of_constant hkind, htext, Option.map_some]
  | itself hkind => exact reference?_of_itself hkind
  | rooted hkind hlast hscope =>
    rw [reference?_of_qualified hkind, lastName?_eq_some_iff.mpr hlast, hscope]
    rfl
  | relative hkind hlast hscope _ ih =>
    rw [reference?_of_qualified hkind, lastName?_eq_some_iff.mpr hlast, hscope, Option.elim_some, ih]
    rfl
  | absolute hkind hlast hscope _ ih =>
    rw [reference?_of_qualified hkind, lastName?_eq_some_iff.mpr hlast, hscope, Option.elim_some, ih]
    rfl

theorem reference?_eq_some_iff {reference : Reference} :
    tree.reference? source = some reference ↔ Writes source tree reference :=
  ⟨writes_of_reference? tree reference, reference?_of_writes⟩

theorem Writes.ne_selfRef {reference : Reference} (writes : Writes source tree reference)
    (h : tree.kind ≠ "self") : reference ≠ .selfRef := by
  rintro rfl
  cases writes with
  | itself hkind => exact h hkind

/-! ## Statements -/

/-- The superclass clause of a class writes a constant. -/
def Inherits (source : ByteArray) (tree : SyntaxTree) (superclass : Reference) : Prop :=
  ∃ clause written, tree.child? "superclass" = some clause ∧
    clause.namedChildren.head? = some written ∧ Writes source written superclass ∧
    superclass ≠ .selfRef

/-- The references that nodes write, in order; the nodes that write none are left out. -/
inductive Lists (source : ByteArray) : List SyntaxTree → List Reference → Prop where
  | nil : Lists source [] []
  | written {tree : SyntaxTree} {rest : List SyntaxTree} {reference : Reference}
      {references : List Reference} (writes : Writes source tree reference)
      (later : Lists source rest references) : Lists source (tree :: rest) (reference :: references)
  | other {tree : SyntaxTree} {rest : List SyntaxTree} {references : List Reference}
      (silent : ∀ reference, ¬ Writes source tree reference)
      (later : Lists source rest references) : Lists source (tree :: rest) references

/-- A node is a declaration or a mixin statement. -/
inductive States (source : ByteArray) (tree : SyntaxTree) : Head → Prop where
  | classDecl {part : SyntaxTree} {name : Reference} {superclass : Option Reference}
      (kind : tree.kind = "class") (found : tree.child? "name" = some part)
      (writes : Writes source part name) (constant : name ≠ .selfRef)
      (inherits : ∀ reference, superclass = some reference ↔ Inherits source tree reference) :
      States source tree (.classDecl name superclass)
  | moduleDecl {part : SyntaxTree} {name : Reference}
      (kind : tree.kind = "module") (found : tree.child? "name" = some part)
      (writes : Writes source part name) (constant : name ≠ .selfRef) :
      States source tree (.moduleDecl name)
  | mixing {method arguments : SyntaxTree} {mixin : Mixin} {targets : List Reference}
      (kind : tree.kind = "call") (calls : tree.child? "method" = some method)
      (text : method.text? source = some mixin.method)
      (receiver : ∀ receiver, tree.child? "receiver" = some receiver → receiver.kind = "self")
      (given : tree.child? "arguments" = some arguments)
      (lists : Lists source arguments.namedChildren targets) (targeted : targets ≠ []) :
      States source tree (.mixing mixin targets)

/-- The name of a declaration, if it is a constant. -/
def constantName? (source : ByteArray) (tree : SyntaxTree) : Option Reference :=
  (declaredName? source tree.children).filter (· ≠ .selfRef)

/-- What a node says, if it is a declaration or a mixin statement. -/
def head? (source : ByteArray) (tree : SyntaxTree) : Option Head :=
  if tree.kind = "class" then
    (constantName? source tree).map (fun name => .classDecl name (superclass? source tree.children))
  else if tree.kind = "module" then (constantName? source tree).map .moduleDecl
  else if tree.kind = "call" then (mixing? source tree).map Item.head
  else none

theorem declaredName?_eq_some_iff {name : Reference} :
    declaredName? source tree.children = some name ↔
      ∃ part, tree.child? "name" = some part ∧ Writes source part name := by
  simp only [declaredName?, Option.bind_eq_some_iff, reference?_eq_some_iff, child?]

theorem constantName?_eq_some_iff {name : Reference} :
    constantName? source tree = some name ↔
      (∃ part, tree.child? "name" = some part ∧ Writes source part name) ∧ name ≠ .selfRef := by
  simp [constantName?, Option.filter_eq_some_iff, declaredName?_eq_some_iff]

theorem superclass?_eq_some_iff {superclass : Reference} :
    superclass? source tree.children = some superclass ↔ Inherits source tree superclass := by
  unfold Inherits child? superclass?
  cases tree.children.find? (fun child => child.field == some "superclass") with
  | none => simp
  | some clause =>
    simp only [Option.some.injEq, exists_and_left, exists_eq_left', ← reference?_eq_some_iff]
    cases clause.namedChildren.head? with
    | none => simp
    | some written =>
      simp
      split <;> grind

theorem superclass?_eq {superclass : Option Reference}
    (h : ∀ reference, superclass = some reference ↔ Inherits source tree reference) :
    superclass? source tree.children = superclass := by
  apply Option.ext
  intro reference
  rw [h, superclass?_eq_some_iff]

theorem filterMap_reference?_eq_iff {trees : List SyntaxTree} {references : List Reference} :
    trees.filterMap (reference? source) = references ↔ Lists source trees references := by
  constructor
  · rintro rfl
    induction trees with
    | nil => exact .nil
    | cons tree rest ih =>
      cases hread : tree.reference? source with
      | none =>
        rw [List.filterMap_cons_none hread]
        refine .other ?_ ih
        intro reference hwrites
        rw [reference?_of_writes hwrites] at hread
        cases hread
      | some reference =>
        rw [List.filterMap_cons_some hread]
        exact .written (reference?_eq_some_iff.mp hread) ih
  · intro h
    induction h with
    | nil => rfl
    | written hwrites _ ih =>
      rw [List.filterMap_cons_some (reference?_of_writes hwrites), ih]
    | other hsilent _ ih =>
      rw [List.filterMap_cons_none, ih]
      apply Option.eq_none_iff_forall_ne_some.mpr
      intro reference hread
      exact hsilent reference (reference?_eq_some_iff.mp hread)

theorem mixing?_eq_some_iff {item : Item} (h : tree.kind = "call") :
    mixing? source tree = some item ↔
      ∃ mixin targets, item = .mixing mixin targets ∧ States source tree (.mixing mixin targets) := by
  constructor
  · intro hread
    simp only [mixing?, Option.bind_eq_bind, Option.bind_eq_some_iff] at hread
    obtain ⟨method, hmethod, text, htext, mixin, hmixin, hread⟩ := hread
    obtain rfl := Mixin.ofMethod?_eq_some_iff.mp hmixin
    have hown : ∀ receiver, tree.child? "receiver" = some receiver → receiver.kind = "self" := by
      intro receiver hreceiver
      by_contra hother
      simp [hreceiver, hother] at hread
    obtain ⟨arguments, hgiven, htargeted, rfl⟩ : ∃ arguments,
        tree.child? "arguments" = some arguments ∧
        arguments.namedChildren.filterMap (reference? source) ≠ [] ∧
        item = .mixing mixin (arguments.namedChildren.filterMap (reference? source)) := by
      cases hreceiver : tree.child? "receiver" with
      | none =>
        simp only [hreceiver, Option.bind_some, Option.bind_eq_some_iff] at hread
        grind
      | some receiver =>
        simp only [hreceiver, hown receiver hreceiver, bne_self_eq_false, Bool.false_eq_true,
          if_false, Option.bind_some, Option.bind_eq_some_iff] at hread
        grind
    exact ⟨mixin, _, rfl,
      .mixing h hmethod htext hown hgiven (filterMap_reference?_eq_iff.mp rfl) htargeted⟩
  · rintro ⟨mixin, targets, rfl, hstates⟩
    cases hstates with
    | mixing _ hmethod htext hown hgiven hlists _ =>
      have hread := filterMap_reference?_eq_iff.mpr hlists
      cases hreceiver : tree.child? "receiver" with
      | none =>
        simp only [mixing?, hmethod, htext, Mixin.ofMethod?_method, hreceiver, hgiven, hread,
          Option.bind_eq_bind, Option.bind_some]
      | some receiver =>
        simp only [mixing?, hmethod, htext, Mixin.ofMethod?_method, hreceiver,
          hown receiver hreceiver, hgiven, hread, Option.bind_eq_bind, Option.bind_some,
          bne_self_eq_false, Bool.false_eq_true, if_false]

theorem head?_eq_some_iff {head : Head} :
    tree.head? source = some head ↔ States source tree head := by
  constructor
  · intro h
    unfold head? at h
    split at h
    case isTrue hkind =>
      obtain ⟨name, hname, rfl⟩ := Option.map_eq_some_iff.mp h
      obtain ⟨⟨part, hpart, hwrites⟩, hconstant⟩ := constantName?_eq_some_iff.mp hname
      exact .classDecl hkind hpart hwrites hconstant fun _ => superclass?_eq_some_iff
    split at h
    case isTrue hkind =>
      obtain ⟨name, hname, rfl⟩ := Option.map_eq_some_iff.mp h
      obtain ⟨⟨part, hpart, hwrites⟩, hconstant⟩ := constantName?_eq_some_iff.mp hname
      exact .moduleDecl hkind hpart hwrites hconstant
    split at h
    case isTrue hkind =>
      obtain ⟨item, hmixes, rfl⟩ := Option.map_eq_some_iff.mp h
      obtain ⟨mixin, targets, rfl, hstates⟩ := (mixing?_eq_some_iff hkind).mp hmixes
      exact hstates
    case isFalse => cases h
  · intro h
    cases h with
    | @classDecl part name superclass hkind hpart hwrites hconstant hinherits =>
      have hname := constantName?_eq_some_iff.mpr ⟨⟨part, hpart, hwrites⟩, hconstant⟩
      rw [head?, if_pos hkind, hname, superclass?_eq hinherits, Option.map_some]
    | @moduleDecl part name hkind hpart hwrites hconstant =>
      have hname := constantName?_eq_some_iff.mpr ⟨⟨part, hpart, hwrites⟩, hconstant⟩
      simp [head?, hkind, hname]
    | @mixing method arguments mixin targets hkind hmethod htext hown hgiven hlists htargeted =>
      have hmixes := (mixing?_eq_some_iff hkind).mpr
        ⟨mixin, targets, rfl, .mixing hkind hmethod htext hown hgiven hlists htargeted⟩
      simp [head?, hkind, hmixes, Item.head]

/-! ## Names of declarations -/

/-- No class or module is named `self`. The grammar has only constants and qualified constants for
names. -/
def ConstantNames (tree : SyntaxTree) : Prop :=
  ∀ node ∈ tree.preorder, node.kind = "class" ∨ node.kind = "module" →
    ∀ part ∈ node.child? "name", part.kind ≠ "self"

instance (tree : SyntaxTree) : Decidable tree.ConstantNames :=
  inferInstanceAs (Decidable (∀ node ∈ tree.preorder, node.kind = "class" ∨ node.kind = "module" →
    ∀ part ∈ node.child? "name", part.kind ≠ "self"))

namespace ConstantNames

theorem child {child : SyntaxTree} (names : tree.ConstantNames) (h : child ∈ tree.children) :
    child.ConstantNames := by
  intro node hnode
  apply names node
  rw [preorder_eq]
  exact List.mem_cons_of_mem _ (List.mem_flatMap.mpr ⟨child, h, hnode⟩)

/-- Every name of a declaration is a constant. -/
theorem constantName?_eq (source : ByteArray) (names : tree.ConstantNames)
    (h : tree.kind = "class" ∨ tree.kind = "module") :
    constantName? source tree = declaredName? source tree.children := by
  cases hname : declaredName? source tree.children with
  | none => rw [constantName?, hname, Option.filter_none]
  | some name =>
    obtain ⟨part, hpart, hwrites⟩ := declaredName?_eq_some_iff.mp hname
    have hroot : tree ∈ tree.preorder := by
      rw [preorder_eq]
      exact List.mem_cons_self
    exact constantName?_eq_some_iff.mpr
      ⟨⟨part, hpart, hwrites⟩, hwrites.ne_selfRef (names tree hroot h part hpart)⟩

end ConstantNames

end SyntaxTree

end ClassAtlas
