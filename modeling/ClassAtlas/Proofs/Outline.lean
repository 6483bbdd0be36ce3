import ClassAtlas.Proofs.Spelling
import Mathlib.Data.List.Forall2
import Mathlib.Data.List.Infix

/-!
# Declarations in document order

Which statements are found in a tree, in which order, and in whose body each of them stands.

Items are nested, and so are the nodes of a tree, but not alike: between a declaration and what stands
in its body there may be any number of nodes. Both are therefore laid out in a line. The outline of items
lists each item before its body and notes for each the position of the item around it. The nodes of a
tree have places, which are ordered as the document is. Along these lines the two correspond one to one
(`collected_in_document_order`), and the item around an item is the innermost declaration around its
node.
-/

namespace ClassAtlas

/-! ## Outlines -/

/-- An item in an outline: what it says, and the position in the outline of the item whose body it
stands in, if it stands in one. -/
structure Entry where
  owner : Option Nat
  head : Head
deriving DecidableEq, Repr

namespace Entry

/-- The entry after `count` others were put in front of the outline. -/
def after (count : Nat) (entry : Entry) : Entry :=
  { entry with owner := entry.owner.map (· + count) }

/-- The entry after the outline became the body of an item, which is put in front. -/
def inBody (entry : Entry) : Entry :=
  { entry with owner := some (entry.owner.elim 0 (· + 1)) }

end Entry

mutual

/-- The outline of an item: itself, then its body. -/
def Item.outline : Item → List Entry
  | .classDecl name superclass body =>
    ⟨none, .classDecl name superclass⟩ :: (outlineOf body).map Entry.inBody
  | .moduleDecl name body => ⟨none, .moduleDecl name⟩ :: (outlineOf body).map Entry.inBody
  | .mixing mixin targets => [⟨none, .mixing mixin targets⟩]

/-- The outline of items in order, each before what stands in its body. -/
def outlineOf : List Item → List Entry
  | [] => []
  | item :: rest => item.outline ++ (outlineOf rest).map (Entry.after item.outline.length)

end

theorem outlineOf_append (items more : List Item) :
    outlineOf (items ++ more)
      = outlineOf items ++ (outlineOf more).map (Entry.after (outlineOf items).length) := by
  induction items with
  | nil =>
    have hsame : Entry.after 0 = id := by
      funext entry
      simp [Entry.after]
    simp [outlineOf, hsame]
  | cons item rest ih =>
    have htwice (first second : Nat) :
        Entry.after second ∘ Entry.after first = Entry.after (second + first) := by
      funext entry
      cases entry with
      | mk owner head => cases owner <;> simp [Entry.after]; omega
    simp [outlineOf, ih, htwice]

example : outlineOf [.moduleDecl (.relative ["A"]) [.classDecl (.relative ["B"]) none
      [.mixing .including [.relative ["C"]]]], .mixing .extending [.selfRef]]
    = [⟨none, .moduleDecl (.relative ["A"])⟩, ⟨some 0, .classDecl (.relative ["B"]) none⟩,
      ⟨some 1, .mixing .including [.relative ["C"]]⟩, ⟨none, .mixing .extending [.selfRef]⟩] := rfl

/-- An item of what it says and its body. A mixin statement has no body. -/
def Head.item : Head → List Item → Item
  | .classDecl name superclass, body => .classDecl name superclass body
  | .moduleDecl name, body => .moduleDecl name body
  | .mixing mixin targets, _ => .mixing mixin targets

/-- What declares a class or module, and so has a body. -/
def Head.isDeclaration : Head → Bool
  | .classDecl .. => true
  | .moduleDecl .. => true
  | .mixing .. => false

theorem outlineOf_item (head : Head) {body : List Item}
    (h : head.isDeclaration = false → body = []) :
    outlineOf [head.item body] = ⟨none, head⟩ :: (outlineOf body).map Entry.inBody := by
  cases head with
  | classDecl name superclass => simp [outlineOf, Head.item, Item.outline]
  | moduleDecl name => simp [outlineOf, Head.item, Item.outline]
  | mixing mixin targets =>
    rw [h rfl]
    simp [outlineOf, Head.item, Item.outline]

/-! ## Charts

A chart pairs the entries of an outline with places in a tree. It is put together as the outline is:
from the chart of one child, of some children in a row, and of a declaration in front of its body. -/

/-- An owner is the position of a scope among places; there is no owner if there is no scope. -/
def Owned (places : List (List Nat)) (owner : Option Nat) (scope : Option (List Nat)) : Prop :=
  owner.map (places[·]?) = scope.map some

namespace Owned

variable {places : List (List Nat)} {owner : Option Nat} {scope : Option (List Nat)}

theorem cases (owned : Owned places owner scope) :
    owner = none ∧ scope = none ∨
      ∃ position place, owner = some position ∧ scope = some place ∧
        places[position]? = some place := by
  unfold Owned at owned
  cases owner <;> cases scope <;> simp_all

theorem map (owned : Owned places owner scope) (f : List Nat → List Nat) :
    Owned (places.map f) owner (scope.map f) := by
  obtain ⟨rfl, rfl⟩ | ⟨position, place, rfl, rfl, hplace⟩ := owned.cases
  · rfl
  · simp [Owned, hplace]

theorem append_right (owned : Owned places owner scope) (later : List (List Nat)) :
    Owned (places ++ later) owner scope := by
  obtain ⟨rfl, rfl⟩ | ⟨position, place, rfl, rfl, hplace⟩ := owned.cases
  · rfl
  · have hbound := (List.getElem?_eq_some_iff.mp hplace).1
    simp [Owned, List.getElem?_append_left hbound, hplace]

theorem append_left (owned : Owned places owner scope) (earlier : List (List Nat)) :
    Owned (earlier ++ places) (owner.map (· + earlier.length)) scope := by
  obtain ⟨rfl, rfl⟩ | ⟨position, place, rfl, rfl, hplace⟩ := owned.cases
  · rfl
  · simp [Owned, List.getElem?_append_right, hplace]

theorem inBody (owned : Owned places owner scope) (top : List Nat) :
    Owned (top :: places) (some (owner.elim 0 (· + 1))) (some (scope.getD top)) := by
  obtain ⟨rfl, rfl⟩ | ⟨position, place, rfl, rfl, hplace⟩ := owned.cases
  · rfl
  · simp [Owned, hplace]

end Owned

/-- The entries of an outline and the places where they come from. The places are in order and are all
those that show anything, each entry shows at its place, and its owner is at the place around it. -/
structure Charts (shows : List Nat → Head → Prop) (around? : List Nat → Option (List Nat))
    (entries : List Entry) (places : List (List Nat)) : Prop where
  sorted : places.Pairwise (· < ·)
  mem_iff : ∀ place, place ∈ places ↔ ∃ head, shows place head
  rows : List.Forall₂ (fun entry place =>
    shows place entry.head ∧ Owned places entry.owner (around? place)) entries places

namespace Charts

variable {shows shows' both : List Nat → Head → Prop} {around? around?' : List Nat → Option (List Nat)}
  {entries entries' : List Entry} {places places' : List (List Nat)}

theorem nil (h : ∀ place head, ¬ shows place head) : Charts shows around? [] [] where
  sorted := .nil
  mem_iff := by simp [h]
  rows := .nil

theorem congr (charts : Charts shows around? entries places)
    (hshows : ∀ place head, shows place head ↔ shows' place head)
    (haround : ∀ place ∈ places, around?' place = around? place) :
    Charts shows' around?' entries places where
  sorted := charts.sorted
  mem_iff := by
    intro place
    simp only [charts.mem_iff, hshows]
  rows := by
    apply charts.rows.imp
    intro entry place ⟨hshown, howned⟩
    rw [haround place ((charts.mem_iff place).mpr ⟨_, hshown⟩)]
    exact ⟨(hshows place _).mp hshown, howned⟩

/-- The chart of a child, read from its parent. -/
theorem below (charts : Charts shows around? entries places) (index : Nat)
    (haround : ∀ rest, around?' (index :: rest) = (around? rest).map (index :: ·)) :
    Charts (fun place head => ∃ rest, place = index :: rest ∧ shows rest head) around?' entries
      (places.map (index :: ·)) where
  sorted := by
    apply List.pairwise_map.mpr
    apply charts.sorted.imp
    intro place later hlt
    exact List.cons_lt_cons_self.mpr hlt
  mem_iff := by
    intro place
    simp only [List.mem_map, charts.mem_iff]
    grind
  rows := by
    apply List.forall₂_map_right_iff.mpr
    apply charts.rows.imp
    intro entry rest ⟨hshown, howned⟩
    rw [haround rest]
    exact ⟨⟨rest, rfl, hshown⟩, howned.map (index :: ·)⟩

theorem append (charts : Charts shows around? entries places)
    (charts' : Charts shows' around? entries' places')
    (hbefore : ∀ place ∈ places, ∀ later ∈ places', place < later)
    (hboth : ∀ place head, both place head ↔ shows place head ∨ shows' place head) :
    Charts both around? (entries ++ entries'.map (Entry.after entries.length))
      (places ++ places') where
  sorted := List.pairwise_append.mpr ⟨charts.sorted, charts'.sorted, hbefore⟩
  mem_iff := by
    intro place
    simp only [List.mem_append, charts.mem_iff, charts'.mem_iff, hboth, exists_or]
  rows := by
    apply List.rel_append
    · apply charts.rows.imp
      intro entry place ⟨hshown, howned⟩
      exact ⟨(hboth place _).mpr (.inl hshown), howned.append_right places'⟩
    · apply List.forall₂_map_left_iff.mpr
      apply charts'.rows.imp
      intro entry place ⟨hshown, howned⟩
      rw [charts.rows.length_eq]
      exact ⟨(hboth place _).mpr (.inr hshown), howned.append_left places⟩

/-- The chart of a declaration in front of its body. -/
theorem headed (charts : Charts shows around? entries places) {head : Head}
    (hinside : ∀ place ∈ places, place ≠ []) (htop : around?' [] = none)
    (haround : ∀ place ∈ places, around?' place = some ((around? place).getD []))
    (hboth : ∀ place other, both place other ↔ place = [] ∧ other = head ∨ shows place other) :
    Charts both around?' (⟨none, head⟩ :: entries.map Entry.inBody) ([] :: places) where
  sorted := by
    apply List.Pairwise.cons _ charts.sorted
    intro place hplace
    cases place with
    | nil => exact absurd rfl (hinside [] hplace)
    | cons index rest => exact List.nil_lt_cons index rest
  mem_iff := by
    intro place
    simp only [List.mem_cons, charts.mem_iff, hboth, exists_or, exists_and_left, exists_eq,
      and_true]
  rows := by
    apply List.Forall₂.cons
    · rw [htop]
      exact ⟨(hboth [] head).mpr (.inl ⟨rfl, rfl⟩), rfl⟩
    · apply List.forall₂_map_left_iff.mpr
      apply charts.rows.imp
      intro entry place ⟨hshown, howned⟩
      rw [haround place ((charts.mem_iff place).mpr ⟨_, hshown⟩)]
      exact ⟨(hboth place _).mpr (.inr hshown), howned.inBody []⟩

end Charts

namespace SyntaxTree

variable {source : ByteArray} {tree : SyntaxTree}

/-! ## Places -/

/-- The node at a place. A place lists positions among children, from the root down to the node. Places
in document order are in the order of these lists: a node comes before what is below it. -/
def nodeAt? (tree : SyntaxTree) : List Nat → Option SyntaxTree
  | [] => some tree
  | index :: rest => tree.children[index]?.bind (fun child => child.nodeAt? rest)

theorem nodeAt?_cons_eq_some_iff {index : Nat} {rest : List Nat} {node : SyntaxTree} :
    tree.nodeAt? (index :: rest) = some node ↔
      ∃ child, tree.children[index]? = some child ∧ child.nodeAt? rest = some node := by
  rw [nodeAt?, Option.bind_eq_some_iff]

/-- The child at a position is the first that plays a part. -/
def Plays (tree : SyntaxTree) (index : Nat) (part : String) : Prop :=
  tree.children.findIdx? (fun child => child.field == some part) = some index

/-- A node declares a class or module. -/
def Declares (source : ByteArray) (tree : SyntaxTree) : Prop :=
  ∃ head, States source tree head ∧ head.isDeclaration

/-- A child that belongs to what the node says: the name of a declaration, the superclass of a class,
and all of a mixin statement. -/
def Covers (tree : SyntaxTree) (index : Nat) : Head → Prop
  | .classDecl .. => tree.Plays index "name" ∨ tree.Plays index "superclass"
  | .moduleDecl .. => tree.Plays index "name"
  | .mixing .. => True

/-- The child at a position belongs to what the node says, and nothing is declared in it. -/
def Closed (source : ByteArray) (tree : SyntaxTree) (index : Nat) : Prop :=
  ∃ head, States source tree head ∧ Covers tree index head

/-- A place is reached through named children that are not closed. -/
inductive Visible (source : ByteArray) : SyntaxTree → List Nat → Prop where
  | root (tree : SyntaxTree) : Visible source tree []
  | child {tree child : SyntaxTree} {index : Nat} {rest : List Nat}
      (found : tree.children[index]? = some child) (named : child.named = true)
      (passable : ¬ Closed source tree index) (inner : Visible source child rest) :
      Visible source tree (index :: rest)

/-- There is a declaration at a place above another. -/
def Encloses (source : ByteArray) (tree : SyntaxTree) (scope place : List Nat) : Prop :=
  (∃ node, tree.nodeAt? scope = some node ∧ Declares source node) ∧ scope <+: place ∧ scope ≠ place

/-- The innermost declaration around a place. -/
def Nearest (source : ByteArray) (tree : SyntaxTree) (scope place : List Nat) : Prop :=
  Encloses source tree scope place ∧ ∀ other, Encloses source tree other place → other <+: scope

/-- What the node at a visible place says. -/
def Shows (source : ByteArray) (tree : SyntaxTree) (place : List Nat) (head : Head) : Prop :=
  Visible source tree place ∧ ∃ node, tree.nodeAt? place = some node ∧ States source node head

/-- The place of the innermost declaration around a place. -/
def enclosing? (source : ByteArray) (tree : SyntaxTree) : List Nat → Option (List Nat)
  | [] => none
  | index :: rest =>
    ((tree.children[index]?.bind (fun child => child.enclosing? source rest)).map (index :: ·)).or
      (if (tree.head? source).any Head.isDeclaration then some [] else none)

/-- The place of the innermost declaration around a place, the root left out. -/
def deeper? (source : ByteArray) (tree : SyntaxTree) : List Nat → Option (List Nat)
  | [] => none
  | index :: rest =>
    (tree.children[index]?.bind (fun child => child.enclosing? source rest)).map (index :: ·)

/-! ## The declaration around a place -/

theorem head?_any_iff : (tree.head? source).any Head.isDeclaration = true ↔ Declares source tree := by
  simp only [Option.any_eq_true, head?_eq_some_iff, Declares]

theorem encloses_cons_iff {index : Nat} {scope rest : List Nat} :
    Encloses source tree scope (index :: rest) ↔
      scope = [] ∧ Declares source tree ∨
      ∃ child inner, tree.children[index]? = some child ∧ scope = index :: inner ∧
        Encloses source child inner rest := by
  unfold Encloses
  cases scope with
  | nil => simp [nodeAt?]
  | cons first inner =>
    constructor
    · rintro ⟨⟨node, hnode, hdeclares⟩, habove, hne⟩
      obtain ⟨rfl, hinside⟩ := List.cons_prefix_cons.mp habove
      obtain ⟨child, hchild, hnode⟩ := nodeAt?_cons_eq_some_iff.mp hnode
      exact .inr ⟨child, inner, hchild, rfl, ⟨node, hnode, hdeclares⟩, hinside,
        fun heq => hne (congrArg (first :: ·) heq)⟩
    · rintro (⟨hnil, -⟩ | ⟨child, _, hchild, heq, ⟨node, hnode, hdeclares⟩, habove, hne⟩)
      · cases hnil
      · cases heq
        refine ⟨⟨node, nodeAt?_cons_eq_some_iff.mpr ⟨child, hchild, hnode⟩, hdeclares⟩,
          List.cons_prefix_cons.mpr ⟨rfl, habove⟩, ?_⟩
        intro heq
        exact hne (List.tail_eq_of_cons_eq heq)

theorem not_encloses_nil {scope : List Nat} : ¬ Encloses source tree scope [] := by
  rintro ⟨-, habove, hne⟩
  exact hne (List.prefix_nil.mp habove)

theorem enclosing?_cons (index : Nat) (rest : List Nat) :
    enclosing? source tree (index :: rest) = (deeper? source tree (index :: rest)).or
      (if (tree.head? source).any Head.isDeclaration then some [] else none) :=
  rfl

theorem enclosing?_eq_none {place : List Nat} (h : enclosing? source tree place = none)
    (scope : List Nat) : ¬ Encloses source tree scope place := by
  induction place generalizing tree scope with
  | nil => exact not_encloses_nil
  | cons index rest ih =>
    rw [enclosing?_cons, Option.or_eq_none_iff, deeper?, Option.map_eq_none_iff] at h
    obtain ⟨hdeeper, hhere⟩ := h
    rw [encloses_cons_iff]
    rintro (⟨-, hdeclares⟩ | ⟨child, inner, hchild, -, hencloses⟩)
    · rw [if_pos (head?_any_iff.mpr hdeclares)] at hhere
      cases hhere
    · rw [hchild] at hdeeper
      exact ih hdeeper inner hencloses

theorem nearest_of_enclosing? {place scope : List Nat}
    (h : enclosing? source tree place = some scope) : Nearest source tree scope place := by
  induction place generalizing tree scope with
  | nil => cases h
  | cons index rest ih =>
    rw [enclosing?_cons, Option.or_eq_some_iff] at h
    obtain hdeeper | ⟨hnone, hhere⟩ := h
    · obtain ⟨inner, hinner, rfl⟩ := Option.map_eq_some_iff.mp hdeeper
      obtain ⟨child, hchild, hinner⟩ := Option.bind_eq_some_iff.mp hinner
      obtain ⟨hencloses, hinnermost⟩ := ih hinner
      refine ⟨encloses_cons_iff.mpr (.inr ⟨child, inner, hchild, rfl, hencloses⟩), ?_⟩
      intro other hother
      obtain ⟨rfl, -⟩ | ⟨child', inner', hchild', rfl, hencloses'⟩ := encloses_cons_iff.mp hother
      · exact List.nil_prefix
      · obtain rfl : child = child' := by simpa [hchild] using hchild'
        exact List.cons_prefix_cons.mpr ⟨rfl, hinnermost inner' hencloses'⟩
    · rw [deeper?, Option.map_eq_none_iff] at hnone
      split at hhere
      case isFalse => cases hhere
      case isTrue hdeclares =>
        cases hhere
        refine ⟨encloses_cons_iff.mpr (.inl ⟨rfl, head?_any_iff.mp hdeclares⟩), ?_⟩
        intro other hother
        obtain ⟨rfl, -⟩ | ⟨child, inner, hchild, -, hencloses⟩ := encloses_cons_iff.mp hother
        · exact List.prefix_rfl
        · rw [hchild] at hnone
          exact absurd hencloses (enclosing?_eq_none hnone inner)

/-! ## Walking through the children -/

/-- The first of `children` that plays a part, if they are counted from `offset`. -/
def firstPlaying (children : List SyntaxTree) (offset : Nat) (part : String) : Option Nat :=
  (children.findIdx? (fun child => child.field == some part)).map (· + offset)

theorem firstPlaying_cons (child : SyntaxTree) (rest : List SyntaxTree) (offset : Nat) (part : String) :
    firstPlaying (child :: rest) offset part
      = if child.field = some part then some offset else firstPlaying rest (offset + 1) part := by
  unfold firstPlaying
  by_cases hplays : child.field = some part
  · simp [List.findIdx?_cons, hplays]
  · simp only [List.findIdx?_cons, hplays, beq_iff_eq, if_false, Option.map_map]
    congr 1
    funext position
    show position + 1 + offset = position + (offset + 1)
    omega

theorem le_of_firstPlaying {children : List SyntaxTree} {offset position : Nat} {part : String}
    (h : firstPlaying children offset part = some position) : offset ≤ position := by
  obtain ⟨index, -, rfl⟩ := Option.map_eq_some_iff.mp h
  omega

/-- The children that are walked into, with their positions: the named ones, without the first that plays
each part in `skip`. -/
def walked (skip : List String) (children : List SyntaxTree) (offset : Nat) :
    List (SyntaxTree × Nat) :=
  (children.zipIdx offset).filter (fun child =>
    child.1.named && skip.all fun part => firstPlaying children offset part ≠ some child.2)

/-- A part that the first child plays is not looked for among the rest. -/
theorem walked_cons (skip : List String) (child : SyntaxTree) (rest : List SyntaxTree)
    (offset : Nat) :
    walked skip (child :: rest) offset
      = (if child.named && skip.all (child.field ≠ some ·) then [(child, offset)] else []) ++
        walked (skip.filter (child.field ≠ some ·)) rest (offset + 1) := by
  have hhere (part : String) :
      firstPlaying (child :: rest) offset part ≠ some offset ↔ child.field ≠ some part := by
    have hlater : firstPlaying rest (offset + 1) part ≠ some offset := by
      intro hfound
      have hbound := le_of_firstPlaying hfound
      omega
    rw [firstPlaying_cons]
    split <;> simp [*]
  have hbelow (other : SyntaxTree × Nat) (hother : other ∈ rest.zipIdx (offset + 1)) (part : String) :
      firstPlaying (child :: rest) offset part ≠ some other.2 ↔
        (child.field ≠ some part → firstPlaying rest (offset + 1) part ≠ some other.2) := by
    have hlater : offset ≠ other.2 := by
      have hbound := List.le_snd_of_mem_zipIdx hother
      omega
    rw [firstPlaying_cons]
    split <;> simp [*]
  have htests : ∀ other ∈ rest.zipIdx (offset + 1),
      (other.1.named && skip.all fun part => firstPlaying (child :: rest) offset part ≠ some other.2)
        = (other.1.named && (skip.filter (child.field ≠ some ·)).all fun part =>
            firstPlaying rest (offset + 1) part ≠ some other.2) := by
    intro other hother
    simp [hbelow other hother]
  rw [walked, List.zipIdx_cons, List.filter_cons, List.filter_congr htests]
  simp only [hhere]
  split <;> rfl

/-- What is still to be skipped changes on the way, but which children are skipped can be told from
their positions. -/
theorem collectFrom_eq (skip : List String) (nodup : skip.Nodup) (children : List SyntaxTree)
    (offset : Nat) :
    collectFrom source skip children
      = (walked skip children offset).flatMap (fun child => child.1.collect source) := by
  induction children generalizing skip offset with
  | nil => rfl
  | cons child rest ih =>
    rw [walked_cons, List.flatMap_append, ← ih _ (nodup.filter _), collectFrom]
    by_cases hskipped : ∃ part ∈ skip, child.field = some part
    · obtain ⟨part, hpart, hplays⟩ := hskipped
      have herased : skip.erase part = skip.filter (child.field ≠ some ·) := by
        rw [nodup.erase_eq_filter, hplays]
        apply List.filter_congr
        intro other _
        grind
      have hpassed : skip.all (child.field ≠ some ·) = false := by
        simpa [hplays] using hpart
      simp only [hpassed, Bool.and_false, ← herased]
      simp [hplays, hpart]
    · have hapart : ∀ part ∈ skip, child.field ≠ some part := by
        intro part hpart hplays
        exact hskipped ⟨part, hpart, hplays⟩
      have hkept : skip.filter (child.field ≠ some ·) = skip := by
        simpa using hapart
      have hwalks : skip.all (child.field ≠ some ·) = true := by
        simpa using hapart
      have hstays : (child.field.isSome && skip.contains (child.field.getD "")) = false := by
        cases hplays : child.field with
        | none => rfl
        | some part => simpa using fun hpart => hapart part hpart hplays
      simp only [hkept, hwalks, hstays, Bool.and_true, Bool.false_eq_true, if_false]
      split <;> simp

theorem mem_walked {skip : List String} {child : SyntaxTree × Nat} :
    child ∈ walked skip tree.children 0 ↔
      tree.children[child.2]? = some child.1 ∧ child.1.named = true ∧
        ∀ part ∈ skip, ¬ tree.Plays child.2 part := by
  simp [walked, firstPlaying, Plays, List.mem_zipIdx_iff_getElem?]

theorem walked_ascending (skip : List String) (children : List SyntaxTree) (offset : Nat) :
    (walked skip children offset).Pairwise (·.2 < ·.2) := by
  apply List.Pairwise.filter
  apply List.pairwise_map.mp
  rw [List.zipIdx_map_snd]
  exact List.pairwise_lt_range'

/-- The children in which a node's body is looked for. -/
def steps (source : ByteArray) (tree : SyntaxTree) : List (SyntaxTree × Nat) :=
  match tree.head? source with
  | none => walked [] tree.children 0
  | some (.classDecl ..) => walked ["name", "superclass"] tree.children 0
  | some (.moduleDecl ..) => walked ["name"] tree.children 0
  | some (.mixing ..) => []

theorem closed_iff {index : Nat} {head : Head} (h : tree.head? source = some head) :
    Closed source tree index ↔ Covers tree index head := by
  simp [Closed, ← head?_eq_some_iff, h]

theorem not_closed {index : Nat} (h : tree.head? source = none) : ¬ Closed source tree index := by
  simp [Closed, ← head?_eq_some_iff, h]

theorem mem_steps {child : SyntaxTree × Nat} :
    child ∈ steps source tree ↔
      tree.children[child.2]? = some child.1 ∧ child.1.named = true ∧
        ¬ Closed source tree child.2 := by
  unfold steps
  split
  case h_1 hsilent => simp [mem_walked, not_closed hsilent]
  case h_2 hhead => simp [mem_walked, closed_iff hhead, Covers]
  case h_3 hhead => simp [mem_walked, closed_iff hhead, Covers]
  case h_4 hhead => simp [closed_iff hhead, Covers]

theorem steps_ascending (source : ByteArray) (tree : SyntaxTree) :
    (steps source tree).Pairwise (·.2 < ·.2) := by
  unfold steps
  split
  · exact walked_ascending ..
  · exact walked_ascending ..
  · exact walked_ascending ..
  · exact .nil

theorem collect_of_silent (names : tree.ConstantNames) (h : tree.head? source = none) :
    tree.collect source = (steps source tree).flatMap (fun child => child.1.collect source) := by
  have hthrough : steps source tree = walked [] tree.children 0 := by
    rw [steps, h]
  have hname := names.constantName?_eq source
  rw [hthrough, ← collectFrom_eq [] .nil]
  obtain ⟨kind, named, isError, isMissing, field, start, stop, children⟩ := tree
  rw [collect]
  grind [head?, SyntaxTree.kind, SyntaxTree.children]

theorem collect_of_head {head : Head} (h : tree.head? source = some head) :
    tree.collect source
      = [head.item ((steps source tree).flatMap (fun child => child.1.collect source))] := by
  rw [steps, h]
  cases head?_eq_some_iff.mp h with
  | @classDecl part name superclass hkind hpart hwrites _ hinherits =>
    have hname := declaredName?_eq_some_iff.mpr ⟨part, hpart, hwrites⟩
    rw [← superclass?_eq hinherits]
    obtain ⟨kind, named, isError, isMissing, field, start, stop, children⟩ := tree
    obtain rfl : kind = "class" := hkind
    change declaredName? source children = some name at hname
    show _ = [Item.classDecl name (superclass? source children)
      ((walked ["name", "superclass"] children 0).flatMap _)]
    rw [← collectFrom_eq ["name", "superclass"] (by decide), collect]
    simp [hname]
  | @moduleDecl part name hkind hpart hwrites =>
    have hname := declaredName?_eq_some_iff.mpr ⟨part, hpart, hwrites⟩
    obtain ⟨kind, named, isError, isMissing, field, start, stop, children⟩ := tree
    obtain rfl : kind = "module" := hkind
    change declaredName? source children = some name at hname
    show _ = [Item.moduleDecl name ((walked ["name"] children 0).flatMap _)]
    rw [← collectFrom_eq ["name"] (by decide), collect]
    simp [hname]
  | @mixing _ _ mixin targets hkind hmethod htext hown hgiven hlists htargeted =>
    have hmixes := (mixing?_eq_some_iff hkind).mpr
      ⟨mixin, targets, rfl, .mixing hkind hmethod htext hown hgiven hlists htargeted⟩
    obtain ⟨kind, named, isError, isMissing, field, start, stop, children⟩ := tree
    obtain rfl : kind = "call" := hkind
    rw [collect]
    simp [hmixes]
    rfl

/-- What is shown below the children of a node. -/
def ShowsBelow (source : ByteArray) (children : List (SyntaxTree × Nat)) (place : List Nat)
    (head : Head) : Prop :=
  ∃ child ∈ children, ∃ rest, place = child.2 :: rest ∧ Shows source child.1 rest head

theorem charts_walked (children : List (SyntaxTree × Nat)) (around? : List Nat → Option (List Nat))
    (ascending : children.Pairwise (·.2 < ·.2))
    (inner : ∀ child ∈ children, ∃ places, Charts (Shows source child.1) (enclosing? source child.1)
      (outlineOf (child.1.collect source)) places)
    (haround : ∀ child ∈ children, ∀ rest,
      around? (child.2 :: rest) = (enclosing? source child.1 rest).map (child.2 :: ·)) :
    ∃ places, Charts (ShowsBelow source children) around?
      (outlineOf (children.flatMap (fun child => child.1.collect source))) places := by
  induction children with
  | nil =>
    refine ⟨[], Charts.nil ?_⟩
    simp [ShowsBelow]
  | cons child rest ih =>
    obtain ⟨hleast, hascending⟩ := List.pairwise_cons.mp ascending
    obtain ⟨first, hfirst⟩ := inner child List.mem_cons_self
    obtain ⟨later, hlater⟩ := ih hascending (fun other hother => inner other (.tail _ hother))
      (fun other hother => haround other (.tail _ hother))
    refine ⟨first.map (child.2 :: ·) ++ later, ?_⟩
    rw [List.flatMap_cons, outlineOf_append]
    apply (hfirst.below child.2 (haround child List.mem_cons_self)).append hlater
    · intro place hplace other hother
      obtain ⟨rest, -, rfl⟩ := List.mem_map.mp hplace
      obtain ⟨head, next, hnext, tail, rfl, -⟩ := (hlater.mem_iff other).mp hother
      exact List.Lex.rel (hleast next hnext)
    · intro place head
      simp [ShowsBelow]

theorem shows_iff {place : List Nat} {head : Head} :
    Shows source tree place head ↔
      place = [] ∧ States source tree head ∨ ShowsBelow source (steps source tree) place head := by
  constructor
  · rintro ⟨hvisible, node, hnode, hstates⟩
    cases hvisible with
    | root =>
      cases hnode
      exact .inl ⟨rfl, hstates⟩
    | @child _ child index rest hchild hnamed hpassable hinner =>
      rw [nodeAt?, hchild] at hnode
      exact .inr ⟨(child, index), mem_steps.mpr ⟨hchild, hnamed, hpassable⟩, rest, rfl,
        hinner, node, hnode, hstates⟩
  · rintro (⟨rfl, hstates⟩ | ⟨⟨child, index⟩, hchild, rest, rfl, hvisible, node, hnode, hstates⟩)
    · exact ⟨.root tree, tree, rfl, hstates⟩
    · obtain ⟨hchild, hnamed, hpassable⟩ := mem_steps.mp hchild
      exact ⟨.child hchild hnamed hpassable hvisible, node,
        nodeAt?_cons_eq_some_iff.mpr ⟨child, hchild, hnode⟩, hstates⟩

/-- The outline of what is found in a tree, with the places in the tree. -/
theorem exists_charts (source : ByteArray) (names : tree.ConstantNames) :
    ∃ places, Charts (Shows source tree) (enclosing? source tree) (outlineOf (tree.collect source))
      places := by
  induction tree using induct with
  | node tree ih =>
    have hchild {child : SyntaxTree × Nat} (h : child ∈ steps source tree) :
        tree.children[child.2]? = some child.1 := (mem_steps.mp h).1
    obtain ⟨places, hcharts⟩ := charts_walked (steps source tree) (deeper? source tree)
      (steps_ascending source tree)
      (fun child h =>
        have hmem := List.mem_of_getElem? (hchild h)
        ih child.1 hmem (names.child hmem))
      (fun child h rest => by rw [deeper?, hchild h, Option.bind_some])
    have hinside : ∀ place ∈ places, place ≠ [] := by
      rintro place hplace rfl
      obtain ⟨head, child, -, rest, heq, -⟩ := (hcharts.mem_iff []).mp hplace
      cases heq
    have haround : ∀ place ∈ places, enclosing? source tree place = (deeper? source tree place).or
        (if (tree.head? source).any Head.isDeclaration then some [] else none) := by
      intro place hplace
      cases place with
      | nil => exact absurd rfl (hinside [] hplace)
      | cons index rest => exact enclosing?_cons index rest
    cases hhead : tree.head? source with
    | none =>
      rw [collect_of_silent names hhead]
      refine ⟨places, hcharts.congr ?_ ?_⟩
      · intro place head
        simp [shows_iff, ← head?_eq_some_iff, hhead]
      · intro place hplace
        simp [haround place hplace, hhead]
    | some head =>
      have hbare : head.isDeclaration = false → steps source tree = [] := by
        intro hmixes
        cases head <;> cases hmixes
        rw [steps, hhead]
      rw [collect_of_head hhead, outlineOf_item]
      · refine ⟨[] :: places, hcharts.headed hinside rfl ?_ ?_⟩
        -- Whatever has no declaration around it below this one stands in its body.
        · intro place hplace
          rw [haround place hplace, hhead]
          cases hmixes : head.isDeclaration with
          | false =>
            obtain ⟨head, child, hstep, -⟩ := (hcharts.mem_iff place).mp hplace
            rw [hbare hmixes] at hstep
            cases hstep
          | true =>
            rw [Option.any_some, hmixes, if_pos rfl]
            cases deeper? source tree place <;> rfl
        · intro place other
          rw [shows_iff, ← head?_eq_some_iff, hhead, Option.some.injEq]
          simp only [eq_comm]
      · intro hmixes
        rw [hbare hmixes, List.flatMap_nil]

/-- The items of a tree are the statements at its visible places: each once, in document order, and as
the node at the place says it. An item stands in the body of the innermost declaration around its place,
and at the top level if there is none. -/
theorem collected_in_document_order (source : ByteArray) {root : SyntaxTree}
    (names : root.ConstantNames) :
    ∃ places : List (List Nat),
      places.Pairwise (· < ·) ∧
      (∀ place, place ∈ places ↔ Visible source root place ∧
        ∃ node head, root.nodeAt? place = some node ∧ States source node head) ∧
      List.Forall₂ (fun entry place =>
          (∃ node, root.nodeAt? place = some node ∧ States source node entry.head) ∧
          (∀ owner, entry.owner = some owner →
            ∃ scope, places[owner]? = some scope ∧ Nearest source root scope place) ∧
          (entry.owner = none → ∀ scope, ¬ Encloses source root scope place))
        (outlineOf (root.collect source)) places := by
  obtain ⟨places, hcharts⟩ := exists_charts source names
  refine ⟨places, hcharts.sorted, ?_, hcharts.rows.imp ?_⟩
  · intro place
    rw [hcharts.mem_iff]
    constructor
    · rintro ⟨head, hvisible, node, hnode, hstates⟩
      exact ⟨hvisible, node, head, hnode, hstates⟩
    · rintro ⟨hvisible, node, head, hnode, hstates⟩
      exact ⟨head, hvisible, node, hnode, hstates⟩
  · rintro entry place ⟨⟨-, hshown⟩, howned⟩
    refine ⟨hshown, ?_⟩
    obtain ⟨htop, houtside⟩ | ⟨position, scope, hinside, haround, hscope⟩ := howned.cases
    · refine ⟨?_, fun _ => enclosing?_eq_none houtside⟩
      intro owner hinside
      rw [htop] at hinside
      cases hinside
    · refine ⟨?_, ?_⟩
      · intro owner howner
        obtain rfl : position = owner := by simpa [hinside] using howner
        exact ⟨scope, hscope, nearest_of_enclosing? haround⟩
      · intro htop
        rw [htop] at hinside
        cases hinside

/-- A class inside a condition. -/
def guardedSource : ByteArray :=
  "if x\n class A\n  include self\n end\nend\n".toUTF8

/-- The tree of `guardedSource`, its tokens left out. -/
def guardedTree : SyntaxTree :=
  node "program" true false false none 0 38 [
    node "if" true false false none 0 37 [
      node "identifier" true false false (some "condition") 3 4 [],
      node "then" true false false (some "consequence") 4 33 [
        node "class" true false false none 6 33 [
          node "constant" true false false (some "name") 12 13 [],
          node "body_statement" true false false (some "body") 16 28 [
            node "call" true false false none 16 28 [
              node "identifier" true false false (some "method") 16 23 [],
              node "argument_list" true false false (some "arguments") 24 28 [
                node "self" true false false none 24 28 []]]]]]]]

/-- The class stands at the top level, although there is a condition around it, and the statement after
it stands in its body. -/
theorem collected_of_guarded :
    guardedTree.ConstantNames ∧ ∃ outer inner, outer < inner ∧
      (∃ node, guardedTree.nodeAt? outer = some node ∧
        States guardedSource node (.classDecl (.relative ["A"]) none)) ∧
      (∀ scope, ¬ Encloses guardedSource guardedTree scope outer) ∧
      (∃ node, guardedTree.nodeAt? inner = some node ∧
        States guardedSource node (.mixing .including [.selfRef])) ∧
      Nearest guardedSource guardedTree outer inner := by
  have hnames : guardedTree.ConstantNames := by decide +kernel
  obtain ⟨places, hsorted, -, hrows⟩ := collected_in_document_order guardedSource hnames
  have houtline : outlineOf (guardedTree.collect guardedSource) =
      [⟨none, .classDecl (.relative ["A"]) none⟩, ⟨some 0, .mixing .including [.selfRef]⟩] := by
    decide +kernel
  rw [houtline] at hrows
  obtain ⟨outer, hrows', ⟨houter, -, htop⟩, hrest, rfl⟩ := List.forall₂_cons_left_iff.mp hrows
  obtain ⟨inner, _, ⟨hinner, hbody, -⟩, hnil, rfl⟩ := List.forall₂_cons_left_iff.mp hrest
  obtain ⟨_, hscope, hnearest⟩ := hbody 0 rfl
  cases hscope
  exact ⟨hnames, outer, inner, (List.pairwise_cons.mp hsorted).1 inner List.mem_cons_self, houter,
    htop rfl, hinner, hnearest⟩

end SyntaxTree

end ClassAtlas
