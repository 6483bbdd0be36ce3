import ClassAtlas.Proofs.Listings
import ClassAtlas.Text.WordChar

/-!
# What a drawing tells

A drawing can be read: where a name, a text between quotes, a list of attributes or a section ends can
be seen from what is written, whatever follows (`PrefixFree`). So two networks with the same drawing,
under any two titles, have the same title, the same nodes with their labels and styles, and the same
edges, as far as these are told by identifiers (`drawn_content`).

For this, identifiers and the names of attributes have to be words. Titles, labels and the texts of
attributes may hold any characters.
-/

namespace ClassAtlas

/-! ## Texts that end by themselves -/

/-- What is written for a valid value can be told from what follows, and so can the value. -/
def PrefixFree {α : Type} (write : α → List Char) (valid : α → Prop) : Prop :=
  ∀ a b rest other, valid a → valid b → write a ++ rest = write b ++ other → a = b ∧ rest = other

namespace PrefixFree

variable {α β : Type} {write : α → List Char} {valid : α → Prop}

theorem of_eq (h : PrefixFree write valid) {written : α → List Char}
    (same : ∀ a, written a = write a) : PrefixFree written valid := by
  intro a b rest other ha hb heq
  rw [same, same] at heq
  exact h a b rest other ha hb heq

theorem of_valid (h : PrefixFree write valid) {stronger : α → Prop}
    (weaken : ∀ a, stronger a → valid a) : PrefixFree write stronger :=
  fun a b rest other ha hb => h a b rest other (weaken a ha) (weaken b hb)

/-- Fixed texts may stand around a value. -/
theorem between (h : PrefixFree write valid) (before after : List Char) :
    PrefixFree (fun a => before ++ write a ++ after) valid := by
  intro a b rest other ha hb heq
  simp only [List.append_assoc] at heq
  obtain ⟨hsame, hrest⟩ := h a b _ _ ha hb (List.append_cancel_left heq)
  exact ⟨hsame, List.append_cancel_left hrest⟩

/-- One value may follow the other. -/
theorem pair {write' : β → List Char} {valid' : β → Prop} (first : PrefixFree write valid)
    (second : PrefixFree write' valid') :
    PrefixFree (fun p : α × β => write p.1 ++ write' p.2) (fun p => valid p.1 ∧ valid' p.2) := by
  intro p q rest other hp hq heq
  simp only [List.append_assoc] at heq
  obtain ⟨hfirst, hmore⟩ := first _ _ _ _ hp.1 hq.1 heq
  obtain ⟨hsecond, hrest⟩ := second _ _ _ _ hp.2 hq.2 hmore
  exact ⟨Prod.ext hfirst hsecond, hrest⟩

/-- A value may be written by what determines it. -/
theorem comap (h : PrefixFree write valid) {f : β → α} (inj : ∀ a b, f a = f b → a = b) :
    PrefixFree (fun b => write (f b)) (fun b => valid (f b)) := by
  intro a b rest other ha hb heq
  obtain ⟨hsame, hrest⟩ := h _ _ _ _ ha hb heq
  exact ⟨inj a b hsame, hrest⟩

/-- A text ends at the first character that does not occur in it. -/
theorem upTo (mark : Char) :
    PrefixFree (fun text : List Char => text ++ [mark]) (fun text => mark ∉ text) := by
  intro a
  induction a with
  | nil =>
    intro b rest other _ hb heq
    cases b with
    | nil => exact ⟨rfl, List.append_cancel_left heq⟩
    | cons c b =>
      have hmark : mark = c := (List.cons.inj heq).1
      exact absurd (hmark ▸ List.mem_cons_self) hb
  | cons c a ih =>
    intro b rest other ha hb heq
    cases b with
    | nil =>
      have hmark : c = mark := (List.cons.inj heq).1
      exact absurd (hmark ▸ List.mem_cons_self) ha
    | cons d b =>
      obtain ⟨hhead, htail⟩ := List.cons.inj heq
      obtain ⟨hsame, hrest⟩ := ih b rest other (fun h => ha (List.mem_cons_of_mem _ h))
        (fun h => hb (List.mem_cons_of_mem _ h)) htail
      exact ⟨by rw [hhead, hsame], hrest⟩

/-- A list ends at a character with which none of its members starts. -/
theorem list (h : PrefixFree write valid) (mark : Char)
    (starts : ∀ a, valid a → ∃ c tail, write a = c :: tail ∧ c ≠ mark) :
    PrefixFree (fun list : List α => list.flatMap write ++ [mark])
      (fun list => ∀ a ∈ list, valid a) := by
  intro first
  induction first with
  | nil =>
    intro second rest other _ hsecond heq
    cases second with
    | nil => exact ⟨rfl, List.append_cancel_left heq⟩
    | cons b second =>
      obtain ⟨c, tail, hwrite, hne⟩ := starts b (hsecond b List.mem_cons_self)
      simp only [List.flatMap_cons, hwrite] at heq
      exact absurd (List.cons.inj heq).1.symm hne
  | cons a first ih =>
    intro second rest other hfirst hsecond heq
    cases second with
    | nil =>
      obtain ⟨c, tail, hwrite, hne⟩ := starts a (hfirst a List.mem_cons_self)
      simp only [List.flatMap_cons, hwrite] at heq
      exact absurd (List.cons.inj heq).1 hne
    | cons b second =>
      simp only [List.flatMap_cons, List.append_assoc] at heq
      obtain ⟨hhead, hmore⟩ := h _ _ _ _ (hfirst a List.mem_cons_self)
        (hsecond b List.mem_cons_self) heq
      obtain ⟨htail, hrest⟩ := ih second rest other
        (fun x hx => hfirst x (List.mem_cons_of_mem _ hx))
        (fun x hx => hsecond x (List.mem_cons_of_mem _ hx)) (by simpa using hmore)
      exact ⟨by rw [hhead, htail], hrest⟩

end PrefixFree

namespace Text

/-- The text consists of word characters. -/
def IsWord (text : String) : Prop :=
  ∀ c ∈ text.toList, isWordChar c = true

-- decided by going through the text, not through all characters
instance : DecidablePred IsWord := fun text =>
  List.decidableBAll (fun c => isWordChar c = true) text.toList

theorem IsWord.not_mem {text : String} (h : IsWord text) {c : Char} (hc : isWordChar c = false) :
    c ∉ text.toList := by
  intro hmem
  rw [h c hmem] at hc
  cases hc

end Text

namespace Drawing

open Text

/-! ## The parts of a drawing -/

theorem toList_escape (text : String) : (escape text).toList = text.toList.flatMap escapeChar := by
  simp [escape]

/-- A character is spelled with a backslash before it, or as it is. -/
theorem escapeChar_cases (c : Char) :
    escapeChar c = ['\\', c] ∨ (escapeChar c = [c] ∧ c ≠ '\\' ∧ c ≠ '"') := by
  unfold escapeChar
  split
  · rename_i hslash
    exact .inl (by rw [hslash])
  · split
    · rename_i hquote
      exact .inl (by rw [hquote])
    · rename_i hslash hquote
      exact .inr ⟨rfl, hslash, hquote⟩

theorem prefixFree_escapeChar : PrefixFree escapeChar (fun _ => True) := by
  intro a b rest other _ _ heq
  rcases escapeChar_cases a with ha | ⟨ha, haslash, _⟩ <;>
    rcases escapeChar_cases b with hb | ⟨hb, hbslash, _⟩ <;>
    rw [ha, hb] at heq
  · simpa using heq
  · exact absurd (List.cons.inj heq).1.symm hbslash
  · exact absurd (List.cons.inj heq).1 haslash
  · simpa using heq

/-- No spelling starts with the closing quote. -/
theorem escapeChar_head (a : Char) : ∃ c tail, escapeChar a = c :: tail ∧ c ≠ '"' := by
  rcases escapeChar_cases a with ha | ⟨ha, _, hquote⟩
  · exact ⟨_, _, ha, by decide⟩
  · exact ⟨_, _, ha, hquote⟩

/-- A text between quotes ends at the closing quote. -/
theorem prefixFree_quoted :
    PrefixFree (fun text : String => (escape text).toList ++ ['"']) (fun _ => True) := by
  have hlist := prefixFree_escapeChar.list '"' fun a _ => escapeChar_head a
  have htext := hlist.comap (f := String.toList) fun a b h => String.toList_inj.mp h
  exact (htext.of_valid (by simp)).of_eq fun text => by rw [toList_escape]

/-- A word ends at a character that is none of a word. -/
theorem prefixFree_word (mark : Char) (hmark : isWordChar mark = false) :
    PrefixFree (fun word : String => word.toList ++ [mark]) IsWord :=
  ((PrefixFree.upTo mark).comap fun _ _ h => String.toList_inj.mp h).of_valid
    fun _ h => h.not_mem hmark

/-- An attribute after another one. -/
def writeAttribute (entry : String × String) : List Char :=
  ' ' :: (assignment entry.1 entry.2).toList

theorem prefixFree_attribute : PrefixFree writeAttribute (fun entry => IsWord entry.1) := by
  have hname := prefixFree_word '=' (by decide)
  have hvalue := prefixFree_quoted.between ['"'] []
  refine (((hname.pair hvalue).between [' '] []).of_eq fun entry => ?_).of_valid fun _ h => ⟨h, trivial⟩
  simp [writeAttribute, assignment]

/-- The attributes of a style and the bracket that closes them. -/
def writeStyle (style : Style) : List Char :=
  style.entries.flatMap writeAttribute ++ [']']

theorem prefixFree_style :
    PrefixFree writeStyle (fun style => ∀ entry ∈ style.entries, IsWord entry.1) :=
  (prefixFree_attribute.list ']' fun _ _ => ⟨_, _, rfl, by decide⟩).comap fun _ _ => Style.ext

/-- The line of a node with an identifier, a label and a style. -/
def writeNode (node : String × String × Style) : List Char :=
  node.1.toList ++ " [label=\"".toList ++ (escape node.2.1).toList ++ ['"'] ++ writeStyle node.2.2 ++
    ";\n".toList

/-- The identifier and the names of the attributes are words. -/
def WordedNode (node : String × String × Style) : Prop :=
  IsWord node.1 ∧ ∀ entry ∈ node.2.2.entries, IsWord entry.1

theorem prefixFree_node : PrefixFree writeNode WordedNode := by
  have hkey := prefixFree_word ' ' (by decide)
  have hlabel := prefixFree_quoted.between "[label=\"".toList []
  have hstyle := prefixFree_style.between [] ";\n".toList
  refine ((hkey.pair (hlabel.pair hstyle)).of_eq fun node => ?_).of_valid fun _ h => ⟨h.1, trivial, h.2⟩
  simp [writeNode]

/-- The line of an edge between two identifiers. -/
def writeEdge (relation : Relation) (edge : String × String) : List Char :=
  edge.1.toList ++ " -> ".toList ++ edge.2.toList ++ " [".toList ++ (edgeStyle relation).toList ++
    "];\n".toList

theorem prefixFree_edge (relation : Relation) :
    PrefixFree (writeEdge relation) (fun edge => IsWord edge.1 ∧ IsWord edge.2) := by
  have hsource := prefixFree_word ' ' (by decide)
  have htarget := hsource.between "-> ".toList
    ("[".toList ++ (edgeStyle relation).toList ++ "];\n".toList)
  refine (hsource.pair htarget).of_eq fun edge => ?_
  simp [writeEdge]

/-- What starts with a word and a blank does not start with the end of a line. -/
theorem word_head {word : String} (h : IsWord word) (rest : List Char) :
    ∃ c tail, word.toList ++ ' ' :: rest = c :: tail ∧ c ≠ '\n' := by
  cases hword : word.toList with
  | nil => exact ⟨_, _, rfl, by decide⟩
  | cons c tail =>
    refine ⟨_, _, rfl, ?_⟩
    rintro rfl
    exact h.not_mem (by decide : isWordChar '\n' = false) (hword ▸ List.mem_cons_self)

/-- A section: its heading, its lines and an empty line. -/
def writeSection {α : Type} (heading : String) (write : α → List Char) (list : List α) : List Char :=
  heading.toList ++ ['\n'] ++ list.flatMap write ++ ['\n']

theorem prefixFree_section {α : Type} {write : α → List Char} {valid : α → Prop}
    (h : PrefixFree write valid) (heading : String)
    (starts : ∀ a, valid a → ∃ c tail, write a = c :: tail ∧ c ≠ '\n') :
    PrefixFree (writeSection heading write) (fun list => ∀ a ∈ list, valid a) :=
  ((h.list '\n' starts).between (heading.toList ++ ['\n']) []).of_eq
    fun list => by simp [writeSection]

/-! ## The whole drawing -/

/-- What a drawing tells of a node: its identifier, its label and its style. -/
def drawnNode (net : Network) (id : NodeId) : String × String × Style :=
  ((net.pathOf id).key, net.labelOf id, ((net.node? id).map Node.style).getD .empty)

/-- What a drawing tells of an edge: the identifiers of its ends. -/
def drawnEdge (net : Network) (pair : NodeId × NodeId) : String × String :=
  ((net.pathOf pair.1).key, (net.pathOf pair.2).key)

theorem toList_intercalate_blank (first : String) (rest : List String) :
    (" ".intercalate (first :: rest)).toList =
      first.toList ++ rest.flatMap (fun text => ' ' :: text.toList) := by
  rw [String.toList_intercalate]
  induction rest generalizing first with
  | nil => simp
  | cons second rest ih =>
    rw [List.map_cons, List.map_cons, List.intercalate_cons_cons, ← List.map_cons, ih second]
    simp

theorem toList_nodeAttributes (net : Network) (id : NodeId) :
    (nodeAttributes net id).toList ++ [']'] =
      (assignment "label" (net.labelOf id)).toList ++ writeStyle (drawnNode net id).2.2 := by
  unfold nodeAttributes
  simp only [toList_intercalate_blank, List.flatMap_map, List.append_assoc]
  cases hnode : net.node? id with
  | none => simp [drawnNode, hnode, writeStyle, Style.empty]
  | some node =>
    simp only [drawnNode, hnode]
    rfl

theorem toList_nodeLine (net : Network) (id : NodeId) :
    (nodeLine net id).toList ++ ['\n'] = writeNode (drawnNode net id) := by
  have hline : (nodeLine net id).toList ++ ['\n'] = (net.pathOf id).key.toList ++ " [".toList ++
      ((nodeAttributes net id).toList ++ [']']) ++ ";\n".toList := by
    simp [nodeLine]
  rw [hline, toList_nodeAttributes]
  simp [writeNode, drawnNode, assignment]

theorem toList_edgeLine (net : Network) (relation : Relation) (pair : NodeId × NodeId) :
    (edgeLine net relation pair).toList ++ ['\n'] = writeEdge relation (drawnEdge net pair) := by
  simp [edgeLine, writeEdge, drawnEdge]

/-- The characters of some lines. -/
def writeLines (lines : List String) : List Char :=
  lines.flatMap (fun line => line.toList ++ ['\n'])

theorem writeLines_cons (line : String) (rest : List String) :
    writeLines (line :: rest) = line.toList ++ ['\n'] ++ writeLines rest :=
  List.flatMap_cons

theorem writeLines_append (first second : List String) :
    writeLines (first ++ second) = writeLines first ++ writeLines second :=
  List.flatMap_append

theorem writeLines_nodeSection (net : Network) (comment : String) (kind : Kind) :
    writeLines (nodeSection net comment kind) =
      writeSection comment writeNode ((net.ofKind kind).map (drawnNode net)) := by
  simp [writeLines, nodeSection, writeSection, List.flatMap_map, toList_nodeLine]

theorem writeLines_edgeSection (net : Network) (relation : Relation) :
    writeLines (edgeSection net relation) =
      writeSection (heading relation) (writeEdge relation)
        ((net.pairs relation).map (drawnEdge net)) := by
  simp [writeLines, edgeSection, writeSection, List.flatMap_map, toList_edgeLine]

/-- All that a drawing tells. -/
structure Content where
  title : String
  modules : List (String × String × Style)
  classes : List (String × String × Style)
  containment : List (String × String)
  inheritance : List (String × String)
  inclusion : List (String × String)
  extension : List (String × String)

/-- What the drawing of a network tells. -/
def content (net : Network) (name : String) : Content where
  title := name
  modules := (net.ofKind .moduleNode).map (drawnNode net)
  classes := (net.ofKind .classNode).map (drawnNode net)
  containment := (net.pairs .containment).map (drawnEdge net)
  inheritance := (net.pairs .inheritance).map (drawnEdge net)
  inclusion := (net.pairs .inclusion).map (drawnEdge net)
  extension := (net.pairs .extension).map (drawnEdge net)

/-- The text before the nodes. -/
def writeTitle (title : String) : List Char :=
  "digraph \"".toList ++ ((escape title).toList ++ ['"']) ++
    ([' ', '\x7b', '\n'] ++ writeLines ["  rankdir=LR;", "  node [style=filled];", ""])

/-- The text of a drawing that tells this. -/
def writeContent (c : Content) : List Char :=
  writeTitle c.title ++
    (writeSection "/* Module nodes */" writeNode c.modules ++
    (writeSection "/* Class nodes */" writeNode c.classes ++
    (writeSection (heading .containment) (writeEdge .containment) c.containment ++
    (writeSection (heading .inheritance) (writeEdge .inheritance) c.inheritance ++
    (writeSection (heading .inclusion) (writeEdge .inclusion) c.inclusion ++
    writeSection (heading .extension) (writeEdge .extension) c.extension)))))

/-- All identifiers and names of attributes are words. -/
structure WordedContent (c : Content) : Prop where
  modules : ∀ node ∈ c.modules, WordedNode node
  classes : ∀ node ∈ c.classes, WordedNode node
  containment : ∀ edge ∈ c.containment, IsWord edge.1 ∧ IsWord edge.2
  inheritance : ∀ edge ∈ c.inheritance, IsWord edge.1 ∧ IsWord edge.2
  inclusion : ∀ edge ∈ c.inclusion, IsWord edge.1 ∧ IsWord edge.2
  extension : ∀ edge ∈ c.extension, IsWord edge.1 ∧ IsWord edge.2

theorem prefixFree_nodeSection (comment : String) :
    PrefixFree (writeSection comment writeNode) (fun nodes => ∀ node ∈ nodes, WordedNode node) := by
  refine prefixFree_section prefixFree_node comment fun node h => ?_
  obtain ⟨c, tail, hhead, hne⟩ := word_head h.1 ("[label=\"".toList ++
    ((escape node.2.1).toList ++ '"' :: (writeStyle node.2.2 ++ ";\n".toList)))
  exact ⟨c, tail, by simpa [writeNode] using hhead, hne⟩

theorem prefixFree_edgeSection (relation : Relation) :
    PrefixFree (writeSection (heading relation) (writeEdge relation))
      (fun edges => ∀ edge ∈ edges, IsWord edge.1 ∧ IsWord edge.2) := by
  refine prefixFree_section (prefixFree_edge relation) (heading relation) fun edge h => ?_
  obtain ⟨c, tail, hhead, hne⟩ := word_head h.1 ("-> ".toList ++ (edge.2.toList ++
    (" [".toList ++ ((edgeStyle relation).toList ++ "];\n".toList))))
  exact ⟨c, tail, by simpa [writeEdge] using hhead, hne⟩

theorem prefixFree_title : PrefixFree writeTitle (fun _ => True) :=
  prefixFree_quoted.between _ _

/-- A drawing can be read. -/
theorem prefixFree_content : PrefixFree writeContent WordedContent := by
  have hparts := prefixFree_title.pair
    ((prefixFree_nodeSection "/* Module nodes */").pair
    ((prefixFree_nodeSection "/* Class nodes */").pair
    ((prefixFree_edgeSection .containment).pair ((prefixFree_edgeSection .inheritance).pair
    ((prefixFree_edgeSection .inclusion).pair (prefixFree_edgeSection .extension))))))
  have hcontent := hparts.comap (β := Content) (f := fun c => (c.title, c.modules, c.classes,
    c.containment, c.inheritance, c.inclusion, c.extension)) (by rintro ⟨⟩ ⟨⟩ h; simpa using h)
  exact hcontent.of_valid fun c h =>
    ⟨trivial, h.modules, h.classes, h.containment, h.inheritance, h.inclusion, h.extension⟩

theorem writeLines_opening (name : String) : writeLines (opening name) = writeTitle name := by
  -- the closing quote of the title belongs to the text after it
  have hquote : ∀ before title rest : List Char, before ++ title ++ "\" \x7b".toList ++ ['\n'] ++ rest =
      before ++ (title ++ ['"']) ++ ([' ', '\x7b', '\n'] ++ rest) := by
    intro before title rest
    rw [show "\" \x7b".toList = ['"', ' ', '\x7b'] from rfl]
    simp only [List.append_assoc, List.cons_append, List.nil_append]
  unfold opening writeTitle
  rw [writeLines_cons, String.toList_append, String.toList_append]
  exact hquote _ _ _

theorem writeLines_edgeSections (net : Network) (name : String) :
    writeLines (Relation.all.flatMap (edgeSection net)) =
      writeSection (heading .containment) (writeEdge .containment) (content net name).containment ++
      (writeSection (heading .inheritance) (writeEdge .inheritance) (content net name).inheritance ++
      (writeSection (heading .inclusion) (writeEdge .inclusion) (content net name).inclusion ++
      writeSection (heading .extension) (writeEdge .extension) (content net name).extension)) := by
  unfold Relation.all
  rw [List.flatMap_cons, List.flatMap_cons, List.flatMap_cons, List.flatMap_cons, List.flatMap_nil,
    List.append_nil, writeLines_append, writeLines_append, writeLines_append, writeLines_edgeSection,
    writeLines_edgeSection, writeLines_edgeSection, writeLines_edgeSection]
  rfl

theorem toList_render (net : Network) (name : String) :
    (render net name).toList = writeContent (content net name) ++ writeLines ["\x7d"] := by
  have hlines : (render net name).toList = writeLines (lines net name) := by
    simp [render, writeLines, List.flatMap_map]
  rw [hlines, lines, writeLines_append, writeLines_append, writeLines_append, writeLines_append,
    writeLines_opening, writeLines_nodeSection, writeLines_nodeSection,
    writeLines_edgeSections net name, writeContent]
  simp only [List.append_assoc]
  rfl

/-! ## Networks with the same drawing -/

theorem mem_intercalate {sep : List Char} {texts : List (List Char)} {c : Char}
    (h : c ∈ sep.intercalate texts) : c ∈ sep ∨ ∃ text ∈ texts, c ∈ text := by
  induction texts with
  | nil => simp at h
  | cons first rest ih =>
    cases rest with
    | nil => exact .inr ⟨first, List.mem_cons_self, by simpa using h⟩
    | cons second rest =>
      rw [List.intercalate_cons_cons, List.mem_append, List.mem_append] at h
      rcases h with (hfirst | hsep) | hrest
      · exact .inr ⟨first, List.mem_cons_self, hfirst⟩
      · exact .inl hsep
      · exact (ih hrest).imp_right fun ⟨text, hmem, hc⟩ => ⟨text, List.mem_cons_of_mem _ hmem, hc⟩

theorem isWord_key {p : Path} (h : ∀ segment ∈ p.segments, IsWord segment) : IsWord p.key := by
  intro c hc
  unfold Path.key at hc
  rw [String.toList_intercalate] at hc
  rcases mem_intercalate hc with hsep | ⟨text, htext, hmem⟩
  · rw [List.mem_singleton.mp hsep]
    decide
  · obtain ⟨segment, hsegment, rfl⟩ := List.mem_map.mp htext
    exact h segment hsegment c hmem

/-- The segments of all paths and the names of all attributes are words. -/
def Worded (net : Network) : Prop :=
  ∀ id node, net.node? id = some node →
    (∀ segment ∈ node.path.segments, IsWord segment) ∧ ∀ entry ∈ node.style.entries, IsWord entry.1

namespace Worded

variable {net : Network}

theorem key (worded : Worded net) (id : NodeId) : IsWord (net.pathOf id).key := by
  refine isWord_key fun segment hsegment => ?_
  unfold Network.pathOf at hsegment
  split at hsegment
  · rename_i node hnode
    exact (worded id node hnode).1 segment hsegment
  · cases hsegment

theorem node (worded : Worded net) (id : NodeId) : WordedNode (drawnNode net id) := by
  refine ⟨worded.key id, ?_⟩
  cases hnode : net.node? id with
  | none => simp [drawnNode, hnode, Style.empty]
  | some node =>
    simp only [drawnNode, hnode]
    exact (worded id node hnode).2

theorem content (worded : Worded net) (name : String) : WordedContent (content net name) := by
  have hnodes : ∀ ids : List NodeId, ∀ node ∈ ids.map (drawnNode net), WordedNode node :=
    fun ids => List.forall_mem_map.mpr fun id _ => worded.node id
  have hedges : ∀ pairs : List (NodeId × NodeId), ∀ edge ∈ pairs.map (drawnEdge net),
      IsWord edge.1 ∧ IsWord edge.2 :=
    fun pairs => List.forall_mem_map.mpr fun pair _ => ⟨worded.key pair.1, worded.key pair.2⟩
  exact ⟨hnodes _, hnodes _, hedges _, hedges _, hedges _, hedges _⟩

end Worded

/-- **A drawing is unambiguous.** Two networks whose segments and names of attributes are words, and
that have the same drawing, have the same title, the same nodes of each kind in the same order, with
the same identifiers, labels and styles, and the same edges of each relation in the same order, with
the same identifiers at their ends. -/
theorem drawn_content (first second : Network) (name other : String) (worded : Worded first)
    (worded' : Worded second) (same : render first name = render second other) :
    name = other ∧
      (∀ kind, (first.ofKind kind).map (drawnNode first) = (second.ofKind kind).map (drawnNode second)) ∧
      ∀ relation, (first.pairs relation).map (drawnEdge first) =
        (second.pairs relation).map (drawnEdge second) := by
  have htext := congrArg String.toList same
  rw [toList_render, toList_render] at htext
  obtain ⟨hcontent, _⟩ := prefixFree_content _ _ _ _ (worded.content name) (worded'.content other) htext
  refine ⟨congrArg Content.title hcontent, fun kind => ?_, fun relation => ?_⟩
  · cases kind with
    | moduleNode => exact congrArg Content.modules hcontent
    | classNode => exact congrArg Content.classes hcontent
  · cases relation with
    | containment => exact congrArg Content.containment hcontent
    | inheritance => exact congrArg Content.inheritance hcontent
    | inclusion => exact congrArg Content.inclusion hcontent
    | extension => exact congrArg Content.extension hcontent

/-- A class with a text that could be taken for the end of its line. -/
def tricky : Node where
  path := ⟨["A", "B_1"]⟩
  kind := .classNode
  style := Style.ofList [("tooltip", "\\\"];\nC [label=\"")]

/-- A module. -/
def simple : Node where
  path := ⟨["C"]⟩
  kind := .moduleNode

/-- The same two nodes, added in one order or the other, have the same drawing. -/
theorem drawn_content_of_tricky :
    render ((Network.addNode {} tricky).addNode simple) "\"" =
        render ((Network.addNode {} simple).addNode tricky) "\"" ∧
      (((Network.addNode {} tricky).addNode simple).ofKind .classNode).map
          (drawnNode ((Network.addNode {} tricky).addNode simple)) =
        (((Network.addNode {} simple).addNode tricky).ofKind .classNode).map
          (drawnNode ((Network.addNode {} simple).addNode tricky)) := by
  have hnodes : ∀ node ∈ [tricky, simple], (∀ segment ∈ node.path.segments, IsWord segment) ∧
      ∀ entry ∈ node.style.entries, IsWord entry.1 := by
    decide +kernel
  have hworded : ∀ a ∈ [tricky, simple], ∀ b ∈ [tricky, simple],
      Worded ((Network.addNode {} a).addNode b) := by
    intro a ha b hb id node hnode
    rw [Network.node?_addNode, Network.node?_addNode] at hnode
    split at hnode
    · exact Option.some.inj hnode ▸ hnodes b hb
    · split at hnode
      · exact Option.some.inj hnode ▸ hnodes a ha
      · cases hnode
  have hsound : ((Network.addNode {} tricky).addNode simple).Sound :=
    (Network.sound_empty.addNode rfl).addNode rfl
  have hsound' : ((Network.addNode {} simple).addNode tricky).Sound :=
    (Network.sound_empty.addNode rfl).addNode rfl
  have hfree : ((Network.addNode {} tricky).addNode simple).ColonFree := by
    show ∀ id ∈ ((Network.addNode {} tricky).addNode simple).nodes.ids, _
    decide +kernel
  have hcontent := Network.sameContent_of_perm hsound hsound' (by decide +kernel) (by decide +kernel)
  have hsame := hcontent.drawing_eq hsound hsound' hfree "\""
  have htold := drawn_content _ _ _ _ (hworded tricky (by simp) simple (by simp))
    (hworded simple (by simp) tricky (by simp)) hsame
  exact ⟨hsame, htold.2.1 .classNode⟩

end Drawing

end ClassAtlas
