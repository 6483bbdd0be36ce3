import ClassAtlas.Proofs.DrawingText
import ClassAtlas.Proofs.Listings
import ClassAtlas.Proofs.SegmentNames

/-!
# Identifiers in drawings

A node is drawn under its identifier, which is made of the segments of its path with underscores
between them. Underscores may also stand in a segment, and the identifier does not tell the two apart:
it tells the words of the path, in order, and not how they are grouped into segments
(`key_eq_iff_words`).

So identifiers need not be unique. `identifiers_unique_iff` says when they are, and that the lines of
edges then tell the edges apart.
-/

namespace ClassAtlas

namespace Path

variable {p q : Path}

/-- The words of a path: its segments, cut at the underscores in them. -/
def words (p : Path) : List (List Char) :=
  p.segments.flatMap (fun segment => segment.toList.splitOn '_')

/-- Texts that are joined by a mark are cut at that mark, and at those of its copies that stand in
them. -/
theorem splitOn_intercalate_flatMap (mark : Char) (texts : List (List Char)) (filled : texts ≠ []) :
    ([mark].intercalate texts).splitOn mark = texts.flatMap (List.splitOn mark) := by
  induction texts with
  | nil => exact absurd rfl filled
  | cons first rest ih =>
    cases rest with
    | nil => simp
    | cons second rest =>
      rw [List.intercalate_cons_cons, List.append_assoc, List.singleton_append,
        List.splitOn_append_cons_self, ih (by simp)]
      rfl

/-- The words are what stands between the underscores of the identifier. -/
theorem splitOn_key (filled : p.segments ≠ []) : p.key.toList.splitOn '_' = p.words := by
  have htext : p.key.toList = ['_'].intercalate (p.segments.map String.toList) :=
    String.toList_intercalate
  rw [htext, splitOn_intercalate_flatMap '_' _ (by simpa using filled), List.flatMap_map]
  rfl

/-- Two paths have the same identifier if and only if they have the same words. -/
theorem key_eq_iff_words (hp : p.segments ≠ []) (hq : q.segments ≠ []) :
    p.key = q.key ↔ p.words = q.words := by
  rw [← splitOn_key hp, ← splitOn_key hq]
  have hjoin : ∀ text : List Char, ['_'].intercalate (text.splitOn '_') = text :=
    fun _ => List.intercalate_splitOn '_'
  refine ⟨fun h => by rw [h], fun h => String.toList_inj.mp ?_⟩
  rw [← hjoin p.key.toList, h, hjoin]

/-- Without underscores in segments, the words are the segments. -/
theorem words_eq_segments (h : ∀ segment ∈ p.segments, '_' ∉ segment.toList) :
    p.words = p.segments.map String.toList := by
  unfold words
  rw [List.map_eq_flatMap]
  exact List.flatMap_congr fun segment hmem => List.splitOn_eq_singleton (h segment hmem)

end Path

namespace Network

variable {net : Network}

/-- No two nodes have the same words. -/
def WordsApart (net : Network) : Prop :=
  ∀ a b, net.Live a → net.Live b → (net.pathOf a).words = (net.pathOf b).words → a = b

/-- The nodes in the order in which they are drawn. -/
def drawnIds (net : Network) : List NodeId :=
  net.ofKind .moduleNode ++ net.ofKind .classNode

theorem mem_drawnIds {id : NodeId} : id ∈ net.drawnIds ↔ net.Live id := by
  unfold drawnIds ofKind
  rw [List.mem_append, List.mem_filter, List.mem_filter, live_of_mem_nodeIds]
  refine ⟨fun h => h.elim And.left And.left, fun h => ?_⟩
  obtain ⟨node, hnode⟩ := live_iff.mp h
  cases hkind : node.kind with
  | moduleNode => exact .inl ⟨h, by simp [kindOf?, hnode, hkind]⟩
  | classNode => exact .inr ⟨h, by simp [kindOf?, hnode, hkind]⟩

/-- Every node is drawn once. -/
theorem Sound.nodup_drawnIds (sound : net.Sound) : net.drawnIds.Nodup := by
  have hnodup : net.nodeIds.Nodup := net.nodeIds_perm.nodup_iff.mpr sound.nodes.ids_nodup
  refine (hnodup.filter _).append (hnodup.filter _) fun id hmodule hclass => ?_
  have hmodule := (List.mem_filter.mp hmodule).2
  have hclass := (List.mem_filter.mp hclass).2
  rw [eq_of_beq hmodule] at hclass
  cases hclass

/-- No two nodes are drawn under one identifier if and only if no two have the same words. -/
theorem Sound.nodup_keys_iff (sound : net.Sound)
    (filled : ∀ id, net.Live id → (net.pathOf id).segments ≠ []) :
    (net.drawnIds.map (fun id => (net.pathOf id).key)).Nodup ↔ net.WordsApart := by
  rw [List.nodup_map_iff_inj_on sound.nodup_drawnIds]
  simp only [mem_drawnIds]
  constructor
  · intro h a b ha hb hwords
    exact h a ha b hb ((Path.key_eq_iff_words (filled a ha) (filled b hb)).mpr hwords)
  · intro h a ha b hb hkey
    exact h a b ha hb ((Path.key_eq_iff_words (filled a ha) (filled b hb)).mp hkey)

/-- If identifiers are unique, so are the ends of an edge that a drawing tells. -/
theorem WordsApart.edge (apart : net.WordsApart) (sound : net.Sound)
    (filled : ∀ id, net.Live id → (net.pathOf id).segments ≠ []) {relation : Relation}
    {first second : NodeId × NodeId} (hfirst : first ∈ net.pairs relation)
    (hsecond : second ∈ net.pairs relation)
    (same : Drawing.drawnEdge net first = Drawing.drawnEdge net second) : first = second := by
  have hinj : ∀ a b, net.Live a → net.Live b → (net.pathOf a).key = (net.pathOf b).key → a = b :=
    fun a b ha hb h => apart a b ha hb ((Path.key_eq_iff_words (filled a ha) (filled b hb)).mp h)
  obtain ⟨hsource, htarget⟩ := sound.ends _ _ _ (mem_pairs.mp hfirst)
  obtain ⟨hsource', htarget'⟩ := sound.ends _ _ _ (mem_pairs.mp hsecond)
  obtain ⟨hsources, htargets⟩ := Prod.mk.inj same
  exact Prod.ext (hinj _ _ hsource hsource' hsources) (hinj _ _ htarget htarget' htargets)

end Network

namespace Graph

open Network

/-- **When identifiers are unique.** In a graph that a build has finished, the lines of nodes declare
different identifiers if and only if no two nodes have the same words. Then each line of an edge tells
which edge it is. If no declared name holds an underscore, this is so. -/
theorem identifiers_unique_iff {ignored : List Matcher} {styles : List (Matcher × Style)}
    {files : List (List Item)} {g : Graph} (finished : Finished (built ignored styles files) g) :
    ((g.net.drawnIds.map (fun id => (g.net.pathOf id).key)).Nodup ↔ g.net.WordsApart) ∧
      (g.net.WordsApart → ∀ relation, ∀ first ∈ g.net.pairs relation, ∀ second ∈ g.net.pairs relation,
        Drawing.drawnEdge g.net first = Drawing.drawnEdge g.net second → first = second) ∧
      (Item.NamedBy (fun segment => '_' ∉ segment.toList) files → g.net.WordsApart) := by
  have hsound : g.net.Sound :=
    (consistent_of_reachable (finished.reachable (reachable_built ignored styles files))).sound
  have hany : Item.NamedBy (fun _ => True) files := fun _ _ _ _ _ _ => trivial
  have hfilled : ∀ id, g.net.Live id → (g.net.pathOf id).segments ≠ [] := fun id hlive =>
    (finished.madeOf hany id hlive).1
  refine ⟨hsound.nodup_keys_iff hfilled, fun apart relation first hfirst second hsecond same =>
    apart.edge hsound hfilled hfirst hsecond same, fun named a b ha hb hwords => ?_⟩
  have hplain := finished.madeOf named
  rw [Path.words_eq_segments (hplain a ha).2, Path.words_eq_segments (hplain b hb).2,
    List.map_inj_right fun _ _ h => String.toList_inj.mp h] at hwords
  exact hsound.eq_of_pathOf_eq ha hb (congrArg Path.mk hwords)

/-- A class `A_B`, and a class `B` in a module `A`. -/
def sharedWords : List (List Item) :=
  [[.classDecl (.relative ["A_B"]) none []],
    [.moduleDecl (.relative ["A"]) [.classDecl (.relative ["B"]) none []]]]

/-- `A_B` and `A::B` are two nodes and have one identifier. -/
theorem same_identifier_sharedWords :
    Item.NamedBy (fun segment => segment ≠ "" ∧ Text.IsWord segment) sharedWords ∧
      ∃ a b, (built [] [] sharedWords).net.Live a ∧ (built [] [] sharedWords).net.Live b ∧ a ≠ b ∧
        ((built [] [] sharedWords).net.pathOf a).key = ((built [] [] sharedWords).net.pathOf b).key := by
  refine ⟨by decide, 0, 2, ?_, ?_, by decide, by decide +kernel⟩
  · show 0 ∈ (built [] [] sharedWords).net.nodes.ids
    decide +kernel
  · show 2 ∈ (built [] [] sharedWords).net.nodes.ids
    decide +kernel

/-- A class in a module, and one outside, whose identifiers are told apart. -/
theorem identifiers_unique_of_threeFiles :
    Item.NamedBy (fun segment => '_' ∉ segment.toList) threeFiles ∧
      ((built [] [] threeFiles).net.drawnIds.map
        (fun id => ((built [] [] threeFiles).net.pathOf id).key)).Nodup := by
  have hnamed : Item.NamedBy (fun segment => '_' ∉ segment.toList) threeFiles := by decide
  obtain ⟨hiff, _, hplain⟩ := identifiers_unique_iff (.built : Finished (built [] [] threeFiles) _)
  exact ⟨hnamed, hiff.mpr (hplain hnamed)⟩

end Graph

end ClassAtlas
