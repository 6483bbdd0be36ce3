import ClassAtlas.Proofs.JsonText
import ClassAtlas.Proofs.Listings
import ClassAtlas.Proofs.SegmentNames
import ClassAtlas.Snapshot

/-!
# Snapshots and their texts

Every snapshot can be read from its text. Names, labels, kinds, marks and styles come back as they were;
a path comes back as the path that is read from its text (`parse?_render`). So a snapshot is read back
unchanged if and only if all its paths are legible, and the snapshot of a graph that is built from names
without blanks and colons always is.
-/

namespace ClassAtlas

theorem map_eq_self_iff {α : Type} {f : α → α} {list : List α} :
    list.map f = list ↔ ∀ a ∈ list, f a = a := by
  have hinj := List.map_inj_left (f := f) (g := id) (l := list)
  rwa [List.map_id] at hinj

theorem mapM_map_some {α β γ : Type} {f : α → β} {read : β → Option γ} {g : α → γ}
    (h : ∀ a, read (f a) = some (g a)) (list : List α) :
    (list.map f).mapM read = some (list.map g) := by
  induction list with
  | nil => rfl
  | cons a rest ih => simp [h, ih]

/-! ## Values of records -/

namespace Json

@[simp] theorem text?_ofText (text : String) : (ofText text).text? = some text := by
  simp [ofText, text?, decode_encode]

@[simp] theorem members?_ofMembers (members : List (String × Json)) :
    (ofMembers members).members? = some members := by
  have hmember : ∀ member : String × Json, (decode (encode member.1.toList)).map
      (fun text => (String.ofList text, member.2)) = some member := by
    intro member
    simp [decode_encode]
  exact (mapM_map_some hmember members).trans (by simp)

theorem spelled_ofText (text : String) : Spelled (ofText text) :=
  .string text.toList

theorem spelled_ofMembers {members : List (String × Json)}
    (h : ∀ member ∈ members, Spelled member.2) : Spelled (ofMembers members) := by
  refine .object ?_ ?_
  · exact List.forall_mem_map.mpr fun member _ => ⟨member.1.toList, rfl⟩
  · exact List.forall_mem_map.mpr h

theorem spelled_array {α : Type} {write : α → Json} (h : ∀ a, Spelled (write a)) (list : List α) :
    Spelled (.array (list.map write)) :=
  .array (List.forall_mem_map.mpr fun a _ => h a)

/-- The fields of an object that was made from its members. -/
theorem record?_ofMembers (names : List String) (members : List (String × Json)) :
    (ofMembers members).record? names = names.mapM (field? members) := by
  have hmembers := members?_ofMembers members
  unfold ofMembers at hmembers ⊢
  simp only [record?, hmembers]

end Json

/-! ## Styles -/

namespace Style

/-- An attribute whose name comes after all others is put at the end. -/
theorem place_of_lt {name value : String} {entries : List (String × String)}
    (h : ∀ entry ∈ entries, entry.1 < name) :
    place name value entries = entries ++ [(name, value)] := by
  induction entries with
  | nil => rfl
  | cons first rest ih =>
    have hfirst : first.1 < name := h first List.mem_cons_self
    have hnot : ¬ name < first.1 := fun hlt => String.lt_irrefl name (String.lt_trans hlt hfirst)
    have hne : ¬ name = first.1 := fun heq => String.lt_irrefl name (heq ▸ hfirst)
    simp [place, hnot, hne, ih fun entry hentry => h entry (List.mem_cons_of_mem _ hentry)]

/-- Attributes that ascend are set in the order in which they are listed. -/
theorem entries_foldl_set (s : Style) (entries : List (String × String))
    (ascending : (s.entries ++ entries).Pairwise (fun first second => first.1 < second.1)) :
    (entries.foldl (fun acc entry => acc.set entry.1 entry.2) s).entries = s.entries ++ entries := by
  induction entries generalizing s with
  | nil => simp
  | cons first rest ih =>
    have hset : (s.set first.1 first.2).entries = s.entries ++ [first] :=
      place_of_lt fun entry hentry =>
        (List.pairwise_append.mp ascending).2.2 entry hentry first List.mem_cons_self
    rw [List.foldl_cons, ih (s.set first.1 first.2) (by simpa [hset] using ascending), hset]
    simp

theorem ofList_entries (s : Style) : ofList s.entries = s := by
  ext1
  exact entries_foldl_set empty s.entries s.ascending

theorem eq_of_isEmpty {s : Style} (h : s.isEmpty = true) : s = empty := by
  ext1
  exact List.isEmpty_iff.mp h

theorem ofJson?_toJson (s : Style) : ofJson? s.toJson = some s := by
  have hentry : ∀ entry : String × String, entry? (entry.1, .ofText entry.2) = some entry := by
    intro entry
    unfold entry?
    simp
  have hentries := mapM_map_some hentry s.entries
  rw [List.map_id'] at hentries
  simp only [ofJson?, toJson, Json.members?_ofMembers, Option.bind_some, hentries, Option.map_some,
    ofList_entries]

theorem spelled_toJson (s : Style) : Json.Spelled s.toJson :=
  Json.spelled_ofMembers (List.forall_mem_map.mpr fun entry _ => Json.spelled_ofText entry.2)

end Style

/-! ## Records -/

namespace Kind

theorem ofJson?_display (kind : Kind) : ofJson? (.ofText kind.display) = some kind := by
  show (Json.ofText kind.display).text?.bind ofWord? = some kind
  rw [Json.text?_ofText]
  cases kind <;> rfl

end Kind

namespace Path

/-- The path that is read from the text of a path. -/
def reread (p : Path) : Path :=
  parse p.display

/-- A segment that has characters, none of which is a blank or a colon. -/
def Unbroken (segment : String) : Prop :=
  segment ≠ "" ∧ ∀ c ∈ segment.toList, Text.isBlank c = false ∧ c ≠ ':'

-- decided by going through the segment, not through all characters
instance : DecidablePred Unbroken := fun segment =>
  @instDecidableAnd _ _ (inferInstanceAs (Decidable (segment ≠ "")))
    (List.decidableBAll (fun c => Text.isBlank c = false ∧ c ≠ ':') segment.toList)

/-- A path of such segments can be read from its text. -/
theorem MadeOf.legible {p : Path} (h : p.MadeOf Unbroken) : p.Legible := by
  obtain ⟨_, hall⟩ := h
  refine ⟨fun segment hmem => (hall segment hmem).1, fun segment hmem => ⟨?_, ?_⟩,
    fun segment hmem hmark => ?_, fun segment hmem hend => ?_⟩
  · rw [Option.any_eq_false]
    exact fun c hc => by simp [((hall segment hmem).2 c (List.mem_of_mem_head? hc)).1]
  · rw [Option.any_eq_false]
    exact fun c hc => by simp [((hall segment hmem).2 c (List.mem_of_getLast? hc)).1]
  · exact ((hall segment hmem).2 ':' (hmark.subset (by simp))).2 rfl
  · have hsegment := hall segment ((List.dropLast_sublist _).subset hmem)
    exact (hsegment.2 ':' (List.mem_of_getLast? hend)).2 rfl

theorem ofJson?_toJson (p : Path) : ofJson? p.toJson = some p.reread := by
  simp [ofJson?, toJson, reread]

end Path

namespace NodeRecord

/-- The record with another path. -/
def mapPath (f : Path → Path) (r : NodeRecord) : NodeRecord :=
  { r with path := f r.path }

theorem mapPath_eq_self {f : Path → Path} {r : NodeRecord} : r.mapPath f = r ↔ f r.path = r.path := by
  constructor
  · exact fun h => congrArg NodeRecord.path h
  · intro h
    simp [mapPath, h]

/-- A node is read back, up to its path. What is left out stands for no mark and no style. -/
theorem ofJson?_toJson (r : NodeRecord) : ofJson? r.toJson = some (r.mapPath Path.reread) := by
  obtain ⟨path, kind, label, singleton, style⟩ := r
  have hpath := path.ofJson?_toJson
  have hkind := kind.ofJson?_display
  have hstyle := style.ofJson?_toJson
  cases hplain : style.isEmpty with
  | true =>
    obtain rfl := Style.eq_of_isEmpty hplain
    cases singleton <;>
      simp [ofJson?, toJson, fields, Json.record?_ofMembers, Json.field?, Json.bool?, hplain, hpath,
        hkind, mapPath]
  | false =>
    cases singleton <;>
      simp [ofJson?, toJson, fields, Json.record?_ofMembers, Json.field?, Json.bool?, hplain, hpath,
        hkind, hstyle, mapPath]

theorem members?_toJson (r : NodeRecord) : r.toJson.members? = some r.fields :=
  Json.members?_ofMembers r.fields

theorem mem_fields_singleton (r : NodeRecord) :
    "singleton" ∈ r.fields.map Prod.fst ↔ r.singleton = true := by
  cases hmark : r.singleton <;> cases hplain : r.style.isEmpty <;> simp [fields, hmark, hplain]

theorem mem_fields_style (r : NodeRecord) : "style" ∈ r.fields.map Prod.fst ↔ r.style ≠ .empty := by
  have hempty : r.style.isEmpty = true ↔ r.style = .empty :=
    ⟨Style.eq_of_isEmpty, fun h => by rw [h]; rfl⟩
  rw [Ne, ← hempty]
  cases hmark : r.singleton <;> cases hplain : r.style.isEmpty <;> simp [fields, hmark, hplain]

theorem spelled_toJson (r : NodeRecord) : Json.Spelled r.toJson := by
  refine Json.spelled_ofMembers fun member hmem => ?_
  simp only [fields, List.mem_append, List.mem_cons, List.not_mem_nil, or_false] at hmem
  rcases hmem with ((rfl | rfl | rfl) | hmark) | hstyle
  · exact Json.spelled_ofText _
  · exact Json.spelled_ofText _
  · exact Json.spelled_ofText _
  · split at hmark
    · exact List.mem_singleton.mp hmark ▸ .bool true
    · cases hmark
  · split at hstyle
    · cases hstyle
    · exact List.mem_singleton.mp hstyle ▸ r.style.spelled_toJson

end NodeRecord

namespace EdgeRecord

/-- The record with other paths. -/
def mapPaths (f : Path → Path) (r : EdgeRecord) : EdgeRecord :=
  { source := f r.source, target := f r.target }

theorem mapPaths_eq_self {f : Path → Path} {r : EdgeRecord} :
    r.mapPaths f = r ↔ f r.source = r.source ∧ f r.target = r.target := by
  obtain ⟨source, target⟩ := r
  simp [mapPaths]

theorem ofJson?_toJson (r : EdgeRecord) : ofJson? r.toJson = some (r.mapPaths Path.reread) := by
  have hsource := r.source.ofJson?_toJson
  have htarget := r.target.ofJson?_toJson
  simp [ofJson?, toJson, Json.record?_ofMembers, Json.field?, hsource, htarget, mapPaths]

theorem spelled_toJson (r : EdgeRecord) : Json.Spelled r.toJson := by
  refine Json.spelled_ofMembers fun member hmem => ?_
  simp only [List.mem_cons, List.not_mem_nil, or_false] at hmem
  rcases hmem with rfl | rfl <;> exact Json.spelled_ofText _

end EdgeRecord

/-! ## Snapshots -/

namespace Snapshot

/-- The nodes of a snapshot. -/
def nodes (s : Snapshot) : List NodeRecord :=
  s.modules ++ s.classes

/-- The edges of a snapshot. -/
def edges (s : Snapshot) : List EdgeRecord :=
  s.containment ++ s.inheritance ++ s.inclusion ++ s.extension

/-- The paths in a snapshot: those of its nodes and those at the ends of its edges. -/
def paths (s : Snapshot) : List Path :=
  s.nodes.map NodeRecord.path ++ s.edges.flatMap (fun edge => [edge.source, edge.target])

/-- The snapshot with other paths. -/
def mapPaths (f : Path → Path) (s : Snapshot) : Snapshot where
  name := s.name
  modules := s.modules.map (NodeRecord.mapPath f)
  classes := s.classes.map (NodeRecord.mapPath f)
  containment := s.containment.map (EdgeRecord.mapPaths f)
  inheritance := s.inheritance.map (EdgeRecord.mapPaths f)
  inclusion := s.inclusion.map (EdgeRecord.mapPaths f)
  extension := s.extension.map (EdgeRecord.mapPaths f)

theorem forall_mem_paths {P : Path → Prop} {s : Snapshot} :
    (∀ p ∈ s.paths, P p) ↔
      (∀ node ∈ s.nodes, P node.path) ∧ ∀ edge ∈ s.edges, P edge.source ∧ P edge.target := by
  unfold paths
  rw [List.forall_mem_append, List.forall_mem_map]
  refine and_congr_right fun _ => ⟨fun h edge hedge => ⟨?_, ?_⟩, fun h p hp => ?_⟩
  · exact h _ (List.mem_flatMap.mpr ⟨edge, hedge, by simp⟩)
  · exact h _ (List.mem_flatMap.mpr ⟨edge, hedge, by simp⟩)
  · obtain ⟨edge, hedge, hend⟩ := List.mem_flatMap.mp hp
    simp only [List.mem_cons, List.not_mem_nil, or_false] at hend
    rcases hend with rfl | rfl
    · exact (h edge hedge).1
    · exact (h edge hedge).2

theorem mapPaths_eq_self {f : Path → Path} {s : Snapshot} :
    s.mapPaths f = s ↔ ∀ p ∈ s.paths, f p = p := by
  rw [forall_mem_paths]
  obtain ⟨name, modules, classes, containment, inheritance, inclusion, extension⟩ := s
  simp only [mapPaths, Snapshot.mk.injEq, map_eq_self_iff, NodeRecord.mapPath_eq_self,
    EdgeRecord.mapPaths_eq_self, nodes, edges, List.forall_mem_append, true_and, and_assoc]

theorem nodes?_array (list : List NodeRecord) :
    nodes? (.array (list.map NodeRecord.toJson)) =
      some (list.map (NodeRecord.mapPath Path.reread)) := by
  simp [nodes?, Json.elements?, mapM_map_some NodeRecord.ofJson?_toJson]

theorem edges?_array (list : List EdgeRecord) :
    edges? (.array (list.map EdgeRecord.toJson)) =
      some (list.map (EdgeRecord.mapPaths Path.reread)) := by
  simp [edges?, Json.elements?, mapM_map_some EdgeRecord.ofJson?_toJson]

theorem ofJson?_toJson (s : Snapshot) : ofJson? s.toJson = some (s.mapPaths Path.reread) := by
  simp [ofJson?, toJson, Json.record?_ofMembers, Json.field?, nodes?_array, edges?_array, mapPaths]

theorem spelled_toJson (s : Snapshot) : Json.Spelled s.toJson := by
  refine Json.spelled_ofMembers fun member hmem => ?_
  simp only [List.mem_cons, List.not_mem_nil, or_false] at hmem
  rcases hmem with rfl | rfl | rfl | rfl | rfl | rfl | rfl
  · exact Json.spelled_ofText _
  · exact Json.spelled_array NodeRecord.spelled_toJson _
  · exact Json.spelled_array NodeRecord.spelled_toJson _
  · exact Json.spelled_array EdgeRecord.spelled_toJson _
  · exact Json.spelled_array EdgeRecord.spelled_toJson _
  · exact Json.spelled_array EdgeRecord.spelled_toJson _
  · exact Json.spelled_array EdgeRecord.spelled_toJson _

/-- Every snapshot can be read from its text, and only its paths can come back changed. -/
theorem parse?_render (s : Snapshot) : parse? s.render = some (s.mapPaths Path.reread) := by
  unfold parse? render
  rw [Json.parse?_render s.spelled_toJson]
  exact s.ofJson?_toJson

/-! ## Snapshots of graphs -/

/-- The paths in the snapshot of a network are those of its nodes. -/
theorem forall_mem_paths_ofNetwork {P : Path → Prop} {net : Network} (sound : net.Sound)
    (h : ∀ id, net.Live id → P (net.pathOf id)) (name : String) :
    ∀ p ∈ (ofNetwork net name).paths, P p := by
  have hnode : ∀ kind, ∀ node ∈ (net.ofKind kind).map (NodeRecord.ofNode net), P node.path := by
    intro kind
    refine List.forall_mem_map.mpr fun id hid => ?_
    have hlive := Network.live_of_mem_nodeIds.mp (List.mem_of_mem_filter hid)
    obtain ⟨node, hnode⟩ := Network.live_iff.mp hlive
    have hpath : (NodeRecord.ofNode net id).path = net.pathOf id := by
      simp [NodeRecord.ofNode, hnode, Network.pathOf_of_node? hnode]
    exact hpath ▸ h id hlive
  have hedge : ∀ relation, ∀ edge ∈ (net.pairs relation).map (EdgeRecord.ofPair net),
      P edge.source ∧ P edge.target := by
    intro relation
    refine List.forall_mem_map.mpr fun pair hpair => ?_
    obtain ⟨hsource, htarget⟩ := sound.ends _ _ _ (Network.mem_pairs.mp hpair)
    exact ⟨h _ hsource, h _ htarget⟩
  rw [forall_mem_paths]
  simp only [nodes, edges, ofNetwork, List.forall_mem_append]
  exact ⟨⟨hnode _, hnode _⟩, ⟨⟨hedge _, hedge _⟩, hedge _⟩, hedge _⟩

/-- **Snapshots are read back.** A snapshot is read back from its text if and only if all its paths are
legible. The mark of a singleton is written only where it is set and a style only where it has an
attribute, and what is not written is read as no mark and no style. If the declared names have no
blanks and no colons, the snapshot of the graph is read back. -/
theorem read_back_iff_legible :
    (∀ s : Snapshot, parse? s.render = some s ↔ ∀ p ∈ s.paths, p.Legible) ∧
    (∀ r : NodeRecord,
      (∃ members, r.toJson.members? = some members ∧
        ("singleton" ∈ members.map Prod.fst ↔ r.singleton = true) ∧
        ("style" ∈ members.map Prod.fst ↔ r.style ≠ .empty)) ∧
      ∃ found, NodeRecord.ofJson? r.toJson = some found ∧ found.singleton = r.singleton ∧
        found.style = r.style) ∧
    ∀ (ignored : List Matcher) (styles : List (Matcher × Style)) (files : List (List Item)) (g : Graph)
      (name : String), Item.NamedBy Path.Unbroken files →
      Graph.Finished (Graph.built ignored styles files) g →
      parse? (ofNetwork g.net name).render = some (ofNetwork g.net name) := by
  have hiff : ∀ s : Snapshot, parse? s.render = some s ↔ ∀ p ∈ s.paths, p.Legible := by
    intro s
    rw [parse?_render, Option.some.injEq, mapPaths_eq_self]
    exact forall₂_congr fun p _ => p.parse_display_iff
  refine ⟨hiff, fun r => ⟨⟨_, r.members?_toJson, r.mem_fields_singleton, r.mem_fields_style⟩,
    _, r.ofJson?_toJson, rfl, rfl⟩, fun ignored styles files g name named finished => ?_⟩
  have hsound : g.net.Sound := (Graph.consistent_of_reachable
    (finished.reachable (Graph.reachable_built ignored styles files))).sound
  refine (hiff _).mpr (forall_mem_paths_ofNetwork hsound (fun id hlive => ?_) name)
  exact (finished.madeOf named id hlive).legible

/-- A segment that ends in a colon in front of another one, which is not read back, and a graph that
is. -/
theorem read_back_of_threeFiles :
    parse? (Snapshot.render
          { (default : Snapshot) with containment := [⟨⟨["A:", "B"]⟩, ⟨["C"]⟩⟩] }) ≠
        some { (default : Snapshot) with containment := [⟨⟨["A:", "B"]⟩, ⟨["C"]⟩⟩] } ∧
      Item.NamedBy Path.Unbroken Network.threeFiles ∧
      parse? (ofNetwork (Graph.built [] [] Network.threeFiles).net "atlas").render =
        some (ofNetwork (Graph.built [] [] Network.threeFiles).net "atlas") := by
  obtain ⟨hiff, _, hbuilt⟩ := read_back_iff_legible
  have hnamed : Item.NamedBy Path.Unbroken Network.threeFiles := by decide
  refine ⟨fun h => ?_, hnamed, hbuilt [] [] _ _ "atlas" hnamed .built⟩
  have hlegible : Path.Legible ⟨["A:", "B"]⟩ := (hiff _).mp h _ (by decide)
  exact absurd (hlegible.unended "A:" (by decide)) (by decide)

end Snapshot

end ClassAtlas
