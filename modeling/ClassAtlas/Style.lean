import ClassAtlas.Assoc

/-!
# Styles

The drawing attributes of a node: texts under names, at most one per name, listed by name. Setting an
attribute again replaces its text.

A style carries the proof that its names ascend, so two styles with the same attributes are equal.
-/

namespace ClassAtlas

/-- Attributes, ascending by name. -/
@[ext]
structure Style where
  entries : List (String × String)
  ascending : entries.Pairwise (fun first second => first.1 < second.1)
deriving DecidableEq, Repr

namespace Style

/-- No attributes. -/
def empty : Style := ⟨[], .nil⟩

instance : Inhabited Style := ⟨empty⟩

/-- Puts an attribute at its place in an ascending list. -/
def place (name value : String) : List (String × String) → List (String × String)
  | [] => [(name, value)]
  | entry :: rest =>
    if name < entry.1 then (name, value) :: entry :: rest
    else if name = entry.1 then (name, value) :: rest
    else entry :: place name value rest

theorem mem_place {name value : String} {entries : List (String × String)} {entry : String × String}
    (h : entry ∈ place name value entries) : entry = (name, value) ∨ entry ∈ entries := by
  induction entries with
  | nil => simpa [place] using h
  | cons first rest ih =>
    unfold place at h
    split at h
    · simpa using h
    · split at h
      · rcases List.mem_cons.mp h with hnew | hold
        · exact .inl hnew
        · exact .inr (List.mem_cons_of_mem _ hold)
      · rcases List.mem_cons.mp h with hfirst | hlater
        · exact .inr (hfirst ▸ List.mem_cons_self)
        · exact (ih hlater).imp_right (List.mem_cons_of_mem _)

/-- An ascending list stays ascending. -/
theorem ascending_place (name value : String) {entries : List (String × String)}
    (ascending : entries.Pairwise (fun first second => first.1 < second.1)) :
    (place name value entries).Pairwise (fun first second => first.1 < second.1) := by
  induction entries with
  | nil => exact List.pairwise_singleton _ _
  | cons first rest ih =>
    obtain ⟨hfirst, hrest⟩ := List.pairwise_cons.mp ascending
    unfold place
    split
    · rename_i hlt
      refine List.pairwise_cons.mpr ⟨fun entry hentry => ?_, ascending⟩
      rcases List.mem_cons.mp hentry with heq | hlater
      · exact heq ▸ hlt
      · exact String.lt_trans hlt (hfirst entry hlater)
    · rename_i hnot
      split
      · rename_i hsame
        refine List.pairwise_cons.mpr ⟨fun entry hentry => ?_, hrest⟩
        exact hsame ▸ hfirst entry hentry
      · rename_i hother
        refine List.pairwise_cons.mpr ⟨fun entry hentry => ?_, ih hrest⟩
        rcases mem_place hentry with hnew | hold
        · rw [hnew]
          exact String.not_le.mp fun hle => hother (String.le_antisymm hle (String.not_lt.mp hnot))
        · exact hfirst entry hold

/-- Sets one attribute. -/
def set (s : Style) (name value : String) : Style :=
  ⟨place name value s.entries, ascending_place name value s.ascending⟩

/-- The text of an attribute. -/
def get? (s : Style) (name : String) : Option String :=
  s.entries.lookup name

/-- Sets every attribute of `t`, so `t` wins where both have one. -/
def merge (s t : Style) : Style :=
  t.entries.foldl (fun acc entry => acc.set entry.1 entry.2) s

/-- The attributes of a list, later ones winning. -/
def ofList (entries : List (String × String)) : Style :=
  entries.foldl (fun acc entry => acc.set entry.1 entry.2) empty

/-- There are no attributes. -/
def isEmpty (s : Style) : Bool :=
  s.entries.isEmpty

theorem lookup_place (name value other : String) (entries : List (String × String)) :
    (place name value entries).lookup other =
      if other = name then some value else entries.lookup other := by
  induction entries with
  | nil => simp [place, Assoc.lookup_cons]
  | cons entry rest ih =>
    obtain ⟨key, text⟩ := entry
    by_cases hlt : name < key
    · simp [place, hlt, Assoc.lookup_cons]
    · by_cases heq : name = key
      · subst heq
        by_cases h : other = name <;> simp [place, Assoc.lookup_cons, h]
      · by_cases h : other = key
        · subst h
          have hne : ¬ other = name := fun e => heq e.symm
          simp [place, hlt, heq, hne]
        · simp [place, hlt, heq, Assoc.lookup_cons, h, ih]

/-- Setting an attribute changes that attribute and no other. -/
@[simp] theorem get?_set (s : Style) (name value other : String) :
    (s.set name value).get? other = if other = name then some value else s.get? other :=
  lookup_place name value other s.entries

end Style

end ClassAtlas
