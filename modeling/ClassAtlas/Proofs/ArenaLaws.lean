import ClassAtlas.Arena

/-!
# Laws of arenas

An arena gives out an identifier only if no stored value has it. That rests on an invariant of its
free list (`Arena.WellFormed`), which inserting, erasing and changing values keep. Under it an
identifier names at most one value, so looking it up and finding it among the entries are the same.
-/

namespace ClassAtlas

namespace Assoc

variable {α β : Type} [DecidableEq α]

theorem mem_of_lookup {key : α} {value : β} {entries : List (α × β)}
    (h : entries.lookup key = some value) : (key, value) ∈ entries := by
  induction entries with
  | nil => simp at h
  | cons entry rest ih =>
      obtain ⟨k, v⟩ := entry
      rw [lookup_cons] at h
      by_cases hk : key = k
      · rw [if_pos hk] at h
        injection h with hv
        rw [hk, hv]
        exact List.mem_cons_self
      · rw [if_neg hk] at h
        exact List.mem_cons_of_mem _ (ih h)

/-- With distinct keys, a look-up finds exactly the entries. -/
theorem lookup_eq_some_iff_mem {key : α} {value : β} {entries : List (α × β)}
    (distinct : (entries.map Prod.fst).Nodup) :
    entries.lookup key = some value ↔ (key, value) ∈ entries := by
  refine ⟨mem_of_lookup, fun h => ?_⟩
  induction entries with
  | nil => simp at h
  | cons entry rest ih =>
      obtain ⟨k, v⟩ := entry
      rw [List.map_cons, List.nodup_cons] at distinct
      rw [lookup_cons]
      rcases List.mem_cons.mp h with heq | hmem
      · injection heq with hk hv
        rw [if_pos hk, hv]
      · have hne : key ≠ k := by
          rintro rfl
          exact distinct.1 (List.mem_map.mpr ⟨(key, value), hmem, rfl⟩)
        rw [if_neg hne]
        exact ih distinct.2 hmem

theorem mem_keys_iff {key : α} {entries : List (α × β)} :
    key ∈ entries.map Prod.fst ↔ ∃ value, entries.lookup key = some value := by
  constructor
  · intro h
    induction entries with
    | nil => simp at h
    | cons entry rest ih =>
        obtain ⟨k, v⟩ := entry
        by_cases hk : key = k
        · exact ⟨v, by rw [lookup_cons, if_pos hk]⟩
        · have hrest : key ∈ rest.map Prod.fst := by simpa [hk] using h
          obtain ⟨value, hvalue⟩ := ih hrest
          exact ⟨value, by rw [lookup_cons, if_neg hk, hvalue]⟩
  · rintro ⟨value, hvalue⟩
    exact List.mem_map_of_mem (mem_of_lookup hvalue)

end Assoc

namespace Arena

variable {α : Type}

/-- Identifiers in use are distinct and were given out, and the free ones are not in use. -/
structure WellFormed (a : Arena α) : Prop where
  ids_nodup : a.ids.Nodup
  ids_lt : ∀ id ∈ a.ids, id < a.bound
  free_nodup : a.free.Nodup
  free_lt : ∀ id ∈ a.free, id < a.bound
  free_unused : ∀ id ∈ a.free, id ∉ a.ids

theorem wellFormed_empty : WellFormed ({} : Arena α) := by
  constructor <;> simp [ids]

theorem size_eq_length_ids (a : Arena α) : a.size = a.ids.length := by
  simp [size, ids]

/-! ## Reading -/

theorem mem_ids_iff (a : Arena α) (id : Nat) : id ∈ a.ids ↔ ∃ value, a.get? id = some value :=
  Assoc.mem_keys_iff

theorem contains_iff (a : Arena α) (id : Nat) : a.contains id = true ↔ id ∈ a.ids := by
  simp [contains, ids]

theorem WellFormed.get?_eq_some_iff {a : Arena α} (wf : a.WellFormed) (id : Nat) (value : α) :
    a.get? id = some value ↔ (id, value) ∈ a.entries :=
  Assoc.lookup_eq_some_iff_mem wf.ids_nodup

/-! ## Inserting -/

@[simp] theorem ids_insert (a : Arena α) (value : α) : (a.insert value).ids = a.nextId :: a.ids := by
  simp [ids]

/-- The next identifier is not in use. -/
theorem WellFormed.nextId_unused {a : Arena α} (wf : a.WellFormed) : a.nextId ∉ a.ids := by
  unfold nextId
  cases hfree : a.free with
  | nil => exact fun h => Nat.lt_irrefl _ (wf.ids_lt _ h)
  | cons id rest => exact wf.free_unused id (by simp [hfree])

theorem WellFormed.insert {a : Arena α} (wf : a.WellFormed) (value : α) :
    (a.insert value).WellFormed := by
  have hfresh := wf.nextId_unused
  have hnodup : (a.insert value).ids.Nodup := by
    rw [ids_insert]
    exact List.nodup_cons.mpr ⟨hfresh, wf.ids_nodup⟩
  cases hfree : a.free with
  | nil =>
      have hbound : (a.insert value).bound = a.bound + 1 := by simp [Arena.insert, hfree]
      have hnone : (a.insert value).free = [] := by simp [Arena.insert, hfree]
      have hnext : a.nextId = a.bound := by simp [nextId, hfree]
      refine ⟨hnodup, ?_, by simp [hnone], by simp [hnone], by simp [hnone]⟩
      intro id hid
      rw [ids_insert, hnext] at hid
      rw [hbound]
      rcases List.mem_cons.mp hid with rfl | hold
      · exact Nat.lt_succ_self _
      · exact Nat.lt_succ_of_lt (wf.ids_lt id hold)
  | cons first rest =>
      have hbound : (a.insert value).bound = a.bound := by simp [Arena.insert, hfree]
      have hrest : (a.insert value).free = rest := by simp [Arena.insert, hfree]
      have hnext : a.nextId = first := by simp [nextId, hfree]
      have hfreeNodup := wf.free_nodup
      rw [hfree, List.nodup_cons] at hfreeNodup
      refine ⟨hnodup, ?_, by rw [hrest]; exact hfreeNodup.2, ?_, ?_⟩
      · intro id hid
        rw [ids_insert, hnext] at hid
        rw [hbound]
        rcases List.mem_cons.mp hid with rfl | hold
        · exact wf.free_lt id (by simp [hfree])
        · exact wf.ids_lt id hold
      · intro id hid
        rw [hrest] at hid
        rw [hbound]
        exact wf.free_lt id (by simp [hfree, hid])
      · intro id hid
        rw [hrest] at hid
        rw [ids_insert, hnext, List.mem_cons]
        rintro (rfl | hold)
        · exact hfreeNodup.1 hid
        · exact wf.free_unused id (by simp [hfree, hid]) hold

/-! ## Erasing -/

theorem entries_erase (a : Arena α) (id : Nat) :
    (a.erase id).entries = a.entries.filter (fun entry => entry.1 != id) := by
  unfold erase
  split
  · rfl
  · rename_i hfree
    refine (List.filter_eq_self.mpr fun entry hmem => ?_).symm
    have hne : entry.1 ≠ id := by
      rintro rfl
      exact hfree ((a.contains_iff _).mpr (List.mem_map_of_mem hmem))
    simpa using hne

theorem get?_erase (a : Arena α) (id other : Nat) :
    (a.erase id).get? other = if other = id then none else a.get? other := by
  unfold get?
  rw [entries_erase]
  exact Assoc.lookup_filter_ne id other a.entries

theorem WellFormed.erase {a : Arena α} (wf : a.WellFormed) (id : Nat) :
    (a.erase id).WellFormed := by
  by_cases hused : a.contains id = true
  · have hbound : (a.erase id).bound = a.bound := by simp [Arena.erase, hused]
    have hfree : (a.erase id).free = id :: a.free := by simp [Arena.erase, hused]
    have hmem : id ∈ a.ids := (a.contains_iff id).mp hused
    refine ⟨?_, ?_, ?_, ?_, ?_⟩
    · unfold ids
      rw [entries_erase]
      exact wf.ids_nodup.sublist (List.filter_sublist.map _)
    · intro other hother
      rw [hbound]
      exact wf.ids_lt other ((a.mem_ids_erase id other).mp hother).2
    · rw [hfree]
      exact List.nodup_cons.mpr ⟨fun h => wf.free_unused id h hmem, wf.free_nodup⟩
    · intro other hother
      rw [hfree] at hother
      rw [hbound]
      rcases List.mem_cons.mp hother with rfl | hold
      · exact wf.ids_lt other hmem
      · exact wf.free_lt other hold
    · intro other hother hin
      rw [hfree] at hother
      obtain ⟨hne, hold⟩ := (a.mem_ids_erase id other).mp hin
      rcases List.mem_cons.mp hother with rfl | hfreed
      · exact hne rfl
      · exact wf.free_unused other hfreed hold
  · have hsame : a.erase id = a := by simp [Arena.erase, hused]
    rw [hsame]
    exact wf

theorem entries_foldl_erase (ids : List Nat) (a : Arena α) :
    (ids.foldl Arena.erase a).entries = a.entries.filter (fun entry => !ids.contains entry.1) := by
  induction ids generalizing a with
  | nil => exact (List.filter_eq_self.mpr fun _ _ => rfl).symm
  | cons id rest ih =>
      rw [List.foldl_cons, ih, entries_erase, List.filter_filter]
      refine List.filter_congr fun entry _ => ?_
      by_cases h : entry.1 = id <;> simp [h]

theorem WellFormed.foldl_erase {a : Arena α} (wf : a.WellFormed) (ids : List Nat) :
    (ids.foldl Arena.erase a).WellFormed := by
  induction ids generalizing a with
  | nil => exact wf
  | cons id rest ih => exact ih (wf.erase id)

/-! ## Changing -/

theorem WellFormed.modify {a : Arena α} (wf : a.WellFormed) (id : Nat) (f : α → α) :
    (a.modify id f).WellFormed where
  ids_nodup := by rw [ids_modify]; exact wf.ids_nodup
  ids_lt := by rw [ids_modify]; exact wf.ids_lt
  free_nodup := wf.free_nodup
  free_lt := wf.free_lt
  free_unused := by rw [ids_modify]; exact wf.free_unused

end Arena

end ClassAtlas
