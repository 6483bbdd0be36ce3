import ClassAtlas.Assoc

/-!
# Arenas

A store that gives each value an identifier of its own and keeps it until the value is removed. The
identifiers of removed values are used again, the last one freed first, so an identifier names a
value only while that value is stored.

Entries are kept newest first. `ascending` lists them by identifier, which is the order that breaks
ties in listings; the order of `entries` is the order in which the edges at a node are read.
-/

namespace ClassAtlas

/-- Values under identifiers, newest first, with the identifiers that may be used again. -/
structure Arena (α : Type) where
  /-- The stored values with their identifiers, newest first. -/
  entries : List (Nat × α) := []
  /-- Identifiers below the bound have been given out at some time. -/
  bound : Nat := 0
  /-- Identifiers given out before and free again, the last one freed first. -/
  free : List Nat := []

namespace Arena

variable {α : Type}

instance : Inhabited (Arena α) := ⟨{}⟩

/-- The identifier that the next value gets. -/
def nextId (a : Arena α) : Nat :=
  match a.free with
  | [] => a.bound
  | id :: _ => id

/-- Stores a value under `nextId`. -/
def insert (a : Arena α) (value : α) : Arena α :=
  match a.free with
  | [] => { entries := (a.bound, value) :: a.entries, bound := a.bound + 1, free := [] }
  | id :: rest => { entries := (id, value) :: a.entries, bound := a.bound, free := rest }

/-- The value stored under an identifier. -/
def get? (a : Arena α) (id : Nat) : Option α :=
  a.entries.lookup id

/-- Some value is stored under the identifier. -/
def contains (a : Arena α) (id : Nat) : Bool :=
  a.entries.any (fun entry => entry.1 == id)

/-- Removes a value and frees its identifier; nothing happens if none is stored. -/
def erase (a : Arena α) (id : Nat) : Arena α :=
  if a.contains id then
    { entries := a.entries.filter (fun entry => entry.1 != id), bound := a.bound,
      free := id :: a.free }
  else a

/-- Changes the value stored under an identifier. -/
def modify (a : Arena α) (id : Nat) (f : α → α) : Arena α :=
  { a with
    entries := a.entries.map (fun entry => if entry.1 == id then (entry.1, f entry.2) else entry) }

/-- The number of stored values. -/
def size (a : Arena α) : Nat :=
  a.entries.length

/-- The identifiers in use, newest value first. -/
def ids (a : Arena α) : List Nat :=
  a.entries.map Prod.fst

/-- The entries by ascending identifier. -/
def ascending (a : Arena α) : List (Nat × α) :=
  a.entries.mergeSort (fun x y => decide (x.1 ≤ y.1))

@[simp] theorem entries_insert (a : Arena α) (value : α) :
    (a.insert value).entries = (a.nextId, value) :: a.entries := by
  unfold insert nextId
  cases a.free <;> rfl

@[simp] theorem get?_insert_self (a : Arena α) (value : α) :
    (a.insert value).get? a.nextId = some value := by
  simp [get?]

theorem get?_insert_of_ne (a : Arena α) (value : α) {id : Nat} (h : id ≠ a.nextId) :
    (a.insert value).get? id = a.get? id := by
  simp [get?, Assoc.lookup_cons, h]

@[simp] theorem ids_modify (a : Arena α) (id : Nat) (f : α → α) : (a.modify id f).ids = a.ids := by
  simp only [ids, modify, List.map_map]
  refine List.map_congr_left fun entry _ => ?_
  by_cases h : entry.1 = id <;> simp [h]

theorem get?_modify (a : Arena α) (id other : Nat) (f : α → α) :
    (a.modify id f).get? other = if other = id then (a.get? other).map f else a.get? other :=
  Assoc.lookup_map_update id other f a.entries

theorem mem_ids_erase (a : Arena α) (id other : Nat) :
    other ∈ (a.erase id).ids ↔ other ≠ id ∧ other ∈ a.ids := by
  unfold erase
  split
  · simp only [ids, List.mem_map, List.mem_filter]
    constructor
    · rintro ⟨entry, ⟨hm, hne⟩, rfl⟩
      exact ⟨by simpa using hne, entry, hm, rfl⟩
    · rintro ⟨hne, entry, hm, rfl⟩
      exact ⟨entry, ⟨hm, by simpa using hne⟩, rfl⟩
  · rename_i hc
    constructor
    · intro hm
      refine ⟨?_, hm⟩
      rintro rfl
      simp only [ids, List.mem_map] at hm
      obtain ⟨entry, he, hid⟩ := hm
      exact hc (List.any_eq_true.2 ⟨entry, he, by simpa using hid⟩)
    · exact fun h => h.2

theorem ascending_perm (a : Arena α) : a.ascending.Perm a.entries :=
  List.mergeSort_perm _ _

end Arena

end ClassAtlas
