/-!
# Association lists

What a look-up gives after an entry is put in front, dropped or changed. Arenas, indexes and styles
are association lists, and their laws are instances of these.
-/

namespace ClassAtlas.Assoc

variable {α β : Type} [DecidableEq α]

theorem lookup_cons (key other : α) (value : β) (rest : List (α × β)) :
    ((key, value) :: rest).lookup other = if other = key then some value else rest.lookup other := by
  by_cases h : other = key
  · subst h
    simp
  · have hb : (other == key) = false := by simpa using h
    simp only [List.lookup_cons, hb, if_neg h]

theorem lookup_filter_ne (key other : α) (entries : List (α × β)) :
    (entries.filter (fun entry => entry.1 != key)).lookup other =
      if other = key then none else entries.lookup other := by
  induction entries with
  | nil => simp
  | cons entry rest ih =>
    obtain ⟨k, value⟩ := entry
    by_cases hk : k = key
    · subst hk
      have hd : ((k, value) :: rest).filter (fun entry => entry.1 != k) =
          rest.filter (fun entry => entry.1 != k) := by simp
      rw [hd, ih, lookup_cons]
      by_cases ho : other = k <;> simp [ho]
    · by_cases ho : other = k
      · subst ho
        simp [hk]
      · simp [lookup_cons, ih, hk, ho]

theorem lookup_map_update (key other : α) (f : β → β) (entries : List (α × β)) :
    (entries.map (fun entry => if entry.1 == key then (entry.1, f entry.2) else entry)).lookup other =
      if other = key then (entries.lookup other).map f else entries.lookup other := by
  induction entries with
  | nil => simp
  | cons entry rest ih =>
    obtain ⟨k, value⟩ := entry
    rw [List.map_cons, lookup_cons]
    by_cases hk : k = key
    · subst hk
      by_cases ho : other = k
      · simp [ho]
      · simpa [lookup_cons, ho] using ih
    · by_cases ho : other = k
      · simp [ho, hk]
      · simpa [lookup_cons, ho, hk] using ih

end ClassAtlas.Assoc
