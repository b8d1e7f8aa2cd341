import LadderMonitor.Assoc
import Mathlib.Data.List.Nodup

namespace LadderMonitor.Assoc

variable {κ α : Type} [DecidableEq κ] {key other : κ} {value : α} {table : List (κ × α)}

theorem get?_set : get? other (set key value table) =
    if other = key then some value else get? other table := by
  induction table with
  | nil => simp [set, get?, eq_comm]
  | cons entry rest ih =>
    obtain ⟨k, v⟩ := entry
    rw [set]
    split
    · rename_i heq
      subst heq
      by_cases hother : other = k
      · simp [get?, hother]
      · simp [get?, hother, Ne.symm hother]
    · rename_i hne
      rw [get?, get?, ih]
      by_cases hother : k = other
      · have hapart : other ≠ key := fun heq => hne (hother.trans heq)
        simp [hother, hapart]
      · simp [hother]

theorem get?_erase : get? other (erase key table) =
    if other = key then none else get? other table := by
  induction table with
  | nil => simp [erase, get?]
  | cons entry rest ih =>
    obtain ⟨k, v⟩ := entry
    unfold erase at ih ⊢
    by_cases hkey : k = key
    · rw [List.filter_cons_of_neg (by simpa using hkey), ih, get?]
      by_cases hother : other = key
      · simp [hother]
      · have hapart : k ≠ other := fun heq => hother (heq.symm.trans hkey)
        simp [hother, hapart]
    · rw [List.filter_cons_of_pos (by simpa using hkey), get?, get?, ih]
      by_cases hother : k = other
      · have hapart : other ≠ key := fun heq => hkey (hother.trans heq)
        simp [hother, hapart]
      · simp [hother]

theorem mem_of_mem_set {entry : κ × α} (hmem : entry ∈ set key value table) :
    entry = (key, value) ∨ entry ∈ table := by
  induction table with
  | nil => exact .inl (List.mem_singleton.1 hmem)
  | cons first rest ih =>
    rw [set] at hmem
    split at hmem
    · rename_i heq
      rcases List.mem_cons.1 hmem with rfl | hrest
      · exact .inl (by rw [heq])
      · exact .inr (List.mem_cons_of_mem _ hrest)
    · rcases List.mem_cons.1 hmem with rfl | hrest
      · exact .inr List.mem_cons_self
      · exact (ih hrest).imp_right (List.mem_cons_of_mem _)

/-- An entry stays unless its key gets another value. -/
theorem mem_set_of_mem {entry : κ × α} (hmem : entry ∈ table)
    (hvalue : entry.1 = key → entry.2 = value) : entry ∈ set key value table := by
  induction table with
  | nil => cases hmem
  | cons first rest ih =>
    rw [set]
    split
    · rename_i heq
      rcases List.mem_cons.1 hmem with rfl | hrest
      · rw [← hvalue heq]
        exact List.mem_cons_self
      · exact List.mem_cons_of_mem _ hrest
    · rcases List.mem_cons.1 hmem with rfl | hrest
      · exact List.mem_cons_self
      · exact List.mem_cons_of_mem _ (ih hrest)

theorem mem_keys_set {k : κ} (hmem : k ∈ (set key value table).map (·.1)) :
    k = key ∨ k ∈ table.map (·.1) := by
  obtain ⟨entry, hentry, rfl⟩ := List.mem_map.1 hmem
  rcases mem_of_mem_set hentry with rfl | hold
  · exact .inl rfl
  · exact .inr (List.mem_map_of_mem hold)

theorem nodup_keys_set (h : (table.map (·.1)).Nodup) : ((set key value table).map (·.1)).Nodup := by
  induction table with
  | nil => simp [set]
  | cons entry rest ih =>
    rw [set]
    split
    · exact h
    · rename_i hne
      obtain ⟨hnew, hrest⟩ := List.nodup_cons.1 h
      refine List.nodup_cons.2 ⟨fun hmem => ?_, ih hrest⟩
      exact (mem_keys_set hmem).elim hne hnew

theorem nodup_keys_erase (h : (table.map (·.1)).Nodup) :
    ((erase key table).map (·.1)).Nodup :=
  h.sublist (List.filter_sublist.map _)

theorem get?_eq_some_iff (h : (table.map (·.1)).Nodup) :
    get? key table = some value ↔ (key, value) ∈ table := by
  refine ⟨mem_of_get?, fun hmem => ?_⟩
  induction table with
  | nil => cases hmem
  | cons entry rest ih =>
    obtain ⟨hnew, hrest⟩ := List.nodup_cons.1 h
    rw [get?]
    rcases List.mem_cons.1 hmem with rfl | hlater
    · simp
    · have hne : entry.1 ≠ key := fun heq => hnew (List.mem_map.2 ⟨_, hlater, heq.symm⟩)
      rw [if_neg hne, ih hrest hlater]

theorem get?_eq_none_iff : get? key table = none ↔ key ∉ table.map (·.1) := by
  induction table with
  | nil => simp [get?]
  | cons entry rest ih =>
    rw [get?, List.map_cons, List.mem_cons, not_or, ← ih]
    by_cases hkey : entry.1 = key
    · simp [hkey]
    · simp [hkey, Ne.symm hkey]

theorem erase_set : erase key (set key value table) = erase key table := by
  induction table with
  | nil => simp [set, erase]
  | cons entry rest ih =>
    obtain ⟨k, v⟩ := entry
    unfold erase at ih ⊢
    rw [set]
    split
    · rename_i heq
      simp [heq]
    · rename_i hne
      simp only [List.filter_cons_of_pos, ne_eq, hne, not_false_eq_true, decide_true, ih]

theorem set_eq_self (h : get? key table = some value) : set key value table = table := by
  induction table with
  | nil => cases h
  | cons entry rest ih =>
    obtain ⟨k, v⟩ := entry
    rw [get?] at h
    rw [set]
    split
    · rename_i heq
      rw [if_pos heq] at h
      rw [Option.some.inj h]
    · rename_i hne
      rw [if_neg hne] at h
      rw [ih h]

theorem erase_eq_self (h : get? key table = none) : erase key table = table := by
  rw [get?_eq_none_iff] at h
  refine List.filter_eq_self.2 fun entry hentry => ?_
  have hne : entry.1 ≠ key := fun heq => h (heq ▸ List.mem_map_of_mem hentry)
  simpa using hne

theorem get?_append {earlier later : List (κ × α)} :
    get? key (earlier ++ later) = (get? key earlier).or (get? key later) := by
  induction earlier with
  | nil => rfl
  | cons entry rest ih =>
    rw [List.cons_append, get?, get?, ih]
    split
    · rfl
    · rfl

theorem get?_map {β : Type} {f : α → β} :
    get? key (table.map fun entry => (entry.1, f entry.2)) = (get? key table).map f := by
  induction table with
  | nil => rfl
  | cons entry rest ih =>
    rw [List.map_cons, get?, get?, ih]
    split
    · rfl
    · rfl

theorem get?_setAbsent : get? other (setAbsent key value table) =
    (get? other table).or (get? other [(key, value)]) := by
  unfold setAbsent
  split
  · rename_i old hold
    by_cases hkey : key = other
    · rw [← hkey, hold]
      rfl
    · simp [get?, hkey]
  · exact get?_append

theorem nodup_keys_setAbsent (h : (table.map (·.1)).Nodup) :
    ((setAbsent key value table).map (·.1)).Nodup := by
  unfold setAbsent
  split
  · exact h
  · rename_i hnew
    rw [List.map_append, List.nodup_append]
    refine ⟨h, List.nodup_singleton key, ?_⟩
    rintro k hk _ hmem rfl
    rw [List.mem_singleton.1 hmem] at hk
    exact get?_eq_none_iff.1 hnew hk

/-- The last value under a key. -/
theorem get?_reverse :
    get? key table.reverse = ((table.filter (·.1 = key)).getLast?).map (·.2) := by
  induction table with
  | nil => rfl
  | cons entry rest ih =>
    rw [List.reverse_cons, get?_append, ih]
    by_cases hkey : entry.1 = key
    · rw [List.filter_cons_of_pos (by simpa using hkey), List.getLast?_cons]
      cases (rest.filter (·.1 = key)).getLast? with
      | none => simp [get?, hkey]
      | some last => rfl
    · rw [List.filter_cons_of_neg (by simpa using hkey)]
      simp [get?, hkey]

/-- Of values put under a key one after the other, the last one stays. -/
theorem get?_foldl_set {items : List (κ × α)} :
    get? key (items.foldl (fun table e => set e.1 e.2 table) table) =
      (get? key items.reverse).or (get? key table) := by
  induction items generalizing table with
  | nil => rfl
  | cons e rest ih =>
    rw [List.foldl_cons, ih, get?_set, List.reverse_cons, get?_append, Option.or_assoc]
    congr 1
    by_cases hkey : key = e.1
    · simp [get?, hkey]
    · simp [get?, hkey, Ne.symm hkey]

/-- Of values put where there is none, the first one stays. -/
theorem get?_foldl_setAbsent {items : List (κ × α)} :
    get? key (items.foldl (fun table e => setAbsent e.1 e.2 table) table) =
      (get? key table).or (get? key items) := by
  induction items generalizing table with
  | nil => simp [get?]
  | cons e rest ih =>
    rw [List.foldl_cons, ih, get?_setAbsent, Option.or_assoc, ← get?_append, List.singleton_append]

theorem set_of_not_mem (h : key ∉ table.map (·.1)) :
    set key value table = table ++ [(key, value)] := by
  induction table with
  | nil => rfl
  | cons first rest ih =>
    obtain ⟨hfirst, hrest⟩ := not_or.1 (fun h' => h (List.mem_cons.2 h'))
    rw [set, if_neg (Ne.symm hfirst), ih hrest, List.cons_append]

/-- Entries with new keys are put at the end, in their order. -/
theorem foldl_set_of_nodup {items : List (κ × α)} (h : ((table ++ items).map (·.1)).Nodup) :
    items.foldl (fun table e => set e.1 e.2 table) table = table ++ items := by
  induction items generalizing table with
  | nil => rw [List.foldl_nil, List.append_nil]
  | cons first rest ih =>
    have hshift : table ++ first :: rest = (table ++ [first]) ++ rest := by simp
    have hnew : first.1 ∉ table.map (·.1) := by
      rw [List.map_append, List.nodup_append] at h
      exact fun hmem => h.2.2 _ hmem _ List.mem_cons_self rfl
    rw [List.foldl_cons, set_of_not_mem hnew, ih (hshift ▸ h), hshift]

theorem setAbsent_of_mem (h : get? key table ≠ none) : setAbsent key value table = table := by
  obtain ⟨old, hold⟩ := Option.ne_none_iff_exists'.1 h
  rw [setAbsent, hold]

theorem lookup_eq_get? [BEq κ] [LawfulBEq κ] : List.lookup key table = get? key table := by
  induction table with
  | nil => rfl
  | cons entry rest ih =>
    obtain ⟨k, v⟩ := entry
    rw [List.lookup_cons, get?, ih]
    by_cases hkey : key = k
    · simp [hkey]
    · rw [beq_false_of_ne hkey, if_neg (Ne.symm hkey)]

end LadderMonitor.Assoc
