import LadderMonitor.Proofs.Polling.Registry

namespace LadderMonitor.Registry

variable {registry : Registry} {serial : Nat} {key k : RegistrationKey} {s s' : Subscriber}

theorem holds_cons {r : Registration} {rest : Registry} : Holds (r :: rest) k s' ↔
    (r.key = k ∧ s' ∈ r.subscribers) ∨ Holds rest k s' := by
  simp [Holds]

theorem not_holds_nil : ¬ Holds [] k s' := by
  simp [Holds]

/-- Something is registered just if somebody is subscribed. -/
theorem Sound.ne_nil_iff (h : registry.Sound) : registry ≠ [] ↔ ∃ k s, Holds registry k s := by
  constructor
  · intro hsome
    obtain ⟨r, hr⟩ := List.exists_mem_of_ne_nil _ hsome
    obtain ⟨s, hs⟩ := List.exists_mem_of_ne_nil _ (h.subscribers r hr).1
    exact ⟨r.key, s, r, hr, rfl, hs⟩
  · rintro ⟨k, s, r, hr, -⟩
    exact List.ne_nil_of_mem hr

/-- An addition adds one subscription. -/
theorem holds_add :
    Holds (add serial key s registry) k s' ↔ (k = key ∧ s' = s) ∨ Holds registry k s' := by
  induction registry with
  | nil => simp [add, holds_cons, not_holds_nil, eq_comm]
  | cons r rest ih =>
    rw [add]
    split
    · rename_i hkey
      rw [holds_cons, holds_cons, include_key, mem_include, hkey, and_or_left, or_assoc,
        eq_comm (a := key)]
    · rw [holds_cons, holds_cons, ih, or_left_comm]

/-- What a removal does to the first registration under its key. -/
theorem holds_remove_head {r : Registration} {rest : Registry} (hkey : r.key = key) :
    Holds (Registry.remove key s (r :: rest)) k s' ↔
      (r.key = k ∧ s' ∈ r.subscribers ∧ s' ≠ s) ∨ Holds rest k s' := by
  have hleft : s' ∈ r.subscribers.filter (· ≠ s) ↔ s' ∈ r.subscribers ∧ s' ≠ s := by
    rw [List.mem_filter, decide_eq_true_iff]
  rw [Registry.remove, if_pos hkey, ← hleft]
  simp only
  split
  · rename_i hempty
    rw [List.isEmpty_iff.1 hempty]
    simp
  · rw [holds_cons]

/-- A removal under one key leaves the subscriptions under others. -/
theorem holds_remove_of_ne (hne : k ≠ key) :
    Holds (Registry.remove key s registry) k s' ↔ Holds registry k s' := by
  induction registry with
  | nil => rfl
  | cons r rest ih =>
    by_cases hkey : r.key = key
    · have hother : r.key ≠ k := fun heq => hne (heq.symm.trans hkey)
      rw [holds_remove_head hkey, holds_cons]
      simp [hother]
    · rw [Registry.remove, if_neg hkey, holds_cons, holds_cons, ih]

/-- A removal takes one subscription out. -/
theorem Sound.holds_remove (h : registry.Sound) :
    Holds (Registry.remove key s registry) k s' ↔ Holds registry k s' ∧ ¬ (k = key ∧ s' = s) := by
  by_cases hk : k = key
  · subst hk
    induction registry with
    | nil => simp [Registry.remove, not_holds_nil]
    | cons r rest ih =>
      obtain ⟨hapart, -, -, hrest⟩ := sound_cons.1 h
      by_cases hkey : r.key = k
      · have hnone : ¬ Holds rest k s' := by
          rintro ⟨r', hr', hkey', -⟩
          exact (hapart r' hr').2 (hkey'.trans hkey.symm)
        rw [holds_remove_head hkey, holds_cons]
        simp [hkey, hnone]
      · rw [Registry.remove, if_neg hkey, holds_cons, holds_cons, ih hrest]
        simp [hkey]
  · rw [holds_remove_of_ne hk]
    simp [hk]

theorem holds_removeAll {requester : Requester} :
    Holds (Registry.removeAll requester registry) k s' ↔
      Holds registry k s' ∧ k.requester ≠ requester := by
  unfold Registry.removeAll Holds
  simp only [List.mem_filter, decide_eq_true_iff]
  constructor
  · rintro ⟨r, ⟨hr, hother⟩, rfl, hs⟩
    exact ⟨⟨r, hr, rfl, hs⟩, hother⟩
  · rintro ⟨⟨r, hr, rfl, hs⟩, hother⟩
    exact ⟨r, ⟨hr, hother⟩, rfl, hs⟩

/-- A registration whose subscriptions are those of one subscriber has no other subscriber. -/
theorem Sound.subscribers_eq (h : registry.Sound) {r : Registration} (hr : r ∈ registry)
    (hall : ∀ s', Holds registry r.key s' → s' = s) : r.subscribers = [s] := by
  obtain ⟨hsome, hnodup⟩ := h.subscribers r hr
  have hsame : ∀ s' ∈ r.subscribers, s' = s := fun s' hs' => hall s' ⟨r, hr, rfl, hs'⟩
  match hsubscribers : r.subscribers with
  | [] => exact absurd hsubscribers hsome
  | [first] => rw [hsame first (by simp [hsubscribers])]
  | first :: second :: rest =>
    rw [hsubscribers, List.nodup_cons] at hnodup
    have hfirst := hsame first (by simp [hsubscribers])
    have hsecond := hsame second (by simp [hsubscribers])
    exact absurd (by simp [hfirst, hsecond]) hnodup.1

section Requester

variable {requester : Requester} {ranges : ByteRange → Prop}

/-- The registrations of a requester are for certain ranges, one for each, and all have one
subscriber. -/
structure Serves (registry : Registry) (requester : Requester) (ranges : ByteRange → Prop)
    (s : Subscriber) : Prop where
  nodup : ((ofRequester requester registry).map (·.key.range)).Nodup
  ranges : ∀ range, range ∈ (ofRequester requester registry).map (·.key.range) ↔ ranges range
  subscribers : ∀ r ∈ ofRequester requester registry, r.subscribers = [s]

theorem mem_ofRequester {r : Registration} :
    r ∈ ofRequester requester registry ↔ r ∈ registry ∧ r.key.requester = requester := by
  rw [ofRequester, List.mem_filter, decide_eq_true_iff]

namespace Sound

theorem ofRequester_eq_nil (h : registry.Sound)
    (hnone : ∀ range s, ¬ registry.Holds ⟨requester, range⟩ s) :
    ofRequester requester registry = [] := by
  refine List.eq_nil_iff_forall_not_mem.2 fun r hr => ?_
  obtain ⟨hmem, rfl⟩ := mem_ofRequester.1 hr
  obtain ⟨s, hs⟩ := List.exists_mem_of_ne_nil _ (h.subscribers r hmem).1
  exact hnone r.key.range s ⟨r, hmem, rfl, hs⟩

theorem nodup_ranges_ofRequester (h : registry.Sound) :
    ((ofRequester requester registry).map (·.key.range)).Nodup := by
  refine List.Nodup.map_on ?_ (h.nodup.filter _)
  intro r hr r' hr' hrange
  obtain ⟨hmem, hrequester⟩ := mem_ofRequester.1 hr
  obtain ⟨hmem', hrequester'⟩ := mem_ofRequester.1 hr'
  refine h.eq_of_key hmem hmem' ?_
  have hkey : r.key = ⟨requester, r.key.range⟩ := by rw [← hrequester]
  have hkey' : r'.key = ⟨requester, r'.key.range⟩ := by rw [← hrequester']
  rw [hkey, hkey', hrange]

theorem serves (h : registry.Sound)
    (hholds : ∀ range s', registry.Holds ⟨requester, range⟩ s' ↔ s' = s ∧ ranges range) :
    registry.Serves requester ranges s where
  nodup := h.nodup_ranges_ofRequester
  ranges := by
    intro range
    rw [List.mem_map]
    constructor
    · rintro ⟨r, hr, rfl⟩
      obtain ⟨hmem, rfl⟩ := mem_ofRequester.1 hr
      obtain ⟨s', hs'⟩ := List.exists_mem_of_ne_nil _ (h.subscribers r hmem).1
      exact ((hholds r.key.range s').1 ⟨r, hmem, rfl, hs'⟩).2
    · intro hrange
      obtain ⟨r, hmem, hkey, -⟩ := (hholds range s).2 ⟨rfl, hrange⟩
      exact ⟨r, mem_ofRequester.2 ⟨hmem, by rw [hkey]⟩, by rw [hkey]⟩
  subscribers := by
    intro r hr
    obtain ⟨hmem, rfl⟩ := mem_ofRequester.1 hr
    exact h.subscribers_eq hmem fun s' hs' => ((hholds r.key.range s').1 hs').1

end Sound

/-- Nothing done in the name of a requester changes what others have registered. -/
theorem removeAll_add (hkey : key.requester = requester) :
    removeAll requester (add serial key s registry) = removeAll requester registry := by
  induction registry with
  | nil => simp [add, removeAll, hkey]
  | cons r rest ih =>
    unfold removeAll at ih ⊢
    rw [add]
    split
    · rename_i hown
      have hincluded : (r.include s).key.requester = requester := by rw [include_key, hown, hkey]
      have hrequester : r.key.requester = requester := by rw [hown, hkey]
      simp [hincluded, hrequester]
    · rw [List.filter_cons, List.filter_cons, ih]

theorem removeAll_remove (hkey : key.requester = requester) :
    removeAll requester (Registry.remove key s registry) = removeAll requester registry := by
  induction registry with
  | nil => rfl
  | cons r rest ih =>
    unfold removeAll at ih ⊢
    rw [Registry.remove]
    split
    · rename_i hown
      have hrequester : r.key.requester = requester := by rw [hown, hkey]
      simp only
      split <;> simp [hrequester]
    · rw [List.filter_cons, List.filter_cons, ih]

theorem removeAll_eq_self (h : ofRequester requester registry = []) :
    removeAll requester registry = registry := by
  refine List.filter_eq_self.2 fun r hr => ?_
  have hother : r.key.requester ≠ requester := fun heq =>
    List.ne_nil_of_mem (mem_ofRequester.2 ⟨hr, heq⟩) h
  simpa using hother

end Requester

end LadderMonitor.Registry
