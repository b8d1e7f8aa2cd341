import LadderMonitor.Polling.Registry
import LadderMonitor.Proofs.Polling.Clustering
import Mathlib.Data.List.Nodup
import Mathlib.Data.List.Pairwise

namespace LadderMonitor.Registry

/-- Registrations are told apart by their keys and by their serial numbers, their ranges hold
addresses, and nobody is registered twice under one key or nobody at all. -/
structure Sound (registry : Registry) : Prop where
  serials : (registry.map (·.serial)).Nodup
  keys : (registry.map (·.key)).Nodup
  ranges : ∀ r ∈ registry, 0 ≤ r.key.range.start ∧ 0 < r.key.range.size
  subscribers : ∀ r ∈ registry, r.subscribers ≠ [] ∧ r.subscribers.Nodup

variable {registry : Registry} {serial : Nat} {key : RegistrationKey} {s : Subscriber}

theorem sound_nil : Sound [] := ⟨by simp, by simp, by simp, by simp⟩

theorem Sound.nodup (h : registry.Sound) : registry.Nodup := h.serials.of_map _

theorem Sound.eq_of_serial (h : registry.Sound) {r r' : Registration} (hr : r ∈ registry)
    (hr' : r' ∈ registry) (hserial : r.serial = r'.serial) : r = r' :=
  List.inj_on_of_nodup_map h.serials hr hr' hserial

theorem Sound.eq_of_key (h : registry.Sound) {r r' : Registration} (hr : r ∈ registry)
    (hr' : r' ∈ registry) (hkey : r.key = r'.key) : r = r' :=
  List.inj_on_of_nodup_map h.keys hr hr' hkey

theorem Sound.of_sublist {smaller : Registry} (h : registry.Sound)
    (hsub : smaller.Sublist registry) : smaller.Sound where
  serials := h.serials.sublist (hsub.map _)
  keys := h.keys.sublist (hsub.map _)
  ranges := fun r hr => h.ranges r (hsub.subset hr)
  subscribers := fun r hr => h.subscribers r (hsub.subset hr)

theorem sound_cons {first : Registration} {rest : Registry} :
    Sound (first :: rest) ↔ (∀ r ∈ rest, r.serial ≠ first.serial ∧ r.key ≠ first.key) ∧
      (0 ≤ first.key.range.start ∧ 0 < first.key.range.size) ∧
      (first.subscribers ≠ [] ∧ first.subscribers.Nodup) ∧ rest.Sound := by
  constructor
  · intro h
    refine ⟨?_, h.ranges first List.mem_cons_self, h.subscribers first List.mem_cons_self,
      h.of_sublist (List.sublist_cons_self first rest)⟩
    intro r hr
    have hserial := (List.nodup_cons.1 h.serials).1
    have hkey := (List.nodup_cons.1 h.keys).1
    exact ⟨fun heq => hserial (List.mem_map.2 ⟨r, hr, heq⟩),
      fun heq => hkey (List.mem_map.2 ⟨r, hr, heq⟩)⟩
  · rintro ⟨hapart, hrange, hsubscribers, hrest⟩
    constructor
    · rw [List.map_cons, List.nodup_cons, List.mem_map]
      exact ⟨fun ⟨r, hr, heq⟩ => (hapart r hr).1 heq, hrest.serials⟩
    · rw [List.map_cons, List.nodup_cons, List.mem_map]
      exact ⟨fun ⟨r, hr, heq⟩ => (hapart r hr).2 heq, hrest.keys⟩
    · exact List.forall_mem_cons.2 ⟨hrange, hrest.ranges⟩
    · exact List.forall_mem_cons.2 ⟨hsubscribers, hrest.subscribers⟩

@[simp] theorem single_key (serial : Nat) (key : RegistrationKey) (s : Subscriber) :
    (Registration.single serial key s).key = key := rfl

@[simp] theorem single_subscribers (serial : Nat) (key : RegistrationKey) (s : Subscriber) :
    (Registration.single serial key s).subscribers = [s] := rfl

theorem include_serial (r : Registration) (s : Subscriber) : (r.include s).serial = r.serial := by
  unfold Registration.include
  split <;> rfl

theorem include_key (r : Registration) (s : Subscriber) : (r.include s).key = r.key := by
  unfold Registration.include
  split <;> rfl

theorem include_subscribers {r : Registration} (h : r.subscribers ≠ [] ∧ r.subscribers.Nodup) :
    (r.include s).subscribers ≠ [] ∧ (r.include s).subscribers.Nodup := by
  unfold Registration.include
  split
  · exact h
  · rename_i hnew
    refine ⟨by simp, List.nodup_append.2 ⟨h.2, List.nodup_singleton s, ?_⟩⟩
    rintro other hother _ hs rfl
    obtain rfl := List.mem_singleton.1 hs
    exact hnew hother

theorem mem_include {r : Registration} {s' : Subscriber} :
    s' ∈ (r.include s).subscribers ↔ s' = s ∨ s' ∈ r.subscribers := by
  unfold Registration.include
  split
  · rename_i hmem
    constructor
    · exact .inr
    · rintro (rfl | hold)
      · exact hmem
      · exact hold
  · rw [List.mem_append, List.mem_singleton, or_comm]

/-- Whatever is registered after an addition was there before, by serial number and key, with nobody
more than the new subscriber under its key, or is the new registration. -/
theorem mem_add {r : Registration} (hr : r ∈ add serial key s registry) :
    (∃ old ∈ registry, r.serial = old.serial ∧ r.key = old.key ∧
        ∀ s' ∈ r.subscribers, s' ∈ old.subscribers ∨ r.key = key ∧ s' = s) ∨
      r = .single serial key s := by
  induction registry with
  | nil => exact .inr (List.mem_singleton.1 hr)
  | cons first rest ih =>
    rw [add] at hr
    split at hr
    · rename_i hkey
      rcases List.mem_cons.1 hr with rfl | hr
      · refine .inl ⟨first, List.mem_cons_self, include_serial first s, include_key first s, ?_⟩
        intro s' hs'
        rw [include_key]
        exact (mem_include.1 hs').elim (fun hnew => .inr ⟨hkey, hnew⟩) .inl
      · exact .inl ⟨r, List.mem_cons_of_mem first hr, rfl, rfl, fun _ => .inl⟩
    · rcases List.mem_cons.1 hr with rfl | hr
      · exact .inl ⟨r, List.mem_cons_self, rfl, rfl, fun _ => .inl⟩
      · rcases ih hr with ⟨old, hold, hsame⟩ | hnew
        · exact .inl ⟨old, List.mem_cons_of_mem first hold, hsame⟩
        · exact .inr hnew

theorem add_ne_nil : add serial key s registry ≠ [] := by
  cases registry with
  | nil => simp [add]
  | cons r rest =>
    rw [add]
    split <;> exact List.cons_ne_nil _ _

/-- An addition keeps the serial numbers, and appends that of a new registration. -/
theorem map_serial_add : (add serial key s registry).map (·.serial) = registry.map (·.serial) ∨
    (add serial key s registry).map (·.serial) = registry.map (·.serial) ++ [serial] := by
  induction registry with
  | nil => exact .inr rfl
  | cons first rest ih =>
    rw [add]
    split
    · rw [List.map_cons, List.map_cons, include_serial]
      exact .inl rfl
    · rw [List.map_cons, List.map_cons, List.cons_append, List.cons_inj_right, List.cons_inj_right]
      exact ih

theorem Sound.add (h : registry.Sound) (hfresh : ∀ r ∈ registry, r.serial ≠ serial)
    (hrange : 0 ≤ key.range.start ∧ 0 < key.range.size) : (add serial key s registry).Sound := by
  induction registry with
  | nil => exact sound_cons.2 ⟨by simp, hrange, by simp, sound_nil⟩
  | cons first rest ih =>
    obtain ⟨hapart, hfirst, hsubscribers, hrest⟩ := sound_cons.1 h
    rw [Registry.add]
    split
    · rw [sound_cons, include_serial, include_key]
      exact ⟨hapart, hfirst, include_subscribers hsubscribers, hrest⟩
    · rename_i hother
      have hadded := ih hrest fun r hr => hfresh r (List.mem_cons_of_mem first hr)
      refine sound_cons.2 ⟨?_, hfirst, hsubscribers, hadded⟩
      intro r hr
      rcases mem_add hr with ⟨old, hold, hserial, hkey, -⟩ | rfl
      · rw [hserial, hkey]
        exact hapart old hold
      · exact ⟨(hfresh first List.mem_cons_self).symm, fun heq => hother heq.symm⟩

/-- Whatever is registered after a removal was there before, by serial number and key, with nobody
more. -/
theorem mem_remove {r : Registration} (hr : r ∈ remove key s registry) :
    ∃ old ∈ registry, r.serial = old.serial ∧ r.key = old.key ∧
      ∀ s' ∈ r.subscribers, s' ∈ old.subscribers := by
  induction registry with
  | nil => cases hr
  | cons first rest ih =>
    rw [remove] at hr
    split at hr
    · simp only at hr
      split at hr
      · exact ⟨r, List.mem_cons_of_mem first hr, rfl, rfl, fun _ => id⟩
      · rcases List.mem_cons.1 hr with rfl | hr
        · exact ⟨first, List.mem_cons_self, rfl, rfl, fun _ => List.mem_of_mem_filter⟩
        · exact ⟨r, List.mem_cons_of_mem first hr, rfl, rfl, fun _ => id⟩
    · rcases List.mem_cons.1 hr with rfl | hr
      · exact ⟨r, List.mem_cons_self, rfl, rfl, fun _ => id⟩
      · obtain ⟨old, hold, hsame⟩ := ih hr
        exact ⟨old, List.mem_cons_of_mem first hold, hsame⟩

/-- What is registered under one key is no concern of a registration under another. -/
theorem mem_add_of_ne {r : Registration} (hne : r.key ≠ key) :
    r ∈ add serial key s registry ↔ r ∈ registry := by
  induction registry with
  | nil =>
    refine ⟨fun hr => ?_, fun hr => by cases hr⟩
    rw [List.mem_singleton.1 hr] at hne
    exact absurd rfl hne
  | cons first rest ih =>
    rw [add]
    split
    · rename_i hkey
      have hfirst : r ≠ first := fun heq => hne (by rw [heq, hkey])
      have hincluded : r ≠ first.include s := fun heq => hne (by rw [heq, include_key, hkey])
      simp [hfirst, hincluded]
    · rw [List.mem_cons, List.mem_cons, ih]

theorem mem_remove_of_ne {r : Registration} (hne : r.key ≠ key) :
    r ∈ remove key s registry ↔ r ∈ registry := by
  induction registry with
  | nil => rfl
  | cons first rest ih =>
    rw [remove]
    split
    · rename_i hkey
      have hfirst : r ≠ first := fun heq => hne (by rw [heq, hkey])
      have hleft : r ≠ { first with subscribers := first.subscribers.filter (· ≠ s) } :=
        fun heq => hne (by rw [heq, hkey])
      simp only
      split
      · simp [hfirst]
      · rw [List.mem_cons, List.mem_cons, or_iff_right hleft, or_iff_right hfirst]
    · rw [List.mem_cons, List.mem_cons, ih]

theorem sublist_map_serial_remove :
    ((remove key s registry).map (·.serial)).Sublist (registry.map (·.serial)) := by
  induction registry with
  | nil => exact .refl _
  | cons first rest ih =>
    rw [remove, List.map_cons]
    split
    · simp only
      split
      · exact List.sublist_cons_self _ _
      · exact .refl _
    · exact ih.cons_cons _

theorem Sound.remove (h : registry.Sound) (key : RegistrationKey) (s : Subscriber) :
    (remove key s registry).Sound := by
  induction registry with
  | nil => exact sound_nil
  | cons first rest ih =>
    obtain ⟨hapart, hfirst, hsubscribers, hrest⟩ := sound_cons.1 h
    rw [Registry.remove]
    split
    · simp only
      split
      · exact hrest
      · rename_i hleft
        refine sound_cons.2 ⟨hapart, hfirst, ⟨?_, hsubscribers.2.filter _⟩, hrest⟩
        simpa using hleft
    · refine sound_cons.2 ⟨?_, hfirst, hsubscribers, ih hrest⟩
      intro r hr
      obtain ⟨old, hold, hserial, hkey, -⟩ := mem_remove hr
      rw [hserial, hkey]
      exact hapart old hold

theorem Sound.removeAll (h : registry.Sound) (requester : Requester) :
    (removeAll requester registry).Sound :=
  h.of_sublist List.filter_sublist

/-- The ranges of registrations are those of their keys, and so they are gathered by these. -/
theorem batches_eq (registry : Registry) (gapThreshold maxSize : Int) :
    registry.batches gapThreshold maxSize =
      Batch.cluster (·.key.range) gapThreshold maxSize registry := by
  simp only [batches, Registration.range_eq]

/-- The batches of a sound registry hold every registration, each in one batch that covers it. -/
theorem mem_batches_items {gapThreshold maxSize : Int} {r : Registration} :
    (∃ b ∈ registry.batches gapThreshold maxSize, r ∈ b.items) ↔ r ∈ registry :=
  Batch.mem_cluster_items

theorem Sound.nodup_batches (h : registry.Sound) (gapThreshold maxSize : Int) :
    (registry.batches gapThreshold maxSize).Nodup :=
  Batch.nodup_cluster h.nodup

/-- No registration is in two batches. -/
theorem Sound.eq_of_mem_items (h : registry.Sound) {gapThreshold maxSize : Int}
    {b b' : Batch Registration} (hb : b ∈ registry.batches gapThreshold maxSize)
    (hb' : b' ∈ registry.batches gapThreshold maxSize) {r : Registration} (hr : r ∈ b.items)
    (hr' : r ∈ b'.items) : b = b' := by
  by_contra hne
  have hflat : ((registry.batches gapThreshold maxSize).flatMap (·.items)).Nodup :=
    Batch.nodup_flatMap_cluster _ _ _ h.nodup
  have : Std.Symm (Function.onFun List.Disjoint fun b : Batch Registration => b.items) :=
    ⟨fun _ _ hapart _ hr hr' => hapart hr' hr⟩
  exact (List.nodup_flatMap.1 hflat).2.forall hb hb' hne hr hr'

theorem Sound.nodup_items (h : registry.Sound) {gapThreshold maxSize : Int}
    {b : Batch Registration} (hb : b ∈ registry.batches gapThreshold maxSize) : b.items.Nodup := by
  have hflat : ((registry.batches gapThreshold maxSize).flatMap (·.items)).Nodup :=
    Batch.nodup_flatMap_cluster _ _ _ h.nodup
  exact (List.nodup_flatMap.1 hflat).1 b hb

theorem covers_of_mem_batches {gapThreshold maxSize : Int} {b : Batch Registration}
    (hb : b ∈ registry.batches gapThreshold maxSize) : b.Covers (·.key.range) := by
  rw [batches_eq] at hb
  exact Batch.covers_cluster hb

theorem Sound.size_of_mem_batches (h : registry.Sound) {gapThreshold maxSize : Int}
    {b : Batch Registration} (hb : b ∈ registry.batches gapThreshold maxSize) : 0 < b.size := by
  have hcovers := covers_of_mem_batches hb
  obtain ⟨r, hr⟩ := List.exists_mem_of_ne_nil b.items hcovers.nonempty
  obtain ⟨hstart, hstop⟩ := hcovers.inside r hr
  have hrange := h.ranges r (mem_batches_items.1 ⟨b, hb, hr⟩)
  unfold ByteRange.stop at hstop
  unfold Batch.size
  omega

end LadderMonitor.Registry
