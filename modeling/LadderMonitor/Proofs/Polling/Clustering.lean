import LadderMonitor.Polling.Batch
import Mathlib.Data.List.Sort

namespace LadderMonitor.Batch

variable {α : Type} (range : α → ByteRange) (gapThreshold maxSize : Int)

/-- The items of a batch lie inside it, and there are some. -/
structure Covers (b : Batch α) : Prop where
  nonempty : b.items ≠ []
  inside : ∀ item ∈ b.items, b.start ≤ (range item).start ∧ (range item).stop ≤ b.stop

/-- The order by starts. -/
def startsBefore (a b : α) : Prop := (range a).start ≤ (range b).start

instance : DecidableRel (startsBefore range) := fun a b =>
  inferInstanceAs (Decidable ((range a).start ≤ (range b).start))

theorem insertByStart_eq_orderedInsert (item : α) (items : List α) :
    insertByStart range item items = items.orderedInsert (startsBefore range) item := by
  induction items with
  | nil => rfl
  | cons other rest ih =>
    rw [insertByStart, List.orderedInsert, ih]
    rfl

theorem sortByStart_eq_insertionSort (items : List α) :
    sortByStart range items = items.insertionSort (startsBefore range) := by
  unfold sortByStart List.insertionSort
  congr 1
  funext item rest
  exact insertByStart_eq_orderedInsert range item rest

theorem sortByStart_perm (items : List α) : (sortByStart range items).Perm items := by
  rw [sortByStart_eq_insertionSort]
  exact List.perm_insertionSort _ items

instance : Std.Total (startsBefore range) :=
  ⟨fun a b => Int.le_total (range a).start (range b).start⟩

instance : IsTrans α (startsBefore range) := ⟨fun _ _ _ hab hbc => Int.le_trans hab hbc⟩

theorem sortByStart_pairwise (items : List α) :
    (sortByStart range items).Pairwise (startsBefore range) := by
  rw [sortByStart_eq_insertionSort]
  exact List.pairwise_insertionSort _ items

theorem flatMap_items_gather (current : Batch α) (items : List α) :
    (gather range gapThreshold maxSize current items).flatMap (·.items) =
      current.items ++ items := by
  induction items generalizing current with
  | nil => simp [gather]
  | cons item rest ih =>
    rw [gather]
    split
    · rw [ih, add]
      simp
    · rw [List.flatMap_cons, ih, single]
      rfl

/-- The items of the batches, one batch after the other, are the items by their starts. -/
theorem flatMap_items_cluster (items : List α) :
    (cluster range gapThreshold maxSize items).flatMap (·.items) = sortByStart range items := by
  unfold cluster
  split
  · rename_i hsorted
    rw [hsorted]
    rfl
  · rename_i item rest hsorted
    rw [flatMap_items_gather, hsorted]
    rfl

variable {range}

theorem covers_single (item : α) : (single range item).Covers range where
  nonempty := by simp [single]
  inside := by
    intro other hother
    obtain rfl := List.mem_singleton.1 hother
    exact ⟨Int.le_refl _, Int.le_refl _⟩

theorem Covers.add {b : Batch α} (hcovers : b.Covers range) {item : α}
    (hstart : b.start ≤ (range item).start) : (b.add range item).Covers range where
  nonempty := by simp [Batch.add]
  inside := by
    intro other hother
    rcases List.mem_append.1 hother with hold | hnew
    · obtain ⟨hfirst, hlast⟩ := hcovers.inside other hold
      exact ⟨hfirst, Int.le_trans hlast (Int.le_max_left _ _)⟩
    · obtain rfl := List.mem_singleton.1 hnew
      exact ⟨hstart, Int.le_max_right _ _⟩

variable {gapThreshold maxSize}

section Invariant

variable {P : Batch α → Prop} {items : List α}

/-- What holds of a batch of one item, and goes on to hold when an item joins, holds of every batch
that items in order are gathered into. Items in order never start before the batch that they
continue. -/
theorem forall_mem_gather {current : Batch α} (hsingle : ∀ item ∈ items, P (single range item))
    (hadd : ∀ b, ∀ item ∈ items, P b → b.start ≤ (range item).start →
      b.admits gapThreshold maxSize (range item) → P (b.add range item))
    (hcurrent : P current) (hafter : ∀ item ∈ items, current.start ≤ (range item).start)
    (hsorted : items.Pairwise (startsBefore range)) :
    ∀ b ∈ gather range gapThreshold maxSize current items, P b := by
  induction items generalizing current with
  | nil =>
    intro b hb
    obtain rfl := List.mem_singleton.1 hb
    exact hcurrent
  | cons item rest ih =>
    obtain ⟨hitem, hrest⟩ := List.pairwise_cons.1 hsorted
    obtain ⟨hstart, hlater⟩ := List.forall_mem_cons.1 hafter
    have hsingle' := fun other hother => hsingle other (List.mem_cons_of_mem item hother)
    have hadd' := fun b other hother => hadd b other (List.mem_cons_of_mem item hother)
    rw [gather]
    split
    · rename_i hadmits
      exact ih hsingle' hadd' (hadd current item List.mem_cons_self hcurrent hstart hadmits) hlater
        hrest
    · intro b hb
      rcases List.mem_cons.1 hb with rfl | hb
      · exact hcurrent
      · exact ih hsingle' hadd' (hsingle item List.mem_cons_self) hitem hrest b hb

theorem forall_mem_cluster (hsingle : ∀ item ∈ items, P (single range item))
    (hadd : ∀ b, ∀ item ∈ items, P b → b.start ≤ (range item).start →
      b.admits gapThreshold maxSize (range item) → P (b.add range item)) :
    ∀ b ∈ cluster range gapThreshold maxSize items, P b := by
  have hmem : ∀ item ∈ sortByStart range items, item ∈ items :=
    fun item => (sortByStart_perm range items).mem_iff.1
  have hsorted := sortByStart_pairwise range items
  unfold cluster
  split
  · simp
  · rename_i item rest heq
    rw [heq] at hmem hsorted
    obtain ⟨hitem, hrest⟩ := List.forall_mem_cons.1 hmem
    obtain ⟨hafter, hpairwise⟩ := List.pairwise_cons.1 hsorted
    exact forall_mem_gather (fun other hother => hsingle other (hrest other hother))
      (fun b other hother => hadd b other (hrest other hother)) (hsingle item hitem) hafter
      hpairwise

end Invariant

theorem covers_cluster {items : List α} {b : Batch α}
    (hb : b ∈ cluster range gapThreshold maxSize items) : b.Covers range :=
  forall_mem_cluster (fun item _ => covers_single item)
    (fun _ _ _ hcovers hstart _ => hcovers.add hstart) b hb

/-- Every item goes into some batch, and no batch holds anything else. -/
theorem mem_cluster_items {items : List α} {item : α} :
    (∃ b ∈ cluster range gapThreshold maxSize items, item ∈ b.items) ↔ item ∈ items := by
  rw [← List.mem_flatMap, flatMap_items_cluster, (sortByStart_perm range items).mem_iff]

theorem nodup_flatMap_cluster (range : α → ByteRange) (gapThreshold maxSize : Int)
    {items : List α} (hnodup : items.Nodup) :
    ((cluster range gapThreshold maxSize items).flatMap (·.items)).Nodup := by
  rw [flatMap_items_cluster]
  exact (sortByStart_perm range items).nodup_iff.2 hnodup

/-- Distinct items make distinct batches. -/
theorem nodup_cluster {items : List α} (hnodup : items.Nodup) :
    (cluster range gapThreshold maxSize items).Nodup := by
  have hflat := nodup_flatMap_cluster range gapThreshold maxSize hnodup
  have hdisjoint := (List.nodup_flatMap.1 hflat).2
  refine hdisjoint.imp_of_mem ?_
  rintro a b ha - hab rfl
  obtain ⟨item, hitem⟩ := List.exists_mem_of_ne_nil _ (covers_cluster ha).nonempty
  exact hab hitem hitem

theorem cluster_ne_nil {items : List α} (hitems : items ≠ []) :
    cluster range gapThreshold maxSize items ≠ [] := by
  obtain ⟨item, hitem⟩ := List.exists_mem_of_ne_nil items hitems
  obtain ⟨b, hb, -⟩ := mem_cluster_items.2 hitem
  exact List.ne_nil_of_mem hb

end LadderMonitor.Batch
