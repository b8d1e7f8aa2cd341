import LadderMonitor.Proofs.Polling.Clustering

namespace LadderMonitor

def ByteRange.Contains (r : ByteRange) (address : Int) : Prop :=
  r.start ≤ address ∧ address < r.stop

namespace Batch

variable {α : Type} (range : α → ByteRange) (gapThreshold maxSize : Int)

/-- A list in the order of starts that holds what another one holds. Whatever is in order there
keeps its order, so items with one start do. -/
structure StablySorted (items sorted : List α) : Prop where
  perm : sorted.Perm items
  ordered : sorted.Pairwise (startsBefore range)
  stable : ∀ part : List α, part.Sublist items → part.Pairwise (startsBefore range) →
    part.Sublist sorted

/-- Whether no item of a batch reaches into the addresses from a start up to a stop. -/
def Misses (b : Batch α) (start stop : Int) : Prop :=
  ∀ address, start ≤ address → address < stop → ∀ item ∈ b.items, ¬ (range item).Contains address

/-- A batch that ranges are gathered into. -/
structure Formed (b : Batch α) : Prop where
  covers : b.Covers range
  /-- It starts with its first item. If it is longer than allowed, that item is so by itself. -/
  opened : ∃ first rest, b.items = first :: rest ∧ (range first).start = b.start ∧
    (b.size ≤ maxSize ∨ range first = b.range)
  /-- It ends with one of its items. -/
  reached : ∃ item ∈ b.items, (range item).stop = b.stop
  /-- What lies between its items is narrow. -/
  gaps : ∀ start stop, b.start ≤ start → start < stop → stop ≤ b.stop → b.Misses range start stop →
    stop - start < gapThreshold

/-- Whether the first range of a batch could not join the batch before it: it lies too far behind,
or it would make that batch too long. -/
def Parted (a b : Batch α) : Prop :=
  ∃ first rest, b.items = first :: rest ∧
    (gapThreshold ≤ (range first).start - a.stop ∨ maxSize < (range first).stop - a.start)

/-- Batches that items are gathered into. -/
structure Gathers (items : List α) (batches : List (Batch α)) : Prop where
  /-- One batch after the other, they hold the items in a stable order. -/
  sorted : StablySorted range items (batches.flatMap (·.items))
  formed : ∀ b ∈ batches, b.Formed range gapThreshold maxSize
  parted : batches.IsChain (Parted range gapThreshold maxSize)

theorem stablySorted_sortByStart (items : List α) :
    StablySorted range items (sortByStart range items) where
  perm := sortByStart_perm range items
  ordered := sortByStart_pairwise range items
  stable := by
    intro part hpart hordered
    rw [sortByStart_eq_insertionSort]
    exact List.sublist_insertionSort hordered hpart

variable {range gapThreshold maxSize}

theorem formed_single (item : α) : (single range item).Formed range gapThreshold maxSize where
  covers := covers_single item
  opened := by
    have hsize : (single range item).size = (range item).size := by
      change (range item).start + (range item).size - (range item).start = (range item).size
      omega
    exact ⟨item, [], rfl, rfl, .inr (by rw [Batch.range, hsize]; rfl)⟩
  reached := ⟨item, List.mem_singleton_self item, rfl⟩
  gaps := by
    intro start stop hstart hlt hstop hmisses
    have hinside : (range item).Contains start := ⟨hstart, Int.lt_of_lt_of_le hlt hstop⟩
    exact absurd hinside (hmisses start (Int.le_refl start) hlt item (List.mem_singleton_self item))

section Add

variable {b : Batch α} (h : b.Formed range gapThreshold maxSize) {item : α}

include h

/-- A batch that is too long does not grow, since what joins it ends within the allowed size. -/
theorem Formed.opened_add (hspan : (range item).stop - b.start ≤ maxSize) :
    ∃ first rest, (b.add range item).items = first :: rest ∧
      (range first).start = (b.add range item).start ∧
      ((b.add range item).size ≤ maxSize ∨ range first = (b.add range item).range) := by
  obtain ⟨first, rest, hfirst, hopens, hsize⟩ := h.opened
  have hitems : (b.add range item).items = first :: (rest ++ [item]) := by
    change b.items ++ [item] = _
    rw [hfirst, List.cons_append]
  refine ⟨first, rest ++ [item], hitems, hopens, ?_⟩
  have hstop : (b.add range item).stop = max b.stop (range item).stop := rfl
  rcases Int.lt_or_le b.stop (range item).stop with hgrows | hstays
  · left
    rw [Batch.size, hstop, Int.max_eq_right (Int.le_of_lt hgrows)]
    exact hspan
  · have hsame : (b.add range item).range = b.range := by
      rw [Batch.range, Batch.range, Batch.size, Batch.size, hstop, Int.max_eq_left hstays]
      rfl
    rw [hsame, show (b.add range item).size = b.size from congrArg ByteRange.size hsame]
    exact hsize

theorem Formed.reached_add :
    ∃ last ∈ (b.add range item).items, (range last).stop = (b.add range item).stop := by
  have hstop : (b.add range item).stop = max b.stop (range item).stop := rfl
  obtain ⟨last, hlast, hends⟩ := h.reached
  rcases Int.lt_or_le b.stop (range item).stop with hgrows | hstays
  · refine ⟨item, List.mem_append_right _ (List.mem_singleton_self item), ?_⟩
    omega
  · refine ⟨last, List.mem_append_left _ hlast, ?_⟩
    omega

/-- A gap behind the old end lies before the item that joins. -/
theorem Formed.gap_add (hsizes : ∀ item ∈ b.items, 0 < (range item).size)
    (hgap : (range item).start - b.stop < gapThreshold) {start stop : Int}
    (hfrom : b.start ≤ start) (hlt : start < stop) (hto : stop ≤ (b.add range item).stop)
    (hmisses : (b.add range item).Misses range start stop) : stop - start < gapThreshold := by
  have hstop : (b.add range item).stop = max b.stop (range item).stop := rfl
  have hold : b.Misses range start stop := fun address hle hbefore other hother =>
    hmisses address hle hbefore other (List.mem_append_left _ hother)
  rcases Int.lt_or_le b.stop stop with hbeyond | hwithin
  · have hends : stop ≤ (range item).start := by
      by_contra hafter
      refine hmisses (stop - 1) (by omega) (by omega) item ?_ ⟨by omega, by omega⟩
      exact List.mem_append_right _ (List.mem_singleton_self item)
    -- The gap cannot begin inside the old batch, whose last byte belongs to an item.
    have hbegins : b.stop ≤ start := by
      by_contra hbefore
      obtain ⟨last, hlast, hreach⟩ := h.reached
      have hsome := hsizes last hlast
      refine hold (b.stop - 1) (by omega) (by omega) last hlast ⟨?_, by omega⟩
      unfold ByteRange.stop at hreach
      omega
    omega
  · exact h.gaps start stop hfrom hlt hwithin hold

theorem Formed.add (hsizes : ∀ item ∈ b.items, 0 < (range item).size)
    (hstart : b.start ≤ (range item).start) (hadmits : b.admits gapThreshold maxSize (range item)) :
    (b.add range item).Formed range gapThreshold maxSize := by
  rw [admits, Bool.and_eq_true, decide_eq_true_iff, decide_eq_true_iff] at hadmits
  obtain ⟨hgap, hspan⟩ := hadmits
  exact ⟨h.covers.add hstart, h.opened_add hspan, h.reached_add,
    fun start stop hfrom hlt hto hmisses => h.gap_add hsizes hgap hfrom hlt hto hmisses⟩

end Add

theorem formed_cluster {items : List α} (hsizes : ∀ item ∈ items, 0 < (range item).size) :
    ∀ b ∈ cluster range gapThreshold maxSize items, b.Formed range gapThreshold maxSize := by
  intro b hb
  have hinvariant : b.Formed range gapThreshold maxSize ∧
      ∀ item ∈ b.items, 0 < (range item).size := by
    refine forall_mem_cluster (P := fun b => b.Formed range gapThreshold maxSize ∧
      ∀ item ∈ b.items, 0 < (range item).size) ?_ ?_ b hb
    · intro item hitem
      refine ⟨formed_single item, fun other hother => ?_⟩
      rw [List.mem_singleton.1 hother]
      exact hsizes item hitem
    · rintro b item hitem ⟨hformed, hpositive⟩ hstart hadmits
      refine ⟨hformed.add hpositive hstart hadmits, fun other hother => ?_⟩
      rcases List.mem_append.1 hother with hold | hnew
      · exact hpositive other hold
      · rw [List.mem_singleton.1 hnew]
        exact hsizes item hitem
  exact hinvariant.1

/-- The first batch goes on from the one that is continued. -/
theorem exists_gather_eq_cons (current : Batch α) (items : List α) :
    ∃ b rest, gather range gapThreshold maxSize current items = b :: rest ∧
      current.items <+: b.items := by
  induction items generalizing current with
  | nil => exact ⟨current, [], rfl, List.prefix_rfl⟩
  | cons item rest ih =>
    rw [gather]
    split
    · obtain ⟨b, others, heq, hprefix⟩ := ih (current.add range item)
      exact ⟨b, others, heq, (List.prefix_append current.items [item]).trans hprefix⟩
    · exact ⟨current, _, rfl, List.prefix_rfl⟩

theorem isChain_gather (current : Batch α) (items : List α) :
    (gather range gapThreshold maxSize current items).IsChain
      (Parted range gapThreshold maxSize) := by
  induction items generalizing current with
  | nil => exact .singleton current
  | cons item rest ih =>
    rw [gather]
    split
    · exact ih (current.add range item)
    · rename_i hrefused
      obtain ⟨b, others, heq, later, hitems⟩ :
          ∃ b others, gather range gapThreshold maxSize (single range item) rest = b :: others ∧
            (single range item).items <+: b.items := exists_gather_eq_cons _ _
      have hchain := ih (single range item)
      rw [heq] at hchain ⊢
      refine List.isChain_cons_cons.2 ⟨⟨item, later, hitems.symm, ?_⟩, hchain⟩
      rw [admits, Bool.and_eq_true, decide_eq_true_iff, decide_eq_true_iff] at hrefused
      omega

/-- Ranges are gathered into tight batches across narrow gaps, no longer than allowed and no more
than needed.

The batches hold all ranges in a stable order by their starts. Each spans from its first range to
the last end among its ranges; whatever lies inside it without belonging to one of them is narrower
than the threshold, and it is longer than allowed only if its first range is, and then as long as
that. The first range of each but the first batch could not have joined the batch before. -/
theorem cluster_gathers (gapThreshold maxSize : Int) {items : List α}
    (hsizes : ∀ item ∈ items, 0 < (range item).size) :
    Gathers range gapThreshold maxSize items (cluster range gapThreshold maxSize items) where
  sorted := by
    rw [flatMap_items_cluster]
    exact stablySorted_sortByStart range items
  formed := formed_cluster hsizes
  parted := by
    unfold cluster
    split
    · exact .nil
    · exact isChain_gather _ _

/-- Ranges some of which lie inside a long one, the others apart from it and from each other. -/
def scattered : List ByteRange := [⟨700, 1⟩, ⟨5, 3⟩, ⟨620, 4⟩, ⟨0, 600⟩, ⟨5, 1⟩]

theorem scattered_gathers :
    (∀ r ∈ scattered, 0 < r.size) ∧
      Gathers id 64 512 scattered (cluster id 64 512 scattered) ∧
      cluster id 64 512 scattered =
        [⟨0, 600, [⟨0, 600⟩, ⟨5, 3⟩, ⟨5, 1⟩]⟩, ⟨620, 624, [⟨620, 4⟩]⟩, ⟨700, 701, [⟨700, 1⟩]⟩] := by
  have hsizes : ∀ r ∈ scattered, 0 < r.size := by decide
  exact ⟨hsizes, cluster_gathers 64 512 hsizes, by decide⟩

end Batch

end LadderMonitor
