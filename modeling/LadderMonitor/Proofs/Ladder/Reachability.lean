import LadderMonitor.Proofs.Ladder.Wiring

namespace LadderMonitor

/-- All of a block that the flow of power depends on. -/
def Block.conduct (b : Block) : String × Bool × Bool := (b.id, b.onRail, b.fires)

/-- All of a wire that the flow of power depends on. -/
def Wire.ends (w : Wire) : String × String := (w.source, w.target)

namespace Network

/-- The blocks that power reaches, by position: the contacts on the rail, and whatever a wire leads
to from the id of a reached block that passes power on. -/
inductive Reached (n : Network) : Nat → Prop where
  | rail {i : Nat} {b : Block} (hblock : n.blocks[i]? = some b) (hrail : b.onRail) : Reached n i
  | wire {i j : Nat} {b : Block} {w : Wire} (hreached : Reached n i)
      (hblock : n.blocks[i]? = some b) (hfires : b.fires) (hwire : w ∈ n.wires)
      (hsource : w.source = b.id) (htarget : n.holder? w.target = some j) : Reached n j

theorem ids_congr {n n' : Network}
    (hblocks : n'.blocks.map Block.conduct = n.blocks.map Block.conduct) : n'.ids = n.ids := by
  have hids (m : Network) : m.ids = (m.blocks.map Block.conduct).map (·.1) := by
    rw [List.map_map]
    rfl
  rw [hids, hids, hblocks]

private theorem Reached.transfer {n n' : Network} {i : Nat}
    (hblocks : n'.blocks.map Block.conduct = n.blocks.map Block.conduct)
    (hwires : n'.wires.map Wire.ends = n.wires.map Wire.ends) (hreached : n.Reached i) :
    n'.Reached i := by
  have hsame (i : Nat) (b : Block) (hblock : n.blocks[i]? = some b) :
      ∃ b', n'.blocks[i]? = some b' ∧ b'.conduct = b.conduct := by
    have hi := congrArg (·[i]?) hblocks
    simp only [List.getElem?_map, hblock, Option.map_some] at hi
    exact Option.map_eq_some_iff.1 hi
  induction hreached with
  | rail hblock hrail =>
    obtain ⟨b', hblock', heq⟩ := hsame _ _ hblock
    simp only [Block.conduct, Prod.mk.injEq] at heq
    exact .rail hblock' (heq.2.1.trans hrail)
  | wire _ hblock hfires hwire hsource htarget ih =>
    obtain ⟨b', hblock', heq⟩ := hsame _ _ hblock
    simp only [Block.conduct, Prod.mk.injEq] at heq
    have hmem := List.mem_map_of_mem (f := Wire.ends) hwire
    rw [← hwires] at hmem
    obtain ⟨w', hwire', hends⟩ := List.mem_map.1 hmem
    simp only [Wire.ends, Prod.mk.injEq] at hends
    refine .wire ih hblock' (heq.2.2.trans hfires) hwire' ?_ ?_
    · rw [hends.1, hsource, heq.1]
    · rw [holder?_congr (ids_congr hblocks), hends.2, htarget]

/-- Where power flows does not depend on what blocks and wires show, except for what is active. -/
theorem reached_congr {n n' : Network} {i : Nat}
    (hblocks : n'.blocks.map Block.conduct = n.blocks.map Block.conduct)
    (hwires : n'.wires.map Wire.ends = n.wires.map Wire.ends) : n'.Reached i ↔ n.Reached i :=
  ⟨.transfer hblocks.symm hwires.symm, .transfer hblocks hwires⟩

/-- Whether the block at a position passes on power that arrives at it. -/
def FiresAt (n : Network) (i : Nat) : Prop := ∃ b, n.blocks[i]? = some b ∧ b.fires

/-- Whether a wire leaves the block at one position for the block at another one. -/
def Joins (n : Network) (i k j : Nat) : Prop :=
  ∃ b, n.blocks[i]? = some b ∧ (k, j) ∈ n.outgoing b.id

theorem Reached.joined {n : Network} {i k j : Nat} (hreached : n.Reached i) (hfires : n.FiresAt i)
    (hjoins : n.Joins i k j) : n.Reached j := by
  obtain ⟨b, hblock, hout⟩ := hjoins
  obtain ⟨b', hblock', hb⟩ := hfires
  obtain rfl : b' = b := Option.some.inj (hblock'.symm.trans hblock)
  obtain ⟨w, hwire, hsource, -, htarget⟩ := mem_outgoing.1 hout
  exact hreached.wire hblock hb (List.mem_of_getElem? hwire) hsource htarget

/-- What holds while power spreads: only reached blocks are seen, a block that was seen has passed
power on if it does so at all, and what lies behind such a block is seen or pending. -/
structure Spreading (n : Network) (unfired : List Nat) (flow : Flow) (pending : List Nat) :
    Prop where
  nodup : unfired.Nodup
  mem_unfired_iff : ∀ i, i < n.blocks.length → (i ∈ unfired ↔ i ∉ flow.fired)
  reached : ∀ i, i ∈ flow.arrivals ∨ i ∈ pending → n.Reached i
  mem_fired_iff : ∀ i, i ∈ flow.fired ↔ i ∈ flow.arrivals ∧ n.FiresAt i
  mem_followed_iff : ∀ k, k ∈ flow.followed ↔ ∃ i ∈ flow.fired, ∃ j, n.Joins i k j
  closed : ∀ i ∈ flow.fired, ∀ k j, n.Joins i k j → j ∈ flow.arrivals ∨ j ∈ pending
  rail : ∀ i ∈ n.rail, i ∈ flow.arrivals ∨ i ∈ pending

namespace Spreading

variable {n : Network} {unfired pending : List Nat} {flow : Flow} {i : Nat} {b : Block}

theorem start (n : Network) : n.Spreading (List.range n.blocks.length) {} n.rail where
  nodup := List.nodup_range
  mem_unfired_iff := by simp
  reached := by
    rintro i (hseen | hrail)
    · cases hseen
    · obtain ⟨b, hblock, hb⟩ := mem_rail.1 hrail
      exact .rail hblock hb
  mem_fired_iff := by simp
  mem_followed_iff := by simp
  closed := by simp
  rail := fun _ hi => .inr hi

private theorem seen_or_pending_of_arrival {j : Nat}
    (h : j ∈ flow.arrivals ∨ j ∈ i :: pending) : j ∈ i :: flow.arrivals ∨ j ∈ pending := by
  rcases h with hseen | hpending
  · exact .inl (List.mem_cons_of_mem i hseen)
  · rcases List.mem_cons.1 hpending with rfl | hrest
    · exact .inl List.mem_cons_self
    · exact .inr hrest

/-- Power arrives at a block that has passed it on before, or does not do so at all. -/
theorem arrive (h : n.Spreading unfired flow (i :: pending))
    (hfired : n.FiresAt i → i ∈ flow.fired) :
    n.Spreading unfired { flow with arrivals := i :: flow.arrivals } pending where
  nodup := h.nodup
  mem_unfired_iff := h.mem_unfired_iff
  reached := by
    rintro j (hseen | hpending)
    · rcases List.mem_cons.1 hseen with rfl | hseen
      · exact h.reached _ (.inr List.mem_cons_self)
      · exact h.reached j (.inl hseen)
    · exact h.reached j (.inr (List.mem_cons_of_mem i hpending))
  mem_fired_iff := by
    intro j
    rw [h.mem_fired_iff j, List.mem_cons]
    constructor
    · rintro ⟨hseen, hj⟩
      exact ⟨.inr hseen, hj⟩
    · rintro ⟨rfl | hseen, hj⟩
      · exact (h.mem_fired_iff j).1 (hfired hj)
      · exact ⟨hseen, hj⟩
  mem_followed_iff := h.mem_followed_iff
  closed := fun j hj k l hjoins => seen_or_pending_of_arrival (h.closed j hj k l hjoins)
  rail := fun j hj => seen_or_pending_of_arrival (h.rail j hj)

/-- Power arrives at a block that passes it on now: the wires behind the block are followed, and the
blocks they lead to become pending. -/
theorem fire (h : n.Spreading unfired flow (i :: pending)) (hblock : n.blocks[i]? = some b)
    (hunfired : i ∈ unfired) (hfires : b.fires) :
    n.Spreading (unfired.erase i)
      { arrivals := i :: flow.arrivals, fired := i :: flow.fired,
        followed := ((n.outgoing b.id).map (·.1)).reverse ++ flow.followed }
      ((n.outgoing b.id).map (·.2) ++ pending) where
  nodup := h.nodup.erase i
  mem_unfired_iff := by
    intro j hj
    rw [h.nodup.mem_erase_iff, h.mem_unfired_iff j hj, List.mem_cons, not_or]
  reached := by
    have hi : n.Reached i := h.reached i (.inr List.mem_cons_self)
    rintro j (hseen | hpending)
    · rcases List.mem_cons.1 hseen with rfl | hseen
      · exact hi
      · exact h.reached j (.inl hseen)
    · rcases List.mem_append.1 hpending with hout | hpending
      · obtain ⟨⟨k, l⟩, hmem, rfl⟩ := List.mem_map.1 hout
        exact hi.joined ⟨b, hblock, hfires⟩ ⟨b, hblock, hmem⟩
      · exact h.reached j (.inr (List.mem_cons_of_mem i hpending))
  mem_fired_iff := by
    intro j
    rw [List.mem_cons, List.mem_cons, h.mem_fired_iff j]
    constructor
    · rintro (rfl | ⟨hseen, hj⟩)
      · exact ⟨.inl rfl, b, hblock, hfires⟩
      · exact ⟨.inr hseen, hj⟩
    · rintro ⟨rfl | hseen, hj⟩
      · exact .inl rfl
      · exact .inr ⟨hseen, hj⟩
  mem_followed_iff := by
    intro k
    have hhere : k ∈ ((n.outgoing b.id).map (·.1)).reverse ↔ ∃ j, n.Joins i k j := by
      simp [Joins, hblock]
    rw [List.mem_append, hhere, h.mem_followed_iff k]
    simp only [List.mem_cons, exists_eq_or_imp]
  closed := by
    intro j hj k l hjoins
    rcases List.mem_cons.1 hj with rfl | hj
    · obtain ⟨b', hblock', hout⟩ := hjoins
      obtain rfl : b' = b := Option.some.inj (hblock'.symm.trans hblock)
      exact .inr (List.mem_append_left _ (List.mem_map_of_mem hout))
    · exact (seen_or_pending_of_arrival (h.closed j hj k l hjoins)).imp_right
        (List.mem_append_right _)
  rail := fun j hj => (seen_or_pending_of_arrival (h.rail j hj)).imp_right (List.mem_append_right _)

/-- The order in which power spreads does not matter: whatever is unfired and pending, the invariant
holds until nothing is pending. -/
theorem spread (h : n.Spreading unfired flow pending) :
    ∃ left, n.Spreading left (n.spread unfired flow pending) [] := by
  fun_induction Network.spread n unfired flow pending with
  | case1 unfired flow => exact ⟨unfired, h⟩
  | case2 unfired flow i pending arrived hnone ih =>
    refine ih (h.arrive ?_)
    rintro ⟨b, hblock, -⟩
    rw [hnone] at hblock
    cases hblock
  | case3 unfired flow i pending arrived b hblock hcond out ih =>
    exact ih (h.fire hblock hcond.1 hcond.2)
  | case4 unfired flow i pending arrived b hblock hcond ih =>
    refine ih (h.arrive ?_)
    rintro ⟨b', hblock', hb⟩
    obtain rfl : b' = b := Option.some.inj (hblock'.symm.trans hblock)
    -- A block that fires and is not unfired any more has fired before.
    by_contra hnot
    have hbound := (List.getElem?_eq_some_iff.1 hblock).1
    exact hcond ⟨(h.mem_unfired_iff i hbound).2 hnot, hb⟩

end Spreading

/-- When nothing is pending, every block that power reaches has been seen. -/
theorem Spreading.mem_arrivals_iff {n : Network} {unfired : List Nat} {flow : Flow}
    (h : n.Spreading unfired flow []) (i : Nat) : i ∈ flow.arrivals ↔ n.Reached i := by
  refine ⟨fun hseen => h.reached i (.inl hseen), ?_⟩
  intro hreached
  -- By the way that power takes: what was seen is closed under it.
  induction hreached with
  | rail hblock hrail => simpa using h.rail _ (mem_rail.2 ⟨_, hblock, hrail⟩)
  | @wire i j b w _ hblock hfires hwire hsource htarget ih =>
    have hfired := (h.mem_fired_iff i).2 ⟨ih, b, hblock, hfires⟩
    obtain ⟨k, hk⟩ := List.getElem?_of_mem hwire
    have hexists := holder?_isSome_of_ids (ids_of_block hblock)
    simpa using h.closed i hfired k j
      ⟨b, hblock, mem_outgoing.2 ⟨w, hk, hsource, hexists, htarget⟩⟩

theorem spreading_flow (n : Network) : ∃ left, n.Spreading left n.flow [] :=
  (Spreading.start n).spread

theorem mem_arrivals_flow {n : Network} {i : Nat} : i ∈ n.flow.arrivals ↔ n.Reached i := by
  obtain ⟨left, h⟩ := n.spreading_flow
  exact h.mem_arrivals_iff i

theorem mem_fired_flow {n : Network} {i : Nat} :
    i ∈ n.flow.fired ↔ n.Reached i ∧ n.FiresAt i := by
  obtain ⟨left, h⟩ := n.spreading_flow
  rw [h.mem_fired_iff i, h.mem_arrivals_iff i]

theorem mem_followed_flow {n : Network} {k : Nat} :
    k ∈ n.flow.followed ↔ ∃ i, (n.Reached i ∧ n.FiresAt i) ∧ ∃ j, n.Joins i k j := by
  obtain ⟨left, h⟩ := n.spreading_flow
  rw [h.mem_followed_iff k]
  simp only [h.mem_fired_iff, h.mem_arrivals_iff]

end Network

end LadderMonitor
