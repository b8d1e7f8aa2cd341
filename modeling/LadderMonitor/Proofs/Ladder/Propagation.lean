import LadderMonitor.Proofs.Ladder.Display
import Mathlib.Data.List.Nodup
import Mathlib.Data.List.Perm.Subperm

namespace LadderMonitor

namespace Flow

/-- Power arrives at a block and stays there. -/
def arrive (i : Nat) (flow : Flow) : Flow := { flow with arrivals := i :: flow.arrivals }

/-- Power arrives at a block and goes on along wires. -/
def fire (i : Nat) (along : List Nat) (flow : Flow) : Flow where
  arrivals := i :: flow.arrivals
  fired := i :: flow.fired
  followed := along.reverse ++ flow.followed

end Flow

namespace Network

/-- The wires that leave the block at a position, and the blocks they lead to. -/
def exits (n : Network) (i : Nat) : List (Nat × Nat) :=
  match n.blocks[i]? with
  | some b => n.outgoing b.id
  | none => []

/-- Power arrives at pending blocks, one after the other. A block that passes power on, and has not
done so before, lets it arrive at all blocks behind it before the next pending block has its turn:
these propagations nest as deep as the wiring leads, and share what has been fired so far. -/
inductive Propagates (n : Network) : Flow → List Nat → Flow → Prop where
  | done {flow : Flow} : Propagates n flow [] flow
  | stay {flow last : Flow} {i : Nat} {pending : List Nat}
      (hstays : n.FiresAt i → i ∈ flow.fired) (hrest : Propagates n (flow.arrive i) pending last) :
      Propagates n flow (i :: pending) last
  | fire {flow inside last : Flow} {i : Nat} {pending : List Nat} (hfires : n.FiresAt i)
      (hnew : i ∉ flow.fired)
      (hinside : Propagates n (flow.fire i ((n.exits i).map (·.1))) ((n.exits i).map (·.2)) inside)
      (hrest : Propagates n inside pending last) : Propagates n flow (i :: pending) last

/-- The blocks that have not passed power on. -/
def unfired (n : Network) (flow : Flow) : List Nat :=
  (List.range n.blocks.length).filter (· ∉ flow.fired)

variable {n : Network} {flow last : Flow} {pending : List Nat} {i : Nat}

theorem lt_of_firesAt (h : n.FiresAt i) : i < n.blocks.length := by
  obtain ⟨b, hblock, -⟩ := h
  exact (List.getElem?_eq_some_iff.1 hblock).1

theorem Propagates.fired_subset (h : n.Propagates flow pending last) :
    flow.fired ⊆ last.fired := by
  induction h with
  | done => exact fun _ hj => hj
  | stay _ _ ih => exact ih
  | fire _ _ _ _ ihinside ihrest =>
    exact fun j hj => ihrest (ihinside (List.mem_cons_of_mem _ hj))

theorem Propagates.length_unfired_le (h : n.Propagates flow pending last) :
    (n.unfired last).length ≤ (n.unfired flow).length := by
  refine (List.monotone_filter_right _ fun j hj => ?_).length_le
  simp only [decide_not, Bool.not_eq_true', decide_eq_false_iff_not] at hj ⊢
  exact fun hfired => hj (h.fired_subset hfired)

theorem mem_unfired {j : Nat} :
    j ∈ n.unfired flow ↔ j < n.blocks.length ∧ j ∉ flow.fired := by
  rw [unfired, List.mem_filter, List.mem_range, decide_eq_true_iff]

theorem unfired_fire (along : List Nat) :
    n.unfired (flow.fire i along) = (n.unfired flow).erase i := by
  have hnodup : (n.unfired flow).Nodup := List.nodup_range.filter _
  rw [hnodup.erase_eq_filter, unfired, unfired, List.filter_filter]
  refine List.filter_congr fun j _ => ?_
  simp only [Flow.fire, List.mem_cons, not_or, Bool.decide_and, decide_not]
  rfl

theorem length_unfired_fire (hfires : n.FiresAt i) (hnew : i ∉ flow.fired) (along : List Nat) :
    (n.unfired (flow.fire i along)).length < (n.unfired flow).length := by
  have hmem : i ∈ n.unfired flow := mem_unfired.2 ⟨lt_of_firesAt hfires, hnew⟩
  have hlength := List.length_erase_of_mem hmem
  have hpos := List.length_pos_of_mem hmem
  rw [unfired_fire]
  omega

/-- Power that spreads comes to an end: whatever nests, the blocks that have not passed power on
become fewer with each one that does. -/
theorem exists_propagates (n : Network) (flow : Flow) (pending : List Nat) :
    ∃ last, n.Propagates flow pending last := by
  match pending with
  | [] => exact ⟨flow, .done⟩
  | i :: pending =>
    by_cases hfires : n.FiresAt i ∧ i ∉ flow.fired
    · obtain ⟨hfires, hnew⟩ := hfires
      have hfewer := length_unfired_fire hfires hnew ((n.exits i).map (·.1))
      obtain ⟨inside, hinside⟩ := exists_propagates n (flow.fire i ((n.exits i).map (·.1)))
        ((n.exits i).map (·.2))
      have hinsideFewer := hinside.length_unfired_le
      obtain ⟨last, hrest⟩ := exists_propagates n inside pending
      exact ⟨last, .fire hfires hnew hinside hrest⟩
    · obtain ⟨last, hrest⟩ := exists_propagates n (flow.arrive i) pending
      exact ⟨last, .stay (fun h => by_contra fun hnew => hfires ⟨h, hnew⟩) hrest⟩
termination_by ((n.unfired flow).length, pending.length)
decreasing_by
  · exact Prod.Lex.left _ _ hfewer
  · exact Prod.Lex.left _ _ (Nat.lt_of_le_of_lt hinsideFewer hfewer)
  · exact Prod.Lex.right _ (by simp)

/-- One list of pending blocks, in which those behind a block stand before the others, makes power
spread as it propagates. -/
theorem Propagates.spread (h : n.Propagates flow pending last) (others : List Nat) :
    n.spread (n.unfired flow) flow (pending ++ others) =
      n.spread (n.unfired last) last others := by
  induction h generalizing others with
  | done => rfl
  | @stay flow last i pending hstays _ ih =>
    refine Eq.trans ?_ (ih others)
    rw [List.cons_append, Network.spread]
    split
    · rfl
    · rename_i b hblock
      have hnot : ¬ (i ∈ n.unfired flow ∧ b.fires) := by
        rintro ⟨hunfired, hb⟩
        exact (mem_unfired.1 hunfired).2 (hstays ⟨b, hblock, hb⟩)
      rw [if_neg hnot]
      rfl
  | @fire flow inside last i pending hfires hnew _ _ ihinside ihrest =>
    refine Eq.trans ?_ ((ihinside (pending ++ others)).trans (ihrest others))
    have hunfired : i ∈ n.unfired flow := mem_unfired.2 ⟨lt_of_firesAt hfires, hnew⟩
    obtain ⟨b, hblock, hb⟩ := hfires
    have hexits : n.exits i = n.outgoing b.id := by rw [exits, hblock]
    rw [List.cons_append, Network.spread, hblock, hexits, unfired_fire]
    simp only [hunfired, hb, and_self, if_true]
    rfl

/-- However power propagates from the rail, it ends in the flow of the network. -/
theorem Propagates.eq_flow (h : n.Propagates {} n.rail last) : last = n.flow := by
  have hnone : n.unfired {} = List.range n.blocks.length :=
    List.filter_eq_self.2 fun _ _ => decide_eq_true List.not_mem_nil
  have hspread := h.spread []
  rw [List.append_nil, Network.spread, hnone] at hspread
  exact hspread.symm

theorem propagates_flow (n : Network) : n.Propagates {} n.rail n.flow := by
  obtain ⟨last, h⟩ := n.exists_propagates {} n.rail
  rwa [← h.eq_flow]

theorem Propagates.nodup_fired (h : n.Propagates flow pending last) (hnodup : flow.fired.Nodup) :
    last.fired.Nodup := by
  induction h with
  | done => exact hnodup
  | stay _ _ ih => exact ih hnodup
  | fire _ hnew _ _ ihinside ihrest => exact ihrest (ihinside (List.nodup_cons.2 ⟨hnew, hnodup⟩))

/-- The wires that power has followed are those behind the blocks that passed it on, once for each
of these. -/
def Traced (n : Network) (flow : Flow) : Prop :=
  flow.followed = flow.fired.flatMap fun i => ((n.exits i).map (·.1)).reverse

theorem Propagates.traced (h : n.Propagates flow pending last) (htraced : n.Traced flow) :
    n.Traced last := by
  induction h with
  | done => exact htraced
  | stay _ _ ih => exact ih htraced
  | fire _ _ _ _ ihinside ihrest =>
    refine ihrest (ihinside ?_)
    unfold Traced at htraced ⊢
    rw [Flow.fire, htraced, List.flatMap_cons]

/-- Power arrives once at each pending block, and once for each wire that it follows. -/
theorem Propagates.length_arrivals (h : n.Propagates flow pending last) :
    last.arrivals.length + flow.followed.length =
      flow.arrivals.length + pending.length + last.followed.length := by
  induction h with
  | done => rfl
  | stay _ _ ih =>
    simp only [Flow.arrive, List.length_cons] at ih ⊢
    omega
  | fire _ _ _ _ ihinside ihrest =>
    simp only [Flow.fire, List.length_cons, List.length_append, List.length_reverse,
      List.length_map] at ihinside ihrest ⊢
    omega

theorem mem_exits {k j : Nat} : (k, j) ∈ n.exits i ↔ n.Joins i k j := by
  unfold exits Joins
  cases n.blocks[i]? <;> simp

theorem nodup_outgoing (n : Network) (id : String) : ((n.outgoing id).map (·.1)).Nodup := by
  rw [outgoing, List.Nodup, List.pairwise_map, List.pairwise_filterMap, List.pairwise_iff_getElem]
  intro a b ha hb hab out hout out' hout' heq
  have hposition {e : Wire × Nat} {out : Nat × Nat}
      (h : (if e.1.source = id && (n.holder? id).isSome then
        (n.holder? e.1.target).map fun i => (e.2, i) else none) = some out) : out.1 = e.2 := by
    split at h
    · obtain ⟨_, -, rfl⟩ := Option.map_eq_some_iff.1 h
      rfl
    · cases h
  have hsame := (hposition hout).symm.trans (heq.trans (hposition hout'))
  simp only [List.getElem_zipIdx] at hsame
  omega

/-- When ids are distinct, no wire leaves two blocks. -/
theorem nodup_exits (hids : n.ids.Nodup) {blocks : List Nat} (hblocks : blocks.Nodup) :
    (blocks.flatMap fun i => ((n.exits i).map (·.1)).reverse).Nodup := by
  refine List.nodup_flatMap.2 ⟨fun i _ => ?_, hblocks.imp ?_⟩
  · rw [List.nodup_reverse, exits]
    split
    · exact n.nodup_outgoing _
    · exact List.nodup_nil
  · intro i j hij k hk hk'
    obtain ⟨⟨_, _⟩, hexit, rfl⟩ := List.mem_map.1 (List.mem_reverse.1 hk)
    obtain ⟨⟨_, _⟩, hexit', hsame⟩ := List.mem_map.1 (List.mem_reverse.1 hk')
    obtain rfl := hsame
    obtain ⟨b, hblock, hout⟩ := mem_exits.1 hexit
    obtain ⟨b', hblock', hout'⟩ := mem_exits.1 hexit'
    obtain ⟨w, hwire, hsource, -⟩ := mem_outgoing.1 hout
    obtain ⟨w', hwire', hsource', -⟩ := mem_outgoing.1 hout'
    obtain rfl : w = w' := Option.some.inj (hwire.symm.trans hwire')
    have hid := ids_of_block hblock
    rw [← hsource, hsource', ← ids_of_block hblock'] at hid
    have hbound := (List.getElem?_eq_some_iff.1 (ids_of_block hblock)).1
    exact hij ((List.getElem?_inj hbound hids).1 hid)

/-- How power has propagated from the rail when it has come to an end: in the only way there is,
with no block that passed it on twice and, if ids are distinct, no wire that it took twice. -/
structure Propagation (n : Network) (flow : Flow) : Prop where
  propagates : n.Propagates {} n.rail flow
  unique : ∀ other, n.Propagates {} n.rail other → other = flow
  fired : flow.fired.Nodup
  followed : n.ids.Nodup → flow.followed.Nodup
  arrivals : n.ids.Nodup → flow.arrivals.length ≤ n.rail.length + n.wires.length

theorem propagation_flow (n : Network) : n.Propagation n.flow := by
  have hpropagates := n.propagates_flow
  have hfired := hpropagates.nodup_fired List.nodup_nil
  have htraced : n.Traced n.flow := hpropagates.traced rfl
  have hfollowed (hids : n.ids.Nodup) : n.flow.followed.Nodup := by
    rw [htraced]
    exact nodup_exits hids hfired
  refine ⟨hpropagates, fun other h => h.eq_flow, hfired, hfollowed, fun hids => ?_⟩
  have hsubset : n.flow.followed ⊆ List.range n.wires.length := by
    intro k hk
    obtain ⟨i, -, j, b, -, hout⟩ := mem_followed_flow.1 hk
    obtain ⟨w, hwire, -⟩ := mem_outgoing.1 hout
    exact List.mem_range.2 (List.getElem?_eq_some_iff.1 hwire).1
  have hbound := ((hfollowed hids).subperm hsubset).length_le
  have hcount := hpropagates.length_arrivals
  simp only [List.length_range, List.length_nil] at hbound hcount
  omega

/-- From the contacts on the rail power propagates to an end, on any wiring and whatever blocks are
active, and always to the same. No block passes power on twice; if ids are distinct, no wire is
followed twice, so power arrives somewhere at most once for each contact on the rail and each wire.
What an evaluation shows is where one such propagation has led. -/
theorem propagation_ends (n : Network) :
    n.Propagation n.flow ∧ ∀ p memory shown, n.evaluate p memory = (shown, none) →
      ∃ fresh : Network, fresh.bare = n.bare ∧ fresh.Propagation fresh.flow ∧
        shown = fresh.display fresh.flow := by
  refine ⟨n.propagation_flow, fun p memory shown heval => ?_⟩
  obtain ⟨fresh, rfl, -⟩ := exists_display_of_evaluate heval
  have hbare := n.bare_evaluate p memory
  rw [heval, bare_display] at hbare
  exact ⟨fresh, hbare, fresh.propagation_flow, rfl⟩

/-- A contact on the rail and one behind it feed each other and a coil that is wired to itself. -/
def ring : Network where
  name := "ring"
  comment := ""
  blocks := [⟨"a", 0, 0, .contact, false, .normal, "0.0", some { active := true }⟩,
    ⟨"b", 1, 0, .contact, false, .normal, "0.1", some { active := true }⟩,
    ⟨"c", 2, 0, .coil, false, .normal, "", none⟩]
  wires := [⟨"a", "b", none⟩, ⟨"b", "a", none⟩, ⟨"b", "c", none⟩, ⟨"c", "c", none⟩]

/-- The contacts and the coil pass power on in turn, and it comes back to the first contact and to
the coil, which do not pass it on again. -/
theorem flow_ring : ring.flow = ⟨[2, 2, 0, 1, 0], [2, 1, 0], [3, 2, 1, 0]⟩ := by
  have hends : ring.Propagates {} [0] ⟨[2, 2, 0, 1, 0], [2, 1, 0], [3, 2, 1, 0]⟩ := by
    refine .fire ⟨_, rfl, rfl⟩ (by decide) (.fire ⟨_, rfl, rfl⟩ (by decide) ?_ .done) .done
    refine .stay (fun _ => by decide) (.fire ⟨_, rfl, rfl⟩ (by decide) ?_ .done)
    exact .stay (fun _ => by decide) .done
  exact hends.eq_flow.symm

/-- Power arrives at the ring as often as it can. -/
theorem ring_propagation_ends :
    ring.ids.Nodup ∧ ring.Propagation ring.flow ∧
      ring.flow.arrivals.length = ring.rail.length + ring.wires.length ∧
      ∃ shown fresh : Network, ring.evaluate .empty #[3] = (shown, none) ∧ fresh.bare = ring.bare ∧
        fresh.Propagation fresh.flow ∧ shown = fresh.display fresh.flow := by
  have hreturns : (ring.evaluate .empty #[3]).2 = none := by decide +kernel
  rcases heval : ring.evaluate .empty #[3] with ⟨shown, fault⟩
  rw [heval] at hreturns
  obtain rfl : fault = none := hreturns
  obtain ⟨hends, hevaluations⟩ := propagation_ends ring
  obtain ⟨fresh, hfresh⟩ := hevaluations .empty #[3] shown heval
  have hoften : ring.flow.arrivals.length = ring.rail.length + ring.wires.length := by
    rw [flow_ring]
    rfl
  exact ⟨by decide, hends, hoften, shown, fresh, rfl, hfresh⟩

end Network

end LadderMonitor
