import LadderMonitor.Ladder.PowerFlow
import Mathlib.Data.List.Basic

namespace LadderMonitor.Network

/-- Whether some block bears an id. -/
def Bears (n : Network) (id : String) : Prop := ∃ b ∈ n.blocks, b.id = id

/-- The ids of the blocks, by position. -/
def ids (n : Network) : List String := n.blocks.map (·.id)

theorem getElem?_ids_eq_some_iff {n : Network} {i : Nat} {id : String} :
    n.ids[i]? = some id ↔ ∃ b, n.blocks[i]? = some b ∧ b.id = id := by
  simp [ids, Option.map_eq_some_iff]

theorem ids_of_block {n : Network} {i : Nat} {b : Block} (hblock : n.blocks[i]? = some b) :
    n.ids[i]? = some b.id :=
  getElem?_ids_eq_some_iff.2 ⟨b, hblock, rfl⟩

private theorem mem_bearers {n : Network} {id : String} {b : Block} {i : Nat} :
    (b, i) ∈ n.blocks.zipIdx.filter (fun e => e.1.id == id) ↔
      n.blocks[i]? = some b ∧ b.id = id := by
  rw [List.mem_filter, List.mem_zipIdx_iff_getElem?, beq_iff_eq]

private theorem bearers_ordered (n : Network) (id : String) :
    (n.blocks.zipIdx.filter fun e => e.1.id == id).Pairwise fun a b => a.2 < b.2 := by
  apply List.Pairwise.filter
  rw [List.pairwise_iff_getElem]
  intro i j hi hj hij
  simpa using hij

/-- No later block bears the id of a holder. -/
theorem ids_of_holder {n : Network} {id : String} {i : Nat} (hholder : n.holder? id = some i) :
    n.ids[i]? = some id ∧ ∀ j, i < j → n.ids[j]? ≠ some id := by
  obtain ⟨⟨b, i⟩, hlast, rfl⟩ := Option.map_eq_some_iff.1 hholder
  obtain ⟨earlier, hsplit⟩ := List.getLast?_eq_some_iff.1 hlast
  have hmem : (b, i) ∈ n.blocks.zipIdx.filter fun e => e.1.id == id := by simp [hsplit]
  obtain ⟨hblock, hid⟩ := mem_bearers.1 hmem
  refine ⟨getElem?_ids_eq_some_iff.2 ⟨b, hblock, hid⟩, ?_⟩
  intro j hlater hj
  obtain ⟨other, hother, hotherId⟩ := getElem?_ids_eq_some_iff.1 hj
  have hotherMem := mem_bearers.2 ⟨hother, hotherId⟩
  have hordered := bearers_ordered n id
  rw [hsplit] at hotherMem hordered
  rcases List.mem_append.1 hotherMem with hearlier | hsame
  · have hbefore := (List.pairwise_append.1 hordered).2.2 _ hearlier (b, i) (by simp)
    exact absurd hlater (Nat.not_lt.2 (Nat.le_of_lt hbefore))
  · simp only [List.mem_singleton, Prod.mk.injEq] at hsame
    omega

theorem holder?_isSome_of_ids {n : Network} {id : String} {i : Nat} (hid : n.ids[i]? = some id) :
    (n.holder? id).isSome := by
  obtain ⟨b, hblock, hb⟩ := getElem?_ids_eq_some_iff.1 hid
  have hmem := mem_bearers.2 ⟨hblock, hb⟩
  unfold holder?
  rw [Option.isSome_map, List.getLast?_isSome]
  exact List.ne_nil_of_mem hmem

/-- An id stands for the last position whose block bears it. So the table of ids depends on nothing
but the ids of the blocks. -/
theorem holder?_eq_some_iff {n : Network} {id : String} {i : Nat} :
    n.holder? id = some i ↔ n.ids[i]? = some id ∧ ∀ j, i < j → n.ids[j]? ≠ some id := by
  refine ⟨ids_of_holder, ?_⟩
  rintro ⟨hid, hlast⟩
  obtain ⟨j, hj⟩ := Option.isSome_iff_exists.1 (holder?_isSome_of_ids hid)
  obtain ⟨hjId, hjLast⟩ := ids_of_holder hj
  rcases Nat.lt_trichotomy i j with hlt | rfl | hgt
  · exact absurd hjId (hlast j hlt)
  · exact hj
  · exact absurd hid (hjLast i hgt)

theorem holder?_isSome_iff {n : Network} {id : String} :
    (n.holder? id).isSome ↔ n.Bears id := by
  constructor
  · intro hsome
    obtain ⟨i, hi⟩ := Option.isSome_iff_exists.1 hsome
    obtain ⟨b, hblock, hid⟩ := getElem?_ids_eq_some_iff.1 (ids_of_holder hi).1
    exact ⟨b, List.mem_of_getElem? hblock, hid⟩
  · rintro ⟨b, hmem, rfl⟩
    obtain ⟨i, hi⟩ := List.getElem?_of_mem hmem
    exact holder?_isSome_of_ids (ids_of_block hi)

theorem holder?_congr {n n' : Network} (hids : n'.ids = n.ids) : n'.holder? = n.holder? := by
  funext id
  apply Option.ext
  intro i
  rw [holder?_eq_some_iff, holder?_eq_some_iff, hids]

/-- The wires that leave an id are those that name it as their source, as far as both their ends
exist. -/
theorem mem_outgoing {n : Network} {id : String} {k j : Nat} :
    (k, j) ∈ n.outgoing id ↔
      ∃ w, n.wires[k]? = some w ∧ w.source = id ∧ (n.holder? id).isSome ∧
        n.holder? w.target = some j := by
  simp only [outgoing, List.mem_filterMap, Prod.exists, List.mem_zipIdx_iff_getElem?]
  constructor
  · rintro ⟨w, position, hwire, hout⟩
    split at hout
    · rename_i hsource
      simp only [Bool.and_eq_true, decide_eq_true_eq] at hsource
      obtain ⟨target, htarget, heq⟩ := Option.map_eq_some_iff.1 hout
      obtain ⟨rfl, rfl⟩ := Prod.mk.inj heq
      exact ⟨w, hwire, hsource.1, hsource.2, htarget⟩
    · cases hout
  · rintro ⟨w, hwire, hsource, hexists, htarget⟩
    exact ⟨w, k, hwire, by simp [hsource, hexists, htarget]⟩

theorem mem_rail {n : Network} {i : Nat} :
    i ∈ n.rail ↔ ∃ b, n.blocks[i]? = some b ∧ b.onRail := by
  simp [rail, List.mem_zipIdx_iff_getElem?]

/-- The blocks that no wire leads away from are those whose output ends. -/
theorem outgoing_isEmpty_iff {n : Network} {i : Nat} {id : String} (hid : n.ids[i]? = some id) :
    (n.outgoing id).isEmpty ↔ ¬ ∃ w ∈ n.wires, w.source = id ∧ n.Bears w.target := by
  rw [List.isEmpty_iff, List.eq_nil_iff_forall_not_mem, ← not_exists, not_iff_not]
  constructor
  · rintro ⟨⟨k, j⟩, hmem⟩
    obtain ⟨w, hwire, hsource, -, htarget⟩ := mem_outgoing.1 hmem
    exact ⟨w, List.mem_of_getElem? hwire, hsource, holder?_isSome_iff.1 (by simp [htarget])⟩
  · rintro ⟨w, hmem, hsource, htarget⟩
    obtain ⟨k, hk⟩ := List.getElem?_of_mem hmem
    obtain ⟨j, hj⟩ := Option.isSome_iff_exists.1 (holder?_isSome_iff.2 htarget)
    exact ⟨(k, j), mem_outgoing.2 ⟨w, hk, hsource, holder?_isSome_of_ids hid, hj⟩⟩

end LadderMonitor.Network
