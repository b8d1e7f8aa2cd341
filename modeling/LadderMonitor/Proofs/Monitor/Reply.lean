import LadderMonitor.Proofs.Monitor.Delivery
import LadderMonitor.Proofs.Monitor.RoundRobin
import LadderMonitor.Proofs.Polling.Gathering

namespace LadderMonitor.Monitor

/-- What an answer to the read of a batch leaves behind. -/
structure Received (b : Batch Registration) (data : Bytes) (m m' : Monitor) : Prop where
  size : m'.cache.size = m.cache.size
  /-- The cache shows the answer from the start of the batch on, as far as both reach. -/
  stored : ∀ i : Nat, i < m.cache.size → b.start ≤ i → i < b.start + data.size →
    m'.cache[i]? = data[(i - b.start).toNat]?
  kept : ∀ i : Nat, ¬ (b.start ≤ i ∧ i < b.start + data.size) → m'.cache[i]? = m.cache[i]?
  /-- Nothing outside the batch changes, unless the answer is longer than what was asked for. -/
  confined : data.size ≤ b.size → ∀ i : Nat, ¬ b.range.Contains i → m'.cache[i]? = m.cache[i]?
  /-- The registrations are served one after the other, each subscriber once. -/
  calls : m'.calls = m.calls ++ b.items.flatMap (m.servings b.start data)
  /-- The subscribers of a range that the answer covers are called with what the cache shows there,
  as far as it reaches. -/
  coherent : ∀ r ∈ b.items, r.key.range.stop ≤ b.start + data.size →
    m.servings b.start data r =
        (m.subscribersOf r.serial).map (.delivered r.key · (r.share b.start data)) ∧
      (r.share b.start data).size = r.key.range.size ∧
      ∀ i : Nat, i < m.cache.size → r.key.range.Contains i →
        m'.cache[i]? = (r.share b.start data)[(i - r.key.range.start).toNat]?
  /-- Those of other ranges are not called. Such a range stays as it is if the answer ends before
  it. -/
  missed : ∀ r ∈ b.items, b.start + data.size < r.key.range.stop →
    m.servings b.start data r = [] ∧ (b.start + data.size ≤ r.key.range.start →
      ∀ i : Nat, r.key.range.Contains i → m'.cache[i]? = m.cache[i]?)

variable {m : Monitor} {react : Reactor}

/-- The bytes of an answer in the cache, those of the cache elsewhere. -/
theorem getElem?_store (m : Monitor) (start : Int) (data : Bytes) {i : Nat} :
    (m.store start data).cache[i]? =
      if start ≤ i ∧ i < start + data.size ∧ i < m.cache.size then data[(i - start).toNat]?
      else m.cache[i]? := by
  by_cases hi : i < m.cache.size
  · rw [store, Bytes.getElem?_overwrite _ _ _ hi, Array.length_toList, Array.getElem?_toList]
    simp only [hi, and_true]
  · have hbeyond : (m.store start data).cache.size ≤ i := by
      rw [store, Bytes.size_overwrite]
      omega
    rw [if_neg (by omega), Array.getElem?_eq_none hbeyond, Array.getElem?_eq_none (by omega)]

section Share

variable {start : Int} {data : Bytes} {r : Registration} (hstart : start ≤ r.key.range.start)
  (hsize : 0 ≤ r.key.range.size) (hcovered : r.key.range.stop ≤ start + data.size)

include hstart hsize hcovered

theorem size_share : (r.share start data).size = r.key.range.size := by
  unfold ByteRange.stop at hcovered
  rw [Registration.share, Bytes.size_slice data (by omega) hsize (by omega)]
  exact Int.toNat_of_nonneg hsize

/-- A registration finds in its share what the answer holds at the same address. -/
theorem getElem?_share {i : Nat} (hi : r.key.range.Contains i) :
    (r.share start data)[(i - r.key.range.start).toNat]? = data[(i - start).toNat]? := by
  obtain ⟨hfrom, hto⟩ := hi
  unfold ByteRange.stop at hcovered hto
  rw [Registration.share, Bytes.getElem?_slice data (by omega) hsize (by omega), if_pos (by omega)]
  congr 1
  omega

end Share

/-- An answer of any length is stored as it is, and each range that it covers is handed on as the
cache shows it.

Whatever the cache shows outside the answer stays, and so all that is outside the batch does unless
the answer is longer than what was asked for. The subscribers of a range that the answer covers are
each called once with the bytes that the cache shows there now. Those of other ranges are not
called, and only the range in which the answer ends has changed for them. A read that fails changes
nothing and calls nobody. -/
theorem answer_received (haloof : react.Aloof m.reactions) {b : Batch Registration}
    (hcovers : b.Covers (·.key.range)) (hsizes : ∀ r ∈ b.items, 0 < r.key.range.size) :
    (∀ data, Received b data m (m.receive react b (.ok data))) ∧
      ∀ fault, OnlyCalls [] m (m.receive react b (.error fault)) := by
  refine ⟨fun data => ?_, fun fault => onlyCalls_receive_error fault b⟩
  have hcalls := onlyCalls_receive haloof rfl b data
  have hcache (i : Nat) : (m.receive react b (.ok data)).cache[i]? =
      if b.start ≤ i ∧ i < b.start + data.size ∧ i < m.cache.size then data[(i - b.start).toNat]?
      else m.cache[i]? := by
    rw [hcalls.cache]
    exact m.getElem?_store b.start data
  have hkept (i : Nat) (hoff : ¬ (b.start ≤ i ∧ i < b.start + data.size)) :
      (m.receive react b (.ok data)).cache[i]? = m.cache[i]? := by
    rw [hcache, if_neg (by omega)]
  refine ⟨?_, ?_, hkept, ?_, hcalls.calls, ?_, ?_⟩
  · rw [hcalls.cache]
    exact Bytes.size_overwrite _ _ _
  · intro i hi hfrom hto
    rw [hcache, if_pos ⟨hfrom, hto, hi⟩]
  · intro hlength i hoff
    refine hkept i fun hon => hoff ⟨hon.1, ?_⟩
    change (i : Int) < b.start + b.size
    omega
  · intro r hr hcovered
    obtain ⟨hstart, -⟩ := hcovers.inside r hr
    have hsome := hsizes r hr
    refine ⟨?_, ?_, ?_⟩
    · unfold ByteRange.stop at hcovered
      rw [servings, if_neg (by omega)]
    · exact size_share hstart (Int.le_of_lt hsome) hcovered
    · intro i hi hinside
      obtain ⟨hfrom, hto⟩ := hinside
      rw [hcache, if_pos (by omega)]
      exact (getElem?_share hstart (Int.le_of_lt hsome) hcovered ⟨hfrom, hto⟩).symm
  · intro r hr hbeyond
    obtain ⟨hstart, -⟩ := hcovers.inside r hr
    refine ⟨?_, fun hbefore i hi => ?_⟩
    · unfold ByteRange.stop at hbeyond
      rw [servings, if_pos (by omega)]
    · obtain ⟨hfrom, -⟩ := hi
      exact hkept i (by omega)

/-- A monitor of two ranges that share a read, with one more byte in its cache. -/
def hatch : Monitor :=
  (create { cacheSize := 4 } {}).run
    [.register ⟨.named "hatch", ⟨0, 2⟩⟩ (.outside "lamp"),
      .register ⟨.named "door", ⟨2, 1⟩⟩ (.outside "bell")]

def hatchBatch : Batch Registration := ⟨0, 3, hatch.registry⟩

theorem hatch_answer_received :
    hatch.batches = [hatchBatch] ∧ reactor.Aloof hatch.reactions ∧
      Received hatchBatch #[7, 8] hatch (hatch.receive reactor hatchBatch (.ok #[7, 8])) ∧
      (hatch.receive reactor hatchBatch (.ok #[7, 8])).calls =
        [.delivered ⟨.named "hatch", ⟨0, 2⟩⟩ (.outside "lamp") #[7, 8]] := by
  have hbatches : hatch.batches = [hatchBatch] := by decide +kernel
  have haloof : reactor.Aloof hatch.reactions := aloof_reactor (by decide +kernel)
  have hsound : hatch.registry.Sound := ((Reachable.fresh (fresh_create _ {})).run _).sound.registry
  have hmem : hatchBatch ∈ hatch.batches := by
    rw [hbatches]
    exact List.mem_singleton_self hatchBatch
  have hcovers : hatchBatch.Covers (·.key.range) := Registry.covers_of_mem_batches hmem
  have hreceived := answer_received haloof hcovers fun r hr => (hsound.ranges r hr).2
  exact ⟨hbatches, haloof, hreceived.1 _, by decide +kernel⟩

/-- An answer that ends inside a range changes its beginning and calls nobody, and one that is too
long is stored behind the batch. -/
theorem answer_stored_at_its_length :
    hatch.batches = [hatchBatch] ∧ hatch.cache = #[0, 0, 0, 0] ∧
      (hatch.receive reactor hatchBatch (.ok #[7])).cache = #[7, 0, 0, 0] ∧
      (hatch.receive reactor hatchBatch (.ok #[7])).calls = [] ∧
      (hatch.receive reactor hatchBatch (.ok #[7, 8, 9, 5])).cache = #[7, 8, 9, 5] := by
  decide +kernel

end LadderMonitor.Monitor
