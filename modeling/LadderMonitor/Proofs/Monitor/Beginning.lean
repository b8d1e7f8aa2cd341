import LadderMonitor.Monitor.Polling
import LadderMonitor.Proofs.Polling.Rotation

namespace LadderMonitor.Monitor

theorem askReady_eq (m : Monitor) :
    ∃ connected active, m.askReady.2 = { m with connected, active } := by
  unfold askReady
  split
  · rename_i m' heq
    obtain rfl : m' = m.askConnected.2 := by rw [heq]
    exact ⟨_, _, rfl⟩
  · exact ⟨_, m.active, rfl⟩

/-- Reads of batches, with tickets in a row. -/
def readsFrom (ticket : Nat) (batches : List (Batch Registration)) : List PendingRead :=
  (batches.zipIdx ticket).map fun (batch, ticket) => ⟨ticket, batch⟩

theorem readsFrom_cons (ticket : Nat) (batch : Batch Registration)
    (rest : List (Batch Registration)) :
    readsFrom ticket (batch :: rest) = ⟨ticket, batch⟩ :: readsFrom (ticket + 1) rest := by
  simp [readsFrom]

theorem map_batch_readsFrom (ticket : Nat) (batches : List (Batch Registration)) :
    (readsFrom ticket batches).map (·.batch) = batches := by
  induction batches generalizing ticket with
  | nil => rfl
  | cons batch rest ih => rw [readsFrom_cons, List.map_cons, ih]

theorem map_ticket_readsFrom (ticket : Nat) (batches : List (Batch Registration)) :
    (readsFrom ticket batches).map (·.ticket) = List.range' ticket batches.length := by
  induction batches generalizing ticket with
  | nil => rfl
  | cons batch rest ih =>
    rw [readsFrom_cons, List.map_cons, ih, List.length_cons, List.range'_succ]

/-- Batches are asked in order; those without a size are not. -/
theorem askReads_eq (m : Monitor) (batches : List (Batch Registration)) :
    m.askReads batches =
      ({ m with
          nextStamp := m.nextStamp + (batches.filter (0 < ·.size)).length
          journal := ((batches.filter (0 < ·.size)).map
            fun b => .asked b.start b.size).reverse ++ m.journal },
        readsFrom m.nextStamp (batches.filter (0 < ·.size))) := by
  induction batches generalizing m with
  | nil => rfl
  | cons batch rest ih =>
    rw [askReads]
    split
    · rename_i hempty
      have hskipped : ¬ 0 < batch.size := by omega
      rw [ih, List.filter_cons_of_neg (by simpa using hskipped)]
    · rename_i hsize
      have hasked : 0 < batch.size := by omega
      rw [List.filter_cons_of_pos (by simpa using hasked), readsFrom_cons, List.length_cons,
        List.map_cons, List.reverse_cons, List.append_assoc]
      simp only [ih, stamp, note, Nat.add_assoc, Nat.add_comm 1, List.singleton_append]

/-- What asking for a tick leads to: a failure, no tick, or a tick. -/
inductive Begins (owner : Option Nat) (m : Monitor) : Except Fault (Option Tick) → Monitor → Prop
  /-- A predicate fails. -/
  | failed (fault : Fault) (connected active : Option Predicate)
      (hready : m.askReady.1 ≠ .ok true) :
      Begins owner m (.error fault) { m with connected, active }
  /-- There is nothing to ask for, or nobody may ask. -/
  | idle (connected active : Option Predicate)
      (hidle : m.askReady.1 ≠ .ok true ∨ m.registry = []) :
      Begins owner m (.ok none) { m with connected, active }
  /-- The reads of the chosen batches are asked. -/
  | asked (connected active : Option Predicate) (chosen : List (Batch Registration)) (cursor : Int)
      (reads : List (Batch Registration)) (tick : Tick)
      (hready : m.askReady.1 = .ok true) (hregistry : m.registry ≠ [])
      (hselect : Batch.select
        (m.registry.batches m.settings.gapThreshold m.settings.maxBatchSize) m.cursor
        m.settings.maxBatchesPerTick = .ok (chosen, cursor))
      (hreads : reads = chosen.filter (0 < ·.size))
      (htick : tick = ⟨m.nextStamp, owner, readsFrom (m.nextStamp + 1) reads⟩) :
      Begins owner m (.ok (some tick))
        { m with
          connected, active, cursor
          nextStamp := m.nextStamp + 1 + reads.length
          journal := (reads.map fun b => .asked b.start b.size).reverse ++ m.journal
          ticks := m.ticks ++ [tick] }

theorem beginReads_eq (owner : Option Nat) (m : Monitor) :
    ∃ chosen cursor, Batch.select
        (m.registry.batches m.settings.gapThreshold m.settings.maxBatchSize) m.cursor
        m.settings.maxBatchesPerTick = .ok (chosen, cursor) ∧
      m.beginReads owner =
        (.ok ⟨m.nextStamp, owner, readsFrom (m.nextStamp + 1) (chosen.filter (0 < ·.size))⟩,
          { m with
            cursor
            nextStamp := m.nextStamp + 1 + (chosen.filter (0 < ·.size)).length
            journal := ((chosen.filter (0 < ·.size)).map
              fun b => .asked b.start b.size).reverse ++ m.journal }) := by
  obtain ⟨chosen, cursor, hselect⟩ := Batch.exists_select
    (m.registry.batches m.settings.gapThreshold m.settings.maxBatchSize) m.cursor
    m.settings.maxBatchesPerTick
  refine ⟨chosen, cursor, hselect, ?_⟩
  unfold beginReads
  simp only [hselect, askReads_eq, stamp]

theorem beginTick_begins (owner : Option Nat) (m : Monitor) :
    Begins owner m (m.beginTick owner).1 (m.beginTick owner).2 := by
  obtain ⟨connected, active, hasked⟩ := m.askReady_eq
  unfold beginTick
  split
  · rename_i fault m' heq
    rw [heq] at hasked
    subst hasked
    exact .failed fault connected active (by simp [heq])
  · rename_i m' heq
    rw [heq] at hasked
    subst hasked
    exact .idle connected active (.inl (by simp [heq]))
  · rename_i m' heq
    rw [heq] at hasked
    subst hasked
    simp only
    split
    · rename_i hempty
      exact .idle connected active (.inr (by simpa using hempty))
    · rename_i hsome
      obtain ⟨chosen, cursor, hselect, hreads⟩ := beginReads_eq owner { m with connected, active }
      rw [hreads]
      exact .asked connected active chosen cursor _ _ (by rw [heq]) (by simpa using hsome) hselect
        rfl rfl

/-- A task that goes on is the current one, and nothing but the predicates has changed. One that
does not go on ends. -/
theorem goesOn_cases (m : Monitor) (id : Nat) :
    ((m.goesOn id).1 = true ∧ m.poller.current = some id ∧
      ∃ connected active, (m.goesOn id).2 = { m with connected, active }) ∨
    ((m.goesOn id).1 = false ∧ ∃ connected active poller,
      (m.goesOn id).2 = { m with connected, active, poller } ∧
      (poller = m.poller.finish id ∨
        m.poller.current = some id ∧ poller = { m.poller.finish id with current := none })) := by
  obtain ⟨connected, active, hasked⟩ := m.askReady_eq
  unfold goesOn
  split
  · exact .inr ⟨rfl, m.connected, m.active, _, rfl, .inl rfl⟩
  · rename_i hcurrent
    rw [not_not] at hcurrent
    split
    all_goals
      rename_i m' heq
      rw [heq] at hasked
      subst hasked
    · exact .inr ⟨rfl, connected, active, _, rfl, .inl rfl⟩
    · exact .inr ⟨rfl, connected, active, _, rfl, .inr ⟨hcurrent, rfl⟩⟩
    · exact .inl ⟨rfl, hcurrent, connected, active, rfl⟩

/-- What waking up leads to: the task ends, sleeps again, or enters a tick. -/
inductive Wakes (id : Nat) (m : Monitor) : Monitor → Option Tick → Prop where
  | ended (connected active : Option Predicate) (poller : Poller)
      (hpoller : poller = m.poller.finish id ∨
        m.poller.current = some id ∧ poller = { m.poller.finish id with current := none }) :
      Wakes id m { m with connected, active, poller } none
  | slept (connected active : Option Predicate) (journal : List Event) (wake : Nat)
      (hcurrent : m.poller.current = some id)
      (hjournal : journal = m.journal ∨ journal = .reported .pollingFailed :: m.journal) :
      Wakes id m
        { m with
          connected, active, journal
          poller := (m.poller.setPhase id .ticking).setPhase id (.sleeping wake) } none
  | entered (connected active : Option Predicate) {m' : Monitor} (tick : Tick)
      (hcurrent : m.poller.current = some id)
      (hbegins : Begins (some id)
        { m with connected, active, poller := m.poller.setPhase id .ticking }
        (.ok (some tick)) m') :
      Wakes id m m' (some tick)

theorem resume_of_current {m : Monitor} {id : Nat} (hcurrent : m.poller.current = some id) :
    m.resume id = { m with
      poller := m.poller.setPhase id (.sleeping (m.clock + m.settings.interval)) } :=
  if_pos hcurrent

theorem wakeUp_wakes (m : Monitor) (id : Nat) :
    Wakes id m (m.wakeUp id).1 (m.wakeUp id).2 := by
  unfold wakeUp
  rcases m.goesOn_cases id with ⟨hgo, hcurrent, connected, active, heq⟩ |
    ⟨hstay, connected, active, poller, heq, hpoller⟩
  · rw [← Prod.eta (m.goesOn id), hgo, heq]
    have hbegins := beginTick_begins (some id)
      { m with connected, active, poller := m.poller.setPhase id .ticking }
    simp only
    unfold enterTick
    split
    all_goals
      rename_i heq
      rw [heq] at hbegins
    · cases hbegins
      rw [resume_of_current]
      · exact .slept _ _ _ _ hcurrent (.inr rfl)
      · exact hcurrent
    · cases hbegins
      rw [resume_of_current]
      · exact .slept _ _ _ _ hcurrent (.inl rfl)
      · exact hcurrent
    · exact .entered connected active _ hcurrent hbegins
  · rw [← Prod.eta (m.goesOn id), hstay, heq]
    exact .ended connected active poller hpoller

end LadderMonitor.Monitor
