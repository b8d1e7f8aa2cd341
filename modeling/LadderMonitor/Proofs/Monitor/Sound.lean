import LadderMonitor.Proofs.Monitor.Reachable
import LadderMonitor.Proofs.Polling.Registry

namespace LadderMonitor.Monitor

/-- The registrations and listeners are told apart, and so are the reads in flight from those that
will be asked later. -/
structure Sound (m : Monitor) : Prop where
  registry : m.registry.Sound
  serials : ∀ r ∈ m.registry, r.serial < m.nextStamp
  listeners : m.listeners.Nodup
  tickets : ∀ tick ∈ m.ticks, ∀ read ∈ tick.pending, read.ticket < m.nextStamp

variable {m m' : Monitor}

theorem Fresh.sound (h : m.Fresh) : m.Sound where
  registry := by rw [h.registry]; exact Registry.sound_nil
  serials := by simp [h.registry]
  listeners := h.listeners
  tickets := by simp [h.ticks]

namespace Sound

theorem of_eq (h : m.Sound) (hregistry : m'.registry = m.registry)
    (hlisteners : m'.listeners = m.listeners) (hticks : m'.ticks = m.ticks)
    (hstamp : m.nextStamp ≤ m'.nextStamp) : m'.Sound where
  registry := by rw [hregistry]; exact h.registry
  serials := by
    intro r hr
    rw [hregistry] at hr
    exact Nat.lt_of_lt_of_le (h.serials r hr) hstamp
  listeners := by rw [hlisteners]; exact h.listeners
  tickets := by
    intro tick htick read hread
    rw [hticks] at htick
    exact Nat.lt_of_lt_of_le (h.tickets tick htick read hread) hstamp

theorem start (h : m.Sound) : m.start.Sound := by
  obtain ⟨poller, heq⟩ := m.start_eq
  rw [heq]
  exact h.of_eq rfl rfl rfl (Nat.le_refl _)

theorem startIfActive (h : m.Sound) : m.startIfActive.1.Sound := by
  obtain ⟨_, _, heq⟩ := m.startIfActive_eq
  rw [heq]
  exact h.of_eq rfl rfl rfl (Nat.le_refl _)

theorem enter (h : m.Sound) {key : RegistrationKey}
    (hrange : 0 ≤ key.range.start ∧ 0 < key.range.size) (s : Subscriber) :
    (m.enter key s).Sound where
  registry := h.registry.add (fun r hr => Nat.ne_of_lt (h.serials r hr)) hrange
  serials := by
    intro r hr
    rcases Registry.mem_add hr with ⟨old, hold, hserial, -⟩ | rfl
    · rw [hserial]
      exact Nat.lt_succ_of_lt (h.serials old hold)
    · exact Nat.lt_succ_self _
  listeners := h.listeners
  tickets := fun tick htick read hread => Nat.lt_succ_of_lt (h.tickets tick htick read hread)

theorem register (h : m.Sound) (key : RegistrationKey) (s : Subscriber) :
    (m.register key s).1.Sound := by
  rcases m.register_cases key s with heq | ⟨hrange, heq⟩
  · rwa [heq]
  · rw [heq]
    exact (h.enter hrange s).startIfActive

theorem stopIfIdle (h : m.Sound) : m.stopIfIdle.Sound := by
  obtain ⟨poller, heq⟩ := m.stopIfIdle_eq
  rw [heq]
  exact h.of_eq rfl rfl rfl (Nat.le_refl _)

theorem unregister (h : m.Sound) (key : RegistrationKey) (s : Subscriber) :
    (m.unregister key s).Sound := by
  refine stopIfIdle ⟨h.registry.remove key s, ?_, h.listeners, h.tickets⟩
  intro r hr
  obtain ⟨old, hold, hserial, -⟩ := Registry.mem_remove hr
  rw [hserial]
  exact h.serials old hold

theorem unregisterAll (h : m.Sound) (requester : Requester) :
    (m.unregisterAll requester).Sound :=
  stopIfIdle ⟨h.registry.removeAll requester,
    fun r hr => h.serials r (List.mem_of_mem_filter hr), h.listeners, h.tickets⟩

theorem listen (h : m.Sound) (listener : Listener) : (m.listen listener).Sound := by
  unfold Monitor.listen
  split
  · exact h
  · rename_i hnew
    refine ⟨h.registry, h.serials, ?_, h.tickets⟩
    refine List.nodup_append.2 ⟨h.listeners, List.nodup_singleton listener, ?_⟩
    rintro other hother _ hmem rfl
    rw [List.mem_singleton.1 hmem] at hother
    exact hnew hother

theorem unlisten (h : m.Sound) (listener : Listener) : (m.unlisten listener).Sound :=
  ⟨h.registry, h.serials, h.listeners.erase listener, h.tickets⟩

theorem begins (h : m.Sound) {owner : Option Nat} {answer : Except Fault (Option Tick)}
    (hbegins : Begins owner m answer m') : m'.Sound := by
  cases hbegins with
  | failed => exact h.of_eq rfl rfl rfl (Nat.le_refl _)
  | idle => exact h.of_eq rfl rfl rfl (Nat.le_refl _)
  | asked connected active chosen cursor reads tick _ _ _ _ htick =>
    refine ⟨h.registry, fun r hr => ?_, h.listeners, fun tick' htick' read hread => ?_⟩
    · exact Nat.lt_of_lt_of_le (h.serials r hr) (by simp only; omega)
    · rcases List.mem_append.1 htick' with hold | hnew
      · exact Nat.lt_of_lt_of_le (h.tickets tick' hold read hread) (by simp only; omega)
      · rw [List.mem_singleton.1 hnew, htick] at hread
        have hticket := List.mem_map_of_mem (f := PendingRead.ticket) hread
        rw [map_ticket_readsFrom, List.mem_range'_1] at hticket
        exact hticket.2

theorem wakes (h : m.Sound) {id : Nat} {tick : Option Tick} (hwakes : Wakes id m m' tick) :
    m'.Sound := by
  cases hwakes with
  | ended => exact h.of_eq rfl rfl rfl (Nat.le_refl _)
  | slept => exact h.of_eq rfl rfl rfl (Nat.le_refl _)
  | entered _ _ _ _ hbegins =>
    refine begins ?_ hbegins
    exact h.of_eq rfl rfl rfl (Nat.le_refl _)

theorem strike (h : m.Sound) (ticket : Nat) : (m.strike ticket).Sound := by
  refine ⟨h.registry, h.serials, h.listeners, ?_⟩
  intro tick htick read hread
  obtain ⟨old, hold, rfl⟩ := List.mem_map.1 htick
  exact h.tickets old hold read (List.mem_of_mem_filter hread)

theorem closeTick (h : m.Sound) (tick : Tick) : (m.closeTick tick).Sound := by
  obtain ⟨poller, heq⟩ := m.closeTick_eq tick
  rw [heq]
  exact ⟨h.registry, h.serials, h.listeners,
    fun other hother => h.tickets other (List.mem_of_mem_filter hother)⟩

theorem move (h : m.Sound) (v : Move) : (m.move v).Sound := by
  cases v with
  | register key s => exact h.register key s
  | unregister key s => exact h.unregister key s
  | unregisterAll requester => exact h.unregisterAll requester
  | listen listener => exact h.listen listener
  | unlisten listener => exact h.unlisten listener
  | start => exact h.start
  | stamp => exact h.of_eq rfl rfl rfl (Nat.le_succ _)
  | tick => exact h.begins (m.beginTick_begins none)
  | strike ticket => exact h.strike ticket
  | wake id =>
    rcases m.move_wake_cases id with heq | ⟨-, heq⟩
    · rwa [heq]
    · rw [heq]
      exact h.wakes (m.wakeUp_wakes id)
  | close tick =>
    rcases m.move_close_cases tick with heq | ⟨-, heq⟩
    · rwa [heq]
    · rw [heq]
      exact h.closeTick tick
  | _ => exact h.of_eq rfl rfl rfl (Nat.le_refl _)

end Sound

/-- Every monitor that moves lead to is sound. -/
theorem Reachable.sound (h : m.Reachable) : m.Sound := by
  induction h with
  | fresh hfresh => exact hfresh.sound
  | move _ v ih => exact ih.move v

end LadderMonitor.Monitor
