import LadderMonitor.Proofs.Monitor.OnePoller

namespace LadderMonitor

namespace Poller

variable {p : Poller} {id : Nat} {t : PollTask}

theorem mem_setPhase_of_ne {phase : Phase} (ht : t ∈ p.tasks) (hne : t.id ≠ id) :
    t ∈ (p.setPhase id phase).tasks :=
  mem_setPhase.2 (.inr ⟨ht, hne⟩)

/-- Stopping does not cancel a task inside a tick. -/
theorem Sound.mem_halt (h : p.Sound) (ht : t ∈ p.tasks) (hticking : t.phase = .ticking) :
    t ∈ p.halt.tasks := by
  unfold Poller.halt
  split
  · exact ht
  · rename_i current _
    split
    · exact ht
    · exact ht
    · rename_i phase hnot hphase
      refine mem_setPhase_of_ne (p := { p with current := none }) ht fun hid => ?_
      obtain ⟨t', hfind, rfl⟩ := Option.map_eq_some_iff.1 hphase
      have hid' : t'.id = current := by simpa using List.find?_some hfind
      rw [h.eq_of_id (List.mem_of_find?_eq_some hfind) ht (hid'.trans hid.symm)] at hnot
      exact hnot hticking

end Poller

namespace Monitor

/-- Whoever waits for a tick is inside it, and inside no other one. -/
structure Attended (m : Monitor) : Prop where
  inside : ∀ tick ∈ m.ticks, ∀ id, tick.owner = some id → ⟨id, .ticking⟩ ∈ m.poller.tasks
  alone : ∀ tick ∈ m.ticks, ∀ tick' ∈ m.ticks, ∀ id, tick.owner = some id →
    tick'.owner = some id → tick = tick'

variable {m m' : Monitor} {v : Move} {id : Nat}

theorem ne_of_asleep (hsound : m.poller.Sound) (hasleep : m.Asleep id) {other : Nat}
    (hticking : ⟨other, .ticking⟩ ∈ m.poller.tasks) : other ≠ id := by
  rintro rfl
  obtain ⟨t, ht, hid, hsleeping⟩ := hasleep
  obtain rfl := hsound.eq_of_id ht hticking hid
  cases hsleeping

namespace Attended

/-- While the ticks stay, only the tasks inside them matter. -/
theorem of_ticks_eq (h : m.Attended) (hticks : m'.ticks = m.ticks)
    (hinside : ∀ tick ∈ m.ticks, ∀ id, tick.owner = some id →
      ⟨id, .ticking⟩ ∈ m.poller.tasks → ⟨id, .ticking⟩ ∈ m'.poller.tasks) : m'.Attended where
  inside := by
    intro tick htick id howner
    rw [hticks] at htick
    exact hinside tick htick id howner (h.inside tick htick id howner)
  alone := by
    rw [hticks]
    exact h.alone

theorem begun (h : m.Attended) (hsound : m.poller.Sound) {tick : Tick}
    (hpoller : tick.owner = none ∧ m'.poller = m.poller ∨
      ∃ id, m.Asleep id ∧ m.poller.current = some id ∧ tick.owner = some id ∧
        m'.poller = m.poller.setPhase id .ticking)
    (hticks : m'.ticks = m.ticks ++ [tick]) : m'.Attended := by
  -- Nobody who is asleep waits for a tick already.
  have hfree {old : Tick} (hold : old ∈ m.ticks) {id : Nat} (howner : old.owner = some id) :
      tick.owner ≠ some id := by
    intro hsame
    rcases hpoller with ⟨hnone, -⟩ | ⟨sleeper, hasleep, -, hsleeper, -⟩
    · rw [hnone] at hsame
      cases hsame
    · rw [hsleeper] at hsame
      obtain rfl := Option.some.inj hsame
      exact ne_of_asleep hsound hasleep (h.inside old hold _ howner) rfl
  constructor
  · intro other hother id howner
    rw [hticks] at hother
    rcases List.mem_append.1 hother with hold | hnew
    · have hticking := h.inside other hold id howner
      rcases hpoller with ⟨-, hpoller⟩ | ⟨sleeper, hasleep, -, -, hpoller⟩
      · rwa [hpoller]
      · rw [hpoller]
        exact Poller.mem_setPhase_of_ne hticking (ne_of_asleep hsound hasleep hticking)
    · rw [List.mem_singleton.1 hnew] at howner
      rcases hpoller with ⟨hnone, -⟩ | ⟨sleeper, ⟨t, ht, hid, -⟩, -, hsleeper, hpoller⟩
      · rw [hnone] at howner
        cases howner
      · rw [hsleeper] at howner
        obtain rfl := Option.some.inj howner
        rw [hpoller]
        exact Poller.mem_setPhase.2 (.inl ⟨t, ht, hid, rfl⟩)
  · intro other hother other' hother' id howner howner'
    rw [hticks] at hother hother'
    rcases List.mem_append.1 hother with hold | hnew <;>
      rcases List.mem_append.1 hother' with hold' | hnew'
    · exact h.alone other hold other' hold' id howner howner'
    · rw [List.mem_singleton.1 hnew'] at howner'
      exact absurd howner' (hfree hold howner)
    · rw [List.mem_singleton.1 hnew] at howner
      exact absurd howner (hfree hold' howner')
    · rw [List.mem_singleton.1 hnew, List.mem_singleton.1 hnew']

theorem struck (h : m.Attended) {ticket : Nat} (hpoller : m'.poller = m.poller)
    (hticks : m'.ticks = m.ticks.map (·.without ticket)) : m'.Attended := by
  constructor
  · intro tick htick id howner
    rw [hticks] at htick
    obtain ⟨old, hold, rfl⟩ := List.mem_map.1 htick
    rw [hpoller]
    exact h.inside old hold id howner
  · intro tick htick tick' htick' id howner howner'
    rw [hticks] at htick htick'
    obtain ⟨old, hold, rfl⟩ := List.mem_map.1 htick
    obtain ⟨old', hold', rfl⟩ := List.mem_map.1 htick'
    rw [h.alone old hold old' hold' id howner howner']

theorem closed (h : m.Attended) {tick : Tick} (hmem : tick ∈ m.ticks)
    (hpoller : tick.owner = none ∧ m'.poller = m.poller ∨
      (∃ id wake, tick.owner = some id ∧ m.poller.current = some id ∧
        m'.poller = m.poller.setPhase id (.sleeping wake)) ∨
      ∃ id, tick.owner = some id ∧ m.poller.current ≠ some id ∧ m'.poller = m.poller.finish id)
    (hticks : m'.ticks = m.ticks.filter (·.id ≠ tick.id)) : m'.Attended := by
  have hkept {other : Tick} (hother : other ∈ m'.ticks) :
      other ∈ m.ticks ∧ ∀ id, other.owner = some id → tick.owner ≠ some id := by
    rw [hticks, List.mem_filter, decide_eq_true_iff] at hother
    refine ⟨hother.1, fun id howner hsame => hother.2 ?_⟩
    rw [h.alone other hother.1 tick hmem id howner hsame]
  constructor
  · intro other hother id howner
    obtain ⟨hold, hapart⟩ := hkept hother
    have hticking := h.inside other hold id howner
    have hne {id' : Nat} (howner' : tick.owner = some id') : id ≠ id' :=
      fun heq => hapart id howner (heq ▸ howner')
    rcases hpoller with ⟨-, hpoller⟩ | ⟨id', wake, howner', -, hpoller⟩ | ⟨id', howner', -, hpoller⟩
    · rwa [hpoller]
    · rw [hpoller]
      exact Poller.mem_setPhase_of_ne hticking (hne howner')
    · rw [hpoller]
      exact Poller.mem_finish.2 ⟨hticking, hne howner'⟩
  · intro other hother other' hother'
    exact h.alone other (hkept hother).1 other' (hkept hother').1

theorem step (h : m.Attended) (hsound : m.poller.Sound) (hstep : PollStep m v m') :
    m'.Attended := by
  cases hstep with
  | kept hpoller hticks =>
    refine h.of_ticks_eq hticks fun _ _ id _ hticking => ?_
    rwa [hpoller]
  | launched _ _ hpoller hticks =>
    refine h.of_ticks_eq hticks fun _ _ id _ hticking => ?_
    rw [hpoller]
    exact Poller.mem_launch.2 (.inl hticking)
  | halted hpoller hticks =>
    refine h.of_ticks_eq hticks fun _ _ id _ hticking => ?_
    rw [hpoller]
    exact hsound.mem_halt hticking rfl
  | settled change _ hpoller hticks hkept =>
    refine h.of_ticks_eq hticks fun _ _ id _ hticking => ?_
    rw [hpoller]
    exact List.mem_filterMap.2 ⟨_, hticking, hkept _ rfl⟩
  | ended sleeper hasleep hpoller hticks =>
    refine h.of_ticks_eq hticks fun _ _ id _ hticking => ?_
    have hfinished : ⟨id, .ticking⟩ ∈ (m.poller.finish sleeper).tasks :=
      Poller.mem_finish.2 ⟨hticking, ne_of_asleep hsound hasleep hticking⟩
    rcases hpoller with hpoller | ⟨-, hpoller⟩ <;> rwa [hpoller]
  | slept sleeper wake hasleep _ hpoller hticks =>
    refine h.of_ticks_eq hticks fun _ _ id _ hticking => ?_
    have hne := ne_of_asleep hsound hasleep hticking
    rw [hpoller]
    exact Poller.mem_setPhase_of_ne (Poller.mem_setPhase_of_ne hticking hne) hne
  | begun tick _ _ hpoller hticks => exact h.begun hsound hpoller hticks
  | struck ticket hpoller hticks => exact h.struck hpoller hticks
  | closed tick hmem hpoller hticks => exact h.closed hmem hpoller hticks

end Attended

end Monitor

end LadderMonitor
