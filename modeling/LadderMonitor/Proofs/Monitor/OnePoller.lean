import LadderMonitor.Proofs.Monitor.PollStep
import LadderMonitor.Proofs.Monitor.Poller
import LadderMonitor.Proofs.Monitor.Reachable

namespace LadderMonitor.Monitor

/-- The poll tasks are in order, a task inside a tick has a tick that waits for its reads, and ticks
are told apart by their numbers. -/
structure Paced (m : Monitor) : Prop where
  poller : m.poller.Sound
  inside : ∀ t ∈ m.poller.tasks, t.phase = .ticking → ∃ tick ∈ m.ticks, tick.owner = some t.id
  numbers : (m.ticks.map (·.id)).Nodup
  numbered : ∀ tick ∈ m.ticks, tick.id < m.nextStamp

/-- Whatever a step does, the poll tasks stay in order. -/
theorem PollStep.sound {m m' : Monitor} {v : Move} (hstep : PollStep m v m')
    (h : m.poller.Sound) : m'.poller.Sound := by
  cases hstep with
  | kept hpoller => rwa [hpoller]
  | launched _ hidle hpoller =>
    rw [hpoller]
    exact h.launch hidle
  | halted hpoller =>
    rw [hpoller]
    exact h.halt
  | settled change hchange hpoller =>
    rw [hpoller]
    exact h.filterMap hchange
  | ended id _ hpoller =>
    rcases hpoller with hpoller | ⟨hcurrent, hpoller⟩
    · rw [hpoller]
      exact h.finish id
    · rw [hpoller]
      exact h.leave hcurrent
  | slept id wake _ hcurrent hpoller =>
    rw [hpoller]
    exact (h.setPhase hcurrent _).setPhase hcurrent _
  | begun _ _ _ hpoller =>
    rcases hpoller with ⟨-, hpoller⟩ | ⟨id, -, hcurrent, -, hpoller⟩
    · rwa [hpoller]
    · rw [hpoller]
      exact h.setPhase hcurrent _
  | struck _ hpoller => rwa [hpoller]
  | closed _ _ hpoller =>
    rcases hpoller with ⟨-, hpoller⟩ | ⟨id, wake, -, hcurrent, hpoller⟩ | ⟨id, -, -, hpoller⟩
    · rwa [hpoller]
    · rw [hpoller]
      exact h.setPhase hcurrent _
    · rw [hpoller]
      exact h.finish id

namespace Paced

variable {m m' : Monitor} {v : Move}

theorem eq_of_number (h : m.Paced) {tick tick' : Tick} (htick : tick ∈ m.ticks)
    (htick' : tick' ∈ m.ticks) (hid : tick.id = tick'.id) : tick = tick' :=
  List.inj_on_of_nodup_map h.numbers htick htick' hid

/-- While the ticks stay, only the phases of tasks matter. -/
theorem of_ticks_eq (h : m.Paced) (hticks : m'.ticks = m.ticks)
    (hstamp : m.nextStamp ≤ m'.nextStamp) (hpoller : m'.poller.Sound)
    (hinside : ∀ t ∈ m'.poller.tasks, t.phase = .ticking → t ∈ m.poller.tasks) : m'.Paced where
  poller := hpoller
  inside := by
    intro t ht hphase
    rw [hticks]
    exact h.inside t (hinside t ht hphase) hphase
  numbers := by rw [hticks]; exact h.numbers
  numbered := by
    intro tick htick
    rw [hticks] at htick
    exact Nat.lt_of_lt_of_le (h.numbered tick htick) hstamp

theorem begun (h : m.Paced) {tick : Tick} (hid : tick.id = m.nextStamp)
    (hstamp : m.nextStamp < m'.nextStamp) (hpoller : m'.poller.Sound)
    (hticks : m'.ticks = m.ticks ++ [tick])
    (hinside : ∀ t ∈ m'.poller.tasks, t.phase = .ticking →
      t ∈ m.poller.tasks ∨ tick.owner = some t.id) : m'.Paced where
  poller := hpoller
  inside := by
    intro t ht hphase
    rw [hticks]
    rcases hinside t ht hphase with hold | howner
    · obtain ⟨tick', htick', howner⟩ := h.inside t hold hphase
      exact ⟨tick', List.mem_append_left _ htick', howner⟩
    · exact ⟨tick, List.mem_append_right _ (List.mem_singleton_self tick), howner⟩
  numbers := by
    rw [hticks, List.map_append, List.nodup_append]
    refine ⟨h.numbers, by simp, ?_⟩
    rintro number hnumber _ hnew rfl
    obtain ⟨tick', htick', rfl⟩ := List.mem_map.1 hnumber
    have hbelow := h.numbered tick' htick'
    simp only [List.map_cons, List.map_nil, List.mem_singleton] at hnew
    omega
  numbered := by
    intro tick' htick'
    rw [hticks] at htick'
    rcases List.mem_append.1 htick' with hold | hnew
    · exact Nat.lt_trans (h.numbered tick' hold) hstamp
    · rw [List.mem_singleton.1 hnew, hid]
      exact hstamp

theorem closed (h : m.Paced) {tick : Tick} (hmem : tick ∈ m.ticks)
    (hstamp : m.nextStamp ≤ m'.nextStamp) (hpoller : m'.poller.Sound)
    (hticks : m'.ticks = m.ticks.filter (·.id ≠ tick.id))
    (hinside : ∀ t ∈ m'.poller.tasks, t.phase = .ticking →
      t ∈ m.poller.tasks ∧ tick.owner ≠ some t.id) : m'.Paced where
  poller := hpoller
  inside := by
    intro t ht hphase
    obtain ⟨hold, hother⟩ := hinside t ht hphase
    obtain ⟨tick', htick', howner⟩ := h.inside t hold hphase
    refine ⟨tick', ?_, howner⟩
    rw [hticks, List.mem_filter]
    refine ⟨htick', ?_⟩
    rw [decide_eq_true_iff]
    intro hid
    rw [h.eq_of_number htick' hmem hid] at howner
    exact hother howner
  numbers := by
    rw [hticks]
    exact h.numbers.sublist (List.filter_sublist.map _)
  numbered := by
    intro tick' htick'
    rw [hticks, List.mem_filter] at htick'
    exact Nat.lt_of_lt_of_le (h.numbered tick' htick'.1) hstamp

theorem struck (h : m.Paced) {ticket : Nat} (hstamp : m.nextStamp ≤ m'.nextStamp)
    (hpoller : m'.poller = m.poller) (hticks : m'.ticks = m.ticks.map (·.without ticket)) :
    m'.Paced where
  poller := by rw [hpoller]; exact h.poller
  inside := by
    intro t ht hphase
    rw [hpoller] at ht
    obtain ⟨tick, htick, howner⟩ := h.inside t ht hphase
    exact ⟨tick.without ticket, by rw [hticks]; exact List.mem_map_of_mem htick, howner⟩
  numbers := by
    rw [hticks, List.map_map]
    exact h.numbers
  numbered := by
    intro tick htick
    rw [hticks] at htick
    obtain ⟨old, hold, rfl⟩ := List.mem_map.1 htick
    exact Nat.lt_of_lt_of_le (h.numbered old hold) hstamp

theorem step (h : m.Paced) (hstep : PollStep m v m') (hstamp : m.nextStamp ≤ m'.nextStamp) :
    m'.Paced := by
  have hsound := hstep.sound h.poller
  cases hstep with
  | kept hpoller hticks =>
    refine h.of_ticks_eq hticks hstamp hsound fun t ht _ => ?_
    rwa [hpoller] at ht
  | launched _ _ hpoller hticks =>
    refine h.of_ticks_eq hticks hstamp hsound fun t ht hphase => ?_
    rw [hpoller] at ht
    rcases Poller.mem_launch.1 ht with ht | rfl
    · exact ht
    · cases hphase
  | halted hpoller hticks =>
    refine h.of_ticks_eq hticks hstamp hsound fun t ht hphase => ?_
    rw [hpoller] at ht
    exact Poller.mem_of_mem_halt ht hphase
  | settled change hchange hpoller hticks =>
    refine h.of_ticks_eq hticks hstamp hsound fun t ht hphase => ?_
    rw [hpoller] at ht
    obtain ⟨old, hold, heq⟩ := List.mem_filterMap.1 ht
    obtain ⟨-, rfl | ⟨-, hsleeping⟩⟩ := hchange old t heq
    · exact hold
    · rw [hphase] at hsleeping
      cases hsleeping
  | ended id _ hpoller hticks =>
    refine h.of_ticks_eq hticks hstamp hsound fun t ht _ => ?_
    have hfinished : t ∈ (m.poller.finish id).tasks := by
      rcases hpoller with hpoller | ⟨-, hpoller⟩ <;> rwa [hpoller] at ht
    exact (Poller.mem_finish.1 hfinished).1
  | slept id wake _ _ hpoller hticks =>
    refine h.of_ticks_eq hticks hstamp hsound fun t ht hphase => ?_
    rw [hpoller] at ht
    rcases Poller.mem_setPhase.1 ht with ⟨_, _, _, rfl⟩ | ⟨ht, hne⟩
    · cases hphase
    · rcases Poller.mem_setPhase.1 ht with ⟨_, _, _, rfl⟩ | ⟨ht, -⟩
      · exact absurd rfl hne
      · exact ht
  | begun tick hid hlater hpoller hticks =>
    refine h.begun hid hlater hsound hticks fun t ht _ => ?_
    rcases hpoller with ⟨-, hpoller⟩ | ⟨id, -, -, howner, hpoller⟩
    · rw [hpoller] at ht
      exact .inl ht
    · rw [hpoller] at ht
      rcases Poller.mem_setPhase.1 ht with ⟨_, _, _, rfl⟩ | ⟨ht, -⟩
      · exact .inr howner
      · exact .inl ht
  | struck ticket hpoller hticks => exact h.struck hstamp hpoller hticks
  | closed tick hmem hpoller hticks =>
    refine h.closed hmem hstamp hsound hticks fun t ht hphase => ?_
    rcases hpoller with ⟨howner, hpoller⟩ | ⟨id, wake, howner, -, hpoller⟩ |
      ⟨id, howner, -, hpoller⟩
    · rw [hpoller] at ht
      exact ⟨ht, by simp [howner]⟩
    · rw [hpoller] at ht
      rcases Poller.mem_setPhase.1 ht with ⟨_, _, _, rfl⟩ | ⟨ht, hne⟩
      · cases hphase
      · exact ⟨ht, by rw [howner]; exact fun heq => hne (Option.some.inj heq).symm⟩
    · rw [hpoller] at ht
      obtain ⟨ht, hne⟩ := Poller.mem_finish.1 ht
      exact ⟨ht, by rw [howner]; exact fun heq => hne (Option.some.inj heq).symm⟩

end Paced

theorem Reachable.paced {m : Monitor} (h : m.Reachable) : m.Paced := by
  induction h with
  | @fresh m hfresh =>
    have hpoller := hfresh.poller
    have hticks := hfresh.ticks
    refine ⟨⟨?_, ?_, ?_, ?_⟩, ?_, ?_, ?_⟩ <;> simp [hpoller, hticks]
  | @move m _ v ih => exact ih.step (m.pollStep_move v) (m.nextStamp_le_move v)

/-- A task was made and is not the current one. -/
structure Stale (m : Monitor) (id : Nat) : Prop where
  known : id < m.poller.nextId
  replaced : m.poller.current ≠ some id

/-- A poll task waits for the reads of the tick with a number. -/
def InTick (m : Monitor) (id number : Nat) : Prop :=
  ∃ tick ∈ m.ticks, tick.id = number ∧ tick.owner = some id

/-- A poll task has ended. -/
def Gone (m : Monitor) (id : Nat) : Prop := ∀ t ∈ m.poller.tasks, t.id ≠ id

/-- A task that is not current is inside a tick, and when the tick is over it has ended. -/
structure Leaving (m : Monitor) (id number : Nat) : Prop where
  stale : m.Stale id
  ticking : ∀ t ∈ m.poller.tasks, t.id = id → t.phase = .ticking
  inside : m.InTick id number ∨ m.Gone id

section Step

variable {m m' : Monitor} {v : Move} {id number : Nat}

/-- The current task stays or is given up, unless a new one is made. -/
theorem PollStep.current_cases (hstep : PollStep m v m') :
    m'.poller.nextId = m.poller.nextId ∧
        (m'.poller.current = m.poller.current ∨ m'.poller.current = none) ∨
      v.starts ∧ m'.poller.nextId = m.poller.nextId + 1 ∧
        m'.poller.current = some m.poller.nextId := by
  cases hstep with
  | launched hstarts _ hpoller => exact .inr ⟨hstarts, by rw [hpoller]; rfl, by rw [hpoller]; rfl⟩
  | kept hpoller => exact .inl ⟨by rw [hpoller], .inl (by rw [hpoller])⟩
  | halted hpoller => exact .inl ⟨by simp [hpoller], .inr (by simp [hpoller])⟩
  | settled _ _ hpoller => exact .inl ⟨by rw [hpoller], .inl (by rw [hpoller])⟩
  | ended _ _ hpoller =>
    rcases hpoller with hpoller | ⟨-, hpoller⟩
    · exact .inl ⟨by rw [hpoller]; rfl, .inl (by rw [hpoller]; rfl)⟩
    · exact .inl ⟨by rw [hpoller]; rfl, .inr (by rw [hpoller])⟩
  | slept _ _ _ _ hpoller => exact .inl ⟨by rw [hpoller]; rfl, .inl (by rw [hpoller]; rfl)⟩
  | begun _ _ _ hpoller =>
    rcases hpoller with ⟨-, hpoller⟩ | ⟨_, -, -, -, hpoller⟩
    · exact .inl ⟨by rw [hpoller], .inl (by rw [hpoller])⟩
    · exact .inl ⟨by rw [hpoller]; rfl, .inl (by rw [hpoller]; rfl)⟩
  | struck _ hpoller => exact .inl ⟨by rw [hpoller], .inl (by rw [hpoller])⟩
  | closed _ _ hpoller =>
    rcases hpoller with ⟨-, hpoller⟩ | ⟨_, _, -, -, hpoller⟩ | ⟨_, -, -, hpoller⟩
    · exact .inl ⟨by rw [hpoller], .inl (by rw [hpoller])⟩
    · exact .inl ⟨by rw [hpoller]; rfl, .inl (by rw [hpoller]; rfl)⟩
    · exact .inl ⟨by rw [hpoller]; rfl, .inl (by rw [hpoller]; rfl)⟩

theorem Stale.step (h : m.Stale id) (hstep : PollStep m v m') : m'.Stale id := by
  rcases hstep.current_cases with ⟨hnext, hcurrent | hcurrent⟩ | ⟨-, hnext, hcurrent⟩
  · exact ⟨hnext ▸ h.known, hcurrent ▸ h.replaced⟩
  · exact ⟨hnext ▸ h.known, by simp [hcurrent]⟩
  · refine ⟨hnext ▸ Nat.lt_succ_of_lt h.known, ?_⟩
    rw [hcurrent]
    intro heq
    exact absurd h.known (by rw [Option.some.inj heq]; exact Nat.lt_irrefl id)

theorem Stale.run (h : m.Stale id) (moves : List Move) : (m.run moves).Stale id := by
  induction moves generalizing m with
  | nil => exact h
  | cons v rest ih => exact ih (h.step (m.pollStep_move v))

/-- Nothing brings a task back that is leaving, and nothing takes it out of its tick but the end of
the tick. -/
theorem Leaving.mem_of_mem (h : m.Leaving id number) (hstep : PollStep m v m') :
    ∀ t ∈ m'.poller.tasks, t.id = id → t ∈ m.poller.tasks := by
  have hother {id' : Nat} (hcurrent : m.poller.current = some id') : id ≠ id' :=
    fun heq => h.stale.replaced (heq ▸ hcurrent)
  have hset {id' : Nat} {phase : Phase} (hcurrent : m.poller.current = some id') {t : PollTask}
      (ht : t ∈ (m.poller.setPhase id' phase).tasks) (hid : t.id = id) : t ∈ m.poller.tasks := by
    rcases Poller.mem_setPhase.1 ht with ⟨_, _, _, rfl⟩ | ⟨ht, -⟩
    · exact absurd hid.symm (hother hcurrent)
    · exact ht
  intro t ht hid
  cases hstep with
  | kept hpoller => rwa [hpoller] at ht
  | launched _ _ hpoller =>
    rw [hpoller] at ht
    rcases Poller.mem_launch.1 ht with ht | rfl
    · exact ht
    · exact absurd h.stale.known (by rw [← hid]; exact Nat.lt_irrefl _)
  | halted hpoller =>
    rw [hpoller] at ht
    exact Poller.mem_of_mem_halt_of_ne ht (hid ▸ h.stale.replaced)
  | settled change hchange hpoller =>
    rw [hpoller] at ht
    obtain ⟨old, hold, heq⟩ := List.mem_filterMap.1 ht
    obtain ⟨hsame, rfl | ⟨hcreated, -⟩⟩ := hchange old t heq
    · exact hold
    · have hticking := h.ticking old hold (hsame ▸ hid)
      rw [hcreated] at hticking
      cases hticking
  | ended _ _ hpoller =>
    rcases hpoller with hpoller | ⟨-, hpoller⟩
    · rw [hpoller] at ht
      exact (Poller.mem_finish.1 ht).1
    · rw [hpoller] at ht
      exact (Poller.mem_finish.1 ht).1
  | slept id' wake _ hcurrent hpoller =>
    rw [hpoller] at ht
    rcases Poller.mem_setPhase.1 ht with ⟨_, _, _, rfl⟩ | ⟨ht, -⟩
    · exact absurd hid.symm (hother hcurrent)
    · exact hset hcurrent ht hid
  | begun _ _ _ hpoller =>
    rcases hpoller with ⟨-, hpoller⟩ | ⟨id', -, hcurrent, -, hpoller⟩
    · rwa [hpoller] at ht
    · rw [hpoller] at ht
      exact hset hcurrent ht hid
  | struck _ hpoller => rwa [hpoller] at ht
  | closed _ _ hpoller =>
    rcases hpoller with ⟨-, hpoller⟩ | ⟨id', wake, -, hcurrent, hpoller⟩ | ⟨id', -, -, hpoller⟩
    · rwa [hpoller] at ht
    · rw [hpoller] at ht
      exact hset hcurrent ht hid
    · rw [hpoller] at ht
      exact (Poller.mem_finish.1 ht).1

/-- A tick with a number stays until it is over, and then a task that waited for it has ended, if it
was not the current one. -/
theorem InTick.step (h : m.InTick id number) (hpaced : m.Paced) (hstale : m.Stale id)
    (hstep : PollStep m v m') : m'.InTick id number ∨ m'.Gone id := by
  obtain ⟨tick, htick, hnumber, howner⟩ := h
  cases hstep with
  | kept _ hticks | launched _ _ _ hticks | halted _ hticks | settled _ _ _ hticks
  | ended _ _ _ hticks | slept _ _ _ _ _ hticks =>
    exact .inl ⟨tick, by rwa [hticks], hnumber, howner⟩
  | begun _ _ _ _ hticks =>
    exact .inl ⟨tick, by rw [hticks]; exact List.mem_append_left _ htick, hnumber, howner⟩
  | struck ticket _ hticks =>
    exact .inl ⟨tick.without ticket, by rw [hticks]; exact List.mem_map_of_mem htick, hnumber,
      howner⟩
  | closed tick' hmem hpoller hticks =>
    -- Only the end of its own tick concerns the task, which is not current then and ends with it.
    by_cases hsame : tick.id = tick'.id
    · obtain rfl := hpaced.eq_of_number htick hmem hsame
      rcases hpoller with ⟨hnobody, -⟩ | ⟨id', _, hother, hcurrent, -⟩ | ⟨id', hother, -, hpoller⟩
      · rw [howner] at hnobody
        cases hnobody
      · rw [howner] at hother
        exact absurd (hother ▸ hcurrent) hstale.replaced
      · rw [howner] at hother
        obtain rfl := Option.some.inj hother
        refine .inr fun t ht => ?_
        rw [hpoller] at ht
        exact (Poller.mem_finish.1 ht).2
    · refine .inl ⟨tick, ?_, hnumber, howner⟩
      rw [hticks, List.mem_filter]
      exact ⟨htick, by simpa using hsame⟩

theorem Leaving.step (h : m.Leaving id number) (hpaced : m.Paced) (hstep : PollStep m v m') :
    m'.Leaving id number where
  stale := h.stale.step hstep
  ticking := fun t ht hid => h.ticking t (h.mem_of_mem hstep t ht hid) hid
  inside := by
    rcases h.inside with hinside | hgone
    · exact hinside.step hpaced h.stale hstep
    · exact .inr fun t ht hid => hgone t (h.mem_of_mem hstep t ht hid) hid

theorem Leaving.run (h : m.Leaving id number) (hreachable : m.Reachable) (moves : List Move) :
    (m.run moves).Leaving id number := by
  induction moves generalizing m with
  | nil => exact h
  | cons v rest ih =>
    exact ih (h.step hreachable.paced (m.pollStep_move v)) (hreachable.move v)

end Step

/-- Among moves there is a start or a registration that makes the task with a number. -/
def Launches (m : Monitor) (moves : List Move) (id : Nat) : Prop :=
  ∃ before v after, moves = before ++ v :: after ∧ v.starts ∧
    (m.run before).poller.nextId = id ∧ ((m.run before).move v).poller.current = some id

/-- A monitor has been told to stop, or the last registration has been removed. -/
def Stops (m m' : Monitor) : Prop :=
  m' = m.stop ∨ (∃ key s, m' = m.unregister key s ∧ m'.registry = []) ∨
    ∃ requester, m' = m.unregisterAll requester ∧ m'.registry = []

variable {m m' : Monitor} {id : Nat}

theorem BeginsTick.current (h : m.BeginsTick id) : m.poller.current = some id := by
  rcases m.goesOn_cases id with ⟨-, hcurrent, -⟩ | ⟨hstay, -⟩
  · exact hcurrent
  · rw [h.2] at hstay
    cases hstay

theorem BeginsTick.lt_nextId (h : m.BeginsTick id) (hpaced : m.Paced) : id < m.poller.nextId :=
  hpaced.poller.current id h.current

theorem launches_of_lt (moves : List Move) (hbefore : m.poller.nextId ≤ id)
    (hafter : id < (m.run moves).poller.nextId) : m.Launches moves id := by
  induction moves generalizing m with
  | nil => exact absurd hafter (Nat.not_lt.2 hbefore)
  | cons v rest ih =>
    rcases (m.pollStep_move v).current_cases with ⟨hnext, -⟩ | ⟨hstarts, hnext, hcurrent⟩
    · obtain ⟨before, v', after, rfl, hfound⟩ := ih (m := m.move v) (hnext ▸ hbefore) hafter
      exact ⟨v :: before, v', after, rfl, hfound⟩
    · rcases Nat.eq_or_lt_of_le hbefore with rfl | hlater
      · exact ⟨[], v, rest, rfl, hstarts, rfl, hcurrent⟩
      · obtain ⟨before, v', after, rfl, hfound⟩ := ih (m := m.move v) (by omega) hafter
        exact ⟨v :: before, v', after, rfl, hfound⟩

theorem current_stopIfIdle (hempty : m.stopIfIdle.registry = []) :
    m.stopIfIdle.poller.current = none := by
  unfold stopIfIdle at hempty ⊢
  split at hempty
  · rename_i hidle
    rw [if_pos hidle]
    exact m.poller.current_halt
  · rename_i hbusy
    simp [hempty] at hbusy

theorem Stops.current (h : m.Stops m') : m'.poller.current = none := by
  rcases h with rfl | ⟨key, s, rfl, hempty⟩ | ⟨requester, rfl, hempty⟩
  · exact m.poller.current_halt
  · exact current_stopIfIdle hempty
  · exact current_stopIfIdle hempty

theorem Stops.reachable (h : m.Stops m') (hreachable : m.Reachable) : m'.Reachable := by
  rcases h with rfl | ⟨key, s, rfl, -⟩ | ⟨requester, rfl, -⟩
  · exact hreachable.move .stop
  · exact hreachable.move (.unregister key s)
  · exact hreachable.move (.unregisterAll requester)

/-- In every state that a monitor gets into, the current task is the only one that can still begin a
tick. Every other one has been told to end, or is inside a tick and has ended when that tick is
over. After polling has been stopped, no task begins a tick but one that a later start or
registration makes.

Moves may come in any order, so this holds for every interleaving of calls, wake-ups, answers and
changes of the predicates, and for calls from inside subscribers and listeners. -/
theorem Reachable.one_poller (h : m.Reachable) :
    (m.poller.tasks.map (·.id)).Nodup ∧
    (∀ t ∈ m.poller.tasks, (∃ moves, (m.run moves).BeginsTick t.id) →
      m.poller.current = some t.id) ∧
    (∀ t ∈ m.poller.tasks, m.poller.current ≠ some t.id →
      t.phase = .cancelled ∨
      t.phase = .ticking ∧ ∃ number, m.InTick t.id number ∧
        ∀ moves, (m.run moves).InTick t.id number ∨ (m.run moves).Gone t.id) ∧
    ∀ m', m.Stops m' → ∀ moves id, (m'.run moves).BeginsTick id → m'.Launches moves id := by
  have hpaced := h.paced
  refine ⟨hpaced.poller.ids, ?_, ?_, ?_⟩
  · rintro t ht ⟨moves, hbegins⟩
    by_contra hreplaced
    have hstale : m.Stale t.id := ⟨hpaced.poller.known t ht, hreplaced⟩
    exact (hstale.run moves).replaced hbegins.current
  · intro t ht hreplaced
    refine (hpaced.poller.stale t ht hreplaced).imp_right fun hticking => ⟨hticking, ?_⟩
    obtain ⟨tick, htick, howner⟩ := hpaced.inside t ht hticking
    have hinside : m.InTick t.id tick.id := ⟨tick, htick, rfl, howner⟩
    have hleaving : m.Leaving t.id tick.id := by
      refine ⟨⟨hpaced.poller.known t ht, hreplaced⟩, fun t' ht' hid => ?_, .inl hinside⟩
      rw [hpaced.poller.eq_of_id ht' ht hid]
      exact hticking
    exact ⟨tick.id, hinside, fun moves => (hleaving.run h moves).inside⟩
  · intro m' hstops moves id hbegins
    have hreachable := hstops.reachable h
    -- A task that was made before the stop stays replaced, so the number is a later one.
    by_cases hknown : id < m'.poller.nextId
    · have hstale : m'.Stale id := ⟨hknown, by simp [hstops.current]⟩
      exact absurd hbegins.current (hstale.run moves).replaced
    · exact launches_of_lt moves (Nat.not_lt.1 hknown)
        (hbegins.lt_nextId (hreachable.run moves).paced)

/-- A monitor that polled one byte, was stopped while its task was inside a tick, and started again:
the first task is inside the tick still, and the second one is new. -/
def restarted : Monitor :=
  (create {} {}).run
    [.register ⟨.named "lamp", ⟨0, 1⟩⟩ (.outside "lamp"), .settle fun _ => true, .wake 0, .stop,
      .start]

theorem restarted_one_poller :
    restarted.poller.tasks = [⟨0, .ticking⟩, ⟨1, .created⟩] ∧ restarted.poller.current = some 1 ∧
      restarted.Reachable ∧
      (¬ ∃ moves, (restarted.run moves).BeginsTick 0) ∧
      ∀ moves id, (restarted.stop.run moves).BeginsTick id → restarted.stop.Launches moves id := by
  have htasks : restarted.poller.tasks = [⟨0, .ticking⟩, ⟨1, .created⟩] := by decide +kernel
  have hcurrent : restarted.poller.current = some 1 := by decide +kernel
  have hreachable : restarted.Reachable := (Reachable.fresh (fresh_create {} {})).run _
  obtain ⟨-, hcan, -, hstopped⟩ := Reachable.one_poller hreachable
  refine ⟨htasks, hcurrent, hreachable, ?_, hstopped restarted.stop (.inl rfl)⟩
  intro hbegins
  have hfirst := hcan ⟨0, .ticking⟩ (by simp [htasks]) hbegins
  simp [hcurrent] at hfirst

end LadderMonitor.Monitor
