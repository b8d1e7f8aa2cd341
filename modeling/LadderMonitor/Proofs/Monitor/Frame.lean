import LadderMonitor.Proofs.Monitor.Beginning
import LadderMonitor.Proofs.Monitor.Move

namespace LadderMonitor

/-- Whether something done is part of a tick that begins. -/
def Event.opensTick : Event → Bool
  | asked .. | reported .pollingFailed => true
  | _ => false

namespace Monitor

variable (m : Monitor)

theorem start_eq : ∃ poller, m.start = { m with poller } := by
  unfold start
  split
  · exact ⟨_, rfl⟩
  · exact ⟨_, rfl⟩

theorem stopIfIdle_eq : ∃ poller, m.stopIfIdle = { m with poller } := by
  unfold stopIfIdle
  split
  · exact ⟨_, rfl⟩
  · exact ⟨_, rfl⟩

theorem listen_eq (listener : Listener) :
    ∃ listeners, m.listen listener = { m with listeners } := by
  unfold listen
  split
  · exact ⟨_, rfl⟩
  · exact ⟨_, rfl⟩

theorem resume_eq (id : Nat) : ∃ poller, m.resume id = { m with poller } := by
  unfold resume
  split
  · exact ⟨_, rfl⟩
  · exact ⟨_, rfl⟩

theorem closeTick_eq (tick : Tick) :
    ∃ poller, m.closeTick tick =
      { m with poller, ticks := m.ticks.filter (·.id ≠ tick.id) } := by
  unfold closeTick
  split
  · exact ⟨_, rfl⟩
  · exact resume_eq { m with ticks := m.ticks.filter (·.id ≠ tick.id) } _

theorem startIfActive_cases :
    m.startIfActive.1 = m ∨ ∃ active, m.startIfActive.1 = { m with active } ∨
      m.startIfActive.1 = { m with active }.start := by
  unfold startIfActive
  split
  · exact .inl rfl
  · refine .inr ⟨(consult m.active .activeFailed).2, ?_⟩
    simp only [askActive]
    split
    all_goals
      rename_i heq
      obtain ⟨-, rfl⟩ := Prod.mk.inj heq
    · exact .inr rfl
    · exact .inl rfl
    · exact .inl rfl

theorem startIfActive_eq : ∃ active poller, m.startIfActive.1 = { m with active, poller } := by
  rcases m.startIfActive_cases with heq | ⟨active, heq | heq⟩
  · exact ⟨_, _, heq⟩
  · exact ⟨_, _, heq⟩
  · obtain ⟨poller, hstarted⟩ := start_eq { m with active }
    exact ⟨_, _, heq.trans hstarted⟩

theorem register_cases (key : RegistrationKey) (s : Subscriber) :
    (m.register key s).1 = m ∨ (0 ≤ key.range.start ∧ 0 < key.range.size) ∧
      (m.register key s).1 = (m.enter key s).startIfActive.1 := by
  unfold register
  split
  · exact .inl rfl
  · rename_i hrange
    simp only [Bool.or_eq_true, decide_eq_true_eq] at hrange
    exact .inr ⟨by omega, rfl⟩

theorem register_eq (key : RegistrationKey) (s : Subscriber) :
    ∃ active registry poller nextStamp, m.nextStamp ≤ nextStamp ∧
      (m.register key s).1 = { m with active, registry, poller, nextStamp } := by
  rcases m.register_cases key s with heq | ⟨-, heq⟩
  · exact ⟨_, _, _, _, Nat.le_refl _, heq⟩
  · obtain ⟨_, _, hstarted⟩ := (m.enter key s).startIfActive_eq
    exact ⟨_, _, _, _, Nat.le_succ _, heq.trans hstarted⟩

theorem unregister_eq (key : RegistrationKey) (s : Subscriber) :
    ∃ poller, m.unregister key s =
      { m with registry := Registry.remove key s m.registry, poller } :=
  stopIfIdle_eq _

theorem unregisterAll_eq (requester : Requester) :
    ∃ poller, m.unregisterAll requester = { m with
      registry := Registry.removeAll requester m.registry
      retired := Registry.ofRequester requester m.registry ++ m.retired, poller } :=
  stopIfIdle_eq _

theorem move_wake_cases (id : Nat) :
    m.move (.wake id) = m ∨ m.Asleep id ∧ m.move (.wake id) = (m.wakeUp id).1 := by
  by_cases hasleep : m.Asleep id
  · exact .inr ⟨hasleep, if_pos hasleep⟩
  · exact .inl (if_neg hasleep)

theorem move_close_cases (tick : Tick) :
    m.move (.close tick) = m ∨ tick ∈ m.ticks ∧ m.move (.close tick) = m.closeTick tick := by
  by_cases hdue : tick ∈ m.ticks ∧ tick.pending = []
  · exact .inr ⟨hdue.1, if_pos hdue⟩
  · exact .inl (if_neg hdue)

/-- What a call leaves alone. -/
structure Frame (m m' : Monitor) : Prop where
  ticks : m'.ticks = m.ticks
  settings : m'.settings = m.settings
  stamp : m.nextStamp ≤ m'.nextStamp

theorem frame_of_inner {v : Move} (hinner : v.inner) (m : Monitor) : Frame m (m.move v) := by
  cases v with
  | register key s =>
    obtain ⟨_, _, _, _, hstamp, heq⟩ := m.register_eq key s
    rw [move, heq]
    exact ⟨rfl, rfl, hstamp⟩
  | unregister key s =>
    obtain ⟨_, heq⟩ := m.unregister_eq key s
    rw [move, heq]
    exact ⟨rfl, rfl, Nat.le_refl _⟩
  | unregisterAll requester =>
    obtain ⟨_, heq⟩ := m.unregisterAll_eq requester
    rw [move, heq]
    exact ⟨rfl, rfl, Nat.le_refl _⟩
  | start =>
    obtain ⟨_, heq⟩ := m.start_eq
    rw [move, heq]
    exact ⟨rfl, rfl, Nat.le_refl _⟩
  | listen listener =>
    obtain ⟨_, heq⟩ := m.listen_eq listener
    rw [move, heq]
    exact ⟨rfl, rfl, Nat.le_refl _⟩
  | stamp => exact ⟨rfl, rfl, Nat.le_succ _⟩
  | tick | wake | settle | strike | store | close | clock => cases hinner
  | _ => exact ⟨rfl, rfl, Nat.le_refl _⟩

theorem Frame.trans {m m' m'' : Monitor} (h : Frame m m') (h' : Frame m' m'') : Frame m m'' :=
  ⟨h'.ticks.trans h.ticks, h'.settings.trans h.settings, h.stamp.trans h'.stamp⟩

/-- No call moves the cursor, but a reset puts it back. -/
theorem cursor_move_of_inner {v : Move} (hinner : v.inner) (hclear : v ≠ .clear) (m : Monitor) :
    (m.move v).cursor = m.cursor := by
  cases v with
  | register key s =>
    obtain ⟨_, _, _, _, -, heq⟩ := m.register_eq key s
    rw [move, heq]
  | unregister key s =>
    obtain ⟨_, heq⟩ := m.unregister_eq key s
    rw [move, heq]
  | unregisterAll requester =>
    obtain ⟨_, heq⟩ := m.unregisterAll_eq requester
    rw [move, heq]
  | start =>
    obtain ⟨_, heq⟩ := m.start_eq
    rw [move, heq]
  | listen listener =>
    obtain ⟨_, heq⟩ := m.listen_eq listener
    rw [move, heq]
  | clear => exact absurd rfl hclear
  | tick | wake | settle | strike | store | close | clock => cases hinner
  | _ => rfl

variable {m} {m' : Monitor}

theorem Begins.settings {owner : Option Nat} {answer : Except Fault (Option Tick)}
    (h : Begins owner m answer m') : m'.settings = m.settings := by
  cases h <;> rfl

theorem Begins.nextStamp_le {owner : Option Nat} {answer : Except Fault (Option Tick)}
    (h : Begins owner m answer m') : m.nextStamp ≤ m'.nextStamp := by
  cases h with
  | failed => exact Nat.le_refl _
  | idle => exact Nat.le_refl _
  | asked =>
    simp only
    omega

theorem Begins.mem_ticks {owner : Option Nat} {tick : Tick}
    (h : Begins owner m (.ok (some tick)) m') : tick ∈ m'.ticks := by
  cases h
  exact List.mem_append_right _ (List.mem_singleton_self tick)

theorem Wakes.settings {id : Nat} {tick : Option Tick} (h : Wakes id m m' tick) :
    m'.settings = m.settings := by
  cases h with
  | ended => rfl
  | slept => rfl
  | entered _ _ _ _ hbegins => exact hbegins.settings

theorem Wakes.nextStamp_le {id : Nat} {tick : Option Tick} (h : Wakes id m m' tick) :
    m.nextStamp ≤ m'.nextStamp := by
  cases h with
  | ended => exact Nat.le_refl _
  | slept => exact Nat.le_refl _
  | entered _ _ _ _ hbegins => exact hbegins.nextStamp_le

/-- Settings never change, and numbers are given out once. -/
theorem settings_and_nextStamp_move (m : Monitor) (v : Move) :
    (m.move v).settings = m.settings ∧ m.nextStamp ≤ (m.move v).nextStamp := by
  by_cases hinner : v.inner
  · exact ⟨(frame_of_inner hinner m).settings, (frame_of_inner hinner m).stamp⟩
  · cases v with
    | tick =>
      have hbegins := m.beginTick_begins none
      exact ⟨hbegins.settings, hbegins.nextStamp_le⟩
    | wake id =>
      rcases m.move_wake_cases id with heq | ⟨-, heq⟩
      · rw [heq]
        exact ⟨rfl, Nat.le_refl _⟩
      · rw [heq]
        exact ⟨(m.wakeUp_wakes id).settings, (m.wakeUp_wakes id).nextStamp_le⟩
    | close tick =>
      rcases m.move_close_cases tick with heq | ⟨-, heq⟩
      · rw [heq]
        exact ⟨rfl, Nat.le_refl _⟩
      · rw [heq, (m.closeTick_eq tick).choose_spec]
        exact ⟨rfl, Nat.le_refl _⟩
    | settle | strike | store | clock => exact ⟨rfl, Nat.le_refl _⟩
    | _ => exact absurd rfl hinner

theorem settings_move (m : Monitor) (v : Move) : (m.move v).settings = m.settings :=
  (m.settings_and_nextStamp_move v).1

theorem nextStamp_le_move (m : Monitor) (v : Move) : m.nextStamp ≤ (m.move v).nextStamp :=
  (m.settings_and_nextStamp_move v).2

/-- What a move leaves alone, unless that is what it is for. -/
structure Spared (m : Monitor) (v : Move) (m' : Monitor) : Prop where
  reactions : m'.reactions = m.reactions
  display : (∀ display, v ≠ .display display) → m'.display = m.display
  cache : v.writes = false → m'.cache = m.cache
  journal : ∃ events, m'.journal = events ++ m.journal ∧
    ∀ event ∈ events, v = .note event ∨ event.opensTick
  listeners : ∀ listener ∈ m.listeners, v ≠ .unlisten listener → listener ∈ m'.listeners

theorem Spared.of_eq {v : Move} (hreactions : m'.reactions = m.reactions)
    (hdisplay : m'.display = m.display) (hcache : m'.cache = m.cache)
    (hjournal : m'.journal = m.journal) (hlisteners : m'.listeners = m.listeners) :
    Spared m v m' :=
  ⟨hreactions, fun _ => hdisplay, fun _ => hcache, ⟨[], hjournal, by simp⟩,
    fun _ hmem _ => by rwa [hlisteners]⟩

theorem Begins.spared {v : Move} {owner : Option Nat} {answer : Except Fault (Option Tick)}
    (h : Begins owner m answer m') : Spared m v m' := by
  cases h with
  | failed => exact .of_eq rfl rfl rfl rfl rfl
  | idle => exact .of_eq rfl rfl rfl rfl rfl
  | asked connected active chosen cursor reads =>
    refine ⟨rfl, fun _ => rfl, fun _ => rfl, ⟨_, rfl, fun event hevent => .inr ?_⟩,
      fun _ hmem _ => hmem⟩
    obtain ⟨b, -, rfl⟩ := List.mem_map.1 (List.mem_reverse.1 hevent)
    rfl

theorem Wakes.spared {v : Move} {id : Nat} {tick : Option Tick} (h : Wakes id m m' tick) :
    Spared m v m' := by
  cases h with
  | ended => exact .of_eq rfl rfl rfl rfl rfl
  | slept _ _ journal _ _ hjournal =>
    rcases hjournal with rfl | rfl
    · exact .of_eq rfl rfl rfl rfl rfl
    · exact ⟨rfl, fun _ => rfl, fun _ => rfl, ⟨[_], rfl, by simp [Event.opensTick]⟩,
        fun _ hmem _ => hmem⟩
  | entered _ _ _ _ hbegins =>
    have hspared := hbegins.spared (v := v)
    exact ⟨hspared.reactions, hspared.display, hspared.cache, hspared.journal, hspared.listeners⟩

theorem spared_move (m : Monitor) (v : Move) : Spared m v (m.move v) := by
  cases v with
  | register key s =>
    obtain ⟨_, _, _, _, -, heq⟩ := m.register_eq key s
    rw [move, heq]
    exact .of_eq rfl rfl rfl rfl rfl
  | unregister key s =>
    obtain ⟨_, heq⟩ := m.unregister_eq key s
    rw [move, heq]
    exact .of_eq rfl rfl rfl rfl rfl
  | unregisterAll requester =>
    obtain ⟨_, heq⟩ := m.unregisterAll_eq requester
    rw [move, heq]
    exact .of_eq rfl rfl rfl rfl rfl
  | start =>
    obtain ⟨_, heq⟩ := m.start_eq
    rw [move, heq]
    exact .of_eq rfl rfl rfl rfl rfl
  | listen listener =>
    rw [move]
    unfold listen
    split
    · exact .of_eq rfl rfl rfl rfl rfl
    · exact ⟨rfl, fun _ => rfl, fun _ => rfl, ⟨[], rfl, by simp⟩,
        fun _ hmem _ => List.mem_append_left _ hmem⟩
  | unlisten listener =>
    refine ⟨rfl, fun _ => rfl, fun _ => rfl, ⟨[], rfl, by simp⟩, fun other hmem hother => ?_⟩
    exact (List.mem_erase_of_ne fun heq => hother (by rw [heq])).2 hmem
  | note event =>
    exact ⟨rfl, fun _ => rfl, fun _ => rfl, ⟨[event], rfl, by simp⟩, fun _ hmem _ => hmem⟩
  | display display =>
    exact ⟨rfl, fun h => absurd rfl (h display), fun _ => rfl, ⟨[], rfl, by simp⟩,
      fun _ hmem _ => hmem⟩
  | clear | store =>
    exact ⟨rfl, fun _ => rfl, fun hreads => by simp [Move.writes] at hreads, ⟨[], rfl, by simp⟩,
      fun _ hmem _ => hmem⟩
  | tick => exact (m.beginTick_begins none).spared
  | wake id =>
    rcases m.move_wake_cases id with heq | ⟨-, heq⟩
    · rw [heq]
      exact .of_eq rfl rfl rfl rfl rfl
    · rw [heq]
      exact (m.wakeUp_wakes id).spared
  | close tick =>
    rcases m.move_close_cases tick with heq | ⟨-, heq⟩
    · rw [heq]
      exact .of_eq rfl rfl rfl rfl rfl
    · obtain ⟨_, hclosed⟩ := m.closeTick_eq tick
      rw [heq, hclosed]
      exact .of_eq rfl rfl rfl rfl rfl
  | _ => exact .of_eq rfl rfl rfl rfl rfl

end Monitor

end LadderMonitor
