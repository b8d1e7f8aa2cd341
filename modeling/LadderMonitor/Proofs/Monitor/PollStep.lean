import LadderMonitor.Proofs.Monitor.Frame

namespace LadderMonitor.Monitor

/-- Whether a move may make a new poll task. -/
def Move.starts : Move → Bool
  | register .. | start => true
  | _ => false

/-- What a move does to the poll tasks and the ticks. -/
inductive PollStep (m : Monitor) (v : Move) (m' : Monitor) : Prop where
  | kept (hpoller : m'.poller = m.poller) (hticks : m'.ticks = m.ticks)
  /-- A new task is made; nothing polled before. -/
  | launched (hstarts : v.starts) (hidle : m.poller.running = false)
      (hpoller : m'.poller = m.poller.launch) (hticks : m'.ticks = m.ticks)
  | halted (hpoller : m'.poller = m.poller.halt) (hticks : m'.ticks = m.ticks)
  /-- Some tasks end, and some that are new go to sleep. -/
  | settled (change : PollTask → Option PollTask)
      (hchange : ∀ t t', change t = some t' →
        t'.id = t.id ∧ (t' = t ∨ t.phase = .created ∧ t'.phase.isSleeping))
      (hpoller : m'.poller = { m.poller with tasks := m.poller.tasks.filterMap change })
      (hticks : m'.ticks = m.ticks) (hticking : ∀ t, t.phase = .ticking → change t = some t)
  /-- A task that wakes up ends. -/
  | ended (id : Nat) (hasleep : m.Asleep id)
      (hpoller : m'.poller = m.poller.finish id ∨
        m.poller.current = some id ∧ m'.poller = { m.poller.finish id with current := none })
      (hticks : m'.ticks = m.ticks)
  /-- The current task wakes up and sleeps again. -/
  | slept (id wake : Nat) (hasleep : m.Asleep id) (hcurrent : m.poller.current = some id)
      (hpoller : m'.poller = (m.poller.setPhase id .ticking).setPhase id (.sleeping wake))
      (hticks : m'.ticks = m.ticks)
  /-- A tick begins, which the current task waits for or nobody. -/
  | begun (tick : Tick) (hid : tick.id = m.nextStamp) (hstamp : m.nextStamp < m'.nextStamp)
      (hpoller : tick.owner = none ∧ m'.poller = m.poller ∨
        ∃ id, m.Asleep id ∧ m.poller.current = some id ∧ tick.owner = some id ∧
          m'.poller = m.poller.setPhase id .ticking)
      (hticks : m'.ticks = m.ticks ++ [tick])
  | struck (ticket : Nat) (hpoller : m'.poller = m.poller)
      (hticks : m'.ticks = m.ticks.map (·.without ticket))
  /-- A tick is over, and the task that waits for it sleeps again or ends. -/
  | closed (tick : Tick) (hmem : tick ∈ m.ticks)
      (hpoller : tick.owner = none ∧ m'.poller = m.poller ∨
        (∃ id wake, tick.owner = some id ∧ m.poller.current = some id ∧
          m'.poller = m.poller.setPhase id (.sleeping wake)) ∨
        ∃ id, tick.owner = some id ∧ m.poller.current ≠ some id ∧ m'.poller = m.poller.finish id)
      (hticks : m'.ticks = m.ticks.filter (·.id ≠ tick.id))

variable (m : Monitor)

theorem pollStep_start (m : Monitor) : PollStep m .start m.start := by
  unfold start
  split
  · exact .kept rfl rfl
  · rename_i hidle
    simp only [Bool.or_eq_true, not_or, Bool.not_eq_true] at hidle
    exact .launched rfl hidle.1 rfl rfl

theorem pollStep_register (key : RegistrationKey) (s : Subscriber) :
    PollStep m (.register key s) (m.register key s).1 := by
  rcases m.register_cases key s with heq | ⟨-, heq⟩
  · rw [heq]
    exact .kept rfl rfl
  · rw [heq]
    rcases (m.enter key s).startIfActive_cases with heq | ⟨active, heq | heq⟩
    · rw [heq]
      exact .kept rfl rfl
    · rw [heq]
      exact .kept rfl rfl
    · rw [heq]
      unfold start
      split
      · exact .kept rfl rfl
      · rename_i hidle
        simp only [Bool.or_eq_true, not_or, Bool.not_eq_true] at hidle
        exact .launched rfl hidle.1 rfl rfl

theorem pollStep_stopIfIdle {v : Move} {m m' : Monitor} (hpoller : m'.poller = m.poller)
    (hticks : m'.ticks = m.ticks) : PollStep m v m'.stopIfIdle := by
  unfold stopIfIdle
  split
  · exact .halted (by rw [← hpoller]; rfl) hticks
  · exact .kept hpoller hticks

theorem settleTask_eq_some {t t' : PollTask} (hsettled : m.settleTask t = some t') :
    t'.id = t.id ∧ (t' = t ∨ t.phase = .created ∧ t'.phase.isSleeping) := by
  unfold settleTask at hsettled
  split at hsettled
  · cases hsettled
  · rename_i hphase
    split at hsettled
    · cases hsettled
      exact ⟨rfl, .inr ⟨hphase, rfl⟩⟩
    · cases hsettled
  · cases hsettled
    exact ⟨rfl, .inl rfl⟩

theorem pollStep_settle (which : Nat → Bool) :
    PollStep m (.settle which) (m.settleOnly which) := by
  refine .settled _ ?_ rfl rfl ?_
  · intro t t' hchange
    split at hchange
    · exact settleTask_eq_some _ hchange
    · cases hchange
      exact ⟨rfl, .inl rfl⟩
  · intro t hphase
    simp [settleTask, hphase]

theorem pollStep_wakeUp {v : Move} {id : Nat} (hasleep : m.Asleep id) :
    PollStep m v (m.wakeUp id).1 := by
  have hwakes := m.wakeUp_wakes id
  generalize m.wakeUp id = result at hwakes
  rcases result with ⟨m', tick⟩
  cases hwakes with
  | ended connected active poller hpoller => exact .ended id hasleep hpoller rfl
  | slept connected active journal wake hcurrent _ =>
    exact .slept id wake hasleep hcurrent rfl rfl
  | entered connected active tick hcurrent hbegins =>
    cases hbegins with
    | asked connected active chosen cursor reads _ _ _ _ _ htick =>
      refine .begun tick (by rw [htick]) ?_ (.inr ⟨id, hasleep, hcurrent, by rw [htick], rfl⟩) rfl
      simp only
      omega

theorem pollStep_tick {v : Move} : PollStep m v (m.beginTick none).2 := by
  have hbegins := m.beginTick_begins none
  generalize m.beginTick none = result at hbegins
  rcases result with ⟨answer, m'⟩
  cases hbegins with
  | failed => exact .kept rfl rfl
  | idle => exact .kept rfl rfl
  | asked connected active chosen cursor reads tick _ _ _ _ htick =>
    refine .begun tick (by rw [htick]) ?_ (.inl ⟨by rw [htick], rfl⟩) rfl
    simp only
    omega

theorem pollStep_closeTick {v : Move} {tick : Tick} (hmem : tick ∈ m.ticks) :
    PollStep m v (m.closeTick tick) := by
  unfold closeTick resume
  cases howner : tick.owner with
  | none => exact .closed tick hmem (.inl ⟨howner, rfl⟩) rfl
  | some id =>
    simp only
    split
    · rename_i hcurrent
      exact .closed tick hmem (.inr (.inl ⟨id, _, howner, hcurrent, rfl⟩)) rfl
    · rename_i hstale
      exact .closed tick hmem (.inr (.inr ⟨id, howner, hstale, rfl⟩)) rfl

/-- A move does nothing else to the poll tasks and the ticks. -/
theorem pollStep_move (v : Move) : PollStep m v (m.move v) := by
  cases v with
  | register key s => exact m.pollStep_register key s
  | unregister key s => exact pollStep_stopIfIdle rfl rfl
  | unregisterAll requester => exact pollStep_stopIfIdle rfl rfl
  | start => exact m.pollStep_start
  | stop => exact .halted rfl rfl
  | tick => exact m.pollStep_tick
  | settle which => exact m.pollStep_settle which
  | strike ticket => exact .struck ticket rfl rfl
  | listen listener =>
    obtain ⟨listeners, heq⟩ := m.listen_eq listener
    exact .kept (by rw [move, heq]) (by rw [move, heq])
  | wake id =>
    rcases m.move_wake_cases id with heq | ⟨hasleep, heq⟩
    · rw [heq]
      exact .kept rfl rfl
    · rw [heq]
      exact m.pollStep_wakeUp hasleep
  | close tick =>
    rcases m.move_close_cases tick with heq | ⟨hmem, heq⟩
    · rw [heq]
      exact .kept rfl rfl
    · rw [heq]
      exact m.pollStep_closeTick hmem
  | _ => exact .kept rfl rfl

end LadderMonitor.Monitor
