import LadderMonitor.Proofs.Monitor.Monitoring
import LadderMonitor.Proofs.Monitor.Poller
import LadderMonitor.Proofs.Monitor.Turn

namespace LadderMonitor

/-- Whether a command leaves it to the registrations when polling starts and stops. -/
def Command.OnDemand : Command → Prop
  | start | stop => False
  | connected change | active change => ∀ p : Predicate, p.Steady → (change p).Steady
  | _ => True

namespace Poller

/-- Whether the current task, if there is one, is there and has not been told to end. -/
def Alive (p : Poller) : Prop :=
  ∀ id, p.current = some id → ∃ t ∈ p.tasks, t.id = id ∧ t.phase ≠ .cancelled

variable {p : Poller} {id : Nat}

/-- A live poller runs if it relies on a task. -/
theorem Alive.running_eq (h : p.Alive) : p.running = p.current.isSome := by
  unfold running
  cases hcurrent : p.current with
  | none => rfl
  | some id =>
    obtain ⟨t, ht, hid, -⟩ := h id hcurrent
    exact List.any_eq_true.2 ⟨t, ht, by simpa using hid⟩

theorem alive_of_none (hcurrent : p.current = none) : p.Alive := by
  intro id hid
  rw [hcurrent] at hid
  cases hid

theorem alive_launch (p : Poller) : p.launch.Alive := by
  intro id hid
  refine ⟨⟨p.nextId, .created⟩, mem_launch.2 (.inr rfl), Option.some.inj hid, ?_⟩
  simp

theorem Alive.setPhase (h : p.Alive) {phase : Phase} (hphase : phase ≠ .cancelled) :
    (p.setPhase id phase).Alive := by
  intro current hcurrent
  obtain ⟨t, ht, rfl, hlive⟩ := h current hcurrent
  by_cases hid : t.id = id
  · exact ⟨⟨id, phase⟩, mem_setPhase.2 (.inl ⟨t, ht, hid, rfl⟩), hid.symm, hphase⟩
  · exact ⟨t, mem_setPhase.2 (.inr ⟨ht, hid⟩), rfl, hlive⟩

/-- That another task ends does not matter. -/
theorem Alive.finish (h : p.Alive) (hother : p.current ≠ some id) : (p.finish id).Alive := by
  intro current hcurrent
  obtain ⟨t, ht, rfl, hlive⟩ := h current hcurrent
  refine ⟨t, mem_finish.2 ⟨ht, fun hid => hother ?_⟩, rfl, hlive⟩
  rw [← hid]
  exact hcurrent

/-- Tasks may do what they can, as long as those that are not cancelled go on. -/
theorem Alive.filterMap (h : p.Alive) {change : PollTask → Option PollTask}
    (hchange : ∀ t, t.phase ≠ .cancelled →
      ∃ t', change t = some t' ∧ t'.id = t.id ∧ t'.phase ≠ .cancelled) :
    Alive { p with tasks := p.tasks.filterMap change } := by
  intro current hcurrent
  obtain ⟨t, ht, rfl, hlive⟩ := h current hcurrent
  obtain ⟨t', heq, hid, hlive'⟩ := hchange t hlive
  exact ⟨t', List.mem_filterMap.2 ⟨t, ht, heq⟩, hid, hlive'⟩

end Poller

namespace Monitor

/-- Whether the device is connected and stays so. -/
def Connection (m : Monitor) : Prop := ∀ p, m.connected = some p → p.Steady

/-- While the device is connected and monitoring is active, it is found ready, and that stays. -/
theorem Connection.askReady {m : Monitor} (hconnection : m.Connection)
    (hmonitoring : m.Monitoring) :
    ∃ connected active, m.askReady = (.ok true, { m with connected, active }) ∧
      Connection { m with connected, active } ∧ Monitoring { m with connected, active } := by
  have hconnected : ∃ connected, m.askConnected = (.ok true, { m with connected }) ∧
      Connection { m with connected } := by
    unfold askConnected
    cases hp : m.connected with
    | none => exact ⟨none, rfl, fun _ hnone => by cases hnone⟩
    | some p =>
      have hsteady := hconnection p hp
      refine ⟨some p.asked, by simp only [consult, hsteady.reply], fun _ hasked => ?_⟩
      obtain rfl := Option.some.inj hasked
      exact hsteady.asked
  obtain ⟨connected, heq, hkept⟩ := hconnected
  have hactive : Monitoring { m with connected } := hmonitoring
  obtain ⟨hyes, hkept'⟩ := hactive.askActive
  refine ⟨connected, (consult m.active .activeFailed).2, ?_, hkept, hkept'⟩
  unfold Monitor.askReady
  rw [heq]
  exact Prod.ext hyes rfl

/-- While monitoring is active, polling that does not go on yet starts. -/
theorem Monitoring.startIfActive_eq {m : Monitor} (h : m.Monitoring) (hidle : m.running = false)
    (hloop : m.loop = true) :
    ∃ active, Monitoring { m with active } ∧
      m.startIfActive.1 = { m with active, poller := m.poller.launch } := by
  obtain ⟨hyes, hkept⟩ := h.askActive
  refine ⟨(consult m.active .activeFailed).2, hkept, ?_⟩
  have hasked : m.askActive =
      (.ok true, { m with active := (consult m.active .activeFailed).2 }) := Prod.ext hyes rfl
  have hstarts : ¬ (m.running || !m.loop) = true := by simp [hidle, hloop]
  rw [Monitor.startIfActive, if_neg (by simp [hidle]), hasked]
  exact if_neg hstarts

/-- Whether a move leaves it to the registrations when polling starts and stops. -/
def Move.OnDemand : Move → Prop
  | start | stop => False
  | connected predicate | active predicate => ∀ p, predicate = some p → p.Steady
  | _ => True

/-- Polling goes by demand: on a running loop, with the device connected, monitoring active and an
interval that can be slept, there is a live task exactly while something is registered. Nothing is
said of other tasks: one that has been replaced may still be inside a tick. -/
structure OnDemand (m : Monitor) : Prop where
  loop : m.loop = true
  interval : m.settings.intervalSeconds.isOk
  connection : m.Connection
  monitoring : m.Monitoring
  alive : m.poller.Alive
  demand : m.poller.current.isSome ↔ m.registry ≠ []
  gives : m.Gives Command.OnDemand

variable {m m' : Monitor} {id : Nat} {v : Move}

theorem Fresh.onDemand (h : m.Fresh) (hloop : m.loop = true)
    (hinterval : m.settings.intervalSeconds.isOk) (hconnection : m.Connection)
    (hmonitoring : m.Monitoring) (hgives : m.Gives Command.OnDemand) : m.OnDemand where
  loop := hloop
  interval := hinterval
  connection := hconnection
  monitoring := hmonitoring
  alive := by
    rw [h.poller]
    exact Poller.alive_of_none rfl
  demand := by simp [h.poller, h.registry]
  gives := hgives

namespace OnDemand

theorem running_iff (h : m.OnDemand) : m.running = true ↔ m.registry ≠ [] := by
  rw [← h.demand, running, h.alive.running_eq]

/-- Only the tasks, the registry and the predicates matter, besides what never changes. -/
theorem of_eq (h : m.OnDemand) (hloop : m'.loop = m.loop) (hsettings : m'.settings = m.settings)
    (hreactions : m'.reactions = m.reactions) (hconnection : m'.Connection)
    (hmonitoring : m'.Monitoring) (halive : m'.poller.Alive)
    (hdemand : m'.poller.current.isSome ↔ m'.registry ≠ []) : m'.OnDemand where
  loop := hloop.trans h.loop
  interval := by rw [hsettings]; exact h.interval
  connection := hconnection
  monitoring := hmonitoring
  alive := halive
  demand := hdemand
  gives := h.gives.of_eq hreactions

/-- The poll tasks may change as long as the current one lives on. -/
theorem of_poller (h : m.OnDemand) {poller : Poller} (halive : poller.Alive)
    (hcurrent : poller.current = m.poller.current) : OnDemand { m with poller } :=
  h.of_eq rfl rfl rfl h.connection h.monitoring halive (by rw [hcurrent]; exact h.demand)

theorem register (h : m.OnDemand) (key : RegistrationKey) (s : Subscriber) :
    (m.register key s).1.OnDemand := by
  have hsome : (m.enter key s).registry ≠ [] := Registry.add_ne_nil
  have hentered : (m.enter key s).running = m.running := rfl
  rcases m.register_cases key s with heq | ⟨-, heq⟩
  · rwa [heq]
  · rw [heq]
    cases hrunning : m.running with
    | true =>
      rw [Monitor.startIfActive, if_pos (hentered.trans hrunning)]
      refine h.of_eq rfl rfl rfl h.connection h.monitoring h.alive ?_
      have hcurrent : m.poller.current.isSome := by rwa [← h.alive.running_eq]
      exact ⟨fun _ => hsome, fun _ => hcurrent⟩
    | false =>
      have hactive : (m.enter key s).Monitoring := h.monitoring
      obtain ⟨active, hkept, hstarted⟩ := hactive.startIfActive_eq (hentered.trans hrunning) h.loop
      rw [hstarted]
      refine h.of_eq rfl rfl rfl h.connection hkept (Poller.alive_launch _) ?_
      simpa [Poller.launch] using hsome

/-- Polling stops with the last registration. -/
theorem stopIfIdle (h : m.OnDemand) {registry : Registry} (retired : List Registration)
    (hsome : registry ≠ [] → m.registry ≠ []) :
    (Monitor.stopIfIdle { m with registry, retired }).OnDemand := by
  unfold Monitor.stopIfIdle
  split
  · rename_i hempty
    have hnone : registry = [] := by simpa using hempty
    refine h.of_eq rfl rfl rfl h.connection h.monitoring ?_ ?_
    · exact Poller.alive_of_none (Poller.current_halt _)
    · simp [Monitor.stop, hnone]
  · rename_i hbusy
    have hstays : registry ≠ [] := by simpa using hbusy
    refine h.of_eq rfl rfl rfl h.connection h.monitoring h.alive ?_
    exact ⟨fun _ => hstays, fun _ => h.demand.2 (hsome hstays)⟩

theorem unregister (h : m.OnDemand) (key : RegistrationKey) (s : Subscriber) :
    (m.unregister key s).OnDemand := by
  refine h.stopIfIdle m.retired ?_
  rintro hsome hnil
  rw [hnil] at hsome
  exact hsome rfl

theorem unregisterAll (h : m.OnDemand) (requester : Requester) :
    (m.unregisterAll requester).OnDemand := by
  refine h.stopIfIdle _ ?_
  rintro hsome hnil
  rw [hnil] at hsome
  exact hsome rfl

/-- Ticks ask the predicates and otherwise leave tasks and registrations alone. -/
theorem beginTick (h : m.OnDemand) (owner : Option Nat) :
    (m.beginTick owner).2.OnDemand ∧ (m.beginTick owner).2.poller = m.poller := by
  obtain ⟨connected, active, hasked, hconnection, hmonitoring⟩ :=
    h.connection.askReady h.monitoring
  have hready : OnDemand { m with connected, active } :=
    h.of_eq rfl rfl rfl hconnection hmonitoring h.alive h.demand
  unfold Monitor.beginTick
  rw [hasked]
  simp only
  split
  · exact ⟨hready, rfl⟩
  · obtain ⟨_, _, -, hbegun⟩ := beginReads_eq owner { m with connected, active }
    rw [hbegun]
    exact ⟨hready.of_eq rfl rfl rfl hready.connection hready.monitoring hready.alive hready.demand,
      rfl⟩

/-- A task goes on after a tick, or ends if it has been replaced. -/
theorem resume (h : m.OnDemand) (id : Nat) : (m.resume id).OnDemand := by
  unfold Monitor.resume
  split
  · exact h.of_poller (h.alive.setPhase (by simp)) rfl
  · rename_i hother
    exact h.of_poller (h.alive.finish hother) rfl

theorem closeTick (h : m.OnDemand) (tick : Tick) : (m.closeTick tick).OnDemand := by
  have hclosed : OnDemand { m with ticks := m.ticks.filter (·.id ≠ tick.id) } :=
    h.of_eq rfl rfl rfl h.connection h.monitoring h.alive h.demand
  unfold Monitor.closeTick
  split
  · exact hclosed
  · exact hclosed.resume _

theorem note (h : m.OnDemand) (event : Event) : (m.note event).OnDemand :=
  h.of_eq rfl rfl rfl h.connection h.monitoring h.alive h.demand

/-- The current task that wakes up begins a tick or sleeps again; any other one ends. -/
theorem wakeUp (h : m.OnDemand) (id : Nat) : (m.wakeUp id).1.OnDemand := by
  obtain ⟨connected, active, hasked, hconnection, hmonitoring⟩ :=
    h.connection.askReady h.monitoring
  unfold Monitor.wakeUp Monitor.goesOn
  by_cases hcurrent : m.poller.current = some id
  · rw [if_neg (by simpa using hcurrent), hasked]
    simp only
    have hticking :
        OnDemand { m with connected, active, poller := m.poller.setPhase id .ticking } :=
      h.of_eq rfl rfl rfl hconnection hmonitoring (h.alive.setPhase (by simp)) h.demand
    have hbegun := (hticking.beginTick (some id)).1
    unfold enterTick
    split
    all_goals
      rename_i heq
      rw [heq] at hbegun
    · exact (hbegun.note _).resume id
    · exact hbegun.resume id
    · exact hbegun
  · rw [if_pos hcurrent]
    exact h.of_poller (h.alive.finish hcurrent) rfl

/-- New tasks go to sleep, since the interval can be slept. -/
theorem settleOnly (h : m.OnDemand) (which : Nat → Bool) : (m.settleOnly which).OnDemand := by
  refine h.of_poller (h.alive.filterMap fun t hlive => ?_) rfl
  split
  · unfold settleTask
    split
    · exact absurd ‹_› hlive
    · rw [if_pos h.interval]
      exact ⟨_, rfl, rfl, by simp⟩
    · exact ⟨t, rfl, rfl, hlive⟩
  · exact ⟨t, rfl, rfl, hlive⟩

/-- Polling goes by demand after every move, unless it is one that starts or stops polling. -/
theorem move (h : m.OnDemand) (hv : v.OnDemand) : (m.move v).OnDemand := by
  cases v with
  | start | stop => cases hv
  | register key s => exact h.register key s
  | unregister key s => exact h.unregister key s
  | unregisterAll requester => exact h.unregisterAll requester
  | connected predicate => exact h.of_eq rfl rfl rfl hv h.monitoring h.alive h.demand
  | active predicate => exact h.of_eq rfl rfl rfl h.connection hv h.alive h.demand
  | tick => exact (h.beginTick none).1
  | settle which => exact h.settleOnly which
  | listen listener =>
    obtain ⟨_, heq⟩ := m.listen_eq listener
    rw [Monitor.move, heq]
    exact h.of_eq rfl rfl rfl h.connection h.monitoring h.alive h.demand
  | wake id =>
    rcases m.move_wake_cases id with heq | ⟨-, heq⟩
    · rwa [heq]
    · rw [heq]
      exact h.wakeUp id
  | close tick =>
    rcases m.move_close_cases tick with heq | ⟨-, heq⟩
    · rwa [heq]
    · rw [heq]
      exact h.closeTick tick
  | _ => exact h.of_eq rfl rfl rfl h.connection h.monitoring h.alive h.demand

end OnDemand

/-- Polling goes by demand afterwards if it did before. -/
def Abides (m m' : Monitor) : Prop := m.OnDemand → m'.OnDemand

theorem lasting_abides : Lasting Abides where
  refl := fun _ => id
  trans := fun h h' => h' ∘ h

theorem abides_move (m : Monitor) (hv : v.OnDemand) : Abides m (m.move v) := fun h => h.move hv

theorem overlooks_abides : Overlooks Abides where
  toLasting := lasting_abides
  watchLists := fun m lists => m.abides_move (v := .watchLists lists) trivial
  evaluated := fun m net => m.abides_move (v := .note (.evaluated net)) trivial
  reported := fun m report => m.abides_move (v := .note (.reported report)) trivial
  asked := fun m h => h.move (v := .active (consult m.active .activeFailed).2)
    (h.monitoring.askActive).2
  modifyNetwork := fun m net change _ =>
    m.abides_move (v := .display { m.display with workspace := m.workspace.modify net change })
      trivial
  markDue := by
    intro m requester
    unfold Monitor.markDue
    split
    · exact lasting_abides.refl m
    · exact m.abides_move (v := .display _) trivial
  unmarked := fun m => m.abides_move (v := .display { m.display with due := [] }) trivial

theorem overlooksWatching_abides : OverlooksWatching Abides :=
  .of_register overlooks_abides (fun m event _ => m.abides_move (v := .note event) trivial)
    (fun m => m.abides_move (v := .stamp) trivial)
    (fun m _ _ _ _ => m.abides_move (v := .register _ _) trivial)
    fun m _ s => m.abides_move (v := .unregister _ s) trivial

theorem abides_sync (m : Monitor) (requester : Requester) (net : Nat) :
    Abides m (m.sync requester net).1 := by
  refine lasting_abides.sync net ?_ (fun m _ => m.abides_move (v := .register _ _) trivial)
    fun m _ => m.abides_move (v := .unregister _ _) trivial
  rcases m.marker_cases requester with ⟨s, -, heq⟩ | ⟨-, heq⟩
  · rw [heq]
    exact lasting_abides.refl m
  · rw [heq]
    exact lasting_abides.trans (m.abides_move (v := .stamp) trivial)
      (abides_move _ (v := .display _) trivial)

theorem abides_perform {react : Reactor} (hreact : react.Within Abides) {command : Command}
    (hcommand : command.OnDemand) (m : Monitor) : Abides m (m.perform react command).1 := by
  cases command with
  | start | stop => cases hcommand
  | register key s => exact m.abides_move (v := .register key s) trivial
  | unregister key s => exact m.abides_move (v := .unregister key s) trivial
  | unregisterAll requester => exact m.abides_move (v := .unregisterAll requester) trivial
  | attach net =>
    exact overlooks_abides.attach m net (abides_move _ (v := .display _) trivial)
      fun m => m.abides_sync _ net
  | detach net =>
    exact lasting_abides.detach net (m.abides_move (v := .display _) trivial)
      fun m => m.abides_move (v := .unregisterAll _) trivial
  | edit edit => exact m.abides_move (v := .display _) trivial
  | reset =>
    exact overlooks_abides.reset m (fun entry _ m => m.abides_sync entry.1 entry.2) fun m =>
      overlooksWatching_abides.resetMemory m hreact (m.abides_move (v := .clear) trivial)
  | connected change =>
    refine fun h => h.move (v := .connected (m.connected.map change)) fun p hp => ?_
    obtain ⟨old, hold, rfl⟩ := Option.map_eq_some_iff.1 hp
    exact hcommand old (h.connection old hold)
  | active change =>
    refine fun h => h.move (v := .active (m.active.map change)) fun p hp => ?_
    obtain ⟨old, hold, rfl⟩ := Option.map_eq_some_iff.1 hp
    exact hcommand old (h.monitoring old hold)
  | _ =>
    refine overlooks_abides.perform overlooksWatching_abides.toOverlooksEntries
      (fun m v hswitch => m.abides_move ?_) react rfl m
    cases v with
    | start | stop | connected | active => simp [Command.Switches] at hswitch
    | _ => trivial

theorem within_reactor_abides : reactor.Within Abides :=
  overlooks_abides.within_reactor Command.OnDemand
    (fun _ _ habides h => habides h.gives h)
    fun _ hreact _ hcommand m => abides_perform hreact hcommand m

theorem overlooksLoop_abides : OverlooksLoop Abides where
  move := by
    intro m v hloop
    refine m.abides_move ?_
    cases v with
    | start | stop | connected | active => cases hloop
    | _ => trivial
  closeTick := fun m tick h => h.closeTick tick

/-- Whether a turn, if it is a call, leaves it to the registrations when polling starts and stops.
-/
def Turn.OnDemand : Turn → Prop
  | command c => c.OnDemand
  | _ => True

/-- The states of a monitor that nobody starts or stops, from the first registration on, with the
device connected and monitoring active throughout. Turns come in any order, whatever subscribers and
listeners do in them, and reads may fail; single moves lead to the states that those see who are
called in the middle of a turn. -/
inductive LeftAlone : Monitor → Prop where
  | opened {m : Monitor} (hfresh : m.Fresh) (hloop : m.loop = true)
      (hinterval : m.settings.intervalSeconds.isOk) (hconnection : m.Connection)
      (hmonitoring : m.Monitoring) (hgives : m.Gives Command.OnDemand) : LeftAlone m
  | turn {m : Monitor} (h : LeftAlone m) (v : Turn) (hv : v.OnDemand) :
      LeftAlone (m.turn reactor v)
  | move {m : Monitor} (h : LeftAlone m) (v : Move) (hv : v.OnDemand) : LeftAlone (m.move v)

theorem LeftAlone.turns (h : m.LeftAlone) {list : List Turn} (hlist : ∀ v ∈ list, v.OnDemand) :
    (m.turns reactor list).LeftAlone := by
  induction list generalizing m with
  | nil => exact h
  | cons v rest ih =>
    obtain ⟨hv, hrest⟩ := List.forall_mem_cons.1 hlist
    exact ih (h.turn v hv) hrest

theorem LeftAlone.onDemand (h : m.LeftAlone) : m.OnDemand := by
  induction h with
  | opened hfresh hloop hinterval hconnection hmonitoring hgives =>
    exact hfresh.onDemand hloop hinterval hconnection hmonitoring hgives
  | move _ _ hv ih => exact ih.move hv
  | turn _ v hv ih =>
    cases v with
    | command command => exact abides_perform within_reactor_abides hv _ ih
    | _ =>
      exact overlooksLoop_abides.turn overlooksWatching_abides.toOverlooksCalls
        within_reactor_abides _ rfl ih

/-- In every state of a monitor that nobody starts or stops, a task polls exactly while something is
registered.

Registering, unregistering and resetting may come at any time, from outside and from inside
subscribers and listeners, between any wake-ups and answers, also while a task that has been
replaced is still inside a tick. Reads, subscribers and listeners may fail. -/
theorem LeftAlone.running_iff_registered (h : m.LeftAlone) :
    m.running = true ↔ m.registry ≠ [] :=
  h.onDemand.running_iff

/-- A lamp that gives its registration up and takes it again whenever it is called, and then fails.
-/
def flicker : Monitor :=
  { create {} { memory := #[1] } with
    reactions := [("lamp",
      { commands :=
          [.unregister ⟨.named "lamp", ⟨0, 1⟩⟩ (.outside "lamp"),
            .register ⟨.named "lamp", ⟨0, 1⟩⟩ (.outside "lamp")]
        fails := true })] }

/-- The lamp is registered, and called inside a tick. The task of the tick is given up with the
registration, and another one is made with the next. -/
def relit : Monitor :=
  flicker.turns reactor
    [.command (.register ⟨.named "lamp", ⟨0, 1⟩⟩ (.outside "lamp")), .settle fun _ => true,
      .wake 0, .reply 2 (.ok #[1])]

theorem relit_running_iff_registered :
    relit.LeftAlone ∧ relit.poller.tasks = [⟨0, .ticking⟩, ⟨1, .created⟩] ∧
      (relit.running = true ↔ relit.registry ≠ []) ∧ relit.registry.length = 1 := by
  have hflicker : flicker.LeftAlone := by
    refine .opened ⟨rfl, rfl, rfl, .nil⟩ rfl (by decide +kernel) ?_ (monitoring_of_none rfl) ?_
    · simp [Connection, flicker, create]
    · simp [Gives, flicker, Command.OnDemand]
  have hrelit : relit.LeftAlone := hflicker.turns (by simp [Turn.OnDemand, Command.OnDemand])
  exact ⟨hrelit, by decide +kernel, LeftAlone.running_iff_registered hrelit, by decide +kernel⟩

end Monitor

end LadderMonitor
