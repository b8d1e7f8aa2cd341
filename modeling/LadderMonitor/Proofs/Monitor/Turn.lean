import LadderMonitor.Proofs.Monitor.Records

namespace LadderMonitor.Monitor

/-- What happens in one go. A call runs from its beginning to its end, and so does the handling of
an answer and the end of a tick, with everything that subscribers and listeners do in it. Between
two turns any others may come. -/
inductive Turn where
  | command (command : Command)
  /-- A tick begins beside the poll tasks. -/
  | tick
  /-- A poll task that sleeps wakes up, and ends or begins a tick. -/
  | wake (id : Nat)
  /-- A read is answered by its ticket. -/
  | reply (ticket : Nat) (answer : Except Fault Bytes)
  /-- A tick whose reads are all answered tells the listeners and is over. -/
  | conclude (tick : Tick)
  | settle (which : Nat → Bool)
  | clock (time : Nat)

/-- Whether a turn is a call from outside. -/
def Turn.isCall : Turn → Bool
  | command _ => true
  | _ => false

/-- The read that a turn answers, if it answers one. -/
def handled? (m : Monitor) : Turn → Option PendingRead
  | .reply ticket _ => (m.heldReads.find? (·.2.ticket == ticket)).map (·.2)
  | _ => none

/-- The tick that a turn ends, if it ends one. -/
def ended? (m : Monitor) : Turn → Option Tick
  | .conclude tick => if tick ∈ m.ticks ∧ tick.pending = [] then some tick else none
  | _ => none

/-- What is left after a turn. A turn that is not due changes nothing. -/
def turn (react : Reactor) (m : Monitor) : Turn → Monitor
  | .command command => (m.perform react command).1
  | .tick => (m.beginTick none).2
  | .wake id => if m.Asleep id then (m.wakeUp id).1 else m
  | .reply ticket answer =>
    match m.handled? (.reply ticket answer) with
    | some read => m.answer react read answer
    | none => m
  | .conclude tick =>
    match m.ended? (.conclude tick) with
    | some tick => m.endTick react tick
    | none => m
  | .settle which => m.settleOnly which
  | .clock time => { m with clock := time }

/-- What is left after turns in order. -/
def turns (react : Reactor) (m : Monitor) (list : List Turn) : Monitor := list.foldl (turn react) m

theorem mem_heldReads {m : Monitor} {tick : Tick} {read : PendingRead} :
    (tick, read) ∈ m.heldReads ↔ tick ∈ m.ticks ∧ read ∈ tick.pending := by
  unfold heldReads
  simp only [List.mem_flatMap, List.mem_map, Prod.mk.injEq]
  constructor
  · rintro ⟨_, htick, _, hread, rfl, rfl⟩
    exact ⟨htick, hread⟩
  · rintro ⟨htick, hread⟩
    exact ⟨tick, htick, read, hread, rfl, rfl⟩

/-- Only a read that waits is answered. -/
theorem waits_of_handled? {m : Monitor} {v : Turn} {read : PendingRead}
    (hhandled : m.handled? v = some read) : m.Waits read := by
  cases v with
  | reply ticket answer =>
    obtain ⟨⟨tick, read⟩, hfind, rfl⟩ := Option.map_eq_some_iff.1 hhandled
    exact ⟨tick, mem_heldReads.1 (List.mem_of_find?_eq_some hfind)⟩
  | _ => cases hhandled

theorem ended?_eq_some_iff {m : Monitor} {tick tick' : Tick} :
    m.ended? (.conclude tick) = some tick' ↔ tick = tick' ∧ tick ∈ m.ticks ∧ tick.pending = [] := by
  rw [ended?]
  split
  · rename_i hdue
    simp [hdue]
  · rename_i hnot
    simp [hnot]

variable {react : Reactor} {m : Monitor}

theorem Reactor.Inner.receive (h : react.Inner) (batch : Batch Registration)
    (answer : Except Fault Bytes) (m : Monitor) :
    m.Runs (m.receive react batch answer) ∧ (m.receive react batch answer).ticks = m.ticks := by
  cases answer with
  | error fault =>
    have hnoted := (m.leads_note (.reported (.readFailed batch.size batch.start fault))).leads
    exact ⟨hnoted.runs, hnoted.frame.ticks⟩
  | ok data =>
    have hserved : (m.store batch.start data).Leads
        (batch.items.foldl (Monitor.serve react batch.start data) (m.store batch.start data)) :=
      (lasting_leadsBy _).foldl (h.serve batch.start data) _ _
    exact ⟨(LeadsBy.single m (.store batch.start data) rfl).trans hserved.runs, hserved.frame.ticks⟩

theorem Reactor.Inner.ticks_answer (h : react.Inner) (read : PendingRead)
    (answer : Except Fault Bytes) (m : Monitor) :
    (m.answer react read answer).ticks = (m.strike read.ticket).ticks :=
  (h.receive read.batch answer (m.strike read.ticket)).2

theorem Reactor.Inner.runs_endTick (h : react.Inner) {tick : Tick} (hmem : tick ∈ m.ticks)
    (hpending : tick.pending = []) : m.Runs (m.endTick react tick) := by
  have htold := h.tellAll m
  have hdue : tick ∈ (m.tellAll react).ticks ∧ tick.pending = [] :=
    ⟨by rw [htold.frame.ticks]; exact hmem, hpending⟩
  exact htold.runs.trans ⟨[.close tick], fun _ _ => rfl, if_pos hdue⟩

theorem Reactor.Inner.runs_turn (h : react.Inner) (m : Monitor) (v : Turn) :
    m.Runs (m.turn react v) := by
  cases v with
  | command command => exact (h.perform command m).runs
  | tick => exact .single m .tick rfl
  | wake id => exact .single m (.wake id) rfl
  | reply ticket answer =>
    rw [Monitor.turn]
    split
    · rename_i read _
      exact (LeadsBy.single m (.strike read.ticket) rfl).trans (h.receive read.batch answer _).1
    · exact .refl m
  | conclude tick =>
    rw [Monitor.turn]
    split
    · rename_i heq
      obtain ⟨rfl, hmem, hpending⟩ := ended?_eq_some_iff.1 heq
      exact h.runs_endTick hmem hpending
    · exact .refl m
  | settle which => exact .single m (.settle which) rfl
  | clock time => exact .single m (.clock time) rfl

theorem Reactor.Inner.runs_turns (h : react.Inner) (m : Monitor) (list : List Turn) :
    m.Runs (m.turns react list) :=
  (lasting_leadsBy _).foldl h.runs_turn list m

/-- Reads are asked only as a turn begins a tick. -/
theorem Reactor.Inner.asks_turn (h : react.Inner) (m : Monitor) (v : Turn) :
    Asks m (m.turn react v) := by
  cases v with
  | command command => exact .of_eq (h.perform command m).frame.ticks
  | tick => exact m.asks_move .tick
  | wake id => exact m.asks_move (.wake id)
  | settle which => exact .of_eq rfl
  | clock time => exact .of_eq rfl
  | reply ticket answer =>
    rw [Monitor.turn]
    split
    · rename_i read _
      rintro other ⟨tick, htick, hother⟩
      rw [h.ticks_answer] at htick
      exact m.asks_move (.strike read.ticket) other ⟨tick, htick, hother⟩
    · exact .of_eq rfl
  | conclude tick =>
    rw [Monitor.turn]
    split
    · rename_i tick' _
      obtain ⟨_, heq⟩ := (m.tellAll react).closeTick_eq tick'
      rw [endTick, heq]
      rintro read ⟨tick, htick, hread⟩
      have hkept := List.mem_of_mem_filter htick
      rw [(h.tellAll m).frame.ticks] at hkept
      exact .inl ⟨tick, hkept, hread⟩
    · exact .of_eq rfl

section Within

variable {R : Monitor → Monitor → Prop}

/-- A relation that overlooks what the event loop does by itself. -/
structure OverlooksLoop (R : Monitor → Monitor → Prop) : Prop where
  move : ∀ (m : Monitor) (v : Move), v.inner = false → R m (m.move v)
  closeTick : ∀ (m : Monitor) tick, R m (m.closeTick tick)

/-- What happens without a call is up to those who are told and those who are served. -/
theorem OverlooksLoop.turn_of (hloop : OverlooksLoop R) (h : Lasting R) {v : Turn}
    (hv : v.isCall = false) (htold : R m (m.tellAll react))
    (hserved : ∀ ticket data read, v = .reply ticket (.ok data) → m.handled? v = some read →
      R ((m.strike read.ticket).store read.batch.start data) (m.turn react v))
    (hreported : ∀ (m : Monitor) report, R m (m.note (.reported report))) :
    R m (m.turn react v) := by
  cases v with
  | command command => cases hv
  | tick => exact hloop.move m .tick rfl
  | wake id => exact hloop.move m (.wake id) rfl
  | settle which => exact hloop.move m (.settle which) rfl
  | clock time => exact hloop.move m (.clock time) rfl
  | reply ticket answer =>
    cases hhandled : m.handled? (.reply ticket answer) with
    | none =>
      rw [Monitor.turn, hhandled]
      exact h.refl m
    | some read =>
      have hstruck := hloop.move m (.strike read.ticket) rfl
      cases answer with
      | error fault =>
        rw [Monitor.turn, hhandled]
        exact h.trans hstruck (hreported _ _)
      | ok data =>
        have hstored := hloop.move (m.strike read.ticket) (.store read.batch.start data) rfl
        exact h.trans (h.trans hstruck hstored) (hserved ticket data read rfl hhandled)
  | conclude tick =>
    rw [Monitor.turn]
    split
    · exact h.trans htold (hloop.closeTick _ _)
    · exact h.refl m

theorem turn_reply_ok {ticket : Nat} {data : Bytes} {read : PendingRead}
    (hhandled : m.handled? (.reply ticket (.ok data)) = some read) :
    m.turn react (.reply ticket (.ok data)) =
      read.batch.items.foldl (Monitor.serve react read.batch.start data)
        ((m.strike read.ticket).store read.batch.start data) := by
  rw [Monitor.turn, hhandled]
  rfl

theorem OverlooksLoop.turn (h : OverlooksCalls R) (hloop : OverlooksLoop R)
    (hreact : react.Within R) (m : Monitor) {v : Turn} (hv : v.isCall = false) :
    R m (m.turn react v) := by
  refine hloop.turn_of h.toLasting hv (h.tellAll m hreact) ?_ h.reported
  rintro ticket data read rfl hhandled
  rw [turn_reply_ok hhandled]
  exact h.foldl (fun m r => h.serve m hreact read.batch.start data r) _ _

theorem OverlooksLoop.turns (h : OverlooksCalls R) (hloop : OverlooksLoop R)
    (hreact : react.Within R) (m : Monitor) {list : List Turn}
    (hlist : ∀ v ∈ list, v.isCall = false) : R m (m.turns react list) := by
  induction list generalizing m with
  | nil => exact h.refl m
  | cons v rest ih =>
    obtain ⟨hv, hrest⟩ := List.forall_mem_cons.1 hlist
    exact h.trans (hloop.turn h hreact m hv) (ih _ hrest)

end Within

/-- Turns without calls lead from one state to another. -/
def Loops (react : Reactor) (m m' : Monitor) : Prop :=
  ∃ list : List Turn, (∀ v ∈ list, v.isCall = false) ∧ m.turns react list = m'

theorem lasting_loops (react : Reactor) : Lasting (Loops react) where
  refl := fun m => ⟨[], by simp, rfl⟩
  trans := by
    rintro m _ _ ⟨list, hlist, rfl⟩ ⟨more, hmore, rfl⟩
    refine ⟨list ++ more, fun v hv => ?_, List.foldl_append⟩
    exact (List.mem_append.1 hv).elim (hlist v) (hmore v)

theorem loops_turn (react : Reactor) (m : Monitor) {v : Turn} (hv : v.isCall = false) :
    Loops react m (m.turn react v) :=
  ⟨[v], by simpa using hv, rfl⟩

theorem loops_settle (react : Reactor) (m : Monitor) : Loops react m m.settle :=
  loops_turn react m (v := .settle fun _ => true) rfl

theorem loops_endTick {tick : Tick} (hmem : tick ∈ m.ticks) (hpending : tick.pending = []) :
    Loops react m (m.endTick react tick) := by
  have hdue : m.ended? (.conclude tick) = some tick :=
    ended?_eq_some_iff.2 ⟨rfl, hmem, hpending⟩
  have hloops := loops_turn react m (v := .conclude tick) rfl
  rw [turn, hdue] at hloops
  exact hloops

theorem Reactor.Inner.loops_answerFrom (h : react.Inner) (port : Port) (ticket : Nat)
    (m : Monitor) : Loops react m (m.answerFrom react port ticket) := by
  unfold Monitor.answerFrom
  split
  · rename_i tick read hfind
    have hmem := (mem_heldReads.1 (List.mem_of_find?_eq_some hfind)).1
    have hticket : read.ticket = ticket := by simpa using List.find?_some hfind
    have hanswered := loops_turn react m
      (v := .reply ticket (port read.batch.start read.batch.size)) rfl
    have hhandled : m.handled? (.reply ticket (port read.batch.start read.batch.size)) =
        some read := by rw [handled?, hfind, Option.map_some]
    rw [turn, hhandled] at hanswered
    simp only
    split
    · rename_i hlast
      have hleft : tick.without ticket ∈
          (m.answer react read (port read.batch.start read.batch.size)).ticks := by
        rw [h.ticks_answer, hticket]
        exact List.mem_map_of_mem hmem
      have hended : Loops react _ (Monitor.endTick react (tick.without ticket) _) :=
        loops_endTick hleft (by simpa using hlast)
      exact (lasting_loops react).trans hanswered hended
    · exact hanswered
  · exact (lasting_loops react).refl m

theorem Reactor.Inner.loops_runTick (h : react.Inner) {tick : Tick} (hmem : tick ∈ m.ticks) :
    Loops react m (m.runTick react tick) := by
  unfold Monitor.runTick
  split
  · exact loops_endTick hmem (by simpa using ‹tick.pending.isEmpty = true›)
  · split
    · exact (lasting_loops react).refl m
    · exact (lasting_loops react).foldl
        (fun m (read : PendingRead) => h.loops_answerFrom m.device.read read.ticket m) _ m

theorem Reactor.Inner.loops_tick (h : react.Inner) (m : Monitor) :
    Loops react m (m.tick react).1 := by
  have hbegun : Loops react m (m.beginTick none).2 := loops_turn react m (v := .tick) rfl
  have hbegins := m.beginTick_begins none
  unfold Monitor.tick
  split
  · rename_i heq
    rwa [heq] at hbegun
  · rename_i heq
    rwa [heq] at hbegun
  · rename_i heq
    rw [heq] at hbegun hbegins
    exact (lasting_loops react).trans hbegun (h.loops_runTick hbegins.mem_ticks)

theorem mem_ticks_of_wakeUp {id : Nat} {m' : Monitor} {tick : Tick}
    (hwoken : m.wakeUp id = (m', some tick)) : tick ∈ m'.ticks := by
  have hwakes := m.wakeUp_wakes id
  rw [hwoken] at hwakes
  cases hwakes with
  | entered _ _ _ _ hbegins => exact hbegins.mem_ticks

theorem Reactor.Inner.loops_wake (h : react.Inner) {id : Nat} (hasleep : m.Asleep id) :
    Loops react m (m.wake react id) := by
  have hwoken := loops_turn react m (v := .wake id) rfl
  rw [Monitor.turn, if_pos hasleep] at hwoken
  unfold Monitor.wake
  split
  · rename_i heq
    rwa [heq] at hwoken
  · rename_i heq
    rw [heq] at hwoken
    exact (lasting_loops react).trans hwoken (h.loops_runTick (mem_ticks_of_wakeUp heq))

theorem firstWake_cases (target : Nat) (best : Option (Nat × Nat)) (t : PollTask) :
    firstWake target best t = best ∨
      t.phase.isSleeping ∧ ∃ wake, firstWake target best t = some (wake, t.id) := by
  unfold firstWake
  split
  · rename_i wake hphase
    have hsleeping : t.phase.isSleeping := by rw [hphase]; rfl
    split
    · exact .inl rfl
    · split
      · split
        · exact .inr ⟨hsleeping, wake, rfl⟩
        · exact .inl rfl
      · exact .inr ⟨hsleeping, wake, rfl⟩
  · exact .inl rfl

theorem asleep_of_nextWake {target time id : Nat} (hnext : m.nextWake target = some (time, id)) :
    m.Asleep id := by
  have hgeneral (tasks : List PollTask) (hsub : ∀ t ∈ tasks, t ∈ m.poller.tasks)
      (best : Option (Nat × Nat)) (hbest : ∀ found ∈ best, m.Asleep found.2) :
      ∀ found ∈ tasks.foldl (firstWake target) best, m.Asleep found.2 := by
    induction tasks generalizing best with
    | nil => exact hbest
    | cons t rest ih =>
      obtain ⟨ht, hrest⟩ := List.forall_mem_cons.1 hsub
      refine ih hrest _ ?_
      rcases firstWake_cases target best t with heq | ⟨hsleeping, wake, heq⟩
      · rwa [heq]
      · rintro found hfound
        rw [heq] at hfound
        obtain rfl := Option.some.inj hfound
        exact ⟨t, ht, rfl, hsleeping⟩
  exact hgeneral m.poller.tasks (fun t ht => ht) none (by simp) (time, id) hnext

theorem Reactor.Inner.loops_advanceTo (h : react.Inner) (target fuel : Nat) (m : Monitor) :
    Loops react m (m.advanceTo react target fuel) := by
  have hclock (m : Monitor) (time : Nat) : Loops react m { m with clock := time } :=
    loops_turn react m (v := .clock time) rfl
  induction fuel generalizing m with
  | zero => exact hclock m target
  | succ fuel ih =>
    rw [Monitor.advanceTo]
    split
    · exact hclock m target
    · rename_i time id hnext
      have hasleep : Asleep { m with clock := time } id := asleep_of_nextWake hnext
      have hwoken := (lasting_loops react).trans (hclock m time) (h.loops_wake hasleep)
      exact (lasting_loops react).trans
        ((lasting_loops react).trans hwoken (loops_settle react _)) (ih _)

/-- What happens without a call. -/
theorem loops_act (m : Monitor) {action : Action} (hcall : ¬ ∃ command, action = .command command) :
    Loops reactor m (m.act action).1 := by
  refine (lasting_loops reactor).trans ?_ (loops_settle reactor (m.handle action).1)
  cases action with
  | command command => exact absurd ⟨command, rfl⟩ hcall
  | tick => exact inner_reactor.loops_tick m
  | release ticket => exact inner_reactor.loops_answerFrom m.device.read ticket m
  | advance time => exact inner_reactor.loops_advanceTo _ _ m

/-- Whatever happens to a monitor is made of turns. -/
theorem exists_turns_act (m : Monitor) (action : Action) :
    ∃ list : List Turn, m.turns reactor list = (m.act action).1 := by
  by_cases hcall : ∃ command, action = .command command
  · obtain ⟨command, rfl⟩ := hcall
    exact ⟨[.command command, .settle fun _ => true], rfl⟩
  · obtain ⟨list, -, heq⟩ := m.loops_act hcall
    exact ⟨list, heq⟩

theorem Reachable.turns (h : m.Reachable) (hinner : react.Inner) (list : List Turn) :
    (m.turns react list).Reachable :=
  h.of_runs (hinner.runs_turns m list)

theorem Reachable.act (h : m.Reachable) (action : Action) : (m.act action).1.Reachable := by
  obtain ⟨list, heq⟩ := m.exists_turns_act action
  rw [← heq]
  exact h.turns inner_reactor list

end LadderMonitor.Monitor
