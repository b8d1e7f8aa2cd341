import LadderMonitor.Monitor.Command

namespace LadderMonitor

/-- Whether a task sleeps, no matter until when. -/
def Phase.isSleeping : Phase → Bool
  | sleeping _ => true
  | _ => false

namespace Monitor

/-- A smallest piece of what happens to a monitor. Moves in any order cover every interleaving:
calls between the answers of a tick, calls from inside subscribers and listeners, several ticks at a
time, and poll tasks that wake up whenever they like. -/
inductive Move where
  | register (key : RegistrationKey) (s : Subscriber)
  | unregister (key : RegistrationKey) (s : Subscriber)
  | unregisterAll (requester : Requester)
  | listen (listener : Listener)
  | unlisten (listener : Listener)
  | start
  | stop
  /-- The cache is zeroed, as the first thing of a reset. -/
  | clear
  | note (event : Event)
  | stamp
  | connected (predicate : Option Predicate)
  | active (predicate : Option Predicate)
  | device (device : Device)
  | display (display : Display)
  | watchLists (lists : List (List WatchEntry))
  /-- A tick begins beside the poll tasks. -/
  | tick
  /-- A poll task that sleeps wakes up, and ends or begins a tick. -/
  | wake (id : Nat)
  /-- Tasks that are new go to sleep, and tasks that are cancelled end. -/
  | settle (which : Nat → Bool)
  /-- A pending read is not pending any more. -/
  | strike (ticket : Nat)
  | store (start : Int) (data : Bytes)
  /-- A tick whose reads are all answered is over. -/
  | close (tick : Tick)
  | clock (time : Nat)

/-- Whether a piece is one that the code of a call, a subscriber or a listener consists of. The
others belong to the event loop. -/
def Move.inner : Move → Bool
  | tick | wake _ | settle _ | strike _ | store .. | close _ | clock _ => false
  | _ => true

/-- Whether a piece writes into the cache. -/
def Move.writes : Move → Bool
  | clear | store .. => true
  | _ => false

/-- Whether a piece is one that a call without a reset consists of. -/
def Move.gentle (v : Move) : Bool := v.inner && !v.writes

/-- Whether a poll task sleeps, so that it may wake up. -/
def Asleep (m : Monitor) (id : Nat) : Prop :=
  ∃ t ∈ m.poller.tasks, t.id = id ∧ t.phase.isSleeping

instance (m : Monitor) (id : Nat) : Decidable (m.Asleep id) :=
  inferInstanceAs (Decidable (∃ t ∈ m.poller.tasks, t.id = id ∧ t.phase.isSleeping))

/-- Whether a poll task, if it gets to run, goes on to a tick. -/
def BeginsTick (m : Monitor) (id : Nat) : Prop := m.Asleep id ∧ (m.goesOn id).1 = true

/-- What is left after a move. A move that is not due changes nothing. -/
def move (m : Monitor) : Move → Monitor
  | .register key s => (m.register key s).1
  | .unregister key s => m.unregister key s
  | .unregisterAll requester => m.unregisterAll requester
  | .listen listener => m.listen listener
  | .unlisten listener => m.unlisten listener
  | .start => m.start
  | .stop => m.stop
  | .clear => m.clear
  | .note event => m.note event
  | .stamp => m.stamp.1
  | .connected predicate => { m with connected := predicate }
  | .active predicate => { m with active := predicate }
  | .device device => { m with device }
  | .display display => { m with display }
  | .watchLists lists => { m with watchLists := lists }
  | .tick => (m.beginTick none).2
  | .wake id => if m.Asleep id then (m.wakeUp id).1 else m
  | .settle which => m.settleOnly which
  | .strike ticket => m.strike ticket
  | .store start data => m.store start data
  | .close tick => if tick ∈ m.ticks ∧ tick.pending = [] then m.closeTick tick else m
  | .clock time => { m with clock := time }

/-- What is left after moves in order. -/
def run (m : Monitor) (moves : List Move) : Monitor := moves.foldl move m

theorem run_append (m : Monitor) (moves more : List Move) :
    m.run (moves ++ more) = (m.run moves).run more :=
  List.foldl_append

end Monitor

end LadderMonitor
