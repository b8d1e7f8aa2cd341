import LadderMonitor.Monitor.Display
import LadderMonitor.Monitor.Watch

namespace LadderMonitor

namespace Monitor

def ask (target : Target) (m : Monitor) : Outcome :=
  match m.project.resolve target with
  | .ok _ => (m, none)
  | .error fault => (m, some fault)

def perform (react : Reactor) : Command → Monitor → Outcome
  | .register key s, m => m.register key s
  | .unregister key s, m => (m.unregister key s, none)
  | .unregisterAll requester, m => (m.unregisterAll requester, none)
  | .listen listener, m => (m.listen listener, none)
  | .unlisten listener, m => (m.unlisten listener, none)
  | .reset, m => m.reset react
  | .start, m => (m.start, none)
  | .stop, m => (m.stop, none)
  | .connected change, m => ({ m with connected := m.connected.map change }, none)
  | .active change, m => ({ m with active := m.active.map change }, none)
  | .device change, m => ({ m with device := change m.device }, none)
  | .attach net, m => m.attach net
  | .detach net, m => (m.detach net, none)
  | .evaluate net, m => m.evaluate net
  | .resolve target, m => m.ask target
  | .watch list name, m => m.watch list name
  | .unwatch list name, m => (m.unwatch list name, none)
  | .clearList list, m => (m.clearList list, none)
  | .refreshList list, m => m.refreshList list
  | .openList list, m => (m.openList list, none)
  | .lookUp list name, m => m.lookUp list name
  | .edit edit, m => ({ m with display.workspace := edit.apply m.workspace }, none)
  | .fail, m => (m, some .reactionFailed)

/-- What a subscriber or listener outside does when it is called. -/
def reactOutside (performInside : Command → Monitor → Outcome) (name : String) (m : Monitor) :
    Outcome :=
  match Assoc.get? name m.reactions with
  | none => (m, none)
  | some reaction =>
    (Outcome.forEach performInside reaction.commands m).andThen fun m =>
      (m, if reaction.fails then some .reactionFailed else none)

/-- How subscribers and listeners react, when commands from inside are carried out in a given way.
-/
def reactorOf (performInside : Command → Monitor → Outcome) : Reactor where
  deliver
    | .outside name, _, m => m.reactOutside performInside name
    | .display requester _, _, m => (m.markDue requester, none)
    | .watch serial r _, data, m => m.showValue serial r data
  tell
    | .outside name, m => m.reactOutside performInside name
    | .display, m => m.flush

/-- Carries out a command whose reactions nest at most so deep. -/
def performWithin : Nat → Command → Monitor → Outcome
  | 0, _, m => (m, some .tooDeep)
  | depth + 1, command, m => m.perform (reactorOf (performWithin depth)) command

/-- How deep reactions are followed: a reset calls subscribers and listeners again, and these may
reset. -/
def reactionDepth : Nat := 200

/-- How subscribers and listeners react. -/
def reactor : Reactor := reactorOf (performWithin reactionDepth)

inductive Action where
  | command (command : Command)
  /-- A tick of its own. -/
  | tick
  /-- The device answers a read that it held back. -/
  | release (ticket : Nat)
  | advance (time : Nat)

/-- What happens, before the poll tasks get to run. -/
def handle (m : Monitor) : Action → Outcome
  | .command command => m.perform reactor command
  | .tick => m.tick reactor
  | .release ticket => (m.release reactor ticket, none)
  | .advance time => (m.advance reactor time, none)

/-- What happens, with everything that follows from it while the clock stands still. -/
def act (m : Monitor) (action : Action) : Outcome :=
  let (m, fault) := m.handle action
  (m.settle, fault)

end Monitor

end LadderMonitor
