import LadderMonitor.Plant.Resolution
import LadderMonitor.Plant.Workspace
import LadderMonitor.Polling.Device
import LadderMonitor.Polling.Predicate
import LadderMonitor.Polling.Registry
import LadderMonitor.Polling.Settings

namespace LadderMonitor

/-- Who is told that a tick has ended. -/
inductive Listener where
  | outside (name : String)
  /-- Evaluates the networks that are due. -/
  | display
deriving DecidableEq, Repr

/-- A record of something that went wrong and was contained. -/
inductive Report where
  | readFailed (size address : Int) (fault : Fault)
  | subscriberFailed (key : RegistrationKey)
  | listenerFailed
  | pollingFailed
deriving DecidableEq, Repr

/-- Something the monitor did. -/
inductive Event where
  /-- A read was asked of the device. -/
  | asked (address size : Int)
  | delivered (key : RegistrationKey) (subscriber : Subscriber) (data : Bytes)
  | told (listener : Listener)
  /-- The evaluation of a network was asked for. -/
  | evaluated (net : Nat)
  | reported (report : Report)
deriving DecidableEq, Repr

/-- What a poll task is doing. -/
inductive Phase where
  /-- It has not run yet. -/
  | created
  /-- It sleeps until a time. -/
  | sleeping (wake : Nat)
  /-- It is inside a tick. -/
  | ticking
  /-- It has been told to end, and ends as soon as it runs. -/
  | cancelled
deriving DecidableEq, Repr

/-- A poll task that has not ended. -/
structure PollTask where
  id : Nat
  phase : Phase
deriving DecidableEq, Repr

/-- The poll tasks, and the one that polling relies on. A task that has ended by itself may still be
the current one; then nothing polls. -/
structure Poller where
  current : Option Nat := none
  tasks : List PollTask := []
  nextId : Nat := 0
deriving DecidableEq, Repr

namespace Poller

def phase? (p : Poller) (id : Nat) : Option Phase := (p.tasks.find? (·.id == id)).map (·.phase)

/-- Whether the current task has not ended. -/
def running (p : Poller) : Bool := p.current.any fun id => p.tasks.any (·.id == id)

def setPhase (p : Poller) (id : Nat) (phase : Phase) : Poller :=
  { p with tasks := p.tasks.map fun t => if t.id = id then { t with phase } else t }

def finish (p : Poller) (id : Nat) : Poller := { p with tasks := p.tasks.filter (·.id ≠ id) }

/-- Makes a new task, which polling relies on from now on. -/
def launch (p : Poller) : Poller :=
  { current := some p.nextId, tasks := p.tasks ++ [⟨p.nextId, .created⟩], nextId := p.nextId + 1 }

/-- Relies on no task any more. The task so far is cancelled, unless it is inside a tick. -/
def halt (p : Poller) : Poller :=
  match p.current with
  | none => p
  | some id =>
    match p.phase? id with
    | none | some .ticking => { p with current := none }
    | some _ => { p with current := none }.setPhase id .cancelled

end Poller

/-- A read of a tick that has been asked for and not been answered. -/
structure PendingRead where
  ticket : Nat
  batch : Batch Registration
deriving DecidableEq, Repr

/-- A tick that has asked its reads: the poll task that waits for it, if any, and the reads without
an answer. -/
structure Tick where
  id : Nat
  owner : Option Nat
  pending : List PendingRead
deriving DecidableEq, Repr

def Tick.without (ticket : Nat) (t : Tick) : Tick :=
  { t with pending := t.pending.filter (·.ticket ≠ ticket) }

structure WatchEntry where
  serial : Nat
  name : String
  resolved : Option ResolvedAddress := none
  value : Option Scalar := none
  /-- The subscriber that keeps the value up to date. -/
  update : Option Subscriber := none
deriving DecidableEq, Repr

/-- The networks on display, and what they wait for. -/
structure Display where
  workspace : Workspace := {}
  /-- The network that is attached under each requester, by number. -/
  attached : List (Requester × Nat) := []
  /-- The subscriber that marks the networks of a requester as due. -/
  markers : List (Requester × Subscriber) := []
  /-- Requesters whose networks are due for evaluation. -/
  due : List Requester := []
deriving DecidableEq, Repr

/-- Something done to the monitor, from outside or by a subscriber or listener. -/
inductive Command where
  | register (key : RegistrationKey) (s : Subscriber)
  | unregister (key : RegistrationKey) (s : Subscriber)
  | unregisterAll (requester : Requester)
  | listen (listener : Listener)
  | unlisten (listener : Listener)
  | reset
  | start
  | stop
  | connected (change : Predicate → Predicate)
  | active (change : Predicate → Predicate)
  | device (change : Device → Device)
  | attach (net : Nat)
  | detach (net : Nat)
  | evaluate (net : Nat)
  | resolve (target : Target)
  | watch (list : Nat) (name : String)
  | unwatch (list : Nat) (name : String)
  | clearList (list : Nat)
  | refreshList (list : Nat)
  | openList (list : Nat)
  /-- Asks for an entry of a watch list. -/
  | lookUp (list : Nat) (name : String)
  | edit (edit : Edit)
  | fail

/-- What a subscriber or listener outside does when it is called: commands, up to the first that
fails, and perhaps a failure of its own at the end. -/
structure Reaction where
  commands : List Command := []
  fails : Bool := false

/-- A running monitor. It polls a device for registered ranges, keeps what it read in a cache, and
hands the bytes of each range to its subscribers; the display of networks and the watch lists build
on that. What it does towards its surroundings is written into a journal, the latest entry first. -/
structure Monitor where
  settings : Settings := {}
  device : Device := {}
  /-- Whether the device is connected; without a predicate it always is. -/
  connected : Option Predicate := none
  /-- Whether monitoring is active; without a predicate it always is. -/
  active : Option Predicate := none
  /-- What subscribers and listeners outside do. -/
  reactions : List (String × Reaction) := []
  /-- Whether poll tasks can run. -/
  loop : Bool := true
  /-- Milliseconds since the beginning. -/
  clock : Nat := 0
  registry : Registry := []
  /-- Registrations that were removed as a whole; a read that was asked before still serves them. -/
  retired : List Registration := []
  cache : Bytes := .zeros 65536
  /-- The place of the next window of batches. -/
  cursor : Int := 0
  listeners : List Listener := []
  poller : Poller := {}
  ticks : List Tick := []
  display : Display := {}
  watchLists : List (List WatchEntry) := []
  /-- The next number for something that is made: registrations, subscribers, reads, ticks. -/
  nextStamp : Nat := 0
  journal : List Event := []

/-- The monitor after an operation, and why the operation failed, if it did. -/
abbrev Outcome := Monitor × Option Fault

namespace Outcome

/-- Goes on unless the operation failed. -/
def andThen (o : Outcome) (next : Monitor → Outcome) : Outcome :=
  match o with
  | (m, none) => next m
  | (m, some fault) => (m, some fault)

/-- Does something with each element, up to the first failure. -/
def forEach {α : Type} (act : α → Monitor → Outcome) : List α → Monitor → Outcome
  | [], m => (m, none)
  | a :: rest, m => (act a m).andThen (forEach act rest)

end Outcome

namespace Monitor

def note (m : Monitor) (event : Event) : Monitor := { m with journal := event :: m.journal }

/-- Writes into the journal that something went wrong, if it did. -/
def reportIf (o : Outcome) (report : Report) : Monitor :=
  match o with
  | (m, none) => m
  | (m, some _) => m.note (.reported report)

def stamp (m : Monitor) : Monitor × Nat := ({ m with nextStamp := m.nextStamp + 1 }, m.nextStamp)

def running (m : Monitor) : Bool := m.poller.running

def workspace (m : Monitor) : Workspace := m.display.workspace

def project (m : Monitor) : Project := m.workspace.project

def create (settings : Settings) (device : Device) : Monitor :=
  { settings, device, cache := .zeros settings.cacheSize }

/-- A monitor that displays the networks of a workspace. -/
def createDisplay (settings : Settings) (device : Device) (workspace : Workspace) : Monitor :=
  { create settings device with listeners := [.display], display.workspace := workspace }

end Monitor

end LadderMonitor
