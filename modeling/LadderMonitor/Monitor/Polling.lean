import LadderMonitor.Monitor.State

namespace LadderMonitor

namespace Monitor

/-- What a predicate answers, and the predicate afterwards. -/
def consult (p : Option Predicate) (fault : Fault) : Except Fault Bool × Option Predicate :=
  match p with
  | none => (.ok true, none)
  | some p =>
    (match p.reply with
      | .yes => .ok true
      | .no => .ok false
      | .failing => .error fault, some p.asked)

def askActive (m : Monitor) : Except Fault Bool × Monitor :=
  let (answer, active) := consult m.active .activeFailed
  (answer, { m with active })

def askConnected (m : Monitor) : Except Fault Bool × Monitor :=
  let (answer, connected) := consult m.connected .connectedFailed
  (answer, { m with connected })

/-- Asks whether the device is connected and, if so, whether monitoring is active. -/
def askReady (m : Monitor) : Except Fault Bool × Monitor :=
  match m.askConnected with
  | (.ok true, m) => m.askActive
  | other => other

/-- Starts polling, unless it goes on already. -/
def start (m : Monitor) : Monitor :=
  if m.running || !m.loop then m else { m with poller := m.poller.launch }

/-- Stops polling. A task inside a tick finishes the tick first. -/
def stop (m : Monitor) : Monitor := { m with poller := m.poller.halt }

/-- Enters a subscriber for a range into the registry. -/
def enter (key : RegistrationKey) (s : Subscriber) (m : Monitor) : Monitor :=
  let (m, serial) := m.stamp
  { m with registry := Registry.add serial key s m.registry }

/-- Starts polling if it does not go on already and monitoring is active. -/
def startIfActive (m : Monitor) : Outcome :=
  if m.running then (m, none)
  else
    match m.askActive with
    | (.ok true, m) => (m.start, none)
    | (.ok false, m) => (m, none)
    | (.error fault, m) => (m, some fault)

/-- Registers a subscriber for a range, and starts polling if monitoring is active. Empty ranges and
ranges before the first address are ignored. -/
def register (key : RegistrationKey) (s : Subscriber) (m : Monitor) : Outcome :=
  if key.range.size ≤ 0 || key.range.start < 0 then (m, none)
  else (m.enter key s).startIfActive

/-- Stops polling when nothing is registered any more. -/
def stopIfIdle (m : Monitor) : Monitor := if m.registry.isEmpty then m.stop else m

def unregister (key : RegistrationKey) (s : Subscriber) (m : Monitor) : Monitor :=
  stopIfIdle { m with registry := Registry.remove key s m.registry }

def unregisterAll (requester : Requester) (m : Monitor) : Monitor :=
  let gone := Registry.ofRequester requester m.registry
  stopIfIdle
    { m with registry := Registry.removeAll requester m.registry, retired := gone ++ m.retired }

/-- Adds a listener that is told of the end of every tick, behind those that there are. -/
def listen (listener : Listener) (m : Monitor) : Monitor :=
  if listener ∈ m.listeners then m else { m with listeners := m.listeners ++ [listener] }

def unlisten (listener : Listener) (m : Monitor) : Monitor :=
  { m with listeners := m.listeners.erase listener }

/-- The subscribers that a registration has now. One that was removed as a whole keeps those that it
had; one that lost its last subscriber has none. -/
def subscribersOf (m : Monitor) (serial : Nat) : List Subscriber :=
  match List.find? (·.serial == serial) m.registry with
  | some r => r.subscribers
  | none =>
    match List.find? (·.serial == serial) m.retired with
    | some r => r.subscribers
    | none => []

/-- What happens inside a subscriber and inside a listener. -/
structure Reactor where
  deliver : Subscriber → Bytes → Monitor → Outcome
  tell : Listener → Monitor → Outcome

/-- Hands bytes to a subscriber; its failure is reported and goes no further. -/
def notify (react : Reactor) (key : RegistrationKey) (data : Bytes) (m : Monitor)
    (s : Subscriber) : Monitor :=
  reportIf (react.deliver s data (m.note (.delivered key s data))) (.subscriberFailed key)

def notifyAll (react : Reactor) (r : Registration) (data : Bytes) (m : Monitor) : Monitor :=
  (m.subscribersOf r.serial).foldl (notify react r.key data) m

/-- Hands the answer of a batch to one of its registrations, if it covers the range. -/
def serve (react : Reactor) (start : Int) (data : Bytes) (m : Monitor) (r : Registration) :
    Monitor :=
  let offset := r.range.start - start
  if data.size < offset + r.range.size then m
  else m.notifyAll react r (data.slice offset (offset + r.range.size))

/-- Puts bytes into the cache as far as it reaches. -/
def store (start : Int) (data : Bytes) (m : Monitor) : Monitor :=
  { m with cache := m.cache.overwrite start data.toList }

def receive (react : Reactor) (batch : Batch Registration) (answer : Except Fault Bytes)
    (m : Monitor) : Monitor :=
  match answer with
  | .error fault => m.note (.reported (.readFailed batch.size batch.start fault))
  | .ok data => batch.items.foldl (serve react batch.start data) (m.store batch.start data)

/-- Tells one listener that a tick has ended; its failure is reported and goes no further. -/
def tell (react : Reactor) (m : Monitor) (listener : Listener) : Monitor :=
  reportIf (react.tell listener (m.note (.told listener))) .listenerFailed

def tellAll (react : Reactor) (m : Monitor) : Monitor := m.listeners.foldl (tell react) m

/-- Zeroes the cache, and goes back to the first window of batches. -/
def clear (m : Monitor) : Monitor := { m with cache := .zeros m.cache.size, cursor := 0 }

/-- Hands zeros to every subscriber. -/
def notifyZeros (react : Reactor) (m : Monitor) : Monitor :=
  m.registry.foldl (fun m r => m.notifyAll react r (.zeros r.range.size.toNat)) m

/-- Zeroes the cache, hands zeros to every subscriber, and tells the listeners. -/
def resetMemory (react : Reactor) (m : Monitor) : Monitor :=
  (m.clear.notifyZeros react).tellAll react

/-- The reads of a tick, with fresh tickets. -/
def askReads (m : Monitor) : List (Batch Registration) → Monitor × List PendingRead
  | [] => (m, [])
  | batch :: rest =>
    if batch.size ≤ 0 then askReads m rest
    else
      let (m, ticket) := (m.note (.asked batch.start batch.size)).stamp
      let (m, reads) := askReads m rest
      (m, ⟨ticket, batch⟩ :: reads)

/-- Chooses batches and asks their reads. -/
def beginReads (owner : Option Nat) (m : Monitor) : Except Fault Tick × Monitor :=
  let batches := Registry.batches m.registry m.settings.gapThreshold m.settings.maxBatchSize
  match Batch.select batches m.cursor m.settings.maxBatchesPerTick with
  | .error fault => (.error fault, m)
  | .ok (chosen, cursor) =>
    let (m, id) := { m with cursor }.stamp
    let (m, pending) := m.askReads chosen
    (.ok ⟨id, owner, pending⟩, m)

/-- Begins a tick. There is none while the device is not connected, monitoring is not active, or
nothing is registered. The answers to its reads may come in any order. -/
def beginTick (owner : Option Nat) (m : Monitor) : Except Fault (Option Tick) × Monitor :=
  match m.askReady with
  | (.error fault, m) => (.error fault, m)
  | (.ok false, m) => (.ok none, m)
  | (.ok true, m) =>
    if m.registry.isEmpty then (.ok none, m)
    else
      match m.beginReads owner with
      | (.error fault, m) => (.error fault, m)
      | (.ok tick, m) => (.ok (some tick), { m with ticks := m.ticks ++ [tick] })

/-- A poll task goes on after a tick: it sleeps again if it is still the current one, and otherwise
ends. -/
def resume (id : Nat) (m : Monitor) : Monitor :=
  if m.poller.current = some id then
    { m with poller := m.poller.setPhase id (.sleeping (m.clock + m.settings.interval)) }
  else { m with poller := m.poller.finish id }

/-- A tick is over, and a poll task that waited for it goes on. -/
def closeTick (tick : Tick) (m : Monitor) : Monitor :=
  let m := { m with ticks := m.ticks.filter (·.id ≠ tick.id) }
  match tick.owner with
  | none => m
  | some id => m.resume id

def endTick (react : Reactor) (tick : Tick) (m : Monitor) : Monitor :=
  (m.tellAll react).closeTick tick

def strike (ticket : Nat) (m : Monitor) : Monitor :=
  { m with ticks := m.ticks.map (·.without ticket) }

def answer (react : Reactor) (read : PendingRead) (answer : Except Fault Bytes) (m : Monitor) :
    Monitor :=
  receive react read.batch answer (m.strike read.ticket)

def heldReads (m : Monitor) : List (Tick × PendingRead) :=
  m.ticks.flatMap fun tick => tick.pending.map fun read => (tick, read)

/-- Answers a read by its ticket, if it is still pending, in the way in which a device answers, and
ends the tick if it was the last one. -/
def answerFrom (react : Reactor) (port : Port) (ticket : Nat) (m : Monitor) : Monitor :=
  match m.heldReads.find? (·.2.ticket == ticket) with
  | some (tick, read) =>
    let m := m.answer react read (port read.batch.start read.batch.size)
    if (tick.without ticket).pending.isEmpty then m.endTick react tick else m
  | none => m

/-- The device answers a read by its ticket, if it is still pending. -/
def release (react : Reactor) (ticket : Nat) (m : Monitor) : Monitor :=
  m.answerFrom react m.device.read ticket

/-- Answers the reads of a tick that has just begun, in order, unless the device holds them back. A
tick without reads ends at once. -/
def runTick (react : Reactor) (tick : Tick) (m : Monitor) : Monitor :=
  if tick.pending.isEmpty then m.endTick react tick
  else if m.device.holding then m
  else tick.pending.foldl (fun m read => m.release react read.ticket) m

/-- A tick of its own, beside the poll tasks. -/
def tick (react : Reactor) (m : Monitor) : Outcome :=
  match m.beginTick none with
  | (.error fault, m) => (m, some fault)
  | (.ok none, m) => (m, none)
  | (.ok (some tick), m) => (m.runTick react tick, none)

/-- Whether a poll task that wakes up goes on to a tick. It ends when it is not the current one,
when the device is not connected or monitoring not active, and when a predicate fails. -/
def goesOn (id : Nat) (m : Monitor) : Bool × Monitor :=
  if m.poller.current ≠ some id then (false, { m with poller := m.poller.finish id })
  else
    match m.askReady with
    | (.error _, m) => (false, { m with poller := m.poller.finish id })
    | (.ok false, m) => (false, { m with poller := { m.poller.finish id with current := none } })
    | (.ok true, m) => (true, m)

/-- A poll task enters a tick. When no tick begins after all, it sleeps again or ends. -/
def enterTick (id : Nat) (m : Monitor) : Monitor × Option Tick :=
  match { m with poller := m.poller.setPhase id .ticking }.beginTick (some id) with
  | (.error _, m) => ((m.note (.reported .pollingFailed)).resume id, none)
  | (.ok none, m) => (m.resume id, none)
  | (.ok (some tick), m) => (m, some tick)

/-- A poll task wakes up, and ends or begins a tick. -/
def wakeUp (id : Nat) (m : Monitor) : Monitor × Option Tick :=
  match m.goesOn id with
  | (false, m) => (m, none)
  | (true, m) => m.enterTick id

/-- A poll task wakes up, and the reads of the tick that it begins are answered. -/
def wake (react : Reactor) (id : Nat) (m : Monitor) : Monitor :=
  match m.wakeUp id with
  | (m, none) => m
  | (m, some tick) => m.runTick react tick

/-- One poll task does what it can without the clock moving: a new task goes to sleep, and a
cancelled one ends. An interval that no finite number is near ends a new task. -/
def settleTask (m : Monitor) (task : PollTask) : Option PollTask :=
  match task.phase with
  | .cancelled => none
  | .created =>
    if m.settings.intervalSeconds.isOk then
      some { task with phase := .sleeping (m.clock + m.settings.interval) }
    else none
  | _ => some task

/-- The poll tasks with certain numbers do what they can without the clock moving. -/
def settleOnly (which : Nat → Bool) (m : Monitor) : Monitor :=
  { m with poller := { m.poller with
    tasks := m.poller.tasks.filterMap fun t => if which t.id then m.settleTask t else some t } }

/-- All poll tasks do what they can without the clock moving. -/
def settle (m : Monitor) : Monitor := m.settleOnly fun _ => true

/-- The first wake-up by a time, of the one found so far and that of another task. -/
def firstWake (target : Nat) (best : Option (Nat × Nat)) (t : PollTask) : Option (Nat × Nat) :=
  match t.phase with
  | .sleeping wake =>
    if target < wake then best
    else match best with
      | some (earlier, _) => if wake < earlier then some (wake, t.id) else best
      | none => some (wake, t.id)
  | _ => best

/-- The sleeping task that wakes first, if it does so by a time. -/
def nextWake (m : Monitor) (target : Nat) : Option (Nat × Nat) :=
  m.poller.tasks.foldl (firstWake target) none

/-- Moves the clock to a time, with a stop at every wake-up on the way. -/
def advanceTo (react : Reactor) (target : Nat) : Nat → Monitor → Monitor
  | 0, m => { m with clock := target }
  | fuel + 1, m =>
    match m.nextWake target with
    | none => { m with clock := target }
    | some (time, id) => advanceTo react target fuel (wake react id { m with clock := time }).settle

/-- Moves the clock on. Every wake-up takes a sleep of at least a millisecond, so there are at most
as many as milliseconds, besides those that are due already. -/
def advance (react : Reactor) (time : Nat) (m : Monitor) : Monitor :=
  m.advanceTo react (m.clock + time) (time + m.poller.tasks.length + 1)

end Monitor

end LadderMonitor
