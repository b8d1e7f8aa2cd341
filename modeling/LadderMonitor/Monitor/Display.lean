import LadderMonitor.Ladder.PowerFlow
import LadderMonitor.Monitor.Polling

namespace LadderMonitor

/-- The range at which the symbol of a block lies now, if it has one. -/
def Block.range? (p : Project) (b : Block) : Except Fault (Option ByteRange) :=
  if b.symbol.isEmpty then .ok none
  else (·.map fun r => ⟨r.address, r.size⟩) <$> p.resolveText b.symbol

/-- The distinct ranges at which the symbols of blocks lie now, in order. -/
def Block.ranges (p : Project) (blocks : List Block) : Except Fault (List ByteRange) :=
  (ByteRange.sortDistinct ·.reduceOption) <$> blocks.mapM (Block.range? p)

namespace Monitor

def modifyNetwork (net : Nat) (change : Network → Network) (m : Monitor) : Monitor :=
  { m with display.workspace := m.workspace.modify net change }

/-- On whose behalf a network is polled. -/
def requesterOf (m : Monitor) (net : Nat) : Requester :=
  .ofNetwork net (match m.workspace.network? net with
    | some n => n.name
    | none => "")

def evaluate (net : Nat) (m : Monitor) : Outcome :=
  match (m.note (.evaluated net)).askActive with
  | (.error fault, m) => (m, some fault)
  | (.ok false, m) => (m, none)
  | (.ok true, m) =>
    match m.workspace.network? net with
    | none => (m, none)
    | some n =>
      let (n, fault) := n.evaluate m.project m.cache
      (m.modifyNetwork net fun _ => n, fault)

/-- The level of a block's symbol in the cache, inversion aside. The block remembers where its
symbol lies. -/
def level (net : Nat) (id : String) (m : Monitor) : Monitor × Except Fault Bool :=
  match (m.workspace.network? net).bind (·.block? id) with
  | none => (m, .ok false)
  | some b =>
    let (b, answer) := b.level m.project m.cache
    (m.modifyNetwork net fun n =>
      { n with blocks := modifyFirst (·.id == id) (fun _ => b) n.blocks }, answer)

def invalidate (net : Nat) (m : Monitor) : Monitor := m.modifyNetwork net Network.invalidate

/-- The subscriber that marks the networks of a requester as due; it is made once. -/
def marker (requester : Requester) (m : Monitor) : Monitor × Subscriber :=
  match Assoc.get? requester m.display.markers with
  | some s => (m, s)
  | none =>
    let (m, stamp) := m.stamp
    let s := Subscriber.display requester stamp
    ({ m with display.markers := Assoc.set requester s m.display.markers }, s)

def registerAll (requester : Requester) (s : Subscriber) : List ByteRange → Monitor → Outcome :=
  Outcome.forEach fun range => register ⟨requester, range⟩ s

/-- Removes a subscriber from the registrations of its requester for other ranges than these. -/
def dropOthers (requester : Requester) (s : Subscriber) (wanted : List ByteRange) (m : Monitor) :
    Monitor :=
  (Registry.ofRequester requester m.registry).foldl
    (fun m r => if r.range ∈ wanted then m else m.unregister ⟨requester, r.range⟩ s) m

/-- Makes the registrations of a requester those of a network's symbols. New ranges are registered
before others are dropped, so that polling does not stop in between. When a symbol cannot be
resolved, the registrations stay. -/
def sync (requester : Requester) (net : Nat) (m : Monitor) : Outcome :=
  let (m, s) := m.marker requester
  match Block.ranges m.project (((m.workspace.network? net).map (·.blocks)).getD []) with
  | .error fault => (m, some fault)
  | .ok wanted =>
    (m.registerAll requester s wanted).andThen fun m => (m.dropOthers requester s wanted, none)

/-- Polls the symbols of a network and evaluates it at once and after every update. For a network
that is attached already the symbols are resolved anew. -/
def attach (net : Nat) (m : Monitor) : Outcome :=
  let requester := m.requesterOf net
  let m := m.invalidate net
  let m := { m with display.attached := Assoc.set requester net m.display.attached }
  (m.sync requester net).andThen (evaluate net)

/-- Ends the polling of a network. -/
def detach (net : Nat) (m : Monitor) : Monitor :=
  let requester := m.requesterOf net
  let attached := m.display.attached
  let m := { m with
    display.markers := Assoc.erase requester m.display.markers
    display.due := m.display.due.filter (· ≠ requester)
    display.attached := Assoc.erase requester attached }
  match Assoc.get? requester attached with
  | some _ => m.unregisterAll requester
  | none => m

def markDue (requester : Requester) (m : Monitor) : Monitor :=
  if requester ∈ m.display.due then m
  else { m with display.due := requester :: m.display.due }

def evaluateAttached (requester : Requester) (m : Monitor) : Outcome :=
  match Assoc.get? requester m.display.attached with
  | some net => m.evaluate net
  | none => (m, none)

def textOf (m : Monitor) (requester : Requester) : String :=
  requester.text fun net => toString (m.workspace.identity net)

/-- The requesters whose networks are due, in the order of their texts. -/
def dueInOrder (m : Monitor) : List Requester :=
  m.display.due.mergeSort fun a b => m.textOf a ≤ m.textOf b

/-- Evaluates the networks that are due, up to the first that fails; then none is due any more. -/
def flush (m : Monitor) : Outcome :=
  Outcome.forEach evaluateAttached m.dueInOrder { m with display.due := [] }

/-- Drops the remembered resolutions of the project's networks and of those that are attached. -/
def invalidateAll (m : Monitor) : Monitor :=
  (List.range m.project.networks.length ++ m.display.attached.map (·.2)).foldl
    (fun m net => m.invalidate net) m

/-- Forgets remembered addresses and memory: attached networks are resolved anew and polled at their
present addresses, the cache is zeroed, and subscribers and listeners are served. -/
def reset (react : Reactor) (m : Monitor) : Outcome :=
  let m := m.invalidateAll
  (Outcome.forEach (fun (requester, net) => sync requester net) m.display.attached m).andThen
    fun m => (m.resetMemory react, none)

end Monitor

end LadderMonitor
