import LadderMonitor.Memory.Codec
import LadderMonitor.Monitor.Polling

namespace LadderMonitor

namespace Monitor

/-- Makes room for the watch list with a number: a list comes into being when it is first used,
together with those before it. -/
def openList (list : Nat) (m : Monitor) : Monitor :=
  { m with watchLists :=
    m.watchLists ++ List.replicate (list + 1 - m.watchLists.length) [] }

def entries (list : Nat) (m : Monitor) : List WatchEntry := m.watchLists.getD list []

def entry? (list : Nat) (name : String) (m : Monitor) : Option WatchEntry :=
  (m.entries list).find? (·.name == name)

/-- Changes the entry with a serial number. -/
def modifyEntry (serial : Nat) (change : WatchEntry → WatchEntry) (m : Monitor) : Monitor :=
  { m with watchLists :=
    m.watchLists.map (·.map fun e => if e.serial = serial then change e else e) }

/-- Under what a watched address is registered. -/
def watchKey (r : ResolvedAddress) : RegistrationKey := ⟨.watch, ⟨r.address, r.size⟩⟩

/-- Registers a fresh subscriber that shows the value at an address in an entry. -/
def subscribeEntry (serial : Nat) (r : ResolvedAddress) (m : Monitor) : Outcome :=
  let (m, stamp) := m.stamp
  let s := Subscriber.watch serial r stamp
  (m.modifyEntry serial fun e => { e with update := some s }).register (watchKey r) s

/-- Resolves the name of an entry and polls its address. -/
def startEntry (e : WatchEntry) (m : Monitor) : Outcome :=
  match m.project.resolveText e.name with
  | .error fault => (m, some fault)
  | .ok resolved =>
    let m := m.modifyEntry e.serial fun e => { e with resolved, value := none }
    match resolved with
    | none => (m, none)
    | some r => m.subscribeEntry e.serial r

def stopEntry (e : WatchEntry) (m : Monitor) : Monitor :=
  match e.resolved, e.update with
  | some r, some s =>
    (m.unregister (watchKey r) s).modifyEntry e.serial fun e => { e with update := none }
  | _, _ => m

/-- Adds an entry to a watch list, unless the list has one of this name. The entry stays when its
name cannot be resolved. -/
def watch (list : Nat) (name : String) (m : Monitor) : Outcome :=
  let m := m.openList list
  match m.entry? list name with
  | some _ => (m, none)
  | none =>
    let (m, serial) := m.stamp
    let e : WatchEntry := { serial, name }
    startEntry e { m with watchLists := m.watchLists.modify list (· ++ [e]) }

def unwatch (list : Nat) (name : String) (m : Monitor) : Monitor :=
  let m := m.openList list
  match m.entry? list name with
  | none => m
  | some e => stopEntry e
    { m with watchLists := m.watchLists.modify list (·.filter (·.name ≠ name)) }

def clearList (list : Nat) (m : Monitor) : Monitor :=
  let m := m.openList list
  ((m.entries list).map (·.name)).foldl (fun m name => m.unwatch list name) m

/-- Resolves every entry of a watch list anew, up to the first that fails. -/
def refreshList (list : Nat) (m : Monitor) : Outcome :=
  let m := m.openList list
  Outcome.forEach (fun e m => (m.stopEntry e).startEntry e) (m.entries list) m

/-- Asks for an entry of a watch list, which must have it. -/
def lookUp (list : Nat) (name : String) (m : Monitor) : Outcome :=
  let m := m.openList list
  (m, if (m.entry? list name).isSome then none else some (.noEntry name))

/-- Shows the value of bytes in an entry; bytes that are too few or misplaced for the value leave it
without one. -/
def showValue (serial : Nat) (r : ResolvedAddress) (data : Bytes) (m : Monitor) : Outcome :=
  match Codec.decode r data with
  | .ok value => (m.modifyEntry serial fun e => { e with value := some value }, none)
  | .error fault =>
    if fault.Reported then (m.modifyEntry serial fun e => { e with value := none }, none)
    else (m, some fault)

end Monitor

end LadderMonitor
