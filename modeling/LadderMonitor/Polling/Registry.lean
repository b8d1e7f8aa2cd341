import LadderMonitor.Plant.Address
import LadderMonitor.Polling.Batch

namespace LadderMonitor

/-- On whose behalf ranges are registered. -/
inductive Requester where
  | named (name : String)
  /-- A network without a name, known by its number. -/
  | network (net : Nat)
deriving DecidableEq, Repr

namespace Requester

/-- The text of a requester, given what tells networks without a name apart. -/
def text (identity : Nat → String) : Requester → String
  | named name => name
  | network net => "network:" ++ identity net

/-- On whose behalf a network is polled. -/
def ofNetwork (net : Nat) (name : String) : Requester :=
  if name.isEmpty then network net else named ("network:" ++ name)

/-- On whose behalf watch lists are polled. -/
def watch : Requester := named "watch"

end Requester

/-- Who receives the bytes of a range. Two subscribers are the same only if they were made as one.
-/
inductive Subscriber where
  /-- A subscriber outside the monitor, known by its name. -/
  | outside (name : String)
  /-- Marks the networks of a requester as due for evaluation. -/
  | display (requester : Requester) (stamp : Nat)
  /-- Shows the value at an address in a watch entry. -/
  | watch (entry : Nat) (resolved : ResolvedAddress) (stamp : Nat)
deriving DecidableEq, Repr

/-- Under what a registration is known. -/
structure RegistrationKey where
  requester : Requester
  range : ByteRange
deriving DecidableEq, Repr

/-- The interest of subscribers in a range, which is that of the key. The serial number tells a
registration from a later one under the same key. -/
structure Registration where
  serial : Nat
  key : RegistrationKey
  range : ByteRange
  subscribers : List Subscriber
  range_eq : range = key.range
deriving DecidableEq, Repr

attribute [simp] Registration.range_eq

/-- The registration that a subscriber opens under a key. -/
def Registration.single (serial : Nat) (key : RegistrationKey) (s : Subscriber) : Registration :=
  ⟨serial, key, key.range, [s], rfl⟩

/-- A registration with one more subscriber, unless it has it already. -/
def Registration.include (r : Registration) (s : Subscriber) : Registration :=
  if s ∈ r.subscribers then r else { r with subscribers := r.subscribers ++ [s] }

/-- All registrations, in the order in which they were made. -/
abbrev Registry := List Registration

namespace Registry

def find? (registry : Registry) (key : RegistrationKey) : Option Registration :=
  List.find? (·.key == key) registry

/-- Adds a subscriber under a key; a new key opens a registration with the serial number. -/
def add (serial : Nat) (key : RegistrationKey) (s : Subscriber) : Registry → Registry
  | [] => [.single serial key s]
  | r :: rest =>
    if r.key = key then r.include s :: rest
    else r :: add serial key s rest

/-- Removes a subscriber under a key; a registration without subscribers goes. -/
def remove (key : RegistrationKey) (s : Subscriber) : Registry → Registry
  | [] => []
  | r :: rest =>
    if r.key = key then
      let left := r.subscribers.filter (· ≠ s)
      if left.isEmpty then rest else { r with subscribers := left } :: rest
    else r :: remove key s rest

def ofRequester (requester : Requester) (registry : Registry) : List Registration :=
  registry.filter (·.key.requester = requester)

def removeAll (requester : Requester) (registry : Registry) : Registry :=
  registry.filter (·.key.requester ≠ requester)

/-- The subscriptions that a registry holds. -/
def Holds (registry : Registry) (key : RegistrationKey) (s : Subscriber) : Prop :=
  ∃ r ∈ registry, r.key = key ∧ s ∈ r.subscribers

/-- The registrations gathered into reads. -/
def batches (registry : Registry) (gapThreshold maxSize : Int) : List (Batch Registration) :=
  Batch.cluster (·.range) gapThreshold maxSize registry

end Registry

end LadderMonitor
