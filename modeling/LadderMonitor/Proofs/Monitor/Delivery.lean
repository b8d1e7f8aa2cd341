import LadderMonitor.Proofs.Memory.Image
import LadderMonitor.Proofs.Monitor.Sound

namespace LadderMonitor

/-- Whether a command leaves registrations, memory, ticks, listeners and the device alone. -/
def Command.aloof : Command → Bool
  | connected _ | active _ | evaluate _ | resolve _ | openList _ | lookUp .. | edit _ | fail => true
  | _ => false

/-- The bytes of an answer from an address on that belong to a registration. -/
def Registration.share (start : Int) (data : Bytes) (r : Registration) : Bytes :=
  data.slice (r.key.range.start - start) (r.key.range.start - start + r.key.range.size)

/-- The calls that hand the bytes of an image to the subscribers of a registration. -/
def Registration.deliveries (image : Int → UInt8) (r : Registration) : List Event :=
  r.subscribers.map fun s =>
    .delivered r.key s (Bytes.ofImage image r.key.range.start r.key.range.size)

/-- The calls that hand the bytes of an image to the subscribers of the registrations of a batch. -/
def Batch.deliveries (image : Int → UInt8) (b : Batch Registration) : List Event :=
  b.items.flatMap (·.deliveries image)

namespace Monitor

/-- The calls of subscribers and listeners so far, the oldest first. -/
def calls (m : Monitor) : List Event := (m.journal.filter Event.isCall).reverse

/-- The calls that hand an answer to the subscribers of a registration, unless the answer ends
before the registration does. -/
def servings (m : Monitor) (start : Int) (data : Bytes) (r : Registration) : List Event :=
  if data.size < r.key.range.start - start + r.key.range.size then []
  else (m.subscribersOf r.serial).map fun s => .delivered r.key s (r.share start data)

/-- Calls are made, and otherwise what polling rests on stays as it is. -/
structure OnlyCalls (events : List Event) (m m' : Monitor) : Prop where
  registry : m'.registry = m.registry
  retired : m'.retired = m.retired
  cache : m'.cache = m.cache
  listeners : m'.listeners = m.listeners
  ticks : m'.ticks = m.ticks
  device : m'.device = m.device
  reactions : m'.reactions = m.reactions
  calls : m'.calls = m.calls ++ events

namespace OnlyCalls

variable {events more : List Event} {m m' m'' : Monitor}

theorem refl (m : Monitor) : OnlyCalls [] m m :=
  ⟨rfl, rfl, rfl, rfl, rfl, rfl, rfl, (List.append_nil _).symm⟩

theorem trans (h : OnlyCalls events m m') (h' : OnlyCalls more m' m'') :
    OnlyCalls (events ++ more) m m'' where
  registry := h'.registry.trans h.registry
  retired := h'.retired.trans h.retired
  cache := h'.cache.trans h.cache
  listeners := h'.listeners.trans h.listeners
  ticks := h'.ticks.trans h.ticks
  device := h'.device.trans h.device
  reactions := h'.reactions.trans h.reactions
  calls := by rw [h'.calls, h.calls, List.append_assoc]

theorem note_call {event : Event} (hcall : event.isCall) (m : Monitor) :
    OnlyCalls [event] m (m.note event) :=
  ⟨rfl, rfl, rfl, rfl, rfl, rfl, rfl, by simp [Monitor.calls, Monitor.note, hcall]⟩

theorem note_other (event : Event) (hother : event.isCall = false) (m : Monitor) :
    OnlyCalls [] m (m.note event) :=
  ⟨rfl, rfl, rfl, rfl, rfl, rfl, rfl, by simp [Monitor.calls, Monitor.note, hother]⟩

theorem reportIf {o : Outcome} (h : OnlyCalls events m o.1) (report : Report) :
    OnlyCalls events m (reportIf o report) := by
  rcases o with ⟨m', fault⟩
  cases fault with
  | none => exact h
  | some fault =>
    have hnoted := h.trans (note_other (.reported report) rfl m')
    rwa [List.append_nil] at hnoted

/-- Predicates may be asked, and what is displayed may change. -/
theorem quiet (m : Monitor) (connected active : Option Predicate) (display : Display)
    (watchLists : List (List WatchEntry)) :
    OnlyCalls [] m { m with connected, active, display, watchLists } :=
  ⟨rfl, rfl, rfl, rfl, rfl, rfl, rfl, (List.append_nil _).symm⟩

/-- Calls in a row are made one behind the other. -/
theorem foldl {α : Type} {f : Monitor → α → Monitor} {calls : α → List Event} {base : Monitor}
    {items : List α} {before : List Event} (hbase : OnlyCalls before base m)
    (hstep : ∀ a ∈ items, ∀ (m : Monitor) before, OnlyCalls before base m →
      OnlyCalls (calls a) m (f m a)) :
    OnlyCalls (items.flatMap calls) m (items.foldl f m) := by
  induction items generalizing m before with
  | nil => exact refl m
  | cons a rest ih =>
    have hfirst := hstep a List.mem_cons_self m before hbase
    rw [List.flatMap_cons, List.foldl_cons]
    exact hfirst.trans (ih (hbase.trans hfirst)
      fun other hother => hstep other (List.mem_cons_of_mem a hother))

theorem strike (h : OnlyCalls events m m') (ticket : Nat) :
    OnlyCalls events (m.strike ticket) (m'.strike ticket) where
  registry := h.registry
  retired := h.retired
  cache := h.cache
  listeners := h.listeners
  ticks := by simp only [Monitor.strike, h.ticks]
  device := h.device
  reactions := h.reactions
  calls := h.calls

theorem store (h : OnlyCalls events m m') (start : Int) (data : Bytes) :
    OnlyCalls events (m.store start data) (m'.store start data) where
  registry := h.registry
  retired := h.retired
  cache := by simp only [Monitor.store, h.cache]
  listeners := h.listeners
  ticks := h.ticks
  device := h.device
  reactions := h.reactions
  calls := h.calls

end OnlyCalls

/-- Nobody is called and the memory stays, whatever else may happen to the monitor. -/
structure Spares (m m' : Monitor) : Prop where
  cache : m'.cache = m.cache
  reactions : m'.reactions = m.reactions
  calls : m'.calls = m.calls

/-- Subscribers do not call back into polling, and listeners do not reset it, as long as what those
outside do is what is given. Both may fail, and listeners may register, start and stop. -/
structure Reactor.Aloof (react : Reactor) (reactions : List (String × Reaction)) : Prop where
  deliver : ∀ s data (m : Monitor), m.reactions = reactions →
    OnlyCalls [] m (react.deliver s data m).1
  tell : ∀ listener (m : Monitor), m.reactions = reactions → Spares m (react.tell listener m).1

theorem OnlyCalls.spares {m m' : Monitor} (h : OnlyCalls [] m m') : Spares m m' :=
  ⟨h.cache, h.reactions, by simpa using h.calls⟩

theorem overlooks_onlyCalls : Overlooks (OnlyCalls []) :=
  .of_shown ⟨.refl, .trans⟩ (fun m net => .note_other (.evaluated net) rfl m)
    (fun m report => .note_other (.reported report) rfl m)
    fun m active _ _ watchLists => .quiet m m.connected active _ watchLists

theorem onlyCalls_perform (react : Reactor) {command : Command} (haloof : command.aloof)
    (m : Monitor) : OnlyCalls [] m (m.perform react command).1 := by
  cases command with
  | evaluate net => exact overlooks_onlyCalls.evaluate m net
  | resolve target => exact overlooks_onlyCalls.ask m target
  | connected change => exact .quiet m _ _ _ _
  | active change => exact .quiet m _ _ _ _
  | openList list => exact .quiet m _ _ _ _
  | lookUp list name => exact .quiet m _ _ _ _
  | edit edit => exact .quiet m _ _ _ _
  | fail => exact .refl m
  | _ => cases haloof

/-- Displays and watch lists are aloof, and so are those outside that give aloof commands only. -/
theorem aloof_reactor {reactions : List (String × Reaction)}
    (h : ∀ entry ∈ reactions, ∀ command ∈ entry.2.commands, command.aloof) :
    reactor.Aloof reactions := by
  have houtside (name : String) (m : Monitor) (hreactions : m.reactions = reactions) :
      OnlyCalls [] m (m.reactOutside (performWithin reactionDepth) name).1 := by
    unfold reactOutside
    split
    · exact .refl m
    · rename_i reaction hfound
      refine overlooks_onlyCalls.andThen (overlooks_onlyCalls.forEach ?_ m) .refl
      intro command hcommand m
      rw [hreactions] at hfound
      exact onlyCalls_perform _ (h _ (Assoc.mem_of_get? hfound) command hcommand) m
  constructor
  · intro s data m hreactions
    cases s with
    | outside name => exact houtside name m hreactions
    | display requester stamp => exact overlooks_onlyCalls.markDue m requester
    | watch serial r stamp => exact overlooks_onlyCalls.showValue m serial r data
  · intro listener m hreactions
    cases listener with
    | outside name => exact (houtside name m hreactions).spares
    | display => exact (overlooks_onlyCalls.flush m).spares

theorem subscribersOf_eq {m : Monitor} (hsound : m.registry.Sound) {r : Registration}
    (hr : r ∈ m.registry) : m.subscribersOf r.serial = r.subscribers := by
  have hfind : List.find? (·.serial == r.serial) m.registry = some r := by
    cases hfound : List.find? (·.serial == r.serial) m.registry with
    | none => simpa using List.find?_eq_none.1 hfound r hr
    | some r' =>
      have hserial : r'.serial = r.serial := by simpa using List.find?_some hfound
      rw [hsound.eq_of_serial (List.mem_of_find?_eq_some hfound) hr hserial]
  rw [subscribersOf, hfind]

section Aloof

variable {react : Reactor} {reactions : List (String × Reaction)} {m : Monitor}
  {image : Int → UInt8}

theorem onlyCalls_notify (haloof : react.Aloof reactions) (hreactions : m.reactions = reactions)
    (key : RegistrationKey) (data : Bytes) (s : Subscriber) :
    OnlyCalls [.delivered key s data] m (m.notify react key data s) := by
  have hnoted : OnlyCalls [.delivered key s data] m (m.note (.delivered key s data)) :=
    .note_call rfl m
  exact (hnoted.trans (haloof.deliver s data _ hreactions)).reportIf _

theorem tell_told (haloof : react.Aloof reactions) (hreactions : m.reactions = reactions)
    (listener : Listener) :
    (m.tell react listener).cache = m.cache ∧ (m.tell react listener).reactions = m.reactions ∧
      (m.tell react listener).calls = m.calls ++ [.told listener] := by
  have hnoted : (m.note (.told listener)).calls = m.calls ++ [.told listener] :=
    (OnlyCalls.note_call rfl m).calls
  have hspared := haloof.tell listener (m.note (.told listener)) hreactions
  rw [← hnoted]
  unfold tell reportIf
  split
  · rename_i heq
    rw [heq] at hspared
    exact ⟨hspared.cache, hspared.reactions, hspared.calls⟩
  · rename_i m' fault heq
    rw [heq] at hspared
    have hreported := (OnlyCalls.note_other (.reported .listenerFailed) rfl m').spares
    exact ⟨hreported.cache.trans hspared.cache, hreported.reactions.trans hspared.reactions,
      hreported.calls.trans hspared.calls⟩

/-- Each of those who listen at the end of a tick is told of it once, in order. -/
theorem tellAll_told (haloof : react.Aloof reactions) (hreactions : m.reactions = reactions) :
    (m.tellAll react).cache = m.cache ∧
      (m.tellAll react).calls = m.calls ++ m.listeners.map .told := by
  unfold tellAll
  generalize m.listeners = listeners
  induction listeners generalizing m with
  | nil => simp
  | cons listener rest ih =>
    obtain ⟨hcache, hkept, hcalls⟩ := tell_told haloof hreactions listener
    obtain ⟨hcache', hcalls'⟩ := ih (hkept.trans hreactions)
    refine ⟨hcache'.trans hcache, ?_⟩
    rw [List.foldl_cons, hcalls', hcalls, List.map_cons, List.append_assoc, List.singleton_append]

/-- A registration is served by handing its bytes to each of its subscribers. -/
theorem onlyCalls_serve (haloof : react.Aloof reactions) (hreactions : m.reactions = reactions)
    (start : Int) (data : Bytes) (r : Registration) :
    OnlyCalls (m.servings start data r) m (m.serve react start data r) := by
  unfold serve servings
  simp only [Registration.range_eq]
  split
  · exact .refl m
  · rw [notifyAll, List.map_eq_flatMap]
    exact OnlyCalls.foldl (.refl m) fun s _ m' before hbefore =>
      onlyCalls_notify haloof (hbefore.reactions.trans hreactions) _ _ s

/-- An answer goes into the cache, and to the registrations of the batch one after the other. -/
theorem onlyCalls_receive (haloof : react.Aloof reactions) (hreactions : m.reactions = reactions)
    (b : Batch Registration) (data : Bytes) :
    OnlyCalls (b.items.flatMap (m.servings b.start data)) (m.store b.start data)
      (m.receive react b (.ok data)) := by
  refine OnlyCalls.foldl (.refl _) fun r hr m' before hbefore => ?_
  have hsame : m'.servings b.start data r = m.servings b.start data r := by
    rw [servings, servings, subscribersOf, subscribersOf, hbefore.registry, hbefore.retired]
    rfl
  rw [← hsame]
  exact onlyCalls_serve haloof (hbefore.reactions.trans hreactions) b.start data r

theorem servings_ofImage (hsound : m.registry.Sound) {b : Batch Registration}
    (hcovers : b.Covers (·.key.range)) {r : Registration} (hr : r ∈ b.items)
    (hregistered : r ∈ m.registry) :
    m.servings b.start (Bytes.ofImage image b.start b.size) r = r.deliveries image := by
  obtain ⟨hstart, hstop⟩ := hcovers.inside r hr
  have hrange := hsound.ranges r hregistered
  have hinside : r.key.range.start + r.key.range.size ≤ b.start + b.size := by
    unfold ByteRange.stop at hstop
    unfold Batch.size
    omega
  rw [servings, if_neg (by rw [Bytes.size_ofImage]; omega), Registration.share,
    Bytes.slice_ofImage hstart (by omega) hinside, subscribersOf_eq hsound hregistered,
    Registration.deliveries]

/-- A full answer goes into the cache, and its bytes to the subscribers of each registration of the
batch. -/
theorem onlyCalls_receive_ok (haloof : react.Aloof reactions) (hreactions : m.reactions = reactions)
    (hsound : m.registry.Sound) {b : Batch Registration} (hcovers : b.Covers (·.key.range))
    (hregistered : ∀ r ∈ b.items, r ∈ m.registry) :
    OnlyCalls (b.deliveries image)
      (m.store b.start (Bytes.ofImage image b.start b.size))
      (m.receive react b (.ok (Bytes.ofImage image b.start b.size))) := by
  have hcalls : b.items.flatMap (m.servings b.start (Bytes.ofImage image b.start b.size)) =
      b.deliveries image :=
    List.flatMap_congr fun r hr => servings_ofImage hsound hcovers hr (hregistered r hr)
  rw [← hcalls]
  exact onlyCalls_receive haloof hreactions b _

theorem onlyCalls_receive_error (fault : Fault) (b : Batch Registration) :
    OnlyCalls [] m (m.receive react b (.error fault)) :=
  .note_other _ rfl m

end Aloof

end Monitor

end LadderMonitor
