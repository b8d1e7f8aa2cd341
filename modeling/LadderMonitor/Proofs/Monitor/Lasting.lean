import LadderMonitor.Proofs.Ladder.Remembered
import LadderMonitor.Proofs.Monitor.Move
import LadderMonitor.Proofs.Polling.Subscriptions

namespace LadderMonitor

/-- Whether something done is a call of a subscriber or listener. -/
def Event.isCall : Event → Bool
  | delivered .. | told _ => true
  | _ => false

/-- Whether a command concerns registrations in general, the networks that are attached, or what
they are. -/
def Command.concerns : Command → Bool
  | register .. | unregister .. | unregisterAll _ | attach _ | detach _ | reset | edit _ => true
  | _ => false

/-- Whether a command changes what is watched. -/
def Command.watches : Command → Bool
  | watch .. | unwatch .. | clearList _ | refreshList _ => true
  | _ => false

/-- Whether a command consists of a move that listens, switches polling or replaces what is asked.
-/
def Command.Switches (command : Command) : Monitor.Move → Prop
  | .listen listener => command = .listen listener
  | .unlisten listener => command = .unlisten listener
  | .start => command = .start
  | .stop => command = .stop
  | .connected _ => ∃ change, command = .connected change
  | .active _ => ∃ change, command = .active change
  | .device _ => ∃ change, command = .device change
  | _ => False

namespace Monitor

/-- A relation that every state has to itself, and that goes on from one state to the next. -/
structure Lasting (R : Monitor → Monitor → Prop) : Prop where
  refl : ∀ m, R m m
  trans : ∀ {m m' m''}, R m m' → R m' m'' → R m m''

/-- What holds of a monitor goes on to hold. -/
def Keeps (I : Monitor → Prop) (m m' : Monitor) : Prop := I m → I m'

theorem lasting_keeps (I : Monitor → Prop) : Lasting (Keeps I) where
  refl := fun _ => id
  trans := fun h h' => h' ∘ h

variable {R : Monitor → Monitor → Prop}

namespace Lasting

variable (h : Lasting R) {α : Type}

include h

theorem foldl_of_mem {f : Monitor → α → Monitor} {items : List α}
    (hstep : ∀ a ∈ items, ∀ m, R m (f m a)) (m : Monitor) : R m (items.foldl f m) := by
  induction items generalizing m with
  | nil => exact h.refl m
  | cons a rest ih =>
    obtain ⟨hfirst, hrest⟩ := List.forall_mem_cons.1 hstep
    exact h.trans (hfirst m) (ih hrest (f m a))

theorem foldl {f : Monitor → α → Monitor} (hstep : ∀ m a, R m (f m a)) (items : List α)
    (m : Monitor) : R m (items.foldl f m) :=
  h.foldl_of_mem (fun a _ m => hstep m a) m

theorem andThen {m : Monitor} {o : Outcome} {next : Monitor → Outcome} (hfirst : R m o.1)
    (hnext : ∀ m, R m (next m).1) : R m (o.andThen next).1 := by
  rcases o with ⟨m', fault⟩
  cases fault with
  | none => exact h.trans hfirst (hnext m')
  | some fault => exact hfirst

theorem forEach {act : α → Monitor → Outcome} {items : List α}
    (hstep : ∀ a ∈ items, ∀ m, R m (act a m).1) (m : Monitor) :
    R m (Outcome.forEach act items m).1 := by
  induction items generalizing m with
  | nil => exact h.refl m
  | cons a rest ih =>
    obtain ⟨hfirst, hrest⟩ := List.forall_mem_cons.1 hstep
    exact h.andThen (hfirst m) (ih hrest)

variable {m : Monitor} {requester : Requester}

/-- A network is resolved anew by steps that make its marker, and register and unregister it for
ranges in the name of its requester. -/
theorem sync (net : Nat) (hmarked : R m (m.marker requester).1)
    (hregister : ∀ m' range, R m' (m'.register ⟨requester, range⟩ (m.marker requester).2).1)
    (hunregister : ∀ m' range, R m' (m'.unregister ⟨requester, range⟩ (m.marker requester).2)) :
    R m (m.sync requester net).1 := by
  refine h.trans hmarked ?_
  unfold Monitor.sync
  simp only
  split
  · exact h.refl _
  · refine h.andThen (h.forEach (fun range _ m' => hregister m' range) _) fun m' => ?_
    refine h.foldl_of_mem (fun r hr m' => ?_) m'
    obtain ⟨-, rfl⟩ := Registry.mem_ofRequester.1 hr
    split
    · exact h.refl m'
    · exact hunregister m' r.range

/-- A network is detached by steps that forget it and give up what is registered for it. -/
theorem detach (net : Nat)
    (hforgotten : R m { m with
      display.markers := Assoc.erase (m.requesterOf net) m.display.markers
      display.due := m.display.due.filter (· ≠ m.requesterOf net)
      display.attached := Assoc.erase (m.requesterOf net) m.display.attached })
    (hgivenUp : ∀ m', R m' (m'.unregisterAll (m.requesterOf net))) : R m (m.detach net) := by
  unfold Monitor.detach
  simp only
  split
  · exact h.trans hforgotten (hgivenUp _)
  · exact hforgotten

end Lasting

/-- The first half of a reset: the attached networks are resolved anew. -/
def resolveAnew (m : Monitor) : Outcome :=
  Outcome.forEach (fun (requester, net) => sync requester net) m.invalidateAll.display.attached
    m.invalidateAll

theorem reset_eq (react : Reactor) (m : Monitor) :
    m.reset react = m.resolveAnew.andThen fun m => (m.resetMemory react, none) := rfl

/-- A relation that overlooks what watch entries show, and that there are more watch lists. -/
structure OverlooksValues (R : Monitor → Monitor → Prop) : Prop extends Lasting R where
  openList : ∀ (m : Monitor) list, R m (m.openList list)
  valued : ∀ (m : Monitor) serial value, R m (m.modifyEntry serial fun e => { e with value })

theorem OverlooksValues.showValue (h : OverlooksValues R) (m : Monitor) (serial : Nat)
    (r : ResolvedAddress) (data : Bytes) : R m (m.showValue serial r data).1 := by
  unfold Monitor.showValue
  split
  · exact h.valued m serial _
  · split
    · exact h.valued m serial _
    · exact h.refl m

/-- A relation that overlooks what watch lists hold. -/
structure OverlooksLists (R : Monitor → Monitor → Prop) : Prop extends OverlooksValues R where
  watchLists : ∀ (m : Monitor) lists, R m { m with watchLists := lists }
  openList := fun m _ => watchLists m _
  valued := fun m _ _ => watchLists m _

theorem OverlooksLists.modifyEntry (h : OverlooksLists R) (m : Monitor) (serial : Nat)
    (change : WatchEntry → WatchEntry) : R m (m.modifyEntry serial change) :=
  h.watchLists m _

/-- A relation that overlooks what networks show, what the active predicate answers, and what is
noted of evaluations and failures. -/
structure OverlooksEvaluation (R : Monitor → Monitor → Prop) : Prop extends Lasting R where
  evaluated : ∀ m net, R m (m.note (.evaluated net))
  reported : ∀ m report, R m (m.note (.reported report))
  asked : ∀ m : Monitor, R m m.askActive.2
  modifyNetwork : ∀ (m : Monitor) net change,
    (∀ n, m.workspace.network? net = some n → n.Redrawn m.project (change n)) →
      R m (m.modifyNetwork net change)

/-- A relation that overlooks also which networks are due. -/
structure OverlooksNetworks (R : Monitor → Monitor → Prop) : Prop
    extends OverlooksEvaluation R where
  markDue : ∀ (m : Monitor) requester, R m (m.markDue requester)
  unmarked : ∀ m : Monitor, R m { m with display.due := [] }

/-- A relation that overlooks what networks and watch entries show. -/
structure OverlooksDisplay (R : Monitor → Monitor → Prop) : Prop
    extends OverlooksNetworks R, OverlooksValues R

/-- A relation that overlooks what is displayed, and what watch lists hold. -/
structure Overlooks (R : Monitor → Monitor → Prop) : Prop
    extends OverlooksDisplay R, OverlooksLists R

namespace Overlooks

/-- A relation overlooks what is shown if nothing of it matters. -/
theorem of_shown (hlasting : Lasting R) (hevaluated : ∀ m net, R m (m.note (.evaluated net)))
    (hreported : ∀ m report, R m (m.note (.reported report)))
    (hshown : ∀ (m : Monitor) active workspace due watchLists, R m
      { m with active, watchLists, display := { m.display with workspace, due } }) :
    Overlooks R where
  toLasting := hlasting
  evaluated := hevaluated
  reported := hreported
  asked := fun m => hshown m (consult m.active .activeFailed).2 m.workspace m.display.due
    m.watchLists
  modifyNetwork := fun m net change _ => hshown m m.active (m.workspace.modify net change)
    m.display.due m.watchLists
  markDue := by
    intro m requester
    unfold Monitor.markDue
    split
    · exact hlasting.refl m
    · exact hshown m m.active m.workspace _ m.watchLists
  unmarked := fun m => hshown m m.active m.workspace [] m.watchLists
  watchLists := fun m lists => hshown m m.active m.workspace m.display.due lists

end Overlooks

namespace OverlooksEvaluation

variable (h : OverlooksEvaluation R) (m : Monitor)

include h

theorem reportIf {m : Monitor} {o : Outcome} (ho : R m o.1) (report : Report) :
    R m (reportIf o report) := by
  rcases o with ⟨m', fault⟩
  cases fault with
  | none => exact ho
  | some fault => exact h.trans ho (h.reported m' report)

theorem invalidate (net : Nat) : R m (m.invalidate net) :=
  h.modifyNetwork m net Network.invalidate fun n _ => n.redrawn_invalidate _

theorem evaluate (net : Nat) : R m (m.evaluate net).1 := by
  have hasked := h.trans (h.evaluated m net) (h.asked _)
  unfold Monitor.evaluate
  split
  · rename_i heq
    rwa [heq] at hasked
  · rename_i heq
    rwa [heq] at hasked
  · rename_i heq
    rw [heq] at hasked
    split
    · exact hasked
    · rename_i n hnet
      refine h.trans hasked (h.modifyNetwork _ _ _ fun n' hnet' => ?_)
      rw [Option.some.inj (hnet'.symm.trans hnet)]
      exact n.redrawn_evaluate _ _

theorem ask (target : Target) : R m (m.ask target).1 := by
  unfold Monitor.ask
  split <;> exact h.refl m

/-- Telling the listeners stays within a relation that does not mind that they are told. -/
theorem tellAll {react : Reactor} (htold : ∀ m listener, R m (m.note (.told listener)))
    (htell : ∀ listener m, R m (react.tell listener m).1) : R m (m.tellAll react) :=
  h.foldl (fun m listener => h.reportIf (h.trans (htold m listener) (htell listener _)) _) _ m

theorem invalidateAll : R m m.invalidateAll := h.foldl h.invalidate _ m

/-- A network is attached by steps that enter it, resolve its symbols and evaluate it. -/
theorem attach (net : Nat)
    (hentered : R (m.invalidate net) { m.invalidate net with
      display.attached := Assoc.set (m.requesterOf net) net (m.invalidate net).display.attached })
    (hsync : ∀ m', R m' (m'.sync (m.requesterOf net) net).1) : R m (m.attach net).1 :=
  h.andThen (h.trans (h.trans (h.invalidate m net) hentered) (hsync _)) fun m' => h.evaluate m' net

theorem resolveAnew
    (hsync : ∀ entry ∈ m.invalidateAll.display.attached, ∀ m', R m' (sync entry.1 entry.2 m').1) :
    R m m.resolveAnew.1 :=
  h.trans (h.invalidateAll m) (h.forEach hsync _)

theorem reset {react : Reactor}
    (hsync : ∀ entry ∈ m.invalidateAll.display.attached, ∀ m', R m' (sync entry.1 entry.2 m').1)
    (hmemory : ∀ m, R m (m.resetMemory react)) : R m (m.reset react).1 :=
  h.andThen (h.resolveAnew m hsync) hmemory

end OverlooksEvaluation

theorem OverlooksNetworks.flush (h : OverlooksNetworks R) (m : Monitor) : R m m.flush.1 := by
  refine h.trans (h.unmarked m) (h.forEach (fun requester _ m => ?_) _)
  unfold evaluateAttached
  split
  · exact h.evaluate m _
  · exact h.refl m

/-- A relation that overlooks also that watch lists give registrations up. -/
structure OverlooksUnwatching (R : Monitor → Monitor → Prop) : Prop extends OverlooksLists R where
  unregister : ∀ (m : Monitor) range s, R m (m.unregister ⟨.watch, range⟩ s)

namespace OverlooksUnwatching

variable (h : OverlooksUnwatching R) (m : Monitor)

include h

theorem stopEntry (e : WatchEntry) : R m (m.stopEntry e) := by
  unfold Monitor.stopEntry
  split
  · exact h.trans (h.unregister m _ _) (h.modifyEntry _ _ _)
  · exact h.refl m

theorem unwatch (list : Nat) (name : String) : R m (m.unwatch list name) := by
  unfold Monitor.unwatch
  refine h.trans (h.openList m list) ?_
  simp only
  split
  · exact h.refl _
  · exact h.trans (h.watchLists _ _) (h.stopEntry _ _)

theorem clearList (list : Nat) : R m (m.clearList list) :=
  h.trans (h.openList m list) (h.foldl (fun m name => h.unwatch m list name) _ _)

end OverlooksUnwatching

/-- A relation that overlooks all that watch lists do. -/
structure OverlooksEntries (R : Monitor → Monitor → Prop) : Prop extends OverlooksUnwatching R where
  stamp : ∀ m : Monitor, R m m.stamp.1
  subscribeEntry : ∀ (m : Monitor) serial r, R m (m.subscribeEntry serial r).1

namespace OverlooksEntries

variable (h : OverlooksEntries R) (m : Monitor)

include h

theorem startEntry (e : WatchEntry) : R m (m.startEntry e).1 := by
  unfold Monitor.startEntry
  split
  · exact h.refl m
  · rename_i resolved _
    refine h.trans (h.modifyEntry m e.serial fun e => { e with resolved, value := none }) ?_
    simp only
    split
    · exact h.refl _
    · exact h.subscribeEntry _ _ _

theorem watch (list : Nat) (name : String) : R m (m.watch list name).1 := by
  unfold Monitor.watch
  refine h.trans (h.openList m list) ?_
  simp only
  split
  · exact h.refl _
  · exact h.trans (h.trans (h.stamp _) (h.watchLists _ _)) (h.startEntry _ _)

theorem refreshList (list : Nat) : R m (m.refreshList list).1 :=
  h.trans (h.openList m list)
    (h.forEach (fun e _ m => h.trans (h.stopEntry m e) (h.startEntry _ e)) _)

end OverlooksEntries

/-- What commands do that concern neither registrations nor networks. -/
theorem OverlooksEvaluation.perform (h : OverlooksEvaluation R) {command : Command}
    {react : Reactor} {m : Monitor}
    (hswitch : ∀ (m : Monitor) v, command.Switches v → R m (m.move v))
    (hopened : ∀ list, R m (m.openList list))
    (hwatches : command.watches → R m (m.perform react command).1)
    (hother : command.concerns = false) : R m (m.perform react command).1 := by
  cases command with
  | listen listener => exact hswitch m (.listen listener) rfl
  | unlisten listener => exact hswitch m (.unlisten listener) rfl
  | start => exact hswitch m .start rfl
  | stop => exact hswitch m .stop rfl
  | connected change => exact hswitch m (.connected (m.connected.map change)) ⟨change, rfl⟩
  | active change => exact hswitch m (.active (m.active.map change)) ⟨change, rfl⟩
  | device change => exact hswitch m (.device (change m.device)) ⟨change, rfl⟩
  | evaluate net => exact h.evaluate m net
  | resolve target => exact h.ask m target
  | watch | unwatch | clearList | refreshList => exact hwatches rfl
  | openList list => exact hopened list
  | lookUp list name => exact hopened list
  | fail => exact h.refl m
  | _ => cases hother

/-- What commands do that change what is watched. -/
theorem OverlooksEntries.perform (h : OverlooksEntries R) {command : Command}
    (hwatches : command.watches) (react : Reactor) (m : Monitor) :
    R m (m.perform react command).1 := by
  cases command with
  | watch list name => exact h.watch m list name
  | unwatch list name => exact h.unwatch m list name
  | clearList list => exact h.clearList m list
  | refreshList list => exact h.refreshList m list
  | _ => cases hwatches

theorem Overlooks.perform (h : Overlooks R) (hentries : OverlooksEntries R) {command : Command}
    (hswitch : ∀ (m : Monitor) v, command.Switches v → R m (m.move v)) (react : Reactor)
    (hother : command.concerns = false) (m : Monitor) : R m (m.perform react command).1 :=
  h.toOverlooksEvaluation.perform hswitch (h.openList m)
    (fun hwatches => hentries.perform hwatches react m) hother

/-- What happens inside subscribers and listeners stays within a relation. -/
structure Reactor.Within (react : Reactor) (R : Monitor → Monitor → Prop) : Prop where
  deliver : ∀ s data m, R m (react.deliver s data m).1
  tell : ∀ listener m, R m (react.tell listener m).1

/-- Whether those outside give certain commands only. -/
def Gives (m : Monitor) (allowed : Command → Prop) : Prop :=
  ∀ entry ∈ m.reactions, ∀ command ∈ entry.2.commands, allowed command

theorem Gives.of_eq {m m' : Monitor} {allowed : Command → Prop} (h : m.Gives allowed)
    (hreactions : m'.reactions = m.reactions) : m'.Gives allowed := by
  rw [Gives, hreactions]
  exact h

/-- Where nobody outside reacts, nobody gives commands. -/
theorem gives_of_length {m : Monitor} (hnone : m.reactions.length = 0)
    (allowed : Command → Prop) : m.Gives allowed := by
  intro entry hentry
  rw [List.length_eq_zero_iff.1 hnone] at hentry
  cases hentry

/-- What a command does under all reactions, it does inside a reaction. -/
theorem Lasting.performWithin (h : Lasting R) {command : Command}
    (hperform : ∀ (react : Reactor) m, R m (m.perform react command).1) (depth : Nat)
    (m : Monitor) : R m (performWithin depth command m).1 := by
  cases depth with
  | zero => exact h.refl m
  | succ depth => exact hperform _ m

section Reactions

variable (allowed : Command → Prop) (hgiven : ∀ m m', (m.Gives allowed → R m m') → R m m')

include hgiven

section Inside

variable {performInside : Command → Monitor → Outcome}
  (hinside : ∀ command, allowed command → ∀ m, R m (performInside command m).1)

include hinside

/-- Those outside stay within a relation if the commands do that they give. -/
theorem Lasting.reactOutside (h : Lasting R) (name : String) (m : Monitor) :
    R m (m.reactOutside performInside name).1 := by
  refine hgiven _ _ fun hcommands => ?_
  unfold Monitor.reactOutside
  split
  · exact h.refl m
  · rename_i reaction hfound
    have hallowed := hcommands _ (Assoc.mem_of_get? hfound)
    refine h.andThen (h.forEach (fun command hmem m => ?_) m) h.refl
    exact hinside command (hallowed command hmem) m

theorem OverlooksNetworks.tell_reactorOf (h : OverlooksNetworks R) (listener : Listener)
    (m : Monitor) : R m ((reactorOf performInside).tell listener m).1 := by
  cases listener with
  | outside name => exact h.reactOutside allowed hgiven hinside name m
  | display => exact h.flush m

/-- Subscribers and listeners stay within a relation if the commands do that they give. -/
theorem OverlooksDisplay.within_reactorOf (h : OverlooksDisplay R) :
    (reactorOf performInside).Within R where
  deliver := by
    intro s data m
    cases s with
    | outside name => exact h.reactOutside allowed hgiven hinside name m
    | display requester stamp => exact h.markDue m requester
    | watch serial r stamp => exact h.showValue m serial r data
  tell := h.tell_reactorOf allowed hgiven hinside

end Inside

/-- However deep reactions nest, they stay within a relation if each command does whose own
reactions do. -/
theorem OverlooksDisplay.within_reactor (h : OverlooksDisplay R)
    (hperform : ∀ react : Reactor, react.Within R →
      ∀ command, allowed command → ∀ m, R m (m.perform react command).1) :
    reactor.Within R := by
  have hdepth (depth : Nat) (command : Command) (hallowed : allowed command) (m : Monitor) :
      R m (performWithin depth command m).1 := by
    induction depth generalizing command m with
    | zero => exact h.refl m
    | succ depth ih =>
      exact hperform _ (h.within_reactorOf allowed hgiven ih) command hallowed m
  exact h.within_reactorOf allowed hgiven (hdepth reactionDepth)

end Reactions

/-- A relation that overlooks what is displayed, and who is called. -/
structure OverlooksCalls (R : Monitor → Monitor → Prop) : Prop extends OverlooksDisplay R where
  noted : ∀ (m : Monitor) event, event.isCall → R m (m.note event)

namespace OverlooksCalls

variable (h : OverlooksCalls R) (m : Monitor) {react : Reactor} (hreact : react.Within R)

include h hreact

theorem notify (key : RegistrationKey) (data : Bytes) (s : Subscriber) :
    R m (m.notify react key data s) :=
  h.reportIf (h.trans (h.noted m _ rfl) (hreact.deliver s data _)) _

theorem notifyAll (r : Registration) (data : Bytes) : R m (m.notifyAll react r data) :=
  h.foldl (fun m s => h.notify m hreact r.key data s) _ m

theorem serve (start : Int) (data : Bytes) (r : Registration) :
    R m (m.serve react start data r) := by
  unfold Monitor.serve
  simp only
  split
  · exact h.refl m
  · exact h.notifyAll m hreact r _

theorem tell (listener : Listener) : R m (m.tell react listener) :=
  h.reportIf (h.trans (h.noted m _ rfl) (hreact.tell listener _)) _

theorem tellAll : R m (m.tellAll react) :=
  h.foldl (fun m listener => h.tell m hreact listener) _ m

theorem resetMemory (hcleared : R m m.clear) : R m (m.resetMemory react) := by
  have hzeros : R m.clear (m.clear.notifyZeros react) :=
    h.foldl (fun m r => h.notifyAll m hreact r _) _ _
  exact h.trans (h.trans hcleared hzeros) (h.tellAll _ hreact)

end OverlooksCalls

/-- A relation that overlooks what is displayed and watched, and who is called. -/
structure OverlooksWatching (R : Monitor → Monitor → Prop) : Prop
    extends OverlooksCalls R, Overlooks R, OverlooksEntries R

namespace OverlooksWatching

/-- What a relation overlooks is overlooked by every lasting relation that follows from it. -/
theorem mono {R' : Monitor → Monitor → Prop} (h : OverlooksWatching R) (hlasting : Lasting R')
    (hmono : ∀ m m', R m m' → R' m m') : OverlooksWatching R' where
  toLasting := hlasting
  watchLists := fun m lists => hmono _ _ (h.watchLists m lists)
  evaluated := fun m net => hmono _ _ (h.evaluated m net)
  reported := fun m report => hmono _ _ (h.reported m report)
  asked := fun m => hmono _ _ (h.asked m)
  modifyNetwork := fun m net change hredrawn => hmono _ _ (h.modifyNetwork m net change hredrawn)
  markDue := fun m requester => hmono _ _ (h.markDue m requester)
  unmarked := fun m => hmono _ _ (h.unmarked m)
  unregister := fun m range s => hmono _ _ (h.unregister m range s)
  stamp := fun m => hmono _ _ (h.stamp m)
  subscribeEntry := fun m serial r => hmono _ _ (h.subscribeEntry m serial r)
  noted := fun m event hcall => hmono _ _ (h.noted m event hcall)

/-- A relation overlooks what is watched if it does not matter what watch lists register. -/
theorem of_register (h : Overlooks R)
    (hnoted : ∀ (m : Monitor) event, event.isCall → R m (m.note event))
    (hstamp : ∀ m : Monitor, R m m.stamp.1)
    (hregister : ∀ (m : Monitor) range serial r stamp,
      R m (m.register ⟨.watch, range⟩ (.watch serial r stamp)).1)
    (hunregister : ∀ (m : Monitor) range s, R m (m.unregister ⟨.watch, range⟩ s)) :
    OverlooksWatching R where
  toOverlooks := h
  unregister := hunregister
  stamp := hstamp
  subscribeEntry := fun m _ _ =>
    h.trans (h.trans (hstamp m) (h.modifyEntry _ _ _)) (hregister _ _ _ _ _)
  noted := hnoted

end OverlooksWatching

end Monitor

end LadderMonitor
