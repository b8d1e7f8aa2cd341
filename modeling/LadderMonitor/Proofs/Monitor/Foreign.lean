import LadderMonitor.Proofs.Monitor.Records
import LadderMonitor.Proofs.Monitor.Turn
import LadderMonitor.Proofs.Polling.Subscriptions

namespace LadderMonitor

/-- Whether a requester stands for a network. -/
def Requester.OfNetwork (requester : Requester) : Prop :=
  ∃ net name, requester = .ofNetwork net name

theorem Requester.not_ofNetwork_watch : ¬ watch.OfNetwork := by
  rintro ⟨net, name, heq⟩
  unfold ofNetwork at heq
  split at heq
  · cases heq
  · have htexts := congrArg String.toList (named.inj heq)
    rw [String.toList_append] at htexts
    have hlength := congrArg List.length htexts
    simp at hlength

/-- Whether a command neither concerns attached networks nor registers in the name of a network. -/
def Command.Foreign : Command → Prop
  | register key _ | unregister key _ => ¬ key.requester.OfNetwork
  | unregisterAll requester => ¬ requester.OfNetwork
  | reset | attach _ | detach _ => False
  | _ => True

namespace Monitor

variable {m m' m'' : Monitor} {key k : RegistrationKey} {s s' : Subscriber}

theorem registry_startIfActive (m : Monitor) : m.startIfActive.1.registry = m.registry := by
  obtain ⟨_, _, heq⟩ := m.startIfActive_eq
  rw [heq]

/-- A registration adds one subscription, if its range can be polled. -/
theorem holds_register : (m.register key s).1.registry.Holds k s' ↔
    (k = key ∧ s' = s ∧ 0 ≤ key.range.start ∧ 0 < key.range.size) ∨ m.registry.Holds k s' := by
  by_cases hrange : 0 ≤ key.range.start ∧ 0 < key.range.size
  · have hentered : (m.register key s).1 = (m.enter key s).startIfActive.1 := by
      rw [register, if_neg (by simp; omega)]
    have hregistry : (m.enter key s).registry = Registry.add m.nextStamp key s m.registry := rfl
    rw [hentered, registry_startIfActive, hregistry, Registry.holds_add]
    simp [hrange]
  · have hsame : (m.register key s).1 = m := by
      rw [register, if_pos (by simp; omega)]
    rw [hsame]
    simp only [hrange, and_false, false_or]

/-- Whether all that those outside do is foreign. -/
def Foreign (m : Monitor) : Prop :=
  ∀ entry ∈ m.reactions, ∀ command ∈ entry.2.commands, command.Foreign

/-- The same networks are attached, and the same is registered in the name of networks. -/
structure SameNetworks (m m' : Monitor) : Prop where
  reactions : m'.reactions = m.reactions
  attached : m'.display.attached = m.display.attached
  markers : m'.display.markers = m.display.markers
  registered : ∀ r : Registration, r.key.requester.OfNetwork → (r ∈ m'.registry ↔ r ∈ m.registry)

namespace SameNetworks

theorem of_eq (hreactions : m'.reactions = m.reactions)
    (hattached : m'.display.attached = m.display.attached)
    (hmarkers : m'.display.markers = m.display.markers) (hregistry : m'.registry = m.registry) :
    SameNetworks m m' :=
  ⟨hreactions, hattached, hmarkers, fun _ _ => by rw [hregistry]⟩

theorem refl (m : Monitor) : SameNetworks m m := .of_eq rfl rfl rfl rfl

theorem trans (h : SameNetworks m m') (h' : SameNetworks m' m'') : SameNetworks m m'' where
  reactions := h'.reactions.trans h.reactions
  attached := h'.attached.trans h.attached
  markers := h'.markers.trans h.markers
  registered := fun r hr => (h'.registered r hr).trans (h.registered r hr)

theorem holds (h : SameNetworks m m') (hk : k.requester.OfNetwork) :
    m'.registry.Holds k s ↔ m.registry.Holds k s := by
  constructor
  · rintro ⟨r, hr, rfl, hs⟩
    exact ⟨r, (h.registered r hk).1 hr, rfl, hs⟩
  · rintro ⟨r, hr, rfl, hs⟩
    exact ⟨r, (h.registered r hk).2 hr, rfl, hs⟩

theorem foreign (h : SameNetworks m m') (hforeign : m.Foreign) : m'.Foreign := by
  unfold Foreign
  rw [h.reactions]
  exact hforeign

end SameNetworks

/-- Networks are left alone, as long as those outside leave them alone. -/
def SparesNetworks (m m' : Monitor) : Prop := m.Foreign → SameNetworks m m'

theorem lasting_sparesNetworks : Lasting SparesNetworks where
  refl := fun m _ => .refl m
  trans := fun h h' hforeign => (h hforeign).trans (h' ((h hforeign).foreign hforeign))

theorem overlooks_sparesNetworks : Overlooks SparesNetworks :=
  .of_shown lasting_sparesNetworks (fun _ _ _ => .of_eq rfl rfl rfl rfl)
    (fun _ _ _ => .of_eq rfl rfl rfl rfl) fun _ _ _ _ _ _ => .of_eq rfl rfl rfl rfl

/-- A move that neither changes the display nor registers or removes in the name of a network leaves
networks alone. -/
theorem sparesNetworks_move (m : Monitor) {v : Move} (hdisplay : ∀ display, v ≠ .display display)
    (hforeign : ∀ requester, v.Touches requester → ¬ requester.OfNetwork) :
    SparesNetworks m (m.move v) := by
  have hspared := m.spared_move v
  have hsame := hspared.display hdisplay
  exact fun _ => ⟨hspared.reactions, by rw [hsame], by rw [hsame],
    fun r hr => m.mem_registry_move fun htouches => hforeign _ htouches hr⟩

theorem overlooksWatching_sparesNetworks : OverlooksWatching SparesNetworks :=
  .of_register overlooks_sparesNetworks (fun _ _ _ _ => .of_eq rfl rfl rfl rfl)
    (fun _ _ => .of_eq rfl rfl rfl rfl)
    (fun m range _ _ _ => m.sparesNetworks_move (v := .register ⟨.watch, range⟩ _) (by simp) <| by
      rintro _ rfl
      exact Requester.not_ofNetwork_watch)
    fun m range s => m.sparesNetworks_move (v := .unregister ⟨.watch, range⟩ s) (by simp) <| by
      rintro _ rfl
      exact Requester.not_ofNetwork_watch

theorem sparesNetworks_perform (react : Reactor) {command : Command} (hforeign : command.Foreign)
    (m : Monitor) : SparesNetworks m (m.perform react command).1 := by
  cases command with
  | register key s =>
    exact m.sparesNetworks_move (v := .register key s) (by simp) fun _ heq => heq ▸ hforeign
  | unregister key s =>
    exact m.sparesNetworks_move (v := .unregister key s) (by simp) fun _ heq => heq ▸ hforeign
  | unregisterAll requester =>
    exact m.sparesNetworks_move (v := .unregisterAll requester) (by simp)
      fun _ heq => heq ▸ hforeign
  | reset | attach | detach => cases hforeign
  | edit edit => exact fun _ => .of_eq rfl rfl rfl rfl
  | _ =>
    refine overlooks_sparesNetworks.perform overlooksWatching_sparesNetworks.toOverlooksEntries
      (fun m v hswitch => m.sparesNetworks_move ?_ fun _ htouches => ?_) react rfl m
    · rintro _ rfl
      cases hswitch
    · cases v with
      | register | unregister | unregisterAll => cases hswitch
      | _ => cases htouches

/-- Whatever subscribers and listeners do, networks are left alone. -/
theorem within_reactor_sparesNetworks : reactor.Within SparesNetworks :=
  overlooks_sparesNetworks.within_reactor Command.Foreign
    (fun _ _ hspares hforeign => hspares hforeign hforeign)
    fun react _ _ hforeign m => sparesNetworks_perform react hforeign m

theorem overlooksLoop_sparesNetworks : OverlooksLoop SparesNetworks where
  move := by
    intro m v hloop
    refine m.sparesNetworks_move ?_ fun _ htouches => ?_
    · rintro _ rfl
      cases hloop
    · cases v with
      | register | unregister | unregisterAll => cases hloop
      | _ => cases htouches
  closeTick := by
    intro m tick _
    obtain ⟨_, heq⟩ := m.closeTick_eq tick
    rw [heq]
    exact .of_eq rfl rfl rfl rfl

/-- Whether nothing that happens is a call that concerns networks. -/
def Action.Foreign : Action → Prop
  | command c => c.Foreign
  | _ => True

/-- Networks are attached, detached and polled elsewhere only by calls that concern them. -/
theorem sparesNetworks_act (m : Monitor) {action : Action} (hforeign : action.Foreign) :
    SparesNetworks m (m.act action).1 := by
  by_cases hcall : ∃ command, action = .command command
  · obtain ⟨command, rfl⟩ := hcall
    exact overlooksWatching_sparesNetworks.trans (sparesNetworks_perform reactor hforeign m)
      fun _ => .of_eq rfl rfl rfl rfl
  · obtain ⟨list, hlist, heq⟩ := m.loops_act hcall
    rw [← heq]
    exact overlooksLoop_sparesNetworks.turns overlooksWatching_sparesNetworks.toOverlooksCalls
      within_reactor_sparesNetworks m hlist

end Monitor

end LadderMonitor
