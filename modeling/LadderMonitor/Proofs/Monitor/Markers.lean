import LadderMonitor.Proofs.Monitor.Turn
import LadderMonitor.Proofs.Table

namespace LadderMonitor.Monitor

variable {m m' : Monitor} {I : Monitor → Prop} {react : Reactor}

/-- A property that rests on the networks that are attached and on the markers only. -/
structure OnMarkers (I : Monitor → Prop) : Prop where
  of_eq : ∀ {m m' : Monitor}, m'.display.attached = m.display.attached →
    m'.display.markers = m.display.markers → Keeps I m m'

namespace OnMarkers

variable (h : OnMarkers I)

include h

theorem overlooks : Overlooks (Keeps I) :=
  .of_shown (lasting_keeps I) (fun _ _ => h.of_eq rfl rfl) (fun _ _ => h.of_eq rfl rfl)
    fun _ _ _ _ _ => h.of_eq rfl rfl

theorem move (m : Monitor) {v : Move} (hv : ∀ display, v ≠ .display display) :
    Keeps I m (m.move v) := by
  have hsame := (m.spared_move v).display hv
  exact h.of_eq (by rw [hsame]) (by rw [hsame])

theorem overlooksWatching : OverlooksWatching (Keeps I) :=
  .of_register h.overlooks (fun _ _ _ => h.of_eq rfl rfl) (fun _ => h.of_eq rfl rfl)
    (fun m _ _ _ _ => h.move m (v := .register _ _) (by simp))
    fun m _ s => h.move m (v := .unregister _ s) (by simp)

theorem overlooksLoop : OverlooksLoop (Keeps I) where
  move := by
    intro m v hloop
    refine h.move m ?_
    rintro _ rfl
    cases hloop
  closeTick := by
    intro m tick
    obtain ⟨_, heq⟩ := m.closeTick_eq tick
    rw [heq]
    exact h.of_eq rfl rfl

end OnMarkers

/-- A property of this kind that stays where networks are resolved, attached and detached; nothing
else changes what it rests on. -/
structure MarkerInvariant (I : Monitor → Prop) : Prop extends OnMarkers I where
  sync : ∀ (m : Monitor) requester net, Keeps I m (m.sync requester net).1
  attach : ∀ (m : Monitor) net, Keeps I m (m.attach net).1
  detach : ∀ (m : Monitor) net, Keeps I m (m.detach net)

namespace MarkerInvariant

variable (h : MarkerInvariant I)

include h

theorem perform (hreact : react.Within (Keeps I)) (command : Command) (m : Monitor) :
    Keeps I m (m.perform react command).1 := by
  cases command with
  | register key s => exact h.move m (v := .register key s) (by simp)
  | unregister key s => exact h.move m (v := .unregister key s) (by simp)
  | unregisterAll requester => exact h.move m (v := .unregisterAll requester) (by simp)
  | attach net => exact h.attach m net
  | detach net => exact h.detach m net
  | edit edit => exact h.of_eq rfl rfl
  | reset =>
    exact h.overlooks.reset m (fun entry _ m => h.sync m entry.1 entry.2) fun m =>
      h.overlooksWatching.resetMemory m hreact (h.of_eq rfl rfl)
  | _ =>
    refine h.overlooks.perform h.overlooksWatching.toOverlooksEntries
      (fun m v hswitch => h.move m ?_) react rfl m
    rintro _ rfl
    cases hswitch

theorem within_reactor : reactor.Within (Keeps I) :=
  h.overlooks.within_reactor (fun _ => True) (fun _ _ hkeeps => hkeeps fun _ _ _ _ => trivial)
    fun _ hreact command _ m => h.perform hreact command m

theorem turn (m : Monitor) (v : Turn) : Keeps I m (m.turn reactor v) := by
  cases v with
  | command command => exact h.perform h.within_reactor command m
  | _ =>
    exact h.overlooksLoop.turn h.overlooksWatching.toOverlooksCalls h.within_reactor m rfl

theorem turns (m : Monitor) (list : List Turn) : Keeps I m (m.turns reactor list) :=
  (lasting_keeps I).foldl h.turn list m

end MarkerInvariant

/-- Whether every marker is one of its requester. -/
def OwnMarkers (m : Monitor) : Prop :=
  ∀ entry ∈ m.display.markers, ∃ stamp, entry.2 = .display entry.1 stamp

theorem Untouched.ownMarkers (h : m.Untouched) : m.OwnMarkers := by
  simp [OwnMarkers, h.markers]

theorem OwnMarkers.eq_display (h : m.OwnMarkers) {requester : Requester} {s : Subscriber}
    (hs : Assoc.get? requester m.display.markers = some s) :
    ∃ stamp, s = .display requester stamp :=
  h _ (Assoc.mem_of_get? hs)

def KeepsMarkers (m m' : Monitor) : Prop := m.OwnMarkers → m'.OwnMarkers

theorem KeepsMarkers.of_subset (h : ∀ entry ∈ m'.display.markers, entry ∈ m.display.markers) :
    KeepsMarkers m m' :=
  fun hown entry hentry => hown entry (h entry hentry)

theorem onMarkers_ownMarkers : OnMarkers OwnMarkers where
  of_eq := fun _ h => KeepsMarkers.of_subset fun entry hentry => by rwa [h] at hentry

theorem keepsMarkers_marker (m : Monitor) (requester : Requester) :
    KeepsMarkers m (m.marker requester).1 := by
  rcases m.marker_cases requester with ⟨s, -, heq⟩ | ⟨-, heq⟩
  · rw [heq]
    exact (lasting_keeps OwnMarkers).refl m
  · rw [heq]
    intro hown entry hentry
    rcases Assoc.mem_of_mem_set hentry with rfl | hold
    · exact ⟨_, rfl⟩
    · exact hown entry hold

theorem keepsMarkers_sync (m : Monitor) (requester : Requester) (net : Nat) :
    KeepsMarkers m (m.sync requester net).1 :=
  (lasting_keeps OwnMarkers).sync net (m.keepsMarkers_marker requester)
    (fun m _ => onMarkers_ownMarkers.move m (v := .register _ _) (by simp))
    fun m _ => onMarkers_ownMarkers.move m (v := .unregister _ _) (by simp)

theorem markerInvariant_ownMarkers : MarkerInvariant OwnMarkers where
  toOnMarkers := onMarkers_ownMarkers
  sync := keepsMarkers_sync
  attach := fun m net =>
    onMarkers_ownMarkers.overlooks.attach m net (KeepsMarkers.of_subset fun _ => id)
      fun m => m.keepsMarkers_sync _ net
  detach := fun _ net =>
    (lasting_keeps OwnMarkers).detach net (KeepsMarkers.of_subset fun _ => List.mem_of_mem_filter)
      fun m => onMarkers_ownMarkers.move m (v := .unregisterAll _) (by simp)

/-- Whatever happens, every marker stays one of its requester. -/
theorem OwnMarkers.turns (h : m.OwnMarkers) (list : List Turn) :
    (m.turns reactor list).OwnMarkers :=
  markerInvariant_ownMarkers.turns m list h

end LadderMonitor.Monitor
