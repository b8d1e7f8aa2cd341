import LadderMonitor.Proofs.Monitor.HalfAttached
import LadderMonitor.Proofs.Monitor.Markers

namespace LadderMonitor.Monitor

variable {m m' : Monitor} {requester : Requester} {s : Subscriber}

/-- Whether every attached network has a marker. -/
def Marked (m : Monitor) : Prop :=
  ∀ entry ∈ m.display.attached, Assoc.get? entry.1 m.display.markers ≠ none

theorem onMarkers_marked : OnMarkers Marked where
  of_eq := by
    intro m m' hattached hmarkers h
    rw [Marked, hattached, hmarkers]
    exact h

theorem Marked.set_markers (h : m.Marked)
    (hattached : ∀ entry ∈ m'.display.attached, entry.1 = requester ∨ entry ∈ m.display.attached)
    (hmarkers : m'.display.markers = Assoc.set requester s m.display.markers) : m'.Marked := by
  intro entry hentry
  rw [hmarkers, Assoc.get?_set]
  split
  · simp
  · rename_i hother
    exact h entry ((hattached entry hentry).resolve_left hother)

theorem marked_sync (m : Monitor) (requester : Requester) (net : Nat) :
    Keeps Marked m (m.sync requester net).1 := by
  refine fun h => h.set_markers (fun entry hentry => ?_) (m.markers_sync requester net)
  rw [(m.sameShown_sync requester net).attached] at hentry
  exact .inr hentry

/-- A network that is attached gets a marker before anything can fail. -/
theorem marked_attach (m : Monitor) (net : Nat) : Keeps Marked m (m.attach net).1 := by
  intro h
  obtain ⟨before, heq, -, hsame, hattached, -⟩ := m.attach_spec net
  have hsynced : (before.sync (m.requesterOf net) net).1.Marked := by
    refine h.set_markers (fun entry hentry => ?_)
      ((before.markers_sync (m.requesterOf net) net).trans (by rw [hsame.markers]))
    rw [(before.sameShown_sync (m.requesterOf net) net).attached, hattached] at hentry
    rcases Assoc.mem_of_mem_set hentry with rfl | hold
    · exact .inl rfl
    · exact .inr hold
  rw [heq]
  exact (lasting_keeps Marked).andThen (m := (before.sync (m.requesterOf net) net).1) id
    (fun m' => onMarkers_marked.overlooks.evaluate m' net) hsynced

theorem marked_detach (m : Monitor) (net : Nat) : Keeps Marked m (m.detach net) := by
  refine (lasting_keeps Marked).detach net (fun h entry hentry => ?_)
    fun m' => onMarkers_marked.move m' (v := .unregisterAll _) (by simp)
  obtain ⟨hold, hother⟩ := List.mem_filter.1 hentry
  rw [Assoc.get?_erase, if_neg (by simpa using hother)]
  exact h entry hold

theorem markerInvariant_marked : MarkerInvariant Marked where
  toOnMarkers := onMarkers_marked
  sync := marked_sync
  attach := marked_attach
  detach := marked_detach

theorem InService.marked (h : m.InService) : m.Marked := by
  induction h with
  | opened huntouched => simp [Marked, huntouched.attached]
  | turn _ v _ ih => exact markerInvariant_marked.turn _ v ih

end LadderMonitor.Monitor
